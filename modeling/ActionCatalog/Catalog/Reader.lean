import ActionCatalog.Catalog
import ActionCatalog.Tree.Read
import ActionCatalog.Yaml.Node

/-! Reading catalogs. -/
namespace ActionCatalog
open ActionCatalog.Tree

def Input.read? (t : Tree) : Option Input := do
  let o ← t.fields?
  return {
    category := (← o.optional? "type" asText?).map Category.ofText
    description := ← o.defaulted? "description" asText? ""
    placeholder := ← o.defaulted? "placeholder" asText? ""
    required := ← o.defaulted? "required" asBool? false
    default := ← o.defaulted? "default" asText? ""
    options := ← o.list? "options" asText?
    index := ← o.defaulted? "index" asInteger? 999
    format := ← o.defaulted? "format" asText? ""
    isMulti := ← o.defaulted? "is_multi" asBool? false
    displayName := ← o.defaulted? "display_name" asText? "" }

def NamedAction.read? (t : Tree) : Option NamedAction := do
  let o ← t.fields?
  return {
    name := ← o.required? "name" asText?
    displayName := ← o.required? "display_name" asText?
    description := ← o.required? "description" asText?
    enabled := ← o.required? "enabled" asBool?
    parameters := ← o.required? "parameters" (asDict? Input.read?)
    actionToRun := ← o.required? "action_to_run" asText?
    values := ← o.required? "action_to_run_param_values" (asDict? asText?)
    isConnectionOptional := ← o.optional? "is_connection_optional" asBool? }

namespace Catalog

def ofTree? (t : Tree) : Option Catalog := do
  let o ← t.fields?
  return {
    name := ← o.required? "name" asText?
    connectionTypes := ← o.required? "connection_types" (asDict? Yaml.Data.ofTree?)
    iconUri := ← o.required? "icon_uri" asText?
    isConnectionOptional := ← o.required? "is_connection_optional" asBool?
    actions := ← o.required? "actions" (asList? NamedAction.read?) }

/-- The catalog of a YAML text. -/
def read? (text : String) : Option Catalog := (Yaml.read? text).bind ofTree?

end Catalog
end ActionCatalog
