import ActionCatalog.Dict
import ActionCatalog.Input
import ActionCatalog.Yaml.Writer

/-! Catalogs of named actions, and their form as YAML. -/
namespace ActionCatalog

/-- An action by name, with what to run for it and the templates of the values to run it with. -/
structure NamedAction where
  name : String
  displayName : String
  description : String
  enabled : Bool := true
  parameters : Dict Input := ∅
  actionToRun : String
  values : Dict String := ∅
  isConnectionOptional : Option Bool := none
  deriving DecidableEq, Repr

structure Catalog where
  name : String
  connectionTypes : Dict Yaml.Data
  iconUri : String
  isConnectionOptional : Bool
  actions : List NamedAction
  deriving DecidableEq, Repr

open Yaml

/-- A member that is left out where there is nothing to say. -/
def unlessEmpty (name text : String) : List (String × Data) := if text = "" then [] else [(name,.text text)]

namespace Input

def members (i : Input) : List (String × Data) :=
  (match i.category with
    | some c => [("type",.text c.text)]
    | none => [])
  ++ [("description",.text i.description)]
  ++ unlessEmpty "placeholder" i.placeholder
  ++ [("required",.bool i.required)]
  ++ unlessEmpty "default" i.default
  ++ (if i.options.isEmpty then [] else [("options",.list (i.options.map .text))])
  ++ [("index",.number (.int i.index))]
  ++ unlessEmpty "format" i.format
  ++ [("is_multi",.bool i.isMulti)]
  ++ unlessEmpty "display_name" i.displayName

def data (i : Input) : Data := .record i.members

end Input

/-- A dictionary as a map. -/
def Dict.data {α : Type} (d : Dict α) (f : α → Data) : Data := .record (d.entries.map fun e => (e.1,f e.2))

namespace NamedAction

def members (a : NamedAction) : List (String × Data) :=
  [("name",.text a.name), ("display_name",.text a.displayName), ("description",.text a.description),
    ("enabled",.bool a.enabled), ("parameters",a.parameters.data Input.data),
    ("action_to_run",.text a.actionToRun), ("action_to_run_param_values",a.values.data .text)]
  ++ match a.isConnectionOptional with
    | some b => [("is_connection_optional",.bool b)]
    | none => []

def data (a : NamedAction) : Data := .record a.members

end NamedAction

namespace Catalog

def members (c : Catalog) : List (String × Data) :=
  [("name",.text c.name), ("connection_types",c.connectionTypes.data id), ("icon_uri",.text c.iconUri),
    ("is_connection_optional",.bool c.isConnectionOptional), ("actions",.list (c.actions.map NamedAction.data))]

def data (c : Catalog) : Data := .record c.members

/-- The text of a catalog, if its connection types can be written. -/
def print? (c : Catalog) : Option String := Yaml.print? (c.members.map fun e => (.text e.1,e.2))

end Catalog
end ActionCatalog
