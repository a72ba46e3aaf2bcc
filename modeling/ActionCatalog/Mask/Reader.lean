import ActionCatalog.Mask
import ActionCatalog.Text.Piece
import ActionCatalog.Tree.Read
import ActionCatalog.Yaml.Node

/-! Reading masks. An entry without a value is an empty one. -/
namespace ActionCatalog.Mask
open ActionCatalog.Tree

/-- What is wrong with the text of a mask. -/
inductive Fault where
  | unreadable
  | conflict (failure : Failure)
  deriving DecidableEq, Repr

/-- Entries that may lack a value, in a dictionary that may be lacking too. -/
def entries? {α : Type} (f : Tree → Option α) (absent : α) (t : Tree) : Option (Dict α) := do
  match ← Tree.optional? (asDict? (Tree.optional? f)) t with
  | none => return ∅
  | some d => return d.map fun _ v => v.getD absent

def Parameter.read? (t : Tree) : Option Mask.Parameter := do
  let o ← t.fields?
  return {
    nickname := ← o.optional? "alias" asText?
    required := ← o.optional? "required" asBool?
    type := ← o.optional? "type" asText?
    index := ← o.defaulted? "index" asInteger? 0
    isMulti := ← o.defaulted? "is_multi" asBool? false
    default := ← o.optional? "default" asText?
    description := ← o.optional? "description" asText? }

def Action.read? (t : Tree) : Option Mask.Action := do
  let o ← t.fields?
  return {
    nickname := ← o.optional? "alias" asText?
    displayName := ← o.optional? "display_name" asText?
    description := ← o.optional? "description" asText?
    isConnectionOptional := ← o.optional? "is_connection_optional" asBool?
    parameters := ← o.defaulted? "parameters" (entries? Parameter.read? {}) ∅ }

/-- Reads a mask, whatever its aliases are. -/
def ofTree? (t : Tree) : Option Mask := do
  let o ← t.fields?
  return {
    requestUrlConnection := ← o.optional? "request_url_conn_type" asText?
    requestUrl := ← o.optional? "request_url" asText?
    actions := ← o.defaulted? "actions" (entries? Action.read? {}) ∅
    name := ← o.defaulted? "name" asText? ""
    connectionTypes := ← o.dict? "connection_types" Yaml.Data.ofTree?
    iconUri := ← o.defaulted? "icon_uri" asText? ""
    isConnectionOptional := ← o.defaulted? "is_connection_optional" asBool? false }

/-- Refuses a mask whose aliases are in conflict. -/
def check (m : Mask) : Except Fault Mask :=
  match m.conflict? with
  | some failure => .error (.conflict failure)
  | none => .ok m

/-- Masks are written with needless backslashes, so none of them is looked at. -/
def dropBackslashes (text : List Char) : List Char := text.filter (· ≠ '\\')

/-- The mask of a text; a blank one is the empty mask. -/
def read (text : String) : Except Fault Mask :=
  let text := dropBackslashes text.toList
  if text.all Text.isBlank then .ok {}
  else match (Yaml.read? (.ofList text)).bind ofTree? with
    | none => .error .unreadable
    | some m => check m

end ActionCatalog.Mask
