import ActionCatalog.Dict
import ActionCatalog.Yaml.Scalar

/-! Asking a type of a node. A scalar of a YAML text answers by its letters where a text, a truth value
or an integer is asked for, and an empty one stands for an empty list or dictionary. -/
namespace ActionCatalog.Tree
open Yaml

def asText? : Tree → Option String
  | .text s => some s
  | .written w => some w.text
  | _ => none

/-- Whether a scalar answers for the type of the given tag by its letters. -/
def speaksFor (type : String) (w : Written) : Bool :=
  w.style = .plain || (w.style = .literal && w.tag = some (ownTag type))

def asBool? : Tree → Option Bool
  | .bool b => some b
  | .written w => if speaksFor "bool" w then bool? w.text.toList else none
  | _ => none

/-- An integer of 64 bits. -/
def asInteger? : Tree → Option Int
  | .number (.int i) => if isWord i then some i else none
  | .written w => if speaksFor "int" w then (integer? w.text.toList).filter isWord else none
  | _ => none

/-- A natural number of 64 bits. -/
def asNatural? : Tree → Option Nat
  | .number (.int i) => if 0 ≤ i && isStorable i then some i.toNat else none
  | .written w =>
    if speaksFor "int" w then
      ((integer? w.text.toList).filter fun i => 0 ≤ i && isStorable i).map Int.toNat
    else none
  | _ => none

def asNumber? : Tree → Option Number
  | .number n => some n
  | _ => none

def isEmptyScalar : Tree → Bool
  | .written w => w.text = "" && w.style = .plain
  | _ => false

def asList? {α : Type} (f : Tree → Option α) : Tree → Option (List α)
  | .list _ items => items.mapM f
  | t => if t.isEmptyScalar then some [] else none

/-- Entries under text keys; a later entry replaces an earlier one. -/
def asDict? {α : Type} (f : Tree → Option α) : Tree → Option (Dict α)
  | .record _ entries => do return .ofList (← entries.mapM fun (k,v) => do return (← k.asText?, ← f v))
  | t => if t.isEmptyScalar then some ∅ else none

/-- Something or nothing: a null, or a plain scalar that is empty or spells a null. -/
def optional? {α : Type} (f : Tree → Option α) : Tree → Option (Option α)
  | .null => some none
  | .written w =>
    if w.style ≠ .plain then (f (.written w)).map some
    else if w.tag = some (ownTag "null") then if isNull w.text.toList then some none else none
    else if w.tag.isNone && (w.text = "" || isNull w.text.toList) then some none
    else (f (.written w)).map some
  | t => (f t).map some

end Tree

/-- The entries of an object under their names. -/
abbrev Fields := List (String × Tree)

namespace Tree

def fields? : Tree → Option Fields
  | .record _ entries => entries.mapM fun (k,v) => do return (← k.asText?, v)
  | t => if t.isEmptyScalar then some [] else none

end Tree

namespace Fields
variable {α : Type}

/-- The entry of a name. A name that is asked for may be given only once. -/
def member? (o : Fields) (name : String) : Option (Option Tree) :=
  match o.filter (·.1 == name) with
  | [] => some none
  | [e] => some (some e.2)
  | _ => none

def required? (o : Fields) (name : String) (f : Tree → Option α) : Option α := do (← o.member? name).bind f

def defaulted? (o : Fields) (name : String) (f : Tree → Option α) (d : α) : Option α := do
  match ← o.member? name with
  | none => some d
  | some t => f t

def optional? (o : Fields) (name : String) (f : Tree → Option α) : Option (Option α) :=
  o.defaulted? name (Tree.optional? f) none

def list? (o : Fields) (name : String) (f : Tree → Option α) : Option (List α) :=
  o.defaulted? name (Tree.asList? f) []

def dict? (o : Fields) (name : String) (f : Tree → Option α) : Option (Dict α) :=
  o.defaulted? name (Tree.asDict? f) ∅

end Fields
end ActionCatalog
