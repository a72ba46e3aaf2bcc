import ActionCatalog.Dict
import ActionCatalog.Json.Value

/-! Schemas, as far as they describe the inputs of an action. -/
namespace ActionCatalog

inductive DataType where
  | boolean | integer | number | string | array | object | null
  deriving DecidableEq, Repr

/-- The types that a schema admits: one, or a list. -/
inductive TypeSet where
  | one (t : DataType)
  | several (ts : List DataType)
  deriving DecidableEq, Repr

/-- Something written in place, or a reference to it, which may carry a description of its own. -/
inductive RefOr (α : Type) where
  | reference (target : String) (description : Option String)
  | inline (value : α)
  deriving Repr

structure Schema where
  types : Option TypeSet := none
  allOf : List (RefOr Schema) := []
  anyOf : List (RefOr Schema) := []
  oneOf : List (RefOr Schema) := []
  declared : List (String × RefOr Schema) := []
  required : List String := []
  choices : List Value := []
  preset : Option Value := none
  sample : Option Value := none
  description : Option String := none
  format : Option String := none
  deriving Repr

namespace Schema

instance : Inhabited Schema := ⟨{}⟩

/-- The properties by name; of two with one name the later counts. -/
def properties (s : Schema) : Dict (RefOr Schema) := .ofList s.declared

def hasProperties (s : Schema) : Bool := !s.declared.isEmpty

/-- The schemas composed into this one, at the same place of a value. -/
def branches (s : Schema) : List (RefOr Schema) := s.allOf ++ s.anyOf ++ s.oneOf

/-- The type, where there is one besides null: a single one, or one of a pair with null. -/
def soleType? (s : Schema) : Option DataType :=
  match s.types with
  | none => none
  | some (.one t) => some t
  | some (.several ts) =>
    match ts.filter (· ≠ .null) with
    | [t] => if ts.length = 2 then some t else none
    | _ => none

/-- The texts among the values that a schema allows. -/
def options (s : Schema) : List String := s.choices.filterMap Value.asText?

def requires (s : Schema) (name : String) : Bool := s.required.contains name

mutual
/-- How many schemas lie inside one another without a reference between them. -/
def depth : Schema → Nat
  | ⟨_,allOf,anyOf,oneOf,declared,_,_,_,_,_,_⟩ =>
    1 + max (max (listDepth allOf) (listDepth anyOf)) (max (listDepth oneOf) (entriesDepth declared))

def nodeDepth : RefOr Schema → Nat
  | .reference .. => 0
  | .inline s => s.depth

def listDepth : List (RefOr Schema) → Nat
  | [] => 0
  | n :: rest => max (nodeDepth n) (listDepth rest)

def entriesDepth : List (String × RefOr Schema) → Nat
  | [] => 0
  | (_,n) :: rest => max (nodeDepth n) (entriesDepth rest)
end

end Schema

namespace RefOr

def isReference {α : Type} : RefOr α → Bool
  | reference .. => true
  | inline _ => false

/-- The description beside a reference. -/
def note? {α : Type} : RefOr α → Option String
  | reference _ d => d
  | inline _ => none

end RefOr
end ActionCatalog
