import ActionCatalog.Json.Value

/-! Documents as they were written, before any type is asked of them. -/
namespace ActionCatalog

/-- How a scalar stands in a YAML text. -/
inductive Style where
  | plain | singleQuoted | doubleQuoted | literal | folded
  deriving DecidableEq, Repr

/-- A scalar of a YAML text, whose type depends on what is asked of it. -/
structure Written where
  text : String
  style : Style := .plain
  tag : Option String := none
  deriving DecidableEq, Repr

/-- A node of a document. Scalars of a JSON text have a type of their own; `cycle` stands for a node
that contains itself. -/
inductive Tree where
  | null
  | bool (b : Bool)
  | number (n : Number)
  | text (s : String)
  | written (w : Written)
  | list (tag : Option String) (items : List Tree)
  | record (tag : Option String) (entries : List (Tree × Tree))
  | cycle
  deriving Repr

instance : Inhabited Tree := ⟨.null⟩

namespace Tree

/-- What an absent node reads as. -/
def empty : Tree := .written { text := "" }

def ofMembers (entries : List (String × Tree)) : Tree := .record none (entries.map fun e => (.text e.1, e.2))

mutual
def ofValue : Value → Tree
  | .null => .null
  | .bool b => .bool b
  | .number n => .number n
  | .text s => .text s
  | .list items => .list none (ofValues items)
  | .object members => .record none (ofValueMembers members)

def ofValues : List Value → List Tree
  | [] => []
  | v :: rest => ofValue v :: ofValues rest

def ofValueMembers : List (String × Value) → List (Tree × Tree)
  | [] => []
  | (k,v) :: rest => (.text k, ofValue v) :: ofValueMembers rest
end

mutual
/-- The number of collections that lie inside one another. -/
def depth : Tree → Nat
  | .list _ items => itemsDepth items + 1
  | .record _ entries => entriesDepth entries + 1
  | _ => 0

def itemsDepth : List Tree → Nat
  | [] => 0
  | t :: rest => max t.depth (itemsDepth rest)

def entriesDepth : List (Tree × Tree) → Nat
  | [] => 0
  | (k,v) :: rest => max (max k.depth v.depth) (entriesDepth rest)
end

end Tree
end ActionCatalog
