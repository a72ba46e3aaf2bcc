import ActionCatalog.Body.Path
import ActionCatalog.Dict
import ActionCatalog.Failure
import ActionCatalog.Body.Expansion

/-! The template of a body: an object that holds, for each field, the expression that fills it in. -/
namespace ActionCatalog.Body

/-- What a search has come to: the schema it found, if any, and the components it went through. -/
structure Search where
  found : Option Schema
  seen : List String

/-- Goes through nodes in turn until one of them yields something. -/
def firstFound (f : List String → RefOr Schema → Except Failure Search) :
    List String → List (RefOr Schema) → Except Failure Search
  | seen, [] => .ok ⟨none,seen⟩
  | seen, node :: rest => do
    let r ← f seen node
    match r.found with
    | some _ => return r
    | none => firstFound f r.seen rest

/-- What a node leads to, or nothing if it leads nowhere; a malformed reference is not passed over. -/
def tryResolve (c : Components) (place : String) (node : RefOr Schema) : Except Failure (Option Schema) :=
  match c.schema node with
  | .ok s => .ok (some s)
  | .error (.malformed r) => .error (.unresolved node.target place (.malformed r))
  | .error (.endless r) => .error (.unresolved node.target place (.endless r))
  | .error _ => .ok none

/-- Goes on into what a node leads to, unless it refers to a component that was gone through already. -/
def visit (c : Components) (name : String) (go : List String → Schema → Except Failure Search)
    (seen : List String) (node : RefOr Schema) : Except Failure Search :=
  let follow (seen : List String) : Except Failure Search := do
    match ← tryResolve c (place name) node with
    | some branch => go seen branch
    | none => return ⟨none,seen⟩
  match node with
  | .inline _ => follow seen
  | .reference target _ =>
    match Pointer.localName target with
    | .malformed => .error (.unresolved target (place name) (.malformed target))
    | .elsewhere => follow seen
    | .named ref => if ref ∈ seen then return ⟨none,seen⟩ else follow (ref :: seen)

/-- Searches a property in a schema and then in what is composed into it, going through no component
twice. -/
def searchTo (c : Components) (name : String) : Nat → List String → Schema → Except Failure Search
  | 0, _, _ => .error (.endless (place name))
  | n+1, seen, s =>
    match s.properties.get? name with
    | some node => do return ⟨← tryResolve c (place name) node,seen⟩
    | none => firstFound (visit c name (searchTo c name n)) seen s.branches

/-- The schema of a property, own or composed. -/
def property? (c : Components) (s : Schema) (name : String) : Except Failure (Option Schema) := do
  return (← searchTo c name (budget c s) [] s).found

/-- The schema at the end of a path of names. -/
def descend (c : Components) : Schema → List String → Except Failure (Option Schema)
  | s, [] => .ok (some s)
  | s, name :: rest => do
    match ← property? c s name with
    | none => return none
    | some p => descend c p rest

/-- The expression that puts a parameter in its place, cast to the type wanted there. -/
def placeholder (type : Option DataType) (name : String) : Value :=
  let call (f : String) : String := "\x7b\x7b" ++ f ++ "(params." ++ name ++ ")\x7d\x7d"
  match type with
  | some .string => .text ("\x7b\x7bparams." ++ name ++ "\x7d\x7d")
  | some .integer => .text (call "int")
  | some .number => .text (call "int")
  | some .boolean => .text (call "bool")
  | some .array => .list [.text (call "arr")]
  | _ => .text (call "obj")

def membersOf : Option Value → List (String × Value)
  | some (.object members) => members
  | _ => []

/-- Puts a leaf at a path into an object whose keys ascend. Where a leaf and an object meet, the object
stays. -/
def put (leaf : Value) : List String → List (String × Value) → List (String × Value)
  | [], members => members
  | [key], members =>
    match members.lookup key with
    | some (.object _) => members
    | _ => Dict.put key leaf members
  | key :: rest, members => Dict.put key (.object (put leaf rest (membersOf (members.lookup key)))) members

/-- The members of a body for the fields among the given names, put in one after another. -/
def members (c : Components) (s : Schema) : List String → List (String × Value) →
    Except Failure (List (String × Value))
  | [], found => .ok found
  | name :: names, found => do
    let path := segments name
    match ← descend c s path with
    | none => members c s names found
    | some leaf => members c s names (put (placeholder leaf.soleType? name) path found)

/-- The template of a body for the fields among the given names; other names are passed over. -/
def template (c : Components) (s : Schema) (names : List String) : Except Failure String := do
  return Json.print (.object (← members c s names []))

end ActionCatalog.Body
