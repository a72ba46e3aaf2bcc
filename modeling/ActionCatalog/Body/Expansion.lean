import ActionCatalog.Body.Path
import ActionCatalog.Failure
import ActionCatalog.Input

/-! The fields of a body: every property that has no properties itself, under the name of its path.
References being followed are kept on a stack; one that is on it already is cut. -/
namespace ActionCatalog.Body

/-- Fields in the order in which they are met, and the chains of references that were cut. -/
structure Expansion where
  fields : List (String × Input) := []
  cuts : List (List String) := []
  deriving DecidableEq, Repr

namespace Expansion

def append (a b : Expansion) : Expansion := ⟨a.fields ++ b.fields,a.cuts ++ b.cuts⟩

instance : Append Expansion := ⟨append⟩

@[simp] theorem fields_append (a b : Expansion) : (a ++ b).fields = a.fields ++ b.fields := rfl
@[simp] theorem cuts_append (a b : Expansion) : (a ++ b).cuts = a.cuts ++ b.cuts := rfl

/-- The expansions of a list one after another. -/
def gather {α : Type} (f : α → Except Failure Expansion) : List α → Except Failure Expansion
  | [] => .ok {}
  | x :: rest => do
    let here ← f x
    let behind ← gather f rest
    return here ++ behind

end Expansion

/-- Where a path leads, for messages. -/
def place (path : String) : String := if path = "" then "request body" else s!"body property '{path}'"

/-- Follows a node, unless it refers to a component that is being followed. -/
def enter (c : Components) (stack : List String) (path : String) (node : RefOr Schema)
    (go : Schema → List String → Except Failure Expansion) : Except Failure Expansion :=
  match node with
  | .inline s => go s stack
  | .reference target _ =>
    match Pointer.localName target with
    | .malformed => .error (.unresolved target (place path) (.malformed target))
    | .elsewhere => do go (← node.blame (place path) (c.schema node)) stack
    | .named name =>
      if name ∈ stack then .ok { cuts := [stack ++ [name]] }
      else do go (← node.blame (place path) (c.schema node)) (stack ++ [name])

/-- A field is described by its own schema, or else beside the reference to it. -/
def describe (s : Schema) (node : RefOr Schema) : String := Text.firstOf s.description node.note?

/-- The fields at a property of a schema: those inside it, and its own if it has no properties. A field is
required if its whole path is. -/
def atProperty (c : Components) (go : List String → Schema → String → Bool → Except Failure Expansion)
    (stack : List String) (s : Schema) (path : String) (required : Bool) :
    String × RefOr Schema → Except Failure Expansion
  | (name,node) =>
    let path := join path name
    let required := required && s.requires name
    enter c stack path node fun property stack => do
      let inner ← go stack property path required
      return if property.hasProperties then inner
        else inner ++ { fields := [(path,.ofSchema property required (describe property node))] }

/-- The fields of a schema at a path, following no chain of more than `n` nodes. -/
def expandTo (c : Components) : Nat → List String → Schema → String → Bool → Except Failure Expansion
  | 0, _, _, path, _ => .error (.endless (place path))
  | n+1, stack, s, path, required => do
    let composed ← Expansion.gather
      (fun branch => enter c stack path branch fun s stack => expandTo c n stack s path required) s.branches
    let own ← Expansion.gather (atProperty c (expandTo c n) stack s path required) s.properties.entries
    return composed ++ own

/-- The longest chain of nodes that does not run in a circle: between two named references lie only
nodes of the components, each of them no deeper than the deepest schema. -/
def budget (c : Components) (s : Schema) : Nat :=
  let n := c.schemas.size + 1
  n * n * ((c.schemas.values.map Schema.nodeDepth).foldl max s.depth + 1) + 1

/-- The fields of a whole body. -/
def expand (c : Components) (s : Schema) (required : Bool) : Except Failure Expansion :=
  expandTo c (budget c s) [] s "" required

end ActionCatalog.Body
