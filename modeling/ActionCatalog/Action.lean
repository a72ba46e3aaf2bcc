import ActionCatalog.Body.Expansion
import ActionCatalog.Registry

/-! Operations seen as actions with one dictionary of inputs, before any mask is applied. -/
namespace ActionCatalog

structure Action where
  name : String
  description : String
  enabled : Bool := true
  path : String
  inputs : Dict Input
  deriving DecidableEq, Repr

/-- The input for a parameter of an operation. -/
def Parameter.input (p : Parameter) : Input := .ofSchema (p.schema.getD {}) p.required p.description

namespace Action

/-- The fields of the default body of an operation. -/
def bodyFields (c : Components) (o : Operation) : Except Failure Body.Expansion :=
  match o.defaultPayload? with
  | none => .ok {}
  | some payload =>
    match payload.schema with
    | none => .ok {}
    | some s => Body.expand c s payload.required

/-- The inputs of an operation. Of two with one name the later counts, and the body comes last. -/
def inputsOf (o : Operation) (fields : List (String × Input)) : Dict Input :=
  (Dict.ofList (o.parameters.map fun p => (p.name,p.input))).insertAll fields

/-- The action of an operation, and the chains of references that its body cuts short. -/
def ofOperation (c : Components) (o : Operation) : Except Failure (Action × List (List String)) := do
  let body ← bodyFields c o
  return ({ name := o.id, description := o.summary, path := o.path, inputs := inputsOf o body.fields },
    body.cuts)

end Action

/-- Everything found in a document: its actions by name, and the chains of references cut short. -/
structure Discovery where
  registry : Registry
  actions : List Action
  cuts : List (List String)

namespace Discovery

def sort (actions : List Action) : List Action := actions.mergeSort fun a b => a.name ≤ b.name

def ofDocument (d : Document) (declared : DeclaredSecurity) : Except Failure Discovery := do
  let registry ← Registry.extract d declared
  let found ← registry.operations.mapM (Action.ofOperation d.components)
  return ⟨registry,sort (found.map (·.1)),found.flatMap (·.2)⟩

end Discovery
end ActionCatalog
