import ActionCatalog.Operation
import ActionCatalog.Warning

/-! The operations of a document by their ids. -/
namespace ActionCatalog

/-- Operations with ids of their own, in the order in which the ids came up, and what was noticed. -/
structure Registry where
  operations : List Operation := []
  warnings : List Warning := []

namespace Registry

instance : Inhabited Registry := ⟨{}⟩

def get? (r : Registry) (id : String) : Option Operation := r.operations.find? (·.id == id)

/-- Puts an operation in the place of the one with its id, or at the end. -/
def place (o : Operation) : List Operation → List Operation
  | [] => [o]
  | p :: rest => if p.id = o.id then o :: rest else p :: place o rest

/-- Registers an operation. One that takes the place of another leaves a warning. -/
def insert (r : Registry) (o : Operation) : Registry where
  operations := place o r.operations
  warnings :=
    match r.get? o.id with
    | none => r.warnings
    | some old => r.warnings ++ [.duplicateOperation o.id old.title o.title]

/-- The operations of one path, built in the order in which they are visited. -/
def ofPath (d : Document) (declared : DeclaredSecurity) (path : String) (item : Document.PathItem) :
    Except Failure (List Operation) := do
  let shared ← item.parameters.mapM (Parameter.resolve d.components path)
  item.visits.mapM fun (method,o) => Operation.build d declared path item shared method o

/-- All operations of a document, path by path; the first failure ends the work. -/
def visited (d : Document) (declared : DeclaredSecurity) : Except Failure (List Operation) := do
  return (← d.paths.entries.mapM fun (path,item) => ofPath d declared path item).flatten

def ofOperations (os : List Operation) : Registry := os.foldl insert {}

/-- Registers the operations of a document. -/
def extract (d : Document) (declared : DeclaredSecurity) : Except Failure Registry :=
  ofOperations <$> visited d declared

end Registry
end ActionCatalog
