import ActionCatalog.Document.Model
import ActionCatalog.Document.Reference

/-! Following references to the components they name. A component may be a reference itself. -/
namespace ActionCatalog

/-- Why a reference leads nowhere. -/
inductive Obstacle where
  | malformed (reference : String)
  | unknownKind (kind : String)
  | otherKind (found wanted : Kind)
  | missing (reference : String)
  | endless (reference : String)
  deriving DecidableEq, Repr

def Obstacle.reason : Obstacle → String
  | malformed reference => "Malformed reference: " ++ reference
  | unknownKind kind => "Invalid type: " ++ kind
  | otherKind found wanted =>
    "Mismatched type: cannot reference a " ++ found.title ++ " as a " ++ wanted.title
  | missing reference => "Unresolvable path: " ++ reference
  | endless reference => "Endless reference: " ++ reference

/-- The name under which a component of a wanted kind is looked up. -/
def Pointer.nameOf (wanted : Kind) (target : String) : Except Obstacle String :=
  match parse? target.toList with
  | none => .error (.malformed target)
  | some p =>
    match Kind.ofSection? p.kind with
    | none => .error (.unknownKind (.ofList p.kind))
    | some found => if found = wanted then .ok (.ofList p.name) else .error (.otherKind found wanted)

namespace RefOr
variable {α : Type}

/-- Follows a reference through no more than `n` components of the table. -/
def follow (wanted : Kind) (table : Dict (RefOr α)) : Nat → String → Except Obstacle α
  | 0, target => .error (.endless target)
  | n+1, target => do
    match table.get? (← Pointer.nameOf wanted target) with
    | none => .error (.missing target)
    | some (.inline v) => .ok v
    | some (.reference next _) => follow wanted table n next

/-- What stands in place, or what a reference leads to. -/
def resolve (wanted : Kind) (table : Dict (RefOr α)) : RefOr α → Except Obstacle α
  | inline v => .ok v
  | reference target _ => follow wanted table (table.size + 1) target

@[simp] theorem resolve_inline (wanted : Kind) (table : Dict (RefOr α)) (v : α) :
    (inline v).resolve wanted table = .ok v := rfl

end RefOr

namespace Components

def schema (c : Components) (node : RefOr Schema) : Except Obstacle Schema := node.resolve .schema c.schemas

def parameter (c : Components) (node : RefOr Document.Parameter) : Except Obstacle Document.Parameter :=
  node.resolve .parameter c.parameters

def requestBody (c : Components) (node : RefOr Document.RequestBody) :
    Except Obstacle Document.RequestBody := node.resolve .requestBody c.requestBodies

end Components
end ActionCatalog
