import ActionCatalog.Action
import ActionCatalog.Proofs.Arrangement
import ActionCatalog.Proofs.Body.Leaves

/-! What can be wrong with a document. Main statement: this is all that discovering it can fail with. -/
namespace ActionCatalog
open Except

/-- A failure tells of a fault of a document: of the parameters of one of its paths, or of a reference. -/
def Document.AtFault (d : Document) : Failure → Prop
  | .parameterCount path found declared =>
    d.paths.contains path ∧ found = (PathTemplate.tokens path).length ∧ found ≠ declared
  | .unknownParameter path name => d.paths.contains path ∧ name ∈ PathTemplate.tokens path
  | .unresolved _ _ _ => True
  | .endless _ => True
  | _ => False

lemma PathTemplate.arrange_failsOnly {α : Type} {nameOf : α → String} {d : Document} {path : String}
    (hpath : d.paths.contains path) (declared : List α) : FailsOnly d.AtFault (arrange nameOf path declared) := by
  intro f hf
  rcases arrange_eq_error_iff.mp hf with ⟨hcount,rfl⟩ | ⟨-,name,hunmet,rfl⟩
  · exact ⟨hpath,rfl,hcount⟩
  · exact ⟨hpath,hunmet.mem⟩

section Faults
variable (d : Document) (c : Components)

lemma RefOr.blame_failsOnly {α : Type} (node : RefOr α) (place : String) (x : Except Obstacle α) :
    FailsOnly d.AtFault (node.blame place x) := by
  cases x with
  | ok v => exact .ok v
  | error o => exact .error trivial

lemma Parameter.resolve_failsOnly (context : String) (node : RefOr Document.Parameter) :
    FailsOnly d.AtFault (resolve c context node) := by
  refine .bind (node.blame_failsOnly d _ _) fun p => ?_
  cases p.schema with
  | none => exact .ok _
  | some s => exact .bind (s.blame_failsOnly d _ _) fun schema => .ok _

lemma Payload.ofBody_failsOnly (context : String) (b : Document.RequestBody) :
    FailsOnly d.AtFault (ofBody c context b) := by
  refine .mapM fun e _ => ?_
  obtain ⟨type,node⟩ := e
  cases node with
  | none => exact .ok _
  | some s => exact .bind (.map (s.blame_failsOnly d _ _) _) fun schema => .ok _

lemma Operation.build_failsOnly {path : String} (hpath : d.paths.contains path) (declared : DeclaredSecurity)
    (item : Document.PathItem) (shared : List Parameter) (method : Method) (o : Document.Operation) :
    FailsOnly d.AtFault (build d declared path item shared method o) := by
  refine .bind (.mapM fun node _ => Parameter.resolve_failsOnly d _ _ node) fun own => ?_
  refine .bind (PathTemplate.arrange_failsOnly hpath _) fun pathParameters => ?_
  cases o.requestBody with
  | none => exact .ok _
  | some node =>
    refine .bind (node.blame_failsOnly d _ _) fun body => ?_
    exact .bind (Payload.ofBody_failsOnly d _ _ body) fun payloads => .ok _

lemma Registry.extract_failsOnly (declared : DeclaredSecurity) : FailsOnly d.AtFault (extract d declared) := by
  refine .map (.bind (.mapM fun e he => ?_) fun built => .ok _) _
  have hpath : d.paths.contains e.1 := by
    simp [Dict.contains,(Dict.mem_entries_iff _ _ _).mp he]
  refine .bind (.mapM fun node _ => Parameter.resolve_failsOnly d _ _ node) fun shared => ?_
  exact .mapM fun x _ => Operation.build_failsOnly d hpath declared e.2 shared x.1 x.2

lemma Body.expandTo_failsOnly (n : ℕ) (stack : List String) (s : Schema) (path : String) (required : Bool) :
    FailsOnly d.AtFault (expandTo c n stack s path required) := by
  induction n generalizing stack s path required with
  | zero => exact .error trivial
  | succ n ih =>
    refine expandTo_succ_failsOnly (fun node _ place => node.blame_failsOnly d place _) ?_
    exact fun node _ _ t _ path required => ih _ t path required

lemma Action.ofOperation_failsOnly (o : Operation) : FailsOnly d.AtFault (ofOperation c o) := by
  refine .bind ?_ fun body => .ok _
  simp only [bodyFields]
  cases o.defaultPayload? with
  | none => exact .ok _
  | some payload =>
    dsimp only
    cases payload.schema with
    | none => exact .ok _
    | some s => exact Body.expandTo_failsOnly d c _ _ s _ _

end Faults

/-- A document that cannot be discovered is at fault itself, in its references or in the parameters of a path. -/
theorem Discovery.ofDocument_failsOnly (d : Document) (declared : DeclaredSecurity) :
    FailsOnly d.AtFault (ofDocument d declared) := by
  refine .bind (Registry.extract_failsOnly d declared) fun registry => ?_
  exact .bind (.mapM fun o _ => Action.ofOperation_failsOnly d d.components o) fun found => .ok _

end ActionCatalog
