import ActionCatalog.Dict.Lookup
import ActionCatalog.Proofs.Registry
import Mathlib.Data.List.Induction

/-! Extracting the operations of a document. Main statement: it fails where the first step fails, and otherwise
each id stands for the last operation that came up with it; beyond the replacements only traces are told of,
because they come up twice. -/
namespace ActionCatalog

namespace Method

/-- The methods in ascending order of their names. -/
def all : List Method := [delete,get,head,options,patch,post,put,trace]

lemma mem_all (m : Method) : m ∈ all := by cases m <;> decide

/-- What has a method comes up as often as the method is visited: a trace twice, all else once. -/
def occurrences {α : Type} (m : Method) (x : α) : List α := if m = trace then [x,x] else [x]

lemma visits_eq : visits = all.flatMap fun m => m.occurrences m := by decide

end Method

namespace Document.PathItem

/-- The operations of a path, each once, by the names of their methods. -/
def operations (p : PathItem) : List (Method × Document.Operation) :=
  Method.all.filterMap fun m => (p.operation m).map (m,·)

lemma mem_operations_iff (p : PathItem) {m : Method} {o : Document.Operation} :
    (m,o) ∈ p.operations ↔ p.operation m = some o := by
  simp [operations,Method.mem_all]

lemma visits_eq (p : PathItem) : p.visits = p.operations.flatMap fun x => x.1.occurrences x := by
  rw [visits,Method.visits_eq,List.filterMap_flatMap,operations]
  generalize Method.all = ms
  induction ms with
  | nil => rfl
  | cons m ms ih =>
    rw [List.flatMap_cons,ih,List.filterMap_cons]
    cases ho : p.operation m with
    | none => simp only [Method.occurrences]; split <;> simp [ho]
    | some o => simp only [Method.occurrences]; split <;> simp_all [Method.occurrences]

end Document.PathItem

namespace Operation

/-- An operation as often as it comes up. -/
def occurrences (o : Operation) : List Operation := o.method.occurrences o

section Visits
variable {ε α : Type} {f : Method × α → Except ε Operation}

lemma mapM_visits_of_one (h : ∀ x o, f x = .ok o → o.method = x.1) (x : Method × α) :
    (x.1.occurrences x).mapM f = (·.flatMap occurrences) <$> [x].mapM f := by
  cases hx : f x with
  | error e =>
    rw [Except.mapM_cons_error hx,Method.occurrences]
    split <;> rw [Except.mapM_cons_error hx] <;> rfl
  | ok o =>
    have ho : [o].flatMap occurrences = x.1.occurrences o := by
      rw [List.flatMap_singleton,occurrences,h x o hx]
    rw [Except.mapM_cons_ok hx]
    show _ = Except.ok ([o].flatMap occurrences)
    rw [ho,Method.occurrences,Method.occurrences]
    split <;> simp only [Except.mapM_cons_ok hx] <;> rfl

/-- To build operations as often as they come up is to build each once and to repeat it as often. -/
lemma mapM_visits (h : ∀ x o, f x = .ok o → o.method = x.1) (xs : List (Method × α)) :
    (xs.flatMap fun x => x.1.occurrences x).mapM f = (·.flatMap occurrences) <$> xs.mapM f := by
  have hvisits := Except.flatten_mapM_eq (fun x => x.1.occurrences x) f (fun os => os)
    (fun x => (x.1.occurrences x).mapM f) rfl (fun _ _ => rfl) (fun x => (id_map' _).symm) xs
  have honce := Except.flatten_mapM_eq (fun x => [x]) f (·.flatMap occurrences)
    (fun x => (x.1.occurrences x).mapM f) rfl (fun _ _ => List.flatMap_append) (mapM_visits_of_one h) xs
  rw [id_map'] at hvisits
  rw [← hvisits,honce,List.flatMap_singleton']

end Visits

end Operation

namespace Registry

/-- A step of an extraction: the shared parameters of a path are resolved, or one of its operations is built. -/
inductive Step where
  | shared (path : String) (item : Document.PathItem)
  | operation (path : String) (item : Document.PathItem) (method : Method) (source : Document.Operation)

/-- The steps at a path: its shared parameters, and then its operations by the names of their methods. -/
def Step.ofPath (path : String) (item : Document.PathItem) : List Step :=
  .shared path item :: item.operations.map fun x => .operation path item x.1 x.2

/-- The steps of an extraction, path by path in ascending order. -/
def steps (d : Document) : List Step := d.paths.entries.flatMap fun e => Step.ofPath e.1 e.2

/-- The operations that a step yields. -/
def Step.run (d : Document) (declared : DeclaredSecurity) : Step → Except Failure (List Operation)
  | shared path item => (fun _ => []) <$> item.parameters.mapM (Parameter.resolve d.components path)
  | operation path item method source => do
    let shared ← item.parameters.mapM (Parameter.resolve d.components path)
    return [← Operation.build d declared path item shared method source]

section Visited
variable {d : Document} {declared : DeclaredSecurity}

lemma ofPath_eq (path : String) (item : Document.PathItem) : ofPath d declared path item =
    (fun built => built.flatten.flatMap Operation.occurrences) <$>
      (Step.ofPath path item).mapM (Step.run d declared) := by
  cases hshared : item.parameters.mapM (Parameter.resolve d.components path) with
  | error e =>
    have hstep : Step.run d declared (.shared path item) = .error e := by rw [Step.run,hshared]; rfl
    rw [Step.ofPath,Except.mapM_cons_error hstep,ofPath,hshared]
    rfl
  | ok shared =>
    have hstep : Step.run d declared (.shared path item) = .ok [] := by rw [Step.run,hshared]; rfl
    let build (x : Method × Document.Operation) := Operation.build d declared path item shared x.1 x.2
    have hvisits : ofPath d declared path item = item.visits.mapM build := by rw [ofPath,hshared]; rfl
    have hrun : ∀ x : Method × Document.Operation,
        Step.run d declared (.operation path item x.1 x.2) = (fun os => os) <$> [x].mapM build := by
      intro x
      rw [Step.run,hshared,id_map',List.mapM_cons,List.mapM_nil]
      rfl
    have honce := Except.flatten_mapM_eq (fun x => [x]) build (fun os => os) _ rfl (fun _ _ => rfl) hrun
      item.operations
    rw [id_map',List.flatMap_singleton'] at honce
    rw [hvisits,Document.PathItem.visits_eq,Operation.mapM_visits fun x o h => (Operation.built_of_build h).method_eq,← honce,
      Step.ofPath,Except.mapM_cons_ok hstep,List.mapM_map,Functor.map_map,Functor.map_map]
    rfl

/-- Visited are the operations that the steps yield, as often as they come up. -/
theorem visited_eq : visited d declared =
    (fun built => built.flatten.flatMap Operation.occurrences) <$> (steps d).mapM (Step.run d declared) := by
  have h := Except.flatten_mapM_eq (fun e : String × Document.PathItem => Step.ofPath e.1 e.2) (Step.run d declared)
    (fun built => built.flatten.flatMap Operation.occurrences) (fun e => ofPath d declared e.1 e.2) rfl
    (fun ys zs => by simp) (fun e => ofPath_eq e.1 e.2) d.paths.entries
  rw [steps,← h,visited,bind_pure_comp]

end Visited

/-- Of the given operations the last one with an id. -/
def latest (os : List Operation) (id : String) : Option Operation := os.reverse.find? (·.id == id)

lemma latest_append_singleton (os : List Operation) (o : Operation) (id : String) :
    latest (os ++ [o]) id = if o.id = id then some o else latest os id := by
  rw [latest,List.reverse_append,List.reverse_singleton,List.singleton_append,List.find?_cons]
  by_cases h : o.id = id
  · simp [h]
  · rw [beq_false_of_ne h,if_neg h,latest]

/-- What is told of operations one after another, of each in view of those before it. -/
def account (tell : List Operation → Operation → List Warning) (before : List Operation) :
    List Operation → List Warning
  | [] => []
  | o :: rest => tell before o ++ account tell (before ++ [o]) rest

lemma account_append_singleton (tell : List Operation → Operation → List Warning) (before os : List Operation)
    (o : Operation) : account tell before (os ++ [o]) = account tell before os ++ tell (before ++ os) o := by
  induction os generalizing before with
  | nil => simp [account]
  | cons p os ih => simp [account,ih]

/-- An operation replaces the last one before it that has its id. -/
def replacement (before : List Operation) (o : Operation) : List Warning :=
  ((latest before o.id).map fun old => .duplicateOperation o.id old.title o.title).toList

/-- What an extraction tells of an operation: its replacement, and of a trace also that it replaces itself. -/
def remarks (before : List Operation) (o : Operation) : List Warning :=
  replacement before o ++ if o.method = .trace then [.duplicateOperation o.id o.title o.title] else []

/-- The replacements are all that is told exactly if no operation is a trace. -/
lemma account_remarks_eq_iff (os : List Operation) :
    account remarks [] os = account replacement [] os ↔ ∀ o ∈ os, o.method ≠ .trace := by
  generalize [] = before
  have hlength : ∀ before, (account remarks before os).length =
      (account replacement before os).length + os.countP (·.method = .trace) := by
    induction os with
    | nil => intro before; rfl
    | cons o os ih =>
      intro before
      simp only [account,List.length_append,ih,remarks,List.countP_cons]
      split <;> simp_all <;> omega
  constructor
  · intro heq o ho
    have hcount := hlength before
    rw [heq] at hcount
    have hzero : os.countP (·.method = .trace) = 0 := by omega
    simpa using List.countP_eq_zero.mp hzero o ho
  · intro hnone
    clear hlength
    induction os generalizing before with
    | nil => rfl
    | cons o os ih =>
      obtain ⟨ho,hos⟩ := List.forall_mem_cons.mp hnone
      simp [account,remarks,ho,ih _ hos]

lemma eraseDups_append_singleton (ids : List String) (id : String) :
    (ids ++ [id]).eraseDups = if id ∈ ids.eraseDups then ids.eraseDups else ids.eraseDups ++ [id] := by
  rw [List.eraseDups_append]
  by_cases h : id ∈ ids <;> simp [List.removeAll,h,List.eraseDups_cons]

/-- What a registry holds once operations have come up: each id stands for the last operation that has it, the ids
are in the order in which they came up first, and every replacement is told. -/
structure Holds (r : Registry) (os : List Operation) : Prop where
  found : ∀ id, r.get? id = latest os id
  listed : r.ids = (os.map (·.id)).eraseDups
  told : r.warnings = account remarks [] os

lemma Holds.empty : Holds {} [] := ⟨fun _ => rfl,rfl,rfl⟩

/-- One more operation is registered as often as it comes up. -/
theorem Holds.visit {r : Registry} {os : List Operation} (h : Holds r os) (o : Operation) :
    Holds (o.occurrences.foldl insert r) (os ++ [o]) := by
  have hfound : ∀ id, (r.insert o).get? id = latest (os ++ [o]) id := by
    intro id
    rw [get?_insert,latest_append_singleton,h.found]
  have hlisted : (r.insert o).ids = ((os ++ [o]).map (·.id)).eraseDups := by
    rw [ids_insert,List.map_append,List.map_singleton,eraseDups_append_singleton,h.listed]
  have htold : (r.insert o).warnings = account remarks [] os ++ replacement os o := by
    rw [warnings_insert,h.told,h.found,replacement]
  by_cases ht : o.method = .trace
  · -- The second visit finds the operation itself under its id.
    have hself : (r.insert o).get? o.id = some o := by rw [get?_insert,if_pos rfl]
    have hmem : o.id ∈ (r.insert o).ids := List.mem_map.mpr ⟨o,List.mem_of_find?_eq_some hself,rfl⟩
    have hvisit : o.occurrences.foldl insert r = (r.insert o).insert o := by
      simp [Operation.occurrences,Method.occurrences,ht]
    rw [hvisit]
    constructor
    · intro id
      rw [get?_insert,hfound,latest_append_singleton]
      split <;> rfl
    · rw [ids_insert,if_pos hmem,hlisted]
    · rw [warnings_insert,htold,hself,account_append_singleton]
      simp [remarks,ht]
  · have hvisit : o.occurrences.foldl insert r = r.insert o := by
      simp [Operation.occurrences,Method.occurrences,ht]
    rw [hvisit]
    refine ⟨hfound,hlisted,?_⟩
    rw [htold,account_append_singleton]
    simp [remarks,ht]

theorem holds_ofOperations (os : List Operation) : Holds (ofOperations (os.flatMap Operation.occurrences)) os := by
  rw [ofOperations,List.foldl_flatMap]
  induction os using List.reverseRecOn with
  | nil => exact Holds.empty
  | append_singleton os o ih =>
    rw [List.foldl_append]
    exact ih.visit o

/-- Extracting fails exactly if a step fails, and tells why the first one does. Otherwise each id stands for the
last operation that came up with it, and the ids are in the order in which they came up first. Told are the
replacements, each of the last operation before with the same id, and of each trace that it replaces itself: the
replacements are all that is told exactly if there is no trace. -/
theorem extract_keeps_latest (d : Document) (declared : DeclaredSecurity) :
    ((∃ f, extract d declared = .error f) ↔ ∃ s ∈ steps d, ∃ f, s.run d declared = .error f) ∧
    (∀ f, extract d declared = .error f ↔ ∃ before s after, steps d = before ++ s :: after ∧
      (∀ t ∈ before, ∃ os, t.run d declared = .ok os) ∧ s.run d declared = .error f) ∧
    ∀ r, extract d declared = .ok r →
      ∃ built, (steps d).mapM (Step.run d declared) = .ok built ∧ (∀ id, r.get? id = latest built.flatten id) ∧
        r.ids = (built.flatten.map (·.id)).eraseDups ∧ r.warnings = account remarks [] built.flatten ∧
        (r.warnings = account replacement [] built.flatten ↔ ∀ o ∈ built.flatten, o.method ≠ .trace) := by
  have hextract : extract d declared =
      (fun built => ofOperations (built.flatten.flatMap Operation.occurrences)) <$>
        (steps d).mapM (Step.run d declared) := by
    rw [extract,visited_eq,Functor.map_map]
  have hfails : ∀ f, extract d declared = .error f ↔ ∃ before s after, steps d = before ++ s :: after ∧
      (∀ t ∈ before, ∃ os, t.run d declared = .ok os) ∧ s.run d declared = .error f := by
    intro f
    rw [hextract,Except.map_eq_error_iff,Except.mapM_eq_error_iff]
  refine ⟨⟨?_,?_⟩,hfails,fun r hr => ?_⟩
  · rintro ⟨f,hf⟩
    obtain ⟨before,s,after,hsteps,-,hs⟩ := (hfails f).mp hf
    exact ⟨s,by simp [hsteps],f,hs⟩
  · rintro ⟨s,hs,f,hf⟩
    cases hr : extract d declared with
    | error f' => exact ⟨f',rfl⟩
    | ok r =>
      rw [hextract] at hr
      obtain ⟨built,hbuilt,-⟩ := Except.map_eq_ok_iff.mp hr
      obtain ⟨os,-,hos⟩ := Except.exists_of_mapM_eq_ok hbuilt s hs
      rw [hf] at hos
      cases hos
  · rw [hextract] at hr
    obtain ⟨built,hbuilt,rfl⟩ := Except.map_eq_ok_iff.mp hr
    have holds := holds_ofOperations built.flatten
    refine ⟨built,hbuilt,holds.found,holds.listed,holds.told,?_⟩
    rw [holds.told,account_remarks_eq_iff]

/-- An operation, and at a later path a trace with the same id. -/
def traced : Document where
  paths := .ofList [
    ("/a",{ operation := fun | .get => some { operationId := some "x" } | _ => none }),
    ("/b",{ operation := fun | .trace => some { operationId := some "x" } | _ => none })]

/-- An operation that lacks the parameter of its path, and then shared parameters that lead nowhere. -/
def incomplete : Document where
  paths := .ofList [
    ("/b/{id}",{ operation := fun | .get => some {} | _ => none }),
    ("/c",{ parameters := [.reference "#/components/parameters/p" none] })]

/-- The trace replaces the other operation and then itself; of two steps that fail the first is told. -/
theorem extract_keeps_latest_traced :
    (∃ r, extract traced ∅ = .ok r ∧ (r.get? "x").map (·.title) = some "TRACE /b" ∧ r.ids = ["x"] ∧
      r.warnings = [.duplicateOperation "x" "GET /a" "TRACE /b",.duplicateOperation "x" "TRACE /b" "TRACE /b"] ∧
      ∃ built, (steps traced).mapM (Step.run traced ∅) = .ok built ∧
        r.warnings ≠ account replacement [] built.flatten) ∧
    ∃ before s after, steps incomplete = before ++ s :: after ∧
      (∀ t ∈ before, ∃ os, t.run incomplete ∅ = .ok os) ∧
      s.run incomplete ∅ = .error (.parameterCount "/b/{id}" 1 0) := by
  constructor
  · obtain ⟨r,hr⟩ : ∃ r, extract traced ∅ = .ok r := ⟨_,by rfl⟩
    obtain ⟨built,hbuilt,-,-,-,hexact⟩ := (extract_keeps_latest traced ∅).2.2 r hr
    have htrace : ∃ o ∈ built.flatten, o.method = .trace := by
      cases hbuilt
      exact ⟨_,List.mem_cons_of_mem _ List.mem_cons_self,rfl⟩
    obtain ⟨hfound,hlisted,htold⟩ : (r.get? "x").map (·.title) = some "TRACE /b" ∧ r.ids = ["x"] ∧
        r.warnings = [.duplicateOperation "x" "GET /a" "TRACE /b",
          .duplicateOperation "x" "TRACE /b" "TRACE /b"] := by
      cases hr
      exact ⟨by rfl,by rfl,by rfl⟩
    refine ⟨r,hr,hfound,hlisted,htold,built,hbuilt,fun heq => ?_⟩
    obtain ⟨o,ho,hmethod⟩ := htrace
    exact hexact.mp heq o ho hmethod
  · exact ((extract_keeps_latest incomplete ∅).2.1 _).mp (by rfl)

end Registry
end ActionCatalog
