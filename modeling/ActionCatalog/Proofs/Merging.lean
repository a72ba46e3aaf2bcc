import ActionCatalog.Proofs.Arrangement
import Mathlib.Data.List.Nodup
import Mathlib.Data.List.Perm.Basic

/-! The parameters of an operation, which are its own and those it shares with the other operations of its path.
Main statement: none of them is lost exactly if no two shared ones that it has none of its own in place of have one
name; of those that have one, the first is kept. -/
namespace ActionCatalog

namespace Parameter

/-- Of parameters with one name the first. -/
def firsts : List Parameter → List Parameter
  | [] => []
  | p :: ps => p :: (firsts ps).filter (·.name ≠ p.name)

lemma filter_firsts (q : String → Bool) (ps : List Parameter) :
    (firsts ps).filter (fun p => q p.name) = firsts (ps.filter fun p => q p.name) := by
  induction ps with
  | nil => rfl
  | cons p ps ih =>
    rw [firsts,List.filter_cons,List.filter_cons]
    by_cases hq : q p.name
    · rw [if_pos hq,if_pos hq,firsts,← ih,List.filter_filter,List.filter_filter]
      simp only [Bool.and_comm]
    · rw [if_neg hq,if_neg hq,← ih,List.filter_filter]
      apply List.filter_congr
      intro g _
      by_cases hg : q g.name
      · have hne : g.name ≠ p.name := fun heq => hq (heq ▸ hg)
        simp [hg,hne]
      · simp [hg]

lemma firsts_sublist (ps : List Parameter) : (firsts ps).Sublist ps := by
  induction ps with
  | nil => exact .slnil
  | cons p ps ih => exact (List.filter_sublist.trans ih).cons_cons p

lemma nodup_names_firsts (ps : List Parameter) : ((firsts ps).map (·.name)).Nodup := by
  induction ps with
  | nil => exact List.nodup_nil
  | cons p ps ih =>
    rw [firsts,List.map_cons,List.nodup_cons]
    constructor
    · simp
    · exact (List.filter_sublist.map _).nodup ih

lemma firsts_eq_self_iff {ps : List Parameter} : firsts ps = ps ↔ (ps.map (·.name)).Nodup := by
  constructor
  · intro h
    rw [← h]
    exact nodup_names_firsts ps
  · intro hnodup
    induction ps with
    | nil => rfl
    | cons p ps ih =>
      obtain ⟨hnew,hnodup⟩ := List.nodup_cons.mp hnodup
      rw [firsts,ih hnodup,List.filter_eq_self.mpr]
      intro g hg
      have hne : g.name ≠ p.name := by
        intro heq
        apply hnew
        exact List.mem_map.mpr ⟨g,hg,heq⟩
      simpa using hne

end Parameter

namespace Operation
open Parameter

/-- The shared parameters that an operation has none of its own in place of. -/
def inherited (own shared : List Parameter) : List Parameter := shared.filter (·.name ∉ own.map (·.name))

/-- The own parameters are followed by the first of each name among the inherited ones. -/
lemma merge_eq (own shared : List Parameter) : merge own shared = own ++ firsts (inherited own shared) := by
  induction shared generalizing own with
  | nil => simp [merge,inherited,firsts]
  | cons g shared ih =>
    rw [merge,inherited,List.filter_cons]
    by_cases hg : g.name ∈ own.map (·.name)
    · have htaken : own.any (·.name == g.name) = true := by simpa using hg
      rw [if_pos htaken,ih]
      simp [hg,inherited]
    · have hfree : ¬own.any (·.name == g.name) = true := by simpa using hg
      -- A parameter that is added takes its name away from those behind it.
      have hrest : inherited (own ++ [g]) shared = (inherited own shared).filter (·.name ≠ g.name) := by
        rw [inherited,inherited,List.filter_filter]
        apply List.filter_congr
        intro p _
        apply Bool.eq_iff_iff.mpr
        simp only [Bool.and_eq_true,decide_eq_true_eq,List.map_append,List.map_singleton,List.mem_append,
          List.mem_singleton,not_or]
        exact and_comm
      rw [if_neg hfree,ih,hrest,← filter_firsts (· ≠ g.name)]
      simp [hg,firsts,inherited]

/-- The parameters of an operation that are in a location. -/
def parametersIn (o : Operation) : Location → List Parameter
  | .query => o.queryParameters
  | .header => o.headerParameters
  | .cookie => o.cookieParameters
  | .path => o.pathParameters

/-- Parameters are divided up by their locations. -/
lemma perm_locations (ps : List Parameter) :
    (ps.filter (·.location = .query) ++ (ps.filter (·.location = .header) ++ (ps.filter (·.location = .cookie) ++
      ps.filter (·.location = .path)))).Perm ps := by
  induction ps with
  | nil => exact .nil
  | cons p ps ih =>
    apply List.Perm.trans _ (ih.cons p)
    cases hl : p.location with
    | query => simp [hl]
    | header => simp [hl]
    | cookie =>
      simp only [List.filter_cons,hl,reduceCtorEq,decide_true,decide_false,if_true,Bool.false_eq_true,if_false]
      exact (List.perm_middle.append_left _).trans List.perm_middle
    | path =>
      simp only [List.filter_cons,hl,reduceCtorEq,decide_true,decide_false,if_true,Bool.false_eq_true,if_false]
      apply ((List.perm_middle.append_left _).append_left _).trans
      exact (List.perm_middle.append_left _).trans List.perm_middle

section Build
variable {d : Document} {declared : DeclaredSecurity} {path : String} {item : Document.PathItem}
  {shared : List Parameter} {method : Method} {source : Document.Operation} {o : Operation}

/-- An operation has the merged parameters, each where its location says, and those of the path in another order. -/
lemma exists_merged (h : build d declared path item shared method source = .ok o) :
    ∃ own, source.parameters.mapM (Parameter.resolve d.components s!"{method.name} {path}") = .ok own ∧
      (∀ l, l ≠ .path → o.parametersIn l = (merge own shared).filter (·.location = l)) ∧
      o.pathParameters.Perm ((merge own shared).filter (·.location = .path)) := by
  obtain ⟨own,pathParameters,payloads,bodyRequired,hown,hpath,rfl⟩ := exists_of_build h
  refine ⟨own,hown,?_,(PathTemplate.of_arrange hpath).1⟩
  intro l hl
  cases l with
  | query => rfl
  | header => rfl
  | cookie => rfl
  | path => exact absurd rfl hl

end Build

/-- The parameters of an operation that was built are its own and, of those it inherits from its path, the first of
each name. They are all that it inherits exactly if no two of these have one name. Each is where its location says;
in the query, the headers and the cookies the own ones come first, and both stand in the order of the document. -/
theorem merges_without_loss_iff (d : Document) (declared : DeclaredSecurity) (path : String) (item : Document.PathItem)
    (shared : List Parameter) (method : Method) (source : Document.Operation) (o : Operation)
    (h : build d declared path item shared method source = .ok o) :
    ∃ own, source.parameters.mapM (Parameter.resolve d.components s!"{method.name} {path}") = .ok own ∧
      (o.parameters.Perm (own ++ inherited own shared) ↔ ((inherited own shared).map (·.name)).Nodup) ∧
      o.parameters.Perm (own ++ firsts (inherited own shared)) ∧
      (∀ l, (o.parametersIn l).Perm ((own ++ firsts (inherited own shared)).filter (·.location = l))) ∧
      ∀ l, l ≠ .path → o.parametersIn l =
        own.filter (·.location = l) ++ (firsts (inherited own shared)).filter (·.location = l) := by
  obtain ⟨own,hown,hplaced,hpath⟩ := exists_merged h
  have hparameters : o.parameters.Perm (own ++ firsts (inherited own shared)) := by
    have hquery := hplaced .query (by decide)
    have hheader := hplaced .header (by decide)
    have hcookie := hplaced .cookie (by decide)
    simp only [parametersIn] at hquery hheader hcookie
    rw [parameters,hquery,hheader,hcookie,← merge_eq]
    apply (hpath.append_left _).trans
    rw [List.append_assoc,List.append_assoc]
    exact perm_locations (merge own shared)
  refine ⟨own,hown,?_,hparameters,?_,?_⟩
  · rw [← firsts_eq_self_iff]
    constructor
    · intro hall
      have hperm := (List.perm_append_left_iff own).mp (hparameters.symm.trans hall)
      exact (firsts_sublist _).eq_of_length hperm.length_eq
    · intro hself
      rw [hself] at hparameters
      exact hparameters
  · intro l
    rw [← merge_eq]
    by_cases hl : l = .path
    · subst hl
      exact hpath
    · rw [hplaced l hl]
  · intro l hl
    rw [hplaced l hl,merge_eq,List.filter_append]

/-- An operation with one parameter of its own. -/
def callSource : Document.Operation where
  operationId := some "call"
  parameters := [.inline { name := "org", location := .query }]

/-- Shared parameters of which the second has the name of an own one, and the third the name of the first. -/
def sharedTwice : List Parameter :=
  [⟨"trace",.query,false,"",none⟩,⟨"org",.header,false,"",none⟩,⟨"trace",.header,false,"",none⟩]

/-- The operation inherits two parameters of one name, and the one of the headers is lost. -/
theorem merges_without_loss_iff_sharedTwice : ∃ o own, build {} ∅ "/call" {} sharedTwice .get callSource = .ok o ∧
    callSource.parameters.mapM (Parameter.resolve {} "GET /call") = .ok own ∧
    (inherited own sharedTwice).map (·.location) = [.query,.header] ∧
    ¬o.parameters.Perm (own ++ inherited own sharedTwice) ∧
    o.queryParameters.map (·.name) = ["org","trace"] ∧ o.headerParameters = [] := by
  obtain ⟨o,ho⟩ : ∃ o, build {} ∅ "/call" {} sharedTwice .get callSource = .ok o := ⟨_,by rfl⟩
  obtain ⟨own,hown,hiff,-,-,hplaced⟩ := merges_without_loss_iff {} ∅ "/call" {} sharedTwice .get callSource o ho
  have hquery := hplaced .query (by decide)
  have hheader := hplaced .header (by decide)
  simp only [parametersIn] at hquery hheader
  cases hown
  refine ⟨o,_,ho,rfl,by rfl,?_,?_,?_⟩
  · rw [hiff]
    decide
  · rw [hquery]
    rfl
  · rw [hheader]
    rfl

end Operation
end ActionCatalog
