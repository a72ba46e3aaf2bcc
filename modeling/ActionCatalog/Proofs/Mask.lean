import ActionCatalog.Dict.Lookup
import ActionCatalog.Mask
import ActionCatalog.Proofs.Keyed

/-! Names and aliases of a mask. Main statements: where the aliases are in no conflict an alias stands for one
name, and the entries found for a name are its own or that of what it is an alias of. -/
namespace ActionCatalog.Mask
open Keyed

variable {m : Mask}

/-- An entry of a mask with an alias. -/
def Aliased (m : Mask) (nickname name : String) (e : Mask.Action) : Prop :=
  m.actions.get? name = some e ∧ spoken e.nickname = some nickname

/-- Whether an entry of an action lists a parameter under an alias. -/
def Action.Renames (e : Mask.Action) (nickname : String) : Prop :=
  ∃ name p, e.parameters.get? name = some p ∧ spoken p.nickname = some nickname

lemma mem_actionAliases {nickname name : String} :
    (nickname,name) ∈ m.actionAliases ↔ ∃ e, m.Aliased nickname name e := by
  simp only [actionAliases,List.mem_filterMap,Option.map_eq_some_iff,Aliased]
  constructor
  · rintro ⟨⟨k,e⟩,hm,n,hn,heq⟩
    cases heq
    exact ⟨e,(Dict.mem_entries_iff _ _ _).mp hm,hn⟩
  · rintro ⟨e,he,hn⟩
    exact ⟨(name,e),(Dict.mem_entries_iff _ _ _).mpr he,nickname,hn,rfl⟩

lemma Action.mem_aliases {e : Mask.Action} {nickname name : String} :
    (nickname,name) ∈ e.aliases ↔ ∃ p, e.parameters.get? name = some p ∧ spoken p.nickname = some nickname := by
  simp only [Action.aliases,List.mem_filterMap,Option.map_eq_some_iff]
  constructor
  · rintro ⟨⟨k,p⟩,hm,n,hn,heq⟩
    cases heq
    exact ⟨p,(Dict.mem_entries_iff _ _ _).mp hm,hn⟩
  · rintro ⟨p,hp,hn⟩
    exact ⟨(name,p),(Dict.mem_entries_iff _ _ _).mpr hp,nickname,hn,rfl⟩

section Conflicts

lemma conflictFrom_cons_eq_none_iff {taken rest : List (String × String)} {nickname name : String} :
    m.conflictFrom taken ((nickname,name) :: rest) = none ↔
      (nickname = name ∨ m.actions.contains nickname = false) ∧ taken.lookup nickname = none ∧
        m.conflictFrom ((nickname,name) :: taken) rest = none := by
  simp only [conflictFrom]
  by_cases hshadow : nickname ≠ name ∧ m.actions.contains nickname = true
  · simp [hshadow]
  · have hfree : nickname = name ∨ m.actions.contains nickname = false := by
      rw [not_and_or] at hshadow
      simpa using hshadow
    have hcond : (decide (nickname ≠ name) && m.actions.contains nickname) = false := by
      rcases hfree with h | h <;> simp [h]
    simp only [hcond,Bool.false_eq_true,if_false,hfree,true_and]
    cases hl : taken.lookup nickname <;> simp

/-- Aliases are gone through without a conflict if they are distinct and none is another action's name. -/
lemma conflictFrom_eq_none_iff {taken aliases : List (String × String)} : m.conflictFrom taken aliases = none ↔
    (∀ x ∈ aliases, x.1 = x.2 ∨ m.actions.contains x.1 = false) ∧ (aliases.map (·.1)).Nodup ∧
      ∀ x ∈ aliases, taken.lookup x.1 = none := by
  induction aliases generalizing taken with
  | nil => simp [conflictFrom]
  | cons x rest ih =>
    obtain ⟨nickname,name⟩ := x
    have htaken : (∀ y ∈ rest, List.lookup y.1 ((nickname,name) :: taken) = none) ↔
        nickname ∉ rest.map (·.1) ∧ ∀ y ∈ rest, taken.lookup y.1 = none := by
      simp only [List.mem_map,not_exists,not_and,← forall₂_and,Dict.lookup_cons]
      refine forall₂_congr fun y _ => ?_
      split <;> simp_all
    rw [conflictFrom_cons_eq_none_iff,ih,htaken,List.map_cons,List.nodup_cons,List.forall_mem_cons,
      List.forall_mem_cons]
    tauto

end Conflicts

/-- An alias stands for the name that declares it. -/
theorem canonicalAction_of_aliased (h : m.conflict? = none) {nickname name : String} {e : Mask.Action}
    (ha : m.Aliased nickname name e) : m.canonicalAction nickname = name := by
  have hnodup := (conflictFrom_eq_none_iff.mp h).2.1
  simp [canonicalAction,lookup_of_mem hnodup (mem_actionAliases.mpr ⟨e,ha⟩)]

/-- What is no alias stands for itself. -/
theorem canonicalAction_of_not_aliased {name : String} (h : ¬∃ b e, m.Aliased name b e) :
    m.canonicalAction name = name := by
  have hnone : m.actionAliases.lookup name = none :=
    lookup_eq_none_of_not_mem fun b hb => h ⟨b,mem_actionAliases.mp hb⟩
  simp [canonicalAction,hnone]

/-- A name stands for another one exactly if it is the alias of that one. -/
theorem canonicalAction_eq_self_iff (h : m.conflict? = none) {name : String} :
    m.canonicalAction name = name ↔ ¬∃ b e, m.Aliased name b e ∧ b ≠ name := by
  constructor
  · rintro hself ⟨b,e,ha,hne⟩
    rw [canonicalAction_of_aliased h ha] at hself
    exact hne hself
  · intro hnone
    by_cases ha : ∃ b e, m.Aliased name b e
    · obtain ⟨b,e,ha⟩ := ha
      rw [canonicalAction_of_aliased h ha]
      by_contra hne
      exact hnone ⟨b,e,ha,hne⟩
    · exact canonicalAction_of_not_aliased ha

/-- The alias of an action is the name of no other one that the mask lists. -/
theorem get?_eq_none_of_aliased (h : m.conflict? = none) {nickname name : String} {e : Mask.Action}
    (ha : m.Aliased nickname name e) (hne : name ≠ nickname) : m.actions.get? nickname = none := by
  have hfree := (conflictFrom_eq_none_iff.mp h).1 _ (mem_actionAliases.mpr ⟨e,ha⟩)
  have hfalse := hfree.resolve_left (Ne.symm hne)
  simpa [Dict.contains] using hfalse

/-- A parameter has an entry if the entry of its action lists it, by name or by alias. -/
theorem parameter?_isSome_iff {action parameter : String} : (m.parameter? action parameter).isSome ↔
    ∃ e, m.action? action = some e ∧ (e.parameters.contains parameter ∨ e.Renames parameter) := by
  cases he : m.action? action with
  | none => simp [parameter?,he]
  | some e =>
    have hcanonical : m.canonicalParameter action parameter =
        (e.aliases.reverse.lookup parameter).getD parameter := by
      simp [canonicalParameter,he]
    simp only [parameter?,he,Option.bind_some,hcanonical,Option.some.injEq,exists_eq_left']
    cases hl : e.aliases.reverse.lookup parameter with
    | none =>
      have hnot : ¬e.Renames parameter := by
        rintro ⟨name,p,hp,hn⟩
        have hm : (parameter,name) ∈ e.aliases.reverse := by simpa using Action.mem_aliases.mpr ⟨p,hp,hn⟩
        obtain ⟨w,hw⟩ := exists_lookup_of_mem hm
        rw [hl] at hw
        cases hw
      simp [hnot,Dict.contains]
    | some name =>
      obtain ⟨p,hp,hn⟩ := Action.mem_aliases.mp (List.mem_reverse.mp (mem_of_lookup hl))
      simp only [Option.getD_some,hp,Option.isSome_some,true_iff]
      exact .inr ⟨name,p,hp,hn⟩

lemma aliasStatus_ne (nickname : Option String) :
    aliasStatus nickname ≠ "excluded" ∧ aliasStatus nickname ≠ "action excluded" := by
  simp only [aliasStatus]
  cases spoken nickname with
  | none => decide
  | some nickname => constructor <;> simp [← String.toList_inj,String.toList_append]

/-- What is said of a parameter tells whether it has an entry, or the mask lists nothing. -/
theorem parameterStatus_ne_iff {action parameter : String} :
    (m.parameterStatus action parameter ≠ "excluded" ∧ m.parameterStatus action parameter ≠ "action excluded") ↔
      m.isEmpty ∨ (m.parameter? action parameter).isSome := by
  simp only [parameterStatus]
  by_cases hm : m.isEmpty
  · simp [hm]
  · simp only [hm,Bool.false_eq_true,if_false,false_or]
    cases hp : m.parameter? action parameter with
    | none =>
      simp only [Option.isSome_none,Bool.false_eq_true,iff_false]
      split <;> simp
    | some p => simpa using aliasStatus_ne p.nickname

end ActionCatalog.Mask
