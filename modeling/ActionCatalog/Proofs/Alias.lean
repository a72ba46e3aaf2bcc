import ActionCatalog.Mask.Reader
import ActionCatalog.Proofs.Mask

/-! Masks as they are read. Main statement: a mask is refused exactly if an alias is the name of another action or
was declared before, and the first action with such an alias is blamed; in a mask that is read, an alias is as good
as the name of the one action that declares it. -/
namespace ActionCatalog.Mask
open Keyed

variable {m : Mask}

/-- The alias of an action is the name of another one that the mask lists. -/
def Shadows (m : Mask) (nickname name : String) : Prop :=
  (∃ e, m.Aliased nickname name e) ∧ nickname ≠ name ∧ m.actions.contains nickname

/-- The alias of an action was declared before, by an action with a lesser name. -/
def Repeats (m : Mask) (nickname first name : String) : Prop :=
  first < name ∧ (∃ e, m.Aliased nickname first e) ∧ ∃ e, m.Aliased nickname name e

/-- An action has an alias that it must not have. -/
def Clashes (m : Mask) (name : String) : Prop :=
  ∃ nickname, m.Shadows nickname name ∨ ∃ first, m.Repeats nickname first name

section Scan
variable {taken aliases before after : List (String × String)} {x : String × String} {f : Failure}

/-- What is wrong with an alias, of which others were taken before. -/
def objection? (m : Mask) (taken : List (String × String)) (x : String × String) : Option Failure :=
  if x.1 ≠ x.2 && m.actions.contains x.1 then some (.shadowingAlias x.1 x.2)
  else (taken.lookup x.1).map fun first => .duplicateAlias x.1 first x.2

lemma conflictFrom_cons : m.conflictFrom taken (x :: aliases) =
    (m.objection? taken x).or (m.conflictFrom (x :: taken) aliases) := by
  obtain ⟨nickname,name⟩ := x
  simp only [conflictFrom,objection?]
  split
  · rfl
  · cases taken.lookup nickname <;> rfl

/-- The conflict is the first objection, after all aliases before were taken without one. -/
lemma conflictFrom_eq_some_iff : m.conflictFrom taken aliases = some f ↔
    ∃ before x after, aliases = before ++ x :: after ∧ m.conflictFrom taken before = none ∧
      m.objection? (before.reverse ++ taken) x = some f := by
  induction aliases generalizing taken with
  | nil => simp [conflictFrom]
  | cons y rest ih =>
    cases hy : m.objection? taken y with
    | some f' =>
      rw [conflictFrom_cons,hy,Option.some_or]
      constructor
      · rintro ⟨⟩
        exact ⟨[],y,rest,rfl,rfl,hy⟩
      · rintro ⟨before,x,after,hsplit,hfree,hx⟩
        cases before with
        | nil =>
          cases hsplit
          exact hy.symm.trans hx
        | cons y' before =>
          cases hsplit
          rw [conflictFrom_cons,hy] at hfree
          cases hfree
    | none =>
      rw [conflictFrom_cons,hy,Option.none_or,ih]
      constructor
      · rintro ⟨before,x,after,rfl,hfree,hx⟩
        refine ⟨y :: before,x,after,rfl,?_,?_⟩
        · rw [conflictFrom_cons,hy,Option.none_or,hfree]
        · simpa using hx
      · rintro ⟨before,x,after,hsplit,hfree,hx⟩
        cases before with
        | nil =>
          cases hsplit
          cases hy.symm.trans hx
        | cons y' before =>
          cases hsplit
          rw [conflictFrom_cons,hy,Option.none_or] at hfree
          exact ⟨before,x,after,rfl,hfree,by simpa using hx⟩

/-- The aliases are gone through by the names of their actions. -/
lemma pairwise_actionAliases : m.actionAliases.Pairwise (·.2 < ·.2) := by
  refine m.actions.ascending.filterMap _ fun a b hlt x hx y hy => ?_
  obtain ⟨_,_,rfl⟩ := Option.map_eq_some_iff.mp hx
  obtain ⟨_,_,rfl⟩ := Option.map_eq_some_iff.mp hy
  exact hlt

/-- Gone through before an alias are those of the actions with lesser names. -/
lemma mem_before_iff (hsplit : m.actionAliases = before ++ x :: after) (y : String × String) :
    y ∈ before ↔ (∃ e, m.Aliased y.1 y.2 e) ∧ y.2 < x.2 := by
  have hpair := m.pairwise_actionAliases
  rw [hsplit] at hpair
  obtain ⟨-,hrest,hcross⟩ := List.pairwise_append.mp hpair
  have hmem : y ∈ before ++ x :: after ↔ ∃ e, m.Aliased y.1 y.2 e := by
    rw [← hsplit,← mem_actionAliases]
  rw [← hmem,List.mem_append,List.mem_cons]
  constructor
  · intro hy
    exact ⟨.inl hy,hcross y hy x List.mem_cons_self⟩
  · rintro ⟨hy | rfl | hy,hlt⟩
    · exact hy
    · exact absurd hlt (String.lt_irrefl _)
    · exact absurd hlt (String.lt_asymm ((List.pairwise_cons.mp hrest).1 y hy))

/-- The aliases of all actions up to some name are in no conflict if none of these actions clashes. -/
lemma conflictFrom_nil_eq_none_iff (p : String → Prop) (hp : ∀ a b, a < b → p b → p a)
    (hpair : aliases.Pairwise (·.2 < ·.2))
    (hmem : ∀ y : String × String, y ∈ aliases ↔ (∃ e, m.Aliased y.1 y.2 e) ∧ p y.2) :
    m.conflictFrom [] aliases = none ↔ ∀ name, p name → ¬m.Clashes name := by
  rw [conflictFrom_eq_none_iff]
  constructor
  · rintro ⟨hshadow,hnodup,-⟩ name hname ⟨nickname,⟨ha,hne,hc⟩ | ⟨first,hlt,ha,hb⟩⟩
    · have hfree := hshadow (nickname,name) ((hmem _).mpr ⟨ha,hname⟩)
      simp [hne,hc] at hfree
    · have hfirst := (hmem (nickname,first)).mpr ⟨ha,hp _ _ hlt hname⟩
      have hname := (hmem (nickname,name)).mpr ⟨hb,hname⟩
      cases List.inj_on_of_nodup_map hnodup hfirst hname rfl
      exact String.lt_irrefl _ hlt
  · intro hfree
    refine ⟨fun y hy => ?_,?_,fun _ _ => rfl⟩
    · obtain ⟨ha,hy⟩ := (hmem y).mp hy
      by_contra hbad
      rw [not_or,Bool.not_eq_false] at hbad
      exact hfree y.2 hy ⟨y.1,.inl ⟨ha,hbad⟩⟩
    · refine List.pairwise_map.mpr (hpair.imp_of_mem fun {y z} hy hz hlt heq => ?_)
      obtain ⟨ha,-⟩ := (hmem y).mp hy
      obtain ⟨hb,hz⟩ := (hmem z).mp hz
      exact hfree z.2 hz ⟨z.1,.inr ⟨y.2,hlt,heq ▸ ha,hb⟩⟩

lemma conflictFrom_before_iff (hsplit : m.actionAliases = before ++ x :: after) :
    m.conflictFrom [] before = none ↔ ∀ earlier < x.2, ¬m.Clashes earlier := by
  have hpair := m.pairwise_actionAliases
  rw [hsplit] at hpair
  exact conflictFrom_nil_eq_none_iff (· < x.2) (fun _ _ => String.lt_trans) (List.pairwise_append.mp hpair).1
    (mem_before_iff hsplit)

/-- An alias found among those before it was declared by the one action before that has it. -/
lemma lookup_before_iff (hsplit : m.actionAliases = before ++ x :: after) (hfree : m.conflictFrom [] before = none)
    (first : String) : before.reverse.lookup x.1 = some first ↔ m.Repeats x.1 first x.2 := by
  have ha : ∃ e, m.Aliased x.1 x.2 e := mem_actionAliases.mp (by simp [hsplit])
  have hmem : (x.1,first) ∈ before.reverse ↔ (∃ e, m.Aliased x.1 first e) ∧ first < x.2 :=
    List.mem_reverse.trans (mem_before_iff hsplit _)
  have hnodup : (before.reverse.map (·.1)).Nodup := by
    rw [List.map_reverse,List.nodup_reverse]
    exact (conflictFrom_eq_none_iff.mp hfree).2.1
  constructor
  · intro h
    obtain ⟨hb,hlt⟩ := hmem.mp (mem_of_lookup h)
    exact ⟨hlt,hb,ha⟩
  · rintro ⟨hlt,hb,-⟩
    exact lookup_of_mem hnodup (hmem.mpr ⟨hb,hlt⟩)

lemma objection?_before_iff (hsplit : m.actionAliases = before ++ x :: after)
    (hfree : m.conflictFrom [] before = none) : m.objection? (before.reverse ++ []) x = some f ↔
      m.Shadows x.1 x.2 ∧ f = .shadowingAlias x.1 x.2 ∨
      ¬m.Shadows x.1 x.2 ∧ ∃ first, m.Repeats x.1 first x.2 ∧ f = .duplicateAlias x.1 first x.2 := by
  have ha : ∃ e, m.Aliased x.1 x.2 e := mem_actionAliases.mp (by simp [hsplit])
  have hshadow : m.Shadows x.1 x.2 ↔ (x.1 ≠ x.2 && m.actions.contains x.1) = true := by simp [Shadows,ha]
  rw [List.append_nil,objection?]
  by_cases hs : m.Shadows x.1 x.2
  · rw [if_pos (hshadow.mp hs),Option.some.injEq,eq_comm]
    simp [hs]
  · rw [if_neg (fun h => hs (hshadow.mpr h)),Option.map_eq_some_iff]
    simp only [lookup_before_iff hsplit hfree,hs,false_and,false_or,not_false_iff,true_and,@eq_comm _ f]

end Scan

/-- A mask is free of conflicts exactly if no action clashes. -/
theorem conflict?_eq_none_iff : m.conflict? = none ↔ ∀ name, ¬m.Clashes name := by
  have hmem : ∀ y : String × String, y ∈ m.actionAliases ↔ (∃ e, m.Aliased y.1 y.2 e) ∧ True := by
    intro y
    rw [and_true,← mem_actionAliases]
  rw [conflict?,conflictFrom_nil_eq_none_iff (fun _ => True) (fun _ _ _ h => h) m.pairwise_actionAliases hmem]
  exact forall_congr' fun _ => true_imp_iff

/-- The first action that clashes is blamed: for the name of another one, or else for the action that declared its
alias before. -/
theorem conflict?_eq_some_iff {f : Failure} : m.conflict? = some f ↔
    ∃ name, (∀ earlier < name, ¬m.Clashes earlier) ∧ ∃ nickname,
      m.Shadows nickname name ∧ f = .shadowingAlias nickname name ∨
      ¬m.Shadows nickname name ∧ ∃ first, m.Repeats nickname first name ∧ f = .duplicateAlias nickname first name := by
  rw [conflict?,conflictFrom_eq_some_iff]
  constructor
  · rintro ⟨before,x,after,hsplit,hfree,hf⟩
    exact ⟨x.2,(conflictFrom_before_iff hsplit).mp hfree,x.1,(objection?_before_iff hsplit hfree).mp hf⟩
  · rintro ⟨name,hfirst,nickname,hf⟩
    have ha : ∃ e, m.Aliased nickname name e := by
      rcases hf with ⟨⟨ha,-⟩,-⟩ | ⟨-,_,⟨-,-,ha⟩,-⟩ <;> exact ha
    obtain ⟨before,after,hsplit⟩ := List.mem_iff_append.mp (mem_actionAliases.mpr ha)
    have hfree := (conflictFrom_before_iff hsplit).mpr hfirst
    exact ⟨before,(nickname,name),after,hsplit,hfree,(objection?_before_iff hsplit hfree).mpr hf⟩

/-- Names and aliases of actions are not mistaken for one another. -/
structure Unambiguous (m : Mask) : Prop where
  listed {name : String} : m.actions.contains name → m.canonicalAction name = name
  aliased {nickname name : String} {e : Mask.Action} : m.Aliased nickname name e →
    m.canonicalAction nickname = name ∧ ∀ b e', m.Aliased nickname b e' → b = name
  other {name : String} : (¬∃ b e, m.Aliased name b e) → m.canonicalAction name = name
  idempotent (name : String) : m.canonicalAction (m.canonicalAction name) = m.canonicalAction name
  entry {name : String} {e : Mask.Action} : m.actions.get? name = some e → m.action? name = some e ∧
    ∀ nickname, spoken e.nickname = some nickname → m.action? nickname = some e
  parameter {nickname name : String} {e : Mask.Action} : m.Aliased nickname name e → ∀ p,
    m.parameter? nickname p = m.parameter? name p ∧ m.canonicalParameter nickname p = m.canonicalParameter name p

/-- A name that the mask lists stands for itself. -/
lemma canonicalAction_of_contains (h : m.conflict? = none) {name : String} (hlisted : m.actions.contains name) :
    m.canonicalAction name = name := by
  refine (canonicalAction_eq_self_iff h).mpr ?_
  rintro ⟨b,e,ha,hne⟩
  have hnone := get?_eq_none_of_aliased h ha hne
  simp [Dict.contains,hnone] at hlisted

theorem unambiguous_of_conflict?_eq_none (h : m.conflict? = none) : m.Unambiguous := by
  have hlisted : ∀ name e, m.actions.get? name = some e → m.canonicalAction name = name :=
    fun name e he => canonicalAction_of_contains h (by simp [Dict.contains,he])
  have haction : ∀ nickname name e, m.Aliased nickname name e → m.action? nickname = m.action? name := by
    intro nickname name e ha
    rw [action?,action?,canonicalAction_of_aliased h ha,hlisted name e ha.1]
  have hentry : ∀ name e, m.actions.get? name = some e → m.action? name = some e := by
    intro name e he
    rw [action?,hlisted name e he,he]
  refine ⟨canonicalAction_of_contains h,fun {nickname name e} ha => ?_,canonicalAction_of_not_aliased,fun name => ?_,
    fun {name e} he => ⟨hentry name e he,fun nickname hn => ?_⟩,fun {nickname name e} ha p => ?_⟩
  · refine ⟨canonicalAction_of_aliased h ha,fun b e' hb => ?_⟩
    exact (canonicalAction_of_aliased h hb).symm.trans (canonicalAction_of_aliased h ha)
  · by_cases ha : ∃ b e, m.Aliased name b e
    · obtain ⟨b,e,ha⟩ := ha
      rw [canonicalAction_of_aliased h ha,hlisted b e ha.1]
    · rw [canonicalAction_of_not_aliased ha,canonicalAction_of_not_aliased ha]
  · rw [haction nickname name e ⟨he,hn⟩,hentry name e he]
  · have hcanonical : m.canonicalParameter nickname p = m.canonicalParameter name p := by
      rw [canonicalParameter,canonicalParameter,haction nickname name e ha]
    exact ⟨by rw [parameter?,parameter?,haction nickname name e ha,hcanonical],hcanonical⟩

/-- The mask that a text spells, whatever its aliases are. -/
def spelled? (text : String) : Option Mask :=
  let text := dropBackslashes text.toList
  if text.all Text.isBlank then some {} else (Yaml.read? (.ofList text)).bind ofTree?

/-- What a text spells is read unless its aliases are in conflict. -/
lemma read_eq (text : String) :
    read text = match spelled? text with | none => .error .unreadable | some m => check m := by
  simp only [spelled?,read]
  split <;> rfl

lemma check_eq_error_iff {f : Failure} : check m = .error (.conflict f) ↔ m.conflict? = some f := by
  cases h : m.conflict? <;> simp [check,h]

lemma check_eq_ok_iff {m' : Mask} : check m = .ok m' ↔ m.conflict? = none ∧ m = m' := by
  cases h : m.conflict? <;> simp [check,h]

/-- The aliases of a mask that was read are in no conflict. -/
theorem conflict?_of_read {text : String} (h : read text = .ok m) : m.conflict? = none := by
  rw [read_eq] at h
  split at h
  · cases h
  · obtain ⟨hnone,rfl⟩ := check_eq_ok_iff.mp h
    exact hnone

/-- A mask that is spelled out well is refused exactly if two actions have one alias, or the alias of one is the name
of another that is listed, and then for the first action, by name, with an alias that is the name of another one or,
failing that, was declared before. If it is read, names and aliases are not mistaken for one another. -/
theorem read_refuses_clashes (text : String) (m : Mask) (h : spelled? text = some m) :
    ((∃ f, read text = .error (.conflict f)) ↔
      (∃ nickname a b e e', a ≠ b ∧ m.Aliased nickname a e ∧ m.Aliased nickname b e') ∨
      ∃ nickname name, m.Shadows nickname name) ∧
    (∀ f, read text = .error (.conflict f) ↔ ∃ name, (∀ earlier < name, ¬m.Clashes earlier) ∧ ∃ nickname,
      m.Shadows nickname name ∧ f = .shadowingAlias nickname name ∨
      ¬m.Shadows nickname name ∧ ∃ first, m.Repeats nickname first name ∧
        f = .duplicateAlias nickname first name) ∧
    (∀ m', read text = .ok m' ↔ m = m' ∧ ∀ name, ¬m.Clashes name) ∧
    ∀ m', read text = .ok m' → m'.Unambiguous := by
  have hfails : ∀ f, read text = .error (.conflict f) ↔ m.conflict? = some f := by
    intro f
    rw [read_eq,h,check_eq_error_iff]
  have hclash : (∃ f, m.conflict? = some f) ↔ ∃ name, m.Clashes name := by
    rw [← Option.ne_none_iff_exists',ne_eq,conflict?_eq_none_iff]
    exact not_forall_not
  refine ⟨?_,fun f => by rw [hfails,conflict?_eq_some_iff],fun m' => ?_,
    fun m' hm' => unambiguous_of_conflict?_eq_none (conflict?_of_read hm')⟩
  · simp only [hfails,hclash]
    constructor
    · rintro ⟨name,nickname,hshadow | ⟨first,hlt,⟨e,ha⟩,e',hb⟩⟩
      · exact .inr ⟨nickname,name,hshadow⟩
      · refine .inl ⟨nickname,first,name,e,e',?_,ha,hb⟩
        rintro rfl
        exact String.lt_irrefl _ hlt
    · rintro (⟨nickname,a,b,e,e',hne,ha,hb⟩ | ⟨nickname,name,hshadow⟩)
      · by_cases hlt : a < b
        · exact ⟨b,nickname,.inr ⟨a,hlt,⟨e,ha⟩,e',hb⟩⟩
        · have hlt' : b < a := by
            by_contra hlt'
            exact hne (Std.Trichotomous.trichotomous _ _ hlt hlt')
          exact ⟨a,nickname,.inr ⟨b,hlt',⟨e',hb⟩,e,ha⟩⟩
      · exact ⟨name,nickname,.inl hshadow⟩
  · rw [read_eq,h,check_eq_ok_iff,conflict?_eq_none_iff,and_comm]

/-- Of the actions b and c, which both have an alias that they must not have, b comes first. -/
def clashingText : String := "actions: {a: {alias: x}, b: {alias: a}, c: {alias: x}}"

def renamedText : String := "actions: {run: {alias: go, parameters: {p: {alias: q, index: 2}}}, stop: {alias: stop}}"

/-- The first clash is told, and an alias finds what the name finds. -/
theorem read_refuses_clashes_first : (∃ m, spelled? clashingText = some m ∧
      (∀ earlier < "b", ¬m.Clashes earlier) ∧ m.Shadows "a" "b") ∧
    ∃ m, spelled? renamedText = some m ∧ read renamedText = .ok m ∧ m.canonicalAction "go" = "run" ∧
      m.canonicalAction "stop" = "stop" ∧ m.parameter? "go" "q" = some { nickname := some "q", index := 2 } := by
  constructor
  · obtain ⟨m,hm,hconflict⟩ : ∃ m, spelled? clashingText = some m ∧
        m.conflict? = some (.shadowingAlias "a" "b") := Option.bind_eq_some_iff.mp (by decide +kernel)
    have hread : read clashingText = .error (.conflict (.shadowingAlias "a" "b")) := by
      rw [read_eq,hm]
      exact check_eq_error_iff.mpr hconflict
    obtain ⟨name,hfirst,nickname,⟨hshadow,heq⟩ | ⟨-,first,-,heq⟩⟩ :=
      ((read_refuses_clashes clashingText m hm).2.1 _).mp hread
    · cases heq
      exact ⟨m,hm,hfirst,hshadow⟩
    · cases heq
  · obtain ⟨m,hm,hparts⟩ : ∃ m, spelled? renamedText = some m ∧
        (m.conflict?,(m.actions.get? "run").bind (·.nickname),m.actions.contains "stop",m.parameter? "run" "q") =
          (none,some "go",true,some { nickname := some "q", index := 2 }) :=
      Option.map_eq_some_iff.mp (by decide +kernel)
    obtain ⟨hconflict,hparts⟩ := Prod.mk.inj hparts
    obtain ⟨hrun,hparts⟩ := Prod.mk.inj hparts
    obtain ⟨hstop,hp⟩ := Prod.mk.inj hparts
    obtain ⟨e,he,hgo⟩ := Option.bind_eq_some_iff.mp hrun
    have ha : m.Aliased "go" "run" e := ⟨he,by simp [hgo,spoken]⟩
    have hread : read renamedText = .ok m := by
      rw [read_eq,hm]
      exact check_eq_ok_iff.mpr ⟨hconflict,rfl⟩
    have hun := (read_refuses_clashes renamedText m hm).2.2.2 m hread
    exact ⟨m,hm,hread,(hun.aliased ha).1,hun.listed hstop,(hun.parameter ha "q").1.trans hp⟩

end ActionCatalog.Mask
