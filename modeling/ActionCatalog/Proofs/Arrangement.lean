import ActionCatalog.Proofs.Registry
import Mathlib.Data.List.Perm.Basic

/-! Parameters in the order of the tokens of a path. Main statement: they can be arranged exactly if their names are
the tokens, each as often as the path has it, and else it is told which token is the first without a parameter. -/
namespace ActionCatalog
namespace PathTemplate
variable {α : Type} {nameOf : α → String}

section TakeOut
variable {p : α → Bool} {x : α} {xs left : List α}

lemma takeOut?_eq_none_iff : takeOut? p xs = none ↔ ∀ x ∈ xs, ¬p x := by
  induction xs with
  | nil => simp [takeOut?]
  | cons y rest ih =>
    rw [takeOut?,List.forall_mem_cons]
    by_cases hy : p y
    · rw [if_pos hy]
      cases rest.getLast? <;> simp [hy]
    · rw [if_neg hy,Option.map_eq_none_iff,ih]
      exact (and_iff_right hy).symm

/-- What is taken out has the property, and all else is left, if in another order. -/
lemma of_takeOut? (h : takeOut? p xs = some (x,left)) : p x ∧ xs.Perm (x :: left) := by
  induction xs generalizing left with
  | nil => cases h
  | cons y rest ih =>
    rw [takeOut?] at h
    split at h
    · rename_i hy
      cases hlast : rest.getLast? with
      | none =>
        rw [hlast] at h
        cases h
        rw [List.getLast?_eq_none_iff.mp hlast]
        exact ⟨hy,.refl _⟩
      | some last =>
        rw [hlast] at h
        cases h
        obtain ⟨front,rfl⟩ := List.getLast?_eq_some_iff.mp hlast
        rw [List.dropLast_concat]
        exact ⟨hy,.cons x (List.perm_append_singleton last front)⟩
    · obtain ⟨⟨z,others⟩,htaken,heq⟩ := Option.map_eq_some_iff.mp h
      cases heq
      obtain ⟨hz,hperm⟩ := ih htaken
      exact ⟨hz,(hperm.cons y).trans (.swap _ y others)⟩

end TakeOut

/-- The first of the wanted names that is left without one of those that are there: with all that come before it, it
is wanted more often than it is there, and no name before it is. -/
def FirstUnmet (there wanted : List String) (name : String) : Prop :=
  ∃ before after, wanted = before ++ name :: after ∧ there.count name < (before ++ [name]).count name ∧
    ∀ earlier token rest, before = earlier ++ token :: rest → (earlier ++ [token]).count token ≤ there.count token

section FirstUnmet
variable {there there' wanted : List String} {token name : String}

lemma firstUnmet_congr (h : there.Perm there') : FirstUnmet there wanted name ↔ FirstUnmet there' wanted name := by
  unfold FirstUnmet
  simp only [h.count_eq]

lemma FirstUnmet.mem (h : FirstUnmet there wanted name) : name ∈ wanted := by
  obtain ⟨before,after,rfl,-,-⟩ := h
  simp

lemma not_firstUnmet_of_perm (h : wanted.Perm there) : ¬FirstUnmet there wanted name := by
  rintro ⟨before,after,rfl,hless,-⟩
  have hle : (before ++ [name]).count name ≤ (before ++ name :: after).count name := by
    apply List.Sublist.count_le
    simp
  have heq := h.count_eq name
  omega

/-- One that is there and is used up counts on both sides. -/
lemma count_erase_lt_iff (h : token ∈ there) (names : List String) (name : String) :
    (there.erase token).count name < names.count name ↔ there.count name < (token :: names).count name := by
  have hpos := List.count_pos_iff.mpr h
  rw [List.count_erase,List.count_cons]
  by_cases heq : token = name
  · subst heq
    simp only [beq_self_eq_true,if_true]
    omega
  · simp [heq]

/-- The first of the wanted names is left without one if there is none, and otherwise it uses one up. -/
lemma firstUnmet_cons_iff : FirstUnmet there (token :: wanted) name ↔
    token ∉ there ∧ name = token ∨ token ∈ there ∧ FirstUnmet (there.erase token) wanted name := by
  constructor
  · rintro ⟨before,after,heq,hless,hmet⟩
    cases before with
    | nil =>
      cases heq
      left
      refine ⟨?_,rfl⟩
      apply List.count_eq_zero.mp
      simpa using hless
    | cons first before =>
      cases heq
      have hthere : token ∈ there := by
        apply List.count_pos_iff.mp
        simpa using hmet [] token before rfl
      right
      refine ⟨hthere,before,after,rfl,(count_erase_lt_iff hthere _ _).mpr hless,?_⟩
      intro earlier later rest hbefore
      have hle := hmet (token :: earlier) later rest (by rw [hbefore,List.cons_append])
      have hiff := count_erase_lt_iff hthere (earlier ++ [later]) later
      rw [← List.cons_append] at hiff
      omega
  · rintro (⟨hnone,rfl⟩ | ⟨hthere,before,after,rfl,hless,hmet⟩)
    · refine ⟨[],wanted,rfl,?_,by simp⟩
      simp [List.count_eq_zero.mpr hnone]
    · refine ⟨token :: before,after,rfl,(count_erase_lt_iff hthere _ _).mp hless,?_⟩
      intro earlier later rest heq
      cases earlier with
      | nil =>
        cases heq
        simpa using List.count_pos_iff.mpr hthere
      | cons first earlier =>
        cases heq
        have hle := hmet earlier later rest rfl
        have hiff := count_erase_lt_iff hthere (earlier ++ [later]) later
        rw [List.cons_append]
        omega

end FirstUnmet

section Pick
variable {names : List String} {left xs : List α}

/-- Picking fails at the first name that is left without an element. -/
lemma pick_eq_error_iff {name : String} :
    pick nameOf names left = .error name ↔ FirstUnmet (left.map nameOf) names name := by
  induction names generalizing left with
  | nil =>
    rw [pick]
    constructor
    · intro h
      cases h
    · intro h
      cases h.mem
  | cons token names ih =>
    rw [firstUnmet_cons_iff,pick]
    cases htaken : takeOut? (nameOf · = token) left with
    | none =>
      have hnone : token ∉ left.map nameOf := by
        have hall := takeOut?_eq_none_iff.mp htaken
        simpa using hall
      simp [hnone,eq_comm]
    | some taken =>
      obtain ⟨x,rest⟩ := taken
      obtain ⟨hx,hperm⟩ := of_takeOut? htaken
      have hname : nameOf x = token := of_decide_eq_true hx
      have hthere : token ∈ left.map nameOf := by
        rw [(hperm.map nameOf).mem_iff,← hname]
        exact List.mem_cons_self
      have hrest : ((left.map nameOf).erase token).Perm (rest.map nameOf) := by
        apply ((hperm.map nameOf).erase token).trans
        rw [List.map_cons,hname,List.erase_cons_head]
      dsimp only
      rw [firstUnmet_congr hrest,← ih,bind_pure_comp,Except.map_eq_error_iff]
      simp [hthere]

/-- What is picked has the names in their order, and is taken from what there was. -/
lemma of_pick (h : pick nameOf names left = .ok xs) : xs.map nameOf = names ∧ ∃ rest, left.Perm (xs ++ rest) := by
  induction names generalizing left xs with
  | nil =>
    cases h
    exact ⟨rfl,left,.refl _⟩
  | cons token names ih =>
    rw [pick] at h
    split at h
    · cases h
    · rename_i x others htaken
      obtain ⟨ys,hys,h⟩ := Except.bind_eq_ok_iff.mp h
      cases h
      obtain ⟨hx,hperm⟩ := of_takeOut? htaken
      obtain ⟨hnames,rest,hrest⟩ := ih hys
      refine ⟨?_,rest,hperm.trans (hrest.cons x)⟩
      rw [List.map_cons,hnames,of_decide_eq_true hx]

end Pick

section Arrange
variable {path : String} {declared xs : List α}

/-- What is arranged is all that is declared, under the names of the tokens in their order. -/
lemma of_arrange (h : arrange nameOf path declared = .ok xs) : xs.Perm declared ∧ xs.map nameOf = tokens path := by
  simp only [arrange] at h
  split at h
  · cases h
  · rename_i hcount
    split at h
    · rename_i hpick
      cases h
      obtain ⟨hnames,rest,hperm⟩ := of_pick hpick
      have hlength := hperm.length_eq
      have hpicked : xs.length = (tokens path).length := by rw [← hnames,List.length_map]
      have hrest : rest = [] := by
        apply List.eq_nil_of_length_eq_zero
        rw [List.length_append] at hlength
        omega
      rw [hrest,List.append_nil] at hperm
      exact ⟨hperm.symm,hnames⟩
    · cases h

lemma arrange_eq_error_iff {f : Failure} : arrange nameOf path declared = .error f ↔
    (tokens path).length ≠ declared.length ∧ f = .parameterCount path (tokens path).length declared.length ∨
    (tokens path).length = declared.length ∧
      ∃ name, FirstUnmet (declared.map nameOf) (tokens path) name ∧ f = .unknownParameter path name := by
  simp only [arrange]
  by_cases hcount : (tokens path).length = declared.length
  · rw [if_neg (not_not.mpr hcount)]
    simp only [← pick_eq_error_iff]
    cases pick nameOf (tokens path) declared with
    | ok ordered => simp [hcount]
    | error name => simp [hcount,eq_comm]
  · rw [if_pos hcount]
    simp [hcount,eq_comm]

lemma exists_arrange_iff :
    (∃ xs, arrange nameOf path declared = .ok xs) ↔ (tokens path).Perm (declared.map nameOf) := by
  constructor
  · rintro ⟨xs,h⟩
    obtain ⟨hperm,hnames⟩ := of_arrange h
    rw [← hnames]
    exact hperm.map nameOf
  · intro hperm
    cases h : arrange nameOf path declared with
    | ok xs => exact ⟨xs,rfl⟩
    | error f =>
      rcases arrange_eq_error_iff.mp h with ⟨hcount,-⟩ | ⟨-,name,hunmet,-⟩
      · have hlength := hperm.length_eq
        rw [List.length_map] at hlength
        exact absurd hlength hcount
      · exact absurd hunmet (not_firstUnmet_of_perm hperm)

end Arrange

/-- The parameters of the path of an extracted operation are the tokens of the path. -/
lemma names_pathParameters {d : Document} {declared : DeclaredSecurity} {r : Registry}
    (h : Registry.extract d declared = .ok r) {o : Operation} (ho : o ∈ r.operations) :
    o.pathParameters.map (·.name) = tokens o.path := by
  obtain ⟨_,_,_,hbuilt⟩ := Registry.exists_built h ho
  obtain ⟨parameters,harranged⟩ := hbuilt.arranged
  exact (of_arrange harranged).2

/-- Parameters can be arranged by a path exactly if their names are its tokens, each as often as the path has it. They
come out under the tokens in their order, none is lost and none is added. Otherwise it is told how many there are of
each if the numbers differ, and else which token is the first that is left without a parameter. So the parameters of
the path of an extracted operation are its tokens. -/
theorem arranges_exactly (path : String) (declared : List Parameter) :
    ((∃ ordered, arrange Parameter.name path declared = .ok ordered) ↔
      (tokens path).Perm (declared.map (·.name))) ∧
    (∀ ordered, arrange Parameter.name path declared = .ok ordered →
      ordered.Perm declared ∧ ordered.map (·.name) = tokens path) ∧
    (∀ f, arrange Parameter.name path declared = .error f ↔
      (tokens path).length ≠ declared.length ∧ f = .parameterCount path (tokens path).length declared.length ∨
      (tokens path).length = declared.length ∧
        ∃ name, FirstUnmet (declared.map (·.name)) (tokens path) name ∧ f = .unknownParameter path name) ∧
    ∀ d security r, Registry.extract d security = .ok r → ∀ o ∈ r.operations,
      o.pathParameters.map (·.name) = tokens o.path := by
  refine ⟨exists_arrange_iff,fun ordered h => of_arrange h,fun f => arrange_eq_error_iff,?_⟩
  intro d security r hr o ho
  exact names_pathParameters hr ho

/-- Parameters of which two have one name. -/
def repeatedNames : List Parameter :=
  [⟨"x",.path,true,"first",none⟩,⟨"y",.path,true,"",none⟩,⟨"x",.path,true,"second",none⟩]

/-- An operation whose path has a token twice. -/
def repeatedDocument : Document where
  paths := .ofList [("/{y}/{x}/{x}",{ operation := fun
    | .get => some { operationId := some "run", parameters := [.inline { name := "x", location := .path },
        .inline { name := "y", location := .path },.inline { name := "x", location := .path }] }
    | _ => none })]

/-- Two parameters of one name stand at the two tokens of that name. Where the path has another token twice instead,
its second occurrence is without a parameter. -/
theorem arranges_exactly_repeated :
    (∃ ordered, arrange Parameter.name "/{y}/{x}/{x}" repeatedNames = .ok ordered ∧ ordered.Perm repeatedNames ∧
      ordered.map (·.name) = ["y","x","x"]) ∧
    (∃ name, FirstUnmet (repeatedNames.map (·.name)) (tokens "/{x}/{y}/{y}") name ∧
      arrange Parameter.name "/{x}/{y}/{y}" repeatedNames = .error (.unknownParameter "/{x}/{y}/{y}" name)) ∧
    ∃ r o, Registry.extract repeatedDocument ∅ = .ok r ∧ o ∈ r.operations ∧
      o.pathParameters.map (·.name) = ["y","x","x"] := by
  have htokens : tokens "/{y}/{x}/{x}" = ["y","x","x"] := by decide +kernel
  have hpairs : tokens "/{x}/{y}/{y}" = ["x","y","y"] := by decide +kernel
  obtain ⟨hiff,hordered,-,hextracted⟩ := arranges_exactly "/{y}/{x}/{x}" repeatedNames
  refine ⟨?_,?_,?_⟩
  · obtain ⟨ordered,h⟩ := hiff.mpr (by rw [htokens]; decide)
    obtain ⟨hperm,hnames⟩ := hordered ordered h
    exact ⟨ordered,h,hperm,hnames.trans htokens⟩
  · have hunmet : FirstUnmet (repeatedNames.map (·.name)) (tokens "/{x}/{y}/{y}") "y" := by
      rw [hpairs]
      refine ⟨["x","y"],[],rfl,by decide,?_⟩
      intro earlier token rest heq
      match earlier with
      | [] => cases heq; decide
      | [_] => cases heq; decide
      | _ :: _ :: _ => simp at heq
    refine ⟨"y",hunmet,((arranges_exactly "/{x}/{y}/{y}" repeatedNames).2.2.1 _).mpr ?_⟩
    exact .inr ⟨by rw [hpairs]; rfl,"y",hunmet,rfl⟩
  · obtain ⟨r,o,hr,ho,hpath⟩ : ∃ r o, Registry.extract repeatedDocument ∅ = .ok r ∧ r.operations = [o] ∧
        o.path = "/{y}/{x}/{x}" := ⟨_,_,by rfl,by rfl,by rfl⟩
    have hmem : o ∈ r.operations := by simp [ho]
    refine ⟨r,o,hr,hmem,?_⟩
    rw [hextracted repeatedDocument ∅ r hr o hmem,hpath,htokens]

end PathTemplate
end ActionCatalog
