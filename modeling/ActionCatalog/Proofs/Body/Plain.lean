import ActionCatalog.Proofs.Body.Delivery

/-! Bodies that compose nothing and have plain names. Main statement: every leaf of such a body is delivered,
cast to its own type. -/
namespace ActionCatalog.Body
open Relation

variable {c : Components} {s : Schema} {required : Bool}

/-- A body in which every node leads to a schema that composes nothing, and names are neither empty nor hold
an underscore. -/
structure Plain (c : Components) (s : Schema) : Prop where
  whole : Whole c s
  uncomposed : ∀ t, ReflTransGen (Leads c) s t → t.branches = []
  named : ∀ t, ReflTransGen (Leads c) s t → ∀ name node, t.properties.get? name = some node →
    name ≠ "" ∧ '_' ∉ name.toList

/-- A chain through a plain body walks along first declarations, and its path joins their names. -/
theorem Plain.walk_of_chain (plain : Plain c s) {p : Spot} (chain : ReflTransGen (Step c) (.root s required) p) :
    ∃ names, Walk c s names p.schema ∧ (∀ name ∈ names, name ≠ "" ∧ '_' ∉ name.toList) ∧
      p.path = "__".intercalate names := by
  induction chain with
  | refl => exact ⟨[],.nil s,by simp,by simp [Spot.root]⟩
  | tail _ step ih =>
    obtain ⟨names,walk,hnames,hpath⟩ := ih
    cases step with
    | branch composed leads =>
      rw [plain.uncomposed _ walk.leads] at composed
      cases composed
    | @property name node t declared leads =>
      refine ⟨names ++ [name],walk.append (.cons (.own declared leads) (.nil t)),?_,?_⟩
      · intro other ho
        rcases List.mem_append.mp ho with ho | ho
        · exact hnames other ho
        · obtain rfl := List.mem_singleton.mp ho
          exact plain.named _ walk.leads other node declared
      · show join _ name = _
        rw [hpath,join_intercalate fun other ho => (hnames other ho).1]

/-- The segments of a leaf's path walk to the leaf. -/
theorem Plain.walk_of_leaf (plain : Plain c s) {path : String} {q : Schema} {i : Input}
    (leaf : Leaf c (.root s required) path q i) : Walk c s (segments path) q := by
  cases leaf with
  | @intro p name node _ chain declared leads _ _ =>
    obtain ⟨names,walk,hnames,hpath⟩ := plain.walk_of_chain chain
    have hall : ∀ other ∈ names ++ [name], '_' ∉ other.toList := by
      intro other ho
      rcases List.mem_append.mp ho with ho | ho
      · exact (hnames other ho).2
      · obtain rfl := List.mem_singleton.mp ho
        exact (plain.named _ walk.leads other node declared).2
    rw [hpath,join_intercalate (fun other ho => (hnames other ho).1),segments_intercalate (by simp) hall]
    exact walk.append (.cons (.own declared leads) (.nil q))

/-- Nothing lies behind a leaf of a plain body. -/
lemma Plain.eq_nil_of_walk (plain : Plain c s) {path : String} {q r : Schema} {i : Input} {behind : List String}
    (leaf : Leaf c (.root s required) path q i) (walk : Walk c q behind r) : behind = [] := by
  have hcomposed := plain.uncomposed q (plain.walk_of_leaf leaf).leads
  have hdeclared : q.hasProperties = false := by
    cases leaf
    assumption
  cases walk with
  | nil => rfl
  | cons first _ =>
    cases first with
    | own declared _ =>
      have hm := (Dict.mem_entries_iff _ _ _).mpr declared
      rw [Schema.hasProperties_iff.mp hdeclared] at hm
      cases hm
    | branch _ split =>
      rw [hcomposed] at split
      simp at split

/-- Every leaf of a plain body stands in its template at the segments of its path, cast to its own type. -/
theorem Plain.delivers (plain : Plain c s) {e : Expansion} (h : expand c s required = .ok e) :
    ∃ ms, members c s e.names [] = .ok ms ∧ ∀ path q i, Leaf c (.root s required) path q i →
      (Value.object ms).at? (segments path) = some (placeholder q.soleType? path) := by
  have sound := sound_of_expand h
  obtain ⟨ms,hms⟩ := exists_members sound e.names []
  refine ⟨ms,hms,fun path q i leaf => (at?_members_eq_placeholder_iff hms).mpr ?_⟩
  have walk := plain.walk_of_leaf leaf
  have hin : path ∈ e.names := by
    obtain ⟨w,-,hw⟩ := Dict.exists_mem_of_insertAll ∅ ((mem_expand_iff h path i).mpr ⟨q,leaf⟩)
    exact (Dict.mem_keys_iff _ _).mpr (Option.isSome_iff_exists.mpr ⟨w,hw⟩)
  refine ⟨hin,rfl,⟨q,(descend_eq_some_iff sound plain.whole).mpr walk,rfl⟩,?_⟩
  rintro other - ⟨r,hr⟩ ⟨behind,hbehind⟩
  have hwalk := (descend_eq_some_iff sound plain.whole).mp hr
  rw [← hbehind] at hwalk
  have hnil := plain.eq_nil_of_walk leaf (walk.behind hwalk)
  rw [← hbehind,hnil,List.append_nil]

end ActionCatalog.Body
