import ActionCatalog.Body.Path
import Mathlib.Data.List.Induction
import Mathlib.Tactic.Common

/-! The segments of a field's name say everything about it: joined again they give the name. Main statement: names that
are joined one after another are the segments of the result exactly if none holds a pair of underscores and none but
the last ends with one. -/
namespace ActionCatalog.Body

lemma split_ne_nil (text : List Char) : split text ≠ [] := by
  fun_cases split text with
  | case1 rest => simp
  | case2 c rest _ => cases split rest <;> simp [Text.extendHead]
  | case3 => simp

lemma segments_ne_nil (path : String) : segments path ≠ [] := by
  simp [segments,split_ne_nil]

lemma intercalate_extendHead (c : Char) {pieces : List (List Char)} (h : pieces ≠ []) :
    ("__".intercalate ((Text.extendHead c pieces).map String.ofList)).toList =
      c :: ("__".intercalate (pieces.map String.ofList)).toList := by
  cases pieces with
  | nil => exact absurd rfl h
  | cons piece rest =>
    cases rest with
    | nil => simp [Text.extendHead]
    | cons next rest => simp [Text.extendHead,String.intercalate_cons_cons]

lemma intercalate_split (text : List Char) :
    ("__".intercalate ((split text).map String.ofList)).toList = text := by
  fun_induction split text with
  | case1 rest ih =>
    have hne : (split rest).map String.ofList ≠ [] := by simp [split_ne_nil]
    rw [List.map_cons,String.intercalate_cons_of_ne_nil hne]
    simp [ih]
  | case2 c rest _ ih => rw [intercalate_extendHead c (split_ne_nil rest),ih]
  | case3 => simp

/-- Joining the segments of a name gives the name. -/
theorem intercalate_segments (path : String) : "__".intercalate (segments path) = path := by
  apply String.toList_injective
  exact intercalate_split path.toList

theorem segments_injective {a b : String} (h : segments a = segments b) : a = b := by
  rw [← intercalate_segments a,← intercalate_segments b,h]

/-- Pieces that are told apart by the pairs of underscores between them: none holds a pair, and none in front of
another ends with an underscore, which would make a pair with the first of the next two. -/
structure Apart (pieces : List (List Char)) : Prop where
  whole : ∀ piece ∈ pieces, ¬['_','_'] <:+: piece
  closed : ∀ piece ∈ pieces.dropLast, ¬['_'] <:+ piece

lemma apart_singleton (piece : List Char) : Apart [piece] ↔ ¬['_','_'] <:+: piece := by
  constructor
  · intro h
    exact h.whole piece List.mem_cons_self
  · intro h
    exact ⟨by simpa using h,by simp⟩

lemma apart_cons_iff {piece : List Char} {pieces : List (List Char)} (h : pieces ≠ []) :
    Apart (piece :: pieces) ↔ (¬['_','_'] <:+: piece ∧ ¬['_'] <:+ piece) ∧ Apart pieces := by
  constructor
  · rintro ⟨hwhole,hclosed⟩
    rw [List.dropLast_cons_of_ne_nil h] at hclosed
    obtain ⟨hpiece,hpieces⟩ := List.forall_mem_cons.mp hwhole
    obtain ⟨hend,hends⟩ := List.forall_mem_cons.mp hclosed
    exact ⟨⟨hpiece,hend⟩,hpieces,hends⟩
  · rintro ⟨⟨hpiece,hend⟩,hpieces⟩
    refine ⟨List.forall_mem_cons.mpr ⟨hpiece,hpieces.whole⟩,?_⟩
    rw [List.dropLast_cons_of_ne_nil h]
    exact List.forall_mem_cons.mpr ⟨hend,hpieces.closed⟩

lemma split_cons {c : Char} {rest : List Char} (h : ¬['_','_'] <+: c :: rest) :
    split (c :: rest) = Text.extendHead c (split rest) := by
  rw [split]
  rintro behind rfl rfl
  exact h ⟨behind,rfl⟩

lemma split_of_whole {piece : List Char} (h : ¬['_','_'] <:+: piece) : split piece = [piece] := by
  induction piece with
  | nil => rfl
  | cons c piece ih =>
    rw [split_cons (mt List.IsPrefix.isInfix h),ih (mt List.infix_cons h)]
    rfl

/-- The first pair of underscores behind a piece is where the text is split, if the piece does not run into it. -/
lemma split_append {piece : List Char} (hwhole : ¬['_','_'] <:+: piece) (hclosed : ¬['_'] <:+ piece)
    (rest : List Char) : split (piece ++ '_' :: '_' :: rest) = piece :: split rest := by
  induction piece with
  | nil => rfl
  | cons c piece ih =>
    have hhead : ¬['_','_'] <+: c :: (piece ++ '_' :: '_' :: rest) := by
      rintro ⟨behind,hbehind⟩
      obtain ⟨rfl,htail⟩ := List.cons.inj hbehind
      cases piece with
      | nil => exact hclosed (List.suffix_refl _)
      | cons d piece =>
        obtain ⟨rfl,-⟩ := List.cons.inj htail
        exact hwhole ⟨[],piece,rfl⟩
    rw [List.cons_append,split_cons hhead,ih (mt List.infix_cons hwhole) (fun h => hclosed (h.trans (List.suffix_cons _ _)))]
    rfl

/-- The first piece of a text stands at its front, with a pair of underscores behind it if there are more pieces. -/
lemma eq_append_of_split {text piece : List Char} {pieces : List (List Char)} (h : split text = piece :: pieces) :
    (pieces = [] → text = piece) ∧ (pieces ≠ [] → ∃ rest, text = piece ++ '_' :: '_' :: rest) := by
  have htext := intercalate_split text
  rw [h,List.map_cons] at htext
  constructor
  · rintro rfl
    simpa using htext.symm
  · intro hne
    have hmap : pieces.map String.ofList ≠ [] := by simpa using hne
    rw [String.intercalate_cons_of_ne_nil hmap] at htext
    exact ⟨("__".intercalate (pieces.map String.ofList)).toList,by rw [← htext]; simp⟩

/-- The pieces that a text is split into are told apart. -/
lemma apart_split (text : List Char) : Apart (split text) := by
  fun_induction split text with
  | case1 rest ih => exact (apart_cons_iff (split_ne_nil rest)).mpr ⟨by simp,ih⟩
  | case2 c rest hpair ih =>
    obtain ⟨piece,pieces,hsplit⟩ := List.exists_cons_of_ne_nil (split_ne_nil rest)
    obtain ⟨halone,hmore⟩ := eq_append_of_split hsplit
    have hprefix : piece <+: rest := by
      by_cases hnil : pieces = []
      · obtain rfl := halone hnil
        exact List.prefix_refl _
      · obtain ⟨behind,rfl⟩ := hmore hnil
        exact List.prefix_append _ _
    -- A pair that the new character were in would stand at the front of the text.
    have hwhole : ¬['_','_'] <:+: piece → ¬['_','_'] <:+: c :: piece := by
      rintro hpiece hin
      rcases List.infix_cons_iff.mp hin with ⟨behind,hbehind⟩ | hin
      · obtain ⟨rfl,htail⟩ := List.cons.inj hbehind
        obtain ⟨more,hmore⟩ := hprefix
        exact hpair _ rfl (by rw [← hmore,← htail]; rfl)
      · exact hpiece hin
    rw [hsplit] at ih ⊢
    by_cases hnil : pieces = []
    · subst hnil
      exact (apart_singleton _).mpr (hwhole ((apart_singleton _).mp ih))
    · obtain ⟨⟨hpiece,hend⟩,hpieces⟩ := (apart_cons_iff hnil).mp ih
      refine (apart_cons_iff hnil).mpr ⟨⟨hwhole hpiece,?_⟩,hpieces⟩
      intro hends
      rcases List.suffix_cons_iff.mp hends with heq | hends
      · obtain ⟨rfl,rfl⟩ := List.cons.inj heq
        obtain ⟨behind,hrest⟩ := hmore hnil
        exact hpair _ rfl hrest
      · exact hend hends
  | case3 => exact (apart_singleton _).mpr (by simp)

/-- Joined names are split into the same names exactly if they are told apart. -/
theorem segments_intercalate_iff {names : List String} (hne : names ≠ []) :
    segments ("__".intercalate names) = names ↔ Apart (names.map String.toList) := by
  constructor
  · intro h
    have hsplit := congrArg (List.map String.toList) h
    rw [segments,List.map_map,List.map_congr_left (g := id) (by simp),List.map_id] at hsplit
    rw [← hsplit]
    exact apart_split _
  · intro h
    induction names with
    | nil => exact absurd rfl hne
    | cons name rest ih =>
      by_cases hnil : rest = []
      · subst hnil
        have hwhole := (apart_singleton _).mp h
        simp [segments,split_of_whole hwhole]
      · have hjoin : ("__".intercalate (name :: rest)).toList =
            name.toList ++ '_' :: '_' :: ("__".intercalate rest).toList := by
          rw [String.intercalate_cons_of_ne_nil hnil]
          simp
        obtain ⟨⟨hwhole,hclosed⟩,hrest⟩ := (apart_cons_iff (by simpa using hnil)).mp h
        have hbehind := ih hnil hrest
        simp only [segments] at hbehind ⊢
        rw [hjoin,split_append hwhole hclosed,List.map_cons,hbehind,String.ofList_toList]

/-- Names without underscores are the segments of the name that they are joined to. -/
theorem segments_intercalate {names : List String} (hne : names ≠ []) (h : ∀ name ∈ names, '_' ∉ name.toList) :
    segments ("__".intercalate names) = names := by
  refine (segments_intercalate_iff hne).mpr ⟨?_,?_⟩
  · intro piece hpiece hin
    obtain ⟨name,hname,rfl⟩ := List.mem_map.mp hpiece
    exact h name hname (hin.subset List.mem_cons_self)
  · intro piece hpiece hends
    obtain ⟨name,hname,rfl⟩ := List.mem_map.mp (List.dropLast_subset _ hpiece)
    exact h name hname (hends.subset List.mem_cons_self)

/-- A name of at least one character goes on from what was joined before it. -/
lemma join_intercalate {names : List String} (h : ∀ name ∈ names, name ≠ "") (name : String) :
    join ("__".intercalate names) name = "__".intercalate (names ++ [name]) := by
  cases names with
  | nil => simp [join]
  | cons first rest =>
    have hfirst : first ≠ "" := h first List.mem_cons_self
    have hne : "__".intercalate (first :: rest) ≠ "" := by
      cases rest with
      | nil => simpa using hfirst
      | cons next rest => simp [String.intercalate_cons_cons,hfirst]
    rw [join,if_neg hne,String.intercalate_append_of_ne_nil (by simp) (by simp),String.intercalate_singleton]

/-- The name of a field at the end of a path of properties. -/
def joined (names : List String) : String := names.foldl join ""

lemma joined_eq_intercalate {names : List String} (h : ∀ name ∈ names, name ≠ "") :
    joined names = "__".intercalate names := by
  induction names using List.reverseRecOn with
  | nil => rfl
  | append_singleton names name ih =>
    have hnames : ∀ other ∈ names, other ≠ "" := fun other ho => h other (List.mem_append_left _ ho)
    have hjoined := ih hnames
    rw [joined] at hjoined ⊢
    rw [List.foldl_append,hjoined,List.foldl_cons,List.foldl_nil,join_intercalate hnames]

/-- The names on the path of a field are read off the field's name exactly if they are told apart, and then no other
such path has the same name. -/
theorem segments_joined_iff (names : List String) (hne : names ≠ []) (hnames : ∀ name ∈ names, name ≠ "") :
    (segments (joined names) = names ↔ Apart (names.map String.toList)) ∧
    (Apart (names.map String.toList) → ∀ others, others ≠ [] → (∀ name ∈ others, name ≠ "") →
      Apart (others.map String.toList) → joined others = joined names → others = names) := by
  have hiff : ∀ {others : List String}, others ≠ [] → (∀ name ∈ others, name ≠ "") →
      (segments (joined others) = others ↔ Apart (others.map String.toList)) := by
    intro others hne hothers
    rw [joined_eq_intercalate hothers,segments_intercalate_iff hne]
  refine ⟨hiff hne hnames,?_⟩
  intro hapart others hothersne hothers hothersapart hjoined
  calc others
    _ = segments (joined others) := ((hiff hothersne hothers).mpr hothersapart).symm
    _ = segments (joined names) := by rw [hjoined]
    _ = names := (hiff hne hnames).mpr hapart

/-- Underscores at the outer edges do no harm; one in front of another name is taken for a part of the pair. -/
theorem segments_joined_iff_edges :
    segments (joined ["_team","name_"]) = ["_team","name_"] ∧
    segments (joined ["team_","name"]) ≠ ["team_","name"] ∧
    (∀ others, others ≠ [] → (∀ name ∈ others, name ≠ "") → Apart (others.map String.toList) →
      joined others = joined ["_team","name_"] → others = ["_team","name_"]) := by
  have happart : Apart (["_team","name_"].map String.toList) := ⟨by decide +kernel,by decide +kernel⟩
  obtain ⟨hedges,hunique⟩ := segments_joined_iff ["_team","name_"] (by decide) (by decide +kernel)
  refine ⟨hedges.mpr happart,?_,hunique happart⟩
  intro hsegments
  obtain ⟨hinner,-⟩ := segments_joined_iff ["team_","name"] (by decide) (by decide +kernel)
  exact (hinner.mp hsegments).closed "team_".toList (by decide +kernel) (by decide +kernel)

/-- A name whose segments go on from those of another starts with the other and two underscores. -/
lemma startsWith_of_segments {a b : String} (h : segments a <+: segments b) (hne : segments a ≠ segments b) :
    (a ++ "__").toList <+: b.toList := by
  obtain ⟨more,hmore⟩ := h
  have hm : more ≠ [] := by
    rintro rfl
    apply hne
    rw [← hmore,List.append_nil]
  have hb : b = a ++ "__" ++ "__".intercalate more := by
    rw [← intercalate_segments b,← hmore,String.intercalate_append_of_ne_nil (segments_ne_nil a) hm,
      intercalate_segments]
  simp only [hb,String.toList_append]
  exact List.prefix_append _ _

end ActionCatalog.Body
