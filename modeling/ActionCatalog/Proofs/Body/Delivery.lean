import ActionCatalog.Proofs.Body.First
import ActionCatalog.Proofs.Body.Placement

/-! What a template delivers of the fields of a body. Main statement: a field that no deeper one supersedes is
in the template exactly if the segments of its name lead to a schema. -/
namespace ActionCatalog.Body
open Relation

variable {c : Components} {s : Schema}

/-- The leaf for a name, at the path of its segments, if they lead anywhere. -/
def leafOf (c : Components) (s : Schema) (name : String) : Option (List String × Value) :=
  match descend c s (segments name) with
  | .ok (some p) => some (segments name,placeholder p.soleType? name)
  | _ => none

lemma leafOf_eq_some_iff {name : String} {x : List String × Value} : leafOf c s name = some x ↔
    ∃ p, descend c s (segments name) = .ok (some p) ∧ x = (segments name,placeholder p.soleType? name) := by
  simp only [leafOf]
  split
  · rename_i p hp
    simp [hp,eq_comm]
  · rename_i hn
    simp only [reduceCtorEq,false_iff]
    rintro ⟨p,hp,-⟩
    exact hn p hp

lemma leafOf_eq_some {name : String} {p : Schema} (h : descend c s (segments name) = .ok (some p)) :
    leafOf c s name = some (segments name,placeholder p.soleType? name) := by simp [leafOf,h]

/-- The leaf at a path is that of the name whose segments it is. -/
lemma leafOf_of_path {other name : String} {x : List String × Value} (h : leafOf c s other = some x)
    (hx : x.1 = segments name) : leafOf c s name = some x := by
  obtain ⟨p,-,rfl⟩ := leafOf_eq_some_iff.mp h
  rwa [← segments_injective hx]

/-- Every name whose segments lead to a schema puts its leaf into a body, besides those that did before. -/
theorem shows_members {done names : List String} {found ms : List (String × Value)}
    (h : members c s names found = .ok ms) (shows : Shows found (done.filterMap (leafOf c s))) :
    Shows ms ((done ++ names).filterMap (leafOf c s)) := by
  induction names generalizing found done with
  | nil =>
    cases h
    simpa using shows
  | cons name names ih =>
    obtain ⟨leaf,hleaf,h⟩ := Except.bind_eq_ok_iff.mp h
    rw [← List.singleton_append,← List.append_assoc]
    cases leaf with
    | none =>
      have hnone : leafOf c s name = none := by simp [leafOf,hleaf]
      refine ih h ?_
      simpa [List.filterMap_cons_none hnone] using shows
    | some p =>
      refine ih h ?_
      rw [List.filterMap_append,List.filterMap_cons_some (leafOf_eq_some hleaf),List.filterMap_nil]
      refine shows.put (by simp [placeholder_eq_write]) (segments_ne_nil name) fun x hx hpath => ?_
      obtain ⟨other,-,hother⟩ := List.mem_filterMap.mp hx
      have hname := leafOf_of_path hother hpath
      rw [leafOf_eq_some hleaf] at hname
      cases hname
      rfl

lemma shows_leaves {names : List String} {ms : List (String × Value)} (h : members c s names [] = .ok ms) :
    Shows ms (names.filterMap (leafOf c s)) := by
  have shows : Shows ms (([] ++ names).filterMap (leafOf c s)) := shows_members h shows_nil
  exact shows

/-- A placeholder stands in a body at the segments of its name, cast to the type that they lead to, and no
name among the given ones goes on from there. -/
theorem at?_members_eq_placeholder_iff {names : List String} {ms : List (String × Value)}
    (h : members c s names [] = .ok ms) {path : List String} {t : Option DataType} {name : String} :
    (Value.object ms).at? path = some (placeholder t name) ↔
      name ∈ names ∧ path = segments name ∧
      (∃ p, descend c s (segments name) = .ok (some p) ∧ placeholder t name = placeholder p.soleType? name) ∧
      ∀ other ∈ names, (∃ p, descend c s (segments other) = .ok (some p)) →
        segments name <+: segments other → segments name = segments other := by
  have shows := shows_leaves h
  have hstanding : (Value.object ms).at? path = some (placeholder t name) ↔
      standing ms path = some (some (placeholder t name)) := by
    rw [standing_eq_leaf_iff]
    simp [placeholder_eq_write]
  rw [hstanding,shows.leaf]
  simp only [List.mem_filterMap,leafOf_eq_some_iff]
  constructor
  · rintro ⟨⟨other,hmem,p,hp,heq⟩,hmax⟩
    obtain ⟨rfl,hvalue⟩ := Prod.mk.inj heq
    have hname : name = other := by
      rw [placeholder_eq_write,placeholder_eq_write] at hvalue
      exact (Form.write_inj hvalue).2
    subst hname
    refine ⟨hmem,rfl,⟨p,hp,hvalue⟩,?_⟩
    rintro other ho ⟨q,hq⟩ hpre
    exact hmax _ ⟨other,ho,q,hq,rfl⟩ hpre
  · rintro ⟨hmem,rfl,⟨p,hp,hvalue⟩,hmax⟩
    refine ⟨⟨name,hmem,p,hp,by rw [hvalue]⟩,?_⟩
    rintro x ⟨other,ho,q,hq,rfl⟩ hpre
    exact hmax other ho ⟨q,hq⟩ hpre

/-- The members of a body come about exactly if the segments of every name lead somewhere or nowhere. -/
theorem exists_members_iff {names : List String} {found : List (String × Value)} :
    (∃ ms, members c s names found = .ok ms) ↔ ∀ name ∈ names, ∃ leaf, descend c s (segments name) = .ok leaf := by
  induction names generalizing found with
  | nil => exact iff_of_true ⟨found,rfl⟩ (by simp)
  | cons name names ih =>
    rw [List.forall_mem_cons]
    constructor
    · rintro ⟨ms,h⟩
      obtain ⟨leaf,hleaf,h⟩ := Except.bind_eq_ok_iff.mp h
      cases leaf with
      | none => exact ⟨⟨_,hleaf⟩,ih.mp ⟨ms,h⟩⟩
      | some p => exact ⟨⟨_,hleaf⟩,ih.mp ⟨ms,h⟩⟩
    · rintro ⟨⟨leaf,hleaf⟩,hnames⟩
      cases leaf with
      | none =>
        obtain ⟨ms,hms⟩ := ih.mpr hnames
        exact ⟨ms,Except.bind_eq_ok_iff.mpr ⟨none,hleaf,hms⟩⟩
      | some p =>
        obtain ⟨ms,hms⟩ := ih.mpr hnames
        exact ⟨ms,Except.bind_eq_ok_iff.mpr ⟨some p,hleaf,hms⟩⟩

/-- In a sound body every list of names has its members. -/
lemma exists_members (sound : Sound c s) (names : List String) (found : List (String × Value)) :
    ∃ ms, members c s names found = .ok ms :=
  exists_members_iff.mpr fun name _ => exists_descend sound (segments name)

/-- Whether a placeholder of a parameter stands anywhere in a body. -/
def Delivers (ms : List (String × Value)) (name : String) : Prop :=
  ∃ path t, (Value.object ms).at? path = some (placeholder t name)

/-- The names of the fields that an expansion writes into an empty dictionary. -/
def Expansion.names (e : Expansion) : List String := (Dict.ofList e.fields).keys

/-- A body that can be expanded has a template. Of its fields, one that no other one's name goes on from
with two underscores is in the template exactly if the segments of its name lead to a schema; where every
reference leads to a schema, that is to walk along them from first declaration to first declaration. -/
theorem delivers_iff_walk (c : Components) (s : Schema) (required : Bool) (e : Expansion)
    (h : expand c s required = .ok e) :
    ∃ ms, members c s e.names [] = .ok ms ∧ template c s e.names = .ok (Json.print (.object ms)) ∧
      ∀ name ∈ e.names, (∀ other ∈ e.names, ¬(name ++ "__").toList <+: other.toList) →
        (Delivers ms name ↔ ∃ p, descend c s (segments name) = .ok (some p)) ∧
        (Whole c s → (Delivers ms name ↔ ∃ p, Walk c s (segments name) p)) := by
  have sound := sound_of_expand h
  obtain ⟨ms,hms⟩ := exists_members sound e.names []
  refine ⟨ms,hms,Except.bind_eq_ok_iff.mpr ⟨ms,hms,rfl⟩,fun name hname hlast => ?_⟩
  have hdelivers : Delivers ms name ↔ ∃ p, descend c s (segments name) = .ok (some p) := by
    constructor
    · rintro ⟨path,t,hat⟩
      obtain ⟨-,-,⟨p,hp,-⟩,-⟩ := (at?_members_eq_placeholder_iff hms).mp hat
      exact ⟨p,hp⟩
    · rintro ⟨p,hp⟩
      refine ⟨segments name,p.soleType?,(at?_members_eq_placeholder_iff hms).mpr ?_⟩
      refine ⟨hname,rfl,⟨p,hp,rfl⟩,fun other ho _ hpre => ?_⟩
      by_contra hne
      exact hlast other ho (startsWith_of_segments hpre hne)
  refine ⟨hdelivers,fun whole => ?_⟩
  rw [hdelivers]
  exact exists_congr fun p => descend_eq_some_iff sound whole

/-- A body composed of two parts, each of which declares an object under the same name. -/
def twoParts : Schema :=
  let part (field : String) : RefOr Schema :=
    .inline { declared := [("a",.inline { declared := [(field,.inline { types := some (.one .string) })] })] }
  { allOf := [part "x",part "y"] }

/-- Only the first part is searched, so that the field of the second is not delivered. -/
theorem delivers_iff_walk_twoParts :
    ∃ e ms, expand {} twoParts false = .ok e ∧ e.names = ["a__x","a__y"] ∧
      members {} twoParts e.names [] = .ok ms ∧ Delivers ms "a__x" ∧ ¬Delivers ms "a__y" := by
  obtain ⟨e,he⟩ : ∃ e, expand {} twoParts false = .ok e := ⟨_,by rfl⟩
  have hnames : e.names = ["a__x","a__y"] := by
    cases he
    decide +kernel
  obtain ⟨ms,hms,-,hd⟩ := delivers_iff_walk {} twoParts false e he
  rw [hnames] at hd hms
  refine ⟨e,ms,he,hnames,by rw [hnames,hms],?_,?_⟩
  · exact (hd "a__x" (by decide) (by decide +kernel)).1.mpr ⟨_,by rfl⟩
  · have hnone : descend {} twoParts (segments "a__y") = .ok none := by rfl
    rw [(hd "a__y" (by decide) (by decide +kernel)).1,hnone]
    simp

end ActionCatalog.Body
