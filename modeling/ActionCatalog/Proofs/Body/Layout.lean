import ActionCatalog.Proofs.Body.Delivery

/-! How the leaves of a body are laid out. Main statement: a template holds the leaf of every name that leads to a
schema and is not superseded, in objects that are neither empty nor out of order, and nothing else; so it depends
only on which of the names lead to a schema. -/
namespace ActionCatalog.Body

/-- Keys ascend in every object of a body, and no object inside it is empty. -/
def Tidy (members : List (String × Value)) : Prop := ∀ path inner,
  (Value.object members).at? path = some (.object inner) →
    inner.Pairwise (·.1 < ·.1) ∧ (path ≠ [] → inner ≠ [])

section Putting
variable {leaf : Value} {members ms ns : List (String × Value)} {path : List String}

lemma tidy_nil : Tidy [] := by
  intro path inner h
  cases path with
  | nil =>
    cases h
    exact ⟨.nil,fun hp => absurd rfl hp⟩
  | cons key rest => cases h

lemma Tidy.ascending (h : Tidy members) : members.Pairwise (·.1 < ·.1) := (h [] members (Value.at?_nil _)).1

/-- An object under a key of a tidy body is tidy, and not empty. -/
lemma Tidy.inside (h : Tidy members) {key : String} {inner : List (String × Value)}
    (hl : members.lookup key = some (.object inner)) : Tidy inner ∧ inner ≠ [] := by
  have hdown : ∀ path, (Value.object members).at? (key :: path) = (Value.object inner).at? path := by
    intro path
    rw [Value.at?_object_cons,hl]
    rfl
  refine ⟨fun path deeper hat => ?_,(h [key] inner (by rw [hdown]; rfl)).2 (List.cons_ne_nil _ _)⟩
  have hdeeper := h (key :: path) deeper (by rw [hdown,hat])
  exact ⟨hdeeper.1,fun _ => hdeeper.2 (List.cons_ne_nil _ _)⟩

lemma Tidy.below (h : Tidy members) (key : String) : Tidy (membersOf (members.lookup key)) := by
  cases hl : members.lookup key with
  | none => exact tidy_nil
  | some v =>
    cases v with
    | object inner => exact (h.inside hl).1
    | _ => exact tidy_nil

lemma lookup_put_self (key : String) (rest : List String) : ((put leaf (key :: rest) members).lookup key).isSome := by
  by_cases hrest : rest = []
  · subst hrest
    rw [put_singleton]
    split
    · rename_i hobj
      cases hl : members.lookup key with
      | none => simp [standing,hl] at hobj
      | some v => rfl
    · simp [Dict.lookup_put]
  · simp [put_cons hrest,Dict.lookup_put]

lemma put_ne_nil (hp : path ≠ []) : put leaf path members ≠ [] := by
  cases path with
  | nil => exact absurd rfl hp
  | cons key rest =>
    intro hnil
    have hself : ((put leaf (key :: rest) members).lookup key).isSome := lookup_put_self key rest
    rw [hnil] at hself
    cases hself

lemma put_ascending (h : members.Pairwise (·.1 < ·.1)) : (put leaf path members).Pairwise (·.1 < ·.1) := by
  cases path with
  | nil => exact h
  | cons key rest =>
    by_cases hrest : rest = []
    · subst hrest
      rw [put_singleton]
      split
      · exact h
      · exact Dict.put_ascending h
    · rw [put_cons hrest]
      exact Dict.put_ascending h

/-- A tidy body stays so when a leaf is put into it. -/
theorem Tidy.put (h : Tidy members) (hleaf : leaf.leaf? = some leaf) (hp : path ≠ []) :
    Tidy (put leaf path members) := by
  induction path generalizing members with
  | nil => exact absurd rfl hp
  | cons key rest ih =>
    intro q inner hat
    cases q with
    | nil =>
      cases hat
      exact ⟨put_ascending h.ascending,fun hq => absurd rfl hq⟩
    | cons k q =>
      by_cases hk : k = key
      · subst hk
        by_cases hrest : rest = []
        · subst hrest
          rw [put_singleton] at hat
          split at hat
          · exact h (k :: q) inner hat
          · -- Under the key stands the leaf, so that no object is met there.
            rw [Value.at?_object_cons,Dict.lookup_put,if_pos rfl,Option.bind_some] at hat
            cases q with
            | nil =>
              rw [Value.at?_nil,Option.some.injEq] at hat
              rw [hat] at hleaf
              cases hleaf
            | cons next q =>
              rw [Value.at?_cons_of_leaf hleaf] at hat
              cases hat
        · rw [put_cons hrest,Value.at?_object_cons,Dict.lookup_put,if_pos rfl,Option.bind_some] at hat
          obtain ⟨hascending,hfilled⟩ := ih (h.below k) hrest q inner hat
          refine ⟨hascending,fun _ => ?_⟩
          by_cases hq : q = []
          · subst hq
            cases hat
            exact put_ne_nil hrest
          · exact hfilled hq
      · rw [Value.at?_object_cons,lookup_put_of_ne hk] at hat
        exact h (k :: q) inner hat

lemma standing_singleton (members : List (String × Value)) (key : String) :
    standing members [key] = (members.lookup key).map Value.leaf? := by
  cases hl : members.lookup key <;> simp [standing,hl]

/-- Tidy bodies in which the same stands at every path are equal. -/
theorem Tidy.eq_of_standing (hm : Tidy ms) (hn : Tidy ns) (h : ∀ q, standing ms q = standing ns q) : ms = ns := by
  induction hsize : sizeOf ms using Nat.strongRecOn generalizing ms ns with
  | ind size ih =>
    refine Dict.entries_ext hm.ascending hn.ascending fun key => ?_
    have hkey := h [key]
    rw [standing_singleton,standing_singleton] at hkey
    cases hv : ms.lookup key with
    | none =>
      rw [hv,Option.map_none,eq_comm,Option.map_eq_none_iff] at hkey
      rw [hkey]
    | some v =>
      rw [hv,Option.map_some,eq_comm,Option.map_eq_some_iff] at hkey
      obtain ⟨w,hw,hleaf⟩ := hkey
      rw [hw,Option.some.injEq]
      cases v with
      | object inner =>
        obtain ⟨inner',rfl⟩ := Value.leaf?_eq_none_iff.mp hleaf
        -- The objects under the key are smaller, and the same stands in them.
        have hmem : (key,Value.object inner) ∈ ms := (Dict.lookup_eq_some_iff hm.ascending _ _).mp hv
        have hless : sizeOf inner < size := by
          have hin := List.sizeOf_lt_of_mem hmem
          simp only [Prod.mk.sizeOf_spec,Value.object.sizeOf_spec] at hin
          omega
        refine congrArg Value.object (ih _ hless (hm.inside hv).1 (hn.inside hw).1 (fun q => ?_) rfl)
        cases q with
        | nil => rw [standing_nil,standing_nil]
        | cons next q =>
          have hdown := h (key :: next :: q)
          rwa [standing_cons_of_ne_nil (List.cons_ne_nil _ _),standing_cons_of_ne_nil (List.cons_ne_nil _ _),
            hv,hw] at hdown
      | _ => exact (Value.leaf?_eq_some_iff.mp hleaf).1.symm

/-- Bodies in which the same leaves were put show the same. -/
lemma Shows.standing_congr {placed placed' : List (List String × Value)} (hm : Shows ms placed)
    (hn : Shows ns placed') (h : ∀ x, x ∈ placed ↔ x ∈ placed') (q : List String) : standing ms q = standing ns q := by
  have hleaf : ∀ v, standing ms q = some (some v) ↔ standing ns q = some (some v) := by
    intro v
    rw [hm.leaf,hn.leaf]
    simp only [h]
  have hobject : standing ms q = some none ↔ standing ns q = some none := by
    rw [hm.object,hn.object]
    simp only [h]
  match hq : standing ms q with
  | some (some v) => exact ((hleaf v).mp hq).symm
  | some none => exact (hobject.mp hq).symm
  | none =>
    match hr : standing ns q with
    | some (some v) => exact absurd ((hleaf v).mpr hr) (by simp [hq])
    | some none => exact absurd (hobject.mpr hr) (by simp [hq])
    | none => rfl

end Putting

variable {c : Components} {s : Schema} {names : List String}

lemma tidy_members {found ms : List (String × Value)} (h : members c s names found = .ok ms) (tidy : Tidy found) :
    Tidy ms := by
  induction names generalizing found with
  | nil =>
    cases h
    exact tidy
  | cons name names ih =>
    obtain ⟨leaf,-,h⟩ := Except.bind_eq_ok_iff.mp h
    cases leaf with
    | none => exact ih h tidy
    | some p => exact ih h (tidy.put (by simp [placeholder_eq_write]) (segments_ne_nil name))

/-- A name of a list whose segments lead to a schema of the body, where no other such name goes on from them. -/
structure Lasts (c : Components) (s : Schema) (names : List String) (name : String) (p : Schema) : Prop where
  mem : name ∈ names
  leads : descend c s (segments name) = .ok (some p)
  last : ∀ other ∈ names, (∃ q, descend c s (segments other) = .ok (some q)) →
    segments name <+: segments other → segments name = segments other

/-- A body that holds the placeholder of every name that lasts at the segments of the name, and no other leaf, in
objects with ascending keys of which none but the whole is empty. -/
structure LaidOut (c : Components) (s : Schema) (names : List String) (ms : List (String × Value)) : Prop where
  leaf : ∀ path v, (Value.object ms).at? path = some v ∧ v.leaf? = some v ↔
    ∃ name p, Lasts c s names name p ∧ path = segments name ∧ v = placeholder p.soleType? name
  ascending : ∀ path inner, (Value.object ms).at? path = some (.object inner) → inner.Pairwise (·.1 < ·.1)
  filled : ∀ path inner, (Value.object ms).at? path = some (.object inner) → path ≠ [] → inner ≠ []

theorem laidOut_members {ms : List (String × Value)} (h : members c s names [] = .ok ms) :
    LaidOut c s names ms where
  leaf := by
    intro path v
    rw [← standing_eq_leaf_iff,(shows_leaves h).leaf]
    simp only [List.mem_filterMap,leafOf_eq_some_iff]
    constructor
    · rintro ⟨⟨name,hname,p,hp,heq⟩,hlast⟩
      obtain ⟨rfl,rfl⟩ := Prod.mk.inj heq
      exact ⟨name,p,⟨hname,hp,fun other ho ⟨q,hq⟩ hpre => hlast _ ⟨other,ho,q,hq,rfl⟩ hpre⟩,rfl,rfl⟩
    · rintro ⟨name,p,lasts,rfl,rfl⟩
      refine ⟨⟨name,lasts.mem,p,lasts.leads,rfl⟩,?_⟩
      rintro x ⟨other,ho,q,hq,rfl⟩ hpre
      exact lasts.last other ho ⟨q,hq⟩ hpre
  ascending path inner hat := (tidy_members h tidy_nil path inner hat).1
  filled path inner hat := (tidy_members h tidy_nil path inner hat).2

/-- Names that lead to no schema make no difference, and neither do the order and the number of those that lead to one. -/
theorem members_unique {names names' : List String}
    (h : ∀ name p, descend c s (segments name) = .ok (some p) → (name ∈ names' ↔ name ∈ names))
    {ms ns : List (String × Value)} (hms : members c s names [] = .ok ms) (hns : members c s names' [] = .ok ns) :
    ns = ms := by
  have hleaves : ∀ x, x ∈ names'.filterMap (leafOf c s) ↔ x ∈ names.filterMap (leafOf c s) := by
    intro x
    simp only [List.mem_filterMap,leafOf_eq_some_iff]
    refine exists_congr fun name => and_congr_left ?_
    rintro ⟨p,hp,-⟩
    exact h name p hp
  exact (tidy_members hns tidy_nil).eq_of_standing (tidy_members hms tidy_nil)
    ((shows_leaves hns).standing_congr (shows_leaves hms) hleaves)

lemma template_eq_ok_iff {text : String} : template c s names = .ok text ↔
    ∃ ms, members c s names [] = .ok ms ∧ text = Json.print (.object ms) := by
  rw [template,Except.bind_eq_ok_iff]
  simp only [Except.pure_eq_ok,Except.ok.injEq,eq_comm]

/-- A list of names has a template exactly if the segments of each lead somewhere or nowhere in the body. It is the
text of an object that is laid out of the names that last. Lists that name the same of those that lead to a schema, in
whatever order and however often, have one template. -/
theorem template_laid_out (c : Components) (s : Schema) (names : List String) :
    ((∃ text, template c s names = .ok text) ↔ ∀ name ∈ names, ∃ leaf, descend c s (segments name) = .ok leaf) ∧
    (∀ text, template c s names = .ok text → ∃ ms, text = Json.print (.object ms) ∧ LaidOut c s names ms) ∧
    ∀ names', (∀ name p, descend c s (segments name) = .ok (some p) → (name ∈ names' ↔ name ∈ names)) →
      ∀ text text', template c s names = .ok text → template c s names' = .ok text' → text' = text := by
  refine ⟨?_,fun text h => ?_,fun names' h text text' htext htext' => ?_⟩
  · simp only [template_eq_ok_iff]
    have hmembers : (∃ ms, members c s names [] = .ok ms) ↔
        ∀ name ∈ names, ∃ leaf, descend c s (segments name) = .ok leaf := exists_members_iff
    rw [exists_comm,← hmembers]
    simp
  · obtain ⟨ms,hms,rfl⟩ := template_eq_ok_iff.mp h
    exact ⟨ms,rfl,laidOut_members hms⟩
  · obtain ⟨ms,hms,rfl⟩ := template_eq_ok_iff.mp htext
    obtain ⟨ns,hns,rfl⟩ := template_eq_ok_iff.mp htext'
    rw [members_unique h hms hns]

/-- A body with an object that has a field, and a field beside it. -/
def nested : Schema :=
  let field (t : DataType) : RefOr Schema := .inline { types := some (.one t) }
  { declared := [("a",.inline { declared := [("x",field .string)] }),("b",field .integer)] }

/-- The object wins over the leaf in its place, and neither an unknown name nor a second mention changes anything. -/
theorem template_laid_out_shuffled :
    (∃ leaf, descend {} nested (segments "a") = .ok (some leaf)) ∧
    template {} nested ["b","z","a__x","a","b"] = template {} nested ["a","a__x","b"] ∧
    template {} nested ["a","a__x","b"] =
      .ok "\x7b\"a\":\x7b\"x\":\"\x7b\x7bparams.a__x\x7d\x7d\"\x7d,\"b\":\"\x7b\x7bint(params.b)\x7d\x7d\"\x7d" := by
  have hnone : descend {} nested (segments "z") = .ok none := by rfl
  have htemplate : template {} nested ["a","a__x","b"] = .ok
      "\x7b\"a\":\x7b\"x\":\"\x7b\x7bparams.a__x\x7d\x7d\"\x7d,\"b\":\"\x7b\x7bint(params.b)\x7d\x7d\"\x7d" := by
    rfl
  have hsame : ∀ name p, descend {} nested (segments name) = .ok (some p) →
      (name ∈ ["b","z","a__x","a","b"] ↔ name ∈ ["a","a__x","b"]) := by
    intro name p hp
    have hz : name ≠ "z" := by
      rintro rfl
      cases hnone.symm.trans hp
    simp only [List.mem_cons,List.not_mem_nil,or_false,hz,false_or]
    constructor
    · rintro (h | h | h | h) <;> simp [h]
    · rintro (h | h | h) <;> simp [h]
  obtain ⟨text,htext⟩ := (template_laid_out {} nested ["b","z","a__x","a","b"]).1.mpr (by
    simp only [List.forall_mem_cons]
    exact ⟨⟨_,by rfl⟩,⟨_,hnone⟩,⟨_,by rfl⟩,⟨_,by rfl⟩,⟨_,by rfl⟩,by simp⟩)
  refine ⟨⟨_,by rfl⟩,?_,htemplate⟩
  rw [htext,htemplate,(template_laid_out {} nested ["a","a__x","b"]).2.2 _ hsame _ _ htemplate htext]

end ActionCatalog.Body
