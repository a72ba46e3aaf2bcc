import ActionCatalog.Dict

/-! What a dictionary looks up after each operation. Looking up says all there is to say: dictionaries
that look up the same are equal. -/
namespace ActionCatalog.Dict
variable {α β : Type}

theorem lookup_cons (k : String) (e : String × α) (es : List (String × α)) :
    (e :: es).lookup k = if k = e.1 then some e.2 else es.lookup k := by
  obtain ⟨k',v⟩ := e
  by_cases h : k = k'
  · simp [h]
  · have hb : (k == k') = false := by simpa using h
    simp [List.lookup_cons,h,hb]

theorem lookup_put (k : String) (v : α) (es : List (String × α)) (k' : String) :
    (put k v es).lookup k' = if k' = k then some v else es.lookup k' := by
  induction es with
  | nil => simp [put,lookup_cons]
  | cons e rest ih =>
    simp only [put]
    split
    · rw [lookup_cons]
    · split
      · rename_i he
        simp only [lookup_cons,← he]
        split <;> rfl
      · rename_i hne
        simp only [lookup_cons,ih]
        by_cases h : k' = e.1
        · subst h
          simp [Ne.symm hne]
        · simp [h]

/-- Nothing is found below the least key. -/
theorem lookup_eq_none {k : String} {es : List (String × α)} (h : ∀ e ∈ es, k < e.1) :
    es.lookup k = none := by
  induction es with
  | nil => rfl
  | cons e rest ih =>
    have hlt := h e (by simp)
    have hne : k ≠ e.1 := fun heq => String.lt_irrefl _ (heq ▸ hlt)
    rw [lookup_cons,if_neg hne]
    exact ih fun x hx => h x (by simp [hx])

@[simp] theorem get?_empty (k : String) : (∅ : Dict α).get? k = none := rfl

theorem get?_insert (d : Dict α) (k : String) (v : α) (k' : String) :
    (d.insert k v).get? k' = if k' = k then some v else d.get? k' := lookup_put k v d.entries k'

theorem get?_insertAll (d : Dict α) (es : List (String × α)) (k : String) :
    (d.insertAll es).get? k = (es.reverse.lookup k).or (d.get? k) := by
  induction es generalizing d with
  | nil => rfl
  | cons e es ih =>
    show ((d.insert e.1 e.2).insertAll es).get? k = _
    rw [ih,get?_insert,List.reverse_cons,List.lookup_append,lookup_cons,List.lookup_nil]
    cases es.reverse.lookup k with
    | some v => rfl
    | none => by_cases h : k = e.1 <;> simp [h]

theorem insertAll_append (d : Dict α) (as bs : List (String × α)) :
    d.insertAll (as ++ bs) = (d.insertAll as).insertAll bs := List.foldl_append

theorem get?_ofList (es : List (String × α)) (k : String) : (ofList es).get? k = es.reverse.lookup k := by
  rw [ofList,get?_insertAll,get?_empty,Option.or_none]

/-- What a list of entries names is found as one of them says. -/
theorem exists_mem_of_insertAll (d : Dict α) {es : List (String × α)} {k : String} {v : α}
    (h : (k,v) ∈ es) : ∃ w, (k,w) ∈ es ∧ (d.insertAll es).get? k = some w := by
  have hs : (es.reverse.lookup k).isSome := List.lookup_isSome_iff.mpr ⟨_,List.mem_reverse.mpr h,beq_self_eq_true _⟩
  obtain ⟨w,hw⟩ := Option.isSome_iff_exists.mp hs
  obtain ⟨l,r,hl,-⟩ := List.lookup_eq_some_iff.mp hw
  refine ⟨w,List.mem_reverse.mp (by simp [hl]),?_⟩
  rw [get?_insertAll,hw,Option.some_or]

theorem mem_of_get?_ofList {es : List (String × α)} {k : String} {v : α} (h : (ofList es).get? k = some v) :
    (k,v) ∈ es := by
  rw [get?_ofList] at h
  obtain ⟨l,r,hl,-⟩ := List.lookup_eq_some_iff.mp h
  exact List.mem_reverse.mp (by simp [hl])

theorem lookup_eq_some_iff {es : List (String × α)} (h : es.Pairwise (fun a b => a.1 < b.1)) (k : String)
    (v : α) : es.lookup k = some v ↔ (k,v) ∈ es := by
  induction es with
  | nil => simp
  | cons e rest ih =>
    obtain ⟨he,hr⟩ := List.pairwise_cons.mp h
    rw [lookup_cons,List.mem_cons]
    by_cases hk : k = e.1
    · have hn : (k,v) ∉ rest := fun hm => String.lt_irrefl _ (hk ▸ he _ hm)
      simp only [hk,if_true,Option.some.injEq]
      constructor
      · intro hv
        exact .inl (by rw [← hv])
      · rintro (hv | hm)
        · rw [← hv]
        · exact absurd (hk ▸ hm) hn
    · rw [if_neg hk,ih hr]
      constructor
      · exact .inr
      · rintro (hv | hm)
        · exact absurd (congrArg Prod.fst hv) hk
        · exact hm

theorem mem_entries_iff (d : Dict α) (k : String) (v : α) : (k,v) ∈ d.entries ↔ d.get? k = some v :=
  (lookup_eq_some_iff d.ascending k v).symm

theorem mem_keys_iff (d : Dict α) (k : String) : k ∈ d.keys ↔ d.contains k = true := by
  rw [contains,Option.isSome_iff_exists]
  constructor
  · intro h
    obtain ⟨e,he,rfl⟩ := List.mem_map.mp h
    exact ⟨e.2,(mem_entries_iff d e.1 e.2).mp he⟩
  · rintro ⟨v,hv⟩
    exact List.mem_map.mpr ⟨(k,v),(mem_entries_iff d k v).mpr hv,rfl⟩

theorem nodup_keys (d : Dict α) : d.keys.Nodup := by
  have h : d.keys.Pairwise (· < ·) := by simpa [keys,List.pairwise_map] using d.ascending
  apply h.imp
  rintro a b hlt rfl
  exact String.lt_irrefl a hlt

theorem mem_values_iff (d : Dict α) (v : α) : v ∈ d.values ↔ ∃ k, d.get? k = some v := by
  constructor
  · intro h
    obtain ⟨e,he,rfl⟩ := List.mem_map.mp h
    exact ⟨e.1,(mem_entries_iff d e.1 e.2).mp he⟩
  · rintro ⟨k,hk⟩
    exact List.mem_map.mpr ⟨(k,v),(mem_entries_iff d k v).mpr hk,rfl⟩

theorem entries_ext {as bs : List (String × α)} (ha : as.Pairwise (fun a b => a.1 < b.1))
    (hb : bs.Pairwise (fun a b => a.1 < b.1)) (h : ∀ k, as.lookup k = bs.lookup k) : as = bs := by
  induction as generalizing bs with
  | nil =>
    cases bs with
    | nil => rfl
    | cons b bs =>
      have hk := h b.1
      simp [lookup_cons] at hk
  | cons a as ih =>
    cases bs with
    | nil =>
      have hk := h a.1
      simp [lookup_cons] at hk
    | cons b bs =>
      obtain ⟨ha',has⟩ := List.pairwise_cons.mp ha
      obtain ⟨hb',hbs⟩ := List.pairwise_cons.mp hb
      have hkey : a.1 = b.1 := by
        refine Decidable.byContradiction fun hne => ?_
        have h1 : bs.lookup a.1 = some a.2 := by simpa [lookup_cons,hne] using (h a.1).symm
        have h2 : as.lookup b.1 = some b.2 := by simpa [lookup_cons,Ne.symm hne] using h b.1
        have hba := hb' _ ((lookup_eq_some_iff hbs _ _).mp h1)
        have hab := ha' _ ((lookup_eq_some_iff has _ _).mp h2)
        exact String.lt_irrefl _ (String.lt_trans hba hab)
      have hval : a.2 = b.2 := by simpa [lookup_cons,hkey] using h a.1
      have hrest : as = bs := by
        refine ih has hbs fun k => ?_
        by_cases hk : k = a.1
        · rw [lookup_eq_none fun e he => hk ▸ ha' e he,
            lookup_eq_none fun e he => hk ▸ hkey ▸ hb' e he]
        · have hk' : k ≠ b.1 := hkey ▸ hk
          simpa [lookup_cons,hk,hk'] using h k
      rw [Prod.ext hkey hval,hrest]

/-- Dictionaries that look up the same are equal. -/
theorem ext_get? {d e : Dict α} (h : ∀ k, d.get? k = e.get? k) : d = e := by
  have hes := entries_ext d.ascending e.ascending h
  cases d
  cases e
  simpa using hes

theorem get?_map (f : String → α → β) (d : Dict α) (k : String) : (d.map f).get? k = (d.get? k).map (f k) := by
  obtain ⟨es,h⟩ := d
  show (es.map fun e => (e.1,f e.1 e.2)).lookup k = (es.lookup k).map (f k)
  clear h
  induction es with
  | nil => rfl
  | cons e rest ih =>
    simp only [List.map_cons,lookup_cons,ih]
    split
    · rename_i hk
      simp [hk]
    · rfl

theorem get?_filterMap (f : String → α → Option β) (d : Dict α) (k : String) :
    (d.filterMap f).get? k = (d.get? k).bind (f k) := by
  obtain ⟨es,h⟩ := d
  show (es.filterMap fun e => (f e.1 e.2).map (e.1,·)).lookup k = (es.lookup k).bind (f k)
  induction es with
  | nil => rfl
  | cons e rest ih =>
    obtain ⟨he,hr⟩ := List.pairwise_cons.mp h
    have hrest := ih hr
    rw [lookup_cons]
    by_cases hk : k = e.1
    · have hn : rest.lookup k = none := lookup_eq_none fun x hx => hk ▸ he x hx
      rw [hn,Option.bind_none] at hrest
      rw [if_pos hk,hk,List.filterMap_cons]
      cases hf : f e.1 e.2 with
      | none => simpa only [Option.map_none,Option.bind_some,hf,hk] using hrest
      | some w => simp [hf]
    · rw [if_neg hk,List.filterMap_cons]
      cases hf : f e.1 e.2 with
      | none => simpa only [Option.map_none] using hrest
      | some w => simpa only [Option.map_some,lookup_cons,if_neg hk] using hrest

end ActionCatalog.Dict
