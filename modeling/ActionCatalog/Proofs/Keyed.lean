import Mathlib.Data.List.Nodup
import Mathlib.Tactic.Common

/-! Lists whose members have keys: what is found under a key. -/
namespace ActionCatalog.Keyed

section Pairs
variable {α : Type} {k : String} {v : α} {es : List (String × α)}

lemma mem_of_lookup (h : es.lookup k = some v) : (k,v) ∈ es := by
  obtain ⟨before,after,rfl,-⟩ := List.lookup_eq_some_iff.mp h
  simp

lemma lookup_eq_none_of_not_mem (h : ∀ v, (k,v) ∉ es) : es.lookup k = none := by
  cases hl : es.lookup k with
  | none => rfl
  | some v => exact absurd (mem_of_lookup hl) (h v)

lemma lookup_eq_none_of_new (h : k ∉ es.map (·.1)) : es.lookup k = none :=
  lookup_eq_none_of_not_mem fun _ hv => h (List.mem_map.mpr ⟨_,hv,rfl⟩)

lemma exists_lookup_of_mem (h : (k,v) ∈ es) : ∃ w, es.lookup k = some w := by
  apply Option.ne_none_iff_exists'.mp
  intro hn
  have hne := List.lookup_eq_none_iff.mp hn (k,v) h
  simp at hne

/-- Where the keys are distinct, each looks up its own value. -/
lemma lookup_of_mem (hnodup : (es.map (·.1)).Nodup) (h : (k,v) ∈ es) : es.lookup k = some v := by
  obtain ⟨w,hw⟩ := exists_lookup_of_mem h
  have heq := List.inj_on_of_nodup_map hnodup (mem_of_lookup hw) h rfl
  rw [hw,(Prod.mk.inj heq).2]

/-- Where the keys are distinct, their order does not matter. -/
lemma lookup_perm {es' : List (String × α)} (hnodup : (es.map (·.1)).Nodup) (h : es.Perm es') :
    es.lookup k = es'.lookup k := by
  have hnodup' : (es'.map (·.1)).Nodup := (h.map (·.1)).nodup_iff.mp hnodup
  cases hl : es.lookup k with
  | none =>
    refine (lookup_eq_none_of_not_mem fun v hv => ?_).symm
    obtain ⟨w,hw⟩ := exists_lookup_of_mem (h.mem_iff.mpr hv)
    rw [hl] at hw
    cases hw
  | some v => exact (lookup_of_mem hnodup' (h.mem_iff.mp (mem_of_lookup hl))).symm

end Pairs

/-- Where the keys are distinct, what is found under one is the member that has it. -/
lemma find?_eq_some_iff {α : Type} {key : α → String} {xs : List α} (hnodup : (xs.map key).Nodup) {k : String}
    {x : α} : xs.find? (key · == k) = some x ↔ x ∈ xs ∧ key x = k := by
  constructor
  · intro h
    exact ⟨List.mem_of_find?_eq_some h,by simpa using List.find?_some h⟩
  · rintro ⟨hm,rfl⟩
    have hsome : (xs.find? (key · == key x)).isSome := List.find?_isSome.mpr ⟨x,hm,by simp⟩
    obtain ⟨y,hy⟩ := Option.isSome_iff_exists.mp hsome
    have hkey : key y = key x := by simpa using List.find?_some hy
    rw [hy,List.inj_on_of_nodup_map hnodup (List.mem_of_find?_eq_some hy) hm hkey]

end ActionCatalog.Keyed
