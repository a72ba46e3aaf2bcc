import ActionCatalog.Dict.Lookup
import ActionCatalog.Tree.Read
import Mathlib.Data.List.Forall2
import Mathlib.Tactic.Common

/-! What is read of a tree. Main statement: under a key stands what its last entry holds. -/
namespace Option
variable {α β : Type}

/-- A list is read if each member is, and the results stand in the same order. -/
theorem mapM_eq_some_iff {f : α → Option β} {xs : List α} {ys : List β} :
    xs.mapM f = some ys ↔ List.Forall₂ (fun x y => f x = some y) xs ys := by
  induction xs generalizing ys with
  | nil => simp [eq_comm]
  | cons x xs ih =>
    rw [List.mapM_cons,List.forall₂_cons_left_iff]
    constructor
    · intro h
      obtain ⟨y,hy,h⟩ := Option.bind_eq_some_iff.mp h
      obtain ⟨rest,hr,h⟩ := Option.bind_eq_some_iff.mp h
      cases h
      exact ⟨y,rest,hy,ih.mp hr,rfl⟩
    · rintro ⟨y,rest,hy,hr,rfl⟩
      exact Option.bind_eq_some_iff.mpr ⟨y,hy,Option.bind_eq_some_iff.mpr ⟨rest,ih.mpr hr,rfl⟩⟩

theorem exists_mapM_eq_some {f : α → Option β} {xs : List α} (h : ∀ x ∈ xs, ∃ y, f x = some y) :
    ∃ ys, xs.mapM f = some ys := by
  induction xs with
  | nil => exact ⟨[],rfl⟩
  | cons x xs ih =>
    obtain ⟨y,hy⟩ := h x List.mem_cons_self
    obtain ⟨ys,hys⟩ := ih fun x hx => h x (List.mem_cons_of_mem _ hx)
    exact ⟨y :: ys,mapM_eq_some_iff.mpr (.cons hy (mapM_eq_some_iff.mp hys))⟩

theorem exists_mapM_eq_some_iff {f : α → Option β} {xs : List α} :
    (∃ ys, xs.mapM f = some ys) ↔ ∀ x ∈ xs, ∃ y, f x = some y := by
  refine ⟨?_,exists_mapM_eq_some⟩
  rintro ⟨ys,h⟩
  exact ((List.forall₂_and_left xs ys).mp ((mapM_eq_some_iff.mp h).imp fun x y hxy => ⟨⟨y,hxy⟩,hxy⟩)).1

end Option

namespace ActionCatalog.Tree
variable {α : Type}

/-- What the last entry under a key holds. -/
def child? (t : Tree) (key : String) : Option Tree :=
  match t with
  | .record _ entries => (entries.reverse.find? (·.1.asText? = some key)).map (·.2)
  | _ => none

lemma lookup_of_forall₂ {f : Tree → Option α} {entries : List (Tree × Tree)} {es : List (String × α)}
    (h : List.Forall₂ (fun e e' => e.1.asText? = some e'.1 ∧ f e.2 = some e'.2) entries es) (key : String) :
    es.lookup key = ((entries.find? (·.1.asText? = some key)).map (·.2)).bind f := by
  induction h with
  | nil => rfl
  | @cons e e' entries es he _ ih =>
    obtain ⟨hkey,hvalue⟩ := he
    rw [Dict.lookup_cons,List.find?_cons,hkey]
    by_cases heq : key = e'.1
    · simp [heq,hvalue]
    · simp [heq,Ne.symm heq,ih]

lemma forall₂_of_asDict? {f : Tree → Option α} {tag : Option String} {entries : List (Tree × Tree)} {d : Dict α}
    (h : (record tag entries).asDict? f = some d) : ∃ es, d = .ofList es ∧
      List.Forall₂ (fun e e' => e.1.asText? = some e'.1 ∧ f e.2 = some e'.2) entries es := by
  obtain ⟨es,hes,h⟩ := Option.bind_eq_some_iff.mp h
  cases h
  refine ⟨es,rfl,(Option.mapM_eq_some_iff.mp hes).imp fun e e' he => ?_⟩
  obtain ⟨name,hname,he⟩ := Option.bind_eq_some_iff.mp he
  obtain ⟨value,hvalue,he⟩ := Option.bind_eq_some_iff.mp he
  cases he
  exact ⟨hname,hvalue⟩

/-- A dictionary holds under a key what is read of the last entry under it. -/
theorem get?_of_asDict? {f : Tree → Option α} {t : Tree} {d : Dict α} (h : t.asDict? f = some d) (key : String) :
    d.get? key = (t.child? key).bind f := by
  cases t with
  | record tag entries =>
    obtain ⟨es,rfl,hall⟩ := forall₂_of_asDict? h
    rw [Dict.get?_ofList]
    exact lookup_of_forall₂ (List.rel_reverse hall) key
  | _ =>
    simp only [asDict?] at h
    split at h
    · cases h
      rfl
    · cases h

/-- Where a dictionary is read, each of its entries is. -/
lemma get?_eq_some_of_member? {f : Tree → Option α} {t : Tree} {d : Dict α} (h : t.asDict? f = some d) {key : String}
    {v : Tree} (hv : t.child? key = some v) : ∃ y, f v = some y ∧ d.get? key = some y := by
  have hget := get?_of_asDict? h key
  rw [hv,Option.bind_some] at hget
  cases t with
  | record tag entries =>
    obtain ⟨es,-,hall⟩ := forall₂_of_asDict? h
    obtain ⟨e,he,rfl⟩ := Option.map_eq_some_iff.mp hv
    have hread : ∀ e ∈ entries, ∃ y, f e.2 = some y :=
      ((List.forall₂_and_left entries es).mp (hall.imp fun e e' he => ⟨⟨e'.2,he.2⟩,he⟩)).1
    obtain ⟨y,hy⟩ := hread e (List.mem_reverse.mp (List.mem_of_find?_eq_some he))
    exact ⟨y,hy,hget.trans hy⟩
  | _ => cases hv

lemma child?_of_fields? {t : Tree} {o : Fields} (h : t.fields? = some o) (key : String) :
    t.child? key = o.reverse.lookup key := by
  cases t with
  | record tag entries =>
    have hall : List.Forall₂ (fun e e' => e.1.asText? = some e'.1 ∧ some e.2 = some e'.2) entries o := by
      refine (Option.mapM_eq_some_iff.mp h).imp fun e e' he => ?_
      obtain ⟨name,hname,he⟩ := Option.bind_eq_some_iff.mp he
      cases he
      exact ⟨hname,rfl⟩
    rw [lookup_of_forall₂ (List.rel_reverse hall) key]
    exact (Option.bind_fun_some _).symm
  | _ =>
    simp only [fields?] at h
    split at h
    · cases h
      rfl
    · cases h

lemma lookup_eq_head?_filter (es : Fields) (name : String) :
    es.lookup name = (es.filter (·.1 == name)).head?.map (·.2) := by
  induction es with
  | nil => rfl
  | cons e es ih =>
    rw [Dict.lookup_cons,ih,List.filter_cons]
    by_cases heq : e.1 = name
    · simp [heq]
    · simp [heq,Ne.symm heq]

lemma lookup_of_member? {o : Fields} {name : String} {x : Option Tree} (h : o.member? name = some x) :
    o.reverse.lookup name = x := by
  rw [lookup_eq_head?_filter,List.filter_reverse]
  simp only [Fields.member?] at h
  split at h
  · rename_i hnone
    cases h
    rw [hnone]
    rfl
  · rename_i e hone
    cases h
    rw [hone]
    rfl
  · cases h

/-- A member that may be given once stands where the last entry under its name does. -/
lemma child?_of_member? {t : Tree} {o : Fields} {name : String} {x : Option Tree} (h : t.fields? = some o)
    (hm : o.member? name = some x) : t.child? name = x := by
  rw [child?_of_fields? h,lookup_of_member? hm]

lemma eq_some_of_optional? {f : Tree → Option α} {t : Tree} {x : α} (h : t.optional? f = some (some x)) :
    f t = some x := by
  cases t with
  | null => cases h
  | written w =>
    simp only [optional?] at h
    split at h
    · simpa using h
    · split at h
      · split at h <;> cases h
      · split at h
        · cases h
        · simpa using h
  | _ => simpa [optional?] using h

/-- What is read of a member that may be absent is read of the entry under its name. -/
lemma exists_child?_of_optional? {f : Tree → Option α} {t : Tree} {o : Fields} {name : String} {x : α}
    (h : t.fields? = some o) (ho : o.optional? name f = some (some x)) :
    ∃ v, t.child? name = some v ∧ f v = some x := by
  obtain ⟨member,hm,ho⟩ := Option.bind_eq_some_iff.mp ho
  cases member with
  | none => cases ho
  | some v => exact ⟨v,child?_of_member? h hm,eq_some_of_optional? ho⟩

lemma exists_of_asList? {f : Tree → Option α} {t : Tree} {xs : List α} (h : t.asList? f = some xs) {x : α}
    (hx : x ∈ xs) : ∃ t, f t = some x := by
  cases t with
  | list tag items =>
    have hall := Option.mapM_eq_some_iff.mp h
    clear h
    induction hall with
    | nil => cases hx
    | cons ht _ ih =>
      rcases List.mem_cons.mp hx with rfl | hx
      · exact ⟨_,ht⟩
      · exact ih hx
  | _ =>
    simp only [asList?] at h
    split at h
    · cases h
      cases hx
    · cases h

/-- What a member that may be lacking reads as is read of it, unless it is the default. -/
lemma exists_of_defaulted? {f : Tree → Option α} {o : Fields} {name : String} {d x : α}
    (h : o.defaulted? name f d = some x) : x = d ∨ ∃ t, f t = some x := by
  obtain ⟨member,-,h⟩ := Option.bind_eq_some_iff.mp h
  cases member with
  | none =>
    cases h
    exact .inl rfl
  | some t => exact .inr ⟨t,h⟩

end ActionCatalog.Tree
