import Mathlib.Data.List.Forall2
import Mathlib.Tactic.Common

/-! Computations that may fail: when a sequence of them comes to a result, and what it fails with otherwise. -/
namespace Except
variable {ε α β γ δ : Type}

theorem toOption_eq_some_iff {x : Except ε α} {a : α} : x.toOption = some a ↔ x = .ok a := by
  cases x <;> simp [Except.toOption]

theorem bind_eq_ok_iff {x : Except ε α} {f : α → Except ε β} {b : β} :
    (x >>= f) = .ok b ↔ ∃ a, x = .ok a ∧ f a = .ok b := by
  cases x with
  | error e => simp [bind,Except.bind]
  | ok a => simp [bind,Except.bind]

@[simp] theorem pure_eq_ok (a : α) : (pure a : Except ε α) = .ok a := rfl

theorem map_eq_ok_iff {x : Except ε α} {f : α → β} {b : β} :
    (f <$> x) = .ok b ↔ ∃ a, x = .ok a ∧ f a = b := by
  cases x with
  | error e => simp [Functor.map,Except.map]
  | ok a => simp [Functor.map,Except.map]

/-- If what comes next respects a translation of results, so does the whole. -/
theorem bind_map_eq {x : Except ε α} {h : α → γ} {k : β → δ} {f : α → Except ε β} {g : γ → Except ε δ}
    (hg : ∀ a, g (h a) = k <$> f a) : (h <$> x >>= g) = k <$> (x >>= f) := by
  cases x with
  | error e => rfl
  | ok a => exact hg a

/-- A list is worked through if each member is, and the results stand in the same order. -/
theorem mapM_eq_ok_iff {f : α → Except ε β} {xs : List α} {ys : List β} :
    xs.mapM f = .ok ys ↔ List.Forall₂ (fun x y => f x = .ok y) xs ys := by
  induction xs generalizing ys with
  | nil =>
    rw [List.mapM_nil,pure_eq_ok,List.forall₂_nil_left_iff,Except.ok.injEq,eq_comm]
  | cons x xs ih =>
    rw [List.mapM_cons,bind_eq_ok_iff,List.forall₂_cons_left_iff]
    constructor
    · rintro ⟨y,hy,h⟩
      obtain ⟨rest,hr,h⟩ := bind_eq_ok_iff.mp h
      cases h
      exact ⟨y,rest,hy,ih.mp hr,rfl⟩
    · rintro ⟨y,rest,hy,hr,rfl⟩
      exact ⟨y,hy,bind_eq_ok_iff.mpr ⟨rest,ih.mpr hr,rfl⟩⟩

/-- What is among the results comes from a member of the list, and every member has its result. -/
theorem mem_of_mapM_eq_ok {f : α → Except ε β} {xs : List α} {ys : List β} (h : xs.mapM f = .ok ys) (y : β) :
    y ∈ ys ↔ ∃ x ∈ xs, f x = .ok y := by
  have hall := mapM_eq_ok_iff.mp h
  clear h
  induction hall with
  | nil => simp
  | @cons x z xs zs hxz _ ih =>
    constructor
    · intro hy
      rcases List.mem_cons.mp hy with rfl | hy
      · exact ⟨x,List.mem_cons_self,hxz⟩
      · obtain ⟨w,hw,hwy⟩ := ih.mp hy
        exact ⟨w,List.mem_cons_of_mem _ hw,hwy⟩
    · rintro ⟨w,hw,hwy⟩
      rcases List.mem_cons.mp hw with rfl | hw
      · rw [hxz] at hwy
        cases hwy
        exact List.mem_cons_self
      · exact List.mem_cons_of_mem _ (ih.mpr ⟨w,hw,hwy⟩)

theorem exists_of_mapM_eq_ok {f : α → Except ε β} {xs : List α} {ys : List β} (h : xs.mapM f = .ok ys) :
    ∀ x ∈ xs, ∃ y ∈ ys, f x = .ok y := by
  have hall := mapM_eq_ok_iff.mp h
  clear h
  induction hall with
  | nil => simp
  | @cons x y xs ys hxy _ ih =>
    refine List.forall_mem_cons.mpr ⟨⟨y,List.mem_cons_self,hxy⟩,fun w hw => ?_⟩
    obtain ⟨z,hz,hwz⟩ := ih w hw
    exact ⟨z,List.mem_cons_of_mem _ hz,hwz⟩

theorem exists_mapM_eq_ok {f : α → Except ε β} {xs : List α} (h : ∀ x ∈ xs, ∃ y, f x = .ok y) :
    ∃ ys, xs.mapM f = .ok ys := by
  induction xs with
  | nil => exact ⟨[],rfl⟩
  | cons x xs ih =>
    obtain ⟨y,hy⟩ := h x List.mem_cons_self
    obtain ⟨ys,hys⟩ := ih fun x hx => h x (List.mem_cons_of_mem _ hx)
    exact ⟨y :: ys,mapM_eq_ok_iff.mpr (.cons hy (mapM_eq_ok_iff.mp hys))⟩

theorem map_eq_error_iff {x : Except ε α} {f : α → β} {e : ε} : (f <$> x) = .error e ↔ x = .error e := by
  cases x with
  | error e' => simp [Functor.map,Except.map]
  | ok a => simp [Functor.map,Except.map]

theorem mapM_cons_ok {f : α → Except ε β} {x : α} {y : β} (h : f x = .ok y) (xs : List α) :
    (x :: xs).mapM f = (y :: ·) <$> xs.mapM f := by
  rw [List.mapM_cons,h]
  rfl

theorem mapM_cons_error {f : α → Except ε β} {x : α} {e : ε} (h : f x = .error e) (xs : List α) :
    (x :: xs).mapM f = .error e := by
  rw [List.mapM_cons,h]
  rfl

/-- If each step respects a translation of results, so does the whole. -/
theorem mapM_map_eq {k : β → γ} {f : α → Except ε β} {g : α → Except ε γ} (hg : ∀ x, g x = k <$> f x)
    (xs : List α) : xs.mapM g = List.map k <$> xs.mapM f := by
  induction xs with
  | nil => rfl
  | cons x xs ih =>
    rw [List.mapM_cons,List.mapM_cons,hg,ih]
    refine bind_map_eq fun y => ?_
    exact bind_map_eq fun ys => rfl

/-- A list that cannot be worked through is blamed on the first of its members that cannot be. -/
theorem mapM_eq_error_iff {f : α → Except ε β} {xs : List α} {e : ε} : xs.mapM f = .error e ↔
    ∃ before x after, xs = before ++ x :: after ∧ (∀ w ∈ before, ∃ y, f w = .ok y) ∧ f x = .error e := by
  induction xs with
  | nil => simp
  | cons x xs ih =>
    cases hx : f x with
    | error e' =>
      rw [mapM_cons_error hx]
      constructor
      · rintro ⟨⟩
        exact ⟨[],x,xs,rfl,by simp,hx⟩
      · rintro ⟨before,w,after,hxs,hbefore,hw⟩
        cases before with
        | nil =>
          cases hxs
          cases hx.symm.trans hw
          rfl
        | cons w' before =>
          cases hxs
          obtain ⟨y,hy⟩ := hbefore x List.mem_cons_self
          rw [hx] at hy
          cases hy
    | ok y =>
      rw [mapM_cons_ok hx,map_eq_error_iff,ih]
      constructor
      · rintro ⟨before,w,after,rfl,hbefore,hw⟩
        exact ⟨x :: before,w,after,rfl,List.forall_mem_cons.mpr ⟨⟨y,hx⟩,hbefore⟩,hw⟩
      · rintro ⟨before,w,after,hxs,hbefore,hw⟩
        cases before with
        | nil =>
          cases hxs
          rw [hx] at hw
          cases hw
        | cons w' before =>
          cases hxs
          exact ⟨before,w,after,rfl,fun v hv => hbefore v (List.mem_cons_of_mem _ hv),hw⟩

/-- Parts that are worked through one by one, with results that are put together, come to what the whole does. -/
theorem flatten_mapM_eq (part : γ → List α) (f : α → Except ε β) (g : List β → List δ)
    (whole : γ → Except ε (List δ)) (hnil : g [] = []) (happend : ∀ ys zs, g (ys ++ zs) = g ys ++ g zs)
    (hpart : ∀ z, whole z = g <$> (part z).mapM f) (zs : List γ) :
    List.flatten <$> zs.mapM whole = g <$> (zs.flatMap part).mapM f := by
  induction zs with
  | nil => simp [hnil]
  | cons z zs ih =>
    rw [List.flatMap_cons,List.mapM_append]
    cases hz : (part z).mapM f with
    | error e =>
      have hwhole : whole z = .error e := by rw [hpart,hz]; rfl
      rw [mapM_cons_error hwhole]
      rfl
    | ok ys =>
      have hwhole : whole z = .ok (g ys) := by rw [hpart,hz]; rfl
      rw [mapM_cons_ok hwhole]
      cases hzs : (zs.flatMap part).mapM f with
      | error e =>
        rw [hzs] at ih
        have hrest : zs.mapM whole = .error e := map_eq_error_iff.mp ih
        rw [hrest]
        rfl
      | ok ws =>
        rw [hzs] at ih
        obtain ⟨rest,hrest,hflat⟩ := map_eq_ok_iff.mp ih
        rw [hrest]
        show Except.ok (g ys ++ rest.flatten) = Except.ok (g (ys ++ ws))
        rw [hflat,happend]

/-- Errors are at most of a kind. -/
def FailsOnly (p : ε → Prop) (x : Except ε α) : Prop := ∀ e, x = .error e → p e

section FailsOnly
variable {p : ε → Prop} {x : Except ε α}

lemma FailsOnly.ok (a : α) : FailsOnly p (.ok a) := by
  intro e h
  cases h

lemma FailsOnly.error {e : ε} (h : p e) : FailsOnly p (.error e : Except ε α) := by
  rintro _ ⟨⟩
  exact h

lemma FailsOnly.bind (hx : FailsOnly p x) {f : α → Except ε β} (hf : ∀ a, FailsOnly p (f a)) :
    FailsOnly p (x >>= f) := by
  cases x with
  | error e => exact .error (hx e rfl)
  | ok a => exact hf a

lemma FailsOnly.map (hx : FailsOnly p x) (f : α → β) : FailsOnly p (f <$> x) := fun e h =>
  hx e (map_eq_error_iff.mp h)

lemma FailsOnly.mapM {f : α → Except ε β} {xs : List α} (h : ∀ x ∈ xs, FailsOnly p (f x)) :
    FailsOnly p (xs.mapM f) := by
  intro e he
  obtain ⟨before,x,after,rfl,-,hx⟩ := mapM_eq_error_iff.mp he
  exact h x (by simp) e hx

end FailsOnly

end Except
