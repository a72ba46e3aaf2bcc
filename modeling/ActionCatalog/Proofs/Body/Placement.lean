import ActionCatalog.Dict.Lookup
import ActionCatalog.Proofs.Body.Segments
import ActionCatalog.Proofs.Body.Form

/-! Leaves put into a body one after another. Main statement: in the end a leaf stands at its path exactly
if no other path goes on from there, in whatever order they were put in. -/
namespace ActionCatalog

namespace Value

/-- What stands at a path of keys inside a value. -/
def at? : Value → List String → Option Value
  | v, [] => some v
  | object members, key :: rest => (members.lookup key).bind fun v => v.at? rest
  | _, _ :: _ => none

@[simp] theorem at?_nil (v : Value) : v.at? [] = some v := by cases v <;> rfl

@[simp] theorem at?_object_cons (members : List (String × Value)) (key : String) (rest : List String) :
    (object members).at? (key :: rest) = (members.lookup key).bind fun v => v.at? rest := rfl

/-- A value that is no object. -/
def leaf? : Value → Option Value
  | object _ => none
  | v => some v

@[simp] theorem leaf?_object (members : List (String × Value)) : (object members).leaf? = none := rfl

lemma at?_cons_of_leaf {v : Value} (h : v.leaf? = some v) (key : String) (rest : List String) :
    v.at? (key :: rest) = none := by
  cases v with
  | object members => cases h
  | _ => rfl

lemma leaf?_eq_none_iff {v : Value} : v.leaf? = none ↔ ∃ members, v = object members := by
  cases v <;> simp [leaf?]

lemma leaf?_eq_some_iff {v w : Value} : v.leaf? = some w ↔ v = w ∧ w.leaf? = some w := by
  cases v <;> cases w <;> simp [leaf?]

end Value

namespace Body

@[simp] theorem Form.leaf?_write (f : Form) (name : String) : (f.write name).leaf? = some (f.write name) := by
  cases f <;> rfl

/-- What stands at a path of a body: nothing, an object, or a leaf. -/
def standing (members : List (String × Value)) (path : List String) : Option (Option Value) :=
  ((Value.object members).at? path).map Value.leaf?

@[simp] theorem standing_nil (members : List (String × Value)) : standing members [] = some none := by
  simp [standing]

lemma standing_eq_leaf_iff {members : List (String × Value)} {path : List String} {v : Value} :
    standing members path = some (some v) ↔
      (Value.object members).at? path = some v ∧ v.leaf? = some v := by
  simp only [standing,Option.map_eq_some_iff]
  constructor
  · rintro ⟨w,hw,h⟩
    obtain ⟨rfl,hv⟩ := Value.leaf?_eq_some_iff.mp h
    exact ⟨hw,hv⟩
  · rintro ⟨h,hv⟩
    exact ⟨v,h,hv⟩

section Putting
variable {leaf : Value} {key k : String} {members : List (String × Value)} {rest q : List String}

/-- Below a key stands what its object holds, and nothing if it has none. -/
lemma standing_cons_of_ne_nil (h : q ≠ []) :
    standing members (key :: q) = standing (membersOf (members.lookup key)) q := by
  cases q with
  | nil => exact absurd rfl h
  | cons next q =>
    cases hl : members.lookup key with
    | none => simp [standing,hl,membersOf]
    | some v =>
      cases v with
      | object inner => simp [standing,hl,membersOf]
      | _ => simp [standing,hl,membersOf,Value.at?]

lemma put_cons (h : rest ≠ []) : put leaf (key :: rest) members =
    Dict.put key (.object (put leaf rest (membersOf (members.lookup key)))) members := by
  cases rest with
  | nil => exact absurd rfl h
  | cons next rest => rfl

open Classical in
/-- An object keeps its place, and anything else makes way for a leaf. -/
lemma put_singleton : put leaf [key] members =
    if standing members [key] = some none then members else Dict.put key leaf members := by
  simp only [put]
  cases hl : members.lookup key with
  | none => simp [standing,hl]
  | some v => cases v <;> simp [standing,hl,Value.leaf?]

lemma lookup_put_of_ne (h : k ≠ key) : (put leaf (key :: rest) members).lookup k = members.lookup k := by
  by_cases hrest : rest = []
  · subst hrest
    rw [put_singleton]
    split
    · rfl
    · rw [Dict.lookup_put,if_neg h]
  · rw [put_cons hrest,Dict.lookup_put,if_neg h]

open Classical in
/-- After a leaf was put at a path, it stands there unless an object does; on the way to it stand objects,
and nothing else changed. -/
theorem standing_put (hleaf : leaf.leaf? = some leaf) {path : List String} (hp : path ≠ []) :
    standing (put leaf path members) q =
      if q = path then if standing members path = some none then some none else some (some leaf)
      else if q <+: path then some none else standing members q := by
  induction path generalizing members q with
  | nil => exact absurd rfl hp
  | cons key rest ih =>
    cases q with
    | nil => simp
    | cons k q =>
      by_cases hk : k = key
      · subst hk
        by_cases hrest : rest = []
        · subst hrest
          rw [put_singleton]
          by_cases hobj : standing members [k] = some none
          · cases q <;> simp [hobj]
          · cases q with
            | nil =>
              rw [if_neg hobj,if_pos rfl,if_neg hobj]
              simp [standing,Dict.lookup_put,hleaf]
            | cons next q =>
              have hnone : standing members (k :: next :: q) = none := by
                cases hl : members.lookup k with
                | none => simp [standing,hl]
                | some v =>
                  cases v with
                  | object inner => simp [standing,hl] at hobj
                  | _ => simp [standing,hl,Value.at?]
              rw [if_neg hobj,hnone]
              simp [standing,Dict.lookup_put,Value.at?_cons_of_leaf hleaf]
        · by_cases hq : q = []
          · subst hq
            rw [put_cons hrest]
            simp [standing,Dict.lookup_put,Ne.symm hrest]
          · have hdown : standing (put leaf (k :: rest) members) (k :: q) =
                standing (put leaf rest (membersOf (members.lookup k))) q := by
              rw [standing_cons_of_ne_nil hq,put_cons hrest,Dict.lookup_put,if_pos rfl]
              rfl
            rw [hdown,ih hrest,standing_cons_of_ne_nil hrest,standing_cons_of_ne_nil hq]
            by_cases hqr : q = rest <;> simp [hqr,List.cons_prefix_cons]
      · have hkeep : standing (put leaf (key :: rest) members) (k :: q) = standing members (k :: q) := by
          simp only [standing,Value.at?_object_cons,lookup_put_of_ne hk]
        rw [hkeep]
        simp [List.cons_prefix_cons,hk]

end Putting

/-- A body in which some leaves were put at their paths: a leaf stands at its path if no other path goes on
from there, objects stand on the way to the paths, and nothing stands elsewhere. -/
structure Shows (members : List (String × Value)) (placed : List (List String × Value)) : Prop where
  leaf : ∀ q v, standing members q = some (some v) ↔
    (q,v) ∈ placed ∧ ∀ x ∈ placed, q <+: x.1 → q = x.1
  object : ∀ q, standing members q = some none ↔ q = [] ∨ ∃ x ∈ placed, q <+: x.1 ∧ q ≠ x.1

lemma shows_nil : Shows [] [] where
  leaf := by
    intro q v
    cases q <;> simp [standing]
  object := by
    intro q
    cases q <;> simp [standing]

/-- Putting one more leaf at a path, which is its own or one at which the same leaf was put before. -/
theorem Shows.put {members : List (String × Value)} {placed : List (List String × Value)} {leaf : Value}
    {path : List String} (h : Shows members placed) (hleaf : leaf.leaf? = some leaf) (hp : path ≠ [])
    (hsame : ∀ x ∈ placed, x.1 = path → x.2 = leaf) :
    Shows (put leaf path members) (placed ++ [(path,leaf)]) where
  leaf := by
    intro q v
    rw [standing_put hleaf hp]
    by_cases hq : q = path
    · subst hq
      rw [if_pos rfl]
      split
      · rename_i hobj
        obtain ⟨x,hx,hpre,hne⟩ := ((h.object q).mp hobj).resolve_left hp
        simp only [Option.some.injEq,reduceCtorEq,false_iff]
        rintro ⟨-,hmax⟩
        exact hne (hmax x (List.mem_append_left _ hx) hpre)
      · rename_i hobj
        have hmax : ∀ x ∈ placed, q <+: x.1 → q = x.1 := by
          intro x hx hpre
          by_contra hne
          exact hobj ((h.object q).mpr (.inr ⟨x,hx,hpre,hne⟩))
        simp only [List.mem_append,List.mem_singleton,Option.some.injEq,Prod.mk.injEq,true_and]
        constructor
        · rintro rfl
          refine ⟨.inr rfl,?_⟩
          rintro x (hx | rfl) hpre
          · exact hmax x hx hpre
          · rfl
        · rintro ⟨hin | rfl,-⟩
          · exact (hsame _ hin rfl).symm
          · rfl
    · rw [if_neg hq]
      by_cases hpre : q <+: path
      · rw [if_pos hpre]
        simp only [Option.some.injEq,reduceCtorEq,false_iff]
        rintro ⟨-,hmax⟩
        exact hq (hmax (path,leaf) (by simp) hpre)
      · rw [if_neg hpre,h.leaf]
        simp [hq,hpre,or_imp,forall_and]
  object := by
    intro q
    rw [standing_put hleaf hp]
    by_cases hq : q = path
    · subst hq
      rw [if_pos rfl]
      split
      · rename_i hobj
        obtain ⟨x,hx,hpre,hne⟩ := ((h.object q).mp hobj).resolve_left hp
        simp only [true_iff]
        exact .inr ⟨x,by simp [hx],hpre,hne⟩
      · rename_i hobj
        have hnone := mt (h.object q).mpr hobj
        simp only [Option.some.injEq,reduceCtorEq,false_iff]
        rintro (rfl | ⟨x,hx,hpre,hne⟩)
        · exact hp rfl
        · rcases List.mem_append.mp hx with hx | hx
          · exact hnone (.inr ⟨x,hx,hpre,hne⟩)
          · obtain rfl := List.mem_singleton.mp hx
            exact hne rfl
    · rw [if_neg hq]
      by_cases hpre : q <+: path
      · rw [if_pos hpre]
        simp only [true_iff]
        exact .inr ⟨(path,leaf),by simp,hpre,hq⟩
      · rw [if_neg hpre,h.object]
        simp [hpre,or_and_right,exists_or]

end Body
end ActionCatalog
