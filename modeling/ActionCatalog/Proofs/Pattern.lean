import ActionCatalog.Text.Piece
import Mathlib.Data.List.Forall2
import Mathlib.Data.List.TakeWhile

/-! Patterns of characters, and the search for them in a text. Each piece of a pattern first takes as much as it can,
and takes less if what follows does not fit then; occurrences are found from left to right and do not overlap. -/
namespace ActionCatalog.Pattern

/-- How many characters a piece takes: one, at most one, or at least one. -/
inductive Amount where
  | once
  | optional
  | repeated
  deriving DecidableEq, Repr

def Amount.Allows : Amount → Nat → Prop
  | once, n => n = 1
  | optional, n => n ≤ 1
  | repeated, n => 0 < n

structure Piece where
  amount : Amount
  takes : Char → Bool

/-- What a piece may take: as many characters as it is allowed to, and only those that it takes. -/
def Piece.Takes (p : Piece) (taken : List Char) : Prop := p.amount.Allows taken.length ∧ ∀ c ∈ taken, p.takes c

/-- The characters at the start of a text that a piece may take. -/
def Piece.run (p : Piece) (text : List Char) : List Char := text.takeWhile p.takes

/-- How many characters a piece can take off a text, in the order in which this is tried. -/
def Piece.lengths (p : Piece) (text : List Char) : List Nat :=
  match p.amount,(p.run text).length with
  | .once,0 => []
  | .once,_+1 => [1]
  | .optional,0 => [0]
  | .optional,_+1 => [1,0]
  | .repeated,n => (List.range n).reverse.map (· + 1)

/-- What each piece takes off the start of a text, in the first way that fits. -/
def fit? : List Piece → List Char → Option (List (List Char))
  | [], _ => some []
  | p :: ps, text => (p.lengths text).findSome? fun n => (fit? ps (text.drop n)).map (text.take n :: ·)

/-- The occurrences of a pattern that always takes something, with the byte that each starts at; the first number is
the byte that the text starts at, the second tells how many characters are still to be passed over. -/
def search (ps : List Piece) : Nat → Nat → List Char → List (Nat × List (List Char))
  | _, _, [] => []
  | start, k+1, c :: rest => search ps (start + c.utf8Size) k rest
  | start, 0, c :: rest =>
    match fit? ps (c :: rest) with
    | some taken => (start,taken) :: search ps (start + c.utf8Size) (taken.flatten.length - 1) rest
    | none => search ps (start + c.utf8Size) 0 rest

variable {ps : List Piece} {q : Char → Bool} {c : Char} {text rest : List Char}

lemma takes_once_iff {taken : List Char} : Piece.Takes ⟨.once,q⟩ taken ↔ ∃ c, taken = [c] ∧ q c := by
  constructor
  · rintro ⟨hlength,hall⟩
    obtain ⟨c,rfl⟩ := List.length_eq_one_iff.mp hlength
    exact ⟨c,rfl,hall c List.mem_cons_self⟩
  · rintro ⟨c,rfl,hc⟩
    exact ⟨rfl,List.forall_mem_singleton.mpr hc⟩

lemma takes_optional_iff {taken : List Char} :
    Piece.Takes ⟨.optional,q⟩ taken ↔ taken = [] ∨ ∃ c, taken = [c] ∧ q c := by
  rw [← takes_once_iff]
  cases taken <;> simp [Piece.Takes,Amount.Allows]

lemma takes_repeated_iff {taken : List Char} :
    Piece.Takes ⟨.repeated,q⟩ taken ↔ taken ≠ [] ∧ ∀ c ∈ taken, q c := by
  rw [← List.length_pos_iff]
  rfl

lemma mem_lengths_iff {p : Piece} {n : Nat} :
    n ∈ p.lengths text ↔ n ≤ (p.run text).length ∧ p.amount.Allows n := by
  obtain ⟨amount,q⟩ := p
  unfold Piece.lengths
  generalize (Piece.run ⟨amount,q⟩ text).length = most
  cases amount with
  | once =>
    cases most with
    | zero => simp [Amount.Allows]; omega
    | succ most => simp only [Amount.Allows,List.mem_singleton]; omega
  | optional =>
    cases most with
    | zero => simp only [Amount.Allows,List.mem_singleton]; omega
    | succ most => simp only [Amount.Allows,List.mem_cons,List.not_mem_nil,or_false]; omega
  | repeated =>
    cases n with
    | zero => simp [Amount.Allows]
    | succ n => simp only [Amount.Allows,List.mem_map,List.mem_reverse,List.mem_range]; grind

lemma of_mem_lengths {p : Piece} {n : Nat} (h : n ∈ p.lengths text) : p.Takes (text.take n) := by
  obtain ⟨hle,hallows⟩ := mem_lengths_iff.mp h
  have hprefix : p.run text <+: text := List.takeWhile_prefix p.takes
  have htake : text.take n = (p.run text).take n := by
    rw [congrArg (List.take n) (List.prefix_iff_eq_take.mp hprefix),List.take_take,Nat.min_eq_left hle]
  constructor
  · rw [List.length_take,Nat.min_eq_left (hle.trans hprefix.length_le)]
    exact hallows
  · intro c hc
    rw [htake] at hc
    exact List.mem_takeWhile_imp (List.mem_of_mem_take hc)

/-- What is taken is allowed piece by piece, and is what the text starts with. -/
lemma of_fit? {taken : List (List Char)} (h : fit? ps text = some taken) :
    List.Forall₂ Piece.Takes ps taken ∧ taken.flatten <+: text := by
  induction ps generalizing text taken with
  | nil =>
    cases h
    exact ⟨.nil,List.nil_prefix⟩
  | cons p ps ih =>
    obtain ⟨n,hn,h⟩ := List.exists_of_findSome?_eq_some h
    obtain ⟨others,hothers,rfl⟩ := Option.map_eq_some_iff.mp h
    obtain ⟨htakes,rest,hrest⟩ := ih hothers
    refine ⟨.cons (of_mem_lengths hn) htakes,rest,?_⟩
    rw [List.flatten_cons,List.append_assoc,hrest,List.take_append_drop]

lemma lengths_repeated : Piece.lengths ⟨.repeated,q⟩ text =
    (List.range (text.takeWhile q).length).reverse.map (· + 1) := rfl

@[simp] lemma fit?_end (text : List Char) : fit? [] text = some [] := rfl

lemma fit?_once : fit? (⟨.once,q⟩ :: ps) (c :: rest) = if q c then (fit? ps rest).map ([c] :: ·) else none := by
  by_cases h : q c <;> simp [fit?,Piece.lengths,Piece.run,h]

lemma fit?_optional : fit? (⟨.optional,q⟩ :: ps) (c :: rest) =
    if q c then ((fit? ps rest).map ([c] :: ·)).or ((fit? ps (c :: rest)).map ([] :: ·))
    else (fit? ps (c :: rest)).map ([] :: ·) := by
  by_cases h : q c
  · cases hrest : fit? ps rest <;> simp [fit?,Piece.lengths,Piece.run,h,hrest]
  · simp [fit?,Piece.lengths,Piece.run,h]

/-- Inside of what a piece may take stands a character that it takes. -/
lemma exists_drop_eq {m : Nat} (h : m < (text.takeWhile q).length) : ∃ c rest, text.drop m = c :: rest ∧ q c := by
  have hprefix := List.takeWhile_prefix q (l := text)
  have hm : m < text.length := h.trans_le hprefix.length_le
  refine ⟨text[m],text.drop (m+1),List.drop_eq_getElem_cons hm,?_⟩
  rw [← hprefix.getElem h]
  exact List.mem_takeWhile_imp (List.getElem_mem h)

/-- If what follows a repeated piece never starts with a character that the piece takes, nothing is gained by taking
less than all. -/
lemma fit?_repeated (hstop : ∀ c rest, q c → fit? ps (c :: rest) = none) : fit? (⟨.repeated,q⟩ :: ps) text =
    if text.takeWhile q = [] then none else (fit? ps (text.dropWhile q)).map (text.takeWhile q :: ·) := by
  have hprefix := List.takeWhile_prefix q (l := text)
  rw [fit?,lengths_repeated]
  cases hn : (text.takeWhile q).length with
  | zero => simp [List.eq_nil_of_length_eq_zero hn]
  | succ n =>
    have hne : text.takeWhile q ≠ [] := by
      intro hnil
      simp [hnil] at hn
    have hless : (List.map (· + 1) (List.range n).reverse).findSome?
        (fun m => (fit? ps (text.drop m)).map (text.take m :: ·)) = none := by
      rw [List.findSome?_eq_none_iff]
      intro m hm
      obtain ⟨k,hk,rfl⟩ := List.mem_map.mp hm
      have hinside : k + 1 < (text.takeWhile q).length := by
        rw [List.mem_reverse,List.mem_range] at hk
        omega
      obtain ⟨c,rest,hdrop,hc⟩ := exists_drop_eq hinside
      rw [hdrop,hstop c rest hc]
      rfl
    have htake : text.take (n+1) = text.takeWhile q := by
      rw [← hn]
      exact (List.prefix_iff_eq_take.mp hprefix).symm
    have hdrop : text.drop (n+1) = text.dropWhile q := by
      calc text.drop (n+1)
        _ = (text.takeWhile q ++ text.dropWhile q).drop (text.takeWhile q).length := by
            rw [hn,List.takeWhile_append_dropWhile]
        _ = text.dropWhile q := List.drop_left
    rw [if_neg hne,List.range_succ,List.reverse_append,List.map_append,List.findSome?_append,hless,Option.or_none]
    simp [htake,hdrop]

/-- Passing over characters only moves the start. -/
lemma search_skip (ps : List Piece) (start k : Nat) (text : List Char) :
    search ps start k text = search ps (start + Text.width (text.take k)) 0 (text.drop k) := by
  induction text generalizing start k with
  | nil => simp [search]
  | cons c rest ih =>
    cases k with
    | zero => simp [Text.width]
    | succ k => simp [search,Text.width,ih,Nat.add_assoc]

/-- An occurrence at the start of a text, and those behind it. -/
lemma search_of_fit {taken : List (List Char)} (h : fit? ps (c :: text ++ rest) = some taken)
    (htaken : taken.flatten = c :: text) (start : Nat) :
    search ps start 0 (c :: text ++ rest) = (start,taken) :: search ps (start + Text.width (c :: text)) 0 rest := by
  rw [List.cons_append] at h ⊢
  rw [search,h]
  simp [search_skip ps _ text.length,htaken,Text.width,Nat.add_assoc]

end ActionCatalog.Pattern
