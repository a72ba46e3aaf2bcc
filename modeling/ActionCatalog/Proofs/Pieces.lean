import ActionCatalog.Text.Piece
import Mathlib.Data.List.Chain

/-! Texts cut into pieces and put together from words. Main statement: the words of a text in which words are joined
by single spaces are these words. -/
namespace ActionCatalog.Text

section Pieces
variable {p : Char → Bool} {c : Char} {text piece : List Char}

lemma splitWhere_append_cons (hc : p c) (a b : List Char) :
    splitWhere p (a ++ c :: b) = splitWhere p a ++ splitWhere p b := by
  induction a with
  | nil => simp [splitWhere,hc]
  | cons x a ih =>
    rw [List.cons_append,splitWhere,splitWhere,ih]
    split
    · rfl
    · cases ha : splitWhere p a with
      | nil => exact absurd ha (splitWhere_ne_nil p a)
      | cons piece pieces => rfl

lemma not_marked_of_mem_splitWhere (h : piece ∈ splitWhere p text) : ∀ c ∈ piece, ¬p c := by
  induction text generalizing piece with
  | nil => simp_all [splitWhere]
  | cons x text ih =>
    rw [splitWhere] at h
    split at h
    · rcases List.mem_cons.mp h with rfl | h
      · simp
      · exact ih h
    · rename_i hx
      cases hpieces : splitWhere p text with
      | nil => exact absurd hpieces (splitWhere_ne_nil p text)
      | cons first pieces =>
        rw [hpieces] at h ih
        rcases List.mem_cons.mp h with rfl | h
        · exact List.forall_mem_cons.mpr ⟨hx,ih List.mem_cons_self⟩
        · exact ih (List.mem_cons_of_mem _ h)

lemma splitWhere_eq_singleton (h : ∀ c ∈ text, ¬p c) : splitWhere p text = [text] := by
  induction text with
  | nil => rfl
  | cons x text ih =>
    obtain ⟨hx,htext⟩ := List.forall_mem_cons.mp h
    rw [splitWhere,if_neg hx,ih htext,extendHead]

lemma flatten_splitWhere (p : Char → Bool) (text : List Char) : (splitWhere p text).flatten = text.filter (!p ·) := by
  induction text with
  | nil => rfl
  | cons c text ih =>
    by_cases hc : p c
    · simp [splitWhere,hc,ih]
    · cases hpieces : splitWhere p text with
      | nil => exact absurd hpieces (splitWhere_ne_nil p text)
      | cons first pieces =>
        rw [hpieces] at ih
        simpa [splitWhere,hc,hpieces,extendHead] using ih

lemma head?_splitWhere (p : Char → Bool) (text : List Char) :
    (splitWhere p text).head? = some (text.takeWhile (!p ·)) := by
  induction text with
  | nil => rfl
  | cons c text ih =>
    by_cases hc : p c
    · simp [splitWhere,hc]
    · cases hpieces : splitWhere p text with
      | nil => exact absurd hpieces (splitWhere_ne_nil p text)
      | cons first pieces =>
        rw [hpieces] at ih
        simpa [splitWhere,hc,hpieces,extendHead] using ih

lemma isInfix_of_mem_splitWhere (h : piece ∈ splitWhere p text) : piece <:+: text := by
  induction text generalizing piece with
  | nil => simp_all [splitWhere]
  | cons c text ih =>
    by_cases hc : p c
    · rw [splitWhere,if_pos hc] at h
      rcases List.mem_cons.mp h with rfl | h
      · exact List.nil_infix
      · exact List.infix_cons (ih h)
    · have hhead := head?_splitWhere p text
      cases hpieces : splitWhere p text with
      | nil => exact absurd hpieces (splitWhere_ne_nil p text)
      | cons first pieces =>
        rw [hpieces,List.head?_cons,Option.some.injEq] at hhead
        rw [splitWhere,if_neg hc,hpieces,extendHead] at h
        rcases List.mem_cons.mp h with rfl | h
        · rw [hhead]
          exact (List.prefix_cons_inj c).mpr (List.takeWhile_prefix _) |>.isInfix
        · exact List.infix_cons (ih (hpieces ▸ .tail _ h))

end Pieces

/-- Something without a blank in it. -/
structure IsWord (word : List Char) : Prop where
  filled : word ≠ []
  solid : ∀ c ∈ word, isBlank c = false

section Words
variable {text word : List Char} {ws : List (List Char)}

lemma isWord_of_mem_words (h : word ∈ words text) : IsWord word := by
  obtain ⟨hmem,hne⟩ := List.mem_filter.mp h
  exact ⟨by simpa using hne,by simpa using not_marked_of_mem_splitWhere hmem⟩

lemma isInfix_of_mem_words (h : word ∈ words text) : word <:+: text :=
  isInfix_of_mem_splitWhere (List.mem_filter.mp h).1

/-- Words lose nothing but blanks. -/
lemma flatten_words (text : List Char) : (words text).flatten = text.filter (!isBlank ·) := by
  rw [words,List.flatten_filter_not_isEmpty,flatten_splitWhere]

lemma words_append_space (a b : List Char) : words (a ++ ' ' :: b) = words a ++ words b := by
  rw [words,splitWhere_append_cons (by decide),List.filter_append,words,words]

lemma IsWord.words_eq (h : IsWord word) : words word = [word] := by
  rw [words,splitWhere_eq_singleton (by simpa using h.solid)]
  simp [h.filled]

/-- Words that are joined by single spaces are found again. -/
theorem words_intercalate (h : ∀ w ∈ ws, IsWord w) : words ([' '].intercalate ws) = ws := by
  induction ws with
  | nil => rfl
  | cons w ws ih =>
    rw [List.forall_mem_cons] at h
    cases ws with
    | nil => rw [List.intercalate_singleton,h.1.words_eq]
    | cons v ws =>
      rw [List.intercalate_cons_cons,List.append_assoc,List.singleton_append,words_append_space,h.1.words_eq,ih h.2]
      rfl

lemma filter_intercalate (h : ∀ w ∈ ws, IsWord w) : ([' '].intercalate ws).filter (!isBlank ·) = ws.flatten := by
  rw [← flatten_words,words_intercalate h]

/-- The characters of joined words are theirs, and spaces. -/
lemma mem_intercalate {c : Char} (h : c ∈ [' '].intercalate ws) : c = ' ' ∨ ∃ w ∈ ws, c ∈ w := by
  induction ws with
  | nil => cases h
  | cons w ws ih =>
    cases ws with
    | nil =>
      rw [List.intercalate_singleton] at h
      exact .inr ⟨w,List.mem_cons_self,h⟩
    | cons v ws =>
      rw [List.intercalate_cons_cons,List.append_assoc,List.singleton_append,List.mem_append,List.mem_cons] at h
      rcases h with h | rfl | h
      · exact .inr ⟨w,List.mem_cons_self,h⟩
      · exact .inl rfl
      · exact (ih h).imp_right fun ⟨u,hu,hc⟩ => ⟨u,.tail _ hu,hc⟩

end Words
end ActionCatalog.Text
