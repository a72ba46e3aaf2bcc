import ActionCatalog.Expression
import Mathlib.Tactic.Tauto

/-! Reading the literals of an expression back. Main statement: those of a URL are the ones that are meant exactly if
each of its stretches reads back by itself. -/
namespace ActionCatalog
namespace Expression

/-- The literals of an expression, read from outside of a literal or from within one, of which some text has been
read. A quote opens a literal; in a literal a backslash right before a quote stands for the quote, and any other quote
closes it. There is no answer if the end is within a literal. -/
def literals? : Option (List Char) → List Char → Option (List (List Char))
  | none, [] => some []
  | some _, [] => none
  | none, c :: rest => if c = '\'' then literals? (some []) rest else literals? none rest
  | some text, '\\' :: '\'' :: rest => literals? (some (text ++ ['\''])) rest
  | some text, c :: rest =>
    if c = '\'' then (text :: ·) <$> literals? none rest else literals? (some (text ++ [c])) rest

section Steps
variable {c : Char} {text rest : List Char}

lemma literals?_open : literals? none ('\'' :: rest) = literals? (some []) rest := by simp [literals?]

lemma literals?_skip (hc : c ≠ '\'') : literals? none (c :: rest) = literals? none rest := by simp [literals?,hc]

lemma literals?_escaped : literals? (some text) ('\\' :: '\'' :: rest) = literals? (some (text ++ ['\''])) rest := by
  rw [literals?]

lemma literals?_close : literals? (some text) ('\'' :: rest) = (text :: ·) <$> literals? none rest := by
  simp [literals?]

lemma literals?_take (hc : c ≠ '\'') (hrest : c = '\\' → rest.head? ≠ some '\'') :
    literals? (some text) (c :: rest) = literals? (some (text ++ [c])) rest := by
  rw [literals?,if_neg hc]
  rintro rest rfl rfl
  exact hrest rfl rfl

end Steps

/-- Induction along the reading of a literal, which takes an escaped quote as one. -/
@[elab_as_elim] theorem reading_induction {motive : List Char → Prop} (nil : motive [])
    (quote : ∀ rest, motive rest → motive ('\'' :: rest))
    (escaped : ∀ rest, motive rest → motive ('\\' :: '\'' :: rest))
    (take : ∀ c rest, c ≠ '\'' → (c = '\\' → rest.head? ≠ some '\'') → motive rest → motive (c :: rest)) :
    ∀ s, motive s
  | [] => nil
  | [c] => by
    by_cases hc : c = '\''
    · exact hc ▸ quote [] nil
    · exact take c [] hc (by simp) nil
  | c :: e :: rest => by
    have hrest := reading_induction nil quote escaped take (e :: rest)
    by_cases hc : c = '\''
    · exact hc ▸ quote _ hrest
    · by_cases he : c = '\\' ∧ e = '\''
      · obtain ⟨rfl,rfl⟩ := he
        exact escaped rest (reading_induction nil quote escaped take rest)
      · exact take c _ hc (fun hb h => he ⟨hb,by simpa using h⟩) hrest

/-- The first literal goes on from the text that has been read. -/
lemma exists_of_literals?_some {s text : List Char} {ls : List (List Char)} (h : literals? (some text) s = some ls) :
    ∃ more behind, ls = (text ++ more) :: behind := by
  induction s using reading_induction generalizing text with
  | nil => simp [literals?] at h
  | quote rest =>
    rw [literals?_close] at h
    obtain ⟨behind,-,rfl⟩ := Option.map_eq_some_iff.mp h
    exact ⟨[],behind,by rw [List.append_nil]⟩
  | escaped rest ih =>
    rw [literals?_escaped] at h
    obtain ⟨more,behind,rfl⟩ := ih h
    exact ⟨'\'' :: more,behind,by rw [List.append_assoc,List.singleton_append]⟩
  | take c rest hc hrest ih =>
    rw [literals?_take hc hrest] at h
    obtain ⟨more,behind,rfl⟩ := ih h
    exact ⟨c :: more,behind,by rw [List.append_assoc,List.singleton_append]⟩

/-- Text without a quote is passed over outside of a literal. -/
lemma literals?_append_of_notMem {s : List Char} (h : '\'' ∉ s) (rest : List Char) :
    literals? none (s ++ rest) = literals? none rest := by
  induction s with
  | nil => rfl
  | cons c s ih =>
    obtain ⟨hc,hs⟩ := not_or.mp (mt List.mem_cons.mpr h)
    rw [List.cons_append,literals?_skip (Ne.symm hc),ih hs]

section Texts
variable {text rest : List Char} {ls : List (List Char)}

lemma literals?_close_iff : literals? (some text) ('\'' :: rest) = some (text :: ls) ↔ literals? none rest = some ls := by
  rw [literals?_close]
  simp

/-- A backslash right before a quote is not what is read there. -/
lemma literals?_escaped_ne (more : List Char) :
    literals? (some text) ('\\' :: '\'' :: rest) ≠ some ((text ++ '\\' :: more) :: ls) := by
  intro h
  rw [literals?_escaped] at h
  obtain ⟨other,_,heq⟩ := exists_of_literals?_some h
  simp at heq

/-- A backslash in front of a text is its last character only if there is no text. -/
lemma getLast?_cons_iff {c : Char} {x : List Char} (h : ¬(c = '\\' ∧ x = [])) :
    (c :: x).getLast? = some '\\' ↔ x.getLast? = some '\\' := by
  cases x with
  | nil => simpa using h
  | cons e x => rw [List.getLast?_cons_cons]

lemma head?_append_ne {x : List Char} (hx : x.head? ≠ some '\'') (hrest : x = [] → rest.head? ≠ some '\'') :
    (x ++ rest).head? ≠ some '\'' := by
  cases x with
  | nil => exact hrest rfl
  | cons e x => simpa using hx

lemma head?_escape_ne (x : List Char) : (escape x).head? ≠ some '\'' := by
  cases x with
  | nil => simp [escape]
  | cons c x => by_cases hc : c = '\'' <;> simp [escape,hc]

lemma escape_eq_nil_iff {x : List Char} : escape x = [] ↔ x = [] := by
  cases x with
  | nil => simp [escape]
  | cons c x => by_cases hc : c = '\'' <;> simp [escape,hc]

/-- A text whose quotes are escaped reads back, unless it ends in a backslash, which takes the closing quote in. -/
lemma literals?_escape_iff (x : List Char) : literals? (some text) (escape x ++ '\'' :: rest) = some ((text ++ x) :: ls) ↔
    x.getLast? ≠ some '\\' ∧ literals? none rest = some ls := by
  induction x generalizing text with
  | nil => simpa [escape] using literals?_close_iff
  | cons c x ih =>
    by_cases hb : c = '\\' ∧ x = []
    · obtain ⟨rfl,rfl⟩ := hb
      exact iff_of_false (literals?_escaped_ne []) fun h => h.1 rfl
    · rw [ne_eq,getLast?_cons_iff hb,List.append_cons text c x]
      by_cases hc : c = '\''
      · have hchars : escape (c :: x) = '\\' :: '\'' :: escape x := by simp [escape,hc]
        rw [hchars,List.cons_append,List.cons_append,literals?_escaped,hc,ih]
      · have hchars : escape (c :: x) = c :: escape x := by simp [escape,hc]
        have hhead : c = '\\' → (escape x ++ '\'' :: rest).head? ≠ some '\'' := fun hbackslash =>
          head?_append_ne (head?_escape_ne x) fun hnil => absurd ⟨hbackslash,escape_eq_nil_iff.mp hnil⟩ hb
        rw [hchars,List.cons_append,literals?_take hc hhead,ih]

/-- A text that stands between quotes as it is reads back unless it has a quote in it or ends in a backslash. -/
lemma literals?_bare_iff (x : List Char) : literals? (some text) (x ++ '\'' :: rest) = some ((text ++ x) :: ls) ↔
    ('\'' ∉ x ∧ x.getLast? ≠ some '\\') ∧ literals? none rest = some ls := by
  induction x using reading_induction generalizing text with
  | nil => simpa using literals?_close_iff
  | quote x =>
    refine iff_of_false (fun h => ?_) (by simp)
    rw [List.cons_append,literals?_close] at h
    simp at h
  | escaped x => exact iff_of_false (literals?_escaped_ne _) (by simp)
  | take c x hc hx ih =>
    by_cases hb : c = '\\' ∧ x = []
    · obtain ⟨rfl,rfl⟩ := hb
      exact iff_of_false (literals?_escaped_ne []) (by simp)
    · have hhead : c = '\\' → (x ++ '\'' :: rest).head? ≠ some '\'' := fun hbackslash =>
        head?_append_ne (hx hbackslash) fun hnil => absurd ⟨hbackslash,hnil⟩ hb
      rw [List.cons_append,literals?_take hc hhead,ne_eq,getLast?_cons_iff hb,List.mem_cons,not_or,
        and_iff_right (Ne.symm hc),List.append_cons text c x,ih]

end Texts

/-- What is left to read has at least so many literals, read from outside of a literal or from within one. -/
structure AtLeast (outside inside : Nat) (rest : List Char) : Prop where
  outside : ∀ ls, literals? none rest = some ls → outside ≤ ls.length
  inside : ∀ text ls, literals? (some text) rest = some ls → inside ≤ ls.length

namespace AtLeast
variable {n a b : Nat} {rest : List Char}

lemma nil : AtLeast 0 1 [] := ⟨fun _ _ => Nat.zero_le _,by simp [literals?]⟩

lemma mono {a' b' : Nat} (h : AtLeast a b rest) (ha : a' ≤ a) (hb : b' ≤ b) : AtLeast a' b' rest :=
  ⟨fun ls hls => Nat.le_trans ha (h.outside ls hls),fun text ls hls => Nat.le_trans hb (h.inside text ls hls)⟩

lemma quote (h : AtLeast a b rest) : AtLeast b (a+1) ('\'' :: rest) := by
  constructor
  · intro ls hls
    exact h.inside [] ls (literals?_open ▸ hls)
  · intro text ls hls
    rw [literals?_close] at hls
    obtain ⟨behind,hbehind,rfl⟩ := Option.map_eq_some_iff.mp hls
    exact Nat.succ_le_succ (h.outside behind hbehind)

lemma escaped (h : AtLeast a b rest) : AtLeast b b ('\\' :: '\'' :: rest) := by
  constructor
  · intro ls hls
    rw [literals?_skip (by decide),literals?_open] at hls
    exact h.inside [] ls hls
  · intro text ls hls
    rw [literals?_escaped] at hls
    exact h.inside _ ls hls

lemma take (h : AtLeast a b rest) {c : Char} (hc : c ≠ '\'') (hrest : c = '\\' → rest.head? ≠ some '\'') :
    AtLeast a b (c :: rest) := by
  constructor
  · intro ls hls
    exact h.outside ls (literals?_skip hc ▸ hls)
  · intro text ls hls
    exact h.inside _ ls (literals?_take hc hrest ▸ hls)

/-- What stands in front of other text takes no literal away. -/
lemma append (h : AtLeast n (n+1) rest) (hrest : rest.head? ≠ some '\'') (s : List Char) :
    AtLeast n (n+1) (s ++ rest) := by
  induction s using reading_induction with
  | nil => exact h
  | quote s ih => exact ih.quote.mono (Nat.le_succ n) (Nat.le_refl _)
  | escaped s ih => exact ih.escaped.mono (Nat.le_succ n) (Nat.le_refl _)
  | take c s hc hs ih =>
    exact ih.take hc fun hb => head?_append_ne (hs hb) fun _ => hrest

/-- Whatever stands in front of a quote, there is a literal more. -/
lemma append_quote (h : AtLeast n (n+1) rest) (s : List Char) : AtLeast (n+1) (n+1) (s ++ '\'' :: rest) := by
  induction s using reading_induction with
  | nil => exact h.quote
  | quote s ih => exact ih.quote.mono (Nat.le_refl _) (Nat.le_succ _)
  | escaped s ih => exact ih.escaped
  | take c s hc hs ih =>
    by_cases hb : c = '\\' ∧ s = []
    · -- The backslash escapes the quote within a literal, and outside the quote opens one.
      obtain ⟨rfl,rfl⟩ := hb
      exact h.escaped
    · exact ih.take hc fun hbackslash =>
        head?_append_ne (hs hbackslash) fun hnil => absurd ⟨hbackslash,hnil⟩ hb

/-- Two quotes make a literal more, whatever stands between them. -/
lemma between (h : AtLeast n (n+1) rest) (s : List Char) : AtLeast (n+1) (n+2) ('\'' :: (s ++ '\'' :: rest)) :=
  (h.append_quote s).quote

/-- A quote in front of other text opens a literal too many. -/
lemma lt_length (h : AtLeast n (n+1) rest) (hrest : rest.head? ≠ some '\'') {s : List Char} (hs : '\'' ∈ s)
    {ls : List (List Char)} (hls : literals? none (s ++ rest) = some ls) : n < ls.length := by
  induction s with
  | nil => simp at hs
  | cons c s ih =>
    by_cases hc : c = '\''
    · subst hc
      rw [List.cons_append,literals?_open] at hls
      exact (h.append hrest s).inside [] ls hls
    · rw [List.cons_append,literals?_skip hc] at hls
      exact ih (List.mem_of_ne_of_mem (Ne.symm hc) hs) hls

end AtLeast

/-- The code in front of a literal: it opens a template, goes on with one or opens another one behind it. -/
inductive Lead where
  | opening | plus | reopening

def Lead.chars : Lead → List Char
  | opening => ['{','{']
  | plus => [' ','+',' ']
  | reopening => ['}','}','{','{']

/-- A stretch of a URL: a literal behind some code, its text with escapes or as it is, or the name of a parameter. -/
inductive Stretch where
  | quoted (lead : Lead) (text : List Char)
  | bare (lead : Lead) (text : List Char)
  | access (name : List Char)

namespace Stretch

def chars : Stretch → List Char
  | quoted lead text => lead.chars ++ '\'' :: (escape text ++ ['\''])
  | bare lead text => lead.chars ++ '\'' :: (text ++ ['\''])
  | access name => [' ','+',' ','p','a','r','a','m','s','.'] ++ name

/-- The text that is meant by a literal. -/
def text? : Stretch → Option (List Char)
  | quoted _ text => some text
  | bare _ text => some text
  | access _ => none

def texts (ss : List Stretch) : List (List Char) := ss.filterMap text?

/-- A stretch reads back: it has no quotes but those around its literal, and the second of them closes it. -/
def ReadsBack : Stretch → Prop
  | quoted _ text => text.getLast? ≠ some '\\'
  | bare _ text => '\'' ∉ text ∧ text.getLast? ≠ some '\\'
  | access name => '\'' ∉ name

/-- The characters of a URL, the last template of which is closed. -/
def url (ss : List Stretch) : List Char := ss.flatMap chars ++ ['}','}']

lemma url_cons (s : Stretch) (ss : List Stretch) : url (s :: ss) = s.chars ++ url ss := by
  rw [url,List.flatMap_cons,List.append_assoc,url]

lemma texts_cons (s : Stretch) (ss : List Stretch) : texts (s :: ss) = s.text?.toList ++ texts ss := by
  cases s <;> rfl

lemma head?_url (ss : List Stretch) : (url ss).head? ≠ some '\'' := by
  cases ss with
  | nil => decide
  | cons s ss =>
    rw [url_cons]
    cases s with
    | quoted lead text => cases lead <;> simp [chars,Lead.chars]
    | bare lead text => cases lead <;> simp [chars,Lead.chars]
    | access name => simp [chars]

lemma atLeast_lead {a b : Nat} {rest : List Char} (h : AtLeast a b rest) (lead : Lead) :
    AtLeast a b (lead.chars ++ rest) := by
  have hplain : ∀ c ∈ lead.chars, c ≠ '\'' ∧ c ≠ '\\' := by cases lead <;> simp [Lead.chars]
  generalize lead.chars = code at hplain
  induction code with
  | nil => exact h
  | cons c code ih =>
    obtain ⟨⟨hc,hb⟩,hcode⟩ := List.forall_mem_cons.mp hplain
    exact (ih hcode).take hc fun hbackslash => absurd hbackslash hb

/-- Whatever its stretches are, a URL has as many literals at least as are meant. -/
lemma atLeast_url (ss : List Stretch) : AtLeast (texts ss).length ((texts ss).length + 1) (url ss) := by
  induction ss with
  | nil => exact AtLeast.nil.append (by simp) ['}','}']
  | cons s ss ih =>
    rw [url_cons]
    cases s with
    | quoted lead text =>
      have h := atLeast_lead (ih.between (escape text)) lead
      simpa [texts,text?,chars] using h
    | bare lead text =>
      have h := atLeast_lead (ih.between text) lead
      simpa [texts,text?,chars] using h
    | access name => exact ih.append (head?_url ss) _

/-- A stretch in front of others reads back and leaves to them what they mean, or the literals are not those that are
meant. -/
lemma literals?_chars_iff (s : Stretch) (ss : List Stretch) :
    literals? none (s.chars ++ url ss) = some (s.text?.toList ++ texts ss) ↔
      s.ReadsBack ∧ literals? none (url ss) = some (texts ss) := by
  have hlead : ∀ lead : Lead, '\'' ∉ lead.chars := by
    intro lead
    cases lead <;> simp [Lead.chars]
  cases s with
  | quoted lead text =>
    have h : literals? (some []) (escape text ++ '\'' :: url ss) = some (([] ++ text) :: texts ss) ↔ _ :=
      literals?_escape_iff text
    rw [chars,List.append_assoc,literals?_append_of_notMem (hlead lead),List.cons_append,literals?_open]
    simpa [text?,ReadsBack] using h
  | bare lead text =>
    have h : literals? (some []) (text ++ '\'' :: url ss) = some (([] ++ text) :: texts ss) ↔ _ :=
      literals?_bare_iff text
    rw [chars,List.append_assoc,literals?_append_of_notMem (hlead lead),List.cons_append,literals?_open]
    simpa [text?,ReadsBack] using h
  | access name =>
    by_cases hname : '\'' ∈ name
    · refine iff_of_false (fun hls => ?_) fun h => h.1 hname
      exact absurd ((atLeast_url ss).lt_length (head?_url ss) (List.mem_append_right _ hname) hls) (Nat.lt_irrefl _)
    · have hchars : '\'' ∉ (access name).chars := by simp [chars,hname]
      rw [literals?_append_of_notMem hchars]
      exact (and_iff_right hname).symm

/-- The literals of a URL are those that are meant exactly if each stretch reads back. -/
theorem literals?_url_iff (ss : List Stretch) :
    literals? none (url ss) = some (texts ss) ↔ ∀ s ∈ ss, s.ReadsBack := by
  induction ss with
  | nil => simp [url,texts,literals?]
  | cons s ss ih => rw [url_cons,texts_cons,literals?_chars_iff,ih,List.forall_mem_cons]

end Stretch

end Expression
end ActionCatalog
