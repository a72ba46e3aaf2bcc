import ActionCatalog.Label
import ActionCatalog.Proofs.Pieces
import Mathlib.Tactic.Common

/-! Labels against the names that they are made of. Main statement: a label consists of the letters of its name, in
words that are parted by single spaces and have no capital behind a lower-case letter, and it is its own label. -/
namespace ActionCatalog

namespace Text

/-- A text of ASCII characters. -/
def IsAscii (text : List Char) : Prop := ∀ c ∈ text, c.toNat < 128

instance (text : List Char) : Decidable (IsAscii text) := List.decidableBAll _ text

/-- No capital follows a lower-case letter. -/
def Smooth (text : List Char) : Prop := text.IsChain fun a b => ¬(isLower a ∧ isUpper b)

instance (text : List Char) : Decidable (Smooth text) :=
  inferInstanceAs (Decidable (text.IsChain fun a b => ¬(isLower a ∧ isUpper b)))

section Ascii
variable {c : Char}

/-- What is true of 128 characters is true of those of ASCII. -/
lemma of_ascii {P : Char → Prop} (h : ∀ n < 128, P (.ofNat n)) (hc : c.toNat < 128) : P c := by
  rw [← Char.ofNat_toNat c]
  exact h _ hc

/-- Whether a character goes on with a word, so that no capital is set behind it. -/
def continues (c : Char) : Bool := isAlphanumeric c || c = '_'

/-- What is used of a character: its capital, and the classes of both. -/
@[mk_iff] structure Regular (c : Char) : Prop where
  toUpper_lt : c.toUpper.toNat < 128
  capital : capital c = [c.toUpper]
  toLower_toUpper : c.toUpper.toLower = c.toLower
  toUpper_toUpper : c.toUpper.toUpper = c.toUpper
  not_isLower_toUpper : ¬isLower c.toUpper
  eq_toUpper_or_isAlpha : c.toUpper = c ∨ c.toUpper.isAlpha
  eq_or_isLower : c.toUpper = 'I' → c = 'I' ∨ isLower c
  continues_toUpper : continues c.toUpper = continues c
  continues_of_isLower : isLower c → continues c
  of_isAlpha : c.isAlpha → isBlank c = false ∧ c ≠ '_' ∧ c ≠ '.'

instance (c : Char) : Decidable (Regular c) := decidable_of_iff' _ (regular_iff c)

lemma regular : c.toNat < 128 → Regular c := of_ascii (P := Regular) (by decide +kernel)

/-- Letters are no blanks and no separators. -/
lemma of_isAlpha (h : c.isAlpha) : isBlank c = false ∧ c ≠ '_' ∧ c ≠ '.' := by
  have hc : c.toNat < 128 := by
    have hranges : c.isAlpha = (decide (c.val ≥ 'A'.val ∧ c.val ≤ 'Z'.val) ||
        (decide (c.val ≥ 'a'.val) && decide (c.val ≤ 'z'.val))) := rfl
    simp only [hranges,Bool.or_eq_true,Bool.and_eq_true,decide_eq_true_eq,UInt32.le_iff_toNat_le,
      Char.toNat_val] at h
    have hZ : 'Z'.toNat = 90 := rfl
    have hz : 'z'.toNat = 122 := rfl
    omega
  exact (regular hc).of_isAlpha h

end Ascii

/-- Words without such capitals, joined by spaces, have none either. -/
lemma smooth_intercalate {ws : List (List Char)} (h : ∀ w ∈ ws, Smooth w) : Smooth ([' '].intercalate ws) := by
  induction ws with
  | nil => exact .nil
  | cons w ws ih =>
    rw [List.forall_mem_cons] at h
    cases ws with
    | nil => simpa using h.1
    | cons v ws =>
      have hspace : isLower ' ' = false ∧ isUpper ' ' = false := ⟨rfl,rfl⟩
      rw [List.intercalate_cons_cons,List.append_assoc,List.singleton_append]
      refine h.1.append ((ih h.2).cons fun _ _ => by simp [hspace]) fun a _ b hb => ?_
      cases hb
      simp [hspace]

end Text

namespace Label
open Text

section Passes
variable {text : List Char}

lemma dropBrackets_eq_replace (text : List Char) : dropBrackets text = replace ['[',']'] [] text := by
  fun_induction dropBrackets text with
  | case1 rest ih => simpa [replace,replaceFrom] using ih
  | case2 c rest hne ih =>
    have hfirst : List.isPrefixOf ['[',']'] (c :: rest) = false := by
      rw [Bool.eq_false_iff,ne_eq,List.isPrefixOf_iff_prefix]
      rintro ⟨tail,heq⟩
      cases heq
      exact hne tail rfl rfl
    rw [ih,replace,replace,replaceFrom,hfirst]
    rfl
  | case3 => rfl

lemma dropBrackets_sublist (text : List Char) : (dropBrackets text).Sublist text := by
  fun_induction dropBrackets text with
  | case1 rest ih => exact (ih.cons _).cons _
  | case2 c rest hne ih => exact ih.cons_cons c
  | case3 => exact .refl _

lemma dropBrackets_eq_self (h : ¬['[',']'] <:+: text) : dropBrackets text = text := by
  fun_induction dropBrackets text with
  | case1 rest ih => exact absurd (List.prefix_append ['[',']'] rest).isInfix h
  | case2 c rest hne ih => rw [ih fun hin => h (List.infix_cons hin)]
  | case3 => rfl

lemma respace_eq_self (h : '_' ∉ text ∧ '.' ∉ text) : respace text = text := by
  have hkeep : ∀ c ∈ text, (if c = '_' || c = '.' then ' ' else c) = id c := by
    intro c hc
    rw [if_neg]
    · rfl
    · simp only [Bool.or_eq_true,decide_eq_true_eq]
      rintro (rfl | rfl)
      · exact h.1 hc
      · exact h.2 hc
  rw [respace,List.map_congr_left hkeep,List.map_id]

lemma filter_splitCase (text : List Char) : (splitCase text).filter (!isBlank ·) = text.filter (!isBlank ·) := by
  have hspace : isBlank ' ' = true := rfl
  fun_induction splitCase text with
  | case1 a b rest hump ih => simp [List.filter_cons,hspace,ih]
  | case2 a b rest flat ih => rw [List.filter_cons,List.filter_cons (x := a),ih]
  | case3 => rfl

lemma mem_splitCase {c : Char} (h : c ∈ splitCase text) : c = ' ' ∨ c ∈ text := by
  fun_induction splitCase text with
  | case1 a b rest hump ih =>
    rcases List.mem_cons.mp h with rfl | h
    · exact .inr List.mem_cons_self
    rcases List.mem_cons.mp h with rfl | h
    · exact .inl rfl
    · exact (ih h).imp_right (.tail _)
  | case2 a b rest flat ih =>
    rcases List.mem_cons.mp h with rfl | h
    · exact .inr List.mem_cons_self
    · exact (ih h).imp_right (.tail _)
  | case3 => exact .inr h

lemma head?_splitCase (text : List Char) : (splitCase text).head? = text.head? := by
  fun_cases splitCase text <;> rfl

lemma smooth_splitCase (text : List Char) : Smooth (splitCase text) := by
  fun_induction splitCase text with
  | case1 a b rest hump ih =>
    have hspace : isLower ' ' = false ∧ isUpper ' ' = false := ⟨rfl,rfl⟩
    exact .cons_cons (by simp [hspace]) (ih.cons fun _ _ => by simp [hspace])
  | case2 a b rest flat ih =>
    refine ih.cons fun y hy => ?_
    rw [head?_splitCase] at hy
    cases hy
    simpa using flat
  | case3 text hshort =>
    cases text with
    | nil => exact .nil
    | cons a rest =>
      cases rest with
      | nil => exact .singleton a
      | cons b rest => exact absurd rfl (hshort a b rest)

lemma splitCase_eq_self (h : Smooth text) : splitCase text = text := by
  fun_induction splitCase text with
  | case1 a b rest hump ih =>
    rw [Smooth,List.isChain_cons_cons] at h
    exact absurd (by simpa using hump) h.1
  | case2 a b rest flat ih =>
    rw [Smooth,List.isChain_cons_cons] at h
    rw [ih h.2]
  | case3 => rfl

end Passes

section Words
variable {c : Char} {start : Bool} {word : List Char}

lemma titleFrom_cons (hc : c.toNat < 128) (start : Bool) (word : List Char) :
    titleFrom start (c :: word) = (if start then c.toUpper else c) :: titleFrom (!continues c) word := by
  rw [titleFrom,(regular hc).capital,continues]
  split <;> rfl

lemma map_toLower_titleFrom (h : IsAscii word) : (titleFrom start word).map Char.toLower = word.map Char.toLower := by
  induction word generalizing start with
  | nil => rfl
  | cons c word ih =>
    obtain ⟨hc,hword⟩ := List.forall_mem_cons.mp h
    rw [titleFrom_cons hc,List.map_cons,ih hword,List.map_cons]
    split
    · rw [(regular hc).toLower_toUpper]
    · rfl

lemma titleFrom_titleFrom (h : IsAscii word) : titleFrom start (titleFrom start word) = titleFrom start word := by
  induction word generalizing start with
  | nil => rfl
  | cons c word ih =>
    obtain ⟨hc,hword⟩ := List.forall_mem_cons.mp h
    rw [titleFrom_cons hc]
    cases start with
    | false => rw [if_neg Bool.false_ne_true,titleFrom_cons hc,ih hword]; rfl
    | true =>
      rw [if_pos rfl,titleFrom_cons (regular hc).toUpper_lt,(regular hc).toUpper_toUpper,
        (regular hc).continues_toUpper,ih hword]
      rfl

lemma mem_titleFrom (h : IsAscii word) (hc : c ∈ titleFrom start word) : c ∈ word ∨ c.isAlpha := by
  induction word generalizing start with
  | nil => cases hc
  | cons d word ih =>
    obtain ⟨hd,hword⟩ := List.forall_mem_cons.mp h
    rw [titleFrom_cons hd] at hc
    rcases List.mem_cons.mp hc with rfl | hc
    · split
      · rcases (regular hd).eq_toUpper_or_isAlpha with heq | halpha
        · rw [heq]
          exact .inl List.mem_cons_self
        · exact .inr halpha
      · exact .inl List.mem_cons_self
    · exact (ih hword hc).imp_left (.tail _)

/-- The capitals of a title stand at the start of a word, so behind no lower-case letter. -/
lemma smooth_titleFrom (h : IsAscii word) (hsmooth : Smooth word) : Smooth (titleFrom start word) := by
  induction word generalizing start with
  | nil => exact .nil
  | cons c word ih =>
    obtain ⟨hc,hword⟩ := List.forall_mem_cons.mp h
    rw [titleFrom_cons hc]
    refine (ih hword hsmooth.tail).cons fun y hy => ?_
    rintro ⟨hlower,hupper⟩
    have hkept : (if start then c.toUpper else c) = c := by
      split at hlower
      · exact absurd hlower ((regular hc).not_isLower_toUpper)
      · rename_i hstart
        rw [if_neg hstart]
    rw [hkept] at hlower
    cases word with
    | nil => cases hy
    | cons d word =>
      rw [titleFrom_cons (List.forall_mem_cons.mp hword).1,(regular hc).continues_of_isLower hlower] at hy
      cases hy
      rw [Smooth,List.isChain_cons_cons] at hsmooth
      exact hsmooth.1 ⟨hlower,hupper⟩

/-- In the middle of a word nothing is changed. -/
lemma titleFrom_false (h : IsAscii word) (hword : ∀ c ∈ titleFrom false word, continues c) :
    titleFrom false word = word := by
  induction word with
  | nil => rfl
  | cons c word ih =>
    obtain ⟨hc,hascii⟩ := List.forall_mem_cons.mp h
    rw [titleFrom_cons hc,if_neg Bool.false_ne_true] at hword ⊢
    obtain ⟨hcontinues,hword⟩ := List.forall_mem_cons.mp hword
    rw [hcontinues] at hword ⊢
    rw [Bool.not_true,ih hascii hword]

/-- The words that are not spelled as titles. -/
def exceptions : List (List Char) := acronyms ++ [['i','d','s'], ['I','D','S']]

lemma normalize_of_notMem (h : word ∉ exceptions) : normalize word = titleFrom true word := by
  simp only [exceptions,List.mem_append,List.mem_cons,List.not_mem_nil,or_false,not_or] at h
  rw [normalize,if_neg h.1,if_neg (not_or.mpr h.2)]

/-- A title is no exception: its first letter is no lower-case one, and `iDS` is no single word. -/
lemma titleFrom_notMem (h : IsAscii word) (hsmooth : Smooth word) (hword : word ∉ exceptions) :
    titleFrom true word ∉ exceptions := by
  cases word with
  | nil => exact hword
  | cons c rest =>
    obtain ⟨hc,hrest⟩ := List.forall_mem_cons.mp h
    rw [titleFrom_cons hc,if_pos rfl]
    intro hmem
    have hheads : ∀ w ∈ exceptions, w = ['I','D','S'] ∨ w.head?.any isLower := by decide
    rcases hheads _ hmem with heq | hlower
    · obtain ⟨hupper,htail⟩ := List.cons.inj heq
      have hcontinues : continues c = true := by
        rw [← (regular hc).continues_toUpper,hupper]
        rfl
      rw [hcontinues,Bool.not_true] at htail
      have hplain : ∀ d ∈ titleFrom false rest, continues d := by
        rw [htail]
        exact List.all_eq_true.mp rfl
      rw [titleFrom_false hrest hplain] at htail
      subst htail
      rcases (regular hc).eq_or_isLower hupper with rfl | hlower
      · exact hword (by decide)
      · rw [Smooth,List.isChain_cons_cons] at hsmooth
        exact hsmooth.1 ⟨hlower,rfl⟩
    · exact (regular hc).not_isLower_toUpper hlower

/-- A word keeps its letters, gets no others, and is spelled once and for all. -/
structure Respelled (word : List Char) : Prop where
  letters : (normalize word).map Char.toLower = word.map Char.toLower
  plain : ∀ c ∈ normalize word, c ∈ word ∨ c.isAlpha
  smooth : Smooth (normalize word)
  settled : normalize (normalize word) = normalize word

theorem respelled (h : IsAscii word) (hsmooth : Smooth word) : Respelled word := by
  by_cases hword : word ∈ exceptions
  · have hall : ∀ w ∈ exceptions, (normalize w).map Char.toLower = w.map Char.toLower ∧
        (normalize w).all (fun c => c ∈ w ∨ c.isAlpha) ∧ Smooth (normalize w) ∧
        normalize (normalize w) = normalize w := by decide +kernel
    obtain ⟨hletters,hplain,hsmooth,hsettled⟩ := hall word hword
    exact ⟨hletters,by simpa using hplain,hsmooth,hsettled⟩
  · have htitle := normalize_of_notMem hword
    refine ⟨?_,fun c hc => ?_,?_,?_⟩
    · rw [htitle,map_toLower_titleFrom h]
    · exact mem_titleFrom h (htitle ▸ hc)
    · exact htitle ▸ smooth_titleFrom h hsmooth
    · rw [htitle,normalize_of_notMem (titleFrom_notMem h hsmooth hword),titleFrom_titleFrom h]

lemma Respelled.isWord (h : Respelled word) (hword : IsWord word) : IsWord (normalize word) := by
  refine ⟨fun hnil => hword.filled ?_,fun c hc => ?_⟩
  · have hlength := congrArg List.length h.letters
    rw [hnil,List.length_map,List.length_map] at hlength
    exact List.eq_nil_of_length_eq_zero hlength.symm
  · exact (h.plain c hc).elim (hword.solid c) fun halpha => (of_isAlpha halpha).1

end Words

section Spelling
variable {name word : List Char} {c : Char}

/-- The words that a name is cut into. -/
def pieces (name : List Char) : List (List Char) := words (splitCase (dropBrackets (respace name)))

lemma spell_eq (name : List Char) : spell name = [' '].intercalate ((pieces name).map normalize) := rfl

lemma mem_respace (h : c ∈ respace name) : c = ' ' ∨ c ∈ name ∧ c ≠ '_' ∧ c ≠ '.' := by
  obtain ⟨d,hd,rfl⟩ := List.mem_map.mp h
  split
  · exact .inl rfl
  · rename_i hplain
    simp only [Bool.or_eq_true,decide_eq_true_eq,not_or] at hplain
    exact .inr ⟨hd,hplain⟩

lemma mem_piece (hword : word ∈ pieces name) (hc : c ∈ word) : c = ' ' ∨ c ∈ name ∧ c ≠ '_' ∧ c ≠ '.' := by
  rcases mem_splitCase ((isInfix_of_mem_words hword).subset hc) with rfl | hmem
  · exact .inl rfl
  · exact mem_respace ((dropBrackets_sublist _).subset hmem)

lemma isAscii_of_mem_pieces (h : IsAscii name) (hword : word ∈ pieces name) : IsAscii word := by
  intro c hc
  rcases mem_piece hword hc with rfl | ⟨hmem,-⟩
  · decide
  · exact h c hmem

lemma respelled_of_mem_pieces (h : IsAscii name) (hword : word ∈ pieces name) : Respelled word := by
  obtain ⟨before,after,heq⟩ := isInfix_of_mem_words hword
  have hsmooth : Smooth (before ++ word ++ after) := heq ▸ smooth_splitCase _
  exact respelled (isAscii_of_mem_pieces h hword) hsmooth.left_of_append.right_of_append

/-- What a label keeps of a name: underscores and dots become spaces, then pairs of brackets go, and then all
blanks. -/
def kept (name : List Char) : List Char :=
  (replace ['[',']'] [] (name.map fun c => if c ∈ ['_','.'] then ' ' else c)).filter (!isBlank ·)

lemma flatten_pieces (name : List Char) : (pieces name).flatten = kept name := by
  have hrespace : respace name = name.map fun c => if c ∈ ['_','.'] then ' ' else c :=
    List.map_congr_left fun c _ => by simp
  rw [pieces,flatten_words,filter_splitCase,dropBrackets_eq_replace,hrespace,kept]

/-- A label of a name. -/
structure Labels (name label : List Char) : Prop where
  letters : (label.filter (· ≠ ' ')).map Char.toLower = (kept name).map Char.toLower
  words : ∃ ws, label = [' '].intercalate ws ∧ ∀ w ∈ ws, IsWord w
  plain : '_' ∉ label ∧ '.' ∉ label
  smooth : Smooth label

lemma isWord_of_mem_map_pieces (h : IsAscii name) : ∀ w ∈ (pieces name).map normalize, IsWord w := by
  rw [List.forall_mem_map]
  intro w hw
  exact (respelled_of_mem_pieces h hw).isWord (isWord_of_mem_words hw)

lemma mem_spell (h : IsAscii name) (hc : c ∈ spell name) :
    c = ' ' ∨ isBlank c = false ∧ c ≠ '_' ∧ c ≠ '.' := by
  rcases mem_intercalate hc with rfl | ⟨w,hw,hcw⟩
  · exact .inl rfl
  have hsolid := (isWord_of_mem_map_pieces h w hw).solid c hcw
  obtain ⟨word,hword,rfl⟩ := List.mem_map.mp hw
  rcases (respelled_of_mem_pieces h hword).plain c hcw with hmem | halpha
  · exact (mem_piece hword hmem).imp_right fun hplain => ⟨hsolid,hplain.2⟩
  · exact .inr (of_isAlpha halpha)

lemma labels_spell (h : IsAscii name) : Labels name (spell name) where
  letters := by
    have hspaces : ∀ c ∈ spell name, decide (c ≠ ' ') = !isBlank c := by
      intro c hc
      rcases mem_spell h hc with rfl | ⟨hblank,-⟩
      · rfl
      · rw [hblank]
        simpa using fun heq => absurd (heq ▸ hblank) (by decide)
    have hletters : ∀ w ∈ pieces name, (normalize w).map Char.toLower = w.map Char.toLower :=
      fun w hw => (respelled_of_mem_pieces h hw).letters
    rw [List.filter_congr hspaces,spell_eq,filter_intercalate (isWord_of_mem_map_pieces h),← flatten_pieces,
      List.map_flatten,List.map_flatten,List.map_map]
    exact congrArg List.flatten (List.map_congr_left hletters)
  words := ⟨_,spell_eq name,isWord_of_mem_map_pieces h⟩
  plain := by
    constructor <;> intro hmem <;> rcases mem_spell h hmem with heq | ⟨-,hunderscore,hdot⟩
    · exact absurd heq (by decide)
    · exact hunderscore rfl
    · exact absurd heq (by decide)
    · exact hdot rfl
  smooth := by
    rw [spell_eq]
    refine smooth_intercalate (List.forall_mem_map.mpr fun w hw => ?_)
    exact (respelled_of_mem_pieces h hw).smooth

/-- No pass finds anything left to do in a label. -/
lemma spell_spell (h : IsAscii name) (hbrackets : ¬['[',']'] <:+: spell name) : spell (spell name) = spell name := by
  have hlabel := labels_spell h
  have hpieces : pieces (spell name) = (pieces name).map normalize := by
    rw [pieces,respace_eq_self hlabel.plain,dropBrackets_eq_self hbrackets,splitCase_eq_self hlabel.smooth,spell_eq,
      words_intercalate (isWord_of_mem_map_pieces h)]
  have hsettled : ∀ w ∈ pieces name, normalize (normalize w) = normalize w :=
    fun w hw => (respelled_of_mem_pieces h hw).settled
  rw [spell_eq,hpieces,List.map_map,spell_eq]
  exact congrArg _ (List.map_congr_left hsettled)

/-- The label of a name in ASCII has the letters of the name, whatever their case, apart from underscores, dots, pairs
of brackets and blanks. It consists of words parted by single spaces, has no underscore, no dot and no capital behind a
lower-case letter, and is its own label unless a pair of brackets was left in it. -/
theorem label_respaces (name : String) (h : IsAscii name.toList) :
    Labels name.toList (ofName name).toList ∧
      (¬['[',']'] <:+: (ofName name).toList → ofName (ofName name) = ofName name) := by
  simp only [ofName,String.toList_ofList]
  exact ⟨labels_spell h,fun hbrackets => by rw [spell_spell h hbrackets]⟩

/-- Brackets inside brackets leave a pair behind, which the label of the label has lost. -/
theorem label_respaces_nested : ofName "user[[]]_iDs.url" = "User[] I Ds URL" ∧
    Labels "user[[]]_iDs.url".toList "User[] I Ds URL".toList ∧ ofName "User[] I Ds URL" = "User I Ds URL" ∧
    ofName (ofName "User[] I Ds URL") = ofName "User[] I Ds URL" := by
  obtain ⟨hname,hlabel,hnested,hpair,hlost⟩ : ofName "user[[]]_iDs.url" = "User[] I Ds URL" ∧
      ofName "User[] I Ds URL" = "User I Ds URL" ∧ IsAscii "user[[]]_iDs.url".toList ∧
      IsAscii "User[] I Ds URL".toList ∧ ¬['[',']'] <:+: "User I Ds URL".toList := by decide +kernel
  obtain ⟨hlabels,-⟩ := label_respaces "user[[]]_iDs.url" hnested
  obtain ⟨-,hsettled⟩ := label_respaces "User[] I Ds URL" hpair
  rw [hname] at hlabels
  exact ⟨hname,hlabels,hlabel,hsettled (by rwa [hlabel])⟩

end Spelling
end Label
end ActionCatalog
