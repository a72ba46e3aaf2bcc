import ActionCatalog.Dict.Lookup
import ActionCatalog.Expression
import ActionCatalog.Proofs.Keyed
import Mathlib.Data.List.Induction
import Mathlib.Data.List.Perm.Basic
import Mathlib.Logic.Function.Basic

/-! Variables of servers. Main statement: defaults that are put into a URL one after another give what they give at
once, unless one of them makes a mark of the next variable that the URL does not have. -/
namespace ActionCatalog.Variables
open Text

/-- A character that stands for itself, or a name between braces. -/
inductive Piece where
  | char (c : Char)
  | mark (name : List Char)
  deriving DecidableEq

def Piece.source : Piece → List Char
  | char c => [c]
  | mark name => '{' :: (name ++ ['}'])

lemma Piece.source_mark (name : List Char) : (mark name).source = '{' :: (name ++ ['}']) := rfl

/-- A text without braces. -/
def IsPlain (text : List Char) : Prop := '{' ∉ text ∧ '}' ∉ text

instance (text : List Char) : Decidable (IsPlain text) := inferInstanceAs (Decidable ('{' ∉ text ∧ '}' ∉ text))

/-- The name that ends at the next closing brace, if no other brace comes before, and what follows it. -/
def closing? : List Piece → Option (List Char × List Piece)
  | .char c :: ps =>
    if c = '}' then some ([],ps)
    else if c = '{' then none
    else (closing? ps).map fun (name,after) => (c :: name,after)
  | _ => none

/-- Puts a character in front; an opening brace makes a mark of a name that is closed. -/
def push (c : Char) (ps : List Piece) : List Piece :=
  if c = '{' then
    match closing? ps with
    | some (name,after) => .mark name :: after
    | none => .char c :: ps
  else .char c :: ps

/-- The pieces of a text. -/
def pieces (text : List Char) : List Piece := text.foldr push []

section Pieces
variable {c : Char} {a b name text : List Char} {ps qs after : List Piece}

lemma pieces_cons (c : Char) (text : List Char) : pieces (c :: text) = push c (pieces text) := rfl

lemma push_of_ne (h : c ≠ '{') (ps : List Piece) : push c ps = .char c :: ps := if_neg h

lemma of_closing? (h : closing? ps = some (name,after)) :
    IsPlain name ∧ ps = name.map .char ++ .char '}' :: after := by
  fun_induction closing? ps generalizing name with
  | case1 ps =>
    cases h
    exact ⟨by decide,rfl⟩
  | case2 ps hne => cases h
  | case3 c ps hclose hopen ih =>
    obtain ⟨⟨rest,_⟩,hrest,heq⟩ := Option.map_eq_some_iff.mp h
    cases heq
    obtain ⟨hplain,rfl⟩ := ih hrest
    refine ⟨?_,rfl⟩
    simpa [IsPlain,Ne.symm hclose,Ne.symm hopen] using hplain
  | case4 => cases h

lemma closing?_eq (h : IsPlain name) (after : List Piece) :
    closing? (name.map .char ++ .char '}' :: after) = some (name,after) := by
  induction name with
  | nil => rfl
  | cons c name ih =>
    simp only [IsPlain,List.mem_cons,not_or] at h
    obtain ⟨⟨hopen,h⟩,hclose,h'⟩ := h
    rw [List.map_cons,List.cons_append,closing?,if_neg (Ne.symm hclose),if_neg (Ne.symm hopen),ih ⟨h,h'⟩]
    rfl

/-- A mark closes no name in front of it. -/
lemma closing?_append_mark (ps qs : List Piece) (name : List Char) : closing? (ps ++ .mark name :: qs) =
    (closing? ps).map fun (inside,after) => (inside,after ++ .mark name :: qs) := by
  fun_induction closing? ps with
  | case1 ps => rfl
  | case2 ps hne => rfl
  | case3 c ps hclose hopen ih =>
    rw [List.cons_append,closing?,if_neg hclose,if_neg hopen,ih]
    cases closing? ps <;> rfl
  | case4 ps hps =>
    cases ps with
    | nil => rfl
    | cons p ps =>
      cases p with
      | char c => exact absurd rfl (hps c ps)
      | mark name => rfl

lemma push_append_mark (c : Char) (ps qs : List Piece) (name : List Char) :
    push c (ps ++ .mark name :: qs) = push c ps ++ .mark name :: qs := by
  simp only [push,closing?_append_mark]
  split
  · cases closing? ps <;> rfl
  · rfl

/-- The pieces of a text stand for it. -/
lemma source_pieces (text : List Char) : (pieces text).flatMap Piece.source = text := by
  induction text with
  | nil => rfl
  | cons c text ih =>
    rw [pieces_cons,push]
    split
    · rename_i hopen
      split
      · rename_i name after hclosing
        obtain ⟨-,hps⟩ := of_closing? hclosing
        rw [hps] at ih
        rw [← ih,hopen]
        simp [Piece.source,List.flatMap_map]
      · rw [List.flatMap_cons,ih]
        rfl
    · rw [List.flatMap_cons,ih]
      rfl

lemma pieces_append_of_notMem (h : '{' ∉ a) (b : List Char) : pieces (a ++ b) = a.map .char ++ pieces b := by
  induction a with
  | nil => rfl
  | cons c a ih =>
    rw [List.mem_cons,not_or] at h
    rw [List.cons_append,pieces_cons,ih h.2,push_of_ne (Ne.symm h.1)]
    rfl

lemma pieces_mark (h : IsPlain name) (text : List Char) :
    pieces ((Piece.mark name).source ++ text) = .mark name :: pieces text := by
  have hpieces : pieces (name ++ '}' :: text) = name.map .char ++ .char '}' :: pieces text := by
    rw [pieces_append_of_notMem h.1,pieces_cons,push_of_ne (by decide)]
  rw [Piece.source,List.cons_append,List.append_assoc,List.singleton_append,pieces_cons,hpieces,push,if_pos rfl,
    closing?_eq h]

/-- A name between braces is a mark wherever it stands. -/
lemma pieces_append_mark (h : IsPlain name) (a b : List Char) :
    pieces (a ++ ((Piece.mark name).source ++ b)) = pieces a ++ .mark name :: pieces b := by
  induction a with
  | nil => exact pieces_mark h b
  | cons c a ih => rw [List.cons_append,pieces_cons,ih,push_append_mark,pieces_cons]

/-- A text is gone through by characters and marks. -/
theorem pieces_induction {P : List Char → Prop} (nil : P [])
    (char : ∀ c text, pieces (c :: text) = .char c :: pieces text → P text → P (c :: text))
    (mark : ∀ name text, IsPlain name → P text → P ((Piece.mark name).source ++ text)) (text : List Char) :
    P text := by
  induction hn : text.length using Nat.strongRecOn generalizing text with
  | _ n ih =>
    cases text with
    | nil => exact nil
    | cons c text =>
      by_cases hchar : pieces (c :: text) = .char c :: pieces text
      · exact char c text hchar (ih text.length (by simp [← hn]) text rfl)
      · rw [pieces_cons,push] at hchar
        split at hchar
        · rename_i hopen
          split at hchar
          · rename_i name after hclosing
            obtain ⟨hplain,hps⟩ := of_closing? hclosing
            have htext := source_pieces text
            rw [hps] at htext
            have hmark : c :: text = (Piece.mark name).source ++ after.flatMap Piece.source := by
              rw [← htext,hopen]
              simp [Piece.source,List.flatMap_map]
            rw [hmark] at hn ⊢
            refine mark name _ hplain (ih _ ?_ _ rfl)
            rw [← hn,Piece.source]
            simp
            omega
          · exact absurd rfl hchar
        · exact absurd rfl hchar

end Pieces

section Replacing
variable {name : List Char}

lemma isPrefixOf_eq_false {a b : List Char} (h : ∀ rest, a ++ rest ≠ b) : a.isPrefixOf b = false := by
  rw [Bool.eq_false_iff,ne_eq,List.isPrefixOf_iff_prefix]
  rintro ⟨rest,heq⟩
  exact h rest heq

/-- What is no mark is passed over in the search for it. -/
lemma replace_append_of_notMem {a : List Char} (h : '{' ∉ a) (value b : List Char) :
    replace (Piece.mark name).source value (a ++ b) = a ++ replace (Piece.mark name).source value b := by
  induction a with
  | nil => rfl
  | cons c a ih =>
    rw [List.mem_cons,not_or] at h
    have hfirst : ((Piece.mark name).source.isPrefixOf (c :: (a ++ b))) = false :=
      isPrefixOf_eq_false fun rest heq => h.1 (List.cons.inj heq).1
    rw [List.cons_append,replace,replaceFrom,hfirst,if_neg Bool.false_ne_true]
    exact congrArg (c :: ·) (ih h.2)

lemma replaceFrom_append (piece value a b : List Char) :
    replaceFrom piece value a.length (a ++ b) = replace piece value b := by
  induction a with
  | nil => rfl
  | cons c a ih => exact ih

lemma replace_mark (value text : List Char) : replace (Piece.mark name).source value
    ((Piece.mark name).source ++ text) = value ++ replace (Piece.mark name).source value text := by
  have hfirst : (Piece.mark name).source.isPrefixOf ((Piece.mark name).source ++ text) = true :=
    List.isPrefixOf_iff_prefix.mpr (List.prefix_append _ _)
  rw [Piece.source,List.cons_append] at hfirst ⊢
  rw [replace,replaceFrom,if_pos hfirst,List.length_cons,Nat.add_sub_cancel,replaceFrom_append]

/-- To replace the mark of a name is to replace it among the pieces. -/
theorem replace_eq (h : IsPlain name) (value text : List Char) : replace (Piece.mark name).source value text =
    (pieces text).flatMap (Function.update Piece.source (.mark name) value) := by
  induction text using pieces_induction with
  | nil => rfl
  | char c text hchar ih =>
    rw [hchar,List.flatMap_cons,← ih,Function.update_of_ne (by simp)]
    have hfirst : (Piece.mark name).source.isPrefixOf (c :: text) = false := by
      refine isPrefixOf_eq_false fun rest heq => ?_
      rw [← heq,pieces_mark h] at hchar
      cases hchar
    rw [replace,replaceFrom,hfirst]
    rfl
  | mark other text hplain ih =>
    rw [pieces_mark hplain,List.flatMap_cons,← ih]
    by_cases heq : other = name
    · rw [heq,replace_mark,Function.update_self]
    · rw [Function.update_of_ne (by simpa using heq)]
      have hrest : '{' ∉ other ++ ['}'] := by simpa using hplain.1
      have hfirst : (Piece.mark name).source.isPrefixOf ((Piece.mark other).source ++ text) = false := by
        refine isPrefixOf_eq_false fun rest heq' => ?_
        have hpieces := congrArg pieces heq'
        rw [pieces_mark h,pieces_mark hplain] at hpieces
        exact heq (Piece.mark.inj (List.cons.inj hpieces).1).symm
      rw [Piece.source_mark other,List.cons_append] at hfirst ⊢
      rw [replace,replaceFrom,hfirst]
      exact congrArg ('{' :: ·) (replace_append_of_notMem hrest value text)

end Replacing

section Counting
variable {name value : List Char} {f : Piece → List Char} {ps : List Piece}

/-- A list is gone through from one occurrence of a piece to the next. -/
lemma occurrence_induction {p : Piece} {P : List Piece → Prop} (none : ∀ ps, p ∉ ps → P ps)
    (some : ∀ before after, p ∉ before → P after → P (before ++ p :: after)) (ps : List Piece) : P ps := by
  induction hn : ps.length using Nat.strongRecOn generalizing ps with
  | _ n ih =>
    by_cases h : p ∈ ps
    · obtain ⟨before,after,rfl,hbefore⟩ := List.eq_append_cons_of_mem h
      exact some before after hbefore (ih _ (by simp [← hn]; omega) after rfl)
    · exact none ps h

lemma flatMap_update_of_notMem {p : Piece} (h : p ∉ ps) (f : Piece → List Char) (value : List Char) :
    ps.flatMap (Function.update f p value) = ps.flatMap f :=
  List.flatMap_congr fun _ hq => Function.update_of_ne (ne_of_mem_of_not_mem hq h) _ _

lemma length_flatMap_update (p : Piece) (f : Piece → List Char) (value : List Char) (ps : List Piece) :
    (ps.flatMap (Function.update f p value)).length + ps.count p * (f p).length =
      (ps.flatMap f).length + ps.count p * value.length := by
  induction ps with
  | nil => simp
  | cons q ps ih =>
    rw [List.flatMap_cons,List.flatMap_cons,List.length_append,List.length_append]
    by_cases hq : q = p
    · rw [hq,Function.update_self,List.count_cons_self,Nat.add_mul,Nat.add_mul]
      omega
    · rw [Function.update_of_ne hq,List.count_cons_of_ne hq]
      omega

/-- A text is kept if a piece of it is replaced by itself, or does not occur, and not otherwise. -/
lemma flatMap_update_eq_iff {p : Piece} :
    ps.flatMap (Function.update f p value) = ps.flatMap f ↔ ps.count p = 0 ∨ value = f p := by
  constructor
  · intro heq
    by_contra hne
    rw [not_or,List.count_eq_zero,not_not] at hne
    obtain ⟨hmem,hne⟩ := hne
    have hlength := length_flatMap_update p f value ps
    rw [heq,Nat.add_left_cancel_iff] at hlength
    have hsize := Nat.eq_of_mul_eq_mul_left (List.count_pos_iff.mpr hmem) hlength
    obtain ⟨before,after,rfl,hbefore⟩ := List.eq_append_cons_of_mem hmem
    rw [List.flatMap_append,List.flatMap_append,List.flatMap_cons,List.flatMap_cons,
      flatMap_update_of_notMem hbefore,Function.update_self] at heq
    exact hne (List.append_inj (List.append_cancel_left heq) hsize.symm).1
  · rintro (hcount | rfl)
    · exact flatMap_update_of_notMem (List.count_eq_zero.mp hcount) f value
    · rw [Function.update_eq_self]

/-- What is put in for the pieces of a list, apart from one that is left as it is, has at least its occurrences. -/
lemma count_le (h : IsPlain name) (hf : f (.mark name) = (Piece.mark name).source) (ps : List Piece) :
    ps.count (.mark name) ≤ (pieces (ps.flatMap f)).count (.mark name) := by
  induction ps using occurrence_induction (p := .mark name) with
  | none ps hps => simp [List.count_eq_zero.mpr hps]
  | some before after hbefore ih =>
    rw [List.flatMap_append,List.flatMap_cons,hf,pieces_append_mark h,List.count_append,List.count_append,
      List.count_cons_self,List.count_cons_self,List.count_eq_zero.mpr hbefore]
    omega

/-- A piece that was left as it is, while others were put in, is put in as it would have been with them exactly if
they did not bring it in anew, or it is put in as itself. -/
theorem flatMap_pieces_eq_iff (h : IsPlain name) (hf : f (.mark name) = (Piece.mark name).source)
    (value : List Char) (ps : List Piece) :
    (pieces (ps.flatMap f)).flatMap (Function.update Piece.source (.mark name) value) =
      ps.flatMap (Function.update f (.mark name) value) ↔
    (pieces (ps.flatMap f)).count (.mark name) = ps.count (.mark name) ∨ value = (Piece.mark name).source := by
  induction ps using occurrence_induction (p := .mark name) with
  | none ps hps =>
    have hself := source_pieces (ps.flatMap f)
    rw [flatMap_update_of_notMem hps,List.count_eq_zero.mpr hps,← flatMap_update_eq_iff,hself]
  | some before after hbefore ih =>
    have hpieces : pieces ((before ++ .mark name :: after).flatMap f) =
        pieces (before.flatMap f) ++ .mark name :: pieces (after.flatMap f) := by
      rw [List.flatMap_append,List.flatMap_cons,hf,pieces_append_mark h]
    have hblock : (pieces (before.flatMap f)).flatMap (Function.update Piece.source (.mark name) value) =
        before.flatMap f ↔ (pieces (before.flatMap f)).count (.mark name) = 0 ∨ value = (Piece.mark name).source := by
      rw [← flatMap_update_eq_iff,source_pieces]
    rw [hpieces]
    simp only [List.flatMap_append,List.flatMap_cons,Function.update_self,List.count_append,List.count_cons_self,
      flatMap_update_of_notMem hbefore,List.count_eq_zero.mpr hbefore]
    constructor
    · intro heq
      have hfront := length_flatMap_update (.mark name) Piece.source value (pieces (before.flatMap f))
      have hback := length_flatMap_update (.mark name) Piece.source value (pieces (after.flatMap f))
      have hgoal := length_flatMap_update (.mark name) f value after
      have hle := count_le h hf after
      have hlength := congrArg List.length heq
      rw [source_pieces] at hfront hback
      rw [hf] at hgoal
      simp only [List.length_append] at hlength
      -- every mark brought in anew would change the length by as much as one of the others
      obtain ⟨further,hfurther⟩ := Nat.exists_eq_add_of_le hle
      rw [hfurther,Nat.add_mul,Nat.add_mul] at hback
      have hmul : ((pieces (before.flatMap f)).count (.mark name) + further) * (Piece.mark name).source.length =
          ((pieces (before.flatMap f)).count (.mark name) + further) * value.length := by
        rw [Nat.add_mul,Nat.add_mul]
        omega
      rcases Nat.eq_zero_or_pos ((pieces (before.flatMap f)).count (.mark name) + further) with hnone | hsome
      · left
        omega
      · have hsize := Nat.eq_of_mul_eq_mul_left hsome hmul
        rw [hsize,Nat.add_right_cancel_iff] at hfront
        obtain ⟨hsame,hrest⟩ := List.append_inj heq hfront
        rcases hblock.mp hsame with hfree | hself
        · exact (ih.mp (List.append_cancel_left hrest)).imp_left fun hcount => by omega
        · exact .inr hself
    · rintro (hcount | rfl)
      · have hle := count_le h hf after
        rw [hblock.mpr (.inl (by omega)),ih.mpr (.inl (by omega))]
      · rw [hblock.mpr (.inr rfl),ih.mpr (.inr rfl)]

end Counting

/-- What is put in for a piece: its value if it is the mark of a name that has one, and else the piece itself. -/
def Piece.filled (es : List (String × String)) : Piece → List Char
  | char c => [c]
  | mark name => ((es.lookup (.ofList name)).map String.toList).getD (mark name).source

/-- A text with values put in at once for the marks of their names. -/
def fill (es : List (String × String)) (text : List Char) : List Char := (pieces text).flatMap (Piece.filled es)

/-- A text with values put in one after another. -/
def inTurn (es : List (String × String)) (text : List Char) : List Char :=
  es.foldl (fun text e => replace (Piece.mark e.1.toList).source e.2.toList text) text

/-- How often a name is marked in a text. -/
def marks (name : String) (text : List Char) : Nat := (pieces text).count (.mark name.toList)

/-- The values that come first bring no mark of a name into a text, or the value of that name is its own mark. -/
def Settles (text : List Char) (before : List (String × String)) (x : String × String) : Prop :=
  marks x.1 (fill before text) = marks x.1 text ∨ x.2.toList = (Piece.mark x.1.toList).source

instance (text : List Char) (before : List (String × String)) (x : String × String) :
    Decidable (Settles text before x) := inferInstanceAs (Decidable (_ ∨ _))

section Filling
variable {text : List Char} {before es : List (String × String)} {x : String × String}

lemma inTurn_append (text : List Char) (before : List (String × String)) (x : String × String) :
    inTurn (before ++ [x]) text = replace (Piece.mark x.1.toList).source x.2.toList (inTurn before text) := by
  rw [inTurn,List.foldl_append]
  rfl

lemma defaultHost_cons (s : Server) (rest : List Server) : Expression.defaultHost (s :: rest) =
    some (.ofList (inTurn s.defaults.entries s.url.toList)) := by
  have hfold : ∀ (es : List (String × String)) (url : String),
      es.foldl (fun url (e : String × String) =>
        .ofList (replace ('{' :: e.1.toList ++ ['}']) e.2.toList url.toList)) url =
      String.ofList (inTurn es url.toList) := by
    intro es
    induction es with
    | nil => exact fun url => String.ofList_toList.symm
    | cons e es ih =>
      intro url
      rw [List.foldl_cons,ih,String.toList_ofList]
      rfl
  exact congrArg some (hfold _ _)

/-- One more value is put in for the mark of its name. -/
lemma filled_append (hnew : x.1 ∉ before.map (·.1)) : Piece.filled (before ++ [x]) =
    Function.update (Piece.filled before) (.mark x.1.toList) x.2.toList := by
  funext p
  cases p with
  | char c => rw [Function.update_of_ne (by simp)]; rfl
  | mark name =>
    by_cases heq : name = x.1.toList
    · rw [heq,Function.update_self]
      simp [Piece.filled,List.lookup_append,Keyed.lookup_eq_none_of_new hnew,Dict.lookup_cons]
    · have hne : String.ofList name ≠ x.1 := by simpa [← String.toList_inj] using heq
      rw [Function.update_of_ne (by simpa using heq)]
      simp [Piece.filled,List.lookup_append,Dict.lookup_cons,hne]

/-- One step: to put in the next value is to have put it in at once with those before exactly if they settle it. -/
theorem replace_fill_eq_iff (hplain : IsPlain x.1.toList) (hnew : x.1 ∉ before.map (·.1)) (text : List Char) :
    replace (Piece.mark x.1.toList).source x.2.toList (fill before text) = fill (before ++ [x]) text ↔
      Settles text before x := by
  have hself : Piece.filled before (.mark x.1.toList) = (Piece.mark x.1.toList).source := by
    simp [Piece.filled,Keyed.lookup_eq_none_of_new hnew]
  rw [replace_eq hplain,fill,fill,filled_append hnew]
  exact flatMap_pieces_eq_iff hplain hself x.2.toList (pieces text)

/-- A run: at every step the text is what the values so far give at once exactly if each step is settled. -/
theorem inTurn_eq_fill_iff (hplain : ∀ x ∈ es, IsPlain x.1.toList) (hnodup : (es.map (·.1)).Nodup)
    (text : List Char) : (∀ before, before <+: es → inTurn before text = fill before text) ↔
      ∀ before x after, es = before ++ x :: after → Settles text before x := by
  have hnew : ∀ before x after, es = before ++ x :: after → x.1 ∉ before.map (·.1) := by
    rintro before x after rfl hmem
    rw [List.map_append,List.map_cons] at hnodup
    exact (List.disjoint_of_nodup_append hnodup) hmem List.mem_cons_self
  constructor
  · intro hsteps before x after hsplit
    have hthen : before ++ [x] <+: es := ⟨after,by simp [hsplit]⟩
    rw [← replace_fill_eq_iff (hplain x (by simp [hsplit])) (hnew before x after hsplit),
      ← hsteps before ⟨x :: after,hsplit.symm⟩,← inTurn_append,hsteps _ hthen]
  · intro hsettles before
    induction before using List.reverseRecOn with
    | nil =>
      intro _
      have hnone : Piece.filled [] = Piece.source := by
        funext p
        cases p <;> rfl
      rw [fill,hnone,source_pieces]
      rfl
    | append_singleton before x ih =>
      rintro ⟨after,hsplit⟩
      rw [List.append_assoc,List.singleton_append] at hsplit
      rw [inTurn_append,ih ⟨x :: after,hsplit⟩]
      exact (replace_fill_eq_iff (hplain x (by simp [← hsplit])) (hnew before x after hsplit.symm) text).mpr
        (hsettles before x after hsplit.symm)

/-- Values without an opening brace bring no mark into a text in which every opening brace belongs to one. -/
lemma marks_fill {name : String} (hvalues : ∀ x ∈ before, '{' ∉ x.2.toList) (hnew : name ∉ before.map (·.1))
    (htext : .char '{' ∉ pieces text) : marks name (fill before text) = marks name text := by
  induction text using pieces_induction with
  | nil => rfl
  | char c text hchar ih =>
    rw [hchar,List.mem_cons,not_or] at htext
    have hpieces : pieces (fill before (c :: text)) = .char c :: pieces (fill before text) := by
      rw [fill,hchar,List.flatMap_cons]
      exact push_of_ne (fun heq => htext.1 (heq ▸ rfl)) _
    rw [marks,marks,hpieces,hchar,List.count_cons_of_ne (by simp),List.count_cons_of_ne (by simp)]
    exact ih htext.2
  | mark other text hplain ih =>
    rw [pieces_mark hplain,List.mem_cons,not_or] at htext
    rw [marks,marks,fill,pieces_mark hplain,List.flatMap_cons]
    cases hvalue : before.lookup (.ofList other) with
    | none =>
      have hself : Piece.filled before (.mark other) = (Piece.mark other).source := by
        simp [Piece.filled,hvalue]
      rw [hself,pieces_mark hplain,List.count_cons,List.count_cons]
      exact congrArg (· + _) (ih htext.2)
    | some value =>
      have hmem := Keyed.mem_of_lookup hvalue
      have hother : Piece.mark other ≠ .mark name.toList := by
        intro heq
        rw [Piece.mark.inj heq,String.ofList_toList] at hmem
        exact hnew (List.mem_map.mpr ⟨_,hmem,rfl⟩)
      have hself : Piece.filled before (.mark other) = value.toList := by simp [Piece.filled,hvalue]
      have hchars : (value.toList.map Piece.char).count (.mark name.toList) = 0 :=
        List.count_eq_zero.mpr (by simp)
      rw [hself,pieces_append_of_notMem (hvalues _ hmem),List.count_append,hchars,Nat.zero_add,
        List.count_cons_of_ne hother]
      exact ih htext.2

/-- What values give at once does not depend on their order. -/
lemma fill_perm {es' : List (String × String)} (hnodup : (es.map (·.1)).Nodup) (h : es.Perm es') (text : List Char) :
    fill es text = fill es' text := by
  have hfilled : Piece.filled es = Piece.filled es' := by
    funext p
    cases p with
    | char c => rfl
    | mark name => simp only [Piece.filled,Keyed.lookup_perm hnodup h]
  rw [fill,fill,hfilled]

/-- Values without an opening brace can be put in one after another in every order. -/
lemma inTurn_eq_fill (hplain : ∀ x ∈ es, IsPlain x.1.toList) (hnodup : (es.map (·.1)).Nodup)
    (hvalues : ∀ x ∈ es, '{' ∉ x.2.toList) (htext : .char '{' ∉ pieces text) : inTurn es text = fill es text := by
  refine (inTurn_eq_fill_iff hplain hnodup text).mpr (fun before x after hsplit => ?_) es (List.prefix_refl es)
  subst hsplit
  refine .inl (marks_fill (fun y hy => hvalues y (List.mem_append_left _ hy)) (fun hmem => ?_) htext)
  rw [List.map_append,List.map_cons] at hnodup
  exact (List.disjoint_of_nodup_append hnodup) hmem List.mem_cons_self

end Filling

/-- The default host is the URL of the first server with the defaults of its variables put in one after another. In
whatever order this is done, the text is at every step what the defaults so far give at once exactly if those before
a variable bring no further mark of it into the URL, or its default is its own mark. This is exact for all steps
together; of the default host itself, the text after the last step, it is a sufficient condition only. What all of the
defaults give at once does not depend on the order, and it is the default host, in every order, if no default has an
opening brace and the URL has none but those of its marks. -/
theorem host_filled_iff (s : Server) (rest : List Server) (hnames : ∀ name ∈ s.defaults.keys, IsPlain name.toList) :
    Expression.defaultHost (s :: rest) = some (.ofList (inTurn s.defaults.entries s.url.toList)) ∧
    ∀ es, es.Perm s.defaults.entries →
      fill es s.url.toList = fill s.defaults.entries s.url.toList ∧
      ((∀ before, before <+: es → inTurn before s.url.toList = fill before s.url.toList) ↔
        ∀ before x after, es = before ++ x :: after → Settles s.url.toList before x) ∧
      ((∀ value ∈ s.defaults.values, '{' ∉ value.toList) → .char '{' ∉ pieces s.url.toList →
        inTurn es s.url.toList = fill s.defaults.entries s.url.toList) := by
  refine ⟨defaultHost_cons s rest,fun es hperm => ?_⟩
  have hkeys : (s.defaults.entries.map (·.1)).Nodup := s.defaults.nodup_keys
  have hnodup : (es.map (·.1)).Nodup := (hperm.map (·.1)).nodup_iff.mpr hkeys
  have hplain : ∀ x ∈ es, IsPlain x.1.toList :=
    fun x hx => hnames x.1 (List.mem_map_of_mem (hperm.mem_iff.mp hx))
  have hfill := fill_perm hnodup hperm s.url.toList
  refine ⟨hfill,inTurn_eq_fill_iff hplain hnodup s.url.toList,fun hvalues htext => ?_⟩
  rw [← hfill]
  exact inTurn_eq_fill hplain hnodup
    (fun x hx => hvalues x.2 (List.mem_map_of_mem (hperm.mem_iff.mp hx))) htext

/-- A later step can undo what an earlier one did: the second default is put in for a mark that the first one brought
in, and the third brings this mark back. -/
example :
    let es := [("a","\x7bb\x7d"), ("b","\x7bc\x7d"), ("c","\x7bb\x7d")]
    ¬Settles "\x7ba\x7d".toList [("a","\x7bb\x7d")] ("b","\x7bc\x7d") ∧
      inTurn es "\x7ba\x7d".toList = fill es "\x7ba\x7d".toList := by decide +kernel

/-- A server with a default that is the mark of another variable. -/
def chainedServer : Server where
  url := "https://\x7ba\x7d.x/\x7bb\x7d"
  defaults := .ofList [("a","\x7bb\x7d"), ("b","v")]

/-- The mark that the first default brings in is taken for a variable; in the other order it is left alone. -/
theorem host_filled_iff_chained : (∀ name ∈ chainedServer.defaults.keys, IsPlain name.toList) ∧
    Expression.defaultHost [chainedServer] = some "https://v.x/v" ∧
    fill chainedServer.defaults.entries chainedServer.url.toList = "https://\x7bb\x7d.x/v".toList ∧
    ¬Settles chainedServer.url.toList [("a","\x7bb\x7d")] ("b","v") ∧
    inTurn [("b","v"), ("a","\x7bb\x7d")] chainedServer.url.toList =
      fill chainedServer.defaults.entries chainedServer.url.toList := by
  have hnames : ∀ name ∈ chainedServer.defaults.keys, IsPlain name.toList := by decide +kernel
  obtain ⟨hhost,horders⟩ := host_filled_iff chainedServer [] hnames
  have hperm : [("b","v"), ("a","\x7bb\x7d")].Perm chainedServer.defaults.entries := List.Perm.swap _ _ _
  obtain ⟨hfill,hsteps,-⟩ := horders _ hperm
  refine ⟨hnames,hhost.trans (by decide +kernel),by decide +kernel,by decide +kernel,?_⟩
  rw [← hfill]
  refine hsteps.mpr (fun before x after hsplit => ?_) _ (List.prefix_refl _)
  rcases before with _ | ⟨y,_ | ⟨z,before⟩⟩
  · cases hsplit
    decide +kernel
  · cases hsplit
    decide +kernel
  · simp at hsplit

end ActionCatalog.Variables
