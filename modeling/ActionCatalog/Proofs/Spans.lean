import ActionCatalog.Proofs.Pattern
import ActionCatalog.Proofs.Tokens

/-! Where the tokens of a path stand. Main statement: they stand exactly at the pairs of braces with a name between
them, from left to right, they divide the path into themselves and the gaps between them, and they are what a search
for their pattern finds. -/
namespace ActionCatalog.PathTemplate
variable {text inside before after name body : List Char}

section Spans
variable {ps : List Part}

lemma width_source (inside : List Char) : Text.width ('{' :: inside ++ ['}']) = Text.width inside + 2 := by
  have hopen : '{'.utf8Size = 1 := by decide
  have hclose : '}'.utf8Size = 1 := by decide
  simp only [Text.width_append,Text.width,hopen,hclose]
  omega

lemma spansFrom_token (start : Nat) (inside name : List Char) (ps : List Part) :
    spansFrom start (.token ('{' :: inside ++ ['}']) name :: ps) =
      (start,start + Text.width inside + 2,.ofList name) :: spansFrom (start + Text.width inside + 2) ps := by
  have hwidth : start + Text.width ('{' :: inside ++ ['}']) = start + Text.width inside + 2 := by
    rw [width_source,Nat.add_assoc]
  rw [← hwidth]
  rfl

/-- Tokens stand exactly at the pairs of braces with a name between them. -/
lemma mem_spansFrom_iff (h : Scans text ps) (start : Nat) {first stop : Nat} {name : String} :
    (first,stop,name) ∈ spansFrom start ps ↔ ∃ before inside after, Braces text before inside after ∧
      Reads inside name.toList ∧ first = start + Text.width before ∧ stop = first + Text.width inside + 2 := by
  induction h generalizing start with
  | nil =>
    constructor
    · intro hmem
      cases hmem
    · rintro ⟨before,inside,after,hbraces,-⟩
      have hlayout := hbraces.layout
      simp at hlayout
  | @char c rest ps none next ih =>
    have hspans : spansFrom start (.char c :: ps) = spansFrom (start + c.utf8Size) ps := rfl
    rw [hspans,ih]
    constructor
    · rintro ⟨between,inside,after,hbraces,hreads,hfirst,hstop⟩
      refine ⟨c :: between,inside,after,(Braces.char_iff none hreads).mpr ⟨between,rfl,hbraces⟩,hreads,?_,hstop⟩
      rw [hfirst,Text.width,Nat.add_assoc]
    · rintro ⟨before,inside,after,hbraces,hreads,hfirst,hstop⟩
      obtain ⟨between,rfl,hrest⟩ := (Braces.char_iff none hreads).mp hbraces
      refine ⟨between,inside,after,hrest,hreads,?_,hstop⟩
      rw [hfirst,Text.width,Nat.add_assoc]
  | @token text found rest title ps braces reads next ih =>
    rw [spansFrom_token,List.mem_cons,ih]
    constructor
    · rintro (heq | ⟨between,inside,after,hbraces,hreads,hfirst,hstop⟩)
      · cases heq
        exact ⟨[],found,rest,braces,by rwa [String.toList_ofList],rfl,rfl⟩
      · refine ⟨_,inside,after,braces.first_iff.mpr (.inr ⟨between,rfl,hbraces⟩),hreads,?_,hstop⟩
        rw [hfirst,Text.width_append,width_source]
        omega
    · rintro ⟨before,inside,after,hbraces,hreads,hfirst,hstop⟩
      rcases braces.first_iff.mp hbraces with ⟨rfl,rfl,rfl⟩ | ⟨between,rfl,hrest⟩
      · left
        have hname : name = .ofList title := by rw [reads.unique hreads,String.ofList_toList]
        simp [hfirst,hstop,hname,Text.width]
      · right
        refine ⟨between,inside,after,hrest,hreads,?_,hstop⟩
        rw [hfirst,Text.width_append,width_source]
        omega

/-- A text as a row of gaps and tokens, the bytes counted from a start. -/
inductive Divided : Nat → List (Nat × Nat × String) → List Char → Prop
  | last (start : Nat) (gap : List Char) : Divided start [] gap
  | next {first stop : Nat} {spans : List (Nat × Nat × String)} {rest : List Char} (start : Nat)
      (gap inside : List Char) (name : String) (reads : Reads inside name.toList)
      (first_eq : first = start + (String.ofList gap).utf8ByteSize)
      (stop_eq : stop = first + (String.ofList ('{' :: inside ++ ['}'])).utf8ByteSize)
      (behind : Divided stop spans rest) :
      Divided start ((first,stop,name) :: spans) (gap ++ ('{' :: inside ++ ['}']) ++ rest)

lemma names_spansFrom (start : Nat) (ps : List Part) : (spansFrom start ps).map (·.2.2) = ps.filterMap Part.name? := by
  induction ps generalizing start with
  | nil => rfl
  | cons p ps ih =>
    rw [spansFrom,List.filterMap_cons]
    cases p.name? <;> simp [ih]

/-- Characters that are no token join the gap before them. -/
lemma divided_spansFrom (h : Scans text ps) (start : Nat) (gap : List Char) :
    Divided start (spansFrom (start + Text.width gap) ps) (gap ++ text) := by
  induction h generalizing start gap with
  | nil => exact .last start _
  | @char c rest ps none next ih =>
    have hspans : spansFrom (start + Text.width gap) (.char c :: ps) =
        spansFrom (start + Text.width (gap ++ [c])) ps := by
      rw [Text.width_append,← Nat.add_assoc]
      rfl
    rw [hspans,List.append_cons gap c rest]
    exact ih start (gap ++ [c])
  | @token text inside rest name ps braces reads next ih =>
    have hlayout : gap ++ text = gap ++ ('{' :: inside ++ ['}']) ++ rest := by simp [braces.layout]
    rw [spansFrom_token,hlayout]
    apply Divided.next start gap inside
    · rwa [String.toList_ofList]
    · rw [Text.width_eq]
    · rw [← Text.width_eq,width_source,Nat.add_assoc]
    · exact ih _ []

/-- In a row of gaps and tokens, no token is empty, and each starts where the one before it stops or behind it. -/
lemma Divided.ascending {start : Nat} {spans : List (Nat × Nat × String)} (h : Divided start spans text) :
    (∀ span ∈ spans, start ≤ span.1 ∧ span.1 < span.2.1) ∧ spans.Pairwise fun a b => a.2.1 ≤ b.1 := by
  induction h with
  | last => simp
  | @next first stop spans rest start gap inside name reads first_eq stop_eq behind ih =>
    rw [← Text.width_eq] at first_eq
    rw [← Text.width_eq,width_source] at stop_eq
    constructor
    · rw [List.forall_mem_cons]
      refine ⟨by dsimp only; omega,?_⟩
      intro span hspan
      have hbehind := ih.1 span hspan
      omega
    · rw [List.pairwise_cons]
      exact ⟨fun span hspan => (ih.1 span hspan).1,ih.2⟩

end Spans

section Search
open Pattern

def isPlain (c : Char) : Bool := c ∉ ['{','}','*']

lemma forall_isPlain_iff : (∀ c ∈ body, isPlain c) ↔ '{' ∉ body ∧ '}' ∉ body ∧ '*' ∉ body := by
  simp only [isPlain,decide_eq_true_eq,List.mem_cons,List.not_mem_nil,or_false,not_or]
  grind

/-- What may follow a name. -/
def nameEnd : List Piece := [⟨.optional,(· = '*')⟩,⟨.once,(· = '}')⟩]

/-- What may follow a brace that opens. -/
def insidePattern : List Piece := ⟨.optional,(· ∈ ['.',';','?'])⟩ :: ⟨.repeated,isPlain⟩ :: nameEnd

/-- The pattern of a token: a brace that opens, an operator or none, the name, an asterisk or none, and a brace that
closes. -/
def tokenPattern : List Piece := ⟨.once,(· = '{')⟩ :: insidePattern

/-- Where an occurrence of the pattern stands, with the name in it. -/
def spanOf (found : Nat × List (List Char)) : Nat × Nat × String :=
  (found.1,found.1 + Text.width found.2.flatten,.ofList (found.2.getD 2 []))

/-- A name does not end before a character that may stand in it. -/
lemma fit?_nameEnd_of_plain (c : Char) (rest : List Char) (h : isPlain c) : fit? nameEnd (c :: rest) = none := by
  have hc : c ∉ ['{','}','*'] := of_decide_eq_true h
  simp only [List.mem_cons,not_or] at hc
  simp [nameEnd,fit?_optional,fit?_once,hc]

lemma fit?_nameEnd {explode : List Char} (h : explode = [] ∨ explode = ['*']) (rest : List Char) :
    fit? nameEnd (explode ++ '}' :: rest) = some [explode,['}']] := by
  rcases h with rfl | rfl <;> simp [nameEnd,fit?_optional,fit?_once]

lemma fit?_name {explode : List Char} (hplain : ∀ c ∈ name, isPlain c) (h : explode = [] ∨ explode = ['*'])
    (rest : List Char) : fit? (⟨.repeated,isPlain⟩ :: nameEnd) (name ++ (explode ++ '}' :: rest)) =
      if name = [] then none else some [name,explode,['}']] := by
  have hend : (explode ++ '}' :: rest).takeWhile isPlain = [] ∧
      (explode ++ '}' :: rest).dropWhile isPlain = explode ++ '}' :: rest := by
    rcases h with rfl | rfl <;> simp [isPlain]
  rw [fit?_repeated fit?_nameEnd_of_plain,List.takeWhile_append_of_pos hplain,List.dropWhile_append_of_pos hplain,
    hend.1,hend.2,fit?_nameEnd h,List.append_nil]
  rfl

/-- The operator is left out of the name unless nothing would be left of it. -/
lemma exists_fit?_inside {explode : List Char} (hne : body ≠ []) (hplain : ∀ c ∈ body, isPlain c)
    (hexplode : explode = [] ∨ explode = ['*']) (hnamed : Named body name) (rest : List Char) :
    ∃ operator, operator ++ name = body ∧
      fit? insidePattern (body ++ (explode ++ '}' :: rest)) = some [operator,name,explode,['}']] := by
  rcases hnamed with ⟨c,hc,hname,rfl⟩ | ⟨rfl,hnone⟩
  · rw [List.forall_mem_cons] at hplain
    have hfit := fit?_name hplain.2 hexplode rest
    rw [if_neg hname] at hfit
    refine ⟨[c],rfl,?_⟩
    rw [insidePattern,List.cons_append,fit?_optional,if_pos (decide_eq_true hc),hfit]
    rfl
  · have hfit := fit?_name hplain hexplode rest
    rw [if_neg hne] at hfit
    refine ⟨[],rfl,?_⟩
    cases body with
    | nil => exact absurd rfl hne
    | cons c others =>
      rw [List.cons_append] at hfit
      rw [insidePattern,List.cons_append,fit?_optional,hfit]
      by_cases hc : c ∈ ['.',';','?']
      · have hothers := hnone c hc others rfl
        subst hothers
        have hfailed := fit?_name (List.forall_mem_nil _) hexplode rest
        rw [if_pos rfl] at hfailed
        rw [if_pos (decide_eq_true hc),hfailed]
        rfl
      · rw [if_neg (by simpa using hc)]
        rfl

/-- A token is found, with its name. -/
lemma exists_fit? (hbraces : Braces text [] inside after) (hreads : Reads inside name) : ∃ taken,
    fit? tokenPattern text = some taken ∧ taken.flatten = '{' :: inside ++ ['}'] ∧ taken.getD 2 [] = name := by
  obtain ⟨body,hinside,hne,hstar,hnamed⟩ := hreads
  obtain ⟨explode,hexplode,rfl⟩ : ∃ explode, (explode = [] ∨ explode = ['*']) ∧ inside = body ++ explode := by
    rcases hinside with rfl | rfl
    · exact ⟨[],.inl rfl,(List.append_nil _).symm⟩
    · exact ⟨['*'],.inr rfl,rfl⟩
  have hplain : ∀ c ∈ body, isPlain c := by
    rw [forall_isPlain_iff]
    refine ⟨?_,?_,hstar⟩ <;> intro hc
    · exact hbraces.plain.1 (List.mem_append_left _ hc)
    · exact hbraces.plain.2 (List.mem_append_left _ hc)
  obtain ⟨operator,rfl,hfit⟩ := exists_fit?_inside hne hplain hexplode hnamed after
  have hlayout : text = '{' :: (operator ++ name ++ (explode ++ '}' :: after)) := by simp [hbraces.layout]
  refine ⟨['{'] :: [operator,name,explode,['}']],?_,by simp,rfl⟩
  rw [hlayout,tokenPattern,fit?_once,if_pos (by decide),hfit]
  rfl

lemma exists_of_takes {taken : List (List Char)} (h : List.Forall₂ Piece.Takes tokenPattern taken) :
    ∃ operator name explode, taken = [['{'],operator,name,explode,['}']] ∧
      (∀ c ∈ operator ++ name, isPlain c) ∧ name ≠ [] ∧ (explode = [] ∨ explode = ['*']) := by
  unfold tokenPattern insidePattern nameEnd at h
  rcases h with _ | ⟨hopen,_ | ⟨hoperator,_ | ⟨hname,_ | ⟨hexplode,_ | ⟨hclose,_ | _⟩⟩⟩⟩⟩
  obtain ⟨c,rfl,hc⟩ := takes_once_iff.mp hopen
  obtain ⟨d,rfl,hd⟩ := takes_once_iff.mp hclose
  obtain ⟨hne,hplain⟩ := takes_repeated_iff.mp hname
  cases of_decide_eq_true hc
  cases of_decide_eq_true hd
  refine ⟨_,_,_,rfl,?_,hne,?_⟩
  · rw [List.forall_mem_append]
    refine ⟨?_,hplain⟩
    rcases takes_optional_iff.mp hoperator with rfl | ⟨c,rfl,hc⟩
    · exact List.forall_mem_nil _
    · have hoperators : ∀ c ∈ ['.',';','?'], isPlain c := by simp [isPlain]
      exact List.forall_mem_singleton.mpr (hoperators c (of_decide_eq_true hc))
  · rcases takes_optional_iff.mp hexplode with rfl | ⟨c,rfl,hc⟩
    · exact .inl rfl
    · exact .inr (by rw [of_decide_eq_true hc])

/-- What fits the pattern is a pair of braces with a name between them. -/
lemma exists_of_fit? {taken : List (List Char)} (h : fit? tokenPattern text = some taken) :
    ∃ inside after name, Braces text [] inside after ∧ Reads inside name := by
  obtain ⟨htakes,after,hafter⟩ := of_fit? h
  obtain ⟨operator,name,explode,rfl,hplain,hne,hexplode⟩ := exists_of_takes htakes
  obtain ⟨hopen,hclose,hstar⟩ := forall_isPlain_iff.mp hplain
  have hbody : operator ++ name ≠ [] := List.append_ne_nil_of_right_ne_nil operator hne
  refine ⟨operator ++ name ++ explode,after,dropOperator (operator ++ name),⟨?_,?_,?_⟩,operator ++ name,?_,hbody,hstar,
    dropOperator_eq_iff.mp rfl⟩
  · rw [← hafter]
    simp
  · exact List.append_ne_nil_of_left_ne_nil hbody explode
  · rcases hexplode with rfl | rfl <;> grind
  · rcases hexplode with rfl | rfl
    · exact .inl (List.append_nil _)
    · exact .inr rfl

lemma search_eq (h : Scans text ps) (start : Nat) :
    (search tokenPattern start 0 text).map spanOf = spansFrom start ps := by
  induction h generalizing start with
  | nil => rfl
  | @char c rest ps none next ih =>
    have hfit : fit? tokenPattern (c :: rest) = .none := by
      rw [Option.eq_none_iff_forall_not_mem]
      intro taken htaken
      obtain ⟨inside,after,name,hbraces,hreads⟩ := exists_of_fit? htaken
      rw [hbraces.token?_eq,name?_eq_some_iff.mpr hreads] at none
      cases none
    rw [search,hfit]
    exact ih _
  | @token text inside rest name ps braces reads next ih =>
    obtain ⟨taken,hfit,hflatten,hname⟩ := exists_fit? braces reads
    have hlayout : text = '{' :: (inside ++ ['}']) ++ rest := by simp [braces.layout]
    rw [hlayout] at hfit ⊢
    rw [search_of_fit hfit hflatten,spansFrom_token,List.map_cons,ih,← List.cons_append,width_source,spanOf,hflatten,
      hname,width_source]
    rfl

end Search

/-- The tokens of a path stand exactly at the pairs of braces between which a name can be read: what is between them,
without an asterisk at its end, is not empty and has no asterisk in it, and the name is what is left of it without an
operator in front. They are told from left to right with the bytes they stand at, do not overlap, and the path is a
row of them and of the gaps between them. They are what a search for their pattern finds. -/
theorem spans_exactly (path : String) :
    (∀ start stop name, (start,stop,name) ∈ spans path ↔ ∃ before inside after,
      Braces path.toList before inside after ∧ Reads inside name.toList ∧
        start = (String.ofList before).utf8ByteSize ∧
        stop = start + (String.ofList ('{' :: inside ++ ['}'])).utf8ByteSize) ∧
    (∀ span ∈ spans path, span.1 < span.2.1) ∧ (spans path).Pairwise (fun a b => a.2.1 ≤ b.1) ∧
    Divided 0 (spans path) path.toList ∧
    spans path = (Pattern.search tokenPattern 0 0 path.toList).map spanOf ∧
    tokens path = (spans path).map (·.2.2) := by
  have hscans := scans_scan path.toList
  have hdivided : Divided 0 (spans path) path.toList := divided_spansFrom hscans 0 []
  refine ⟨?_,fun span hspan => (hdivided.ascending.1 span hspan).2,hdivided.ascending.2,hdivided,
    (search_eq hscans 0).symm,(names_spansFrom 0 _).symm⟩
  intro start stop name
  simp only [spans,parts,mem_spansFrom_iff hscans,← Text.width_eq,width_source,Nat.zero_add,Nat.add_assoc]

/-- The path `/é{a{.b*}}{}{**}{;}/{?c`. -/
def nestedPath : String := "/é\x7ba\x7b.b*\x7d\x7d\x7b\x7d\x7b**\x7d\x7b;\x7d/\x7b?c"

/-- With braces in braces, nothing or only asterisks in braces, a brace that is never closed and a letter of two bytes,
two tokens are left. -/
theorem spans_exactly_nested :
    spans nestedPath = [(5,10,"b"),(17,20,";")] ∧
    (∃ before inside after, Braces nestedPath.toList before inside after ∧ Reads inside "b".toList ∧
      5 = (String.ofList before).utf8ByteSize ∧
      10 = 5 + (String.ofList ('{' :: inside ++ ['}'])).utf8ByteSize) ∧
    (17,20,";") ∈ spans nestedPath ∧ 17 < 20 := by
  have hspans : spans nestedPath = [(5,10,"b"),(17,20,";")] := by decide +kernel
  have hfirst : (5,10,"b") ∈ spans nestedPath := by simp [hspans]
  have hlast : (17,20,";") ∈ spans nestedPath := by simp [hspans]
  obtain ⟨hmem,hfilled,-⟩ := spans_exactly nestedPath
  exact ⟨hspans,(hmem 5 10 "b").mp hfirst,hlast,hfilled (17,20,";") hlast⟩

end ActionCatalog.PathTemplate
