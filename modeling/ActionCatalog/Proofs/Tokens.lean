import ActionCatalog.PathTemplate
import Mathlib.Data.List.TakeWhile

/-! The grammar of tokens, and how the parts of a path are found. Main statement: a path is gone through from left to
right, behind each token from its end, and else by one character. -/
namespace ActionCatalog.PathTemplate

/-- A brace that opens, and the next brace after it, which closes and does not follow at once. -/
structure Braces (text before inside after : List Char) : Prop where
  layout : text = before ++ '{' :: (inside ++ '}' :: after)
  filled : inside ≠ []
  plain : '{' ∉ inside ∧ '}' ∉ inside

/-- A name with what may stand in front of it: an operator, unless it is all there is. -/
def Named (body name : List Char) : Prop :=
  (∃ operator ∈ ['.',';','?'], name ≠ [] ∧ body = operator :: name) ∨
    body = name ∧ ∀ operator ∈ ['.',';','?'], ∀ rest, body = operator :: rest → rest = []

/-- What stands between two braces, as a name: there is something in it besides an asterisk at the end, and no other
asterisk. -/
def Reads (inside name : List Char) : Prop :=
  ∃ body, (inside = body ∨ inside = body ++ ['*']) ∧ body ≠ [] ∧ '*' ∉ body ∧ Named body name

variable {text inside before after name body : List Char} {c : Char}

section Grammar

lemma isBrace_iff : isBrace c ↔ c = '{' ∨ c = '}' := by simp [isBrace]

lemma dropOperator_eq_iff : dropOperator body = name ↔ Named body name := by
  match body with
  | [] => simp [dropOperator,Named]
  | [c] =>
    constructor
    · rintro rfl
      simp [Named,dropOperator]
    · rintro (⟨operator,-,hne,heq⟩ | ⟨heq,-⟩)
      · exact absurd (List.cons.inj heq).2.symm hne
      · exact heq
  | c :: d :: rest =>
    rw [dropOperator]
    split
    · rename_i hc
      constructor
      · rintro rfl
        exact .inl ⟨c,hc,by simp,rfl⟩
      · rintro (⟨operator,-,-,heq⟩ | ⟨-,hnone⟩)
        · exact (List.cons.inj heq).2
        · exact absurd (hnone c hc _ rfl) (by simp)
    · rename_i hc
      constructor
      · rintro rfl
        refine .inr ⟨rfl,?_⟩
        intro operator hoperator rest heq
        rw [(List.cons.inj heq).1] at hc
        exact absurd hoperator hc
      · rintro (⟨operator,hoperator,-,heq⟩ | ⟨heq,-⟩)
        · rw [(List.cons.inj heq).1] at hc
          exact absurd hoperator hc
        · exact heq

lemma dropExplode_concat : dropExplode (body ++ ['*']) = body := by simp [dropExplode]

lemma dropExplode_of_notMem (h : '*' ∉ body) : dropExplode body = body := by
  rw [dropExplode,if_neg]
  intro hlast
  exact h (List.mem_of_getLast? hlast)

/-- Only the asterisk at the end is dropped. -/
lemma eq_of_dropExplode (h : dropExplode inside = body) : inside = body ∨ inside = body ++ ['*'] := by
  rw [dropExplode] at h
  split at h
  · rename_i hlast
    obtain ⟨front,rfl⟩ := List.getLast?_eq_some_iff.mp hlast
    rw [List.dropLast_concat] at h
    exact .inr (by rw [h])
  · exact .inl h

lemma name?_eq_some_iff : name? inside = some name ↔ Reads inside name := by
  unfold name?
  constructor
  · intro h
    simp only [Option.ite_none_left_eq_some] at h
    obtain ⟨hbody,hname⟩ := h
    rw [Bool.or_eq_true,not_or,List.isEmpty_iff,decide_eq_true_iff] at hbody
    refine ⟨dropExplode inside,eq_of_dropExplode rfl,hbody.1,hbody.2,?_⟩
    exact dropOperator_eq_iff.mp (Option.some.inj hname)
  · rintro ⟨body,hinside,hne,hstar,hnamed⟩
    have hbody : dropExplode inside = body := by
      rcases hinside with rfl | rfl
      · exact dropExplode_of_notMem hstar
      · exact dropExplode_concat
    simp [hbody,hne,hstar,dropOperator_eq_iff.mpr hnamed]

lemma Reads.unique {name' : List Char} (h : Reads inside name) (h' : Reads inside name') : name = name' := by
  rw [← name?_eq_some_iff] at h h'
  exact Option.some.inj (h.symm.trans h')

lemma Reads.ne_nil (h : Reads inside name) : inside ≠ [] := by
  obtain ⟨body,rfl | rfl,hne,-,-⟩ := h
  · exact hne
  · simp

end Grammar

section Braces

/-- There is one way only to find the next brace that closes. -/
lemma inside_unique {inside' after' : List Char} (h : '}' ∉ inside) (h' : '}' ∉ inside')
    (heq : inside ++ '}' :: after = inside' ++ '}' :: after') : inside = inside' ∧ after = after' := by
  rcases List.append_eq_append_iff.mp heq with ⟨between,hinside,hafter⟩ | ⟨between,hinside,hafter⟩
  · cases between with
    | nil => simp_all
    | cons c between =>
      cases hafter
      simp [hinside] at h'
  · cases between with
    | nil => simp_all
    | cons c between =>
      cases hafter
      simp [hinside] at h

lemma Braces.append (front : List Char) (h : Braces text before inside after) :
    Braces (front ++ text) (front ++ before) inside after := by
  refine ⟨?_,h.filled,h.plain⟩
  rw [h.layout,List.append_assoc]

lemma Braces.of_cons {d : Char} (h : Braces (c :: text) (d :: before) inside after) :
    c = d ∧ Braces text before inside after := by
  obtain ⟨rfl,hlayout⟩ := List.cons.inj h.layout
  exact ⟨rfl,hlayout,h.filled,h.plain⟩

/-- No pair of braces starts where there is no brace that opens. -/
lemma Braces.of_append {front : List Char} (hfront : '{' ∉ front) (h : Braces (front ++ text) before inside after) :
    ∃ between, before = front ++ between ∧ Braces text between inside after := by
  rcases List.append_eq_append_iff.mp h.layout with ⟨between,hbefore,htext⟩ | ⟨between,hfronteq,htext⟩
  · exact ⟨between,hbefore,htext,h.filled,h.plain⟩
  · cases between with
    | nil =>
      rw [List.append_nil] at hfronteq
      exact ⟨[],by rw [hfronteq,List.append_nil],htext.symm,h.filled,h.plain⟩
    | cons c between =>
      obtain ⟨rfl,-⟩ := List.cons.inj htext
      simp [hfronteq] at hfront

lemma takeWhile_plain (h : '{' ∉ inside ∧ '}' ∉ inside) :
    (inside ++ '}' :: after).takeWhile (!isBrace ·) = inside := by
  rw [List.takeWhile_append_of_pos,List.takeWhile_cons_of_neg (by decide),List.append_nil]
  intro c hc
  rw [Bool.not_eq_true',Bool.eq_false_iff,ne_eq,isBrace_iff]
  rintro (rfl | rfl)
  · exact h.1 hc
  · exact h.2 hc

lemma Braces.token?_eq (h : Braces text [] inside after) :
    token? text = (name? inside).map (.token ('{' :: inside ++ ['}'])) := by
  have hlayout := h.layout
  rw [List.nil_append] at hlayout
  rw [hlayout,token?,takeWhile_plain h.plain]
  simp

lemma exists_of_token? {p : Part} (h : token? text = some p) : ∃ inside after name,
    Braces text [] inside after ∧ Reads inside name ∧ p = .token ('{' :: inside ++ ['}']) name := by
  unfold token? at h
  split at h
  · rename_i rest
    dsimp only at h
    split at h
    · rename_i hclosed
      obtain ⟨name,hname,rfl⟩ := Option.map_eq_some_iff.mp h
      have hreads := name?_eq_some_iff.mp hname
      obtain ⟨after,hafter⟩ := List.head?_eq_some_iff.mp hclosed
      refine ⟨rest.takeWhile (!isBrace ·),after,name,⟨?_,hreads.ne_nil,?_,?_⟩,hreads,rfl⟩
      · have hrest := List.take_append_drop (rest.takeWhile (!isBrace ·)).length rest
        rw [hafter,← List.prefix_iff_eq_take.mp (List.takeWhile_prefix _)] at hrest
        rw [List.nil_append,hrest]
      · intro hbrace
        exact absurd (List.mem_takeWhile_imp hbrace) (by decide)
      · intro hbrace
        exact absurd (List.mem_takeWhile_imp hbrace) (by decide)
    · cases h
  · cases h

/-- Pairs of braces with a name are behind a character that no token starts with. -/
lemma Braces.char_iff (hnone : token? (c :: text) = none) (hreads : Reads inside name) :
    Braces (c :: text) before inside after ↔ ∃ between, before = c :: between ∧ Braces text between inside after := by
  constructor
  · intro h
    cases before with
    | nil =>
      rw [h.token?_eq,name?_eq_some_iff.mpr hreads] at hnone
      cases hnone
    | cons d between =>
      obtain ⟨rfl,hrest⟩ := h.of_cons
      exact ⟨between,rfl,hrest⟩
  · rintro ⟨between,rfl,h⟩
    exact h.append [c]

/-- A pair of braces that a text starts with is its first one, and all others are behind it. -/
lemma Braces.first_iff {found rest : List Char} (hfirst : Braces text [] found rest) :
    Braces text before inside after ↔ before = [] ∧ inside = found ∧ after = rest ∨
      ∃ between, before = '{' :: found ++ ['}'] ++ between ∧ Braces rest between inside after := by
  have hlayout : text = '{' :: (found ++ ['}'] ++ rest) := by simp [hfirst.layout]
  constructor
  · intro h
    cases before with
    | nil =>
      have heq := hfirst.layout.symm.trans h.layout
      obtain ⟨rfl,rfl⟩ := inside_unique hfirst.plain.2 h.plain.2 (List.cons.inj heq).2
      exact .inl ⟨rfl,rfl,rfl⟩
    | cons d before =>
      rw [hlayout] at h
      obtain ⟨rfl,hclosed⟩ := h.of_cons
      have hfront : '{' ∉ found ++ ['}'] := by simp [hfirst.plain.1]
      obtain ⟨between,rfl,hrest⟩ := Braces.of_append hfront hclosed
      exact .inr ⟨between,rfl,hrest⟩
  · rintro (⟨rfl,rfl,rfl⟩ | ⟨between,rfl,h⟩)
    · exact hfirst
    · rw [hlayout]
      exact h.append ('{' :: found ++ ['}'])

end Braces

section Scans

lemma scan_skip (k : Nat) (text : List Char) : scan k text = scan 0 (text.drop k) := by
  induction text generalizing k with
  | nil => simp [scan]
  | cons c rest ih =>
    cases k with
    | zero => rfl
    | succ k => rw [scan,ih,List.drop_succ_cons]

/-- The parts of a text, each with the reason why it is one. -/
inductive Scans : List Char → List Part → Prop
  | nil : Scans [] []
  | char {c : Char} {rest : List Char} {ps : List Part} (none : token? (c :: rest) = none) (next : Scans rest ps) :
      Scans (c :: rest) (.char c :: ps)
  | token {text inside rest name : List Char} {ps : List Part} (braces : Braces text [] inside rest)
      (reads : Reads inside name) (next : Scans rest ps) : Scans text (.token ('{' :: inside ++ ['}']) name :: ps)

/-- The parts of a text are found by going on behind each token, and else by one character. -/
lemma scans_scan (text : List Char) : Scans text (scan 0 text) := by
  match text with
  | [] =>
    rw [scan]
    exact .nil
  | c :: rest =>
    rw [scan]
    cases htoken : token? (c :: rest) with
    | none => exact .char htoken (scans_scan rest)
    | some p =>
      obtain ⟨inside,after,name,hbraces,hreads,rfl⟩ := exists_of_token? htoken
      have hdrop : rest.drop (('{' :: inside ++ ['}']).length - 1) = after := by
        have hlayout := hbraces.layout
        cases hlayout
        simp
      dsimp only
      rw [scan_skip,hdrop]
      exact .token hbraces hreads (scans_scan after)
termination_by text.length
decreasing_by
  · simp
  · have hlength := congrArg List.length hbraces.layout
    simp only [List.nil_append,List.length_cons,List.length_append] at hlength ⊢
    omega

end Scans

end ActionCatalog.PathTemplate
