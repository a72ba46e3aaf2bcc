import ActionCatalog.Proofs.Literals
import ActionCatalog.Proofs.Spans
import Mathlib.Data.List.Chain

/-! What a path is written with. Main statement: the terms of a path, each put back into the text it stands for, are
the path; their parameters stand for its declared tokens, and no two literals stand side by side. -/
namespace ActionCatalog
namespace PathTemplate
variable {text inside before after : List Char} {c : Char} {ps : List Part}

/-- A pair of braces is one however the text goes on. -/
lemma Braces.extend (h : Braces text before inside after) (behind : List Char) :
    Braces (text ++ behind) before inside (after ++ behind) := by
  refine ⟨?_,h.filled,h.plain⟩
  rw [h.layout]
  simp

/-- What starts no token does so neither if less follows. -/
lemma token?_eq_none_of_append (text : List Char) {behind : List Char} (h : token? (text ++ behind) = none) :
    token? text = none := by
  rw [Option.eq_none_iff_forall_not_mem]
  intro p hp
  obtain ⟨inside,after,name,hbraces,hreads,-⟩ := exists_of_token? hp
  rw [(hbraces.extend behind).token?_eq,name?_eq_some_iff.mpr hreads] at h
  cases h

lemma source_of_scans (h : Scans text ps) : ps.flatMap Part.source = text := by
  induction h with
  | nil => rfl
  | char none next ih => rw [List.flatMap_cons,ih]; rfl
  | token braces reads next ih => rw [List.flatMap_cons,ih,braces.layout]; simp [Part.source]

lemma source_ne_nil_of_scans (h : Scans text ps) : ∀ p ∈ ps, p.source ≠ [] := by
  induction h with
  | nil => exact List.forall_mem_nil _
  | char none next ih => exact List.forall_mem_cons.mpr ⟨List.cons_ne_nil _ _,ih⟩
  | token braces reads next ih => exact List.forall_mem_cons.mpr ⟨List.cons_ne_nil _ _,ih⟩

/-- A text of characters that stand for themselves. -/
def Bare (text : List Char) : Prop := Scans text (text.map .char)

lemma Bare.spans_eq_nil (h : Bare text) : spans (.ofList text) = [] := by
  have hnone : spansFrom 0 (text.map .char) = [] := by
    generalize (0 : Nat) = start
    induction text generalizing start with
    | nil => rfl
    | cons c rest ih =>
      cases h with
      | char _ next => exact ih next _
  rw [List.eq_nil_iff_forall_not_mem]
  rintro ⟨first,stop,name⟩ hspan
  rw [spans,parts,String.toList_ofList,mem_spansFrom_iff (scans_scan text),← mem_spansFrom_iff h,hnone] at hspan
  cases hspan

end PathTemplate

namespace Expression
open PathTemplate

namespace Term

/-- The text that a term stands for. -/
def source : Term → List Char
  | literal text => text
  | parameter source _ => source

def isLiteral : Term → Bool
  | literal _ => true
  | parameter _ _ => false

/-- The parameters among terms with the bytes that they stand for, counted from `start`. -/
def spansFrom (start : Nat) : List Term → List (Nat × Nat × String)
  | [] => []
  | literal text :: ts => spansFrom (start + Text.width text) ts
  | parameter source name :: ts =>
    (start,start + Text.width source,.ofList name) :: spansFrom (start + Text.width source) ts

lemma spansFrom_prepend (text : List Char) (ts : List Term) (start : Nat) :
    spansFrom start (prepend text ts) = spansFrom (start + Text.width text) ts := by
  cases ts with
  | nil => rfl
  | cons t ts =>
    cases t with
    | literal rest => simp [prepend,spansFrom,Nat.add_assoc]
    | parameter source name => rfl

lemma source_prepend (text : List Char) (ts : List Term) :
    (prepend text ts).flatMap source = text ++ ts.flatMap source := by
  cases ts with
  | nil => rfl
  | cons t ts =>
    cases t with
    | literal rest => simp [prepend,source]
    | parameter source name => rfl

/-- Not both of two terms are literals. -/
def Apart (a b : Term) : Prop := ¬(a.isLiteral ∧ b.isLiteral)

lemma apart_prepend (text : List Char) {ts : List Term} (h : ts.IsChain Apart) : (prepend text ts).IsChain Apart := by
  cases ts with
  | nil => exact .singleton _
  | cons t ts =>
    cases t with
    | literal rest =>
      cases ts with
      | nil => exact .singleton _
      | cons u ts =>
        rw [List.isChain_cons_cons] at h
        exact .cons_cons h.1 h.2
    | parameter source name => exact .cons_cons (by simp [Apart,isLiteral]) h

lemma filled_prepend {text : List Char} {ts : List Term} (htext : text ≠ []) (h : literal [] ∉ ts) :
    literal [] ∉ prepend text ts := by
  cases ts with
  | nil => simpa [prepend,eq_comm] using htext
  | cons t ts =>
    cases t with
    | literal rest =>
      rw [prepend,List.mem_cons,not_or]
      refine ⟨?_,fun hmem => h (.tail _ hmem)⟩
      simp [htext,eq_comm]
    | parameter source name =>
      rw [prepend.eq_def,List.mem_cons,not_or]
      exact ⟨by simpa [eq_comm] using htext,h⟩

/-- A character that starts no token goes in front of the literal that stands there. -/
lemma bare_prepend {c : Char} {ts : List Term} (hnone : token? (c :: ts.flatMap source) = none)
    (h : ∀ text, literal text ∈ ts → Bare text) : ∀ text, literal text ∈ prepend [c] ts → Bare text := by
  have hsingle : Bare [c] := .char (token?_eq_none_of_append [c] hnone) .nil
  intro text hmem
  cases ts with
  | nil =>
    cases List.mem_singleton.mp hmem
    exact hsingle
  | cons t ts =>
    cases t with
    | literal rest =>
      rcases List.mem_cons.mp hmem with heq | hmem
      · cases heq
        exact .char (token?_eq_none_of_append (c :: rest) hnone) (h rest List.mem_cons_self)
      · exact h text (.tail _ hmem)
    | parameter source name =>
      rcases List.mem_cons.mp hmem with heq | hmem
      · cases heq
        exact hsingle
      · exact h text hmem

end Term

section Terms
variable {declared : List Char → Bool} {text : List Char} {ps : List Part}

lemma source_termsOf : (termsOf declared ps).flatMap Term.source = ps.flatMap Part.source := by
  induction ps with
  | nil => rfl
  | cons p ps ih =>
    cases p with
    | char c => rw [termsOf,Term.source_prepend,ih]; rfl
    | token source name =>
      rw [termsOf]
      split
      · rw [List.flatMap_cons,ih]; rfl
      · rw [Term.source_prepend,ih]; rfl

/-- The parameters stand for the declared tokens. -/
lemma spansFrom_termsOf (start : Nat) : Term.spansFrom start (termsOf declared ps) =
    (PathTemplate.spansFrom start ps).filter (declared ·.2.2.toList) := by
  induction ps generalizing start with
  | nil => rfl
  | cons p ps ih =>
    cases p with
    | char c => rw [termsOf,Term.spansFrom_prepend,ih]; rfl
    | token source name =>
      have hspans : PathTemplate.spansFrom start (.token source name :: ps) =
          (start,start + Text.width source,.ofList name) :: PathTemplate.spansFrom (start + Text.width source) ps := rfl
      rw [hspans,termsOf,List.filter_cons,String.toList_ofList]
      split
      · rw [Term.spansFrom,ih]
      · rw [Term.spansFrom_prepend,ih]

lemma apart_termsOf : (termsOf declared ps).IsChain Term.Apart := by
  induction ps with
  | nil => exact .nil
  | cons p ps ih =>
    cases p with
    | char c => exact Term.apart_prepend _ ih
    | token source name =>
      rw [termsOf]
      split
      · exact ih.cons fun _ _ => by simp [Term.Apart,Term.isLiteral]
      · exact Term.apart_prepend _ ih

lemma filled_termsOf (h : ∀ p ∈ ps, p.source ≠ []) : .literal [] ∉ termsOf declared ps := by
  induction ps with
  | nil => exact List.not_mem_nil
  | cons p ps ih =>
    rw [List.forall_mem_cons] at h
    cases p with
    | char c => exact Term.filled_prepend h.1 (ih h.2)
    | token source name =>
      rw [termsOf]
      split
      · simpa using ih h.2
      · exact Term.filled_prepend h.1 (ih h.2)

/-- If all tokens are declared, none is left in a literal. -/
lemma bare_termsOf (hscans : Scans text ps) (hdeclared : ∀ source name, .token source name ∈ ps → declared name) :
    ∀ lit, .literal lit ∈ termsOf declared ps → Bare lit := by
  induction hscans with
  | nil => simp [termsOf]
  | char none next ih =>
    refine Term.bare_prepend ?_ (ih fun source name hmem => hdeclared source name (.tail _ hmem))
    rwa [source_termsOf,source_of_scans next]
  | token braces reads next ih =>
    intro lit hmem
    rw [termsOf,if_pos (hdeclared _ _ List.mem_cons_self)] at hmem
    exact ih (fun source name hmem => hdeclared source name (.tail _ hmem)) lit (by simpa using hmem)

end Terms

/-- A path as the terms that its expression joins. -/
structure Rewrites (path : String) (declared : List String) (ts : List Term) : Prop where
  expression : Expression.path path declared = " + ".intercalate (ts.map Term.text)
  ne_nil : ts ≠ []
  source : ts.flatMap Term.source = path.toList
  parameters : Term.spansFrom 0 ts = (spans path).filter (·.2.2 ∈ declared)
  apart : ts.IsChain Term.Apart
  filled : .literal [] ∈ ts → path = ""

lemma terms_eq {path : String} (h : path ≠ "") (declared : List String) :
    terms path declared = termsOf (fun name => declared.contains (.ofList name)) (parts path) := by
  rw [terms]
  split
  · rename_i hnil
    exact absurd hnil (termsOf_ne_nil (parts_ne_nil h))
  · rfl

lemma rewrites_terms (path : String) (declared : List String) : Rewrites path declared (terms path declared) := by
  by_cases hempty : path = ""
  · subst hempty
    exact ⟨rfl,List.cons_ne_nil _ _,rfl,rfl,.singleton _,fun _ => rfl⟩
  have hscans : Scans path.toList (parts path) := scans_scan path.toList
  refine ⟨rfl,?_,?_,?_,?_,?_⟩ <;> rw [terms_eq hempty]
  · exact termsOf_ne_nil (parts_ne_nil hempty)
  · rw [source_termsOf,source_of_scans hscans]
  · rw [spansFrom_termsOf]
    simp [spans]
  · exact apart_termsOf
  · exact fun hmem => absurd hmem (filled_termsOf (source_ne_nil_of_scans hscans))

/-- If all tokens of a path are declared, its literals have none in them. -/
lemma spans_of_literal_mem {path : String} {declared : List String} (h : ∀ name ∈ tokens path, name ∈ declared)
    {text : List Char} (hmem : .literal text ∈ terms path declared) : spans (.ofList text) = [] := by
  by_cases hempty : path = ""
  · subst hempty
    cases List.mem_singleton.mp hmem
    rfl
  · rw [terms_eq hempty] at hmem
    apply Bare.spans_eq_nil
    refine bare_termsOf (scans_scan path.toList) (fun source name hpart => ?_) text hmem
    exact List.contains_iff_mem.mpr (h _ (List.mem_filterMap.mpr ⟨_,hpart,rfl⟩))

/-- The expression of a path joins terms, of which there is at least one. Put back into the texts that they stand for,
they are the path. Their parameters stand for the tokens that are declared, in order and at their bytes, no two
literals stand side by side, and none is empty but that of an empty path. In an extracted operation all tokens are
parameters, and no literal has a token in it. -/
theorem path_rewrites :
    (∀ path declared, ∃ ts, Rewrites path declared ts) ∧
    ∀ d security r, Registry.extract d security = .ok r → ∀ o ∈ r.operations,
      ∃ ts, Rewrites o.path (o.pathParameters.map (·.name)) ts ∧ Term.spansFrom 0 ts = spans o.path ∧
        ∀ text, .literal text ∈ ts → spans (.ofList text) = [] := by
  refine ⟨fun path declared => ⟨_,rewrites_terms path declared⟩,fun d security r hr o ho => ?_⟩
  have hrewrites := rewrites_terms o.path (o.pathParameters.map (·.name))
  have hnames : o.pathParameters.map (·.name) = tokens o.path := names_pathParameters hr ho
  refine ⟨_,hrewrites,?_,fun text => spans_of_literal_mem (fun name hname => hnames ▸ hname)⟩
  rw [hrewrites.parameters,List.filter_eq_self]
  intro span hspan
  rw [decide_eq_true_iff,hnames,tokens,← names_spansFrom 0]
  exact List.mem_map_of_mem hspan

/-- An operation with the path `/é{.id*}{x}/{`, whose parameters are declared in another order. -/
def adjoiningDocument : Document where
  paths := .ofList [("/é\x7b.id*\x7d\x7bx\x7d/\x7b",{ operation := fun
    | .get => some { operationId := some "run", parameters := [.inline { name := "x", location := .path },
        .inline { name := "id", location := .path }] }
    | _ => none })]

/-- Between the literals stand two parameters side by side, and the brace that is never closed is text. -/
theorem path_rewrites_adjoining : ∃ r o ts, Registry.extract adjoiningDocument ∅ = .ok r ∧ o ∈ r.operations ∧
    Rewrites o.path (o.pathParameters.map (·.name)) ts ∧ Term.spansFrom 0 ts = [(3,9,"id"),(9,12,"x")] ∧
    Expression.path o.path (o.pathParameters.map (·.name)) = "'/é' + params.id + params.x + '/\x7b'" := by
  obtain ⟨r,o,hr,ho,hpath,hnames⟩ : ∃ r o, Registry.extract adjoiningDocument ∅ = .ok r ∧ r.operations = [o] ∧
      o.path = "/é\x7b.id*\x7d\x7bx\x7d/\x7b" ∧ o.pathParameters.map (·.name) = ["id","x"] :=
    ⟨_,_,by rfl,by rfl,by rfl,by rfl⟩
  have hmem : o ∈ r.operations := by simp [ho]
  obtain ⟨ts,hrewrites,hspans,-⟩ := path_rewrites.2 adjoiningDocument ∅ r hr o hmem
  refine ⟨r,o,ts,hr,hmem,hrewrites,?_,?_⟩
  · rw [hspans,hpath]
    decide +kernel
  · rw [hpath,hnames]
    decide +kernel

end Expression
end ActionCatalog
