import ActionCatalog.Json.Reader
import ActionCatalog.Tree.Settle
import Mathlib.Data.List.Forall2
import Mathlib.Tactic.Common

/-! Trees whose scalars have a type of their own. Main statement: what is read of a JSON text is such a tree. -/
namespace Option
variable {α β : Type}

/-- What holds at first and is kept by each step holds at the end of a run. -/
theorem of_foldlM_eq_some {P : β → Prop} {f : β → α → Option β} {xs : List α} {b b' : β}
    (hstep : ∀ x ∈ xs, ∀ b b', P b → f b x = some b' → P b') (hb : P b) (h : xs.foldlM f b = some b') : P b' := by
  induction xs generalizing b with
  | nil =>
    cases h
    exact hb
  | cons x xs ih =>
    rw [List.foldlM_cons] at h
    obtain ⟨next,hnext,h⟩ := Option.bind_eq_some_iff.mp h
    exact ih (fun x hx => hstep x (List.mem_cons_of_mem _ hx)) (hstep x List.mem_cons_self b next hb hnext) h

end Option

namespace ActionCatalog

namespace Tree

/-- A tree that is the same in places that admit every type. -/
def Settled (t : Tree) : Prop := t.settle? = some t

lemma settleItems_eq_some_iff {items ts : List Tree} : settleItems items = some ts ↔
    List.Forall₂ (fun t t' => t.settle? = some t') items ts := by
  induction items generalizing ts with
  | nil => simp [settleItems,eq_comm]
  | cons t items ih =>
    rw [settleItems,List.forall₂_cons_left_iff]
    constructor
    · intro h
      obtain ⟨t',ht,h⟩ := Option.bind_eq_some_iff.mp h
      obtain ⟨rest,hr,h⟩ := Option.bind_eq_some_iff.mp h
      cases h
      exact ⟨t',rest,ht,ih.mp hr,rfl⟩
    · rintro ⟨t',rest,ht,hr,rfl⟩
      exact Option.bind_eq_some_iff.mpr ⟨_,ht,Option.bind_eq_some_iff.mpr ⟨rest,ih.mpr hr,rfl⟩⟩

lemma settleEntries_eq_some_iff {entries es : List (Tree × Tree)} : settleEntries entries = some es ↔
    List.Forall₂ (fun e e' => e.1.settle? = some e'.1 ∧ e.2.settle? = some e'.2) entries es := by
  induction entries generalizing es with
  | nil => simp [settleEntries,eq_comm]
  | cons e entries ih =>
    rw [settleEntries,List.forall₂_cons_left_iff]
    constructor
    · intro h
      obtain ⟨k,hk,h⟩ := Option.bind_eq_some_iff.mp h
      obtain ⟨v,hv,h⟩ := Option.bind_eq_some_iff.mp h
      obtain ⟨rest,hr,h⟩ := Option.bind_eq_some_iff.mp h
      cases h
      exact ⟨(k,v),rest,⟨hk,hv⟩,ih.mp hr,rfl⟩
    · rintro ⟨e',rest,⟨hk,hv⟩,hr,rfl⟩
      refine Option.bind_eq_some_iff.mpr ⟨_,hk,Option.bind_eq_some_iff.mpr ⟨_,hv,?_⟩⟩
      exact Option.bind_eq_some_iff.mpr ⟨rest,ih.mpr hr,rfl⟩

lemma settled_list {items : List Tree} (h : ∀ t ∈ items, t.Settled) : (list none items).Settled := by
  have hitems : settleItems items = some items := settleItems_eq_some_iff.mpr (List.forall₂_same.mpr h)
  simp [Settled,settle?,hitems,Yaml.isLocal]

lemma settled_record_iff {tag : Option String} {entries : List (Tree × Tree)} :
    (record tag entries).Settled ↔ tag = none ∧ ∀ e ∈ entries, e.1.Settled ∧ e.2.Settled := by
  rw [Settled,settle?]
  constructor
  · intro h
    split at h
    · cases h
    · obtain ⟨es,hes,h⟩ := Option.bind_eq_some_iff.mp h
      cases h
      exact ⟨rfl,List.forall₂_same.mp (settleEntries_eq_some_iff.mp hes)⟩
  · rintro ⟨rfl,h⟩
    have hentries : settleEntries entries = some entries :=
      settleEntries_eq_some_iff.mpr (List.forall₂_same.mpr h)
    simp [hentries,Yaml.isLocal]

lemma not_settled_written (w : Written) : ¬(written w).Settled := by
  rw [Settled,settle?,Yaml.settle?,Yaml.resolve?]
  intro h
  repeat' split at h
  all_goals simp_all

end Tree

namespace Json

def Token.Settled : Token → Prop
  | .scalar t => t.Settled
  | _ => True

namespace Lexer

def Settled (l : Lexer) : Prop := ∀ t ∈ l.tokens, t.Settled

lemma settled_word {s : List Char} {t : Tree} (h : word? s = some t) : Token.Settled (.scalar t) := by
  simp only [word?] at h
  repeat' split at h
  all_goals first
    | cases h
      rfl
    | obtain ⟨n,-,rfl⟩ := Option.map_eq_some_iff.mp h
      rfl

lemma Settled.push {l : Lexer} (h : l.Settled) {t : Token} (ht : t.Settled) (p : Pending) :
    Settled ⟨l.tokens.push t,p⟩ := by
  intro t' ht'
  rcases Array.mem_push.mp ht' with ht' | rfl
  · exact h t' ht'
  · exact ht

lemma Settled.finishWord {l l' : Lexer} (h : l.Settled) (hl : l.finishWord = some l') : l'.Settled := by
  rw [Lexer.finishWord] at hl
  split at hl
  · obtain ⟨t,ht,rfl⟩ := Option.map_eq_some_iff.mp hl
    exact h.push (settled_word ht) .none
  · cases hl
    exact h
  · cases hl

lemma settled_punctuation {c : Char} {t : Token} (h : punctuation? c = some t) : t.Settled := by
  simp only [punctuation?] at h
  split at h <;> cases h <;> trivial

lemma Settled.bare {l l' : Lexer} (h : l.Settled) {c : Char} (hl : l.bare c = some l') : l'.Settled := by
  rw [Lexer.bare] at hl
  split at hl
  · exact h.finishWord hl
  split at hl
  · obtain ⟨finished,hf,rfl⟩ := Option.map_eq_some_iff.mp hl
    have hfinished := h.finishWord hf
    exact hfinished
  split at hl
  · rename_i t ht
    obtain ⟨finished,hf,rfl⟩ := Option.map_eq_some_iff.mp hl
    exact (h.finishWord hf).push (settled_punctuation ht) _
  · split at hl <;> cases hl <;> exact h

lemma Settled.code {l l' : Lexer} (h : l.Settled) {chars : List Char} {high : Option Nat} {n : Nat}
    (hl : l.code chars high n = some l') : l'.Settled := by
  cases high with
  | none =>
    simp only [Lexer.code] at hl
    repeat' split at hl
    all_goals cases hl <;> exact h
  | some high =>
    simp only [Lexer.code] at hl
    split at hl <;> cases hl
    exact h

/-- A character leaves no token without a type. -/
theorem Settled.take {l l' : Lexer} (h : l.Settled) {c : Char} (hl : l.take c = some l') : l'.Settled := by
  simp only [Lexer.take] at hl
  split at hl
  case h_5 => exact h.bare hl
  case h_1 =>
    split at hl
    · cases hl
      exact h.push (t := .scalar (.text _)) rfl .none
    · repeat' split at hl
      all_goals cases hl <;> exact h
  case h_4 =>
    split at hl
    · cases hl
      exact h
    · obtain ⟨n,-,hl⟩ := Option.bind_eq_some_iff.mp hl
      exact h.code hl
  case h_3 =>
    repeat' split at hl
    · cases hl
      exact h
    · cases hl
    · obtain ⟨d,-,rfl⟩ := Option.map_eq_some_iff.mp hl
      exact h
  case h_2 =>
    split at hl <;> cases hl
    exact h

end Lexer

def Frame.Settled : Frame → Prop
  | .list items => ∀ t ∈ items, t.Settled
  | .object entries => ∀ e ∈ entries, e.2.Settled
  | .member entries _ => ∀ e ∈ entries, e.2.Settled

namespace Parser

structure Settled (p : Parser) : Prop where
  stack : ∀ f ∈ p.stack, f.Settled
  result : ∀ t, p.result = some t → t.Settled

lemma settled_deliver {stack : List Frame} {t : Tree} {p : Parser} (hstack : ∀ f ∈ stack, f.Settled)
    (ht : t.Settled) (h : deliver stack t = some p) : p.Settled := by
  cases stack with
  | nil =>
    cases h
    exact ⟨by simp,by simpa using ht⟩
  | cons f rest =>
    obtain ⟨hf,hrest⟩ := List.forall_mem_cons.mp hstack
    cases f with
    | list items =>
      cases h
      exact ⟨List.forall_mem_cons.mpr ⟨List.forall_mem_cons.mpr ⟨ht,hf⟩,hrest⟩,by simp⟩
    | object entries => cases h
    | member entries k =>
      cases h
      exact ⟨List.forall_mem_cons.mpr ⟨List.forall_mem_cons.mpr ⟨ht,hf⟩,hrest⟩,by simp⟩

lemma Settled.enter {limit : Nat} {p p' : Parser} (h : p.Settled) {f : Frame} (hf : f.Settled)
    (hp : p.enter limit f = some p') : p'.Settled := by
  rw [Parser.enter] at hp
  split at hp
  · cases hp
    exact ⟨List.forall_mem_cons.mpr ⟨hf,h.stack⟩,by simp⟩
  · cases hp

lemma settled_ofMembers {entries : List (String × Tree)} (h : ∀ e ∈ entries, e.2.Settled) :
    (Tree.ofMembers entries).Settled := by
  refine Tree.settled_record_iff.mpr ⟨rfl,fun e he => ?_⟩
  obtain ⟨m,hm,rfl⟩ := List.mem_map.mp he
  exact ⟨rfl,h m hm⟩

/-- A token leaves no collection with a member without a type. -/
theorem Settled.take {limit : Nat} {p p' : Parser} (h : p.Settled) {t : Token} (ht : t.Settled)
    (hp : p.take limit t = some p') : p'.Settled := by
  obtain ⟨stack,phase,result⟩ := p
  have hstack := h.stack
  simp only [Parser.take] at hp
  split at hp
  case h_1 =>
    split at hp
    · exact h.enter (by simp [Frame.Settled]) hp
    · cases hp
  case h_2 =>
    split at hp
    · exact h.enter (by simp [Frame.Settled]) hp
    · cases hp
  case h_3 items rest =>
    obtain ⟨hitems,hrest⟩ := List.forall_mem_cons.mp hstack
    split at hp
    · exact settled_deliver hrest (Tree.settled_list fun t ht => hitems t (List.mem_reverse.mp ht)) hp
    · cases hp
  case h_4 entries rest =>
    obtain ⟨hentries,hrest⟩ := List.forall_mem_cons.mp hstack
    split at hp
    · exact settled_deliver hrest (settled_ofMembers fun e he => hentries e (List.mem_reverse.mp he)) hp
    · cases hp
  case h_8 k entries rest =>
    obtain ⟨hentries,hrest⟩ := List.forall_mem_cons.mp hstack
    split at hp
    · cases hp
      exact ⟨List.forall_mem_cons.mpr ⟨hentries,hrest⟩,h.result⟩
    · cases hp
  case h_9 t stack =>
    split at hp
    · exact settled_deliver hstack ht hp
    · cases hp
  case h_10 => cases hp
  -- the punctuation inside of a collection only changes what may come next
  all_goals
    split at hp
    · cases hp
      exact ⟨hstack,h.result⟩
    · cases hp

end Parser

/-- Every scalar of a JSON text has a type of its own, wherever it stands. -/
theorem settled_of_read {text : String} {t : Tree} (h : read? text = some t) : t.Settled := by
  obtain ⟨l,hl,h⟩ := Option.bind_eq_some_iff.mp h
  obtain ⟨finished,hf,h⟩ := Option.bind_eq_some_iff.mp h
  obtain ⟨p,hp,h⟩ := Option.bind_eq_some_iff.mp h
  have hlexer : l.Settled :=
    Option.of_foldlM_eq_some (P := Lexer.Settled) (fun _ _ _ _ hb hstep => hb.take hstep) (by simp [Lexer.Settled]) hl
  have htokens := hlexer.finishWord hf
  have hparser : p.Settled := by
    refine Option.of_foldlM_eq_some (P := Parser.Settled) (fun t ht _ _ hb hstep => ?_) ⟨by simp,by simp⟩ hp
    exact hb.take (htokens t (Array.mem_toList_iff.mp ht)) hstep
  split at h
  · exact hparser.result t h
  · cases h

end Json
end ActionCatalog
