import ActionCatalog.Catalog
import ActionCatalog.Proofs.Keyed
import ActionCatalog.Proofs.Reading

/-! Trees that spell values. Main statement: whatever type is asked of such a tree, it answers with the value. -/
namespace ActionCatalog
open Yaml

namespace Tree

mutual
/-- Whether no scalar has a tag but for a type of the document's own. -/
def isBare : Tree → Bool
  | .written w => w.tag.isNone || isLocal w.tag
  | .list _ items => areBare items
  | .record _ entries => entriesBare entries
  | _ => true

def areBare : List Tree → Bool
  | [] => true
  | t :: rest => t.isBare && areBare rest

def entriesBare : List (Tree × Tree) → Bool
  | [] => true
  | (k,v) :: rest => k.isBare && v.isBare && entriesBare rest
end

/-- A bare tree whose value is the given one. -/
structure Spells (t : Tree) (v : Data) : Prop where
  bare : t.isBare
  value : Data.ofTree? t = some v

/-- A value that is not of a type of the document's own. -/
def IsUntagged (v : Data) : Prop := ∀ tag content, v ≠ .tagged tag content

lemma eq_of_wrap {tag : Option String} {v v' : Data} (h : Data.wrap tag v = some v') (hv : IsUntagged v') : v' = v := by
  simp only [Data.wrap] at h
  split at h
  · split at h
    · split at h
      · cases h
      · cases h
        exact absurd rfl (hv _ _)
    · cases h
      rfl
  · cases h
    rfl

section Inversion
variable {v : Data}

/-- What is not tagged is spelled by a scalar without a tag, of the type that its letters have. -/
lemma Spells.of_written {w : Written} (h : (written w).Spells v) (hv : IsUntagged v) :
    w.tag = none ∧ ∃ t, (if w.style = .plain then resolve? w.text else some (.text w.text)) = some t ∧
      Data.ofScalar? t = some v := by
  have hvalue : Data.ofWritten? w = some v := h.value
  have hbare : w.tag.isNone || isLocal w.tag := h.bare
  rw [Data.ofWritten?] at hvalue
  cases htag : w.tag with
  | none =>
    rw [htag] at hvalue
    refine ⟨rfl,Option.bind_eq_some_iff.mp ?_⟩
    simpa [isLocal,Yaml.settle?,htag] using hvalue
  | some tag =>
    have hlocal : isLocal (some tag) = true := by simpa [htag] using hbare
    rw [htag,if_pos hlocal] at hvalue
    obtain ⟨content,hcontent,hwrap⟩ := Option.bind_eq_some_iff.mp hvalue
    simp only [Data.wrap,hlocal,if_true] at hwrap
    split at hwrap
    · cases hwrap
    · cases hwrap
      exact absurd rfl (hv _ _)

lemma forall₂_of_ofItems? {items : List Tree} {vs : List Data} (hbare : areBare items)
    (h : Data.ofItems? items = some vs) : List.Forall₂ Spells items vs := by
  induction items generalizing vs with
  | nil =>
    cases h
    exact .nil
  | cons t items ih =>
    rw [areBare,Bool.and_eq_true] at hbare
    obtain ⟨v,hv,h⟩ := Option.bind_eq_some_iff.mp h
    obtain ⟨rest,hrest,h⟩ := Option.bind_eq_some_iff.mp h
    cases h
    exact .cons ⟨hbare.1,hv⟩ (ih hbare.2 hrest)

lemma forall₂_of_ofEntries? {entries : List (Tree × Tree)} {es : List (Data × Data)} (hbare : entriesBare entries)
    (h : Data.ofEntries? entries = some es) :
    List.Forall₂ (fun e e' => e.1.Spells e'.1 ∧ e.2.Spells e'.2) entries es := by
  induction entries generalizing es with
  | nil =>
    cases h
    exact .nil
  | cons e entries ih =>
    rw [entriesBare,Bool.and_eq_true,Bool.and_eq_true] at hbare
    obtain ⟨k,hk,h⟩ := Option.bind_eq_some_iff.mp h
    obtain ⟨v,hv,h⟩ := Option.bind_eq_some_iff.mp h
    obtain ⟨rest,hrest,h⟩ := Option.bind_eq_some_iff.mp h
    cases h
    exact .cons ⟨⟨hbare.1.1,hk⟩,⟨hbare.1.2,hv⟩⟩ (ih hbare.2 hrest)

lemma Spells.of_list {tag : Option String} {items : List Tree} (h : (list tag items).Spells v) (hv : IsUntagged v) :
    ∃ vs, v = .list vs ∧ List.Forall₂ Spells items vs := by
  obtain ⟨vs,hvs,hwrap⟩ := Option.bind_eq_some_iff.mp h.value
  exact ⟨vs,eq_of_wrap hwrap hv,forall₂_of_ofItems? h.bare hvs⟩

lemma Spells.of_record {tag : Option String} {entries : List (Tree × Tree)} (h : (record tag entries).Spells v)
    (hv : IsUntagged v) : ∃ es, v = .map es ∧
      List.Forall₂ (fun e e' => e.1.Spells e'.1 ∧ e.2.Spells e'.2) entries es := by
  obtain ⟨es,hes,h'⟩ := Option.bind_eq_some_iff.mp h.value
  split at h'
  · exact ⟨es,eq_of_wrap h' hv,forall₂_of_ofEntries? h.bare hes⟩
  · cases h'

end Inversion

section Answers
variable {t : Tree}

lemma resolve?_of_isNull {s : String} (h : s = "" ∨ isNull s.toList) : resolve? s = some .null := by
  rcases h with rfl | h
  · rfl
  · simp [resolve?,h]

/-- A scalar that is not null by its letters is something wherever there may be nothing. -/
lemma optional?_written {α : Type} {f : Tree → Option α} {w : Written} {x : α} (htag : w.tag = none)
    (hsome : w.style = .plain → resolve? w.text ≠ some .null) (hf : f (.written w) = some x) :
    (written w).optional? f = some (some x) := by
  rw [optional?]
  by_cases hstyle : w.style = .plain
  · have hspoken : ¬(w.text = "" ∨ isNull w.text.toList) := fun h => hsome hstyle (resolve?_of_isNull h)
    simp_all
  · simp [hstyle,hf]

lemma of_resolve?_text {letters s : String} (h : resolve? letters = some (.text s)) : s = letters := by
  rw [resolve?] at h
  repeat' split at h
  all_goals simp_all

lemma of_resolve?_bool {letters : String} {b : Bool} (h : resolve? letters = some (.bool b)) :
    bool? letters.toList = some b := by
  rw [resolve?] at h
  repeat' split at h
  all_goals simp_all

lemma of_resolve?_int {letters : String} {i : Int} (h : resolve? letters = some (.number (.int i))) :
    integer? letters.toList = some i := by
  rw [resolve?] at h
  repeat' split at h
  all_goals simp_all

lemma ofScalar?_inj {s s' : Tree} {v : Data} (h : Data.ofScalar? s = some v) (h' : Data.ofScalar? s' = some v) :
    s = s' := by
  cases s <;> cases h <;> cases s' <;> cases h' <;> rfl

/-- A scalar value is spelled by itself, or by letters of its type. -/
lemma Spells.scalar {s : Tree} {v : Data} (hs : Data.ofScalar? s = some v) (h : t.Spells v) :
    t = s ∨ ∃ w, t = .written w ∧ w.tag = none ∧
      (if w.style = .plain then resolve? w.text else some (.text w.text)) = some s := by
  have hv : IsUntagged v := by
    rintro tag content rfl
    cases s <;> cases hs
  cases t with
  | written w =>
    obtain ⟨htag,s',hletters,hs'⟩ := h.of_written hv
    rw [ofScalar?_inj hs hs']
    exact .inr ⟨w,rfl,htag,hletters⟩
  | list tag items =>
    obtain ⟨vs,rfl,-⟩ := h.of_list hv
    cases s <;> cases hs
  | record tag entries =>
    obtain ⟨es,rfl,-⟩ := h.of_record hv
    cases s <;> cases hs
  | cycle => cases h.value
  | _ => exact .inl (ofScalar?_inj h.value hs)

/-- A text is spelled by its own letters. -/
theorem Spells.text {s : String} (h : t.Spells (.text s)) :
    t.asText? = some s ∧ t.optional? Tree.asText? = some (some s) := by
  rcases h.scalar (s := .text s) rfl with rfl | ⟨w,rfl,htag,hletters⟩
  · exact ⟨rfl,rfl⟩
  · split at hletters
    · have heq : s = w.text := of_resolve?_text hletters
      subst heq
      exact ⟨rfl,optional?_written htag (by simp [hletters]) rfl⟩
    · cases hletters
      exact ⟨rfl,optional?_written htag (by simp [*]) rfl⟩

theorem Spells.bool {b : Bool} (h : t.Spells (.bool b)) :
    t.asBool? = some b ∧ t.optional? Tree.asBool? = some (some b) := by
  rcases h.scalar (s := .bool b) rfl with rfl | ⟨w,rfl,htag,hletters⟩
  · exact ⟨rfl,rfl⟩
  · split at hletters
    · rename_i hstyle
      have hread : (written w).asBool? = some b := by simp [asBool?,speaksFor,hstyle,of_resolve?_bool hletters]
      exact ⟨hread,optional?_written htag (by simp [hletters]) hread⟩
    · cases hletters

theorem Spells.integer {i : Int} (h : t.Spells (.number (.int i))) (hi : isWord i) : t.asInteger? = some i := by
  rcases h.scalar (s := .number (.int i)) rfl with rfl | ⟨w,rfl,htag,hletters⟩
  · simp [asInteger?,hi]
  · split at hletters
    · rename_i hstyle
      simp [asInteger?,speaksFor,hstyle,of_resolve?_int hletters,hi]
    · cases hletters

/-- A list is spelled by a list of what its members are spelled by. -/
theorem Spells.list {vs : List Data} (h : t.Spells (.list vs)) :
    ∃ tag items, t = .list tag items ∧ List.Forall₂ Spells items vs := by
  have hv : IsUntagged (.list vs) := by simp [IsUntagged]
  cases t with
  | written w =>
    obtain ⟨-,s,-,hs⟩ := h.of_written hv
    cases s <;> cases hs
  | list tag items =>
    obtain ⟨_,heq,hall⟩ := h.of_list hv
    cases heq
    exact ⟨tag,items,rfl,hall⟩
  | record tag entries =>
    obtain ⟨_,heq,-⟩ := h.of_record hv
    cases heq
  | _ => cases h.value

/-- A map under text keys is spelled by entries under these keys. -/
theorem Spells.record {members : List (String × Data)} (h : t.Spells (.record members)) : ∃ tag entries,
    t = .record tag entries ∧ List.Forall₂ (fun e m => e.1.asText? = some m.1 ∧ e.2.Spells m.2) entries members := by
  have hv : IsUntagged (Data.record members) := by simp [IsUntagged,Data.record]
  cases t with
  | written w =>
    obtain ⟨-,s,-,hs⟩ := h.of_written hv
    cases s <;> cases hs
  | list tag items =>
    obtain ⟨_,heq,-⟩ := h.of_list hv
    cases heq
  | record tag entries =>
    obtain ⟨es,heq,hall⟩ := h.of_record hv
    cases heq
    rw [List.forall₂_map_right_iff] at hall
    exact ⟨tag,entries,rfl,hall.imp fun e m he => ⟨he.1.text.1,he.2⟩⟩
  | _ => cases h.value

end Answers

end Tree

namespace Fields
variable {α : Type} {o : Fields} {members : List (String × Data)} {name : String}

/-- Fields that spell members one by one. -/
def Spell (o : Fields) (members : List (String × Data)) : Prop :=
  List.Forall₂ (fun e m => e.1 = m.1 ∧ e.2.Spells m.2) o members

lemma Spell.names (h : o.Spell members) : o.map (·.1) = members.map (·.1) := by
  induction h with
  | nil => rfl
  | cons he _ ih => rw [List.map_cons,List.map_cons,he.1,ih]

lemma Spell.lookup_eq_none (h : o.Spell members) (hl : members.lookup name = none) : o.lookup name = none := by
  induction h with
  | nil => rfl
  | cons he _ ih =>
    rw [Dict.lookup_cons] at hl ⊢
    rw [he.1]
    split at hl
    · cases hl
    · rename_i hne
      rw [if_neg hne,ih hl]

lemma Spell.exists_lookup (h : o.Spell members) {v : Data} (hl : members.lookup name = some v) :
    ∃ t, o.lookup name = some t ∧ t.Spells v := by
  induction h with
  | nil => cases hl
  | cons he _ ih =>
    rw [Dict.lookup_cons] at hl ⊢
    rw [he.1]
    split at hl
    · cases hl
      rename_i heq
      exact ⟨_,if_pos heq,he.2⟩
    · rename_i hne
      rw [if_neg hne]
      exact ih hl

/-- Where no name is given twice, a member is what is found under its name. -/
lemma member?_of_nodup (h : (o.map (·.1)).Nodup) (name : String) : o.member? name = some (o.lookup name) := by
  rw [Tree.lookup_eq_head?_filter,member?]
  have hnodup : ((o.filter (·.1 == name)).map (·.1)).Nodup := (List.filter_sublist.map _).nodup h
  have hnames : ∀ e ∈ o.filter (·.1 == name), e.1 = name := by simp
  split
  · simp [*]
  · simp [*]
  · rename_i hnil hone
    cases hes : o.filter (·.1 == name) with
    | nil => exact absurd hes hnil
    | cons e es =>
      cases es with
      | nil => exact absurd hes (hone e)
      | cons e' es => simp_all

variable (h : o.Spell members) (hnodup : (members.map (·.1)).Nodup) {f : Tree → Option α} {x : α}
include h hnodup

lemma Spell.required? {v : Data} (hm : (name,v) ∈ members) (hf : ∀ t, t.Spells v → f t = some x) :
    o.required? name f = some x := by
  obtain ⟨t,ht,hspells⟩ := h.exists_lookup (Keyed.lookup_of_mem hnodup hm)
  rw [Fields.required?,member?_of_nodup (h.names ▸ hnodup),ht]
  exact hf t hspells

/-- A member that is left out reads as its default. -/
lemma Spell.defaulted?_of_absent {d : α} (hm : ∀ v, (name,v) ∉ members) : o.defaulted? name f d = some d := by
  have hnone := h.lookup_eq_none (Keyed.lookup_eq_none_of_not_mem hm)
  rw [Fields.defaulted?,member?_of_nodup (h.names ▸ hnodup),hnone]
  rfl

lemma Spell.defaulted? {d : α} {v : Data} (hm : (name,v) ∈ members) (hf : ∀ t, t.Spells v → f t = some x) :
    o.defaulted? name f d = some x := by
  obtain ⟨t,ht,hspells⟩ := h.exists_lookup (Keyed.lookup_of_mem hnodup hm)
  rw [Fields.defaulted?,member?_of_nodup (h.names ▸ hnodup),ht]
  exact hf t hspells

end Fields

/-- A dictionary is that of its own entries. -/
lemma Dict.ofList_entries {α : Type} (d : Dict α) : ofList d.entries = d := by
  refine ext_get? fun k => ?_
  have hnodup : (d.entries.reverse.map (·.1)).Nodup := by
    rw [List.map_reverse,List.nodup_reverse]
    exact d.nodup_keys
  rw [get?_ofList]
  cases hv : d.get? k with
  | none =>
    refine Keyed.lookup_eq_none_of_not_mem fun v hmem => ?_
    rw [List.mem_reverse,mem_entries_iff,hv] at hmem
    cases hmem
  | some v => exact Keyed.lookup_of_mem hnodup (List.mem_reverse.mpr ((d.mem_entries_iff k v).mpr hv))

namespace Tree
variable {α : Type} {t : Tree}

/-- A map is spelled by fields that spell its members. -/
theorem Spells.fields {members : List (String × Data)} (h : t.Spells (.record members)) :
    ∃ o, t.fields? = some o ∧ o.Spell members := by
  obtain ⟨tag,entries,rfl,hall⟩ := h.record
  rw [fields?]
  clear h
  induction hall with
  | nil => exact ⟨[],rfl,.nil⟩
  | @cons e m entries members he _ ih =>
    obtain ⟨o,ho,hspell⟩ := ih
    refine ⟨(m.1,e.2) :: o,?_,.cons ⟨rfl,he.2⟩ hspell⟩
    simp only [List.mapM_cons,ho,he.1]
    rfl

/-- Entries read back from what spells them if their values do. -/
lemma mapM_of_spells {print : α → Data} {read : Tree → Option α} {entries : List (Tree × Tree)}
    {es : List (String × α)} (hread : ∀ e ∈ es, ∀ t, t.Spells (print e.2) → read t = some e.2)
    (h : List.Forall₂ (fun e e' => e.1.asText? = some e'.1 ∧ e.2.Spells (print e'.2)) entries es) :
    (entries.mapM fun (k,v) => do return (← k.asText?,← read v)) = some es := by
  induction h with
  | nil => rfl
  | cons he _ ih =>
    obtain ⟨hhead,htail⟩ := List.forall_mem_cons.mp hread
    simp only [List.mapM_cons,ih htail,he.1,hhead _ he.2]
    rfl

/-- A dictionary reads back from what spells it if its values do. -/
theorem Spells.asDict? {d : Dict α} {print : α → Data} {read : Tree → Option α} (h : t.Spells (d.data print))
    (hread : ∀ k v, d.get? k = some v → ∀ t, t.Spells (print v) → read t = some v) : t.asDict? read = some d := by
  obtain ⟨tag,entries,rfl,hall⟩ := h.record
  rw [List.forall₂_map_right_iff] at hall
  have hvalues : ∀ e ∈ d.entries, ∀ t, t.Spells (print e.2) → read t = some e.2 := fun e he =>
    hread e.1 e.2 ((Dict.mem_entries_iff d e.1 e.2).mp he)
  rw [Tree.asDict?,mapM_of_spells hvalues hall]
  exact congrArg some d.ofList_entries

theorem Spells.asList? {vs : List α} {print : α → Data} {read : Tree → Option α} (h : t.Spells (.list (vs.map print)))
    (hread : ∀ v ∈ vs, ∀ t, t.Spells (print v) → read t = some v) : t.asList? read = some vs := by
  obtain ⟨tag,items,rfl,hall⟩ := h.list
  rw [List.forall₂_map_right_iff] at hall
  rw [Tree.asList?,Option.mapM_eq_some_iff]
  clear h
  induction hall with
  | nil => exact .nil
  | cons ht _ ih =>
    obtain ⟨hhead,htail⟩ := List.forall_mem_cons.mp hread
    exact .cons (hhead _ ht) (ih htail)

end Tree
end ActionCatalog
