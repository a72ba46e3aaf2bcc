import ActionCatalog.Catalog.Reader
import ActionCatalog.Proofs.Alias
import ActionCatalog.Proofs.Generation
import ActionCatalog.Proofs.Options
import ActionCatalog.Proofs.Spelling

/-! Catalogs as texts. Main statement: a catalog that was generated or read is what its text reads as. -/
namespace ActionCatalog
open Yaml ActionCatalog.Tree

lemma mem_unlessEmpty {name text key : String} {v : Data} :
    (key,v) ∈ unlessEmpty name text ↔ key = name ∧ text ≠ "" ∧ v = .text text := by
  rw [unlessEmpty]
  split <;> simp_all

lemma sublist_names_unlessEmpty (name text : String) : ((unlessEmpty name text).map (·.1)).Sublist [name] := by
  rw [unlessEmpty]
  split <;> simp

section Members
variable {o : Fields} {members : List (String × Data)} {name text : String}

lemma Fields.Spell.requiredText (h : o.Spell members) (hnodup : (members.map (·.1)).Nodup)
    (hm : (name,.text text) ∈ members) : o.required? name asText? = some text :=
  h.required? hnodup hm fun _ ht => ht.text.1

lemma Fields.Spell.requiredBool {b : Bool} (h : o.Spell members) (hnodup : (members.map (·.1)).Nodup)
    (hm : (name,.bool b) ∈ members) : o.required? name asBool? = some b :=
  h.required? hnodup hm fun _ ht => ht.bool.1

/-- A text that is left out where it is empty reads back. -/
lemma Fields.Spell.unlessEmpty (h : o.Spell members) (hnodup : (members.map (·.1)).Nodup)
    (hm : ∀ v, (name,v) ∈ members ↔ text ≠ "" ∧ v = .text text) : o.defaulted? name asText? "" = some text := by
  by_cases ht : text = ""
  · rw [h.defaulted?_of_absent hnodup fun v hv => ((hm v).mp hv).1 ht,ht]
  · exact h.defaulted? hnodup ((hm _).mpr ⟨ht,rfl⟩) fun t hspells => hspells.text.1

end Members

namespace Category

lemma ofText_text_ofText (name : String) : ofText (ofText name).text = ofText name := by
  cases hc : ofText name with
  | custom name' =>
    have heq : name' = name := by
      simp only [ofText] at hc
      split at hc <;> simp_all
    rw [text,heq,hc,heq]
  | _ => rfl

end Category

lemma isWord_of_asInteger? {t : Tree} {i : Int} (h : t.asInteger? = some i) : isWord i := by
  cases t with
  | number n =>
    cases n with
    | int j =>
      simp only [asInteger?] at h
      split at h
      · cases h
        assumption
      · cases h
    | float x => cases h
  | written w =>
    simp only [asInteger?] at h
    split at h
    · exact (Option.filter_eq_some_iff.mp h).2
    · cases h
  | _ => cases h

namespace Input

/-- An input whose category is the one that its text names, and whose index has 64 bits. -/
structure Expressible (i : Input) : Prop where
  category : ∀ c, i.category = some c → Category.ofText c.text = c
  index : isWord i.index

lemma mem_members {i : Input} {key : String} {v : Data} : (key,v) ∈ i.members ↔
    (key = "type" ∧ i.category.map (fun c => .text c.text) = some v) ∨
    (key = "description" ∧ v = .text i.description) ∨
    (key = "placeholder" ∧ i.placeholder ≠ "" ∧ v = .text i.placeholder) ∨
    (key = "required" ∧ v = .bool i.required) ∨
    (key = "default" ∧ i.default ≠ "" ∧ v = .text i.default) ∨
    (key = "options" ∧ i.options ≠ [] ∧ v = .list (i.options.map .text)) ∨
    (key = "index" ∧ v = .number (.int i.index)) ∨
    (key = "format" ∧ i.format ≠ "" ∧ v = .text i.format) ∨
    (key = "is_multi" ∧ v = .bool i.isMulti) ∨
    (key = "display_name" ∧ i.displayName ≠ "" ∧ v = .text i.displayName) := by
  have hoptions : (key,v) ∈ (if i.options.isEmpty then [] else [("options",.list (i.options.map .text))] :
      List (String × Data)) ↔ key = "options" ∧ i.options ≠ [] ∧ v = .list (i.options.map .text) := by
    by_cases ho : i.options = [] <;> simp [ho]
  rw [members]
  simp only [List.mem_append,hoptions,mem_unlessEmpty,List.mem_singleton,Prod.mk.injEq,or_assoc]
  refine or_congr_left ?_
  cases i.category <;> simp [eq_comm]

lemma nodup_names (i : Input) : (i.members.map (·.1)).Nodup := by
  have hsublist : (i.members.map (·.1)).Sublist (["type"] ++ ["description"] ++ ["placeholder"] ++ ["required"] ++
      ["default"] ++ ["options"] ++ ["index"] ++ ["format"] ++ ["is_multi"] ++ ["display_name"]) := by
    simp only [members,List.map_append]
    repeat' apply List.Sublist.append
    all_goals first | exact sublist_names_unlessEmpty _ _ | exact List.Sublist.refl _ | skip
    · cases i.category <;> simp
    · split <;> simp
  exact hsublist.nodup (by decide)

lemma read?_of_spells {i : Input} (hi : i.Expressible) {t : Tree} (h : t.Spells i.data) : read? t = some i := by
  obtain ⟨o,ho,hspell⟩ := h.fields
  have hnodup := i.nodup_names
  have hcategory : o.optional? "type" asText? = some (i.category.map Category.text) := by
    cases hc : i.category with
    | none => exact hspell.defaulted?_of_absent hnodup (by simp [mem_members,hc])
    | some c => exact hspell.defaulted? hnodup (mem_members.mpr (by simp [hc])) fun t ht => ht.text.2
  have hoptions : o.list? "options" asText? = some i.options := by
    by_cases ho : i.options = []
    · rw [ho]
      exact hspell.defaulted?_of_absent hnodup (by simp [mem_members,ho])
    · refine hspell.defaulted? hnodup (v := .list (i.options.map .text)) (by simp [mem_members,ho]) fun t ht => ?_
      exact ht.asList? fun s _ t ht => ht.text.1
  have hdescription : o.defaulted? "description" asText? "" = some i.description :=
    hspell.defaulted? hnodup (v := .text i.description) (by simp [mem_members]) fun t ht => ht.text.1
  have hrequired : o.defaulted? "required" asBool? false = some i.required :=
    hspell.defaulted? hnodup (v := .bool i.required) (by simp [mem_members]) fun t ht => ht.bool.1
  have hindex : o.defaulted? "index" asInteger? 999 = some i.index :=
    hspell.defaulted? hnodup (v := .number (.int i.index)) (by simp [mem_members]) fun t ht => ht.integer hi.index
  have hmulti : o.defaulted? "is_multi" asBool? false = some i.isMulti :=
    hspell.defaulted? hnodup (v := .bool i.isMulti) (by simp [mem_members]) fun t ht => ht.bool.1
  have hplaceholder : o.defaulted? "placeholder" asText? "" = some i.placeholder :=
    hspell.unlessEmpty hnodup (by simp [mem_members])
  have hdefault : o.defaulted? "default" asText? "" = some i.default :=
    hspell.unlessEmpty hnodup (by simp [mem_members])
  have hformat : o.defaulted? "format" asText? "" = some i.format :=
    hspell.unlessEmpty hnodup (by simp [mem_members])
  have hlabel : o.defaulted? "display_name" asText? "" = some i.displayName :=
    hspell.unlessEmpty hnodup (by simp [mem_members])
  have hofText : (i.category.map Category.text).map Category.ofText = i.category := by
    cases hc : i.category with
    | none => rfl
    | some c => simp [hi.category c hc]
  simp [read?,ho,hcategory,hoptions,hdescription,hrequired,hindex,hmulti,hplaceholder,hdefault,hformat,hlabel,
    hofText]

/-- An input that was read can be told by its text. -/
lemma expressible_of_read? {t : Tree} {i : Input} (h : read? t = some i) : i.Expressible := by
  obtain ⟨o,-,h⟩ := Option.bind_eq_some_iff.mp h
  obtain ⟨typeName,-,h⟩ := Option.bind_eq_some_iff.mp h
  obtain ⟨description,-,h⟩ := Option.bind_eq_some_iff.mp h
  obtain ⟨placeholder,-,h⟩ := Option.bind_eq_some_iff.mp h
  obtain ⟨required,-,h⟩ := Option.bind_eq_some_iff.mp h
  obtain ⟨default,-,h⟩ := Option.bind_eq_some_iff.mp h
  obtain ⟨options,-,h⟩ := Option.bind_eq_some_iff.mp h
  obtain ⟨index,hindex,h⟩ := Option.bind_eq_some_iff.mp h
  obtain ⟨format,-,h⟩ := Option.bind_eq_some_iff.mp h
  obtain ⟨isMulti,-,h⟩ := Option.bind_eq_some_iff.mp h
  obtain ⟨displayName,-,h⟩ := Option.bind_eq_some_iff.mp h
  cases h
  constructor
  · intro c hc
    obtain ⟨name,-,rfl⟩ := Option.map_eq_some_iff.mp hc
    exact Category.ofText_text_ofText name
  · rcases exists_of_defaulted? hindex with rfl | ⟨t,ht⟩
    · rfl
    · exact isWord_of_asInteger? ht

/-- An input that was made from a schema can be told by its text, whatever a mask with an index of 64 bits says of it. -/
lemma expressible_override_ofSchema (s : Schema) (required : Bool) (description name : String) {p : Mask.Parameter}
    (hp : isWord p.index) : ((ofSchema s required description).override name p).categorize.Expressible := by
  constructor
  · intro c hc
    rw [category_categorize_override] at hc
    cases hc
    cases Mask.spoken p.type with
    | some name => exact Category.ofText_text_ofText name
    | none =>
      show Category.ofText ((categoryOf s).getD .json).text = (categoryOf s).getD .json
      rw [categoryOf]
      split
      · cases s.soleType? with
        | none => rfl
        | some t => cases t <;> rfl
      · rfl
  · show isWord (if p.index = 0 then (ofSchema s required description).index else p.index) = true
    split
    · rfl
    · exact hp

end Input

namespace NamedAction

/-- All inputs can be told by their texts. -/
def Expressible (a : NamedAction) : Prop := ∀ name i, a.parameters.get? name = some i → i.Expressible

lemma nodup_names (a : NamedAction) : (a.members.map (·.1)).Nodup := by
  cases ho : a.isConnectionOptional <;> simp [members,ho]

lemma read?_of_spells {a : NamedAction} (ha : a.Expressible) {t : Tree} (h : t.Spells a.data) : read? t = some a := by
  obtain ⟨o,ho,hspell⟩ := h.fields
  have hnodup := a.nodup_names
  have hname : o.required? "name" asText? = some a.name :=
    hspell.requiredText hnodup (by simp [members])
  have hlabel : o.required? "display_name" asText? = some a.displayName :=
    hspell.requiredText hnodup (by simp [members])
  have hdescription : o.required? "description" asText? = some a.description :=
    hspell.requiredText hnodup (by simp [members])
  have henabled : o.required? "enabled" asBool? = some a.enabled :=
    hspell.requiredBool hnodup (by simp [members])
  have hparameters : o.required? "parameters" (asDict? Input.read?) = some a.parameters := by
    refine hspell.required? hnodup (v := a.parameters.data Input.data) (by simp [members]) fun t ht => ?_
    exact ht.asDict? fun name i hi t ht => Input.read?_of_spells (ha name i hi) ht
  have hrun : o.required? "action_to_run" asText? = some a.actionToRun :=
    hspell.requiredText hnodup (by simp [members])
  have hvalues : o.required? "action_to_run_param_values" (asDict? asText?) = some a.values := by
    refine hspell.required? hnodup (v := a.values.data .text) (by simp [members]) fun t ht => ?_
    exact ht.asDict? fun _ _ _ t ht => ht.text.1
  have hoptional : o.optional? "is_connection_optional" asBool? = some a.isConnectionOptional := by
    cases hc : a.isConnectionOptional with
    | none => exact hspell.defaulted?_of_absent hnodup (by simp [members,hc])
    | some b =>
      exact hspell.defaulted? hnodup (v := .bool b) (by simp [members,hc]) fun t ht => ht.bool.2
  simp [read?,ho,hname,hlabel,hdescription,henabled,hparameters,hrun,hvalues,hoptional]

lemma expressible_of_read? {t : Tree} {a : NamedAction} (h : read? t = some a) : a.Expressible := by
  obtain ⟨o,-,h⟩ := Option.bind_eq_some_iff.mp h
  obtain ⟨name,-,h⟩ := Option.bind_eq_some_iff.mp h
  obtain ⟨displayName,-,h⟩ := Option.bind_eq_some_iff.mp h
  obtain ⟨description,-,h⟩ := Option.bind_eq_some_iff.mp h
  obtain ⟨enabled,-,h⟩ := Option.bind_eq_some_iff.mp h
  obtain ⟨parameters,hparameters,h⟩ := Option.bind_eq_some_iff.mp h
  obtain ⟨actionToRun,-,h⟩ := Option.bind_eq_some_iff.mp h
  obtain ⟨values,-,h⟩ := Option.bind_eq_some_iff.mp h
  obtain ⟨isConnectionOptional,-,h⟩ := Option.bind_eq_some_iff.mp h
  cases h
  intro name i hi
  obtain ⟨member,-,hread⟩ := Option.bind_eq_some_iff.mp hparameters
  obtain ⟨t,-,hread⟩ := Option.bind_eq_some_iff.mp hread
  rw [get?_of_asDict? hread] at hi
  obtain ⟨_,-,hi⟩ := Option.bind_eq_some_iff.mp hi
  exact Input.expressible_of_read? hi

end NamedAction

namespace Catalog

/-- All inputs can be told by their texts. -/
def Expressible (c : Catalog) : Prop := ∀ a ∈ c.actions, a.Expressible

/-- Whatever spells the value of a catalog reads as the catalog. -/
theorem ofTree?_of_spells {c : Catalog} (hc : c.Expressible) {t : Tree} (h : t.Spells c.data) : ofTree? t = some c := by
  obtain ⟨o,ho,hspell⟩ := h.fields
  have hnodup : (c.members.map (·.1)).Nodup := by simp [members]
  have hname : o.required? "name" asText? = some c.name :=
    hspell.requiredText hnodup (by simp [members])
  have htypes : o.required? "connection_types" (asDict? Data.ofTree?) = some c.connectionTypes := by
    refine hspell.required? hnodup (v := c.connectionTypes.data id) (by simp [members]) fun t ht => ?_
    exact ht.asDict? fun _ _ _ t ht => ht.value
  have hicon : o.required? "icon_uri" asText? = some c.iconUri :=
    hspell.requiredText hnodup (by simp [members])
  have hoptional : o.required? "is_connection_optional" asBool? = some c.isConnectionOptional :=
    hspell.requiredBool hnodup (by simp [members])
  have hactions : o.required? "actions" (asList? NamedAction.read?) = some c.actions := by
    refine hspell.required? hnodup (v := .list (c.actions.map NamedAction.data)) (by simp [members]) fun t ht => ?_
    exact ht.asList? fun a ha t ht => NamedAction.read?_of_spells (hc a ha) ht
  simp [ofTree?,ho,hname,htypes,hicon,hoptional,hactions]

lemma expressible_of_read? {text : String} {c : Catalog} (h : read? text = some c) : c.Expressible := by
  obtain ⟨t,-,h⟩ := Option.bind_eq_some_iff.mp h
  obtain ⟨o,-,h⟩ := Option.bind_eq_some_iff.mp h
  obtain ⟨name,-,h⟩ := Option.bind_eq_some_iff.mp h
  obtain ⟨types,-,h⟩ := Option.bind_eq_some_iff.mp h
  obtain ⟨icon,-,h⟩ := Option.bind_eq_some_iff.mp h
  obtain ⟨optional,-,h⟩ := Option.bind_eq_some_iff.mp h
  obtain ⟨actions,hactions,h⟩ := Option.bind_eq_some_iff.mp h
  cases h
  intro a ha
  obtain ⟨member,-,hread⟩ := Option.bind_eq_some_iff.mp hactions
  obtain ⟨t,-,hread⟩ := Option.bind_eq_some_iff.mp hread
  obtain ⟨t,ht⟩ := exists_of_asList? hread ha
  exact NamedAction.expressible_of_read? ht

end Catalog

namespace Mask

/-- A mask whose indices have 64 bits. -/
def HoldsWords (m : Mask) : Prop := ∀ action input, isWord (m.entry action input).index

lemma of_entries? {α : Type} {f : Tree → Option α} {absent : α} {t : Tree} {d : Dict α}
    (h : entries? f absent t = some d) {key : String} {x : α} (hx : d.get? key = some x) :
    x = absent ∨ ∃ t, f t = some x := by
  obtain ⟨inner,hinner,h⟩ := Option.bind_eq_some_iff.mp h
  cases inner with
  | none =>
    cases h
    cases hx
  | some inner =>
    cases h
    rw [Dict.get?_map] at hx
    obtain ⟨v,hv,rfl⟩ := Option.map_eq_some_iff.mp hx
    rw [get?_of_asDict? (eq_some_of_optional? hinner)] at hv
    obtain ⟨entry,-,hread⟩ := Option.bind_eq_some_iff.mp hv
    cases v with
    | none => exact .inl rfl
    | some x => exact .inr ⟨entry,eq_some_of_optional? hread⟩

lemma Parameter.isWord_of_read? {t : Tree} {p : Parameter} (h : read? t = some p) : isWord p.index := by
  obtain ⟨o,-,h⟩ := Option.bind_eq_some_iff.mp h
  obtain ⟨nickname,-,h⟩ := Option.bind_eq_some_iff.mp h
  obtain ⟨required,-,h⟩ := Option.bind_eq_some_iff.mp h
  obtain ⟨type,-,h⟩ := Option.bind_eq_some_iff.mp h
  obtain ⟨index,hindex,h⟩ := Option.bind_eq_some_iff.mp h
  obtain ⟨isMulti,-,h⟩ := Option.bind_eq_some_iff.mp h
  obtain ⟨default,-,h⟩ := Option.bind_eq_some_iff.mp h
  obtain ⟨description,-,h⟩ := Option.bind_eq_some_iff.mp h
  cases h
  rcases exists_of_defaulted? hindex with rfl | ⟨t,ht⟩
  · rfl
  · exact isWord_of_asInteger? ht

lemma Action.isWord_of_read? {t : Tree} {a : Action} (h : read? t = some a) {input : String} {p : Parameter}
    (hp : a.parameters.get? input = some p) : isWord p.index := by
  obtain ⟨o,-,h⟩ := Option.bind_eq_some_iff.mp h
  obtain ⟨nickname,-,h⟩ := Option.bind_eq_some_iff.mp h
  obtain ⟨displayName,-,h⟩ := Option.bind_eq_some_iff.mp h
  obtain ⟨description,-,h⟩ := Option.bind_eq_some_iff.mp h
  obtain ⟨isConnectionOptional,-,h⟩ := Option.bind_eq_some_iff.mp h
  obtain ⟨parameters,hparameters,h⟩ := Option.bind_eq_some_iff.mp h
  cases h
  rcases exists_of_defaulted? hparameters with rfl | ⟨t,ht⟩
  · cases hp
  · rcases of_entries? ht hp with rfl | ⟨t,ht⟩
    · rfl
    · exact Parameter.isWord_of_read? ht

lemma holdsWords_of_ofTree? {t : Tree} {m : Mask} (h : ofTree? t = some m) : m.HoldsWords := by
  obtain ⟨o,-,h⟩ := Option.bind_eq_some_iff.mp h
  obtain ⟨connection,-,h⟩ := Option.bind_eq_some_iff.mp h
  obtain ⟨requestUrl,-,h⟩ := Option.bind_eq_some_iff.mp h
  obtain ⟨actions,hactions,h⟩ := Option.bind_eq_some_iff.mp h
  obtain ⟨name,-,h⟩ := Option.bind_eq_some_iff.mp h
  obtain ⟨types,-,h⟩ := Option.bind_eq_some_iff.mp h
  obtain ⟨icon,-,h⟩ := Option.bind_eq_some_iff.mp h
  obtain ⟨optional,-,h⟩ := Option.bind_eq_some_iff.mp h
  cases h
  intro action input
  show isWord (((actions.get? action).bind (·.parameters.get? input)).getD {}).index = true
  cases ha : actions.get? action with
  | none => rfl
  | some a =>
    cases hp : a.parameters.get? input with
    | none => simp [hp,isWord]
    | some p =>
      rw [Option.bind_some,hp,Option.getD_some]
      rcases exists_of_defaulted? hactions with rfl | ⟨t,ht⟩
      · cases ha
      · rcases of_entries? ht ha with rfl | ⟨t,ht⟩
        · cases hp
        · exact Action.isWord_of_read? ht hp

/-- A mask that was read has no other indices. -/
theorem holdsWords_of_read {text : String} {m : Mask} (h : read text = .ok m) : m.HoldsWords := by
  rw [read_eq] at h
  cases hspelled : spelled? text with
  | none => simp [hspelled] at h
  | some m' =>
    simp only [hspelled] at h
    obtain ⟨-,rfl⟩ := check_eq_ok_iff.mp h
    rw [spelled?] at hspelled
    split at hspelled
    · cases hspelled
      exact fun _ _ => rfl
    · obtain ⟨t,-,hread⟩ := Option.bind_eq_some_iff.mp hspelled
      exact holdsWords_of_ofTree? hread

end Mask

namespace Catalog

/-- A catalog that is generated can be told by its text. -/
theorem expressible_of_generate {d : Document} {declared : DeclaredSecurity} {m : Mask} {g : Generation}
    (hm : m.HoldsWords) (hg : generate d declared m = .ok g) : g.catalog.Expressible := by
  obtain ⟨found,report,hfound,hcatalog⟩ := exists_of_generate hg
  intro n hn name shown hshown
  obtain ⟨a,ha,hentry⟩ := (mem_actions_iff hcatalog).mp hn
  rw [(of_entryOf hentry).2] at hshown
  obtain ⟨i,hi,rfl⟩ := NamedAction.eq_of_get?_shown hshown
  obtain ⟨s,required,description,rfl⟩ := Discovery.exists_ofSchema hfound ha hi
  exact Input.expressible_override_ofSchema s required description name (hm a.name name)

/-- A catalog that was generated under a mask with indices of 64 bits, or that was read. -/
inductive Arises : Catalog → Prop where
  | generated {d : Document} {declared : DeclaredSecurity} {m : Mask} {g : Generation} :
      m.HoldsWords → generate d declared m = .ok g → Arises g.catalog
  | read {text : String} {c : Catalog} : read? text = some c → Arises c

lemma Arises.expressible {c : Catalog} (h : c.Arises) : c.Expressible := by
  cases h with
  | generated hm hg => exact expressible_of_generate hm hg
  | read h => exact expressible_of_read? h

/-- Whether the text of a catalog, if it has one, is the text of a tree that spells its value. No more is asked of the
writer and the reader of texts. -/
def ParsesBack (c : Catalog) : Prop := ∀ text, c.print? = some text → ∃ t, Yaml.read? text = some t ∧ t.Spells c.data

/-- A catalog that is generated comes with its text. The text of a catalog that was generated or read is read as this
very catalog, as long as it is the text of a tree that spells the value of the catalog. -/
theorem reads_back (c : Catalog) (hc : c.Arises) (hparse : c.ParsesBack) :
    (∀ d declared m g, generate d declared m = .ok g → g.catalog = c → c.print? = some g.text) ∧
      ∀ text, c.print? = some text → read? text = some c := by
  constructor
  · rintro d declared m g hg rfl
    exact print?_of_generate hg
  · intro text htext
    obtain ⟨t,ht,hspells⟩ := hparse text htext
    exact Option.bind_eq_some_iff.mpr ⟨t,ht,ofTree?_of_spells hc.expressible hspells⟩

/-- A document with one parameter of no type. -/
def untypedDocument : Document where
  paths := .ofList [("/",{ operation := fun
    | .get => some { operationId := some "r", parameters := [.inline { name := "p", location := .query }] }
    | _ => none })]

/-- A mask under which the parameter is a date. -/
def datingMask : Mask where
  actions := .ofList [("r",{ parameters := .ofList [("p",{ type := some "date" })] })]

/-- The text that the mask is read from. -/
def datingText : String := "actions: \x7br: \x7bparameters: \x7bp: \x7btype: date\x7d\x7d\x7d\x7d"

def datedInput : Input where
  category := some (.custom "date")
  displayName := "P"

def datedCatalog : Catalog where
  name := ""
  connectionTypes := ∅
  iconUri := ""
  isConnectionOptional := false
  actions := [{
    name := "r"
    displayName := "R"
    description := ""
    parameters := .ofList [("p",datedInput)]
    actionToRun := "http.get"
    values := .ofList [("url","\x7b\x7b'' + '/'\x7d\x7d\x7b\x7b'?p=' + params.p\x7d\x7d")] }]

/-- Whether what is written of a catalog is the text of a tree that spells its value. -/
def parsesBack? (c : Catalog) : Bool :=
  ((tokens? (Writer.document (c.members.map fun e => (.text e.1,e.2)))).bind document?).any fun (t,r) =>
    r.aliases ≤ 100 * (r.events + 2) && t.depth ≤ maxDepth && t.isBare && Data.ofTree? t = some c.data

lemma parsesBack_of_parsesBack? {c : Catalog} (h : c.parsesBack?) : c.ParsesBack := by
  intro text htext
  rw [print?,Yaml.print?] at htext
  split at htext
  · cases htext
    rw [parsesBack?] at h
    cases hdocument : (tokens? (Writer.document (c.members.map fun e => (.text e.1,e.2)))).bind document? with
    | none => simp [hdocument] at h
    | some page =>
      obtain ⟨t,r⟩ := page
      simp only [hdocument,Option.any_some,Bool.and_eq_true,decide_eq_true_eq] at h
      obtain ⟨⟨⟨haliases,hdepth⟩,hbare⟩,hvalue⟩ := h
      refine ⟨t,?_,hbare,hvalue⟩
      obtain ⟨ts,hts,hdocument⟩ := Option.bind_eq_some_iff.mp hdocument
      simp [Yaml.read?,hts,hdocument,hdepth,Nat.not_lt.mpr haliases]
  · cases htext

/-- Under a mask that was read from a text, the date is a date again, and so is everything that was left out of the
text of the catalog. -/
theorem reads_back_dated : Mask.read datingText = .ok datingMask ∧ ∃ g text,
    generate untypedDocument ∅ datingMask = .ok g ∧ g.catalog = datedCatalog ∧
    datedCatalog.print? = some text ∧ read? text = some datedCatalog := by
  have hmask : (Mask.read datingText).toOption = some datingMask := by decide +kernel
  have hmask : Mask.read datingText = .ok datingMask := Except.toOption_eq_some_iff.mp hmask
  have hcatalog : (generate untypedDocument ∅ datingMask).toOption.map (·.catalog) = some datedCatalog := by
    decide +kernel
  obtain ⟨g,hg,hcatalog⟩ := Option.map_eq_some_iff.mp hcatalog
  have hg : generate untypedDocument ∅ datingMask = .ok g := Except.toOption_eq_some_iff.mp hg
  have harises : datedCatalog.Arises := hcatalog ▸ .generated (Mask.holdsWords_of_read hmask) hg
  have hparse : datedCatalog.ParsesBack := parsesBack_of_parsesBack? (by decide +kernel)
  obtain ⟨hprint,hread⟩ := reads_back datedCatalog harises hparse
  have htext := hprint _ _ _ g hg hcatalog
  exact ⟨hmask,g,g.text,hg,hcatalog,htext,hread g.text htext⟩

end Catalog
end ActionCatalog
