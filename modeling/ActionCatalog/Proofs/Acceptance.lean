import ActionCatalog.Console.Job
import ActionCatalog.Proofs.Security

/-! A document is read twice, the second time for the security it spells out. Main statement: the second reading
accepts what the first one does, unless the paths are null or an entry of a path has no type. -/
namespace ActionCatalog
namespace Tree
open Yaml
variable {α : Type}

/-- A null, or a scalar that spells one. -/
def IsNull : Tree → Prop
  | .null => True
  | .written w => w.style = .plain ∧ (w.tag = none ∨ w.tag = some (ownTag "null")) ∧ isNull w.text.toList
  | _ => False

def entries : Tree → List (Tree × Tree)
  | .record _ entries => entries
  | _ => []

/-- The paths are not null, and each entry of a path has a type, also where every type is admitted. -/
def Rereads (t : Tree) : Prop := ∀ paths, t.child? "paths" = some paths →
  ¬paths.IsNull ∧ ∀ item ∈ paths.entries, ∀ entry ∈ item.2.entries, ∃ v, entry.2.settle? = some v

/-- A dictionary is read of an object if something is read of each of its entries. -/
lemma exists_asDict?_iff {f : Tree → Option α} {t : Tree} :
    (∃ d, t.asDict? f = some d) ↔ (∃ o, t.fields? = some o) ∧ ∀ e ∈ t.entries, ∃ y, f e.2 = some y := by
  cases t with
  | record tag es =>
    have hdict : (∃ d, (record tag es).asDict? f = some d) ↔
        ∀ e ∈ es, ∃ name y, e.1.asText? = some name ∧ f e.2 = some y := by
      simp [asDict?,Option.bind_eq_some_iff,Option.exists_mapM_eq_some_iff]
    have hfields : (∃ o, (record tag es).fields? = some o) ↔ ∀ e ∈ es, ∃ name, e.1.asText? = some name := by
      simp [fields?,Option.bind_eq_some_iff,Option.exists_mapM_eq_some_iff]
    rw [hdict,hfields,entries]
    simp only [exists_and_left,exists_and_right,← forall₂_and]
  | _ => simp [asDict?,fields?,entries]

lemma fields?_eq_none_of_isNull {t : Tree} (h : t.IsNull) : t.fields? = none := by
  cases t with
  | null => rfl
  | written w =>
    have htext : w.text ≠ "" := by
      intro htext
      rw [IsNull,htext] at h
      exact absurd h.2.2 (by decide)
    simp [fields?,isEmptyScalar,htext]
  | _ => cases h

/-- What may be null is null, or is read as what it may be. -/
lemma isNull_or_of_optional? {f : Tree → Option α} {t : Tree} {x : Option (Dict α)}
    (h : t.optional? (asDict? f) = some x) : t.IsNull ∨ ∃ d, t.asDict? f = some d := by
  have hread {y : Option (Dict α)} (h : (t.asDict? f).map some = some y) : ∃ d, t.asDict? f = some d := by
    obtain ⟨d,hd,-⟩ := Option.map_eq_some_iff.mp h
    exact ⟨d,hd⟩
  cases t with
  | null => exact .inl trivial
  | written w =>
    simp only [optional?] at h
    split at h
    · exact .inr (hread h)
    rename_i hplain
    rw [ne_eq,not_not] at hplain
    split at h
    · rename_i htag
      split at h
      · exact .inl ⟨hplain,.inr htag,by assumption⟩
      · cases h
    split at h
    · rename_i hnothing
      obtain ⟨htag,hempty | hnull⟩ : w.tag = none ∧ (w.text = "" ∨ isNull w.text.toList = true) := by
        simpa using hnothing
      · exact .inr ⟨∅,by simp [asDict?,isEmptyScalar,hempty,hplain]⟩
      · exact .inl ⟨hplain,.inl htag,hnull⟩
    · exact .inr (hread h)
  | _ => exact .inr (hread h)

end Tree

namespace DeclaredSecurity
open ActionCatalog.Tree

lemma exists_spellsOut?_iff {entry : Tree} :
    (∃ b, spellsOut? entry = some b) ↔ ∃ v, entry.settle? = some v := by
  constructor
  · rintro ⟨b,h⟩
    obtain ⟨v,hv,-⟩ := Option.bind_eq_some_iff.mp h
    exact ⟨v,hv⟩
  · rintro ⟨v,hv⟩
    cases entry <;> simp [spellsOut?,hv]

lemma exists_keys?_iff {item : Tree} : (∃ keys, keys? item = some keys) ↔
    (∃ o, item.fields? = some o) ∧ ∀ entry ∈ item.entries, ∃ v, entry.2.settle? = some v := by
  have hdict : (∃ keys, keys? item = some keys) ↔ ∃ d, item.asDict? spellsOut? = some d := by
    simp [keys?,Option.bind_eq_some_iff]
  simp only [hdict,exists_asDict?_iff,exists_spellsOut?_iff]

/-- What a document is read of is read again if its paths are not null and their entries have types. -/
theorem exists_read?_iff {t : Tree} {d : Document} (h : Document.read? t = some d) :
    (∃ declared, read? t = some declared) ↔ t.Rereads := by
  obtain ⟨o,read,ho,hread,-⟩ := Document.exists_paths h
  obtain ⟨member,hm,hread⟩ := Option.bind_eq_some_iff.mp hread
  rw [Rereads,child?_of_member? ho hm,read?,ho,Option.bind_eq_bind,Option.bind_some,Fields.dict?,
    Fields.defaulted?,hm]
  cases member with
  | none => simp
  | some paths =>
    simp only [Option.some.injEq,forall_eq']
    change (∃ declared, paths.asDict? keys? = some declared) ↔ _
    rw [exists_asDict?_iff]
    rcases isNull_or_of_optional? hread with hnull | hdict
    · simp [fields?_eq_none_of_isNull hnull,hnull]
    · obtain ⟨hfields,hitems⟩ := exists_asDict?_iff.mp hdict
      have hobject : ¬paths.IsNull := by
        intro hnull
        obtain ⟨o,ho⟩ := hfields
        rw [fields?_eq_none_of_isNull hnull] at ho
        cases ho
      rw [and_iff_right hfields,and_iff_right hobject]
      refine forall₂_congr fun item hitem => ?_
      obtain ⟨i,hi⟩ := hitems item hitem
      obtain ⟨o,ho,-⟩ := Option.bind_eq_some_iff.mp hi
      rw [exists_keys?_iff,and_iff_right ⟨o,ho⟩]

end DeclaredSecurity

namespace Tree

lemma Settled.entries {t : Tree} (h : t.Settled) : ∀ e ∈ t.entries, e.2.Settled := by
  cases t with
  | record tag es => exact fun e he => ((settled_record_iff.mp h).2 e he).2
  | _ => simp [Tree.entries]

lemma Settled.child? {t v : Tree} (h : t.Settled) {key : String} (hv : t.child? key = some v) : v.Settled := by
  cases t with
  | record tag es =>
    obtain ⟨e,he,rfl⟩ := Option.map_eq_some_iff.mp hv
    exact h.entries e (List.mem_reverse.mp (List.mem_of_find?_eq_some he))
  | _ => cases hv

lemma Settled.isNull_iff {t : Tree} (h : t.Settled) : t.IsNull ↔ t = .null := by
  cases t with
  | written w => exact absurd h (not_settled_written w)
  | _ => simp [IsNull]

lemma rereads_iff_of_settled {t : Tree} (h : t.Settled) : t.Rereads ↔ t.child? "paths" ≠ some .null := by
  constructor
  · intro hrereads hnull
    exact (hrereads .null hnull).1 trivial
  · intro hnull paths hpaths
    have hsettled := h.child? hpaths
    refine ⟨fun hisNull => ?_,fun item hitem entry hentry => ?_⟩
    · rw [hsettled.isNull_iff.mp hisNull] at hpaths
      exact hnull hpaths
    · exact ⟨entry.2,(hsettled.entries item hitem).entries entry hentry⟩

end Tree

namespace Document
open Console

/-- A document that is read is also read for the security it spells out, unless its paths are null or an entry of a
path has no type, and of a JSON text unless its paths are null. A job whose document is not read again ends in this
problem, although the document was read. -/
theorem read_again_iff (f : Format) (bytes : ByteArray) (t : Tree) (d : Document) (ht : f.tree? bytes = some t)
    (hd : read? t = some d) :
    ((∃ declared, DeclaredSecurity.read? t = some declared) ↔ t.Rereads) ∧
    (f = .json → (t.Rereads ↔ t.child? "paths" ≠ some .null)) ∧
    ∀ (j : Job) (look : String → Entry) (path : String), j.source = .file path → look path = .file bytes →
      j.source.format bytes = f →
        (t.Rereads → ∃ declared, j.loadDocument look = .ok (d,declared)) ∧
        (¬t.Rereads → j.loadDocument look = .error (.readSecurity j.source)) := by
  have hagain := DeclaredSecurity.exists_read?_iff hd
  refine ⟨hagain,?_,fun j look path hsource hlook hformat => ?_⟩
  · rintro rfl
    obtain ⟨text,-,hread⟩ := Option.bind_eq_some_iff.mp ht
    exact Tree.rereads_iff_of_settled (Json.settled_of_read hread)
  · rw [hsource] at hformat
    rw [← hagain]
    cases hdeclared : DeclaredSecurity.read? t with
    | none => simp [Job.loadDocument,hsource,hlook,hformat,ht,hd,hdeclared]
    | some declared => simp [Job.loadDocument,hsource,hlook,hformat,ht,hd,hdeclared]

/-- A document whose paths are null. -/
def pathless : Tree := .ofMembers [("openapi",.text "3.1.0"),
  ("info",.ofMembers [("title",.text "t"), ("version",.text "1")]), ("paths",.null)]

def pathlessText : String :=
  "\x7b\"openapi\":\"3.1.0\",\"info\":\x7b\"title\":\"t\",\"version\":\"1\"\x7d,\"paths\":null\x7d"

/-- Null paths are read as those of a document without any, but not a second time. -/
theorem read_again_iff_pathless : ∃ d, Format.json.tree? pathlessText.toUTF8 = some pathless ∧
    read? pathless = some d ∧ d.paths = ∅ ∧ ¬(∃ declared, DeclaredSecurity.read? pathless = some declared) ∧
    ∀ (j : Job) (look : String → Entry), j.source = .file "openapi.json" →
      look "openapi.json" = .file pathlessText.toUTF8 → j.loadDocument look = .error (.readSecurity j.source) := by
  have ht : Format.json.tree? pathlessText.toUTF8 = some pathless := by rfl
  obtain ⟨d,hd,hpaths⟩ : ∃ d, read? pathless = some d ∧ d.paths = ∅ :=
    Option.map_eq_some_iff.mp (by rfl : (read? pathless).map (·.paths) = some ∅)
  obtain ⟨hagain,hjson,hjob⟩ := read_again_iff .json pathlessText.toUTF8 pathless d ht hd
  have hrefused : ¬pathless.Rereads := fun h => (hjson rfl).mp h rfl
  refine ⟨d,ht,hd,hpaths,fun h => hrefused (hagain.mp h),fun j look hsource hlook => ?_⟩
  have hformat : j.source.format pathlessText.toUTF8 = .json := by
    rw [hsource]
    decide +kernel
  exact (hjob j look "openapi.json" hsource hlook hformat).2 hrefused

end Document
end ActionCatalog
