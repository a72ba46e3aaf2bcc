import ActionCatalog.Body.Expansion
import ActionCatalog.Dict.Lookup
import Mathlib.Logic.Relation

/-! The schemas of a document as a graph: the nodes that stand in a schema, the schemas they lead to,
and the names under which they are followed. -/
namespace ActionCatalog

namespace Pointer

lemma parse?_of_malformed {text : String} (h : localName text = .malformed) : parse? text.toList = none := by
  simp only [localName] at h
  split at h
  · split at h
    · assumption
    · split at h <;> cases h
  · cases h

lemma parse?_of_named {text name : String} (h : localName text = .named name) :
    ∃ p kind, parse? text.toList = some p ∧ Kind.ofSection? p.kind = some kind ∧ String.ofList p.name = name := by
  simp only [localName] at h
  split at h
  · split at h
    · cases h
    · rename_i p hp
      split at h
      · rename_i hk
        obtain ⟨kind,hkind⟩ := Option.isSome_iff_exists.mp hk
        injection h with h
        exact ⟨p,kind,hp,hkind,h⟩
      · cases h
  · cases h

lemma nameOf_of_malformed (wanted : Kind) {text : String} (h : localName text = .malformed) :
    nameOf wanted text = .error (.malformed text) := by
  simp [nameOf,parse?_of_malformed h]

/-- A reference with a local name is looked up under it, or is of another kind. -/
lemma nameOf_of_named (wanted : Kind) {text name : String} (h : localName text = .named name) :
    nameOf wanted text = .ok name ∨ ∃ found, nameOf wanted text = .error (.otherKind found wanted) := by
  obtain ⟨p,kind,hp,hk,hn⟩ := parse?_of_named h
  by_cases hw : kind = wanted
  · left
    simp [nameOf,hp,hk,hw,hn]
  · right
    exact ⟨kind,by simp [nameOf,hp,hk,hw]⟩

end Pointer

namespace RefOr
variable {α : Type}

/-- The name under which a node is followed. A node in place has none, and neither has a reference that
does not start like one to a component of its own document. -/
def names : RefOr α → List String
  | inline _ => []
  | reference target _ =>
    match Pointer.localName target with
    | .named name => [name]
    | .elsewhere => []
    | .malformed => []

@[simp] theorem names_inline (v : α) : (inline v).names = [] := rfl

lemma names_eq_singleton {target name : String} {note : Option String} :
    (reference target note : RefOr α).names = [name] ↔ Pointer.localName target = .named name := by
  simp only [names]
  split <;> simp_all

lemma names_eq_of_mem {node : RefOr α} {name : String} (h : name ∈ node.names) : node.names = [name] := by
  cases node with
  | inline _ => cases h
  | reference target note =>
    simp only [names] at h ⊢
    split at h <;> simp_all

/-- What a reference leads to stands in place in some component, and its own name is a component's. -/
lemma of_follow {wanted : Kind} {table : Dict (RefOr α)} {n : Nat} {target : String} {v : α}
    (h : follow wanted table n target = .ok v) :
    (∃ name, Pointer.nameOf wanted target = .ok name ∧ name ∈ table.keys) ∧
      ∃ k, table.get? k = some (.inline v) := by
  induction n generalizing target with
  | zero => cases h
  | succ n ih =>
    simp only [follow] at h
    cases hn : Pointer.nameOf wanted target with
    | error o => rw [hn] at h; cases h
    | ok name =>
      rw [hn] at h
      simp only [bind,Except.bind] at h
      split at h
      · cases h
      · rename_i u hu
        cases h
        exact ⟨⟨name,rfl,(Dict.mem_keys_iff _ _).mpr (by simp [Dict.contains,hu])⟩,name,hu⟩
      · rename_i next note hu
        exact ⟨⟨name,rfl,(Dict.mem_keys_iff _ _).mpr (by simp [Dict.contains,hu])⟩,(ih h).2⟩

/-- References that are looked up under one name lead to one place. -/
lemma follow_congr {wanted : Kind} {table : Dict (RefOr α)} {n : Nat} {a b name : String} {v : α}
    (ha : Pointer.nameOf wanted a = .ok name) (hb : Pointer.nameOf wanted b = .ok name)
    (h : follow wanted table n a = .ok v) : follow wanted table n b = .ok v := by
  cases n with
  | zero => cases h
  | succ n =>
    simp only [follow,ha,hb,bind,Except.bind] at h ⊢
    split at h <;> simp_all

end RefOr

namespace Components
variable {c : Components}

/-- A reference that is malformed leads nowhere. -/
lemma schema_of_malformed {target : String} {note : Option String} (h : Pointer.localName target = .malformed) :
    c.schema (.reference target note) = .error (.malformed target) := by
  show RefOr.follow _ _ _ _ = _
  simp [RefOr.follow,Pointer.nameOf_of_malformed _ h,bind,Except.bind]

/-- The names of a node that leads to a schema are names of components. -/
lemma names_subset_keys {node : RefOr Schema} {s : Schema} (h : c.schema node = .ok s) :
    node.names ⊆ c.schemas.keys := by
  intro name hm
  cases node with
  | inline _ => simp at hm
  | reference target note =>
    obtain ⟨⟨name',hn,hk⟩,-⟩ := RefOr.of_follow h
    simp only [RefOr.names] at hm
    split at hm
    · rename_i found hl
      obtain rfl := List.mem_singleton.mp hm
      rcases Pointer.nameOf_of_named .schema hl with ho | ⟨_,ho⟩
      · rw [hn] at ho
        cases ho
        exact hk
      · rw [hn] at ho
        cases ho
    · simp at hm
    · simp at hm

/-- Nodes followed under one name lead to one schema, unless one of them asks for a component of
another kind. -/
lemma schema_of_names {a b : RefOr Schema} {name : String} {s : Schema} (ha : a.names = [name])
    (hb : b.names = [name]) (h : c.schema a = .ok s) :
    c.schema b = .ok s ∨ ∃ found, c.schema b = .error (.otherKind found .schema) := by
  cases a with
  | inline _ => simp at ha
  | reference target note =>
    cases b with
    | inline _ => simp at hb
    | reference target' note' =>
      have hn : Pointer.nameOf .schema target = .ok name := by
        obtain ⟨⟨name',hn,-⟩,-⟩ := RefOr.of_follow h
        rcases Pointer.nameOf_of_named .schema (RefOr.names_eq_singleton.mp ha) with ho | ⟨_,ho⟩
        · exact ho
        · rw [hn] at ho
          cases ho
      rcases Pointer.nameOf_of_named .schema (RefOr.names_eq_singleton.mp hb) with ho | ⟨found,ho⟩
      · exact .inl (RefOr.follow_congr hn ho h)
      · right
        refine ⟨found,?_⟩
        show RefOr.follow _ _ _ _ = _
        simp [RefOr.follow,ho,bind,Except.bind]

end Components

namespace Schema

/-- All nodes of a schema that are looked into: the composed ones and the properties. -/
def nodes (s : Schema) : List (RefOr Schema) := s.branches ++ s.properties.values

lemma mem_nodes {s : Schema} {node : RefOr Schema} :
    node ∈ s.nodes ↔ node ∈ s.branches ∨ ∃ name, s.properties.get? name = some node := by
  rw [nodes,List.mem_append,Dict.mem_values_iff]

lemma hasProperties_iff {s : Schema} : s.hasProperties = false ↔ s.properties.entries = [] := by
  constructor
  · intro h
    have hd : s.declared = [] := by simpa [hasProperties] using h
    simp [properties,hd,Dict.ofList,Dict.insertAll,EmptyCollection.emptyCollection]
  · intro h
    refine Decidable.byContradiction fun hn => ?_
    obtain ⟨e,he⟩ := List.exists_mem_of_ne_nil s.declared (by simpa [hasProperties] using hn)
    obtain ⟨w,-,hw⟩ := Dict.exists_mem_of_insertAll ∅ (k := e.1) (v := e.2) he
    have hm := (Dict.mem_entries_iff s.properties e.1 w).mpr hw
    rw [h] at hm
    cases hm

end Schema
end ActionCatalog
