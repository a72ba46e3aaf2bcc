import ActionCatalog.Proofs.Body.Leaves
import ActionCatalog.Proofs.Body.Search
import Mathlib.Data.List.DropRight

/-! Which references are seen where bodies are followed. Main statement: a reference that leads to a schema has the
name of its component exactly if nothing stands before its number sign; then an expansion puts the name on its stack
and a search marks it, or they stop at it. Under any other reference a component can be expanded without end. -/
namespace ActionCatalog

namespace Pointer
variable {text : List Char} {p : Pointer}

/-- A text with something behind its first `c` is what stands before it, and what stands behind it. -/
lemma eq_append_cons {c : Char} (h : (text.dropWhile (· ≠ c)).drop 1 ≠ []) :
    text.takeWhile (· ≠ c) ++ c :: (text.dropWhile (· ≠ c)).drop 1 = text := by
  have hhead := List.head?_dropWhile_not (· ≠ c) text
  have hsplit := List.takeWhile_append_dropWhile (p := (· ≠ c)) (l := text)
  cases hbehind : text.dropWhile (· ≠ c) with
  | nil =>
    rw [hbehind] at h
    exact absurd rfl h
  | cons d rest =>
    rw [hbehind] at hhead hsplit
    have hd : d = c := by simpa using hhead
    rw [← hd] at hsplit ⊢
    exact hsplit

/-- The parts of a reference, put together again, are its text; its file is what stands before the number sign. -/
lemma of_parse? (h : parse? text = some p) : p.print = text ∧ '#' ∉ p.file := by
  simp only [parse?] at h
  split at h
  · rename_i hroot
    obtain ⟨body,hbody⟩ := List.isPrefixOf_iff_prefix.mp hroot
    rw [← hbody,List.drop_left] at h
    split at h
    · cases h
    · rename_i hfull
      cases h
      simp only [Bool.or_eq_true,not_or,List.isEmpty_iff] at hfull
      constructor
      · calc text.takeWhile (· ≠ '#') ++ root ++ body.takeWhile (· ≠ '/') ++
              '/' :: (body.dropWhile (· ≠ '/')).drop 1
          _ = text.takeWhile (· ≠ '#') ++ (root ++ body) := by
              rw [List.append_assoc,List.append_assoc,eq_append_cons hfull.1.2]
          _ = text := by rw [hbody,List.takeWhile_append_dropWhile]
      · intro hmem
        simpa using List.mem_takeWhile_imp hmem
  · cases h

/-- A reference has a local name exactly if nothing stands before its number sign. -/
lemma localName_of_parse? {target : String} (h : parse? target.toList = some p)
    (hkind : (Kind.ofSection? p.kind).isSome) :
    localName target = if p.file = [] then .named (.ofList p.name) else .elsewhere := by
  obtain ⟨hprint,hfile⟩ := of_parse? h
  have hroot : root = "#/components".toList ++ ['/'] := by decide +kernel
  obtain ⟨behind,hbehind⟩ : ∃ behind, "#/components".toList = '#' :: behind := ⟨_,rfl⟩
  have hinternal : "#/components".toList.isPrefixOf target.toList ↔ p.file = [] := by
    rw [List.isPrefixOf_iff_prefix,← hprint,print,hroot]
    cases hp : p.file with
    | nil => simp
    | cons c rest =>
      have hc : '#' ≠ c := by
        rintro rfl
        exact hfile (by simp [hp])
      rw [hbehind]
      simp [List.cons_prefix_cons,hc]
  rw [localName]
  split
  · rename_i hp
    rw [if_pos (hinternal.mp hp)]
    simp [h,hkind]
  · rename_i hp
    rw [if_neg (mt hinternal.mpr hp)]

lemma nameOf_eq_ok_iff {wanted : Kind} {target name : String} : nameOf wanted target = .ok name ↔
    ∃ p, parse? target.toList = some p ∧ Kind.ofSection? p.kind = some wanted ∧ String.ofList p.name = name := by
  simp only [nameOf]
  split
  · simp_all
  · rename_i p hp
    split
    · simp_all
    · rename_i found hfound
      split <;> simp_all

end Pointer

namespace RefOr
variable {α : Type} {wanted : Kind} {table : Dict (RefOr α)} {v : α}

/-- A reference that leads somewhere does so through any greater number of components. -/
lemma follow_succ {n : Nat} {target : String} (h : follow wanted table n target = .ok v) :
    follow wanted table (n+1) target = .ok v := by
  induction n generalizing target with
  | zero => cases h
  | succ n ih =>
    rw [follow] at h ⊢
    obtain ⟨name,hname,h⟩ := Except.bind_eq_ok_iff.mp h
    refine Except.bind_eq_ok_iff.mpr ⟨name,hname,?_⟩
    split at h
    · cases h
    · exact h
    · exact ih h

/-- A reference leads where the component that it names leads. -/
lemma exists_entry_of_resolve {target : String} {note : Option String}
    (h : (reference target note).resolve wanted table = .ok v) : ∃ name entry,
      Pointer.nameOf wanted target = .ok name ∧ table.get? name = some entry ∧ entry.resolve wanted table = .ok v := by
  rw [resolve,follow] at h
  obtain ⟨name,hname,h⟩ := Except.bind_eq_ok_iff.mp h
  split at h
  · cases h
  · rename_i u hu
    cases h
    exact ⟨name,_,hname,hu,rfl⟩
  · rename_i next note hnext
    exact ⟨name,_,hname,hnext,follow_succ h⟩

end RefOr

/-- A reference that leads to a schema names a component from which that schema is reached. It has the name of the
component if nothing stands before its number sign, and else none. -/
lemma Components.exists_pointer {c : Components} {target : String} {note : Option String} {s : Schema}
    (h : c.schema (.reference target note) = .ok s) : ∃ p : Pointer, p.print = target.toList ∧ '#' ∉ p.file ∧
      (∃ entry, c.schemas.get? (.ofList p.name) = some entry ∧ c.schema entry = .ok s) ∧
      Pointer.localName target = if p.file = [] then .named (.ofList p.name) else .elsewhere := by
  obtain ⟨name,entry,hnameOf,hget,hentry⟩ := RefOr.exists_entry_of_resolve h
  obtain ⟨p,hp,hkind,rfl⟩ := Pointer.nameOf_eq_ok_iff.mp hnameOf
  obtain ⟨hprint,hfile⟩ := Pointer.of_parse? hp
  exact ⟨p,hprint,hfile,⟨entry,hget,hentry⟩,Pointer.localName_of_parse? hp (Option.isSome_of_eq_some hkind)⟩

namespace Body
variable {c : Components} {node : RefOr Schema} {name : String} {s : Schema}

/-- A node that leads to a schema is followed under a name: an expansion puts the name on its stack unless it is there
already, and a search marks the name unless it is marked. -/
structure Tracked (c : Components) (node : RefOr Schema) (name : String) (s : Schema) : Prop where
  pushed : ∀ stack path go, name ∉ stack → enter c stack path node go = go s (stack ++ [name])
  cut : ∀ stack path go, name ∈ stack → enter c stack path node go = .ok { cuts := [stack ++ [name]] }
  marked : ∀ property go seen, name ∉ seen → visit c property go seen node = go (name :: seen) s
  passed : ∀ property go seen, name ∈ seen → visit c property go seen node = .ok ⟨none,seen⟩

/-- A node that leads to a schema is followed under no name: neither an expansion nor a search stops at it, and neither
keeps in mind that it was there. -/
structure Untracked (c : Components) (node : RefOr Schema) (s : Schema) : Prop where
  entered : ∀ stack path go, enter c stack path node go = go s stack
  visited : ∀ property go seen, visit c property go seen node = go seen s

lemma tracked_of_names (hnames : node.names = [name]) (h : c.schema node = .ok s) : Tracked c node name s := by
  refine ⟨?_,?_,?_,?_⟩
  · intro stack path go hn
    rw [enter_of_fresh (by simpa [hnames] using hn),hnames,h]
    rfl
  · intro stack path go hm
    exact enter_of_mem hnames hm
  · intro property go seen hn
    rw [visit_of_ok (by simpa [hnames] using hn) h,hnames]
    rfl
  · intro property go seen hm
    exact visit_of_mem hnames hm

lemma untracked_of_names (hnames : node.names = []) (h : c.schema node = .ok s) : Untracked c node s := by
  refine ⟨?_,?_⟩
  · intro stack path go
    rw [enter_of_fresh (by simp [hnames]),hnames,h,List.append_nil]
    rfl
  · intro property go seen
    rw [visit_of_ok (by simp [hnames]) h,hnames]
    rfl

/-- The expansion of a schema that leads to itself under no name never ends. -/
lemma not_ends_of_unnamed (h : Unnamed c s s) (n : Nat) (stack : List String) : ¬Ends c n stack s := by
  induction n generalizing stack with
  | zero => exact id
  | succ n ih =>
    intro hends
    obtain ⟨node,hn,hnames,hs⟩ := h
    rcases hends node hn with ⟨name,hname,-⟩ | ⟨-,t,ht,hends⟩
    · rw [hnames] at hname
      cases hname
    · rw [hs] at ht
      cases ht
      exact ih _ hends

/-- A reference that leads to a schema names a component, from which that schema is reached. The name is seen exactly
if nothing stands in the reference before the number sign; then whatever follows the reference tracks the component.
Otherwise nothing does, and if such a reference stands in the very schema that it leads to, the schema is expanded
without end. -/
theorem reference_seen_iff (c : Components) (target : String) (note : Option String) (s : Schema)
    (h : c.schema (.reference target note) = .ok s) :
    ∃ p : Pointer, p.print = target.toList ∧ '#' ∉ p.file ∧
      (∃ entry, c.schemas.get? (.ofList p.name) = some entry ∧ c.schema entry = .ok s) ∧
      (Pointer.localName target = .named (.ofList p.name) ↔ p.file = []) ∧
      (p.file = [] → Tracked c (.reference target note) (.ofList p.name) s) ∧
      (p.file ≠ [] → Pointer.localName target = .elsewhere ∧ Untracked c (.reference target note) s ∧
        (.reference target note ∈ s.nodes →
          ∀ n stack path required e, expandTo c n stack s path required ≠ .ok e)) := by
  obtain ⟨p,hprint,hfile,hentry,hlocal⟩ := Components.exists_pointer h
  refine ⟨p,hprint,hfile,hentry,?_,fun hnil => ?_,fun hne => ?_⟩
  · rw [hlocal]
    split <;> simp_all
  · rw [if_pos hnil] at hlocal
    exact tracked_of_names (RefOr.names_eq_singleton.mpr hlocal) h
  · rw [if_neg hne] at hlocal
    have hnames : (RefOr.reference target note : RefOr Schema).names = [] := by simp [RefOr.names,hlocal]
    refine ⟨hlocal,untracked_of_names hnames h,fun hmem n stack path required e he => ?_⟩
    exact not_ends_of_unnamed ⟨_,hmem,hnames,h⟩ n stack (exists_expandTo_iff.mp ⟨e,he⟩)

/-- A component that contains itself, by a given reference. -/
def nestedNode (target : String) : Schema where
  declared := [("inner",.reference target none),("value",.inline { types := some (.one .string) })]

def nestedComponents (target : String) : Components := { schemas := .ofList [("Node",.inline (nestedNode target))] }

def ownTarget : String := "#/components/schemas/Node"
def outwardTarget : String := "other.yaml#/components/schemas/Node"

/-- The component is seen where it refers to itself without a file. With a file it leads to the same component, which is
then not seen: its expansion ends at no depth, and is given up at that of the budget. -/
theorem reference_seen_iff_nested :
    (nestedComponents ownTarget).schema (.reference ownTarget none) = .ok (nestedNode ownTarget) ∧
    Tracked (nestedComponents ownTarget) (.reference ownTarget none) "Node" (nestedNode ownTarget) ∧
    (nestedComponents outwardTarget).schema (.reference outwardTarget none) = .ok (nestedNode outwardTarget) ∧
    Pointer.localName outwardTarget = .elsewhere ∧
    (∀ n e, expandTo (nestedComponents outwardTarget) n [] (nestedNode outwardTarget) "" false ≠ .ok e) ∧
    ∃ place, expand (nestedComponents outwardTarget) (nestedNode outwardTarget) false = .error (.endless place) := by
  have hown : (nestedComponents ownTarget).schema (.reference ownTarget none) = .ok (nestedNode ownTarget) := by rfl
  have hownName : Pointer.localName ownTarget = .named "Node" := by decide +kernel
  have houtward : (nestedComponents outwardTarget).schema (.reference outwardTarget none) =
      .ok (nestedNode outwardTarget) := by rfl
  have houtwardName : Pointer.localName outwardTarget = .elsewhere := by decide +kernel
  refine ⟨hown,?_,houtward,houtwardName,?_,_,by rfl⟩
  · obtain ⟨p,-,-,-,hseen,htracked,huntracked⟩ := reference_seen_iff _ _ _ _ hown
    have hfile : p.file = [] := by
      refine Decidable.byContradiction fun hne => ?_
      rw [hownName] at huntracked
      cases (huntracked hne).1
    have hnamed := hseen.mpr hfile
    rw [hownName] at hnamed
    rw [Pointer.LocalName.named.inj hnamed]
    exact htracked hfile
  · obtain ⟨p,-,-,-,hseen,-,huntracked⟩ := reference_seen_iff _ _ _ _ houtward
    have hfile : p.file ≠ [] := by
      intro hnil
      have hnamed := hseen.mpr hnil
      rw [houtwardName] at hnamed
      cases hnamed
    have hmem : RefOr.reference outwardTarget none ∈ (nestedNode outwardTarget).nodes :=
      Schema.mem_nodes.mpr (.inr ⟨"inner",by rfl⟩)
    exact fun n e => (huntracked hfile).2.2 hmem n [] "" false e

end Body
end ActionCatalog
