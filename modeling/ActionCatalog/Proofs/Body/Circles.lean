import ActionCatalog.Proofs.Body.Search

/-! Searches that run in a circle. Main statement: where a search can get into a circle, branches lead to a schema
that they lead back to under no name, past the components that the search is in. -/
namespace ActionCatalog.Body
open Relation

variable {c : Components} {name : String}

/-- What a search for a name can come by leads to schemas: the branches, and the declarations of the name. -/
structure Clear (c : Components) (name : String) (s : Schema) : Prop where
  branches : ∀ t, ReflTransGen (Composes c) s t → ∀ node ∈ t.branches, ∃ u, c.schema node = .ok u
  declared : ∀ t, ReflTransGen (Composes c) s t → ∀ node, t.properties.get? name = some node →
    ∃ u, c.schema node = .ok u

lemma Clear.composes {s t : Schema} (h : Clear c name s) (step : Composes c s t) : Clear c name t where
  branches := fun u hu => h.branches u (.head step hu)
  declared := fun u hu => h.declared u (.head step hu)

/-- A schema declares a name, itself or in what is composed into it past the components of a list. -/
inductive Declares (c : Components) (name : String) (past : List String) : Schema → Prop
  | own {s : Schema} {node : RefOr Schema} (declared : s.properties.get? name = some node) :
      Declares c name past s
  | branch {s t : Schema} {node : RefOr Schema} (composed : node ∈ s.branches)
      (fresh : ∀ ref ∈ node.names, ref ∉ past) (leads : c.schema node = .ok t)
      (inner : Declares c name past t) : Declares c name past s

/-- A node past which nothing declares the name. -/
def Barren (c : Components) (name : String) (past : List String) (node : RefOr Schema) : Prop :=
  ∀ t, (∀ ref ∈ node.names, ref ∉ past) → c.schema node = .ok t → ¬Declares c name past t

lemma Declares.anti {past past' : List String} {s : Schema} (h : Declares c name past' s)
    (hsub : past ⊆ past') : Declares c name past s := by
  induction h with
  | own declared => exact .own declared
  | branch composed fresh leads _ ih =>
    exact .branch composed (fun ref hr hin => fresh ref hr (hsub hin)) leads ih

/-- A search goes on, under the names it has passed, from a schema that does not declare the name into a branch before
which there is no declaration. -/
def Passes (c : Components) (name : String) (x y : List String × Schema) : Prop :=
  x.2.properties.get? name = none ∧ ∃ before node after, x.2.branches = before ++ node :: after ∧
    (∀ b ∈ before, Barren c name x.1 b) ∧ (∀ ref ∈ node.names, ref ∉ x.1) ∧ c.schema node = .ok y.2 ∧
    y.1 = node.names ++ x.1

/-- A search comes to a schema to which it comes back without passing a further name. -/
def Circles (c : Components) (name : String) (x : List String × Schema) : Prop :=
  ∃ y, ReflTransGen (Passes c name) x y ∧ TransGen (Passes c name) y y

lemma Circles.of_passes {x y : List String × Schema} (h : Circles c name y) (step : Passes c name x y) :
    Circles c name x := by
  obtain ⟨z,steps,circle⟩ := h
  exact ⟨z,.head step steps,circle⟩

/-- A search that runs in a circle does so behind its next step. -/
lemma Circles.exists_passes {x : List String × Schema} (h : Circles c name x) :
    ∃ y, Passes c name x y ∧ Circles c name y := by
  obtain ⟨z,steps,circle⟩ := h
  rcases steps.cases_head with rfl | ⟨y,step,steps⟩
  · obtain ⟨y,step,back⟩ := TransGen.head'_iff.mp circle
    exact ⟨y,step,x,back,circle⟩
  · exact ⟨y,step,z,steps,circle⟩

lemma length_le_of_passes {x y : List String × Schema} (steps : ReflTransGen (Passes c name) x y) :
    x.1.length ≤ y.1.length := by
  induction steps with
  | refl => exact Nat.le_refl _
  | tail _ step ih =>
    obtain ⟨-,-,node,-,-,-,-,-,hy⟩ := step
    rw [hy,List.length_append]
    omega

/-- Names that are passed stay passed, so a search that comes back passes none on the way. -/
lemma unnamed_of_passes {x y : List String × Schema} (steps : TransGen (Passes c name) x y)
    (hback : y.1.length ≤ x.1.length) : TransGen (ComposesUnnamed c) x.2 y.2 := by
  have hstep {x z : List String × Schema} (step : Passes c name x z) (hlen : z.1.length ≤ x.1.length) :
      ComposesUnnamed c x.2 z.2 ∧ z.1 = x.1 := by
    obtain ⟨-,before,node,after,hsplit,-,-,hz,hnames⟩ := step
    have hnil : node.names = [] := by
      rw [hnames,List.length_append] at hlen
      exact List.length_eq_zero_iff.mp (by omega)
    exact ⟨⟨node,by simp [hsplit],hnil,hz⟩,by rw [hnames,hnil,List.nil_append]⟩
  induction steps using TransGen.head_induction_on with
  | single step => exact .single (hstep step hback).1
  | head step steps ih =>
    obtain ⟨hcomposes,heq⟩ := hstep step (Nat.le_trans (length_le_of_passes steps.to_reflTransGen) hback)
    exact .head hcomposes (ih (by rwa [heq]))

/-- A search that looked everywhere, past the components of a list, would meet a declaration of the name or a schema
that branches lead back to under no name. -/
inductive Faces (c : Components) (name : String) (past : List String) : Schema → Prop
  | declared {s : Schema} {node : RefOr Schema} (declared : s.properties.get? name = some node) :
      Faces c name past s
  | circle {s : Schema} (circle : TransGen (ComposesUnnamed c) s s) : Faces c name past s
  | branch {s t : Schema} {node : RefOr Schema} (composed : node ∈ s.branches)
      (fresh : ∀ ref ∈ node.names, ref ∉ past) (leads : c.schema node = .ok t)
      (inner : Faces c name past t) : Faces c name past s

lemma Faces.anti {past past' : List String} {s : Schema} (h : Faces c name past' s) (hsub : past ⊆ past') :
    Faces c name past s := by
  induction h with
  | declared declared => exact .declared declared
  | circle circle => exact .circle circle
  | branch composed fresh leads _ ih =>
    exact .branch composed (fun ref hr hin => fresh ref hr (hsub hin)) leads ih

lemma Declares.faces {past : List String} {s : Schema} (h : Declares c name past s) : Faces c name past s := by
  induction h with
  | own declared => exact .declared declared
  | branch composed fresh leads _ ih => exact .branch composed fresh leads ih

/-- Where a search can get into a circle there is one to be met. -/
theorem Circles.faces {x : List String × Schema} (h : Circles c name x) : Faces c name x.1 x.2 := by
  obtain ⟨y,steps,circle⟩ := h
  induction steps using ReflTransGen.head_induction_on with
  | refl => exact .circle (unnamed_of_passes circle (Nat.le_refl _))
  | head step _ ih =>
    obtain ⟨-,before,node,after,hsplit,-,hfresh,hleads,hnames⟩ := step
    rw [hnames] at ih
    exact .branch (by simp [hsplit]) hfresh hleads (ih.anti (List.subset_append_right _ _))

/-- A walk to what is met through a component contains one that starts there and does not come back. -/
lemma Faces.cut {past : List String} {node : RefOr Schema} {s t : Schema} (hn : c.schema node = .ok t)
    (h : Faces c name past s) : Faces c name (node.names ++ past) s ∨ Faces c name (node.names ++ past) t := by
  induction h with
  | declared declared => exact .inl (.declared declared)
  | circle circle => exact .inl (.circle circle)
  | @branch s u b composed fresh leads _ ih =>
    by_cases hcut : ∃ ref, b.names = [ref] ∧ ref ∈ node.names
    · obtain ⟨ref,hb,hm⟩ := hcut
      have hu : c.schema b = .ok t ∨ ∃ found, c.schema b = .error (.otherKind found .schema) :=
        Components.schema_of_names (RefOr.names_eq_of_mem hm) hb hn
      rw [leads] at hu
      rcases hu with hu | ⟨_,hu⟩
      · cases hu
        exact .inr (ih.elim id id)
      · cases hu
    · rcases ih with ih | ih
      · refine .inl (.branch composed (fun ref hr hin => ?_) leads ih)
        rcases List.mem_append.mp hin with hin | hin
        · exact hcut ⟨ref,RefOr.names_eq_of_mem hr,hin⟩
        · exact fresh ref hr hin
      · exact .inr ih

/-- Nothing is to be met in the components that a search went through, apart from those it is in. -/
def Spent (c : Components) (name : String) (past seen : List String) : Prop :=
  ∀ ref ∈ seen, ref ∉ past → ∀ node t, node.names = [ref] → c.schema node = .ok t → ¬Faces c name past t

lemma Spent.nil (c : Components) (name : String) (past : List String) : Spent c name past [] :=
  fun _ hin => (nomatch hin)

lemma Spent.enter {past seen : List String} (h : Spent c name past seen) (node : RefOr Schema) :
    Spent c name (node.names ++ past) (node.names ++ seen) := by
  intro ref hin hout other u hother hu hfaces
  have hout := mt List.mem_append.mpr hout
  have hin := (List.mem_append.mp hin).resolve_left fun h => hout (.inl h)
  have hnot := h ref hin (fun h => hout (.inr h)) other u hother hu
  exact hnot (hfaces.anti (List.subset_append_right _ _))

/-- If nothing is to be met in what a node leads to, then nothing is in what was gone through on the way. -/
lemma Spent.leave {past seen : List String} {node : RefOr Schema} {t : Schema} (ht : c.schema node = .ok t)
    (hnone : ¬Faces c name (node.names ++ past) t) (h : Spent c name (node.names ++ past) seen) :
    ¬Faces c name past t ∧ Spent c name past seen := by
  have hcut : ∀ u, ¬Faces c name (node.names ++ past) u → ¬Faces c name past u :=
    fun u hu h => (h.cut ht).elim hu hnone
  refine ⟨hcut t hnone,fun ref hin hout other u hother hu => ?_⟩
  by_cases href : ref ∈ node.names
  · rcases Components.schema_of_names (RefOr.names_eq_of_mem href) hother ht with ho | ⟨_,ho⟩
    · rw [hu] at ho
      cases ho
      exact hcut _ hnone
    · rw [hu] at ho
      cases ho
  · refine hcut u (h ref hin (fun h => ?_) other u hother hu)
    exact (List.mem_append.mp h).elim href hout

end ActionCatalog.Body
