import ActionCatalog.Proofs.Body.Stack
import ActionCatalog.Proofs.Body.Tracking
import Mathlib.Data.List.Chain

/-! That expansions end. Main statement: where all references lead to components of the document itself and no
component is in the end only another name for itself, the expansion of every body ends, on a stack that never holds
more than all components. -/
namespace ActionCatalog
open Relation

namespace Schema

mutual
/-- The targets of the references that are written in a schema, however deep. -/
def references : Schema → List String
  | ⟨_,allOf,anyOf,oneOf,declared,_,_,_,_,_,_⟩ =>
    listReferences allOf ++ listReferences anyOf ++ listReferences oneOf ++ entriesReferences declared

def nodeReferences : RefOr Schema → List String
  | .reference target _ => [target]
  | .inline s => s.references

def listReferences : List (RefOr Schema) → List String
  | [] => []
  | n :: rest => nodeReferences n ++ listReferences rest

def entriesReferences : List (String × RefOr Schema) → List String
  | [] => []
  | (_,n) :: rest => nodeReferences n ++ entriesReferences rest
end

lemma nodeReferences_subset_list {node : RefOr Schema} {nodes : List (RefOr Schema)} (h : node ∈ nodes) :
    nodeReferences node ⊆ listReferences nodes := by
  induction nodes with
  | nil => cases h
  | cons n rest ih =>
    rw [listReferences]
    rcases List.mem_cons.mp h with rfl | h
    · exact List.subset_append_left _ _
    · exact List.Subset.trans (ih h) (List.subset_append_right _ _)

lemma nodeReferences_subset_entries {name : String} {node : RefOr Schema} {es : List (String × RefOr Schema)}
    (h : (name,node) ∈ es) : nodeReferences node ⊆ entriesReferences es := by
  induction es with
  | nil => cases h
  | cons e rest ih =>
    obtain ⟨k,n⟩ := e
    rw [entriesReferences]
    rcases List.mem_cons.mp h with h | h
    · cases h
      exact List.subset_append_left _ _
    · exact List.Subset.trans (ih h) (List.subset_append_right _ _)

/-- What is written in a node of a schema is written in the schema. -/
lemma nodeReferences_subset {s : Schema} {node : RefOr Schema} (h : node ∈ s.nodes) :
    nodeReferences node ⊆ s.references := by
  obtain ⟨_,allOf,anyOf,oneOf,declared,_,_,_,_,_,_⟩ := s
  rw [references]
  intro target htarget
  simp only [List.mem_append]
  rcases mem_nodes.mp h with h | ⟨name,h⟩
  · simp only [branches,List.mem_append] at h
    rcases h with (h | h) | h
    · exact .inl (.inl (.inl (nodeReferences_subset_list h htarget)))
    · exact .inl (.inl (.inr (nodeReferences_subset_list h htarget)))
    · exact .inl (.inr (nodeReferences_subset_list h htarget))
  · exact .inr (nodeReferences_subset_entries (Dict.mem_of_get?_ofList h) htarget)

end Schema

namespace Components
variable {c : Components}

/-- The targets of the references that are written in the schemas of a document. -/
def references (c : Components) : List String := c.schemas.values.flatMap Schema.nodeReferences

/-- A component that is nothing but a reference to a component. -/
def Redirects (c : Components) (a b : String) : Prop :=
  ∃ target note, c.schemas.get? a = some (.reference target note) ∧ Pointer.nameOf .schema target = .ok b

lemma nameOf_ne_endless {wanted : Kind} {target reference : String} :
    Pointer.nameOf wanted target ≠ .error (.endless reference) := by
  simp only [Pointer.nameOf]
  split
  · simp
  · split
    · simp
    · split <;> simp

/-- A reference that is given up after `n` components has been redirected through as many. -/
lemma exists_chain_of_endless {n : Nat} {target reference : String}
    (h : RefOr.follow .schema c.schemas n target = .error (.endless reference)) :
    ∃ names : List String, names.length = n ∧ names ⊆ c.schemas.keys ∧ names.IsChain c.Redirects ∧
      ∀ name ∈ names.head?, Pointer.nameOf .schema target = .ok name := by
  induction n generalizing target with
  | zero => exact ⟨[],rfl,List.nil_subset _,.nil,by simp⟩
  | succ n ih =>
    rw [RefOr.follow] at h
    cases hname : Pointer.nameOf .schema target with
    | error o =>
      rw [hname] at h
      cases h
      exact absurd hname nameOf_ne_endless
    | ok name =>
      rw [hname] at h
      simp only [bind,Except.bind] at h
      split at h
      · cases h
      · cases h
      · rename_i next note hget
        obtain ⟨names,hlength,hkeys,hchain,hhead⟩ := ih h
        refine ⟨name :: names,by simp [hlength],List.cons_subset.mpr ⟨?_,hkeys⟩,?_,by simp⟩
        · exact (Dict.mem_keys_iff _ _).mpr (by simp [Dict.contains,hget])
        · exact List.isChain_cons.mpr ⟨fun other ho => ⟨next,note,hget,hhead other ho⟩,hchain⟩

/-- Where no component redirects to itself in the end, every reference comes to an end. -/
lemma schema_ne_endless (onward : ∀ name, ¬TransGen c.Redirects name name) (node : RefOr Schema)
    (reference : String) : c.schema node ≠ .error (.endless reference) := by
  cases node with
  | inline s => simp [schema]
  | reference target note =>
    intro h
    obtain ⟨names,hlength,hkeys,hchain,-⟩ := exists_chain_of_endless h
    have hpairwise : names.Pairwise (TransGen c.Redirects) :=
      (hchain.imp fun _ _ => TransGen.single).pairwise
    have hnodup : names.Nodup := by
      refine hpairwise.imp fun hab => ?_
      rintro rfl
      exact onward _ hab
    have hle := Body.length_le_size hnodup hkeys
    omega

end Components

/-- A failure that tells of nodes or of references that lead on without end. -/
def Failure.IsEndless : Failure → Prop
  | .endless _ => True
  | .unresolved _ _ (.endless _) => True
  | _ => False

namespace Body
open Traversal

variable {c : Components} {s t : Schema} {node : RefOr Schema}

/-- All references that are written in a body and in the components lead to components of the document itself. -/
def Internal (c : Components) (s : Schema) : Prop :=
  ∀ target ∈ s.references ++ c.references, Pointer.root <+: target.toList

/-- What an internal body leads to is internal. -/
lemma Internal.next (h : Internal c s) (hn : node ∈ s.nodes) (ht : c.schema node = .ok t) : Internal c t := by
  intro target htarget
  apply h
  rcases List.mem_append.mp htarget with htarget | htarget
  · cases node with
    | inline u =>
      cases ht
      have hin : target ∈ Schema.nodeReferences (.inline t) := by rwa [Schema.nodeReferences]
      exact List.mem_append_left _ (Schema.nodeReferences_subset hn hin)
    | reference reference note =>
      obtain ⟨-,k,hk⟩ := RefOr.of_follow ht
      have hin : target ∈ Schema.nodeReferences (.inline t) := by rwa [Schema.nodeReferences]
      have hvalue : .inline t ∈ c.schemas.values := (Dict.mem_values_iff _ _).mpr ⟨k,hk⟩
      exact List.mem_append_right _ (List.mem_flatMap.mpr ⟨_,hvalue,hin⟩)
  · exact List.mem_append_right _ htarget

/-- A reference to a component of the document itself is followed under the component's name. -/
lemma names_ne_nil {target : String} {note : Option String} (hroot : Pointer.root <+: target.toList)
    (ht : c.schema (.reference target note) = .ok t) : (RefOr.reference target note : RefOr Schema).names ≠ [] := by
  obtain ⟨p,hprint,hfile,-,hlocal⟩ := Components.exists_pointer ht
  have hnil : p.file = [] := by
    cases hf : p.file with
    | nil => rfl
    | cons d rest =>
      obtain ⟨behind,hbehind⟩ := hroot
      rw [← hprint,Pointer.print,hf] at hbehind
      obtain ⟨rfl,-⟩ := List.cons.inj (show '#' :: _ = d :: _ from hbehind)
      exact absurd (by simp [hf]) hfile
  rw [if_pos hnil] at hlocal
  rw [RefOr.names_eq_singleton.mpr hlocal]
  exact List.cons_ne_nil _ _

/-- An expansion that has come to a schema under a stack, and may pass `n` more nodes. -/
structure Bounded (c : Components) (m n : Nat) (stack : List String) (s : Schema) : Prop where
  internal : Internal c s
  proper : Proper c stack
  enough : allowance c m stack.length [] s ≤ n

lemma Bounded.pos {m n : Nat} {stack : List String} (h : Bounded c m n stack s) : 0 < n :=
  Nat.lt_of_lt_of_le (allowance_pos m stack.length [] s) h.enough

/-- A node takes one from what may be passed: it goes down in place, or puts one more name on the stack. -/
lemma Bounded.next {m n : Nat} {stack : List String} (h : Bounded c m (n+1) stack s) (shallow : Shallow c m)
    (hn : node ∈ s.nodes) (hfresh : ∀ name ∈ node.names, name ∉ stack) (ht : c.schema node = .ok t) :
    Bounded c m n (stack ++ node.names) t := by
  refine ⟨h.internal.next hn ht,h.proper.append_names hfresh ht,?_⟩
  have hless : allowance c m (stack.length + node.names.length) [] t < allowance c m stack.length [] s := by
    cases node with
    | inline u =>
      cases ht
      have hdepth := Schema.depth_lt_of_mem_nodes hn
      simp only [allowance,RefOr.names_inline,List.length_nil,Nat.add_zero]
      omega
    | reference target note =>
      have hroot : Pointer.root <+: target.toList := by
        refine h.internal target (List.mem_append_left _ (Schema.nodeReferences_subset hn ?_))
        simp [Schema.nodeReferences]
      exact allowance_lt_of_names shallow h.proper.nodup h.proper.keys hfresh ht (names_ne_nil hroot ht) [] s
  have henough := h.enough
  rw [List.length_append]
  omega

/-- Within its bound an expansion does not fail for going on without end. -/
theorem Bounded.failsOnly {m n : Nat} {stack : List String} (h : Bounded c m n stack s) (shallow : Shallow c m)
    (onward : ∀ name, ¬TransGen c.Redirects name name) (path : String) (required : Bool) :
    Except.FailsOnly (¬Failure.IsEndless ·) (expandTo c n stack s path required) := by
  induction n generalizing stack s path required with
  | zero => exact absurd h.pos (Nat.lt_irrefl 0)
  | succ n ih =>
    refine expandTo_succ_failsOnly ?_ fun node hn hfresh t ht => ih (h.next shallow hn hfresh ht)
    intro node _ place
    cases hs : c.schema node with
    | ok t => exact .ok t
    | error o =>
      refine .error ?_
      cases o with
      | endless reference => exact absurd hs (Components.schema_ne_endless onward node reference)
      | _ => exact id

/-- Beyond its bound nothing changes about an expansion. -/
theorem Bounded.expandTo_eq {m n n' : Nat} {stack : List String} (h : Bounded c m n stack s) (shallow : Shallow c m)
    (hn : n ≤ n') (path : String) (required : Bool) :
    expandTo c n' stack s path required = expandTo c n stack s path required := by
  induction n generalizing n' stack s path required with
  | zero => exact absurd h.pos (Nat.lt_irrefl 0)
  | succ n ih =>
    obtain ⟨k,rfl⟩ : ∃ k, n' = k + 1 := ⟨n' - 1,by omega⟩
    refine expandTo_succ_eq fun node hnode hfresh t ht => ?_
    exact ih (h.next shallow hnode hfresh ht) (by omega)

lemma bounded_budget (internal : Internal c s) : Bounded c (maxDepth c s) (budget c s) [] s :=
  ⟨internal,.nil c,allowance_le_budget c s⟩

/-- Where all references lead to components of the document itself, and none of the components is in the end a reference
to itself, a body is expanded on a stack that never holds a component twice, and so never more than all of them. Every
call leaves the stack as it was, whatever comes of the call. And the expansion ends: beyond its budget it comes to the
same however far it may go, and that is no failure for going on without end. -/
theorem ends_balanced (c : Components) (s : Schema) (required : Bool) (internal : Internal c s)
    (onward : ∀ name, ¬TransGen c.Redirects name name) :
    (∀ n, ∀ stack ∈ ((ofSchema c n s "" required).exec {}).2.past,
      stack.Nodup ∧ stack ⊆ c.schemas.keys ∧ stack.length ≤ c.schemas.size) ∧
    (∀ n s path required t, ((ofSchema c n s path required).exec t).2.stack = t.stack ∧
      ((ofBranches c (ofSchema c n) s path required).exec t).2.stack = t.stack ∧
      ∀ node, ((ofLeaf c n s node path required).exec t).2.stack = t.stack) ∧
    (∀ n, budget c s ≤ n → (ofSchema c n s "" required).outcome = expand c s required) ∧
    ∀ f, expand c s required = .error f → ¬f.IsEndless := by
  have bounded := bounded_budget internal
  refine ⟨?_,?_,?_,?_⟩
  · intro n stack hstack
    have carries := (carries_traversal c n).1 s "" required {}
    have hproper := carries.proper (.nil c) (by simp) stack hstack
    exact ⟨hproper.nodup,hproper.keys,length_le_size hproper.nodup hproper.keys⟩
  · exact fun n s path required t => stack_exec c n s path required t
  · intro n hn
    rw [outcome_ofSchema]
    exact bounded.expandTo_eq (shallow_maxDepth c s) hn "" required
  · exact bounded.failsOnly (shallow_maxDepth c s) onward "" required

/-- Two components that contain each other, and another name for one of them. -/
def ringComponents : Components where
  schemas := .ofList [("Alias",.reference "#/components/schemas/Left" none),
    ("Left",.inline { declared := [("right",.reference "#/components/schemas/Right" none)] }),
    ("Right",.inline { declared := [("left",.reference "#/components/schemas/Left" none),
      ("name",.inline { types := some (.one .string) })] })]

def ringBody : Schema where
  declared := [("start",.reference "#/components/schemas/Alias" none)]

lemma redirects_ringComponents {a b : String} (h : ringComponents.Redirects a b) : a = "Alias" ∧ b = "Left" := by
  obtain ⟨target,note,hget,hname⟩ := h
  have hentry := Dict.mem_of_get?_ofList hget
  simp only [List.mem_cons,List.not_mem_nil,Prod.mk.injEq,RefOr.reference.injEq,reduceCtorEq,and_false,
    or_false] at hentry
  obtain ⟨rfl,rfl,-⟩ := hentry
  have hleft : Pointer.nameOf .schema "#/components/schemas/Left" = .ok "Left" := by rfl
  rw [hleft] at hname
  cases hname
  exact ⟨rfl,rfl⟩

/-- The stack comes to hold all three names, and the ring is cut where the second of them is met again. -/
theorem ends_balanced_ring :
    (∃ e, expand ringComponents ringBody true = .ok e ∧ e.cuts = [["Alias","Right","Left","Right"]] ∧
      ∀ n, budget ringComponents ringBody ≤ n → (ofSchema ringComponents n ringBody "" true).outcome = .ok e) ∧
    ∃ past, ((ofSchema ringComponents (budget ringComponents ringBody) ringBody "" true).exec {}).2.past = past ∧
      ["Alias","Right","Left"] ∈ past ∧ ∀ stack ∈ past, stack.Nodup ∧ stack.length ≤ 3 := by
  have internal : Internal ringComponents ringBody := by
    unfold Internal
    decide +kernel
  have onward : ∀ name, ¬TransGen ringComponents.Redirects name name := by
    intro name circle
    obtain ⟨_,first,-⟩ := TransGen.head'_iff.mp circle
    obtain ⟨_,-,last⟩ := TransGen.tail'_iff.mp circle
    have hname := (redirects_ringComponents last).2
    rw [(redirects_ringComponents first).1] at hname
    exact absurd hname (by decide)
  obtain ⟨hproper,-,hsettled,-⟩ := ends_balanced ringComponents ringBody true internal onward
  obtain ⟨e,he,hcuts⟩ : ∃ e, expand ringComponents ringBody true = .ok e ∧
      e.cuts = [["Alias","Right","Left","Right"]] := ⟨_,by rfl,by rfl⟩
  refine ⟨⟨e,he,hcuts,fun n hn => ?_⟩,_,rfl,by decide +kernel,?_⟩
  · rw [hsettled n hn,he]
  · intro stack hstack
    obtain ⟨hnodup,-,hlength⟩ := hproper _ stack hstack
    exact ⟨hnodup,hlength⟩

end Body
end ActionCatalog
