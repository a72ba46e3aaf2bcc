import ActionCatalog.Body.Template
import ActionCatalog.Proofs.Body.Reach
import Mathlib.Data.List.Perm.Subperm

/-! How far a walk that runs in no circle can go. Between two names it passes no component twice, and in a
component it only goes down. Main statement: every further node takes from an allowance, which is not more than the
budget. -/
namespace ActionCatalog

namespace Schema

lemma nodeDepth_le_listDepth {node : RefOr Schema} {nodes : List (RefOr Schema)} (h : node ∈ nodes) :
    nodeDepth node ≤ listDepth nodes := by
  induction nodes with
  | nil => cases h
  | cons n rest ih =>
    simp only [listDepth]
    rcases List.mem_cons.mp h with rfl | h
    · omega
    · have := ih h
      omega

lemma nodeDepth_le_entriesDepth {name : String} {node : RefOr Schema} {es : List (String × RefOr Schema)}
    (h : (name,node) ∈ es) : nodeDepth node ≤ entriesDepth es := by
  induction es with
  | nil => cases h
  | cons e rest ih =>
    obtain ⟨k,n⟩ := e
    simp only [entriesDepth]
    rcases List.mem_cons.mp h with h | h
    · cases h
      omega
    · have := ih h
      omega

/-- A schema in place lies deeper by one. -/
lemma depth_lt_of_mem_nodes {s t : Schema} (h : .inline t ∈ s.nodes) : t.depth < s.depth := by
  have hd : ∀ u : Schema, nodeDepth (.inline u) = u.depth := fun u => by rw [nodeDepth]
  rcases mem_nodes.mp h with h | ⟨name,h⟩
  · obtain ⟨_,allOf,anyOf,oneOf,declared,_,_,_,_,_,_⟩ := s
    simp only [branches,List.mem_append] at h
    simp only [depth]
    rcases h with (h | h) | h <;>
    · have := nodeDepth_le_listDepth h
      rw [hd] at this
      omega
  · obtain ⟨_,allOf,anyOf,oneOf,declared,_,_,_,_,_,_⟩ := s
    have hm : (name,.inline t) ∈ declared := Dict.mem_of_get?_ofList h
    have := nodeDepth_le_entriesDepth hm
    rw [hd] at this
    simp only [depth]
    omega

lemma depth_pos (s : Schema) : 0 < s.depth := by
  obtain ⟨_,allOf,anyOf,oneOf,declared,_,_,_,_,_,_⟩ := s
  simp only [depth]
  omega

end Schema

namespace Body
open Relation

variable {c : Components}

/-- No schema that stands in place in a component is deeper than `m`. -/
def Shallow (c : Components) (m : Nat) : Prop := ∀ k t, c.schemas.get? k = some (.inline t) → t.depth ≤ m

/-- The components that a walk has passed since the last name: from each of them it came here by steps of a kind. -/
structure Trail (c : Components) (step : Schema → Schema → Prop) (s : Schema) (trail : List String) : Prop where
  nodup : trail.Nodup
  keys : trail ⊆ c.schemas.keys
  back : ∀ k ∈ trail, ∃ t, c.schemas.get? k = some (.inline t) ∧ ReflTransGen step t s

lemma Trail.nil (c : Components) (step : Schema → Schema → Prop) (s : Schema) : Trail c step s [] :=
  ⟨List.nodup_nil,by simp,by simp⟩

lemma length_le_size {names : List String} (hn : names.Nodup) (hk : names ⊆ c.schemas.keys) :
    names.length ≤ c.schemas.size := by
  have h := (List.subperm_of_subset hn hk).length_le
  simpa [Dict.keys,Dict.size] using h

/-- How many more nodes a walk can pass that is followed under `n` names so far. -/
def allowance (c : Components) (m n : Nat) (trail : List String) (s : Schema) : Nat :=
  (c.schemas.size - n) * ((c.schemas.size + 1) * (m + 1)) +
    ((c.schemas.size - trail.length) * (m + 1) + s.depth)

lemma allowance_pos (m n : Nat) (trail : List String) (s : Schema) : 0 < allowance c m n trail s := by
  have := s.depth_pos
  simp only [allowance]
  omega

lemma allowance_anti {m n n' : Nat} (h : n ≤ n') (trail : List String) (s : Schema) :
    allowance c m n' trail s ≤ allowance c m n trail s := by
  have := Nat.mul_le_mul_right ((c.schemas.size + 1) * (m + 1)) (Nat.sub_le_sub_left h c.schemas.size)
  simp only [allowance]
  omega

/-- A walk that runs in no circle goes down in place, or passes one more component. -/
lemma Trail.exists_of_acyclic {step : Schema → Schema → Prop} {m n : Nat} {s t : Schema} {trail : List String}
    {node : RefOr Schema} (trace : Trail c step s trail) (shallow : Shallow c m) (hn : node ∈ s.nodes)
    (ht : c.schema node = .ok t) (hstep : step s t) (acyclic : ¬TransGen step t t) :
    ∃ trail', Trail c step t trail' ∧ allowance c m n trail' t < allowance c m n trail s := by
  cases node with
  | inline u =>
    cases ht
    have hd := Schema.depth_lt_of_mem_nodes hn
    refine ⟨trail,⟨trace.nodup,trace.keys,fun k hk => ?_⟩,?_⟩
    · obtain ⟨u,hu,back⟩ := trace.back k hk
      exact ⟨u,hu,back.tail hstep⟩
    · simp only [allowance]
      omega
  | reference target note =>
    obtain ⟨-,k,hk⟩ := RefOr.of_follow ht
    have hnew : k ∉ trail := by
      intro hmem
      obtain ⟨u,hu,back⟩ := trace.back k hmem
      rw [hk] at hu
      cases hu
      exact acyclic (.tail' back hstep)
    have trace' : Trail c step t (k :: trail) := by
      refine ⟨List.nodup_cons.mpr ⟨hnew,trace.nodup⟩,List.cons_subset.mpr ⟨?_,trace.keys⟩,?_⟩
      · exact (Dict.mem_keys_iff _ _).mpr (by simp [Dict.contains,hk])
      · intro j hj
        rcases List.mem_cons.mp hj with rfl | hj
        · exact ⟨t,hk,.refl⟩
        · obtain ⟨u,hu,back⟩ := trace.back j hj
          exact ⟨u,hu,back.tail hstep⟩
    have hlen : trail.length + 1 ≤ c.schemas.size := by
      simpa using length_le_size trace'.nodup trace'.keys
    have hdepth := shallow k t hk
    refine ⟨k :: trail,trace',?_⟩
    obtain ⟨r,hr⟩ : ∃ r, c.schemas.size = trail.length + 1 + r := ⟨_,(Nat.add_sub_cancel' hlen).symm⟩
    have h1 : c.schemas.size - (k :: trail).length = r := by simp only [List.length_cons]; omega
    have h2 : c.schemas.size - trail.length = r + 1 := by omega
    simp only [allowance,h1,h2,Nat.succ_mul]
    omega

/-- A new name is worth more than all that can be passed without one. -/
lemma allowance_lt_of_names {m : Nat} {t : Schema} {stack : List String} {node : RefOr Schema}
    (shallow : Shallow c m) (hstack : stack.Nodup) (hkeys : stack ⊆ c.schemas.keys)
    (hfresh : ∀ name ∈ node.names, name ∉ stack) (ht : c.schema node = .ok t) (hnames : node.names ≠ [])
    (trail : List String) (s : Schema) :
    allowance c m (stack.length + node.names.length) [] t < allowance c m stack.length trail s := by
  obtain ⟨name,hm⟩ := List.exists_mem_of_ne_nil _ hnames
  have hname := RefOr.names_eq_of_mem hm
  have hlen : stack.length + 1 ≤ c.schemas.size := by
    have hsub : stack ++ node.names ⊆ c.schemas.keys :=
      List.append_subset.mpr ⟨hkeys,Components.names_subset_keys ht⟩
    simpa [hname] using length_le_size ((RefOr.nodup_append_names hstack).mpr hfresh) hsub
  have hdepth : t.depth ≤ m := by
    cases node with
    | inline u => cases hm
    | reference target note =>
      obtain ⟨-,k,hk⟩ := RefOr.of_follow ht
      exact shallow k t hk
  obtain ⟨r,hr⟩ : ∃ r, c.schemas.size = stack.length + 1 + r := ⟨_,(Nat.add_sub_cancel' hlen).symm⟩
  have h1 : c.schemas.size - (stack.length + [name].length) = r := by simp only [List.length_singleton]; omega
  have h2 : c.schemas.size - stack.length = r + 1 := by omega
  have h3 : (c.schemas.size + 1) * (m + 1) = c.schemas.size * (m + 1) + (m + 1) := Nat.succ_mul _ _
  have h4 : (r + 1) * ((c.schemas.size + 1) * (m + 1)) =
      r * ((c.schemas.size + 1) * (m + 1)) + (c.schemas.size + 1) * (m + 1) := Nat.succ_mul _ _
  simp only [allowance,hname,h1,h2,List.length_nil,Nat.sub_zero]
  omega

/-- Every further node takes from the allowance, a new name at the cost of the trail. The kind of the steps may depend
on the names that were passed. -/
lemma Trail.exists_next (step : List String → Schema → Schema → Prop) (past : List String) {m : Nat} {s t : Schema}
    {stack trail : List String} {node : RefOr Schema} (trace : Trail c (step past) s trail) (shallow : Shallow c m)
    (hstack : stack.Nodup) (hkeys : stack ⊆ c.schemas.keys) (hn : node ∈ s.nodes)
    (hfresh : ∀ name ∈ node.names, name ∉ stack) (ht : c.schema node = .ok t)
    (hstep : node.names = [] → step past s t ∧ ¬TransGen (step past) t t) :
    ∃ trail', Trail c (step (node.names ++ past)) t trail' ∧
      allowance c m (stack.length + node.names.length) trail' t < allowance c m stack.length trail s := by
  by_cases hnames : node.names = []
  · rw [hnames]
    exact trace.exists_of_acyclic shallow hn ht (hstep hnames).1 (hstep hnames).2
  · exact ⟨[],Trail.nil c _ t,allowance_lt_of_names shallow hstack hkeys hfresh ht hnames trail s⟩

/-- The depth that a budget counts with. -/
def maxDepth (c : Components) (s : Schema) : Nat := (c.schemas.values.map Schema.nodeDepth).foldl max s.depth

lemma le_foldl_max (l : List Nat) (a : Nat) : a ≤ l.foldl max a ∧ ∀ x ∈ l, x ≤ l.foldl max a := by
  induction l generalizing a with
  | nil => simp
  | cons y l ih =>
    obtain ⟨ha,hl⟩ := ih (max a y)
    simp only [List.foldl_cons]
    refine ⟨by omega,fun x hx => ?_⟩
    rcases List.mem_cons.mp hx with rfl | hx
    · omega
    · exact hl x hx

lemma shallow_maxDepth (c : Components) (s : Schema) : Shallow c (maxDepth c s) := by
  intro k t hk
  have hm : Schema.nodeDepth (.inline t) ∈ c.schemas.values.map Schema.nodeDepth :=
    List.mem_map.mpr ⟨_,(Dict.mem_values_iff _ _).mpr ⟨k,hk⟩,rfl⟩
  have hle := (le_foldl_max _ s.depth).2 _ hm
  rwa [Schema.nodeDepth] at hle

lemma allowance_le_budget (c : Components) (s : Schema) : allowance c (maxDepth c s) 0 [] s ≤ budget c s := by
  have hd : s.depth ≤ maxDepth c s := (le_foldl_max _ s.depth).1
  have hb : budget c s = (c.schemas.size + 1) * (c.schemas.size + 1) * (maxDepth c s + 1) + 1 := rfl
  have h1 : (c.schemas.size + 1) * (c.schemas.size + 1) * (maxDepth c s + 1) =
      c.schemas.size * ((c.schemas.size + 1) * (maxDepth c s + 1)) +
        (c.schemas.size + 1) * (maxDepth c s + 1) := by rw [Nat.mul_assoc,Nat.succ_mul]
  have h2 : (c.schemas.size + 1) * (maxDepth c s + 1) =
      c.schemas.size * (maxDepth c s + 1) + (maxDepth c s + 1) := Nat.succ_mul _ _
  simp only [allowance,List.length_nil,Nat.sub_zero]
  omega

lemma Expansion.gather_congr {α : Type} {f g : α → Except Failure Expansion} {xs : List α} {e : Expansion}
    (h : gather f xs = .ok e) (hfg : ∀ x ∈ xs, ∀ a, f x = .ok a → g x = .ok a) : gather g xs = .ok e := by
  induction xs generalizing e with
  | nil => exact h
  | cons x xs ih =>
    obtain ⟨a,b,ha,hb,rfl⟩ := gather_cons_eq_ok_iff.mp h
    have hrest := ih hb fun y hy => hfg y (List.mem_cons_of_mem _ hy)
    exact gather_cons_eq_ok_iff.mpr ⟨a,b,hfg x List.mem_cons_self a ha,hrest,rfl⟩

/-- More steps change nothing about an expansion that came to a result. -/
theorem expandTo_mono {n n' : Nat} {stack : List String} {s : Schema} {path : String} {required : Bool}
    {e : Expansion} (h : expandTo c n stack s path required = .ok e) (hn : n ≤ n') :
    expandTo c n' stack s path required = .ok e := by
  induction n generalizing n' stack s path required e with
  | zero => cases h
  | succ n ih =>
    obtain ⟨k,rfl⟩ : ∃ k, n' = k + 1 := ⟨n' - 1,by omega⟩
    obtain ⟨composed,own,hc,ho,h⟩ := expandTo_succ_eq_ok_iff.mp h
    apply expandTo_succ_eq_ok_iff.mpr
    refine ⟨composed,own,Expansion.gather_congr hc ?_,Expansion.gather_congr ho ?_,h⟩
    · intro node _ a ha
      rcases enter_eq_ok_iff.mp ha with hcut | ⟨hm,t,ht,he⟩
      · exact enter_eq_ok_iff.mpr (.inl hcut)
      · exact enter_eq_ok_iff.mpr (.inr ⟨hm,t,ht,ih he (by omega)⟩)
    · rintro ⟨name,node⟩ _ a ha
      rcases atProperty_eq_ok_iff.mp ha with hcut | ⟨hm,t,inner,ht,hi,he⟩
      · exact atProperty_eq_ok_iff.mpr (.inl hcut)
      · exact atProperty_eq_ok_iff.mpr (.inr ⟨hm,t,inner,ht,ih hi (by omega),he⟩)

end Body
end ActionCatalog
