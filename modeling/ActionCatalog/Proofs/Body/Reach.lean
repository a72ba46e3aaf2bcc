import ActionCatalog.Proofs.Body.Leaves

/-! What can be reached in a body. Main statement: if a body can be expanded, then whatever is reachable in
it, also past the components that the expansion cut, leads on to schemas and never runs in a circle
without passing a name. -/
namespace ActionCatalog.Body
open Relation

variable {c : Components}

/-- A schema leads to those that its nodes stand for. -/
def Leads (c : Components) (s t : Schema) : Prop := ∃ node ∈ s.nodes, c.schema node = .ok t

/-- A step that is followed under no name. -/
def Unnamed (c : Components) (s t : Schema) : Prop :=
  ∃ node ∈ s.nodes, node.names = [] ∧ c.schema node = .ok t

lemma Unnamed.leads {s t : Schema} (h : Unnamed c s t) : Leads c s t := by
  obtain ⟨node,hn,-,ht⟩ := h
  exact ⟨node,hn,ht⟩

/-- The expansion of a schema under a stack of names ends within `n` steps: every node is cut or leads to a
schema whose expansion ends in fewer. -/
def Ends (c : Components) : Nat → List String → Schema → Prop
  | 0, _, _ => False
  | n+1, stack, s => ∀ node ∈ s.nodes, (∃ name, node.names = [name] ∧ name ∈ stack) ∨
      ((∀ name ∈ node.names, name ∉ stack) ∧ ∃ t, c.schema node = .ok t ∧ Ends c n (stack ++ node.names) t)

/-- Whether an expansion comes to a result does not depend on its path nor on what is required. -/
theorem exists_expandTo_iff {n : Nat} {stack : List String} {s : Schema} {path : String} {required : Bool} :
    (∃ e, expandTo c n stack s path required = .ok e) ↔ Ends c n stack s := by
  induction n generalizing stack s path required with
  | zero => simp [expandTo,Ends]
  | succ n ih =>
    constructor
    · rintro ⟨e,h⟩ node hn
      obtain ⟨composed,own,hc,ho,-⟩ := expandTo_succ_eq_ok_iff.mp h
      rcases Schema.mem_nodes.mp hn with hb | ⟨name,hd⟩
      · obtain ⟨inner,hi⟩ := (Expansion.mem_fields_gather hc).1 node hb
        rcases enter_eq_ok_iff.mp hi with ⟨name,hname,hm,-⟩ | ⟨hm,t,ht,he⟩
        · exact .inl ⟨name,hname,hm⟩
        · exact .inr ⟨hm,t,ht,ih.mp ⟨_,he⟩⟩
      · obtain ⟨inner,hi⟩ := (Expansion.mem_fields_gather ho).1 _ ((Dict.mem_entries_iff _ _ _).mpr hd)
        rcases atProperty_eq_ok_iff.mp hi with ⟨name,hname,hm,-⟩ | ⟨hm,t,inner,ht,hin,-⟩
        · exact .inl ⟨name,hname,hm⟩
        · exact .inr ⟨hm,t,ht,ih.mp ⟨_,hin⟩⟩
    · intro h
      have hcomposed : ∃ composed, Expansion.gather
          (fun branch => enter c stack path branch fun s stack => expandTo c n stack s path required)
          s.branches = .ok composed := by
        refine Expansion.exists_gather_eq_ok fun node hb => ?_
        rcases h node (Schema.mem_nodes.mpr (.inl hb)) with ⟨name,hname,hm⟩ | ⟨hm,t,ht,he⟩
        · exact ⟨_,enter_eq_ok_iff.mpr (.inl ⟨name,hname,hm,rfl⟩)⟩
        · obtain ⟨e,he⟩ := ih.mpr he
          exact ⟨e,enter_eq_ok_iff.mpr (.inr ⟨hm,t,ht,he⟩)⟩
      have hown : ∃ own, Expansion.gather (atProperty c (expandTo c n) stack s path required)
          s.properties.entries = .ok own := by
        refine Expansion.exists_gather_eq_ok ?_
        rintro ⟨name,node⟩ he
        have hd := (Dict.mem_entries_iff _ _ _).mp he
        rcases h node (Schema.mem_nodes.mpr (.inr ⟨_,hd⟩)) with ⟨name,hname,hm⟩ | ⟨hm,t,ht,he⟩
        · exact ⟨_,atProperty_eq_ok_iff.mpr (.inl ⟨name,hname,hm,rfl⟩)⟩
        · obtain ⟨e,he⟩ := ih.mpr he
          exact ⟨_,atProperty_eq_ok_iff.mpr (.inr ⟨hm,t,e,ht,he,rfl⟩)⟩
      obtain ⟨composed,hc⟩ := hcomposed
      obtain ⟨own,ho⟩ := hown
      exact ⟨_,expandTo_succ_eq_ok_iff.mpr ⟨composed,own,hc,ho,rfl⟩⟩

/-- A step of the expansion: a node whose name is not on the stack, which it is put on. -/
def Follows (c : Components) (x y : List String × Schema) : Prop :=
  ∃ node ∈ x.2.nodes, (∀ name ∈ node.names, name ∉ x.1) ∧ c.schema node = .ok y.2 ∧
    y.1 = x.1 ++ node.names

lemma Ends.follows {n : Nat} {x y : List String × Schema} (h : Ends c (n+1) x.1 x.2) (step : Follows c x y) :
    Ends c n y.1 y.2 := by
  obtain ⟨node,hn,hm,hs,hy⟩ := step
  rcases h node hn with ⟨name,hname,hin⟩ | ⟨-,t,ht,he⟩
  · exact absurd hin (hm name (by simp [hname]))
  · rw [hs] at ht
    cases ht
    rwa [hy]

lemma Ends.transGen {n : Nat} {x y : List String × Schema} (h : Ends c n x.1 x.2)
    (steps : TransGen (Follows c) x y) : ∃ m < n, Ends c m y.1 y.2 := by
  induction steps with
  | single step =>
    cases n with
    | zero => exact h.elim
    | succ n => exact ⟨n,Nat.lt_succ_self n,h.follows step⟩
  | tail _ step ih =>
    obtain ⟨m,hm,he⟩ := ih
    cases m with
    | zero => exact he.elim
    | succ m => exact ⟨m,by omega,he.follows step⟩

lemma Ends.acyclic {n : Nat} {x : List String × Schema} (h : Ends c n x.1 x.2) :
    ¬TransGen (Follows c) x x := by
  intro steps
  induction n using Nat.strongRecOn with
  | ind n ih =>
    obtain ⟨m,hm,he⟩ := h.transGen steps
    exact ih m hm he

/-- A name on the stack got there with a node that leads to a schema. -/
lemma exists_node_of_mem_stack {s : Schema} {x : List String × Schema}
    (steps : ReflTransGen (Follows c) ([],s) x) {name : String} (hm : name ∈ x.1) :
    ∃ node y, node.names = [name] ∧ c.schema node = .ok y.2 ∧ ReflTransGen (Follows c) ([],s) y := by
  induction steps with
  | refl => cases hm
  | @tail y z before step ih =>
    obtain ⟨node,hn,hfresh,hs,hz⟩ := step
    rw [hz] at hm
    rcases List.mem_append.mp hm with hm | hm
    · exact ih hm
    · exact ⟨node,z,RefOr.names_eq_of_mem hm,hs,before.tail ⟨node,hn,hfresh,hs,hz⟩⟩

/-- Whatever is reachable is reached by the expansion: a chain that comes to a name twice can be cut short
between the two. -/
lemma exists_follows_of_leads {s t : Schema} (steps : ReflTransGen (Leads c) s t) :
    ∃ stack, ReflTransGen (Follows c) ([],s) (stack,t) := by
  induction steps with
  | refl => exact ⟨[],.refl⟩
  | @tail t u _ step ih =>
    obtain ⟨stack,before⟩ := ih
    obtain ⟨node,hn,hu⟩ := step
    by_cases hcut : ∃ name, node.names = [name] ∧ name ∈ stack
    · obtain ⟨name,hname,hm⟩ := hcut
      obtain ⟨first,y,hfirst,hy,steps⟩ := exists_node_of_mem_stack before hm
      rcases Components.schema_of_names hfirst hname hy with ho | ⟨_,ho⟩
      · rw [hu] at ho
        cases ho
        exact ⟨_,steps⟩
      · rw [hu] at ho
        cases ho
    · have hfresh : ∀ name ∈ node.names, name ∉ stack :=
        fun name hm hin => hcut ⟨name,RefOr.names_eq_of_mem hm,hin⟩
      exact ⟨_,before.tail ⟨node,hn,hfresh,hu,rfl⟩⟩

/-- What holds of a node wherever a body can be expanded: it leads to a schema, unless it asks for a
component of another kind under a name that schemas are followed under. -/
def Resolves (c : Components) (node : RefOr Schema) : Prop :=
  (∃ t, c.schema node = .ok t) ∨
    ∃ name found, node.names = [name] ∧ name ∈ c.schemas.keys ∧ c.schema node = .error (.otherKind found .schema)

/-- All that is reachable can be looked into, and nothing runs in a circle without passing a name. -/
structure Sound (c : Components) (s : Schema) : Prop where
  resolves : ∀ t, ReflTransGen (Leads c) s t → ∀ node ∈ t.nodes, Resolves c node
  acyclic : ∀ t, ReflTransGen (Leads c) s t → ¬TransGen (Unnamed c) t t

lemma Sound.leads {s t : Schema} (h : Sound c s) (step : Leads c s t) : Sound c t where
  resolves := fun u hu => h.resolves u (.head step hu)
  acyclic := fun u hu => h.acyclic u (.head step hu)

lemma Sound.trans {s t : Schema} (h : Sound c s) (steps : ReflTransGen (Leads c) s t) : Sound c t where
  resolves := fun u hu => h.resolves u (steps.trans hu)
  acyclic := fun u hu => h.acyclic u (steps.trans hu)

lemma Ends.of_follows {n : Nat} {s : Schema} {x : List String × Schema} (h : Ends c n [] s)
    (steps : ReflTransGen (Follows c) ([],s) x) : ∃ m, Ends c (m+1) x.1 x.2 := by
  obtain ⟨m,hm⟩ : ∃ m, Ends c m x.1 x.2 := by
    rcases reflTransGen_iff_eq_or_transGen.mp steps with rfl | steps
    · exact ⟨n,h⟩
    · obtain ⟨m,-,hm⟩ := Ends.transGen (x := ([],s)) h steps
      exact ⟨m,hm⟩
  cases m with
  | zero => exact hm.elim
  | succ m => exact ⟨m,hm⟩

/-- A body that can be expanded is sound. -/
theorem Ends.sound {n : Nat} {s : Schema} (h : Ends c n [] s) : Sound c s where
  resolves := by
    intro t steps node hn
    obtain ⟨stack,follows⟩ := exists_follows_of_leads steps
    obtain ⟨m,hm⟩ := h.of_follows follows
    rcases hm node hn with ⟨name,hname,hin⟩ | ⟨-,u,hu,-⟩
    · obtain ⟨first,y,hfirst,hy,-⟩ := exists_node_of_mem_stack follows hin
      rcases Components.schema_of_names hfirst hname hy with ho | ⟨found,ho⟩
      · exact .inl ⟨_,ho⟩
      · have hkey : name ∈ c.schemas.keys := Components.names_subset_keys hy (by simp [hfirst])
        exact .inr ⟨name,found,hname,hkey,ho⟩
    · exact .inl ⟨u,hu⟩
  acyclic := by
    intro t steps circle
    obtain ⟨stack,follows⟩ := exists_follows_of_leads steps
    obtain ⟨m,hm⟩ := h.of_follows follows
    have lift : ∀ {u v : Schema}, TransGen (Unnamed c) u v → TransGen (Follows c) (stack,u) (stack,v) := by
      intro u v steps
      induction steps with
      | single step =>
        obtain ⟨node,hn,hnames,hv⟩ := step
        exact .single ⟨node,hn,by simp [hnames],hv,by simp [hnames]⟩
      | tail _ step ih =>
        obtain ⟨node,hn,hnames,hv⟩ := step
        exact ih.tail ⟨node,hn,by simp [hnames],hv,by simp [hnames]⟩
    exact Ends.acyclic (x := (stack,t)) hm (lift circle)

theorem sound_of_expand {s : Schema} {required : Bool} {e : Expansion} (h : expand c s required = .ok e) :
    Sound c s := (exists_expandTo_iff.mp ⟨e,h⟩).sound

end ActionCatalog.Body
