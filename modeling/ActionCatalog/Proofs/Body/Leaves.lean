import ActionCatalog.Proofs.Body.Graph
import ActionCatalog.Proofs.Fallible

/-! The leaves of a body: the ends of the chains of nodes that run through it. Main statement: the
fields of an expansion are exactly the leaves, whatever dictionary they are written into. -/
namespace ActionCatalog

namespace RefOr
variable {α : Type}

lemma nodup_names (node : RefOr α) : node.names.Nodup := by
  cases node with
  | inline _ => simp
  | reference target note =>
    simp only [names]
    split <;> simp

lemma nodup_append_names {stack : List String} (h : stack.Nodup) {node : RefOr α} :
    (stack ++ node.names).Nodup ↔ ∀ name ∈ node.names, name ∉ stack := by
  rw [List.nodup_append]
  constructor
  · rintro ⟨-,-,hd⟩ name hn hs
    exact hd name hs name hn rfl
  · intro hd
    refine ⟨h,node.nodup_names,?_⟩
    rintro a ha b hb rfl
    exact hd a hb ha

@[simp] theorem blame_eq_ok_iff {node : RefOr α} {place : String} {r : Except Obstacle α} {v : α} :
    node.blame place r = .ok v ↔ r = .ok v := by
  cases r <;> simp [blame]

end RefOr

namespace Body
open Relation

/-- What a chain of nodes has come to: the names it was followed under, the schema it leads to, the path of
the properties it went through, and whether all of them are required. -/
structure Spot where
  names : List String := []
  schema : Schema
  path : String := ""
  required : Bool

/-- A chain goes on through a composed node, which stays at its path, or through a property. -/
inductive Step (c : Components) : Spot → Spot → Prop
  | branch {p : Spot} {node : RefOr Schema} {s : Schema} (composed : node ∈ p.schema.branches)
      (leads : c.schema node = .ok s) : Step c p ⟨p.names ++ node.names,s,p.path,p.required⟩
  | property {p : Spot} {name : String} {node : RefOr Schema} {s : Schema}
      (declared : p.schema.properties.get? name = some node) (leads : c.schema node = .ok s) :
      Step c p ⟨p.names ++ node.names,s,join p.path name,p.required && p.schema.requires name⟩

/-- The fields at the ends of chains: a chain that is followed under no name twice and ends in a property
without properties of its own. -/
inductive Leaf (c : Components) (start : Spot) : String → Schema → Input → Prop
  | intro {p : Spot} {name : String} {node : RefOr Schema} {s : Schema}
      (chain : ReflTransGen (Step c) start p) (declared : p.schema.properties.get? name = some node)
      (leads : c.schema node = .ok s) (plain : s.hasProperties = false)
      (distinct : (p.names ++ node.names).Nodup) :
      Leaf c start (join p.path name) s
        (.ofSchema s (p.required && p.schema.requires name) (Text.firstOf s.description node.note?))

lemma Leaf.head {c : Components} {p q : Spot} {path : String} {s : Schema} {i : Input} (h : Step c p q)
    (leaf : Leaf c q path s i) : Leaf c p path s i := by
  cases leaf with
  | intro chain declared leads plain distinct => exact .intro (.head h chain) declared leads plain distinct

lemma Step.names_isPrefixOf {c : Components} {p q : Spot} (h : Step c p q) : p.names <+: q.names := by
  cases h <;> exact List.prefix_append _ _

lemma names_isPrefixOf {c : Components} {p q : Spot} (h : ReflTransGen (Step c) p q) : p.names <+: q.names := by
  induction h with
  | refl => exact List.prefix_refl _
  | tail _ hs ih => exact ih.trans hs.names_isPrefixOf

namespace Expansion
variable {α : Type} {f : α → Except Failure Expansion}

lemma gather_cons_eq_ok_iff {x : α} {xs : List α} {e : Expansion} :
    gather f (x :: xs) = .ok e ↔ ∃ a b, f x = .ok a ∧ gather f xs = .ok b ∧ a ++ b = e := by
  simp only [gather,Except.bind_eq_ok_iff,Except.pure_eq_ok,Except.ok.injEq]
  constructor
  · rintro ⟨a,ha,b,hb,h⟩
    exact ⟨a,b,ha,hb,h⟩
  · rintro ⟨a,b,ha,hb,h⟩
    exact ⟨a,ha,b,hb,h⟩

/-- What is gathered from a list comes from its members, each of which has an expansion. -/
lemma mem_gather {β : Type} {part : Expansion → List β} (hnil : part {} = [])
    (happend : ∀ a b, part (a ++ b) = part a ++ part b) {xs : List α} {e : Expansion} (h : gather f xs = .ok e) :
    (∀ x ∈ xs, ∃ a, f x = .ok a) ∧ ∀ y, y ∈ part e ↔ ∃ x ∈ xs, ∃ a, f x = .ok a ∧ y ∈ part a := by
  induction xs generalizing e with
  | nil =>
    cases h
    simp [hnil]
  | cons x xs ih =>
    obtain ⟨a,b,ha,hb,rfl⟩ := gather_cons_eq_ok_iff.mp h
    obtain ⟨htotal,hpart⟩ := ih hb
    constructor
    · intro y hy
      rcases List.mem_cons.mp hy with rfl | hy
      · exact ⟨a,ha⟩
      · exact htotal y hy
    · intro y
      rw [happend,List.mem_append,hpart]
      constructor
      · rintro (hy | ⟨z,hz,hy⟩)
        · exact ⟨x,List.mem_cons_self,a,ha,hy⟩
        · exact ⟨z,List.mem_cons_of_mem _ hz,hy⟩
      · rintro ⟨z,hz,b',hb',hy⟩
        rcases List.mem_cons.mp hz with rfl | hz
        · rw [ha] at hb'
          cases hb'
          exact .inl hy
        · exact .inr ⟨z,hz,b',hb',hy⟩

/-- The fields of a list are those of its members, each of which has an expansion. -/
lemma mem_fields_gather {xs : List α} {e : Expansion} (h : gather f xs = .ok e) :
    (∀ x ∈ xs, ∃ a, f x = .ok a) ∧
      ∀ field, field ∈ e.fields ↔ ∃ x ∈ xs, ∃ a, f x = .ok a ∧ field ∈ a.fields :=
  mem_gather rfl fields_append h

lemma mem_cuts_gather {xs : List α} {e : Expansion} (h : gather f xs = .ok e) (chain : List String) :
    chain ∈ e.cuts ↔ ∃ x ∈ xs, ∃ a, f x = .ok a ∧ chain ∈ a.cuts := (mem_gather rfl cuts_append h).2 chain

lemma gather_eq {g : α → Except Failure Expansion} {xs : List α} (h : ∀ x ∈ xs, f x = g x) :
    gather f xs = gather g xs := by
  induction xs with
  | nil => rfl
  | cons x xs ih =>
    rw [gather,gather,h x List.mem_cons_self,ih fun y hy => h y (List.mem_cons_of_mem _ hy)]

lemma gather_failsOnly {p : Failure → Prop} {xs : List α} (h : ∀ x ∈ xs, Except.FailsOnly p (f x)) :
    Except.FailsOnly p (gather f xs) := by
  induction xs with
  | nil => exact .ok _
  | cons x xs ih =>
    refine .bind (h x List.mem_cons_self) fun here => ?_
    exact .bind (ih fun y hy => h y (List.mem_cons_of_mem _ hy)) fun behind => .ok _

lemma exists_gather_eq_ok {xs : List α} (h : ∀ x ∈ xs, ∃ a, f x = .ok a) : ∃ e, gather f xs = .ok e := by
  induction xs with
  | nil => exact ⟨_,rfl⟩
  | cons x xs ih =>
    obtain ⟨a,ha⟩ := h x List.mem_cons_self
    obtain ⟨b,hb⟩ := ih fun y hy => h y (List.mem_cons_of_mem _ hy)
    exact ⟨_,gather_cons_eq_ok_iff.mpr ⟨a,b,ha,hb,rfl⟩⟩

end Expansion

section Entering
variable {c : Components} {stack : List String} {path : String} {node : RefOr Schema}
  {go : Schema → List String → Except Failure Expansion} {e : Expansion}

lemma cut_or_fresh (stack : List String) (node : RefOr Schema) :
    (∃ name, node.names = [name] ∧ name ∈ stack) ∨ ∀ name ∈ node.names, name ∉ stack := by
  by_cases h : ∃ name ∈ node.names, name ∈ stack
  · obtain ⟨name,hname,hm⟩ := h
    exact .inl ⟨name,RefOr.names_eq_of_mem hname,hm⟩
  · exact .inr fun name hname hm => h ⟨name,hname,hm⟩

/-- A node is cut if its name is on the stack already. -/
lemma enter_of_mem {name : String} (hname : node.names = [name]) (hm : name ∈ stack) :
    enter c stack path node go = .ok { cuts := [stack ++ [name]] } := by
  cases node with
  | inline _ => cases hname
  | reference target note => simp [enter,RefOr.names_eq_singleton.mp hname,hm]

/-- Otherwise it is followed, with its name on the stack. -/
lemma enter_of_fresh (hfresh : ∀ name ∈ node.names, name ∉ stack) :
    enter c stack path node go =
      node.blame (place path) (c.schema node) >>= fun s => go s (stack ++ node.names) := by
  cases node with
  | inline s => simp [enter,Components.schema,RefOr.blame,bind,Except.bind]
  | reference target note =>
    simp only [RefOr.names] at hfresh ⊢
    cases hl : Pointer.localName target with
    | named name =>
      have hm : name ∉ stack := by simpa [hl] using hfresh
      simp [enter,hl,hm]
    | elsewhere => simp [enter,hl]
    | malformed => simp [enter,hl,Components.schema_of_malformed hl,RefOr.blame,RefOr.target,bind,Except.bind]

lemma enter_eq_ok_iff : enter c stack path node go = .ok e ↔
    (∃ name, node.names = [name] ∧ name ∈ stack ∧ e = { cuts := [stack ++ [name]] }) ∨
      ((∀ name ∈ node.names, name ∉ stack) ∧
        ∃ s, c.schema node = .ok s ∧ go s (stack ++ node.names) = .ok e) := by
  rcases cut_or_fresh stack node with ⟨name,hname,hm⟩ | hfresh
  · rw [enter_of_mem hname hm]
    simp [hname,hm,eq_comm]
  · rw [enter_of_fresh hfresh,Except.bind_eq_ok_iff]
    simp only [RefOr.blame_eq_ok_iff]
    constructor
    · intro h
      exact .inr ⟨hfresh,h⟩
    · rintro (⟨name,hname,hm,-⟩ | ⟨-,h⟩)
      · exact absurd hm (hfresh name (by simp [hname]))
      · exact h

/-- What comes of a node depends only on what comes of the schema that it leads to. -/
lemma enter_eq {go' : Schema → List String → Except Failure Expansion} (h : (∀ name ∈ node.names, name ∉ stack) →
      ∀ s, c.schema node = .ok s → go s (stack ++ node.names) = go' s (stack ++ node.names)) :
    enter c stack path node go = enter c stack path node go' := by
  rcases cut_or_fresh stack node with ⟨name,hname,hm⟩ | hfresh
  · rw [enter_of_mem hname hm,enter_of_mem hname hm]
  · rw [enter_of_fresh hfresh,enter_of_fresh hfresh]
    cases hs : c.schema node with
    | error o => rfl
    | ok s => exact h hfresh s hs

lemma enter_failsOnly {p : Failure → Prop} (hblame : Except.FailsOnly p (node.blame (place path) (c.schema node)))
    (h : (∀ name ∈ node.names, name ∉ stack) → ∀ s, c.schema node = .ok s →
      Except.FailsOnly p (go s (stack ++ node.names))) :
    Except.FailsOnly p (enter c stack path node go) := by
  rcases cut_or_fresh stack node with ⟨name,hname,hm⟩ | hfresh
  · rw [enter_of_mem hname hm]
    exact .ok _
  · rw [enter_of_fresh hfresh]
    cases hs : c.schema node with
    | error o =>
      rw [hs] at hblame
      exact .error (hblame _ rfl)
    | ok s => exact h hfresh s hs

/-- A property is cut like any node, and otherwise has the fields inside it and perhaps its own. -/
lemma atProperty_eq_ok_iff {go : List String → Schema → String → Bool → Except Failure Expansion}
    {s : Schema} {required : Bool} {name : String} :
    atProperty c go stack s path required (name,node) = .ok e ↔
      (∃ name, node.names = [name] ∧ name ∈ stack ∧ e = { cuts := [stack ++ [name]] }) ∨
      ((∀ name ∈ node.names, name ∉ stack) ∧ ∃ t inner, c.schema node = .ok t ∧
        go (stack ++ node.names) t (join path name) (required && s.requires name) = .ok inner ∧
        e = if t.hasProperties then inner else inner ++
          { fields := [(join path name,.ofSchema t (required && s.requires name) (describe t node))] }) := by
  rw [atProperty,enter_eq_ok_iff]
  refine or_congr_right (and_congr_right fun _ => exists_congr fun t => ?_)
  constructor
  · rintro ⟨ht,h⟩
    obtain ⟨inner,hi,he⟩ := Except.bind_eq_ok_iff.mp h
    cases he
    exact ⟨inner,ht,hi,rfl⟩
  · rintro ⟨inner,ht,hi,rfl⟩
    exact ⟨ht,Except.bind_eq_ok_iff.mpr ⟨inner,hi,rfl⟩⟩

end Entering

/-- An expansion consists of those of the composed nodes and then those of the properties. -/
lemma expandTo_succ_eq_ok_iff {c : Components} {n : Nat} {stack : List String} {s : Schema} {path : String}
    {required : Bool} {e : Expansion} : expandTo c (n+1) stack s path required = .ok e ↔
      ∃ composed own, Expansion.gather
          (fun node => enter c stack path node fun s stack => expandTo c n stack s path required)
          s.branches = .ok composed ∧
        Expansion.gather (atProperty c (expandTo c n) stack s path required) s.properties.entries = .ok own ∧
        composed ++ own = e := by
  simp only [expandTo,Except.bind_eq_ok_iff,Except.pure_eq_ok,Except.ok.injEq]
  constructor
  · rintro ⟨composed,hc,own,ho,he⟩
    exact ⟨composed,own,hc,ho,he⟩
  · rintro ⟨composed,own,hc,ho,he⟩
    exact ⟨composed,hc,own,ho,he⟩

section Continuing
variable {c : Components} {n : Nat} {stack : List String} {s : Schema} {path : String} {required : Bool}

/-- What an expansion comes to depends only on the expansions of the schemas that its nodes lead to. -/
lemma expandTo_succ_eq {n' : Nat} (h : ∀ node ∈ s.nodes, (∀ name ∈ node.names, name ∉ stack) →
      ∀ t, c.schema node = .ok t → ∀ path required, expandTo c n (stack ++ node.names) t path required =
        expandTo c n' (stack ++ node.names) t path required) :
    expandTo c (n+1) stack s path required = expandTo c (n'+1) stack s path required := by
  have hcomposed : Expansion.gather
      (fun node => enter c stack path node fun s stack => expandTo c n stack s path required) s.branches =
      Expansion.gather
        (fun node => enter c stack path node fun s stack => expandTo c n' stack s path required) s.branches := by
    refine Expansion.gather_eq fun node hb => enter_eq fun hfresh t ht => ?_
    exact h node (Schema.mem_nodes.mpr (.inl hb)) hfresh t ht path required
  have hown : Expansion.gather (atProperty c (expandTo c n) stack s path required) s.properties.entries =
      Expansion.gather (atProperty c (expandTo c n') stack s path required) s.properties.entries := by
    refine Expansion.gather_eq ?_
    rintro ⟨name,node⟩ he
    rw [atProperty,atProperty]
    refine enter_eq fun hfresh t ht => ?_
    rw [h node (Schema.mem_nodes.mpr (.inr ⟨name,(Dict.mem_entries_iff _ _ _).mp he⟩)) hfresh t ht]
  rw [expandTo,expandTo,hcomposed,hown]

lemma expandTo_succ_failsOnly {p : Failure → Prop}
    (hblame : ∀ node ∈ s.nodes, ∀ place, Except.FailsOnly p (node.blame place (c.schema node)))
    (h : ∀ node ∈ s.nodes, (∀ name ∈ node.names, name ∉ stack) → ∀ t, c.schema node = .ok t →
      ∀ path required, Except.FailsOnly p (expandTo c n (stack ++ node.names) t path required)) :
    Except.FailsOnly p (expandTo c (n+1) stack s path required) := by
  refine .bind (Expansion.gather_failsOnly fun node hb => ?_) fun composed =>
    .bind (Expansion.gather_failsOnly ?_) fun own => .ok _
  · have hn := Schema.mem_nodes.mpr (.inl hb)
    exact enter_failsOnly (hblame node hn _) fun hfresh t ht => h node hn hfresh t ht path required
  · rintro ⟨name,node⟩ he
    have hn := Schema.mem_nodes.mpr (.inr ⟨name,(Dict.mem_entries_iff _ _ _).mp he⟩)
    rw [atProperty]
    refine enter_failsOnly (hblame node hn _) fun hfresh t ht => ?_
    refine .bind (h node hn hfresh t ht _ _) fun inner => ?_
    split <;> exact .ok _

end Continuing

/-- The expansion from where a chain has come to. -/
def expandAt (c : Components) (n : Nat) (p : Spot) : Except Failure Expansion :=
  expandTo c n p.names p.schema p.path p.required

section Expanding
variable {c : Components} {n : Nat} {p : Spot} {e : Expansion}

/-- An expansion covers the expansion of every spot one step further. -/
lemma exists_expandAt_of_step {q : Spot} (h : expandAt c (n+1) p = .ok e) (hp : p.names.Nodup)
    (step : Step c p q) (hq : q.names.Nodup) :
    ∃ inner, expandAt c n q = .ok inner ∧ inner.fields ⊆ e.fields ∧ inner.cuts ⊆ e.cuts := by
  obtain ⟨composed,own,hc,ho,rfl⟩ := expandTo_succ_eq_ok_iff.mp h
  cases step with
  | @branch node s hb hs =>
    obtain ⟨htotal,hfields⟩ := Expansion.mem_fields_gather hc
    obtain ⟨inner,hi⟩ := htotal node hb
    rcases enter_eq_ok_iff.mp hi with ⟨name,hn,hm,-⟩ | ⟨-,t,ht,he⟩
    · exact absurd hm ((RefOr.nodup_append_names hp).mp hq name (by simp [hn]))
    · rw [hs] at ht
      cases ht
      refine ⟨inner,he,fun f hf => List.mem_append_left _ ((hfields f).mpr ⟨node,hb,inner,hi,hf⟩),?_⟩
      exact fun f hf => List.mem_append_left _ ((Expansion.mem_cuts_gather hc f).mpr ⟨node,hb,inner,hi,hf⟩)
  | @property name node s hd hs =>
    obtain ⟨htotal,hfields⟩ := Expansion.mem_fields_gather ho
    have hmem := (Dict.mem_entries_iff _ _ _).mpr hd
    obtain ⟨outer,hi⟩ := htotal _ hmem
    rcases atProperty_eq_ok_iff.mp hi with ⟨name',hn,hm,-⟩ | ⟨-,t,inner,ht,hin,houter⟩
    · exact absurd hm ((RefOr.nodup_append_names hp).mp hq name' (by simp [hn]))
    · rw [hs] at ht
      cases ht
      have hsub : inner.fields ⊆ outer.fields ∧ inner.cuts ⊆ outer.cuts := by
        rw [houter]
        split <;> simp
      refine ⟨inner,hin,fun f hf => List.mem_append_right _ ((hfields f).mpr ⟨_,hmem,_,hi,hsub.1 hf⟩),?_⟩
      exact fun f hf => List.mem_append_right _ ((Expansion.mem_cuts_gather ho f).mpr ⟨_,hmem,_,hi,hsub.2 hf⟩)

/-- An expansion holds the leaves that lie one step away. -/
lemma mem_expandAt_of_property {name : String} {node : RefOr Schema} {s : Schema}
    (h : expandAt c (n+1) p = .ok e) (hp : p.names.Nodup) (hd : p.schema.properties.get? name = some node)
    (hs : c.schema node = .ok s) (plain : s.hasProperties = false) (hq : (p.names ++ node.names).Nodup) :
    (join p.path name,.ofSchema s (p.required && p.schema.requires name) (describe s node)) ∈ e.fields := by
  obtain ⟨composed,own,hc,ho,rfl⟩ := expandTo_succ_eq_ok_iff.mp h
  obtain ⟨htotal,hfields⟩ := Expansion.mem_fields_gather ho
  have hmem := (Dict.mem_entries_iff _ _ _).mpr hd
  obtain ⟨outer,hi⟩ := htotal _ hmem
  rcases atProperty_eq_ok_iff.mp hi with ⟨name',hn,hm,-⟩ | ⟨-,t,inner,ht,-,rfl⟩
  · exact absurd hm ((RefOr.nodup_append_names hp).mp hq name' (by simp [hn]))
  · rw [hs] at ht
    cases ht
    refine List.mem_append_right _ ((hfields _).mpr ⟨_,hmem,_,hi,?_⟩)
    simp [plain]

/-- Every field of an expansion comes from a spot one step further, or is a leaf one step away. -/
lemma of_mem_expandAt {path : String} {i : Input} (h : expandAt c (n+1) p = .ok e) (hp : p.names.Nodup)
    (hf : (path,i) ∈ e.fields) :
    (∃ q inner, Step c p q ∧ q.names.Nodup ∧ expandAt c n q = .ok inner ∧ (path,i) ∈ inner.fields) ∨
      ∃ s, Leaf c p path s i := by
  obtain ⟨composed,own,hc,ho,rfl⟩ := expandTo_succ_eq_ok_iff.mp h
  rcases List.mem_append.mp hf with hf | hf
  · obtain ⟨node,hb,inner,hi,hf⟩ := ((Expansion.mem_fields_gather hc).2 _).mp hf
    rcases enter_eq_ok_iff.mp hi with ⟨_,_,_,rfl⟩ | ⟨hm,s,hs,he⟩
    · cases hf
    · exact .inl ⟨_,inner,.branch hb hs,(RefOr.nodup_append_names hp).mpr hm,he,hf⟩
  · obtain ⟨⟨name,node⟩,hd,outer,hi,hf⟩ := ((Expansion.mem_fields_gather ho).2 _).mp hf
    have hd := (Dict.mem_entries_iff _ _ _).mp hd
    rcases atProperty_eq_ok_iff.mp hi with ⟨_,_,_,rfl⟩ | ⟨hm,s,inner,hs,hin,rfl⟩
    · cases hf
    · have hq := (RefOr.nodup_append_names hp).mpr hm
      split at hf
      · exact .inl ⟨_,_,.property hd hs,hq,hin,hf⟩
      · rename_i plain
        rcases List.mem_append.mp hf with hf | hf
        · exact .inl ⟨_,inner,.property hd hs,hq,hin,hf⟩
        · cases List.mem_singleton.mp hf
          exact .inr ⟨s,.intro .refl hd hs (by simpa using plain) hq⟩

/-- The fields of an expansion are the leaves of the chains that start where it starts. -/
theorem mem_expandAt_iff (h : expandAt c n p = .ok e) (hp : p.names.Nodup) (path : String) (i : Input) :
    (path,i) ∈ e.fields ↔ ∃ s, Leaf c p path s i := by
  induction n generalizing p e with
  | zero => cases h
  | succ n ih =>
    constructor
    · intro hf
      rcases of_mem_expandAt h hp hf with ⟨q,inner,step,hq,hi,hf⟩ | leaf
      · obtain ⟨s,leaf⟩ := (ih hi hq).mp hf
        exact ⟨s,leaf.head step⟩
      · exact leaf
    · rintro ⟨s,@⟨r,name,node,_,chain,hd,hs,plain,distinct⟩⟩
      rcases ReflTransGen.cases_head chain with rfl | ⟨q,step,rest⟩
      · exact mem_expandAt_of_property h hp hd hs plain distinct
      · -- The names along the chain only grow, so those at its next spot are distinct as well.
        have hsub := (names_isPrefixOf rest).sublist.trans (List.sublist_append_left _ node.names)
        have hq : q.names.Nodup := hsub.nodup distinct
        obtain ⟨inner,hi,hsub,-⟩ := exists_expandAt_of_step h hp step hq
        exact hsub ((ih hi hq).mpr ⟨s,.intro rest hd hs plain distinct⟩)

end Expanding

/-- Where the chains through a body start. -/
def Spot.root (s : Schema) (required : Bool) : Spot := { schema := s, required }

lemma mem_expand_iff {c : Components} {s : Schema} {required : Bool} {e : Expansion}
    (h : expand c s required = .ok e) (path : String) (i : Input) :
    (path,i) ∈ e.fields ↔ ∃ leaf, Leaf c (.root s required) path leaf i :=
  mem_expandAt_iff (p := .root s required) h List.nodup_nil path i

/-- A component that contains itself. -/
def listNode : Schema where
  declared := [("next",.reference "#/components/schemas/Node" none),
    ("value",.inline { types := some (.one .string) })]
  required := ["value"]

def listComponents : Components := { schemas := .ofList [("Node",.inline listNode)] }

end Body
end ActionCatalog
