import ActionCatalog.Proofs.Body.Allowance

/-! What an expansion cuts. Main statement: the chains that are cut are those on which a name is met again for the
first time, and where none is, the fields are those of a recursion that looks at no names. -/
namespace ActionCatalog.Body
open Relation

variable {c : Components} {n : Nat} {e : Expansion}

/-- A node is met under a name, on a chain that was followed under the names `past` up to the schema it stands in. -/
def Meets (c : Components) (start : Spot) (past : List String) (name : String) : Prop :=
  ∃ p node, ReflTransGen (Step c) start p ∧ p.names = past ∧ node ∈ p.schema.nodes ∧ node.names = [name]

/-- A node of a spot is met under a name that the chain was followed under before. -/
def Returns (p : Spot) (chain : List String) : Prop :=
  ∃ node ∈ p.schema.nodes, ∃ name ∈ p.names, node.names = [name] ∧ chain = p.names ++ [name]

lemma Step.exists_node {p q : Spot} (h : Step c p q) :
    ∃ node ∈ p.schema.nodes, c.schema node = .ok q.schema ∧ q.names = p.names ++ node.names := by
  cases h with
  | branch composed leads => exact ⟨_,Schema.mem_nodes.mpr (.inl composed),leads,rfl⟩
  | property declared leads => exact ⟨_,Schema.mem_nodes.mpr (.inr ⟨_,declared⟩),leads,rfl⟩

/-- The names of a chain are those of components. -/
lemma names_subset_keys {p q : Spot} (h : ReflTransGen (Step c) p q) (hp : p.names ⊆ c.schemas.keys) :
    q.names ⊆ c.schemas.keys := by
  induction h with
  | refl => exact hp
  | tail _ step ih =>
    obtain ⟨node,-,hleads,hnames⟩ := step.exists_node
    rw [hnames]
    exact List.append_subset.mpr ⟨ih,Components.names_subset_keys hleads⟩

section Cutting
variable {p : Spot} {chain : List String}

/-- An expansion cuts where a name is met again. -/
lemma mem_cuts_of_returns (h : expandAt c (n+1) p = .ok e) (hchain : Returns p chain) : chain ∈ e.cuts := by
  obtain ⟨composed,own,hc,ho,rfl⟩ := expandTo_succ_eq_ok_iff.mp h
  obtain ⟨node,hnode,name,hm,hname,rfl⟩ := hchain
  rcases Schema.mem_nodes.mp hnode with hb | ⟨key,hd⟩
  · have hcut : enter c p.names p.path node (fun s stack => expandTo c n stack s p.path p.required) =
        .ok { cuts := [p.names ++ [name]] } := enter_eq_ok_iff.mpr (.inl ⟨name,hname,hm,rfl⟩)
    exact List.mem_append_left _ ((Expansion.mem_cuts_gather hc _).mpr ⟨node,hb,_,hcut,List.mem_cons_self⟩)
  · have hcut : atProperty c (expandTo c n) p.names p.schema p.path p.required (key,node) =
        .ok { cuts := [p.names ++ [name]] } := atProperty_eq_ok_iff.mpr (.inl ⟨name,hname,hm,rfl⟩)
    have hmem := (Dict.mem_entries_iff _ _ _).mpr hd
    exact List.mem_append_right _ ((Expansion.mem_cuts_gather ho _).mpr ⟨_,hmem,_,hcut,List.mem_cons_self⟩)

/-- Every chain that is cut is cut one step further, or returns here. -/
lemma of_mem_cuts (h : expandAt c (n+1) p = .ok e) (hp : p.names.Nodup) (hchain : chain ∈ e.cuts) :
    (∃ q inner, Step c p q ∧ q.names.Nodup ∧ expandAt c n q = .ok inner ∧ chain ∈ inner.cuts) ∨ Returns p chain := by
  obtain ⟨composed,own,hc,ho,rfl⟩ := expandTo_succ_eq_ok_iff.mp h
  rcases List.mem_append.mp hchain with hchain | hchain
  · obtain ⟨node,hb,inner,hi,hchain⟩ := (Expansion.mem_cuts_gather hc chain).mp hchain
    rcases enter_eq_ok_iff.mp hi with ⟨name,hname,hm,rfl⟩ | ⟨hm,s,hs,he⟩
    · exact .inr ⟨node,Schema.mem_nodes.mpr (.inl hb),name,hm,hname,List.mem_singleton.mp hchain⟩
    · exact .inl ⟨_,inner,.branch hb hs,(RefOr.nodup_append_names hp).mpr hm,he,hchain⟩
  · obtain ⟨⟨key,node⟩,hd,outer,hi,hchain⟩ := (Expansion.mem_cuts_gather ho chain).mp hchain
    have hd := (Dict.mem_entries_iff _ _ _).mp hd
    rcases atProperty_eq_ok_iff.mp hi with ⟨name,hname,hm,rfl⟩ | ⟨hm,s,inner,hs,hin,rfl⟩
    · exact .inr ⟨node,Schema.mem_nodes.mpr (.inr ⟨key,hd⟩),name,hm,hname,List.mem_singleton.mp hchain⟩
    · refine .inl ⟨_,inner,.property hd hs,(RefOr.nodup_append_names hp).mpr hm,hin,?_⟩
      split at hchain
      · exact hchain
      · simpa using hchain

/-- The chains that an expansion cuts are those that return for the first time. -/
theorem mem_cuts_expandAt_iff (h : expandAt c n p = .ok e) (hp : p.names.Nodup) :
    chain ∈ e.cuts ↔ ∃ q, ReflTransGen (Step c) p q ∧ q.names.Nodup ∧ Returns q chain := by
  induction n generalizing p e with
  | zero => cases h
  | succ n ih =>
    constructor
    · intro hchain
      rcases of_mem_cuts h hp hchain with ⟨q,inner,step,hq,hi,hchain⟩ | hreturns
      · obtain ⟨r,rest,hr,hreturns⟩ := (ih hi hq).mp hchain
        exact ⟨r,.head step rest,hr,hreturns⟩
      · exact ⟨p,.refl,hp,hreturns⟩
    · rintro ⟨r,steps,hr,hreturns⟩
      rcases ReflTransGen.cases_head steps with rfl | ⟨q,step,rest⟩
      · exact mem_cuts_of_returns h hreturns
      · -- Names that are distinct at the end of the chain are so on the way, where nothing stops the expansion.
        have hq : q.names.Nodup := (names_isPrefixOf rest).sublist.nodup hr
        obtain ⟨inner,hi,-,hsub⟩ := exists_expandAt_of_step h hp step hq
        exact hsub ((ih hi hq).mpr ⟨r,rest,hr,hreturns⟩)

/-- Where nothing is cut, no chain is followed under a name twice. -/
lemma nodup_of_cuts_eq_nil (h : expandAt c n p = .ok e) (hp : p.names.Nodup) (hcuts : e.cuts = []) {q : Spot}
    (steps : ReflTransGen (Step c) p q) : q.names.Nodup := by
  induction steps with
  | refl => exact hp
  | @tail q r before step ih =>
    obtain ⟨node,hnode,-,hnames⟩ := step.exists_node
    rw [hnames,RefOr.nodup_append_names ih]
    intro name hname hm
    have hchain := (mem_cuts_expandAt_iff h hp).mpr
      ⟨q,before,ih,node,hnode,name,hm,RefOr.names_eq_of_mem hname,rfl⟩
    rw [hcuts] at hchain
    cases hchain

end Cutting

/-- The fields of a schema at a path, whatever the names are that its nodes are followed under. -/
def expandFreely (c : Components) : Nat → Schema → String → Bool → Except Failure (List (String × Input))
  | 0, _, path, _ => .error (.endless (place path))
  | n+1, s, path, required => do
    let composed ← s.branches.mapM fun node => do
      let branch ← node.blame (place path) (c.schema node)
      expandFreely c n branch path required
    let own ← s.properties.entries.mapM fun (name,node) => do
      let path := join path name
      let required := required && s.requires name
      let property ← node.blame (place path) (c.schema node)
      let inner ← expandFreely c n property path required
      return if property.hasProperties then inner
        else inner ++ [(path,.ofSchema property required (describe property node))]
    return composed.flatten ++ own.flatten

/-- Where nothing is cut, what is gathered is what is made of each member, one after another. -/
lemma bind_mapM_of_gather {α β : Type} {f : α → Except Failure Expansion}
    {g : α → Except Failure (List (String × Input))} {xs : List α} (h : Expansion.gather f xs = .ok e)
    (hcuts : e.cuts = []) (hfg : ∀ x ∈ xs, ∀ a, f x = .ok a → a.cuts = [] → g x = .ok a.fields)
    {k : List (List (String × Input)) → Except Failure β} {r : β}
    (hk : ∀ parts, parts.flatten = e.fields → k parts = .ok r) : (xs.mapM g >>= k) = .ok r := by
  induction xs generalizing e k with
  | nil =>
    cases h
    exact hk [] rfl
  | cons x xs ih =>
    obtain ⟨a,b,ha,hb,rfl⟩ := Expansion.gather_cons_eq_ok_iff.mp h
    obtain ⟨hacuts,hbcuts⟩ := List.append_eq_nil_iff.mp hcuts
    rw [Except.mapM_cons_ok (hfg x List.mem_cons_self a ha hacuts),bind_map_left]
    refine ih hb hbcuts (fun y hy => hfg y (.tail _ hy)) fun parts hparts => hk _ ?_
    rw [List.flatten_cons,hparts]
    rfl

/-- An expansion that cuts nothing has the fields of the recursion that looks at no names. -/
theorem expandFreely_of_expandTo {stack : List String} {s : Schema} {path : String} {required : Bool}
    (h : expandTo c n stack s path required = .ok e) (hcuts : e.cuts = []) :
    expandFreely c n s path required = .ok e.fields := by
  induction n generalizing stack s path required e with
  | zero => cases h
  | succ n ih =>
    obtain ⟨composed,own,hc,ho,rfl⟩ := expandTo_succ_eq_ok_iff.mp h
    obtain ⟨hccuts,hocuts⟩ := List.append_eq_nil_iff.mp hcuts
    rw [expandFreely]
    refine bind_mapM_of_gather hc hccuts ?_ fun branches hbranches =>
      bind_mapM_of_gather ho hocuts ?_ fun properties hproperties => ?_
    · intro node _ a ha hacuts
      rcases enter_eq_ok_iff.mp ha with ⟨_,_,_,rfl⟩ | ⟨-,t,ht,he⟩
      · cases hacuts
      · exact Except.bind_eq_ok_iff.mpr ⟨t,RefOr.blame_eq_ok_iff.mpr ht,ih he hacuts⟩
    · rintro ⟨name,node⟩ _ a ha hacuts
      rcases atProperty_eq_ok_iff.mp ha with ⟨_,_,_,rfl⟩ | ⟨-,t,inner,ht,hi,rfl⟩
      · cases hacuts
      · have hinner : inner.cuts = [] := by
          split at hacuts <;> simpa using hacuts
        refine Except.bind_eq_ok_iff.mpr ⟨t,RefOr.blame_eq_ok_iff.mpr ht,?_⟩
        refine Except.bind_eq_ok_iff.mpr ⟨inner.fields,ih hi hinner,?_⟩
        split <;> rfl
    · rw [hbranches,hproperties]
      rfl

/-- The chains that are cut are those of components that were met one inside another from the body on, each once, and
then one of them again. So nothing is cut exactly if no component is met again inside itself, and then the fields are
those of the recursion that looks at no names. -/
theorem cuts_exactly (c : Components) (s : Schema) (required : Bool) (e : Expansion)
    (h : expand c s required = .ok e) :
    (∀ chain, chain ∈ e.cuts ↔ ∃ past name, chain = past ++ [name] ∧ past.Nodup ∧ name ∈ past ∧
      past ⊆ c.schemas.keys ∧ Meets c (.root s required) past name) ∧
    (e.cuts = [] ↔ ∀ past name, Meets c (.root s required) past name → (past ++ [name]).Nodup) ∧
    (e.cuts = [] → ∀ n, budget c s ≤ n → expandFreely c n s "" required = .ok e.fields) := by
  have hroot : expandAt c (budget c s) (.root s required) = .ok e := h
  have hcut : ∀ chain, chain ∈ e.cuts ↔ ∃ past name, chain = past ++ [name] ∧ past.Nodup ∧ name ∈ past ∧
      past ⊆ c.schemas.keys ∧ Meets c (.root s required) past name := by
    intro chain
    rw [mem_cuts_expandAt_iff hroot List.nodup_nil]
    constructor
    · rintro ⟨p,steps,hp,node,hnode,name,hm,hname,rfl⟩
      exact ⟨_,name,rfl,hp,hm,names_subset_keys steps (List.nil_subset _),p,node,steps,rfl,hnode,hname⟩
    · rintro ⟨_,name,rfl,hp,hm,-,p,node,steps,rfl,hnode,hname⟩
      exact ⟨p,steps,hp,node,hnode,name,hm,hname,rfl⟩
  refine ⟨hcut,⟨?_,?_⟩,?_⟩
  · rintro hnil _ name ⟨p,node,steps,rfl,hnode,hname⟩
    have hp : p.names.Nodup := nodup_of_cuts_eq_nil hroot List.nodup_nil hnil steps
    rw [← hname,RefOr.nodup_append_names hp,hname,List.forall_mem_singleton]
    intro hm
    have hchain := (mem_cuts_expandAt_iff hroot List.nodup_nil).mpr ⟨p,steps,hp,node,hnode,name,hm,hname,rfl⟩
    rw [hnil] at hchain
    cases hchain
  · intro hdistinct
    rw [List.eq_nil_iff_forall_not_mem]
    intro chain hchain
    obtain ⟨past,name,-,-,hm,-,hmeets⟩ := (hcut chain).mp hchain
    exact (List.nodup_append.mp (hdistinct past name hmeets)).2.2 name hm name List.mem_cons_self rfl
  · intro hnil n hn
    exact expandFreely_of_expandTo (expandTo_mono h hn) hnil

/-- A component that two properties share, and that has nothing of itself in it. -/
def sharedComponents : Components where
  schemas := .ofList [("Point",.inline { declared := [("x",.inline { types := some (.one .number) })] })]

def sharingBody : Schema where
  declared := [("from",.reference "#/components/schemas/Point" none),("to",.reference "#/components/schemas/Point" none)]

/-- A component that contains itself is cut inside itself; one that is only shared is not. -/
theorem cuts_exactly_shared :
    (∃ e, expand listComponents listNode true = .ok e ∧ Meets listComponents (.root listNode true) ["Node"] "Node") ∧
    ∃ e, expand sharedComponents sharingBody true = .ok e ∧ e.fields.map (·.1) = ["from__x","to__x"] ∧
      (∀ past name, Meets sharedComponents (.root sharingBody true) past name → (past ++ [name]).Nodup) ∧
      expandFreely sharedComponents (budget sharedComponents sharingBody) sharingBody "" true = .ok e.fields := by
  constructor
  · obtain ⟨e,he,hcuts⟩ : ∃ e, expand listComponents listNode true = .ok e ∧ e.cuts = [["Node","Node"]] :=
      ⟨_,by rfl,by rfl⟩
    have hcut := ((cuts_exactly _ _ _ e he).1 ["Node","Node"]).mp (by simp [hcuts])
    obtain ⟨past,name,heq,-,-,-,hmeets⟩ := hcut
    obtain ⟨rfl,rfl⟩ : ["Node"] = past ∧ "Node" = name := by
      have hsplit := List.append_inj' (show ["Node"] ++ ["Node"] = past ++ [name] from heq) rfl
      simpa using hsplit
    exact ⟨e,he,hmeets⟩
  · obtain ⟨e,he,hcuts,hfields⟩ : ∃ e, expand sharedComponents sharingBody true = .ok e ∧ e.cuts = [] ∧
        e.fields.map (·.1) = ["from__x","to__x"] := ⟨_,by rfl,by rfl,by rfl⟩
    obtain ⟨-,hdistinct,hfreely⟩ := cuts_exactly _ _ _ e he
    exact ⟨e,he,hfields,hdistinct.mp hcuts,hfreely hcuts _ (Nat.le_refl _)⟩

end ActionCatalog.Body
