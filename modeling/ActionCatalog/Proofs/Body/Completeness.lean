import ActionCatalog.Proofs.Body.First
import ActionCatalog.Proofs.Body.Tracking

/-! The search for a property is complete although it goes through no component twice, if it ends. Main statement: where
every branch and every declaration of the name leads to a schema, the search has no result exactly if it runs in a
circle, and else finds something exactly if some schema declares the name that can be reached through branches. -/
namespace ActionCatalog.Body
open Relation

variable {c : Components} {name : String}

/-- A declaration of the name that a schema has, itself or in what it is composed of, however far. -/
def Offers (c : Components) (name : String) (s : Schema) (node : RefOr Schema) : Prop :=
  ∃ t, ReflTransGen (Composes c) s t ∧ t.properties.get? name = some node

lemma Offers.of_composes {s t : Schema} {node : RefOr Schema} (h : Offers c name t node) (step : Composes c s t) :
    Offers c name s node := by
  obtain ⟨u,steps,declared⟩ := h
  exact ⟨u,.head step steps,declared⟩

/-- Where no component is passed yet, to declare a name is to reach a declaration of it. -/
lemma declares_nil_iff {s : Schema} : Declares c name [] s ↔ ∃ node, Offers c name s node := by
  constructor
  · intro h
    induction h with
    | own declared => exact ⟨_,_,.refl,declared⟩
    | branch composed _ leads _ ih =>
      obtain ⟨node,offers⟩ := ih
      exact ⟨node,offers.of_composes ⟨_,composed,leads⟩⟩
  · rintro ⟨node,t,steps,declared⟩
    induction steps using ReflTransGen.head_induction_on with
    | refl => exact .own declared
    | head step _ ih =>
      obtain ⟨branch,composed,leads⟩ := step
      exact .branch composed (by simp) leads ih

lemma First.exists_offers {past : List String} {s p : Schema} (h : First c name past s p) :
    ∃ node, Offers c name s node ∧ c.schema node = .ok p := by
  induction h with
  | own declared leads => exact ⟨_,⟨_,.refl,declared⟩,leads⟩
  | branch _ split _ _ leads _ ih =>
    obtain ⟨node,offers,hp⟩ := ih
    exact ⟨node,offers.of_composes ⟨_,by simp [split],leads⟩,hp⟩

/-- A branch that refers to a component with something before the number sign. -/
def Outward (c : Components) (s t : Schema) : Prop :=
  ∃ target note p, .reference target note ∈ s.branches ∧ Pointer.print p = target.toList ∧ '#' ∉ p.file ∧ p.file ≠ [] ∧
    c.schema (.reference target note) = .ok t

lemma ComposesUnnamed.composes {s t : Schema} (h : ComposesUnnamed c s t) : Composes c s t := by
  obtain ⟨node,hb,-,ht⟩ := h
  exact ⟨node,hb,ht⟩

lemma ComposesUnnamed.depth_lt_or_outward {s t : Schema} (h : ComposesUnnamed c s t) :
    t.depth < s.depth ∨ Outward c s t := by
  obtain ⟨node,hb,hn,ht⟩ := h
  cases node with
  | inline u =>
    cases ht
    exact .inl (Schema.depth_lt_of_mem_nodes (Schema.mem_nodes.mpr (.inl hb)))
  | reference target note =>
    obtain ⟨p,hprint,hfile,-,hlocal⟩ := Components.exists_pointer ht
    refine .inr ⟨target,note,p,hb,hprint,hfile,fun hnil => ?_,ht⟩
    rw [if_pos hnil] at hlocal
    rw [RefOr.names_eq_singleton.mpr hlocal] at hn
    cases hn

/-- Branches that are followed under no name go down in place, or one of them refers outward. -/
lemma depth_lt_or_exists_outward {s t : Schema} (steps : TransGen (ComposesUnnamed c) s t) :
    t.depth < s.depth ∨ ∃ u v, ReflTransGen (ComposesUnnamed c) s u ∧ Outward c u v ∧
      ReflTransGen (ComposesUnnamed c) v t := by
  induction steps with
  | single step =>
    rcases step.depth_lt_or_outward with hless | hout
    · exact .inl hless
    · exact .inr ⟨_,_,.refl,hout,.refl⟩
  | tail before step ih =>
    rcases ih with hless | ⟨u,v,hu,hout,hv⟩
    · rcases step.depth_lt_or_outward with hless' | hout
      · exact .inl (by omega)
      · exact .inr ⟨_,_,before.to_reflTransGen,hout,.refl⟩
    · exact .inr ⟨u,v,hu,hout,hv.tail step⟩

lemma composes_of_passes {x y : List String × Schema} (steps : ReflTransGen (Passes c name) x y) :
    ReflTransGen (Composes c) x.2 y.2 :=
  steps.lift Prod.snd fun _ _ ⟨_,_,node,_,hsplit,_,_,hleads,_⟩ => ⟨node,by simp [hsplit],hleads⟩

/-- Only a reference outward lets a search run in a circle. -/
lemma Circles.exists_outward {past : List String} {s : Schema} (h : Circles c name (past,s)) :
    ∃ t u, ReflTransGen (Composes c) s t ∧ Outward c t u ∧ ReflTransGen (ComposesUnnamed c) u t := by
  obtain ⟨y,steps,circle⟩ := h
  -- A circle does not go down all the way, so a step of it refers outward.
  rcases depth_lt_or_exists_outward (unnamed_of_passes circle (Nat.le_refl _)) with hless | ⟨u,v,hu,hout,hv⟩
  · omega
  · have hreach : ReflTransGen (Composes c) y.2 u := ReflTransGen.mono (fun _ _ => ComposesUnnamed.composes) y.2 u hu
    exact ⟨u,v,(composes_of_passes steps).trans hreach,hout,hv.trans hu⟩

/-- In what a body leads to no search runs in a circle once the body was expanded. -/
lemma Sound.not_circles {past : List String} {s : Schema} (h : Sound c s) : ¬Circles c name (past,s) := by
  rintro ⟨y,steps,circle⟩
  have hcircle := unnamed_of_passes circle (Nat.le_refl _)
  exact h.acyclic y.2 (leads_of_composes (composes_of_passes steps))
    (TransGen.mono (fun _ _ => ComposesUnnamed.unnamed) y.2 y.2 hcircle)

/-- A search that runs in no circle comes to a result within the allowance. -/
theorem exists_searchTo_of_not_circles {m fuel : Nat} {past seen trail : List String} {s : Schema}
    (clear : Clear c name s) (ends : ¬Circles c name (past,s)) (hpast : past ⊆ seen) (spent : Spent c name past seen)
    (shallow : Shallow c m) (hseen : seen.Nodup) (hkeys : seen ⊆ c.schemas.keys)
    (trace : Trail c (fun t u => Passes c name (past,t) (past,u)) s trail)
    (hfuel : allowance c m seen.length trail s ≤ fuel) :
    ∃ r, searchTo c name fuel seen s = .ok r ∧
      (r.found = none → r.seen.Nodup ∧ r.seen ⊆ c.schemas.keys ∧ seen.length ≤ r.seen.length) := by
  induction fuel generalizing past seen trail s with
  | zero =>
    have := allowance_pos (c := c) m seen.length trail s
    omega
  | succ fuel ih =>
    simp only [searchTo]
    split
    · rename_i node hd
      obtain ⟨t,ht⟩ := clear.declared s .refl node hd
      exact ⟨⟨some t,seen⟩,by simp [tryResolve_of_ok ht,bind,Except.bind],fun hn => by cases hn⟩
    · rename_i hd
      suffices hfound : ∃ r, firstFound (visit c name (searchTo c name fuel)) seen s.branches = .ok r ∧
          (r.found = none → (past ⊆ r.seen ∧ Spent c name past r.seen) ∧
            r.seen.Nodup ∧ r.seen ⊆ c.schemas.keys ∧ seen.length ≤ r.seen.length) by
        obtain ⟨r,hr,hkeeps⟩ := hfound
        exact ⟨r,hr,fun hnone => (hkeeps hnone).2⟩
      refine exists_firstFound (V := Barren c name past) (P := fun now => (past ⊆ now ∧ Spent c name past now) ∧
        now.Nodup ∧ now ⊆ c.schemas.keys ∧ seen.length ≤ now.length) ?_
        ⟨⟨hpast,spent⟩,hseen,hkeys,Nat.le_refl _⟩
      rintro before node after hsplit hbarren now ⟨⟨hnow,hspent⟩,hnodup,hsub,hlen⟩
      have hb : node ∈ s.branches := by simp [hsplit]
      obtain ⟨t,ht⟩ := clear.branches s .refl node hb
      have clear' : Clear c name t := clear.composes ⟨node,hb,ht⟩
      have hpast' : node.names ++ past ⊆ node.names ++ now :=
        List.append_subset.mpr ⟨List.subset_append_left _ _,List.subset_append_of_subset_right _ hnow⟩
      have hvain : ∀ r, visit c name (searchTo c name fuel) now node = .ok r → r.found = none →
          Barren c name past node ∧ past ⊆ r.seen ∧ Spent c name past r.seen := by
        intro r hr hnone
        obtain ⟨-,hidle⟩ := of_visit ht hnow hspent
          (fun r hr => tells_of_searchTo clear' hr hpast' (hspent.enter node)) hr
        exact ⟨(hidle hnone).1.barren,(hidle hnone).2⟩
      rcases visit_cases ht with ⟨ref,-,-,hvisit⟩ | ⟨hfresh,hvisit⟩
      · exact ⟨_,hvisit,fun hnone => ⟨(hvain _ hvisit hnone).1,(hvain _ hvisit hnone).2,hnodup,hsub,hlen⟩⟩
      · have step : Passes c name (past,s) (node.names ++ past,t) :=
          ⟨hd,before,node,after,hsplit,hbarren,fun ref hr hin => hfresh ref hr (hnow hin),ht,rfl⟩
        have ends' : ¬Circles c name (node.names ++ past,t) := fun h => ends (h.of_passes step)
        have hstep (hnames : node.names = []) : Passes c name (past,s) (past,t) ∧
            ¬TransGen (fun t u => Passes c name (past,t) (past,u)) t t := by
          rw [hnames,List.nil_append] at step ends'
          exact ⟨step,fun circle => ends' ⟨_,.refl,circle.lift (fun u => (past,u)) fun _ _ h => h⟩⟩
        obtain ⟨trail',trace',hnodup',hsub',hfuel'⟩ := Trail.exists_visit
          (fun past t u => Passes c name (past,t) (past,u)) past trace shallow hnodup hsub hlen hb hfresh ht hstep hfuel
        obtain ⟨r,hr,hkeeps⟩ := ih clear' ends' hpast' (hspent.enter node) hnodup' hsub' trace' hfuel'
        have hdone := hvisit.trans hr
        refine ⟨r,hdone,fun hnone => ?_⟩
        obtain ⟨hr1,hr2,hr3⟩ := hkeeps hnone
        rw [List.length_append] at hr3
        exact ⟨(hvain r hdone hnone).1,(hvain r hdone hnone).2,hr1,hr2,by omega⟩

lemma firstFound_failsOnly {p : Failure → Prop} {f : List String → RefOr Schema → Except Failure Search}
    {nodes : List (RefOr Schema)} (hf : ∀ node ∈ nodes, ∀ seen, Except.FailsOnly p (f seen node)) (seen : List String) :
    Except.FailsOnly p (firstFound f seen nodes) := by
  induction nodes generalizing seen with
  | nil => exact .ok _
  | cons node rest ih =>
    refine .bind (hf node List.mem_cons_self seen) fun r => ?_
    cases r.found with
    | some p => exact .ok _
    | none => exact ih (fun node hn => hf node (List.mem_cons_of_mem _ hn)) r.seen

/-- Where all branches and declarations lead to schemas, a search fails only for going on without end. -/
lemma Clear.searchTo_failsOnly {s : Schema} (clear : Clear c name s) (n : Nat) (seen : List String) :
    Except.FailsOnly (· = .endless (place name)) (searchTo c name n seen s) := by
  induction n generalizing seen s with
  | zero => exact .error rfl
  | succ n ih =>
    simp only [searchTo]
    split
    · rename_i node hd
      obtain ⟨t,ht⟩ := clear.declared s .refl node hd
      rw [tryResolve_of_ok ht]
      exact .ok _
    · refine firstFound_failsOnly (fun node hb seen => ?_) seen
      obtain ⟨t,ht⟩ := clear.branches s .refl node hb
      rcases visit_cases ht with ⟨ref,-,-,hvisit⟩ | ⟨-,hvisit⟩
      · rw [hvisit]
        exact .ok _
      · rw [hvisit]
        exact ih (clear.composes ⟨node,hb,ht⟩) _

/-- Where all branches and declarations lead to schemas, a search comes to a result unless it runs in a circle. -/
lemma Clear.exists_property? {s : Schema} (clear : Clear c name s) (ends : ¬Circles c name ([],s)) :
    ∃ found, property? c s name = .ok found := by
  obtain ⟨r,hr,-⟩ := exists_searchTo_of_not_circles clear ends (List.Subset.refl []) (.nil c name [])
    (shallow_maxDepth c s) List.nodup_nil (by simp) (Trail.nil c _ s) (allowance_le_budget c s)
  exact ⟨r.found,by simp [property?,hr,bind,Except.bind]⟩

/-- A search that runs in a circle comes to no result, however far it may go. -/
lemma Clear.searchTo_ne_ok {s : Schema} (clear : Clear c name s) (circles : Circles c name ([],s)) (n : Nat)
    (r : Search) : searchTo c name n [] s ≠ .ok r :=
  fun h => (tells_of_searchTo clear h (List.Subset.refl []) (.nil c name [])).ends circles

/-- The search has no result exactly if it runs in a circle. -/
theorem Clear.property?_eq_endless_iff {s : Schema} (clear : Clear c name s) :
    property? c s name = .error (.endless (place name)) ↔ Circles c name ([],s) := by
  constructor
  · intro h
    refine Classical.byContradiction fun hcircles => ?_
    obtain ⟨found,hfound⟩ := clear.exists_property? hcircles
    rw [h] at hfound
    cases hfound
  · intro circles
    cases hsearch : searchTo c name (budget c s) [] s with
    | ok r => exact absurd hsearch (clear.searchTo_ne_ok circles _ r)
    | error f =>
      obtain rfl := clear.searchTo_failsOnly (budget c s) [] f hsearch
      rw [property?,hsearch]
      rfl

/-- What the search finds where the schema declares the name itself, or only what it is composed of does. -/
structure Finds (c : Components) (name : String) (s p : Schema) : Prop where
  own : ∀ node, s.properties.get? name = some node → c.schema node = .ok p
  composed : s.properties.get? name = none → ∃ before branch after t node,
    s.branches = before ++ branch :: after ∧
    (∀ b ∈ before, ∀ u other, c.schema b = .ok u → ¬Offers c name u other) ∧
    c.schema branch = .ok t ∧ Offers c name t node ∧ c.schema node = .ok p

lemma First.finds {s p : Schema} (h : First c name [] s p) : Finds c name s p := by
  cases h with
  | own declared leads =>
    constructor
    · intro node hnode
      rw [declared] at hnode
      cases hnode
      exact leads
    · intro hnone
      rw [declared] at hnone
      cases hnone
  | branch undeclared split barren _ leads inner =>
    constructor
    · intro node hnode
      rw [undeclared] at hnode
      cases hnode
    · intro _
      obtain ⟨node,offers,hp⟩ := inner.exists_offers
      refine ⟨_,_,_,_,node,split,?_,leads,offers,hp⟩
      intro b hb u other hu hoffers
      exact barren b hb u (by simp) hu (declares_nil_iff.mpr ⟨other,hoffers⟩)

/-- Where all branches that can be reached and all declarations of the name in what can be reached lead to schemas, the
search has no result exactly if it runs in a circle, as only a reference outward lets it; then it has none however far
it may go. Otherwise it finds a property exactly if one is declared in what can be reached: its own, or else one behind
the first branch that has any behind it. In what a body leads to no search runs in a circle once the body was
expanded. -/
theorem search_complete_iff (c : Components) (s : Schema) (name : String)
    (branches : ∀ t, ReflTransGen (Composes c) s t → ∀ node ∈ t.branches, ∃ u, c.schema node = .ok u)
    (declared : ∀ t, ReflTransGen (Composes c) s t → ∀ node, t.properties.get? name = some node →
      ∃ u, c.schema node = .ok u) :
    (property? c s name = .error (.endless (place name)) ↔ Circles c name ([],s)) ∧
    (Circles c name ([],s) → (∀ n r, searchTo c name n [] s ≠ .ok r) ∧
      ∃ t u, ReflTransGen (Composes c) s t ∧ Outward c t u ∧ ReflTransGen (ComposesUnnamed c) u t) ∧
    (¬Circles c name ([],s) → ∃ found, property? c s name = .ok found ∧
      (found.isSome ↔ ∃ t, ReflTransGen (Composes c) s t ∧ t.properties.contains name) ∧
      ∀ p, found = some p → Finds c name s p) ∧
    ∀ body required e, expand c body required = .ok e → ReflTransGen (Leads c) body s → ¬Circles c name ([],s) := by
  have clear : Clear c name s := ⟨branches,declared⟩
  refine ⟨clear.property?_eq_endless_iff,fun circles => ⟨clear.searchTo_ne_ok circles,circles.exists_outward⟩,
    fun hcircles => ?_,fun body required e he steps => ((sound_of_expand he).trans steps).not_circles⟩
  obtain ⟨found,h⟩ := clear.exists_property? hcircles
  obtain ⟨hfirst,hsome⟩ := clear.of_property? h
  refine ⟨found,h,?_,fun p hp => ((hfirst p).mp hp).finds⟩
  rw [hsome,declares_nil_iff]
  simp only [Offers,Dict.contains,Option.isSome_iff_exists]
  constructor
  · rintro ⟨node,t,steps,hd⟩
    exact ⟨t,steps,node,hd⟩
  · rintro ⟨t,steps,node,hd⟩
    exact ⟨node,t,steps,hd⟩

/-- A part in place that declares a name. -/
def idPart : Schema where
  declared := [("id",.inline { types := some (.one .string) })]

/-- Two components that are composed of each other, the second also of a part in place. -/
def loopNode : Schema where
  allOf := [.reference "#/components/schemas/Base" none]

def loopBase : Schema where
  allOf := [.reference "#/components/schemas/Node" none,.inline idPart]

def loopComponents : Components where
  schemas := .ofList [("Node",.inline loopNode),("Base",.inline loopBase)]

/-- A component that is composed of itself, by a reference outward, and of a part in place. -/
def circleNode : Schema where
  allOf := [.reference outwardTarget none,.inline idPart]

def circleComponents : Components where
  schemas := .ofList [("Node",.inline circleNode)]

/-- All branches of the members of a list lead to members. -/
def Closed (c : Components) (l : List Schema) : Prop :=
  ∀ t ∈ l, ∀ node ∈ t.branches, ∃ u ∈ l, c.schema node = .ok u

lemma Closed.mem {l : List Schema} (hclosed : Closed c l) {s t : Schema} (hs : s ∈ l)
    (steps : ReflTransGen (Composes c) s t) : t ∈ l := by
  induction steps with
  | refl => exact hs
  | tail _ step ih =>
    obtain ⟨node,hb,ht⟩ := step
    obtain ⟨u,hu,hnode⟩ := hclosed _ ih node hb
    rw [ht] at hnode
    cases hnode
    exact hu

lemma Closed.branches {l : List Schema} (hclosed : Closed c l) {s : Schema} (hs : s ∈ l) : ∀ t,
    ReflTransGen (Composes c) s t → ∀ node ∈ t.branches, ∃ u, c.schema node = .ok u := by
  intro t steps node hb
  obtain ⟨u,-,hu⟩ := hclosed t (hclosed.mem hs steps) node hb
  exact ⟨u,hu⟩

/-- What is declared in place leads to a schema. -/
lemma Closed.declared {l : List Schema} (hclosed : Closed c l) {s : Schema} (hs : s ∈ l)
    (hinline : ∀ t ∈ l, ∀ e ∈ t.declared, e.2.isReference = false) (name : String) : ∀ t,
    ReflTransGen (Composes c) s t → ∀ node, t.properties.get? name = some node → ∃ u, c.schema node = .ok u := by
  intro t steps node hd
  have hm : (name,node) ∈ t.declared := Dict.mem_of_get?_ofList hd
  cases node with
  | inline u => exact ⟨u,rfl⟩
  | reference target note => cases hinline t (hclosed.mem hs steps) _ hm

lemma closed_loopComponents : Closed loopComponents [loopNode,loopBase,idPart] := by
  have hnode : ∀ node ∈ loopNode.branches, ∃ u ∈ [loopNode,loopBase,idPart], loopComponents.schema node = .ok u :=
    List.forall_mem_singleton.mpr ⟨loopBase,by simp,by rfl⟩
  have hbase : ∀ node ∈ loopBase.branches, ∃ u ∈ [loopNode,loopBase,idPart], loopComponents.schema node = .ok u :=
    List.forall_mem_cons.mpr ⟨⟨loopNode,by simp,by rfl⟩,List.forall_mem_singleton.mpr ⟨idPart,by simp,by rfl⟩⟩
  simpa only [Closed,List.forall_mem_cons] using ⟨hnode,hbase,nofun,nofun⟩

lemma closed_circleComponents : Closed circleComponents [circleNode,idPart] := by
  have hnode : ∀ node ∈ circleNode.branches, ∃ u ∈ [circleNode,idPart], circleComponents.schema node = .ok u :=
    List.forall_mem_cons.mpr ⟨⟨circleNode,by simp,by rfl⟩,List.forall_mem_singleton.mpr ⟨idPart,by simp,by rfl⟩⟩
  simpa only [Closed,List.forall_mem_cons] using ⟨hnode,nofun,nofun⟩

/-- Of two components, each inside the other, the search finds what the part declares and nothing else. Of the component
inside itself by a reference outward it finds nothing, although the part declares the name: it never comes to it. -/
theorem search_complete_iff_loop :
    (∃ p, property? loopComponents loopNode "id" = .ok (some p) ∧ Finds loopComponents "id" loopNode p) ∧
    property? loopComponents loopNode "size" = .ok none ∧
    property? circleComponents circleNode "id" = .error (.endless (place "id")) ∧
    (∀ n r, searchTo circleComponents "id" n [] circleNode ≠ .ok r) ∧
    ∃ t, ReflTransGen (Composes circleComponents) circleNode t ∧ t.properties.contains "id" := by
  have hloop (name : String) := search_complete_iff loopComponents loopNode name
    (closed_loopComponents.branches (by simp)) (closed_loopComponents.declared (by simp) (by decide) name)
  have hends (name : String) : ¬Circles loopComponents name ([],loopNode) := by
    obtain ⟨e,he⟩ : ∃ e, expand loopComponents loopNode true = .ok e := ⟨_,by rfl⟩
    exact (hloop name).2.2.2 loopNode true e he .refl
  obtain ⟨hcircle,hnever,-,-⟩ := search_complete_iff circleComponents circleNode "id"
    (closed_circleComponents.branches (by simp)) (closed_circleComponents.declared (by simp) (by decide) "id")
  have step : Passes circleComponents "id" ([],circleNode) ([],circleNode) :=
    ⟨by rfl,[],.reference outwardTarget none,[.inline idPart],by rfl,by simp,by decide +kernel,by rfl,by decide +kernel⟩
  have circles : Circles circleComponents "id" ([],circleNode) := ⟨_,.refl,.single step⟩
  have hpart : Composes circleComponents circleNode idPart :=
    ⟨.inline idPart,by simp [circleNode,Schema.branches],rfl⟩
  refine ⟨?_,?_,hcircle.mpr circles,(hnever circles).1,idPart,.single hpart,by decide⟩
  · obtain ⟨found,h,hfound,hfinds⟩ := (hloop "id").2.2.1 (hends "id")
    have hpart : ReflTransGen (Composes loopComponents) loopNode idPart :=
      .tail (.single ⟨_,List.mem_singleton_self _,by rfl⟩) ⟨.inline idPart,by simp [loopBase,Schema.branches],rfl⟩
    obtain ⟨p,rfl⟩ := Option.isSome_iff_exists.mp (hfound.mpr ⟨idPart,hpart,by decide⟩)
    exact ⟨p,h,hfinds p rfl⟩
  · obtain ⟨found,h,hfound,-⟩ := (hloop "size").2.2.1 (hends "size")
    have hnone : ¬found.isSome := by
      rw [hfound]
      rintro ⟨t,steps,hcontains⟩
      have ht := closed_loopComponents.mem (by simp) steps
      simp only [List.mem_cons,List.not_mem_nil,or_false] at ht
      rcases ht with rfl | rfl | rfl <;> exact absurd hcontains (by decide)
    rw [h,Option.not_isSome_iff_eq_none.mp hnone]

end ActionCatalog.Body
