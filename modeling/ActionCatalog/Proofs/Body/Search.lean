import ActionCatalog.Proofs.Body.Allowance

/-! The search for a property. Main statement: a search comes to a result wherever the branches it can pass and
the declarations it can meet can be looked into and it cannot run in a circle without a name, as in every sound
body. -/
namespace ActionCatalog.Body
open Relation

variable {c : Components} {name : String}

/-- A schema is composed of those that its branches lead to. -/
def Composes (c : Components) (s t : Schema) : Prop := ∃ node ∈ s.branches, c.schema node = .ok t

/-- A branch that is followed under no name. -/
def ComposesUnnamed (c : Components) (s t : Schema) : Prop :=
  ∃ node ∈ s.branches, node.names = [] ∧ c.schema node = .ok t

lemma Composes.leads {s t : Schema} (h : Composes c s t) : Leads c s t := by
  obtain ⟨node,hb,ht⟩ := h
  exact ⟨node,Schema.mem_nodes.mpr (.inl hb),ht⟩

lemma leads_of_composes {s t : Schema} (steps : ReflTransGen (Composes c) s t) : ReflTransGen (Leads c) s t :=
  ReflTransGen.mono (fun _ _ => Composes.leads) s t steps

lemma ComposesUnnamed.unnamed {s t : Schema} (h : ComposesUnnamed c s t) : Unnamed c s t := by
  obtain ⟨node,hb,hn,ht⟩ := h
  exact ⟨node,Schema.mem_nodes.mpr (.inl hb),hn,ht⟩

/-- What a search for a name can come by can be looked into, and it never runs in a circle without passing a
name. -/
structure Searchable (c : Components) (name : String) (s : Schema) : Prop where
  branches : ∀ t, ReflTransGen (Composes c) s t → ∀ node ∈ t.branches, Resolves c node
  declared : ∀ t, ReflTransGen (Composes c) s t → ∀ node, t.properties.get? name = some node → Resolves c node
  acyclic : ∀ t, ReflTransGen (Composes c) s t → ¬TransGen (ComposesUnnamed c) t t

lemma Searchable.composes {s t : Schema} (h : Searchable c name s) (step : Composes c s t) :
    Searchable c name t where
  branches := fun u hu => h.branches u (.head step hu)
  declared := fun u hu => h.declared u (.head step hu)
  acyclic := fun u hu => h.acyclic u (.head step hu)

lemma Sound.searchable {s : Schema} (h : Sound c s) (name : String) : Searchable c name s where
  branches := fun t steps node hb =>
    h.resolves t (leads_of_composes steps) node (Schema.mem_nodes.mpr (.inl hb))
  declared := fun t steps node hd =>
    h.resolves t (leads_of_composes steps) node (Schema.mem_nodes.mpr (.inr ⟨_,hd⟩))
  acyclic := fun t steps circle =>
    h.acyclic t (leads_of_composes steps) (TransGen.mono (fun _ _ => ComposesUnnamed.unnamed) t t circle)

section Visiting
variable {go : List String → Schema → Except Failure Search} {seen : List String} {node : RefOr Schema}

lemma tryResolve_of_ok {place : String} {t : Schema} (h : c.schema node = .ok t) :
    tryResolve c place node = .ok (some t) := by simp [tryResolve,h]

lemma tryResolve_of_otherKind {place : String} {found wanted : Kind}
    (h : c.schema node = .error (.otherKind found wanted)) : tryResolve c place node = .ok none := by
  simp [tryResolve,h]

lemma tryResolve_eq_some_iff {place : String} {t : Schema} :
    tryResolve c place node = .ok (some t) ↔ c.schema node = .ok t := by
  simp only [tryResolve]
  split <;> simp_all

lemma visit_of_mem {ref : String} (hn : node.names = [ref]) (hm : ref ∈ seen) :
    visit c name go seen node = .ok ⟨none,seen⟩ := by
  cases node with
  | inline _ => cases hn
  | reference target note => simp [visit,RefOr.names_eq_singleton.mp hn,hm]

/-- A node that was not gone through is gone on into under its name. -/
lemma visit_of_ok {t : Schema} (hfresh : ∀ ref ∈ node.names, ref ∉ seen) (h : c.schema node = .ok t) :
    visit c name go seen node = go (node.names ++ seen) t := by
  cases node with
  | inline u =>
    cases h
    simp [visit,tryResolve_of_ok,RefOr.resolve_inline,Components.schema,bind,Except.bind]
  | reference target note =>
    have hr := (tryResolve_of_ok h : tryResolve c (place name) _ = _)
    cases hl : Pointer.localName target with
    | named ref =>
      have hn : (RefOr.reference target note : RefOr Schema).names = [ref] := RefOr.names_eq_singleton.mpr hl
      have hm : ref ∉ seen := hfresh ref (by simp [hn])
      simp [visit,hl,hn,hm,hr,bind,Except.bind]
    | elsewhere =>
      have hn : (RefOr.reference target note : RefOr Schema).names = [] := by simp [RefOr.names,hl]
      simp [visit,hl,hn,hr,bind,Except.bind]
    | malformed =>
      rw [Components.schema_of_malformed hl] at h
      cases h

/-- A node that leads to a schema is passed over if its name is among those gone through, and else gone on into. -/
lemma visit_cases {t : Schema} (h : c.schema node = .ok t) :
    (∃ ref, node.names = [ref] ∧ ref ∈ seen ∧ visit c name go seen node = .ok ⟨none,seen⟩) ∨
      ((∀ ref ∈ node.names, ref ∉ seen) ∧ visit c name go seen node = go (node.names ++ seen) t) := by
  by_cases hm : ∃ ref, node.names = [ref] ∧ ref ∈ seen
  · obtain ⟨ref,hn,hm⟩ := hm
    exact .inl ⟨ref,hn,hm,visit_of_mem hn hm⟩
  · have hfresh : ∀ ref ∈ node.names, ref ∉ seen := fun ref hr hin => hm ⟨ref,RefOr.names_eq_of_mem hr,hin⟩
    exact .inr ⟨hfresh,visit_of_ok hfresh h⟩

/-- A component of another kind is marked, and nothing is found in it. -/
lemma visit_of_otherKind {ref : String} {found wanted : Kind} (hn : node.names = [ref]) (hm : ref ∉ seen)
    (h : c.schema node = .error (.otherKind found wanted)) :
    visit c name go seen node = .ok ⟨none,ref :: seen⟩ := by
  cases node with
  | inline _ => cases hn
  | reference target note =>
    simp [visit,RefOr.names_eq_singleton.mp hn,hm,tryResolve_of_otherKind h,bind,Except.bind]

/-- What a visit finds is found in the schema that the node leads to. -/
lemma visit_eq_ok {r : Search} (h : visit c name go seen node = .ok r) :
    r.found = none ∨ ∃ seen' t, c.schema node = .ok t ∧ go seen' t = .ok r := by
  have follow : ∀ (seen' : List String) (next : Option Schema → Except Failure Search),
      next none = .ok ⟨none,seen'⟩ → (∀ t, next (some t) = go seen' t) →
      (tryResolve c (place name) node >>= next) = .ok r →
      r.found = none ∨ ∃ seen' t, c.schema node = .ok t ∧ go seen' t = .ok r := by
    intro seen' next hnone hsome h
    obtain ⟨t,ht,h⟩ := Except.bind_eq_ok_iff.mp h
    cases t with
    | none =>
      rw [hnone] at h
      cases h
      exact .inl rfl
    | some t =>
      rw [hsome] at h
      exact .inr ⟨seen',t,tryResolve_eq_some_iff.mp ht,h⟩
  simp only [visit] at h
  split at h
  · exact follow _ _ rfl (fun _ => rfl) h
  · split at h
    · cases h
    · exact follow _ _ rfl (fun _ => rfl) h
    · split at h
      · cases h
        exact .inl rfl
      · exact follow _ _ rfl (fun _ => rfl) h

end Visiting

/-- Going through nodes comes to a result if each visit does behind those that were in vain, and keeps what these
keep as long as nothing is found. -/
lemma exists_firstFound {f : List String → RefOr Schema → Except Failure Search} {P : List String → Prop}
    {V : RefOr Schema → Prop} {nodes : List (RefOr Schema)}
    (hf : ∀ before node after, nodes = before ++ node :: after → (∀ b ∈ before, V b) → ∀ seen, P seen →
      ∃ r, f seen node = .ok r ∧ (r.found = none → V node ∧ P r.seen)) {seen : List String} (hs : P seen) :
    ∃ r, firstFound f seen nodes = .ok r ∧ (r.found = none → P r.seen) := by
  induction nodes generalizing seen with
  | nil => exact ⟨_,rfl,fun _ => hs⟩
  | cons node rest ih =>
    obtain ⟨r,hr,hp⟩ := hf [] node rest rfl (by simp) seen hs
    cases hfound : r.found with
    | some p => exact ⟨r,by simp [firstFound,hr,hfound,bind,Except.bind],by simp [hfound]⟩
    | none =>
      obtain ⟨hvain,hp⟩ := hp hfound
      obtain ⟨r',hr',hp'⟩ := ih (fun before other after hsplit hbefore => hf (node :: before) other after
        (by rw [hsplit,List.cons_append]) (List.forall_mem_cons.mpr ⟨hvain,hbefore⟩)) hp
      exact ⟨r',by simp [firstFound,hr,hfound,hr',bind,Except.bind],hp'⟩

/-- What is found among nodes is found at one of them. -/
lemma found_of_firstFound {f : List String → RefOr Schema → Except Failure Search} {nodes : List (RefOr Schema)}
    {seen : List String} {r : Search} {p : Schema} (h : firstFound f seen nodes = .ok r) (hp : r.found = some p) :
    ∃ node ∈ nodes, ∃ seen', f seen' node = .ok r := by
  induction nodes generalizing seen with
  | nil =>
    cases h
    cases hp
  | cons node rest ih =>
    obtain ⟨here,hr,h⟩ := Except.bind_eq_ok_iff.mp h
    cases hfound : here.found with
    | some q =>
      simp only [hfound] at h
      cases h
      exact ⟨node,List.mem_cons_self,seen,hr⟩
    | none =>
      simp only [hfound] at h
      obtain ⟨other,ho,found⟩ := ih h
      exact ⟨other,List.mem_cons_of_mem _ ho,found⟩

/-- A branch that is gone on into leaves enough of the allowance for what lies behind it. -/
lemma Trail.exists_visit (step : List String → Schema → Schema → Prop) (past : List String) {m fuel : Nat}
    {s t : Schema} {seen now trail : List String} {node : RefOr Schema} (trace : Trail c (step past) s trail)
    (shallow : Shallow c m) (hnow : now.Nodup) (hsub : now ⊆ c.schemas.keys) (hlen : seen.length ≤ now.length)
    (hb : node ∈ s.branches) (hfresh : ∀ ref ∈ node.names, ref ∉ now) (ht : c.schema node = .ok t)
    (hstep : node.names = [] → step past s t ∧ ¬TransGen (step past) t t)
    (hfuel : allowance c m seen.length trail s ≤ fuel + 1) :
    ∃ trail', Trail c (step (node.names ++ past)) t trail' ∧ (node.names ++ now).Nodup ∧
      node.names ++ now ⊆ c.schemas.keys ∧ allowance c m (node.names ++ now).length trail' t ≤ fuel := by
  have hnode : node ∈ s.nodes := Schema.mem_nodes.mpr (.inl hb)
  obtain ⟨trail',trace',hless⟩ := trace.exists_next step past shallow hnow hsub hnode hfresh ht hstep
  have hanti := allowance_anti (c := c) (m := m) hlen trail s
  refine ⟨trail',trace',?_,List.append_subset.mpr ⟨Components.names_subset_keys ht,hsub⟩,?_⟩
  · exact List.perm_append_comm.nodup_iff.mp ((RefOr.nodup_append_names hnow).mpr hfresh)
  · rw [List.length_append,Nat.add_comm]
    omega

/-- A search that meets nothing in its way comes to a result, having marked components only. -/
theorem exists_searchTo {m fuel : Nat} {seen trail : List String} {s : Schema} (searchable : Searchable c name s)
    (shallow : Shallow c m) (hseen : seen.Nodup) (hkeys : seen ⊆ c.schemas.keys)
    (trace : Trail c (ComposesUnnamed c) s trail) (hfuel : allowance c m seen.length trail s ≤ fuel) :
    ∃ r, searchTo c name fuel seen s = .ok r ∧
      (r.found = none → r.seen.Nodup ∧ r.seen ⊆ c.schemas.keys ∧ seen.length ≤ r.seen.length) := by
  induction fuel generalizing seen trail s with
  | zero =>
    have := allowance_pos (c := c) m seen.length trail s
    omega
  | succ fuel ih =>
    simp only [searchTo]
    split
    · rename_i node hd
      refine (searchable.declared s .refl node hd).elim ?_ ?_
      · rintro ⟨t,ht⟩
        exact ⟨⟨some t,seen⟩,by simp [tryResolve_of_ok ht,bind,Except.bind],nofun⟩
      · rintro ⟨_,found,-,-,ho⟩
        exact ⟨⟨none,seen⟩,by simp [tryResolve_of_otherKind ho,bind,Except.bind],fun _ => ⟨hseen,hkeys,Nat.le_refl _⟩⟩
    · refine exists_firstFound (V := fun _ => True)
        (P := fun now => now.Nodup ∧ now ⊆ c.schemas.keys ∧ seen.length ≤ now.length) ?_
        ⟨hseen,hkeys,Nat.le_refl _⟩
      rintro before node after hsplit - now ⟨hnow,hsub,hlen⟩
      have hb : node ∈ s.branches := by simp [hsplit]
      rcases searchable.branches s .refl node hb with ⟨t,ht⟩ | ⟨ref,found,hn,hk,ho⟩
      · rcases visit_cases ht with ⟨ref,-,-,hvisit⟩ | ⟨hfresh,hvisit⟩
        · exact ⟨_,hvisit,fun _ => ⟨trivial,hnow,hsub,hlen⟩⟩
        · have hstep (hnames : node.names = []) : ComposesUnnamed c s t ∧ ¬TransGen (ComposesUnnamed c) t t :=
            ⟨⟨node,hb,hnames,ht⟩,searchable.acyclic t (.single ⟨node,hb,ht⟩)⟩
          obtain ⟨trail',trace',hnodup,hsub',hfuel'⟩ := Trail.exists_visit (fun _ => ComposesUnnamed c) [] trace shallow
            hnow hsub hlen hb hfresh ht hstep hfuel
          obtain ⟨r,hr,hkeeps⟩ := ih (searchable.composes ⟨node,hb,ht⟩) hnodup hsub' trace' hfuel'
          refine ⟨r,hvisit.trans hr,fun hnone => ?_⟩
          obtain ⟨hr1,hr2,hr3⟩ := hkeeps hnone
          rw [List.length_append] at hr3
          exact ⟨trivial,hr1,hr2,by omega⟩
      · by_cases hm : ref ∈ now
        · exact ⟨_,visit_of_mem hn hm,fun _ => ⟨trivial,hnow,hsub,hlen⟩⟩
        · exact ⟨_,visit_of_otherKind hn hm ho,fun _ => ⟨trivial,List.nodup_cons.mpr ⟨hm,hnow⟩,
            List.cons_subset.mpr ⟨hk,hsub⟩,by simp only [List.length_cons]; omega⟩⟩

/-- What a search finds can be reached. -/
theorem leads_of_searchTo {n : Nat} {seen : List String} {s p : Schema} {r : Search}
    (h : searchTo c name n seen s = .ok r) (hp : r.found = some p) : ReflTransGen (Leads c) s p := by
  induction n generalizing seen s r with
  | zero => cases h
  | succ n ih =>
    simp only [searchTo] at h
    split at h
    · rename_i node hd
      obtain ⟨t,ht,h⟩ := Except.bind_eq_ok_iff.mp h
      cases h
      subst hp
      exact .single ⟨node,Schema.mem_nodes.mpr (.inr ⟨_,hd⟩),tryResolve_eq_some_iff.mp ht⟩
    · obtain ⟨node,hb,_,hv⟩ := found_of_firstFound h hp
      rcases visit_eq_ok hv with hn | ⟨_,t,ht,hgo⟩
      · rw [hp] at hn
        cases hn
      · exact .head ⟨node,Schema.mem_nodes.mpr (.inl hb),ht⟩ (ih hgo hp)

lemma leads_of_property? {s p : Schema} (h : property? c s name = .ok (some p)) :
    ReflTransGen (Leads c) s p := by
  obtain ⟨r,hr,h⟩ := Except.bind_eq_ok_iff.mp h
  exact leads_of_searchTo hr (Except.ok.inj h)

/-- The budget suffices for a search that meets nothing in its way. -/
theorem Searchable.exists_property? {s : Schema} (searchable : Searchable c name s) :
    ∃ r, searchTo c name (budget c s) [] s = .ok r ∧ property? c s name = .ok r.found := by
  obtain ⟨r,hr,-⟩ := exists_searchTo searchable (shallow_maxDepth c s) List.nodup_nil (by simp)
    (Trail.nil c _ s) (allowance_le_budget c s)
  exact ⟨r,hr,by simp [property?,hr,bind,Except.bind]⟩

/-- In a sound body the search for a property comes to a result. -/
theorem exists_property? {s : Schema} (sound : Sound c s) (name : String) :
    ∃ found, property? c s name = .ok found := by
  obtain ⟨r,-,h⟩ := (sound.searchable name).exists_property?
  exact ⟨r.found,h⟩

/-- In a sound body every path of names leads somewhere or nowhere. -/
theorem exists_descend {s : Schema} (sound : Sound c s) (names : List String) :
    ∃ found, descend c s names = .ok found := by
  induction names generalizing s with
  | nil => exact ⟨some s,rfl⟩
  | cons name rest ih =>
    obtain ⟨found,hf⟩ := exists_property? sound name
    cases found with
    | none => exact ⟨none,by simp [descend,hf,bind,Except.bind]⟩
    | some p =>
      obtain ⟨q,hq⟩ := ih (sound.trans (leads_of_property? hf))
      exact ⟨q,by simp [descend,hf,hq,bind,Except.bind]⟩

end ActionCatalog.Body
