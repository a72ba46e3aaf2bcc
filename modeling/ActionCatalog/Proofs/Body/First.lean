import ActionCatalog.Proofs.Body.Circles

/-! What the search for a property finds. Main statement: where every reference leads to a schema, the
search finds the first declaration of the name, however the components refer to one another. -/
namespace ActionCatalog.Body
open Relation

variable {c : Components} {name : String}

/-- Every node that can be reached leads to a schema. -/
def Whole (c : Components) (s : Schema) : Prop :=
  ∀ t, ReflTransGen (Leads c) s t → ∀ node ∈ t.nodes, ∃ u, c.schema node = .ok u

lemma Whole.clear {s : Schema} (h : Whole c s) (name : String) : Clear c name s where
  branches := fun t steps node hb => h t (leads_of_composes steps) node (Schema.mem_nodes.mpr (.inl hb))
  declared := fun t steps node hd => h t (leads_of_composes steps) node (Schema.mem_nodes.mpr (.inr ⟨_,hd⟩))

/-- The first declaration of a name: a schema's own, or else the one in the first composed node that has
any. A component does not count inside itself. -/
inductive First (c : Components) (name : String) : List String → Schema → Schema → Prop
  | own {past : List String} {s p : Schema} {node : RefOr Schema}
      (declared : s.properties.get? name = some node) (leads : c.schema node = .ok p) :
      First c name past s p
  | branch {past : List String} {s t p : Schema} {before after : List (RefOr Schema)} {node : RefOr Schema}
      (undeclared : s.properties.get? name = none) (split : s.branches = before ++ node :: after)
      (barren : ∀ b ∈ before, Barren c name past b) (fresh : ∀ ref ∈ node.names, ref ∉ past)
      (leads : c.schema node = .ok t) (inner : First c name (node.names ++ past) t p) :
      First c name past s p

lemma First.declares {past : List String} {s p : Schema} (h : First c name past s p) :
    Declares c name past s := by
  induction h with
  | own declared _ => exact .own declared
  | branch _ split _ fresh leads _ ih =>
    exact .branch (by simp [split]) fresh leads (ih.anti (List.subset_append_right _ _))

/-- What a first declaration leads to can be reached. -/
lemma First.leads {past : List String} {s p : Schema} (h : First c name past s p) :
    ReflTransGen (Leads c) s p := by
  induction h with
  | own declared leads => exact .single ⟨_,Schema.mem_nodes.mpr (.inr ⟨_,declared⟩),leads⟩
  | branch _ split _ _ leads _ ih =>
    exact .head ⟨_,Schema.mem_nodes.mpr (.inl (by simp [split])),leads⟩ ih

/-- Of two members at which a list is split, one lies before the other if they are not the same. -/
lemma eq_or_mem_of_split {α : Type} {before after before' after' : List α} {x y : α}
    (h : before ++ x :: after = before' ++ y :: after') : x = y ∨ x ∈ before' ∨ y ∈ before := by
  rcases List.append_eq_append_iff.mp h with ⟨between,hb,ha⟩ | ⟨between,hb,ha⟩
  · cases between with
    | nil => exact .inl (List.cons.inj ha).1
    | cons z rest =>
      obtain ⟨rfl,-⟩ := List.cons.inj ha
      exact .inr (.inl (by simp [hb]))
  · cases between with
    | nil => exact .inl (List.cons.inj ha).1.symm
    | cons z rest =>
      obtain ⟨rfl,-⟩ := List.cons.inj ha
      exact .inr (.inr (by simp [hb]))

/-- A node behind which a first declaration lies is not barren. -/
lemma First.not_barren {past : List String} {node : RefOr Schema} {t p : Schema}
    (fresh : ∀ ref ∈ node.names, ref ∉ past) (leads : c.schema node = .ok t)
    (h : First c name (node.names ++ past) t p) : ¬Barren c name past node :=
  fun hbarren => hbarren t fresh leads (h.declares.anti (List.subset_append_right _ _))

/-- There is one first declaration at most. -/
theorem First.unique {past : List String} {s p q : Schema} (h : First c name past s p)
    (h' : First c name past s q) : p = q := by
  induction h with
  | own declared leads =>
    cases h' with
    | own declared' leads' =>
      rw [declared] at declared'
      cases declared'
      rw [leads] at leads'
      cases leads'
      rfl
    | branch undeclared' =>
      rw [declared] at undeclared'
      cases undeclared'
  | branch undeclared split barren fresh leads inner ih =>
    cases h' with
    | own declared' =>
      rw [undeclared] at declared'
      cases declared'
    | branch _ split' barren' fresh' leads' inner' =>
      rw [split] at split'
      -- A node that declares the name lies before no other one.
      rcases eq_or_mem_of_split split' with rfl | hmem | hmem
      · rw [leads] at leads'
        cases leads'
        exact ih inner'
      · exact absurd (barren' _ hmem) (inner.not_barren fresh leads)
      · exact absurd (barren _ hmem) (inner'.not_barren fresh' leads')

/-- Going through nodes stops at the first one that yields something, past those that yield nothing. -/
lemma of_firstFound {f : List String → RefOr Schema → Except Failure Search} {P : List String → Prop}
    {Yields : RefOr Schema → Schema → Prop} {Empty : RefOr Schema → Prop} {nodes : List (RefOr Schema)}
    {seen : List String} {r : Search}
    (hf : ∀ seen, P seen → ∀ node ∈ nodes, ∀ r, f seen node = .ok r →
      (∀ p, r.found = some p → Yields node p) ∧ (r.found = none → Empty node ∧ P r.seen))
    (h : firstFound f seen nodes = .ok r) (hs : P seen) :
    (∀ p, r.found = some p → ∃ before node after, nodes = before ++ node :: after ∧
      (∀ b ∈ before, Empty b) ∧ Yields node p) ∧
    (r.found = none → (∀ b ∈ nodes, Empty b) ∧ P r.seen) := by
  induction nodes generalizing seen with
  | nil =>
    cases h
    exact ⟨fun p hp => (nomatch hp),fun _ => ⟨by simp,hs⟩⟩
  | cons node rest ih =>
    obtain ⟨here,hr,h⟩ := Except.bind_eq_ok_iff.mp h
    obtain ⟨hyields,hempty⟩ := hf seen hs node List.mem_cons_self here hr
    cases hfound : here.found with
    | some p =>
      simp only [hfound] at h
      cases h
      refine ⟨fun q hq => ⟨[],node,rest,rfl,by simp,hyields q hq⟩,fun hn => ?_⟩
      rw [hfound] at hn
      cases hn
    | none =>
      simp only [hfound] at h
      obtain ⟨he,hp⟩ := hempty hfound
      obtain ⟨hsome,hnone⟩ := ih (fun seen hs node hn => hf seen hs node (List.mem_cons_of_mem _ hn)) h hp
      constructor
      · intro p hp
        obtain ⟨before,other,after,rfl,hbefore,hother⟩ := hsome p hp
        exact ⟨node :: before,other,after,rfl,List.forall_mem_cons.mpr ⟨he,hbefore⟩,hother⟩
      · intro hn
        obtain ⟨hrest,hp⟩ := hnone hn
        exact ⟨List.forall_mem_cons.mpr ⟨he,hrest⟩,hp⟩

/-- A node past which nothing is to be met. -/
def Idle (c : Components) (name : String) (past : List String) (node : RefOr Schema) : Prop :=
  ∀ t, (∀ ref ∈ node.names, ref ∉ past) → c.schema node = .ok t → ¬Faces c name past t

lemma Idle.barren {past : List String} {node : RefOr Schema} (h : Idle c name past node) : Barren c name past node :=
  fun t hfresh ht hdecl => h t hfresh ht hdecl.faces

/-- A circle lies behind a branch that is not idle and has no declaration before it. -/
lemma Circles.exists_branch {past : List String} {s : Schema} (h : Circles c name (past,s)) :
    ∃ before node after t, s.branches = before ++ node :: after ∧ (∀ b ∈ before, Barren c name past b) ∧
      (∀ ref ∈ node.names, ref ∉ past) ∧ c.schema node = .ok t ∧ ¬Idle c name past node ∧
      Circles c name (node.names ++ past,t) := by
  obtain ⟨⟨_,t⟩,⟨-,before,node,after,hsplit,hbarren,hfresh,ht,rfl⟩,hbehind⟩ := h.exists_passes
  refine ⟨before,node,after,t,hsplit,hbarren,hfresh,ht,fun hidle => ?_,hbehind⟩
  exact hidle t hfresh ht (hbehind.faces.anti (List.subset_append_right _ _))

/-- What the result of a search tells: the schema found is that of the first declaration, and if none was
found then there is nothing to be met, nor in what was gone through. In either case it ran in no circle. -/
structure Tells (c : Components) (name : String) (past : List String) (s : Schema) (r : Search) : Prop where
  first : ∀ p, r.found = some p → First c name past s p
  none : r.found = none → ¬Faces c name past s ∧ past ⊆ r.seen ∧ Spent c name past r.seen
  ends : ¬Circles c name (past,s)

/-- A visit tells of a node what the search behind it tells of the schema that the node leads to. -/
lemma of_visit {go : List String → Schema → Except Failure Search} {past now : List String} {node : RefOr Schema}
    {t : Schema} {r : Search} (ht : c.schema node = .ok t) (hpast : past ⊆ now) (spent : Spent c name past now)
    (hgo : ∀ r, go (node.names ++ now) t = .ok r → Tells c name (node.names ++ past) t r)
    (h : visit c name go now node = .ok r) :
    (∀ p, r.found = some p → (∀ ref ∈ node.names, ref ∉ past) ∧ Tells c name (node.names ++ past) t r) ∧
    (r.found = none → Idle c name past node ∧ past ⊆ r.seen ∧ Spent c name past r.seen) := by
  rcases visit_cases ht with ⟨ref,hn,hm,hvisit⟩ | ⟨hfresh,hvisit⟩
  · rw [hvisit] at h
    cases h
    refine ⟨fun p hp => (nomatch hp),fun _ => ⟨fun u hfresh hu => ?_,hpast,spent⟩⟩
    exact spent ref hm (hfresh ref (by simp [hn])) node u hn hu
  · rw [hvisit] at h
    have tells := hgo r h
    constructor
    · intro p hp
      exact ⟨fun ref hr hin => hfresh ref hr (hpast hin),tells⟩
    · intro hn
      obtain ⟨hfaces,hsub,hspent⟩ := tells.none hn
      obtain ⟨hfaces,hspent⟩ := hspent.leave ht hfaces
      refine ⟨fun u _ hu => ?_,(List.append_subset.mp hsub).2,hspent⟩
      rw [ht] at hu
      cases hu
      exact hfaces

/-- Nothing is to be met in a schema without a declaration if nothing is in its branches. -/
lemma not_faces_of_idle {past : List String} {s : Schema} (hd : s.properties.get? name = none)
    (hidle : ∀ b ∈ s.branches, Idle c name past b) : ¬Faces c name past s := by
  intro h
  cases h with
  | declared declared =>
    rw [hd] at declared
    cases declared
  | circle circle =>
    -- The circle goes through a branch, and what this leads to lies on the circle as well.
    obtain ⟨u,step,back⟩ := TransGen.head'_iff.mp circle
    obtain ⟨node,hb,hnames,hu⟩ := id step
    exact hidle node hb u (by simp [hnames]) hu (.circle (.tail' back step))
  | branch composed fresh leads inner => exact hidle _ composed _ fresh leads inner

/-- A search tells what it is meant to, whatever it went through before. -/
theorem tells_of_searchTo {n : Nat} {past seen : List String} {s : Schema} {r : Search} (clear : Clear c name s)
    (h : searchTo c name n seen s = .ok r) (hpast : past ⊆ seen) (spent : Spent c name past seen) :
    Tells c name past s r := by
  induction n generalizing past seen s r with
  | zero => cases h
  | succ n ih =>
    simp only [searchTo] at h
    split at h
    · rename_i node hd
      obtain ⟨t,ht⟩ := clear.declared s .refl node hd
      rw [tryResolve_of_ok ht] at h
      cases h
      refine ⟨fun p hp => by cases hp; exact .own hd ht,fun hn => (by cases hn),fun hcircles => ?_⟩
      obtain ⟨y,⟨hundeclared,-⟩,-⟩ := hcircles.exists_passes
      rw [hd] at hundeclared
      cases hundeclared
    · rename_i hd
      have hvisit : ∀ now, past ⊆ now ∧ Spent c name past now → ∀ node ∈ s.branches, ∀ r,
          visit c name (searchTo c name n) now node = .ok r →
          (∀ p, r.found = some p → (∀ ref ∈ node.names, ref ∉ past) ∧ ∃ t, c.schema node = .ok t ∧
            First c name (node.names ++ past) t p ∧ ¬Circles c name (node.names ++ past,t)) ∧
          (r.found = none → Idle c name past node ∧ past ⊆ r.seen ∧ Spent c name past r.seen) := by
        rintro now ⟨hnow,hspent⟩ node hb r hr
        obtain ⟨t,ht⟩ := clear.branches s .refl node hb
        have hsub : node.names ++ past ⊆ node.names ++ now :=
          List.append_subset.mpr ⟨List.subset_append_left _ _,List.subset_append_of_subset_right _ hnow⟩
        obtain ⟨hsome,hnone⟩ := of_visit ht hnow hspent
          (fun r hr => ih (clear.composes ⟨node,hb,ht⟩) hr hsub (hspent.enter node)) hr
        refine ⟨fun p hp => ?_,hnone⟩
        obtain ⟨hfresh,tells⟩ := hsome p hp
        exact ⟨hfresh,t,ht,tells.first p hp,tells.ends⟩
      obtain ⟨hsome,hnone⟩ := of_firstFound hvisit h ⟨hpast,spent⟩
      refine ⟨fun p hp => ?_,fun hn => ?_,fun hcircles => ?_⟩
      · obtain ⟨before,node,after,hsplit,hbefore,hfresh,t,ht,inner,-⟩ := hsome p hp
        exact .branch hd hsplit (fun b hb => (hbefore b hb).barren) hfresh ht inner
      · obtain ⟨hidle,hsub,hspent⟩ := hnone hn
        exact ⟨not_faces_of_idle hd hidle,hsub,hspent⟩
      · -- The branch of the circle is not idle, so the search found something, and not behind a branch before it.
        obtain ⟨before,node,after,t,hsplit,hbarren,hfresh,ht,hnot,hbehind⟩ := hcircles.exists_branch
        cases hfound : r.found with
        | none => exact hnot ((hnone hfound).1 node (by simp [hsplit]))
        | some p =>
          obtain ⟨before',node',after',hsplit',hbefore',hfresh',t',ht',inner,hends⟩ := hsome p hfound
          rw [hsplit] at hsplit'
          rcases eq_or_mem_of_split hsplit' with rfl | hmem | hmem
          · rw [ht] at ht'
            cases ht'
            exact hends hbehind
          · exact hnot (hbefore' node hmem)
          · exact inner.not_barren hfresh' ht' (hbarren node' hmem)

/-- A search that comes to a result finds the first declaration, and something wherever anything declares the
name. -/
theorem Clear.of_property? {s : Schema} {found : Option Schema} (clear : Clear c name s)
    (h : property? c s name = .ok found) :
    (∀ p, found = some p ↔ First c name [] s p) ∧ (found.isSome ↔ Declares c name [] s) := by
  obtain ⟨r,hr,h⟩ := Except.bind_eq_ok_iff.mp h
  cases h
  have tells : Tells c name [] s r :=
    tells_of_searchTo clear hr (List.Subset.refl []) (.nil c name [])
  cases hfound : r.found with
  | none =>
    have hnone : ¬Declares c name [] s := fun hdecl => (tells.none hfound).1 hdecl.faces
    refine ⟨fun p => ⟨fun h => (nomatch h),fun first => absurd first.declares hnone⟩,?_⟩
    simp [hnone]
  | some q =>
    have hfirst := tells.first q hfound
    refine ⟨fun p => ⟨fun h => ?_,fun first => by rw [first.unique hfirst]⟩,?_⟩
    · cases h
      exact hfirst
    · simp [hfirst.declares]

/-- The schema found for a name is that of its first declaration. -/
theorem property?_eq_some_iff {s p : Schema} (sound : Sound c s) (whole : Whole c s) :
    property? c s name = .ok (some p) ↔ First c name [] s p := by
  obtain ⟨found,hf⟩ := exists_property? sound name
  rw [← ((whole.clear name).of_property? hf).1 p,hf,Except.ok.injEq]

/-- A path of names that is walked from first declaration to first declaration. -/
inductive Walk (c : Components) : Schema → List String → Schema → Prop
  | nil (s : Schema) : Walk c s [] s
  | cons {s p q : Schema} {name : String} {rest : List String} (first : First c name [] s p)
      (behind : Walk c p rest q) : Walk c s (name :: rest) q

lemma Walk.leads {s q : Schema} {names : List String} (h : Walk c s names q) : ReflTransGen (Leads c) s q := by
  induction h with
  | nil => exact .refl
  | cons first _ ih => exact first.leads.trans ih

lemma Walk.append {s p q : Schema} {names behind : List String} (h : Walk c s names p) (h' : Walk c p behind q) :
    Walk c s (names ++ behind) q := by
  induction h with
  | nil => exact h'
  | cons first _ ih => exact .cons first (ih h')

/-- A walk passes where a walk along fewer names ends. -/
lemma Walk.behind {s p q : Schema} {names behind : List String} (h : Walk c s names p)
    (h' : Walk c s (names ++ behind) q) : Walk c p behind q := by
  induction h with
  | nil => exact h'
  | cons first _ ih =>
    cases h' with
    | cons first' h' =>
      obtain rfl := first.unique first'
      exact ih h'

/-- Descending along names walks along first declarations. -/
theorem descend_eq_some_iff {s q : Schema} {names : List String} (sound : Sound c s) (whole : Whole c s) :
    descend c s names = .ok (some q) ↔ Walk c s names q := by
  induction names generalizing s with
  | nil =>
    constructor
    · intro h
      cases h
      exact .nil _
    · rintro ⟨⟩
      rfl
  | cons name rest ih =>
    have hnext : ∀ p, First c name [] s p → (descend c p rest = .ok (some q) ↔ Walk c p rest q) :=
      fun p first => ih (sound.trans first.leads) (fun u hu => whole u (first.leads.trans hu))
    constructor
    · intro h
      obtain ⟨found,hf,h⟩ := Except.bind_eq_ok_iff.mp h
      cases found with
      | none => cases h
      | some p =>
        have first := (property?_eq_some_iff sound whole).mp hf
        exact .cons first ((hnext p first).mp h)
    · rintro (_ | ⟨first,behind⟩)
      have hf := (property?_eq_some_iff sound whole).mpr first
      exact Except.bind_eq_ok_iff.mpr ⟨_,hf,(hnext _ first).mpr behind⟩

end ActionCatalog.Body
