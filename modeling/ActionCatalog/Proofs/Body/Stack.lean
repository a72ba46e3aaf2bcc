import ActionCatalog.Proofs.Body.Leaves

/-! An expansion on a single stack, which every call finds as it is, puts a name on and takes it off again. Main
statement: it comes to what the expansion comes to that hands a stack of its own to every call; the stack only ever
holds different components, and every call leaves it as it was, whatever comes of the call. -/
namespace ActionCatalog.Body

namespace Expansion

theorem append_nil (e : Expansion) : e ++ ({} : Expansion) = e := by
  show append _ _ = _
  simp [append]

theorem append_assoc (a b d : Expansion) : a ++ b ++ d = a ++ (b ++ d) := by
  show append (append _ _) _ = append _ (append _ _)
  simp [append]

end Expansion

/-- How far an expansion has come: its stack, every stack that there was since it began, the latest first, and what
was found. -/
structure Progress where
  stack : List String := []
  past : List (List String) := []
  found : Expansion := {}

def Progress.withStack (t : Progress) (stack : List String) : Progress := { t with stack, past := stack :: t.past }

/-- A part of an expansion. What it did to the stack stays done when it fails. -/
abbrev Traversal := ExceptT Failure (StateM Progress)

namespace Traversal
variable {α β : Type}

/-- What a part comes to, and how far it gets. -/
def exec (x : Traversal α) (t : Progress) : Except Failure α × Progress := (x.run.run t).run

/-- Goes on with what a part comes to, also if that is a failure. -/
def attempt (x : Traversal α) : Traversal (Except Failure α) := ExceptT.lift x.run

/-- Changes the stack. Nothing else does. -/
def restack (stack : List String) : Traversal Unit := modify fun t => t.withStack stack

def note (e : Expansion) : Traversal Unit := modify fun t => { t with found := t.found ++ e }

@[simp] theorem exec_get (t : Progress) : (get : Traversal Progress).exec t = (.ok t,t) := rfl

@[simp] theorem exec_attempt (x : Traversal α) (t : Progress) :
    x.attempt.exec t = (.ok (x.exec t).1,(x.exec t).2) := rfl

theorem exec_bind (x : Traversal α) (f : α → Traversal β) (t : Progress) : (x >>= f).exec t =
    match x.exec t with
    | (.ok a,t') => (f a).exec t'
    | (.error e,t') => (.error e,t') := by
  rw [exec,exec,ExceptT.run_bind,StateT.run_bind]
  generalize x.run.run t = r
  obtain ⟨r,t'⟩ := r
  cases r <;> rfl

/-- The schema that a node leads to, and whether its name was put on the stack; nothing if it is there already. -/
def enter (c : Components) (path : String) (node : RefOr Schema) : Traversal (Option (Schema × Bool)) := do
  let stack := (← get).stack
  match node.names with
  | [] =>
    let s ← ofExcept (node.blame (place path) (c.schema node))
    return some (s,false)
  | name :: _ =>
    if name ∈ stack then
      note { cuts := [stack ++ [name]] }
      return none
    else
      let s ← ofExcept (node.blame (place path) (c.schema node))
      restack (stack ++ [name])
      return some (s,true)

def leave (pushed : Bool) : Traversal Unit := do
  if pushed then restack (← get).stack.dropLast

/-- Enters a node and leaves it again, before a failure inside it is passed on. -/
def within (c : Components) (path : String) (node : RefOr Schema) (go : Schema → Traversal Unit) :
    Traversal Unit := do
  match ← enter c path node with
  | none => return
  | some (s,pushed) =>
    let result ← (go s).attempt
    leave pushed
    ofExcept result

/-- What is composed into a schema, at its own path. -/
def ofBranches (c : Components) (go : Schema → String → Bool → Traversal Unit) (s : Schema) (path : String)
    (required : Bool) : Traversal Unit :=
  s.branches.forM fun node => within c path node fun branch => go branch path required

mutual
/-- The fields of a schema at a path, following no chain of more than `n` nodes. -/
def ofSchema (c : Components) : Nat → Schema → String → Bool → Traversal Unit
  | 0, _, path, _ => throw (.endless (place path))
  | n+1, s, path, required => do
    ofBranches c (ofSchema c n) s path required
    s.properties.entries.forM fun (name,node) =>
      let path := join path name
      let required := required && s.requires name
      within c path node fun property =>
        if property.hasProperties then ofSchema c n property path required
        else ofLeaf c n property node path required

/-- The field of a schema without properties, behind what is composed into it. -/
def ofLeaf (c : Components) : Nat → Schema → RefOr Schema → String → Bool → Traversal Unit
  | 0, _, _, path, _ => throw (.endless (place path))
  | n+1, s, node, path, required => do
    ofBranches c (ofSchema c n) s path required
    note { fields := [(path,.ofSchema s required (describe s node))] }
end

/-- What a part comes to if it is the whole. -/
def outcome (x : Traversal Unit) : Except Failure Expansion := (fun _ => (x.exec {}).2.found) <$> (x.exec {}).1

end Traversal

open Traversal

/-- Different components. -/
structure Proper (c : Components) (stack : List String) : Prop where
  nodup : stack.Nodup
  keys : stack ⊆ c.schemas.keys

lemma Proper.nil (c : Components) : Proper c [] := ⟨List.nodup_nil,List.nil_subset _⟩

/-- A name that a node leads to a schema under is that of one more component. -/
lemma Proper.append_names {c : Components} {stack : List String} (h : Proper c stack) {node : RefOr Schema} {s : Schema}
    (hfresh : ∀ name ∈ node.names, name ∉ stack) (hs : c.schema node = .ok s) : Proper c (stack ++ node.names) :=
  ⟨(RefOr.nodup_append_names h.nodup).mpr hfresh,
    List.append_subset.mpr ⟨h.keys,Components.names_subset_keys hs⟩⟩

/-- A part that started at `t` comes to what an expansion comes to. The stack is then as it was, and was proper all
the way. -/
structure Carries (c : Components) (t : Progress) (o : Except Failure Expansion)
    (r : Except Failure Unit × Progress) : Prop where
  result : r.1 = (fun _ => ()) <$> o
  found : ∀ e, o = .ok e → r.2.found = t.found ++ e
  balanced : r.2.stack = t.stack
  proper : Proper c t.stack → (∀ stack ∈ t.past, Proper c stack) → ∀ stack ∈ r.2.past, Proper c stack

section Carrying
variable {c : Components} {t : Progress}

lemma carries_throw (f : Failure) : Carries c t (.error f) (.error f,t) where
  result := rfl
  found := fun e h => by cases h
  balanced := rfl
  proper := fun _ h => h

lemma carries_note (e : Expansion) : Carries c t (.ok e) ((note e).exec t) where
  result := rfl
  found := fun e' h => by cases h; rfl
  balanced := rfl
  proper := fun _ h => h

lemma carries_pure : Carries c t (.ok {}) ((pure () : Traversal Unit).exec t) where
  result := rfl
  found := fun e h => by cases h; exact (Expansion.append_nil t.found).symm
  balanced := rfl
  proper := fun _ h => h

/-- Parts one after another come to what the expansions come to that are put together, unless the first fails. -/
lemma Carries.append {x y : Traversal Unit} {o o' : Except Failure Expansion} (hx : Carries c t o (x.exec t))
    (hy : ∀ t' : Progress, t'.stack = t.stack → Carries c t' o' (y.exec t')) :
    Carries c t (do return (← o) ++ (← o')) ((x >>= fun _ => y).exec t) := by
  rw [exec_bind]
  generalize x.exec t = r at hx
  obtain ⟨r,t'⟩ := r
  cases o with
  | error f =>
    obtain rfl : r = .error f := hx.result
    exact ⟨rfl,fun e h => (by cases h),hx.balanced,hx.proper⟩
  | ok a =>
    obtain rfl : r = .ok () := hx.result
    have hy := hy t' hx.balanced
    refine ⟨?_,?_,hy.balanced.trans hx.balanced,?_⟩
    · show (y.exec t').1 = _
      rw [hy.result]
      cases o' <;> rfl
    · intro e he
      obtain ⟨b,hb,he⟩ : ∃ b, o' = .ok b ∧ Except.ok (a ++ b) = Except.ok e := Except.bind_eq_ok_iff.mp he
      cases he
      show (y.exec t').2.found = _
      rw [hy.found b hb,hx.found a rfl,Expansion.append_assoc]
    · intro hstack hpast
      have hstack' : Proper c t'.stack := by rwa [hx.balanced]
      exact hy.proper hstack' (hx.proper hstack hpast)

lemma carries_forM {α : Type} {g : α → Traversal Unit} {f : α → Except Failure Expansion} {xs : List α}
    (h : ∀ x ∈ xs, ∀ t' : Progress, t'.stack = t.stack → Carries c t' (f x) ((g x).exec t')) :
    Carries c t (Expansion.gather f xs) ((xs.forM g).exec t) := by
  induction xs generalizing t with
  | nil => exact carries_pure
  | cons x xs ih =>
    refine (h x List.mem_cons_self t rfl).append fun t' ht' => ih fun y hy t'' ht'' => ?_
    exact h y (List.mem_cons_of_mem _ hy) t'' (ht''.trans ht')

section Node
variable {path : String} {node : RefOr Schema} {name : String} {s : Schema}

lemma exec_enter_of_mem (hname : node.names = [name]) (hm : name ∈ t.stack) :
    (Traversal.enter c path node).exec t =
      (.ok none,{ t with found := t.found ++ { cuts := [t.stack ++ [name]] } }) := by
  simp only [Traversal.enter,exec_bind,exec_get,hname,if_pos hm]
  rfl

lemma exec_enter_of_error {obstacle : Obstacle} (hfresh : ∀ name ∈ node.names, name ∉ t.stack)
    (h : c.schema node = .error obstacle) : (Traversal.enter c path node).exec t =
      (.error (.unresolved node.target (place path) obstacle),t) := by
  simp only [Traversal.enter,exec_bind,exec_get,h,RefOr.blame]
  cases hnames : node.names with
  | nil => rfl
  | cons name rest =>
    have hm : name ∉ t.stack := hfresh name (by simp [hnames])
    simp only [if_neg hm]
    rfl

lemma exec_enter_of_nil (hnames : node.names = []) (h : c.schema node = .ok s) :
    (Traversal.enter c path node).exec t = (.ok (some (s,false)),t) := by
  simp only [Traversal.enter,exec_bind,exec_get,hnames,h,RefOr.blame]
  rfl

lemma exec_enter_of_fresh (hname : node.names = [name]) (hm : name ∉ t.stack) (h : c.schema node = .ok s) :
    (Traversal.enter c path node).exec t =
      (.ok (some (s,true)),t.withStack (t.stack ++ [name])) := by
  simp only [Traversal.enter,exec_bind,exec_get,hname,if_neg hm,h,RefOr.blame]
  rfl

lemma exec_within (go : Schema → Traversal Unit) : (within c path node go).exec t =
    match (Traversal.enter c path node).exec t with
    | (.ok none,t') => (.ok (),t')
    | (.ok (some (s,pushed)),t') => (((go s).exec t').1,((leave pushed).exec ((go s).exec t').2).2)
    | (.error f,t') => (.error f,t') := by
  rw [within,exec_bind]
  generalize (Traversal.enter c path node).exec t = r
  obtain ⟨r,t'⟩ := r
  cases r with
  | error f => rfl
  | ok entered =>
    cases entered with
    | none => rfl
    | some entry =>
      obtain ⟨s,pushed⟩ := entry
      simp only [exec_bind,exec_attempt]
      generalize (go s).exec t' = inner
      obtain ⟨result,t''⟩ := inner
      cases pushed <;> cases result <;> rfl

/-- Within a node a part comes to what an expansion does that is handed the stack with the node's name on it. -/
lemma carries_within {go : Schema → Traversal Unit} {f : Schema → List String → Except Failure Expansion}
    (h : ∀ s t', Carries c t' (f s t'.stack) ((go s).exec t')) :
    Carries c t (Body.enter c t.stack path node f) ((within c path node go).exec t) := by
  rw [exec_within]
  rcases cut_or_fresh t.stack node with ⟨name,hname,hm⟩ | hfresh
  · rw [exec_enter_of_mem hname hm,enter_of_mem hname hm]
    exact carries_note _
  · rw [enter_of_fresh hfresh]
    cases hs : c.schema node with
    | error obstacle =>
      rw [exec_enter_of_error hfresh hs]
      exact carries_throw _
    | ok s =>
      show Carries c t (f s (t.stack ++ node.names)) _
      by_cases hnames : node.names = []
      · rw [exec_enter_of_nil hnames hs,hnames,List.append_nil]
        exact h s t
      · obtain ⟨name,hm⟩ := List.exists_mem_of_ne_nil _ hnames
        have hname := RefOr.names_eq_of_mem hm
        rw [exec_enter_of_fresh hname (hfresh name hm) hs,hname]
        have inner := h s (t.withStack (t.stack ++ [name]))
        dsimp only
        generalize (go s).exec (t.withStack (t.stack ++ [name])) = r at inner ⊢
        -- What is taken off is the name: the stack is as it was when the name was put on it.
        have hleft : r.2.stack.dropLast = t.stack := by
          rw [inner.balanced]
          exact List.dropLast_concat
        refine ⟨inner.result,inner.found,hleft,?_⟩
        intro hstack hpast
        have hpushed : Proper c (t.stack ++ [name]) := hname ▸ hstack.append_names hfresh hs
        refine List.forall_mem_cons.mpr ⟨by rwa [hleft],?_⟩
        exact inner.proper hpushed (List.forall_mem_cons.mpr ⟨hpushed,hpast⟩)

end Node

/-- What is composed into a schema is traversed as it is expanded, if every schema is. -/
lemma carries_ofBranches {go : Schema → String → Bool → Traversal Unit}
    {f : List String → Schema → String → Bool → Except Failure Expansion}
    (h : ∀ s path required t, Carries c t (f t.stack s path required) ((go s path required).exec t))
    (s : Schema) (path : String) (required : Bool) (t : Progress) :
    Carries c t (Expansion.gather
        (fun node => Body.enter c t.stack path node fun s stack => f stack s path required) s.branches)
      ((ofBranches c go s path required).exec t) := by
  refine carries_forM fun node _ t' ht' => ?_
  rw [← ht']
  exact carries_within fun s t'' => h s path required t''

/-- The field of a schema stands behind those of its branches. -/
lemma carries_ofLeaf {n : Nat}
    (h : ∀ s path required t, Carries c t (expandTo c n t.stack s path required)
      ((ofSchema c n s path required).exec t))
    (s : Schema) (node : RefOr Schema) (path : String) (required : Bool) (t : Progress) :
    Carries c t (do
        let composed ← Expansion.gather
          (fun node => Body.enter c t.stack path node fun s stack => expandTo c n stack s path required) s.branches
        return composed ++ { fields := [(path,.ofSchema s required (describe s node))] })
      ((ofLeaf c (n+1) s node path required).exec t) := by
  rw [ofLeaf]
  exact (carries_ofBranches h s path required t).append fun t' _ => carries_note _

/-- Of a schema without properties only the branches are expanded. -/
lemma expandTo_of_not_hasProperties {n : Nat} {stack : List String} {s : Schema} {path : String} {required : Bool}
    (h : s.hasProperties = false) : expandTo c (n+1) stack s path required = Expansion.gather
      (fun node => Body.enter c stack path node fun s stack => expandTo c n stack s path required) s.branches := by
  rw [expandTo,Schema.hasProperties_iff.mp h]
  generalize Expansion.gather _ s.branches = composed
  cases composed with
  | error f => rfl
  | ok e =>
    show Except.ok (e ++ ({} : Expansion)) = _
    rw [Expansion.append_nil]

/-- The traversal of a schema comes to what its expansion under the stack comes to, and that of a field to what the
expansion has at a property without properties. -/
theorem carries_traversal (c : Components) (n : Nat) :
    (∀ s path required t, Carries c t (expandTo c n t.stack s path required)
      ((ofSchema c n s path required).exec t)) ∧
    ∀ s node path required t, s.hasProperties = false → Carries c t (do
        let inner ← expandTo c n t.stack s path required
        return inner ++ { fields := [(path,.ofSchema s required (describe s node))] })
      ((ofLeaf c n s node path required).exec t) := by
  induction n with
  | zero => exact ⟨fun s path required t => carries_throw _,fun s node path required t _ => carries_throw _⟩
  | succ n ih =>
    obtain ⟨hschema,hleaf⟩ := ih
    constructor
    · intro s path required t
      rw [ofSchema,expandTo]
      refine (carries_ofBranches hschema s path required t).append fun t' ht' => carries_forM ?_
      rintro ⟨name,node⟩ - t'' ht''
      rw [← ht',← ht'']
      dsimp only [atProperty]
      refine carries_within fun property inside => ?_
      cases hp : property.hasProperties with
      | true =>
        simp only [if_true]
        rw [bind_pure]
        exact hschema _ _ _ inside
      | false =>
        simp only [Bool.false_eq_true,if_false]
        exact hleaf _ _ _ _ inside hp
    · intro s node path required t hp
      rw [expandTo_of_not_hasProperties hp]
      exact carries_ofLeaf hschema s node path required t

/-- Every call leaves the stack as it was. -/
theorem stack_exec (c : Components) (n : Nat) (s : Schema) (path : String) (required : Bool) (t : Progress) :
    ((ofSchema c n s path required).exec t).2.stack = t.stack ∧
    ((ofBranches c (ofSchema c n) s path required).exec t).2.stack = t.stack ∧
    ∀ node, ((ofLeaf c n s node path required).exec t).2.stack = t.stack := by
  have hschema (n : Nat) := (carries_traversal c n).1
  refine ⟨(hschema n s path required t).balanced,(carries_ofBranches (hschema n) s path required t).balanced,?_⟩
  intro node
  cases n with
  | zero => rfl
  | succ n => exact (carries_ofLeaf (hschema n) s node path required t).balanced

/-- The traversal of a body comes to its expansion. -/
theorem outcome_ofSchema (c : Components) (n : Nat) (s : Schema) (path : String) (required : Bool) :
    (ofSchema c n s path required).outcome = expandTo c n [] s path required := by
  have h := (carries_traversal c n).1 s path required {}
  rw [outcome,h.result]
  cases he : expandTo c n [] s path required with
  | error f => rfl
  | ok e =>
    show Except.ok _ = _
    rw [h.found e he]
    rfl

end Carrying
end ActionCatalog.Body
