import ActionCatalog.Catalog.Generation
import ActionCatalog.Proofs.Body.Delivery
import ActionCatalog.Proofs.Discovery

/-! The catalog of what was discovered in a document. Main statements: it can always be put together, and it
holds exactly the actions and inputs that the mask selects by their own names. -/
namespace ActionCatalog

/-- Whether a mask selects an action: it lists nothing at all, or the action by its name. -/
def Mask.Selects (m : Mask) (name : String) : Prop := m.isEmpty ∨ m.actions.contains name

/-- Whether a mask selects an input of an action: it lists nothing at all, or both by their names. -/
def Mask.SelectsInput (m : Mask) (action input : String) : Prop :=
  m.isEmpty ∨ ∃ e, m.actions.get? action = some e ∧ e.parameters.contains input

lemma Mask.get?_eq_none_of_isEmpty {m : Mask} (h : m.isEmpty) (name : String) : m.actions.get? name = none := by
  have hnil : m.actions.entries = [] := by simpa [Mask.isEmpty,Dict.isEmpty] using h
  simp [Dict.get?,hnil]

namespace NamedAction

/-- Shown are the inputs that the entry lists, and all where there is no entry. -/
lemma contains_shown {inputs : Dict Input} {masked : Option Mask.Action} {name : String} :
    (shown inputs masked).contains name ↔
      inputs.contains name ∧ ∀ e, masked = some e → e.parameters.contains name := by
  cases masked with
  | none => cases hi : inputs.get? name <;> simp [shown,Dict.contains,Dict.get?_filterMap,hi]
  | some e =>
    cases hi : inputs.get? name with
    | none => simp [shown,Dict.contains,Dict.get?_filterMap,hi]
    | some i => cases hp : e.parameters.get? name <;> simp [shown,Dict.contains,Dict.get?_filterMap,hi,hp]

lemma make_eq_ok_iff {c : Components} {m : Mask} {a : Action} {masked : Option Mask.Action} {o : Operation}
    {n : NamedAction} : make c m a masked o = .ok n ↔ ∃ body, bodyValues c a.inputs.keys o = .ok body ∧
      n = { name := a.name, displayName := label a.name masked,
            description := (masked.bind (·.description)).getD a.description, enabled := a.enabled,
            parameters := shown a.inputs masked, actionToRun := "http." ++ o.method.key,
            values := .ofList (("url",url m o) :: body),
            isConnectionOptional := masked.bind (·.isConnectionOptional) } := by
  simp only [make,Except.bind_eq_ok_iff,Except.pure_eq_ok,Except.ok.injEq,@eq_comm _ n]

/-- The body of an operation has its values as soon as it has its fields. -/
lemma exists_bodyValues {c : Components} {o : Operation} {e : Body.Expansion}
    (h : Action.bodyFields c o = .ok e) (names : List String) : ∃ values, bodyValues c names o = .ok values := by
  simp only [bodyValues]
  cases hp : o.defaultPayload? with
  | none => exact ⟨_,rfl⟩
  | some payload =>
    obtain ⟨contentType,required,schema,isDefault⟩ := payload
    cases schema with
    | none => exact ⟨_,rfl⟩
    | some s =>
      have he : Body.expand c s required = .ok e := by simpa [Action.bodyFields,hp] using h
      obtain ⟨ms,hms⟩ := Body.exists_members (Body.sound_of_expand he) names []
      have htemplate : Body.template c s names = .ok (Json.print (.object ms)) :=
        Except.bind_eq_ok_iff.mpr ⟨ms,hms,rfl⟩
      exact ⟨_,Except.bind_eq_ok_iff.mpr ⟨_,htemplate,rfl⟩⟩

end NamedAction

namespace Catalog

section Entry
variable {c : Components} {m : Mask} {r : Registry} {a : Action} {n : NamedAction}

lemma passes_iff : (!m.isEmpty && (m.actions.get? a.name).isNone) = false ↔ m.Selects a.name := by
  simp only [Mask.Selects,Dict.contains]
  cases m.isEmpty <;> cases m.actions.get? a.name <;> simp

lemma entryOf_eq_none_iff : entryOf c m r a = .ok none ↔ ¬m.Selects a.name := by
  rw [← passes_iff,Bool.not_eq_false]
  cases hpass : !m.isEmpty && (m.actions.get? a.name).isNone with
  | true => simp [entryOf,hpass]
  | false => cases ho : r.get? a.name <;> simp [entryOf,hpass,ho,Except.map_eq_ok_iff]

/-- An action has an entry if the mask selects it; the entry runs the operation registered under its name. -/
lemma entryOf_eq_some_iff : entryOf c m r a = .ok (some n) ↔ m.Selects a.name ∧
    ∃ o, r.get? a.name = some o ∧ NamedAction.make c m a (m.actions.get? a.name) o = .ok n := by
  rw [← passes_iff]
  cases hpass : !m.isEmpty && (m.actions.get? a.name).isNone with
  | true => simp [entryOf,hpass]
  | false => cases ho : r.get? a.name <;> simp [entryOf,hpass,ho,Except.map_eq_ok_iff]

lemma of_entryOf (h : entryOf c m r a = .ok (some n)) :
    n.name = a.name ∧ n.parameters = NamedAction.shown a.inputs (m.actions.get? a.name) := by
  obtain ⟨-,o,-,hmake⟩ := entryOf_eq_some_iff.mp h
  obtain ⟨body,-,rfl⟩ := NamedAction.make_eq_ok_iff.mp hmake
  exact ⟨rfl,rfl⟩

end Entry

section Actions
variable {c : Components} {m : Mask} {found : Discovery} {catalog : Catalog} {report : Report} {n : NamedAction}

/-- The entries of a catalog are those of the actions. -/
lemma mem_actions_iff (h : ofDiscovery c m found = .ok (catalog,report)) :
    n ∈ catalog.actions ↔ ∃ a ∈ found.actions, entryOf c m found.registry a = .ok (some n) := by
  obtain ⟨entries,hentries,h⟩ := Except.bind_eq_ok_iff.mp h
  cases h
  rw [← Except.mem_of_mapM_eq_ok hentries]
  simp

lemma sublist_names (h : ofDiscovery c m found = .ok (catalog,report)) :
    (catalog.actions.map (·.name)).Sublist (found.actions.map (·.name)) := by
  obtain ⟨entries,hentries,h⟩ := Except.bind_eq_ok_iff.mp h
  cases h
  have hall := Except.mapM_eq_ok_iff.mp hentries
  show ((entries.filterMap id).map (·.name)).Sublist (found.actions.map (·.name))
  clear h hentries
  generalize found.actions = as at hall ⊢
  induction hall with
  | nil => exact List.Sublist.refl _
  | @cons a entry as entries hentry _ ih =>
    cases entry with
    | none => exact ih.cons _
    | some n =>
      show (n.name :: (entries.filterMap id).map (·.name)).Sublist (a.name :: as.map (·.name))
      rw [(of_entryOf hentry).1]
      exact ih.cons_cons _

/-- What a catalog holds under a name is the entry of the action of that name. -/
theorem find?_actions_eq_some_iff (hnodup : (found.actions.map (·.name)).Nodup)
    (h : ofDiscovery c m found = .ok (catalog,report)) {name : String} :
    catalog.actions.find? (·.name == name) = some n ↔
      ∃ a ∈ found.actions, a.name = name ∧ entryOf c m found.registry a = .ok (some n) := by
  rw [Keyed.find?_eq_some_iff ((sublist_names h).nodup hnodup),mem_actions_iff h]
  constructor
  · rintro ⟨⟨a,ha,hentry⟩,hname⟩
    exact ⟨a,ha,(of_entryOf hentry).1.symm.trans hname,hentry⟩
  · rintro ⟨a,ha,hname,hentry⟩
    exact ⟨⟨a,ha,hentry⟩,(of_entryOf hentry).1.trans hname⟩

/-- The entries of a catalog that have the name of an action are the entry of that action. -/
theorem mem_actions_and_name_iff (hnodup : (found.actions.map (·.name)).Nodup)
    (h : ofDiscovery c m found = .ok (catalog,report)) {a : Action} (ha : a ∈ found.actions) :
    n ∈ catalog.actions ∧ n.name = a.name ↔ entryOf c m found.registry a = .ok (some n) := by
  rw [mem_actions_iff h]
  constructor
  · rintro ⟨⟨b,hb,hentry⟩,hname⟩
    have hab : b = a := List.inj_on_of_nodup_map hnodup hb ha ((of_entryOf hentry).1.symm.trans hname)
    rwa [← hab]
  · intro hentry
    exact ⟨⟨a,ha,hentry⟩,(of_entryOf hentry).1⟩

end Actions

variable {d : Document} {declared : DeclaredSecurity} {found : Discovery} {m : Mask} {a : Action}

/-- An action that was discovered has an entry exactly if the mask selects it. -/
theorem exists_entryOf (h : Discovery.ofDocument d declared = .ok found) (m : Mask) (ha : a ∈ found.actions) :
    ∃ entry, entryOf d.components m found.registry a = .ok entry ∧ (entry.isSome ↔ m.Selects a.name) := by
  obtain ⟨o,e,ho,hfields,-⟩ := Discovery.exists_operation h ha
  obtain ⟨values,hvalues⟩ := NamedAction.exists_bodyValues hfields a.inputs.keys
  by_cases hselect : m.Selects a.name
  · have hentry := entryOf_eq_some_iff.mpr ⟨hselect,o,ho,NamedAction.make_eq_ok_iff.mpr ⟨values,hvalues,rfl⟩⟩
    exact ⟨_,hentry,by simp [hselect]⟩
  · exact ⟨none,entryOf_eq_none_iff.mpr hselect,by simp [hselect]⟩

/-- The catalog of what was discovered can be put together, and its entries are those of the actions. -/
theorem exists_ofDiscovery (h : Discovery.ofDocument d declared = .ok found) (m : Mask) :
    ∃ catalog report, ofDiscovery d.components m found = .ok (catalog,report) ∧
      ∀ n, n ∈ catalog.actions ↔ ∃ a ∈ found.actions, entryOf d.components m found.registry a = .ok (some n) := by
  obtain ⟨entries,hentries⟩ : ∃ entries,
      found.actions.mapM (entryOf d.components m found.registry) = .ok entries := by
    refine Except.exists_mapM_eq_ok fun a ha => ?_
    obtain ⟨entry,hentry,-⟩ := exists_entryOf h m ha
    exact ⟨entry,hentry⟩
  obtain ⟨catalog,report,hcatalog⟩ : ∃ catalog report, ofDiscovery d.components m found = .ok (catalog,report) :=
    ⟨_,_,Except.bind_eq_ok_iff.mpr ⟨entries,hentries,rfl⟩⟩
  exact ⟨catalog,report,hcatalog,fun n => mem_actions_iff hcatalog⟩

/-- A catalog has an entry for an action exactly if the mask selects it. -/
theorem exists_mem_actions_iff (h : Discovery.ofDocument d declared = .ok found) {catalog : Catalog} {report : Report}
    (hcatalog : ofDiscovery d.components m found = .ok (catalog,report)) (ha : a ∈ found.actions) :
    (∃ n ∈ catalog.actions, n.name = a.name) ↔ m.Selects a.name := by
  obtain ⟨entry,hentry,hselect⟩ := exists_entryOf h m ha
  simp only [mem_actions_and_name_iff (Discovery.nodup_names h) hcatalog ha,hentry,← hselect,Except.ok.injEq,
    Option.isSome_iff_exists]

/-- An action of the catalog has an input exactly if the discovered one has it and the mask selects it. -/
theorem contains_input_iff (h : Discovery.ofDocument d declared = .ok found) {catalog : Catalog} {report : Report}
    (hcatalog : ofDiscovery d.components m found = .ok (catalog,report)) (ha : a ∈ found.actions)
    (input : String) : (∃ n ∈ catalog.actions, n.name = a.name ∧ n.parameters.contains input) ↔
      a.inputs.contains input ∧ m.SelectsInput a.name input := by
  have hentry : ∀ n, n ∈ catalog.actions ∧ n.name = a.name ↔ _ := fun n =>
    mem_actions_and_name_iff (Discovery.nodup_names h) hcatalog ha
  constructor
  · rintro ⟨n,hn,hname,hcontains⟩
    have hn := (hentry n).mp ⟨hn,hname⟩
    rw [(of_entryOf hn).2,NamedAction.contains_shown] at hcontains
    obtain ⟨hin,hlisted⟩ := hcontains
    refine ⟨hin,?_⟩
    rcases (entryOf_eq_some_iff.mp hn).1 with he | hc
    · exact .inl he
    · obtain ⟨e,he⟩ := Option.isSome_iff_exists.mp hc
      exact .inr ⟨e,he,hlisted e he⟩
  · rintro ⟨hin,hlisted⟩
    have hselected : m.Selects a.name := by
      rcases hlisted with he | ⟨e,he,-⟩
      · exact .inl he
      · exact .inr (by simp [Dict.contains,he])
    obtain ⟨n,hn,hname⟩ := (exists_mem_actions_iff h hcatalog ha).mpr hselected
    refine ⟨n,hn,hname,?_⟩
    rw [(of_entryOf ((hentry n).mp ⟨hn,hname⟩)).2,NamedAction.contains_shown]
    refine ⟨hin,fun e he => ?_⟩
    rcases hlisted with hempty | ⟨e',he',hc⟩
    · rw [Mask.get?_eq_none_of_isEmpty hempty] at he
      cases he
    · rw [he'] at he
      cases he
      exact hc

/-- What is generated is the catalog of what was discovered, and the report on it. -/
lemma exists_ofDiscovery_of_generate {g : Generation} (hg : generate d declared m = .ok g) :
    ∃ found, Discovery.ofDocument d declared = .ok found ∧
      ofDiscovery d.components m found = .ok (g.catalog,g.report) := by
  obtain ⟨found,hfound,hg⟩ := Except.bind_eq_ok_iff.mp hg
  obtain ⟨⟨catalog,report⟩,hcatalog,hg⟩ := Except.bind_eq_ok_iff.mp hg
  simp only at hg
  split at hg
  · cases hg
  · cases hg
    exact ⟨found,hfound,hcatalog⟩

lemma exists_of_generate {g : Generation} (hg : generate d declared m = .ok g) :
    ∃ found report, Discovery.ofDocument d declared = .ok found ∧
      ofDiscovery d.components m found = .ok (g.catalog,report) := by
  obtain ⟨found,hfound,hcatalog⟩ := exists_ofDiscovery_of_generate hg
  exact ⟨found,g.report,hfound,hcatalog⟩

lemma of_generate {g : Generation} (hg : generate d declared m = .ok g)
    (h : Discovery.ofDocument d declared = .ok found) :
    ∃ report, ofDiscovery d.components m found = .ok (g.catalog,report) := by
  obtain ⟨found',report,hfound,hcatalog⟩ := exists_of_generate hg
  rw [h] at hfound
  cases hfound
  exact ⟨report,hcatalog⟩

end Catalog
end ActionCatalog
