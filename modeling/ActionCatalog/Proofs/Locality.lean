import ActionCatalog.Proofs.Console.Listing
import ActionCatalog.Proofs.Generation

/-! What the entry of an action depends on. Main statements: of a mask on no more than the host and what the mask
says of the action, and of the paths of a document on no more than the action's own. -/
namespace ActionCatalog

namespace NamedAction
variable {c : Components} {m₁ m₂ : Mask} {a : Action} {o : Operation} {n₁ n₂ : NamedAction}

lemma url_congr (hurl : m₁.requestUrl = m₂.requestUrl)
    (hconnection : m₁.requestUrlConnection = m₂.requestUrlConnection) (o : Operation) : url m₁ o = url m₂ o := by
  rw [url,url,hurl,hconnection]

/-- What is run for an action, and with which values, has to do with the host that a mask gives and with nothing
else that it says. -/
lemma runs_of_make (hurl : m₁.requestUrl = m₂.requestUrl)
    (hconnection : m₁.requestUrlConnection = m₂.requestUrlConnection) {masked₁ masked₂ : Option Mask.Action}
    (h₁ : make c m₁ a masked₁ o = .ok n₁) (h₂ : make c m₂ a masked₂ o = .ok n₂) :
    n₁.actionToRun = n₂.actionToRun ∧ n₁.values = n₂.values := by
  obtain ⟨body₁,hbody₁,rfl⟩ := make_eq_ok_iff.mp h₁
  obtain ⟨body₂,hbody₂,rfl⟩ := make_eq_ok_iff.mp h₂
  have hbody : body₁ = body₂ := Except.ok.inj (hbody₁.symm.trans hbody₂)
  refine ⟨rfl,?_⟩
  show Dict.ofList _ = Dict.ofList _
  rw [url_congr hurl hconnection,hbody]

end NamedAction

namespace Catalog
open Console

/-- An entry has to do with the host that a mask gives, what the mask says of the action, and the operation that
is registered under its name. -/
lemma entryOf_congr {c : Components} {m₁ m₂ : Mask} {r₁ r₂ : Registry} {a : Action}
    (hurl : m₁.requestUrl = m₂.requestUrl) (hconnection : m₁.requestUrlConnection = m₂.requestUrlConnection)
    (hempty : m₁.isEmpty = m₂.isEmpty) (hmasked : m₁.actions.get? a.name = m₂.actions.get? a.name)
    (hregistered : r₁.get? a.name = r₂.get? a.name) : entryOf c m₁ r₁ a = entryOf c m₂ r₂ a := by
  simp only [entryOf,NamedAction.make,NamedAction.url_congr hurl hconnection,hempty,hmasked,hregistered]

/-- Where the same action was discovered under a name and its entry is the same, two catalogs hold the same under
that name. -/
lemma find?_actions_congr {c₁ c₂ : Components} {m₁ m₂ : Mask} {found₁ found₂ : Discovery} {catalog₁ catalog₂ : Catalog}
    {report₁ report₂ : Report} (hnodup₁ : (found₁.actions.map (·.name)).Nodup)
    (hnodup₂ : (found₂.actions.map (·.name)).Nodup) (h₁ : ofDiscovery c₁ m₁ found₁ = .ok (catalog₁,report₁))
    (h₂ : ofDiscovery c₂ m₂ found₂ = .ok (catalog₂,report₂)) {name : String}
    (hfound : found₁.actions.find? (·.name == name) = found₂.actions.find? (·.name == name))
    (hentry : ∀ a : Action, a.name = name → entryOf c₁ m₁ found₁.registry a = entryOf c₂ m₂ found₂.registry a) :
    catalog₁.actions.find? (·.name == name) = catalog₂.actions.find? (·.name == name) := by
  have hmem : ∀ a, a ∈ found₁.actions ∧ a.name = name ↔ a ∈ found₂.actions ∧ a.name = name := by
    intro a
    rw [← Keyed.find?_eq_some_iff hnodup₁,hfound,Keyed.find?_eq_some_iff hnodup₂]
  apply Option.ext
  intro n
  rw [find?_actions_eq_some_iff hnodup₁ h₁,find?_actions_eq_some_iff hnodup₂ h₂]
  constructor
  · rintro ⟨a,ha,hname,hn⟩
    exact ⟨a,((hmem a).mp ⟨ha,hname⟩).1,hname,hentry a hname ▸ hn⟩
  · rintro ⟨a,ha,hname,hn⟩
    exact ⟨a,((hmem a).mpr ⟨ha,hname⟩).1,hname,hentry a hname ▸ hn⟩

lemma exists_find?_actions {d : Document} {declared : DeclaredSecurity} {m : Mask} {found : Discovery}
    {catalog : Catalog} {report : Report} (h : Discovery.ofDocument d declared = .ok found)
    (hcatalog : ofDiscovery d.components m found = .ok (catalog,report)) {a : Action} (ha : a ∈ found.actions)
    (hselected : m.Selects a.name) : ∃ n, catalog.actions.find? (·.name == a.name) = some n := by
  obtain ⟨n,hn,hname⟩ := (exists_mem_actions_iff h hcatalog ha).mpr hselected
  exact Option.isSome_iff_exists.mp (List.find?_isSome.mpr ⟨n,hn,by simp [hname]⟩)

/-- Under two masks that give one host, what both expose runs the same with the same values. If both list actions
or neither does, an action of which they say the same has the same entry under both, or none under either. -/
theorem masks_act_locally (d : Document) (declared : DeclaredSecurity) (m₁ m₂ : Mask) (g₁ g₂ : Generation)
    (h₁ : generate d declared m₁ = .ok g₁) (h₂ : generate d declared m₂ = .ok g₂)
    (hurl : m₁.requestUrl = m₂.requestUrl) (hconnection : m₁.requestUrlConnection = m₂.requestUrlConnection) :
    (∀ n₁ ∈ g₁.catalog.actions, ∀ n₂ ∈ g₂.catalog.actions, n₁.name = n₂.name →
      n₁.actionToRun = n₂.actionToRun ∧ n₁.values = n₂.values) ∧
    (m₁.isEmpty = m₂.isEmpty → ∀ name, m₁.actions.get? name = m₂.actions.get? name →
      g₁.catalog.actions.find? (·.name == name) = g₂.catalog.actions.find? (·.name == name)) := by
  obtain ⟨found,report₁,hfound,hcatalog₁⟩ := exists_of_generate h₁
  obtain ⟨report₂,hcatalog₂⟩ := of_generate h₂ hfound
  have hnodup := Discovery.nodup_names hfound
  constructor
  · intro n₁ hn₁ n₂ hn₂ hname
    obtain ⟨a,ha,hentry₁⟩ := (mem_actions_iff hcatalog₁).mp hn₁
    have hname₂ : n₂.name = a.name := hname.symm.trans (of_entryOf hentry₁).1
    have hentry₂ := (mem_actions_and_name_iff hnodup hcatalog₂ ha).mp ⟨hn₂,hname₂⟩
    obtain ⟨-,o₁,ho₁,hmake₁⟩ := entryOf_eq_some_iff.mp hentry₁
    obtain ⟨-,o₂,ho₂,hmake₂⟩ := entryOf_eq_some_iff.mp hentry₂
    have ho : o₁ = o₂ := Option.some.inj (ho₁.symm.trans ho₂)
    rw [← ho] at hmake₂
    exact NamedAction.runs_of_make hurl hconnection hmake₁ hmake₂
  · intro hempty name hmasked
    refine find?_actions_congr hnodup hnodup hcatalog₁ hcatalog₂ rfl fun a hname => ?_
    rw [← hname] at hmasked
    exact entryOf_congr hurl hconnection hempty hmasked rfl

/-- A mask that lists one more action than another, and has a name. -/
def widerMask : Mask :=
  { Listing.renamedMask with name := "wider", actions := Listing.renamedMask.actions.insert "stop" {} }

/-- The wider mask leaves the entry of the action as it is, and where nothing is masked the action still runs with
the same values. -/
theorem masks_act_locally_widerMask : ∃ g₁ g₂ g₃ n n₃,
    generate Listing.renamedDocument ∅ Listing.renamedMask = .ok g₁ ∧
    generate Listing.renamedDocument ∅ widerMask = .ok g₂ ∧ generate Listing.renamedDocument ∅ {} = .ok g₃ ∧
    g₁.catalog.actions.find? (·.name == "run") = some n ∧ g₂.catalog.actions.find? (·.name == "run") = some n ∧
    g₃.catalog.actions.find? (·.name == "run") = some n₃ ∧ n.values = n₃.values := by
  have hfound : Discovery.ofDocument Listing.renamedDocument ∅ = .ok Listing.renamedFound := by cbv
  have hrun : Listing.renamedAction ∈ Listing.renamedFound.actions := List.mem_singleton_self _
  obtain ⟨g₁,hg₁⟩ : ∃ g, generate Listing.renamedDocument ∅ Listing.renamedMask = .ok g := exists_generate hfound rfl
  obtain ⟨g₂,hg₂⟩ : ∃ g, generate Listing.renamedDocument ∅ widerMask = .ok g := exists_generate hfound rfl
  obtain ⟨g₃,hg₃⟩ : ∃ g, generate Listing.renamedDocument ∅ {} = .ok g := exists_generate hfound rfl
  obtain ⟨report₁,hcatalog₁⟩ := of_generate hg₁ hfound
  obtain ⟨report₃,hcatalog₃⟩ := of_generate hg₃ hfound
  obtain ⟨n,hn⟩ := exists_find?_actions hfound hcatalog₁ hrun (.inr (by cbv))
  obtain ⟨n₃,hn₃⟩ := exists_find?_actions hfound hcatalog₃ hrun (.inl (by cbv))
  have hsame := (masks_act_locally _ _ _ _ g₁ g₂ hg₁ hg₂ rfl rfl).2 (by cbv) "run" (by cbv)
  have hname : n.name = Listing.renamedAction.name := by simpa using List.find?_some hn
  have hname₃ : n₃.name = Listing.renamedAction.name := by simpa using List.find?_some hn₃
  obtain ⟨-,hvalues⟩ := (masks_act_locally _ _ _ _ g₁ g₃ hg₁ hg₃ rfl rfl).1 n (List.mem_of_find?_eq_some hn) n₃
    (List.mem_of_find?_eq_some hn₃) (hname.trans hname₃.symm)
  exact ⟨g₁,g₂,g₃,n,n₃,hg₁,hg₂,hg₃,hn,hsame.symm.trans hn,hn₃,hvalues⟩

end Catalog

/-- Two documents have the same to say of the operations at a path, apart from what stands at the path. -/
structure Document.AgreeAround (path : String) (d₁ d₂ : Document) (declared₁ declared₂ : DeclaredSecurity) :
    Prop where
  components : d₁.components = d₂.components
  servers : d₁.servers = d₂.servers
  security : d₁.security = d₂.security
  declares : ∀ method, declared₁.declares path method = declared₂.declares path method

section Around
variable {path : String} {d₁ d₂ : Document} {declared₁ declared₂ : DeclaredSecurity}

lemma Operation.build_congr (h : Document.AgreeAround path d₁ d₂ declared₁ declared₂) (item : Document.PathItem)
    (shared : List Parameter) (method : Method) (o : Document.Operation) :
    build d₁ declared₁ path item shared method o = build d₂ declared₂ path item shared method o := by
  simp only [build,requirements,h.components,h.servers,h.security,h.declares]

/-- What stands at the path comes to the same operations. -/
lemma Registry.ofPath_congr (h : Document.AgreeAround path d₁ d₂ declared₁ declared₂) (item : Document.PathItem) :
    ofPath d₁ declared₁ path item = ofPath d₂ declared₂ path item := by
  simp only [ofPath,h.components,Operation.build_congr h]

end Around

namespace Catalog
open Console

/-- Two documents that agree but for other paths come to the same operations at a path. An operation of the path
that both register under its id has the same action in both, and under any mask a catalog can be generated of
both or of neither, and has the same entry for it in both, or in neither. -/
theorem paths_act_locally (d₁ d₂ : Document) (declared₁ declared₂ : DeclaredSecurity) (found₁ found₂ : Discovery)
    (h₁ : Discovery.ofDocument d₁ declared₁ = .ok found₁) (h₂ : Discovery.ofDocument d₂ declared₂ = .ok found₂)
    (path : String) (hagree : Document.AgreeAround path d₁ d₂ declared₁ declared₂) (item : Document.PathItem)
    (hpath : d₁.paths.get? path = some item) :
    ∃ os, Registry.ofPath d₁ declared₁ path item = .ok os ∧ Registry.ofPath d₂ declared₂ path item = .ok os ∧
      ∀ o ∈ os, found₁.registry.get? o.id = some o → found₂.registry.get? o.id = some o →
        (∃ a, found₁.actions.find? (·.name == o.id) = some a ∧ found₂.actions.find? (·.name == o.id) = some a) ∧
        ∀ m, ((∃ g, generate d₁ declared₁ m = .ok g) ↔ ∃ g, generate d₂ declared₂ m = .ok g) ∧
          ∀ g₁ g₂, generate d₁ declared₁ m = .ok g₁ → generate d₂ declared₂ m = .ok g₂ →
            g₁.catalog.actions.find? (·.name == o.id) = g₂.catalog.actions.find? (·.name == o.id) := by
  obtain ⟨os,hos₁⟩ := Discovery.exists_ofPath h₁ hpath
  have hos₂ : Registry.ofPath d₂ declared₂ path item = .ok os := (Registry.ofPath_congr hagree item).symm.trans hos₁
  refine ⟨os,hos₁,hos₂,fun o _ ho₁ ho₂ => ?_⟩
  obtain ⟨a,cuts,hoa₁,hfind₁⟩ := Discovery.exists_find?_actions h₁ ho₁
  obtain ⟨a₂,cuts₂,hoa₂,hfind₂⟩ := Discovery.exists_find?_actions h₂ ho₂
  have ha : a₂ = a := by
    rw [← hagree.components,hoa₁] at hoa₂
    cases hoa₂
    rfl
  rw [ha] at hfind₂
  refine ⟨⟨a,hfind₁,hfind₂⟩,fun m => ⟨?_,fun g₁ g₂ hg₁ hg₂ => ?_⟩⟩
  · rw [exists_generate_iff,exists_generate_iff]
    simp only [h₁,h₂,Except.ok.injEq,exists_eq']
  · obtain ⟨report₁,hcatalog₁⟩ := of_generate hg₁ h₁
    obtain ⟨report₂,hcatalog₂⟩ := of_generate hg₂ h₂
    refine find?_actions_congr (Discovery.nodup_names h₁) (Discovery.nodup_names h₂) hcatalog₁ hcatalog₂
      (hfind₁.trans hfind₂.symm) fun a hname => ?_
    rw [hagree.components]
    exact entryOf_congr rfl rfl rfl rfl (by rw [hname,ho₁,ho₂])

/-- A document with one more path than another, and with its own security at that path. -/
def widerDocument : Document :=
  { Listing.renamedDocument with paths := Listing.renamedDocument.paths.insert "/stop" {
      operation := fun | .post => some { operationId := some "stop" } | _ => none } }

def widerDeclared : DeclaredSecurity := .ofList [("/stop",["post"])]

/-- The action is in the catalog of the wider document what it is in that of the other one. -/
theorem paths_act_locally_widerDocument : ∃ g₁ g₂ n, generate Listing.renamedDocument ∅ {} = .ok g₁ ∧
    generate widerDocument widerDeclared {} = .ok g₂ ∧ g₁.catalog.actions.find? (·.name == "run") = some n ∧
    g₂.catalog.actions.find? (·.name == "run") = some n := by
  have hfound : Discovery.ofDocument Listing.renamedDocument ∅ = .ok Listing.renamedFound := by cbv
  obtain ⟨found,hwider,hregistered⟩ : ∃ found, Discovery.ofDocument widerDocument widerDeclared = .ok found ∧
      found.registry.get? "run" = some Listing.renamedOperation := ⟨_,by rfl,by cbv⟩
  have hagree : Document.AgreeAround "/run" Listing.renamedDocument widerDocument ∅ widerDeclared :=
    ⟨rfl,rfl,rfl,fun _ => rfl⟩
  obtain ⟨os,hos,-,hlocal⟩ := paths_act_locally _ _ _ _ _ found hfound hwider "/run" hagree _ rfl
  have hos : os = [Listing.renamedOperation] := Except.ok.inj (hos.symm.trans (by cbv))
  obtain ⟨g₁,hg₁⟩ : ∃ g, generate Listing.renamedDocument ∅ {} = .ok g := exists_generate hfound rfl
  obtain ⟨-,hentry⟩ := hlocal Listing.renamedOperation (by simp [hos]) (by cbv) hregistered
  obtain ⟨hboth,hsame⟩ := hentry {}
  obtain ⟨g₂,hg₂⟩ := hboth.mp ⟨g₁,hg₁⟩
  obtain ⟨report₁,hcatalog₁⟩ := of_generate hg₁ hfound
  obtain ⟨n,hn⟩ := exists_find?_actions hfound hcatalog₁ (List.mem_singleton_self _) (.inl (by cbv))
  exact ⟨g₁,g₂,n,hg₁,hg₂,hn,(hsame g₁ g₂ hg₁ hg₂).symm.trans hn⟩

end Catalog
end ActionCatalog
