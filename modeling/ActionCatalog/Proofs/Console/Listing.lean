import ActionCatalog.Console.Listing
import ActionCatalog.Proofs.Catalog
import ActionCatalog.Proofs.Mask
import Mathlib

/-! The list of an action's parameters against the catalog that is generated under the same mask. Main
statement: they say the same of a parameter unless an alias reads like its name or like its action's. -/
namespace ActionCatalog

namespace Console.Listing
variable {m : Mask} {found : Discovery} {a : Action}

/-- An action is listed under its own name exactly if that is not the alias of another one. -/
theorem chosen?_eq_self_iff (hm : m.conflict? = none) (hnodup : (found.actions.map (·.name)).Nodup)
    (ha : a ∈ found.actions) :
    chosen? m found a.name = some a ↔ ¬∃ b e, m.Aliased a.name b e ∧ b ≠ a.name := by
  rw [← Mask.canonicalAction_eq_self_iff hm]
  constructor
  · intro h
    have hname := List.find?_some h
    exact (beq_iff_eq.mp hname).symm
  · intro hself
    rw [chosen?,hself]
    exact (Keyed.find?_eq_some_iff hnodup).mpr ⟨ha,rfl⟩

/-- What the list says of an input and what the mask selects differ in two ways: the name of the action is
the alias of another one whose entry has the input, or the entry of the action has the name of the input
only as an alias. -/
theorem status_agrees_iff (hm : m.conflict? = none) (action input : String) :
    ((m.parameterStatus action input ≠ "excluded" ∧ m.parameterStatus action input ≠ "action excluded") ↔
      m.SelectsInput action input) ↔
    ¬((∃ b e, m.Aliased action b e ∧ b ≠ action ∧ (e.parameters.contains input ∨ e.Renames input)) ∨
      ∃ e, m.actions.get? action = some e ∧ ¬e.parameters.contains input ∧ e.Renames input) := by
  rw [Mask.parameterStatus_ne_iff,Mask.SelectsInput]
  by_cases hempty : m.isEmpty
  · simp [hempty,Mask.Aliased,Mask.get?_eq_none_of_isEmpty hempty]
  · simp only [hempty,Bool.false_eq_true,false_or,Mask.parameter?_isSome_iff]
    by_cases halias : ∃ b e, m.Aliased action b e ∧ b ≠ action
    · obtain ⟨b,e,ha,hne⟩ := halias
      have hentry : m.action? action = some e := by
        rw [Mask.action?,Mask.canonicalAction_of_aliased hm ha]
        exact ha.1
      have hnone := Mask.get?_eq_none_of_aliased hm ha hne
      have honly : ∀ b' e', m.Aliased action b' e' → e' = e := by
        intro b' e' ha'
        have hb := (Mask.canonicalAction_of_aliased hm ha').symm.trans (Mask.canonicalAction_of_aliased hm ha)
        subst hb
        exact Option.some.inj (ha'.1.symm.trans ha.1)
      have hshadow : (∃ b e, m.Aliased action b e ∧ b ≠ action ∧
          (e.parameters.contains input ∨ e.Renames input)) ↔ (e.parameters.contains input ∨ e.Renames input) := by
        constructor
        · rintro ⟨b',e',ha',-,hin⟩
          rwa [honly b' e' ha'] at hin
        · intro hin
          exact ⟨b,e,ha,hne,hin⟩
      simp [hentry,hnone,hshadow]
    · have hself := (Mask.canonicalAction_eq_self_iff hm).mpr halias
      have hentry : m.action? action = m.actions.get? action := by rw [Mask.action?,hself]
      have hshadow : ¬∃ b e, m.Aliased action b e ∧ b ≠ action ∧
          (e.parameters.contains input ∨ e.Renames input) := by
        rintro ⟨b,e,ha,hne,-⟩
        exact halias ⟨b,e,ha,hne⟩
      rw [hentry]
      cases he : m.actions.get? action with
      | none => simpa using fun b e ha hne hin => hshadow ⟨b,e,ha,hne,hin⟩
      | some e =>
        simp only [Option.some.injEq,exists_eq_left',hshadow,false_or]
        tauto

/-- The parameters of an action are listed under its name exactly if that is not the alias of another one. Of
its inputs the list says whether they are in the catalog, unless the action's name is the alias of another
one whose entry has the input by name or alias, or its own entry has the input's name only as an alias. -/
theorem parameters_agree_iff (d : Document) (declared : DeclaredSecurity) (found : Discovery)
    (h : Discovery.ofDocument d declared = .ok found) (m : Mask) (hm : m.conflict? = none) :
    ∃ catalog report, Catalog.ofDiscovery d.components m found = .ok (catalog,report) ∧
      (∀ g, generate d declared m = .ok g → g.catalog = catalog) ∧
      ∀ a ∈ found.actions,
        (chosen? m found a.name = some a ↔ ¬∃ b e, m.Aliased a.name b e ∧ b ≠ a.name) ∧
        ∀ input, a.inputs.contains input →
          (((m.parameterStatus a.name input ≠ "excluded" ∧ m.parameterStatus a.name input ≠ "action excluded") ↔
              ∃ n ∈ catalog.actions, n.name = a.name ∧ n.parameters.contains input) ↔
            ¬((∃ b e, m.Aliased a.name b e ∧ b ≠ a.name ∧ (e.parameters.contains input ∨ e.Renames input)) ∨
              ∃ e, m.actions.get? a.name = some e ∧ ¬e.parameters.contains input ∧ e.Renames input)) := by
  obtain ⟨catalog,report,hcatalog,-⟩ := Catalog.exists_ofDiscovery h m
  refine ⟨catalog,report,hcatalog,?_,fun a ha => ⟨chosen?_eq_self_iff hm (Discovery.nodup_names h) ha,?_⟩⟩
  · intro g hg
    obtain ⟨report',hcatalog'⟩ := Catalog.of_generate hg h
    rw [hcatalog] at hcatalog'
    cases hcatalog'
    rfl
  · intro input hin
    have hcontains := Catalog.contains_input_iff h hcatalog ha input
    rw [hcontains,← status_agrees_iff hm]
    simp [hin]

def queryParameter (name : String) : RefOr Document.Parameter := .inline { name, location := .query }

def renamedDocument : Document where
  paths := .ofList [("/run",{ operation := fun
    | .get => some { operationId := some "run", parameters := [queryParameter "p",queryParameter "q"] }
    | _ => none })]

def renamedOperation : Operation where
  id := "run"
  method := .get
  path := "/run"
  summary := ""
  pathParameters := []
  queryParameters := [{ name := "p", location := .query, required := false, description := "" },
    { name := "q", location := .query, required := false, description := "" }]
  headerParameters := []
  cookieParameters := []
  payloads := []
  bodyRequired := false
  security := []
  servers := []

def renamedAction : Action where
  name := "run"
  description := ""
  path := "/run"
  inputs := .ofList [("p",{}),("q",{})]

def renamedFound : Discovery := ⟨{ operations := [renamedOperation] },[renamedAction],[]⟩

/-- A mask that lists one parameter under the name of another one. -/
def renamedMask : Mask where
  actions := .ofList [("run",{ parameters := .ofList [("p",{ nickname := some "q" })] })]

/-- The other parameter is listed as if it were in the catalog, which it is not. -/
theorem parameters_agree_iff_renamedMask : Discovery.ofDocument renamedDocument ∅ = .ok renamedFound ∧
    renamedMask.conflict? = none ∧ renamedMask.parameterStatus "run" "q" = "as q" ∧
    ∃ catalog report, Catalog.ofDiscovery {} renamedMask renamedFound = .ok (catalog,report) ∧
      ¬∃ n ∈ catalog.actions, n.name = "run" ∧ n.parameters.contains "q" := by
  have hfound : Discovery.ofDocument renamedDocument ∅ = .ok renamedFound := by cbv
  have hmask : renamedMask.conflict? = none := by cbv
  have hstatus : renamedMask.parameterStatus "run" "q" = "as q" := by cbv
  obtain ⟨catalog,report,hcatalog,-,hagree⟩ :=
    parameters_agree_iff renamedDocument ∅ renamedFound hfound renamedMask hmask
  refine ⟨hfound,hmask,hstatus,catalog,report,hcatalog,fun hin => ?_⟩
  apply ((hagree renamedAction (List.mem_singleton_self _)).2 "q" (by cbv)).mp
  · constructor
    · intro _
      exact hin
    · intro _
      show renamedMask.parameterStatus "run" "q" ≠ "excluded" ∧
        renamedMask.parameterStatus "run" "q" ≠ "action excluded"
      rw [hstatus]
      decide
  · exact .inr ⟨{ parameters := .ofList [("p",{ nickname := some "q" })] },by cbv,by decide +kernel,"p",
      { nickname := some "q" },by cbv,by cbv⟩

end Console.Listing
end ActionCatalog
