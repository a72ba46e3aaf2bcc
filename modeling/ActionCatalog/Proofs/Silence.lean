import ActionCatalog.Proofs.Alias
import ActionCatalog.Proofs.Console.Listing
import ActionCatalog.Proofs.Generation

/-! Empty texts in masks. Main statement: a mask says the same without them, except of an action with an alias that is
hidden by an empty name to be displayed. -/
namespace ActionCatalog

namespace Mask

/-- What a mask says about a parameter, without the texts that say nothing. -/
def Parameter.pruned (p : Mask.Parameter) : Mask.Parameter :=
  { p with nickname := spoken p.nickname, type := spoken p.type }

/-- What a mask says about an action, without the texts that say nothing. -/
def Action.pruned (e : Mask.Action) : Mask.Action :=
  { e with
    nickname := spoken e.nickname
    displayName := spoken e.displayName
    parameters := e.parameters.map fun _ => Parameter.pruned }

/-- A mask without the texts that say nothing. -/
def pruned (m : Mask) : Mask :=
  { m with
    requestUrlConnection := spoken m.requestUrlConnection
    requestUrl := spoken m.requestUrl
    actions := m.actions.map fun _ => Action.pruned }

@[simp] lemma spoken_spoken (s : Option String) : spoken (spoken s) = spoken s := by
  simp [spoken,Option.filter_filter]

section Aliases
variable (m : Mask)

lemma get?_pruned (name : String) : m.pruned.actions.get? name = (m.actions.get? name).map Action.pruned :=
  Dict.get?_map _ _ _

lemma get?_parameters_pruned (e : Mask.Action) (name : String) :
    e.pruned.parameters.get? name = (e.parameters.get? name).map Parameter.pruned := Dict.get?_map _ _ _

lemma isEmpty_pruned : m.pruned.isEmpty = m.isEmpty := by
  simp [isEmpty,Dict.isEmpty,pruned,Dict.map]

lemma contains_pruned (name : String) : m.pruned.actions.contains name = m.actions.contains name := by
  simp [Dict.contains,get?_pruned]

lemma actionAliases_pruned : m.pruned.actionAliases = m.actionAliases := by
  simp only [actionAliases,pruned,Dict.map,List.filterMap_map]
  exact List.filterMap_congr fun e _ => by simp [Action.pruned]

lemma aliases_pruned (e : Mask.Action) : e.pruned.aliases = e.aliases := by
  simp only [Action.aliases,Action.pruned,Dict.map,List.filterMap_map]
  exact List.filterMap_congr fun p _ => by simp [Parameter.pruned]

lemma conflictFrom_pruned (taken aliases : List (String × String)) :
    m.pruned.conflictFrom taken aliases = m.conflictFrom taken aliases := by
  induction aliases generalizing taken with
  | nil => rfl
  | cons x rest ih => simp only [conflictFrom,contains_pruned,ih]

/-- Texts that say nothing are in no conflict. -/
theorem conflict?_pruned : m.pruned.conflict? = m.conflict? := by
  rw [conflict?,conflict?,actionAliases_pruned,conflictFrom_pruned]

lemma canonicalAction_pruned (name : String) : m.pruned.canonicalAction name = m.canonicalAction name := by
  rw [canonicalAction,canonicalAction,actionAliases_pruned]

lemma action?_pruned (name : String) : m.pruned.action? name = (m.action? name).map Action.pruned := by
  rw [action?,action?,canonicalAction_pruned,get?_pruned]

lemma canonicalParameter_pruned (action parameter : String) :
    m.pruned.canonicalParameter action parameter = m.canonicalParameter action parameter := by
  rw [canonicalParameter,canonicalParameter,action?_pruned]
  cases m.action? action with
  | none => rfl
  | some e => simp [aliases_pruned]

lemma parameter?_pruned (action parameter : String) :
    m.pruned.parameter? action parameter = (m.parameter? action parameter).map Parameter.pruned := by
  rw [parameter?,parameter?,action?_pruned,canonicalParameter_pruned]
  cases m.action? action with
  | none => rfl
  | some e => exact get?_parameters_pruned e _

lemma aliasStatus_spoken (nickname : Option String) : aliasStatus (spoken nickname) = aliasStatus nickname := by
  rw [aliasStatus,aliasStatus,spoken_spoken]

theorem actionStatus_pruned (name : String) : m.pruned.actionStatus name = m.actionStatus name := by
  rw [actionStatus,actionStatus,isEmpty_pruned,get?_pruned]
  cases m.actions.get? name with
  | none => rfl
  | some e => simp [Action.pruned,aliasStatus_spoken]

theorem parameterStatus_pruned (action parameter : String) :
    m.pruned.parameterStatus action parameter = m.parameterStatus action parameter := by
  rw [parameterStatus,parameterStatus,isEmpty_pruned,parameter?_pruned,action?_pruned]
  cases m.parameter? action parameter with
  | none => simp
  | some p => simp [Parameter.pruned,aliasStatus_spoken]

end Aliases
end Mask

namespace NamedAction
open Mask

lemma url_pruned (m : Mask) (o : Operation) : url m.pruned o = url m o := by
  have hhost : ∀ default, Expression.host (spoken m.requestUrlConnection) (spoken m.requestUrl) default =
      Expression.host m.requestUrlConnection m.requestUrl default := by
    intro default
    have h (s : Option String) : (spoken s).filter (· ≠ "") = s.filter (· ≠ "") := spoken_spoken s
    rw [Expression.host,Expression.host,h,h]
  rw [url,url]
  exact congrArg (Expression.url · _ _) (hhost _)

lemma override_pruned (i : Input) (name : String) (p : Mask.Parameter) :
    i.override name p.pruned = i.override name p := by
  have htype : spoken p.pruned.type = spoken p.type := spoken_spoken _
  have hnickname : spoken p.pruned.nickname = spoken p.nickname := spoken_spoken _
  rw [Input.override,Input.override,htype,hnickname]
  rfl

lemma shown_pruned (inputs : Dict Input) (masked : Option Mask.Action) :
    shown inputs (masked.map Action.pruned) = shown inputs masked := by
  cases masked with
  | none => rfl
  | some e =>
    apply Dict.ext_get?
    intro name
    simp only [shown,Dict.get?_filterMap,Option.map_some,get?_parameters_pruned,Option.map_map]
    refine congrArg _ (funext fun i => ?_)
    cases e.parameters.get? name with
    | none => rfl
    | some p => simp [override_pruned]

/-- The entry with the label that the mask gives it without the texts that say nothing. -/
def relabelled (m : Mask) (n : NamedAction) : NamedAction :=
  { n with displayName := label n.name ((m.actions.get? n.name).map Action.pruned) }

/-- Texts that say nothing have no part in a label unless an alias stands behind one. -/
lemma label_pruned_iff (name : String) (masked : Option Mask.Action) :
    label name (masked.map Action.pruned) = label name masked ↔
      ∀ e, masked = some e → e.displayName = some "" →
        ∀ nickname, spoken e.nickname = some nickname → nickname = Label.ofName name := by
  cases masked with
  | none => simp
  | some e =>
    have hempty : spoken (some "") = none := rfl
    have hspoken : ∀ d, d ≠ "" → spoken (some d) = some d := fun d hd => by simp [spoken,hd]
    simp only [label,Option.map_some,Option.bind_some,Action.pruned,Option.some.injEq,forall_eq']
    cases hd : e.displayName with
    | none => simp [show spoken none = none from rfl]
    | some d =>
      by_cases hnone : d = ""
      · rw [hnone,Option.some_or,hempty,Option.none_or,spoken_spoken]
        cases hn : spoken e.nickname with
        | none => simp
        | some nickname => simp
      · rw [hspoken d hnone,Option.some_or,Option.some_or]
        simp [hnone]

lemma make_pruned (c : Components) (m : Mask) (a : Action) (o : Operation) :
    make c m.pruned a (m.pruned.actions.get? a.name) o =
      relabelled m <$> make c m a (m.actions.get? a.name) o := by
  rw [get?_pruned,make,make]
  cases bodyValues c a.inputs.keys o with
  | error f => rfl
  | ok body =>
    refine congrArg Except.ok ?_
    simp only [relabelled,url_pruned,shown_pruned]
    cases m.actions.get? a.name <;> rfl

end NamedAction

namespace Catalog
open Mask NamedAction
variable (c : Components) (m : Mask)

lemma entryOf_pruned (r : Registry) (a : Action) :
    entryOf c m.pruned r a = Option.map (relabelled m) <$> entryOf c m r a := by
  simp only [entryOf,isEmpty_pruned]
  have hmasked : (m.pruned.actions.get? a.name).isNone = (m.actions.get? a.name).isNone := by simp [get?_pruned]
  rw [hmasked]
  split
  · rfl
  · cases r.get? a.name with
    | none => rfl
    | some o =>
      simp only [make_pruned]
      cases make c m a (m.actions.get? a.name) o <;> rfl

lemma mismatches_pruned (d : Discovery) : d.mismatches m.pruned = d.mismatches m := by
  simp only [Discovery.mismatches,pruned,Dict.map,List.flatMap_map]
  refine List.flatMap_congr fun e _ => ?_
  have hkeys : e.2.pruned.parameters.keys = e.2.parameters.keys := by
    simp [Action.pruned,Dict.keys,Dict.map]
  simp only [hkeys]

/-- Labels have no part in a report. -/
lemma tally_relabelled (r : Report) (entries : List (Option NamedAction)) :
    (entries.map (Option.map (relabelled m))).foldl tally r = entries.foldl tally r := by
  rw [List.foldl_map]
  refine congrArg (List.foldl · r entries) ?_
  funext r entry
  cases entry <;> rfl

theorem ofDiscovery_pruned (d : Discovery) : ofDiscovery c m.pruned d =
    (fun (catalog,report) => ({ catalog with actions := catalog.actions.map (relabelled m) },report)) <$>
      ofDiscovery c m d := by
  rw [ofDiscovery,ofDiscovery,Except.mapM_map_eq (entryOf_pruned c m d.registry)]
  refine Except.bind_map_eq fun entries => ?_
  have hactions : (entries.map (Option.map (relabelled m))).filterMap id =
      (entries.filterMap id).map (relabelled m) := by
    rw [List.filterMap_map,List.map_filterMap]
    rfl
  rw [tally_relabelled,mismatches_pruned,hactions]
  rfl

variable {c m}

/-- An entry keeps its label exactly if no alias is hidden by an empty name to be displayed. -/
lemma relabelled_eq_iff {r : Registry} {a : Action} {n : NamedAction} (h : entryOf c m r a = .ok (some n)) :
    relabelled m n = n ↔ ∀ e, m.actions.get? n.name = some e → e.displayName = some "" →
      ∀ nickname, spoken e.nickname = some nickname → nickname = Label.ofName n.name := by
  have hlabel : n.displayName = label n.name (m.actions.get? n.name) := by
    obtain ⟨-,o,-,hmake⟩ := entryOf_eq_some_iff.mp h
    obtain ⟨body,-,rfl⟩ := make_eq_ok_iff.mp hmake
    rfl
  rw [← label_pruned_iff,← hlabel]
  constructor
  · intro heq
    exact congrArg NamedAction.displayName heq
  · intro heq
    rw [relabelled,heq]

end Catalog

/-- Whether a catalog can be written has nothing to do with its actions. -/
lemma Catalog.isSome_print?_actions (catalog : Catalog) (as : List NamedAction) :
    ({ catalog with actions := as } : Catalog).print?.isSome = catalog.print?.isSome := by
  rw [Bool.eq_iff_iff,isSome_print?_iff,isSome_print?_iff]

/-- Texts of a mask that say nothing have no part in whether a catalog is generated, and in what it is but for its
labels. -/
theorem generate_pruned (d : Document) (declared : DeclaredSecurity) (m : Mask) :
    (∃ f, generate d declared m = .error f ∧ generate d declared m.pruned = .error f) ∨
    ∃ g text, generate d declared m = .ok g ∧ generate d declared m.pruned =
      .ok ⟨{ g.catalog with actions := g.catalog.actions.map (NamedAction.relabelled m) },text,g.report⟩ := by
  rw [generate,generate]
  cases Discovery.ofDocument d declared with
  | error f => exact .inl ⟨f,rfl,rfl⟩
  | ok found =>
    simp only [bind,Except.bind,Catalog.ofDiscovery_pruned]
    cases Catalog.ofDiscovery d.components m found with
    | error f => exact .inl ⟨f,rfl,rfl⟩
    | ok made =>
      obtain ⟨catalog,report⟩ := made
      have hsome := catalog.isSome_print?_actions (catalog.actions.map (NamedAction.relabelled m))
      simp only [Functor.map,Except.map]
      cases hprint : catalog.print? with
      | none =>
        rw [hprint,Option.isSome_none,Option.isSome_eq_false_iff,Option.isNone_iff_eq_none] at hsome
        exact .inl ⟨.unwritable,rfl,by rw [hsome]⟩
      | some text =>
        rw [hprint,Option.isSome_some,Option.isSome_iff_exists] at hsome
        obtain ⟨text',htext'⟩ := hsome
        exact .inr ⟨⟨catalog,text,report⟩,text',rfl,by rw [htext']; rfl⟩

/-- A mask that is read can be read without its empty texts, and then says the same of every action and parameter.
A catalog is generated under both or, with one failure, under neither. What came of it is the same, and so is every
entry up to its label; the catalogs are the same exactly if no alias is hidden by an empty name to be displayed. -/
theorem generate_pruned_iff (text : String) (m : Mask) (h : Mask.read text = .ok m) :
    Mask.check m.pruned = .ok m.pruned ∧
    (∀ text', Mask.spelled? text' = some m.pruned → Mask.read text' = .ok m.pruned) ∧
    (∀ name, m.pruned.actionStatus name = m.actionStatus name) ∧
    (∀ action parameter, m.pruned.parameterStatus action parameter = m.parameterStatus action parameter) ∧
    ∀ (d : Document) (declared : DeclaredSecurity),
      (∀ f, generate d declared m.pruned = .error f ↔ generate d declared m = .error f) ∧
      ∀ g, generate d declared m = .ok g → ∃ g', generate d declared m.pruned = .ok g' ∧
        g'.report = g.report ∧
        g'.catalog = { g.catalog with actions := g.catalog.actions.map (NamedAction.relabelled m) } ∧
        (g'.catalog = g.catalog ↔ ∀ n ∈ g.catalog.actions, ∀ e, m.actions.get? n.name = some e →
          e.displayName = some "" → ∀ nickname, Mask.spoken e.nickname = some nickname →
            nickname = Label.ofName n.name) := by
  have hcheck : Mask.check m.pruned = .ok m.pruned :=
    Mask.check_eq_ok_iff.mpr ⟨m.conflict?_pruned.trans (Mask.conflict?_of_read h),rfl⟩
  refine ⟨hcheck,fun text' hspelled => ?_,m.actionStatus_pruned,m.parameterStatus_pruned,fun d declared => ?_⟩
  · rw [Mask.read_eq,hspelled]
    exact hcheck
  · rcases generate_pruned d declared m with ⟨f,hf,hf'⟩ | ⟨g,text',hg,hg'⟩
    · rw [hf,hf']
      exact ⟨fun f => Iff.rfl,by simp⟩
    · rw [hg,hg']
      refine ⟨by simp,fun g₁ hg₁ => ?_⟩
      cases hg₁
      refine ⟨_,rfl,rfl,rfl,?_⟩
      obtain ⟨found,-,hcatalog⟩ := Catalog.exists_ofDiscovery_of_generate hg
      have hall : g.catalog.actions.map (NamedAction.relabelled m) = g.catalog.actions ↔
          ∀ n ∈ g.catalog.actions, NamedAction.relabelled m n = n := by
        simpa using List.map_inj_left (f := NamedAction.relabelled m) (g := id) (l := g.catalog.actions)
      have hcatalogs : { g.catalog with actions := g.catalog.actions.map (NamedAction.relabelled m) } = g.catalog ↔
          g.catalog.actions.map (NamedAction.relabelled m) = g.catalog.actions :=
        ⟨congrArg Catalog.actions,fun heq => by rw [heq]⟩
      rw [hcatalogs,hall]
      refine forall₂_congr fun n hn => ?_
      obtain ⟨a,-,hentry⟩ := (Catalog.mem_actions_iff hcatalog).mp hn
      exact Catalog.relabelled_eq_iff hentry

/-- An action has an alias, and an empty name to be displayed. -/
def hiddenText : String :=
  "actions: \x7brun: \x7balias: go, display_name: '', parameters: \x7bp: \x7balias: ''\x7d\x7d\x7d\x7d"

/-- The alias is hidden: without the empty name the catalog is another one. -/
theorem generate_pruned_iff_hidden : ∃ m g g', Mask.read hiddenText = .ok m ∧
    generate Console.Listing.renamedDocument ∅ m = .ok g ∧
    generate Console.Listing.renamedDocument ∅ m.pruned = .ok g' ∧
    g'.report = g.report ∧ g'.catalog ≠ g.catalog ∧ (∀ name, m.pruned.actionStatus name = m.actionStatus name) ∧
    m.actionStatus "run" = "as go" := by
  obtain ⟨m,hm,hparts⟩ : ∃ m, Mask.spelled? hiddenText = some m ∧
      (m.conflict?,m.connectionTypes,(m.actions.get? "run").map fun e => (e.nickname,e.displayName)) =
        (none,∅,some (some "go",some "")) := Option.map_eq_some_iff.mp (by decide +kernel)
  obtain ⟨hconflict,hparts⟩ := Prod.mk.inj hparts
  obtain ⟨htypes,hparts⟩ := Prod.mk.inj hparts
  obtain ⟨e,he,hparts⟩ := Option.map_eq_some_iff.mp hparts
  obtain ⟨hnickname,hdisplay⟩ := Prod.mk.inj hparts
  have hread : Mask.read hiddenText = .ok m := by
    rw [Mask.read_eq,hm]
    exact Mask.check_eq_ok_iff.mpr ⟨hconflict,rfl⟩
  have hlisted : m.actions.contains "run" := by rw [Dict.contains,he,Option.isSome_some]
  have hfound : Discovery.ofDocument Console.Listing.renamedDocument ∅ = .ok Console.Listing.renamedFound := by cbv
  obtain ⟨g,hg⟩ := exists_generate hfound htypes
  obtain ⟨report,hcatalog⟩ := Catalog.of_generate hg hfound
  have hrun : Console.Listing.renamedAction ∈ Console.Listing.renamedFound.actions := List.mem_singleton_self _
  obtain ⟨n,hn,hname⟩ := (Catalog.exists_mem_actions_iff hfound hcatalog hrun).mpr (.inr hlisted)
  obtain ⟨-,-,hactions,-,hgenerate⟩ := generate_pruned_iff hiddenText m hread
  obtain ⟨-,hboth⟩ := hgenerate Console.Listing.renamedDocument ∅
  obtain ⟨g',hg',hreport,-,hsame⟩ := hboth g hg
  have hname : n.name = "run" := hname
  have hspoken : Mask.spoken e.nickname = some "go" := by rw [hnickname]; rfl
  refine ⟨m,g,g',hread,hg,hg',hreport,fun heq => ?_,hactions,?_⟩
  · have hlabel := hsame.mp heq n hn e (hname ▸ he) hdisplay "go" hspoken
    rw [hname] at hlabel
    exact absurd hlabel (by decide +kernel)
  · have hempty : m.isEmpty = false := by
      rw [Bool.eq_false_iff]
      intro hempty
      rw [Mask.get?_eq_none_of_isEmpty hempty] at he
      cases he
    rw [Mask.actionStatus,hempty,if_neg Bool.false_ne_true,he]
    show Mask.aliasStatus e.nickname = "as go"
    rw [hnickname]
    rfl

end ActionCatalog
