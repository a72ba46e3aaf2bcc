import ActionCatalog.Proofs.Console.Listing
import ActionCatalog.Proofs.Report

/-! What a mask lists, against the catalog. Main statement: whatever is listed is either in the catalog or told of
exactly once, and nothing else is told of the mask. -/
namespace ActionCatalog

namespace Warning

def isUnknownAction : Warning → Bool
  | unknownAction _ => true
  | _ => false

def isUnknownParameter : Warning → Bool
  | unknownParameter .. => true
  | _ => false

lemma isMismatch_of_isUnknownAction (w : Warning) (h : w.isUnknownAction) : w.isMismatch := by
  cases w <;> cases h
  rfl

lemma isMismatch_of_isUnknownParameter (w : Warning) (h : w.isUnknownParameter) : w.isMismatch := by
  cases w <;> cases h
  rfl

/-- The action under which a mask lists something in vain. -/
def entry? : Warning → Option String
  | unknownAction action => some action
  | unknownParameter action _ => some action
  | _ => none

end Warning

namespace Discovery
variable {found : Discovery} {m : Mask} {x : String × Mask.Action} {a : Action}

/-- The action that was discovered under a name. -/
def action? (found : Discovery) (name : String) : Option Action := found.actions.find? (·.name == name)

/-- What is told of an entry of a mask. -/
def remarks (found : Discovery) (x : String × Mask.Action) : List Warning :=
  match found.action? x.1 with
  | none => [.unknownAction x.1]
  | some a => (x.2.parameters.keys.filter (!a.inputs.contains ·)).map (.unknownParameter x.1)

lemma mismatches_eq (found : Discovery) (m : Mask) : found.mismatches m = m.actions.entries.flatMap found.remarks := rfl

lemma remarks_of_none (h : found.action? x.1 = none) : found.remarks x = [.unknownAction x.1] := by rw [remarks,h]

lemma remarks_of_some (h : found.action? x.1 = some a) :
    found.remarks x = (x.2.parameters.keys.filter (!a.inputs.contains ·)).map (.unknownParameter x.1) := by
  rw [remarks,h]

lemma entry?_of_mem_remarks {w : Warning} (h : w ∈ found.remarks x) : w.entry? = some x.1 := by
  rw [remarks] at h
  split at h
  · cases List.mem_singleton.mp h
    rfl
  · obtain ⟨p,-,rfl⟩ := List.mem_map.mp h
    rfl

lemma nodup_remarks (found : Discovery) (x : String × Mask.Action) : (found.remarks x).Nodup := by
  rw [remarks]
  split
  · exact List.nodup_singleton _
  · refine (x.2.parameters.nodup_keys.filter _).map fun p q heq => ?_
    cases heq
    rfl

/-- Nothing is told twice of a mask. -/
theorem nodup_mismatches (found : Discovery) (m : Mask) : (found.mismatches m).Nodup := by
  rw [mismatches_eq,List.nodup_flatMap]
  refine ⟨fun x _ => nodup_remarks found x,m.actions.ascending.imp fun {x y} hlt w hx hy => ?_⟩
  have hname := (entry?_of_mem_remarks hx).symm.trans (entry?_of_mem_remarks hy)
  rw [Option.some.inj hname] at hlt
  exact String.lt_irrefl _ hlt

/-- Told of an action is that it was not discovered although it is listed. -/
lemma unknownAction_mem_iff {name : String} : .unknownAction name ∈ found.mismatches m ↔
    m.actions.contains name ∧ found.action? name = none := by
  rw [mismatches_eq,List.mem_flatMap,← Dict.mem_keys_iff]
  constructor
  · rintro ⟨x,hx,hw⟩
    cases entry?_of_mem_remarks hw
    refine ⟨List.mem_map_of_mem hx,?_⟩
    cases ha : found.action? x.1 with
    | none => rfl
    | some a => simp [remarks_of_some ha] at hw
  · rintro ⟨hlisted,hnone⟩
    obtain ⟨x,hx,rfl⟩ := List.mem_map.mp hlisted
    exact ⟨x,hx,by simp [remarks_of_none hnone]⟩

/-- Told of a parameter is that its action was discovered without it although both are listed. -/
lemma unknownParameter_mem_iff {name p : String} : .unknownParameter name p ∈ found.mismatches m ↔
    ∃ e a, m.actions.get? name = some e ∧ found.action? name = some a ∧ e.parameters.contains p ∧
      ¬a.inputs.contains p := by
  rw [mismatches_eq,List.mem_flatMap]
  constructor
  · rintro ⟨⟨k,e⟩,hx,hw⟩
    obtain rfl : name = k := Option.some.inj (entry?_of_mem_remarks hw)
    cases ha : found.action? name with
    | none => simp [remarks_of_none (x := (name,e)) ha] at hw
    | some a =>
      rw [remarks_of_some (x := (name,e)) ha] at hw
      obtain ⟨p',hp,heq⟩ := List.mem_map.mp hw
      cases heq
      obtain ⟨hp,hnot⟩ := List.mem_filter.mp hp
      exact ⟨e,a,(Dict.mem_entries_iff _ _ _).mp hx,rfl,(Dict.mem_keys_iff _ _).mp hp,by simpa using hnot⟩
  · rintro ⟨e,a,he,ha,hp,hnot⟩
    refine ⟨(name,e),(Dict.mem_entries_iff _ _ _).mpr he,?_⟩
    simp [remarks_of_some (x := (name,e)) ha,Dict.mem_keys_iff,hp,hnot]

section Counts

/-- How many parameters that an entry of a mask lists were discovered with its action. -/
def kept (found : Discovery) (x : String × Mask.Action) : Nat :=
  match found.action? x.1 with
  | none => 0
  | some a => x.2.parameters.keys.countP (a.inputs.contains ·)

/-- Whether the action of an entry was discovered. -/
def matched (found : Discovery) (x : String × Mask.Action) : Bool := (found.action? x.1).isSome

/-- An entry is matched or told, and if it is matched, each of its parameters is kept or told. -/
lemma countP_remarks (found : Discovery) (x : String × Mask.Action) :
    (found.remarks x).countP Warning.isUnknownAction + (if found.matched x then 1 else 0) = 1 ∧
    (found.remarks x).countP Warning.isUnknownParameter + found.kept x =
      if found.matched x then x.2.parameters.size else 0 := by
  rw [matched,kept]
  cases ha : found.action? x.1 with
  | none =>
    rw [remarks_of_none ha]
    exact ⟨rfl,rfl⟩
  | some a =>
    have hsize : x.2.parameters.size = x.2.parameters.keys.length := (List.length_map _).symm
    have hsplit := List.length_eq_countP_add_countP (a.inputs.contains ·) (l := x.2.parameters.keys)
    rw [remarks_of_some ha,List.countP_map,List.countP_map]
    constructor
    · simp [Function.comp_def,Warning.isUnknownAction]
    · simp only [Function.comp_def,Warning.isUnknownParameter,List.countP_true,← List.countP_eq_length_filter,
        Option.isSome_some,if_true,hsize]
      simp only [Bool.not_eq_true,Bool.decide_eq_false] at hsplit
      omega

/-- The entries of a mask are matched or told, and the parameters of those that are matched are kept or told. -/
lemma countP_flatMap_remarks (found : Discovery) (es : List (String × Mask.Action)) :
    (es.flatMap found.remarks).countP Warning.isUnknownAction + (es.filter found.matched).length = es.length ∧
    (es.flatMap found.remarks).countP Warning.isUnknownParameter + ((es.filter found.matched).map found.kept).sum =
      ((es.filter found.matched).map (·.2.parameters.size)).sum := by
  induction es with
  | nil => exact ⟨rfl,rfl⟩
  | cons x es ih =>
    obtain ⟨haction,hparameter⟩ := countP_remarks found x
    obtain ⟨hactions,hparameters⟩ := ih
    rw [List.flatMap_cons,List.countP_append,List.countP_append,List.filter_cons,List.length_cons]
    by_cases hm : found.matched x
    · rw [if_pos hm] at haction hparameter ⊢
      simp only [List.length_cons,List.map_cons,List.sum_cons]
      omega
    · rw [if_neg hm] at haction hparameter ⊢
      omega

end Counts

end Discovery

/-- What is told of a mask is what it lists in vain. -/
lemma Registry.Accounts.filter_isMismatch {r : Registry} {n : Nat} (h : r.Accounts n) {ws : List Warning}
    (hws : ∀ w ∈ ws, w.isMismatch) : (r.warnings ++ r.serverWarnings ++ ws).filter (·.isMismatch) = ws := by
  have hduplicates : r.warnings.filter (·.isMismatch) = [] := by
    refine List.filter_eq_nil_iff.mpr fun w hw hm => ?_
    exact Warning.not_isDuplicate_of_isMismatch hm (h.duplicate w hw)
  have hserver : r.serverWarnings.filter (·.isMismatch) = [] := by
    rw [Registry.serverWarnings]
    split <;> rfl
  rw [List.filter_append,List.filter_append,hduplicates,hserver,List.filter_eq_self.mpr hws]
  rfl

/-- Shown under an entry of a mask are the inputs that it lists. -/
lemma NamedAction.size_shown (inputs : Dict Input) (e : Mask.Action) :
    (shown inputs (some e)).size = e.parameters.keys.countP (inputs.contains ·) := by
  have hperm : (shown inputs (some e)).keys.Perm (e.parameters.keys.filter (inputs.contains ·)) := by
    refine (List.perm_ext_iff_of_nodup (Dict.nodup_keys _) (e.parameters.nodup_keys.filter _)).mpr fun name => ?_
    rw [Dict.mem_keys_iff,contains_shown,List.mem_filter,Dict.mem_keys_iff]
    simp [and_comm]
  have hsize : (shown inputs (some e)).size = (shown inputs (some e)).keys.length := (List.length_map _).symm
  rw [hsize,hperm.length_eq,List.countP_eq_length_filter]

namespace Catalog
variable {d : Document} {declared : DeclaredSecurity} {found : Discovery} {m : Mask} {catalog : Catalog}
  {report : Report}

/-- Of what a mask lists, the catalog has what was discovered. -/
lemma exists_mem_iff_of_listed (h : Discovery.ofDocument d declared = .ok found)
    (hcatalog : ofDiscovery d.components m found = .ok (catalog,report)) {name : String}
    (hlisted : m.actions.contains name) :
    (∃ n ∈ catalog.actions, n.name = name) ↔ (found.action? name).isSome := by
  rw [Discovery.action?,List.find?_isSome]
  constructor
  · rintro ⟨n,hn,rfl⟩
    obtain ⟨a,ha,hentry⟩ := (mem_actions_iff hcatalog).mp hn
    exact ⟨a,ha,by simp [(of_entryOf hentry).1]⟩
  · rintro ⟨a,ha,hname⟩
    obtain rfl : a.name = name := by simpa using hname
    exact (exists_mem_actions_iff h hcatalog ha).mpr (.inr hlisted)

/-- Under a mask that lists actions an entry of the catalog has the inputs that the mask lists for it. -/
lemma exists_listed_of_mem (h : Discovery.ofDocument d declared = .ok found)
    (hcatalog : ofDiscovery d.components m found = .ok (catalog,report)) (hm : m.isEmpty = false) {n : NamedAction}
    (hn : n ∈ catalog.actions) : ∃ e a, m.actions.get? n.name = some e ∧ found.action? n.name = some a ∧
      n.parameters = NamedAction.shown a.inputs (some e) := by
  obtain ⟨a,ha,hentry⟩ := (mem_actions_iff hcatalog).mp hn
  obtain ⟨hname,hshown⟩ := of_entryOf hentry
  have hlisted : m.actions.contains a.name :=
    (entryOf_eq_some_iff.mp hentry).1.resolve_left (by simp [hm])
  obtain ⟨e,he⟩ := Option.isSome_iff_exists.mp hlisted
  rw [← hname] at he hshown
  refine ⟨e,a,he,?_,by rw [hshown,he]⟩
  exact (Keyed.find?_eq_some_iff (Discovery.nodup_names h)).mpr ⟨ha,hname.symm⟩

/-- The entries of the catalog are those that the mask lists and that were discovered. -/
lemma perm_names_matched (h : Discovery.ofDocument d declared = .ok found)
    (hcatalog : ofDiscovery d.components m found = .ok (catalog,report)) (hm : m.isEmpty = false) :
    (catalog.actions.map (·.name)).Perm ((m.actions.entries.filter found.matched).map (·.1)) := by
  have hnodup : ((m.actions.entries.filter found.matched).map (·.1)).Nodup :=
    m.actions.nodup_keys.sublist (List.filter_sublist.map _)
  refine (List.perm_ext_iff_of_nodup ((sublist_names hcatalog).nodup (Discovery.nodup_names h)) hnodup).mpr ?_
  intro name
  simp only [List.mem_map,List.mem_filter]
  constructor
  · rintro ⟨n,hn,rfl⟩
    obtain ⟨e,a,he,ha,-⟩ := exists_listed_of_mem h hcatalog hm hn
    exact ⟨(n.name,e),⟨(Dict.mem_entries_iff _ _ _).mpr he,by simp [Discovery.matched,ha]⟩,rfl⟩
  · rintro ⟨x,⟨hx,hmatched⟩,rfl⟩
    have hlisted : m.actions.contains x.1 := (Dict.mem_keys_iff _ _).mp (List.mem_map_of_mem hx)
    exact (exists_mem_iff_of_listed h hcatalog hlisted).mpr hmatched

/-- The parameters of the catalog are those that the mask lists and that were discovered. -/
lemma sum_sizes_eq (h : Discovery.ofDocument d declared = .ok found)
    (hcatalog : ofDiscovery d.components m found = .ok (catalog,report)) (hm : m.isEmpty = false) :
    (catalog.actions.map (·.parameters.size)).sum =
      ((m.actions.entries.filter found.matched).map found.kept).sum := by
  -- Both sums go over the names, to each of which the entry of the mask gives the same number.
  let keptOf (name : String) : Nat := ((m.actions.get? name).map fun e => found.kept (name,e)).getD 0
  have hcatalogued : catalog.actions.map (·.parameters.size) = (catalog.actions.map (·.name)).map keptOf := by
    rw [List.map_map]
    refine List.map_congr_left fun n hn => ?_
    obtain ⟨e,a,he,ha,hshown⟩ := exists_listed_of_mem h hcatalog hm hn
    simp [keptOf,he,ha,hshown,NamedAction.size_shown,Discovery.kept]
  have hlisted : (m.actions.entries.filter found.matched).map found.kept =
      ((m.actions.entries.filter found.matched).map (·.1)).map keptOf := by
    rw [List.map_map]
    refine List.map_congr_left fun x hx => ?_
    have he := (Dict.mem_entries_iff _ _ _).mp (List.mem_of_mem_filter hx)
    simp [keptOf,he]
  rw [hcatalogued,hlisted]
  exact ((perm_names_matched h hcatalog hm).map keptOf).sum_eq

section Told
variable (h : Discovery.ofDocument d declared = .ok found)
  (hcatalog : ofDiscovery d.components m found = .ok (catalog,report))
include h hcatalog

lemma filter_warnings : report.warnings.filter (·.isMismatch) = found.mismatches m := by
  rw [(report_eq hcatalog).2]
  exact (Discovery.accounts_registry h).filter_isMismatch fun w => Discovery.isMismatch_of_mem

/-- What is told of the mask is told once. -/
lemma count_warnings {w : Warning} (hw : w.isMismatch) :
    report.warnings.count w = if w ∈ found.mismatches m then 1 else 0 := by
  rw [← List.count_filter hw,filter_warnings h hcatalog]
  split
  · rename_i hmem
    exact List.count_eq_one_of_mem (found.nodup_mismatches m) hmem
  · rename_i hmem
    exact List.count_eq_zero_of_not_mem hmem

lemma countP_warnings {p : Warning → Bool} (hp : ∀ w, p w → w.isMismatch) :
    report.warnings.countP p = (m.actions.entries.flatMap found.remarks).countP p := by
  rw [← Discovery.mismatches_eq,← filter_warnings h hcatalog,List.countP_filter]
  refine List.countP_congr fun w _ => ?_
  simpa using hp w

/-- The actions that are listed are in the catalog or told. -/
lemma generated_add_countP (hm : m.isEmpty = false) :
    m.actions.size = report.generated + report.warnings.countP Warning.isUnknownAction := by
  have hgenerated : report.generated = (m.actions.entries.filter found.matched).length := by
    have hlength := (perm_names_matched h hcatalog hm).length_eq
    rw [List.length_map,List.length_map] at hlength
    rw [(report_eq hcatalog).2,hlength]
  obtain ⟨hactions,-⟩ := found.countP_flatMap_remarks m.actions.entries
  rw [hgenerated,countP_warnings h hcatalog Warning.isMismatch_of_isUnknownAction]
  show m.actions.entries.length = _
  omega

/-- The parameters that are listed for actions in the catalog are in the catalog or told. -/
lemma parameters_add_countP (hm : m.isEmpty = false) :
    ((m.actions.entries.filter fun x => catalog.actions.any (·.name == x.1)).map (·.2.parameters.size)).sum =
      report.parameters + report.warnings.countP Warning.isUnknownParameter := by
  have hmatched : m.actions.entries.filter (fun x => catalog.actions.any (·.name == x.1)) =
      m.actions.entries.filter found.matched := by
    refine List.filter_congr fun x hx => ?_
    have hlisted : m.actions.contains x.1 := (Dict.mem_keys_iff _ _).mp (List.mem_map_of_mem hx)
    rw [Bool.eq_iff_iff,Discovery.matched,← exists_mem_iff_of_listed h hcatalog hlisted]
    simp
  have hsum : report.parameters = ((m.actions.entries.filter found.matched).map found.kept).sum := by
    rw [← sum_sizes_eq h hcatalog hm,(report_eq hcatalog).2]
  obtain ⟨-,hparameters⟩ := found.countP_flatMap_remarks m.actions.entries
  rw [hmatched,hsum,countP_warnings h hcatalog Warning.isMismatch_of_isUnknownParameter]
  omega

end Told

end Catalog

/-- Whatever a mask lists is in a catalog or told of once, and the counts of both make up what is listed. -/
structure Generation.Covers (g : Generation) (m : Mask) : Prop where
  action (name : String) : m.actions.contains name →
    (∃ n ∈ g.catalog.actions, n.name = name) ∧ g.report.warnings.count (.unknownAction name) = 0 ∨
    (¬∃ n ∈ g.catalog.actions, n.name = name) ∧ g.report.warnings.count (.unknownAction name) = 1
  parameter : ∀ n ∈ g.catalog.actions, ∃ e, m.actions.get? n.name = some e ∧ ∀ p, e.parameters.contains p →
    n.parameters.contains p ∧ g.report.warnings.count (.unknownParameter n.name p) = 0 ∨
    ¬n.parameters.contains p ∧ g.report.warnings.count (.unknownParameter n.name p) = 1
  only : ∀ w ∈ g.report.warnings, w.isMismatch → (∃ name, m.actions.contains name ∧ w = .unknownAction name) ∨
    ∃ n ∈ g.catalog.actions, ∃ e p, m.actions.get? n.name = some e ∧ e.parameters.contains p ∧
      w = .unknownParameter n.name p
  actions : m.actions.size = g.report.generated + g.report.warnings.countP Warning.isUnknownAction
  parameters : ((m.actions.entries.filter fun x => g.catalog.actions.any (·.name == x.1)).map
    (·.2.parameters.size)).sum = g.report.parameters + g.report.warnings.countP Warning.isUnknownParameter

/-- Whatever a mask lists is in the catalog that is generated or told of exactly once: an action by its name, and
a parameter of an action that is in the catalog. Nothing else is told of the mask. -/
theorem covers_mask (d : Document) (declared : DeclaredSecurity) (m : Mask) (g : Generation)
    (hg : generate d declared m = .ok g) (hm : m.isEmpty = false) : g.Covers m := by
  obtain ⟨found,hfound,hcatalog⟩ := Catalog.exists_ofDiscovery_of_generate hg
  constructor
  case action =>
    intro name hlisted
    rw [Catalog.exists_mem_iff_of_listed hfound hcatalog hlisted,Catalog.count_warnings hfound hcatalog rfl]
    have htold : .unknownAction name ∈ found.mismatches m ↔ found.action? name = none := by
      simp [Discovery.unknownAction_mem_iff,hlisted]
    cases hfind : found.action? name <;> simp [hfind,htold]
  case parameter =>
    intro n hn
    obtain ⟨e,a,he,ha,hshown⟩ := Catalog.exists_listed_of_mem hfound hcatalog hm hn
    refine ⟨e,he,fun p hp => ?_⟩
    have hcontains : n.parameters.contains p ↔ a.inputs.contains p := by
      rw [hshown,NamedAction.contains_shown]
      simp [hp]
    rw [hcontains,Catalog.count_warnings hfound hcatalog rfl]
    have htold : .unknownParameter n.name p ∈ found.mismatches m ↔ ¬a.inputs.contains p := by
      simp [Discovery.unknownParameter_mem_iff,he,ha,hp]
    by_cases hin : a.inputs.contains p <;> simp [hin,htold]
  case only =>
    intro w hw hmismatch
    have hmem : w ∈ found.mismatches m :=
      Catalog.filter_warnings hfound hcatalog ▸ List.mem_filter.mpr ⟨hw,hmismatch⟩
    cases w with
    | unknownAction name => exact .inl ⟨name,(Discovery.unknownAction_mem_iff.mp hmem).1,rfl⟩
    | unknownParameter name p =>
      obtain ⟨e,a,he,ha,hp,-⟩ := Discovery.unknownParameter_mem_iff.mp hmem
      have hlisted : m.actions.contains name := by simp [Dict.contains,he]
      obtain ⟨n,hn,rfl⟩ := (Catalog.exists_mem_iff_of_listed hfound hcatalog hlisted).mpr (by simp [ha])
      exact .inr ⟨n,hn,e,p,he,hp,rfl⟩
    | duplicateOperation => cases hmismatch
    | missingServer => cases hmismatch
  case actions => exact Catalog.generated_add_countP hfound hcatalog hm
  case parameters => exact Catalog.parameters_add_countP hfound hcatalog hm

open Console

/-- A mask that lists an action that there is none of, and a parameter by the alias of another one. -/
def strayMask : Mask where
  actions := .ofList [("run",{ parameters := .ofList [("p",{ nickname := some "r" }),("r",{})] }),("stop",{})]

/-- The action and the parameter that there are none of are told of once each. -/
theorem covers_mask_stray : ∃ g n, generate Listing.renamedDocument ∅ strayMask = .ok g ∧
    g.report.warnings.count (.unknownAction "stop") = 1 ∧ n ∈ g.catalog.actions ∧ n.name = "run" ∧
    n.parameters.contains "p" ∧ g.report.warnings.count (.unknownParameter "run" "p") = 0 ∧
    g.report.warnings.count (.unknownParameter "run" "r") = 1 := by
  have hfound : Discovery.ofDocument Listing.renamedDocument ∅ = .ok Listing.renamedFound := by cbv
  obtain ⟨g,hg⟩ : ∃ g, generate Listing.renamedDocument ∅ strayMask = .ok g := exists_generate hfound rfl
  obtain ⟨report,hcatalog⟩ := Catalog.of_generate hg hfound
  have hcovers := covers_mask _ _ _ g hg (by decide +kernel)
  have hstop : ¬∃ n ∈ g.catalog.actions, n.name = "stop" := by
    rw [Catalog.exists_mem_iff_of_listed hfound hcatalog (by decide +kernel)]
    decide +kernel
  obtain ⟨n,hn,hname⟩ : ∃ n ∈ g.catalog.actions, n.name = "run" := by
    rw [Catalog.exists_mem_iff_of_listed hfound hcatalog (by decide +kernel)]
    decide +kernel
  obtain ⟨e,a,he,ha,hshown⟩ := Catalog.exists_listed_of_mem hfound hcatalog (by decide +kernel) hn
  obtain ⟨e',he',hparameters⟩ := hcovers.parameter n hn
  rw [hname] at he he' ha hparameters
  cases he
  cases he'
  cases ha
  have hp : n.parameters.contains "p" := by
    rw [hshown]
    decide +kernel
  have hr : ¬n.parameters.contains "r" := by
    rw [hshown]
    decide +kernel
  refine ⟨g,n,hg,?_,hn,hname,hp,?_,?_⟩
  · exact ((hcovers.action "stop" (by decide +kernel)).resolve_left fun h => hstop h.1).2
  · exact ((hparameters "p" (by decide +kernel)).resolve_right fun h => h.1 hp).2
  · exact ((hparameters "r" (by decide +kernel)).resolve_left fun h => hr h.1).2

end ActionCatalog
