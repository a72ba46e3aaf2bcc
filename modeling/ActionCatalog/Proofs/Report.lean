import ActionCatalog.Proofs.Extraction
import ActionCatalog.Proofs.Generation
import Mathlib

/-! What the report of a catalog counts. Main statement: its counts balance, apart from traces, which come up twice
and are counted as duplicates of themselves. -/
namespace ActionCatalog

/-- Whether an operation took the place of another one. -/
def Warning.isDuplicate : Warning → Bool
  | duplicateOperation .. => true
  | _ => false

lemma Warning.not_isDuplicate_of_isMismatch {w : Warning} (h : w.isMismatch) : ¬w.isDuplicate := by
  intro hd
  cases w <;> cases h <;> cases hd

namespace Registry

/-- What a registry holds and tells of the operations that came up: each is either kept or told to be replaced. -/
structure Accounts (r : Registry) (n : Nat) : Prop where
  duplicate : ∀ w ∈ r.warnings, w.isDuplicate
  count : r.operations.length + r.warnings.length = n

lemma isSome_get?_iff {r : Registry} {id : String} : (r.get? id).isSome ↔ id ∈ r.ids := by
  simp [get?,ids,List.find?_isSome]

lemma Accounts.insert {r : Registry} {n : Nat} (h : r.Accounts n) (o : Operation) : (r.insert o).Accounts (n+1) := by
  have hids : ∀ r : Registry, r.operations.length = r.ids.length := fun r => (List.length_map _).symm
  have hcount := h.count
  rw [hids] at hcount
  cases hold : r.get? o.id with
  | none =>
    have hnew : o.id ∉ r.ids := by simp [← isSome_get?_iff,hold]
    refine ⟨?_,?_⟩
    · simpa [warnings_insert,hold] using h.duplicate
    · rw [hids,ids_insert,if_neg hnew,warnings_insert,hold]
      simp only [List.length_append,List.length_singleton,Option.map_none,Option.toList_none,List.length_nil]
      omega
  | some old =>
    have hmem : o.id ∈ r.ids := by simp [← isSome_get?_iff,hold]
    refine ⟨?_,?_⟩
    · intro w hw
      rw [warnings_insert,hold] at hw
      rcases List.mem_append.mp hw with hw | hw
      · exact h.duplicate w hw
      · cases List.mem_singleton.mp hw
        rfl
    · rw [hids,ids_insert,if_pos hmem,warnings_insert,hold]
      simp only [List.length_append,Option.map_some,Option.toList_some,List.length_singleton]
      omega

lemma accounts_foldl (os : List Operation) {r : Registry} {n : Nat} (h : r.Accounts n) :
    (os.foldl Registry.insert r).Accounts (n + os.length) := by
  induction os generalizing r n with
  | nil => exact h
  | cons o os ih =>
    have hstep := ih (h.insert o)
    rwa [Nat.add_right_comm,Nat.add_assoc] at hstep

theorem accounts_ofOperations (os : List Operation) : (ofOperations os).Accounts os.length := by
  have hempty : Accounts {} 0 := ⟨by simp,rfl⟩
  simpa [ofOperations] using accounts_foldl os hempty

end Registry

namespace Document

/-- The operations of a document by path and method, each once. -/
def operations (d : Document) : List (String × Method × Document.Operation) :=
  d.paths.entries.flatMap fun e => e.2.operations.map (e.1,·)

/-- How many operations of a document are traces. -/
def traces (d : Document) : Nat := d.operations.countP (·.2.1 = .trace)

lemma mem_operations_iff {d : Document} {path : String} {m : Method} {o : Document.Operation} :
    (path,m,o) ∈ d.operations ↔ ∃ item, d.paths.get? path = some item ∧ item.operation m = some o := by
  simp only [operations,List.mem_flatMap,Prod.exists,Dict.mem_entries_iff,List.mem_map,Prod.mk.injEq,
    PathItem.mem_operations_iff]
  constructor
  · rintro ⟨_,item,hitem,_,_,ho,rfl,rfl,rfl⟩
    exact ⟨item,hitem,ho⟩
  · rintro ⟨item,hitem,ho⟩
    exact ⟨path,item,hitem,m,o,ho,rfl,rfl,rfl⟩

lemma traces_eq_zero_iff {d : Document} :
    d.traces = 0 ↔ ∀ path item, d.paths.get? path = some item → item.operation .trace = none := by
  simp only [traces,List.countP_eq_zero,Prod.forall,mem_operations_iff,decide_eq_true_eq]
  constructor
  · intro h path item hitem
    by_contra hne
    obtain ⟨o,ho⟩ := Option.ne_none_iff_exists'.mp hne
    exact h path .trace o ⟨item,hitem,ho⟩ rfl
  · rintro h path _ o ⟨item,hitem,ho⟩ rfl
    rw [h path item hitem] at ho
    cases ho

end Document

lemma Method.length_flatMap_occurrences {α : Type} (xs : List (Method × α)) :
    (xs.flatMap fun x => x.1.occurrences x).length = xs.length + xs.countP (·.1 = .trace) := by
  induction xs with
  | nil => rfl
  | cons x xs ih =>
    rw [List.flatMap_cons,List.length_append,ih,List.length_cons,List.countP_cons]
    by_cases ht : x.1 = trace
    · simp [occurrences,ht]
      omega
    · simp [occurrences,ht]
      omega

namespace Registry
variable {d : Document} {declared : DeclaredSecurity}

lemma length_ofPath {path : String} {item : Document.PathItem} {os : List Operation}
    (h : ofPath d declared path item = .ok os) :
    os.length = item.operations.length + item.operations.countP (·.1 = .trace) := by
  obtain ⟨shared,-,h⟩ := Except.bind_eq_ok_iff.mp h
  rw [← (Except.mapM_eq_ok_iff.mp h).length_eq,Document.PathItem.visits_eq,Method.length_flatMap_occurrences]

/-- Each operation of a document comes up once, and a trace once more. -/
lemma length_visited {os : List Operation} (h : visited d declared = .ok os) :
    os.length = d.operations.length + d.traces := by
  obtain ⟨built,hbuilt,h⟩ := Except.bind_eq_ok_iff.mp h
  cases h
  have hall := Except.mapM_eq_ok_iff.mp hbuilt
  unfold Document.traces Document.operations
  clear h hbuilt
  generalize d.paths.entries = entries at hall ⊢
  induction hall with
  | nil => rfl
  | cons hpath _ ih =>
    have hone := length_ofPath hpath
    simp only [List.flatten_cons,List.length_append,List.flatMap_cons,List.length_map,List.countP_append,
      List.countP_map,ih,hone]
    simp only [Function.comp_def]
    omega

/-- The operations that are kept and the duplicates that are told make up those that came up. -/
theorem accounts_extract {r : Registry} (h : extract d declared = .ok r) :
    r.Accounts (d.operations.length + d.traces) := by
  obtain ⟨os,hos,rfl⟩ := Except.map_eq_ok_iff.mp h
  rw [← length_visited hos]
  exact accounts_ofOperations os

end Registry

namespace Discovery
variable {d : Document} {declared : DeclaredSecurity} {found : Discovery}

lemma accounts_registry (h : ofDocument d declared = .ok found) :
    found.registry.Accounts (d.operations.length + d.traces) := Registry.accounts_extract (extract_of_ofDocument h)

lemma exists_expansions_of_mapM {c : Components} {os : List Operation} {actions : List (Action × List (List String))}
    (h : os.mapM (Action.ofOperation c) = .ok actions) :
    ∃ es, os.mapM (Action.bodyFields c) = .ok es ∧ actions.flatMap (·.2) = es.flatMap (·.cuts) := by
  have hall := Except.mapM_eq_ok_iff.mp h
  clear h
  induction hall with
  | nil => exact ⟨[],rfl,rfl⟩
  | @cons o x os xs hox _ ih =>
    obtain ⟨es,hes,hcuts⟩ := ih
    obtain ⟨e,he,hcut,-⟩ := Action.ofOperation_eq_ok_iff.mp hox
    refine ⟨e :: es,?_,?_⟩
    · rw [Except.mapM_cons_ok he,hes]
      rfl
    · rw [List.flatMap_cons,List.flatMap_cons,hcut,hcuts]

/-- The chains that are cut are those of the bodies of the operations that are kept. -/
lemma exists_expansions (h : ofDocument d declared = .ok found) :
    ∃ es, found.registry.operations.mapM (Action.bodyFields d.components) = .ok es ∧
      found.cuts = es.flatMap (·.cuts) := by
  obtain ⟨r,-,h⟩ := Except.bind_eq_ok_iff.mp h
  obtain ⟨actions,hactions,h⟩ := Except.bind_eq_ok_iff.mp h
  cases h
  exact exists_expansions_of_mapM hactions

/-- The actions are in strictly ascending order of their names. -/
theorem pairwise_names (h : ofDocument d declared = .ok found) :
    (found.actions.map (·.name)).Pairwise (· < ·) := by
  obtain ⟨-,actions,-,hsort⟩ := exists_of_ofDocument h
  have hle : (found.actions.map (·.name)).Pairwise (· ≤ ·) := by
    rw [hsort,sort,List.pairwise_map]
    refine (List.pairwise_mergeSort (fun a b c => ?_) (fun a b => ?_) _).imp of_decide_eq_true
    · simpa using String.le_trans
    · simpa using String.le_total a.name b.name
  refine (hle.and (nodup_names h)).imp fun {a b} hab => ?_
  by_contra hlt
  exact hab.2 (String.le_antisymm hab.1 (String.not_lt.mp hlt))

end Discovery

/-- What a mask lists in vain is told as such. -/
lemma Discovery.isMismatch_of_mem {found : Discovery} {m : Mask} {w : Warning} (h : w ∈ found.mismatches m) :
    w.isMismatch := by
  obtain ⟨⟨name,e⟩,-,hw⟩ := List.mem_flatMap.mp h
  dsimp only at hw
  split at hw
  · cases List.mem_singleton.mp hw
    rfl
  · obtain ⟨p,-,rfl⟩ := List.mem_map.mp hw
    rfl

/-- Told of servers is that there are none for some operation. -/
def Registry.serverWarnings (r : Registry) : List Warning :=
  if r.operations.any (·.servers.isEmpty) then [.missingServer] else []

namespace Catalog
variable {c : Components} {m : Mask} {found : Discovery} {catalog : Catalog} {report : Report}

lemma foldl_addCycle (chains : List (List String)) (r : Report) : chains.foldl Report.addCycle r =
    { r with skipped := r.skipped + chains.length, cycles := r.cycles ++ chains } := by
  induction chains generalizing r with
  | nil => simp
  | cons chain chains ih =>
    rw [List.foldl_cons,ih]
    simp [Report.addCycle,Nat.add_comm,Nat.add_left_comm]

/-- Every entry is counted: as generated with its parameters, or as left out. -/
lemma foldl_tally (entries : List (Option NamedAction)) (r : Report) : entries.foldl tally r =
    { r with
      generated := r.generated + (entries.filterMap id).length
      filtered := r.filtered + (entries.length - (entries.filterMap id).length)
      parameters := r.parameters + ((entries.filterMap id).map (·.parameters.size)).sum } := by
  induction entries generalizing r with
  | nil => simp
  | cons entry entries ih =>
    have hle : (entries.filterMap fun e => e).length ≤ entries.length := List.length_filterMap_le _ entries
    rw [List.foldl_cons,ih]
    cases entry with
    | none =>
      simp [tally,Report.addFiltered]
      omega
    | some n =>
      simp [tally,Report.addGenerated]
      omega

/-- What is reported of a catalog. -/
theorem report_eq (h : ofDiscovery c m found = .ok (catalog,report)) :
    catalog.actions.length ≤ found.actions.length ∧ report =
      { extracted := found.registry.operations.length
        discovered := found.actions.length
        generated := catalog.actions.length
        filtered := found.actions.length - catalog.actions.length
        parameters := (catalog.actions.map (·.parameters.size)).sum
        skipped := found.cuts.length
        cycles := found.cuts
        warnings := found.registry.warnings ++ found.registry.serverWarnings ++ found.mismatches m } := by
  obtain ⟨entries,hentries,h⟩ := Except.bind_eq_ok_iff.mp h
  cases h
  have hlength : found.actions.length = entries.length := (Except.mapM_eq_ok_iff.mp hentries).length_eq
  refine ⟨hlength ▸ List.length_filterMap_le id entries,?_⟩
  rw [foldl_tally,survey,hlength]
  simp only [Registry.serverWarnings,foldl_addCycle]
  split <;> simp [Report.addWarnings,Report.addExtracted,Report.addDiscovered]

end Catalog

/-- The counts of a report agree with one another, with what was found in a document, and with the catalog. -/
structure Generation.Balances (g : Generation) (d : Document) (found : Discovery) : Prop where
  extracted : g.report.extracted = found.registry.operations.length
  discovered : g.report.extracted = g.report.discovered
  exposed : g.report.discovered = g.report.generated + g.report.filtered
  duplicates : g.report.extracted + g.report.warnings.countP (·.isDuplicate) = d.operations.length + d.traces
  generated : g.report.generated = g.catalog.actions.length
  parameters : g.report.parameters = (g.catalog.actions.map (·.parameters.size)).sum
  skipped : g.report.skipped = g.report.cycles.length
  cycles : ∃ es, found.registry.operations.mapM (Action.bodyFields d.components) = .ok es ∧
    g.report.cycles = es.flatMap (·.cuts)
  ascending : (g.catalog.actions.map (·.name)).Pairwise (· < ·)
  servers : g.report.warnings.count .missingServer ≤ 1 ∧
    (g.report.warnings.count .missingServer = 1 ↔ ∃ o ∈ found.registry.operations, o.servers = [])

section Told
variable {r : Registry} {n : Nat}

/-- All that is told of a catalog, but for the replacements, are missing servers and what is listed in vain. -/
lemma Registry.Accounts.countP_isDuplicate (h : r.Accounts n) {ws : List Warning} (hws : ∀ w ∈ ws, w.isMismatch) :
    (r.warnings ++ r.serverWarnings ++ ws).countP (·.isDuplicate) = r.warnings.length := by
  have hserver : r.serverWarnings.countP (·.isDuplicate) = 0 := by
    rw [Registry.serverWarnings]
    split <;> rfl
  have hnone : ws.countP (·.isDuplicate) = 0 := by
    exact List.countP_eq_zero.mpr fun w hw => Warning.not_isDuplicate_of_isMismatch (hws w hw)
  rw [List.countP_append,List.countP_append,hserver,hnone,List.countP_eq_length.mpr h.duplicate]
  rfl

lemma Registry.Accounts.count_missingServer (h : r.Accounts n) {ws : List Warning} (hws : ∀ w ∈ ws, w.isMismatch) :
    (r.warnings ++ r.serverWarnings ++ ws).count .missingServer = r.serverWarnings.length := by
  have hduplicates : r.warnings.count .missingServer = 0 := by
    refine List.count_eq_zero.mpr fun hw => ?_
    have hd := h.duplicate _ hw
    cases hd
  have hnone : ws.count .missingServer = 0 := by
    refine List.count_eq_zero.mpr fun hw => ?_
    have hm := hws _ hw
    cases hm
  have hserver : r.serverWarnings.count .missingServer = r.serverWarnings.length := by
    rw [Registry.serverWarnings]
    split <;> rfl
  rw [List.count_append,List.count_append,hduplicates,hnone,hserver,Nat.zero_add,Nat.add_zero]

end Told

/-- What is counted in a catalog and its document adds up, and each count is that of what it names. The operations
that are kept and the duplicates make up those of the document exactly if there is no trace among them. -/
theorem report_balances_iff (d : Document) (declared : DeclaredSecurity) (m : Mask) (g : Generation)
    (hg : generate d declared m = .ok g) :
    ∃ found, Discovery.ofDocument d declared = .ok found ∧ g.Balances d found ∧
      (g.report.extracted + g.report.warnings.countP (·.isDuplicate) = d.operations.length ↔
        ∀ path item, d.paths.get? path = some item → item.operation .trace = none) := by
  obtain ⟨found,hfound,hcatalog⟩ := Catalog.exists_ofDiscovery_of_generate hg
  obtain ⟨hle,hreport⟩ := Catalog.report_eq hcatalog
  obtain ⟨es,hes,hcuts⟩ := Discovery.exists_expansions hfound
  have haccounts := Discovery.accounts_registry hfound
  have hmismatch : ∀ w ∈ found.mismatches m, w.isMismatch := fun w => Discovery.isMismatch_of_mem
  have hlength : found.registry.operations.length = found.actions.length := by
    simpa [Registry.ids] using (Discovery.perm_names_ids hfound).length_eq.symm
  have hduplicates : g.report.extracted + g.report.warnings.countP (·.isDuplicate) =
      d.operations.length + d.traces := by
    rw [hreport]
    show found.registry.operations.length + List.countP _ _ = _
    rw [haccounts.countP_isDuplicate hmismatch,haccounts.count]
  have hservers : g.report.warnings.count .missingServer = found.registry.serverWarnings.length := by
    rw [hreport]
    exact haccounts.count_missingServer hmismatch
  refine ⟨found,hfound,?_,?_⟩
  · constructor
    case duplicates => exact hduplicates
    case cycles => exact ⟨es,hes,by rw [hreport,hcuts]⟩
    case ascending => exact (Discovery.pairwise_names hfound).sublist (Catalog.sublist_names hcatalog)
    case servers =>
      rw [hservers,Registry.serverWarnings]
      split <;> simp_all
    all_goals rw [hreport]
    case discovered => exact hlength
    case exposed =>
      show found.actions.length = g.catalog.actions.length + (found.actions.length - g.catalog.actions.length)
      omega
  · rw [hduplicates,← Document.traces_eq_zero_iff]
    omega

/-- A trace replaces another operation and then itself: one operation is kept of two, and two are told. -/
theorem report_balances_iff_traced : ∃ g, generate Registry.traced ∅ {} = .ok g ∧
    g.report.extracted + g.report.warnings.countP (·.isDuplicate) ≠ Registry.traced.operations.length := by
  obtain ⟨found,hfound⟩ : ∃ found, Discovery.ofDocument Registry.traced ∅ = .ok found := ⟨_,by rfl⟩
  obtain ⟨g,hg⟩ : ∃ g, generate Registry.traced ∅ {} = .ok g := exists_generate hfound rfl
  obtain ⟨-,-,-,hexact⟩ := report_balances_iff Registry.traced ∅ {} g hg
  refine ⟨g,hg,fun heq => ?_⟩
  have hnone := hexact.mp heq "/b" _ rfl
  cases hnone

end ActionCatalog
