import ActionCatalog.Action
import ActionCatalog.Dict.Lookup
import ActionCatalog.Proofs.Registry

/-! The actions found in a document. Main statement: they are the actions of its operations, one for each
id. -/
namespace ActionCatalog

lemma Action.ofOperation_eq_ok_iff {c : Components} {o : Operation} {a : Action} {cuts : List (List String)} :
    Action.ofOperation c o = .ok (a,cuts) ↔ ∃ e, Action.bodyFields c o = .ok e ∧ cuts = e.cuts ∧
      a = { name := o.id, description := o.summary, path := o.path, inputs := Action.inputsOf o e.fields } := by
  simp only [Action.ofOperation,Except.bind_eq_ok_iff,Except.pure_eq_ok,Except.ok.injEq,Prod.mk.injEq]
  constructor
  · rintro ⟨e,he,ha,hcuts⟩
    exact ⟨e,he,hcuts.symm,ha.symm⟩
  · rintro ⟨e,he,hcuts,ha⟩
    exact ⟨e,he,ha.symm,hcuts.symm⟩

namespace Discovery
variable {d : Document} {declared : DeclaredSecurity} {found : Discovery}

lemma extract_of_ofDocument (h : ofDocument d declared = .ok found) :
    Registry.extract d declared = .ok found.registry := by
  obtain ⟨r,hr,h⟩ := Except.bind_eq_ok_iff.mp h
  obtain ⟨actions,-,h⟩ := Except.bind_eq_ok_iff.mp h
  cases h
  exact hr

/-- The actions are those of the operations, sorted. -/
lemma exists_of_ofDocument (h : ofDocument d declared = .ok found) :
    found.registry.ids.Nodup ∧ ∃ actions,
      found.registry.operations.mapM (Action.ofOperation d.components) = .ok actions ∧
      found.actions = sort (actions.map (·.1)) := by
  obtain ⟨r,hr,h⟩ := Except.bind_eq_ok_iff.mp h
  obtain ⟨actions,ha,h⟩ := Except.bind_eq_ok_iff.mp h
  cases h
  exact ⟨Registry.nodup_ids_extract hr,actions,ha,rfl⟩

lemma names_of_mapM {c : Components} {os : List Operation} {actions : List (Action × List (List String))}
    (h : os.mapM (Action.ofOperation c) = .ok actions) :
    (actions.map (·.1)).map (·.name) = os.map (·.id) := by
  have hall := Except.mapM_eq_ok_iff.mp h
  clear h
  induction hall with
  | nil => rfl
  | cons hoa _ ih =>
    obtain ⟨e,-,-,ha⟩ := Action.ofOperation_eq_ok_iff.mp hoa
    rw [List.map_cons,List.map_cons,List.map_cons,ih,ha]

/-- The names of the actions are the ids of the operations. -/
theorem perm_names_ids (h : ofDocument d declared = .ok found) :
    (found.actions.map (·.name)).Perm found.registry.ids := by
  obtain ⟨-,actions,hall,hsort⟩ := exists_of_ofDocument h
  rw [hsort,Registry.ids,← names_of_mapM hall]
  exact (List.mergeSort_perm _ _).map _

/-- No two actions have one name. -/
theorem nodup_names (h : ofDocument d declared = .ok found) : (found.actions.map (·.name)).Nodup :=
  (perm_names_ids h).nodup_iff.mpr (exists_of_ofDocument h).1

/-- An action comes from the operation that is registered under its name. -/
theorem exists_operation (h : ofDocument d declared = .ok found) {a : Action} (ha : a ∈ found.actions) :
    ∃ o e, found.registry.get? a.name = some o ∧ Action.bodyFields d.components o = .ok e ∧
      a = { name := o.id, description := o.summary, path := o.path, inputs := Action.inputsOf o e.fields } := by
  obtain ⟨hids,actions,hall,hsort⟩ := exists_of_ofDocument h
  rw [hsort] at ha
  obtain ⟨x,hx,rfl⟩ := List.mem_map.mp ((List.mergeSort_perm _ _).mem_iff.mp ha)
  obtain ⟨o,ho,hox⟩ := (Except.mem_of_mapM_eq_ok hall x).mp hx
  obtain ⟨e,he,-,hxe⟩ := Action.ofOperation_eq_ok_iff.mp hox
  exact ⟨o,e,(Registry.get?_eq_some_iff hids).mpr ⟨ho,by rw [hxe]⟩,he,hxe⟩

/-- Where a document is discovered, the operations of each of its paths are built. -/
lemma exists_ofPath (h : ofDocument d declared = .ok found) {path : String} {item : Document.PathItem}
    (hpath : d.paths.get? path = some item) : ∃ os, Registry.ofPath d declared path item = .ok os := by
  obtain ⟨r,hr,-⟩ := Except.bind_eq_ok_iff.mp h
  obtain ⟨visited,hvisited,-⟩ := Except.map_eq_ok_iff.mp hr
  obtain ⟨built,hbuilt,-⟩ := Except.bind_eq_ok_iff.mp hvisited
  obtain ⟨os,-,hos⟩ := Except.exists_of_mapM_eq_ok hbuilt (path,item) ((Dict.mem_entries_iff _ _ _).mpr hpath)
  exact ⟨os,hos⟩

/-- The action under an id is that of the operation registered under it. -/
lemma exists_find?_actions (h : ofDocument d declared = .ok found) {id : String} {o : Operation}
    (ho : found.registry.get? id = some o) : ∃ a cuts, Action.ofOperation d.components o = .ok (a,cuts) ∧
      found.actions.find? (·.name == id) = some a := by
  obtain ⟨hids,actions,hall,hsort⟩ := exists_of_ofDocument h
  obtain ⟨hmem,hid⟩ := (Registry.get?_eq_some_iff hids).mp ho
  obtain ⟨⟨a,cuts⟩,ha,hoa⟩ := Except.exists_of_mapM_eq_ok hall o hmem
  obtain ⟨e,-,-,hae⟩ := Action.ofOperation_eq_ok_iff.mp hoa
  have hname : a.name = id := by rw [hae,hid]
  have hfound : a ∈ found.actions := by
    rw [hsort]
    exact (List.mergeSort_perm _ _).mem_iff.mpr (List.mem_map.mpr ⟨(a,cuts),ha,rfl⟩)
  exact ⟨a,cuts,hoa,(Keyed.find?_eq_some_iff (nodup_names h)).mpr ⟨hfound,hname⟩⟩

end Discovery
end ActionCatalog
