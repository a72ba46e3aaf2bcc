import ActionCatalog.Dict.Lookup
import ActionCatalog.Proofs.Fallible
import ActionCatalog.Proofs.Keyed
import ActionCatalog.Registry

/-! Operations by their ids. Main statement: every id stands for one operation, however often it came up. -/
namespace ActionCatalog
variable {d : Document} {declared : DeclaredSecurity}

/-- What an operation takes from the place where it was built: its method, the parameters of its path in the order of
the tokens, and its security. -/
structure Operation.Built (d : Document) (declared : DeclaredSecurity) (path : String) (method : Method)
    (source : Document.Operation) (o : Operation) : Prop where
  method_eq : o.method = method
  arranged : ∃ parameters, PathTemplate.arrange Parameter.name o.path parameters = .ok o.pathParameters
  security_eq : o.security = Grant.ofRequirements (requirements d declared path method source)

/-- What an operation is built from: its own parameters, in place of or beside the shared ones, in the order of the
tokens where they are of the path, and its body. -/
lemma Operation.exists_of_build {path : String} {item : Document.PathItem} {shared : List Parameter} {method : Method}
    {source : Document.Operation} {o : Operation} (h : build d declared path item shared method source = .ok o) :
    ∃ own pathParameters payloads bodyRequired,
      source.parameters.mapM (Parameter.resolve d.components s!"{method.name} {path}") = .ok own ∧
      PathTemplate.arrange Parameter.name path ((merge own shared).filter (·.location = .path)) = .ok pathParameters ∧
      o = {
        id := source.operationId.getD (deriveId method.name path)
        method := method
        path := path
        summary := Text.firstOf source.summary source.description
        pathParameters := pathParameters
        queryParameters := (merge own shared).filter (·.location = .query)
        headerParameters := (merge own shared).filter (·.location = .header)
        cookieParameters := (merge own shared).filter (·.location = .cookie)
        payloads := payloads
        bodyRequired := bodyRequired
        security := Grant.ofRequirements (requirements d declared path method source)
        servers := firstNonEmpty [source.servers,item.servers,d.servers] } := by
  obtain ⟨own,hown,h⟩ := Except.bind_eq_ok_iff.mp h
  obtain ⟨pathParameters,hpath,h⟩ := Except.bind_eq_ok_iff.mp h
  dsimp only at h
  split at h
  · cases h
    exact ⟨own,pathParameters,_,_,hown,hpath,rfl⟩
  · obtain ⟨body,-,h⟩ := Except.bind_eq_ok_iff.mp h
    obtain ⟨payloads,-,h⟩ := Except.bind_eq_ok_iff.mp h
    cases h
    exact ⟨own,pathParameters,_,_,hown,hpath,rfl⟩

lemma Operation.built_of_build {path : String} {item : Document.PathItem} {shared : List Parameter} {method : Method}
    {source : Document.Operation} {o : Operation} (h : build d declared path item shared method source = .ok o) :
    o.Built d declared path method source := by
  obtain ⟨own,pathParameters,payloads,bodyRequired,-,hpath,rfl⟩ := exists_of_build h
  exact ⟨rfl,⟨_,hpath⟩,rfl⟩

namespace Registry

/-- The ids of a registry. -/
def ids (r : Registry) : List String := r.operations.map (·.id)

lemma map_id_place (o : Operation) (os : List Operation) :
    (place o os).map (·.id) =
      if o.id ∈ os.map (·.id) then os.map (·.id) else os.map (·.id) ++ [o.id] := by
  induction os with
  | nil => simp [place]
  | cons p rest ih =>
    simp only [place]
    by_cases h : p.id = o.id
    · simp [h]
    · rw [if_neg h,List.map_cons,ih]
      simp only [List.map_cons,List.mem_cons,Ne.symm h,false_or]
      split <;> rfl

lemma find?_place (o : Operation) (os : List Operation) (id : String) :
    (place o os).find? (·.id == id) = if o.id = id then some o else os.find? (·.id == id) := by
  induction os with
  | nil => by_cases h : o.id = id <;> simp [place,h]
  | cons p rest ih =>
    simp only [place]
    by_cases hp : p.id = o.id
    · rw [if_pos hp]
      by_cases h : o.id = id <;> simp [h,hp]
    · rw [if_neg hp,List.find?_cons,ih]
      by_cases h : o.id = id
      · have hne : p.id ≠ id := fun heq => hp (heq.trans h.symm)
        rw [beq_false_of_ne hne,if_pos h,if_pos h]
      · simp [h,List.find?_cons]

section Insert
variable (r : Registry) (o : Operation)

lemma ids_insert : (r.insert o).ids = if o.id ∈ r.ids then r.ids else r.ids ++ [o.id] := map_id_place o r.operations

theorem get?_insert (id : String) : (r.insert o).get? id = if o.id = id then some o else r.get? id :=
  find?_place o r.operations id

lemma warnings_insert : (r.insert o).warnings = r.warnings ++
    ((r.get? o.id).map fun old => .duplicateOperation o.id old.title o.title).toList := by
  simp only [insert]
  cases r.get? o.id <;> simp

end Insert

/-- Registering an operation keeps the ids distinct. -/
lemma nodup_ids_insert {r : Registry} (h : r.ids.Nodup) (o : Operation) : (r.insert o).ids.Nodup := by
  rw [ids_insert]
  split
  · exact h
  · rename_i hnew
    apply List.nodup_append_comm.mp
    exact List.nodup_cons.mpr ⟨hnew,h⟩

lemma nodup_ids_foldl (os : List Operation) {r : Registry} (h : r.ids.Nodup) : (os.foldl insert r).ids.Nodup := by
  induction os generalizing r with
  | nil => exact h
  | cons o os ih => exact ih (nodup_ids_insert h o)

theorem nodup_ids_extract {r : Registry} (h : extract d declared = .ok r) : r.ids.Nodup := by
  obtain ⟨os,-,rfl⟩ := Except.map_eq_ok_iff.mp h
  exact nodup_ids_foldl os List.nodup_nil

lemma mem_of_mem_place {o p : Operation} {os : List Operation} (h : p ∈ place o os) : p = o ∨ p ∈ os := by
  induction os with
  | nil => exact .inl (by simpa [place] using h)
  | cons q rest ih =>
    rw [place] at h
    split at h
    · exact (List.mem_cons.mp h).imp_right (.tail _)
    · rcases List.mem_cons.mp h with rfl | h
      · exact .inr List.mem_cons_self
      · exact (ih h).imp_right (.tail _)

lemma mem_of_mem_foldl {o : Operation} {os : List Operation} {r : Registry} (h : o ∈ (os.foldl insert r).operations) :
    o ∈ os ∨ o ∈ r.operations := by
  induction os generalizing r with
  | nil => exact .inr h
  | cons p os ih =>
    rcases ih h with hmem | hmem
    · exact .inl (.tail _ hmem)
    · rcases mem_of_mem_place hmem with rfl | hmem
      · exact .inl List.mem_cons_self
      · exact .inr hmem

/-- An extracted operation was built at some path, with the parameters that are shared there. -/
theorem exists_build {r : Registry} (h : extract d declared = .ok r) {o : Operation} (ho : o ∈ r.operations) :
    ∃ path item shared method source, d.paths.get? path = some item ∧
      item.parameters.mapM (Parameter.resolve d.components path) = .ok shared ∧
      Operation.build d declared path item shared method source = .ok o := by
  obtain ⟨os,hos,rfl⟩ := Except.map_eq_ok_iff.mp h
  obtain ⟨built,hbuilt,hflat⟩ := Except.bind_eq_ok_iff.mp hos
  cases hflat
  have hmem : o ∈ built.flatten := (mem_of_mem_foldl ho).resolve_right (by simp)
  obtain ⟨those,hthose,ho⟩ := List.mem_flatten.mp hmem
  obtain ⟨⟨path,item⟩,hentry,hpath⟩ := (Except.mem_of_mapM_eq_ok hbuilt those).mp hthose
  obtain ⟨shared,hshared,hvisits⟩ := Except.bind_eq_ok_iff.mp hpath
  obtain ⟨⟨method,source⟩,-,hbuild⟩ := (Except.mem_of_mapM_eq_ok hvisits o).mp ho
  exact ⟨path,item,shared,method,source,(Dict.mem_entries_iff _ _ _).mp hentry,hshared,hbuild⟩

theorem exists_built {r : Registry} (h : extract d declared = .ok r) {o : Operation} (ho : o ∈ r.operations) :
    ∃ path method source, o.Built d declared path method source := by
  obtain ⟨path,_,_,method,source,-,-,hbuild⟩ := exists_build h ho
  exact ⟨path,method,source,Operation.built_of_build hbuild⟩

/-- What is found under an id is the operation with that id. -/
theorem get?_eq_some_iff {r : Registry} (h : r.ids.Nodup) {id : String} {o : Operation} :
    r.get? id = some o ↔ o ∈ r.operations ∧ o.id = id := Keyed.find?_eq_some_iff h

end Registry
end ActionCatalog
