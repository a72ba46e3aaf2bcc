import ActionCatalog.Proofs.Body.Leaves
import ActionCatalog.Proofs.Discovery
import ActionCatalog.Proofs.Merging

/-! The inputs for the parameters of a path. Main statement: there is one for each of them, and it is required unless
a field of the body that is not required has its name. -/
namespace ActionCatalog

namespace Parameter

/-- A parameter of a path is required, whatever is said of it. -/
lemma required_ofDocument {p : Document.Parameter} {schema : Option Schema}
    (hl : (ofDocument p schema).location = .path) : (ofDocument p schema).required = true := by
  change p.location = .path at hl
  simp [ofDocument,hl]

variable {c : Components} {context : String}

lemma required_of_resolve {node : RefOr Document.Parameter} {p : Parameter} (h : resolve c context node = .ok p)
    (hl : p.location = .path) : p.required = true := by
  obtain ⟨q,-,h⟩ := Except.bind_eq_ok_iff.mp h
  split at h
  · cases h
    exact required_ofDocument hl
  · obtain ⟨s,-,h⟩ := Except.bind_eq_ok_iff.mp h
    cases h
    exact required_ofDocument hl

lemma required_of_mapM {nodes : List (RefOr Document.Parameter)} {ps : List Parameter}
    (h : nodes.mapM (resolve c context) = .ok ps) : ∀ p ∈ ps, p.location = .path → p.required = true := by
  intro p hp
  obtain ⟨node,-,hnode⟩ := (Except.mem_of_mapM_eq_ok h p).mp hp
  exact required_of_resolve hnode

end Parameter

section Extracted
variable {d : Document} {declared : DeclaredSecurity}

/-- What an operation has in its path is among its own parameters or the shared ones. -/
lemma Operation.required_of_build {path : String} {item : Document.PathItem} {shared : List Parameter} {method : Method}
    {source : Document.Operation} {o : Operation} (h : build d declared path item shared method source = .ok o)
    (hshared : ∀ g ∈ shared, g.location = .path → g.required = true) : ∀ p ∈ o.pathParameters, p.required = true := by
  obtain ⟨own,hown,-,hpath⟩ := exists_merged h
  intro p hp
  obtain ⟨hmerged,hl⟩ := List.mem_filter.mp (hpath.mem_iff.mp hp)
  rw [merge_eq] at hmerged
  rcases List.mem_append.mp hmerged with hp | hp
  · exact Parameter.required_of_mapM hown p hp (of_decide_eq_true hl)
  · have hinherited := (Parameter.firsts_sublist _).subset hp
    exact hshared p (List.mem_of_mem_filter hinherited) (of_decide_eq_true hl)

lemma Registry.required_of_extract {r : Registry} (h : extract d declared = .ok r) {o : Operation}
    (ho : o ∈ r.operations) : ∀ p ∈ o.pathParameters, p.required = true := by
  obtain ⟨path,item,shared,method,source,-,hshared,hbuild⟩ := exists_build h ho
  exact Operation.required_of_build hbuild (Parameter.required_of_mapM hshared)

end Extracted

/-- Of the parameters of one name those of the path count, and of all the fields of the body with that name the last. -/
lemma Action.exists_get?_inputsOf {o : Operation} {p : Parameter} (hp : p ∈ o.pathParameters)
    (fields : List (String × Input)) : ∃ q ∈ o.pathParameters, q.name = p.name ∧
      (inputsOf o fields).get? p.name = some ((fields.reverse.lookup p.name).getD q.input) := by
  have hentry : (p.name,p.input) ∈ o.pathParameters.map fun p => (p.name,p.input) := List.mem_map.mpr ⟨p,hp,rfl⟩
  obtain ⟨i,hi,hget⟩ := Dict.exists_mem_of_insertAll
    (.ofList ((o.queryParameters ++ o.headerParameters ++ o.cookieParameters).map fun p => (p.name,p.input))) hentry
  obtain ⟨q,hq,heq⟩ := List.mem_map.mp hi
  obtain ⟨hname,rfl⟩ := Prod.mk.inj heq
  refine ⟨q,hq,hname,?_⟩
  rw [inputsOf,Dict.get?_insertAll,Operation.parameters,List.map_append,Dict.ofList,Dict.insertAll_append,
    ← Dict.ofList,hget]
  cases fields.reverse.lookup p.name <;> rfl

/-- A leaf of the default body of an operation. -/
def Operation.BodyLeaf (c : Components) (o : Operation) (name : String) (i : Input) : Prop :=
  ∃ payload s leaf, o.defaultPayload? = some payload ∧ payload.schema = some s ∧
    Body.Leaf c (.root s payload.required) name leaf i

lemma Action.mem_bodyFields_iff {c : Components} {o : Operation} {e : Body.Expansion} (h : bodyFields c o = .ok e)
    (name : String) (i : Input) : (name,i) ∈ e.fields ↔ o.BodyLeaf c name i := by
  unfold Operation.BodyLeaf
  simp only [bodyFields] at h
  cases hp : o.defaultPayload? with
  | none =>
    rw [hp] at h
    cases h
    simp
  | some payload =>
    rw [hp] at h
    cases hs : payload.schema with
    | none =>
      simp only [hs] at h
      cases h
      simp [hs]
    | some s =>
      simp only [hs] at h
      rw [Body.mem_expand_iff h]
      simp [hs]

/-- Every parameter of the path of a registered operation is required, and the action of the operation has an input
under its name. The input is required exactly if no field of the body has that name, or the last one that has it is
required; the fields of the body are its leaves. -/
theorem Discovery.path_parameters_required_iff (d : Document) (declared : DeclaredSecurity) (found : Discovery)
    (h : ofDocument d declared = .ok found) (o : Operation) (ho : o ∈ found.registry.operations) (p : Parameter)
    (hp : p ∈ o.pathParameters) :
    p.required = true ∧ ∃ a e i, found.actions.find? (·.name == o.id) = some a ∧
      Action.bodyFields d.components o = .ok e ∧ a.inputs.get? p.name = some i ∧
      (∀ field, (p.name,field) ∈ e.fields ↔ o.BodyLeaf d.components p.name field) ∧
      (i.required = true ↔ ∀ field, e.fields.reverse.lookup p.name = some field → field.required = true) := by
  have hextract := extract_of_ofDocument h
  have hrequired := Registry.required_of_extract hextract ho
  have hregistered := (Registry.get?_eq_some_iff (Registry.nodup_ids_extract hextract)).mpr ⟨ho,rfl⟩
  obtain ⟨a,cuts,hoa,hfind⟩ := exists_find?_actions h hregistered
  obtain ⟨e,he,-,rfl⟩ := Action.ofOperation_eq_ok_iff.mp hoa
  obtain ⟨q,hq,-,hget⟩ := Action.exists_get?_inputsOf hp e.fields
  refine ⟨hrequired p hp,_,e,_,hfind,he,hget,Action.mem_bodyFields_iff he p.name,?_⟩
  cases e.fields.reverse.lookup p.name with
  | none => simpa [Parameter.input,Input.ofSchema] using hrequired q hq
  | some field => simp

/-- A path with two parameters, and a body that may be left out with a property named like one of them. -/
def teamDocument : Document where
  paths := .ofList [("/teams/{team}/members/{id}",{ operation := fun
    | .put => some {
        operationId := some "run"
        parameters := [.inline { name := "id", location := .path },.inline { name := "team", location := .path }]
        requestBody := some (.inline { content := .ofList [("application/json",some (.inline {
          declared := [("id",.inline { types := some (.one .string) })] }))] }) }
    | _ => none })]

/-- The input of the parameter that the body has no field for is required; that of the other one is the field's, and
may be left out. -/
theorem Discovery.path_parameters_required_iff_team : ∃ found a i j, ofDocument teamDocument ∅ = .ok found ∧
    found.actions.find? (·.name == "run") = some a ∧
    a.inputs.get? "team" = some i ∧ i.required = true ∧ a.inputs.get? "id" = some j ∧ j.required = false := by
  obtain ⟨found,o,team,id,field,hfound,hregistered,hid,hpath,⟨hteam,hsame⟩,hfields,hoptional⟩ :
      ∃ found o team id field, ofDocument teamDocument ∅ = .ok found ∧ found.registry.operations = [o] ∧
        o.id = "run" ∧ o.pathParameters = [team,id] ∧ (team.name = "team" ∧ id.name = "id") ∧
        Action.bodyFields teamDocument.components o = .ok ⟨[("id",field)],[]⟩ ∧ field.required = false :=
    ⟨_,_,_,_,_,by rfl,by rfl,by rfl,by rfl,⟨by rfl,by rfl⟩,by rfl,by rfl⟩
  have ho : o ∈ found.registry.operations := by simp [hregistered]
  have hrequired := path_parameters_required_iff teamDocument ∅ found hfound o ho
  obtain ⟨-,a,e,i,hfind,he,hi,-,hteamIff⟩ := hrequired team (by simp [hpath])
  obtain ⟨-,a',e',j,hfind',he',hj,-,hsameIff⟩ := hrequired id (by simp [hpath])
  rw [hfind] at hfind'
  cases hfind'
  rw [hfields] at he he'
  cases he
  cases he'
  rw [hid] at hfind
  rw [hteam] at hi hteamIff
  rw [hsame] at hj hsameIff
  refine ⟨found,a,i,j,hfound,hfind,hi,hteamIff.mpr ?_,hj,?_⟩
  · intro other hother
    cases hother
  · apply Bool.eq_false_iff.mpr
    intro hj'
    have hfield := hsameIff.mp hj' field rfl
    rw [hoptional] at hfield
    cases hfield

end ActionCatalog
