import ActionCatalog.Proofs.Body.Delivery
import ActionCatalog.Proofs.Discovery
import Mathlib

/-! Casts against the fields that values are typed into. Main statement: a parameter is cast as its field
wants exactly if the schema that its name leads to has the type of the one that the field was made from, or
is a text where that one gives a choice of texts. -/
namespace ActionCatalog.Body

namespace Form

/-- Every form is the one for some type. -/
lemma exists_ofType (f : Form) : ∃ t, f = ofType t := by
  cases f with
  | bare => exact ⟨some .string,rfl⟩
  | int => exact ⟨some .integer,rfl⟩
  | bool => exact ⟨some .boolean,rfl⟩
  | arr => exact ⟨some .array,rfl⟩
  | obj => exact ⟨none,rfl⟩

/-- The form for a field made from a schema. -/
lemma ofCategory_categoryOf (q : Schema) :
    ofCategory (Input.categoryOf q) = if q.options.isEmpty then ofType q.soleType? else bare := by
  simp only [Input.categoryOf]
  split
  · exact ofType_bind_ofType? _
  · rfl

end Form

lemma Leaf.category {c : Components} {start : Spot} {path : String} {q : Schema} {i : Input}
    (h : Leaf c start path q i) : i.category = Input.categoryOf q := by
  cases h
  rfl

/-- The forms in which a parameter stands in a body: only at the segments of its name, and only the one for
the type of the schema that they lead to. -/
lemma at?_members_eq_write_iff {c : Components} {s p : Schema} {names : List String} {ms : List (String × Value)}
    (h : members c s names [] = .ok ms) {name : String} (hdelivers : Delivers ms name)
    (hp : descend c s (segments name) = .ok (some p)) (path : List String) (f : Form) :
    (Value.object ms).at? path = some (f.write name) ↔ path = segments name ∧ f = Form.ofType p.soleType? := by
  obtain ⟨t,rfl⟩ := f.exists_ofType
  rw [← placeholder_eq_write,at?_members_eq_placeholder_iff h]
  constructor
  · rintro ⟨-,hpath,⟨q,hq,hform⟩,-⟩
    rw [hp] at hq
    cases hq
    rw [placeholder_eq_write,placeholder_eq_write] at hform
    exact ⟨hpath,(Form.write_inj hform).1⟩
  · rintro ⟨hpath,hform⟩
    obtain ⟨path',t',hat⟩ := hdelivers
    obtain ⟨hname,-,-,hlast⟩ := (at?_members_eq_placeholder_iff h).mp hat
    refine ⟨hname,hpath,⟨p,hp,?_⟩,hlast⟩
    rw [placeholder_eq_write,placeholder_eq_write,hform]

lemma bodyFields_eq_ok_iff {c : Components} {o : Operation} {payload : Payload} {s : Schema} {e : Expansion}
    (hp : o.defaultPayload? = some payload) (hs : payload.schema = some s) :
    Action.bodyFields c o = .ok e ↔ expand c s payload.required = .ok e := by
  simp [Action.bodyFields,hp,hs]

/-- A field of an action's body has the input of the last leaf of its name and, if it is delivered, one
placeholder, cast to the type of the schema that its segments lead to. The two agree exactly if that type
has the form of the leaf's, or is a text where the leaf gives a choice of texts. -/
theorem cast_agrees_iff (d : Document) (declared : DeclaredSecurity) (found : Discovery)
    (h : Discovery.ofDocument d declared = .ok found) (a : Action) (ha : a ∈ found.actions) (o : Operation)
    (ho : found.registry.get? a.name = some o) (payload : Payload) (hp : o.defaultPayload? = some payload)
    (s : Schema) (hs : payload.schema = some s) :
    ∃ e ms, expand d.components s payload.required = .ok e ∧
      members d.components s a.inputs.keys [] = .ok ms ∧
      template d.components s a.inputs.keys = .ok (Json.print (.object ms)) ∧
      ∀ name ∈ e.names, Delivers ms name → ∃ i q p, a.inputs.get? name = some i ∧
        e.fields.reverse.lookup name = some i ∧ Leaf d.components (.root s payload.required) name q i ∧
        descend d.components s (segments name) = .ok (some p) ∧
        (Whole d.components s → Walk d.components s (segments name) p) ∧
        (∀ path f, (Value.object ms).at? path = some (f.write name) ↔
          path = segments name ∧ f = Form.ofType p.soleType?) ∧
        (Form.ofType p.soleType? = Form.ofCategory i.category ↔
          Form.ofType p.soleType? = if q.options.isEmpty then Form.ofType q.soleType? else .bare) := by
  obtain ⟨o',e,ho',hfields,rfl⟩ := Discovery.exists_operation h ha
  rw [ho] at ho'
  cases ho'
  have he := (bodyFields_eq_ok_iff hp hs).mp hfields
  have sound := sound_of_expand he
  obtain ⟨ms,hms⟩ := exists_members sound (Action.inputsOf o e.fields).keys []
  refine ⟨e,ms,he,hms,Except.bind_eq_ok_iff.mpr ⟨ms,hms,rfl⟩,fun name hname hdelivers => ?_⟩
  obtain ⟨i,hi⟩ := Option.isSome_iff_exists.mp ((Dict.mem_keys_iff _ _).mp hname)
  have hlast : e.fields.reverse.lookup name = some i := by rw [← Dict.get?_ofList,hi]
  have hget : (Action.inputsOf o e.fields).get? name = some i := by
    rw [Action.inputsOf,Dict.get?_insertAll,hlast,Option.some_or]
  obtain ⟨q,leaf⟩ := (mem_expand_iff he name i).mp (Dict.mem_of_get?_ofList hi)
  obtain ⟨path,t,hat⟩ := hdelivers
  obtain ⟨-,-,⟨p,hp,-⟩,-⟩ := (at?_members_eq_placeholder_iff hms).mp hat
  refine ⟨i,q,p,hget,hlast,leaf,hp,fun whole => (descend_eq_some_iff sound whole).mp hp,?_,?_⟩
  · exact at?_members_eq_write_iff hms ⟨path,t,hat⟩ hp
  · rw [leaf.category,Form.ofCategory_categoryOf]

/-- A body composed of two parts that give one field different types. -/
def clash : Schema :=
  let part (t : DataType) : RefOr Schema := .inline { declared := [("x",.inline { types := some (.one t) })] }
  { allOf := [part .string,part .integer] }

def clashDocument : Document where
  paths := .ofList [("/run",{ operation := fun
    | .post => some { operationId := some "run", requestBody := some (.inline {
        content := .ofList [("application/json",some (.inline clash))] }) }
    | _ => none })]

def clashOperation : Operation where
  id := "run"
  method := .post
  path := "/run"
  summary := ""
  pathParameters := []
  queryParameters := []
  headerParameters := []
  cookieParameters := []
  payloads := [⟨"application/json",false,some clash,true⟩]
  bodyRequired := false
  security := []
  servers := []

def clashAction : Action where
  name := "run"
  description := ""
  path := "/run"
  inputs := .ofList [("x",{ category := some .integer })]

def clashFound : Discovery := ⟨{ operations := [clashOperation] },[clashAction],[]⟩

/-- The field is typed in as an integer, as the second part has it, and cast as the first part has it. -/
theorem cast_agrees_iff_clash : Discovery.ofDocument clashDocument ∅ = .ok clashFound ∧
    ∃ ms i, members {} clash clashAction.inputs.keys [] = .ok ms ∧ Delivers ms "x" ∧
      clashAction.inputs.get? "x" = some i ∧ i.category = some .integer ∧
      ∀ path f, (Value.object ms).at? path = some (f.write "x") → f ≠ Form.ofCategory i.category := by
  have hfound : Discovery.ofDocument clashDocument ∅ = .ok clashFound := by cbv
  obtain ⟨e,ms,he,hms,-,hcast⟩ := cast_agrees_iff clashDocument ∅ clashFound hfound clashAction
    (List.mem_singleton_self _) clashOperation (by rfl) _ rfl clash rfl
  have hnames : "x" ∈ e.names := by
    cases he
    decide +kernel
  have hdelivers : Delivers ms "x" := by
    cases hms
    exact ⟨["x"],some .string,by rfl⟩
  obtain ⟨i,q,p,hi,-,-,hp,-,hforms,-⟩ := hcast "x" hnames hdelivers
  have hcategory : i.category = some .integer := by
    cases hi
    rfl
  have hbare : Form.ofType p.soleType? = .bare := by
    cases hp
    rfl
  refine ⟨hfound,ms,i,hms,hdelivers,hi,hcategory,fun path f hat => ?_⟩
  rw [((hforms path f).mp hat).2,hbare,hcategory]
  decide

end ActionCatalog.Body
