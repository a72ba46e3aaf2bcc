import ActionCatalog.Proofs.Body.Leaves
import ActionCatalog.Proofs.Exposure

/-! Texts to choose from. Main statement: an input that offers any is a dropdown as it was discovered, and remains
one in a catalog unless the mask gives it another type. -/
namespace ActionCatalog

lemma Category.ofType?_ne_dropdown (t : DataType) : ofType? t ≠ some dropdown := by cases t <;> decide

lemma Category.ofText_eq_dropdown_iff {text : String} : ofText text = dropdown ↔ text = "dropdown" := by
  constructor
  · intro h
    simp only [ofText] at h
    split at h <;> simp_all
  · rintro rfl
    rfl

namespace Input

/-- Dropdowns, and no other inputs, offer texts to choose from. -/
def OffersAsDropdown (i : Input) : Prop := i.options ≠ [] ↔ i.category = some .dropdown

lemma offersAsDropdown_ofSchema (s : Schema) (required : Bool) (description : String) :
    (ofSchema s required description).OffersAsDropdown := by
  simp only [OffersAsDropdown,ofSchema,categoryOf]
  by_cases ho : s.options = []
  · have hcategory : s.soleType?.bind Category.ofType? ≠ some .dropdown := by
      cases s.soleType? with
      | none => simp
      | some t => exact Category.ofType?_ne_dropdown t
    simp [ho,hcategory]
  · simp [ho]

end Input

/-- The inputs of an operation are its parameters and the fields of its body. -/
lemma Action.of_get?_inputsOf {o : Operation} {fields : List (String × Input)} {name : String} {i : Input}
    (h : (inputsOf o fields).get? name = some i) :
    (∃ p ∈ o.parameters, p.name = name ∧ i = p.input) ∨ (name,i) ∈ fields := by
  rw [inputsOf,Dict.get?_insertAll] at h
  cases hl : fields.reverse.lookup name with
  | some j =>
    rw [hl] at h
    cases h
    exact .inr (List.mem_reverse.mp (Keyed.mem_of_lookup hl))
  | none =>
    rw [hl,Option.none_or] at h
    obtain ⟨p,hp,heq⟩ := List.mem_map.mp (Dict.mem_of_get?_ofList h)
    cases heq
    exact .inl ⟨p,hp,rfl,rfl⟩

/-- Every input that is discovered was made from a schema. -/
theorem Discovery.exists_ofSchema {d : Document} {declared : DeclaredSecurity} {found : Discovery}
    (h : ofDocument d declared = .ok found) {a : Action} (ha : a ∈ found.actions) {name : String} {i : Input}
    (hi : a.inputs.get? name = some i) : ∃ s required description, i = .ofSchema s required description := by
  obtain ⟨o,e,-,hfields,rfl⟩ := exists_operation h ha
  rcases Action.of_get?_inputsOf hi with ⟨p,-,-,rfl⟩ | hfield
  · exact ⟨_,_,_,rfl⟩
  · simp only [Action.bodyFields] at hfields
    split at hfields
    · cases hfields
      cases hfield
    · split at hfields
      · cases hfields
        cases hfield
      · obtain ⟨s,leaf⟩ := (Body.mem_expand_iff hfields name i).mp hfield
        cases leaf
        exact ⟨_,_,_,rfl⟩

/-- What is shown of an input is what was discovered, with what the mask says of it in place. -/
lemma NamedAction.eq_of_get?_shown {inputs : Dict Input} {m : Mask} {action input : String} {s : Input}
    (h : (shown inputs (m.actions.get? action)).get? input = some s) :
    ∃ i, inputs.get? input = some i ∧ s = (i.override input (m.entry action input)).categorize := by
  rw [shown,Dict.get?_filterMap] at h
  obtain ⟨i,hi,h⟩ := Option.bind_eq_some_iff.mp h
  refine ⟨i,hi,?_⟩
  cases he : m.actions.get? action with
  | none =>
    simp only [he] at h
    cases h
    simp [Input.categorize,Input.override,Mask.entry,he,Mask.spoken]
  | some e =>
    simp only [he] at h
    obtain ⟨p,hp,rfl⟩ := Option.map_eq_some_iff.mp h
    simp [Mask.entry,he,hp]

/-- The category of what is shown is that of the type that the mask names, and else the one there was. -/
lemma Input.category_categorize_override (i : Input) (name : String) (p : Mask.Parameter) :
    (i.override name p).categorize.category =
      some (((Mask.spoken p.type).map Category.ofText).getD (i.category.getD .json)) := by
  cases ht : Mask.spoken p.type <;> simp [categorize,override,ht]

namespace Catalog

/-- Of the inputs that are discovered, dropdowns and no others offer texts to choose from. An input of a catalog
offers what was discovered, and one that offers any text is a dropdown exactly if the mask gives it no other type. -/
theorem options_only_dropdown_iff (d : Document) (declared : DeclaredSecurity) (m : Mask) (g : Generation)
    (hg : generate d declared m = .ok g) (n : NamedAction) (hn : n ∈ g.catalog.actions) (name : String)
    (shown : Input) (hshown : n.parameters.get? name = some shown) :
    ∃ found a i, Discovery.ofDocument d declared = .ok found ∧ a ∈ found.actions ∧ a.name = n.name ∧
      a.inputs.get? name = some i ∧ i.OffersAsDropdown ∧ shown.options = i.options ∧
      ((shown.options ≠ [] → shown.category = some .dropdown) ↔ shown.options = [] ∨
        ∀ type, Mask.spoken (m.entry n.name name).type = some type → type = "dropdown") := by
  obtain ⟨found,report,hfound,hcatalog⟩ := exists_of_generate hg
  obtain ⟨a,ha,hentry⟩ := (mem_actions_iff hcatalog).mp hn
  obtain ⟨hname,hparameters⟩ := of_entryOf hentry
  rw [hparameters] at hshown
  obtain ⟨i,hi,heq⟩ := NamedAction.eq_of_get?_shown hshown
  obtain ⟨s,required,description,hschema⟩ := Discovery.exists_ofSchema hfound ha hi
  have hoffers : i.OffersAsDropdown := hschema ▸ Input.offersAsDropdown_ofSchema s required description
  have hoptions : shown.options = i.options := heq ▸ rfl
  refine ⟨found,a,i,hfound,ha,hname.symm,hi,hoffers,hoptions,?_⟩
  by_cases ho : shown.options = []
  · simp [ho]
  · have hdropdown : i.category = some .dropdown := hoffers.mp (hoptions ▸ ho)
    rw [heq,Input.category_categorize_override,hdropdown,hname,← heq]
    cases ht : Mask.spoken (m.entry a.name name).type with
    | none => simp
    | some type => simp [ho,Category.ofText_eq_dropdown_iff]

/-- A document with a parameter that takes one of two texts. -/
def choiceDocument : Document where
  paths := .ofList [("/run",{ operation := fun
    | .get => some { operationId := some "run", parameters := [.inline {
        name := "p", location := .query, schema := some (.inline { choices := [.text "a",.text "b"] }) }] }
    | _ => none })]

def choiceInput : Input := { category := some .dropdown, options := ["a","b"] }

def choiceOperation : Operation where
  id := "run"
  method := .get
  path := "/run"
  summary := ""
  pathParameters := []
  queryParameters := [⟨"p",.query,false,"",some { choices := [.text "a",.text "b"] }⟩]
  headerParameters := []
  cookieParameters := []
  payloads := []
  bodyRequired := false
  security := []
  servers := []

def choiceAction : Action where
  name := "run"
  description := ""
  path := "/run"
  inputs := .ofList [("p",choiceInput)]

def choiceFound : Discovery where
  registry := ⟨[choiceOperation],[]⟩
  actions := [choiceAction]
  cuts := []

/-- A mask under which the choice is a plain text. -/
def retypingMask : Mask where
  actions := .ofList [("run",{ parameters := .ofList [("p",{ type := some "string" })] })]

/-- The texts stay with the input although it is no dropdown any more. -/
theorem options_only_dropdown_iff_retyped : ∃ g n shown, generate choiceDocument ∅ retypingMask = .ok g ∧
    n ∈ g.catalog.actions ∧ n.parameters.get? "p" = some shown ∧ shown.options = ["a","b"] ∧
    shown.category ≠ some .dropdown := by
  have hfound : Discovery.ofDocument choiceDocument ∅ = .ok choiceFound := by cbv
  obtain ⟨g,hg⟩ : ∃ g, generate choiceDocument ∅ retypingMask = .ok g := exists_generate hfound rfl
  obtain ⟨report,hcatalog⟩ := of_generate hg hfound
  obtain ⟨n,hn,hname⟩ := (exists_mem_actions_iff hfound hcatalog (List.mem_singleton_self choiceAction)).mpr
    (.inr (by cbv))
  have hentry := (mem_actions_and_name_iff (Discovery.nodup_names hfound) hcatalog
    (List.mem_singleton_self choiceAction)).mp ⟨hn,hname⟩
  obtain ⟨shown,hshown⟩ : ∃ shown, n.parameters.get? "p" = some shown := by
    rw [(of_entryOf hentry).2]
    exact Option.isSome_iff_exists.mp (by decide +kernel)
  obtain ⟨found,a,i,hfound',ha,-,hi,-,hoptions,hiff⟩ :=
    options_only_dropdown_iff choiceDocument ∅ retypingMask g hg n hn "p" shown hshown
  rw [hfound] at hfound'
  cases hfound'
  cases List.mem_singleton.mp ha
  cases hi
  have htype : Mask.spoken (retypingMask.entry n.name "p").type = some "string" := by
    rw [hname]
    decide +kernel
  refine ⟨g,n,shown,hg,hn,hshown,hoptions,fun hcategory => ?_⟩
  rcases hiff.mp fun _ => hcategory with hnil | hall
  · simp [hoptions,choiceInput] at hnil
  · exact absurd (hall "string" htype) (by decide)

end Catalog
end ActionCatalog
