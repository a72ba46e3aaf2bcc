import ActionCatalog.Proofs.Console.Listing
import ActionCatalog.Proofs.Generation

/-! What a catalog exposes of the actions of a document. Main statement: it is exactly what the mask lists by
name, or everything where the mask lists nothing, shown as it was discovered unless the mask says otherwise. -/
namespace ActionCatalog

namespace Input

/-- An input is shown as it was discovered, apart from the name on display and what an entry of a mask sets. -/
structure ShownAs (i : Input) (p : Mask.Parameter) (shown : Input) : Prop where
  category : Mask.spoken p.type = none → shown.category = some (i.category.getD .json)
  description : p.description = none → shown.description = i.description
  placeholder : shown.placeholder = i.placeholder
  required : p.required = none → shown.required = i.required
  default : p.default = none → shown.default = i.default
  options : shown.options = i.options
  index : p.index = 0 → shown.index = i.index
  format : shown.format = i.format
  isMulti : p.isMulti = false → shown.isMulti = i.isMulti

lemma isSome_categorize (i : Input) : i.categorize.category.isSome := rfl

lemma shownAs_override (i : Input) (name : String) (p : Mask.Parameter) :
    i.ShownAs p (i.override name p).categorize where
  category h := by simp [categorize,override,h]
  description h := by simp [categorize,override,h]
  placeholder := rfl
  required h := by simp [categorize,override,h]
  default h := by simp [categorize,override,h]
  options := rfl
  index h := by simp [categorize,override,h]
  format := rfl
  isMulti h := by simp [categorize,override,h]

/-- An input on which a mask says nothing differs by no more than its name on display. -/
lemma shownAs_renamed (i : Input) (p : Mask.Parameter) (label : String) :
    i.ShownAs p { i with displayName := label }.categorize :=
  ⟨fun _ => rfl,fun _ => rfl,rfl,fun _ => rfl,fun _ => rfl,rfl,fun _ => rfl,rfl,fun _ => rfl⟩

end Input

namespace Mask

/-- What a mask says of an input under the names that were discovered; nothing where it has no such entry. -/
def entry (m : Mask) (action input : String) : Mask.Parameter :=
  ((m.actions.get? action).bind (·.parameters.get? input)).getD {}

lemma actionStatus_eq_excluded_iff {m : Mask} {name : String} :
    m.actionStatus name = "excluded" ↔ ¬m.Selects name := by
  simp only [actionStatus,Selects,Dict.contains]
  by_cases hempty : m.isEmpty
  · simp [hempty]
  · cases he : m.actions.get? name with
    | none => simp [hempty]
    | some e => simpa [hempty] using (aliasStatus_ne e.nickname).1

end Mask

/-- A shown input was discovered, has a category, and is shown as it was discovered unless the mask says otherwise. -/
lemma NamedAction.of_get?_shown {inputs : Dict Input} {m : Mask} {action input : String} {s : Input}
    (h : (shown inputs (m.actions.get? action)).get? input = some s) :
    s.category.isSome ∧ ∃ i, inputs.get? input = some i ∧ i.ShownAs (m.entry action input) s := by
  rw [shown,Dict.get?_filterMap] at h
  obtain ⟨i,hi,h⟩ := Option.bind_eq_some_iff.mp h
  cases he : m.actions.get? action with
  | none =>
    simp only [he] at h
    cases h
    exact ⟨Input.isSome_categorize _,i,hi,Input.shownAs_renamed i _ _⟩
  | some e =>
    simp only [he] at h
    obtain ⟨p,hp,rfl⟩ := Option.map_eq_some_iff.mp h
    have hentry : m.entry action input = p := by simp [Mask.entry,he,hp]
    rw [hentry]
    exact ⟨Input.isSome_categorize _,i,hi,Input.shownAs_override i input p⟩

namespace Console.Listing
variable {m : Mask} {found : Discovery} {a : Action}

lemma mem_rows_actions_iff {row : List String} : row ∈ (actions m found).rows ↔
    ∃ a ∈ found.actions, ∃ o, found.registry.get? a.name = some o ∧ row = actionRow m a o := by
  simp only [actions,List.mem_filterMap,Option.map_eq_some_iff,@eq_comm _ row]

/-- The row of an action ends with what the mask does to it. -/
lemma getLast?_of_mem_rows (hnodup : (found.actions.map (·.name)).Nodup) (ha : a ∈ found.actions)
    {row : List String} (hrow : row ∈ (actions m found).rows) (hname : row.head? = some a.name) :
    row.getLast? = some (m.actionStatus a.name) := by
  obtain ⟨b,hb,o,-,rfl⟩ := mem_rows_actions_iff.mp hrow
  have hab : b = a := List.inj_on_of_nodup_map hnodup hb ha (Option.some.inj hname)
  rw [← hab]
  rfl

end Console.Listing

namespace Catalog
open Console

/-- A catalog has an entry for an action exactly if the mask lists no action or this one by its name, and the list
of the actions says excluded of exactly the others. The inputs of an entry are those that were discovered and
that the mask, if it lists any action, lists by name; each has a category, and differs from what was discovered
in no more than what the mask sets and its name on display. -/
theorem exposes_selected (d : Document) (declared : DeclaredSecurity) (m : Mask) (g : Generation)
    (hg : generate d declared m = .ok g) :
    ∃ found, Discovery.ofDocument d declared = .ok found ∧ ∀ a ∈ found.actions,
      ((∃ n ∈ g.catalog.actions, n.name = a.name) ↔ m.Selects a.name) ∧
      (∃ row ∈ (Listing.actions m found).rows, row.head? = some a.name) ∧
      (∀ row ∈ (Listing.actions m found).rows, row.head? = some a.name →
        (row.getLast? = some "excluded" ↔ ¬∃ n ∈ g.catalog.actions, n.name = a.name)) ∧
      ∀ n ∈ g.catalog.actions, n.name = a.name →
        (∀ input, input ∈ n.parameters.keys ↔ input ∈ a.inputs.keys ∧ m.SelectsInput a.name input) ∧
        ∀ input shown, n.parameters.get? input = some shown → shown.category.isSome ∧
          ∃ i, a.inputs.get? input = some i ∧ i.ShownAs (m.entry a.name input) shown := by
  obtain ⟨found,report,hfound,hcatalog⟩ := exists_of_generate hg
  have hnodup := Discovery.nodup_names hfound
  refine ⟨found,hfound,fun a ha => ?_⟩
  have hselects := exists_mem_actions_iff hfound hcatalog ha
  refine ⟨hselects,?_,?_,?_⟩
  · obtain ⟨o,-,ho,-,-⟩ := Discovery.exists_operation hfound ha
    exact ⟨_,Listing.mem_rows_actions_iff.mpr ⟨a,ha,o,ho,rfl⟩,rfl⟩
  · intro row hrow hname
    rw [Listing.getLast?_of_mem_rows hnodup ha hrow hname,hselects,Option.some.injEq,
      Mask.actionStatus_eq_excluded_iff]
  · intro n hn hname
    have hentry := (mem_actions_and_name_iff hnodup hcatalog ha).mp ⟨hn,hname⟩
    have hshown := (of_entryOf hentry).2
    refine ⟨fun input => ?_,fun input s hs => ?_⟩
    · have hcontains := contains_input_iff hfound hcatalog ha input
      rw [Dict.mem_keys_iff,Dict.mem_keys_iff,← hcontains]
      constructor
      · intro hin
        exact ⟨n,hn,hname,hin⟩
      · rintro ⟨n',hn',hname',hin⟩
        have hentry' := (mem_actions_and_name_iff hnodup hcatalog ha).mp ⟨hn',hname'⟩
        rw [hentry] at hentry'
        cases hentry'
        exact hin
    · rw [hshown] at hs
      exact NamedAction.of_get?_shown hs

/-- What a mask lists under an alias is shown under its own name, and the alias exposes nothing. -/
theorem exposes_selected_renamedMask : ∃ g n shown, generate Listing.renamedDocument ∅ Listing.renamedMask = .ok g ∧
    n ∈ g.catalog.actions ∧ n.name = "run" ∧ "q" ∉ n.parameters.keys ∧
    n.parameters.get? "p" = some shown ∧ shown.category = some .json := by
  have hfound : Discovery.ofDocument Listing.renamedDocument ∅ = .ok Listing.renamedFound := by cbv
  obtain ⟨g,hg⟩ : ∃ g, generate Listing.renamedDocument ∅ Listing.renamedMask = .ok g := exists_generate hfound rfl
  obtain ⟨found,hfound',hall⟩ := exposes_selected _ _ _ g hg
  rw [hfound] at hfound'
  cases hfound'
  obtain ⟨hselected,-,-,hinputs⟩ := hall Listing.renamedAction (List.mem_singleton_self _)
  obtain ⟨n,hn,hname⟩ := hselected.mpr (.inr (by cbv))
  obtain ⟨hkeys,hshown⟩ := hinputs n hn hname
  have hq : "q" ∉ n.parameters.keys := by
    rw [hkeys]
    rintro ⟨-,hempty | ⟨e,he,hcontains⟩⟩
    · exact absurd hempty (by decide +kernel)
    · cases he
      exact absurd hcontains (by decide +kernel)
  have hp : "p" ∈ n.parameters.keys := (hkeys "p").mpr ⟨by decide +kernel,.inr ⟨_,rfl,by decide +kernel⟩⟩
  obtain ⟨s,hs⟩ := Option.isSome_iff_exists.mp ((Dict.mem_keys_iff _ _).mp hp)
  obtain ⟨-,i,hi,has⟩ := hshown "p" s hs
  cases hi
  exact ⟨g,n,s,hg,hn,hname,hq,hs,has.category (by cbv)⟩

end Catalog
end ActionCatalog
