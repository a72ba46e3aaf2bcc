import ActionCatalog.Proofs.Catalog

/-! When a catalog can be generated. Main statement: as soon as its document can be discovered, unless the mask
has a connection type that cannot be written. -/
namespace ActionCatalog
open Yaml Yaml.Writer

lemma entriesWritable_record (ms : List (String × Data)) :
    entriesWritable (ms.map fun e => (.text e.1,e.2)) = ms.all fun e => isWritable false e.2 := by
  induction ms with
  | nil => rfl
  | cons e ms ih => simp [entriesWritable,isWritable,ih]

/-- A map under text keys can be written if its values can be. -/
lemma isWritable_record (ms : List (String × Data)) :
    isWritable false (.record ms) = ms.all fun e => isWritable false e.2 := by
  rw [← entriesWritable_record,Data.record]
  match ms with
  | [] => rfl
  | [e] => simp [isWritable]
  | e :: e' :: rest => simp [isWritable]

lemma areWritable_eq (items : List Data) : areWritable items = items.all (isWritable false) := by
  induction items with
  | nil => rfl
  | cons v rest ih => simp [areWritable,ih]

lemma unlessEmpty_isWritable (name text : String) :
    (unlessEmpty name text).all (fun e => isWritable false e.2) = true := by
  rw [unlessEmpty]
  split <;> simp [isWritable]

lemma Input.isWritable_data (i : Input) : isWritable false i.data = true := by
  rw [Input.data,isWritable_record,Input.members]
  simp only [List.all_append,unlessEmpty_isWritable,Bool.and_true]
  cases i.category <;> by_cases ho : i.options.isEmpty <;> simp [isWritable,areWritable_eq,ho]

lemma NamedAction.isWritable_data (a : NamedAction) : isWritable false a.data = true := by
  rw [NamedAction.data,isWritable_record,NamedAction.members]
  have hparameters : isWritable false (a.parameters.data Input.data) = true := by
    simp [Dict.data,isWritable_record,Input.isWritable_data]
  have hvalues : isWritable false (a.values.data .text) = true := by
    simp [Dict.data,isWritable_record,isWritable]
  cases a.isConnectionOptional <;> simp [isWritable,hparameters,hvalues]

lemma Catalog.connectionTypes_of_ofDiscovery {c : Components} {m : Mask} {found : Discovery} {catalog : Catalog}
    {report : Report} (h : ofDiscovery c m found = .ok (catalog,report)) :
    catalog.connectionTypes = m.connectionTypes := by
  obtain ⟨entries,-,h⟩ := Except.bind_eq_ok_iff.mp h
  cases h
  rfl

lemma Catalog.print?_of_generate {d : Document} {declared : DeclaredSecurity} {m : Mask} {g : Generation}
    (hg : generate d declared m = .ok g) : g.catalog.print? = some g.text := by
  obtain ⟨found,-,hg⟩ := Except.bind_eq_ok_iff.mp hg
  obtain ⟨⟨catalog,report⟩,-,hg⟩ := Except.bind_eq_ok_iff.mp hg
  simp only at hg
  split at hg
  · cases hg
  · cases hg
    assumption

/-- A catalog can be written exactly if its connection types can be. -/
theorem Catalog.isSome_print?_iff (c : Catalog) :
    c.print?.isSome ↔ ∀ k v, c.connectionTypes.get? k = some v → isWritable false v = true := by
  have hactions : areWritable (c.actions.map NamedAction.data) = true := by
    simp [areWritable_eq,NamedAction.isWritable_data]
  have htypes : isWritable false (c.connectionTypes.data id) = true ↔
      ∀ k v, c.connectionTypes.get? k = some v → isWritable false v = true := by
    simp [Dict.data,isWritable_record,Dict.mem_entries_iff]
  have hdata : isWritable false c.data = isWritable false (c.connectionTypes.data id) := by
    rw [Catalog.data,isWritable_record]
    simp [Catalog.members,isWritable,hactions]
  have hprint : c.print?.isSome ↔ isWritable false c.data = true := by
    show (if isWritable false c.data then _ else _ : Option String).isSome ↔ _
    split <;> simp_all
  rw [hprint,hdata,htypes]

variable {d : Document} {declared : DeclaredSecurity} {m : Mask}

/-- A catalog is generated if its document is discovered and the connection types of the mask can be written. -/
theorem exists_generate_iff : (∃ g, generate d declared m = .ok g) ↔
    (∃ found, Discovery.ofDocument d declared = .ok found) ∧
      ∀ k v, m.connectionTypes.get? k = some v → isWritable false v = true := by
  constructor
  · rintro ⟨g,hg⟩
    obtain ⟨found,hfound,hg⟩ := Except.bind_eq_ok_iff.mp hg
    obtain ⟨⟨catalog,report⟩,hcatalog,hg⟩ := Except.bind_eq_ok_iff.mp hg
    refine ⟨⟨found,hfound⟩,?_⟩
    have htypes := Catalog.connectionTypes_of_ofDiscovery hcatalog
    rw [← htypes,← Catalog.isSome_print?_iff]
    cases hp : catalog.print? with
    | none => simp [hp] at hg
    | some text => rfl
  · rintro ⟨⟨found,hfound⟩,hwritable⟩
    obtain ⟨catalog,report,hcatalog,-⟩ := Catalog.exists_ofDiscovery hfound m
    rw [← Catalog.connectionTypes_of_ofDiscovery hcatalog,← Catalog.isSome_print?_iff] at hwritable
    obtain ⟨text,htext⟩ := Option.isSome_iff_exists.mp hwritable
    refine ⟨⟨catalog,text,report⟩,Except.bind_eq_ok_iff.mpr ⟨found,hfound,?_⟩⟩
    refine Except.bind_eq_ok_iff.mpr ⟨(catalog,report),hcatalog,?_⟩
    simp [htext]

lemma exists_generate {found : Discovery} (h : Discovery.ofDocument d declared = .ok found)
    (hm : m.connectionTypes = ∅) : ∃ g, generate d declared m = .ok g :=
  exists_generate_iff.mpr ⟨⟨found,h⟩,by simp [hm]⟩

end ActionCatalog
