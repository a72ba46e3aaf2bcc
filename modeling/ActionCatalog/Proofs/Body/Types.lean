import ActionCatalog.Proofs.Body.Delivery

/-! Types of schemas. Where a body leads does not depend on them. Main statement: a type that is listed alone is lost,
to the field that is made from its schema and to every body that leads there. -/
namespace ActionCatalog

namespace Schema

mutual
/-- A schema without its type, and without those of the schemas inside it. -/
def untyped : Schema → Schema
  | ⟨_,allOf,anyOf,oneOf,declared,required,choices,preset,sample,description,format⟩ =>
    ⟨none,listUntyped allOf,listUntyped anyOf,listUntyped oneOf,entriesUntyped declared,required,choices,preset,
      sample,description,format⟩

def nodeUntyped : RefOr Schema → RefOr Schema
  | .reference target note => .reference target note
  | .inline s => .inline s.untyped

def listUntyped : List (RefOr Schema) → List (RefOr Schema)
  | [] => []
  | n :: rest => nodeUntyped n :: listUntyped rest

def entriesUntyped : List (String × RefOr Schema) → List (String × RefOr Schema)
  | [] => []
  | (name,n) :: rest => (name,nodeUntyped n) :: entriesUntyped rest
end

mutual
lemma depth_untyped : (s : Schema) → s.untyped.depth = s.depth
  | ⟨_,allOf,anyOf,oneOf,declared,_,_,_,_,_,_⟩ => by
    rw [untyped,depth,depth,listDepth_untyped allOf,listDepth_untyped anyOf,listDepth_untyped oneOf,
      entriesDepth_untyped declared]

lemma nodeDepth_untyped : (node : RefOr Schema) → nodeDepth (nodeUntyped node) = nodeDepth node
  | .reference _ _ => by rw [nodeUntyped]
  | .inline s => by rw [nodeUntyped,nodeDepth,nodeDepth,depth_untyped s]

lemma listDepth_untyped : (nodes : List (RefOr Schema)) → listDepth (listUntyped nodes) = listDepth nodes
  | [] => by rw [listUntyped]
  | n :: rest => by rw [listUntyped,listDepth,listDepth,nodeDepth_untyped n,listDepth_untyped rest]

lemma entriesDepth_untyped : (es : List (String × RefOr Schema)) →
    entriesDepth (entriesUntyped es) = entriesDepth es
  | [] => by rw [entriesUntyped]
  | (_,n) :: rest => by rw [entriesUntyped,entriesDepth,entriesDepth,nodeDepth_untyped n,entriesDepth_untyped rest]
end

lemma listUntyped_eq_map (nodes : List (RefOr Schema)) : listUntyped nodes = nodes.map nodeUntyped := by
  induction nodes with
  | nil => rw [listUntyped,List.map_nil]
  | cons n rest ih => rw [listUntyped,List.map_cons,ih]

lemma entriesUntyped_eq_map (es : List (String × RefOr Schema)) :
    entriesUntyped es = es.map fun e => (e.1,nodeUntyped e.2) := by
  induction es with
  | nil => rw [entriesUntyped,List.map_nil]
  | cons e rest ih => rw [entriesUntyped,List.map_cons,ih]

lemma branches_untyped (s : Schema) : s.untyped.branches = s.branches.map nodeUntyped := by
  obtain ⟨_,allOf,anyOf,oneOf,declared,_,_,_,_,_,_⟩ := s
  simp only [untyped,branches,listUntyped_eq_map,List.map_append]

lemma get?_properties_untyped (s : Schema) (name : String) :
    s.untyped.properties.get? name = (s.properties.get? name).map nodeUntyped := by
  obtain ⟨_,allOf,anyOf,oneOf,declared,_,_,_,_,_,_⟩ := s
  simp only [untyped,properties,entriesUntyped_eq_map,Dict.get?_ofList,← List.map_reverse]
  induction declared.reverse with
  | nil => rfl
  | cons e rest ih =>
    rw [List.map_cons,Dict.lookup_cons,Dict.lookup_cons,ih]
    split <;> rfl

end Schema

/-- The schemas among components, without types. -/
def Components.untyped (c : Components) : Components where
  schemas := c.schemas.map fun _ => Schema.nodeUntyped

section Following
open Schema

lemma target_nodeUntyped (node : RefOr Schema) : (nodeUntyped node).target = node.target := by
  cases node with
  | reference target note => rw [nodeUntyped]
  | inline s => rw [nodeUntyped,RefOr.target,RefOr.target]

lemma follow_untyped (table : Dict (RefOr Schema)) (n : Nat) (target : String) :
    RefOr.follow .schema (table.map fun _ => nodeUntyped) n target =
      Schema.untyped <$> RefOr.follow .schema table n target := by
  induction n generalizing target with
  | zero => rfl
  | succ n ih =>
    rw [RefOr.follow,RefOr.follow]
    cases Pointer.nameOf .schema target with
    | error o => rfl
    | ok name =>
      simp only [bind,Except.bind,Dict.get?_map]
      cases table.get? name with
      | none => rfl
      | some node =>
        cases node with
        | inline v => simp only [Option.map_some,nodeUntyped]; rfl
        | reference next note => simpa only [Option.map_some,nodeUntyped] using ih next

lemma schema_untyped (c : Components) (node : RefOr Schema) :
    c.untyped.schema (nodeUntyped node) = Schema.untyped <$> c.schema node := by
  cases node with
  | inline s => rw [nodeUntyped]; rfl
  | reference target note =>
    have hsize : c.untyped.schemas.size = c.schemas.size := List.length_map _
    simp only [Components.schema,nodeUntyped,RefOr.resolve,hsize]
    exact follow_untyped c.schemas _ target

end Following

namespace Body
open Schema

/-- What a search has come to, without types. -/
def Search.untyped (r : Search) : Search := ⟨r.found.map Schema.untyped,r.seen⟩

variable (c : Components)

lemma tryResolve_untyped (place : String) (node : RefOr Schema) :
    tryResolve c.untyped place (nodeUntyped node) = Option.map Schema.untyped <$> tryResolve c place node := by
  rw [tryResolve,tryResolve,schema_untyped,target_nodeUntyped]
  cases c.schema node with
  | ok s => rfl
  | error o => cases o <;> rfl

section Searching
variable {f f' : List String → RefOr Schema → Except Failure Search}

lemma firstFound_untyped (h : ∀ seen node, f' seen (nodeUntyped node) = Search.untyped <$> f seen node)
    (seen : List String) (nodes : List (RefOr Schema)) :
    firstFound f' seen (nodes.map nodeUntyped) = Search.untyped <$> firstFound f seen nodes := by
  induction nodes generalizing seen with
  | nil => rfl
  | cons node rest ih =>
    rw [List.map_cons,firstFound,firstFound,h]
    refine Except.bind_map_eq fun r => ?_
    obtain ⟨found,seen⟩ := r
    cases found with
    | some p => rfl
    | none => exact ih seen

end Searching

/-- To go on from what a node leads to respects types if what comes next does. -/
lemma tryResolve_bind_untyped {f f' : Option Schema → Except Failure Search} {node node' : RefOr Schema}
    (hnode : nodeUntyped node = node') (hsome : ∀ s, f' (some s.untyped) = Search.untyped <$> f (some s))
    (hnone : f' none = Search.untyped <$> f none) (place : String) :
    (tryResolve c.untyped place node' >>= f') = Search.untyped <$> (tryResolve c place node >>= f) := by
  rw [← hnode,tryResolve_untyped]
  refine Except.bind_map_eq fun found => ?_
  cases found with
  | none => exact hnone
  | some s => exact hsome s

lemma visit_untyped (name : String) {go go' : List String → Schema → Except Failure Search}
    (h : ∀ seen s, go' seen s.untyped = Search.untyped <$> go seen s) (seen : List String) (node : RefOr Schema) :
    visit c.untyped name go' seen (nodeUntyped node) = Search.untyped <$> visit c name go seen node := by
  cases node with
  | inline s =>
    rw [nodeUntyped]
    exact tryResolve_bind_untyped c (by rw [nodeUntyped]) (h seen) rfl (place name)
  | reference target note =>
    have hnode : nodeUntyped (.reference target note) = .reference target note := by rw [nodeUntyped]
    rw [nodeUntyped,visit,visit]
    cases Pointer.localName target with
    | malformed => rfl
    | elsewhere => exact tryResolve_bind_untyped c hnode (h seen) rfl (place name)
    | named ref =>
      by_cases hmem : ref ∈ seen
      · simp only [if_pos hmem]
        rfl
      · simp only [if_neg hmem]
        exact tryResolve_bind_untyped c hnode (h (ref :: seen)) rfl (place name)

theorem searchTo_untyped (name : String) (n : Nat) (seen : List String) (s : Schema) :
    searchTo c.untyped name n seen s.untyped = Search.untyped <$> searchTo c name n seen s := by
  induction n generalizing seen s with
  | zero => rfl
  | succ n ih =>
    rw [searchTo,searchTo,get?_properties_untyped,branches_untyped]
    cases s.properties.get? name with
    | none => exact firstFound_untyped (visit_untyped c name ih) seen s.branches
    | some node =>
      simp only [Option.map_some,tryResolve_untyped]
      exact Except.bind_map_eq fun found => rfl

lemma budget_untyped (s : Schema) : budget c.untyped s.untyped = budget c s := by
  have hvalues : c.untyped.schemas.values.map nodeDepth = c.schemas.values.map nodeDepth := by
    simp only [Components.untyped,Dict.values,Dict.map,List.map_map]
    exact List.map_congr_left fun e _ => nodeDepth_untyped e.2
  have hsize : c.untyped.schemas.size = c.schemas.size := List.length_map _
  rw [budget,budget,hvalues,hsize,depth_untyped]

/-- Where a path leads does not depend on types. -/
theorem descend_untyped (s : Schema) (path : List String) :
    descend c.untyped s.untyped path = Option.map Schema.untyped <$> descend c s path := by
  induction path generalizing s with
  | nil => rfl
  | cons name rest ih =>
    have hproperty : property? c.untyped s.untyped name = Option.map Schema.untyped <$> property? c s name := by
      rw [property?,property?,searchTo_untyped,budget_untyped]
      exact Except.bind_map_eq fun r => rfl
    rw [descend,descend,hproperty]
    refine Except.bind_map_eq fun found => ?_
    cases found with
    | none => rfl
    | some p => exact ih p

end Body

namespace Schema

/-- The schema with one type, whatever it had. -/
def withType (s : Schema) (t : DataType) : Schema := { s with types := some (.one t) }

/-- The schema with a list of types. -/
def withTypes (s : Schema) (ts : List DataType) : Schema := { s with types := some (.several ts) }

variable (s : Schema) (t : DataType)

lemma soleType?_withType : (s.withType t).soleType? = some t := rfl

/-- A list of types gives one exactly if it is a pair of that one and null. -/
lemma soleType?_withTypes_iff (ts : List DataType) :
    (s.withTypes ts).soleType? = some t ↔ t ≠ .null ∧ (ts = [t,.null] ∨ ts = [.null,t]) := by
  simp only [soleType?,withTypes]
  constructor
  · intro h
    split at h
    · rename_i u hfilter
      split at h
      · rename_i hlength
        cases h
        have hmem : t ∈ ts.filter (· ≠ .null) := hfilter ▸ List.mem_singleton_self t
        have hne : t ≠ .null := of_decide_eq_true (List.mem_filter.mp hmem).2
        obtain ⟨a,b,rfl⟩ := List.length_eq_two.mp hlength
        refine ⟨hne,?_⟩
        by_cases ha : a = .null <;> by_cases hb : b = .null
        · simp [ha,hb] at hfilter
        · have hother : b = t := by simpa [ha,hb] using hfilter
          exact .inr (by rw [ha,hother])
        · have hother : a = t := by simpa [ha,hb] using hfilter
          exact .inl (by rw [hb,hother])
        · simp [ha,hb] at hfilter
      · cases h
    · cases h
  · rintro ⟨hne,rfl | rfl⟩
    · simp [hne]
    · simp [hne]

/-- A type that is listed alone is none. -/
lemma soleType?_alone : (s.withTypes [t]).soleType? = none := by
  refine Option.eq_none_iff_forall_ne_some.mpr fun u hu => ?_
  rcases ((soleType?_withTypes_iff s u [t]).mp hu).2 with h | h <;> cases h

end Schema

section Texts

lemma length_le_escape (cs : List Char) : cs.length ≤ (cs.flatMap Json.escapeChar).length := by
  induction cs with
  | nil => exact Nat.le_refl 0
  | cons c cs ih =>
    have hone : 1 ≤ (Json.escapeChar c).length := by
      simp only [Json.escapeChar]
      repeat' split
      all_goals simp
    rw [List.flatMap_cons,List.length_cons,List.length_append]
    omega

/-- A text is no longer than what is written for it. -/
lemma length_plain_le (v : Value) : v.plain.toList.length ≤ (Json.text v).length := by
  cases v with
  | null => simp [Value.plain]
  | text s =>
    have hle := length_le_escape s.toList
    simp only [Value.plain,Json.text,Json.quote,List.length_cons,List.length_append]
    omega
  | bool b => simp [Value.plain,Json.print]
  | number n => simp [Value.plain,Json.print]
  | list items => simp [Value.plain,Json.print]
  | object members => simp [Value.plain,Json.print]

lemma length_join_le (items : List Value) :
    (",".intercalate (items.map Value.plain)).toList.length ≤ (Json.itemsText items).length := by
  induction items with
  | nil => simp
  | cons v rest ih =>
    have hv := length_plain_le v
    cases rest with
    | nil => simpa [Json.itemsText] using hv
    | cons w rest =>
      simp only [List.map_cons,String.intercalate_cons_cons,String.toList_append,List.length_append,
        Json.itemsText,List.length_cons] at ih ⊢
      have hcomma : ",".toList.length = 1 := rfl
      omega

/-- The joined texts of a list are not what is written for it, which has brackets besides. -/
lemma join_ne_plain (items : List Value) : ",".intercalate (items.map Value.plain) ≠ (Value.list items).plain := by
  intro h
  have hle := length_join_le items
  rw [h] at hle
  simp only [Value.plain,Json.print,Json.text,String.toList_ofList,List.length_append,List.length_cons] at hle
  omega

end Texts

namespace Input
open Schema
variable (s : Schema) (t : DataType)

lemma categoryOf_alone_iff : categoryOf (s.withType t) = categoryOf (s.withTypes [t]) ↔
    (s.options = [] → t = .null) := by
  have hoptions : (s.withTypes [t]).options = s.options := rfl
  have hoptions' : (s.withType t).options = s.options := rfl
  rw [categoryOf,categoryOf,hoptions,hoptions',soleType?_alone,soleType?_withType]
  by_cases h : s.options = []
  · cases t <;> simp [h,Category.ofType?]
  · simp [h]

lemma placeholderOf_alone_iff : placeholderOf (s.withType t) = placeholderOf (s.withTypes [t]) ↔
    (t = .object → ∀ text, s.sample.bind Value.asText? = some text → text = "") := by
  have hsample : (s.withTypes [t]).sample = s.sample := rfl
  have hsample' : (s.withType t).sample = s.sample := rfl
  rw [placeholderOf,placeholderOf,hsample,hsample',soleType?_alone,soleType?_withType]
  cases htext : s.sample.bind Value.asText? with
  | none => simp
  | some text =>
    by_cases hempty : text = ""
    · simp [hempty]
    · by_cases hobject : t = .object
      · have hlonger : text ≠ "Example: " ++ text := by
          intro h
          have hlength := congrArg String.length h
          rw [String.length_append] at hlength
          have : "Example: ".length = 9 := rfl
          omega
        simp [hempty,hobject,hlonger]
      · simp [hobject]

lemma defaultOf_alone_iff : defaultOf (s.withType t) = defaultOf (s.withTypes [t]) ↔
    (t = .array → ∀ v, s.preset = some v → v.plain = "") := by
  have hpreset : (s.withTypes [t]).preset = s.preset := rfl
  have hpreset' : (s.withType t).preset = s.preset := rfl
  rw [defaultOf,defaultOf,hpreset,hpreset',soleType?_alone,soleType?_withType]
  cases hv : s.preset with
  | none => simp
  | some v =>
    by_cases harray : t = .array
    · subst harray
      cases v with
      | list items =>
        have hbracket : (Value.list items).plain ≠ "" := by
          simp [Value.plain,Json.print,Json.text,← String.toList_inj]
        simp [join_ne_plain,hbracket]
      | _ => simp
    · cases t with
      | array => exact absurd rfl harray
      | _ => cases v <;> simp

end Input
namespace Body
open Schema
variable {c c' : Components} {s s' : Schema} {names : List String} {ms ms' : List (String × Value)}

/-- Bodies that differ in types only lead to the same schemas, apart from types. -/
lemma descend_congr (hc : c.untyped = c'.untyped) (hs : s.untyped = s'.untyped) (path : List String) :
    Option.map Schema.untyped <$> descend c s path = Option.map Schema.untyped <$> descend c' s' path := by
  rw [← descend_untyped,← descend_untyped,hc,hs]

lemma exists_descend_of_congr (hc : c.untyped = c'.untyped) (hs : s.untyped = s'.untyped) {path : List String}
    (h : ∃ p, descend c s path = .ok (some p)) : ∃ p', descend c' s' path = .ok (some p') := by
  obtain ⟨p,hp⟩ := h
  have heq := descend_congr hc hs path
  rw [hp] at heq
  obtain ⟨found,hfound,hmap⟩ := Except.map_eq_ok_iff.mp heq.symm
  obtain ⟨p',rfl,-⟩ := Option.map_eq_some_iff.mp hmap
  exact ⟨p',hfound⟩

lemma exists_members_of_congr (hc : c.untyped = c'.untyped) (hs : s.untyped = s'.untyped)
    (h : members c s names [] = .ok ms) : ∃ ms', members c' s' names [] = .ok ms' := by
  refine exists_members_iff.mpr fun name hname => ?_
  obtain ⟨leaf,hleaf⟩ := exists_members_iff.mp ⟨ms,h⟩ name hname
  have heq := descend_congr hc hs (segments name)
  rw [hleaf] at heq
  obtain ⟨leaf',hleaf',-⟩ := Except.map_eq_ok_iff.mp heq.symm
  exact ⟨leaf',hleaf'⟩

/-- A parameter stands in a body exactly if its name is among the given ones, leads to a schema and none of
them goes on from it to one. -/
lemma delivers_iff (h : members c s names [] = .ok ms) {name : String} : Delivers ms name ↔
    name ∈ names ∧ (∃ p, descend c s (segments name) = .ok (some p)) ∧
      ∀ other ∈ names, (∃ p, descend c s (segments other) = .ok (some p)) →
        segments name <+: segments other → segments name = segments other := by
  constructor
  · rintro ⟨path,t,hat⟩
    obtain ⟨hmem,-,⟨p,hp,-⟩,hlast⟩ := (at?_members_eq_placeholder_iff h).mp hat
    exact ⟨hmem,⟨p,hp⟩,hlast⟩
  · rintro ⟨hmem,⟨p,hp⟩,hlast⟩
    exact ⟨segments name,p.soleType?,(at?_members_eq_placeholder_iff h).mpr ⟨hmem,rfl,⟨p,hp,rfl⟩,hlast⟩⟩

/-- Bodies that differ in types only deliver the same parameters. -/
lemma Delivers.of_congr (hc : c.untyped = c'.untyped) (hs : s.untyped = s'.untyped)
    (h : members c s names [] = .ok ms) (h' : members c' s' names [] = .ok ms') {name : String}
    (hname : Delivers ms name) : Delivers ms' name := by
  obtain ⟨hmem,hp,hlast⟩ := (delivers_iff h).mp hname
  exact (delivers_iff h').mpr ⟨hmem,exists_descend_of_congr hc hs hp,fun other hother hq hprefix =>
    hlast other hother (exists_descend_of_congr hc.symm hs.symm hq) hprefix⟩

/-- A parameter that stands in a body stands at the segments of its name, cast to the type that they lead to. -/
lemma Delivers.at? (h : members c s names [] = .ok ms) {name : String} (hname : Delivers ms name) {p : Schema}
    (hp : descend c s (segments name) = .ok (some p)) :
    (Value.object ms).at? (segments name) = some (placeholder p.soleType? name) := by
  obtain ⟨hmem,-,hlast⟩ := (delivers_iff h).mp hname
  exact (at?_members_eq_placeholder_iff h).mpr ⟨hmem,rfl,⟨p,hp,rfl⟩,hlast⟩

lemma placeholder_alone_iff (s : Schema) (t : DataType) (name : String) :
    placeholder (s.withType t).soleType? name = placeholder (s.withTypes [t]).soleType? name ↔
      t = .object ∨ t = .null := by
  rw [soleType?_withType,soleType?_alone,placeholder_eq_write,placeholder_eq_write]
  constructor
  · intro h
    have hform := (Form.write_inj h).1
    cases t <;> simp [Form.ofType] at hform ⊢
  · rintro (rfl | rfl) <;> rfl

/-- A list of types gives one exactly if it is a pair with null, so that a type that is listed alone is lost. The field
of the schema stays what it is exactly if nothing in it depends on the type: neither its kind, nor how its placeholder
is announced, nor how a default is joined. Bodies that differ in types only deliver the same parameters; one that
leads to the type in one of them and to the list of it in the other is cast alike exactly if it is an object or null. -/
theorem listed_alone_iff (s : Schema) (t : DataType) :
    (∀ ts, (s.withTypes ts).soleType? = some t ↔ t ≠ .null ∧ (ts = [t,.null] ∨ ts = [.null,t])) ∧
    (∀ required description, Input.ofSchema (s.withType t) required description =
        Input.ofSchema (s.withTypes [t]) required description ↔
      (s.options = [] → t = .null) ∧
      (t = .object → ∀ text, s.sample.bind Value.asText? = some text → text = "") ∧
      (t = .array → ∀ v, s.preset = some v → v.plain = "")) ∧
    ∀ (c c' : Components) (body body' : Schema), c.untyped = c'.untyped → body.untyped = body'.untyped →
      ∀ names ms, members c body names [] = .ok ms → ∃ ms', members c' body' names [] = .ok ms' ∧
        ∀ name, (Delivers ms name ↔ Delivers ms' name) ∧
          (Delivers ms name → descend c body (segments name) = .ok (some (s.withType t)) →
            descend c' body' (segments name) = .ok (some (s.withTypes [t])) →
            ((Value.object ms).at? (segments name) = (Value.object ms').at? (segments name) ↔
              t = .object ∨ t = .null)) := by
  refine ⟨soleType?_withTypes_iff s t,fun required description => ?_,?_⟩
  · rw [← Input.categoryOf_alone_iff,← Input.placeholderOf_alone_iff,← Input.defaultOf_alone_iff]
    constructor
    · intro h
      exact ⟨congrArg Input.category h,congrArg Input.placeholder h,congrArg Input.default h⟩
    · rintro ⟨hcategory,hplaceholder,hdefault⟩
      rw [Input.ofSchema,Input.ofSchema,hcategory,hplaceholder,hdefault]
      rfl
  · intro c c' body body' hc hbody names ms h
    obtain ⟨ms',h'⟩ := exists_members_of_congr hc hbody h
    refine ⟨ms',h',fun name => ⟨⟨.of_congr hc hbody h h',.of_congr hc.symm hbody.symm h' h⟩,?_⟩⟩
    intro hname hp hp'
    rw [hname.at? h hp,(hname.of_congr hc hbody h h').at? h' hp',Option.some.injEq]
    exact placeholder_alone_iff s t name

/-- A body with one field. -/
def bodyOf (field : Schema) : Schema := { declared := [("x",.inline field)] }

/-- A text is cast to an object once its type is listed alone, and its field is of no kind. -/
theorem listed_alone_iff_text :
    (∀ required description, Input.ofSchema (Schema.withType {} .string) required description ≠
      Input.ofSchema (Schema.withTypes {} [.string]) required description) ∧
    ∃ ms ms', members {} (bodyOf (Schema.withType {} .string)) ["x"] [] = .ok ms ∧
      members {} (bodyOf (Schema.withTypes {} [.string])) ["x"] [] = .ok ms' ∧
      Delivers ms "x" ∧ Delivers ms' "x" ∧ (Value.object ms).at? ["x"] ≠ (Value.object ms').at? ["x"] := by
  obtain ⟨-,hfield,hbody⟩ := listed_alone_iff {} .string
  obtain ⟨ms,hms⟩ : ∃ ms, members {} (bodyOf (Schema.withType {} .string)) ["x"] [] = .ok ms := ⟨_,by rfl⟩
  obtain ⟨ms',hms',hnames⟩ := hbody {} {} (bodyOf (Schema.withType {} .string))
    (bodyOf (Schema.withTypes {} [.string])) rfl (by rfl) ["x"] ms hms
  have hdelivers : Delivers ms "x" := by
    cases hms
    exact ⟨["x"],some .string,by rfl⟩
  obtain ⟨hboth,hcast⟩ := hnames "x"
  refine ⟨fun required description heq => ?_,ms,ms',hms,hms',hdelivers,hboth.mp hdelivers,fun heq => ?_⟩
  · exact absurd (((hfield required description).mp heq).1 rfl) (by decide)
  · exact absurd ((hcast hdelivers (by rfl) (by rfl)).mp heq) (by decide)

end Body
end ActionCatalog
