import ActionCatalog.Proofs.Fault
import ActionCatalog.Proofs.Generation

/-! What the entries of a catalog run. Main statement: a catalog is generated exactly if its document is
discovered, and each of its entries runs the operation that is registered under its name. -/
namespace ActionCatalog
open Yaml.Writer

lemma Method.key_eq (m : Method) : m.key = .ofList (Text.lower m.name.toList) := by cases m <;> decide +kernel

namespace Expression

/-- The query of a URL written out: each name behind its mark, and what is put in for it. -/
def writtenQuery : List String → String
  | [] => ""
  | name :: names => "\x7b\x7b'?" ++ name ++ "=' + params." ++ name ++
      String.join (names.map fun name => " + '&" ++ name ++ "=' + params." ++ name) ++ "\x7d\x7d"

lemma intercalate_plus (x : String) (xs : List String) :
    " + ".intercalate (x :: xs) = x ++ String.join (xs.map (" + " ++ ·)) := by
  induction xs generalizing x with
  | nil => simp
  | cons y xs ih => simp [String.intercalate_cons_cons,ih,String.append_assoc]

lemma append_append_of_eq {a b ab : String} (h : a ++ b = ab) (rest : String) : a ++ (b ++ rest) = ab ++ rest := by
  rw [← String.append_assoc,h]

lemma getD_query (names : List String) : (query names).getD "" = writtenQuery names := by
  cases names with
  | nil => rfl
  | cons name names =>
    have hterm (mark : Char) (name : String) :
        queryTerm mark name = "'" ++ .ofList [mark] ++ name ++ "=' + params." ++ name := by
      simp only [queryTerm,parameter,String.append_assoc,
        append_append_of_eq (show "=' + " ++ "params." = "=' + params." by rfl)]
    simp [query,wrap,writtenQuery,intercalate_plus,hterm,String.append_assoc,Function.comp_def,
      append_append_of_eq (show "\x7b\x7b" ++ "'?" = "\x7b\x7b'?" by rfl),
      append_append_of_eq (show " + " ++ "'&" = " + '&" by rfl)]

lemma url_eq (host path : String) (names : List String) :
    url host path names = "\x7b\x7b" ++ host ++ " + " ++ path ++ "\x7d\x7d" ++ writtenQuery names := by
  simp [url,wrap,getD_query,String.append_assoc]

end Expression

/-- The text sent as a body: an empty object where there is no schema, and else its template for some names. -/
def Payload.HasText (p : Payload) (c : Components) (names : List String) (text : String) : Prop :=
  match p.schema with
  | none => text = "\x7b\x7d"
  | some s => Body.template c s names = .ok text

namespace NamedAction

/-- An entry runs an operation: it has the operation's id, method and default body, and an address of the host, the path
with its parameters and the query. -/
structure Runs (n : NamedAction) (c : Components) (m : Mask) (names : List String) (o : Operation) : Prop where
  id : n.name = o.id
  method : n.actionToRun = "http." ++ .ofList (Text.lower o.method.name.toList)
  url : n.values.get? "url" = some ("\x7b\x7b" ++
    Expression.host m.requestUrlConnection m.requestUrl ((Expression.defaultHost o.servers).getD "") ++ " + " ++
    Expression.path o.path (o.pathParameters.map (·.name)) ++ "\x7d\x7d" ++
    Expression.writtenQuery (o.queryParameters.map (·.name)))
  body : n.values.contains "body" ↔ o.defaultPayload?.isSome
  text : ∀ p, o.defaultPayload? = some p → ∃ text, n.values.get? "body" = some text ∧ p.HasText c names text
  contentType : n.values.get? "contentType" = o.defaultPayload?.map (·.contentType)

variable {c : Components} {m : Mask} {names : List String} {o : Operation} {n : NamedAction}

lemma url_eq (m : Mask) (o : Operation) : url m o = "\x7b\x7b" ++
    Expression.host m.requestUrlConnection m.requestUrl ((Expression.defaultHost o.servers).getD "") ++ " + " ++
    Expression.path o.path (o.pathParameters.map (·.name)) ++ "\x7d\x7d" ++
    Expression.writtenQuery (o.queryParameters.map (·.name)) :=
  Expression.url_eq _ _ _

/-- The values of a body are its text and its content type. -/
lemma of_bodyValues {values : List (String × String)} (h : bodyValues c names o = .ok values) :
    (o.defaultPayload? = none ∧ values = []) ∨ ∃ p text, o.defaultPayload? = some p ∧ p.HasText c names text ∧
      values = [("body",text),("contentType",p.contentType)] := by
  cases hp : o.defaultPayload? with
  | none =>
    simp only [bodyValues,hp] at h
    cases h
    exact .inl ⟨rfl,rfl⟩
  | some p =>
    obtain ⟨contentType,required,schema,isDefault⟩ := p
    simp only [bodyValues,hp] at h
    cases schema with
    | none =>
      cases h
      exact .inr ⟨_,_,rfl,rfl,rfl⟩
    | some s =>
      obtain ⟨text,htext,h⟩ := Except.bind_eq_ok_iff.mp h
      cases h
      exact .inr ⟨_,text,rfl,htext,rfl⟩

/-- An entry that is made for an operation runs it. -/
lemma runs_make {a : Action} {masked : Option Mask.Action} (h : make c m a masked o = .ok n) (hid : a.name = o.id) :
    n.Runs c m a.inputs.keys o := by
  obtain ⟨values,hvalues,rfl⟩ := make_eq_ok_iff.mp h
  have hmethod : "http." ++ o.method.key = "http." ++ .ofList (Text.lower o.method.name.toList) := by
    rw [Method.key_eq]
  rcases of_bodyValues hvalues with ⟨hp,rfl⟩ | ⟨p,text,hp,htext,rfl⟩
  · refine ⟨hid,hmethod,?_,?_,?_,?_⟩
    · simp [Dict.get?_ofList,url_eq]
    · simp [Dict.contains,Dict.get?_ofList,hp]
    · simp [hp]
    · simp [Dict.get?_ofList,hp]
  · refine ⟨hid,hmethod,?_,?_,?_,?_⟩
    · simp [Dict.get?_ofList,Dict.lookup_cons,url_eq]
    · simp [Dict.contains,Dict.get?_ofList,Dict.lookup_cons,hp]
    · rw [hp]
      rintro _ ⟨⟩
      exact ⟨text,by simp [Dict.get?_ofList,Dict.lookup_cons],htext⟩
    · simp [Dict.get?_ofList,hp]

end NamedAction

variable {d : Document} {declared : DeclaredSecurity} {found : Discovery} {m : Mask}

/-- An entry of a catalog runs the operation that is registered under its name. -/
theorem Catalog.exists_runs {catalog : Catalog} {report : Report} (h : Discovery.ofDocument d declared = .ok found)
    (hcatalog : ofDiscovery d.components m found = .ok (catalog,report)) {n : NamedAction} (hn : n ∈ catalog.actions) :
    ∃ a ∈ found.actions, ∃ o, a.name = n.name ∧ found.registry.get? n.name = some o ∧
      n.Runs d.components m a.inputs.keys o := by
  obtain ⟨a,ha,hentry⟩ := (mem_actions_iff hcatalog).mp hn
  obtain ⟨-,o,ho,hmake⟩ := entryOf_eq_some_iff.mp hentry
  have hname := (of_entryOf hentry).1
  have hid := ((Registry.get?_eq_some_iff (Discovery.exists_of_ofDocument h).1).mp ho).2
  exact ⟨a,ha,o,hname.symm,hname ▸ ho,NamedAction.runs_make hmake hid.symm⟩

lemma generate_eq_error_iff (hprint : ∀ k v, m.connectionTypes.get? k = some v → isWritable false v = true)
    (f : Failure) : generate d declared m = .error f ↔ Discovery.ofDocument d declared = .error f := by
  cases hfound : Discovery.ofDocument d declared with
  | error e =>
    have hfails : generate d declared m = .error e := by
      rw [generate,hfound]
      rfl
    rw [hfails,Except.error.injEq,Except.error.injEq]
  | ok found =>
    obtain ⟨g,hg⟩ := exists_generate_iff.mpr ⟨⟨found,hfound⟩,hprint⟩
    rw [hg]
    exact ⟨nofun,nofun⟩

/-- If the connection types of a mask can be written, a catalog is generated exactly if its document is discovered,
and fails as the discovery does, which is by a fault of the document. Every action that was discovered has its
operation and the values of its body, and every entry of the catalog runs the operation under its name. -/
theorem generate_runs_registered (d : Document) (declared : DeclaredSecurity) (m : Mask)
    (hprint : ∀ k v, m.connectionTypes.get? k = some v → isWritable false v = true) :
    ((∃ g, generate d declared m = .ok g) ↔ ∃ found, Discovery.ofDocument d declared = .ok found) ∧
    (∀ f, generate d declared m = .error f ↔ Discovery.ofDocument d declared = .error f) ∧
    (∀ f, generate d declared m = .error f → d.AtFault f ∧ ∀ name, f ≠ .missingOperation name) ∧
    ∀ found, Discovery.ofDocument d declared = .ok found →
      (∀ a ∈ found.actions, ∃ o values, found.registry.get? a.name = some o ∧
        NamedAction.bodyValues d.components a.inputs.keys o = .ok values) ∧
      ∀ g, generate d declared m = .ok g → ∀ n ∈ g.catalog.actions, ∃ a ∈ found.actions, ∃ o, a.name = n.name ∧
        found.registry.get? n.name = some o ∧ n.Runs d.components m a.inputs.keys o := by
  refine ⟨?_,generate_eq_error_iff hprint,fun f hf => ?_,fun found hfound => ⟨fun a ha => ?_,fun g hg n hn => ?_⟩⟩
  · rw [exists_generate_iff]
    exact ⟨And.left,fun hfound => ⟨hfound,hprint⟩⟩
  · have hfault := Discovery.ofDocument_failsOnly d declared f ((generate_eq_error_iff hprint f).mp hf)
    refine ⟨hfault,?_⟩
    rintro name rfl
    exact hfault
  · obtain ⟨o,e,ho,hfields,-⟩ := Discovery.exists_operation hfound ha
    obtain ⟨values,hvalues⟩ := NamedAction.exists_bodyValues hfields a.inputs.keys
    exact ⟨o,values,ho,hvalues⟩
  · obtain ⟨report,hcatalog⟩ := Catalog.of_generate hg hfound
    exact Catalog.exists_runs hfound hcatalog hn

/-- An operation with a parameter in its path, two in its query and a body. -/
def withBody : Document.Operation where
  operationId := some "x"
  parameters := [.inline { name := "id", location := .path },.inline { name := "page", location := .query },
    .inline { name := "size", location := .query }]
  requestBody := some (.inline { content := .ofList [("text/plain",none)] })

def pairedDocument : Document where
  servers := [{ url := "http://h" }]
  paths := .ofList [
    ("/x/{id}",{ operation := fun | .post => some withBody | _ => none }),
    ("/y",{ operation := fun | .get => some { operationId := some "y" } | _ => none })]

/-- A mask that lists one action under the name of another one. -/
def crossedMask : Mask where
  connectionTypes := .ofList [("key",.text "token")]
  actions := .ofList [("x",{ nickname := some "y" })]

/-- The entry runs the operation of its own name, whatever it is called by the mask. -/
theorem generate_runs_registered_crossed : ∃ g n, generate pairedDocument ∅ crossedMask = .ok g ∧
    n ∈ g.catalog.actions ∧ n.name = "x" ∧ n.actionToRun = "http.post" ∧
    n.values.get? "url" = some
      "\x7b\x7b'http://h' + '/x/' + params.id\x7d\x7d\x7b\x7b'?page=' + params.page + '&size=' + params.size\x7d\x7d" ∧
    n.values.get? "contentType" = some "text/plain" ∧ n.values.get? "body" = some "\x7b\x7d" := by
  have hprint : ∀ k v, crossedMask.connectionTypes.get? k = some v → isWritable false v = true := by
    intro k v h
    have hmem := Dict.mem_of_get?_ofList h
    simp at hmem
    simp [hmem,isWritable]
  obtain ⟨hiff,-,-,hall⟩ := generate_runs_registered pairedDocument ∅ crossedMask hprint
  obtain ⟨found,o,hfound,ho,hmethod,hservers,hpath,hnames,hquery,hpayload⟩ : ∃ found o,
      Discovery.ofDocument pairedDocument ∅ = .ok found ∧ found.registry.get? "x" = some o ∧ o.method = .post ∧
      o.servers = [{ url := "http://h" }] ∧ o.path = "/x/{id}" ∧ o.pathParameters.map (·.name) = ["id"] ∧
      o.queryParameters.map (·.name) = ["page","size"] ∧ o.defaultPayload? = some ⟨"text/plain",false,none,true⟩ :=
    ⟨_,_,by rfl,by rfl,by rfl,by rfl,by rfl,by rfl,by rfl,by rfl⟩
  obtain ⟨a,cuts,-,hfind⟩ := Discovery.exists_find?_actions hfound ho
  obtain ⟨ha,hname⟩ := (Keyed.find?_eq_some_iff (Discovery.nodup_names hfound)).mp hfind
  obtain ⟨g,hg⟩ := hiff.mpr ⟨found,hfound⟩
  obtain ⟨report,hcatalog⟩ := Catalog.of_generate hg hfound
  obtain ⟨n,hn,hna⟩ := (Catalog.exists_mem_actions_iff hfound hcatalog ha).mpr (.inr (by rw [hname]; decide +kernel))
  obtain ⟨a',-,o',-,ho',hruns⟩ := (hall found hfound).2 g hg n hn
  rw [hna,hname,ho] at ho'
  cases ho'
  obtain ⟨text,hbody,rfl⟩ := hruns.text _ hpayload
  refine ⟨g,n,hg,hn,hna.trans hname,?_,?_,?_,hbody⟩
  · rw [hruns.method,hmethod]
    decide +kernel
  · rw [hruns.url,hservers,hpath,hnames,hquery]
    decide +kernel
  · rw [hruns.contentType,hpayload]
    rfl

end ActionCatalog
