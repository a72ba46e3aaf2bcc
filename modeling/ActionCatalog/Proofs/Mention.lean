import ActionCatalog.Proofs.Body.Layout
import ActionCatalog.Proofs.Literals

/-! What the templates of a catalog mention. Main statement: every parameter that the URL or the body of an entry puts
in is an input of its action, so that no reference is left open. -/
namespace ActionCatalog

/-- An input is there for every parameter of an operation, whatever the body adds. -/
lemma Action.mem_keys_inputsOf {o : Operation} {p : Parameter} (hp : p ∈ o.parameters) (fields : List (String × Input)) :
    p.name ∈ (inputsOf o fields).keys := by
  have hin : (p.name,p.input) ∈ o.parameters.map fun p => (p.name,p.input) := List.mem_map.mpr ⟨p,hp,rfl⟩
  obtain ⟨i,-,hi⟩ := Dict.exists_mem_of_insertAll ∅ hin
  rw [Dict.mem_keys_iff,Dict.contains,inputsOf,Dict.get?_insertAll,Dict.ofList,hi]
  cases fields.reverse.lookup p.name <;> rfl

/-- The tokens of the path of an operation are the names of parameters of its path. -/
lemma Operation.exists_of_mem_tokens {o : Operation} (h : o.pathParameters.map (·.name) = PathTemplate.tokens o.path)
    {name : String} (hname : name ∈ PathTemplate.tokens o.path) : ∃ p ∈ o.parameters, p.name = name := by
  rw [← h] at hname
  obtain ⟨p,hp,rfl⟩ := List.mem_map.mp hname
  exact ⟨p,by simp [parameters,hp],rfl⟩

/-- The parameters of the path of a registered operation are its tokens. -/
lemma Discovery.names_pathParameters {d : Document} {declared : DeclaredSecurity} {found : Discovery}
    (h : ofDocument d declared = .ok found) {id : String} {o : Operation} (ho : found.registry.get? id = some o) :
    o.pathParameters.map (·.name) = PathTemplate.tokens o.path := by
  have hextract := extract_of_ofDocument h
  obtain ⟨hmem,-⟩ := (Registry.get?_eq_some_iff (Registry.nodup_ids_extract hextract)).mp ho
  exact PathTemplate.names_pathParameters hextract hmem

namespace NamedAction

/-- The values of an entry that runs an operation put in known parameters only: the URL the tokens of the path and the
names of the query, and the body the names in its placeholders, of which every leaf is one. -/
structure MentionsOnly (n : NamedAction) (m : Mask) (o : Operation) (known : List String) : Prop where
  url : ∃ ts : List Expression.Term, n.values.get? "url" = some (Expression.url
      (Expression.host m.requestUrlConnection m.requestUrl ((Expression.defaultHost o.servers).getD ""))
      (" + ".intercalate (ts.map Expression.Term.text)) (o.queryParameters.map (·.name))) ∧
    ts.filterMap Expression.Term.name? = PathTemplate.tokens o.path
  tokens : ∀ name ∈ PathTemplate.tokens o.path, name ∈ known
  query : ∀ name ∈ o.queryParameters.map (·.name), name ∈ known
  body : ∀ text, n.values.get? "body" = some text → ∃ ms, text = Json.print (.object ms) ∧
    ∀ path v, (Value.object ms).at? path = some v → v.leaf? = some v →
      ∃ form name, v = Body.Form.write form name ∧ name ∈ known

variable {n : NamedAction} {c : Components} {m : Mask} {o : Operation} {known known' : List String}

lemma MentionsOnly.mono (h : n.MentionsOnly m o known) (hsub : known ⊆ known') : n.MentionsOnly m o known' where
  url := h.url
  tokens name hname := hsub (h.tokens name hname)
  query name hname := hsub (h.query name hname)
  body text htext := by
    obtain ⟨ms,hms,hleaf⟩ := h.body text htext
    refine ⟨ms,hms,fun path v hat hv => ?_⟩
    obtain ⟨form,name,hform,hname⟩ := hleaf path v hat hv
    exact ⟨form,name,hform,hsub hname⟩

/-- Every leaf of the text of a body is the placeholder of one of its names. -/
lemma leaves_of_hasText {p : Payload} {names : List String} {text : String} (h : p.HasText c names text) :
    ∃ ms, text = Json.print (.object ms) ∧ ∀ path v, (Value.object ms).at? path = some v → v.leaf? = some v →
      ∃ form name, v = Body.Form.write form name ∧ name ∈ names := by
  rw [Payload.HasText] at h
  split at h
  · refine ⟨[],h,fun path v hat hv => ?_⟩
    cases path with
    | nil =>
      cases hat
      cases hv
    | cons key rest => cases hat
  · rename_i s _
    obtain ⟨ms,hms,htext⟩ := Body.template_eq_ok_iff.mp h
    refine ⟨ms,htext,fun path v hat hv => ?_⟩
    obtain ⟨name,p,lasts,-,rfl⟩ := ((Body.laidOut_members hms).leaf path v).mp ⟨hat,hv⟩
    exact ⟨_,name,Body.placeholder_eq_write _ _,lasts.mem⟩

/-- An entry that runs an operation mentions the parameters of the operation and the names that its body is made of. -/
lemma mentionsOnly_of_runs (h : n.Runs c m known o)
    (hpath : o.pathParameters.map (·.name) = PathTemplate.tokens o.path)
    (hknown : ∀ p ∈ o.parameters, p.name ∈ known) : n.MentionsOnly m o known where
  url := by
    obtain ⟨t,ts,hterms,-,hnames⟩ := Expression.exists_terms
      fun name (hname : name ∈ PathTemplate.tokens o.path) => hpath ▸ hname
    exact ⟨t :: ts,by rw [h.url,Expression.path,hterms,Expression.url_eq],hnames⟩
  tokens name hname := by
    obtain ⟨p,hp,rfl⟩ := Operation.exists_of_mem_tokens hpath hname
    exact hknown p hp
  query name hname := by
    obtain ⟨p,hp,rfl⟩ := List.mem_map.mp hname
    exact hknown p (by simp [Operation.parameters,hp])
  body text htext := by
    have hbody : n.values.contains "body" := by rw [Dict.contains,htext]; rfl
    obtain ⟨p,hp⟩ := Option.isSome_iff_exists.mp (h.body.mp hbody)
    obtain ⟨text',htext',hhas⟩ := h.text p hp
    rw [htext] at htext'
    cases htext'
    exact leaves_of_hasText hhas

end NamedAction

namespace Catalog

/-- Every parameter that an entry of a catalog puts into its URL or its body is an input of the action that was
discovered under its name; and where the mask lists no action, it is a parameter of the entry itself. -/
theorem mentions_inputs (d : Document) (declared : DeclaredSecurity) (m : Mask) (g : Generation)
    (hg : generate d declared m = .ok g) (n : NamedAction) (hn : n ∈ g.catalog.actions) :
    ∃ found a o, Discovery.ofDocument d declared = .ok found ∧ a ∈ found.actions ∧ a.name = n.name ∧
      found.registry.get? n.name = some o ∧ n.MentionsOnly m o a.inputs.keys ∧
      (m.isEmpty → n.MentionsOnly m o n.parameters.keys) := by
  obtain ⟨found,report,hfound,hcatalog⟩ := exists_of_generate hg
  obtain ⟨a,ha,hentry⟩ := (mem_actions_iff hcatalog).mp hn
  obtain ⟨-,o,ho,hmake⟩ := entryOf_eq_some_iff.mp hentry
  obtain ⟨hname,hshown⟩ := of_entryOf hentry
  obtain ⟨o',e,ho',-,hae⟩ := Discovery.exists_operation hfound ha
  rw [ho] at ho'
  cases ho'
  have hid : a.name = o.id := by rw [hae]
  have hinputs : a.inputs = Action.inputsOf o e.fields := by rw [hae]
  have hmentions : n.MentionsOnly m o a.inputs.keys := by
    refine NamedAction.mentionsOnly_of_runs (NamedAction.runs_make hmake hid)
      (Discovery.names_pathParameters hfound ho) fun p hp => ?_
    rw [hinputs]
    exact Action.mem_keys_inputsOf hp e.fields
  refine ⟨_,a,o,hfound,ha,hname.symm,hname ▸ ho,hmentions,fun hempty => hmentions.mono fun input hin => ?_⟩
  rw [Dict.mem_keys_iff,hshown,NamedAction.contains_shown]
  refine ⟨(Dict.mem_keys_iff _ _).mp hin,fun masked hmasked => ?_⟩
  rw [Mask.get?_eq_none_of_isEmpty hempty] at hmasked
  cases hmasked

/-- A path, a query and a body that share names. -/
def sharingDocument : Document where
  paths := .ofList [("/x/{id}",{ operation := fun
    | .post => some {
        operationId := some "run"
        parameters := [.inline { name := "id", location := .path },.inline { name := "q", location := .query }]
        requestBody := some (.inline { content := .ofList [("application/json",some (.inline
          { declared := [("id",.inline { types := some (.one .integer) }),("q",.inline {})] }))] }) }
    | _ => none })]

/-- What is put in under a shared name is the one input of that name. -/
theorem mentions_inputs_sharing : ∃ g n, generate sharingDocument ∅ {} = .ok g ∧ n ∈ g.catalog.actions ∧
    n.values.get? "url" = some "\x7b\x7b'' + '/x/' + params.id\x7d\x7d\x7b\x7b'?q=' + params.q\x7d\x7d" ∧
    n.values.get? "body" =
      some "\x7b\"id\":\"\x7b\x7bint(params.id)\x7d\x7d\",\"q\":\"\x7b\x7bobj(params.q)\x7d\x7d\"\x7d" ∧
    "id" ∈ n.parameters.keys ∧ "q" ∈ n.parameters.keys := by
  obtain ⟨found,o,s,a,cuts,hfound,ho,hservers,hpath,hnames,hquery,hpayload,hbody,haction,hname,hkeys⟩ :
      ∃ found o s a cuts, Discovery.ofDocument sharingDocument ∅ = .ok found ∧ found.registry.get? "run" = some o ∧
      o.servers = [] ∧ o.path = "/x/{id}" ∧ o.pathParameters.map (·.name) = ["id"] ∧
      o.queryParameters.map (·.name) = ["q"] ∧
      o.defaultPayload? = some ⟨"application/json",false,some s,true⟩ ∧ Body.template {} s ["id","q"] = .ok
        "\x7b\"id\":\"\x7b\x7bint(params.id)\x7d\x7d\",\"q\":\"\x7b\x7bobj(params.q)\x7d\x7d\"\x7d" ∧
      Action.ofOperation {} o = .ok (a,cuts) ∧ a.name = "run" ∧ a.inputs.keys = ["id","q"] :=
    ⟨_,_,_,_,_,by rfl,by rfl,by rfl,by rfl,by rfl,by rfl,by rfl,by rfl,by rfl,by rfl,by rfl⟩
  obtain ⟨a',cuts',haction',hfind⟩ := Discovery.exists_find?_actions hfound ho
  cases haction.symm.trans haction'
  obtain ⟨ha,-⟩ := (Keyed.find?_eq_some_iff (Discovery.nodup_names hfound)).mp hfind
  obtain ⟨g,hg⟩ : ∃ g, generate sharingDocument ∅ {} = .ok g := exists_generate hfound rfl
  obtain ⟨report,hcatalog⟩ := of_generate hg hfound
  obtain ⟨n,hn,hna⟩ := (exists_mem_actions_iff hfound hcatalog ha).mpr (.inl rfl)
  obtain ⟨b,hb,o',hbn,ho',hruns⟩ := exists_runs hfound hcatalog hn
  obtain ⟨found',_,_,hfound',-,-,ho'',-,hmentions⟩ := mentions_inputs _ _ _ g hg n hn
  rw [hfound] at hfound'
  cases hfound'
  rw [hna,hname,ho] at ho' ho''
  cases ho'
  cases ho''
  rw [List.inj_on_of_nodup_map (Discovery.nodup_names hfound) hb ha (hbn.trans hna),hkeys] at hruns
  obtain ⟨text,htext,hhas⟩ := hruns.text _ hpayload
  have hown := hmentions rfl
  refine ⟨g,n,hg,hn,?_,?_,?_,?_⟩
  · rw [hruns.url,hservers,hpath,hnames,hquery]
    decide +kernel
  · rw [htext,Except.ok.inj (hhas.symm.trans hbody)]
  · exact hown.tokens "id" (by rw [hpath]; decide +kernel)
  · exact hown.query "q" (by rw [hquery]; decide)

end Catalog
end ActionCatalog
