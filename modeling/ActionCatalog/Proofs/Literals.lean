import ActionCatalog.Proofs.Arrangement
import ActionCatalog.Proofs.Binding
import ActionCatalog.Proofs.Quotes

/-! The literals of the URL of an operation. Main statement: they are its host, the pieces of its path and the names of
its query exactly if neither the host nor a piece ends in a backslash and no name has a quote in it. -/
namespace ActionCatalog
namespace Expression

/-- A term of a path as a stretch of a URL. -/
def Term.stretch : Term → Stretch
  | literal text => .quoted .plus text
  | parameter _ name => .access name

/-- The literal in front of a value of the query. -/
def queryText (mark : Char) (name : String) : List Char := mark :: (name.toList ++ ['='])

def asking (lead : Lead) (mark : Char) (name : String) : List Stretch :=
  [.bare lead (queryText mark name),.access name.toList]

def queryStretches : List String → List Stretch
  | [] => []
  | name :: names => asking .reopening '?' name ++ names.flatMap (asking .plus '&')

/-- What a URL is made of: its host, the terms of its path and the names of its query. -/
def stretches (host : String) (ts : List Term) (names : List String) : List Stretch :=
  .quoted .opening host.toList :: (ts.map Term.stretch ++ queryStretches names)

lemma toList_intercalate (x : String) (xs : List String) : (" + ".intercalate (x :: xs)).toList =
    x.toList ++ xs.flatMap fun y => Lead.plus.chars ++ y.toList := by
  induction xs generalizing x with
  | nil => simp
  | cons y xs ih => simp [String.intercalate_cons_cons,ih,Lead.chars]

lemma toList_quote (x : String) : (quote x).toList = '\'' :: (escape x.toList ++ ['\'']) := by
  simp [quote]

lemma chars_stretch (t : Term) : t.stretch.chars = Lead.plus.chars ++ t.text.toList := by
  cases t with
  | literal text => simp [Term.stretch,Stretch.chars,Term.text,toList_quote]
  | parameter source name => simp [Term.stretch,Stretch.chars,Term.text,parameter,Lead.chars]

lemma chars_asking (lead : Lead) (mark : Char) (name : String) :
    (asking lead mark name).flatMap Stretch.chars = lead.chars ++ (queryTerm mark name).toList := by
  simp [asking,Stretch.chars,queryTerm,queryText,parameter]

/-- The query opens a template behind the one that is closed in front of it. -/
lemma chars_queryStretches (names : List String) : (queryStretches names).flatMap Stretch.chars ++ ['}','}'] =
    ['}','}'] ++ ((query names).getD "").toList := by
  cases names with
  | nil => simp [queryStretches,query]
  | cons name names =>
    have hnames : (names.flatMap (asking .plus '&')).flatMap Stretch.chars =
        (names.map (queryTerm '&')).flatMap fun y => Lead.plus.chars ++ y.toList := by
      simp only [List.flatMap_assoc,List.flatMap_map,chars_asking]
    simp [-String.toList_intercalate,queryStretches,query,wrap,toList_intercalate,chars_asking,hnames,Lead.chars]

/-- The characters of a URL are those of its stretches. -/
theorem toList_url (host : String) (t : Term) (ts : List Term) (names : List String) :
    (url (quote host) (" + ".intercalate ((t :: ts).map Term.text)) names).toList =
      Stretch.url (stretches host (t :: ts) names) := by
  have hterms : (ts.map Term.stretch).flatMap Stretch.chars =
      (ts.map Term.text).flatMap fun y => Lead.plus.chars ++ y.toList := by
    simp only [List.flatMap_map,chars_stretch]
  rw [Stretch.url,stretches,List.flatMap_cons,List.flatMap_append,List.append_assoc,List.append_assoc,
    chars_queryStretches,List.map_cons,List.map_cons,List.flatMap_cons,hterms,chars_stretch]
  simp [-String.toList_intercalate,url,wrap,toList_intercalate,toList_quote,Stretch.chars,Lead.chars]

end Expression

namespace PathTemplate

def Part.isToken : Part → Bool
  | char _ => false
  | token _ _ => true

/-- The texts between the tokens of a path, where there are any. The one piece of an empty path is empty. -/
def pieces (path : String) : List (List Char) :=
  if path = "" then [[]] else (((parts path).splitOnP Part.isToken).filter (· ≠ [])).map (·.flatMap Part.source)

lemma parts_ne_nil {path : String} (h : path ≠ "") : parts path ≠ [] := by
  obtain ⟨c,rest,hchars⟩ := List.exists_cons_of_ne_nil (mt String.toList_eq_nil_iff.mp h)
  rw [parts,hchars,scan]
  split <;> simp

end PathTemplate

namespace Expression
open PathTemplate

def Term.name? : Term → Option String
  | literal _ => none
  | parameter _ name => some (.ofList name)

section Terms
variable {declared : List Char → Bool} {ps : List Part}

lemma prepend_ne_nil (text : List Char) (ts : List Term) : Term.prepend text ts ≠ [] := by
  rw [Term.prepend.eq_def]
  split <;> exact List.cons_ne_nil _ _

lemma termsOf_ne_nil (h : ps ≠ []) : termsOf declared ps ≠ [] := by
  obtain ⟨p,ps,rfl⟩ := List.exists_cons_of_ne_nil h
  cases p with
  | char c => exact prepend_ne_nil _ _
  | token source name =>
    rw [termsOf]
    split
    · exact List.cons_ne_nil _ _
    · exact prepend_ne_nil _ _

/-- A run of characters is one literal, and each token ends it. -/
lemma exists_termsOf (h : ∀ source name, .token source name ∈ ps → declared name) :
    ∃ run runs rest, ps.splitOnP Part.isToken = run :: runs ∧ (∀ text ts, rest ≠ .literal text :: ts) ∧
      termsOf declared ps = (if run = [] then rest else .literal (run.flatMap Part.source) :: rest) ∧
      Stretch.texts (rest.map Term.stretch) = (runs.filter (· ≠ [])).map (·.flatMap Part.source) := by
  induction ps with
  | nil => exact ⟨[],[],[],by simp [termsOf,Stretch.texts]⟩
  | cons p ps ih =>
    obtain ⟨run,runs,rest,hsplit,hrest,hterms,htexts⟩ := ih fun source name hmem => h source name (.tail _ hmem)
    cases p with
    | char c =>
      refine ⟨.char c :: run,runs,rest,?_,hrest,?_,htexts⟩
      · rw [List.splitOnP_cons_eq_if_modifyHead,hsplit]
        rfl
      · rw [termsOf,hterms]
        by_cases hrun : run = []
        · cases rest with
          | nil => simp [hrun,Term.prepend,Part.source]
          | cons t ts =>
            cases t with
            | literal text => exact absurd rfl (hrest text ts)
            | parameter source name => simp [hrun,Term.prepend,Part.source]
        · simp [hrun,Term.prepend,Part.source]
    | token source name =>
      refine ⟨[],run :: runs,.parameter source name :: termsOf declared ps,?_,by simp,?_,?_⟩
      · rw [List.splitOnP_cons_eq_if_modifyHead,hsplit]
        rfl
      · rw [termsOf,if_pos (h source name List.mem_cons_self),if_pos rfl]
      · rw [hterms]
        by_cases hrun : run = []
        · simpa [hrun,Stretch.texts_cons,Term.stretch,Stretch.text?] using htexts
        · simpa [hrun,Stretch.texts_cons,Term.stretch,Stretch.text?] using htexts

lemma filterMap_name?_prepend (text : List Char) (ts : List Term) :
    (Term.prepend text ts).filterMap Term.name? = ts.filterMap Term.name? := by
  cases ts with
  | nil => rfl
  | cons t ts => cases t <;> rfl

lemma filterMap_name?_termsOf (h : ∀ source name, .token source name ∈ ps → declared name) :
    (termsOf declared ps).filterMap Term.name? = ps.filterMap Part.name? := by
  induction ps with
  | nil => rfl
  | cons p ps ih =>
    have hps := ih fun source name hmem => h source name (.tail _ hmem)
    cases p with
    | char c => rw [termsOf,filterMap_name?_prepend,hps]; rfl
    | token source name =>
      rw [termsOf,if_pos (h source name List.mem_cons_self)]
      simp [Term.name?,Part.name?,hps]

end Terms

/-- If its tokens are declared, the literals of a path are its pieces and its parameters are its tokens. -/
theorem exists_terms {path : String} {declared : List String} (h : ∀ name ∈ tokens path, name ∈ declared) :
    ∃ t ts, terms path declared = t :: ts ∧ Stretch.texts ((t :: ts).map Term.stretch) = pieces path ∧
      (t :: ts).filterMap Term.name? = tokens path := by
  by_cases hempty : path = ""
  · subst hempty
    exact ⟨_,_,rfl,rfl,rfl⟩
  have hdeclared : ∀ source name, .token source name ∈ parts path → declared.contains (.ofList name) := by
    intro source name hmem
    exact List.contains_iff_mem.mpr (h _ (List.mem_filterMap.mpr ⟨_,hmem,rfl⟩))
  have hne : termsOf (fun name => declared.contains (.ofList name)) (parts path) ≠ [] :=
    termsOf_ne_nil (parts_ne_nil hempty)
  obtain ⟨t,ts,hterms⟩ := List.exists_cons_of_ne_nil hne
  obtain ⟨run,runs,rest,hsplit,-,heq,htexts⟩ := exists_termsOf hdeclared
  refine ⟨t,ts,by rw [terms,hterms],?_,?_⟩
  · rw [← hterms,heq,pieces,if_neg hempty,hsplit]
    by_cases hrun : run = []
    · simpa [hrun] using htexts
    · simpa [hrun,Stretch.texts_cons,Term.stretch,Stretch.text?] using htexts
  · rw [← hterms,filterMap_name?_termsOf hdeclared,tokens]

/-- The literals that a query is meant to have. -/
def queryTexts : List String → List (List Char)
  | [] => []
  | name :: names => queryText '?' name :: names.map (queryText '&')

lemma texts_append (ss ss' : List Stretch) : Stretch.texts (ss ++ ss') = Stretch.texts ss ++ Stretch.texts ss' :=
  List.filterMap_append

lemma texts_queryStretches (names : List String) : Stretch.texts (queryStretches names) = queryTexts names := by
  have hnames (names : List String) : Stretch.texts (names.flatMap (asking .plus '&')) = names.map (queryText '&') := by
    induction names with
    | nil => rfl
    | cons name names ih => rw [List.flatMap_cons,texts_append,ih]; rfl
  cases names with
  | nil => rfl
  | cons name names => rw [queryStretches,texts_append,hnames]; rfl

lemma readsBack_asking_iff {lead : Lead} {mark : Char} (hmark : mark ≠ '\'') (name : String) :
    (∀ s ∈ asking lead mark name, s.ReadsBack) ↔ '\'' ∉ name.toList := by
  have hlast : (queryText mark name).getLast? = some '=' := by simp [queryText,List.getLast?_cons]
  simp [asking,Stretch.ReadsBack,hlast]
  simp [queryText,Ne.symm hmark]

lemma readsBack_queryStretches_iff (names : List String) :
    (∀ s ∈ queryStretches names, s.ReadsBack) ↔ ∀ name ∈ names, '\'' ∉ name.toList := by
  cases names with
  | nil => simp [queryStretches]
  | cons name names =>
    rw [queryStretches,List.forall_mem_append,readsBack_asking_iff (by decide),List.forall_mem_cons]
    simp only [List.forall_mem_flatMap,readsBack_asking_iff (show '&' ≠ '\'' by decide)]

lemma readsBack_stretch_iff (ts : List Term) : (∀ s ∈ ts.map Term.stretch, s.ReadsBack) ↔
    (∀ text ∈ Stretch.texts (ts.map Term.stretch), text.getLast? ≠ some '\\') ∧
      ∀ name ∈ ts.filterMap Term.name?, '\'' ∉ name.toList := by
  induction ts with
  | nil => simp [Stretch.texts]
  | cons t ts ih =>
    cases t with
    | literal text =>
      rw [List.map_cons,List.forall_mem_cons,ih,Stretch.texts_cons]
      show text.getLast? ≠ some '\\' ∧ _ ↔ (∀ x ∈ text :: Stretch.texts (ts.map Term.stretch), _) ∧ _
      rw [List.forall_mem_cons,and_assoc]
      rfl
    | parameter source name =>
      rw [List.map_cons,List.forall_mem_cons,ih]
      show '\'' ∉ name ∧ _ ↔ _ ∧ ∀ x ∈ String.ofList name :: ts.filterMap Term.name?, _
      rw [List.forall_mem_cons,String.toList_ofList,Stretch.texts_cons]
      exact and_left_comm

end Expression

namespace Operation
open Expression

/-- The host that the URL of an operation has where there is no connection to ask. -/
def host (o : Operation) : String := (defaultHost o.servers).getD ""

/-- The literals that the URL of an operation is meant to have: its host, the pieces of its path and the names of its
query, each with the mark in front of it and the equals sign behind. -/
def urlTexts (o : Operation) : List (List Char) :=
  o.host.toList :: (PathTemplate.pieces o.path ++ queryTexts (o.queryParameters.map (·.name)))

lemma literals?_url_eq_iff {m : Mask} (hconditional : Mask.spoken m.requestUrlConnection = none)
    (hbare : Mask.spoken m.requestUrl = none) {o : Operation}
    (h : o.pathParameters.map (·.name) = PathTemplate.tokens o.path) :
    literals? none (NamedAction.url m o).toList = some o.urlTexts ↔
      (∀ text ∈ o.host.toList :: PathTemplate.pieces o.path, text.getLast? ≠ some '\\') ∧
      ∀ name ∈ PathTemplate.tokens o.path ++ o.queryParameters.map (·.name), '\'' ∉ name.toList := by
  have hdeclared : ∀ name ∈ PathTemplate.tokens o.path, name ∈ o.pathParameters.map (·.name) := fun _ hname => h ▸ hname
  obtain ⟨t,ts,hterms,htexts,hnames⟩ := exists_terms hdeclared
  have hurl : (NamedAction.url m o).toList =
      Stretch.url (stretches o.host (t :: ts) (o.queryParameters.map (·.name))) := by
    rw [← toList_url,NamedAction.url,Expression.path,hterms]
    simp only [Mask.spoken] at hconditional hbare
    simp only [Expression.host,hconditional,hbare,host]
  have hmeant : o.urlTexts = Stretch.texts (stretches o.host (t :: ts) (o.queryParameters.map (·.name))) := by
    rw [stretches,Stretch.texts_cons,texts_append,htexts,texts_queryStretches]
    rfl
  rw [hurl,hmeant,Stretch.literals?_url_iff,stretches,List.forall_mem_cons,List.forall_mem_append,
    readsBack_stretch_iff,readsBack_queryStretches_iff,htexts,hnames,List.forall_mem_cons,List.forall_mem_append,
    and_assoc,and_assoc]
  rfl

/-- The URL of an extracted operation, which is among the values of every entry that runs it, reads back under a mask
without connections exactly if neither its host nor a piece of its path ends in a backslash and no name has a quote in
it, be it a token of its path or a parameter of its query: then its literals are the host, the pieces and the names of
the query, in this order, and it ends outside of a literal. -/
theorem url_reads_back_iff (d : Document) (declared : DeclaredSecurity) (r : Registry)
    (hr : Registry.extract d declared = .ok r) (o : Operation) (ho : o ∈ r.operations) (m : Mask)
    (hconditional : Mask.spoken m.requestUrlConnection = none) (hbare : Mask.spoken m.requestUrl = none) :
    (literals? none (NamedAction.url m o).toList = some o.urlTexts ↔
      (∀ text ∈ o.host.toList :: PathTemplate.pieces o.path, text.getLast? ≠ some '\\') ∧
      ∀ name ∈ PathTemplate.tokens o.path ++ o.queryParameters.map (·.name), '\'' ∉ name.toList) ∧
    ∀ c a masked n, a.name = o.id → NamedAction.make c m a masked o = .ok n →
      n.values.get? "url" = some (NamedAction.url m o) := by
  exact ⟨literals?_url_eq_iff hconditional hbare (PathTemplate.names_pathParameters hr ho),
    fun _ _ _ _ hid hmake => NamedAction.url_eq m o ▸ (NamedAction.runs_make hmake hid).url⟩

/-- Two operations with a quote each: in the path of the one, and in the name of a parameter of the other. -/
def quotedDocument : Document where
  servers := [{ url := "http://h" }]
  paths := .ofList [
    ("/o'clock/{id}",{ operation := fun
      | .get => some { operationId := some "x", parameters := [.inline { name := "id", location := .path }] }
      | _ => none }),
    ("/run",{ operation := fun
      | .get => some { operationId := some "y", parameters := [.inline { name := "it's", location := .query }] }
      | _ => none })]

/-- The quote of the path is escaped and reads back; that of the parameter closes the literal it is in. -/
theorem url_reads_back_iff_quoted : ∃ r x y, Registry.extract quotedDocument ∅ = .ok r ∧ r.operations = [x,y] ∧
    NamedAction.url {} x = "\x7b\x7b'http://h' + '/o\\'clock/' + params.id\x7d\x7d" ∧
    literals? none (NamedAction.url {} x).toList = some ["http://h".toList,"/o'clock/".toList] ∧
    NamedAction.url {} y = "\x7b\x7b'http://h' + '/run'\x7d\x7d\x7b\x7b'?it's=' + params.it's\x7d\x7d" ∧
    y.urlTexts = ["http://h".toList,"/run".toList,"?it's=".toList] ∧
    literals? none (NamedAction.url {} y).toList ≠ some y.urlTexts := by
  obtain ⟨r,x,y,hr,hxy,⟨hx₁,hx₂,hx₃,hx₄⟩,hy₁,hy₂,hy₃,hy₄⟩ : ∃ r x y, Registry.extract quotedDocument ∅ = .ok r ∧
      r.operations = [x,y] ∧
      (x.host = "http://h" ∧ x.path = "/o'clock/{id}" ∧ x.pathParameters.map (·.name) = ["id"] ∧
        x.queryParameters.map (·.name) = []) ∧
      y.host = "http://h" ∧ y.path = "/run" ∧ y.pathParameters.map (·.name) = [] ∧
        y.queryParameters.map (·.name) = ["it's"] :=
    ⟨_,_,_,by rfl,by rfl,⟨by rfl,by rfl,by rfl,by rfl⟩,by rfl,by rfl,by rfl,by rfl⟩
  have hurl (o : Operation) : NamedAction.url {} o = Expression.url (quote o.host)
    (Expression.path o.path (o.pathParameters.map (·.name))) (o.queryParameters.map (·.name)) := rfl
  have hx := (url_reads_back_iff _ _ r hr x (by simp [hxy]) {} rfl rfl).1
  have hy := (url_reads_back_iff _ _ r hr y (by simp [hxy]) {} rfl rfl).1
  rw [urlTexts,hx₁,hx₂,hx₄] at hx
  rw [urlTexts,hy₁,hy₂,hy₄] at hy
  refine ⟨r,x,y,hr,hxy,?_,?_,?_,?_,?_⟩
  · rw [hurl,hx₁,hx₂,hx₃,hx₄]
    decide +kernel
  · rw [hx.mpr (by decide +kernel)]
    decide +kernel
  · rw [hurl,hy₁,hy₂,hy₃,hy₄]
    decide +kernel
  · rw [urlTexts,hy₁,hy₂,hy₄]
    decide +kernel
  · rw [urlTexts,hy₁,hy₂,hy₄]
    exact fun h => absurd (hy.mp h) (by decide +kernel)

end Operation
end ActionCatalog
