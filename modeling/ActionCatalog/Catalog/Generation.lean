import ActionCatalog.Action
import ActionCatalog.Body.Template
import ActionCatalog.Catalog
import ActionCatalog.Expression
import ActionCatalog.Label
import ActionCatalog.Mask
import ActionCatalog.Report

/-! Making the catalog of a document under a mask. -/
namespace ActionCatalog

namespace Input

/-- What a mask says of an input replaces what is known of it. -/
def override (i : Input) (name : String) (p : Mask.Parameter) : Input where
  category :=
    match Mask.spoken p.type with
    | some type => some (.ofText type)
    | none => i.category
  description := p.description.getD i.description
  placeholder := i.placeholder
  required := p.required.getD i.required
  default := p.default.getD i.default
  options := i.options
  index := if p.index = 0 then i.index else p.index
  format := i.format
  isMulti := i.isMulti || p.isMulti
  displayName := (Mask.spoken p.nickname).getD (Label.ofName name)

/-- An input of no category is typed in as JSON. -/
def categorize (i : Input) : Input := { i with category := some (i.category.getD .json) }

end Input

namespace NamedAction

/-- The inputs that are shown, under an entry of a mask only those that it lists. -/
def shown (inputs : Dict Input) (masked : Option Mask.Action) : Dict Input :=
  inputs.filterMap fun name i =>
    match masked with
    | none => some { i with displayName := Label.ofName name }.categorize
    | some m => (m.parameters.get? name).map fun p => (i.override name p).categorize

def label (name : String) (masked : Option Mask.Action) : String :=
  (Mask.spoken (masked.bind fun m => m.displayName.or m.nickname)).getD (Label.ofName name)

def url (m : Mask) (o : Operation) : String :=
  let host := Expression.host m.requestUrlConnection m.requestUrl ((Expression.defaultHost o.servers).getD "")
  Expression.url host (Expression.path o.path (o.pathParameters.map (·.name)))
    (o.queryParameters.map (·.name))

/-- The body of an operation that has one, and its content type. -/
def bodyValues (c : Components) (names : List String) (o : Operation) :
    Except Failure (List (String × String)) :=
  match o.defaultPayload? with
  | none => .ok []
  | some payload => do
    let body ← match payload.schema with
      | none => pure "\x7b\x7d"
      | some s => Body.template c s names
    return [("body",body), ("contentType",payload.contentType)]

/-- The entry of an action that runs an operation. -/
def make (c : Components) (m : Mask) (a : Action) (masked : Option Mask.Action) (o : Operation) :
    Except Failure NamedAction := do
  let body ← bodyValues c a.inputs.keys o
  return {
    name := a.name
    displayName := label a.name masked
    description := (masked.bind (·.description)).getD a.description
    enabled := a.enabled
    parameters := shown a.inputs masked
    actionToRun := "http." ++ o.method.key
    values := .ofList (("url",url m o) :: body)
    isConnectionOptional := masked.bind (·.isConnectionOptional) }

end NamedAction

/-- The entries of a mask that select nothing among what was discovered. -/
def Discovery.mismatches (d : Discovery) (m : Mask) : List Warning :=
  m.actions.entries.flatMap fun (name,masked) =>
    match d.actions.find? (·.name == name) with
    | none => [.unknownAction name]
    | some a => (masked.parameters.keys.filter (!a.inputs.contains ·)).map (.unknownParameter name)

namespace Catalog

/-- The entry of an action, unless the mask leaves it out. -/
def entryOf (c : Components) (m : Mask) (r : Registry) (a : Action) : Except Failure (Option NamedAction) :=
  let masked := m.actions.get? a.name
  if !m.isEmpty && masked.isNone then .ok none
  else match r.get? a.name with
    | none => .error (.missingOperation a.name)
    | some o => some <$> NamedAction.make c m a masked o

/-- Counts an action that has an entry, or has none. -/
def tally (r : Report) : Option NamedAction → Report
  | none => r.addFiltered
  | some a => r.addGenerated a.parameters.size

/-- What is to be said of a document before any mask. -/
def survey (d : Discovery) : Report :=
  let r := (({} : Report).addExtracted d.registry.operations.length).addDiscovered d.actions.length
  let r := d.cuts.foldl Report.addCycle (r.addWarnings d.registry.warnings)
  if d.registry.operations.any (·.servers.isEmpty) then r.addWarnings [.missingServer] else r

/-- The catalog of what was discovered in a document. -/
def ofDiscovery (c : Components) (m : Mask) (d : Discovery) : Except Failure (Catalog × Report) := do
  let entries ← d.actions.mapM (entryOf c m d.registry)
  let report := entries.foldl tally ((survey d).addWarnings (d.mismatches m))
  return ({ name := m.name, connectionTypes := m.connectionTypes, iconUri := m.iconUri,
            isConnectionOptional := m.isConnectionOptional, actions := entries.filterMap id }, report)

end Catalog

/-- A catalog with its text and what came of making it. -/
structure Generation where
  catalog : Catalog
  text : String
  report : Report

/-- Makes the catalog of a document under a mask. -/
def generate (d : Document) (declared : DeclaredSecurity) (m : Mask) : Except Failure Generation := do
  let found ← Discovery.ofDocument d declared
  let (catalog,report) ← Catalog.ofDiscovery d.components m found
  match catalog.print? with
  | none => .error .unwritable
  | some text => return ⟨catalog,text,report⟩

end ActionCatalog
