import ActionCatalog.Document.Declared
import ActionCatalog.PathTemplate
import ActionCatalog.Text.Lower

/-! Operations with everything they refer to in place: parameters, bodies, security and servers. -/
namespace ActionCatalog

structure Parameter where
  name : String
  location : Location
  required : Bool
  description : String
  schema : Option Schema := none
  deriving Repr

/-- A body in one content type. -/
structure Payload where
  contentType : String
  required : Bool
  schema : Option Schema
  isDefault : Bool
  deriving Repr

/-- The scopes that one provider is asked for. -/
structure Grant where
  provider : String
  scopes : List String
  deriving DecidableEq, Repr

structure Operation where
  id : String
  method : Method
  path : String
  summary : String
  pathParameters : List Parameter
  queryParameters : List Parameter
  headerParameters : List Parameter
  cookieParameters : List Parameter
  payloads : List Payload
  bodyRequired : Bool
  security : List Grant
  servers : List Server
  deriving Repr

namespace Parameter

/-- A parameter of a path is required, whatever it says. -/
def ofDocument (p : Document.Parameter) (schema : Option Schema) : Parameter where
  name := p.name
  location := p.location
  required := p.required || p.location = .path
  description := Text.firstOf (schema.bind Schema.description) p.description
  schema := schema

def resolve (c : Components) (context : String) (node : RefOr Document.Parameter) :
    Except Failure Parameter := do
  let p ← node.blame s!"parameters of {context}" (c.parameter node)
  match p.schema with
  | none => return ofDocument p none
  | some s => return ofDocument p (some (← s.blame s!"parameter '{p.name}' of {context}" (c.schema s)))

end Parameter

namespace Payload

def preferredType : String := "application/json"

/-- The preferred content type if it is among the given ones, and else the first. -/
def defaultType? (types : List String) : Option String :=
  if preferredType ∈ types then some preferredType else types.head?

/-- One payload for each content type. -/
def ofBody (c : Components) (context : String) (b : Document.RequestBody) : Except Failure (List Payload) :=
  b.content.entries.mapM fun (type,node) => do
    let schema ← match node with
      | none => pure none
      | some s => some <$> s.blame s!"{type} body of {context}" (c.schema s)
    return ⟨type,b.required,schema,defaultType? b.content.keys = some type⟩

end Payload

namespace Grant

/-- The grants of all requirements by provider; those of one provider keep their order. -/
def ofRequirements (rs : List Requirement) : List Grant :=
  (rs.flatMap fun r => r.entries.map fun e => ⟨e.1,e.2⟩).mergeSort fun a b => a.provider ≤ b.provider

end Grant

namespace Operation

/-- A segment that is a token reads as its name behind `by_`. -/
def idSegment (segment : List Char) : List Char :=
  match segment with
  | '{' :: rest => if rest.getLast? = some '}' then "by_".toList ++ rest.dropLast else segment
  | _ => segment

/-- The id of an operation that has none of its own. -/
def deriveId (method path : String) : String :=
  let segments := (Text.splitWhere (· = '/') path.toList).filter (!·.isEmpty)
  .ofList (['_'].intercalate (Text.lower method.toList :: segments.map idSegment))

/-- All parameters: those of the query, the headers, the cookies and the path. -/
def parameters (o : Operation) : List Parameter :=
  o.queryParameters ++ o.headerParameters ++ o.cookieParameters ++ o.pathParameters

def defaultPayload? (o : Operation) : Option Payload := o.payloads.find? (·.isDefault)

/-- How an operation is called in messages. -/
def title (o : Operation) : String := o.method.name ++ " " ++ o.path

/-- The own parameters, and then each shared one whose name is not taken yet. -/
def merge (own : List Parameter) : List Parameter → List Parameter
  | [] => own
  | g :: shared => if own.any (·.name == g.name) then merge own shared else merge (own ++ [g]) shared

/-- The first list that is not empty. -/
def firstNonEmpty {α : Type} : List (List α) → List α
  | [] => []
  | l :: ls => if l.isEmpty then firstNonEmpty ls else l

/-- The requirements in force: an operation's own if it spells them out, even as none, and otherwise
the document's. -/
def requirements (d : Document) (declared : DeclaredSecurity) (path : String) (method : Method)
    (o : Document.Operation) : List Requirement :=
  if o.security.isEmpty && !declared.declares path method.name then d.security else o.security

/-- Puts the parts of an operation together; `shared` are the parameters of its path. -/
def build (d : Document) (declared : DeclaredSecurity) (path : String) (item : Document.PathItem)
    (shared : List Parameter) (method : Method) (o : Document.Operation) : Except Failure Operation := do
  let context := s!"{method.name} {path}"
  let own ← o.parameters.mapM (Parameter.resolve d.components context)
  let all := merge own shared
  let pathParameters ← PathTemplate.arrange Parameter.name path (all.filter (·.location = .path))
  let (payloads,bodyRequired) ← match o.requestBody with
    | none => pure ([],false)
    | some node => do
      let body ← node.blame s!"request body of {context}" (d.components.requestBody node)
      pure (← Payload.ofBody d.components context body,body.required)
  return {
    id := o.operationId.getD (deriveId method.name path)
    method := method
    path := path
    summary := Text.firstOf o.summary o.description
    pathParameters := pathParameters
    queryParameters := all.filter (·.location = .query)
    headerParameters := all.filter (·.location = .header)
    cookieParameters := all.filter (·.location = .cookie)
    payloads := payloads
    bodyRequired := bodyRequired
    security := Grant.ofRequirements (requirements d declared path method o)
    servers := firstNonEmpty [o.servers,item.servers,d.servers] }

end Operation
end ActionCatalog
