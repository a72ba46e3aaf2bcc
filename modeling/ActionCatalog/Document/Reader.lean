import ActionCatalog.Document.Model
import ActionCatalog.Text.Url
import ActionCatalog.Tree.Settle

/-! Reading documents. Every known member must have its type, also where nothing is kept of it; unknown
members are passed over. What may be a reference is settled first, so that its scalars no longer
answer for other types. -/
namespace ActionCatalog

/-- Whether a node has a type of which nothing is kept. -/
abbrev Check := Tree → Option Unit

namespace Check
open ActionCatalog.Tree

def any : Check := fun _ => some ()
def text : Check := fun t => t.asText?.map fun _ => ()
def bool : Check := fun t => t.asBool?.map fun _ => ()
def number : Check := fun t => t.asNumber?.map fun _ => ()
def natural : Check := fun t => t.asNatural?.map fun _ => ()
def url : Check := fun t => do if Text.Url.isAbsolute (← t.asText?) then some () else none
def object : Check := fun t => t.fields?.map fun _ => ()

/-- Members that may be absent or null. -/
def optional (checks : List (String × Check)) (o : Fields) : Option Unit :=
  checks.forM fun (name, check) => do let _ ← o.optional? name check

end Check

open ActionCatalog.Tree

/-- Reads a reference, and where there is none, what it would stand for. -/
def RefOr.read? {α : Type} (f : Tree → Option α) (t : Tree) : Option (RefOr α) := do
  let t ← t.settle?
  match reference? t with
  | some r => some r
  | none => (f t).map .inline
where
  reference? (t : Tree) : Option (RefOr α) := do
    let o ← t.fields?
    let target ← o.required? "$ref" asText?
    let _ ← o.optional? "summary" asText?
    return .reference target (← o.optional? "description" asText?)

def DataType.read? (t : Tree) : Option DataType := do
  let s ← t.asText?
  [("boolean", .boolean), ("integer", .integer), ("number", .number), ("string", .string),
   ("array", .array), ("object", .object), ("null", .null)].lookup s

def TypeSet.read? (t : Tree) : Option TypeSet :=
  match DataType.read? t with
  | some d => some (.one d)
  | none => (t.asList? DataType.read?).map .several

namespace Schema

def discriminator : Check := fun t => do
  let o ← t.fields?
  o.required? "propertyName" Check.text
  let _ ← o.optional? "mapping" (asDict? asText?)

def checks : List (String × Check) :=
  [("const", Check.any), ("multipleOf", .number), ("maximum", .number), ("minimum", .number),
   ("exclusiveMaximum", .number), ("exclusiveMinimum", .number), ("maxLength", .natural),
   ("minLength", .natural), ("maxItems", .natural), ("minItems", .natural), ("maxProperties", .natural),
   ("minProperties", .natural), ("pattern", .text), ("title", .text), ("uniqueItems", .bool),
   ("deprecated", .bool), ("readOnly", .bool), ("writeOnly", .bool), ("discriminator", discriminator)]

/-- Reads a schema whose parts are read by `part`. -/
def readWith (part : Tree → Option (RefOr Schema)) (t : Tree) : Option Schema := do
  let o ← t.fields?
  Check.optional checks o
  let _ ← o.list? "prefixItems" part
  let _ ← o.optional? "items" (boolOr part)
  let _ ← o.optional? "additionalProperties" (boolOr part)
  let _ ← o.list? "examples" Value.ofTree?
  let properties ← o.dict? "properties" part
  let sample ← match ← o.member? "example" with
    | none => some none
    | some t => (Value.ofTree? t).map some
  return {
    types := ← o.optional? "type" TypeSet.read?
    allOf := ← o.list? "allOf" part
    anyOf := ← o.list? "anyOf" part
    oneOf := ← o.list? "oneOf" part
    declared := properties.entries
    required := ← o.list? "required" asText?
    choices := ← o.list? "enum" Value.ofTree?
    preset := ← o.optional? "default" Value.ofTree?
    sample := sample
    description := ← o.optional? "description" asText?
    format := ← o.optional? "format" asText? }
where
  boolOr (part : Tree → Option (RefOr Schema)) : Check := fun t =>
    match t.asBool? with
    | some _ => some ()
    | none => (part t).map fun _ => ()

/-- Reads a schema of which no more than `n` lie inside one another. -/
def readDeep? : Nat → Tree → Option Schema
  | 0, _ => none
  | n+1, t => readWith (RefOr.read? (readDeep? n)) t

/-- Reads a schema; documents never nest deeper than this. -/
def read? (t : Tree) : Option Schema := readDeep? 129 t

end Schema

namespace Server

def readVariable? (t : Tree) : Option String := do
  let o ← t.fields?
  let _ ← o.list? "enum" asText?
  let _ ← o.optional? "description" asText?
  o.required? "default" asText?

def read? (t : Tree) : Option Server := do
  let o ← t.fields?
  let _ ← o.optional? "description" asText?
  return { url := ← o.required? "url" asText?, defaults := ← o.dict? "variables" readVariable? }

end Server

namespace Document

def mediaType? (t : Tree) : Option (Option (RefOr Schema)) := do
  let o ← t.fields?
  let _ ← o.dict? "encoding" fun t => do
    Check.optional [("contentType", Check.text), ("style", .text), ("explode", .bool)] (← t.fields?)
  o.optional? "schema" (RefOr.read? Schema.read?)

namespace Parameter

def location? (t : Tree) : Option Location := do
  [("path", .path), ("query", .query), ("header", .header), ("cookie", .cookie)].lookup (← t.asText?)

def style : Check := fun t => do
  if (← t.asText?) ∈ ["matrix", "label", "form", "simple", "spaceDelimited", "pipeDelimited", "deepObject"]
  then some () else none

def read? (t : Tree) : Option Parameter := do
  let o ← t.fields?
  Check.optional [("deprecated", Check.bool), ("allowEmptyValue", .bool), ("allowReserved", .bool),
    ("explode", .bool), ("style", style), ("example", .any)] o
  let _ ← o.dict? "examples" Check.any
  let _ ← o.optional? "content" (asDict? mediaType?)
  let required ← o.optional? "required" asBool?
  return {
    name := ← o.required? "name" asText?
    location := ← o.required? "in" location?
    required := required.getD false
    description := ← o.optional? "description" asText?
    schema := ← o.optional? "schema" (RefOr.read? Schema.read?) }

end Parameter

def RequestBody.read? (t : Tree) : Option RequestBody := do
  let o ← t.fields?
  let _ ← o.optional? "description" asText?
  let required ← o.optional? "required" asBool?
  return { content := ← o.required? "content" (asDict? mediaType?), required := required.getD false }

def response : Check := fun t => do
  let o ← t.fields?
  let _ ← o.optional? "description" asText?
  let _ ← o.dict? "headers" Check.any
  let _ ← o.dict? "content" mediaType?
  let _ ← o.dict? "links" Check.any

def externalDocs : Check := fun t => do
  let o ← t.fields?
  o.required? "url" Check.url
  Check.optional [("description", Check.text)] o

def requirement? : Tree → Option Requirement := asDict? (asList? asText?)

namespace Operation

def read? (t : Tree) : Option Operation := do
  let o ← t.fields?
  let _ ← o.list? "tags" asText?
  Check.optional [("externalDocs", externalDocs), ("deprecated", .bool)] o
  let _ ← o.optional? "responses" (asDict? (RefOr.read? response))
  let _ ← o.dict? "callbacks" Check.any
  return {
    operationId := ← o.optional? "operationId" asText?
    summary := ← o.optional? "summary" asText?
    description := ← o.optional? "description" asText?
    parameters := ← o.list? "parameters" (RefOr.read? Parameter.read?)
    requestBody := ← o.optional? "requestBody" (RefOr.read? RequestBody.read?)
    security := ← o.list? "security" requirement?
    servers := ← o.list? "servers" Server.read? }

end Operation

namespace PathItem

def read? (t : Tree) : Option PathItem := do
  let o ← t.fields?
  Check.optional [("$ref", Check.text), ("summary", .text), ("description", .text)] o
  let get ← o.optional? Method.get.key Operation.read?
  let put ← o.optional? Method.put.key Operation.read?
  let post ← o.optional? Method.post.key Operation.read?
  let delete ← o.optional? Method.delete.key Operation.read?
  let options ← o.optional? Method.options.key Operation.read?
  let head ← o.optional? Method.head.key Operation.read?
  let patch ← o.optional? Method.patch.key Operation.read?
  let trace ← o.optional? Method.trace.key Operation.read?
  return {
    operation := fun
      | .get => get
      | .put => put
      | .post => post
      | .delete => delete
      | .options => options
      | .head => head
      | .patch => patch
      | .trace => trace
    parameters := ← o.list? "parameters" (RefOr.read? Parameter.read?)
    servers := ← o.list? "servers" Server.read? }

end PathItem

def info : Check := fun t => do
  let o ← t.fields?
  o.required? "title" Check.text
  o.required? "version" Check.text
  Check.optional [("summary", Check.text), ("description", .text), ("termsOfService", .url),
    ("contact", fun t => do Check.optional [("name", Check.text), ("url", .url), ("email", .text)] (← t.fields?)),
    ("license", license)] o
where
  license : Check := fun t => do
    let o ← t.fields?
    o.required? "name" Check.text
    Check.optional [("identifier", Check.text), ("url", .url)] o

def tag : Check := fun t => do
  let o ← t.fields?
  o.required? "name" Check.text
  Check.optional [("description", Check.text)] o

def header : Check := fun t => do
  let o ← t.fields?
  Check.optional [("description", Check.text), ("required", .bool), ("deprecated", .bool),
    ("schema", fun t => (RefOr.read? Schema.read? t).map fun _ => ())] o

def securityScheme : Check := fun t => do
  let o ← t.fields?
  Check.optional [("description", Check.text)] o
  match ← o.required? "type" asText? with
  | "apiKey" => do
    o.required? "name" Check.text
    o.required? "in" fun t => do if (← t.asText?) ∈ ["query", "header", "cookie"] then some () else none
  | "http" => do
    o.required? "scheme" Check.text
    Check.optional [("bearerFormat", Check.text)] o
  | "oauth2" => o.required? "flows" Check.object
  | "openIdConnect" => o.required? "openIdConnectUrl" Check.text
  | "mutualTLS" => some ()
  | _ => none

def readComponents? (t : Tree) : Option Components := do
  let o ← t.fields?
  let _ ← o.dict? "responses" (RefOr.read? response)
  let _ ← o.dict? "examples" (RefOr.read? Check.object)
  let _ ← o.dict? "headers" (RefOr.read? header)
  let _ ← o.dict? "pathItems" (RefOr.read? PathItem.read?)
  let _ ← o.dict? "securitySchemes" (RefOr.read? securityScheme)
  let _ ← o.dict? "links" (RefOr.read? Check.object)
  let _ ← o.dict? "callbacks" (RefOr.read? Check.object)
  return {
    schemas := ← o.dict? "schemas" (RefOr.read? Schema.read?)
    parameters := ← o.dict? "parameters" (RefOr.read? Parameter.read?)
    requestBodies := ← o.dict? "requestBodies" (RefOr.read? RequestBody.read?) }

/-- Reads a whole document. -/
def read? (t : Tree) : Option Document := do
  let o ← t.fields?
  o.required? "openapi" Check.text
  o.required? "info" info
  let _ ← o.list? "tags" tag
  let _ ← o.dict? "webhooks" PathItem.read?
  Check.optional [("externalDocs", externalDocs)] o
  let paths ← o.optional? "paths" (asDict? PathItem.read?)
  let components ← o.optional? "components" readComponents?
  return {
    servers := ← o.list? "servers" Server.read?
    paths := paths.getD ∅
    components := components.getD {}
    security := ← o.list? "security" requirement? }

end Document
end ActionCatalog
