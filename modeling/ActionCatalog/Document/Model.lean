import ActionCatalog.Document.Schema

/-! API documents: servers, paths with their operations, and the components they share. -/
namespace ActionCatalog

inductive Method where
  | get | put | post | delete | options | head | patch | trace
  deriving DecidableEq, Repr

namespace Method

def name : Method → String
  | get => "GET"
  | put => "PUT"
  | post => "POST"
  | delete => "DELETE"
  | options => "OPTIONS"
  | head => "HEAD"
  | patch => "PATCH"
  | trace => "TRACE"

/-- The name in lower case, which is also the key of an operation in a path item. -/
def key : Method → String
  | get => "get"
  | put => "put"
  | post => "post"
  | delete => "delete"
  | options => "options"
  | head => "head"
  | patch => "patch"
  | trace => "trace"

/-- The order in which the operations of a path are visited, by name; a trace is visited twice. -/
def visits : List Method := [delete,get,head,options,patch,post,put,trace,trace]

end Method

inductive Location where
  | path | query | header | cookie
  deriving DecidableEq, Repr

structure Server where
  url : String
  /-- The variables of the URL with their default values. -/
  defaults : Dict String := ∅
  deriving DecidableEq, Repr

/-- One way to meet the security of a document: the scopes asked of each provider. -/
abbrev Requirement := Dict (List String)

namespace Document

structure Parameter where
  name : String
  location : Location
  required : Bool := false
  description : Option String := none
  schema : Option (RefOr Schema) := none
  deriving Repr

/-- A body by its content types, of which each may have a schema. -/
structure RequestBody where
  content : Dict (Option (RefOr Schema)) := ∅
  required : Bool := false
  deriving Repr

structure Operation where
  operationId : Option String := none
  summary : Option String := none
  description : Option String := none
  parameters : List (RefOr Parameter) := []
  requestBody : Option (RefOr RequestBody) := none
  security : List Requirement := []
  servers : List Server := []

structure PathItem where
  operation : Method → Option Operation := fun _ => none
  parameters : List (RefOr Parameter) := []
  servers : List Server := []

/-- The operations of a path in the order in which they are visited. -/
def PathItem.visits (p : PathItem) : List (Method × Operation) :=
  Method.visits.filterMap fun m => (p.operation m).map (m, ·)

end Document

structure Components where
  schemas : Dict (RefOr Schema) := ∅
  parameters : Dict (RefOr Document.Parameter) := ∅
  requestBodies : Dict (RefOr Document.RequestBody) := ∅

structure Document where
  servers : List Server := []
  paths : Dict Document.PathItem := ∅
  components : Components := {}
  security : List Requirement := []

end ActionCatalog
