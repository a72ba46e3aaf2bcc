import ActionCatalog.Catalog.Generation
import ActionCatalog.Console.Arguments
import ActionCatalog.Console.Storage
import ActionCatalog.Document.Source
import ActionCatalog.Mask.Reader

/-! What a command works on: a document and a mask, both seen from a directory. -/
namespace ActionCatalog.Console

structure Job where
  directory : String
  source : Source
  mask : String
  maskRequired : Bool
  verbose : Bool
  quiet : Bool
  deriving DecidableEq, Repr

/-- What keeps a command from being carried out. -/
inductive Problem where
  | fetch (url : String)
  | openDocument (source : Source)
  | parseDocument (source : Source)
  | readSecurity (source : Source)
  | readMask (path : String)
  | invalidMask (path : String)
  | failed (failure : Failure)
  | unknownAction (name : String) (source : Source)
  | makeDirectory (reason : String)
  | write (path : String)
  deriving DecidableEq, Repr

namespace Problem

def message : Problem → String
  | fetch url => s!"cannot fetch {url}: built without the `remote` feature"
  | openDocument source => s!"failed to open OpenAPI document {source.text}"
  | parseDocument source => s!"failed to parse OpenAPI document {source.text}"
  | readSecurity source => s!"failed to read operation security of {source.text}"
  | readMask path => s!"failed to read mask {path}"
  | invalidMask path => s!"invalid mask {path}"
  | failed failure => failure.message
  | unknownAction name source => s!"no operation named '{name}' in {source.text}"
  | makeDirectory reason => reason
  | write path => s!"failed to write {path}"

def ofFailure {α : Type} : Except Failure α → Except Problem α
  | .ok v => .ok v
  | .error f => .error (.failed f)

end Problem

/-- A document with its declared security, and the mask to look at it through. -/
structure Inputs where
  document : Document
  declared : DeclaredSecurity
  mask : Mask

namespace Job

/-- The job of a request; relative paths are seen from the current directory. -/
def ofRequest (current : String) (r : Request) : Job :=
  let directory := Path.join current ((r.get? .path).getD "")
  { directory := directory
    source := .resolve directory ((r.get? .openapi).getD "openapi.yaml")
    mask := Path.join directory ((r.get? .mask).getD "mask.yaml")
    maskRequired := (r.get? .mask).isSome
    verbose := r.has .verbose
    quiet := r.has .quiet }

/-- Where the catalog is written. -/
def output (j : Job) : String := Path.join j.directory "named_actions.yaml"

def loadDocument (j : Job) (look : String → Entry) : Except Problem (Document × DeclaredSecurity) :=
  match j.source with
  | .remote url => .error (.fetch url)
  | .file path =>
    match look path with
    | .file bytes =>
      match (j.source.format bytes).tree? bytes with
      | none => .error (.parseDocument j.source)
      | some tree =>
        match Document.read? tree, DeclaredSecurity.read? tree with
        | none, _ => .error (.parseDocument j.source)
        | some _, none => .error (.readSecurity j.source)
        | some document, some declared => .ok (document,declared)
    | _ => .error (.openDocument j.source)

/-- Only a mask that was not asked for by name may be missing. -/
def loadMask (j : Job) (look : String → Entry) : Except Problem Mask :=
  match look j.mask with
  | .file bytes =>
    match String.fromUTF8? bytes with
    | none => .error (.readMask j.mask)
    | some text =>
      match Mask.read text with
      | .ok mask => .ok mask
      | .error _ => .error (.invalidMask j.mask)
  | .absent => if j.maskRequired then .error (.readMask j.mask) else .ok {}
  | _ => .error (.readMask j.mask)

def load (j : Job) (look : String → Entry) : Except Problem Inputs := do
  let (document,declared) ← j.loadDocument look
  return ⟨document,declared,← j.loadMask look⟩

end Job
end ActionCatalog.Console
