import ActionCatalog.Text.Piece

/-! References to the components of a document: `file#/components/kind/name`. -/
namespace ActionCatalog

/-- The kinds of components that a reference can lead to. -/
inductive Kind where
  | schema | response | parameter | sample | requestBody | header | securityScheme | link | callback
  deriving DecidableEq, Repr

namespace Kind

/-- The kind of the components in a section of a document. -/
def ofSection? (name : List Char) : Option Kind :=
  [("schemas", schema), ("responses", response), ("parameters", parameter), ("examples", sample),
   ("requestBodies", requestBody), ("headers", header), ("securitySchemes", securityScheme),
   ("links", link), ("callbacks", callback)].lookup (String.ofList name)

def title : Kind → String
  | schema => "Schema"
  | response => "Response"
  | parameter => "Parameter"
  | sample => "Example"
  | requestBody => "RequestBody"
  | header => "Header"
  | securityScheme => "SecurityScheme"
  | link => "Link"
  | callback => "Callback"

end Kind

/-- The parts of a reference. What stands before the number sign is not looked at. -/
structure Pointer where
  file : List Char
  kind : List Char
  name : List Char
  deriving DecidableEq, Repr

namespace Pointer

def root : List Char := "#/components/".toList

/-- The parts of a reference text; the name may hold further slashes, but no line break. -/
def parse? (text : List Char) : Option Pointer :=
  let file := text.takeWhile (· ≠ '#')
  let behind := text.dropWhile (· ≠ '#')
  if root.isPrefixOf behind then
    let body := behind.drop root.length
    let kind := body.takeWhile (· ≠ '/')
    let name := (body.dropWhile (· ≠ '/')).drop 1
    if kind.isEmpty || name.isEmpty || '\n' ∈ name then none else some ⟨file,kind,name⟩
  else none

def print (p : Pointer) : List Char := p.file ++ root ++ p.kind ++ '/' :: p.name

/-- What a reference text says about the component inside its own document that it names. -/
inductive LocalName where
  | named (name : String)
  | elsewhere
  | malformed
  deriving DecidableEq, Repr

/-- The name of a component of the same document. Texts that do not start like such a reference have
none, and neither have those to components of an unknown kind. -/
def localName (text : String) : LocalName :=
  let s := text.toList
  if "#/components".toList.isPrefixOf s then
    match parse? s with
    | none => .malformed
    | some p => if (Kind.ofSection? p.kind).isSome then .named (.ofList p.name) else .elsewhere
  else .elsewhere

end Pointer
end ActionCatalog
