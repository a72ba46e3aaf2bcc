import ActionCatalog.Document.Declared
import ActionCatalog.Document.Reader
import ActionCatalog.Json.Reader
import ActionCatalog.Yaml.Node

/-! Where documents come from, and in which format they are written. -/
namespace ActionCatalog

namespace Path

/-- A location seen from a directory. -/
def join (base location : String) : String :=
  if location.toList.head? = some '/' || base = "" then location
  else if base.toList.getLast? = some '/' then base ++ location
  else base ++ "/" ++ location

/-- The last part of a path that names something. -/
def fileName? (path : String) : Option (List Char) :=
  let parts := (Text.splitWhere (· = '/') path.toList).filter fun p => !p.isEmpty && p ≠ ['.']
  parts.getLast?.filter (· ≠ ['.','.'])

/-- What follows the last dot of a file name that does not merely start with it. -/
def extension? (path : String) : Option String := do
  let name ← fileName? path
  let reversed := name.reverse
  let stem := (reversed.dropWhile (· ≠ '.')).drop 1
  if stem.isEmpty then none else some (.ofList (reversed.takeWhile (· ≠ '.')).reverse)

end Path

inductive Format where
  | json | yaml
  deriving DecidableEq, Repr

namespace Format

def ofExtension? (extension : String) : Option Format :=
  match Text.asciiLower extension with
  | "json" => some .json
  | "yaml" => some .yaml
  | "yml" => some .yaml
  | _ => none

/-- A text that opens an object is JSON, anything else is YAML. -/
def sniff (bytes : List UInt8) : Format :=
  if (bytes.find? fun b => b ∉ [32,9,10,12,13]) = some 123 then .json else .yaml

/-- The tree of a text in a format. -/
def tree? (f : Format) (bytes : ByteArray) : Option Tree := do
  let text ← String.fromUTF8? bytes
  match f with
  | .json => Json.read? text
  | .yaml => Yaml.read? text

end Format

inductive Source where
  | file (path : String)
  | remote (url : String)
  deriving DecidableEq, Repr

namespace Source

def isRemote (location : String) : Bool :=
  "http://".toList.isPrefixOf location.toList || "https://".toList.isPrefixOf location.toList

/-- A URL of the web, or else a path seen from a directory. -/
def resolve (base location : String) : Source :=
  if isRemote location then .remote location else .file (Path.join base location)

def text : Source → String
  | file path => path
  | remote url => url

def declaredFormat? : Source → Option Format
  | file path => (Path.extension? path).bind Format.ofExtension?
  | remote url =>
    (Path.extension? (.ofList (url.toList.takeWhile fun c => c ≠ '?' && c ≠ '#'))).bind Format.ofExtension?

/-- The declared format, or else the one that the bytes look like. -/
def format (s : Source) (bytes : ByteArray) : Format := s.declaredFormat?.getD (.sniff bytes.toList)

end Source
end ActionCatalog
