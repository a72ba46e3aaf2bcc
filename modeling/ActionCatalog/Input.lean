import ActionCatalog.Document.Schema

/-! The inputs that an action asks of a person, with what is shown of them. -/
namespace ActionCatalog

/-- The kind of field an input is typed into. Masks may name kinds that no schema gives. -/
inductive Category where
  | string | integer | number | bool | array | json | dropdown
  | custom (name : String)
  deriving DecidableEq, Repr

namespace Category

def text : Category → String
  | string => "string"
  | integer => "integer"
  | number => "number"
  | bool => "bool"
  | array => "array"
  | json => "code:json"
  | dropdown => "dropdown"
  | custom name => name

def ofText (name : String) : Category :=
  match name with
  | "string" => string
  | "integer" => integer
  | "number" => number
  | "bool" => bool
  | "boolean" => bool
  | "array" => array
  | "code:json" => json
  | "object" => json
  | "dropdown" => dropdown
  | _ => custom name

def ofType? : DataType → Option Category
  | .string => some string
  | .integer => some integer
  | .number => some number
  | .boolean => some bool
  | .array => some array
  | .object => some json
  | .null => none

end Category

structure Input where
  category : Option Category := none
  description : String := ""
  placeholder : String := ""
  required : Bool := false
  default : String := ""
  options : List String := []
  index : Int := 999
  format : String := ""
  isMulti : Bool := false
  displayName : String := ""
  deriving DecidableEq, Repr

namespace Input

/-- An example that is a text serves as a placeholder, announced as one unless it stands for an object. -/
def placeholderOf (s : Schema) : String :=
  match s.sample.bind Value.asText? with
  | none => ""
  | some text =>
    if text = "" then "" else if s.soleType? = some .object then text else "Example: " ++ text

/-- The text of a default; that of a list joins the texts of its items. -/
def defaultOf (s : Schema) : String :=
  match s.preset, s.soleType? with
  | none, _ => ""
  | some (.list items), some .array => ",".intercalate (items.map Value.plain)
  | some _, some .array => ""
  | some v, _ => v.plain

/-- Texts to choose from make a dropdown, otherwise the type decides. -/
def categoryOf (s : Schema) : Option Category :=
  if s.options.isEmpty then s.soleType?.bind Category.ofType? else some .dropdown

/-- The input for a value of a schema. -/
def ofSchema (s : Schema) (required : Bool) (description : String) : Input where
  category := categoryOf s
  description := description
  placeholder := placeholderOf s
  required := required
  default := defaultOf s
  options := s.options
  format := s.format.getD ""

end Input
end ActionCatalog
