import ActionCatalog.Text.Piece

/-! Names of the fields of a body. A field inside another is named by both names, joined by two
underscores. -/
namespace ActionCatalog.Body

/-- The name of a property inside a parent; at the root it is the property's own. -/
def join (parent name : String) : String := if parent = "" then name else parent ++ "__" ++ name

/-- The pieces between the pairs of underscores, found from left to right. -/
def split : List Char → List (List Char)
  | '_' :: '_' :: rest => [] :: split rest
  | c :: rest => Text.extendHead c (split rest)
  | [] => [[]]

/-- The names that a field's name is made of. -/
def segments (path : String) : List String := (split path.toList).map String.ofList

end ActionCatalog.Body
