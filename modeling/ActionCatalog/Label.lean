import ActionCatalog.Text.Letter
import ActionCatalog.Text.Piece

/-! Labels for people, derived from the identifiers of a document: `userIds` reads `User Ids`. -/
namespace ActionCatalog.Label
open Text

/-- Underscores and dots separate words. -/
def respace (text : List Char) : List Char := text.map fun c => if c = '_' || c = '.' then ' ' else c

/-- Drops the pairs of brackets that mark list parameters. -/
def dropBrackets : List Char → List Char
  | '[' :: ']' :: rest => dropBrackets rest
  | c :: rest => c :: dropBrackets rest
  | [] => []

/-- A capital after a lower-case letter starts a word; runs of capitals stay together. -/
def splitCase : List Char → List Char
  | a :: b :: rest =>
    if isLower a && isUpper b then a :: ' ' :: splitCase (b :: rest) else a :: splitCase (b :: rest)
  | rest => rest

/-- Words written in capitals throughout. -/
def acronyms : List (List Char) := [['u','r','l'], ['i','d'], ['i','p'], ['s','s','l']]

/-- Capitalizes the letters at which a word starts; letters, digits and underscores continue it. -/
def titleFrom (start : Bool) : List Char → List Char
  | [] => []
  | c :: rest => (if start then capital c else [c]) ++ titleFrom (!(isAlphanumeric c || c = '_')) rest

def normalize (word : List Char) : List Char :=
  if word ∈ acronyms then word.flatMap capital
  else if word = ['i','d','s'] ∨ word = ['I','D','S'] then ['I','D','s']
  else titleFrom true word

def spell (name : List Char) : List Char :=
  [' '].intercalate ((words (splitCase (dropBrackets (respace name)))).map normalize)

/-- The label of an identifier. -/
def ofName (name : String) : String := .ofList (spell name.toList)

end ActionCatalog.Label
