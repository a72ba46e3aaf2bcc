import ActionCatalog.PathTemplate
import ActionCatalog.Text.Piece

/-! Expressions in the template language: literals in single quotes and the names of parameters, joined
by plus signs between double braces. -/
namespace ActionCatalog.Expression

def escape (text : List Char) : List Char := text.flatMap fun c => if c = '\'' then ['\\','\''] else [c]

/-- A literal that reads back as the text. -/
def quote (text : String) : String := "'" ++ .ofList (escape text.toList) ++ "'"

def parameter (name : String) : String := "params." ++ name

/-- Wraps an expression as a template. -/
def wrap (expression : String) : String := "\x7b\x7b" ++ expression ++ "\x7d\x7d"

/-- The URL of the first server with the defaults of its variables put in, variable by variable. -/
def defaultHost : List Server → Option String
  | [] => none
  | s :: _ => some (s.defaults.entries.foldl (fun url (name,value) =>
      .ofList (Text.replace ('{' :: name.toList ++ ['}']) value.toList url.toList)) s.url)

/-- The address of a connection, or a literal host where there is no connection to ask. A connection
that may lack an address comes before one that has it. -/
def host (mayHave has : Option String) (default : String) : String :=
  match mayHave.filter (· ≠ ""), has.filter (· ≠ "") with
  | some connection, _ =>
    let address := "connection." ++ connection ++ ".REQUEST_URL"
    "(exists(" ++ address ++ ") ? " ++ address ++ " : " ++ quote default ++ ")"
  | none, some connection => "connection." ++ connection ++ ".REQUEST_URL"
  | none, none => quote default

/-- A piece of a path: text, or a token for which a parameter is put in. -/
inductive Term where
  | literal (text : List Char)
  | parameter (source name : List Char)
  deriving DecidableEq, Repr

namespace Term

def text : Term → String
  | literal text => quote (.ofList text)
  | parameter _ name => Expression.parameter (.ofList name)

/-- Puts text in front, into the literal that stands there if one does. -/
def prepend (text : List Char) : List Term → List Term
  | literal rest :: terms => literal (text ++ rest) :: terms
  | terms => literal text :: terms

end Term

/-- The terms of a path. Tokens that no parameter is declared for stay part of the text. -/
def termsOf (declared : List Char → Bool) : List PathTemplate.Part → List Term
  | [] => []
  | .char c :: rest => Term.prepend [c] (termsOf declared rest)
  | .token source name :: rest =>
    if declared name then .parameter source name :: termsOf declared rest
    else Term.prepend source (termsOf declared rest)

/-- The terms of a path, of which there is at least one. -/
def terms (path : String) (declared : List String) : List Term :=
  match termsOf (fun name => declared.contains (.ofList name)) (PathTemplate.parts path) with
  | [] => [.literal []]
  | ts => ts

def path (path : String) (declared : List String) : String :=
  " + ".intercalate ((terms path declared).map Term.text)

def queryTerm (mark : Char) (name : String) : String :=
  "'" ++ .ofList [mark] ++ name ++ "=' + " ++ parameter name

/-- The query of a URL, if there is anything to put into it. -/
def query : List String → Option String
  | [] => none
  | name :: names => some (wrap (" + ".intercalate (queryTerm '?' name :: names.map (queryTerm '&'))))

/-- A URL: a host expression, a path expression and the names of the query. -/
def url (host path : String) (names : List String) : String :=
  wrap (host ++ " + " ++ path) ++ (query names).getD ""

end ActionCatalog.Expression
