import ActionCatalog.Document.Model
import ActionCatalog.Failure
import ActionCatalog.Text.Piece

/-! Path templates: texts such as `/teams/{id}` in which tokens in braces stand for parameters. -/
namespace ActionCatalog.PathTemplate

/-- A character that stands for itself, or a token with the name it carries. -/
inductive Part where
  | char (c : Char)
  | token (source name : List Char)
  deriving DecidableEq, Repr

def isBrace (c : Char) : Bool := c = '{' || c = '}'

/-- One leading operator is not part of a name, unless it is all there is. -/
def dropOperator : List Char → List Char
  | c :: d :: rest => if c ∈ ['.',';','?'] then d :: rest else c :: d :: rest
  | rest => rest

/-- One trailing asterisk is not part of a name. -/
def dropExplode (inside : List Char) : List Char :=
  if inside.getLast? = some '*' then inside.dropLast else inside

/-- The name between two braces, if it may be one. -/
def name? (inside : List Char) : Option (List Char) :=
  let body := dropExplode inside
  if body.isEmpty || '*' ∈ body then none else some (dropOperator body)

/-- The token at the start of a text. -/
def token? : List Char → Option Part
  | '{' :: rest =>
    let inside := rest.takeWhile (!isBrace ·)
    if (rest.drop inside.length).head? = some '}' then
      (name? inside).map (.token ('{' :: inside ++ ['}']))
    else none
  | _ => none

/-- The parts of a text; the number tells how many characters of a token are still to be passed over. -/
def scan : Nat → List Char → List Part
  | _, [] => []
  | k+1, _ :: rest => scan k rest
  | 0, c :: rest =>
    match token? (c :: rest) with
    | some (.token source name) => .token source name :: scan (source.length - 1) rest
    | _ => .char c :: scan 0 rest

def parts (path : String) : List Part := scan 0 path.toList

def Part.source : Part → List Char
  | char c => [c]
  | token source _ => source

def Part.name? : Part → Option String
  | char _ => none
  | token _ name => some (.ofList name)

/-- The names of the tokens from left to right. -/
def tokens (path : String) : List String := (parts path).filterMap Part.name?

/-- The tokens with the bytes they stand at, counted from `start`. -/
def spansFrom (start : Nat) : List Part → List (Nat × Nat × String)
  | [] => []
  | p :: rest =>
    let stop := start + Text.width p.source
    match p.name? with
    | some name => (start,stop,name) :: spansFrom stop rest
    | none => spansFrom stop rest

def spans (path : String) : List (Nat × Nat × String) := spansFrom 0 (parts path)

/-- Takes the first element with a property out of a list; the last element moves into its place. -/
def takeOut? {α : Type} (p : α → Bool) : List α → Option (α × List α)
  | [] => none
  | x :: rest =>
    if p x then
      match rest.getLast? with
      | none => some (x,[])
      | some last => some (x,last :: rest.dropLast)
    else (takeOut? p rest).map fun (y,left) => (y,x :: left)

/-- Takes for each name the first element that has it. -/
def pick {α : Type} (nameOf : α → String) : List String → List α → Except String (List α)
  | [], _ => .ok []
  | name :: names, left =>
    match takeOut? (nameOf · = name) left with
    | none => .error name
    | some (x,left) => do return x :: (← pick nameOf names left)

/-- Brings what is declared into the order of the tokens, of which there must be as many. -/
def arrange {α : Type} (nameOf : α → String) (path : String) (declared : List α) :
    Except Failure (List α) :=
  let names := tokens path
  if names.length ≠ declared.length then .error (.parameterCount path names.length declared.length)
  else
    match pick nameOf names declared with
    | .ok ordered => .ok ordered
    | .error name => .error (.unknownParameter path name)

end ActionCatalog.PathTemplate
