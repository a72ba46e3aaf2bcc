import ActionCatalog.Yaml.Token
import ActionCatalog.Text.Digit

/-! Scalars as they run over the lines of a text. Line breaks inside plain and quoted scalars fold:
one break reads as a space, further breaks stand for themselves. -/
namespace ActionCatalog.Yaml

/-- A place in a text. -/
structure Place where
  line : Nat := 0
  column : Nat := 0
  deriving DecidableEq, Repr

def Place.after (p : Place) (c : Char) : Place :=
  if isBreak c then ⟨p.line + 1,0⟩ else ⟨p.line,p.column + 1⟩

/-- What was read, and where reading goes on. -/
structure Scanned (α : Type) where
  value : α
  rest : List Char
  place : Place

/-- A scalar under way, all texts reversed: what was read, and the blanks or the breaks met since. -/
structure Run where
  text : List Char := []
  blanks : List Char := []
  broken : Bool := false
  first : List Char := []
  more : List Char := []

namespace Run

/-- Takes in a blank or a break. -/
def pause (r : Run) (c : Char) : Run :=
  if isBreak c then
    if r.broken then { r with more := c :: r.more } else { r with blanks := [], broken := true, first := [c] }
  else if r.broken then r else { r with blanks := c :: r.blanks }

/-- Settles the blanks and breaks that the text goes on after. -/
def resume (r : Run) : Run :=
  let gap := if r.broken then
      if r.first = ['\n'] then (if r.more.isEmpty then [' '] else r.more) else r.more ++ r.first
    else r.blanks
  { text := gap ++ r.text }

def push (r : Run) (c : Char) : Run := { r with text := c :: r.text }

end Run

/-- Whether a plain scalar ends before `c`; in a flow collection some indicators cannot follow a
colon at all. -/
def endsPlain (flow : Bool) (c : Char) (rest : List Char) : Option Bool :=
  if flow && c = ':' && (rest.head?.any (· ∈ [',','?','[',']','{','}'])) then none
  else some ((c = ':' && startsBlank rest) || (flow && c ∈ [',','[',']','{','}']))

/-- A plain scalar whose lines are indented by `margin` at least. The flag tells of a gap just passed. -/
def plainRun (flow : Bool) (margin : Int) :
    List Char → Place → Bool → Run → Option (Scanned Run)
  | [], p, _, r => some ⟨r,[],p⟩
  | c :: rest, p, gap, r =>
    if isSpaceOrTab c || isBreak c then
      if c = '\t' && r.broken && p.column < margin then none
      else plainRun flow margin rest (p.after c) true (r.pause c)
    else if gap && ((!flow && p.column < margin) || (p.column = 0 && startsMarker (c :: rest)) || c = '#') then
      some ⟨r,c :: rest,p⟩
    else do
      if ← endsPlain flow c rest then some ⟨r,c :: rest,p⟩
      else plainRun flow margin rest (p.after c) false (r.resume.push c)

/-- The character that a letter after a backslash stands for. -/
def escape? (c : Char) : Option Char :=
  match c with
  | '0' => some '\x00'
  | 'a' => some '\x07'
  | 'b' => some '\x08'
  | 't' => some '\t'
  | '\t' => some '\t'
  | 'n' => some '\n'
  | 'v' => some '\x0b'
  | 'f' => some '\x0c'
  | 'r' => some '\r'
  | 'e' => some '\x1b'
  | ' ' => some ' '
  | '"' => some '"'
  | '/' => some '/'
  | '\\' => some '\\'
  | 'N' => some '\u0085'
  | '_' => some '\u00a0'
  | 'L' => some '\u2028'
  | 'P' => some '\u2029'
  | _ => none

/-- The number of hexadecimal digits that a letter after a backslash asks for. -/
def hexLength? (c : Char) : Option Nat :=
  if c = 'x' then some 2 else if c = 'u' then some 4 else if c = 'U' then some 8 else none

/-- The character of a code, if the code has one. -/
def charOf? (n : Nat) : Option Char := if n.isValidChar then some (Char.ofNat n) else none

/-- The effect of a backslash before `s`: what it adds, and how many characters of `s` it uses. -/
def escapeRun? (r : Run) (s : List Char) : Option (Run × Nat) :=
  match s with
  | [] => none
  | c :: rest =>
    if isBreak c then some ({ r with broken := true }, 1)
    else match hexLength? c with
      | some n =>
        if (rest.take n).length = n then
          (Text.natural? 16 (rest.take n) >>= charOf?).map fun d => (r.push d, n + 1)
        else none
      | none => (escape? c).map fun d => (r.push d, 1)

/-- A quoted scalar, from behind its opening quote. The number tells how many characters belong to an
escape that was dealt with. -/
def quotedRun (quote : Char) : List Char → Place → Nat → Run → Option (Scanned Run)
  | [], _, _, _ => none
  | c :: rest, p, skip+1, r => quotedRun quote rest (p.after c) skip r
  | c :: rest, p, 0, r =>
    if p.column = 0 && startsMarker (c :: rest) then none
    else if isSpaceOrTab c || isBreak c then quotedRun quote rest (p.after c) 0 (r.pause c)
    else
      let r := r.resume
      if c = quote then
        if quote = '\'' && rest.head? = some '\'' then quotedRun quote rest (p.after c) 1 (r.push '\'')
        else some ⟨r,rest,p.after c⟩
      else if c = '\\' && quote = '"' then do
        let (r, used) ← escapeRun? r rest
        quotedRun quote rest (p.after c) used r
      else quotedRun quote rest (p.after c) 0 (r.push c)

/-- What becomes of the line breaks at the end of a block scalar. -/
inductive Chomp where
  | strip | clip | keep
  deriving DecidableEq, Repr

/-- The header of a block scalar, from behind its indicator: chomping and indentation in either
order, then a comment up to the end of the line. -/
def blockHeader? (s : List Char) : Option (Chomp × Nat × Nat) := do
  let (chomp, s1) := chompMark s
  let (width, s2) ← widthMark s1
  let (chomp, s3) := if s1.length = s.length then chompMark s2 else (chomp, s2)
  let s4 := s3.dropWhile isSpaceOrTab
  let s5 := if s4.head? = some '#' then s4.dropWhile (!isBreak ·) else s4
  if s5.isEmpty || s5.head?.any isBreak then
    some (chomp, width, s.length - s5.length)
  else none
where
  chompMark : List Char → Chomp × List Char
    | '+' :: s => (.keep, s)
    | '-' :: s => (.strip, s)
    | s => (.clip, s)
  widthMark : List Char → Option (Nat × List Char)
    | c :: s => if c = '0' then none else if c.isDigit then some (c.toNat - '0'.toNat, s) else some (0, c :: s)
    | [] => some (0, [])

/-- The empty lines before a block scalar, and the width of the widest indentation met. -/
def blockMargin : List Char → Place → Nat → List Char → Option (Scanned (Nat × List Char))
  | [], p, width, breaks => some ⟨(max width p.column,breaks),[],p⟩
  | c :: rest, p, width, breaks =>
    if c = ' ' then blockMargin rest (p.after c) width breaks
    else if c = '\t' then none
    else if isBreak c then blockMargin rest (p.after c) (max width p.column) (c :: breaks)
    else some ⟨(max width p.column,breaks),c :: rest,p⟩

/-- A block scalar under way, all texts reversed: what was read, the last line break, the breaks of
the empty lines after it, and whether the last line started with a blank. -/
structure Block where
  text : List Char := []
  last : List Char := []
  more : List Char := []
  blank : Bool := false

/-- Starts a line: in a folded scalar a break between two lines that start with no blank folds. -/
def Block.startLine (literal : Bool) (b : Block) (c : Char) : Block :=
  let gap := if !literal && b.last = ['\n'] && !b.blank && !isSpaceOrTab c then
      (if b.more.isEmpty then [' '] else b.more)
    else b.more ++ b.last
  { text := c :: (gap ++ b.text), blank := isSpaceOrTab c }

def Block.finish (chomp : Chomp) (b : Block) : List Char :=
  match chomp with
  | .strip => b.text
  | .clip => b.last ++ b.text
  | .keep => b.more ++ b.last ++ b.text

/-- The lines of a block scalar; the flag tells whether a line has begun. -/
def blockRun (literal : Bool) (indent : Nat) :
    List Char → Place → Bool → Block → Option (Scanned Block)
  | [], p, _, b => some ⟨b,[],p⟩
  | c :: rest, p, true, b =>
    if isBreak c then blockRun literal indent rest (p.after c) false { b with last := [c] }
    else blockRun literal indent rest (p.after c) true { b with text := c :: b.text }
  | c :: rest, p, false, b =>
    if c = ' ' && p.column < indent then blockRun literal indent rest (p.after c) false b
    else if c = '\t' && p.column < indent then none
    else if isBreak c then blockRun literal indent rest (p.after c) false { b with more := c :: b.more }
    else if p.column = indent then blockRun literal indent rest (p.after c) true (b.startLine literal c)
    else some ⟨b,c :: rest,p⟩

end ActionCatalog.Yaml
