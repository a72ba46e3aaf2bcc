import ActionCatalog.Text.Piece
import ActionCatalog.Yaml.Data
import ActionCatalog.Yaml.Token

/-! Writing values as YAML. Collections are written in block style, two columns deeper than what they
are in; a list that is the value of a plain key stays at the column of the key. -/
namespace ActionCatalog.Yaml.Writer

/-- Characters that may stand for themselves. -/
def isPrintable (c : Char) : Bool :=
  let n := c.toNat
  n = 0xA || (0x20 ≤ n && n ≤ 0x7E) || (0xA0 ≤ n && n ≤ 0xD7FF)
    || (0xE000 ≤ n && n ≤ 0xFFFD && n ≠ 0xFEFF) || 0x10000 ≤ n

/-- Every form of a line break. -/
def isAnyBreak (c : Char) : Bool := isBreak c || c = '\r' || c.toNat = 0x85

def isBlankOrBreak (c : Char) : Bool := isSpaceOrTab c || isAnyBreak c || c.toNat = 0

/-- Whether a blank, a break or the end of the text comes next. -/
def blankNext : List Char → Bool
  | [] => true
  | c :: _ => isBlankOrBreak c

/-- Whether a character that is not the first would end a plain scalar, given the one before. -/
def breaksPlain (previous : Char) : List Char → Bool
  | [] => false
  | c :: rest =>
    (c = ':' && blankNext rest) || (c = '#' && isBlankOrBreak previous) || breaksPlain c rest

/-- Whether a plain scalar could not be read back, for its first characters or for what follows. -/
def hasIndicator : List Char → Bool
  | [] => false
  | c :: rest =>
    c ∈ "#,[]{}&*!|>'\"%@`".toList || ((c = '-' || c = '?' || c = ':') && blankNext rest)
      || (c :: rest).take 3 = ['-','-','-'] || (c :: rest).take 3 = ['.','.','.'] || breaksPlain c rest

/-- Whether a character of one kind stands directly before one of another. -/
def hasPair (p q : Char → Bool) : List Char → Bool
  | a :: b :: rest => (p a && q b) || hasPair p q (b :: rest)
  | _ => false

def isSpace (c : Char) : Bool := c = ' '

/-- Whether only escapes can express a text. -/
def needsEscapes (s : List Char) : Bool := s.any (!isPrintable ·) || hasPair isSpace isAnyBreak s

/-- How a text is best written. -/
def wanted (s : List Char) : Style :=
  if '\n' ∈ s then .literal
  else match resolve? (.ofList s) with
    | some (.text _) => if isZeroPadded s then .singleQuoted else .plain
    | _ => .singleQuoted

def allowsPlain (s : List Char) : Bool :=
  !needsEscapes s && !s.any isAnyBreak && !hasIndicator s && s.head? ≠ some ' ' && s.getLast? ≠ some ' '

/-- How a text is written, as close to what is wanted as it can be. -/
def styleOf (s : List Char) : Style :=
  match wanted s with
  | .literal => if needsEscapes s || s.getLast? = some ' ' then .doubleQuoted else .literal
  | style =>
    if style = .plain && allowsPlain s then .plain
    else if needsEscapes s || hasPair isAnyBreak isSpace s then .doubleQuoted else .singleQuoted

/-- Hexadecimal digits in capitals, at least `width` of them. -/
def hex (width n : Nat) : List Char :=
  let ds := (Nat.toDigits 16 n).map Char.toUpper
  List.replicate (width - ds.length) '0' ++ ds

def escape (c : Char) : List Char :=
  let n := c.toNat
  match [(0,'0'), (7,'a'), (8,'b'), (9,'t'), (10,'n'), (11,'v'), (12,'f'), (13,'r'), (27,'e'), (34,'"'),
      (92,'\\'), (0x85,'N'), (0x2028,'L'), (0x2029,'P')].lookup n with
  | some letter => ['\\',letter]
  | none =>
    if isPrintable c then [c]
    else if n ≤ 0xFF then '\\' :: 'x' :: hex 2 n
    else if n ≤ 0xFFFF then '\\' :: 'u' :: hex 4 n
    else '\\' :: 'U' :: hex 8 n

/-- What is written so far, from back to front. -/
abbrev Page := List Char

def put (s : List Char) (page : Page) : Page := s.reverse ++ page

/-- Starts a line, unless one has just been started, and goes to a column. -/
def line (column : Nat) (page : Page) : Page :=
  put (List.replicate column ' ') (match page with
    | [] => []
    | c :: _ => if isBreak c then page else '\n' :: page)

/-- Writes text whose lines start at a column; lines without text are left empty. -/
def lines (column : Nat) (started : Bool) : List Char → Page → Page
  | [], page => page
  | c :: rest, page =>
    if isBreak c then lines column false rest (c :: page)
    else lines column true rest (c :: if started then page else put (List.replicate column ' ') page)

/-- What is said of a literal text before its first line: the indentation where the text itself starts
with a blank line or a space, and how the line breaks at its end are to be read. -/
def header (s : List Char) : List Char :=
  let lead := if s.head?.any fun c => c = ' ' || isAnyBreak c then ['2'] else []
  let chomp := match s.reverse with
    | [] => ['-']
    | c :: rest =>
      if !isAnyBreak c then ['-']
      else match rest with
        | [] => ['+']
        | d :: _ => if isAnyBreak d then ['+'] else []
  lead ++ chomp

/-- Writes a text inside something that stands at a column. -/
def scalar (column : Nat) (s : List Char) (page : Page) : Page :=
  match styleOf s with
  | .literal => lines column false s ('\n' :: put ('|' :: header s) page)
  | .doubleQuoted => put ('"' :: s.flatMap escape ++ ['"']) page
  | .singleQuoted =>
    let body := lines column true (s.flatMap fun c => if c = '\'' then [c,c] else [c]) ('\'' :: page)
    '\'' :: match body with
      | c :: _ => if isBreak c then put (List.replicate column ' ') body else body
      | [] => body
  | _ => put s page

/-- In YAML a large number carries a bare exponent. -/
def floatStyle : FloatStyle := ⟨[],['.','i','n','f'],['.','n','a','n']⟩

/-- The letters of a tag; any other character is written by its bytes. -/
def isTagChar (c : Char) : Bool := c.isAlphanum || c ∈ "-_;/?:@&=+$,.!~*'()[]".toList

def tagText (tag : String) : List Char :=
  '!' :: (tag.toList.drop 1).flatMap fun c =>
    if isTagChar c then [c] else (String.singleton c).toUTF8.toList.flatMap fun b => '%' :: hex 2 b.toNat

/-- The text of what fits behind a word on its line: the value of a scalar, or an empty collection. -/
def flat? : Data → Option (List Char)
  | .null => some ['n','u','l','l']
  | .bool true => some ['t','r','u','e']
  | .bool false => some ['f','a','l','s','e']
  | .number n => some (n.text floatStyle)
  | .list [] => some ['[',']']
  | .map [] => some ['{','}']
  | _ => none

/-- Whether a key stands before a colon on its line, and how many bytes it takes. -/
def keySize? : Data → Option Nat
  | .text s => if s.toList.any isAnyBreak then none else some (Text.width s.toList)
  | .tagged t v => (keySize? v).map (· + Text.width t.toList)
  | v => (flat? v).map Text.width

def isShortKey (k : Data) : Bool := (keySize? k).any (· ≤ 128)

/-- What stands to the left of a value: the bare indicator of an entry, behind which a collection may
start on the same line, or a word. -/
inductive Side where
  | indicator | word
  deriving DecidableEq

/-- The column of a list in something at a column; the value of a word is indented no further. -/
def listColumn (column : Nat) (inMap : Bool) (side : Side) : Nat :=
  if inMap && side = .word then column else column + 2

/-- Goes to where an entry starts: the first may follow an indicator on its line. -/
def start (column : Nat) (first : Bool) (side : Side) (page : Page) : Page :=
  if first && side = .indicator then ' ' :: page else line column page

mutual
/-- Writes a value inside something that stands at a column. -/
def value (column : Nat) (inMap : Bool) (side : Side) (v : Data) (page : Page) : Page :=
  match v with
  | .tagged t v => value column inMap .word v (put (' ' :: tagText t) page)
  | .text s => scalar (column + 2) s.toList (' ' :: page)
  | .list (x :: items) => list (listColumn column inMap side) true side (x :: items) page
  | .map (e :: entries) => map (column + 2) true side (e :: entries) page
  | .null => put " null".toList page
  | .bool b => put (if b then " true".toList else " false".toList) page
  | .number n => put (' ' :: n.text floatStyle) page
  | .list [] => put " []".toList page
  | .map [] => put " {}".toList page

def list (column : Nat) (first : Bool) (side : Side) (items : List Data) (page : Page) : Page :=
  match items with
  | [] => page
  | v :: rest =>
    list column false side rest (value column false .indicator v ('-' :: start column first side page))

def map (column : Nat) (first : Bool) (side : Side) (entries : List (Data × Data)) (page : Page) : Page :=
  match entries with
  | [] => page
  | (k,v) :: rest =>
    let page := start column first side page
    map column false side rest (
      if isShortKey k then value column true .word v (':' :: key k page)
      else value column true .indicator v (':' :: line column (value column true .indicator k ('?' :: page))))

/-- Writes a key that stands before a colon on its line. -/
def key (k : Data) (page : Page) : Page :=
  match k with
  | .tagged t v => key v (' ' :: put (tagText t) page)
  | .text s => scalar 0 s.toList page
  | k => put ((flat? k).getD []) page
end

mutual
/-- Whether a value can be written. A map of one entry, unless it is tagged itself, cannot have a key that
is such a map or tagged. -/
def isWritable (tagged : Bool) : Data → Bool
  | .list items => areWritable items
  | .map entries =>
    (tagged || match entries with
      | [(.map [_],_)] => false
      | [(.tagged ..,_)] => false
      | _ => true) && entriesWritable entries
  | .tagged _ v => isWritable true v
  | _ => true

def areWritable : List Data → Bool
  | [] => true
  | v :: rest => isWritable false v && areWritable rest

def entriesWritable : List (Data × Data) → Bool
  | [] => true
  | (k,v) :: rest => isWritable false k && isWritable false v && entriesWritable rest
end

/-- The document of a map. -/
def document (entries : List (Data × Data)) : List Char :=
  (line 0 (match entries with
    | [] => ['}','{']
    | es => map 0 true .word es [])).reverse

end Writer

/-- The text of a map, if it can be written. -/
def print? (entries : List (Data × Data)) : Option String :=
  if Writer.isWritable false (.map entries) then some (.ofList (Writer.document entries)) else none

end ActionCatalog.Yaml
