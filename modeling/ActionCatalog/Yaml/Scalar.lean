import ActionCatalog.Tree
import ActionCatalog.Json.Numeral

/-! Types of the plain scalars of YAML. -/
namespace ActionCatalog.Yaml
open Text

def isNull (s : List Char) : Bool :=
  s == ['~'] || s == ['n','u','l','l'] || s == ['N','u','l','l'] || s == ['N','U','L','L']

def bool? (s : List Char) : Option Bool :=
  if [['t','r','u','e'],['T','r','u','e'],['T','R','U','E']].contains s then some true
  else if [['f','a','l','s','e'],['F','a','l','s','e'],['F','A','L','S','E']].contains s then some false
  else none

def unsign : List Char → Bool × List Char
  | '+' :: s => (false, s)
  | '-' :: s => (true, s)
  | s => (false, s)

/-- Digits after a leading zero, which make a text and not a number. -/
def isZeroPadded (s : List Char) : Bool :=
  match (unsign s).2 with
  | '0' :: ds => !ds.isEmpty && ds.all Char.isDigit
  | _ => false

/-- Integers in base ten, or in base sixteen, eight or two after `0x`, `0o` or `0b`. -/
def integer? (s : List Char) : Option Int :=
  let (negative, body) := unsign s
  let magnitude := match body with
    | '0' :: 'x' :: ds => natural? 16 ds
    | '0' :: 'o' :: ds => natural? 8 ds
    | '0' :: 'b' :: ds => natural? 2 ds
    | ds => if isZeroPadded ds then none else natural? 10 ds
  magnitude.map fun n => if negative then -(n : Int) else n

/-- The integers of 64 bits with a sign. -/
def isWord (i : Int) : Bool := -9223372036854775808 ≤ i && i ≤ 9223372036854775807

/-- The integers that a document can hold. -/
def isStorable (i : Int) : Bool := -9223372036854775808 ≤ i && i ≤ 18446744073709551615

/-- The integers that are recognized as such, those of 128 bits with or without a sign. -/
def isRecognized (i : Int) : Bool :=
  -170141183460469231731687303715884105728 ≤ i && i < 340282366920938463463374607431768211456

/-- A decimal numeral: digits with at most one point, then perhaps an exponent. -/
def decimal? (s : List Char) : Option Binary64 :=
  let (negative, body) := unsign s
  let whole := body.takeWhile Char.isDigit
  let rest := body.dropWhile Char.isDigit
  let (places, rest) := match rest with
    | '.' :: more => (more.takeWhile Char.isDigit, more.dropWhile Char.isDigit)
    | more => ([], more)
  let exponent := match rest with
    | [] => some 0
    | e :: ds => if e = 'e' || e = 'E' then Json.exponent? ds else none
  if whole.isEmpty && places.isEmpty then none
  else exponent.map fun x => .ofDecimal negative (decimalValue (whole ++ places)) (x - places.length)

def float? (s : List Char) : Option Binary64 :=
  let (negative, body) := unsign s
  if [['.','i','n','f'],['.','I','n','f'],['.','I','N','F']].contains body then some (.infinite negative)
  else if [['.','n','a','n'],['.','N','a','N'],['.','N','A','N']].contains s then some .nan
  else (decimal? s).filter (·.isFinite)

/-- The type of a plain scalar; an integer too wide to be stored has none. -/
def resolve? (text : String) : Option Tree :=
  let s := text.toList
  if s.isEmpty || isNull s then some .null
  else match bool? s with
    | some b => some (.bool b)
    | none =>
      match (integer? s).filter isRecognized with
      | some i => if isStorable i then some (.number (.int i)) else none
      | none =>
        match if isZeroPadded s then none else float? s with
        | some x => some (.number (.float x))
        | none => some (.text text)

/-- The tags of YAML's own types. -/
def ownTag (name : String) : String := "tag:yaml.org,2002:" ++ name

/-- A tag that names a type of the document's own. -/
def isLocal : Option String → Bool
  | some tag => tag.toList.head? == some '!'
  | none => false

/-- The type of a scalar in a place that admits every type. -/
def settle? (w : Written) : Option Tree :=
  let s := w.text.toList
  if w.tag = some (ownTag "bool") then (bool? s).map .bool
  else if w.tag = some (ownTag "int") then
    ((integer? s).filter isStorable).map fun i => .number (.int i)
  else if w.tag = some (ownTag "float") then (float? s).map fun x => .number (.float x)
  else if w.tag = some (ownTag "null") then if isNull s then some .null else none
  else if isLocal w.tag then none
  else if w.style = .plain && w.tag.isNone then resolve? w.text
  else some (.text w.text)

end ActionCatalog.Yaml
