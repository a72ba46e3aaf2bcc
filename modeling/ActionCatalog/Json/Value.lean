import ActionCatalog.Number.Numeral

/-! JSON values and their compact text. Members of an object keep the order they were given in. -/
namespace ActionCatalog

inductive Value where
  | null
  | bool (b : Bool)
  | number (n : Number)
  | text (s : String)
  | list (items : List Value)
  | object (members : List (String × Value))
  deriving Repr, BEq

instance : Inhabited Value := ⟨.null⟩

namespace Json

/-- In JSON a large number carries a signed exponent, and what is not finite reads `null`. -/
def floatStyle : FloatStyle := ⟨['+'],['n','u','l','l'],['n','u','l','l']⟩

def hexDigit (n : Nat) : Char := Nat.digitChar n

/-- Quotes, backslashes and control characters are escaped, all else stands for itself. -/
def escapeChar (c : Char) : List Char :=
  if c = '"' then ['\\','"']
  else if c = '\\' then ['\\','\\']
  else if c = '\n' then ['\\','n']
  else if c = '\t' then ['\\','t']
  else if c = '\r' then ['\\','r']
  else if c.toNat = 8 then ['\\','b']
  else if c.toNat = 12 then ['\\','f']
  else if c.toNat < 32 then ['\\','u','0','0',hexDigit (c.toNat / 16),hexDigit (c.toNat % 16)]
  else [c]

def quote (s : List Char) : List Char := '"' :: s.flatMap escapeChar ++ ['"']

mutual
/-- The text of a value without any space. -/
def text : Value → List Char
  | .null => ['n','u','l','l']
  | .bool true => ['t','r','u','e']
  | .bool false => ['f','a','l','s','e']
  | .number n => n.text floatStyle
  | .text s => quote s.toList
  | .list items => '[' :: itemsText items ++ [']']
  | .object members => '{' :: membersText members ++ ['}']

def itemsText : List Value → List Char
  | [] => []
  | [v] => text v
  | v :: rest => text v ++ ',' :: itemsText rest

def membersText : List (String × Value) → List Char
  | [] => []
  | [(k,v)] => quote k.toList ++ ':' :: text v
  | (k,v) :: rest => quote k.toList ++ ':' :: text v ++ ',' :: membersText rest
end

def print (v : Value) : String := .ofList (text v)

end Json

namespace Value

/-- The text a person would type for a value: nothing for `null`, a text without its quotes. -/
def plain : Value → String
  | .null => ""
  | .text s => s
  | v => Json.print v

def asText? : Value → Option String
  | .text s => some s
  | _ => none

end Value
end ActionCatalog
