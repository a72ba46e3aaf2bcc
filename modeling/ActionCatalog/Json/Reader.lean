import ActionCatalog.Tree
import ActionCatalog.Json.Numeral

/-! Reading JSON texts. Characters are gathered into tokens, and a stack of the collections under way
takes the tokens one by one. Members keep their order and their repetitions. -/
namespace ActionCatalog.Json

inductive Token where
  | openList | closeList | openObject | closeObject | comma | colon
  | scalar (t : Tree)
  deriving Repr

/-- A token under way, its characters reversed. Behind a backslash `escape` holds what was met of the
escape, and `high` the first half of a pair of surrogates. -/
inductive Pending where
  | none
  | word (chars : List Char)
  | quoted (chars : List Char)
  | escape (chars : List Char) (high : Option Nat) (met : List Char)
  | half (chars : List Char) (high : Nat)
  deriving Repr

structure Lexer where
  tokens : Array Token := #[]
  pending : Pending := .none

def isSpace (c : Char) : Bool := c = ' ' || c = '\n' || c = '\t' || c = '\r'

/-- The type of an unquoted word. -/
def word? (s : List Char) : Option Tree :=
  if s = ['n','u','l','l'] then some .null
  else if s = ['t','r','u','e'] then some (.bool true)
  else if s = ['f','a','l','s','e'] then some (.bool false)
  else (number? s).map .number

def isHigh (n : Nat) : Bool := 0xD800 ≤ n && n < 0xDC00
def isLow (n : Nat) : Bool := 0xDC00 ≤ n && n < 0xE000

def punctuation? (c : Char) : Option Token :=
  match c with
  | '[' => some .openList
  | ']' => some .closeList
  | '{' => some .openObject
  | '}' => some .closeObject
  | ',' => some .comma
  | ':' => some .colon
  | _ => .none

namespace Lexer

def finishWord (l : Lexer) : Option Lexer :=
  match l.pending with
  | .word cs => (word? cs.reverse).map fun t => { tokens := l.tokens.push (.scalar t) }
  | .none => some l
  | _ => none

/-- A character outside of quotes. -/
def bare (l : Lexer) (c : Char) : Option Lexer :=
  if isSpace c then l.finishWord
  else if c = '"' then l.finishWord.map fun l => { l with pending := .quoted [] }
  else match punctuation? c with
    | some t => l.finishWord.map fun l => { l with tokens := l.tokens.push t }
    | none =>
      match l.pending with
      | .word cs => some { l with pending := .word (c :: cs) }
      | _ => some { l with pending := .word [c] }

/-- The end of an escape by code: a character, or the half of one. -/
def code (l : Lexer) (chars : List Char) (high : Option Nat) (n : Nat) : Option Lexer :=
  match high with
  | none =>
    if isHigh n then some { l with pending := .half chars n }
    else if isLow n then none
    else some { l with pending := .quoted (Char.ofNat n :: chars) }
  | some h =>
    if isLow n then
      some { l with pending := .quoted (Char.ofNat (0x10000 + (h - 0xD800) * 0x400 + (n - 0xDC00)) :: chars) }
    else none

def escaped? (c : Char) : Option Char :=
  match c with
  | '"' => some '"'
  | '\\' => some '\\'
  | '/' => some '/'
  | 'b' => some '\x08'
  | 'f' => some '\x0c'
  | 'n' => some '\n'
  | 'r' => some '\r'
  | 't' => some '\t'
  | _ => none

/-- Takes one character. -/
def take (l : Lexer) (c : Char) : Option Lexer :=
  match l.pending with
  | .quoted cs =>
    if c = '"' then some { tokens := l.tokens.push (.scalar (.text (.ofList cs.reverse))) }
    else if c = '\\' then some { l with pending := .escape cs none [] }
    else if c.toNat < 32 then none
    else some { l with pending := .quoted (c :: cs) }
  | .half cs high => if c = '\\' then some { l with pending := .escape cs (some high) [] } else none
  | .escape cs high [] =>
    if c = 'u' then some { l with pending := .escape cs high ['u'] }
    else if high.isSome then none
    else (escaped? c).map fun d => { l with pending := .quoted (d :: cs) }
  | .escape cs high met =>
    if met.length < 4 then some { l with pending := .escape cs high (met ++ [c]) }
    else (Text.natural? 16 (met.drop 1 ++ [c])).bind (l.code cs high)
  | _ => l.bare c

end Lexer

/-- A collection under way, its content reversed. A member waits for its value under its key. -/
inductive Frame where
  | list (items : List Tree)
  | object (entries : List (String × Tree))
  | member (entries : List (String × Tree)) (key : String)

/-- What the next token may be. -/
inductive Phase where
  | value | first | next | key | colon | done
  deriving DecidableEq

structure Parser where
  stack : List Frame := []
  phase : Phase := .value
  result : Option Tree := none

namespace Parser

/-- Hands a finished value to the collection around it. -/
def deliver (stack : List Frame) (t : Tree) : Option Parser :=
  match stack with
  | [] => some { stack := [], phase := .done, result := some t }
  | .list items :: rest => some { stack := .list (t :: items) :: rest, phase := .next }
  | .member entries k :: rest => some { stack := .object ((k, t) :: entries) :: rest, phase := .next }
  | .object _ :: _ => none

/-- Opens a collection, unless it lies deeper than `limit`. -/
def enter (limit : Nat) (p : Parser) (f : Frame) : Option Parser :=
  if p.stack.length < limit then some { stack := f :: p.stack, phase := .first } else none

def isValuePhase (p : Parser) : Bool :=
  p.phase = .value || (p.phase = .first && match p.stack with
    | .list _ :: _ => true
    | _ => false)

def take (limit : Nat) (p : Parser) (t : Token) : Option Parser :=
  match t, p.stack with
  | .openList, _ => if p.isValuePhase then p.enter limit (.list []) else none
  | .openObject, _ => if p.isValuePhase then p.enter limit (.object []) else none
  | .closeList, .list items :: rest =>
    if p.phase = .first || p.phase = .next then deliver rest (.list none items.reverse) else none
  | .closeObject, .object entries :: rest =>
    if p.phase = .first || p.phase = .next then deliver rest (.ofMembers entries.reverse) else none
  | .comma, .list _ :: _ => if p.phase = .next then some { p with phase := .value } else none
  | .comma, .object _ :: _ => if p.phase = .next then some { p with phase := .key } else none
  | .colon, .member .. :: _ => if p.phase = .colon then some { p with phase := .value } else none
  | .scalar (.text k), .object entries :: rest =>
    if p.phase = .first || p.phase = .key then
      some { p with stack := .member entries k :: rest, phase := .colon }
    else none
  | .scalar t, stack => if p.isValuePhase then deliver stack t else none
  | _, _ => none

end Parser

/-- The document of a JSON text in which no more than `limit` collections lie inside one another. -/
def readWithin? (limit : Nat) (text : String) : Option Tree := do
  let l ← text.toList.foldlM Lexer.take {}
  let l ← l.finishWord
  let p ← l.tokens.toList.foldlM (Parser.take limit) {}
  if p.phase = .done then p.result else none

/-- The document of a JSON text, which nests no deeper than 127 collections. -/
def read? (text : String) : Option Tree := readWithin? 127 text

end ActionCatalog.Json
