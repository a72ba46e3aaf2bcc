import ActionCatalog.Yaml.Run

/-! The division of a YAML text into tokens. A key without an indicator of its own is recognized by
the colon behind it, so its tokens are put in front of what was read since. -/
namespace ActionCatalog.Yaml

/-- Where a key without an indicator may have started: before which token, and at which place. In
block context a key that starts a line of its level must turn out to be one. -/
structure SimpleKey where
  index : Nat
  place : Place
  required : Bool

/-- A text under division. `indent` is the column of the innermost block collection, `outer` holds
those around it, and `keys` one candidate for every flow collection and one for the block context. -/
structure Lexer where
  rest : List Char
  place : Place := {}
  tokens : Array Token := #[]
  flow : Nat := 0
  indent : Int := -1
  outer : List Int := []
  keyAllowed : Bool := true
  keys : List (Option SimpleKey) := [none]

namespace Lexer

def advance : Nat → Lexer → Lexer
  | 0, l => l
  | n+1, l =>
    match l.rest with
    | [] => l
    | c :: rest => advance n { l with rest := rest, place := l.place.after c }

def emit (l : Lexer) (t : Token) : Lexer := { l with tokens := l.tokens.push t }

def emitAt (l : Lexer) (index : Nat) (t : Token) : Lexer :=
  { l with tokens := l.tokens.insertIdxIfInBounds index t }

/-- Opens a block collection at a column beyond the innermost one. -/
def openBlock (l : Lexer) (column : Nat) (index : Nat) (t : Token) : Lexer :=
  if l.flow = 0 && l.indent < column then
    { l.emitAt index t with outer := l.indent :: l.outer, indent := column }
  else l

def closeBlocksFrom (column : Int) : List Int → Lexer → Lexer
  | [], l => l
  | o :: outer, l =>
    if column < l.indent then closeBlocksFrom column outer { l.emit .blockEnd with indent := o, outer := outer }
    else l

/-- Closes the block collections that start beyond a column. -/
def closeBlocks (l : Lexer) (column : Int) : Lexer :=
  if l.flow = 0 then closeBlocksFrom column l.outer l else l

/-- Gives up the candidates that a colon can no longer follow: a key stays on one line and within
1024 characters. -/
def dropStale (l : Lexer) : Option Lexer := do
  let keys ← l.keys.mapM fun
    | none => some none
    | some k =>
      if k.place.line < l.place.line || k.place.column + 1024 < l.place.column then
        if k.required then none else some none
      else some (some k)
  return { l with keys := keys }

def dropKey (l : Lexer) : Option Lexer :=
  match l.keys with
  | some k :: keys => if k.required then none else some { l with keys := none :: keys }
  | _ => some l

def saveKey (l : Lexer) : Option Lexer :=
  if l.keyAllowed then do
    let l ← l.dropKey
    let key := ⟨l.tokens.size,l.place,l.flow = 0 && l.indent = l.place.column⟩
    return { l with keys := some key :: l.keys.tail }
  else some l

/-- Passes over blanks, comments and line breaks. A tab does not indent: in block context it is a
blank only behind something else on its line. -/
def gap (flow : Bool) : List Char → Place → Bool → Bool → List Char × Place × Bool
  | [], p, allowed, _ => ([], p, allowed)
  | c :: rest, p, allowed, comment =>
    if isBreak c then gap flow rest (p.after c) (allowed || !flow) false
    else if comment then gap flow rest (p.after c) allowed true
    else if c = ' ' || (c = '\t' && (flow || !allowed)) then gap flow rest (p.after c) allowed false
    else if c = '#' then gap flow rest (p.after c) allowed true
    else if c = '\ufeff' && p = {} then gap flow rest (p.after c) allowed false
    else (c :: rest, p, allowed)

def skipGap (l : Lexer) : Lexer :=
  let (rest, place, allowed) := gap (l.flow > 0) l.rest l.place l.keyAllowed false
  { l with rest := rest, place := place, keyAllowed := allowed }

def mark (l : Lexer) (t : Token) : Option Lexer := do
  let l ← (l.closeBlocks (-1)).dropKey
  return ({ l with keyAllowed := false }.advance 3).emit t

def openFlow (l : Lexer) (t : Token) : Option Lexer := do
  let l ← l.saveKey
  return ({ l with keys := none :: l.keys, flow := l.flow + 1, keyAllowed := true }.advance 1).emit t

def closeFlow (l : Lexer) (t : Token) : Option Lexer := do
  let l ← l.dropKey
  let keys := if l.flow > 0 then l.keys.tail else l.keys
  return ({ l with keys := keys, flow := l.flow - 1, keyAllowed := false }.advance 1).emit t

def flowEntry (l : Lexer) : Option Lexer := do
  let l ← l.dropKey
  return ({ l with keyAllowed := true }.advance 1).emit .flowEntry

def blockEntry (l : Lexer) : Option Lexer := do
  if l.flow = 0 && !l.keyAllowed then none
  let l ← (l.openBlock l.place.column l.tokens.size .blockSequenceStart).dropKey
  return ({ l with keyAllowed := true }.advance 1).emit .blockEntry

def key (l : Lexer) : Option Lexer := do
  if l.flow = 0 && !l.keyAllowed then none
  let l ← (l.openBlock l.place.column l.tokens.size .blockMappingStart).dropKey
  return ({ l with keyAllowed := l.flow = 0 }.advance 1).emit .key

/-- A colon makes a key of the candidate on its line, or else belongs to a key with an indicator. -/
def value (l : Lexer) : Option Lexer :=
  match l.keys with
  | some k :: keys =>
    let l := (l.emitAt k.index .key).openBlock k.place.column k.index .blockMappingStart
    some (({ l with keys := none :: keys, keyAllowed := false }.advance 1).emit .value)
  | _ =>
    if l.flow = 0 && !l.keyAllowed then none
    else
      let l := l.openBlock l.place.column l.tokens.size .blockMappingStart
      some (({ l with keyAllowed := l.flow = 0 }.advance 1).emit .value)

/-- The name behind the indicator of an anchor or an alias. -/
def name (l : Lexer) (make : String → Token) : Option Lexer := do
  let l ← l.saveKey
  let name := (l.rest.drop 1).takeWhile isNameChar
  let rest := l.rest.drop (name.length + 1)
  if name.isEmpty || !(startsBlank rest || rest.head?.any (· ∈ ['?',':',',',']','}','%','@','`'])) then none
  return ({ l with keyAllowed := false }.advance (name.length + 1)).emit (make (.ofList name))

def isUriChar (c : Char) : Bool :=
  isNameChar c || c ∈ [';','/','?',':','@','&','=','+','$','.','%','!','~','*','\'','(',')']

def isVerbatimChar (c : Char) : Bool := isUriChar c || c ∈ [',','[',']']

/-- The bytes of a part of a tag, in which a percent sign introduces a byte in hexadecimal. -/
def uriBytes? : List Char → Option (List UInt8)
  | '%' :: a :: b :: rest => do
    let n ← Text.natural? 16 [a,b]
    return n.toUInt8 :: (← uriBytes? rest)
  | c :: rest => if c = '%' then none else do return c.toNat.toUInt8 :: (← uriBytes? rest)
  | [] => some []

def uri? (s : List Char) : Option String := (uriBytes? s).bind fun bs => String.fromUTF8? ⟨bs.toArray⟩

/-- A tag: its handle, the rest of it, and its length. -/
def tag? (s : List Char) : Option (String × String × Nat) :=
  match s with
  | '!' :: '<' :: body => do
    let suffix := body.takeWhile isVerbatimChar
    if suffix.isEmpty || (body.drop suffix.length).head? ≠ some '>' then none
    return ("", ← uri? suffix, suffix.length + 3)
  | '!' :: body => do
    let word := body.takeWhile isNameChar
    let behind := body.drop word.length
    if behind.head? = some '!' then
      let suffix := (behind.drop 1).takeWhile isUriChar
      if suffix.isEmpty then none
      return (.ofList ('!' :: word ++ ['!']), ← uri? suffix, word.length + suffix.length + 2)
    else
      let suffix := word ++ behind.takeWhile isUriChar
      if suffix.isEmpty then return ("", "!", 1)
      return ("!", ← uri? suffix, suffix.length + 1)
  | _ => none

def tag (l : Lexer) : Option Lexer := do
  let l ← l.saveKey
  let (handle, suffix, size) ← tag? l.rest
  let rest := l.rest.drop size
  if !(startsBlank rest || (l.flow > 0 && rest.head? = some ',')) then none
  return ({ l with keyAllowed := false }.advance size).emit (.tag handle suffix)

def quoted (l : Lexer) (quote : Char) (style : Style) : Option Lexer := do
  let l ← l.saveKey
  let l := { l with keyAllowed := false }.advance 1
  let ⟨r,rest,place⟩ ← quotedRun quote l.rest l.place 0 {}
  return { l with rest := rest, place := place }.emit (.scalar (.ofList r.text.reverse) style)

def plain (l : Lexer) : Option Lexer := do
  let l ← l.saveKey
  let ⟨r,rest,place⟩ ← plainRun (l.flow > 0) (l.indent + 1) l.rest l.place false {}
  return { l with rest := rest, place := place, keyAllowed := r.broken }.emit
    (.scalar (.ofList r.text.reverse) .plain)

def block (l : Lexer) (literal : Bool) : Option Lexer := do
  let l ← l.dropKey
  let l := { l with keyAllowed := true }.advance 1
  let (chomp, width, size) ← blockHeader? l.rest
  let l := l.advance (size + 1)
  let ⟨(widest,breaks),rest,place⟩ ←
    if width > 0 then some ⟨((max l.indent 0).toNat + width,[]),l.rest,l.place⟩
    else blockMargin l.rest l.place 0 []
  let indent := if width > 0 then widest else max (max widest (l.indent + 1).toNat) 1
  let ⟨b,rest,place⟩ ← blockRun literal indent rest place false { more := breaks }
  return { l with rest := rest, place := place }.emit
    (.scalar (.ofList (b.finish chomp).reverse) (if literal then .literal else .folded))

def number? (s : List Char) : Option (Nat × List Char) :=
  let ds := s.takeWhile Char.isDigit
  if ds.isEmpty || ds.length > 9 then none
  else some (Text.decimalValue ds, s.drop ds.length)

/-- What a directive says, and the text behind it. -/
def directive? (s : List Char) : Option (Token × List Char) := do
  let word := s.takeWhile isNameChar
  let rest := s.drop word.length
  if !startsBlank rest then none
  let rest := rest.dropWhile isSpaceOrTab
  if word = ['Y','A','M','L'] then
    let (major, rest) ← number? rest
    if rest.head? ≠ some '.' then none
    let (minor, rest) ← number? (rest.drop 1)
    return (.version major minor, rest)
  else if word = ['T','A','G'] then
    if rest.head? ≠ some '!' then none
    let name := (rest.drop 1).takeWhile isNameChar
    let behind := rest.drop (name.length + 1)
    let (handle, behind) ← if behind.head? = some '!' then some ('!' :: name ++ ['!'], behind.drop 1)
      else if name.isEmpty then some (['!'], behind) else none
    if !(behind.head?.any isSpaceOrTab) then none
    let behind := behind.dropWhile isSpaceOrTab
    let expansion := behind.takeWhile isVerbatimChar
    let behind := behind.drop expansion.length
    if expansion.isEmpty || !startsBlank behind then none
    return (.tagShorthand (.ofList handle) (← uri? expansion), behind)
  else none

def directive (l : Lexer) : Option Lexer := do
  let l ← (l.closeBlocks (-1)).dropKey
  let (t, behind) ← directive? (l.rest.drop 1)
  let behind := behind.dropWhile isSpaceOrTab
  let behind := if behind.head? = some '#' then behind.dropWhile (!isBreak ·) else behind
  if !(behind.isEmpty || behind.head?.any isBreak) then none
  return ({ l with keyAllowed := false }.advance (l.rest.length - behind.length + 1)).emit t

/-- The characters that start no plain scalar. -/
def indicators : List Char :=
  ['-','?',':',',','[',']','{','}','#','&','*','!','|','>','\'','"','%','@','`']

/-- Reads the token that starts with `c`. -/
def fetchAt (l : Lexer) (c : Char) (rest : List Char) : Option Lexer :=
  let blank := startsBlank rest
  let flow : Bool := l.flow > 0
  let first : Bool := l.place.column = 0
  if first && c = '%' then l.directive
  else if first && isMarker '-' (c :: rest) then l.mark .documentStart
  else if first && isMarker '.' (c :: rest) then l.mark .documentEnd
  else if c = '[' then l.openFlow .flowSequenceStart
  else if c = '{' then l.openFlow .flowMappingStart
  else if c = ']' then l.closeFlow .flowSequenceEnd
  else if c = '}' then l.closeFlow .flowMappingEnd
  else if c = ',' then l.flowEntry
  else if c = '-' && blank then l.blockEntry
  else if c = '?' && (flow || blank) then l.key
  else if c = ':' && (flow || blank) then l.value
  else if c = '*' then l.name .mention
  else if c = '&' then l.name .anchor
  else if c = '!' then l.tag
  else if c = '|' && !flow then l.block true
  else if c = '>' && !flow then l.block false
  else if c = '\'' then l.quoted '\'' .singleQuoted
  else if c = '"' then l.quoted '"' .doubleQuoted
  else if c = '-' && !(rest.head?.any isSpaceOrTab) then l.plain
  else if !flow && (c = '?' || c = ':') then l.plain
  else if !isSpaceOrTab c && c ∉ indicators then l.plain
  else none

/-- Reads tokens up to the end of the text; every token takes at least one character. -/
def run : Nat → Lexer → Option (List Token)
  | 0, _ => none
  | n+1, l => do
    let l ← l.skipGap.dropStale
    let l := l.closeBlocks l.place.column
    match l.rest with
    | [] => do
      let l ← (l.closeBlocks (-1)).dropKey
      return l.tokens.toList
    | c :: rest => run n (← l.fetchAt c rest)

end Lexer

/-- The tokens of a text. -/
def tokens? (text : List Char) : Option (List Token) :=
  if text.all isAllowed then
    let s := normalizeBreaks (if text.head? = some '\ufeff' then text.tail else text)
    Lexer.run (s.length + 1) { rest := s }
  else none

end ActionCatalog.Yaml
