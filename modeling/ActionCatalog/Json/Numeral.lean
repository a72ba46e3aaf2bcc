import ActionCatalog.Number.Numeral
import ActionCatalog.Text.Digit

/-! Reading the numbers of a JSON text. Digits are gathered into a word of 64 bits and scaled by one
product or quotient with a power of ten, so that a float may differ from the nearest one in its last
place. -/
namespace ActionCatalog.Json

/-- Words of 64 bits stay below this number. -/
def wordLimit : Nat := 18446744073709551616

/-- Appends digits to a word as long as it fits into 64 bits; also how many digits were taken. -/
def gather : Nat → List Char → Nat × Nat
  | word, [] => (word, 0)
  | word, d :: ds =>
    let next := 10 * word + (d.toNat - '0'.toNat)
    if next < wordLimit then ((gather next ds).1, (gather next ds).2 + 1) else (word, 0)

def powerOfTen (k : Nat) : Binary64 := .ofDecimal false 1 k

/-- Divides by `10^k`, by way of `10^308` while `k` is beyond the range of powers. -/
def divideDown : Nat → Binary64 → Nat → Binary64
  | steps+1, x, k =>
    if k ≤ 308 ∨ x.isZero then x.div (powerOfTen (min k 308))
    else divideDown steps (x.div (powerOfTen 308)) (k - 308)
  | 0, _, _ => .finite false 0 (-1074)

/-- `word · 10^exponent`; there is no number beyond the range. -/
def scale? (word : Nat) (exponent : Int) : Option Binary64 :=
  let x := Binary64.round false word 1
  if 0 ≤ exponent then
    if exponent ≤ 308 then
      let y := x.mul (powerOfTen exponent.toNat)
      if y.isFinite then some y else none
    else if x.isZero then some x else none
  else some (divideDown 4 x exponent.natAbs)

def signed (negative : Bool) (x : Binary64) : Number := .float (if negative then x.negate else x)

/-- The digits of an exponent, with its sign. -/
def exponent? : List Char → Option Int
  | '+' :: ds => natural? ds
  | '-' :: ds => (natural? ds).map (- ·)
  | ds => natural? ds
where
  natural? (ds : List Char) : Option Int := (Text.natural? 10 ds).map Int.ofNat

/-- An unsigned numeral: digits, then perhaps a point and digits, then perhaps an exponent. -/
def unsigned? (negative : Bool) (s : List Char) : Option Number := do
  let whole := s.takeWhile Char.isDigit
  let rest := s.dropWhile Char.isDigit
  if whole.isEmpty || (whole.length > 1 && whole.head? == some '0') then none
  let (word, taken) := gather 0 whole
  let skipped := whole.length - taken
  match rest with
  | [] =>
    let n := Text.decimalValue whole
    if !negative && n < wordLimit then return .int n
    if negative && 0 < n && 2 * n ≤ wordLimit then return .int (-n)
    return signed negative (← scale? word skipped)
  | '.' :: more =>
    let places := more.takeWhile Char.isDigit
    if places.isEmpty then none
    let (word, taken) := gather word places
    let shift : Int := skipped - taken
    match more.dropWhile Char.isDigit with
    | [] => return signed negative (← scale? word shift)
    | e :: ds =>
      if e ≠ 'e' && e ≠ 'E' then none
      return signed negative (← scale? word (shift + (← exponent? ds)))
  | e :: ds =>
    if e ≠ 'e' && e ≠ 'E' then none
    return signed negative (← scale? word (skipped + (← exponent? ds)))

def number? : List Char → Option Number
  | '-' :: s => unsigned? true s
  | s => unsigned? false s

end ActionCatalog.Json
