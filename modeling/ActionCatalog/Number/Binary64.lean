/-! Binary floating point numbers of 64 bits, kept as a mantissa and an exponent. All arithmetic is
exact and rounds once, to the nearest number and on a tie to the even mantissa. -/
namespace ActionCatalog

/-- A finite number is `mantissa · 2^exponent`, with a mantissa below `2^53`. -/
inductive Binary64 where
  | finite (negative : Bool) (mantissa : Nat) (exponent : Int)
  | infinite (negative : Bool)
  | nan
  deriving DecidableEq, Repr

namespace Binary64

/-- The integer nearest to `a / b`, the even one of two. -/
def nearest (a b : Nat) : Nat :=
  let q := a / b
  if b < 2 * (a % b) ∨ (b = 2 * (a % b) ∧ q % 2 = 1) then q + 1 else q

/-- `a · 2^k` over `b`, as a fraction of natural numbers. -/
def shift (a b : Nat) (k : Int) : Nat × Nat :=
  if 0 ≤ k then (a * Nat.pow 2 k.toNat, b) else (a, b * Nat.pow 2 (-k).toNat)

/-- Mantissas of normal numbers start at `2^52`. -/
def leastNormal : Nat := 4503599627370496

/-- The number nearest to `num / den`. -/
def round (negative : Bool) (num den : Nat) : Binary64 :=
  if num = 0 then .finite negative 0 (-1074) else
    let guess : Int := num.log2 - den.log2 - 52
    let (a, b) := shift num den (-guess)
    let exponent := max (-1074) (if a < b * leastNormal then guess - 1 else guess)
    let (a, b) := shift num den (-exponent)
    let mantissa := nearest a b
    let (mantissa, exponent) :=
      if mantissa = 2 * leastNormal then (leastNormal, exponent + 1) else (mantissa, exponent)
    if 971 < exponent then .infinite negative else .finite negative mantissa exponent

/-- The number nearest to `digits · 10^exponent`. -/
def ofDecimal (negative : Bool) (digits : Nat) (exponent : Int) : Binary64 :=
  let size : Int := digits.log2 / 3 + 1
  if digits = 0 ∨ exponent + size < -400 then .finite negative 0 (-1074)
  else if 400 < exponent then .infinite negative
  else if 0 ≤ exponent then round negative (digits * Nat.pow 10 exponent.toNat) 1
  else round negative digits (Nat.pow 10 (-exponent).toNat)

def negate : Binary64 → Binary64
  | finite s m e => finite (!s) m e
  | infinite s => infinite (!s)
  | nan => nan

/-- The product of two magnitudes. -/
def mul : Binary64 → Binary64 → Binary64
  | finite _ m e, finite _ m' e' => let (a, b) := shift (m * m') 1 (e + e'); round false a b
  | _, _ => infinite false

/-- The quotient of two magnitudes, the second of them not zero. -/
def div : Binary64 → Binary64 → Binary64
  | finite _ m e, finite _ m' e' => let (a, b) := shift m m' (e - e'); round false a b
  | _, _ => infinite false

def isZero : Binary64 → Bool
  | finite _ 0 _ => true
  | _ => false

def isFinite : Binary64 → Bool
  | finite .. => true
  | _ => false

end Binary64
end ActionCatalog
