import ActionCatalog.Number.Binary64

/-! The shortest decimal that reads back as a given binary number. The grids of one, two and more
digits are tried in turn; of the two neighbours of the number on the first grid that has one inside
the interval of reals that round to it, the nearer is taken. -/
namespace ActionCatalog.Binary64

/-- `d · 10^k` and `w · 2^p`, brought to a common denominator. -/
def balance (d : Nat) (k : Int) (w : Nat) (p : Int) : Nat × Nat :=
  (d * Nat.pow 10 k.toNat * Nat.pow 2 (-p).toNat, w * Nat.pow 2 p.toNat * Nat.pow 10 (-k).toNat)

/-- Whether `d · 10^k` rounds to `m · 2^q`; even mantissas own the ends of their interval. -/
def roundsTo (m : Nat) (q : Int) (d : Nat) (k : Int) : Bool :=
  let low := if m = leastNormal ∧ -1074 < q then 4 * m - 1 else 4 * m - 2
  let (a, l) := balance d k low (q - 2)
  let (b, h) := balance d k (4 * m + 2) (q - 2)
  if m % 2 = 0 then l ≤ a && b ≤ h else l < a && b < h

/-- The neighbour of `m · 2^q` on the grid of `10^k` that rounds to it, the nearer of two. -/
def onGrid? (m : Nat) (q k : Int) : Option Nat :=
  let (unit, value) := balance 1 k m q
  let d := value / unit
  match roundsTo m q d k, roundsTo m q (d + 1) k with
  | true, true => some (nearest value unit)
  | true, false => some d
  | false, true => some (d + 1)
  | false, false => none

/-- The power of ten of the first digit of `m · 2^q`. -/
def leading (m : Nat) (q : Int) : Int :=
  let guess := (q + m.log2) * 30103 / 100000
  let (next, value) := balance 1 (guess + 1) m q
  if next ≤ value then guess + 1 else guess

/-- Moves up to `n` final zeros of the digits into the exponent. -/
def trim : Nat → Nat → Int → Nat × Int
  | 0, d, k => (d, k)
  | n+1, d, k => if d % 10 = 0 then trim n (d / 10) (k + 1) else (d, k)

/-- Digits and exponent of the shortest decimal for `m · 2^q`. -/
def shortest (m : Nat) (q : Int) : Nat × Int :=
  let top := leading m q
  match (List.range 17).findSome? fun (n : Nat) => (onGrid? m q (top - n)).map (·, top - n) with
  | some (d, k) => trim 17 d k
  | none => (0, 0)

end ActionCatalog.Binary64
