/-! Natural numbers from their digits. -/
namespace ActionCatalog.Text

def digit? (radix : Nat) (c : Char) : Option Nat :=
  let n := if c.isDigit then c.toNat - '0'.toNat
    else if 'a' ≤ c && c ≤ 'f' then c.toNat - 'a'.toNat + 10
    else if 'A' ≤ c && c ≤ 'F' then c.toNat - 'A'.toNat + 10
    else 16
  if n < radix then some n else none

/-- The number that digits of either case stand for; at least one is needed. -/
def natural? (radix : Nat) (ds : List Char) : Option Nat :=
  if ds.isEmpty then none else ds.foldlM (fun n c => (digit? radix c).map (radix * n + ·)) 0

/-- The number that decimal digits stand for, zero for none. -/
def decimalValue (ds : List Char) : Nat := ds.foldl (fun n c => 10 * n + (c.toNat - '0'.toNat)) 0

end ActionCatalog.Text
