import ActionCatalog.Number.Shortest

/-! Numbers of a document and their text. -/
namespace ActionCatalog

/-- An integer or a floating point number. -/
inductive Number where
  | int (value : Int)
  | float (value : Binary64)
  deriving DecidableEq, Repr

/-- How floating point numbers are written: the text before the exponent of a large number, and the
texts of what is not finite. -/
structure FloatStyle where
  plus : List Char
  infinity : List Char
  notANumber : List Char

namespace Number

def digits (n : Nat) : List Char := Nat.toDigits 10 n

def ofInt (i : Int) : List Char := if i < 0 then '-' :: digits i.natAbs else digits i.natAbs

/-- Positional from `10^-5` up to `10^16`, with at least one digit after the point; otherwise one
digit before the point and an exponent. -/
def ofShortest (plus : List Char) (d : Nat) (k : Int) : List Char :=
  let ds := digits d
  let top := k + ds.length - 1
  if 0 ≤ k ∧ top ≤ 15 then ds ++ List.replicate k.toNat '0' ++ ['.','0']
  else if 0 ≤ top ∧ top ≤ 15 then
    ds.take (top.toNat + 1) ++ '.' :: ds.drop (top.toNat + 1)
  else if -5 ≤ top ∧ top < 0 then
    ['0','.'] ++ List.replicate (-top - 1).toNat '0' ++ ds
  else
    let point := if ds.length = 1 then [] else '.' :: ds.drop 1
    let exponent := if 0 ≤ top then plus ++ digits top.toNat else ofInt top
    ds.take 1 ++ point ++ 'e' :: exponent

def ofBinary64 (n : FloatStyle) : Binary64 → List Char
  | .finite s m q =>
    let text := if m = 0 then ['0','.','0'] else
      ofShortest n.plus (Binary64.shortest m q).1 (Binary64.shortest m q).2
    if s then '-' :: text else text
  | .infinite s => if s then '-' :: n.infinity else n.infinity
  | .nan => n.notANumber

/-- The text of a number. -/
def text (n : FloatStyle) : Number → List Char
  | int i => ofInt i
  | float x => ofBinary64 n x

end Number
end ActionCatalog
