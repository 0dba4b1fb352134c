import Lectern.Text.Numeral

/-!
# Shortest decimals

A binary floating point number is written with the fewest decimal digits that read back as the same number, and of
those digits with the ones nearest to it. The search is exact: a number is `m * 2 ^ q`, the reals that round to it are
an interval, and **`Binary.shortest`** looks at the two neighbours of the number on the grid of one digit, of two
digits and so on. **`Decimal.print`** lays the digits out: positionally for numbers from `1e-4` up to `1e16`, with a
power of ten otherwise.
-/

set_option autoImplicit false

namespace Lectern

/-- A power of two. -/
def powerOfTwo (n : Nat) : Nat := Nat.pow 2 n

/-- A power of ten. -/
def powerOfTen (n : Nat) : Nat := Nat.pow 10 n

/-- The decimal number `digits * 10 ^ exponent`. -/
structure Decimal where
  digits : Nat
  exponent : Int
deriving DecidableEq, Repr

/-- The positive number `m * 2 ^ q`. -/
structure Binary where
  m : Nat
  q : Int
  /-- The number below is half as far away as the number above. -/
  narrowBelow : Bool
deriving DecidableEq, Repr

namespace Binary

/-- The number that the bits of a finite floating point number stand for, without its sign. -/
def ofBits (bits : UInt64) : Binary :=
  let exponent := ((bits >>> 52) &&& 0x7FF).toNat
  let fraction := (bits &&& 0xFFFFFFFFFFFFF).toNat
  if exponent = 0 then ⟨fraction, -1074, false⟩
  else ⟨powerOfTwo 52 + fraction, (exponent : Int) - 1075, fraction == 0 && 1 < exponent⟩

/-- Compares `a * 10 ^ i` with `n * 2 ^ j`. -/
def compareScaled (a : Nat) (i : Int) (n : Nat) (j : Int) : Ordering :=
  compare (a * powerOfTen i.toNat * powerOfTwo (-j).toNat) (n * powerOfTwo j.toNat * powerOfTen (-i).toNat)

/-- Whether a decimal number lies among the reals that round to a number. The ends of the interval belong to it if `m`
is even. -/
def readsBack (x : Binary) (d : Decimal) : Bool :=
  let below := compareScaled d.digits d.exponent (if x.narrowBelow then 4 * x.m - 1 else 4 * x.m - 2) (x.q - 2)
  let above := compareScaled d.digits d.exponent (4 * x.m + 2) (x.q - 2)
  let even := x.m % 2 == 0
  (below == .gt || (even && below == .eq)) && (above == .lt || (even && above == .eq))

/-- The least power of ten above a number, among those that a floating point number can lie below. -/
def scale (x : Binary) : Int :=
  (((List.range 640).map fun (i : Nat) => (i : Int) - 330).find? fun k => compareScaled 1 k x.m x.q == .gt).getD 310

/-- The greatest multiple of a power of ten that is not above a number. -/
def floorOn (x : Binary) (exponent : Int) : Nat :=
  (x.m * powerOfTwo x.q.toNat * powerOfTen (-exponent).toNat) / (powerOfTwo (-x.q).toNat * powerOfTen exponent.toNat)

/-- The neighbour of a number on a decimal grid that reads back as the number; the nearer one if both do, and of two
that are equally near the even one. -/
def neighbour? (x : Binary) (exponent : Int) : Option Decimal :=
  let a := x.floorOn exponent
  match x.readsBack ⟨a, exponent⟩, x.readsBack ⟨a + 1, exponent⟩ with
  | false, false => none
  | true, false => some ⟨a, exponent⟩
  | false, true => some ⟨a + 1, exponent⟩
  | true, true =>
    match compareScaled (2 * a + 1) exponent (2 * x.m) x.q with
    | .gt => some ⟨a, exponent⟩
    | .lt => some ⟨a + 1, exponent⟩
    | .eq => some ⟨if a % 2 = 0 then a else a + 1, exponent⟩

/-- The decimal with the fewest digits that reads back as a number. -/
def shortest (x : Binary) : Decimal :=
  let k := x.scale
  ((List.range 17).findSome? fun (n : Nat) => x.neighbour? (k - (n + 1 : Nat))).getD ⟨x.floorOn (k - 17), k - 17⟩

end Binary

namespace Decimal

/-- The digits without zeros at their end, and the power of ten of the first digit. -/
def normalize (d : Decimal) : Text × Int :=
  let digits := Numeral.write d.digits
  ((digits.reverse.dropWhile (· == '0')).reverse, d.exponent + digits.length - 1)

/-- Digits with the point behind the first `n` of them. -/
def withPoint (n : Nat) (digits : Text) : Text :=
  let padded := digits ++ List.replicate (n + 1 - digits.length) '0'
  padded.take n ++ ['.'] ++ padded.drop n

/-- A power of ten in the notation with an exponent. -/
def exponentMark (e : Int) : Text := ['e', if e < 0 then '-' else '+'] ++
  (if e.natAbs < 10 then ['0'] else []) ++ Numeral.write e.natAbs

/-- The decimal as it is written. -/
def layout (d : Decimal) : Text :=
  let (digits, e) := d.normalize
  if 0 ≤ e ∧ e < 16 then withPoint (e.toNat + 1) digits
  else if -4 ≤ e ∧ e < 0 then "0.".toList ++ List.replicate ((-e).toNat - 1) '0' ++ digits
  else
    match digits with
    | [c] => c :: exponentMark e
    | c :: rest => c :: '.' :: rest ++ exponentMark e
    | [] => []

/-- A floating point number as it is written. -/
def print (x : Float) : Text :=
  let bits := x.toBits
  let sign := if bits >>> 63 == 1 then ['-'] else []
  if x.isNaN then "nan".toList
  else if x.isInf then sign ++ "inf".toList
  else
    let binary := Binary.ofBits bits
    sign ++ if binary.m = 0 then "0.0".toList else binary.shortest.layout

end Decimal

end Lectern
