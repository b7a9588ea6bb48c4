import DocBridge.Text

/-
The decimal text of binary floating-point numbers: the fewest digits that read back as the same
number, and of several such decimals the nearest. Everything is counted in natural numbers.
-/
namespace DocBridge

structure Binary where
  mantissa : Nat
  exponent : Int
  deriving DecidableEq, Repr

namespace Binary

def precision : Nat := 53

def leastExponent : Int := -1074

/-- `n / 2 ^ shift`, a half going to the even neighbour. -/
def shiftNearest (n shift : Nat) : Nat :=
  let q := n / Nat.pow 2 shift
  let r := n % Nat.pow 2 shift
  if Nat.pow 2 shift < 2 * r || (2 * r == Nat.pow 2 shift && q % 2 == 1) then q + 1 else q

def nearest (n : Nat) : Nat :=
  let width := n.log2 + 1
  if width ≤ precision then n
  else shiftNearest n (width - precision) * Nat.pow 2 (width - precision)

def ofNat (n : Nat) : Binary :=
  let n := nearest n
  let width := n.log2 + 1
  if width ≤ precision then ⟨n * Nat.pow 2 (precision - width), -(precision - width : Nat)⟩
  else ⟨n / Nat.pow 2 (width - precision), (width - precision : Nat)⟩

def ofBits (bits : UInt64) : Binary :=
  let exponent := (bits >>> 52).toNat % 2048
  let fraction := bits.toNat % Nat.pow 2 52
  if exponent = 0 then ⟨fraction, leastExponent⟩
  else ⟨fraction + Nat.pow 2 52, (exponent : Int) - 1075⟩

/-- In quarters of the last place: the least and the greatest value that round to this number. The
place below a power of two is half as wide. -/
def bounds (b : Binary) : Nat × Nat :=
  let below := if b.mantissa = Nat.pow 2 52 && leastExponent < b.exponent then 1 else 2
  (4 * b.mantissa - below, 4 * b.mantissa + 2)

def overCommon (b : Binary) (quarters c : Nat) (place : Int) : Nat × Nat :=
  let e := b.exponent - 2
  (quarters * Nat.pow 2 e.toNat * Nat.pow 10 (-place).toNat,
    c * Nat.pow 10 place.toNat * Nat.pow 2 (-e).toNat)

def floorAt (b : Binary) (place : Int) : Nat :=
  let (n, d) := b.overCommon (4 * b.mantissa) 1 place
  n / d

/-- Whether `c * 10 ^ place` reads back as this number. Both ends count if the mantissa is even. -/
def readsBack (b : Binary) (c : Nat) (place : Int) : Bool :=
  let (low, x) := b.overCommon b.bounds.1 c place
  let (high, _) := b.overCommon b.bounds.2 c place
  if b.mantissa % 2 == 0 then low ≤ x && x ≤ high else low < x && x < high

def nearer (b : Binary) (c : Nat) (place : Int) : Nat :=
  let (twice, middle) := b.overCommon (8 * b.mantissa) (2 * c + 1) place
  if twice < middle || (twice == middle && c % 2 == 0) then c else c + 1

def choose? (b : Binary) (place : Int) : Option Nat :=
  let c := b.floorAt place
  match 0 < c && b.readsBack c place, b.readsBack (c + 1) place with
  | true, true => some (b.nearer c place)
  | true, false => some c
  | false, true => some (c + 1)
  | false, false => none

def search (b : Binary) : Nat → Int → Nat × Int
  | 0, place => (b.floorAt place, place)
  | tries + 1, place =>
    match b.choose? place with
    | some c => (c, place)
    | none => search b tries (place - 1)

def lowestPlace : Int := -350

def topPlace (b : Binary) : Int :=
  ((Nat.toDigits 10 (b.floorAt lowestPlace)).length : Int) - 1 + lowestPlace

def shortest (b : Binary) : Nat × Int := b.search 17 b.topPlace

end Binary

/-- How numbers are written: positionally while the exponent is in these bounds, otherwise with an
exponent of at least two digits. -/
structure NumberFormat where
  least : Int
  greatest : Int

namespace NumberFormat

def zeros (n : Nat) : Text := List.replicate n 0x30

def exponentText (x : Int) : Text :=
  let digits := Text.ofNat x.natAbs
  (if x < 0 then "e-" else "e+") ++ zeros (2 - digits.length) ++ digits

def scientific (digits : Text) (x : Int) : Text :=
  digits.take 1 ++ (if digits.length = 1 then [] else 0x2E :: digits.drop 1) ++ exponentText x

def positional (digits : Text) (x : Int) : Text :=
  if x < 0 then "0." ++ zeros (-x - 1).toNat ++ digits
  else
    let whole := digits.take (x.toNat + 1)
    let fraction := digits.drop (x.toNat + 1)
    whole ++ zeros (x.toNat + 1 - whole.length) ++ (if fraction.isEmpty then [] else 0x2E :: fraction)

def write (f : NumberFormat) (b : Binary) : Text :=
  if b.mantissa = 0 then "0"
  else
    let (c, place) := b.shortest
    let all := Text.ofNat c
    let x := place + all.length - 1
    let digits := Text.trimEnd (· == 0x30) all
    if f.least ≤ x && x ≤ f.greatest then positional digits x else scientific digits x

def writeFloat (f : NumberFormat) (x : Float) : Text :=
  if x.isNaN then "NaN"
  else
    let sign : Text := if x.toBits >>> 63 == 1 then "-" else []
    if x.isInf then (if sign.isEmpty then "+Inf" else "-Inf")
    else sign ++ f.write (.ofBits x.toBits)

def plain : NumberFormat := ⟨-4, 5⟩

end NumberFormat
end DocBridge
