import DocBridge.Text

/- The texts that tell one run from another: a point in time and a random name. -/
namespace DocBridge.Log

def padded (width n : Nat) : Text :=
  let digits := Text.ofNat n
  List.replicate (width - digits.length) 0x30 ++ digits

/-- Year, month and day of a day counted from the start of 1970. Years are counted from March, so
that a leap day comes last, and in eras of 400 years, which all have the same number of days. -/
def dateOf (day : Nat) : Nat × Nat × Nat :=
  let shifted := day + 719468
  let era := shifted / 146097
  let inEra := shifted % 146097
  let year := (inEra - inEra / 1460 + inEra / 36524 - inEra / 146096) / 365
  let inYear := inEra - (365 * year + year / 4 - year / 100)
  let marchMonth := (5 * inYear + 2) / 153
  let dayOfMonth := inYear - (153 * marchMonth + 2) / 5 + 1
  let month := if marchMonth < 10 then marchMonth + 3 else marchMonth - 9
  (era * 400 + year + (if month ≤ 2 then 1 else 0), month, dayOfMonth)

def momentText (millis : Nat) : Text :=
  let seconds := millis / 1000
  let (year, month, day) := dateOf (seconds / 86400)
  let second := seconds % 86400
  padded 4 year ++ "-" ++ padded 2 month ++ "-" ++ padded 2 day ++ "T" ++ padded 2 (second / 3600)
    ++ ":" ++ padded 2 (second / 60 % 60) ++ ":" ++ padded 2 (second % 60) ++ "."
    ++ padded 3 (millis % 1000) ++ "Z"

def hexByte (b : UInt8) : Text :=
  let digit (n : Nat) : UInt8 := (if n < 10 then 48 + n else 87 + n).toUInt8
  [digit (b.toNat / 16), digit (b.toNat % 16)]

/-- Sixteen random bytes in groups. Version and variant are marked in the seventh and ninth. -/
def runName (random : List UInt8) : Text :=
  let marked := random.zipIdx.map fun (b, i) =>
    if i == 6 then b % 16 + 0x40 else if i == 8 then b % 64 + 0x80 else b
  let group (first count : Nat) : Text := ((marked.drop first).take count).flatMap hexByte
  Text.join "-" [group 0 4, group 4 2, group 6 2, group 8 2, group 10 6]

end DocBridge.Log
