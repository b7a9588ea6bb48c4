/-
Text is a list of bytes. Sources and pages may hold bytes that are not UTF-8, so nothing here
assumes characters; `DocBridge.Text.Utf8` reads them off where they matter.
-/
namespace DocBridge

abbrev Text := List UInt8

namespace Text

def ofString (s : String) : Text := s.toByteArray.data.toList

instance : Coe String Text := ⟨ofString⟩

def ofNat (n : Nat) : Text := ofString (toString n)

def ofInt (n : Int) : Text := ofString (toString n)

def isDigit (b : UInt8) : Bool := 0x30 ≤ b && b ≤ 0x39

def isUpper (b : UInt8) : Bool := 0x41 ≤ b && b ≤ 0x5A

def isLower (b : UInt8) : Bool := 0x61 ≤ b && b ≤ 0x7A

def isLetter (b : UInt8) : Bool := isUpper b || isLower b

def isHexDigit (b : UInt8) : Bool :=
  isDigit b || (0x41 ≤ b && b ≤ 0x46) || (0x61 ≤ b && b ≤ 0x66)

def isSpace (b : UInt8) : Bool := b == 0x20 || b == 0x09 || b == 0x0A || b == 0x0D

def isBlank (b : UInt8) : Bool := b == 0x20 || b == 0x09

def lowerByte (b : UInt8) : UInt8 := if isUpper b then b + 0x20 else b

def lowerAscii (s : Text) : Text := s.map lowerByte

def runLength (p : UInt8 → Bool) (s : Text) : Nat := (s.takeWhile p).length

def indexOf? (needle : Text) : Text → Option Nat
  | [] => if needle.isEmpty then some 0 else none
  | b :: rest =>
    if needle.isPrefixOf (b :: rest) then some 0 else (indexOf? needle rest).map (· + 1)

def contains (needle s : Text) : Bool := (indexOf? needle s).isSome

def containsByte (b : UInt8) (s : Text) : Bool := s.any (· == b)

def cut? (sep s : Text) : Option (Text × Text) :=
  (indexOf? sep s).map fun i => (s.take i, s.drop (i + sep.length))

def cutEnd? (ending s : Text) : Option Text :=
  if ending.isSuffixOf s then some (s.take (s.length - ending.length)) else none

def trimEnd (p : UInt8 → Bool) (s : Text) : Text := (s.reverse.dropWhile p).reverse

def trim (p : UInt8 → Bool) (s : Text) : Text := trimEnd p (s.dropWhile p)

/-- The stretches between the bytes `sep`; there is always at least one. -/
def splitOn (sep : UInt8) : Text → List Text
  | [] => [[]]
  | b :: rest =>
    match splitOn sep rest with
    | [] => [[]]
    | part :: parts => if b == sep then [] :: part :: parts else (b :: part) :: parts

def join (sep : Text) : List Text → Text
  | [] => []
  | [part] => part
  | part :: parts => part ++ sep ++ join sep parts

/- `skip` counts the bytes of the last occurrence that are still to be passed over. -/
def replaceFrom (old new : Text) : Nat → Text → Text
  | _, [] => []
  | skip + 1, _ :: rest => replaceFrom old new skip rest
  | 0, b :: rest =>
    if old.isPrefixOf (b :: rest) then new ++ replaceFrom old new (old.length - 1) rest
    else b :: replaceFrom old new 0 rest

/-- Every occurrence of `old`, left to right and without overlaps, becomes `new`. -/
def replaceAll (old new s : Text) : Text := replaceFrom old new 0 s

def replaceFirst (old new s : Text) : Text :=
  match cut? old s with
  | some (before, after) => before ++ new ++ after
  | none => s

def countByte (b : UInt8) (s : Text) : Nat := s.count b

def le (a b : Text) : Bool := !(b < a)

end Text
end DocBridge
