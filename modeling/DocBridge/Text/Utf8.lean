import DocBridge.Text

/-
UTF-8 reading. A byte that starts no well-formed character is a glyph of its own, so decoding
never fails and `encode` gives back every text.
-/
namespace DocBridge.Utf8

inductive Glyph where
  | char (c : Char)
  | stray (b : UInt8)
  deriving DecidableEq, Repr

def encodeChar (c : Char) : Text := String.utf8EncodeChar c

def Glyph.bytes : Glyph → Text
  | .char c => encodeChar c
  | .stray b => [b]

def isTail (b : UInt8) : Bool := 0x80 ≤ b && b ≤ 0xBF

/-- The bounds of the second byte after a lead byte that takes two or three more bytes. They shut
out overlong forms, surrogates and values past the last code point. -/
def secondBounds (lead : UInt8) : UInt8 × UInt8 :=
  if lead == 0xE0 then (0xA0, 0xBF)
  else if lead == 0xED then (0x80, 0x9F)
  else if lead == 0xF0 then (0x90, 0xBF)
  else if lead == 0xF4 then (0x80, 0x8F)
  else (0x80, 0xBF)

def low6 (b : UInt8) : Nat := b.toNat % 64

def first? : Text → Option (Char × Nat)
  | [] => none
  | a :: rest =>
    let inBounds (b : UInt8) : Bool := (secondBounds a).1 ≤ b && b ≤ (secondBounds a).2
    if a < 0x80 then some (Char.ofNat a.toNat, 1)
    else if 0xC2 ≤ a && a ≤ 0xDF then
      match rest with
      | b :: _ => if isTail b then some (Char.ofNat (a.toNat % 32 * 64 + low6 b), 2) else none
      | [] => none
    else if 0xE0 ≤ a && a ≤ 0xEF then
      match rest with
      | b :: c :: _ =>
        if inBounds b && isTail c then
          some (Char.ofNat ((a.toNat % 16 * 64 + low6 b) * 64 + low6 c), 3)
        else none
      | _ => none
    else if 0xF0 ≤ a && a ≤ 0xF4 then
      match rest with
      | b :: c :: d :: _ =>
        if inBounds b && isTail c && isTail d then
          some (Char.ofNat (((a.toNat % 8 * 64 + low6 b) * 64 + low6 c) * 64 + low6 d), 4)
        else none
      | _ => none
    else none

/- `skip` counts the bytes of the last character that are still to be passed over. -/
def glyphsFrom : Nat → Text → List Glyph
  | _, [] => []
  | skip + 1, _ :: rest => glyphsFrom skip rest
  | 0, b :: rest =>
    match first? (b :: rest) with
    | some (c, width) => .char c :: glyphsFrom (width - 1) rest
    | none => .stray b :: glyphsFrom 0 rest

def glyphs (s : Text) : List Glyph := glyphsFrom 0 s

def encode (gs : List Glyph) : Text := gs.flatMap Glyph.bytes

def Glyph.toChar : Glyph → Char
  | .char c => c
  | .stray _ => Char.ofNat 0xFFFD

def chars (s : Text) : List Char := (glyphs s).map Glyph.toChar

def ofChars (cs : List Char) : Text := cs.flatMap encodeChar

def chars? (s : Text) : Option (List Char) :=
  (glyphs s).mapM fun
    | .char c => some c
    | .stray _ => none

def toString (s : Text) : String := String.ofList (chars s)

def isWhite (c : Char) : Bool :=
  (0x09 ≤ c.val && c.val ≤ 0x0D) || c.val == 0x20 || c.val == 0x85 || c.val == 0xA0
    || c.val == 0x1680 || (0x2000 ≤ c.val && c.val ≤ 0x200A) || c.val == 0x2028
    || c.val == 0x2029 || c.val == 0x202F || c.val == 0x205F || c.val == 0x3000

def Glyph.isWhite : Glyph → Bool
  | .char c => Utf8.isWhite c
  | .stray _ => false

/-- `s` without white space at its ends. Stray bytes are content. -/
def trimWhite (s : Text) : Text :=
  encode (((glyphs s).dropWhile Glyph.isWhite).reverse.dropWhile Glyph.isWhite).reverse

/-- Lower case as far as it leads into ASCII: besides A to Z only U+0130 and U+212A do. Other
characters are kept, so equality with an ASCII word is decided as under the full mapping. -/
def lowerChar (c : Char) : Char :=
  if 'A' ≤ c && c ≤ 'Z' then Char.ofNat (c.toNat + 32)
  else if c.toNat = 0x130 then 'i'
  else if c.toNat = 0x212A then 'k'
  else c

def Glyph.lower : Glyph → Glyph
  | .char c => .char (lowerChar c)
  | .stray b => .stray b

def lower (s : Text) : Text := encode ((glyphs s).map Glyph.lower)

end DocBridge.Utf8
