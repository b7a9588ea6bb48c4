import DocBridge.Charset.CodePage
import DocBridge.Text.Utf8

/-
Encodings a page may declare. Bytes without a character decode to the replacement character;
characters that an encoding lacks are written as decimal character references.
-/
namespace DocBridge

inductive Charset where
  | utf8
  | utf16 (bigEndian : Bool)
  | singleByte (upper : List Char)
  /-- Encodings that are not read for safety: any text stands for one replacement character. -/
  | unreadable

namespace Charset

def userDefined : Charset := .singleByte ((List.range 128).map fun i => Char.ofNat (0xF780 + i))

def unreadableLabels : List String :=
  ["csiso2022kr", "hz-gb-2312", "iso-2022-cn", "iso-2022-cn-ext", "iso-2022-kr", "replacement"]

/-- The encoding with the given label, in any letter case. The multi-byte encodings of East Asia
(`shift_jis`, `euc-jp`, `iso-2022-jp`, `gbk`, `gb18030`, `big5`, `euc-kr` and their other labels) are
not among them: a page that declares one is refused like one with a label that nobody knows. -/
def ofLabel? (label : Text) : Option Charset :=
  let label := Utf8.toString (Text.lowerAscii label)
  if ["unicode-1-1-utf-8", "utf-8", "utf8"].contains label then some .utf8
  else if ["utf-16", "utf-16le"].contains label then some (.utf16 false)
  else if label == "utf-16be" then some (.utf16 true)
  else if label == "x-user-defined" then some userDefined
  else if unreadableLabels.contains label then some .unreadable
  else (codePages.find? (·.labels.contains label)).map fun page => .singleByte page.upper.toList

def isUtf8 : Charset → Bool
  | .utf8 => true
  | _ => false

def replacement : Char := Char.ofNat 0xFFFD

def unit (bigEndian : Bool) (a b : UInt8) : Nat :=
  if bigEndian then a.toNat * 256 + b.toNat else b.toNat * 256 + a.toNat

def isSurrogate (u : Nat) : Bool := 0xD800 ≤ u && u ≤ 0xDFFF

def isTrailing (u : Nat) : Bool := 0xDC00 ≤ u && u ≤ 0xDFFF

def pair (u v : Nat) : Char :=
  if isTrailing u then replacement else Char.ofNat (0x10000 + (u - 0xD800) * 0x400 + (v - 0xDC00))

def units (bigEndian : Bool) : Text → List Nat
  | a :: b :: rest => unit bigEndian a b :: units bigEndian rest
  | _ => []

def unitChar (u : Nat) : Char := if isSurrogate u then replacement else Char.ofNat u

def decodeUnits : List Nat → List Char
  | [] => []
  | [u] => [unitChar u]
  | u :: v :: rest =>
    if isSurrogate u && isTrailing v then pair u v :: decodeUnits rest
    else unitChar u :: decodeUnits (v :: rest)

/-- A byte without a partner at the end counts as one character. -/
def decode16 (bigEndian : Bool) (s : Text) : List Char :=
  decodeUnits (units bigEndian s) ++ if s.length % 2 = 0 then [] else [replacement]

def encodeUnit (bigEndian : Bool) (u : Nat) : Text :=
  if bigEndian then [(u / 256).toUInt8, (u % 256).toUInt8] else [(u % 256).toUInt8, (u / 256).toUInt8]

def encode16 (bigEndian : Bool) (c : Char) : Text :=
  if c.toNat < 0x10000 then encodeUnit bigEndian c.toNat
  else
    let n := c.toNat - 0x10000
    encodeUnit bigEndian (0xD800 + n / 0x400) ++ encodeUnit bigEndian (0xDC00 + n % 0x400)

def decodeByte (upper : List Char) (b : UInt8) : Char :=
  if b < 0x80 then Char.ofNat b.toNat else upper.getD (b.toNat - 0x80) replacement

def encodeByte (upper : List Char) (c : Char) : Text :=
  if c.toNat < 0x80 then [c.toNat.toUInt8]
  else match if c == replacement then none else upper.findIdx? (· == c) with
    | some i => [(0x80 + i).toUInt8]
    | none => "&#" ++ Text.ofNat c.toNat ++ ";"

def decode : Charset → Text → Text
  | .utf8, s => s
  | .utf16 bigEndian, s => Utf8.ofChars (decode16 bigEndian s)
  | .singleByte upper, s => Utf8.ofChars (s.map (decodeByte upper))
  | .unreadable, _ => Utf8.ofChars [replacement]

def encode : Charset → Text → Text
  | .utf8, s => s
  | .utf16 bigEndian, s => (Utf8.chars s).flatMap (encode16 bigEndian)
  | .singleByte upper, s => (Utf8.chars s).flatMap (encodeByte upper)
  | .unreadable, s => s

end Charset
end DocBridge
