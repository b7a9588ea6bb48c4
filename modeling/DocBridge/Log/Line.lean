import DocBridge.Log
import DocBridge.Text.Category
import DocBridge.Text.Utf8

/-
Log records as lines of `key=value` fields. A text is put in quotes if it is empty or holds a
blank, an equals sign, a quote or anything that does not print.
-/
namespace DocBridge
namespace Log

def printable : CharSet :=
  ["L", "M", "N", "P", "S"].flatMap fun name => (CharSet.category? name).getD []

def prints (c : Char) : Bool :=
  if c.toNat < 0x7F then 0x20 ≤ c.toNat else printable.contains c.toNat

def hexText (width n : Nat) : Text :=
  let digits := Text.ofString (String.ofList (Nat.toDigits 16 n))
  List.replicate (width - digits.length) 0x30 ++ digits

def escapeChar (c : Char) : Text :=
  match c.toNat with
  | 7 => "\\a"
  | 8 => "\\b"
  | 9 => "\\t"
  | 10 => "\\n"
  | 11 => "\\v"
  | 12 => "\\f"
  | 13 => "\\r"
  | 0x22 => "\\\""
  | 0x5C => "\\\\"
  | n =>
    if prints c then Utf8.encodeChar c
    else if n < 0x80 then "\\x" ++ hexText 2 n
    else if n < 0x10000 then "\\u" ++ hexText 4 n
    else "\\U" ++ hexText 8 n

def escapeGlyph : Utf8.Glyph → Text
  | .char c => escapeChar c
  | .stray b => "\\x" ++ hexText 2 b.toNat

def quote (t : Text) : Text := "\"" ++ (Utf8.glyphs t).flatMap escapeGlyph ++ "\""

def isBare : Utf8.Glyph → Bool
  | .stray _ => false
  | .char c =>
    if c.toNat < 0x80 then 0x20 < c.toNat && c != '=' && c != '"'
    else c.toNat != 0xFFFD && !Utf8.isWhite c && prints c

def word (t : Text) : Text :=
  if t.isEmpty || !(Utf8.glyphs t).all isBare then quote t else t

end Log

def Value.plain : Value → Text
  | .nothing => "<nil>"
  | .text t => t
  | .int n => Text.ofInt n
  | .bool b => if b then "true" else "false"
  | .texts ts => "[" ++ Text.join " " ts ++ "]"
  | .number digits => digits

namespace Log

def valueText : Value → Text
  | .int n => (Value.int n).plain
  | .bool b => (Value.bool b).plain
  | .number digits => digits
  | v => word v.plain

def attrText (a : Text × Value) : Text :=
  if a.1.isEmpty && a.2 == .nothing then [] else " " ++ word a.1 ++ "=" ++ valueText a.2

structure Stamp where
  time : Text
  attrs : List (Text × Value)

def Record.line (stamp : Stamp) (r : Record) : Text :=
  "time=" ++ stamp.time ++ " level=" ++ r.level.label ++ " msg=" ++ word r.message
    ++ (stamp.attrs ++ r.attrs).flatMap attrText ++ "\n"

end Log
end DocBridge
