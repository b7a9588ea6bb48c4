import DocBridge.Pattern.Basic
import DocBridge.Settings.Expand
import DocBridge.Text.Utf8

/-
Files of environment variables: lines `name=value` or `name: value`. A value may be quoted and then
span lines; unquoted and double-quoted values refer to the variables of earlier lines.
-/
namespace DocBridge.EnvFile

inductive Problem where
  | badName
  | unclosedQuote
  deriving DecidableEq, Repr

def isBlank (n : Nat) : Bool :=
  n == 0x09 || (0x0B ≤ n && n ≤ 0x0D) || n == 0x20 || n == 0x85 || n == 0xA0

def isBlankByte (b : UInt8) : Bool := isBlank b.toNat

def isBlankGlyph : Utf8.Glyph → Bool
  | .char c => isBlank c.toNat
  | .stray _ => false

def trimBlanks (t : Text) : Text :=
  let drop (gs : List Utf8.Glyph) := gs.dropWhile isBlankGlyph
  Utf8.encode (drop (drop (Utf8.glyphs t)).reverse).reverse

def trimBlanksLeft (t : Text) : Text := Utf8.encode ((Utf8.glyphs t).dropWhile isBlankGlyph)

def isNameByte (b : UInt8) : Bool :=
  Text.isLetter b || Text.isDigit b || b == 0x2E || b == 0x5F || b == 0xAA || b == 0xB2 || b == 0xB3
    || b == 0xB5 || b == 0xB9 || b == 0xBA || (0xBC ≤ b && b ≤ 0xBE)
    || (0xC0 ≤ b && b != 0xD7 && b != 0xF7)

def skipToStatement : Nat → Text → Text
  | 0, t => t
  | fuel + 1, t =>
    let t := Utf8.encode ((Utf8.glyphs t).dropWhile Utf8.Glyph.isWhite)
    if t.head? == some 0x23 then skipToStatement fuel (t.dropWhile (· != 0x0A)) else t

def dropExport (t : Text) : Text :=
  let word : Text := "export"
  let after := t.drop word.length
  if word.isPrefixOf t && ((Utf8.glyphs after).head?.any isBlankGlyph) then trimBlanksLeft after
  else t

def isMark (b : UInt8) : Bool := b == 0x3D || b == 0x3A

/-- The name and what follows its mark. Without a mark the rest of the file is a nameless value. -/
def name (t : Text) : Except Problem (Text × Text) :=
  let t := dropExport (trimBlanksLeft t)
  let key := t.takeWhile (!isMark ·)
  if t.isEmpty || !key.all (fun b => isBlankByte b || isNameByte b) then .error .badName
  else if key.length == t.length then .ok ([], trimBlanksLeft t)
  else
    let key := Utf8.encode
      ((Utf8.glyphs key).reverse.dropWhile Utf8.Glyph.isWhite).reverse
    .ok (key, trimBlanksLeft ((t.dropWhile (!isMark ·)).drop 1))

/-- Where a trailing comment starts: the last `#` behind a blank. -/
def commentStart? : List Utf8.Glyph → Option Nat
  | [] => none
  | [_] => none
  | a :: b :: rest =>
    match commentStart? (b :: rest) with
    | some n => some (n + 1)
    | none => if isBlankGlyph a && b == .char '#' then some 1 else none

def withoutComment (line : Text) : Text :=
  let gs := Utf8.glyphs line
  trimBlanks (match commentStart? gs with
    | some n => Utf8.encode (gs.take n)
    | none => line)

def isVariableByte (b : UInt8) : Bool := Text.isUpper b || Text.isDigit b || b == 0x5F

def reference : Pattern UInt8 :=
  .seqs
    [.group 1 (.opt true (.one (· == 0x5C))), .one (· == 0x24), .opt true (.one (· == 0x28)),
      .opt true (.one (· == 0x7B)), .group 4 (.opt true (.plus true (.one isVariableByte))),
      .opt true (.one (· == 0x7D))]

def expandReferences (vars : Environment) (t : Text) : Text :=
  reference.replace
    (fun m =>
      if !(m.group 1).isEmpty then m.text.drop 1
      else if (m.group 4).isEmpty then m.text
      else vars.get (m.group 4))
    t

/-- Line breaks written with a backslash, then all other backslashes but those before a dollar
sign go. A backslash at the end of a line stays. -/
def unescapeBreaks : Text → Text
  | 0x5C :: 0x6E :: rest => 0x0A :: unescapeBreaks rest
  | 0x5C :: 0x72 :: rest => 0x0D :: unescapeBreaks rest
  | 0x5C :: b :: rest => if b == 0x0A then 0x5C :: unescapeBreaks (b :: rest)
    else 0x5C :: b :: unescapeBreaks rest
  | b :: rest => b :: unescapeBreaks rest
  | [] => []

def dropBackslashes : Text → Text
  | 0x5C :: b :: rest => if b == 0x24 then 0x5C :: dropBackslashes (b :: rest)
    else b :: dropBackslashes rest
  | b :: rest => b :: dropBackslashes rest
  | [] => []

def closing? (quote : UInt8) (prev : UInt8) : Text → Option Nat
  | [] => none
  | b :: rest =>
    if b == quote && prev != 0x5C then some 0 else (closing? quote b rest).map (· + 1)

def value (vars : Environment) (t : Text) : Except Problem (Text × Text) :=
  match t with
  | [] => .ok ([], [])
  | q :: rest =>
    if q == 0x22 || q == 0x27 then
      match closing? q q rest with
      | none => .error .unclosedQuote
      | some n =>
        let inner := Text.trim (· == q) (rest.take n)
        let inner :=
          if q == 0x22 then expandReferences vars (dropBackslashes (unescapeBreaks inner))
          else inner
        .ok (inner, rest.drop (n + 1))
    else
      let isLineEnd (b : UInt8) : Bool := b == 0x0A || b == 0x0D
      let line := t.takeWhile (!isLineEnd ·)
      .ok (expandReferences vars (withoutComment line), t.dropWhile (!isLineEnd ·))

def statements : Nat → Environment → Text → Except Problem Environment
  | 0, vars, _ => .ok vars
  | fuel + 1, vars, t =>
    match skipToStatement (t.length + 1) t with
    | [] => .ok vars
    | t => do
      let (key, rest) ← name t
      let (v, rest) ← value vars rest
      statements fuel ((key, v) :: vars) rest

def parse (t : Text) : Except Problem Environment :=
  let t := Text.replaceAll "\r\n" "\n" t
  statements (t.length + 1) [] t

/-- Adds the variables of a file to those that are set; a set variable stays as it is. A variable
without a name cannot be set. -/
def merge (env vars : Environment) : Environment := env ++ vars.filter fun (k, _) => !k.isEmpty

end DocBridge.EnvFile
