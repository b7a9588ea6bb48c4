import DocBridge.Text.Utf8
import DocBridge.Token.Kind

/-
Where a token ends. Every scanner is given the first byte of the token and the text after it, and
answers with the kind and with how many bytes of that text belong to the token. A token therefore
always has at least one byte, whatever the input.
-/
namespace DocBridge.Scan

open Text

def isNameStart (b : UInt8) : Bool := b == 0x5F || isLetter b || 0x80 ≤ b

def isNamePart (b : UInt8) : Bool := isNameStart b || isDigit b

def startsWith (p : UInt8 → Bool) : Text → Bool
  | [] => false
  | b :: _ => p b

def tagSpaceLength? : Text → Option Nat
  | [] => some 0
  | b :: rest =>
    if b == 0x0D && startsWith (· == 0x0A) rest then some 2
    else if isSpace b then some 1
    else none

/-- The open tag at the start of `s`, with its length. `<?` alone opens nothing. -/
def openTag? (s : Text) : Option (Kind × Nat) :=
  if (ofString "<?=").isPrefixOf s then some (.openEchoTag, 3)
  else if lowerAscii (s.take 5) == ofString "<?php" then
    (tagSpaceLength? (s.drop 5)).map fun n => (.openTag, n + 5)
  else none

def inlineLength : Text → Nat
  | [] => 0
  | b :: rest => if (openTag? (b :: rest)).isSome then 0 else inlineLength rest + 1

def scanInline (b : UInt8) (rest : Text) : Kind × Nat :=
  match openTag? (b :: rest) with
  | some (kind, length) => (kind, length - 1)
  | none => (.inlineHtml, inlineLength rest)

def lineBreakLength (s : Text) : Nat :=
  if (ofString "\r\n").isPrefixOf s then 2 else if startsWith (· == 0x0A) s then 1 else 0

/-- A line comment takes its line break along and stops before a close tag. -/
def lineCommentLength : Text → Nat
  | [] => 0
  | b :: rest =>
    if b == 0x0A then 1
    else if b == 0x0D then (if startsWith (· == 0x0A) rest then 2 else 1)
    else if b == 0x3F && startsWith (· == 0x3E) rest then 0
    else lineCommentLength rest + 1

/-- `body` is what follows the two bytes that open the comment. Without a terminator the comment
runs to the end and is never a doc comment. -/
def blockComment (body : Text) : Kind × Nat :=
  match indexOf? "*/" body with
  | none => (.comment, body.length)
  | some i =>
    let isDoc := startsWith (· == 0x2A) body && startsWith isSpace (body.drop 1)
    (if isDoc then .docComment else .comment, i + 2)

def nameLength (s : Text) : Nat := runLength isNamePart s

def qualifiedLength : Text → Nat
  | [] => 0
  | b :: rest =>
    if isNamePart b || (b == 0x5C && startsWith isNameStart rest) then qualifiedLength rest + 1
    else 0

def nameKind (word : Text) : Kind :=
  if containsByte 0x5C word then .name
  else match Keyword.ofWord? (Utf8.lower word) with
    | some k => .keyword k
    | none => .name

def isDigitPart (b : UInt8) : Bool := isDigit b || b == 0x5F

def isRadixMark (b : UInt8) : Bool :=
  let l := lowerByte b
  l == 0x78 || l == 0x62 || l == 0x6F

/-- A point is part of the number unless another point follows. -/
def fractionLength : Text → Nat
  | 0x2E :: rest =>
    if startsWith (· == 0x2E) rest then 0 else runLength isDigitPart rest + 1
  | _ => 0

/-- An exponent counts only if a digit follows its mark and sign. -/
def exponentLength : Text → Nat
  | [] => 0
  | e :: rest =>
    if lowerByte e == 0x65 then
      let sign := if startsWith (fun b => b == 0x2B || b == 0x2D) rest then 1 else 0
      let digits := rest.drop sign
      if startsWith isDigit digits then 1 + sign + runLength isDigitPart digits else 0
    else 0

def numberLength (s : Text) : Nat :=
  if startsWith (· == 0x30) s && startsWith isRadixMark (s.drop 1) then
    2 + runLength (fun b => isHexDigit b || b == 0x5F) (s.drop 2)
  else decimal s
where
  decimal (s : Text) : Nat :=
    let whole := runLength isDigitPart s
    let fraction := fractionLength (s.drop whole)
    whole + fraction + exponentLength (s.drop (whole + fraction))

def quotedLength (quote : UInt8) : Text → Nat
  | [] => 0
  | [_] => 1
  | b :: next :: rest =>
    if b == 0x5C then quotedLength quote rest + 2
    else if b == quote then 1
    else quotedLength quote (next :: rest) + 1

def openQuote : Text → Option UInt8 × Text
  | [] => (none, [])
  | b :: rest => if b == 0x27 || b == 0x22 then (some b, rest) else (none, b :: rest)

def closeQuote? : Option UInt8 → Text → Option Text
  | none, s => some s
  | some _, [] => none
  | some q, b :: rest => if b == q then some rest else none

def afterLineBreak? (s : Text) : Option Text :=
  if lineBreakLength s = 0 then none else some (s.drop (lineBreakLength s))

def heredocOpening? (s : Text) : Option (Text × Text) :=
  let (quote, s) := openQuote (s.dropWhile isBlank)
  let label := s.takeWhile isNamePart
  if startsWith isNameStart label then
    ((closeQuote? quote (s.dropWhile isNamePart)).bind afterLineBreak?).map fun body =>
      (label, body)
  else none

def heredocClosing? (label line : Text) : Option Nat :=
  let indent := runLength isBlank line
  let s := line.drop indent
  if label.isPrefixOf s && !startsWith isNamePart (s.drop label.length) then
    some (indent + label.length)
  else none

def heredocBodyLength (label : Text) : Bool → Text → Nat
  | _, [] => 0
  | atLineStart, b :: rest =>
    match if atLineStart then heredocClosing? label (b :: rest) else none with
    | some n => n
    | none => heredocBodyLength label (b == 0x0A) rest + 1

def heredocLength? (s : Text) : Option Nat :=
  (heredocOpening? s).map fun (label, body) =>
    s.length - body.length + heredocBodyLength label true body

def operators3 : List Text :=
  ["===", "!==", "<=>", "**=", "...", "<<=", ">>=", "??=", "?->"]

def operators2 : List Text :=
  ["::", "->", "=>", "==", "!=", "<>", "<=", ">=", "&&", "||", "??", "++", "--",
    "+=", "-=", "*=", "/=", ".=", "%=", "&=", "|=", "^=", "<<", ">>", "**"]

/-- The longest operator wins; a lone backslash is the namespace separator. -/
def scanOperator (b : UInt8) (rest : Text) : Kind × Nat :=
  if operators3.any (·.isPrefixOf (b :: rest)) then (.operator, 2)
  else if operators2.any (·.isPrefixOf (b :: rest)) then (.operator, 1)
  else if b == 0x5C then (.operator, 0)
  else (.char, 0)

def isQuote (b : UInt8) : Bool := b == 0x27 || b == 0x22 || b == 0x60

inductive Lead where
  | space | closeTag | attributeOpen | lineComment | blockComment | variableName | name | number
  | quote
  | brackets
  | other
  deriving DecidableEq, Repr

def leadOf (b : UInt8) (rest : Text) : Lead :=
  if isSpace b then .space
  else if b == 0x3F && startsWith (· == 0x3E) rest then .closeTag
  else if b == 0x23 && startsWith (· == 0x5B) rest then .attributeOpen
  else if b == 0x23 || (b == 0x2F && startsWith (· == 0x2F) rest) then .lineComment
  else if b == 0x2F && startsWith (· == 0x2A) rest then .blockComment
  else if b == 0x24 && startsWith isNameStart rest then .variableName
  else if isNameStart b || (b == 0x5C && startsWith isNameStart rest) then .name
  else if isDigit b || (b == 0x2E && startsWith isDigit rest) then .number
  else if isQuote b then .quote
  else if b == 0x3C && (ofString "<<").isPrefixOf rest then .brackets
  else .other

def scanLead (b : UInt8) (rest : Text) : Lead → Kind × Nat
  | .space => (.whitespace, runLength isSpace rest)
  | .closeTag => (.closeTag, 1 + lineBreakLength (rest.drop 1))
  | .attributeOpen => (.attributeOpen, 1)
  | .lineComment => (.comment, lineCommentLength rest)
  | .blockComment =>
    let (kind, length) := blockComment (rest.drop 1)
    (kind, length + 1)
  | .variableName => (.variableName, nameLength rest)
  | .name => (nameKind (b :: rest.take (qualifiedLength rest)), qualifiedLength rest)
  | .number => (.number, numberLength (b :: rest) - 1)
  | .quote => (.stringLiteral, quotedLength b rest)
  | .brackets =>
    match heredocLength? (rest.drop 2) with
    | some length => (.heredoc, length + 2)
    | none => scanOperator b rest
  | .other => scanOperator b rest

def scanCode (b : UInt8) (rest : Text) : Kind × Nat := scanLead b rest (leadOf b rest)

end DocBridge.Scan
