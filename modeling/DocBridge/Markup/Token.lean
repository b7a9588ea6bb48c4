import DocBridge.Markup.Entity
import DocBridge.Markup.Name

/-
The tokens of a page: character data, tags, comments, instructions and directives. A strict
reading refuses what XML refuses; a lenient one takes unknown references literally, unquoted
attribute values and attributes without a value.
-/
namespace DocBridge.Markup

open Text

inductive Problem where
  | unexpectedEnd
  | badName
  | badReference
  | badCharacter
  | badComment
  | badSection
  | badTag
  | badAttribute
  | badDeclaration
  | unescapedEnd
  | unmatchedEndTag
  | unboundQualifier
  | noElement
  deriving DecidableEq, Repr

def Problem.message : Problem → Text
  | .unexpectedEnd => "unexpected end of input"
  | .badName => "expected a name"
  | .badReference => "invalid character reference"
  | .badCharacter => "character not allowed in markup"
  | .badComment => "\"--\" inside a comment"
  | .badSection => "invalid <![ sequence"
  | .badTag => "malformed tag"
  | .badAttribute => "malformed attribute"
  | .badDeclaration => "unsupported XML declaration"
  | .unescapedEnd => "\"]]>\" outside of a CDATA section"
  | .unmatchedEndTag => "end tag without its start tag"
  | .unboundQualifier => "namespace without a declaration"
  | .noElement => "no element"

structure QName where
  qualifier : Text
  name : Text
  deriving DecidableEq, Repr

inductive Token where
  /-- `section_` tells a CDATA section, or a text that is written like one. -/
  | chars (data : Text) (section_ : Bool)
  | comment (data : Text)
  | directive (data : Text)
  | instruction (target data : Text)
  | startTag (name : QName) (attrs : List (QName × Text)) (closed : Bool)
  | endTag (name : QName)
  deriving DecidableEq, Repr

abbrev Scanned (α : Type) := α × Text

def skipSpace (s : Text) : Text := s.dropWhile isSpace

def scanName (s : Text) : Except Problem (Scanned Text) :=
  let name := s.takeWhile isNameByte
  let rest := s.drop name.length
  if name.isEmpty then .error .badName
  else if rest.isEmpty then .error .unexpectedEnd
  else if isName name then .ok (name, rest)
  else .error .badName

/-- A colon at either end belongs to the name; two colons are refused. -/
def splitName (name : Text) : Except Problem QName :=
  if 1 < countByte 0x3A name then .error .badName
  else match cut? ":" name with
    | some (qualifier, base) =>
      if qualifier.isEmpty || base.isEmpty then .ok ⟨[], name⟩ else .ok ⟨qualifier, base⟩
    | none => .ok ⟨[], name⟩

def scanQName (s : Text) : Except Problem (Scanned QName) := do
  let (name, rest) ← scanName s
  return (← splitName name, rest)

def normalizeLines : Text → Text
  | [] => []
  | 0x0D :: 0x0A :: rest => 0x0A :: normalizeLines rest
  | 0x0D :: rest => 0x0A :: normalizeLines rest
  | b :: rest => b :: normalizeLines rest

inductive Reference where
  | known (text : Text) (length : Nat)
  | unknown
  | cut
  deriving DecidableEq, Repr

def digitValue (b : UInt8) : Nat :=
  if isDigit b then b.toNat - 0x30 else (lowerByte b).toNat - 0x61 + 10

def numberOf (base : Nat) (digits : Text) : Nat :=
  digits.foldl (fun n b => n * base + digitValue b) 0

def charOf (n : Nat) : Char := if n.isValidChar then Char.ofNat n else Char.ofNat 0xFFFD

def numericReference (base before : Nat) (s : Text) : Reference :=
  let digits := s.takeWhile (if base = 16 then isHexDigit else isDigit)
  match s.drop digits.length with
  | [] => .cut
  | b :: _ =>
    let n := numberOf base digits
    if b == 0x3B && !digits.isEmpty && n ≤ 0x10FFFF then
      .known (Utf8.encodeChar (charOf n)) (before + digits.length + 1)
    else .unknown

def namedReference (s : Text) : Reference :=
  let name := s.takeWhile isNameByte
  match s.drop name.length with
  | [] => .cut
  | b :: _ =>
    match if b == 0x3B && isName name then entity? name else none with
    | some c => .known (Utf8.encodeChar c) (name.length + 1)
    | none => .unknown

def reference : Text → Reference
  | 0x23 :: 0x78 :: rest => numericReference 16 2 rest
  | 0x23 :: rest => numericReference 10 1 rest
  | s => namedReference s

/- `skip` counts the bytes of the last reference that are still to be passed over; `atEnd` tells
that nothing follows the text, so that a reference may be cut short. -/
def expandFrom (strict atEnd : Bool) : Nat → Text → Except Problem Text
  | _, [] => .ok []
  | skip + 1, _ :: rest => expandFrom strict atEnd skip rest
  | 0, b :: rest =>
    if b == 0x26 then
      match reference rest with
      | .known t length => (expandFrom strict atEnd length rest).map (t ++ ·)
      | .cut =>
        if atEnd then .error .unexpectedEnd
        else if strict then .error .badReference
        else (expandFrom strict atEnd 0 rest).map (b :: ·)
      | .unknown =>
        if strict then .error .badReference
        else (expandFrom strict atEnd 0 rest).map (b :: ·)
    else (expandFrom strict atEnd 0 rest).map (b :: ·)

def charData (strict atEnd : Bool) (raw : Text) : Except Problem Text := do
  let data ← expandFrom strict atEnd 0 (normalizeLines raw)
  if isXmlText data then return data else throw .badCharacter

def sectionOpener : Text := "![CDATA["

/-- A text is written like a section if it starts with the opener without its bracket. -/
def looksLikeSection (raw : Text) : Bool :=
  lowerAscii (raw.take sectionOpener.length) == lowerAscii sectionOpener

def scanChars (strict : Bool) (s : Text) : Except Problem (Scanned Token) := do
  let raw := s.takeWhile (· != 0x3C)
  let rest := s.drop raw.length
  if contains "]]>" raw then throw .unescapedEnd
  return (.chars (← charData strict rest.isEmpty raw) (looksLikeSection raw), rest)

def scanUntil (stop s : Text) : Except Problem (Scanned Text) :=
  match cut? stop s with
  | some found => .ok found
  | none => .error .unexpectedEnd

def scanSection (s : Text) : Except Problem (Scanned Token) := do
  let (raw, rest) ← scanUntil "]]>" s
  let data := normalizeLines raw
  if isXmlText data then return (.chars data true, rest) else throw .badCharacter

def scanComment (s : Text) : Except Problem (Scanned Token) := do
  let (data, rest) ← scanUntil "--" s
  match rest with
  | 0x3E :: rest => return (.comment data, rest)
  | [] => throw .unexpectedEnd
  | _ => throw .badComment

/-- The value of a pseudo attribute of a declaration, empty if there is none. A value that does
not start with a quote is passed over. -/
def pseudoAttr (key : Text) : Nat → Text → Text
  | 0, _ => []
  | fuel + 1, s =>
    match cut? (key ++ "=") s with
    | none => []
    | some (_, []) => []
    | some (_, q :: rest) =>
      if q == 0x22 || q == 0x27 then ((cut? [q] rest).map Prod.fst).getD []
      else pseudoAttr key fuel rest

def isSupportedDeclaration (data : Text) : Bool :=
  let version := pseudoAttr "version" data.length data
  let encoding := pseudoAttr "encoding" data.length data
  (version.isEmpty || version == ofString "1.0")
    && (encoding.isEmpty || lowerAscii encoding == ofString "utf-8")

def scanInstruction (s : Text) : Except Problem (Scanned Token) := do
  let (target, rest) ← scanName s
  let (data, rest) ← scanUntil "?>" (skipSpace rest)
  if target == ofString "xml" && !isSupportedDeclaration data then throw .badDeclaration
  return (.instruction target data, rest)

/-- The rest of a directive. Quoted brackets do not count for nesting, and a comment inside is
replaced by a blank. -/
def directiveTail (depth : Nat) (quote : Option UInt8) : Nat → Text → Except Problem (Scanned Text)
  | 0, _ => .error .unexpectedEnd
  | _, [] => .error .unexpectedEnd
  | fuel + 1, b :: rest =>
    let more (depth : Nat) (quote : Option UInt8) (out : Text) (rest : Text) : Except Problem (Scanned Text) :=
      (directiveTail depth quote fuel rest).map fun (data, rest) => (out ++ data, rest)
    match quote with
    | some q => more depth (if b == q then none else quote) [b] rest
    | none =>
      if b == 0x3E && depth == 0 then .ok ([], rest)
      else if b == 0x27 || b == 0x22 then more depth (some b) [b] rest
      else if b == 0x3E then more (depth - 1) none [b] rest
      else if b == 0x3C then
        if (ofString "!--").isPrefixOf rest then
          match cut? "-->" (rest.drop 3) with
          | some (_, rest) => more depth none [0x20] rest
          | none => .error .unexpectedEnd
        else more (depth + 1) none [b] rest
      else more depth none [b] rest

def scanDirective (b : UInt8) (s : Text) : Except Problem (Scanned Token) :=
  (directiveTail 0 none s.length s).map fun (data, rest) => (.directive (b :: data), rest)

def isBareByte (b : UInt8) : Bool :=
  isLetter b || isDigit b || b == 0x5F || b == 0x3A || b == 0x2D

def scanValue (strict : Bool) (s : Text) : Except Problem (Scanned Text) := do
  match s with
  | [] => throw .unexpectedEnd
  | q :: rest =>
    if q == 0x22 || q == 0x27 then
      let (raw, rest) ← scanUntil [q] rest
      if containsByte 0x3C raw then throw .badAttribute
      return (← charData strict false raw, rest)
    else if strict then throw .badAttribute
    else
      let value := s.takeWhile isBareByte
      let rest := s.drop value.length
      if rest.isEmpty then throw .unexpectedEnd
      return (value, rest)

def scanAttr (strict : Bool) (s : Text) : Except Problem (Scanned (QName × Text)) := do
  let (name, rest) ← scanQName s
  match skipSpace rest with
  | [] => throw .unexpectedEnd
  | 0x3D :: rest =>
    let (value, rest) ← scanValue strict (skipSpace rest)
    return ((name, value), rest)
  | rest => if strict then throw .badAttribute else return ((name, name.name), rest)

def scanAttrs (strict : Bool) : Nat → Text → Except Problem (Scanned (List (QName × Text) × Bool))
  | 0, _ => .error .unexpectedEnd
  | fuel + 1, s =>
    match skipSpace s with
    | [] => .error .unexpectedEnd
    | 0x3E :: rest => .ok (([], false), rest)
    | 0x2F :: 0x3E :: rest => .ok (([], true), rest)
    | 0x2F :: _ => .error .badTag
    | s => do
      let (attr, rest) ← scanAttr strict s
      let ((attrs, closed), rest) ← scanAttrs strict fuel rest
      return ((attr :: attrs, closed), rest)

def scanStartTag (strict : Bool) (s : Text) : Except Problem (Scanned Token) := do
  let (name, rest) ← scanQName s
  let ((attrs, closed), rest) ← scanAttrs strict rest.length rest
  return (.startTag name attrs closed, rest)

def scanEndTag (s : Text) : Except Problem (Scanned Token) := do
  let (name, rest) ← scanQName s
  match skipSpace rest with
  | 0x3E :: rest => return (.endTag name, rest)
  | [] => throw .unexpectedEnd
  | _ => throw .badTag

def scanToken (strict : Bool) (b : UInt8) (s : Text) : Except Problem (Scanned Token) :=
  if b != 0x3C then scanChars strict (b :: s)
  else match s with
    | [] => .error .unexpectedEnd
    | 0x2F :: s => scanEndTag s
    | 0x3F :: s => scanInstruction s
    | 0x21 :: s =>
      match s with
      | [] => .error .unexpectedEnd
      | 0x2D :: 0x2D :: s => scanComment s
      | 0x2D :: _ => .error .badComment
      | 0x5B :: s =>
        if (ofString "CDATA[").isPrefixOf s then scanSection (s.drop 6) else .error .badSection
      | b :: s => scanDirective b s
    | s => scanStartTag strict s

/-- All tokens. A token that takes nothing would be refused. -/
def tokens (strict : Bool) : Text → Except Problem (List Token)
  | [] => .ok []
  | b :: s =>
    match scanToken strict b s with
    | .error e => .error e
    | .ok (token, rest) =>
      if rest.length < (b :: s).length then (tokens strict rest).map (token :: ·)
      else .error .badTag
termination_by s => s.length
decreasing_by assumption

end DocBridge.Markup
