import DocBridge.Text.Utf8

/- The characters of a YAML stream, read with line and column. -/
namespace DocBridge.Yaml

inductive Problem where
  | invalidUtf8
  | controlCharacter
  | badToken
  | badDirective
  | badIndentation
  | tabIndentation
  | missingColon
  | misplacedEntry
  | misplacedKey
  | misplacedValue
  | unclosedScalar
  | unknownEscape
  | badBlockHeader
  | badAnchor
  | unknownAnchor
  | badTag
  | expectedNode
  | expectedKey
  | expectedEntry
  | expectedSeparator
  | expectedDocument
  | duplicateKey
  | badMerge
  | tooDeep
  deriving DecidableEq, Repr

def Problem.message : Problem → Text
  | .invalidUtf8 => "yaml: invalid UTF-8"
  | .controlCharacter => "yaml: control characters are not allowed"
  | .badToken => "yaml: found character that cannot start any token"
  | .badDirective => "yaml: malformed directive"
  | .badIndentation => "yaml: wrong indentation"
  | .tabIndentation => "yaml: found a tab character that violates indentation"
  | .missingColon => "yaml: could not find expected ':'"
  | .misplacedEntry => "yaml: block sequence entries are not allowed in this context"
  | .misplacedKey => "yaml: mapping keys are not allowed in this context"
  | .misplacedValue => "yaml: mapping values are not allowed in this context"
  | .unclosedScalar => "yaml: unclosed quoted scalar"
  | .unknownEscape => "yaml: found unknown escape character"
  | .badBlockHeader => "yaml: malformed block scalar header"
  | .badAnchor => "yaml: malformed anchor or alias"
  | .unknownAnchor => "yaml: unknown anchor"
  | .badTag => "yaml: value does not fit its tag"
  | .expectedNode => "yaml: did not find expected node content"
  | .expectedKey => "yaml: did not find expected key"
  | .expectedEntry => "yaml: did not find expected '-' indicator"
  | .expectedSeparator => "yaml: did not find expected ',' or closing bracket"
  | .expectedDocument => "yaml: did not find expected <document start>"
  | .duplicateKey => "yaml: mapping key already defined"
  | .badMerge => "yaml: map merge requires map or sequence of maps as the value"
  | .tooDeep => "yaml: exceeded max depth"

def isBreak (c : Char) : Bool :=
  c == '\n' || c == '\r' || c.toNat == 0x85 || c.toNat == 0x2028 || c.toNat == 0x2029

def isBlank (c : Char) : Bool := c == ' ' || c == '\t'

def isGap (c : Char) : Bool := isBlank c || isBreak c

def atGap (cs : List Char) : Bool := cs.head?.all isGap

def atLineEnd (cs : List Char) : Bool := cs.head?.all isBreak

def isAllowed (c : Char) : Bool :=
  let n := c.toNat
  n == 0x09 || n == 0x0A || n == 0x0D || (0x20 ≤ n && n ≤ 0x7E) || n == 0x85
    || (0xA0 ≤ n && n ≤ 0xFFFD) || 0x10000 ≤ n

structure Reader where
  rest : List Char
  index : Nat := 0
  line : Nat := 0
  column : Nat := 0

namespace Reader

def skip (r : Reader) (n : Nat) : Reader :=
  { r with rest := r.rest.drop n, index := r.index + n, column := r.column + n }

def skipWhile (r : Reader) (p : Char → Bool) : Reader := r.skip (r.rest.takeWhile p).length

/-- Past a line break. The break is given as it counts in a scalar: all but the two separators of
Unicode become a line feed. -/
def lineBreak (r : Reader) : List Char × Reader :=
  let past (n : Nat) : Reader :=
    { rest := r.rest.drop n, index := r.index + n, line := r.line + 1, column := 0 }
  match r.rest with
  | '\r' :: '\n' :: _ => (['\n'], past 2)
  | c :: _ => ([if c.toNat == 0x2028 || c.toNat == 0x2029 then c else '\n'], past 1)
  | [] => ([], r)

def atDocumentMark (r : Reader) : Bool :=
  r.column == 0
    && (match r.rest with
      | '-' :: '-' :: '-' :: rest => atGap rest
      | '.' :: '.' :: '.' :: rest => atGap rest
      | _ => false)

def room (r : Reader) : Nat := r.rest.length + 1

def ofText (text : Text) : Except Problem Reader :=
  match Utf8.chars? text with
  | none => .error .invalidUtf8
  | some cs =>
    let cs := if cs.head? == some (Char.ofNat 0xFEFF) then cs.drop 1 else cs
    if cs.all isAllowed then .ok { rest := cs } else .error .controlCharacter

end Reader
end DocBridge.Yaml
