import DocBridge.Yaml.Scalar

/-
The tokens of a YAML stream. Blocks are delimited by indentation: a deeper column opens one, a
smaller column closes those that are deeper. A scalar or collection turns out to be a key only when
a colon follows it on the same line, so its place among the tokens is kept until then.
-/
namespace DocBridge.Yaml

inductive Style where
  | plain | single | double | literal | folded
  deriving DecidableEq, Repr

inductive Token where
  | directive (supported : Bool)
  | documentStart | documentEnd
  | sequenceStart | mappingStart | blockEnd
  | flowSequenceStart | flowSequenceEnd | flowMappingStart | flowMappingEnd
  | entry | flowEntry | key | value
  | alias (name : Text)
  | anchor (name : Text)
  | tag (name : Text)
  | scalar (style : Style) (text : Text)
  | streamEnd
  deriving DecidableEq, Repr

structure Candidate where
  position : Nat
  required : Bool
  index : Nat
  line : Nat
  column : Nat

structure State where
  reader : Reader
  tokens : List Token := []
  indent : Int := -1
  outerIndents : List Int := []
  keyAllowed : Bool := true
  candidate : Option Candidate := none
  outerCandidates : List (Option Candidate) := []

namespace State

def inFlow (s : State) : Bool := !s.outerCandidates.isEmpty

def emit (s : State) (t : Token) : State := { s with tokens := s.tokens ++ [t] }

def insertAt (s : State) (position : Nat) (t : Token) : State :=
  { s with tokens := s.tokens.take position ++ t :: s.tokens.drop position }

def dropCandidate (s : State) : Except Problem State :=
  if s.candidate.any Candidate.required then .error .missingColon
  else .ok { s with candidate := none }

def saveCandidate (s : State) : Except Problem State :=
  if s.keyAllowed then do
    let s ← s.dropCandidate
    let r := s.reader
    return { s with
      candidate := some
        { position := s.tokens.length
          required := !s.inFlow && s.indent == (r.column : Int)
          index := r.index
          line := r.line
          column := r.column } }
  else .ok s

def unroll (column : Int) : List Int → State → State
  | [], s => s
  | outer :: rest, s =>
    if column < s.indent then
      unroll column rest { s.emit .blockEnd with indent := outer, outerIndents := rest }
    else s

def unrollTo (s : State) (column : Int) : State :=
  if s.inFlow then s else unroll column s.outerIndents s

def roll (s : State) (column : Nat) (position : Nat) (t : Token) : State :=
  if s.inFlow || (column : Int) ≤ s.indent then s
  else
    { s.insertAt position t with indent := column, outerIndents := s.indent :: s.outerIndents }

def skip (s : State) (n : Nat) : State := { s with reader := s.reader.skip n }

def allowKey (s : State) (allowed : Bool) : State := { s with keyAllowed := allowed }

end State

/-- Past blanks, comments and line breaks. Where a key may start, a tab is no blank. -/
def toNextToken : Nat → State → State
  | 0, s => s
  | fuel + 1, s =>
    let r := s.reader
    let r := if r.column == 0 && r.rest.head? == some (Char.ofNat 0xFEFF) then r.skip 1 else r
    let r := r.skipWhile fun c => c == ' ' || ((s.inFlow || !s.keyAllowed) && c == '\t')
    let r := if r.rest.head? == some '#' then r.skipWhile (!isBreak ·) else r
    if r.rest.head?.any isBreak then
      toNextToken fuel { s with reader := r.lineBreak.2, keyAllowed := s.keyAllowed || !s.inFlow }
    else { s with reader := r }

def documentMark (s : State) (t : Token) : Except Problem State := do
  let s ← (s.unrollTo (-1)).dropCandidate
  return ((s.allowKey false).emit t).skip 3

def isVersionOne (cs : List Char) : Bool := String.ofList cs == "1.1"

def directive (s : State) : Except Problem State := do
  let s ← (s.unrollTo (-1)).dropCandidate
  let line := s.reader.rest.takeWhile (!isBreak ·)
  let words := ((String.ofList (line.drop 1)).splitOn " ").filter (· != "")
  let s := (s.allowKey false).skip line.length
  match words with
  | ["YAML", version] => return s.emit (.directive (isVersionOne version.toList))
  | ["TAG", _, _] => return s.emit (.directive true)
  | _ => throw .badDirective

def openFlow (s : State) (t : Token) : Except Problem State := do
  let s ← s.saveCandidate
  return ((({ s with
    candidate := none
    outerCandidates := s.candidate :: s.outerCandidates } : State).allowKey true).emit t).skip 1

def closeFlow (s : State) (t : Token) : Except Problem State := do
  let s ← s.dropCandidate
  let s :=
    match s.outerCandidates with
    | [] => s
    | c :: rest => { s with candidate := c, outerCandidates := rest }
  return ((s.allowKey false).emit t).skip 1

def flowEntry (s : State) : Except Problem State := do
  return (((← s.dropCandidate).allowKey true).emit .flowEntry).skip 1

def blockEntry (s : State) : Except Problem State := do
  if !s.inFlow && !s.keyAllowed then throw .misplacedEntry
  let s := s.roll s.reader.column s.tokens.length .sequenceStart
  return (((← s.dropCandidate).allowKey true).emit .entry).skip 1

def explicitKey (s : State) : Except Problem State := do
  if !s.inFlow && !s.keyAllowed then throw .misplacedKey
  let s := s.roll s.reader.column s.tokens.length .mappingStart
  let s ← s.dropCandidate
  return ((s.allowKey !s.inFlow).emit .key).skip 1

/-- How far behind its start a key's colon may stand. -/
def keyReach : Nat := 1024

def validCandidate (s : State) : Except Problem (Option Candidate) :=
  match s.candidate with
  | none => .ok none
  | some c =>
    if c.line < s.reader.line || c.index + keyReach < s.reader.index then
      if c.required then .error .missingColon else .ok none
    else .ok (some c)

def valueMark (s : State) : Except Problem State := do
  match ← validCandidate s with
  | some c =>
    let s := (s.insertAt c.position .key).roll c.column c.position .mappingStart
    return ((({ s with candidate := none } : State).allowKey false).emit .value).skip 1
  | none =>
    if !s.inFlow && !s.keyAllowed then throw .misplacedValue
    let s := s.roll s.reader.column s.tokens.length .mappingStart
    return ((({ s with candidate := none } : State).allowKey !s.inFlow).emit .value).skip 1

def isNameChar (c : Char) : Bool := c.isAlphanum || c == '_' || c == '-'

def anchorToken (s : State) (make : Text → Token) : Except Problem State := do
  let s ← s.saveCandidate
  let name := (s.reader.rest.drop 1).takeWhile isNameChar
  let after := s.reader.rest.drop (1 + name.length)
  if name.isEmpty || !(atGap after || after.head?.any fun c => "?:,]\x7d%@".toList.contains c) then
    throw .badAnchor
  return ((s.allowKey false).emit (make (Utf8.ofChars name))).skip (1 + name.length)

def tagName (cs : List Char) : Except Problem (List Char) :=
  match cs with
  | '!' :: '<' :: rest =>
    if rest.getLast? == some '>' then
      let uri := rest.dropLast
      let own := "tag:yaml.org,2002:".toList
      .ok (if own.isPrefixOf uri then "!!".toList ++ uri.drop own.length else uri)
    else .error .badTag
  | '!' :: '!' :: rest => if rest.isEmpty then .error .badTag else .ok cs
  | '!' :: rest => if rest.contains '!' then .error .badTag else .ok cs
  | _ => .error .badTag

def tagToken (s : State) : Except Problem State := do
  let s ← s.saveCandidate
  let text := s.reader.rest.takeWhile fun c => !isGap c && !(s.inFlow && c == ',')
  let name ← tagName text
  return ((s.allowKey false).emit (.tag (Utf8.ofChars name))).skip text.length

def blockScalar (s : State) (folded : Bool) : Except Problem State := do
  let s ← s.dropCandidate
  let (text, r) ← block folded s.indent (s.reader.skip 1)
  let style := if folded then Style.folded else .literal
  return ({ s.allowKey true with reader := r } : State).emit (.scalar style (Utf8.ofChars text))

def quotedScalar (s : State) (quote : Char) (style : Style) : Except Problem State := do
  let s ← s.saveCandidate
  let r := s.reader.skip 1
  let (text, r) ← quoted quote r.room [] r
  return ({ s.allowKey false with reader := r } : State).emit (.scalar style (Utf8.ofChars text))

def plainScalar (s : State) : Except Problem State := do
  let s ← s.saveCandidate
  let (text, gap, r) ← plain s.inFlow (s.indent + 1) s.reader.room [] {} s.reader
  return ({ s.allowKey gap.broken with reader := r } : State).emit
    (.scalar .plain (Utf8.ofChars text))

def indicators : List Char := "-?:,[]\x7b\x7d#&*!|>'\"%@".toList ++ [Char.ofNat 0x60]

def startsPlain (inFlow : Bool) (c : Char) (rest : List Char) : Bool :=
  !(isGap c || indicators.contains c) || (c == '-' && !rest.head?.any isBlank)
    || (!inFlow && (c == '?' || c == ':') && !atGap rest)

def finish (s : State) : Except Problem State := do
  let s ← (s.unrollTo (-1)).dropCandidate
  return (s.allowKey false).emit .streamEnd

def tokenAt (s : State) (c : Char) (rest : List Char) : Except Problem State :=
  if s.reader.column == 0 && c == '%' then directive s
  else if s.reader.atDocumentMark then
    documentMark s (if c == '-' then .documentStart else .documentEnd)
  else match c with
    | '[' => openFlow s .flowSequenceStart
    | '\x7b' => openFlow s .flowMappingStart
    | ']' => closeFlow s .flowSequenceEnd
    | '\x7d' => closeFlow s .flowMappingEnd
    | ',' => flowEntry s
    | '*' => anchorToken s .alias
    | '&' => anchorToken s .anchor
    | '!' => tagToken s
    | '\'' => quotedScalar s '\'' .single
    | '"' => quotedScalar s '"' .double
    | _ =>
      if c == '-' && atGap rest then blockEntry s
      else if c == '?' && (s.inFlow || atGap rest) then explicitKey s
      else if c == ':' && (s.inFlow || atGap rest) then valueMark s
      else if c == '|' && !s.inFlow then blockScalar s false
      else if c == '>' && !s.inFlow then blockScalar s true
      else if startsPlain s.inFlow c rest then plainScalar s
      else .error .badToken

def isFinished (s : State) : Bool := s.tokens.getLast? == some .streamEnd

def step (s : State) : Except Problem State :=
  let s := toNextToken s.reader.room s
  let s := s.unrollTo s.reader.column
  match s.reader.rest with
  | [] => finish s
  | c :: rest => tokenAt s c rest

def steps : Nat → State → List Token × Option Problem
  | 0, s => (s.tokens, some .tooDeep)
  | fuel + 1, s =>
    match step s with
    | .error p => (s.tokens, some p)
    | .ok s => if isFinished s then (s.tokens, none) else steps fuel s

def tokens (r : Reader) : List Token × Option Problem := steps (r.room + 1) { reader := r }

end DocBridge.Yaml
