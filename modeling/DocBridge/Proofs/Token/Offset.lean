import DocBridge.Proofs.Token.Heredocs

/-
The scanners once more, over offsets into the source. Every byte and every slice is fetched by a
read that fails out of range, so that `none` stands for a read that the source does not allow.
Looking ahead alone is allowed anywhere and gives a zero behind the end.
-/
namespace DocBridge.Offset

open Text Scan Lexeme

def rest? (src : Text) (i : Nat) : Option Text :=
  if i ≤ src.length then some (src.drop i) else none

def slice? (src : Text) (i j : Nat) : Option Text :=
  if i ≤ j ∧ j ≤ src.length then some ((src.drop i).take (j - i)) else none

def hasPrefix? (src word : Text) (i : Nat) : Option Bool := (rest? src i).map word.isPrefixOf

def test? (src : Text) (p : UInt8 → Bool) (i : Nat) : Option Bool :=
  if i < src.length then (src[i]?).map p else some false

/-- The byte at `i`, or zero behind the end. -/
def peek (src : Text) (i : Nat) : UInt8 := if _ : i < src.length then src[i] else 0

def openTagLength (src : Text) (i : Nat) : Option Nat := do
  let rest ← rest? src i
  if (ofString "<?=").isPrefixOf rest then some 3
  else if 5 ≤ rest.length then
    let word ← slice? rest 0 5
    if lowerAscii word == ofString "<?php" then
      if rest.length = 5 then some 5
      else
        let b ← rest[5]?
        some (if isSpace b then 5 else 0)
    else some 0
  else some 0

def tagLength (src : Text) (b : UInt8) (i : Nat) : Option Nat :=
  if b == 0x3C then openTagLength src i else some 0

def tagSpaceEnd (src : Text) (i : Nat) : Option Nat := do
  if ← hasPrefix? src "\r\n" i then some (i + 2)
  else some (if ← test? src isSpace i then i + 1 else i)

def inlineEnd (src : Text) (i : Nat) : Option Nat :=
  if i < src.length then do
    let b ← src[i]?
    if 0 < (← tagLength src b i) then some i else inlineEnd src (i + 1)
  else some src.length
termination_by src.length - i

def scanInline (src : Text) (off : Nat) : Option (Kind × Nat) := do
  let tag ← openTagLength src off
  if 0 < tag then
    if ← hasPrefix? src "<?=" off then some (.openEchoTag, off + tag)
    else some (.openTag, ← tagSpaceEnd src (off + tag))
  else some (.inlineHtml, ← inlineEnd src (off + 1))

def runEnd (src : Text) (p : UInt8 → Bool) (i : Nat) : Option Nat :=
  if i < src.length then do
    let b ← src[i]?
    if p b then runEnd src p (i + 1) else some i
  else some i
termination_by src.length - i

def breakEnd (src : Text) (i : Nat) : Option Nat := do
  if ← hasPrefix? src "\r\n" i then some (i + 2)
  else some (if peek src i == 0x0A then i + 1 else i)

def lineCommentEnd (src : Text) (i : Nat) : Option Nat :=
  if i < src.length then do
    let b ← src[i]?
    if b == 0x0A then some (i + 1)
    else if b == 0x0D then some (if peek src (i + 1) == 0x0A then i + 2 else i + 1)
    else if b == 0x3F && peek src (i + 1) == 0x3E then some i
    else lineCommentEnd src (i + 1)
  else some i
termination_by src.length - i

def blockComment (src : Text) (off : Nat) : Option (Kind × Nat) := do
  let isDoc := peek src (off + 2) == 0x2A && isSpace (peek src (off + 3))
  match indexOf? "*/" (← rest? src (off + 2)) with
  | none => some (.comment, src.length)
  | some i => some (if isDoc then .docComment else .comment, off + 2 + i + 2)

theorem runEnd_le {src : Text} {p : UInt8 → Bool} {i stop : Nat}
    (found : runEnd src p i = some stop) : i ≤ stop := by
  induction h : src.length - i generalizing i with
  | zero =>
    have done : ¬ i < src.length := by omega
    rw [runEnd, if_neg done] at found
    exact Nat.le_of_eq (Option.some.inj found)
  | succ n ih =>
    have inside : i < src.length := by omega
    rw [runEnd, if_pos inside, List.getElem?_eq_getElem inside] at found
    simp only [Option.bind_eq_bind, Option.bind_some] at found
    split at found
    · have := ih found (by omega)
      omega
    · exact Nat.le_of_eq (Option.some.inj found)

theorem peek_inside {src : Text} {i : Nat} (real : peek src i ≠ 0) : i < src.length := by
  refine Nat.lt_of_not_le fun beyond => real ?_
  rw [peek, dif_neg (Nat.not_lt.mpr beyond)]

def nameEnd (src : Text) (qualified : Bool) (i : Nat) : Option (Bool × Nat) :=
  if peek src i == 0x5C && isNameStart (peek src (i + 1)) then
    match _ : runEnd src isNamePart (i + 1) with
    | none => none
    | some stop => nameEnd src true stop
  else some (qualified, i)
termination_by src.length - i
decreasing_by
  rename_i slash found
  have backslash : peek src i = 0x5C := by simpa using (Bool.and_eq_true_iff.mp slash).1
  have inside : i < src.length := peek_inside (by rw [backslash]; decide)
  have := runEnd_le found
  omega

def scanName (src : Text) (off : Nat) : Option (Kind × Nat) := do
  let b ← src[off]?
  let label ← runEnd src isNamePart (if b == 0x5C then off + 1 else off)
  let (qualified, stop) ← nameEnd src (b == 0x5C) label
  if qualified then some (.name, stop)
  else
    match Keyword.ofWord? (Utf8.lower (← slice? src off stop)) with
    | some k => some (.keyword k, stop)
    | none => some (.name, stop)

def fractionEnd (src : Text) (i : Nat) : Option Nat :=
  if peek src i == 0x2E && !(peek src (i + 1) == 0x2E) then runEnd src isDigitPart (i + 1)
  else some i

def exponentEnd (src : Text) (i : Nat) : Option Nat :=
  if lowerByte (peek src i) == 0x65 then
    let digits := if peek src (i + 1) == 0x2B || peek src (i + 1) == 0x2D then i + 2 else i + 1
    if isDigit (peek src digits) then runEnd src isDigitPart digits else some i
  else some i

def numberEnd (src : Text) (off : Nat) : Option Nat :=
  if peek src off == 0x30 && isRadixMark (peek src (off + 1)) then
    runEnd src (fun b => isHexDigit b || b == 0x5F) (off + 2)
  else do
    let whole ← runEnd src isDigitPart off
    let fraction ← fractionEnd src whole
    exponentEnd src fraction

/-- What follows an opening quote. An escape at the end of the source covers less than two bytes. -/
def quotedEnd (src : Text) (quote : UInt8) (i : Nat) : Option Nat :=
  if i < src.length then do
    let b ← src[i]?
    if b == 0x5C then quotedEnd src quote (min (i + 2) src.length)
    else if b == quote then some (i + 1)
    else quotedEnd src quote (i + 1)
  else some i
termination_by src.length - i

def openQuote (src : Text) (i : Nat) : Option (UInt8 × Nat) := do
  if ← test? src (fun b => b == 0x27 || b == 0x22) i then
    let quote ← src[i]?
    some (quote, i + 1)
  else some (0, i)

/- The inner `none` of the following says that the heredoc does not open, or does not close. -/

def closeQuoteEnd (src : Text) (quote : UInt8) (i : Nat) : Option (Option Nat) := do
  if quote == 0 then some (some i)
  else if ← test? src (· == quote) i then some (some (i + 1))
  else some none

def lineBreakEnd (src : Text) (i : Nat) : Option (Option Nat) := do
  if ← hasPrefix? src "\r\n" i then some (some (i + 2))
  else if ← test? src (· == 0x0A) i then some (some (i + 1))
  else some none

def heredocOpening (src : Text) (i : Nat) : Option (Option (Text × Nat)) := do
  let blanks ← runEnd src isBlank i
  let (quote, start) ← openQuote src blanks
  if ← test? src isNameStart start then
    let stop ← runEnd src isNamePart start
    let label ← slice? src start stop
    match ← closeQuoteEnd src quote stop with
    | none => some none
    | some closed => return (← lineBreakEnd src closed).map fun body => (label, body)
  else some none

def closingEnd (src label : Text) (i : Nat) : Option (Option Nat) := do
  let indent ← runEnd src isBlank i
  if ← hasPrefix? src label indent then
    if ← test? src isNamePart (indent + label.length) then some none
    else some (some (indent + label.length))
  else some none

def heredocBodyEnd (src label : Text) (i : Nat) : Option Nat :=
  if i < src.length then do
    match ← closingEnd src label i with
    | some stop => some stop
    | none =>
      match indexOf? [0x0A] (← rest? src i) with
      | none => some src.length
      | some feed => heredocBodyEnd src label (i + feed + 1)
  else some src.length
termination_by src.length - i

def heredocEnd (src : Text) (i : Nat) : Option (Option Nat) := do
  match ← heredocOpening src i with
  | none => some none
  | some (label, body) => return some (← heredocBodyEnd src label body)

def operatorLength (s : Text) : Option Nat := do
  if operators3.any (·.isPrefixOf s) then some 3
  else if operators2.any (·.isPrefixOf s) then some 2
  else some (if ← test? s (· == 0x5C) 0 then 1 else 0)

def scanOperator (src : Text) (off : Nat) : Option (Kind × Nat) := do
  let length ← operatorLength (← rest? src off)
  some (if 0 < length then (.operator, off + length) else (.char, off + 1))

def leadAt (src : Text) (off : Nat) : Option Lead := do
  let b ← src[off]?
  if isSpace b then some .space
  else if b == 0x3F && peek src (off + 1) == 0x3E then some .closeTag
  else if b == 0x23 && peek src (off + 1) == 0x5B then some .attributeOpen
  else if b == 0x23 || (b == 0x2F && peek src (off + 1) == 0x2F) then some .lineComment
  else if b == 0x2F && peek src (off + 1) == 0x2A then some .blockComment
  else if b == 0x24 && isNameStart (peek src (off + 1)) then some .variableName
  else if isNameStart b || (b == 0x5C && isNameStart (peek src (off + 1))) then some .name
  else if isDigit b || (b == 0x2E && isDigit (peek src (off + 1))) then some .number
  else if isQuote b then some .quote
  else if b == 0x3C then some (if ← hasPrefix? src "<<<" off then .brackets else .other)
  else some .other

def scanLead (src : Text) (off : Nat) : Lead → Option (Kind × Nat)
  | .space => return (.whitespace, ← runEnd src isSpace off)
  | .closeTag => return (.closeTag, ← breakEnd src (off + 2))
  | .attributeOpen => some (.attributeOpen, off + 2)
  | .lineComment => return (.comment, ← lineCommentEnd src off)
  | .blockComment => blockComment src off
  | .variableName => return (.variableName, ← runEnd src isNamePart (off + 1))
  | .name => scanName src off
  | .number => return (.number, ← numberEnd src off)
  | .quote => do
    let quote ← src[off]?
    return (.stringLiteral, ← quotedEnd src quote (off + 1))
  | .brackets => do
    match ← heredocEnd src (off + 3) with
    | some stop => some (.heredoc, stop)
    | none => scanOperator src off
  | .other => scanOperator src off

def scanCode (src : Text) (off : Nat) : Option (Kind × Nat) := do
  scanLead src off (← leadAt src off)

/-- `s` is what stands at `i` and behind. -/
structure At (src : Text) (i : Nat) (s : Text) : Prop where
  inside : i ≤ src.length
  behind : src.drop i = s

namespace At

variable {src s rest : Text} {i : Nat} {b : UInt8} {p : UInt8 → Bool}

theorem length (here : At src i s) : i + s.length = src.length := by
  have := here.inside
  rw [← here.behind, List.length_drop]
  omega

theorem drop (here : At src i s) {n : Nat} (fits : n ≤ s.length) : At src (i + n) (s.drop n) where
  inside := by
    have := here.length
    omega
  behind := by rw [← here.behind, List.drop_drop]

theorem next (here : At src i (b :: rest)) : At src (i + 1) rest :=
  here.drop (n := 1) (by simp)

theorem next_two {c : UInt8} (here : At src i (b :: c :: rest)) : At src (i + 2) rest :=
  here.drop (n := 2) (by simp)

theorem byte (here : At src i (b :: rest)) : src[i]? = some b := by
  rw [← List.head?_drop, here.behind, List.head?_cons]

theorem lt (here : At src i (b :: rest)) : i < src.length := by
  have := here.length
  rw [List.length_cons] at this
  omega

theorem done (here : At src i []) : ¬ i < src.length := by
  have := here.length
  rw [List.length_nil] at this
  omega

theorem rest? (here : At src i s) : Offset.rest? src i = some s := by
  rw [Offset.rest?, if_pos here.inside, here.behind]

theorem hasPrefix? (here : At src i s) (word : Text) :
    Offset.hasPrefix? src word i = some (word.isPrefixOf s) := by
  rw [Offset.hasPrefix?, here.rest?, Option.map_some]

theorem slice? (here : At src i s) {n : Nat} (fits : n ≤ s.length) :
    Offset.slice? src i (i + n) = some (s.take n) := by
  have bounds : i ≤ i + n ∧ i + n ≤ src.length := by
    have := here.length
    omega
  rw [Offset.slice?, if_pos bounds, here.behind, Nat.add_sub_cancel_left]

theorem test? (here : At src i s) : Offset.test? src p i = some (startsWith p s) := by
  cases s with
  | nil => rw [Offset.test?, if_neg here.done, startsWith]
  | cons b rest => rw [Offset.test?, if_pos here.lt, here.byte, Option.map_some, startsWith]

theorem peek (here : At src i s) (n : Nat) (zero : p 0 = false) :
    p (peek src (i + n)) = startsWith p (s.drop n) := by
  rw [← here.behind, List.drop_drop, Offset.peek]
  split
  · rename_i inside
    rw [List.drop_eq_getElem_cons inside, startsWith]
  · rw [List.drop_of_length_le (by omega), zero, startsWith]

theorem peek_here (here : At src i s) (zero : p 0 = false) :
    p (Offset.peek src i) = startsWith p s := here.peek 0 zero

theorem peek_next (here : At src i (b :: rest)) (zero : p 0 = false) :
    p (Offset.peek src (i + 1)) = startsWith p rest := here.peek 1 zero

end At

end DocBridge.Offset
