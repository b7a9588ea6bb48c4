import DocBridge.Pattern.Basic
import DocBridge.Text.Category
import DocBridge.Text.Fold
import DocBridge.Text.Script
import DocBridge.Text.Utf8

/-
Patterns as users write them: classes, groups, flags, bounded repetition and Unicode properties,
but neither back references nor look-around. Only whether a pattern occurs is asked, so groups are
not numbered.
-/
namespace DocBridge.Pattern.Written

inductive Problem where
  | invalidUtf8
  | missingParen
  | unexpectedParen
  | missingBracket
  | missingOperand
  | stackedRepeat
  | repeatSize
  | badEscape
  | trailingBackslash
  | badRange
  | badName
  | badGroup
  | tooDeep
  deriving DecidableEq, Repr

def Problem.message : Problem → Text
  | .invalidUtf8 => "invalid UTF-8"
  | .missingParen => "missing closing )"
  | .unexpectedParen => "unexpected )"
  | .missingBracket => "missing closing ]"
  | .missingOperand => "missing argument to repetition operator"
  | .stackedRepeat => "invalid nested repetition operator"
  | .repeatSize => "invalid repeat count"
  | .badEscape => "invalid escape sequence"
  | .trailingBackslash => "trailing backslash at end of expression"
  | .badRange => "invalid character class range"
  | .badName => "invalid named capture"
  | .badGroup => "invalid or unsupported Perl syntax"
  | .tooDeep => "expression nests too deeply"

structure Flags where
  foldCase : Bool := false
  multiLine : Bool := false
  dotAll : Bool := false
  swapGreed : Bool := false
  deriving DecidableEq, Repr

abbrev Class := Nat → Bool

def Class.under (flags : Flags) (set : Class) : Class :=
  if flags.foldCase then fun n => (Fold.variants n).any set else set

def Class.signed (positive : Bool) (set : Class) : Class :=
  if positive then set else fun n => !set n

def Class.pattern (set : Class) : Pattern Char := .one fun c => set c.toNat

def Class.ofSpans (spans : List (Nat × Nat)) : Class := fun n =>
  spans.any fun (first, last) => first ≤ n && n ≤ last

def digits : Class := .ofSpans [(0x30, 0x39)]

def blanks : Class := .ofSpans [(0x09, 0x0A), (0x0C, 0x0D), (0x20, 0x20)]

def wordChars : Class := .ofSpans [(0x30, 0x39), (0x41, 0x5A), (0x5F, 0x5F), (0x61, 0x7A)]

def named : List (String × Class) :=
  [("alnum", .ofSpans [(0x30, 0x39), (0x41, 0x5A), (0x61, 0x7A)]),
    ("alpha", .ofSpans [(0x41, 0x5A), (0x61, 0x7A)]),
    ("ascii", .ofSpans [(0, 0x7F)]),
    ("blank", .ofSpans [(0x09, 0x09), (0x20, 0x20)]),
    ("cntrl", .ofSpans [(0, 0x1F), (0x7F, 0x7F)]),
    ("digit", digits),
    ("graph", .ofSpans [(0x21, 0x7E)]),
    ("lower", .ofSpans [(0x61, 0x7A)]),
    ("print", .ofSpans [(0x20, 0x7E)]),
    ("punct", .ofSpans [(0x21, 0x2F), (0x3A, 0x40), (0x5B, 0x60), (0x7B, 0x7E)]),
    ("space", .ofSpans [(0x09, 0x0D), (0x20, 0x20)]),
    ("upper", .ofSpans [(0x41, 0x5A)]),
    ("word", wordChars),
    ("xdigit", .ofSpans [(0x30, 0x39), (0x41, 0x46), (0x61, 0x66)])]

def property? (name : String) : Option Class :=
  if name == "Any" then some fun _ => true
  else ((CharSet.category? name).orElse fun _ => CharSet.script? name).map fun set n =>
    set.contains n

def isOctal (c : Char) : Bool := '0' ≤ c && c ≤ '7'

def isHex (c : Char) : Bool := c.isDigit || ('a' ≤ c && c ≤ 'f') || ('A' ≤ c && c ≤ 'F')

def octal (cs : List Char) : Nat := cs.foldl (fun n c => n * 8 + (c.toNat - 48)) 0

def hex (cs : List Char) : Nat := cs.foldl (fun n c => n * 16 + CharSet.hexDigit c) 0

def lastCodePoint : Nat := 0x10FFFF

def hexEscape : List Char → Except Problem (Nat × List Char)
  | '\x7b' :: cs =>
    let ds := cs.takeWhile isHex
    match cs.dropWhile isHex with
    | '\x7d' :: rest =>
      if ds.isEmpty || lastCodePoint < hex ds then .error .badEscape else .ok (hex ds, rest)
    | _ => .error .badEscape
  | a :: b :: rest => if isHex a && isHex b then .ok (hex [a, b], rest) else .error .badEscape
  | _ => .error .badEscape

/-- The code point of an escape, after the backslash. A single digit other than zero would be a
back reference and is refused. -/
def escape : List Char → Except Problem (Nat × List Char)
  | [] => .error .trailingBackslash
  | c :: rest =>
    if c == '0' || (isOctal c && (rest.head?.map isOctal).getD false) then
      let more := (rest.take 2).takeWhile isOctal
      .ok (octal (c :: more), rest.drop more.length)
    else match c with
      | 'x' => hexEscape rest
      | 'a' => .ok (7, rest)
      | 'f' => .ok (12, rest)
      | 'n' => .ok (10, rest)
      | 'r' => .ok (13, rest)
      | 't' => .ok (9, rest)
      | 'v' => .ok (11, rest)
      | _ => if c.toNat < 0x80 && !c.isAlphanum then .ok (c.toNat, rest) else .error .badEscape

def shortClass? (flags : Flags) : Char → Option Class
  | 'd' => some (digits.under flags)
  | 'D' => some ((digits.under flags).signed false)
  | 's' => some (blanks.under flags)
  | 'S' => some ((blanks.under flags).signed false)
  | 'w' => some (wordChars.under flags)
  | 'W' => some ((wordChars.under flags).signed false)
  | _ => none

def propertyName : List Char → Except Problem (List Char × List Char)
  | [] => .error .badRange
  | '\x7b' :: cs =>
    match cs.dropWhile (· != '\x7d') with
    | [] => .error .badRange
    | _ :: rest => .ok (cs.takeWhile (· != '\x7d'), rest)
  | c :: rest => .ok ([c], rest)

def property (flags : Flags) (positive : Bool) (cs : List Char) :
    Except Problem (Class × List Char) := do
  let (name, rest) ← propertyName cs
  let (positive, name) :=
    match name with
    | '^' :: name => (!positive, name)
    | _ => (positive, name)
  match property? (String.ofList name) with
  | some set => return ((set.under flags).signed positive, rest)
  | none => throw .badRange

def classEscape? (flags : Flags) : List Char → Option (Except Problem (Class × List Char))
  | '\\' :: 'p' :: rest => some (property flags true rest)
  | '\\' :: 'P' :: rest => some (property flags false rest)
  | '\\' :: c :: rest => (shortClass? flags c).map fun set => .ok (set, rest)
  | _ => none

def untilClassEnd : List Char → Option (List Char × List Char)
  | [] => none
  | ':' :: ']' :: rest => some ([], rest)
  | c :: rest => (untilClassEnd rest).map fun (name, rest) => (c :: name, rest)

/-- `[:name:]` or `[:^name:]` at the start. Without a `:]` it is not a named class at all. -/
def namedClass? (flags : Flags) : List Char → Option (Except Problem (Class × List Char))
  | '[' :: ':' :: cs =>
    (untilClassEnd cs).map fun (name, rest) =>
      let (positive, name) :=
        match name with
        | '^' :: name => (false, name)
        | _ => (true, name)
      match named.lookup (String.ofList name) with
      | some set => .ok ((set.under flags).signed positive, rest)
      | none => .error .badRange
  | _ => none

def classChar : List Char → Except Problem (Nat × List Char)
  | [] => .error .missingBracket
  | '\\' :: rest => escape rest
  | c :: rest => .ok (c.toNat, rest)

def classRange (flags : Flags) (cs : List Char) : Except Problem (Class × List Char) := do
  let (first, rest) ← classChar cs
  let (last, rest) ←
    match rest with
    | '-' :: c :: after => if c == ']' then pure (first, rest) else classChar (c :: after)
    | _ => pure (first, rest)
  if last < first then throw .badRange
  return (Class.under flags (.ofSpans [(first, last)]), rest)

def classItem (flags : Flags) (cs : List Char) : Except Problem (Class × List Char) :=
  ((namedClass? flags cs).orElse fun _ => classEscape? flags cs).getD (classRange flags cs)

/-- The members up to the closing bracket. A bracket that comes first is a member. -/
def classItems (flags : Flags) : (fuel : Nat) → (first : Bool) → Class → List Char →
    Except Problem (Class × List Char)
  | 0, _, _, _ => .error .missingBracket
  | fuel + 1, first, set, cs =>
    match first, cs with
    | false, ']' :: rest => .ok (set, rest)
    | _, _ => do
      let (item, rest) ← classItem flags cs
      classItems flags fuel false (fun n => set n || item n) rest

def brackets (flags : Flags) (cs : List Char) : Except Problem (Class × List Char) := do
  let (positive, cs) :=
    match cs with
    | '^' :: cs => (false, cs)
    | _ => (true, cs)
  let (set, rest) ← classItems flags (cs.length + 1) true (fun _ => false) cs
  return (set.signed positive, rest)

/-- A pattern under construction. `copies` bounds how often nested counts repeat a part of it. -/
structure Part where
  pattern : Pattern Char
  copies : Nat := 1
  depth : Nat := 1

def greatest (f : Part → Nat) (ps : List Part) : Nat := ps.foldl (fun n p => max n (f p)) 1

def alternatives : List (Pattern Char) → Pattern Char
  | [] => .empty
  | [p] => p
  | p :: ps => .alt p (alternatives ps)

def Part.combine (build : List (Pattern Char) → Pattern Char) : List Part → Part
  | [p] => p
  | [] => { pattern := build [] }
  | ps =>
    { pattern := build (ps.map Part.pattern)
      copies := greatest Part.copies ps
      depth := greatest Part.depth ps + 1 }

def upTo (greedy : Bool) (p : Pattern Char) : Nat → Pattern Char
  | 0 => .empty
  | n + 1 => opt greedy (.seq p (upTo greedy p n))

def times (greedy : Bool) (p : Pattern Char) (low : Nat) : Option Nat → Pattern Char
  | none => seqs (List.replicate low p ++ [.star greedy p])
  | some high => seqs (List.replicate low p ++ [upTo greedy p (high - low)])

structure Frame where
  capturing : Bool := false
  outerFlags : Flags := {}
  finished : List Part := []
  items : List Part := []

def Frame.part (f : Frame) : Part :=
  let last := Part.combine seqs f.items.reverse
  let part := Part.combine alternatives (last :: f.finished).reverse
  if f.capturing then { part with depth := part.depth + 1 } else part

structure State where
  flags : Flags := {}
  frame : Frame := {}
  outer : List Frame := []
  repeated : Bool := false

def countLimit : Nat := 1000

def depthLimit : Nat := 1000

namespace State

def push (s : State) (p : Part) : Except Problem State :=
  if depthLimit < p.depth then .error .tooDeep
  else .ok { s with frame := { s.frame with items := p :: s.frame.items }, repeated := false }

def pushPattern (s : State) (p : Pattern Char) : Except Problem State := s.push { pattern := p }

def pushClass (s : State) (set : Class) : Except Problem State := s.pushPattern set.pattern

def pushLiteral (s : State) (n : Nat) : Except Problem State :=
  s.pushClass (Class.under s.flags (· == n))

def repeatLast (s : State) (low : Nat) (high : Option Nat) (factor : Nat) (rest : List Char) :
    Except Problem (State × List Char) := do
  let (marked, rest) :=
    match rest with
    | '?' :: rest => (true, rest)
    | _ => (false, rest)
  if s.repeated then throw .stackedRepeat
  match s.frame.items with
  | [] => throw .missingOperand
  | p :: items =>
    let copies := if high == some 0 then 1 else factor * p.copies
    if countLimit < copies then throw .repeatSize
    let greedy := marked == s.flags.swapGreed
    let part : Part := ⟨times greedy p.pattern low high, copies, p.depth + 1⟩
    let s ← ({ s with frame := { s.frame with items := items } } : State).push part
    return ({ s with repeated := true }, rest)

def openGroup (s : State) (capturing : Bool) (flags : Flags) : State where
  flags := flags
  frame := { capturing := capturing, outerFlags := s.flags }
  outer := s.frame :: s.outer

def closeGroup (s : State) : Except Problem State :=
  match s.outer with
  | [] => .error .unexpectedParen
  | frame :: outer =>
    push { flags := s.frame.outerFlags, frame := frame, outer := outer } s.frame.part

def bar (s : State) : State :=
  { s with
    frame :=
      { s.frame with
        finished := Part.combine seqs s.frame.items.reverse :: s.frame.finished
        items := [] }
    repeated := false }

end State

def count? (cs : List Char) : Option (Nat × List Char) :=
  let ds := cs.takeWhile Char.isDigit
  if ds.isEmpty || (ds.head? == some '0' && 1 < ds.length) then none
  else some (ds.foldl (fun n c => n * 10 + (c.toNat - 48)) 0, cs.drop ds.length)

def bounds? (cs : List Char) : Option (Nat × Option Nat × List Char) := do
  let (low, rest) ← count? cs
  match rest with
  | '\x7d' :: rest => some (low, some low, rest)
  | ',' :: '\x7d' :: rest => some (low, none, rest)
  | ',' :: rest =>
    let (high, rest) ← count? rest
    match rest with
    | '\x7d' :: rest => some (low, some high, rest)
    | _ => none
  | _ => none

/-- A brace that opens no repetition stands for itself. -/
def brace (s : State) (rest : List Char) : Except Problem (State × List Char) :=
  match bounds? rest with
  | none => do return (← s.pushLiteral 0x7B, rest)
  | some (low, high, rest) =>
    if countLimit < low || high.any fun h => countLimit < h || h < low then .error .repeatSize
    else s.repeatLast low high (max 1 (high.getD low)) rest

def isNameChar (c : Char) : Bool := c == '_' || c.isAlphanum

def groupName (cs : List Char) : Except Problem (List Char) :=
  let name := cs.takeWhile (· != '>')
  match cs.dropWhile (· != '>') with
  | [] => .error .badName
  | _ :: rest => if name.isEmpty || !name.all isNameChar then .error .badName else .ok rest

/-- Flags up to `)`, which sets them for the rest of the group, or `:`, which opens a group. A
minus sign turns the following flags off and wants at least one. -/
def groupFlags (s : State) (on : Bool) (seen : Bool) : Flags → List Char →
    Except Problem (State × List Char)
  | _, [] => .error .badGroup
  | flags, c :: rest =>
    match c with
    | 'i' => groupFlags s on true { flags with foldCase := on } rest
    | 'm' => groupFlags s on true { flags with multiLine := on } rest
    | 's' => groupFlags s on true { flags with dotAll := on } rest
    | 'U' => groupFlags s on true { flags with swapGreed := on } rest
    | '-' => if on then groupFlags s false false flags rest else .error .badGroup
    | ')' =>
      if on || seen then .ok ({ s with flags := flags, repeated := false }, rest)
      else .error .badGroup
    | ':' => if on || seen then .ok (s.openGroup false flags, rest) else .error .badGroup
    | _ => .error .badGroup

def group (s : State) : List Char → Except Problem (State × List Char)
  | '?' :: 'P' :: '<' :: c :: rest => do
    return (s.openGroup true s.flags, ← groupName (c :: rest))
  | '?' :: '<' :: rest => do return (s.openGroup true s.flags, ← groupName rest)
  | '?' :: rest => groupFlags s true false s.flags rest
  | rest => .ok (s.openGroup true s.flags, rest)

def quoted : List Char → List Char × List Char
  | [] => ([], [])
  | '\\' :: 'E' :: rest => ([], rest)
  | c :: rest => (c :: (quoted rest).1, (quoted rest).2)

def atTextStart : Pattern Char := .look fun prev _ => prev.isNone

def atTextEnd : Pattern Char := .look fun _ next => next.isNone

def atLineStart : Pattern Char := .look fun prev _ => prev.all (· == '\n')

def atLineEnd : Pattern Char := .look fun _ next => next.all (· == '\n')

def isWord (c : Option Char) : Bool := c.any fun c => wordChars c.toNat

def atWordEdge (wanted : Bool) : Pattern Char :=
  .look fun prev next => (isWord prev != isWord next) == wanted

def escaped (s : State) (cs : List Char) : Except Problem (State × List Char) :=
  match cs with
  | 'A' :: rest => do return (← s.pushPattern atTextStart, rest)
  | 'z' :: rest => do return (← s.pushPattern atTextEnd, rest)
  | 'b' :: rest => do return (← s.pushPattern (atWordEdge true), rest)
  | 'B' :: rest => do return (← s.pushPattern (atWordEdge false), rest)
  | 'Q' :: rest => do
    let (literal, rest) := quoted rest
    let s ← literal.foldlM (fun s c => s.pushLiteral c.toNat) { s with repeated := false }
    return (s, rest)
  | _ =>
    match classEscape? s.flags ('\\' :: cs) with
    | some found => do
      let (set, rest) ← found
      return (← s.pushClass set, rest)
    | none => do
      let (n, rest) ← escape cs
      return (← s.pushLiteral n, rest)

def step (s : State) (c : Char) (rest : List Char) : Except Problem (State × List Char) :=
  match c with
  | '(' => group s rest
  | ')' => do return (← s.closeGroup, rest)
  | '|' => .ok (s.bar, rest)
  | '^' => do return (← s.pushPattern (if s.flags.multiLine then atLineStart else atTextStart), rest)
  | '$' => do return (← s.pushPattern (if s.flags.multiLine then atLineEnd else atTextEnd), rest)
  | '.' => do return (← s.pushClass fun n => s.flags.dotAll || n != 10, rest)
  | '[' => do
    let (set, rest) ← brackets s.flags rest
    return (← s.pushClass set, rest)
  | '*' => s.repeatLast 0 none 1 rest
  | '+' => s.repeatLast 1 none 1 rest
  | '?' => s.repeatLast 0 (some 1) 1 rest
  | '\x7b' => brace s rest
  | '\\' => escaped s rest
  | _ => do return (← s.pushLiteral c.toNat, rest)

def steps : (fuel : Nat) → State → List Char → Except Problem State
  | _, s, [] => .ok s
  | 0, s, _ => .ok s
  | fuel + 1, s, c :: rest => do
    let (s, rest) ← step s c rest
    steps fuel s rest

def compile (text : Text) : Except Problem (Pattern Char) :=
  match Utf8.chars? text with
  | none => .error .invalidUtf8
  | some cs => do
    let s ← steps cs.length {} cs
    if s.outer.isEmpty then return s.frame.part.pattern else throw .missingParen

end DocBridge.Pattern.Written
