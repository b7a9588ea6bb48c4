import DocBridge.Pattern.Basic
import DocBridge.Text

/-
The part of a page before its root element. It is set aside as written; only the encoding it
declares is looked at.
-/
namespace DocBridge.Preamble

open Text

def declarationTail (depth : Int) (quote : Option UInt8) : Text → Option Nat
  | [] => none
  | b :: rest =>
    match quote with
    | some q => (declarationTail depth (if b == q then none else quote) rest).map (· + 1)
    | none =>
      if b == 0x22 || b == 0x27 then (declarationTail depth (some b) rest).map (· + 1)
      else if b == 0x5B then (declarationTail (depth + 1) none rest).map (· + 1)
      else if b == 0x5D then (declarationTail (depth - 1) none rest).map (· + 1)
      else if b == 0x3E && depth == 0 then some 1
      else (declarationTail depth none rest).map (· + 1)

/-- Length of the declaration at the start of `s`, whose first two bytes are taken for granted. An
internal subset in brackets belongs to it. -/
def declarationLength? (s : Text) : Option Nat := (declarationTail 0 none (s.drop 2)).map (· + 2)

inductive Item where
  | length (n : Nat)
  | unfinished
  | other

def item (s : Text) : Item :=
  if (ofString "<?").isPrefixOf s then found ((indexOf? "?>" s).map (· + 2))
  else if (ofString "<!--").isPrefixOf s then found ((indexOf? "-->" (s.drop 4)).map (· + 7))
  else if (ofString "<!").isPrefixOf s then found (declarationLength? s)
  else .other
where
  found : Option Nat → Item
    | some n => .length n
    | none => .unfinished

def length? : Text → Option Nat
  | [] => some 0
  | b :: rest =>
    if isSpace b then (length? rest).map (· + 1)
    else match item (b :: rest) with
      | .other => some 0
      | .unfinished => none
      | .length n => (length? (rest.drop (n - 1))).map (· + n)
termination_by s => s.length
decreasing_by all_goals grind

/-- Everything before the root element, and the rest. A page with unfinished markup in front is
all body. -/
def split (page : Text) : Text × Text :=
  match length? page with
  | some n => (page.take n, page.drop n)
  | none => ([], page)

def isGap (b : UInt8) : Bool := isSpace b || b == 0x0C

def isWordByte (b : UInt8) : Bool := isDigit b || isLetter b || b == 0x5F

def isLabelByte (b : UInt8) : Bool :=
  isDigit b || isLetter b || b == 0x2E || b == 0x5F || b == 0x3A || b == 0x2D

def isQuote (b : UInt8) : Bool := b == 0x22 || b == 0x27

def wordEdge (prev next : Option UInt8) : Bool := prev.any isWordByte != next.any isWordByte

def encodingPattern : Pattern UInt8 :=
  .seqs [.word "<?xml", .star true (.one (· != 0x3E)), .look wordEdge, .word "encoding",
    .star true (.one isGap), .word "=", .star true (.one isGap), .one isQuote,
    .group 1 (.plus true (.one isLabelByte)), .one isQuote]

def encodingLabel (preamble : Text) : Text :=
  ((encodingPattern.matchAt? none preamble).map (·.group 1)).getD []

end DocBridge.Preamble
