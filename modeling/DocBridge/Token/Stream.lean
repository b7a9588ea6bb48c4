import DocBridge.Token.Scan

/-
The token stream of a source, and a cursor that looks ahead in it.
-/
namespace DocBridge

structure Token where
  kind : Kind
  text : Text
  line : Nat
  deriving DecidableEq, Repr

structure Mode where
  inCode : Bool := false
  /-- The last token that is neither white space nor comment was a member arrow. -/
  afterArrow : Bool := false
  deriving DecidableEq, Repr

namespace Token

def isArrow (kind : Kind) (text : Text) : Bool :=
  kind == .operator && (text == Text.ofString "->" || text == Text.ofString "?->")

def kindIn (mode : Mode) (kind : Kind) : Kind :=
  if mode.afterArrow && kind.isKeyword then .name else kind

def modeAfter (mode : Mode) (kind : Kind) (text : Text) : Mode where
  inCode :=
    match kind with
    | .openTag | .openEchoTag => true
    | .closeTag => false
    | _ => mode.inCode
  afterArrow := if kind.isTrivia then mode.afterArrow else isArrow kind text

def scan (mode : Mode) (b : UInt8) (rest : Text) : Kind × Nat :=
  if mode.inCode then Scan.scanCode b rest else Scan.scanInline b rest

def streamFrom (mode : Mode) (line : Nat) : Text → List Token
  | [] => []
  | b :: rest =>
    let (scanned, length) := scan mode b rest
    let kind := kindIn mode scanned
    let text := b :: rest.take length
    ⟨kind, text, line⟩
      :: streamFrom (modeAfter mode kind text) (line + Text.countByte 0x0A text) (rest.drop length)
termination_by s => s.length
decreasing_by simp only [List.length_drop, List.length_cons]; omega

def stream (src : Text) : List Token := streamFrom {} 1 src

end Token

structure Cursor where
  tokens : List Token
  index : Int

namespace Cursor

/-- Positions are 64-bit words, so sums of them wrap. -/
def wrap (n : Int) : Int := n.bmod 18446744073709551616

def tokenAt (tokens : List Token) (i : Int) : Option Token :=
  if i < 0 then none else tokens[i.toNat]?

def peek (c : Cursor) (offset : Int) : Option Token := tokenAt c.tokens (wrap (c.index + offset))

def current (c : Cursor) : Option Token := c.peek 0

def advance (c : Cursor) : Cursor :=
  if c.index < c.tokens.length then { c with index := c.index + 1 } else c

def inside (c : Cursor) : Bool := c.index < c.tokens.length

def greatestWord : Int := 9223372036854775807

/-- The tokens at offsets `lo` to `hi`, up to the first offset outside of the sequence. Counting on
from the greatest word wraps as well, so a window up to there ends with the sequence only. -/
def window (c : Cursor) (lo hi : Int) : List Token :=
  let start := wrap (c.index + lo)
  if start < 0 ∨ hi < lo then []
  else if hi = greatestWord then c.tokens.drop start.toNat
  else (c.tokens.drop start.toNat).take (hi - lo + 1).toNat

end Cursor
end DocBridge
