/-
Sets of code points as spans, and a short notation for them: hexadecimal bounds, and `/2` for a
span that takes every second code point.
-/
namespace DocBridge

structure Span where
  first : Nat
  last : Nat
  stride : Nat := 1
  deriving DecidableEq, Repr

def Span.contains (s : Span) (n : Nat) : Bool :=
  s.first ≤ n && n ≤ s.last && (n - s.first) % s.stride == 0

abbrev CharSet := List Span

namespace CharSet

def contains (set : CharSet) (n : Nat) : Bool := set.any (·.contains n)

def hexDigit (c : Char) : Nat :=
  if c.isDigit then c.toNat - 48 else if 'a' ≤ c then c.toNat - 87 else c.toNat - 55

def hexNumber (s : String) : Nat := s.toList.foldl (fun n c => n * 16 + hexDigit c) 0

/-- `41`, `41-5A` or `100-136/2`. -/
def span (s : String) : Span :=
  let (bounds, stride) :=
    match s.splitOn "/" with
    | [bounds, _] => (bounds, 2)
    | _ => (s, 1)
  match bounds.splitOn "-" with
  | [first, last] => ⟨hexNumber first, hexNumber last, stride⟩
  | _ => ⟨hexNumber bounds, hexNumber bounds, stride⟩

def words (s : String) : List String :=
  ((s.splitOn "\n").flatMap (·.splitOn " ")).filter (· != "")

def ofString (s : String) : CharSet := (words s).map span

end CharSet
end DocBridge
