/-
Regular patterns over any alphabet, with groups. Of several ways to match, the first wins: an
alternative on the left before one on the right, and another round of a greedy repetition before
leaving it. A round of a repetition that takes nothing does not count.
-/
namespace DocBridge

inductive Pattern (α : Type) where
  | empty
  | one (accepts : α → Bool)
  | look (holds : Option α → Option α → Bool)
  | seq (p q : Pattern α)
  | alt (p q : Pattern α)
  | star (greedy : Bool) (p : Pattern α)
  | group (index : Nat) (p : Pattern α)

namespace Pattern

variable {α β : Type}

def plus (greedy : Bool) (p : Pattern α) : Pattern α := .seq p (.star greedy p)

def opt (greedy : Bool) (p : Pattern α) : Pattern α :=
  if greedy then .alt p .empty else .alt .empty p

def seqs : List (Pattern α) → Pattern α
  | [] => .empty
  | [p] => p
  | p :: ps => .seq p (seqs ps)

def word [BEq α] (w : List α) : Pattern α := seqs (w.map fun a => .one (· == a))

/-- A point of the text during a match. `groups` holds start and end of each group, latest first. -/
structure Place (α : Type) where
  pos : Nat
  prev : Option α
  rest : List α
  groups : List (Nat × Nat × Nat)

def rounds (greedy : Bool) (step : (Place α → Option β) → Place α → Option β)
    (k : Place α → Option β) : Nat → Place α → Option β
  | 0, s => k s
  | fuel + 1, s =>
    let again := fun (_ : Unit) =>
      step (fun t => if s.pos < t.pos then rounds greedy step k fuel t else none) s
    if greedy then (again ()).orElse fun _ => k s else (k s).orElse again

/-- Matches at `s` and goes on with `k`; the first way for which `k` succeeds is taken. -/
def run : Pattern α → (Place α → Option β) → Place α → Option β
  | .empty, k, s => k s
  | .one accepts, k, s =>
    match s.rest with
    | [] => none
    | a :: rest =>
      if accepts a then k { s with pos := s.pos + 1, prev := some a, rest := rest } else none
  | .look holds, k, s => if holds s.prev s.rest.head? then k s else none
  | .seq p q, k, s => run p (run q k) s
  | .alt p q, k, s => (run p k s).orElse fun _ => run q k s
  | .star greedy p, k, s => rounds greedy (run p) k s.rest.length s
  | .group i p, k, s => run p (fun t => k { t with groups := (i, s.pos, t.pos) :: t.groups }) s

structure Match (α : Type) where
  text : List α
  groups : List (Nat × List α)

def Match.group (m : Match α) (i : Nat) : List α := (m.groups.lookup i).getD []

def matchAt? (p : Pattern α) (prev : Option α) (rest : List α) : Option (Match α) :=
  (run p some ⟨0, prev, rest, []⟩).map fun t =>
    { text := rest.take t.pos
      groups := t.groups.map fun (i, start, stop) => (i, (rest.take stop).drop start) }

inductive Piece (α : Type) where
  | gap (a : α)
  | hit (m : Match α)

/-- The text cut at the successive leftmost matches. Only matches that take something count. -/
def piecesFrom (p : Pattern α) (prev : Option α) : List α → List (Piece α)
  | [] => []
  | a :: rest =>
    match p.matchAt? prev (a :: rest) with
    | some m =>
      if m.text.isEmpty then .gap a :: piecesFrom p (some a) rest
      else .hit m :: piecesFrom p m.text.getLast? (rest.drop (m.text.length - 1))
    | none => .gap a :: piecesFrom p (some a) rest
termination_by s => s.length
decreasing_by all_goals grind

def pieces (p : Pattern α) (s : List α) : List (Piece α) := piecesFrom p none s

def replace (p : Pattern α) (f : Match α → List α) (s : List α) : List α :=
  (pieces p s).flatMap fun
    | .gap a => [a]
    | .hit m => f m

def findFrom? (p : Pattern α) (prev : Option α) : List α → Option (Match α)
  | [] => p.matchAt? prev []
  | a :: rest => (p.matchAt? prev (a :: rest)).orElse fun _ => findFrom? p (some a) rest

def find? (p : Pattern α) (s : List α) : Option (Match α) := findFrom? p none s

def occursIn (p : Pattern α) (s : List α) : Bool := (find? p s).isSome

end Pattern
end DocBridge
