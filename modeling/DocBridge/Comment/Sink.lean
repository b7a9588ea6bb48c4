import DocBridge.Text

/-
Buffered output to a stream that may run full. The stream takes what fits and then refuses; the
buffer passes bytes on only when it is full and more comes, or at the end.
-/
namespace DocBridge

structure Sink where
  room : Option Nat := none
  received : Text := []
  buffered : Text := []
  failed : Bool := false
  deriving DecidableEq, Repr

namespace Sink

def capacity : Nat := 4096

def flush (s : Sink) : Sink :=
  match s.room with
  | none => { s with received := s.received ++ s.buffered, buffered := [] }
  | some room =>
    if s.buffered.length ≤ room then
      { s with
        room := some (room - s.buffered.length)
        received := s.received ++ s.buffered
        buffered := [] }
    else
      { s with
        room := some 0
        received := s.received ++ s.buffered.take room
        buffered := []
        failed := true }

theorem flush_buffered (s : Sink) : s.flush.buffered = [] := by
  unfold flush
  split
  · rfl
  · split <;> rfl

/-- Adds `text` piece by piece; a failed sink takes nothing. -/
def write (s : Sink) (text : Text) : Sink :=
  let free := capacity - s.buffered.length
  if s.failed then s
  else if text.length ≤ free then { s with buffered := s.buffered ++ text }
  else write { s with buffered := s.buffered ++ text.take free }.flush (text.drop free)
termination_by text.length + s.buffered.length
decreasing_by
  simp only [flush_buffered, List.length_drop, List.length_nil]
  have : 0 < capacity := by decide
  omega

end Sink
end DocBridge
