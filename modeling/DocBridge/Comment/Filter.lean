import DocBridge.Comment.Dialect
import DocBridge.Comment.Sink

/-
Filtering a PHP source: every token is copied, except that doc comments are put into
Doxygen's dialect.
-/
namespace DocBridge.Filter

structure Stats where
  tokens : Nat := 0
  docComments : Nat := 0
  changed : Nat := 0
  warnings : Nat := 0
  deriving DecidableEq, Repr

def warningRecord (name : Text) (warning : Fault) : Log.Record where
  level := .warn
  message := warning.message
  attrs := (Log.Key.file, .text name) :: Failure.attrs warning none

def writeFailure (name : Text) (cause : Failure) : Failure :=
  .caused
    { category := .filesystem
      severity := .fatal
      message := "failed to write filtered output"
      context := [(Log.Key.file, .text name)] }
    cause

def streamFull : Failure := .plain "disk full"

structure State where
  headerPassed : Bool := false
  stats : Stats := {}
  logs : List Log.Record := []
  sink : Sink := {}

def tokenText (l : Lookahead) (headerPassed : Bool) (c : Cursor) (t : Token) :
    Text × Option Fault :=
  if t.kind = .docComment then Dialect.comment l headerPassed c t.text else (t.text, none)

def step (l : Lookahead) (name : Text) (c : Cursor) (t : Token) (s : State) : State :=
  let (text, warning) := tokenText l s.headerPassed c t
  let isDoc := if t.kind = .docComment then 1 else 0
  { headerPassed := s.headerPassed || t.kind == .keyword .namespaceKw
    stats :=
      { s.stats with
        docComments := s.stats.docComments + isDoc
        changed := s.stats.changed + (if text = t.text then 0 else 1)
        warnings := s.stats.warnings + (if warning.isSome then 1 else 0) }
    logs := s.logs ++ (warning.map (warningRecord name)).toList
    sink := s.sink.write text }

def steps (l : Lookahead) (name : Text) (tokens : List Token) : Nat → List Token → State → State
  | _, [], s => { s with sink := s.sink.flush }
  | i, t :: rest, s =>
    let s := step l name ⟨tokens, i⟩ t s
    if s.sink.failed then s else steps l name tokens (i + 1) rest s

structure Outcome where
  output : Text
  stats : Stats
  logs : List Log.Record
  failure : Option Failure

/-- Filters `src` into a stream with the given room. Warnings name the source `name`. -/
def process (l : Lookahead) (name : Text) (room : Option Nat) (src : Text) : Outcome :=
  let tokens := Token.stream src
  let start : State := { stats := { tokens := tokens.length }, sink := { room := room } }
  let s := steps l name tokens 0 tokens start
  { output := s.sink.received
    stats := s.stats
    logs := s.logs
    failure := if s.sink.failed then some (writeFailure name streamFull) else none }

end DocBridge.Filter
