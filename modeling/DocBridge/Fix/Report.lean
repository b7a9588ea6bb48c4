import DocBridge.Fault

/- What a run over a directory did to each file. -/
namespace DocBridge

abbrev Tally := List (Text × Int)

namespace Tally

def get (t : Tally) (name : Text) : Int := (t.lookup name).getD 0

def set : Tally → Text → Int → Tally
  | [], name, n => [(name, n)]
  | (k, old) :: rest, name, n =>
    if k == name then (k, n) :: rest else (k, old) :: set rest name n

def add (t : Tally) (name : Text) (n : Int) : Tally := t.set name (t.get name + n)

def total (t : Tally) : Int := t.foldr (fun (_, n) rest => n + rest) 0

def merge (t u : Tally) : Tally := u.foldl (fun t (name, n) => t.add name n) t

end Tally

inductive Status where
  | fixed | parseError | writeError
  | other (name : Text)
  deriving DecidableEq, Repr

namespace Status

def named : List Status := [.fixed, .parseError, .writeError]

def label : Status → Text
  | .fixed => "fixed"
  | .parseError => "parse_error"
  | .writeError => "write_error"
  | .other name => name

def ofLabel (name : Text) : Status := (named.find? (·.label == name)).getD (.other name)

def counted : Status → Status
  | .other _ => .parseError
  | s => s

def ofFailure (e : Failure) : Status :=
  if e.hasCategory .write then .writeError else .parseError

end Status

structure FileResult where
  path : Text
  status : Status
  changes : Tally := []
  failure : Option Failure := none
  deriving DecidableEq, Repr

namespace FileResult

def totalChanges (r : FileResult) : Int := r.changes.total

def ofOutcome (path : Text) : Except Failure FileResult → FileResult
  | .ok r => r
  | .error e => { path := path, status := .ofFailure e, failure := some e }

end FileResult

structure Report where
  files : List FileResult := []
  skipped : Nat := 0
  deriving DecidableEq, Repr

namespace Report

def count (r : Report) (s : Status) : Nat := r.files.countP (·.status == s)

def changes (r : Report) : Tally := r.files.foldl (fun t f => t.merge f.changes) []

def warnings (r : Report) : List Failure := r.files.filterMap FileResult.failure

def add (r : Report) (f : FileResult) : Report := { r with files := r.files ++ [f] }

def skip (r : Report) : Report := { r with skipped := r.skipped + 1 }

end Report
end DocBridge
