import DocBridge.Decimal
import DocBridge.Fix.Report

/-
Counters of a run and their text form. A counter holds 64 bits and shows its value as a
floating-point number.
-/
namespace DocBridge

abbrev Counter := List (Text × UInt64)

namespace Counter

def add : Counter → Text → UInt64 → Counter
  | [], label, n => [(label, n)]
  | (l, old) :: rest, label, n =>
    if l == label then (l, old + n) :: rest else (l, old) :: add rest label n

def sorted (c : Counter) : Counter := c.mergeSort fun a b => Text.le a.1 b.1

end Counter

structure Metrics where
  files : Counter := []
  changes : Counter := []
  deriving DecidableEq, Repr

namespace Metrics

def skipped : Text := "skipped"

def countFile (m : Metrics) (outcome : Text) : Metrics :=
  { m with files := m.files.add outcome 1 }

/-- Amounts below one are ignored. -/
def addChanges (m : Metrics) (query : Text) (n : Int) : Metrics :=
  if n ≤ 0 then m
  else { m with changes := m.changes.add query (Binary.nearest n.toNat).toUInt64 }

def record (m : Metrics) (r : FileResult) : Metrics :=
  r.changes.foldl (fun m (query, n) => m.addChanges query n) (m.countFile r.status.counted.label)

def escapeByte (b : UInt8) : Text :=
  if b == 0x5C then "\\\\" else if b == 0x22 then "\\\"" else if b == 0x0A then "\\n" else [b]

def sample (name key : Text) (s : Text × UInt64) : Text :=
  name ++ "\x7b" ++ key ++ "=\"" ++ s.1.flatMap escapeByte ++ "\"\x7d "
    ++ NumberFormat.plain.write (.ofNat s.2.toNat) ++ "\n"

def family (name help key : Text) (c : Counter) : Text :=
  if c.isEmpty then []
  else
    "# HELP " ++ name ++ " " ++ help ++ "\n# TYPE " ++ name ++ " counter\n"
      ++ c.sorted.flatMap (sample name key)

def render (m : Metrics) : Text :=
  family "doxyphp_fixhtml_files_total" "HTML files seen by the post-processor, by outcome" "status"
    m.files
    ++ family "doxyphp_fixhtml_rewrites_total" "Nodes rewritten, by selector query" "query"
      m.changes

end Metrics
end DocBridge
