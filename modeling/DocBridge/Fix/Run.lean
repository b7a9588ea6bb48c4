import DocBridge.Disk
import DocBridge.Fix.Fixer
import DocBridge.Metrics

/- Fixing every page below a directory, in place. Trouble with one file does not stop the run. -/
namespace DocBridge.Fixer

def fileFault (category : Category) (what path : Text) : Fault where
  category := category
  severity := .warning
  message := "could not " ++ what ++ " " ++ path
  context := [(Log.Key.file, .text path)]

def parseWarning (path : Text) (cause : Failure) : Failure :=
  .caused (fileFault .parse "parse" path) cause

def writeWarning (path : Text) (cause : Failure) : Failure :=
  .caused (fileFault .write "write" path) cause

abbrev Refusals := Text → Option Failure

def writePage (refuse : Refusals) (d : Disk) (path data : Text) : Except Failure Disk :=
  match refuse path with
  | some e => .error e
  | none => d.overwrite path data

def fixFile (f : Fixer) (refuse : Refusals) (d : Disk) (path : Text) :
    Disk × Except Failure FileResult :=
  match d.read path with
  | .error e => (d, .error (parseWarning path e))
  | .ok page =>
    match f.fixPage page with
    | .error e => (d, .error (parseWarning path (.plain e.message)))
    | .ok (fixed, tally) =>
      match writePage refuse d path fixed with
      | .error e => (d, .error (writeWarning path e))
      | .ok d => (d, .ok { path := path, status := .fixed, changes := tally })

def resultRecord (r : FileResult) : Log.Record :=
  match r.failure.bind Failure.classified? with
  | some (fault, cause) =>
    { level := .warn
      message := fault.message
      attrs := (Log.Key.status, .text r.status.label) :: Failure.attrs fault cause }
  | none =>
    { level := .debug
      message := "Fixed file"
      attrs := [(Log.Key.file, .text r.path), (Log.Key.changes, .int r.totalChanges)] }

structure Progress where
  disk : Disk
  report : Report := {}
  metrics : Metrics := {}
  logs : List Log.Record := []

def visit (f : Fixer) (refuse : Refusals) (s : Progress) (path : Text) : Progress :=
  if wants f.settings path then
    let (disk, outcome) := f.fixFile refuse s.disk path
    let result := FileResult.ofOutcome path outcome
    { disk := disk
      report := s.report.add result
      metrics := s.metrics.record result
      logs := s.logs ++ [resultRecord result] }
  else { s with report := s.report.skip, metrics := s.metrics.countFile Metrics.skipped }

def summary (dir : Text) (r : Report) : Log.Record where
  level := .info
  message := "Processed HTML files"
  attrs :=
    [(Log.Key.dir, .text dir), (Log.Key.count, .int r.files.length),
      (Text.ofString "skipped", .int r.skipped),
      (Text.ofString "warnings", .int r.warnings.length)]

def invalidDirectory (message : Text) (context : Context) : Fault :=
  { category := .directory, severity := .fatal, message := message, context := context }

/-- The paths to visit below `dir`, in order. A link is not followed, even if `dir` is one. -/
def walk (d : Disk) (dir : Text) : List Text :=
  match d.resolve false dir with
  | .error _ => []
  | .ok names =>
    match d.entry? names with
    | some .directory => (d.below names).map fun rest => Path.join dir (Text.join "/" rest)
    | _ => [dir]

def checkDirectory (d : Disk) (dir : Text) : Except Failure Unit :=
  let invalid := invalidDirectory ("Invalid directory: " ++ dir) [(Log.Key.dir, .text dir)]
  if dir.isEmpty then .error (.fault (invalidDirectory "Invalid directory: no directory given" []))
  else match d.stat dir with
    | .ok .directory => .ok ()
    | .ok _ => .error (.fault invalid)
    | .error cause => .error (.caused invalid cause)

def run (f : Fixer) (refuse : Refusals) (d : Disk) (dir : Text) : Except Failure Progress := do
  checkDirectory d dir
  let s := (walk d dir).foldl (f.visit refuse) { disk := d }
  return { s with logs := s.logs ++ [summary dir s.report] }

end DocBridge.Fixer
