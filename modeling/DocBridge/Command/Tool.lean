import DocBridge.Command.Help
import DocBridge.Comment.Source
import DocBridge.Fix.Run
import DocBridge.Log.Line
import DocBridge.Settings.Load
import DocBridge.Version

/- The tools and what a call of one does. -/
namespace DocBridge.Command

structure Job where
  disk : Disk
  output : Text := []
  logs : List Log.Record := []
  failure : Option Failure := none

structure Tool where
  profile : Profile
  work : Settings → Invocation → Disk → Job

def commonFlags : List Flag := [.help, .config, .verbose, .version]

def filteringRecord (path : Text) : Log.Record :=
  { level := .debug
    message := "Filtering file"
    attrs := [(Log.Key.file, .text path), (Text.ofString "rules", .texts Dialect.ruleNames)] }

def filteredRecord (path : Text) (s : Filter.Stats) : Log.Record :=
  { level := .debug
    message := "Filtered file"
    attrs :=
      [(Log.Key.file, .text path), (Log.Key.count, .int s.docComments),
        (Log.Key.changes, .int s.changed), (Text.ofString "warnings", .int s.warnings)] }

def filterWork (s : Settings) (i : Invocation) (d : Disk) : Job :=
  let path := i.argument.getD []
  match Filter.processFile s.lookahead d path with
  | .error e => { disk := d, logs := [filteringRecord path], failure := some e }
  | .ok o =>
    { disk := d
      output := o.output
      logs := filteringRecord path :: o.logs ++ [filteredRecord path o.stats]
      failure := o.failure }

def filterTool : Tool where
  profile :=
    { name := "phpdoc-filter"
      description := "Rewrite PHPDoc comments of a PHP file for Doxygen and print the result."
      argument := "file"
      argumentHelp := "PHP source file to filter"
      flags := commonFlags }
  work := filterWork

def metricsWritten (path : Text) : Log.Record :=
  { level := .debug, message := "Wrote metrics file", attrs := [(Log.Key.file, .text path)] }

def metricsFailed (path : Text) (e : Failure) : Log.Record :=
  { level := .warn
    message := "Failed to write metrics file"
    attrs := [(Log.Key.file, .text path), (Log.Key.error, .text e.text)] }

def metricsMode : Nat := 0o644

def writeMetrics (path : Text) (s : Fixer.Progress) : Job :=
  if path.isEmpty then { disk := s.disk, logs := s.logs }
  else match s.disk.replace path s.metrics.render metricsMode with
    | .ok d => { disk := d, logs := s.logs ++ [metricsWritten path] }
    | .error e => { disk := s.disk, logs := s.logs ++ [metricsFailed path e] }

def metricsPath (p : PageSettings) (i : Invocation) : Text :=
  if i.metricsFile.isEmpty then p.metricsFile else i.metricsFile

def fixWork (s : Settings) (i : Invocation) (d : Disk) : Job :=
  let pages := { s.pages with metricsFile := metricsPath s.pages i }
  match Fixer.ofSettings pages with
  | .error e => { disk := d, failure := some e }
  | .ok f =>
    match f.run (fun _ => none) d (i.argument.getD []) with
    | .error e => { disk := d, failure := some e }
    | .ok progress => writeMetrics pages.metricsFile progress

def fixTool : Tool where
  profile :=
    { name := "phpdoc-fixhtml"
      description := "Restore PHP namespace separators and php.net links in Doxygen XHTML output."
      argument := "dir"
      argumentHelp := "Doxygen HTML output directory"
      flags := commonFlags ++ [.metricsFile] }
  work := fixWork

def tools : List Tool := [filterTool, fixTool]

def tool? (name : Text) : Option Tool := tools.find? (·.profile.name == name)

inductive Message where
  | record (r : Log.Record)
  | finished (failure : Option Failure)
  | line (t : Text)
  deriving DecidableEq, Repr

structure Outcome where
  exitCode : Nat
  output : Text := []
  messages : List Message := []
  verbose : Bool := false
  disk : Disk
  settings : Option Settings := none

def answer (p : Profile) : Flag → Text
  | .version => ({} : Version).text ++ "\n"
  | _ => p.help

def finishedRecord (duration : Text) (failure : Option Failure) : Log.Record :=
  { level := .debug
    message := "Command finished"
    attrs :=
      [(Log.Key.duration, .number duration),
        (Log.Key.error, .text ((failure.map Failure.text).getD []))] }

def conclude (verbose : Bool) (failure : Option Failure) : Nat × List Message :=
  let notice := Notice.of verbose failure
  (notice.exitCode,
    (notice.logged.map Message.record).toList
      ++ (if notice.shown.isEmpty then [] else [.line notice.shown]))

def execute (t : Tool) (env : Environment) (d : Disk) (i : Invocation) : Outcome :=
  let loaded := Settings.load d env i.config
  match loaded.result with
  | .error e =>
    let (code, closing) := conclude i.verbose (some e)
    { exitCode := code
      messages := loaded.logs.map .record ++ closing
      verbose := i.verbose
      disk := d }
  | .ok s =>
    let job := t.work s i d
    let (code, closing) := conclude i.verbose job.failure
    { exitCode := code
      output := job.output
      messages := (loaded.logs ++ job.logs).map .record ++ .finished job.failure :: closing
      verbose := i.verbose
      disk := job.disk
      settings := some s }

def usageLine (p : Profile) (e : UsageError) : Message :=
  .line (p.name ++ ": error: " ++ e.message ++ "\n")

/-- One call of a tool. Requests for help or the version come first, even if the argument is
missing. -/
def call (t : Tool) (env : Environment) (d : Disk) (words : List Text) : Outcome :=
  let misuse (e : UsageError) : Outcome :=
    { exitCode := 1, messages := [usageLine t.profile e], disk := d }
  match parse t.profile.flags words with
  | .error e => misuse e
  | .ok i =>
    if !i.requests.isEmpty then
      { exitCode := 0, output := i.requests.flatMap (answer t.profile), disk := d }
    else if i.argument.isNone then misuse (.missingArgument t.profile.argument)
    else execute t env d i

structure Circumstances where
  time : Text
  runId : Text
  duration : Text

def isShown (verbose : Bool) (r : Log.Record) : Bool := verbose || r.level != .debug

def recordText (verbose : Bool) (stamp : Log.Stamp) (r : Log.Record) : Text :=
  if isShown verbose r then r.line stamp else []

def Outcome.diagnostics (o : Outcome) (t : Tool) (c : Circumstances) : Text :=
  let stamp : Log.Stamp :=
    ⟨c.time, [(Log.Key.runId, .text c.runId), (Log.Key.command, .text t.profile.name)]⟩
  o.messages.flatMap fun
    | .record r => recordText o.verbose stamp r
    | .finished failure => recordText o.verbose stamp (finishedRecord c.duration failure)
    | .line text => text

end DocBridge.Command
