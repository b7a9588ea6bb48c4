import Std.Time.DateTime.Timestamp
import DocBridge.Command.Tool
import DocBridge.Log.Moment

/-
The command line. The files that a call can touch are read into a `Disk`, the call is computed on
it, and the files that came out different are written back. Which tool is meant is told by the name
under which the program was started.
-/
namespace DocBridge.Main

def textOf (bytes : ByteArray) : Text := bytes.data.toList

def bytesOf (t : Text) : ByteArray := ⟨t.toArray⟩

partial def gather (d : Disk) (path : String) : IO Disk := do
  let here ← IO.currentDir
  let name := Text.ofString path
  let .ok found ← (here / path).symlinkMetadata.toBaseIO | return d
  match found.type with
  | .file => return d.add name (.file (textOf (← IO.FS.readBinFile path)) 0o644)
  | .dir =>
    (← (here / path).readDir).foldlM (fun d e => gather d (path ++ "/" ++ e.fileName))
      (d.add name .directory)
  | .symlink =>
    match ← (IO.FS.realPath path).toBaseIO with
    | .ok target => gather (d.add name (.link (Text.ofString target.toString))) target.toString
    | .error _ => return d.add name (.link "")
  | .other => return d

def gatherAll (d : Disk) (paths : List Text) : IO Disk :=
  (paths.filter (!·.isEmpty)).foldlM (fun d p => gather d (Utf8.toString p)) d

def lookUp (names : List Text) : IO Environment := do
  let found ← names.mapM fun name => do
    return (← IO.getEnv (Utf8.toString name)).map fun v => (name, Text.ofString v)
  return found.filterMap id

def namesIn (d : Disk) : List Text :=
  Settings.envFiles.flatMap fun path =>
    (((d.read path).toOption.bind fun t => (EnvFile.parse t).toOption).getD []).map Prod.fst

def surroundings (i : Command.Invocation) : IO (Environment × Disk) := do
  let d ← gatherAll {} (Settings.envFiles ++ [Settings.defaultFile])
  let env ← lookUp (Settings.fileVariable :: namesIn d)
  let settings := (Settings.source d (Settings.loadEnv d env Settings.envFiles).1 i.config).path
  let d ← gatherAll d [settings]
  let more ← lookUp (Environment.names ((d.read settings).toOption.getD []))
  return (env ++ more, ← gatherAll d [i.argument.getD []])

def gatherDirectory (d : Disk) (path : Text) : IO Disk := do
  let here ← IO.currentDir
  if !path.isEmpty && (← (here / Utf8.toString (Path.parent path)).isDir) then
    return d.add (Path.parent path) .directory
  return d

def writeBack (before after : Disk) : IO Unit :=
  after.entries.forM fun (path, e) => do
    match e with
    | .file data _ =>
      if before.entry? path != some e then
        IO.FS.writeBinFile (Utf8.toString (Text.join "/" path)) (bytesOf data)
    | _ => pure ()

def runId : IO Text := do
  let random ← (List.range 16).mapM fun _ => IO.rand 0 255
  return Log.runName (random.map Nat.toUInt8)

def put (stream : IO.FS.Stream) (t : Text) : IO Unit := do
  stream.write (bytesOf t)
  stream.flush

def serve (t : Command.Tool) (words : List Text) : IO UInt32 := do
  let i := (Command.parse t.profile.flags words).toOption.getD {}
  let (env, d) ← surroundings i
  let settings := ((Settings.load d env i.config).result.toOption.getD .standard).pages
  let d ← gatherDirectory d (Command.metricsPath settings i)
  let time := (← Std.Time.Timestamp.now).toMillisecondsSinceUnixEpoch.val.toNat
  let start ← IO.monoNanosNow
  let o ← IO.lazyPure fun _ => Command.call t env d words
  let micros := ((← IO.monoNanosNow) - start) / 1000
  let duration := NumberFormat.plain.writeFloat (Float.ofNat micros / 1000)
  put (← IO.getStdout) o.output
  put (← IO.getStderr) (o.diagnostics t ⟨Log.momentText time, ← runId, duration⟩)
  writeBack d o.disk
  return o.exitCode.toUInt32

end DocBridge.Main

def main (args : List String) : IO UInt32 := do
  let name := (← IO.appPath).fileName.getD ""
  let tool := (DocBridge.Command.tool? (DocBridge.Text.ofString name)).getD
    DocBridge.Command.filterTool
  DocBridge.Main.serve tool (args.map DocBridge.Text.ofString)
