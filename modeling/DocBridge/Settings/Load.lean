import DocBridge.Disk
import DocBridge.Settings.EnvFile
import DocBridge.Settings.Read

/- Which settings a run uses: environment files first, then the settings file, then defaults. -/
namespace DocBridge.Settings

def defaultFile : Text := ".doxyphp.yaml"

def fileVariable : Text := "DOXYPHP_CONFIG"

def envFiles : List Text := [".env", ".env.local"]

structure Source where
  path : Text
  explicit : Bool
  deriving DecidableEq, Repr

/-- The file given by name wins, then the one that the environment names, then the default file if
it is there. -/
def source (d : Disk) (env : Environment) (flag : Text) : Source :=
  if !flag.isEmpty then ⟨flag, true⟩
  else if !(env.get fileVariable).isEmpty then ⟨env.get fileVariable, true⟩
  else match d.stat defaultFile with
    | .ok _ => ⟨defaultFile, false⟩
    | .error _ => ⟨[], false⟩

def loadedRecord (path : Text) : Log.Record :=
  { level := .debug
    message := "Loaded environment variables"
    attrs := [(Log.Key.file, .text path)] }

def noEnvRecord : Log.Record :=
  { level := .debug
    message := "No .env file loaded"
    attrs := [(Log.Key.error, .text "no .env file found")] }

def settingsRecord (path : Text) : Log.Record :=
  { level := .debug
    message := "Loaded configuration"
    attrs := [(Log.Key.config, .text path)] }

def loadEnv (d : Disk) (env : Environment) : List Text → Environment × Log.Record
  | [] => (env, noEnvRecord)
  | path :: rest =>
    match (d.read path).toOption.bind fun t => (EnvFile.parse t).toOption with
    | some vars => (EnvFile.merge env vars, loadedRecord path)
    | none => loadEnv d env rest

def fileFailure (message path : Text) (cause : Failure) : Failure :=
  .caused { Fault.of .config message with context := [(Log.Key.config, .text path)] } cause

structure Loaded where
  logs : List Log.Record
  result : Except Failure Settings

def loadFile (d : Disk) (env : Environment) (path : Text) : Except Failure Settings :=
  match d.read path with
  | .error e => .error (fileFailure "failed to read config file" path e)
  | .ok yaml =>
    match read env yaml with
    | .ok s => .ok s
    | .error e => .error (fileFailure "invalid config file" path (.plain e.message))

def load (d : Disk) (env : Environment) (flag : Text) : Loaded :=
  let (env, envRecord) := loadEnv d env envFiles
  let src := source d env flag
  if src.path.isEmpty then ⟨[envRecord], .ok standard⟩
  else match loadFile d env src.path with
    | .ok s => ⟨[envRecord, settingsRecord src.path], .ok s⟩
    | .error e => ⟨[envRecord], .error e⟩

end DocBridge.Settings
