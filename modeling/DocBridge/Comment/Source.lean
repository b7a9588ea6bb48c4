import DocBridge.Comment.Filter
import DocBridge.Disk

/- Filtering a file of the working directory. -/
namespace DocBridge.Filter

def invalidFile (message : Text) (context : Context) : Fault :=
  { category := .file, severity := .fatal, message := message, context := context }

def readSource (d : Disk) (path : Text) : Except Failure Text :=
  if path.isEmpty then .error (.fault (invalidFile "invalid filename: no file given" []))
  else
    let invalid := invalidFile ("invalid filename: " ++ path) [(Log.Key.file, .text path)]
    match d.stat path with
    | .error cause => .error (.caused invalid cause)
    | .ok (.file _ _) =>
      match d.read path with
      | .ok src => .ok src
      | .error cause =>
        .error (.caused (invalidFile ("error reading " ++ path) [(Log.Key.file, .text path)]) cause)
    | .ok _ => .error (.fault invalid)

def processFile (l : Lookahead) (d : Disk) (path : Text) : Except Failure Outcome :=
  (readSource d path).map (process l path none)

end DocBridge.Filter
