import DocBridge.Command.Flags

/- Help texts: two columns, the right one folded at 80 characters. -/
namespace DocBridge.Command

def Flag.placeholder : Flag → Text
  | .config => "=STRING"
  | .metricsFile => "=PATH"
  | _ => []

def Flag.description : Flag → Text
  | .help => "Show context-sensitive help."
  | .config => "Configuration file path (defaults to $DOXYPHP_CONFIG, then .doxyphp.yaml)"
  | .verbose => "Enable verbose logging"
  | .version => "Show version and exit"
  | .metricsFile => "Write Prometheus metrics to this textfile (overrides fixhtml.metrics_file)"

def Flag.summary (f : Flag) : Text :=
  (match f.short? with
    | some s => s ++ ", "
    | none => "    ") ++ f.long ++ f.placeholder

structure Profile where
  name : Text
  description : Text
  argument : Text
  argumentHelp : Text
  flags : List Flag

def lineWidth : Nat := 80

def fold (width : Nat) (line : Text) : List Text → List Text
  | [] => [line]
  | w :: rest =>
    if line.isEmpty then fold width w rest
    else if line.length + 1 + w.length ≤ width then fold width (line ++ " " ++ w) rest
    else line :: fold width w rest

def blanks (n : Nat) : Text := List.replicate n 0x20

def table (rows : List (Text × Text)) : Text :=
  let width := (rows.map fun r => r.1.length).foldl max 0
  let indent := width + 6
  rows.flatMap fun (left, right) =>
    let lines := fold (lineWidth - indent) [] (Text.splitOn 0x20 right)
    "  " ++ left ++ blanks (width + 4 - left.length)
      ++ Text.join ("\n" ++ blanks indent) lines ++ "\n"

def Profile.help (p : Profile) : Text :=
  let arg := "<" ++ p.argument ++ ">"
  "Usage: " ++ p.name ++ " " ++ arg ++ " [flags]\n\n" ++ p.description ++ "\n\nArguments:\n"
    ++ table [(arg, p.argumentHelp)] ++ "\nFlags:\n"
    ++ table (p.flags.map fun f => (f.summary, f.description))

end DocBridge.Command
