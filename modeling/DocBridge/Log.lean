import DocBridge.Text

/- Log records. How they are written out is said in `DocBridge.Log.Line`. -/
namespace DocBridge

inductive Value where
  | nothing
  | text (t : Text)
  | int (n : Int)
  | bool (b : Bool)
  | texts (ts : List Text)
  | number (digits : Text)
  deriving DecidableEq, Repr

namespace Log

inductive Level where
  | debug | info | warn | error
  deriving DecidableEq, Repr

def Level.label : Level → Text
  | .debug => "DEBUG"
  | .info => "INFO"
  | .warn => "WARN"
  | .error => "ERROR"

structure Record where
  level : Level
  message : Text
  attrs : List (Text × Value) := []
  deriving DecidableEq, Repr

namespace Key

def runId : Text := "run_id"
def file : Text := "file"
def dir : Text := "dir"
def line : Text := "line"
def rule : Text := "rule"
def query : Text := "query"
def status : Text := "status"
def count : Text := "count"
def config : Text := "config"
def error : Text := "error"
def duration : Text := "duration_ms"
def command : Text := "command"
def «variable» : Text := "variable"
def changes : Text := "rewrites"

end Key
end Log
end DocBridge
