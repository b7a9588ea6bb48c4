import DocBridge.Log

/-
Failures and how they are classified. A failure is a chain: wrappers that put a label in front,
faults that carry a category, a severity and a context, and at its end a plain text or a fault
without a cause.
-/
namespace DocBridge

inductive Category where
  | file
  | directory
  | config
  | parse
  | write
  | lookup
  | filesystem
  | internal
  | other (name : Text)
  deriving DecidableEq, Repr

namespace Category

def named : List Category :=
  [.file, .directory, .config, .parse, .write, .lookup, .filesystem, .internal]

def label : Category → Text
  | .file => "file"
  | .directory => "directory"
  | .config => "config"
  | .parse => "parse"
  | .write => "write"
  | .lookup => "lookup"
  | .filesystem => "filesystem"
  | .internal => "internal"
  | .other name => name

def ofLabel (name : Text) : Category := (named.find? (·.label == name)).getD (.other name)

end Category

inductive Severity where
  | fatal | error | warning | info
  | other (name : Text)
  deriving DecidableEq, Repr

namespace Severity

def named : List Severity := [.fatal, .error, .warning, .info]

def label : Severity → Text
  | .fatal => "fatal"
  | .error => "error"
  | .warning => "warning"
  | .info => "info"
  | .other name => name

def ofLabel (name : Text) : Severity := (named.find? (·.label == name)).getD (.other name)

def level : Severity → Log.Level
  | .info => .info
  | .warning => .warn
  | _ => .error

end Severity

abbrev Context := List (Text × Value)

namespace Context

def get? (c : Context) (key : Text) : Option Value := c.lookup key

def set : Context → Text → Value → Context
  | [], key, v => [(key, v)]
  | (k, old) :: rest, key, v =>
    if k == key then (k, v) :: rest else (k, old) :: set rest key v

end Context

structure Fault where
  category : Category
  severity : Severity
  message : Text
  context : Context := []
  deriving DecidableEq, Repr

inductive Failure where
  | plain (text : Text)
  | labelled (label : Text) (inner : Failure)
  | fault (head : Fault)
  | caused (head : Fault) (cause : Failure)
  deriving DecidableEq, Repr

def Category.severity : Category → Severity
  | .file | .directory | .config => .fatal
  | .parse | .write | .lookup => .warning
  | _ => .error

namespace Fault

def of (category : Category) (message : Text) : Fault :=
  { category := category, severity := category.severity, message := message }

def isFatal (f : Fault) : Bool := f.severity == .fatal

def headline (f : Fault) : Text :=
  "[" ++ f.category.label ++ ":" ++ f.severity.label ++ "] " ++ f.message

def withCause (f : Fault) : Option Failure → Failure
  | none => .fault f
  | some cause => .caused f cause

end Fault

namespace Failure

def text : Failure → Text
  | .plain t => t
  | .labelled label inner => label ++ ": " ++ inner.text
  | .fault head => head.headline
  | .caused head cause => head.headline ++ ": " ++ cause.text

def inner? : Failure → Option Failure
  | .plain _ | .fault _ => none
  | .labelled _ inner => some inner
  | .caused _ cause => some cause

def classified? : Failure → Option (Fault × Option Failure)
  | .plain _ => none
  | .labelled _ inner => inner.classified?
  | .fault head => some (head, none)
  | .caused head cause => some (head, some cause)

def faults : Failure → List Fault
  | .plain _ => []
  | .labelled _ inner => inner.faults
  | .fault head => [head]
  | .caused head cause => head :: cause.faults

def hasCategory (e : Failure) (c : Category) : Bool :=
  e.classified?.any fun (f, _) => f.category == c

def hasSeverity (e : Failure) (s : Severity) : Bool :=
  e.classified?.any fun (f, _) => f.severity == s

def head? : Failure → Option Fault
  | .fault head | .caused head _ => some head
  | _ => none

/-- Some fault of the chain is alike to the fault that `target` is. A target that is not itself a
fault is met by nothing. -/
def isLike (e target : Failure) : Bool :=
  target.head?.any fun t => e.faults.any fun f => f.category == t.category && f.message == t.message

def attrs (f : Fault) (cause : Option Failure) : List (Text × Value) :=
  f.context ++ (cause.map fun c => (Log.Key.error, Value.text c.text)).toList

def display (verbose : Bool) (e : Failure) : Text :=
  match e.classified? with
  | some (f, cause) => if verbose then (f.withCause cause).text else f.message
  | none => "Error: " ++ e.text

def record (e : Failure) : Log.Record :=
  match e.classified? with
  | some (f, cause) =>
    { level := f.severity.level
      message := f.message
      attrs := (Text.ofString "category", .text f.category.label) :: attrs f cause }
  | none =>
    { level := .error
      message := "Unclassified error"
      attrs := [(Log.Key.error, .text e.text)] }

end Failure

structure Notice where
  exitCode : Nat
  shown : Text
  logged : Option Log.Record

def Notice.of (verbose : Bool) : Option Failure → Notice
  | none => ⟨0, [], none⟩
  | some e => ⟨1, e.display verbose ++ "\n", if verbose then some e.record else none⟩

end DocBridge
