import DocBridge.Text

/- Path expressions that select nodes of a page. -/
namespace DocBridge.Query

inductive Axis where
  | child | descendant | descendantOrSelf | self | parent | ancestor | ancestorOrSelf
  | following | followingSibling | preceding | precedingSibling | attribute
  deriving DecidableEq, Repr

inductive Test where
  | any
  | node
  | text
  | comment
  | instruction
  /-- A name written without a qualifier, whatever its namespace. -/
  | plain (name : Text)
  | inSpace (uri name : Text)
  deriving DecidableEq, Repr

inductive Op where
  | or | and | eq | ne | lt | le | gt | ge | add | sub | mul | div | mod
  deriving DecidableEq, Repr

inductive Fn where
  | position | last | count | sum
  | name | localName | namespaceUri
  | string | concat | startsWith | endsWith | contains | substring | substringBefore
  | substringAfter | stringLength | normalizeSpace | translate | lowerCase
  | boolean | not | true_ | false_
  | number | floor | ceiling | round
  deriving DecidableEq, Repr

namespace Fn

def named : List (String × Fn) :=
  [("position", .position), ("last", .last), ("count", .count), ("sum", .sum), ("name", .name),
    ("local-name", .localName), ("namespace-uri", .namespaceUri), ("string", .string),
    ("concat", .concat), ("starts-with", .startsWith), ("ends-with", .endsWith),
    ("contains", .contains), ("substring", .substring), ("substring-before", .substringBefore),
    ("substring-after", .substringAfter), ("string-length", .stringLength),
    ("normalize-space", .normalizeSpace), ("translate", .translate), ("lower-case", .lowerCase),
    ("boolean", .boolean), ("not", .not), ("true", .true_), ("false", .false_),
    ("number", .number), ("floor", .floor), ("ceiling", .ceiling), ("round", .round)]

def ofName? (name : String) : Option Fn := named.lookup name

def arity : Fn → Nat × Option Nat
  | .position | .last | .true_ | .false_ => (0, none)
  | .name | .localName | .namespaceUri | .string | .boolean | .number => (0, some 1)
  | .count | .sum | .stringLength | .normalizeSpace | .not | .floor | .ceiling | .round
  | .lowerCase => (1, none)
  | .concat | .startsWith | .endsWith | .contains | .substring | .substringBefore
  | .substringAfter => (2, none)
  | .translate => (3, none)

def accepts (f : Fn) (n : Nat) : Bool := f.arity.1 ≤ n && f.arity.2.all (n ≤ ·)

end Fn

inductive Expr where
  | root
  | context
  | step (input : Expr) (axis : Axis) (test : Test) (predicates : List Expr)
  | filter (input : Expr) (predicates : List Expr)
  | union (left right : Expr)
  | literal (t : Text)
  | number (x : Float)
  | call (f : Fn) (args : List Expr)
  | op (o : Op) (left right : Expr)
  | negate (e : Expr)
  deriving Repr

end DocBridge.Query
