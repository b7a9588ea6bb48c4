import DocBridge.Yaml.Node

/-
What scalars stand for. A plain scalar is null, a truth value or a number if it looks like one; a
tag may demand one of these.
-/
namespace DocBridge.Yaml

inductive Value where
  | null
  | bool (b : Bool)
  | int (n : Int)
  | float (x : Float)
  | text (t : Text)
  deriving Repr

def named : List (String × Value) :=
  [("", .null), ("~", .null), ("null", .null), ("Null", .null), ("NULL", .null),
    ("true", .bool true), ("True", .bool true), ("TRUE", .bool true),
    ("false", .bool false), ("False", .bool false), ("FALSE", .bool false),
    (".nan", .float (0.0 / 0.0)), (".NaN", .float (0.0 / 0.0)), (".NAN", .float (0.0 / 0.0)),
    (".inf", .float (1.0 / 0.0)), (".Inf", .float (1.0 / 0.0)), (".INF", .float (1.0 / 0.0)),
    ("+.inf", .float (1.0 / 0.0)), ("+.Inf", .float (1.0 / 0.0)), ("+.INF", .float (1.0 / 0.0)),
    ("-.inf", .float (-1.0 / 0.0)), ("-.Inf", .float (-1.0 / 0.0)),
    ("-.INF", .float (-1.0 / 0.0))]

def signed (cs : List Char) : Bool × List Char :=
  match cs with
  | '-' :: rest => (true, rest)
  | '+' :: rest => (false, rest)
  | _ => (false, cs)

def digitIn? (base : Nat) (c : Char) : Option Nat :=
  if isHexDigit c && hexDigit c < base then some (hexDigit c) else none

def natIn? (base : Nat) (cs : List Char) : Option Nat :=
  if cs.isEmpty then none
  else cs.foldlM (fun n c => (digitIn? base c).map (n * base + ·)) 0

def nat? : List Char → Option Nat
  | '0' :: c :: rest =>
    if c == 'x' || c == 'X' then natIn? 16 rest
    else if c == 'b' || c == 'B' then natIn? 2 rest
    else if c == 'o' || c == 'O' then natIn? 8 rest
    else natIn? 8 (c :: rest)
  | cs => natIn? 10 cs

def halfWord : Nat := 9223372036854775808

def int? (cs : List Char) : Option Int :=
  let (negative, digits) := signed cs
  match nat? digits with
  | none => none
  | some n =>
    if negative then if n ≤ halfWord then some (-(n : Int)) else none
    else if n < halfWord || (n < 2 * halfWord && digits.length == cs.length) then some n
    else none

def digitsOf (cs : List Char) : List Char × List Char :=
  (cs.takeWhile Char.isDigit, cs.dropWhile Char.isDigit)

def exponent? : List Char → Option Int
  | [] => some 0
  | e :: rest =>
    if e == 'e' || e == 'E' then
      let (negative, ds) := signed rest
      if ds.isEmpty || !ds.all Char.isDigit then none
      else
        let n : Int := ds.foldl (fun n c => n * 10 + (c.toNat - 48)) 0
        some (if negative then -n else n)
    else none

/-- Powers of ten beyond these bounds leave the range of numbers. -/
def powerLimit : Int := 400

def scaled? (digits : Nat) (power : Int) : Option Float :=
  let width : Int := (Nat.toDigits 10 digits).length
  if digits == 0 || power + width < -powerLimit then some 0.0
  else if powerLimit < power + width then none
  else
    let x := Float.ofScientific digits (power < 0) power.natAbs
    if x.isInf then none else some x

def float? (cs : List Char) : Option Float := do
  let (negative, cs) := signed cs
  let (whole, rest) := digitsOf cs
  let (fraction, rest) :=
    match rest with
    | '.' :: rest => digitsOf rest
    | _ => ([], rest)
  let power ← exponent? rest
  if whole.isEmpty && fraction.isEmpty then none
  let digits := (whole ++ fraction).foldl (fun n c => n * 10 + (c.toNat - 48)) 0
  let x ← scaled? digits (power - fraction.length)
  return if negative then -x else x

def plainValue (text : Text) : Value :=
  let cs := Utf8.chars text
  match named.lookup (String.ofList cs) with
  | some v => v
  | none =>
    let start := cs.head?.getD ' '
    if start == '.' then ((float? cs).map .float).getD (.text text)
    else if start.isDigit || start == '+' || start == '-' then
      let cs := cs.filter (· != '_')
      match int? cs, float? cs with
      | some n, _ => .int n
      | none, some x => .float x
      | none, none => .text text
    else .text text

def tagged (tag : String) (text : Text) : Except Problem Value :=
  match tag, plainValue text with
  | "!!str", _ => .ok (.text text)
  | "!!null", .null => .ok .null
  | "!!bool", .bool b => .ok (.bool b)
  | "!!int", .int n => .ok (.int n)
  | "!!float", .float x => .ok (.float x)
  | "!!float", .int n => .ok (.float (Float.ofInt n))
  | _, _ => .error .badTag

def scalarValue (tag : Option Text) (style : Style) (text : Text) : Except Problem Value :=
  match tag.map Utf8.toString with
  | none | some "!" => .ok (if style = .plain then plainValue text else .text text)
  | some tag => tagged tag text

namespace Node

def sameKey : Node → Node → Bool
  | .scalar _ _ a, .scalar _ _ b => a == b
  | .sequence _, .sequence _ => true
  | .mapping _, .mapping _ => true
  | _, _ => false

def hasDuplicates : List (Node × Node) → Bool
  | [] => false
  | (k, _) :: rest => rest.any (fun p => k.sameKey p.1) || hasDuplicates rest

def isMergeKey : Node → Bool
  | .scalar tag .plain text => text == Text.ofString "<<" && tag.all (· == Text.ofString "!")
  | _ => false

def addMissing (pairs more : List (Node × Node)) : List (Node × Node) :=
  pairs ++ more.filter fun p => !pairs.any fun q => q.1.sameKey p.1

def mergedPairs : Node → Except Problem (List (Node × Node))
  | .mapping pairs => .ok pairs
  | .sequence items =>
    items.foldlM
      (fun all item =>
        match item with
        | .mapping pairs => .ok (addMissing all pairs)
        | _ => .error .badMerge)
      []
  | _ => .error .badMerge

/-- The pairs of a mapping, those from merge keys last. Keys must differ. -/
def entries (pairs : List (Node × Node)) : Except Problem (List (Node × Node)) := do
  if hasDuplicates pairs then throw .duplicateKey
  let own := pairs.filter fun p => !p.1.isMergeKey
  (pairs.filter fun p => p.1.isMergeKey).foldlM
    (fun all p => do return addMissing all (← mergedPairs p.2)) own

end Node
end DocBridge.Yaml
