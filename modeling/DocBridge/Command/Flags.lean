import DocBridge.Text.Utf8

/-
Reading a command line: flags in any place, one argument, and `--` before which flags end.
-/
namespace DocBridge.Command

inductive Flag where
  | help | config | verbose | version | metricsFile
  deriving DecidableEq, Repr

namespace Flag

def name : Flag → Text
  | .help => "help"
  | .config => "config"
  | .verbose => "verbose"
  | .version => "version"
  | .metricsFile => "metrics-file"

def letter? : Flag → Option UInt8
  | .help => some 0x68
  | .config => some 0x63
  | .verbose => some 0x76
  | _ => none

def long (f : Flag) : Text := "--" ++ f.name

def short? (f : Flag) : Option Text := f.letter?.map fun b => [0x2D, b]

def spellings (f : Flag) : List Text := f.long :: f.short?.toList

end Flag

/-- A piece of the command line. A word is not looked at yet; all else is a part of a word. -/
inductive Arg where
  | word (t : Text)
  | long (name : Text)
  | longValue (value : Text)
  | short (letter : Text)
  | shortTail (rest : Text)
  | positional (t : Text)
  deriving DecidableEq, Repr

inductive UsageError where
  | missingArgument (name : Text)
  | unexpectedArgument (t : Text)
  | unknownFlag (spelling : Text) (near : List Text)
  | unexpectedValue (value : Text)
  | badBool (flag : Flag) (value : Text)
  | missingValue (flag : Flag) (found : Option Text)
  deriving DecidableEq, Repr

def quote (t : Text) : Text :=
  "\"" ++ t.flatMap (fun b => if b == 0x22 || b == 0x5C then [0x5C, b] else [b]) ++ "\""

def isDashed (t : Text) : Bool := t.head? == some 0x2D

def isLong (t : Text) : Bool := (Text.ofString "--").isPrefixOf t

def UsageError.message : UsageError → Text
  | .missingArgument name => "expected " ++ quote ("<" ++ name ++ ">")
  | .unexpectedArgument t => "unexpected argument " ++ t
  | .unknownFlag spelling near =>
    "unknown flag " ++ spelling
      ++ (match near with
        | [] => []
        | [one] => ", did you mean " ++ quote one ++ "?"
        | several => ", did you mean one of " ++ Text.join ", " (several.map quote) ++ "?")
  | .unexpectedValue value => "unexpected flag argument " ++ quote value
  | .badBool flag value =>
    flag.long ++ ": bool value must be true, 1, yes, false, 0 or no but got " ++ quote value
  | .missingValue flag none => flag.long ++ ": expected string value but got \"EOL\" (<EOL>)"
  | .missingValue flag (some found) =>
    flag.long ++ ": expected string value but got " ++ quote found
      ++ (if isLong found then " (long flag)" else " (short flag)")
      ++ "; perhaps try " ++ flag.long ++ "=" ++ quote found ++ "?"

def nextRow (c : Char) (left diagonal : Nat) : List Char → List Nat → List Nat
  | d :: ds, above :: rest =>
    let entry := min (min (above + 1) (left + 1)) (if c == d then diagonal else diagonal + 1)
    entry :: nextRow c entry above ds rest
  | _, _ => []

def editDistance (a b : List Char) : Nat :=
  let first := List.range (b.length + 1)
  let last := a.foldl
    (fun row c =>
      match row with
      | [] => []
      | head :: rest => (head + 1) :: nextRow c (head + 1) head b rest)
    first
  last.getLast?.getD 0

/-- Spellings that start like `t` or are at most two edits away. -/
def nearSpellings (flags : List Flag) (t : Text) : List Text :=
  (flags.flatMap Flag.spellings).filter fun s =>
    t.isPrefixOf s || editDistance (Utf8.chars s) (Utf8.chars t) ≤ 2

structure Invocation where
  config : Text := []
  verbose : Bool := false
  metricsFile : Text := []
  argument : Option Text := none
  requests : List Flag := []
  deriving DecidableEq, Repr

def split (t : Text) : List Arg :=
  if isLong t then
    match Text.cut? "=" (t.drop 2) with
    | some (name, value) => [.long name, .longValue value]
    | none => [.long (t.drop 2)]
  else if isDashed t && t.length != 1 then
    .short ((t.drop 1).take 1) :: (if t.length ≤ 2 then [] else [.shortTail (t.drop 2)])
  else [.positional t]

def takeValue (flag : Flag) : List Arg → Except UsageError (Text × List Arg)
  | .longValue t :: rest | .shortTail t :: rest | .positional t :: rest => .ok (t, rest)
  | .word t :: rest =>
    if isDashed t && t.length != 1 then .error (.missingValue flag (some t)) else .ok (t, rest)
  | .long name :: _ => .error (.missingValue flag (some ("--" ++ name)))
  | .short letter :: _ => .error (.missingValue flag (some ("-" ++ letter)))
  | [] => .error (.missingValue flag none)

def takeBool (flag : Flag) : List Arg → Except UsageError (Bool × List Arg)
  | .longValue t :: rest =>
    let t := Utf8.lower t
    if [Text.ofString "true", "1", "yes"].contains t then .ok (true, rest)
    else if [Text.ofString "false", "0", "no"].contains t then .ok (false, rest)
    else .error (.badBool flag t)
  | rest => .ok (true, rest)

def applyFlag (i : Invocation) (flag : Flag) (rest : List Arg) :
    Except UsageError (Invocation × List Arg) := do
  match flag with
  | .config =>
    let (t, rest) ← takeValue flag rest
    return ({ i with config := t }, rest)
  | .metricsFile =>
    let (t, rest) ← takeValue flag rest
    return ({ i with metricsFile := t }, rest)
  | .verbose =>
    let (b, rest) ← takeBool flag rest
    return ({ i with verbose := b }, rest)
  | .help =>
    let (_, rest) ← takeBool flag rest
    return ({ i with requests := i.requests ++ [flag] }, rest)
  | .version => return ({ i with requests := i.requests ++ [flag] }, rest)

def readFlag (flags : List Flag) (i : Invocation) (spelling : Text) (rest : List Arg) :
    Except UsageError (Invocation × List Arg) :=
  match flags.find? fun f => f.spellings.contains spelling with
  | some flag => applyFlag i flag rest
  | none => .error (.unknownFlag spelling (nearSpellings flags spelling))

def endFlags (args : List Arg) : List Arg :=
  args.map fun
    | .word t => .positional t
    | a => a

def readArg (flags : List Flag) (i : Invocation) (a : Arg) (rest : List Arg) :
    Except UsageError (Invocation × List Arg) :=
  match a with
  | .word t => .ok (i, if t == Text.ofString "--" then endFlags rest else split t ++ rest)
  | .long name => readFlag flags i ("--" ++ name) rest
  | .short letter => readFlag flags i ("-" ++ letter) rest
  | .shortTail t =>
    .ok (i, .short (t.take 1) :: (if t.length ≤ 1 then rest else .shortTail (t.drop 1) :: rest))
  | .longValue t => .error (.unexpectedValue t)
  | .positional t =>
    match i.argument with
    | none => .ok ({ i with argument := some t }, rest)
    | some _ => .error (.unexpectedArgument t)

def readArgs (flags : List Flag) : Nat → Invocation → List Arg → Except UsageError Invocation
  | _, i, [] => .ok i
  | 0, i, _ => .ok i
  | fuel + 1, i, a :: rest => do
    let (i, rest) ← readArg flags i a rest
    readArgs flags fuel i rest

def roomFor (words : List Text) : Nat := words.foldr (fun t n => 2 * t.length + 4 + n) 0

def parse (flags : List Flag) (words : List Text) : Except UsageError Invocation :=
  readArgs flags (roomFor words) {} (words.map .word)

end DocBridge.Command
