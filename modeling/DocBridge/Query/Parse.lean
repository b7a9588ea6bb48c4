import DocBridge.Query.Expr
import DocBridge.Query.Token

/-
Reading path expressions. Reading stops after a complete expression; what follows is ignored.
-/
namespace DocBridge.Query

abbrev Namespaces := List (Text × Text)

/-- The token at hand and the text after it. -/
structure Input where
  token : Token
  rest : List Char

abbrev Parsed (α : Type) := α × Input

def advance (i : Input) : Except Problem Input := do
  let (token, rest) ← next i.rest
  return ⟨token, rest⟩

def isNodeType (name : List Char) : Bool :=
  ["node", "text", "comment", "processing-instruction"].contains (String.ofList name)

def operator? (level : Nat) : Token → Option Op
  | .name [] name _ =>
    match level, String.ofList name with
    | 0, "or" => some .or
    | 1, "and" => some .and
    | 5, "div" => some .div
    | 5, "mod" => some .mod
    | _, _ => none
  | .eq => if level = 2 then some .eq else none
  | .ne => if level = 2 then some .ne else none
  | .lt => if level = 3 then some .lt else none
  | .le => if level = 3 then some .le else none
  | .gt => if level = 3 then some .gt else none
  | .ge => if level = 3 then some .ge else none
  | .plus => if level = 4 then some .add else none
  | .minus => if level = 4 then some .sub else none
  | .star => if level = 5 then some .mul else none
  | _ => none

def axisNames : List (String × Axis) :=
  [("child", .child), ("descendant", .descendant), ("descendant-or-self", .descendantOrSelf),
    ("self", .self), ("parent", .parent), ("ancestor", .ancestor),
    ("ancestor-or-self", .ancestorOrSelf), ("following", .following),
    ("following-sibling", .followingSibling), ("preceding", .preceding),
    ("preceding-sibling", .precedingSibling), ("attribute", .attribute)]

def axisOf (name : List Char) : Except Problem Axis :=
  match axisNames.lookup (String.ofList name) with
  | some axis => .ok axis
  | none => .error (.unknownAxis (String.ofList name))

def startsPrimary : Token → Bool
  | .literal _ | .number _ | .dollar | .openParen => true
  | .name qualifier name call => call && !(qualifier.isEmpty && isNodeType name)
  | _ => false

def startsStep : Token → Bool
  | .dot | .dotDot | .at_ | .axis _ | .star | .name _ _ _ => true
  | _ => false

def expect (isIt : Token → Bool) (i : Input) : Except Problem Input :=
  if isIt i.token then advance i else .error .unexpectedToken

def isOpenParen : Token → Bool
  | .openParen => true
  | _ => false

def isCloseParen : Token → Bool
  | .closeParen => true
  | _ => false

def isCloseBracket : Token → Bool
  | .closeBracket => true
  | _ => false

def nameTest (ns : Namespaces) (qualifier base : List Char) : Except Problem Test :=
  let base := Utf8.ofChars base
  if qualifier.isEmpty then .ok (.plain base)
  else match ns.lookup (Utf8.ofChars qualifier) with
    | some uri => .ok (.inSpace uri base)
    | none => .error (.unboundQualifier (String.ofList qualifier))

def parseNodeType (name : List Char) (i : Input) : Except Problem (Parsed Test) := do
  let i ← advance i
  let i ← expect isOpenParen i
  match String.ofList name, i.token with
  | "text", _ => return (.text, ← expect isCloseParen i)
  | "comment", _ => return (.comment, ← expect isCloseParen i)
  | "node", _ => return (.node, ← expect isCloseParen i)
  | _, .literal _ => return (.instruction, ← expect isCloseParen (← advance i))
  | _, _ => return (.instruction, ← expect isCloseParen i)

def parseTest (ns : Namespaces) (i : Input) : Except Problem (Parsed Test) := do
  match i.token with
  | .name qualifier name call =>
    if call && qualifier.isEmpty && isNodeType name then parseNodeType name i
    else return (← nameTest ns qualifier name, ← advance i)
  | .star => return (.any, ← advance i)
  | _ => throw .expectedStep

def makeCall (name : List Char) (args : List Expr) : Except Problem Expr :=
  let name := String.ofList name
  match Fn.ofName? name with
  | none => .error (.unknownFunction name)
  | some f => if f.accepts args.length then .ok (.call f args) else .error (.wrongArity name)

def anywhere (e : Expr) : Expr := .step e .descendantOrSelf .node []

mutual

def parseLevel (ns : Namespaces) : Nat → Nat → Input → Except Problem (Parsed Expr)
  | 0, _, _ => .error .tooDeep
  | fuel + 1, level, i =>
    if 5 < level then parseUnary ns fuel false i
    else do
      let (left, i) ← parseLevel ns fuel (level + 1) i
      parseMore ns fuel level left i

def parseMore (ns : Namespaces) : Nat → Nat → Expr → Input → Except Problem (Parsed Expr)
  | 0, _, _, _ => .error .tooDeep
  | fuel + 1, level, left, i =>
    match operator? level i.token with
    | none => .ok (left, i)
    | some o => do
      let (right, i) ← parseLevel ns fuel (level + 1) (← advance i)
      parseMore ns fuel level (.op o left right) i

def parseUnary (ns : Namespaces) : Nat → Bool → Input → Except Problem (Parsed Expr)
  | 0, _, _ => .error .tooDeep
  | fuel + 1, minus, i =>
    match i.token with
    | .minus => do parseUnary ns fuel (!minus) (← advance i)
    | _ => do
      let (left, i) ← parsePath ns fuel i
      let (e, i) ← parseUnion ns fuel left i
      return (if minus then .negate e else e, i)

def parseUnion (ns : Namespaces) : Nat → Expr → Input → Except Problem (Parsed Expr)
  | 0, _, _ => .error .tooDeep
  | fuel + 1, left, i =>
    match i.token with
    | .bar => do
      let (right, i) ← parsePath ns fuel (← advance i)
      parseUnion ns fuel (.union left right) i
    | _ => .ok (left, i)

def parsePath (ns : Namespaces) : Nat → Input → Except Problem (Parsed Expr)
  | 0, _ => .error .tooDeep
  | fuel + 1, i =>
    if startsPrimary i.token then do
      let (primary, i) ← parsePrimary ns fuel i
      let (predicates, i) ← parsePredicates ns fuel i
      let e := if predicates.isEmpty then primary else .filter primary predicates
      match i.token with
      | .slash => parseSteps ns fuel e (← advance i)
      | .slashSlash => parseSteps ns fuel (anywhere e) (← advance i)
      | _ => return (e, i)
    else match i.token with
      | .slash => do
        let i ← advance i
        if startsStep i.token then parseSteps ns fuel .root i else return (.root, i)
      | .slashSlash => do parseSteps ns fuel (anywhere .root) (← advance i)
      | _ => parseSteps ns fuel .context i

def parseSteps (ns : Namespaces) : Nat → Expr → Input → Except Problem (Parsed Expr)
  | 0, _, _ => .error .tooDeep
  | fuel + 1, input, i => do
    let (e, i) ← parseStep ns fuel input i
    match i.token with
    | .slash => parseSteps ns fuel e (← advance i)
    | .slashSlash => parseSteps ns fuel (anywhere e) (← advance i)
    | _ => return (e, i)

def parseStep (ns : Namespaces) : Nat → Expr → Input → Except Problem (Parsed Expr)
  | 0, _, _ => .error .tooDeep
  | fuel + 1, input, i =>
    let finish (axis : Axis) (test : Test) (i : Input) : Except Problem (Parsed Expr) := do
      let (predicates, i) ← parsePredicates ns fuel i
      return (.step input axis test predicates, i)
    match i.token with
    | .dot => do finish .self .node (← advance i)
    | .dotDot => do finish .parent .node (← advance i)
    | .at_ => do
      let (test, i) ← parseTest ns (← advance i)
      finish .attribute test i
    | .axis name => do
      let axis ← axisOf name
      let (test, i) ← parseTest ns (← advance i)
      finish axis test i
    | .openParen => do
      let (e, i) ← parseStep ns fuel input (← advance i)
      parseChoice ns fuel input e i
    | _ => do
      let (test, i) ← parseTest ns i
      finish .child test i

def parseChoice (ns : Namespaces) : Nat → Expr → Expr → Input → Except Problem (Parsed Expr)
  | 0, _, _, _ => .error .tooDeep
  | fuel + 1, input, left, i =>
    match i.token with
    | .comma => do
      let (right, i) ← parseStep ns fuel input (← advance i)
      parseChoice ns fuel input (.union left right) i
    | _ => do return (left, ← expect isCloseParen i)

def parsePredicates (ns : Namespaces) : Nat → Input → Except Problem (Parsed (List Expr))
  | 0, _ => .error .tooDeep
  | fuel + 1, i =>
    match i.token with
    | .openBracket => do
      let (e, i) ← parseLevel ns fuel 0 (← advance i)
      let i ← expect isCloseBracket i
      let (es, i) ← parsePredicates ns fuel i
      return (e :: es, i)
    | _ => .ok ([], i)

def parsePrimary (ns : Namespaces) : Nat → Input → Except Problem (Parsed Expr)
  | 0, _ => .error .tooDeep
  | fuel + 1, i =>
    match i.token with
    | .literal cs => do return (.literal (Utf8.ofChars cs), ← advance i)
    | .number x => do return (.number x, ← advance i)
    | .openParen => do
      let (e, i) ← parseLevel ns fuel 0 (← advance i)
      return (.filter e [], ← expect isCloseParen i)
    | .name _ name _ => do
      let i ← expect isOpenParen (← advance i)
      let (args, i) ← parseArgs ns fuel i
      return (← makeCall name args, i)
    | .dollar => .error .unboundVariable
    | _ => .error .unexpectedToken

def parseArgs (ns : Namespaces) : Nat → Input → Except Problem (Parsed (List Expr))
  | 0, _ => .error .tooDeep
  | fuel + 1, i =>
    match i.token with
    | .closeParen => do return ([], ← advance i)
    | _ => parseArgList ns fuel i

def parseArgList (ns : Namespaces) : Nat → Input → Except Problem (Parsed (List Expr))
  | 0, _ => .error .tooDeep
  | fuel + 1, i => do
    let (e, i) ← parseLevel ns fuel 0 i
    match i.token with
    | .closeParen => return ([e], ← advance i)
    | .comma =>
      let (es, i) ← parseArgList ns fuel (← advance i)
      return (e :: es, i)
    | _ => throw .unexpectedToken

end

def compile (ns : Namespaces) (text : Text) : Except Problem Expr := do
  if text.isEmpty then throw .empty
  let cs := Utf8.chars text
  let i ← advance ⟨.stop, cs⟩
  return (← parseLevel ns (16 * (cs.length + 2)) 0 i).1

end DocBridge.Query
