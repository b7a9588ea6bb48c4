import DocBridge.Markup.Name

/- The tokens of a path expression, read one at a time. -/
namespace DocBridge.Query

inductive Token where
  | comma | at_ | dot | dotDot | slash | slashSlash | openParen | closeParen | openBracket
  | closeBracket | star | plus | minus | eq | ne | lt | le | gt | ge | bang | dollar | bar
  | name (qualifier base : List Char) (call : Bool)
  | axis (name : List Char)
  | literal (cs : List Char)
  | number (x : Float)
  | stop
  deriving Repr

inductive Problem where
  | empty
  | badToken
  | unclosedLiteral
  | badName
  | expectedStep
  | unexpectedToken
  | unknownAxis (name : String)
  | unknownFunction (name : String)
  | wrongArity (name : String)
  | unboundQualifier (name : String)
  | unboundVariable
  | tooDeep
  deriving DecidableEq, Repr

def Problem.message : Problem → Text
  | .empty => "empty expression"
  | .badToken => "invalid token"
  | .unclosedLiteral => "unclosed string"
  | .badName => "invalid qualified name"
  | .expectedStep => "expression must evaluate to a node-set"
  | .unexpectedToken => "unexpected token"
  | .unknownAxis name => "unknown axis " ++ Text.ofString name
  | .unknownFunction name => "unknown function " ++ Text.ofString name
  | .wrongArity name => "wrong number of arguments for " ++ Text.ofString name
  | .unboundQualifier name => "prefix " ++ Text.ofString name ++ " not defined"
  | .unboundVariable => "undeclared variable"
  | .tooDeep => "expression too deep"

def isNameChar (c : Char) : Bool := c != ':' && (Markup.isNameChar c || c == '*')

def skipWhite (cs : List Char) : List Char := cs.dropWhile Utf8.isWhite

def decimal (whole fraction : List Char) : Float :=
  let digits := whole ++ fraction
  Float.ofScientific (digits.foldl (fun n c => n * 10 + (c.toNat - 48)) 0) true fraction.length

def takeDigits (cs : List Char) : List Char × List Char :=
  (cs.takeWhile Char.isDigit, cs.dropWhile Char.isDigit)

def scanNumber (cs : List Char) : Token × List Char :=
  let (whole, rest) := takeDigits cs
  match rest with
  | '.' :: rest =>
    let (fraction, rest) := takeDigits rest
    (.number (decimal whole fraction), rest)
  | _ => (.number (decimal whole []), rest)

/-- `foo:bar` is one token and may not hold blanks; `foo ::` may. -/
def scanName (cs : List Char) : Except Problem (Token × List Char) :=
  let name := cs.takeWhile isNameChar
  let rest := cs.dropWhile isNameChar
  let isCall (rest : List Char) : Bool := (skipWhite rest).head? == some '('
  match rest with
  | ':' :: ':' :: rest => .ok (.axis name, rest)
  | ':' :: '*' :: rest => .ok (.name name ['*'] (isCall rest), rest)
  | ':' :: rest =>
    let base := rest.takeWhile isNameChar
    let rest := rest.dropWhile isNameChar
    if base.isEmpty then .error .badName else .ok (.name name base (isCall rest), rest)
  | _ =>
    match skipWhite rest with
    | ':' :: ':' :: rest => .ok (.axis name, rest)
    | ':' :: _ => .error .badName
    | rest => .ok (.name [] name (isCall rest), rest)

def next (cs : List Char) : Except Problem (Token × List Char) :=
  match skipWhite cs with
  | [] => .ok (.stop, [])
  | ',' :: r => .ok (.comma, r)
  | '@' :: r => .ok (.at_, r)
  | '(' :: r => .ok (.openParen, r)
  | ')' :: r => .ok (.closeParen, r)
  | '|' :: r => .ok (.bar, r)
  | '*' :: r => .ok (.star, r)
  | '[' :: r => .ok (.openBracket, r)
  | ']' :: r => .ok (.closeBracket, r)
  | '+' :: r => .ok (.plus, r)
  | '-' :: r => .ok (.minus, r)
  | '=' :: r => .ok (.eq, r)
  | '$' :: r => .ok (.dollar, r)
  | '<' :: '=' :: r => .ok (.le, r)
  | '<' :: r => .ok (.lt, r)
  | '>' :: '=' :: r => .ok (.ge, r)
  | '>' :: r => .ok (.gt, r)
  | '!' :: '=' :: r => .ok (.ne, r)
  | '!' :: r => .ok (.bang, r)
  | '.' :: '.' :: r => .ok (.dotDot, r)
  | '.' :: r =>
    if (r.head?.map Char.isDigit).getD false then
      let (fraction, r) := takeDigits r
      .ok (.number (decimal [] fraction), r)
    else .ok (.dot, r)
  | '/' :: '/' :: r => .ok (.slashSlash, r)
  | '/' :: r => .ok (.slash, r)
  | c :: r =>
    if c == '"' || c == '\'' then
      match r.dropWhile (· != c) with
      | [] => .error .unclosedLiteral
      | _ :: rest => .ok (.literal (r.takeWhile (· != c)), rest)
    else if c.isDigit then .ok (scanNumber (c :: r))
    else if isNameChar c then scanName (c :: r)
    else .error .badToken

end DocBridge.Query
