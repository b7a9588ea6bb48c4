import DocBridge.Pattern.Basic
import DocBridge.Text.Utf8

/-
The rules that turn the text of a PHPDoc comment into Doxygen's dialect. A rule maps the whole
text of a comment to a text.
-/
namespace DocBridge.Rule

open Text Pattern

abbrev Pat := Pattern UInt8

def lit (s : String) : Pat := word (ofString s)

def isWordByte (b : UInt8) : Bool := isDigit b || isLetter b || b == 0x5F

def isGap (b : UInt8) : Bool := isSpace b || b == 0x0C

def notNewline (b : UInt8) : Bool := b != 0x0A

def dots : Pat := .star true (.one notNewline)

def gaps : Pat := plus true (.one isGap)

def words : Pat := plus true (.one isWordByte)

def separatorsFrom (afterSlash : Bool) : Text → Text
  | [] => []
  | b :: rest =>
    if b == 0x5C then
      if afterSlash || rest.head? == some 0x5C then b :: separatorsFrom true rest
      else "::" ++ separatorsFrom true rest
    else b :: separatorsFrom false rest

/-- A lone backslash separates namespaces and becomes `::`. Runs of backslashes are escaped
literals and stay. -/
def namespaceSeparators (text : Text) : Text := separatorsFrom false text

def propertyLinkPattern : Pat := seqs [lit "\x7b@link ", .group 1 words, lit "\x7d"]

def propertyLinks (text : Text) : Text :=
  propertyLinkPattern.replace (fun m => "\x7b@link $" ++ m.group 1 ++ "\x7d") text

def isUrlByte (b : UInt8) : Bool :=
  isWordByte b || b == 0x2F || b == 0x2E || b == 0x25 || b == 0x23 || b == 0x2D

def url (greedy : Bool) : Pat :=
  .group 1 (seqs [.star false (.one notNewline), lit "://", plus greedy (.one isUrlByte)])

def linkText : Pat := opt true (.group 2 (.seq (.one isGap) (.group 3 dots)))

def inlineLinkPattern : Pat := seqs [lit "\x7b@link", gaps, url false, linkText, lit "\x7d"]

def blockLinkPattern : Pat := seqs [lit "@link", gaps, url true, linkText]

/-- An anchor for `href`. The first line of `rest` is its text, `href` itself if that line is
blank; further lines follow the anchor. -/
def renderLink (href rest : Text) : Text :=
  let lines := splitOn 0x0A rest
  let shown := Utf8.trimWhite (lines.headD [])
  "<a href=\"" ++ href ++ "\">" ++ (if shown.isEmpty then href else shown) ++ "</a>"
    ++ (lines.drop 1).flatMap (0x0A :: ·)

def inlineUrlLinks (text : Text) : Text :=
  inlineLinkPattern.replace (fun m => renderLink (m.group 1) (m.group 2)) text

def blockUrlLinks (text : Text) : Text :=
  blockLinkPattern.replace (fun m => renderLink (m.group 1) (m.group 2)) text

/-- The first line gets a file command, so that the block belongs to the file and not to the
declaration after it. -/
def fileCommand (text : Text) : Text := replaceFirst "\n" " @file\n" text

def licenseCommand (text : Text) : Text := replaceAll "@license" "@copyright" text

def typedArrayVarPattern : Pat :=
  seqs [lit "*", .group 1 dots, lit "\n", .group 2 dots, lit "@var ", .group 3 dots, lit "[]"]

def typedArrayVars (text : Text) : Text :=
  typedArrayVarPattern.replace
    (fun m => "* " ++ m.group 3 ++ "[ ]" ++ m.group 1 ++ "\n" ++ m.group 2 ++ "@var array") text

def varLinePattern : Pat := .seq (lit "@var ") dots

/-- On a line that closes the comment the name goes before the terminator and the blanks in front
of it. -/
def annotateLine (name line : Text) : Text :=
  match cutEnd? "*/" line with
  | none => line ++ " " ++ name
  | some body =>
    let body := trimEnd isBlank body
    body ++ " " ++ name ++ line.drop body.length

def annotateVar (name text : Text) : Text :=
  varLinePattern.replace (fun m => annotateLine name m.text) text

def notGap (b : UInt8) : Bool := !isGap b

def solid : Pat := plus true (.one notGap)

def typedArrayParamPattern : Pat :=
  seqs [lit "@param ", .group 1 solid, lit "[] ", .group 2 (.seq (lit "$") solid)]

def typedArrayParams (text : Text) : Text :=
  typedArrayParamPattern.replace
    (fun m => "@param array " ++ m.group 2 ++ " " ++ m.group 1 ++ "[ ]") text

def internalPattern : Pat := .seq (lit "@internal") (.group 1 (.one isGap))

def internalCommand (text : Text) : Text :=
  internalPattern.replace (fun m => "@private" ++ m.group 1) text

def isTypeByte (b : UInt8) : Bool := isWordByte b || b == 0x3A

def propertyPatternFor (command : String) : Pat :=
  seqs [lit command, gaps,
    .group 1 (.seq (plus true (.one isTypeByte)) (opt true (.group 2 (lit "[]")))), gaps,
    opt true (lit "$"), .group 3 words, .group 4 dots]

def propertyPattern : Pat := propertyPatternFor "@property"

def propertyReadPattern : Pat := propertyPatternFor "@property-read"

def properties (text : Text) : Text :=
  propertyPattern.replace
    (fun m => "@remark Property <b>" ++ m.group 3 ++ "</b> <em>(" ++ m.group 1 ++ ")</em>"
      ++ m.group 4) text

def readOnlyProperties (text : Text) : Text :=
  propertyReadPattern.replace
    (fun m => "@remark Property <b>" ++ m.group 3 ++ "</b> <em>(" ++ m.group 1
      ++ ", readonly)</em>" ++ m.group 4) text

def isTypeListByte (b : UInt8) : Bool := isTypeByte b || b == 0x5B || b == 0x5D || b == 0x7C

def returnPattern : Pat :=
  seqs [lit "@return", opt true (lit "s"), gaps, .group 1 (plus true (.one isTypeListByte))]

def isTypedArray (type : Text) : Bool := (ofString "[]").isSuffixOf type

/-- The command for a list of types. Typed arrays are listed as plain ones; the list as written
follows when that changes anything. -/
def retval (types : Text) : Text :=
  let alternatives := splitOn 0x7C types
  let plain := alternatives.map fun t => if isTypedArray t then ofString "array" else t
  "@retval " ++ join " | " plain
    ++ (if alternatives.any isTypedArray then " " ++ join " | " alternatives else [])

def returns (text : Text) : Text := returnPattern.replace (fun m => retval (m.group 1)) text

def inheritdoc (text : Text) : Text := replaceAll "\x7b@inheritdoc\x7d" "@inheritdoc" text

end DocBridge.Rule
