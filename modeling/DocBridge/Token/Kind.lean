import DocBridge.Text

/- The kinds of PHP tokens the filter tells apart, with their names. -/
namespace DocBridge

inductive Keyword where
  | namespaceKw | useKw | classKw | interfaceKw | traitKw | enumKw | functionKw | fnKw
  | constKw | varKw | publicKw | protectedKw | privateKw | staticKw | readonlyKw
  | abstractKw | finalKw
  deriving DecidableEq, Repr

namespace Keyword

def all : List Keyword :=
  [.namespaceKw, .useKw, .classKw, .interfaceKw, .traitKw, .enumKw, .functionKw, .fnKw,
    .constKw, .varKw, .publicKw, .protectedKw, .privateKw, .staticKw, .readonlyKw,
    .abstractKw, .finalKw]

def word : Keyword → Text
  | .namespaceKw => "namespace"
  | .useKw => "use"
  | .classKw => "class"
  | .interfaceKw => "interface"
  | .traitKw => "trait"
  | .enumKw => "enum"
  | .functionKw => "function"
  | .fnKw => "fn"
  | .constKw => "const"
  | .varKw => "var"
  | .publicKw => "public"
  | .protectedKw => "protected"
  | .privateKw => "private"
  | .staticKw => "static"
  | .readonlyKw => "readonly"
  | .abstractKw => "abstract"
  | .finalKw => "final"

def ofWord? (w : Text) : Option Keyword := all.find? (·.word == w)

end Keyword

inductive Kind where
  | char
  | inlineHtml
  | openTag
  | openEchoTag
  | closeTag
  | whitespace
  | comment
  | docComment
  | attributeOpen
  | variableName
  | name
  | number
  | stringLiteral
  | heredoc
  | operator
  | keyword (k : Keyword)
  deriving DecidableEq, Repr

namespace Kind

def all : List Kind :=
  [.char, .inlineHtml, .openTag, .openEchoTag, .closeTag, .whitespace, .comment, .docComment,
    .attributeOpen, .variableName, .name, .number, .stringLiteral, .heredoc, .operator]
    ++ Keyword.all.map .keyword

def label : Kind → Text
  | .char => "char"
  | .inlineHtml => "inline_html"
  | .openTag => "open_tag"
  | .openEchoTag => "open_tag_with_echo"
  | .closeTag => "close_tag"
  | .whitespace => "whitespace"
  | .comment => "comment"
  | .docComment => "doc_comment"
  | .attributeOpen => "attribute"
  | .variableName => "variable"
  | .name => "name"
  | .number => "number"
  | .stringLiteral => "string"
  | .heredoc => "heredoc"
  | .operator => "operator"
  | .keyword k => k.word

def isKeyword : Kind → Bool
  | .keyword _ => true
  | _ => false

def ofCode? (code : Nat) : Option Kind := all[code]?

def labelOfCode (code : Nat) : Text := ((ofCode? code).map label).getD "unknown"

/-- White space and comments do not end a member access. -/
def isTrivia : Kind → Bool
  | .whitespace | .comment | .docComment => true
  | _ => false

end Kind
end DocBridge
