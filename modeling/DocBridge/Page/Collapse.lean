import DocBridge.Page.Node

/-
Dropping white space that only lays out the source of a page. A blank text is kept when it is the
only child, when it follows a text, or when its parent starts with another text.
-/
namespace DocBridge.Node

/-- A text of XML white space only. A non-breaking space is content. -/
def isBlank : Node → Bool
  | .text t => t.all Text.isSpace
  | _ => false

/-- Whether a blank child may go: `before` holds the children already kept, latest first. -/
def isIgnorable (before : List Node) (hasNext : Bool) : Bool :=
  match before.head?, before.getLast? with
  | some prev, some first => !prev.isText && !first.isText
  | _, _ => hasNext

def dropBlanks (before : List Node) : List Node → List Node
  | [] => before.reverse
  | c :: rest =>
    if c.isBlank && isIgnorable before !rest.isEmpty then dropBlanks before rest
    else dropBlanks (c :: before) rest

mutual

def collapse : Node → Node
  | .element tag cs => if tag.isVerbatim then .element tag cs else .element tag (dropBlanks [] (collapseAll cs))
  | n => n

def collapseAll : List Node → List Node
  | [] => []
  | c :: cs => collapse c :: collapseAll cs

end

end DocBridge.Node
