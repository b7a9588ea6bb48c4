import DocBridge.Text

/-
The tree of a page, with what the fixes read and change in it.
-/
namespace DocBridge

structure Attr where
  qualifier : Text := []
  name : Text
  uri : Text := []
  value : Text
  deriving DecidableEq, Repr

structure Tag where
  qualifier : Text := []
  name : Text
  uri : Text := []
  attrs : List Attr := []
  deriving DecidableEq, Repr

inductive Node where
  | text (t : Text)
  | cdata (t : Text)
  | comment (t : Text)
  | directive (t : Text)
  | instruction (target data : Text)
  /-- The XML declaration. It is part of the tree but never written out. -/
  | declaration
  | element (tag : Tag) (children : List Node)
  deriving Repr

namespace Tag

def qualified (qualifier name : Text) : Text :=
  if qualifier.isEmpty then name else qualifier ++ ":" ++ name

def fullName (t : Tag) : Text := qualified t.qualifier t.name

def attr? (t : Tag) (key : Text) : Option Text :=
  (t.attrs.find? fun a => a.qualifier.isEmpty && a.name == key).map Attr.value

def setIn (key value : Text) : List Attr → List Attr
  | [] => [{ name := key, value := value }]
  | a :: rest =>
    if a.qualifier.isEmpty && a.name == key then { a with value := value } :: rest
    else a :: setIn key value rest

/-- Changes the attribute that `attr?` reads, or adds it at the end. -/
def setAttr (t : Tag) (key value : Text) : Tag := { t with attrs := setIn key value t.attrs }

def voidNames : List Text :=
  ["area", "base", "br", "col", "embed", "hr", "img", "input", "link", "meta", "param", "source",
    "track", "wbr"]

def isVoid (t : Tag) : Bool := t.qualifier.isEmpty && voidNames.contains t.name

def verbatimNames : List Text := ["pre", "script", "style", "textarea"]

def isVerbatim (t : Tag) : Bool := verbatimNames.contains t.name

end Tag

namespace Node

def isText : Node → Bool
  | .text _ => true
  | _ => false

def isElement : Node → Bool
  | .element _ _ => true
  | _ => false

def children : Node → List Node
  | .element _ cs => cs
  | _ => []

def mapTag (f : Tag → Tag) : Node → Node
  | .element tag cs => .element (f tag) cs
  | n => n

def setText (t : Text) : Node → Node
  | .element tag _ => .element tag [.text t]
  | n => n

def attr? (n : Node) (key : Text) : Option Text :=
  match n with
  | .element tag _ => tag.attr? key
  | _ => none

mutual

def innerText : Node → Text
  | .text t => t
  | .cdata t => t
  | .element _ cs => innerTexts cs
  | _ => []

def innerTexts : List Node → Text
  | [] => []
  | c :: cs => innerText c ++ innerTexts cs

end

end Node
end DocBridge
