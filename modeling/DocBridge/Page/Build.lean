import DocBridge.Markup.Token
import DocBridge.Page.Node

/-
From tokens to the tree of a page: matching tags, closing what a lenient reading leaves open, and
telling which qualifier each name is written with.
-/
namespace DocBridge.Build

open Markup

abbrev Scope := List (Text × Text)

structure Binding where
  uri : Text
  qualifier : Text
  depth : Nat
  deriving DecidableEq, Repr

structure Frame where
  written : QName
  tag : Tag
  outer : Scope
  declares : Bool
  children : List Node

structure State where
  scope : Scope := []
  bindings : List Binding
  frames : List Frame := []
  top : List Node := []
  /-- An element or instruction has been seen; what comes before is not part of the tree. -/
  begun : Bool := false

def xmlUri : Text := "http://www.w3.org/XML/1998/namespace"

def start : State := { bindings := [⟨xmlUri, "xml", 0⟩] }

def xmlns : Text := "xmlns"

def lookupUri (scope : Scope) (qualifier : Text) : Text := (scope.lookup qualifier).getD qualifier

def elementUri (scope : Scope) (q : QName) : Text :=
  if q.qualifier == xmlns then q.qualifier
  else if q.qualifier.isEmpty && q.name == xmlns then []
  else if q.qualifier == Text.ofString "xml" then lookupUri scope xmlUri
  else lookupUri scope q.qualifier

def attrUri (scope : Scope) (q : QName) : Text :=
  if q.qualifier.isEmpty then [] else elementUri scope q

def declare (scope : Scope) (attrs : List (QName × Text)) : Scope :=
  attrs.foldl
    (fun scope (q, value) =>
      if q.qualifier == xmlns then (q.name, value) :: scope
      else if q.qualifier.isEmpty && q.name == xmlns then ([], value) :: scope
      else scope)
    scope

def isDeclaration (q : QName) : Bool :=
  q.qualifier == xmlns || (q.qualifier.isEmpty && q.name == xmlns)

def binding? (bindings : List Binding) (uri : Text) : Option Binding :=
  bindings.find? (·.uri == uri)

/-- A default declaration gives way to a binding made further out. -/
def bind (depth : Nat) (bindings : List Binding) (q : QName) (value : Text) : List Binding :=
  if q.name == xmlns then
    match binding? bindings value with
    | some b => if depth ≤ b.depth then ⟨value, [], depth⟩ :: bindings else bindings
    | none => ⟨value, [], depth⟩ :: bindings
  else if q.qualifier == xmlns then ⟨value, q.name, depth⟩ :: bindings
  else bindings

def bindAll (depth : Nat) (bindings : List Binding) (attrs : List (QName × Text)) :
    List Binding :=
  attrs.foldl (fun bindings (q, value) => bind depth bindings q value) bindings

def attrQualifier (bindings : List Binding) (uri : Text) : Text :=
  ((binding? bindings uri).map (·.qualifier)).getD uri

def buildAttr (scope : Scope) (bindings : List Binding) : QName × Text → Attr
  | (q, value) =>
    let uri := attrUri scope q
    { qualifier := attrQualifier bindings uri, name := q.name, uri := uri, value := value }

/-- An element keeps its qualifier only if that is the one bound to its namespace. `fresh` is
false right after an element that was closed on its own: the tag's source is out of sight then. -/
def elementQualifier (bindings : List Binding) (fresh : Bool) (q : QName) (uri : Text) : Text :=
  if fresh && !uri.isEmpty && !q.qualifier.isEmpty
      && (binding? bindings uri).any (·.qualifier == q.qualifier) then q.qualifier
  else []

def append (s : State) (n : Node) : State :=
  match s.frames with
  | [] => { s with top := n :: s.top }
  | f :: rest => { s with frames := { f with children := n :: f.children } :: rest }

def appendContent (s : State) (n : Node) : State := if s.begun then append s n else s

def closeFrame (s : State) : State :=
  match s.frames with
  | [] => s
  | f :: rest =>
    append { s with frames := rest, scope := f.outer } (.element f.tag f.children.reverse)

def autoClosed : List Text :=
  ["basefont", "br", "area", "link", "img", "param", "hr", "input", "col", "frame", "isindex",
    "base", "meta"]

def foldChar (c : Char) : Char := if c.toNat = 0x17F then 's' else Utf8.lowerChar c

def sameFold (a b : Text) : Bool := (Utf8.chars a).map foldChar == (Utf8.chars b).map foldChar

def isAutoClosed (name : Text) : Bool := autoClosed.any (sameFold name)

def closes (name : Text) : Token → Bool
  | .endTag q => sameFold q.name name
  | _ => false

def autoClose (token : Token) : Nat → State → State × Bool
  | 0, s => (s, false)
  | fuel + 1, s =>
    match s.frames with
    | [] => (s, false)
    | f :: _ =>
      if isAutoClosed f.written.name && !closes f.written.name token then
        ((autoClose token fuel (closeFrame s)).1, true)
      else (s, false)

/-- Closes up to the element that an end tag names. A lenient reading closes others on the way, but
none that declares a namespace. -/
def closeTag (strict : Bool) (q : QName) : Nat → State → Except Problem State
  | 0, _ => .error .unmatchedEndTag
  | fuel + 1, s =>
    let s := if strict then s else (autoClose (.endTag q) s.frames.length s).1
    match s.frames with
    | [] => .error .unmatchedEndTag
    | f :: _ =>
      if f.written.name == q.name then
        if f.written.qualifier == q.qualifier then .ok (closeFrame s) else .error .unmatchedEndTag
      else if strict || f.declares then .error .unmatchedEndTag
      else closeTag strict q fuel (closeFrame s)

/-- The top level starts with a declaration unless an instruction came first. -/
def begin_ (s : State) : State :=
  if s.begun then s else { s with begun := true, top := .declaration :: s.top }

def openTag (strict fresh : Bool) (q : QName) (attrs : List (QName × Text)) (s : State) :
    Except Problem State :=
  let s := begin_ s
  let scope := declare s.scope attrs
  let uri := elementUri scope q
  -- declarations are told by the names as they are after resolution
  let resolved := attrs.map fun (a, value) =>
    ((if isDeclaration a then a else ⟨attrUri scope a, a.name⟩ : QName), value)
  let bindings := bindAll (s.frames.length + 1) s.bindings resolved
  if strict && !uri.isEmpty && (binding? bindings uri).isNone then .error .unboundQualifier
  else
    let tag : Tag :=
      { qualifier := elementQualifier bindings fresh q uri
        name := q.name
        uri := uri
        attrs := attrs.map (buildAttr scope bindings) }
    let frame : Frame :=
      { written := q, tag := tag, outer := s.scope, declares := attrs.any (isDeclaration ·.1)
        children := [] }
    .ok { s with scope := scope, bindings := bindings, frames := frame :: s.frames }

def addToken (strict : Bool) (s : State) (token : Token) : Except Problem State :=
  let (s, closedAny) := if strict then (s, false) else autoClose token s.frames.length s
  match token with
  | .chars data section_ =>
    .ok (appendContent s (if section_ && !closedAny then .cdata data else .text data))
  | .comment data => .ok (appendContent s (.comment data))
  | .directive data => .ok (appendContent s (.directive data))
  | .instruction target data =>
    let node : Node :=
      if target == Text.ofString "xml" then .declaration
      else .instruction target (Utf8.trimWhite data)
    .ok (append { s with begun := true } node)
  | .startTag q attrs closed => do
    let s ← openTag strict (!closedAny) q attrs s
    return if closed then closeFrame s else s
  | .endTag q => closeTag strict q (s.frames.length + 1) s

def finish (s : State) : Except Problem (List Node) :=
  if !s.frames.isEmpty then .error .unexpectedEnd
  else if s.top.any Node.isElement then .ok s.top.reverse
  else .error .noElement

def nodes (strict : Bool) (tokens : List Token) : Except Problem (List Node) := do
  finish (← tokens.foldlM (addToken strict) start)

end DocBridge.Build
