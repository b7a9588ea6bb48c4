import DocBridge.Charset
import DocBridge.Page.Build
import DocBridge.Page.Collapse
import DocBridge.Page.Preamble
import DocBridge.Page.Render

/-
A page: what stands before its root element as written, and the tree of the rest.
-/
namespace DocBridge

structure Document where
  preamble : Text
  charset : Charset
  nodes : List Node

namespace Document

inductive ParseError where
  | unsupportedEncoding (label : Text)
  | malformed (p : Markup.Problem)
  deriving DecidableEq, Repr

def ParseError.message : ParseError → Text
  | .unsupportedEncoding label => "unsupported encoding \"" ++ label ++ "\""
  | .malformed p => p.message

def parseBody (strict : Bool) (body : Text) : Except Markup.Problem (List Node) := do
  Build.nodes strict (← Markup.tokens strict body)

def charsetOf (preamble : Text) : Except ParseError Charset :=
  let label := Preamble.encodingLabel preamble
  if label.isEmpty then .ok .utf8
  else match Charset.ofLabel? label with
    | some charset => .ok charset
    | none => .error (.unsupportedEncoding label)

def parse (lenient : Bool) (page : Text) : Except ParseError Document := do
  let (preamble, body) := Preamble.split page
  let charset ← charsetOf preamble
  match parseBody (!lenient) (charset.decode body) with
  | .ok nodes => return { preamble := preamble, charset := charset, nodes := nodes }
  | .error p => throw (.malformed p)

def render (d : Document) : Text := d.preamble ++ d.charset.encode (Node.renderAll d.nodes)

def mapFirstElement (f : Node → Node) : List Node → List Node
  | [] => []
  | n :: rest => if n.isElement then f n :: rest else n :: mapFirstElement f rest

def mapRoot (f : Node → Node) (d : Document) : Document :=
  { d with nodes := mapFirstElement f d.nodes }

def root? (d : Document) : Option Node := d.nodes.find? Node.isElement

end Document
end DocBridge
