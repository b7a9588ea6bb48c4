import DocBridge.Page.Node

/- Writing a tree out, without any reformatting. -/
namespace DocBridge

namespace Escape

def textByte (b : UInt8) : Text :=
  if b == 0x26 then "&amp;" else if b == 0x3C then "&lt;" else if b == 0x3E then "&gt;" else [b]

def attrByte (b : UInt8) : Text := if b == 0x22 then "&quot;" else textByte b

def text (s : Text) : Text := s.flatMap textByte

def attr (s : Text) : Text := s.flatMap attrByte

end Escape

def Attr.render (a : Attr) : Text :=
  " " ++ Tag.qualified a.qualifier a.name ++ "=\"" ++ Escape.attr a.value ++ "\""

def Tag.render (t : Tag) : Text := "<" ++ t.fullName ++ t.attrs.flatMap Attr.render

namespace Node

mutual

/-- An empty element is closed at once only if HTML lets it have no content; others keep an end
tag, so that HTML readers see the same page. -/
def render : Node → Text
  | .text t => Escape.text t
  | .cdata t => "<![CDATA[" ++ t ++ "]]>"
  | .comment t => "<!--" ++ t ++ "-->"
  | .directive t => "<!" ++ t ++ ">"
  | .instruction target data =>
    "<?" ++ target ++ (if data.isEmpty then [] else 0x20 :: data) ++ "?>"
  | .declaration => []
  | .element tag cs =>
    if cs.isEmpty && tag.isVoid then tag.render ++ "/>"
    else tag.render ++ ">" ++ renderAll cs ++ "</" ++ tag.fullName ++ ">"

def renderAll : List Node → Text
  | [] => []
  | c :: cs => render c ++ renderAll cs

end

end Node
end DocBridge
