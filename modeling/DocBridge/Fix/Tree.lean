import DocBridge.Query.Eval

/-
Changes to the tree of a page. The elements of a selection are known before any of them changes;
an element inside one whose content was replaced still gets its change and counts, although it has
left the page.
-/
namespace DocBridge.Fix

open Query (Path Tree nodeAt?)

def doxygenSeparator : Text := "::"

def phpSeparator : Text := "\\"

def hasSeparator (t : Text) : Bool := Text.contains doxygenSeparator t

def restoreSeparators (t : Text) : Text := Text.replaceAll doxygenSeparator phpSeparator t

/-- The new texts of elements, latest first. -/
abbrev Edits := List (Path × Text)

mutual

def textUnder (edits : Edits) (path : Path) : Node → Text
  | .text t => t
  | .cdata t => t
  | .element _ cs =>
    match edits.lookup path with
    | some t => t
    | none => textsUnder edits path 0 cs
  | _ => []

def textsUnder (edits : Edits) (path : Path) (i : Nat) : List Node → Text
  | [] => []
  | c :: cs => textUnder edits (path ++ [i]) c ++ textsUnder edits path (i + 1) cs

end

mutual

def applyEdits (edits : Edits) (path : Path) : Node → Node
  | .element tag cs =>
    match edits.lookup path with
    | some t => .element tag [.text t]
    | none => .element tag (applyEditsIn edits path 0 cs)
  | n => n

def applyEditsIn (edits : Edits) (path : Path) (i : Nat) : List Node → List Node
  | [] => []
  | c :: cs => applyEdits edits (path ++ [i]) c :: applyEditsIn edits path (i + 1) cs

end

def modifyAt (f : Node → Node) : Path → Tree → Tree
  | [], t => t
  | [i], t => t.modify i f
  | i :: rest, t =>
    t.modify i fun
      | .element tag cs => .element tag (modifyAt f rest cs)
      | n => n

def editText (t : Tree) (s : Edits × Nat) (path : Path) : Edits × Nat :=
  match nodeAt? t path with
  | none => s
  | some n =>
    let text := textUnder s.1 path n
    if hasSeparator text then ((path, restoreSeparators text) :: s.1, s.2 + 1) else s

def fixTexts (t : Tree) (selected : List Path) : Tree × Nat :=
  let (edits, n) := selected.foldl (editText t) ([], 0)
  (applyEditsIn edits [] 0 t, n)

def fixAttributes (key : Text) (change : Option Text → Option Text) (t : Tree)
    (selected : List Path) : Tree × Nat :=
  selected.foldl
    (fun (t, n) path =>
      match (nodeAt? t path).bind fun node => change (node.attr? key) with
      | some value => (modifyAt (Node.mapTag (·.setAttr key value)) path t, n + 1)
      | none => (t, n))
    (t, 0)

end DocBridge.Fix
