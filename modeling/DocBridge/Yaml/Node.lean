import DocBridge.Yaml.Token

/- The tree of a YAML document. Only the first document of a stream is read. -/
namespace DocBridge.Yaml

inductive Node where
  | scalar (tag : Option Text) (style : Style) (text : Text)
  | sequence (items : List Node)
  | mapping (pairs : List (Node × Node))
  deriving Repr

namespace Node

def nothing : Node := .scalar none .plain []

end Node

structure Feed where
  tokens : List Token
  anchors : List (Text × Node) := []

namespace Feed

def head? (f : Feed) : Option Token := f.tokens.head?

def skip (f : Feed) : Feed := { f with tokens := f.tokens.drop 1 }

def bind (f : Feed) (anchor : Option Text) (n : Node) : Feed :=
  match anchor with
  | some name => { f with anchors := (name, n) :: f.anchors }
  | none => f

end Feed

structure Properties where
  anchor : Option Text := none
  tag : Option Text := none

def properties (f : Feed) : Properties × Feed :=
  match f.tokens with
  | .anchor a :: .tag t :: rest => (⟨some a, some t⟩, { f with tokens := rest })
  | .tag t :: .anchor a :: rest => (⟨some a, some t⟩, { f with tokens := rest })
  | .anchor a :: rest => (⟨some a, none⟩, { f with tokens := rest })
  | .tag t :: rest => (⟨none, some t⟩, { f with tokens := rest })
  | _ => ({}, f)

def isOneOf (ts : List Token) (f : Feed) : Bool := f.head?.all ts.contains

mutual

/-- A node. Block collections are allowed in blocks only; a sequence that is not indented only as
the value or key of a block mapping. -/
def parseNode (inBlock unindented : Bool) : Nat → Feed → Except Problem (Node × Feed)
  | 0, _ => .error .tooDeep
  | fuel + 1, f =>
    match f.tokens with
    | .alias name :: _ =>
      match f.anchors.lookup name with
      | some n => .ok (n, f.skip)
      | none => .error .unknownAnchor
    | _ => do
      let (p, f) := properties f
      let content : Except Problem (Node × Feed) :=
        match f.head? with
        | some (.scalar style text) => .ok (.scalar p.tag style text, f.skip)
        | some .flowSequenceStart => parseFlowSequence fuel true f.skip []
        | some .flowMappingStart => parseFlowMapping fuel true f.skip []
        | some .entry => if unindented then parseUnindented fuel f [] else empty p f
        | some .sequenceStart => if inBlock then parseSequence fuel f.skip [] else empty p f
        | some .mappingStart => if inBlock then parseMapping fuel f.skip [] else empty p f
        | _ => empty p f
      let (n, f) ← content
      return (n, f.bind p.anchor n)
where
  empty (p : Properties) (f : Feed) : Except Problem (Node × Feed) :=
    if p.anchor.isSome || p.tag.isSome then .ok (.scalar p.tag .plain [], f)
    else .error .expectedNode

def parseUnless (stops : List Token) (inBlock unindented : Bool) : Nat → Feed →
    Except Problem (Node × Feed)
  | 0, _ => .error .tooDeep
  | fuel + 1, f =>
    if isOneOf stops f then .ok (.nothing, f) else parseNode inBlock unindented fuel f

def parseSequence : Nat → Feed → List Node → Except Problem (Node × Feed)
  | 0, _, _ => .error .tooDeep
  | fuel + 1, f, items =>
    match f.head? with
    | some .entry => do
      let (n, f) ← parseUnless [.entry, .blockEnd] true false fuel f.skip
      parseSequence fuel f (items ++ [n])
    | some .blockEnd => .ok (.sequence items, f.skip)
    | _ => .error .expectedEntry

def parseUnindented : Nat → Feed → List Node → Except Problem (Node × Feed)
  | 0, _, _ => .error .tooDeep
  | fuel + 1, f, items =>
    match f.head? with
    | some .entry => do
      let (n, f) ← parseUnless [.entry, .key, .value, .blockEnd] true false fuel f.skip
      parseUnindented fuel f (items ++ [n])
    | _ => .ok (.sequence items, f)

def parseMapping : Nat → Feed → List (Node × Node) → Except Problem (Node × Feed)
  | 0, _, _ => .error .tooDeep
  | fuel + 1, f, pairs =>
    match f.head? with
    | some .key => do
      let (k, f) ← parseUnless [.key, .value, .blockEnd] true true fuel f.skip
      let (v, f) ← parseBlockValue fuel f
      parseMapping fuel f (pairs ++ [(k, v)])
    | some .blockEnd => .ok (.mapping pairs, f.skip)
    | _ => .error .expectedKey

def parseBlockValue : Nat → Feed → Except Problem (Node × Feed)
  | 0, _ => .error .tooDeep
  | fuel + 1, f =>
    match f.head? with
    | some .value => parseUnless [.key, .value, .blockEnd] true true fuel f.skip
    | _ => .ok (.nothing, f)

def parseFlowSequence : Nat → (first : Bool) → Feed → List Node → Except Problem (Node × Feed)
  | 0, _, _, _ => .error .tooDeep
  | fuel + 1, first, f, items =>
    if f.head? == some .flowSequenceEnd then .ok (.sequence items, f.skip)
    else if !first && f.head? != some .flowEntry then .error .expectedSeparator
    else
      let f := if first then f else f.skip
      match f.head? with
      | some .flowSequenceEnd => .ok (.sequence items, f.skip)
      | some .key => do
        let stops := [.value, .flowEntry, .flowSequenceEnd]
        let (k, f) ← parseUnless stops false false fuel f.skip
        let (v, f) ← parseFlowValue fuel .flowSequenceEnd f
        parseFlowSequence fuel false f (items ++ [.mapping [(k, v)]])
      | _ => do
        let (n, f) ← parseNode false false fuel f
        parseFlowSequence fuel false f (items ++ [n])

def parseFlowMapping : Nat → (first : Bool) → Feed → List (Node × Node) →
    Except Problem (Node × Feed)
  | 0, _, _, _ => .error .tooDeep
  | fuel + 1, first, f, pairs =>
    if f.head? == some .flowMappingEnd then .ok (.mapping pairs, f.skip)
    else if !first && f.head? != some .flowEntry then .error .expectedSeparator
    else
      let f := if first then f else f.skip
      match f.head? with
      | some .flowMappingEnd => .ok (.mapping pairs, f.skip)
      | some .key => do
        let stops := [.value, .flowEntry, .flowMappingEnd]
        let (k, f) ← parseUnless stops false false fuel f.skip
        let (v, f) ← parseFlowValue fuel .flowMappingEnd f
        parseFlowMapping fuel false f (pairs ++ [(k, v)])
      | _ => do
        let (k, f) ← parseNode false false fuel f
        parseFlowMapping fuel false f (pairs ++ [(k, .nothing)])

def parseFlowValue : Nat → (closing : Token) → Feed → Except Problem (Node × Feed)
  | 0, _, _ => .error .tooDeep
  | fuel + 1, closing, f =>
    match f.head? with
    | some .value => parseUnless [.flowEntry, closing] false false fuel f.skip
    | _ => .ok (.nothing, f)

end

def openDocument (f : Feed) : Except Problem (Feed × Bool) :=
  let directives := f.tokens.takeWhile fun
    | .directive _ => true
    | _ => false
  let rest := f.tokens.drop directives.length
  if directives.any (· == .directive false) then .error .badDirective
  else match rest with
    | .documentStart :: rest => .ok ({ f with tokens := rest }, true)
    | _ => if directives.isEmpty then .ok (f, false) else .error .expectedDocument

/-- Two tokens behind the end of the document are looked at, so a problem there counts. -/
def reaches (f : Feed) (problem : Option Problem) : Except Problem Unit :=
  match problem with
  | some p => if f.tokens.length < 3 then .error p else .ok ()
  | none => .ok ()

def document (text : Text) : Except Problem (Option Node) := do
  let (ts, problem) := tokens (← Reader.ofText text)
  match ts, problem with
  | [], some p => throw p
  | _, _ =>
    let fuel := 4 * (ts.length + 4)
    let orProblem {α : Type} (e : Except Problem α) : Except Problem α :=
      e.mapError fun p => problem.getD p
    let (f, marked) ← openDocument { tokens := ts }
    let ends := [.directive true, .directive false, .documentStart, .documentEnd, .streamEnd]
    if !marked && f.head? == some .streamEnd then return none
    if marked && isOneOf ends f then
      reaches f problem
      return some .nothing
    let (n, f) ← orProblem (parseNode true false fuel f)
    reaches f problem
    return some n

end DocBridge.Yaml
