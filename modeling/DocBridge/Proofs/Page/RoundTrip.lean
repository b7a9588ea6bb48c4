import DocBridge.Page.Document
import DocBridge.Proofs.Markup.Spelling
import DocBridge.Proofs.Page.Preamble

/-
Reading back what was written. The spelling of a tree is a list of tokens; a strict reading of the
written tree finds these tokens, and the tree that they build is the one that was written.
-/
namespace DocBridge

open Markup Text

def Tag.isWritable (t : Tag) : Bool :=
  t.qualifier.isEmpty && t.uri.isEmpty && isPlainName t.name && t.attrs.all Attr.isWritable

def Tag.spelled (t : Tag) (closed : Bool) : Token :=
  .startTag ⟨[], t.name⟩ (t.attrs.map Attr.spelled) closed

theorem Tag.writable {t : Tag} (writable : t.isWritable = true) :
    (t.qualifier = [] ∧ t.uri = []) ∧ isPlainName t.name = true ∧
      t.attrs.all Attr.isWritable = true := by
  simpa only [Tag.isWritable, Bool.and_eq_true, List.isEmpty_iff, and_assoc] using writable

theorem Tag.fullName_writable {t : Tag} (writable : t.isWritable = true) : t.fullName = t.name := by
  rw [Tag.fullName, Tag.qualified, (Tag.writable writable).1.1]
  rfl

theorem Tag.render_writable {t : Tag} (writable : t.isWritable = true) :
    t.render = 0x3C :: (t.name ++ t.attrs.flatMap Attr.render) := by
  rw [Tag.render, Tag.fullName_writable writable, List.append_assoc]
  rfl

namespace Node

mutual

/-- Trees that markup can tell: no text touches another or looks like a section, and no section
or comment holds its own end. -/
def isWritable : Node → Bool
  | .text t => !t.isEmpty && isClean t && !looksLikeSection t
  | .cdata t => !t.isEmpty && isClean t && !contains "]]>" t
  | .comment t => isClean t && !contains "--" t && t.getLast? != some 0x2D
  | .element tag cs => tag.isWritable && areWritable cs
  | _ => false

def areWritable : List Node → Bool
  | [] => true
  | c :: cs => isWritable c && !(c.isText && cs.head?.any isText) && areWritable cs

end

mutual

def spelled : Node → List Token
  | .text t => [.chars t false]
  | .cdata t => [.chars t true]
  | .comment t => [.comment t]
  | .element tag cs =>
    if cs.isEmpty && tag.isVoid then [tag.spelled true]
    else tag.spelled false :: (spelledAll cs ++ [.endTag ⟨[], tag.name⟩])
  | _ => []

def spelledAll : List Node → List Token
  | [] => []
  | c :: cs => spelled c ++ spelledAll cs

end

theorem render_element {tag : Tag} (writable : tag.isWritable = true) (cs : List Node)
    (rest : Text) :
    (Node.element tag cs).render ++ rest =
      0x3C :: (tag.name ++ (tag.attrs.flatMap Attr.render ++
        if cs.isEmpty && tag.isVoid then ending true ++ rest
        else ending false ++ (renderAll cs ++ 0x3C :: 0x2F :: (tag.name ++ 0x3E :: rest)))) := by
  have slash : ofString "</" = [0x3C, 0x2F] := rfl
  have bracket : ofString ">" = [0x3E] := rfl
  rw [render, Tag.render_writable writable, Tag.fullName_writable writable]
  split
  · simp [ending]
  · simp [ending, slash, bracket]

theorem renderAll_endsChars {cs : List Node} (writable : areWritable cs = true)
    (tagged : cs.head?.any isText = false) {rest : Text} (stops : endsChars rest = true) :
    endsChars (renderAll cs ++ rest) = true := by
  cases cs with
  | nil => exact stops
  | cons c cs =>
    rw [areWritable, Bool.and_eq_true, Bool.and_eq_true] at writable
    rw [renderAll, List.append_assoc]
    cases c with
    | text t => contradiction
    | cdata t => rfl
    | comment t => rfl
    | element tag children =>
      have own := writable.1.1
      rw [isWritable, Bool.and_eq_true] at own
      rw [render_element own.1]
      rfl
    | directive t => simp [isWritable] at writable
    | instruction target data => simp [isWritable] at writable
    | declaration => simp [isWritable] at writable

theorem map_append {ts ts' : List Token} (read : Except Problem (List Token)) :
    (read.map (ts' ++ ·)).map (ts ++ ·) = read.map (ts ++ ts' ++ ·) := by
  cases read with
  | error p => rfl
  | ok all => exact congrArg Except.ok (List.append_assoc ts ts' all).symm

/- By induction on the tree. A text reads back only where something other than text follows it; the
next sibling or the end tag of the parent is that. -/
mutual

theorem tokens_render : ∀ n : Node, n.isWritable = true → ∀ rest : Text,
    (n.isText = true → endsChars rest = true) →
    tokens true (n.render ++ rest) = (tokens true rest).map (n.spelled ++ ·)
  | .text t, writable, rest, stops => by
    simp only [isWritable, Bool.and_eq_true, Bool.not_eq_true', List.isEmpty_eq_false_iff] at writable
    exact tokens_text writable.1.1 writable.1.2 writable.2 (stops rfl)
  | .cdata t, writable, rest, _ => by
    simp only [isWritable, Bool.and_eq_true, Bool.not_eq_true'] at writable
    rw [render, List.append_assoc, List.append_assoc]
    exact tokens_section writable.1.2 writable.2 rest
  | .comment t, writable, rest, _ => by
    simp only [isWritable, Bool.and_eq_true, Bool.not_eq_true', bne_iff_ne] at writable
    rw [render, List.append_assoc, List.append_assoc]
    exact tokens_comment writable.1.2 writable.2 rest
  | .element tag cs, writable, rest, _ => by
    rw [isWritable, Bool.and_eq_true] at writable
    obtain ⟨_, plain, attrs⟩ := Tag.writable writable.1
    rw [render_element writable.1, spelled]
    split
    · rw [tokens_startTag plain attrs]
      rfl
    · rw [tokens_startTag plain attrs, tokens_renderAll cs writable.2 _ rfl, tokens_endTag plain]
      cases tokens true rest <;> simp [Except.map, Tag.spelled]

theorem tokens_renderAll : ∀ cs : List Node, areWritable cs = true → ∀ rest : Text,
    endsChars rest = true →
    tokens true (renderAll cs ++ rest) = (tokens true rest).map (spelledAll cs ++ ·)
  | [], _, rest, _ => by
    rw [renderAll, spelledAll, List.nil_append]
    cases tokens true rest <;> rfl
  | c :: cs, writable, rest, stops => by
    rw [areWritable, Bool.and_eq_true, Bool.and_eq_true] at writable
    obtain ⟨⟨first, apart⟩, later⟩ := writable
    rw [renderAll, spelledAll, List.append_assoc, tokens_render c first _ fun text => ?_,
      tokens_renderAll cs later rest stops, map_append]
    rw [text, Bool.true_and, Bool.not_eq_true'] at apart
    exact renderAll_endsChars later apart stops

end

end Node

namespace Build

structure Plain (s : State) : Prop where
  begun : s.begun = true
  scope : s.scope = []
  bindings : s.bindings = start.bindings

theorem plain_append {s : State} (plain : Plain s) (n : Node) : Plain (append s n) := by
  obtain ⟨begun, scope, bindings⟩ := plain
  unfold append
  split <;> exact ⟨begun, scope, bindings⟩

def inside (s : State) (tag : Tag) (done : List Node) : State :=
  { s with frames := ⟨⟨[], tag.name⟩, tag, [], false, done⟩ :: s.frames }

theorem plain_inside {s : State} (plain : Plain s) (tag : Tag) (done : List Node) :
    Plain (inside s tag done) :=
  ⟨plain.begun, plain.scope, plain.bindings⟩

theorem append_inside (s : State) (tag : Tag) (done cs : List Node) :
    cs.foldl append (inside s tag done) = inside s tag (cs.reverse ++ done) := by
  induction cs generalizing done with
  | nil => rfl
  | cons c cs ih =>
    rw [List.foldl_cons, List.reverse_cons, List.append_assoc]
    exact ih (c :: done)

theorem closeFrame_inside {s : State} (plain : Plain s) (tag : Tag) (done : List Node) :
    closeFrame (inside s tag done) = append s (.element tag done.reverse) := by
  have outer : { s with scope := [] } = s := by rw [← plain.scope]
  exact congrArg (append · (.element tag done.reverse)) outer

def PlainAttrs (written : List (QName × Text)) : Prop :=
  ∀ a ∈ written, a.1.qualifier = [] ∧ a.1.name ≠ xmlns

variable {written : List (QName × Text)}

theorem plainAttrs_cons {a : QName × Text} (plain : PlainAttrs (a :: written)) :
    (a.1.qualifier = [] ∧ (a.1.name == xmlns) = false) ∧ PlainAttrs written := by
  obtain ⟨unqualified, name⟩ := plain a List.mem_cons_self
  exact ⟨⟨unqualified, beq_false_of_ne name⟩, fun b later => plain b (List.mem_cons_of_mem a later)⟩

theorem isDeclaration_plain {q : QName} (unqualified : q.qualifier = [])
    (name : (q.name == xmlns) = false) : isDeclaration q = false := by
  rw [isDeclaration, unqualified, name]
  rfl

theorem declare_plain (plain : PlainAttrs written) (scope : Scope) :
    declare scope written = scope := by
  induction written with
  | nil => rfl
  | cons a written ih =>
    obtain ⟨⟨unqualified, name⟩, later⟩ := plainAttrs_cons plain
    have none_ := isDeclaration_plain unqualified name
    simp only [isDeclaration, Bool.or_eq_false_iff] at none_
    simp only [declare, List.foldl_cons, none_.1, none_.2]
    exact ih later

theorem resolve_plain (plain : PlainAttrs written) (scope : Scope) :
    (written.map fun (a, value) =>
      ((if isDeclaration a then a else ⟨attrUri scope a, a.name⟩ : QName), value)) = written := by
  refine (List.map_congr_left fun a member => ?_).trans (List.map_id written)
  obtain ⟨⟨qualifier, name⟩, value⟩ := a
  obtain ⟨rfl, _⟩ : qualifier = [] ∧ name ≠ xmlns := plain _ member
  show ((if isDeclaration ⟨[], name⟩ then (⟨[], name⟩ : QName) else ⟨[], name⟩), value) = _
  rw [ite_self]
  rfl

theorem bindAll_plain (plain : PlainAttrs written) (depth : Nat) (bindings : List Binding) :
    bindAll depth bindings written = bindings := by
  induction written with
  | nil => rfl
  | cons a written ih =>
    obtain ⟨⟨unqualified, name⟩, later⟩ := plainAttrs_cons plain
    have kept : bind depth bindings a.1 a.2 = bindings := by
      rw [bind, name, unqualified]
      rfl
    simp only [bindAll, List.foldl_cons, kept]
    exact ih later

theorem declares_plain (plain : PlainAttrs written) :
    written.any (fun a => isDeclaration a.1) = false := by
  rw [List.any_eq_false]
  intro a member
  obtain ⟨unqualified, name⟩ := plain a member
  simp [isDeclaration_plain unqualified (beq_false_of_ne name)]

variable {attrs : List Attr}

theorem plain_spelled (writable : attrs.all Attr.isWritable = true) :
    PlainAttrs (attrs.map Attr.spelled) := by
  intro a member
  obtain ⟨attr, inside, rfl⟩ := List.mem_map.mp member
  obtain ⟨plain, _, _⟩ := attr_bytes (List.all_eq_true.mp writable attr inside)
  exact ⟨rfl, (plainName plain).2.2⟩

theorem build_spelled (writable : attrs.all Attr.isWritable = true) :
    (attrs.map Attr.spelled).map (buildAttr [] start.bindings) = attrs := by
  rw [List.map_map]
  refine (List.map_congr_left fun a member => ?_).trans (List.map_id attrs)
  have own := List.all_eq_true.mp writable a member
  simp only [Attr.isWritable, Bool.and_eq_true, List.isEmpty_iff] at own
  obtain ⟨qualifier, name, uri, value⟩ := a
  obtain ⟨⟨⟨rfl, rfl⟩, _⟩, _⟩ := own
  rfl

theorem elementUri_plain {n : Text} (plain : isPlainName n = true) : elementUri [] ⟨[], n⟩ = [] := by
  have name : (n == xmlns) = false := beq_false_of_ne (plainName plain).2.2
  simp only [elementUri, name]
  rfl

theorem openTag_spelled {tag : Tag} (writable : tag.isWritable = true) {s : State} (plain : Plain s)
    (fresh : Bool) :
    openTag true fresh ⟨[], tag.name⟩ (tag.attrs.map Attr.spelled) s = .ok (inside s tag []) := by
  obtain ⟨begun, scope, bindings⟩ := plain
  obtain ⟨⟨qualifier, uri⟩, name, attrs⟩ := Tag.writable writable
  have plainAttrs := plain_spelled attrs
  simp only [openTag, begin_, begun, if_true, declare_plain plainAttrs, resolve_plain plainAttrs,
    bindAll_plain plainAttrs, declares_plain plainAttrs, scope, bindings, elementUri_plain name,
    build_spelled attrs]
  have unqualified : elementQualifier start.bindings fresh ⟨[], tag.name⟩ [] = [] := by
    cases fresh <;> rfl
  obtain ⟨_, _, _, _⟩ := tag
  cases qualifier
  cases uri
  simp only [unqualified, inside, begun, scope, bindings]
  rfl

theorem add_startTag {tag : Tag} (writable : tag.isWritable = true) {s : State} (plain : Plain s)
    (closed : Bool) :
    addToken true s (tag.spelled closed) =
      .ok (if closed then append s (.element tag []) else inside s tag []) := by
  simp only [addToken, Tag.spelled, if_true, openTag_spelled writable plain, ok_bind,
    closeFrame_inside plain]
  rfl

theorem add_endTag {s : State} (plain : Plain s) (tag : Tag) (done : List Node) :
    addToken true (inside s tag done) (.endTag ⟨[], tag.name⟩) =
      .ok (append s (.element tag done.reverse)) := by
  have closes : closeTag true ⟨[], tag.name⟩ ((inside s tag done).frames.length + 1)
      (inside s tag done) = .ok (closeFrame (inside s tag done)) := by
    rw [closeTag]
    simp [inside]
  rw [← closeFrame_inside plain, ← closes]
  rfl

/- By induction on the tree. The state in which an element is opened comes back when it is closed,
with the element as one more child. -/
mutual

theorem add_spelled : ∀ n : Node, n.isWritable = true → ∀ s : State, Plain s →
    n.spelled.foldlM (addToken true) s = .ok (append s n)
  | .text t, _, s, plain => by
    simp [Node.spelled, addToken, appendContent, plain.begun]
  | .cdata t, _, s, plain => by
    simp [Node.spelled, addToken, appendContent, plain.begun]
  | .comment t, _, s, plain => by
    simp [Node.spelled, addToken, appendContent, plain.begun]
  | .element tag cs, writable, s, plain => by
    rw [Node.isWritable, Bool.and_eq_true] at writable
    rw [Node.spelled]
    split
    · rename_i empty
      rw [Bool.and_eq_true, List.isEmpty_iff] at empty
      rw [List.foldlM_cons, add_startTag writable.1 plain, empty.1]
      rfl
    · have children := add_spelledAll cs writable.2 _ (plain_inside plain tag [])
      rw [append_inside, List.append_nil] at children
      rw [List.foldlM_cons, add_startTag writable.1 plain, ok_bind, List.foldlM_append]
      simp only [Bool.false_eq_true, if_false, children, ok_bind, List.foldlM_cons,
        add_endTag plain, List.reverse_reverse]
      rfl

theorem add_spelledAll : ∀ cs : List Node, Node.areWritable cs = true → ∀ s : State, Plain s →
    (Node.spelledAll cs).foldlM (addToken true) s = .ok (cs.foldl append s)
  | [], _, s, _ => rfl
  | c :: cs, writable, s, plain => by
    rw [Node.areWritable, Bool.and_eq_true, Bool.and_eq_true] at writable
    rw [Node.spelledAll, List.foldlM_append, add_spelled c writable.1.1 s plain, ok_bind]
    exact add_spelledAll cs writable.2 _ (plain_append plain c)

end

/-- The root element is built as if something had come before it. -/
theorem begin_again (q : QName) (attrs : List (QName × Text)) (closed : Bool) (s : State) :
    addToken true s (.startTag q attrs closed) =
      addToken true (begin_ s) (.startTag q attrs closed) := by
  have again : begin_ (begin_ s) = begin_ s := by
    unfold begin_
    split <;> simp_all
  simp only [addToken, if_true, openTag, again]

theorem nodes_spelled {root : Node} (element : root.isElement = true)
    (writable : root.isWritable = true) : nodes true root.spelled = .ok [.declaration, root] := by
  cases root with
  | element tag cs =>
    have built := add_spelled _ writable (begin_ start) ⟨rfl, rfl, rfl⟩
    have first : (Node.element tag cs).spelled.foldlM (addToken true) start =
        (Node.element tag cs).spelled.foldlM (addToken true) (begin_ start) := by
      rw [Node.spelled]
      split <;> rw [List.foldlM_cons, List.foldlM_cons, Tag.spelled, begin_again]
    rw [nodes, first, built]
    rfl
  | _ => contradiction

end Build

namespace Node

def isDeclaration : Node → Bool
  | .declaration => true
  | _ => false

theorem renderAll_declarations (ns : List Node) :
    renderAll (ns.filter fun n => !n.isDeclaration) = renderAll ns := by
  induction ns with
  | nil => rfl
  | cons n ns ih =>
    cases n with
    | declaration =>
      rw [List.filter_cons_of_neg (by simp [isDeclaration]), ih, renderAll]
      rfl
    | _ => rw [List.filter_cons_of_pos rfl, renderAll, renderAll, ih]

theorem startsBody_render {root : Node} (element : root.isElement = true)
    (writable : root.isWritable = true) : Preamble.StartsBody root.render := by
  cases root with
  | element tag cs =>
    rw [isWritable, Bool.and_eq_true] at writable
    obtain ⟨b, s, name, byte⟩ := plainName_cons (Tag.writable writable.1).2.1
    obtain ⟨_, noBang, _, _, noQuestion⟩ := nameByte_plain byte
    have question : ofString "<?" = [0x3C, 0x3F] := rfl
    have bang : ofString "<!" = [0x3C, 0x21] := rfl
    have shape := render_element writable.1 cs []
    rw [List.append_nil, name] at shape
    rw [shape]
    refine ⟨rfl, ?_, ?_⟩
    · simp [question, List.isPrefixOf, Ne.symm noQuestion]
    · simp [bang, List.isPrefixOf, Ne.symm noBang]
  | _ => contradiction

end Node

namespace Document

theorem parseBody_render {root : Node} (element : root.isElement = true)
    (writable : root.isWritable = true) :
    parseBody true root.render = .ok [.declaration, root] := by
  have read := Node.tokens_render root writable [] fun _ => rfl
  have nothing : tokens true [] = .ok [] := by rw [tokens]
  rw [List.append_nil, nothing] at read
  rw [parseBody, read, ← Build.nodes_spelled element writable]
  exact congrArg (Build.nodes true) (List.append_nil root.spelled)

/-- A page whose tree markup can tell is read back from what is written of it, preamble and all,
so that writing it once more changes nothing. -/
theorem parse_render {d : Document} {root : Node} (utf8 : d.charset = .utf8)
    (whole : Preamble.split d.preamble = (d.preamble, []))
    (declared : charsetOf d.preamble = .ok .utf8)
    (only : d.nodes.filter (fun n => !n.isDeclaration) = [root])
    (element : root.isElement = true) (writable : root.isWritable = true) :
    parse false d.render = .ok { d with nodes := [.declaration, root] } ∧
      (parse false d.render).map render = .ok d.render := by
  have body : Node.renderAll d.nodes = root.render := by
    rw [← Node.renderAll_declarations, only, Node.renderAll, Node.renderAll, List.append_nil]
  have page : d.render = d.preamble ++ root.render := by
    rw [render, utf8, body]
    rfl
  have split := Preamble.split_append whole (Node.startsBody_render element writable)
  have parsed : parse false d.render = .ok { d with nodes := [.declaration, root] } := by
    rw [page, parse]
    have same : Charset.utf8.decode root.render = root.render := rfl
    simp only [split, declared, ok_bind, same, Bool.not_false, parseBody_render element writable]
    rw [← utf8]
    rfl
  refine ⟨parsed, ?_⟩
  rw [parsed, page]
  show Except.ok (d.preamble ++ d.charset.encode (root.render ++ [])) = _
  rw [utf8, List.append_nil]
  rfl

theorem mixture_reads_back :
    let preamble :=
      ofString "<?xml version=\"1.0\" encoding=\"UTF-8\"?>\n<!-- - -->\n<!DOCTYPE html>\n"
    let root : Node := .element { name := "html", attrs := [{ name := "lang", value := "\"<&>\"" }] }
      [.text "a < b & \"c\"", .element { name := "br" } [], .element { name := "p" } [],
        .comment " - ", .cdata "x]] > y", .text "\n"]
    let d : Document := ⟨preamble, .utf8, [.declaration, root]⟩
    root.isWritable = true ∧ parse false d.render = .ok d := by
  intro preamble root d
  have writable : root.isWritable = true := by decide +kernel
  have label : Preamble.encodingLabel preamble = "UTF-8" := by decide +kernel
  have declared : charsetOf preamble = .ok .utf8 := by
    rw [charsetOf, label]
    rfl
  have whole : Preamble.split preamble = (preamble, []) := by decide +kernel
  exact ⟨writable, (parse_render (d := d) rfl whole declared rfl rfl writable).1⟩

end Document

end DocBridge
