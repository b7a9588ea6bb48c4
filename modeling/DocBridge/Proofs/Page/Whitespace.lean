import DocBridge.Proofs.Page.Layout
import Mathlib.Data.List.Chain

/-
Which blank texts go, told without the order in which they are looked at. Where no text touches
another, the nodes kept so far never decide more than the first child of the element does, so
collapsing is one filter for each element; and all that is not white space survives.
-/
namespace DocBridge.Node

/-- A blank text stays as the only child, and where the element starts with a text that is not
blank. -/
def keepsBlanks : List Node → Bool
  | [] => true
  | c :: rest => rest.isEmpty || (c.isText && !c.isBlank)

def stay (cs : List Node) : List Node :=
  if keepsBlanks cs then cs else cs.filter fun c => !c.isBlank

mutual

def tidy : Node → Node
  | .element tag cs =>
    if tag.isVerbatim then .element tag cs else .element tag (tidyAll (keepsBlanks cs) cs)
  | n => n

def tidyAll (keeps : Bool) : List Node → List Node
  | [] => []
  | c :: cs => if !keeps && c.isBlank then tidyAll keeps cs else tidy c :: tidyAll keeps cs

end

theorem tidyAll_eq (cs : List Node) : tidyAll (keepsBlanks cs) cs = (stay cs).map tidy := by
  have all (cs : List Node) : tidyAll true cs = cs.map tidy := by
    induction cs with
    | nil => rfl
    | cons c cs ih => simp [tidyAll, ih]
  have some_ (cs : List Node) : tidyAll false cs = (cs.filter fun c => !c.isBlank).map tidy := by
    induction cs with
    | nil => rfl
    | cons c cs ih => cases blank : c.isBlank <;> simp [tidyAll, blank, ih]
  unfold stay
  cases keepsBlanks cs with
  | true => exact all cs
  | false => exact some_ cs

def Apart (cs : List Node) : Prop := cs.IsChain fun c d => ¬ (c.isText = true ∧ d.isText = true)

mutual

def TextsApart : Node → Prop
  | .element _ cs => Apart cs ∧ AllApart cs
  | _ => True

def AllApart : List Node → Prop
  | [] => True
  | c :: cs => TextsApart c ∧ AllApart cs

end

theorem isText_of_isBlank {c : Node} (blank : c.isBlank = true) : c.isText = true := by
  cases c with
  | text t => rfl
  | _ => contradiction

/-- Behind a text that came first every blank stays. -/
theorem dropBlanks_behind_text {before cs : List Node} {first : Node}
    (starts : before.getLast? = some first) (text : first.isText = true) :
    dropBlanks before cs = before.reverse ++ cs := by
  induction cs generalizing before with
  | nil => simp [dropBlanks]
  | cons c cs ih =>
    have kept (hasNext : Bool) : isIgnorable before hasNext = false := by
      unfold isIgnorable
      cases before with
      | nil => contradiction
      | cons b before => simp [starts, text]
    have again : (c :: before).getLast? = some first := by
      cases before with
      | nil => contradiction
      | cons b before => simpa using starts
    rw [dropBlanks, kept, Bool.and_false, if_neg Bool.false_ne_true, ih again]
    simp

theorem dropBlanks_behind_other {before cs : List Node} {first prev : Node}
    (starts : before.getLast? = some first) (other : first.isText = false)
    (ends : before.head? = some prev) (apart : Apart (prev :: cs)) :
    dropBlanks before cs = before.reverse ++ cs.filter fun c => !c.isBlank := by
  induction cs generalizing before prev with
  | nil => simp [dropBlanks]
  | cons c cs ih =>
    obtain ⟨touch, chain⟩ := List.isChain_cons_cons.mp apart
    cases blank : c.isBlank with
    | true =>
      have text := isText_of_isBlank blank
      have plain : prev.isText = false := by
        rw [Bool.eq_false_iff]
        intro also
        exact touch ⟨also, text⟩
      have goes : isIgnorable before (!cs.isEmpty) = true := by
        simp [isIgnorable, starts, ends, other, plain]
      have next : Apart (prev :: cs) := by
        cases cs with
        | nil => exact .singleton prev
        | cons d cs =>
          apply List.IsChain.cons_cons _ (List.isChain_cons_cons.mp chain).2
          intro both
          rw [plain] at both
          exact Bool.false_ne_true both.1
      rw [dropBlanks, blank, goes, Bool.and_true, if_pos rfl, ih starts ends next]
      simp [blank]
    | false =>
      have again : (c :: before).getLast? = some first := by
        cases before with
        | nil => contradiction
        | cons b before => simpa using starts
      rw [dropBlanks, blank, Bool.false_and, if_neg Bool.false_ne_true,
        ih again List.head?_cons chain]
      simp [blank]

theorem dropBlanks_eq {cs : List Node} (apart : Apart cs) : dropBlanks [] cs = stay cs := by
  cases cs with
  | nil => rfl
  | cons c cs =>
    cases cs with
    | nil => simp [dropBlanks, isIgnorable, stay, keepsBlanks]
    | cons d cs =>
      obtain ⟨touch, chain⟩ := List.isChain_cons_cons.mp apart
      cases blank : c.isBlank with
      | true =>
        -- The element next to a blank that came first is the first one kept, and no text.
        have plain : d.isText = false := by
          rw [Bool.eq_false_iff]
          intro also
          exact touch ⟨isText_of_isBlank blank, also⟩
        have solid : d.isBlank = false := by
          rw [Bool.eq_false_iff]
          intro also
          rw [isText_of_isBlank also] at plain
          contradiction
        have rest : dropBlanks [d] cs = [d].reverse ++ cs.filter fun c => !c.isBlank :=
          dropBlanks_behind_other rfl plain rfl chain
        simp only [dropBlanks, blank, isIgnorable, List.head?_nil, List.isEmpty_cons, Bool.not_false,
          Bool.and_true, if_true, solid, Bool.false_and, Bool.false_eq_true, if_false, rest]
        simp [stay, keepsBlanks, blank, solid]
      | false =>
        have first : dropBlanks [] (c :: d :: cs) = dropBlanks [c] (d :: cs) := by
          rw [dropBlanks, blank, Bool.false_and, if_neg Bool.false_ne_true]
        rw [first]
        cases text : c.isText with
        | true =>
          rw [dropBlanks_behind_text rfl text]
          simp [stay, keepsBlanks, text, blank]
        | false =>
          rw [dropBlanks_behind_other rfl text rfl apart]
          simp [stay, keepsBlanks, text, blank]

theorem face_collapse (n : Node) : n.collapse.face = n.face := by
  cases n with
  | element tag cs =>
    rw [collapse]
    split
    · rfl
    · rfl
  | _ => rfl

theorem isText_collapse (n : Node) : n.collapse.isText = n.isText :=
  congrArg Prod.fst n.face_collapse

theorem isBlank_collapse (n : Node) : n.collapse.isBlank = n.isBlank :=
  congrArg Prod.snd n.face_collapse

theorem apart_map_collapse {cs : List Node} (apart : Apart cs) : Apart (cs.map collapse) := by
  unfold Apart at apart ⊢
  rw [List.isChain_map]
  simpa only [isText_collapse] using apart

theorem stay_map_collapse (cs : List Node) : stay (cs.map collapse) = (stay cs).map collapse := by
  have keeps : keepsBlanks (cs.map collapse) = keepsBlanks cs := by
    cases cs with
    | nil => rfl
    | cons c cs => simp [keepsBlanks, isText_collapse, isBlank_collapse]
  unfold stay
  rw [keeps]
  split
  · rfl
  · rw [List.filter_map]
    simp [Function.comp_def, isBlank_collapse]

theorem collapse_element {tag : Tag} {cs : List Node} (plain : tag.isVerbatim = false)
    (apart : Apart cs) : (element tag cs).collapse = .element tag ((stay cs).map collapse) := by
  rw [collapse, plain, if_neg Bool.false_ne_true, collapseAll_eq,
    dropBlanks_eq (apart_map_collapse apart), stay_map_collapse]

theorem mem_of_mem_stay {cs : List Node} {c : Node} (kept : c ∈ stay cs) : c ∈ cs := by
  unfold stay at kept
  split at kept
  · exact kept
  · exact List.mem_of_mem_filter kept

mutual

theorem collapse_tidy : ∀ n : Node, n.TextsApart → n.collapse = n.tidy
  | .element tag cs, apart => by
    obtain ⟨siblings, inside⟩ := apart
    have each := List.map_inj_left.mp (map_collapse_tidy cs inside)
    cases verbatim : tag.isVerbatim with
    | true => simp [collapse, tidy, verbatim]
    | false =>
      have below : (stay cs).map collapse = (stay cs).map tidy := by
        apply List.map_congr_left
        intro c kept
        exact each c (mem_of_mem_stay kept)
      rw [collapse_element verbatim siblings, below, tidy, verbatim, if_neg Bool.false_ne_true,
        tidyAll_eq]
  | .text _, _ | .cdata _, _ | .comment _, _ | .directive _, _ | .instruction _ _, _
  | .declaration, _ => rfl

theorem map_collapse_tidy : ∀ cs : List Node, AllApart cs → cs.map collapse = cs.map tidy
  | [], _ => rfl
  | c :: cs, apart => by
    rw [List.map_cons, List.map_cons, collapse_tidy c apart.1, map_collapse_tidy cs apart.2]

end

inductive Mark where
  | leaf (n : Node)
  | start (tag : Tag)
  | stop

namespace Mark

def isBlank : Mark → Bool
  | .leaf n => n.isBlank
  | _ => false

def text : Mark → Text
  | .leaf n => n.innerText
  | _ => []

end Mark

mutual

def marks : Node → List Mark
  | .element tag cs => .start tag :: (marksAll cs ++ [.stop])
  | n => [.leaf n]

def marksAll : List Node → List Mark
  | [] => []
  | c :: cs => marks c ++ marksAll cs

end

def solid (n : Node) : List Mark := n.marks.filter fun m => !m.isBlank

def solidAll (cs : List Node) : List Mark := (marksAll cs).filter fun m => !m.isBlank

theorem solidAll_cons (c : Node) (cs : List Node) : solidAll (c :: cs) = c.solid ++ solidAll cs := by
  rw [solidAll, marksAll, List.filter_append]
  rfl

theorem solidAll_append (cs ds : List Node) : solidAll (cs ++ ds) = solidAll cs ++ solidAll ds := by
  induction cs with
  | nil => rfl
  | cons c cs ih => rw [List.cons_append, solidAll_cons, solidAll_cons, ih, List.append_assoc]

theorem solid_element (tag : Tag) (cs : List Node) :
    (element tag cs).solid = .start tag :: (solidAll cs ++ [.stop]) := by
  simp [solid, solidAll, marks, Mark.isBlank]

theorem solid_blank {c : Node} (blank : c.isBlank = true) : c.solid = [] := by
  cases c with
  | text t =>
    have leaf : (Mark.leaf (.text t)).isBlank = true := blank
    simp [solid, marks, leaf]
  | _ => contradiction

theorem solidAll_dropBlanks (before cs : List Node) :
    solidAll (dropBlanks before cs) = solidAll before.reverse ++ solidAll cs := by
  induction cs generalizing before with
  | nil => simp [dropBlanks, solidAll, marksAll]
  | cons c cs ih =>
    rw [dropBlanks]
    split
    · next goes =>
      rw [Bool.and_eq_true] at goes
      rw [ih, solidAll_cons, solid_blank goes.1, List.nil_append]
    · rw [ih, ← solidAll_append, ← solidAll_append, List.reverse_cons, List.append_assoc,
        List.singleton_append]

mutual

theorem solid_collapse : ∀ n : Node, n.collapse.solid = n.solid
  | .element tag cs => by
    rw [collapse]
    split
    · rfl
    · rw [solid_element, solid_element, solidAll_dropBlanks, solidAll_collapse cs]
      rfl
  | .text _ | .cdata _ | .comment _ | .directive _ | .instruction _ _ | .declaration => rfl

theorem solidAll_collapse : ∀ cs : List Node, solidAll (collapseAll cs) = solidAll cs
  | [] => rfl
  | c :: cs => by
    rw [collapseAll, solidAll_cons, solidAll_cons, solid_collapse c, solidAll_collapse cs]

end

mutual

theorem innerText_marks : ∀ n : Node, n.innerText = n.marks.flatMap Mark.text
  | .element tag cs => by
    rw [innerText, innerTexts_marks cs]
    simp [marks, Mark.text]
  | .text _ | .cdata _ | .comment _ | .directive _ | .instruction _ _ | .declaration => by
    simp [marks, Mark.text]

theorem innerTexts_marks : ∀ cs : List Node, innerTexts cs = (marksAll cs).flatMap Mark.text
  | [] => rfl
  | c :: cs => by
    rw [innerTexts, marksAll, List.flatMap_append, innerText_marks c, innerTexts_marks cs]

end

def visible (t : Text) : Text := t.filter fun b => !Text.isSpace b

theorem visible_blank {m : Mark} (blank : m.isBlank = true) : visible m.text = [] := by
  cases m with
  | leaf n =>
    cases n with
    | text t =>
      have all : t.all Text.isSpace = true := blank
      simpa [visible, Mark.text, innerText] using all
    | _ => contradiction
  | _ => contradiction

theorem visible_innerText (n : Node) :
    visible n.innerText = n.solid.flatMap fun m => visible m.text := by
  rw [innerText_marks, solid]
  induction n.marks with
  | nil => rfl
  | cons m ms ih =>
    have split : visible ((m :: ms).flatMap Mark.text) =
        visible m.text ++ visible (ms.flatMap Mark.text) := by
      simp [visible]
    rw [split, ih]
    cases blank : m.isBlank with
    | true => simp [visible_blank blank, blank]
    | false => simp [blank]

/-- Collapsing is a filter, if no text of the tree touches another: verbatim elements stay as they
are, an element with one child or with a text in front that is not blank keeps all its children,
and any other loses its blank texts and nothing else. Every other node survives in its place, and
so does every character that is not white space. -/
theorem collapse_filters (n : Node) (apart : n.TextsApart) :
    n.collapse = n.tidy ∧ n.collapse.solid = n.solid ∧
      visible n.collapse.innerText = visible n.innerText := by
  refine ⟨collapse_tidy n apart, solid_collapse n, ?_⟩
  rw [visible_innerText, visible_innerText, solid_collapse]

theorem nested_blanks_filter :
    let el (name : Text) (cs : List Node) : Node := .element { name := name } cs
    let gap : Node := .text "\n "
    let kept : Node := el "p" [.text "x", el "i" [gap], gap]
    let n := el "div"
      [gap, el "pre" [gap, el "b" []], .comment "c", gap, kept, gap, el "ul" [gap, el "li" [], gap]]
    n.TextsApart ∧
      n.collapse = el "div" [el "pre" [gap, el "b" []], .comment "c", kept, el "ul" [el "li" []]] ∧
      n.collapse.solid = n.solid ∧ visible n.collapse.innerText = visible n.innerText := by
  intro el gap kept n
  have apart : n.TextsApart := by
    simp [n, gap, kept, el, TextsApart, AllApart, Apart, isText]
  obtain ⟨filtered, survivors, text⟩ := collapse_filters n apart
  refine ⟨apart, ?_, survivors, text⟩
  rw [filtered]
  rfl

end DocBridge.Node
