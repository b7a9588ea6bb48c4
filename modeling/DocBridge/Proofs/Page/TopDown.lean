import DocBridge.Fix.Fixer
import DocBridge.Proofs.Page.Passes
import DocBridge.Proofs.Query.Order

/-
Texts restored one after another, and in one pass. An element whose turn comes may have left the
page with the content of an element around it. In document order it still has the text that it had
before the first change, so one pass from the top down comes to the same page and the same count.
-/
namespace DocBridge.Fix

open Query

mutual

/-- A selected element that holds a separator gets its restored text for its content. Below any
other element the pass goes on. -/
def restoreTexts (selected : List Path) (path : Path) : Node → Node
  | .element tag cs =>
    if selected.contains path && hasSeparator (Node.innerTexts cs) then
      .element tag [.text (restoreSeparators (Node.innerTexts cs))]
    else .element tag (restoreTextsIn selected path 0 cs)
  | n => n

def restoreTextsIn (selected : List Path) (path : Path) (i : Nat) : List Node → List Node
  | [] => []
  | c :: cs => restoreTexts selected (path ++ [i]) c :: restoreTextsIn selected path (i + 1) cs

end

def holdsSeparator (t : Tree) (path : Path) : Bool :=
  (nodeAt? t path).any fun n => hasSeparator n.innerText

mutual

theorem textUnder_applyEdits (edits : Edits) (path : Path) : ∀ n : Node,
    textUnder edits path n = (applyEdits edits path n).innerText
  | .element tag cs => by
    rw [textUnder, applyEdits]
    cases edits.lookup path with
    | some t => simp [Node.innerText, Node.innerTexts]
    | none => exact textsUnder_applyEdits edits path 0 cs
  | .text _ | .cdata _ | .comment _ | .directive _ | .instruction _ _ | .declaration => by
    simp [textUnder, applyEdits, Node.innerText]

theorem textsUnder_applyEdits (edits : Edits) (path : Path) (i : Nat) : ∀ cs : List Node,
    textsUnder edits path i cs = Node.innerTexts (applyEditsIn edits path i cs)
  | [] => rfl
  | c :: cs => by
    rw [textsUnder, applyEditsIn, Node.innerTexts, textUnder_applyEdits edits (path ++ [i]) c,
      textsUnder_applyEdits edits path (i + 1) cs]

end

mutual

theorem restoreTexts_eq (selected : List Path) (path : Path) : ∀ n : Node,
    restoreTexts selected path n = (separatorRevision selected).on path n
  | .element tag cs => by
    have below := restoreTextsIn_eq selected path 0 cs
    rw [restoreTexts]
    by_cases member : path ∈ selected
    · have listed : selected.contains path = true := List.contains_iff_mem.mpr member
      by_cases has : hasSeparator (Node.innerTexts cs) = true
      · rw [listed, has, Bool.and_self, if_pos rfl, Revision.on_text]
        · rfl
        · simp [separatorRevision, newText?, member, has]
      · rw [if_neg (by simp [has]), Revision.on_children, below]
        · rfl
        · simp [separatorRevision, newText?, has]
    · rw [if_neg (by simp [member]), Revision.on_children, below]
      · rfl
      · simp [separatorRevision, member]
  | .text _ | .cdata _ | .comment _ | .directive _ | .instruction _ _ | .declaration => by
    simp [restoreTexts, Revision.on]

theorem restoreTextsIn_eq (selected : List Path) (path : Path) (i : Nat) : ∀ cs : List Node,
    restoreTextsIn selected path i cs = (separatorRevision selected).onAll path i cs
  | [] => rfl
  | c :: cs => by
    rw [restoreTextsIn, Revision.onAll, restoreTexts_eq selected (path ++ [i]) c,
      restoreTextsIn_eq selected path (i + 1) cs]

end

theorem editText_count {t : Tree} {edits : Edits} {path : Path} (fresh : Fresh edits path)
    (n : Nat) :
    (editText t (edits, n) path).2 = n + if holdsSeparator t path then 1 else 0 := by
  unfold editText holdsSeparator
  cases nodeAt? t path with
  | none => rfl
  | some node =>
    simp only [textUnder_unedited edits path node fresh, Option.any_some]
    split
    · rfl
    · rfl

/-- Nothing at or below an element is edited before its turn, so each one counts by the text that
it had at the start. -/
theorem edits_count {t : Tree} {selected : List Path} (topdown : Topdown selected) {edits : Edits}
    (fresh : ∀ p ∈ selected, Fresh edits p) (n : Nat) :
    (selected.foldl (editText t) (edits, n)).2 = n + selected.countP (holdsSeparator t) := by
  induction selected generalizing edits n with
  | nil => rfl
  | cons path later ih =>
    obtain ⟨first, topdown⟩ := List.pairwise_cons.mp topdown
    have here := fresh path List.mem_cons_self
    have ahead : ∀ q ∈ later, Fresh (editText t (edits, n) path).1 q := by
      intro q member
      exact editText_fresh here (fresh q (List.mem_cons_of_mem _ member)) (first q member) n
    calc ((path :: later).foldl (editText t) (edits, n)).2
        = (editText t (edits, n) path).2 + later.countP (holdsSeparator t) :=
          ih topdown ahead (editText t (edits, n) path).2
      _ = n + (path :: later).countP (holdsSeparator t) := by
          rw [editText_count here, List.countP_cons]
          omega

theorem fixTexts_eq {t : Tree} {selected : List Path} (topdown : Topdown selected) :
    fixTexts t selected =
      (restoreTextsIn selected [] 0 t, selected.countP (holdsSeparator t)) := by
  have nothing : ∀ p ∈ selected, Fresh [] p := by
    intro p _ rest
    rfl
  apply Prod.ext
  · rw [fixTexts_tree topdown, restoreTextsIn_eq]
  · have count := edits_count (t := t) topdown nothing 0
    rw [Nat.zero_add] at count
    exact count

/-- Restoring the texts that a query selects, one after another, is one pass from the top down, if
the query lists every element once and none after an element inside it, as document order does.
What counts is every selected element with a separator in its text before the change, also inside
another one that is restored. -/
theorem fixSelected_top_down {s : Separators} (texts : s.attr = []) {t : Tree}
    (topdown : Topdown (elements t s.query)) :
    Fixer.fixSelected s t =
      (restoreTextsIn (elements t s.query) [] 0 t,
        (elements t s.query).countP (holdsSeparator t)) := by
  rw [Fixer.fixSelected, texts]
  exact fixTexts_eq topdown

theorem nested_elements_top_down :
    let s : Separators := ⟨"all", .step .root .descendant .any [], []⟩
    let p (text : Text) : Node := .element { name := "p" } [.text text]
    let t : Tree := [.element { name := "div" } [.text "A::B", p "C::D", p "x"], p "E::F", p "y"]
    (elements t s.query).Pairwise (· < ·) ∧ Topdown (elements t s.query) ∧
      Fixer.fixSelected s t =
        ([.element { name := "div" } [.text "A\\BC\\Dx"], p "E\\F", p "y"], 3) := by
  intro s p t
  have listed : elements t s.query = [[0], [0, 1], [0, 2], [1], [2]] := by decide +kernel
  have ordered : (elements t s.query).Pairwise (· < ·) := by
    rw [listed]
    decide
  have topdown := topdown_of_ordered ordered
  refine ⟨ordered, topdown, ?_⟩
  rw [fixSelected_top_down rfl topdown, listed]
  rfl

end DocBridge.Fix
