import DocBridge.Page.Document
import DocBridge.Proofs.Page.Revision

/-
White space that stays. Dropping blank texts a second time drops nothing, because each one that was
kept is judged by the same nodes before it; and no revision of a page makes more of them droppable.
-/
namespace DocBridge.Node

/-- All that matters of a node for the white space around it. -/
def face (n : Node) : Bool × Bool := (n.isText, n.isBlank)

/-- Nothing can be dropped from `cs` when it follows `before`, of which the latest comes first. -/
def Laid (before cs : List Node) : Prop := dropBlanks before cs = before.reverse ++ cs

theorem isIgnorable_congr {before before' : List Node}
    (same : before.map face = before'.map face) (hasNext : Bool) :
    isIgnorable before hasNext = isIgnorable before' hasNext := by
  have heads : before.head?.map face = before'.head?.map face := by
    rw [← List.head?_map, ← List.head?_map, same]
  have lasts : before.getLast?.map face = before'.getLast?.map face := by
    rw [← List.getLast?_map, ← List.getLast?_map, same]
  unfold isIgnorable
  cases first : before.head? with
  | none =>
    rw [first, Option.map_none, eq_comm, Option.map_eq_none_iff] at heads
    rw [heads]
  | some prev =>
    rw [first, Option.map_some, eq_comm, Option.map_eq_some_iff] at heads
    obtain ⟨prev', first', samePrev⟩ := heads
    rw [first']
    cases last : before.getLast? with
    | none =>
      rw [last, Option.map_none, eq_comm, Option.map_eq_none_iff] at lasts
      rw [lasts]
    | some node =>
      rw [last, Option.map_some, eq_comm, Option.map_eq_some_iff] at lasts
      obtain ⟨node', last', sameNode⟩ := lasts
      have prevText : prev'.isText = prev.isText := congrArg Prod.fst samePrev
      have nodeText : node'.isText = node.isText := congrArg Prod.fst sameNode
      simp only [last', prevText, nodeText]

theorem isIgnorable_mono {before : List Node} {hasNext hasMore : Bool}
    (more : hasNext = true → hasMore = true) (ignorable : isIgnorable before hasNext = true) :
    isIgnorable before hasMore = true := by
  unfold isIgnorable at ignorable ⊢
  cases first : before.head? with
  | none =>
    rw [first] at ignorable
    exact more ignorable
  | some prev =>
    cases last : before.getLast? with
    | none =>
      rw [first, last] at ignorable
      exact more ignorable
    | some node =>
      rw [first, last] at ignorable
      exact ignorable

theorem dropBlanks_length (before cs : List Node) :
    (dropBlanks before cs).length ≤ before.length + cs.length := by
  induction cs generalizing before with
  | nil => simp [dropBlanks]
  | cons c cs ih =>
    rw [dropBlanks]
    split
    · have shorter := ih before
      rw [List.length_cons]
      omega
    · have shorter := ih (c :: before)
      rw [List.length_cons] at shorter ⊢
      omega

theorem laid_cons {before cs : List Node} {c : Node} :
    Laid before (c :: cs) ↔
      (c.isBlank && isIgnorable before !cs.isEmpty) = false ∧ Laid (c :: before) cs := by
  have moved : (c :: before).reverse ++ cs = before.reverse ++ c :: cs := by
    rw [List.reverse_cons, List.append_assoc, List.singleton_append]
  unfold Laid
  rw [dropBlanks, moved]
  by_cases drop : (c.isBlank && isIgnorable before !cs.isEmpty) = true
  · rw [if_pos drop]
    constructor
    · intro same
      have short := dropBlanks_length before cs
      rw [same, List.length_append, List.length_reverse, List.length_cons] at short
      omega
    · intro kept
      rw [kept.1] at drop
      contradiction
  · rw [if_neg drop]
    exact ⟨fun same => ⟨Bool.eq_false_iff.mpr drop, same⟩, fun kept => kept.2⟩

theorem laid_congr {before before' cs cs' : List Node} (same : cs.map face = cs'.map face)
    (sameBefore : before.map face = before'.map face) (laid : Laid before cs) :
    Laid before' cs' := by
  induction cs generalizing before before' cs' with
  | nil =>
    obtain rfl : cs' = [] := List.map_eq_nil_iff.mp same.symm
    exact (List.append_nil _).symm
  | cons c cs ih =>
    cases cs' with
    | nil => contradiction
    | cons c' cs' =>
      rw [List.map_cons, List.map_cons, List.cons.injEq] at same
      obtain ⟨head, tail⟩ := same
      obtain ⟨kept, laid⟩ := laid_cons.mp laid
      have next : cs.isEmpty = cs'.isEmpty := by
        rw [← List.isEmpty_map (f := face), tail, List.isEmpty_map]
      have blank : c.isBlank = c'.isBlank := congrArg Prod.snd head
      refine laid_cons.mpr ⟨?_, ih tail ?_ laid⟩
      · rw [← blank, ← next, ← isIgnorable_congr sameBefore]
        exact kept
      · rw [List.map_cons, List.map_cons, head, sameBefore]

theorem dropBlanks_laid (before cs : List Node) :
    ∃ kept, dropBlanks before cs = before.reverse ++ kept ∧ kept.Sublist cs ∧ Laid before kept := by
  induction cs generalizing before with
  | nil => exact ⟨[], by simp [dropBlanks], List.Sublist.refl [], (List.append_nil _).symm⟩
  | cons c cs ih =>
    rw [dropBlanks]
    by_cases drop : (c.isBlank && isIgnorable before !cs.isEmpty) = true
    · rw [if_pos drop]
      obtain ⟨kept, same, part, laid⟩ := ih before
      exact ⟨kept, same, part.cons c, laid⟩
    · rw [if_neg drop]
      obtain ⟨kept, same, part, laid⟩ := ih (c :: before)
      refine ⟨c :: kept, ?_, part.cons_cons c, laid_cons.mpr ⟨?_, laid⟩⟩
      · rw [same, List.reverse_cons, List.append_assoc, List.singleton_append]
      · -- With fewer nodes after it the blank has no more reason to go than it had.
        rw [Bool.eq_false_iff]
        intro drop'
        rw [Bool.and_eq_true] at drop'
        have more : (!kept.isEmpty) = true → (!cs.isEmpty) = true := by
          intro some_
          cases cs with
          | nil =>
            rw [List.sublist_nil.mp part] at some_
            exact some_
          | cons d cs => rfl
        exact drop (by rw [drop'.1, isIgnorable_mono more drop'.2]; rfl)

theorem collapseAll_eq (cs : List Node) : collapseAll cs = cs.map collapse := by
  induction cs with
  | nil => rfl
  | cons c cs ih => rw [collapseAll, ih, List.map_cons]

theorem collapseAll_fixed {cs : List Node} : collapseAll cs = cs ↔ ∀ c ∈ cs, c.collapse = c := by
  rw [collapseAll_eq]
  constructor
  · intro same c member
    exact List.map_inj_left.mp (same.trans (List.map_id cs).symm) c member
  · intro fixed
    exact (List.map_congr_left fixed).trans (List.map_id cs)

theorem collapse_isElement (n : Node) : n.collapse.isElement = n.isElement := by
  cases n with
  | element tag cs =>
    rw [collapse]
    split <;> rfl
  | _ => rfl

theorem collapse_fixed {tag : Tag} {cs : List Node} :
    (element tag cs).collapse = element tag cs ↔
      tag.isVerbatim = true ∨ (collapseAll cs = cs ∧ Laid [] cs) := by
  rw [collapse]
  by_cases verbatim : tag.isVerbatim = true
  · simp only [verbatim, if_true, true_or]
  · simp only [verbatim, Bool.false_eq_true, if_false, false_or, element.injEq, true_and]
    constructor
    · intro same
      -- Nothing was dropped, for the lengths agree; so each child was left alone as well.
      obtain ⟨kept, dropped, part, laid⟩ := dropBlanks_laid [] (collapseAll cs)
      rw [List.reverse_nil, List.nil_append] at dropped
      obtain rfl : kept = cs := dropped.symm.trans same
      have whole : kept = collapseAll kept := by
        refine part.eq_of_length ?_
        rw [collapseAll_eq, List.length_map]
      exact ⟨whole.symm, laid⟩
    · rintro ⟨children, laid⟩
      rw [children]
      exact laid

mutual

theorem collapse_collapse : ∀ n : Node, n.collapse.collapse = n.collapse
  | .element tag cs => by
    rw [collapse]
    by_cases verbatim : tag.isVerbatim = true
    · rw [if_pos verbatim]
      exact collapse_fixed.mpr (.inl verbatim)
    · rw [if_neg verbatim]
      obtain ⟨kept, dropped, part, laid⟩ := dropBlanks_laid [] (collapseAll cs)
      rw [List.reverse_nil, List.nil_append] at dropped
      rw [dropped]
      have children := collapseAll_fixed.mp (collapseAll_collapseAll cs)
      refine collapse_fixed.mpr (.inr ⟨collapseAll_fixed.mpr fun c member => ?_, laid⟩)
      exact children c (part.subset member)
  | .text _ | .cdata _ | .comment _ | .directive _ | .instruction _ _ | .declaration => rfl

theorem collapseAll_collapseAll : ∀ cs : List Node, collapseAll (collapseAll cs) = collapseAll cs
  | [] => rfl
  | c :: cs => by
    rw [collapseAll, collapseAll, collapse_collapse c, collapseAll_collapseAll cs]

end

theorem on_face (r : Revision) (path : Query.Path) (n : Node) : (r.on path n).face = n.face := by
  cases n with
  | element tag cs =>
    rw [Revision.on]
    split <;> rfl
  | _ => rfl

theorem onAll_face (r : Revision) (path : Query.Path) (i : Nat) (cs : List Node) :
    (r.onAll path i cs).map face = cs.map face := by
  induction cs generalizing i with
  | nil => rfl
  | cons c cs ih => rw [Revision.onAll, List.map_cons, List.map_cons, on_face, ih]

def KeepsVerbatim (r : Revision) : Prop :=
  ∀ path tag, (r.tag path tag).isVerbatim = tag.isVerbatim

mutual

theorem collapse_on {r : Revision} (keeps : KeepsVerbatim r) (path : Query.Path) : ∀ n : Node,
    n.collapse = n → (r.on path n).collapse = r.on path n
  | .element tag cs, fixed => by
    cases new : r.text path cs with
    | some t =>
      rw [Revision.on_text new]
      exact collapse_fixed.mpr (.inr ⟨rfl, laid_cons.mpr ⟨Bool.and_false _, rfl⟩⟩)
    | none =>
      rw [Revision.on_children new]
      refine collapse_fixed.mpr ?_
      rw [keeps]
      rcases collapse_fixed.mp fixed with verbatim | ⟨children, laid⟩
      · exact .inl verbatim
      · refine .inr ⟨collapseAll_onAll keeps path 0 cs children, ?_⟩
        exact laid_congr (onAll_face r path 0 cs).symm rfl laid
  | .text _, _ | .cdata _, _ | .comment _, _ | .directive _, _ | .instruction _ _, _
  | .declaration, _ => rfl

theorem collapseAll_onAll {r : Revision} (keeps : KeepsVerbatim r) (path : Query.Path) (i : Nat) :
    ∀ cs : List Node, collapseAll cs = cs → collapseAll (r.onAll path i cs) = r.onAll path i cs
  | [], _ => rfl
  | c :: cs, fixed => by
    rw [collapseAll, List.cons.injEq] at fixed
    rw [Revision.onAll, collapseAll, collapse_on keeps (path ++ [i]) c fixed.1,
      collapseAll_onAll keeps path (i + 1) cs fixed.2]

end

end DocBridge.Node

namespace DocBridge.Document

def Collapsed (t : List Node) : Prop := mapFirstElement Node.collapse t = t

theorem collapsed_collapse (t : List Node) : Collapsed (mapFirstElement Node.collapse t) := by
  unfold Collapsed
  induction t with
  | nil => rfl
  | cons n rest ih =>
    by_cases root : n.isElement = true
    · rw [mapFirstElement, if_pos root, mapFirstElement, if_pos (n.collapse_isElement.trans root),
        Node.collapse_collapse]
    · rw [mapFirstElement, if_neg root, mapFirstElement, if_neg root, ih]

theorem collapsed_onAll {r : Revision} (keeps : Node.KeepsVerbatim r) (path : Query.Path) (i : Nat)
    {t : List Node} (collapsed : Collapsed t) : Collapsed (r.onAll path i t) := by
  unfold Collapsed at collapsed ⊢
  induction t generalizing i with
  | nil => rfl
  | cons n rest ih =>
    rw [Revision.onAll, mapFirstElement, r.isElement_on]
    rw [mapFirstElement] at collapsed
    by_cases root : n.isElement = true
    · rw [if_pos root, List.cons.injEq] at collapsed
      rw [if_pos root, Node.collapse_on keeps _ n collapsed.1]
    · rw [if_neg root, List.cons.injEq] at collapsed
      rw [if_neg root, ih (i + 1) collapsed.2]

end DocBridge.Document
