import DocBridge.Proofs.Page.ManualLink
import DocBridge.Proofs.Page.Rest

/-
Fixing a page twice. One run brings every selection to rest, and a page at rest stays as it is, so
with the standard settings the second run changes nothing and counts nothing.
-/
namespace DocBridge.Fixer

open Query DocBridge.Fix

variable {keys : List Text} {t t' : Tree}

def Rests (s : Separators) (t : Tree) : Prop :=
  ∀ p ∈ elements t s.query, ∀ tag cs, nodeAt? t p = some (.element tag cs) →
    if s.attr.isEmpty then hasSeparator (Node.innerTexts cs) = false
    else restored? (tag.attr? s.attr) = none

/-- A query that no pass over the page can set going again. -/
structure Tame (keys : List Text) (s : Separators) : Prop where
  steady : Steady keys s.query
  key : s.attr.isEmpty = false → s.attr ∈ keys
  differs : s.attr ≠ hrefKey

theorem selected_element {e : Expr} (steady : Steady keys e) {p : Path}
    (member : p ∈ elements t e) : ∃ tag cs, nodeAt? t p = some (.element tag cs) := by
  obtain ⟨wanted, selects, _⟩ := steady
  obtain ⟨tag, found, _⟩ := (selects.mem t p).mp member
  obtain ⟨cs, there⟩ := tagAt?_eq_some.mp found
  exact ⟨tag, cs, there⟩

theorem fixSelected_rests {s : Separators} (tame : Tame keys s) (rests : Rests s t) :
    fixSelected s t = (t, 0) := by
  unfold fixSelected
  unfold Rests at rests
  by_cases text : s.attr.isEmpty = true
  · simp only [text, if_true] at rests ⊢
    refine fixTexts_same fun p member n there => ?_
    obtain ⟨tag, cs, element⟩ := selected_element tame.steady member
    cases there.symm.trans element
    exact rests p member tag cs there
  · simp only [text, Bool.false_eq_true, if_false] at rests ⊢
    refine fixAttributes_same fun p member => ?_
    obtain ⟨tag, cs, there⟩ := selected_element tame.steady member
    rw [newValue?, there]
    exact rests p member tag cs there

theorem pass_fixSelected {s : Separators} (tame : Tame keys s) (t : Tree) :
    Pass keys t (fixSelected s t).1 := by
  have topdown := steady_topdown tame.steady t
  unfold fixSelected
  by_cases text : s.attr.isEmpty = true
  · simp only [text, if_true]
    exact pass_fixTexts topdown
  · simp only [text, Bool.false_eq_true, if_false]
    exact pass_fixAttributes (tame.key (Bool.eq_false_iff.mpr text)) settles_restored (fun _ => rfl)
      (nodup_of_topdown topdown)

/-- A query has nothing left to do right after its own pass. -/
theorem rests_fixSelected {s : Separators} (tame : Tame keys s) (t : Tree) :
    Rests s (fixSelected s t).1 := by
  intro p member tag' cs' there
  have topdown := steady_topdown tame.steady t
  have before := steady_pass tame.steady (pass_fixSelected tame t) there member
  unfold fixSelected at there
  by_cases text : s.attr.isEmpty = true
  · simp only [text, if_true] at there ⊢
    obtain ⟨cs, _, _, clean⟩ := fixTexts_element topdown there
    exact clean before
  · simp only [text, Bool.false_eq_true, if_false] at there ⊢
    obtain ⟨tag, cs, _, new, _⟩ := fixAttributes_element (nodup_of_topdown topdown) there
    rw [new, if_pos before]
    exact newTag_again settles_restored tag

/-- A query at rest is still at rest after any other pass. -/
theorem rests_pass {s : Separators} (tame : Tame keys s) (pass : Pass keys t t')
    (rests : Rests s t) : Rests s t' := by
  intro p member tag' cs' there
  have before := steady_pass tame.steady pass there member
  obtain ⟨tag, cs, there₀, _, attrs, texts⟩ := pass.element p tag' cs' there
  have done := rests p before tag cs there₀
  by_cases text : s.attr.isEmpty = true
  · simp only [text, if_true] at done ⊢
    exact texts done
  · simp only [text, Bool.false_eq_true, if_false] at done ⊢
    exact attrs s.attr tame.differs done

def restoreNext (s : Tree × Tally) (q : Separators) : Tree × Tally :=
  ((fixSelected q s.1).1,
    if (fixSelected q s.1).2 = 0 then s.2 else s.2.add q.label (fixSelected q s.1).2)

theorem fixSeparators_eq (f : Fixer) (t : Tree) :
    f.fixSeparators t = f.separators.foldl restoreNext (t, []) := rfl

theorem fixSeparators_tree (f : Fixer) (t : Tree) :
    (f.fixSeparators t).1 = f.separators.foldl (fun t s => (fixSelected s t).1) t := by
  have run (todo : List Separators) (s : Tree × Tally) :
      (todo.foldl restoreNext s).1 = todo.foldl (fun t s => (fixSelected s t).1) s.1 := by
    induction todo generalizing s with
    | nil => rfl
    | cons q todo ih =>
      rw [List.foldl_cons, List.foldl_cons, ih]
      rfl
  exact run f.separators (t, [])

theorem fixSeparators_rests {f : Fixer} (tame : ∀ s ∈ f.separators, Tame keys s)
    (rests : ∀ s ∈ f.separators, Rests s t) : f.fixSeparators t = (t, []) := by
  rw [fixSeparators_eq]
  generalize f.separators = todo at tame rests
  induction todo with
  | nil => rfl
  | cons s todo ih =>
    have still := fixSelected_rests (tame s List.mem_cons_self) (rests s List.mem_cons_self)
    have step : restoreNext (t, []) s = (t, []) := by
      simp only [restoreNext, still, if_true]
    rw [List.foldl_cons, step]
    exact ih (fun q member => tame q (List.mem_cons_of_mem _ member))
      (fun q member => rests q (List.mem_cons_of_mem _ member))

theorem run_rests {todo : List Separators} (tame : ∀ s ∈ todo, Tame keys s) {s : Separators}
    (own : Tame keys s) (t : Tree) (ahead : s ∈ todo ∨ Rests s t) :
    Rests s (todo.foldl (fun t s => (fixSelected s t).1) t) := by
  -- Either the pass of `s` is still to come, or `s` has been at rest since.
  induction todo generalizing t with
  | nil =>
    rcases ahead with member | rests
    · contradiction
    · exact rests
  | cons q todo ih =>
    refine ih (fun r member => tame r (List.mem_cons_of_mem _ member)) _ ?_
    rcases ahead with member | rests
    · rcases List.mem_cons.mp member with rfl | later
      · exact .inr (rests_fixSelected own t)
      · exact .inl later
    · exact .inr (rests_pass own (pass_fixSelected (tame q List.mem_cons_self) t) rests)

theorem run_collapsed {todo : List Separators} (tame : ∀ s ∈ todo, Tame keys s) {t : Tree}
    (collapsed : Document.Collapsed t) :
    Document.Collapsed (todo.foldl (fun t s => (fixSelected s t).1) t) := by
  induction todo generalizing t with
  | nil => exact collapsed
  | cons q todo ih =>
    refine ih (fun r member => tame r (List.mem_cons_of_mem _ member)) ?_
    exact (pass_fixSelected (tame q List.mem_cons_self) t).collapsed collapsed

theorem pass_fixLinks {f : Fixer} (member : hrefKey ∈ keys) (settles : Settles f.shortened?)
    (steady : Steady keys f.links) (t : Tree) : Pass keys t (f.fixLinks t).1 :=
  pass_fixAttributes member settles (fun other => absurd rfl other)
    (nodup_of_topdown (steady_topdown steady t))

theorem rests_fixLinks {f : Fixer} (member : hrefKey ∈ keys) (settles : Settles f.shortened?)
    (steady : Steady keys f.links) (t : Tree) :
    ∀ p ∈ elements (f.fixLinks t).1 f.links,
      newValue? hrefKey f.shortened? (f.fixLinks t).1 p = none := by
  intro p selected
  obtain ⟨tag', cs', there⟩ := selected_element steady selected
  have before := steady_pass steady (pass_fixLinks member settles steady t) there selected
  obtain ⟨tag, cs, _, new, _⟩ :=
    fixAttributes_element (nodup_of_topdown (steady_topdown steady t)) there
  rw [newValue?, there, new, if_pos before]
  exact newTag_again settles tag

/-- A fixer whose passes never meet: its queries read of start tags only what no pass changes, and
no link is shortened twice. -/
structure Regular (f : Fixer) (keys : List Text) : Prop where
  tame : ∀ s ∈ f.separators, Tame keys s
  links : Steady keys f.links
  href : hrefKey ∈ keys
  settles : Settles f.shortened?

theorem fixTree_tree (f : Fixer) (t : Tree) :
    (f.fixTree t).1 = (f.fixLinks (f.fixSeparators t).1).1 := rfl

theorem regular_pass {f : Fixer} (regular : Regular f keys) (t : Tree) :
    Pass keys (f.fixSeparators t).1 (f.fixTree t).1 :=
  pass_fixLinks regular.href regular.settles regular.links _

/-- After one run nothing is left to fix. -/
theorem regular_again {f : Fixer} (regular : Regular f keys) (t : Tree) :
    f.fixSeparators (f.fixTree t).1 = ((f.fixTree t).1, []) ∧
      f.fixLinks (f.fixTree t).1 = ((f.fixTree t).1, 0) := by
  constructor
  · refine fixSeparators_rests regular.tame fun s member => ?_
    have own := regular.tame s member
    refine rests_pass own (regular_pass regular t) ?_
    rw [fixSeparators_tree]
    exact run_rests regular.tame own t (.inl member)
  · rw [fixTree_tree]
    exact fixAttributes_same (rests_fixLinks regular.href regular.settles regular.links _)

theorem fixTree_rests {f : Fixer} (separators : f.fixSeparators t = (t, []))
    (links : f.fixLinks t = (t, 0)) : f.fixTree t = (t, []) := by
  rw [fixTree, separators]
  simp only [links, if_true]

theorem regular_collapsed {f : Fixer} (regular : Regular f keys) {t : Tree}
    (collapsed : Document.Collapsed t) : Document.Collapsed (f.fixTree t).1 := by
  refine (regular_pass regular t).collapsed ?_
  rw [fixSeparators_tree]
  exact run_collapsed regular.tame collapsed

/-- The page as the queries see it. -/
def laidOut (f : Fixer) (d : Document) : Document :=
  if f.settings.preserveWhitespace then d else d.mapRoot Node.collapse

theorem fixDocument_eq (f : Fixer) (d : Document) :
    f.fixDocument d = ({ f.laidOut d with nodes := (f.fixTree (f.laidOut d).nodes).1 },
      (f.fixTree (f.laidOut d).nodes).2) := rfl

theorem fixDocument_nodes (f : Fixer) (d : Document) :
    (f.fixDocument d).1.nodes = (f.fixTree (f.laidOut d).nodes).1 := rfl

theorem regular_laidOut {f : Fixer} (regular : Regular f keys) (d : Document) :
    f.laidOut (f.fixDocument d).1 = (f.fixDocument d).1 := by
  by_cases preserve : f.settings.preserveWhitespace = true
  · rw [laidOut, if_pos preserve]
  · have start : f.laidOut d = d.mapRoot Node.collapse := if_neg preserve
    have collapsed : Document.Collapsed (f.fixDocument d).1.nodes := by
      rw [fixDocument_nodes, start]
      exact regular_collapsed regular (Document.collapsed_collapse d.nodes)
    rw [laidOut, if_neg preserve, Document.mapRoot, collapsed]

theorem regular_fixDocument {f : Fixer} (regular : Regular f keys) (d : Document) :
    f.fixDocument (f.fixDocument d).1 = ((f.fixDocument d).1, []) := by
  obtain ⟨separators, links⟩ := regular_again regular (f.laidOut d).nodes
  have rests : f.fixTree (f.fixDocument d).1.nodes = ((f.fixDocument d).1.nodes, []) :=
    fixTree_rests separators links
  rw [fixDocument_eq f (f.fixDocument d).1, regular_laidOut regular, rests]

def classLinks (word : Text) : Expr :=
  .step (anywhere .root) .child (.inSpace PageSettings.xhtml "a") [hasWord " " "class" word]

def areas : Expr := .step (anywhere .root) .child (.inSpace PageSettings.xhtml "area") []

def linked : Expr := .step (anywhere .root) .child .any [attrStep hrefKey]

def standard (preserve : Bool) : Fixer where
  settings := { Settings.standard.pages with preserveWhitespace := preserve }
  separators :=
    [⟨"a.el", classLinks "el", []⟩, ⟨"a.elRef", classLinks "elRef", []⟩,
      ⟨"area@alt", areas, "alt"⟩]
  links := linked
  manualLink := manualPage

set_option maxRecDepth 100000 in
theorem ofSettings_standard (preserve : Bool) :
    ofSettings { Settings.standard.pages with preserveWhitespace := preserve } =
      .ok (standard preserve) := by
  rfl

def changedKeys : List Text := [hrefKey, "alt"]

theorem steady_classLinks (word : Text) : Steady changedKeys (classLinks word) := by
  refine ⟨_, selects_judged (names_inSpace _ _) (judges_word _ _ _), ?_⟩
  intro key member tag value _
  have differ : Text.ofString "class" ≠ key := by
    intro same
    rw [← same] at member
    exact absurd member (by decide)
  have same := Tag.attr?_setAttr_other tag value differ
  simp only [tagHasWord, same]
  rfl

theorem steady_areas : Steady changedKeys areas :=
  ⟨_, selects_named (names_inSpace _ _), fun _ _ _ _ _ => rfl⟩

theorem steady_linked : Steady changedKeys linked := by
  refine ⟨_, selects_judged names_any (judges_present hrefKey), ?_⟩
  intro key member tag value present
  simp only [Bool.true_and]
  by_cases same : hrefKey = key
  · rw [same, Tag.attr?_setAttr, present]
    rfl
  · rw [Tag.attr?_setAttr_other tag value same]

theorem settles_shortened (preserve : Bool) : Settles (standard preserve).shortened? where
  missing := shortened_missing
  again := shortened_again rfl rfl

theorem regular_standard (preserve : Bool) : Regular (standard preserve) changedKeys where
  tame := by
    have no_key : ([] : Text) ≠ hrefKey := by decide
    have alt_key : Text.ofString "alt" ∈ changedKeys ∧ Text.ofString "alt" ≠ hrefKey := by decide
    have text (label word : Text) : Tame changedKeys ⟨label, classLinks word, []⟩ :=
      ⟨steady_classLinks word, fun attr => by contradiction, no_key⟩
    have attr (label : Text) : Tame changedKeys ⟨label, areas, "alt"⟩ :=
      ⟨steady_areas, fun _ => alt_key.1, alt_key.2⟩
    intro s member
    simp only [standard, List.mem_cons, List.not_mem_nil, or_false] at member
    rcases member with rfl | rfl | rfl
    · exact text _ _
    · exact text _ _
    · exact attr _
  links := steady_linked
  href := List.mem_cons_self
  settles := settles_shortened preserve

/-- With the standard settings, whether white space is kept or not, a page that has been fixed is
left as it is: nothing collapses, no query restores a separator, no link is shortened. -/
theorem fixDocument_standard_idempotent (preserve : Bool) :
    ∃ f, ofSettings { Settings.standard.pages with preserveWhitespace := preserve } = .ok f ∧
      ∀ d : Document,
        let fixed := (f.fixDocument d).1
        let laid := if preserve then fixed else fixed.mapRoot Node.collapse
        laid = fixed ∧
        f.fixSeparators laid.nodes = (fixed.nodes, []) ∧
        f.fixLinks (f.fixSeparators laid.nodes).1 = (fixed.nodes, 0) ∧
        f.fixDocument fixed = (fixed, []) := by
  refine ⟨standard preserve, ofSettings_standard preserve, fun d => ?_⟩
  have regular := regular_standard preserve
  generalize wanted : standard preserve = f at regular ⊢
  have same : f.settings.preserveWhitespace = preserve := by rw [← wanted]; rfl
  have laid := regular_laidOut regular d
  rw [laidOut, same] at laid
  obtain ⟨separators, links⟩ := regular_again regular (f.laidOut d).nodes
  rw [← fixDocument_nodes] at separators links
  simp only [laid, separators]
  exact ⟨trivial, trivial, links, regular_fixDocument regular d⟩

end DocBridge.Fixer
