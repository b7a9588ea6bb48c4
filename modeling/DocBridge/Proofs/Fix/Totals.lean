import DocBridge.Proofs.Fix.Counters
import DocBridge.Proofs.Fix.Isolation
import DocBridge.Settings.Check
import Mathlib

/-
The changes of a page against what its result says of them. Queries add to what stands under their
label, whatever it is, but the links take the place of what stands under theirs. So the result of a
page loses changes exactly when links were shortened and a query with the label of the links has
restored something.
-/
namespace DocBridge.Fixer

open Query (Tree)

def restoredBy : List Separators → Tree → List (Text × Nat)
  | [], _ => []
  | q :: todo, t => (q.label, (fixSelected q t).2) :: restoredBy todo (fixSelected q t).1

def restored (f : Fixer) (t : Tree) : Nat := ((restoredBy f.separators t).map Prod.snd).sum

def restoredUnder (f : Fixer) (label : Text) (t : Tree) : Nat :=
  (amounts (restoredBy f.separators t) label).sum

def shortened (f : Fixer) (t : Tree) : Nat := (f.fixLinks (f.fixSeparators t).1).2

theorem restoreNext_total (s : Tree × Tally) (q : Separators) :
    (restoreNext s q).2.total = s.2.total + (fixSelected q s.1).2 := by
  unfold restoreNext
  dsimp only
  split
  · next none_ => rw [none_, Nat.cast_zero, Int.add_zero]
  · exact Tally.total_add s.2 q.label _

theorem restoreNext_get (s : Tree × Tally) (q : Separators) (label : Text) :
    (restoreNext s q).2.get label =
      s.2.get label + if q.label = label then ((fixSelected q s.1).2 : Int) else 0 := by
  unfold restoreNext
  dsimp only
  split
  · next none_ => rw [none_, Nat.cast_zero, ite_self, Int.add_zero]
  · exact Tally.get_add s.2 q.label _ label

theorem foldl_restoreNext_total (todo : List Separators) (s : Tree × Tally) :
    (todo.foldl restoreNext s).2.total =
      s.2.total + ((restoredBy todo s.1).map Prod.snd).sum := by
  induction todo generalizing s with
  | nil => simp [restoredBy]
  | cons q todo ih =>
    have tree : (restoreNext s q).1 = (fixSelected q s.1).1 := rfl
    rw [List.foldl_cons, ih, restoreNext_total, tree, restoredBy, List.map_cons, List.sum_cons]
    omega

theorem foldl_restoreNext_get (todo : List Separators) (s : Tree × Tally) (label : Text) :
    (todo.foldl restoreNext s).2.get label =
      s.2.get label + (amounts (restoredBy todo s.1) label).sum := by
  induction todo generalizing s with
  | nil => simp [restoredBy, amounts]
  | cons q todo ih =>
    have tree : (restoreNext s q).1 = (fixSelected q s.1).1 := rfl
    rw [List.foldl_cons, ih, restoreNext_get, tree, restoredBy, amounts_cons]
    by_cases here : q.label = label
    · simp only [here, if_true, List.sum_cons]
      omega
    · simp only [here, if_false]
      omega

theorem fixSeparators_total (f : Fixer) (t : Tree) :
    (f.fixSeparators t).2.total = f.restored t := by
  have run := foldl_restoreNext_total f.separators (t, [])
  rw [fixSeparators_eq, run, restored]
  simp [Tally.total]

theorem fixSeparators_get (f : Fixer) (t : Tree) (label : Text) :
    (f.fixSeparators t).2.get label = f.restoredUnder label t := by
  have run := foldl_restoreNext_get f.separators (t, []) label
  rw [fixSeparators_eq, run, restoredUnder]
  simp [Tally.get]

theorem fixTree_tally (f : Fixer) (t : Tree) :
    (f.fixTree t).2 = if f.shortened t = 0 then (f.fixSeparators t).2
      else (f.fixSeparators t).2.set hrefKey (f.shortened t) := rfl

theorem fixTree_get (f : Fixer) (t : Tree) (label : Text) :
    (f.fixTree t).2.get label = (if label = hrefKey ∧ f.shortened t ≠ 0 then f.shortened t
      else f.restoredUnder label t : Nat) := by
  rw [fixTree_tally]
  by_cases none_ : f.shortened t = 0
  · simp only [none_, if_true, ne_eq, not_true_eq_false, and_false, if_false]
    exact fixSeparators_get f t label
  · simp only [none_, if_false, ne_eq, not_false_eq_true, and_true, Tally.get_set,
      fixSeparators_get, Nat.cast_ite]

theorem fixTree_total (f : Fixer) (t : Tree) :
    (f.fixTree t).2.total = f.restored t + f.shortened t -
      (if f.shortened t = 0 then 0 else f.restoredUnder hrefKey t : Nat) := by
  rw [fixTree_tally]
  by_cases none_ : f.shortened t = 0
  · simp only [none_, if_true, fixSeparators_total]
    omega
  · simp only [none_, if_false, Tally.total_set, fixSeparators_total, fixSeparators_get]
    omega

theorem fixFile_changes {f : Fixer} {refuse : Refusals} {d after : Disk} {path : Text}
    {r : FileResult} (fixes : f.fixFile refuse d path = (after, .ok r)) :
    ∃ page doc, d.read path = .ok page ∧ Document.parse f.settings.lenient page = .ok doc ∧
      r.changes = (f.fixTree (f.laidOut doc).nodes).2 := by
  unfold fixFile at fixes
  cases read : d.read path with
  | error e => simp [read] at fixes
  | ok page =>
    simp only [read, fixPage] at fixes
    cases parsed : Document.parse f.settings.lenient page with
    | error e => simp [parsed, Except.map] at fixes
    | ok doc =>
      simp only [parsed, Except.map] at fixes
      split at fixes
      · simp at fixes
      · cases fixes
        exact ⟨page, doc, rfl, parsed, rfl⟩

def boldPage (text link : Text) : Text :=
  "<p><b>" ++ text ++ "</b><a href=\"https://php.net/manual/en/" ++ link ++ "\">x</a></p>"

def boldDisk (text link : Text) : Disk := ⟨[(["p.html"], .file (boldPage text link) 0o644)]⟩

def boldNodes : Tree :=
  [.declaration,
    .element { name := "p" }
      [.element { name := "b" } [.text "A::B"],
        .element
          { name := "a"
            attrs := [{ name := hrefKey, value := "https://php.net/manual/en/x.php.html" }] }
          [.text "x"]]]

def boldUnder (label : Text) : Settings :=
  Settings.orDefault { pages := { separatorQueries := [{ name := label, query := "//b" }] } }

def boldFixer (label : Text) : Fixer where
  settings := (boldUnder label).pages
  separators :=
    [⟨(SeparatorQuery.mk label "//b" []).label,
      .step (Query.anywhere .root) .child (.plain "b") [], []⟩]
  links := linked
  manualLink := manualPage

set_option maxRecDepth 100000 in
theorem accepts_bold (label : Text) :
    (boldUnder label).check = .ok () ∧
      ofSettings (boldUnder label).pages = .ok (boldFixer label) := by
  constructor
  · rfl
  · rfl

theorem read_bold :
    (boldDisk "A::B" "x.php.html").read "p.html" = .ok (boldPage "A::B" "x.php.html") := by
  cbv

theorem parse_bold :
    Document.parse false (boldPage "A::B" "x.php.html") = .ok ⟨[], .utf8, boldNodes⟩ := by
  cbv

theorem fixFile_bold (label : Text) :
    (boldFixer label).fixFile (fun _ => none) (boldDisk "A::B" "x.php.html") "p.html" =
      (boldDisk "A\\B" "x.php", .ok
        { path := "p.html"
          status := .fixed
          changes := Tally.set [((SeparatorQuery.mk label "//b" []).label, 1)] hrefKey 1 }) := by
  have parsed : Document.parse (boldFixer label).settings.lenient (boldPage "A::B" "x.php.html") =
      .ok ⟨[], .utf8, boldNodes⟩ := parse_bold
  rw [fixFile, read_bold]
  simp only [fixPage, parsed, Except.map]
  cbv

theorem changes_bold (label : Text) :
    (boldFixer label).laidOut ⟨[], .utf8, boldNodes⟩ = ⟨[], .utf8, boldNodes⟩ ∧
      restoredBy (boldFixer label).separators boldNodes =
        [((SeparatorQuery.mk label "//b" []).label, 1)] ∧
      (boldFixer label).shortened boldNodes = 1 := by
  constructor
  · cbv
  constructor
  · cbv
  · cbv

/-- The result of a page has under each label all that the queries of that label have changed, but
under the label of the links only the links if any was shortened. So the total is the number of
changes exactly when no link was shortened or no query with that label changed anything. -/
theorem fixFile_counts_iff {f : Fixer} {refuse : Refusals} {d after : Disk} {path : Text}
    {r : FileResult} (fixes : f.fixFile refuse d path = (after, .ok r)) :
    ∃ page doc, d.read path = .ok page ∧ Document.parse f.settings.lenient page = .ok doc ∧
      let t := (f.laidOut doc).nodes
      (∀ label, r.changes.get label = (if label = hrefKey ∧ f.shortened t ≠ 0 then f.shortened t
        else f.restoredUnder label t : Nat)) ∧
      r.totalChanges = f.restored t + f.shortened t -
        (if f.shortened t = 0 then 0 else f.restoredUnder hrefKey t : Nat) ∧
      (r.totalChanges = f.restored t + f.shortened t ↔
        f.shortened t = 0 ∨ f.restoredUnder hrefKey t = 0) := by
  obtain ⟨page, doc, read, parsed, changes⟩ := fixFile_changes fixes
  refine ⟨page, doc, read, parsed, ?_⟩
  intro t
  have total := fixTree_total f t
  rw [← changes] at total
  constructor
  · intro label
    rw [changes]
    exact fixTree_get f t label
  constructor
  · exact total
  · rw [FileResult.totalChanges, total]
    split
    · next none_ => simp [none_]
    · next some_ =>
      simp only [some_, false_or]
      omega

theorem own_label_counts :
    let f := boldFixer "bold"
    let r : FileResult :=
      { path := "p.html", status := .fixed, changes := [("bold", 1), (hrefKey, 1)] }
    f.fixFile (fun _ => none) (boldDisk "A::B" "x.php.html") "p.html" =
        (boldDisk "A\\B" "x.php", .ok r) ∧
      r.totalChanges = f.restored boldNodes + f.shortened boldNodes := by
  intro f r
  have fixes : f.fixFile (fun _ => none) (boldDisk "A::B" "x.php.html") "p.html" =
      (boldDisk "A\\B" "x.php", .ok r) := fixFile_bold "bold"
  obtain ⟨same, restores, _⟩ := changes_bold "bold"
  have elsewhere : f.restoredUnder hrefKey boldNodes = 0 := by
    rw [restoredUnder, restores]
    decide
  obtain ⟨page, doc, read, parsed, _, _, counts⟩ := fixFile_counts_iff fixes
  cases read.symm.trans read_bold
  cases parsed.symm.trans parse_bold
  rw [same] at counts
  exact ⟨fixes, counts.mpr (.inr elsewhere)⟩

theorem links_label_loses_changes :
    let f := boldFixer hrefKey
    let r : FileResult := { path := "p.html", status := .fixed, changes := [(hrefKey, 1)] }
    (boldUnder hrefKey).check = .ok () ∧ ofSettings (boldUnder hrefKey).pages = .ok f ∧
      f.fixFile (fun _ => none) (boldDisk "A::B" "x.php.html") "p.html" =
        (boldDisk "A\\B" "x.php", .ok r) ∧
      Document.parse f.settings.lenient (boldPage "A::B" "x.php.html") =
        .ok ⟨[], .utf8, boldNodes⟩ ∧
      f.laidOut ⟨[], .utf8, boldNodes⟩ = ⟨[], .utf8, boldNodes⟩ ∧
      f.restored boldNodes = 1 ∧ f.shortened boldNodes = 1 ∧ r.totalChanges = 1 := by
  intro f r
  obtain ⟨accepted, built⟩ := accepts_bold hrefKey
  obtain ⟨same, restores, shortens⟩ := changes_bold hrefKey
  have once : f.restored boldNodes = 1 := by
    rw [restored, restores]
    rfl
  exact ⟨accepted, built, fixFile_bold hrefKey, parse_bold, same, once, shortens, rfl⟩

end DocBridge.Fixer
