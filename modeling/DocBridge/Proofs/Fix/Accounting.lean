import DocBridge.Proofs.Fix.Counters
import DocBridge.Proofs.Fix.Isolation
import Mathlib

/-
The counters of a run against its report. Both are built while the run goes on, the one by counting
events and the other by collecting results, and in the end they say the same.
-/
namespace DocBridge

structure FileResult.Sound (r : FileResult) : Prop where
  named : r.status ∈ Status.named
  failed : r.failure.isSome = true ↔ r.status ≠ .fixed
  positive : r.changes.Positive

namespace Fixer

theorem fixSeparators_positive (f : Fixer) (t : Query.Tree) : (f.fixSeparators t).2.Positive := by
  have run (todo : List Separators) (s : Query.Tree × Tally) (positive : s.2.Positive) :
      (todo.foldl restoreNext s).2.Positive := by
    induction todo generalizing s with
    | nil => exact positive
    | cons q todo ih =>
      refine ih _ ?_
      rw [restoreNext]
      split
      · exact positive
      · next some_ => exact Tally.positive_add positive _ (by omega)
  rw [fixSeparators_eq]
  exact run f.separators (t, []) fun e member => absurd member List.not_mem_nil

theorem fixTree_positive (f : Fixer) (t : Query.Tree) : (f.fixTree t).2.Positive := by
  have separators := f.fixSeparators_positive t
  rw [fixTree]
  dsimp only
  split
  · exact separators
  · next some_ => exact Tally.positive_set separators _ (by omega)

theorem fixPage_positive {f : Fixer} {page fixed : Text} {tally : Tally}
    (fixes : f.fixPage page = .ok (fixed, tally)) : tally.Positive := by
  rw [fixPage] at fixes
  cases parsed : Document.parse f.settings.lenient page with
  | error e => rw [parsed] at fixes; contradiction
  | ok d =>
    rw [parsed] at fixes
    cases fixes
    exact f.fixTree_positive _

theorem sound_failure (path : Text) (e : Failure) :
    (FileResult.ofOutcome path (.error e)).Sound := by
  have status : Status.ofFailure e ∈ Status.named ∧ Status.ofFailure e ≠ .fixed := by
    unfold Status.ofFailure
    split <;> decide
  exact ⟨status.1, iff_of_true rfl status.2, fun e member => absurd member List.not_mem_nil⟩

theorem fixFile_sound (f : Fixer) (refuse : Refusals) (d : Disk) (path : Text) :
    (FileResult.ofOutcome path (f.fixFile refuse d path).2).Sound := by
  unfold fixFile
  cases d.read path with
  | error e => exact sound_failure path _
  | ok page =>
    dsimp only
    cases fixes : f.fixPage page with
    | error e => exact sound_failure path _
    | ok result =>
      obtain ⟨fixed, tally⟩ := result
      dsimp only
      cases writePage refuse d path fixed with
      | error e => exact sound_failure path _
      | ok after =>
        refine ⟨List.mem_cons_self, iff_of_false ?_ (fun other => other rfl), fixPage_positive fixes⟩
        exact Bool.false_ne_true

def fileEvents (r : Report) : List (Text × UInt64) :=
  r.files.map (fun f => (f.status.counted.label, 1)) ++ .replicate r.skipped (Metrics.skipped, 1)

/-- The report and the counters have been built from the same events. -/
structure Accounted (s : Progress) : Prop where
  sound : ∀ r ∈ s.report.files, r.Sound
  files : ∃ events, events.Perm (fileEvents s.report) ∧
    s.metrics.files = Counter.addAll [] events
  changes : s.metrics.changes =
    Counter.addAll [] (Metrics.effective (s.report.files.flatMap FileResult.changes))

theorem visit_accounted {s : Progress} (accounted : Accounted s) (f : Fixer) (refuse : Refusals)
    (path : Text) : Accounted (f.visit refuse s path) := by
  obtain ⟨sound, ⟨events, perm, files⟩, changes⟩ := accounted
  rw [visit]
  split
  · have new := f.fixFile_sound refuse s.disk path
    dsimp only
    generalize FileResult.ofOutcome path (f.fixFile refuse s.disk path).2 = r at new
    refine ⟨?_, ⟨events ++ [(r.status.counted.label, 1)], ?_, ?_⟩, ?_⟩
    · exact List.forall_mem_append.mpr ⟨sound, List.forall_mem_singleton.mpr new⟩
    · -- The file comes last in the order of events, but before the skipped ones in the report.
      refine (perm.append_right _).trans ?_
      simp only [fileEvents, Report.add, List.map_append, List.append_assoc]
      exact List.perm_append_comm.append_left _
    · rw [Metrics.record_eq, files, Counter.addAll_append]
      rfl
    · rw [Metrics.record_eq, changes, Report.add, List.flatMap_append, List.flatMap_singleton,
        Metrics.effective_append, Counter.addAll_append]
  · refine ⟨sound, ⟨events ++ [(Metrics.skipped, 1)], ?_, ?_⟩, changes⟩
    · refine (perm.append_right _).trans (List.Perm.of_eq ?_)
      rw [fileEvents, fileEvents, Report.skip, List.replicate_succ', List.append_assoc]
    · rw [Metrics.countFile, files, Counter.addAll_append]
      rfl

theorem visits_accounted (f : Fixer) (refuse : Refusals) (paths : List Text) {s : Progress}
    (accounted : Accounted s) : Accounted (paths.foldl (f.visit refuse) s) := by
  induction paths generalizing s with
  | nil => exact accounted
  | cons path paths ih => exact ih (visit_accounted accounted f refuse path)

theorem run_accounted {f : Fixer} {refuse : Refusals} {d : Disk} {dir : Text} {s : Progress}
    (ran : f.run refuse d dir = .ok s) : Accounted s := by
  have start : Accounted { disk := d } :=
    ⟨fun r member => absurd member List.not_mem_nil, ⟨[], .nil, rfl⟩, rfl⟩
  have walked := visits_accounted f refuse (walk d dir) start
  rw [run] at ran
  cases checked : checkDirectory d dir with
  | error e => rw [checked] at ran; contradiction
  | ok _ =>
    rw [checked] at ran
    cases ran
    exact ⟨walked.sound, walked.files, walked.changes⟩

theorem fileEvents_countP (r : Report) (label : Text) :
    (fileEvents r).countP (·.1 == label) =
      r.files.countP (·.status.counted.label == label) +
        if Metrics.skipped == label then r.skipped else 0 := by
  rw [fileEvents, List.countP_append, List.countP_map, List.countP_replicate]
  rfl

theorem counted_named : ∀ a ∈ Status.named, (a.counted.label == Metrics.skipped) = false ∧
    (Metrics.skipped == a.label) = false ∧
    ∀ b ∈ Status.named, (b.counted.label == a.label) = (b == a) := by decide

theorem countP_status {r : Report} (sound : ∀ f ∈ r.files, f.Sound) {status : Status}
    (named : status ∈ Status.named) :
    (fileEvents r).countP (·.1 == status.label) = r.count status := by
  obtain ⟨_, other, same⟩ := counted_named status named
  rw [fileEvents_countP, other, if_neg Bool.false_ne_true, Nat.add_zero, Report.count]
  exact List.countP_congr fun f member => by rw [same _ (sound f member).named]

theorem countP_skipped {r : Report} (sound : ∀ f ∈ r.files, f.Sound) :
    (fileEvents r).countP (·.1 == Metrics.skipped) = r.skipped := by
  have none_ : r.files.countP (·.status.counted.label == Metrics.skipped) = 0 :=
    List.countP_eq_zero.mpr fun f member => by
      rw [(counted_named _ (sound f member).named).1]
      exact Bool.false_ne_true
  rw [fileEvents_countP, none_, beq_self_eq_true, if_pos rfl, Nat.zero_add]

theorem shown_files {s : Progress} (accounted : Accounted s) {label : Text}
    (few : (fileEvents s.report).countP (·.1 == label) < 2 ^ 53) :
    s.metrics.files.shown label = Counter.ones ((fileEvents s.report).countP (·.1 == label)) := by
  obtain ⟨events, perm, files⟩ := accounted.files
  have single : ∀ e ∈ events, e.2 = 1 := by
    intro e member
    rcases List.mem_append.mp (perm.mem_iff.mp member) with file | skip
    · obtain ⟨f, _, rfl⟩ := List.mem_map.mp file
      rfl
    · rw [List.eq_of_mem_replicate skip]
  rw [← perm.countP_eq] at few ⊢
  rw [files]
  exact Counter.shown_ones single few

theorem count_sum {r : Report} (sound : ∀ f ∈ r.files, f.Sound) :
    (Status.named.map r.count).sum = r.files.length := by
  have one : ∀ a ∈ Status.named, (Status.named.map fun b => if a == b then 1 else 0).sum = 1 := by
    decide
  unfold Report.count
  generalize r.files = files at sound ⊢
  induction files with
  | nil => rfl
  | cons f files ih =>
    obtain ⟨first, rest⟩ := List.forall_mem_cons.mp sound
    have later := ih rest
    have here := one _ first.named
    simp only [Status.named, List.map_cons, List.map_nil, List.sum_cons, List.sum_nil,
      List.countP_cons, List.length_cons] at later here ⊢
    omega

theorem length_warnings {r : Report} (sound : ∀ f ∈ r.files, f.Sound) :
    r.warnings.length + r.count .fixed = r.files.length := by
  have failed : r.warnings.length = r.files.countP fun f => ¬(f.status == .fixed) = true := by
    rw [Report.warnings, List.length_filterMap_eq_countP]
    refine List.countP_congr fun f member => ?_
    rw [(sound f member).failed]
    simp
  rw [failed, Report.count, Nat.add_comm, ← List.length_eq_countP_add_countP]

theorem total_changes (r : Report) :
    r.changes.total = (r.files.map FileResult.totalChanges).sum := by
  rw [Report.changes_eq, Tally.total_merge]
  simp only [Tally.total, List.foldr_nil, zero_add]
  induction r.files with
  | nil => rfl
  | cons f files ih =>
    rw [List.flatMap_cons, List.map_cons, List.sum_cons, ← ih]
    exact Tally.total_append f.changes _

/-- After a run the counters and the report say the same. The counter of files shows under each
outcome the number of files with it, and the number of skipped files; the counter of changes shows
under each query what the report adds up for it, and nothing where the report has nothing. Every
file has one of the three outcomes, the two failures are what is warned of, and by query or by file
the changes add up to the same number. -/
theorem run_counters_agree (f : Fixer) (refuse : Refusals) {d : Disk} {dir : Text} {s : Progress}
    (ran : f.run refuse d dir = .ok s)
    (few : s.report.files.length + s.report.skipped < 2 ^ 53)
    (small : ∀ e ∈ s.report.changes, e.2 < 2 ^ 53) :
    (∀ status ∈ Status.named,
      s.metrics.files.shown status.label = Counter.ones (s.report.count status)) ∧
    s.metrics.files.shown Metrics.skipped = Counter.ones s.report.skipped ∧
    (∀ query,
      (s.metrics.changes.shown query).map Int.ofNat = s.report.changes.lookup query) ∧
    (Status.named.map s.report.count).sum = s.report.files.length ∧
    s.report.warnings.length = s.report.count .parseError + s.report.count .writeError ∧
    s.report.changes.total = (s.report.files.map FileResult.totalChanges).sum := by
  have accounted := run_accounted ran
  have sound := accounted.sound
  refine ⟨fun status named => ?_, ?_, fun query => ?_, ?_, ?_, total_changes s.report⟩
  · have bound : s.report.count status ≤ s.report.files.length := List.countP_le_length
    rw [← countP_status sound named]
    exact shown_files accounted (by rw [countP_status sound named]; omega)
  · rw [← countP_skipped sound]
    exact shown_files accounted (by rw [countP_skipped sound]; omega)
  · have positive : ∀ e ∈ s.report.files.flatMap FileResult.changes, 0 < e.2 := by
      intro e member
      obtain ⟨r, reported, inside⟩ := List.mem_flatMap.mp member
      exact (sound r reported).positive e inside
    rw [Report.changes_eq] at small ⊢
    rw [accounted.changes, Tally.lookup_merge]
    refine Metrics.shown_effective positive fun n found => ?_
    rw [← Tally.lookup_merge] at found
    obtain ⟨before, after, split, _⟩ := List.lookup_eq_some_iff.mp found
    exact small (query, n) (split ▸ List.mem_append_right before List.mem_cons_self)
  · exact count_sum sound
  · have all := count_sum sound
    have warned := length_warnings sound
    simp only [Status.named, List.map_cons, List.map_nil, List.sum_cons, List.sum_nil] at all
    omega

theorem run_counts_mixture :
    let d : Disk := ⟨[(["doc"], .directory),
      (["doc", "b.html"], .file "<p>x" 0o644),
      (["doc", "a.html"], .file "<p>A::B</p>" 0o644),
      (["doc", "c.html"], .file "<p>x</p>" 0o600),
      (["doc", "a_source.html"], .file "<p>A::B</p>" 0o644)]⟩
    let refuse : Refusals := fun p => if p = Text.ofString "doc/c.html" then some (.plain "no") else none
    let f := { standard false with separators := [⟨"top", .step .root .child .any [], []⟩] }
    ∃ s, f.run refuse d "doc" = .ok s ∧ s.report.files.length + s.report.skipped < 2 ^ 53 ∧
      (∀ e ∈ s.report.changes, e.2 < 2 ^ 53) ∧
      (∀ status ∈ Status.named, s.metrics.files.shown status.label = some 1) ∧
      s.metrics.files.shown Metrics.skipped = some 1 ∧
      (s.metrics.changes.shown "top").map Int.ofNat = some 1 := by
  intro d refuse f
  have seen : (f.run refuse d "doc").toOption.map (fun s =>
      (s.report.changes, Status.named.map s.report.count, s.report.files.length, s.report.skipped)) =
      some ([(Text.ofString "top", 1)], [1, 1, 1], 3, 1) := by
    cbv
  cases ran : f.run refuse d "doc" with
  | error e => rw [ran] at seen; contradiction
  | ok s =>
    rw [ran] at seen
    obtain ⟨changes, counts, files, skips⟩ : s.report.changes = [(Text.ofString "top", 1)] ∧
        Status.named.map s.report.count = [1, 1, 1] ∧ s.report.files.length = 3 ∧
        s.report.skipped = 1 := by
      simpa [Except.toOption] using seen
    have few : s.report.files.length + s.report.skipped < 2 ^ 53 := by omega
    have small : ∀ e ∈ s.report.changes, e.2 < 2 ^ 53 := by
      rw [changes]
      decide
    obtain ⟨shown, skipped, tallied, _⟩ := run_counters_agree f refuse ran few small
    refine ⟨s, rfl, few, small, fun status named => ?_, ?_, ?_⟩
    · have one : s.report.count status = 1 := by
        have member := List.mem_map_of_mem (f := s.report.count) named
        rw [counts] at member
        simpa using member
      rw [shown status named, one]
      rfl
    · rw [skipped, skips]
      rfl
    · rw [tallied, changes]
      decide

end Fixer
end DocBridge
