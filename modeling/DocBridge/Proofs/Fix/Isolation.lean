import DocBridge.Fix.Run
import DocBridge.Proofs.Disk.Bytes
import DocBridge.Proofs.Disk.Walk
import DocBridge.Proofs.Page.Idempotence

/-
A run over a directory treats each page on its own. Whatever happens to one file, the bytes, the
status and the changes of another come from its own bytes, and the walk visits and reports every
file.
-/
namespace DocBridge.Fixer

open Disk (nameOf)

variable {d : Disk}

/-- What becomes of a page, whether or not writing it is refused: its bytes, status and changes. -/
def verdict (f : Fixer) (refused : Bool) (page : Text) : Text × Status × Tally :=
  match f.fixPage page with
  | .error _ => (page, .parseError, [])
  | .ok (fixed, tally) => if refused then (page, .writeError, []) else (fixed, .fixed, tally)

/-- Fixing one file changes at most its own bytes, and says of it what its bytes decide. -/
theorem fixFile_verdict (f : Fixer) (refuse : Refusals) (tree : d.IsTree)
    (bytes : List Text → Text → Text) {path : Text} {place : List Text} {data : Text} {mode : Nat}
    (leads : d.resolve true path = .ok place) (member : (place, .file data mode) ∈ d.entries) :
    let after := f.verdict (refuse path).isSome (bytes place data)
    let outcome := f.fixFile refuse (d.withBytes bytes) path
    outcome.1 = (d.withBytes fun p old => if p = place then after.1 else bytes p old) ∧
      (FileResult.ofOutcome path outcome.2).path = path ∧
      (FileResult.ofOutcome path outcome.2).status = after.2.1 ∧
      (FileResult.ofOutcome path outcome.2).changes = after.2.2 := by
  intro after outcome
  have read := Disk.read_withBytes tree bytes leads member
  have keep := Disk.withBytes_keep tree bytes member
  simp only [outcome, after, fixFile, verdict, read]
  cases fixed : f.fixPage (bytes place data) with
  | error e =>
    simp only [keep]
    exact ⟨trivial, rfl, rfl, rfl⟩
  | ok result =>
    simp only [writePage]
    cases refuse path with
    | some e =>
      simp only [Option.isSome_some, if_true, keep]
      exact ⟨trivial, rfl, rfl, rfl⟩
    | none =>
      simp only [Disk.overwrite_withBytes tree leads member, Option.isSome_none,
        Bool.false_eq_true, if_false]
      exact ⟨trivial, rfl, rfl, rfl⟩

section Visits

variable (f : Fixer) (refuse : Refusals) (d : Disk) (dir : Text) (place : List Text)

def bytesAfter (seen : List (List Text)) (path : List Text) (data : Text) : Text :=
  if path ∈ seen ∧ wants f.settings (nameOf dir place path) = true then
    (f.verdict (refuse (nameOf dir place path)).isSome data).1
  else data

structure Visited (seen : List (List Text)) (s : Progress) : Prop where
  disk : s.disk = d.withBytes (bytesAfter f refuse dir place seen)
  listed : s.report.files.map FileResult.path =
    (seen.map (nameOf dir place)).filter (wants f.settings)
  results : ∀ r ∈ s.report.files, ∃ data, d.read r.path = .ok data ∧
    (r.status, r.changes) = (f.verdict (refuse r.path).isSome data).2
  counted : s.report.files.length + s.report.skipped = seen.length

end Visits

variable {f : Fixer} {refuse : Refusals} {dir : Text} {place : List Text}

theorem visited_start : Visited f refuse d dir place [] { disk := d } where
  disk := by
    have unchanged : bytesAfter f refuse dir place [] = fun _ data => data := by
      funext path data
      simp [bytesAfter]
    rw [unchanged, Disk.withBytes_same]
  listed := rfl
  results := by simp
  counted := rfl

theorem bytesAfter_new {seen : List (List Text)} {path : List Text} (new : path ∉ seen)
    (data : Text) : bytesAfter f refuse dir place seen path data = data := by
  simp [bytesAfter, new]

theorem bytesAfter_other {seen : List (List Text)} {path p : List Text} (other : p ≠ path)
    (data : Text) : bytesAfter f refuse dir place (seen ++ [path]) p data =
      bytesAfter f refuse dir place seen p data := by
  simp [bytesAfter, other]

theorem visit_visited (tree : d.IsTree) (there : d.resolve true dir = .ok place)
    (isDir : d.entry? place = some .directory) {seen : List (List Text)} {s : Progress}
    (visited : Visited f refuse d dir place seen s) {path : List Text}
    (member : path ∈ d.found place) (new : path ∉ seen) :
    Visited f refuse d dir place (seen ++ [path]) (f.visit refuse s (nameOf dir place path)) := by
  obtain ⟨data, mode, inside, leads⟩ := Disk.found_file tree there isDir member
  by_cases wanted : wants f.settings (nameOf dir place path) = true
  · have alone := fixFile_verdict f refuse tree (bytesAfter f refuse dir place seen) (leads true)
      inside
    simp only [← visited.disk, bytesAfter_new new] at alone
    obtain ⟨disk, named, status, changes⟩ := alone
    have read : d.read (nameOf dir place path) = .ok data := by
      have same := Disk.read_withBytes tree (fun _ data => data) (leads true) inside
      rwa [Disk.withBytes_same] at same
    rw [visit, if_pos wanted]
    refine ⟨?_, ?_, ?_, ?_⟩
    · refine disk.trans (Disk.withBytes_congr fun p old mode' inside' => ?_)
      by_cases here : p = path
      · subst here
        rw [if_pos rfl, (Disk.file_unique tree inside inside').1]
        simp [bytesAfter, wanted]
      · rw [if_neg here, bytesAfter_other here]
    · simp only [Report.add, List.map_append, List.filter_append, visited.listed]
      simp [named, wanted]
    · intro r reported
      simp only [Report.add, List.mem_append, List.mem_singleton] at reported
      rcases reported with earlier | rfl
      · exact visited.results r earlier
      · rw [named]
        exact ⟨data, read, by rw [status, changes]⟩
    · have counted := visited.counted
      simp only [Report.add, List.length_append, List.length_singleton]
      omega
  · rw [visit, if_neg wanted]
    refine ⟨?_, ?_, visited.results, ?_⟩
    · refine visited.disk.trans (Disk.withBytes_congr fun p old mode' _ => ?_)
      by_cases here : p = path
      · subst here
        simp [bytesAfter, wanted]
      · rw [bytesAfter_other here]
    · simp [Report.skip, visited.listed, wanted]
    · have counted := visited.counted
      simp only [Report.skip, List.length_append, List.length_singleton]
      omega

theorem visits_visited (tree : d.IsTree) (there : d.resolve true dir = .ok place)
    (isDir : d.entry? place = some .directory) (todo : List (List Text)) :
    ∀ (seen : List (List Text)) (s : Progress), Visited f refuse d dir place seen s →
      (∀ path ∈ todo, path ∈ d.found place) → (seen ++ todo).Nodup →
      Visited f refuse d dir place (seen ++ todo)
        (todo.foldl (fun s path => f.visit refuse s (nameOf dir place path)) s) := by
  induction todo with
  | nil =>
    intro seen s visited _ _
    rw [List.append_nil]
    exact visited
  | cons path todo ih =>
    intro seen s visited members distinct
    have new : path ∉ seen := fun old =>
      (List.nodup_append.mp distinct).2.2 path old path List.mem_cons_self rfl
    have split : seen ++ path :: todo = (seen ++ [path]) ++ todo := by simp
    have next := visit_visited tree there isDir visited (members path List.mem_cons_self) new
    rw [split] at distinct ⊢
    exact ih _ _ next (fun p later => members p (List.mem_cons_of_mem _ later)) distinct

theorem walk_eq (there : d.resolve false dir = .ok place)
    (isDir : d.entry? place = some .directory) :
    walk d dir = (d.found place).map (nameOf dir place) := by
  simp only [walk, there, isDir, Disk.found, List.map_map]
  refine List.map_congr_left fun rest _ => ?_
  rw [Function.comp_apply, nameOf, List.drop_left]

theorem checkDirectory_ok (isDir : d.stat dir = .ok .directory) : checkDirectory d dir = .ok () := by
  have some_ : dir.isEmpty = false := by
    cases dir with
    | nil => contradiction
    | cons b dir => rfl
  simp [checkDirectory, isDir, some_]

theorem run_visited (f : Fixer) (refuse : Refusals) (tree : d.IsTree)
    (isDir : d.stat dir = .ok .directory) (there : ∀ follow, d.resolve follow dir = .ok place)
    (directory : d.entry? place = some .directory) :
    ∃ s, f.run refuse d dir = .ok s ∧ Visited f refuse d dir place (d.found place) s := by
  have start : Visited f refuse d dir place [] { disk := d } := visited_start
  have visited := visits_visited tree (there true) directory (d.found place) [] _ start
    (fun _ member => member) (Disk.found_nodup tree place)
  generalize ended : (d.found place).foldl _ _ = s at visited
  refine ⟨{ s with logs := s.logs ++ [summary dir s.report] }, ?_,
    ⟨visited.disk, visited.listed, visited.results, visited.counted⟩⟩
  rw [run, checkDirectory_ok isDir, walk_eq (there false) directory, List.foldl_map, ended]
  rfl

/-- In a tree without links a run from a directory succeeds and treats each file on its own. The
walk visits all files below, each once and in order, under paths that lead to them. A page keeps its
bytes unless it is wanted, can be fixed and may be written; it then has the bytes that fixing its
own gives. The report lists the wanted pages in the order of the walk, with the status and the
changes that their own bytes decide, and counts the others. -/
theorem run_isolates_files (f : Fixer) (refuse : Refusals) {d : Disk} {dir : Text}
    (tree : d.IsTree) (isDir : d.stat dir = .ok .directory) :
    ∃ place s, d.resolve true dir = .ok place ∧ f.run refuse d dir = .ok s ∧
      (∃ found : List (List Text),
        found.Perm ((d.entries.filter (Disk.isFound place)).map Prod.fst) ∧
        (found.Pairwise fun a b =>
          Path.before (a.drop place.length) (b.drop place.length) = true) ∧
        walk d dir = found.map (nameOf dir place) ∧ (walk d dir).Nodup ∧
        ∀ path ∈ found, d.resolve true (nameOf dir place path) = .ok path) ∧
      (∀ p ∈ walk d dir, ∃ data, d.read p = .ok data ∧
        s.disk.read p =
          .ok (if wants f.settings p then (f.verdict (refuse p).isSome data).1 else data)) ∧
      s.disk = d.withBytes (bytesAfter f refuse dir place (d.found place)) ∧
      s.report.files.map FileResult.path = (walk d dir).filter (wants f.settings) ∧
      (∀ r ∈ s.report.files, ∃ data, d.read r.path = .ok data ∧
        (r.status, r.changes) = (f.verdict (refuse r.path).isSome data).2) ∧
      s.report.files.length + s.report.skipped = d.entries.countP (Disk.isFound place) := by
  obtain ⟨place, there, directory⟩ := Disk.stat_directory tree isDir
  obtain ⟨s, ran, visited⟩ := run_visited f refuse tree isDir there directory
  have walked := walk_eq (there false) directory
  have files := fun (path : List Text) (member : path ∈ d.found place) =>
    Disk.found_file tree (there true) directory member
  refine ⟨place, s, there true, ran, ⟨d.found place, Disk.found_perm d place,
    Disk.found_sorted d place, walked, ?_, ?_⟩, ?_, visited.disk, ?_, visited.results, ?_⟩
  · rw [walked]
    exact Disk.names_nodup tree (there true) directory
  · intro path member
    obtain ⟨_, _, _, leads⟩ := files path member
    exact leads true
  · intro p member
    rw [walked] at member
    obtain ⟨path, found, rfl⟩ := List.mem_map.mp member
    obtain ⟨data, mode, inside, leads⟩ := files path found
    have before := Disk.read_withBytes tree (fun _ data => data) (leads true) inside
    have after := Disk.read_withBytes tree (bytesAfter f refuse dir place (d.found place))
      (leads true) inside
    rw [Disk.withBytes_same] at before
    rw [visited.disk]
    refine ⟨data, before, after.trans ?_⟩
    simp only [bytesAfter, found, true_and]
  · rw [visited.listed, walked]
  · rw [visited.counted, (Disk.found_perm d place).length_eq, List.length_map,
      ← List.countP_eq_length_filter]

theorem run_isolates_mixture :
    let d : Disk := ⟨[(["doc"], .directory),
      (["doc", "b.html"], .file "<p>x" 0o644),
      (["doc", "a.html"], .file "<a class=\"el\">A::B</a>" 0o644),
      (["doc", "c.html"], .file "<p>x</p>" 0o600),
      (["doc", "a-source.html"], .file "<p>A::B</p>" 0o644)]⟩
    let refuse : Refusals := fun p => if p = Text.ofString "doc/c.html" then some (.plain "no") else none
    d.IsTree ∧ d.stat "./doc/" = .ok .directory ∧
      ∃ s, (standard false).run refuse d "./doc/" = .ok s ∧
        s.report.files.length + s.report.skipped = 4 := by
  intro d refuse
  have tree : d.IsTree := ⟨by decide, by decide, by decide, by simp [d]⟩
  have found : d.resolve true "./doc/" = .ok ["doc"] := by
    rw [Disk.resolve_eq tree true (by decide)]
    decide
  have isDir : d.stat "./doc/" = .ok .directory := by
    rw [Disk.stat, found]
    rfl
  obtain ⟨place, s, there, ran, _, _, _, _, _, counted⟩ :=
    run_isolates_files (standard false) refuse tree isDir
  cases Except.ok.inj (found.symm.trans there)
  exact ⟨tree, isDir, s, ran, counted.trans (by decide)⟩

end DocBridge.Fixer
