import DocBridge.Disk
import DocBridge.Proofs.Text.Split
import Mathlib.Data.List.Nodup

/-
Looking up paths in a tree without links. Such a look-up goes down and up one name at a time, so
that a path and its shortest spelling lead to the same place, and the path that a walk gives to a
file leads to that file.
-/
namespace DocBridge

namespace Path

def isProper (name : Text) : Bool :=
  !name.isEmpty && name != Text.ofString "." && name != Text.ofString ".."
    && !Text.containsByte 0x2F name

theorem proper_name {name : Text} (proper : isProper name = true) :
    name ≠ [] ∧ name ≠ Text.ofString "." ∧ name ≠ Text.ofString ".." ∧ 0x2F ∉ name := by
  simp only [isProper, Bool.and_eq_true, Bool.not_eq_true', List.isEmpty_eq_false_iff, bne_iff_ne,
    Text.containsByte, List.any_beq', List.contains_eq_mem, decide_eq_false_iff_not] at proper
  obtain ⟨⟨⟨some_, notHere⟩, notUp⟩, noSlash⟩ := proper
  exact ⟨some_, notHere, notUp, noSlash⟩

theorem push_proper {name : Text} (proper : isProper name = true) (rooted : Bool)
    (done : List Text) : push rooted done name = name :: done := by
  obtain ⟨some_, notHere, notUp, _⟩ := proper_name proper
  simp [push, some_, notHere, notUp]

theorem push_up {last : Text} (down : last ≠ Text.ofString "..") (rooted : Bool)
    (before : List Text) : push rooted (last :: before) (Text.ofString "..") = before := by
  rw [push, if_neg (by decide), if_pos (by decide)]
  exact if_neg (by simpa using down)

theorem foldl_push_proper {names : List Text} (proper : ∀ name ∈ names, isProper name = true)
    (rooted : Bool) (done : List Text) :
    names.foldl (push rooted) done = names.reverse ++ done := by
  induction names generalizing done with
  | nil => rfl
  | cons name names ih =>
    rw [List.foldl_cons, push_proper (proper name List.mem_cons_self),
      ih fun n member => proper n (List.mem_cons_of_mem _ member)]
    simp

def spell (rooted : Bool) (names : List Text) : Text :=
  if rooted then 0x2F :: Text.join [0x2F] names else Text.join [0x2F] names

theorem join_proper_head {names : List Text} (some_ : names ≠ [])
    (proper : ∀ name ∈ names, isProper name = true) :
    ∃ b rest, Text.join [0x2F] names = b :: rest ∧ b ≠ 0x2F := by
  cases names with
  | nil => contradiction
  | cons name names =>
    obtain ⟨notEmpty, _, _, noSlash⟩ := proper_name (proper name List.mem_cons_self)
    have head := Text.join_head notEmpty [0x2F] names
    cases name with
    | nil => contradiction
    | cons b name =>
      obtain ⟨rest, same⟩ := List.head?_eq_some_iff.mp head
      exact ⟨b, rest, same, fun slash => noSlash (slash ▸ List.mem_cons_self)⟩

/-- A spelling is read back as it was written. -/
theorem spell_names {names : List Text} (some_ : names ≠ [])
    (proper : ∀ name ∈ names, isProper name = true) (rooted : Bool) :
    spell rooted names ≠ [] ∧ isAbsolute (spell rooted names) = rooted ∧
      Path.names (spell rooted names) = (if rooted then [[]] else []) ++ names := by
  obtain ⟨b, rest, same, noSlash⟩ := join_proper_head some_ proper
  have split : Path.names (Text.join [0x2F] names) = names :=
    Text.splitOn_join some_ fun name member => (proper_name (proper name member)).2.2.2
  cases rooted with
  | true =>
    refine ⟨by simp [spell], rfl, ?_⟩
    exact (Text.splitOn_cons_self 0x2F _).trans (congrArg ([] :: ·) split)
  | false =>
    refine ⟨?_, ?_, split⟩
    · simp [spell, same]
    · simp [spell, same, isAbsolute, noSlash]

theorem join_eq_spell {dir : Text} {done rest : List Text} (some_ : dir ≠ []) (more : rest ≠ [])
    (pushed : (Path.names dir).foldl (push (isAbsolute dir)) [] = done)
    (proper : ∀ name ∈ done.reverse ++ rest, isProper name = true) :
    join dir (Text.join "/" rest) = spell (isAbsolute dir) (done.reverse ++ rest) := by
  have slash : Text.ofString "/" = [0x2F] := rfl
  have absolute : isAbsolute (dir ++ [0x2F] ++ Text.join [0x2F] rest) = isAbsolute dir := by
    cases dir with
    | nil => contradiction
    | cons b dir => rfl
  have properRest : ∀ name ∈ rest, isProper name = true :=
    fun name member => proper name (List.mem_append_right _ member)
  have names : Path.names (dir ++ [0x2F] ++ Text.join [0x2F] rest) = Path.names dir ++ rest := by
    rw [Path.names, List.append_assoc, List.singleton_append, Text.splitOn_append,
      Text.splitOn_join more fun name member => (proper_name (properRest name member)).2.2.2]
    rfl
  have body : ((Path.names dir ++ rest).foldl (push (isAbsolute dir)) []).reverse
      = done.reverse ++ rest := by
    rw [List.foldl_append, pushed, foldl_push_proper properRest, List.reverse_append,
      List.reverse_reverse]
  obtain ⟨b, tail, same, _⟩ := join_proper_head (by simp [more]) proper
  rw [join, slash, clean, absolute, names, body, slash, spell]
  split
  · rfl
  · rw [if_neg (by simp [same])]

end Path

namespace Disk

def steps (path : List Text) : List Text := if isRooted path then path.tail else path

/-- Files and directories under distinct proper names, each inside directories that are there. -/
structure IsTree (d : Disk) : Prop where
  distinct : (d.entries.map Prod.fst).Nodup
  named : ∀ p ∈ d.entries, steps p.1 ≠ [] ∧ ∀ name ∈ steps p.1, Path.isProper name = true
  inside : ∀ p ∈ d.entries, ∀ n < p.1.length, d.entry? (p.1.take n) = some .directory
  linkless : ∀ p ∈ d.entries, ∀ target, p.2 ≠ .link target

variable {d : Disk}

theorem mem_of_entry {path : List Text} {e : Entry} (found : d.entry? path = some e)
    (inner : path ≠ [] ∧ path ≠ root) : (path, e) ∈ d.entries := by
  unfold entry? at found
  rw [if_neg (by simp [inner])] at found
  obtain ⟨before, after, same, _⟩ := List.lookup_eq_some_iff.mp found
  simp [same]

theorem ne_top (tree : d.IsTree) {path : List Text} {e : Entry} (member : (path, e) ∈ d.entries) :
    path ≠ [] ∧ path ≠ root := by
  have named := (tree.named _ member).1
  constructor <;> rintro rfl <;> exact named rfl

theorem entry_of_mem (tree : d.IsTree) {path : List Text} {e : Entry}
    (member : (path, e) ∈ d.entries) : d.entry? path = some e := by
  have top := ne_top tree member
  unfold entry?
  rw [if_neg (by simp [top])]
  obtain ⟨before, after, same⟩ := List.append_of_mem member
  refine List.lookup_eq_some_iff.mpr ⟨before, after, same, fun p early => ?_⟩
  have distinct := tree.distinct
  rw [same, List.map_append, List.map_cons, List.nodup_append] at distinct
  exact bne_iff_ne.mpr (Ne.symm (distinct.2.2 p.1 (List.mem_map_of_mem early) path (by simp)))

theorem entry_ancestor (tree : d.IsTree) {path rest : List Text} {e : Entry}
    (member : (path ++ rest, e) ∈ d.entries) (more : rest ≠ []) :
    d.entry? path = some .directory := by
  have outer := tree.inside _ member path.length
    (by rw [List.length_append]; have := List.length_pos_iff.mpr more; omega)
  rwa [List.take_left] at outer

theorem entry_linkless (tree : d.IsTree) (path : List Text) (target : Text) :
    d.entry? path ≠ some (.link target) := by
  intro found
  by_cases top : path = [] ∨ path = root
  · have directory : d.entry? path = some .directory := by rcases top with rfl | rfl <;> rfl
    simp [directory] at found
  · exact tree.linkless _ (mem_of_entry found (not_or.mp top)) target rfl

def stepTo (d : Disk) (at_ : List Text) (name : Text) : Except LookupError (List Text) :=
  match d.entry? at_ with
  | some .directory =>
    if name == [] || name == Text.ofString "." then .ok at_
    else if name == Text.ofString ".." then
      if at_.isEmpty then .error .missing
      else if at_ == root then .ok at_
      else .ok (at_.take (at_.length - 1))
    else if (d.entry? (at_ ++ [name])).isNone then .error .missing
    else .ok (at_ ++ [name])
  | some _ => .error .notDirectory
  | none => .error .missing

theorem resolveFrom_eq (tree : d.IsTree) (follow : Bool) (links : Nat) (at_ todo : List Text) :
    d.resolveFrom follow links at_ todo = todo.foldlM d.stepTo at_ := by
  induction todo generalizing at_ with
  | nil => rw [resolveFrom]; rfl
  | cons name rest ih =>
    rw [resolveFrom, List.foldlM_cons, stepTo]
    simp only [ih]
    cases here : d.entry? at_ with
    | none => rfl
    | some e =>
      cases e with
      | file data mode => rfl
      | link target => rfl
      | directory =>
        simp only
        split
        · rfl
        · split
          · split
            · rfl
            · split <;> rfl
          · cases next : d.entry? (at_ ++ [name]) with
            | none => rfl
            | some e =>
              cases e with
              | link target => exact absurd next (entry_linkless tree _ target)
              | file data mode => rfl
              | directory => rfl

/-- All that one name can do: stay, go up, or go down to an entry. -/
theorem stepTo_cases {at_ next : List Text} {name : Text} (stepped : d.stepTo at_ name = .ok next) :
    d.entry? at_ = some .directory ∧
      (((name = [] ∨ name = Text.ofString ".") ∧ next = at_) ∨
        (name = Text.ofString ".." ∧ at_ = root ∧ next = at_) ∨
        (name = Text.ofString ".." ∧ at_ ≠ [] ∧ at_ ≠ root ∧
          next = at_.take (at_.length - 1)) ∨
        (name ≠ [] ∧ name ≠ Text.ofString "." ∧ name ≠ Text.ofString ".." ∧
          next = at_ ++ [name] ∧ ∃ e, d.entry? next = some e)) := by
  unfold stepTo at stepped
  split at stepped
  · rename_i here
    refine ⟨here, ?_⟩
    split at stepped
    · rename_i stays
      exact .inl ⟨by simpa using stays, (Except.ok.inj stepped).symm⟩
    · rename_i moves
      split at stepped
      · rename_i up
        split at stepped
        · contradiction
        · rename_i inner
          split at stepped
          · rename_i top
            exact .inr (.inl ⟨by simpa using up, by simpa using top, (Except.ok.inj stepped).symm⟩)
          · rename_i inside
            exact .inr (.inr (.inl ⟨by simpa using up, by simpa using inner, by simpa using inside,
              (Except.ok.inj stepped).symm⟩))
      · rename_i down
        split at stepped
        · contradiction
        · rename_i there
          cases Except.ok.inj stepped
          simp only [Bool.or_eq_true, beq_iff_eq, not_or] at moves
          refine .inr (.inr (.inr ⟨moves.1, moves.2, by simpa using down, rfl, ?_⟩))
          exact Option.ne_none_iff_exists'.mp (by simpa using there)
  · contradiction
  · contradiction

/-- Where a look-up stands: `done` are the names taken since the start, innermost first. -/
structure Stands (d : Disk) (rooted : Bool) (done at_ : List Text) : Prop where
  place : at_ = (if rooted then root else []) ++ done.reverse
  proper : ∀ name ∈ done, name ≠ [] ∧ name ≠ Text.ofString ".."
  there : ∃ e, d.entry? at_ = some e

theorem stands_start (d : Disk) (rooted : Bool) : Stands d rooted [] (if rooted then root else []) where
  place := (List.append_nil _).symm
  proper := by simp
  there := by cases rooted <;> exact ⟨_, rfl⟩

theorem step_stands (tree : d.IsTree) {rooted : Bool} {done at_ next : List Text} {name : Text}
    (stands : Stands d rooted done at_) (stepped : d.stepTo at_ name = .ok next) :
    Stands d rooted (Path.push rooted done name) next := by
  obtain ⟨here, stays | ⟨rfl, top, rfl⟩ | ⟨rfl, some_, inside, rfl⟩ |
    ⟨notEmpty, notHere, notUp, rfl, there⟩⟩ := stepTo_cases stepped
  · have same : Path.push rooted done name = done := by
      rcases stays.1 with rfl | rfl <;> rfl
    rw [same, stays.2]
    exact stands
  · -- There is nothing above the root.
    have place := stands.place
    cases rooted with
    | false =>
      have only : done.reverse = [[]] := place.symm.trans top
      have member : [] ∈ done := by rw [← List.mem_reverse, only]; exact List.mem_singleton_self _
      exact absurd rfl (stands.proper [] member).1
    | true =>
      have nothing : done = [] := by
        rw [top] at place
        simpa [root] using place
      subst nothing
      exact stands
  · cases done with
    | nil =>
      have place := stands.place
      cases rooted
      · exact absurd place some_
      · exact absurd place inside
    | cons last before =>
      have notUp := (stands.proper last List.mem_cons_self).2
      have split : at_ = ((if rooted then root else []) ++ before.reverse) ++ [last] := by
        rw [stands.place, List.reverse_cons, List.append_assoc]
      have outer : at_.take (at_.length - 1) = (if rooted then root else []) ++ before.reverse := by
        rw [split, List.length_append, List.length_singleton, Nat.add_sub_cancel, List.take_left]
      rw [Path.push_up notUp, outer]
      refine ⟨rfl, fun name member => stands.proper name (List.mem_cons_of_mem _ member), ?_⟩
      have member := mem_of_entry here ⟨some_, inside⟩
      rw [split] at member
      exact ⟨_, entry_ancestor tree member (by simp)⟩
  · have same : Path.push rooted done name = name :: done := by
      simp [Path.push, notEmpty, notHere, notUp]
    rw [same]
    refine ⟨?_, ?_, there⟩
    · rw [stands.place, List.reverse_cons, List.append_assoc]
    · intro n member
      rcases List.mem_cons.mp member with rfl | earlier
      · exact ⟨notEmpty, notUp⟩
      · exact stands.proper n earlier

theorem stands_isRooted {rooted : Bool} {done at_ : List Text} (stands : Stands d rooted done at_) :
    isRooted at_ = rooted := by
  rw [stands.place]
  cases rooted with
  | true => rfl
  | false =>
    rw [if_neg Bool.false_ne_true, List.nil_append, isRooted, beq_eq_false_iff_ne, List.head?_reverse]
    intro last
    exact (stands.proper [] (List.mem_of_getLast? last)).1 rfl

theorem steps_stand (tree : d.IsTree) {rooted : Bool} (todo : List Text) :
    ∀ {done at_ last : List Text}, Stands d rooted done at_ →
      todo.foldlM d.stepTo at_ = .ok last → Stands d rooted (todo.foldl (Path.push rooted) done) last := by
  induction todo with
  | nil =>
    intro done at_ last stands ended
    cases Except.ok.inj ended
    exact stands
  | cons name rest ih =>
    intro done at_ last stands ended
    rw [List.foldlM_cons] at ended
    cases stepped : d.stepTo at_ name with
    | error e =>
      rw [stepped] at ended
      contradiction
    | ok next =>
      rw [stepped] at ended
      exact ih (step_stands tree stands stepped) ended

theorem foldlM_stepTo_proper (tree : d.IsTree) {e : Entry} (names : List Text) :
    ∀ at_ : List Text, (at_ ++ names, e) ∈ d.entries →
      (∀ name ∈ names, Path.isProper name = true) →
      names.foldlM d.stepTo at_ = .ok (at_ ++ names) := by
  induction names with
  | nil =>
    intro at_ _ _
    rw [List.append_nil]
    rfl
  | cons name rest ih =>
    intro at_ member proper
    obtain ⟨notEmpty, notHere, notUp, _⟩ := Path.proper_name (proper name List.mem_cons_self)
    have here := entry_ancestor tree member (by simp)
    have split : at_ ++ name :: rest = (at_ ++ [name]) ++ rest := by simp
    rw [split] at member ⊢
    have next : (d.entry? (at_ ++ [name])).isNone = false := by
      by_cases last : rest = []
      · rw [last, List.append_nil] at member
        rw [entry_of_mem tree member]
        rfl
      · rw [entry_ancestor tree member last]
        rfl
    have stepped : d.stepTo at_ name = .ok (at_ ++ [name]) := by
      simp [stepTo, here, notEmpty, notHere, notUp, next]
    rw [List.foldlM_cons, stepped]
    exact ih _ member fun n later => proper n (List.mem_cons_of_mem _ later)

theorem resolve_eq (tree : d.IsTree) (follow : Bool) {path : Text} (some_ : path ≠ []) :
    d.resolve follow path =
      (Path.names path).foldlM d.stepTo (if Path.isAbsolute path then root else []) := by
  rw [resolve, if_neg (by simpa using some_), resolveFrom_eq tree]

/-- The place that a path leads to is spelled by its names, cleaned. -/
theorem resolve_stands (tree : d.IsTree) {follow : Bool} {path : Text} {place : List Text}
    (found : d.resolve follow path = .ok place) :
    path ≠ [] ∧ Stands d (Path.isAbsolute path)
      ((Path.names path).foldl (Path.push (Path.isAbsolute path)) []) place := by
  have some_ : path ≠ [] := by
    rintro rfl
    contradiction
  rw [resolve_eq tree follow some_] at found
  exact ⟨some_, steps_stand tree _ (stands_start d _) found⟩

theorem resolve_spell (tree : d.IsTree) {rooted : Bool} {names : List Text} {e : Entry}
    (member : ((if rooted then root else []) ++ names, e) ∈ d.entries) (some_ : names ≠ [])
    (proper : ∀ name ∈ names, Path.isProper name = true) (follow : Bool) :
    d.resolve follow (Path.spell rooted names) = .ok ((if rooted then root else []) ++ names) := by
  obtain ⟨notEmpty, absolute, split⟩ := Path.spell_names some_ proper rooted
  rw [resolve_eq tree follow notEmpty, absolute, split]
  cases rooted with
  | false => exact foldlM_stepTo_proper tree names [] member proper
  | true => exact foldlM_stepTo_proper tree names root member proper

/-- The path that a walk from `dir` gives to an entry leads to that entry. -/
theorem resolve_below (tree : d.IsTree) {follow : Bool} {dir : Text} {place path : List Text}
    {e : Entry} (found : d.resolve follow dir = .ok place) (member : (path, e) ∈ d.entries)
    (below : isBelow place path = true) (other : path ≠ place) (follow' : Bool) :
    d.resolve follow' (Path.join dir (Text.join "/" (path.drop place.length))) = .ok path := by
  obtain ⟨some_, stands⟩ := resolve_stands tree found
  rw [isBelow, Bool.and_eq_true, List.isPrefixOf_iff_prefix, beq_iff_eq] at below
  obtain ⟨⟨rest, rfl⟩, rooted⟩ := below
  generalize pushed : (Path.names dir).foldl (Path.push (Path.isAbsolute dir)) [] = done at stands
  have more : rest ≠ [] := by
    rintro rfl
    exact other (List.append_nil _)
  rw [List.drop_left]
  have whole : place ++ rest = (if Path.isAbsolute dir then root else []) ++ (done.reverse ++ rest) := by
    rw [stands.place, List.append_assoc]
  have proper : ∀ name ∈ done.reverse ++ rest, Path.isProper name = true := by
    have named := (tree.named _ member).2
    rw [steps, rooted, stands_isRooted stands, whole] at named
    cases absolute : Path.isAbsolute dir with
    | true => simpa [absolute, root] using named
    | false => simpa [absolute] using named
  rw [Path.join_eq_spell some_ more pushed proper, whole]
  rw [whole] at member
  exact resolve_spell tree member (by simp [more]) proper follow'

theorem stat_directory (tree : d.IsTree) {dir : Text} (isDir : d.stat dir = .ok .directory) :
    ∃ place, (∀ follow, d.resolve follow dir = .ok place) ∧ d.entry? place = some .directory := by
  rw [stat] at isDir
  cases found : d.resolve true dir with
  | error e =>
    rw [found] at isDir
    contradiction
  | ok place =>
    obtain ⟨some_, stands⟩ := resolve_stands tree found
    refine ⟨place, fun follow => ?_, ?_⟩
    · rw [resolve_eq tree follow some_, ← resolve_eq tree true some_, found]
    · obtain ⟨e, there⟩ := stands.there
      simp only [found, there, Option.getD_some, Except.ok.injEq] at isDir
      rw [there, isDir]

end Disk

end DocBridge
