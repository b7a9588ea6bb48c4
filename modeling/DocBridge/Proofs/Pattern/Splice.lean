import DocBridge.Proofs.Pattern.Preference

/-
A replacement as a splice. The matches of a text follow one another from the left: each starts at
the first place at which anything can be read, searched from the end of the match before. The
stretches around them are copied, and what a replacement is handed are parts of the match.
-/
namespace DocBridge.Pattern

variable {α : Type}

def takesSome : Pattern α → Bool
  | .empty | .look _ | .star _ _ => false
  | .one _ => true
  | .seq p q => p.takesSome || q.takesSome
  | .alt p q => p.takesSome && q.takesSome
  | .group _ p => p.takesSome

def indices : Pattern α → List Nat
  | .empty | .one _ | .look _ => []
  | .seq p q => q.indices ++ p.indices
  | .alt p q => p.indices ++ q.indices
  | .star _ p => p.indices
  | .group i p => i :: p.indices

def loopsBare : Pattern α → Bool
  | .empty | .one _ | .look _ => true
  | .seq p q | .alt p q => p.loopsBare && q.loopsBare
  | .star _ p => p.loopsBare && p.indices.isEmpty
  | .group _ p => p.loopsBare

section Groups

variable {p : Pattern α} {prev : Option α} {x rest : List α} {g : Groups α}

theorem reads_ne_nil (takes : p.takesSome = true) (reads : Reads p prev x rest g) : x ≠ [] := by
  induction p generalizing prev x rest g with
  | empty => contradiction
  | one accepts =>
    obtain ⟨⟨a, rfl, -⟩, -⟩ := reads
    exact List.cons_ne_nil a []
  | look holds => contradiction
  | seq p q ihp ihq =>
    obtain ⟨y, z, h, i, rfl, -, first, second⟩ := reads
    rcases Bool.or_eq_true_iff.mp takes with left | right
    · exact List.append_ne_nil_of_left_ne_nil (ihp left first) z
    · exact List.append_ne_nil_of_right_ne_nil y (ihq right second)
  | alt p q ihp ihq =>
    obtain ⟨left, right⟩ := Bool.and_eq_true_iff.mp takes
    exact reads.elim (ihp left) (ihq right)
  | star greedy p ih => contradiction
  | group i p ih =>
    obtain ⟨h, -, inner⟩ := reads
    exact ih takes inner

/-- A group takes part once for each of its places in the pattern at most. -/
theorem reads_indices (bare : p.loopsBare = true) (reads : Reads p prev x rest g) :
    (g.map Prod.fst).Sublist p.indices := by
  induction p generalizing prev x rest g with
  | empty => simp [reads.2]
  | one accepts => simp [reads.2]
  | look holds => simp [reads.2.1]
  | seq p q ihp ihq =>
    obtain ⟨bareP, bareQ⟩ := Bool.and_eq_true_iff.mp bare
    obtain ⟨y, z, h, i, -, rfl, first, second⟩ := reads
    rw [List.map_append]
    exact (ihq bareQ second).append (ihp bareP first)
  | alt p q ihp ihq =>
    obtain ⟨bareP, bareQ⟩ := Bool.and_eq_true_iff.mp bare
    rcases reads with left | right
    · exact (ihp bareP left).trans (List.sublist_append_left _ _)
    · exact (ihq bareQ right).trans (List.sublist_append_right _ _)
  | star greedy p ih =>
    obtain ⟨bareP, empty⟩ := Bool.and_eq_true_iff.mp bare
    have nothing : g.map Prod.fst = [] := by
      simp only [Reads] at reads
      induction reads with
      | leave => rfl
      | again one _ later =>
        have here := ih bareP one
        rw [List.isEmpty_iff.mp empty, List.sublist_nil] at here
        rw [List.map_append, later, here, List.append_nil]
    rw [nothing]
    exact List.nil_sublist _
  | group i p ih =>
    obtain ⟨h, rfl, inner⟩ := reads
    exact (ih bare inner).cons_cons i

theorem reads_part (reads : Reads p prev x rest g) : ∀ e ∈ g, e.2 <:+: x := by
  induction p generalizing prev x rest g with
  | empty => simp [reads.2]
  | one accepts => simp [reads.2]
  | look holds => simp [reads.2.1]
  | seq p q ihp ihq =>
    obtain ⟨y, z, h, i, rfl, rfl, first, second⟩ := reads
    intro e member
    rcases List.mem_append.mp member with later | earlier
    · exact (ihq second e later).trans (List.suffix_append y z).isInfix
    · exact (ihp first e earlier).trans (List.prefix_append y z).isInfix
  | alt p q ihp ihq =>
    rcases reads with left | right
    · exact ihp left
    · exact ihq right
  | star greedy p ih =>
    simp only [Reads] at reads
    induction reads with
    | leave => simp
    | @again prev x y rest g h one _ later =>
      intro e member
      rcases List.mem_append.mp member with after | here
      · exact (later e after).trans (List.suffix_append x y).isInfix
      · exact (ih one e here).trans (List.prefix_append x y).isInfix
  | group i p ih =>
    obtain ⟨h, rfl, inner⟩ := reads
    exact List.forall_mem_cons.mpr ⟨List.infix_rfl, ih inner⟩

theorem lookup_of_mem (distinct : (g.map Prod.fst).Nodup) {i : Nat} {w : List α}
    (member : (i, w) ∈ g) : g.lookup i = some w := by
  obtain ⟨front, back, rfl⟩ := List.append_of_mem member
  refine List.lookup_eq_some_iff.mpr ⟨front, back, rfl, fun e early => ?_⟩
  rw [List.map_append, List.map_cons] at distinct
  have fresh := (List.nodup_append.mp distinct).2.2 e.1 (List.mem_map_of_mem early) i
    List.mem_cons_self
  simpa using fresh.symm

end Groups

structure Occurrence (α : Type) where
  start : Nat
  found : Match α

namespace Occurrence

def stop (o : Occurrence α) : Nat := o.start + o.found.text.length

def IsFound (p : Pattern α) (s : List α) (o : Occurrence α) : Prop :=
  p.matchAt? (s.take o.start).getLast? (s.drop o.start) = some o.found

/-- A match takes part of the text, and so does each of its groups that took part in it; a group
that did not is handed on as empty. -/
structure Given (p : Pattern α) (s : List α) (o : Occurrence α) : Prop where
  some_ : o.found.text ≠ []
  whole : s.drop o.start = o.found.text ++ s.drop o.stop
  reads : Reads p (s.take o.start).getLast? o.found.text (s.drop o.stop) o.found.groups
  part : ∀ i w, (i, w) ∈ o.found.groups → o.found.group i = w ∧ w <:+: o.found.text
  absent : ∀ i, (∀ w, (i, w) ∉ o.found.groups) → o.found.group i = []

end Occurrence

def Unread (p : Pattern α) (s : List α) (i : Nat) : Prop :=
  ∀ x r g, s.drop i = x ++ r → ¬ Reads p (s.take i).getLast? x r g

/-- The matches from place `i` on: the leftmost one, then those from its end on. -/
inductive Successive (p : Pattern α) (s : List α) : Nat → List (Occurrence α) → Prop
  | done {i : Nat} (unread : ∀ j, i ≤ j → j ≤ s.length → Unread p s j) : Successive p s i []
  | next {i : Nat} {o : Occurrence α} {more : List (Occurrence α)} (behind : i ≤ o.start)
      (unread : ∀ j, i ≤ j → j < o.start → Unread p s j) (here : o.IsFound p s)
      (later : Successive p s o.stop more) : Successive p s i (o :: more)

/-- The text from place `i` on with `f` of each match in its place. -/
def splice (f : Match α → List α) (s : List α) : Nat → List (Occurrence α) → List α
  | i, [] => s.drop i
  | i, o :: more => (s.take o.start).drop i ++ (f o.found ++ splice f s o.stop more)

def occurrences : Nat → List (Piece α) → List (Occurrence α)
  | _, [] => []
  | i, .gap _ :: pieces => occurrences (i + 1) pieces
  | i, .hit m :: pieces => ⟨i, m⟩ :: occurrences (i + m.text.length) pieces

section Occurrences

variable {p : Pattern α} {s : List α} {i : Nat} {o : Occurrence α} {pieces : List (Piece α)}

theorem occurrences_behind (pieces : List (Piece α)) (i : Nat) :
    ∀ o ∈ (occurrences i pieces).head?, i ≤ o.start := by
  induction pieces generalizing i with
  | nil => simp [occurrences]
  | cons piece pieces ih =>
    cases piece with
    | gap a =>
      intro o first
      exact Nat.le_of_succ_le (ih (i + 1) o first)
    | hit m => simp [occurrences]

theorem splice_copy {f : Match α → List α} {a : α} {rest : List α} {found : List (Occurrence α)}
    (here : s.drop i = a :: rest) (behind : ∀ o ∈ found.head?, i + 1 ≤ o.start) :
    splice f s i found = a :: splice f s (i + 1) found := by
  have next : s.drop (i + 1) = rest := by rw [← List.tail_drop, here, List.tail_cons]
  cases found with
  | nil => simp only [splice, here, next]
  | cons o more =>
    have front : (s.take o.start).drop i = a :: (s.take o.start).drop (i + 1) := by
      obtain ⟨n, place⟩ := Nat.exists_eq_add_of_le (behind o rfl)
      have more : o.start - i = n + 1 := by omega
      have less : o.start - (i + 1) = n := by omega
      rw [List.drop_take, List.drop_take, here, next, more, less, List.take_succ_cons]
    simp only [splice, front, List.cons_append]

/-- The pieces put together again are the text with its matches spliced. -/
theorem put_splice (f : Match α → List α) (whole : pieces.flatMap Piece.text = s.drop i) :
    pieces.flatMap (Piece.put f) = splice f s i (occurrences i pieces) := by
  induction pieces generalizing i with
  | nil => exact whole
  | cons piece pieces ih =>
    cases piece with
    | gap a =>
      have here : s.drop i = a :: pieces.flatMap Piece.text := whole.symm
      have next : pieces.flatMap Piece.text = s.drop (i + 1) := by
        rw [← List.tail_drop, here, List.tail_cons]
      rw [occurrences, splice_copy here (occurrences_behind pieces (i + 1)), ← ih next]
      rfl
    | hit m =>
      have here : m.text ++ pieces.flatMap Piece.text = s.drop i := whole
      have next : pieces.flatMap Piece.text = s.drop (i + m.text.length) := by
        rw [← List.drop_drop, ← here, List.drop_left]
      have none_ : (s.take i).drop i = [] := List.drop_eq_nil_of_le (List.length_take_le i s)
      rw [occurrences, splice, none_, Occurrence.stop, ← ih next]
      rfl

theorem cut_text {prev : Option α} (cut : Cut p prev s pieces) : pieces.flatMap Piece.text = s := by
  induction cut with
  | done => rfl
  | gap _ _ ih => rw [List.flatMap_cons, ih]; rfl
  | hit _ _ _ ih => rw [List.flatMap_cons, ih]; rfl

theorem replace_splice (p : Pattern α) (f : Match α → List α) (s : List α) :
    p.replace f s = splice f s 0 (occurrences 0 (p.pieces s)) :=
  put_splice f (cut_text (cut_pieces p s))

theorem replace_whole (p : Pattern α) (s : List α) : p.replace Match.text s = s := by
  have same : Piece.put Match.text = Piece.text (α := α) := by
    funext piece
    cases piece <;> rfl
  have copied : (p.pieces s).flatMap (Piece.put Match.text) = s := by
    rw [same]
    exact cut_text (cut_pieces p s)
  exact copied

theorem last_taken {x rest : List α} (here : s.drop i = x ++ rest) (some_ : x ≠ []) :
    (s.take (i + x.length)).getLast? = x.getLast? := by
  rw [List.take_add, here, List.take_left, List.getLast?_append,
    List.getLast?_eq_some_getLast some_, Option.some_or]

theorem found_of_successive {found : List (Occurrence α)} (successive : Successive p s i found) :
    ∀ o ∈ found, o.IsFound p s := by
  induction successive with
  | done => simp
  | next _ _ here _ ih => exact List.forall_mem_cons.mpr ⟨here, ih⟩

theorem successive_skip {found : List (Occurrence α)} (here : Unread p s i)
    (successive : Successive p s (i + 1) found) : Successive p s i found := by
  have both {j : Nat} (low : i ≤ j) (behind : i + 1 ≤ j → Unread p s j) : Unread p s j := by
    rcases Nat.eq_or_lt_of_le low with rfl | above
    · exact here
    · exact behind above
  cases successive with
  | done unread => exact .done fun j low high => both low fun above => unread j above high
  | next behind unread found later =>
    exact .next (Nat.le_of_succ_le behind)
      (fun j low high => both low fun above => unread j above high) found later

section Leftmost

variable (takes : p.takesSome = true)

include takes

theorem successive_occurrences {prev : Option α} {rest : List α} (cut : Cut p prev rest pieces)
    (here : s.drop i = rest) (before : (s.take i).getLast? = prev) :
    Successive p s i (occurrences i pieces) := by
  induction cut generalizing i with
  | done prev =>
    refine .done fun j low _ x r g split reads => reads_ne_nil takes reads ?_
    have nothing : s.drop j = [] := by
      obtain ⟨n, rfl⟩ := Nat.exists_eq_add_of_le low
      rw [← List.drop_drop, here, List.drop_nil]
    rw [nothing] at split
    exact (List.append_eq_nil_iff.mp split.symm).1
  | @gap prev a rest pieces unmatched more ih =>
    have unread : Unread p s i := by
      intro x r g split reads
      rw [before] at reads
      obtain ⟨m, rest', whole, some_, found⟩ :=
        reads_found reads fun r h empty => reads_ne_nil takes empty rfl
      rw [← whole, ← split, here] at found
      exact some_ (unmatched m found)
    have next : s.drop (i + 1) = rest := by rw [← List.tail_drop, here, List.tail_cons]
    exact successive_skip unread (ih next (last_taken (x := [a]) here (by simp)))
  | @hit prev m rest pieces taken found more ih =>
    have next : s.drop (i + m.text.length) = rest := by
      rw [← List.drop_drop, here, List.drop_left]
    have isFound : Occurrence.IsFound p s ⟨i, m⟩ := by
      rw [Occurrence.IsFound, before, here]
      exact found
    refine .next (Nat.le_refl i) ?_ isFound (ih next (last_taken here taken))
    intro j low high
    exact absurd low (Nat.not_le.mpr high)

theorem isFound_read (here : o.IsFound p s) : o.start < s.length ∧ ¬ Unread p s o.start := by
  obtain ⟨rest, whole, reads⟩ := matchAt_reads here
  constructor
  · have some_ := List.length_pos_iff.mpr (reads_ne_nil takes reads)
    have size := congrArg List.length whole
    rw [List.length_drop, List.length_append] at size
    omega
  · exact fun unread => unread _ _ _ whole reads

theorem given_of_isFound (bare : p.loopsBare = true) (once : p.indices.Nodup)
    (here : o.IsFound p s) : o.Given p s := by
  obtain ⟨rest, whole, reads⟩ := matchAt_reads here
  have behind : s.drop o.stop = rest := by
    rw [Occurrence.stop, ← List.drop_drop, whole, List.drop_left]
  rw [← behind] at whole reads
  have distinct := once.sublist (reads_indices bare reads)
  refine ⟨reads_ne_nil takes reads, whole, reads, fun i w member => ?_, fun i none_ => ?_⟩
  · rw [Match.group, lookup_of_mem distinct member]
    exact ⟨rfl, reads_part reads _ member⟩
  · have missing : o.found.groups.lookup i = none := by
      rw [List.lookup_eq_none_iff]
      intro e member
      rw [bne_iff_ne]
      rintro rfl
      exact none_ e.2 member
    rw [Match.group, missing]
    rfl

theorem isFound_behind {stop : Nat} (here : o.IsFound p s) (behind : i ≤ o.start)
    (unread : ∀ j, i ≤ j → j < stop → Unread p s j) : stop ≤ o.start := by
  apply Nat.not_lt.mp
  intro before
  exact (isFound_read takes here).2 (unread o.start behind before)

theorem successive_unique {xs ys : List (Occurrence α)} (one : Successive p s i xs)
    (other : Successive p s i ys) : xs = ys := by
  induction one generalizing ys with
  | done unread =>
    cases other with
    | done => rfl
    | next behind _ here _ =>
      obtain ⟨inside, read⟩ := isFound_read takes here
      exact absurd (unread _ behind (Nat.le_of_lt inside)) read
  | @next i o more behind unread here later ih =>
    cases other with
    | done unread' =>
      obtain ⟨inside, read⟩ := isFound_read takes here
      exact absurd (unread' _ behind (Nat.le_of_lt inside)) read
    | @next _ o' more' behind' unread' here' later' =>
      have start : o.start = o'.start := Nat.le_antisymm
        (isFound_behind takes here' behind' unread) (isFound_behind takes here behind unread')
      have same : o = o' := by
        obtain ⟨start_, found⟩ := o
        obtain ⟨start_', found'⟩ := o'
        obtain rfl : start_ = start_' := start
        rw [Occurrence.mk.injEq]
        exact ⟨rfl, Option.some.inj (here.symm.trans here')⟩
      subst same
      rw [ih later']

end Leftmost

end Occurrences

end DocBridge.Pattern
