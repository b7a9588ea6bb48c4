import DocBridge.Proofs.Pattern.Reads

/-
The pieces of a text as a derivation. Each piece is either a single element at which no match
starts or a match that was found right there; put together again the pieces are the text.
-/
namespace DocBridge.Pattern

variable {α : Type}

def Piece.text : Piece α → List α
  | .gap a => [a]
  | .hit m => m.text

def Piece.put (f : Match α → List α) : Piece α → List α
  | .gap a => [a]
  | .hit m => f m

theorem found_reads {p : Pattern α} {prev : Option α} {m : Match α} {rest : List α}
    (found : p.matchAt? prev (m.text ++ rest) = some m) : Reads p prev m.text rest m.groups := by
  obtain ⟨rest', whole, reads⟩ := matchAt_reads found
  rw [List.append_cancel_left_eq] at whole
  rw [whole]
  exact reads

inductive Cut (p : Pattern α) : Option α → List α → List (Piece α) → Prop
  | done (prev : Option α) : Cut p prev [] []
  | gap {prev : Option α} {a : α} {rest : List α} {pieces : List (Piece α)}
      (unmatched : ∀ m, p.matchAt? prev (a :: rest) = some m → m.text = [])
      (more : Cut p (some a) rest pieces) : Cut p prev (a :: rest) (.gap a :: pieces)
  | hit {prev : Option α} {m : Match α} {rest : List α} {pieces : List (Piece α)}
      (taken : m.text ≠ []) (found : p.matchAt? prev (m.text ++ rest) = some m)
      (more : Cut p m.text.getLast? rest pieces) : Cut p prev (m.text ++ rest) (.hit m :: pieces)

theorem cut_piecesFrom (p : Pattern α) (prev : Option α) (s : List α) :
    Cut p prev s (piecesFrom p prev s) := by
  fun_induction piecesFrom p prev s with
  | case1 prev => exact .done prev
  | case2 prev a rest m found empty ih =>
    refine .gap (fun m' found' => ?_) ih
    rw [found] at found'
    cases found'
    exact List.isEmpty_iff.mp empty
  | case3 prev a rest m found taken ih =>
    obtain ⟨tail, whole, _⟩ := matchAt_reads found
    have some_ : m.text ≠ [] := fun empty => taken (List.isEmpty_iff.mpr empty)
    have after : rest.drop (m.text.length - 1) = tail := by
      have one : 1 ≤ m.text.length := List.length_pos_iff.mpr some_
      have dropped : (a :: rest).drop m.text.length = tail := by rw [whole, List.drop_left]
      rw [← dropped]
      obtain ⟨n, size⟩ : ∃ n, m.text.length = n + 1 := ⟨m.text.length - 1, by omega⟩
      rw [size, List.drop_succ_cons, Nat.add_sub_cancel]
    rw [whole] at found ⊢
    rw [after] at ih
    rw [after]
    exact .hit some_ found ih
  | case4 prev a rest unmatched ih =>
    refine .gap (fun m found => ?_) ih
    rw [unmatched] at found
    contradiction

theorem cut_pieces (p : Pattern α) (s : List α) : Cut p none s (p.pieces s) :=
  cut_piecesFrom p none s

theorem cut_cons {p : Pattern α} {prev : Option α} {a : α} {rest : List α}
    {pieces : List (Piece α)} (cut : Cut p prev (a :: rest) pieces) :
    (∃ pieces', pieces = .gap a :: pieces' ∧ Cut p (some a) rest pieces') ∨
      ∃ m after pieces', pieces = .hit m :: pieces' ∧ a :: rest = m.text ++ after ∧
        m.text ≠ [] ∧ p.matchAt? prev (m.text ++ after) = some m := by
  generalize whole : a :: rest = s at cut
  cases cut with
  | done => contradiction
  | gap unmatched more =>
    cases whole
    exact .inl ⟨_, rfl, more⟩
  | hit taken found more => exact .inr ⟨_, _, _, rfl, rfl, taken, found⟩

theorem cut_append {p : Pattern α} {prev : Option α} {s : List α} {front back : List (Piece α)}
    (cut : Cut p prev s (front ++ back)) :
    ∃ prev' later, s = front.flatMap Piece.text ++ later ∧ Cut p prev' later back := by
  induction front generalizing prev s with
  | nil => exact ⟨prev, s, rfl, cut⟩
  | cons piece front ih =>
    cases cut with
    | gap unmatched more =>
      obtain ⟨prev', later, rfl, cut'⟩ := ih more
      exact ⟨prev', later, rfl, cut'⟩
    | hit taken found more =>
      obtain ⟨prev', later, rfl, cut'⟩ := ih more
      exact ⟨prev', later, by simp [Piece.text], cut'⟩

/-- No part of the pattern takes `a`. -/
def refuses (a : α) : Pattern α → Bool
  | .empty | .look _ => true
  | .one accepts => !accepts a
  | .seq p q | .alt p q => p.refuses a && q.refuses a
  | .star _ p | .group _ p => p.refuses a

def groupRefuses (i : Nat) (a : α) : Pattern α → Bool
  | .empty | .look _ | .one _ => true
  | .seq p q | .alt p q => p.groupRefuses i a && q.groupRefuses i a
  | .star _ p => p.groupRefuses i a
  | .group j p => (j != i || p.refuses a) && p.groupRefuses i a

theorem reads_refuses {p : Pattern α} {a : α} (refused : p.refuses a = true) {prev : Option α}
    {x rest : List α} {g : Groups α} (reads : Reads p prev x rest g) : a ∉ x := by
  induction p generalizing prev x rest g with
  | empty =>
    rw [reads.1]
    exact List.not_mem_nil
  | look holds =>
    rw [reads.1]
    exact List.not_mem_nil
  | one accepts =>
    obtain ⟨⟨b, rfl, accepted⟩, _⟩ := reads
    intro member
    rw [List.mem_singleton.mp member, refuses, accepted] at refused
    contradiction
  | seq p q ihp ihq =>
    obtain ⟨refusedP, refusedQ⟩ := Bool.and_eq_true_iff.mp refused
    obtain ⟨y, z, _, _, rfl, _, first, second⟩ := reads
    rw [List.mem_append, not_or]
    exact ⟨ihp refusedP first, ihq refusedQ second⟩
  | alt p q ihp ihq =>
    obtain ⟨refusedP, refusedQ⟩ := Bool.and_eq_true_iff.mp refused
    rcases reads with left | right
    · exact ihp refusedP left
    · exact ihq refusedQ right
  | star greedy p ih =>
    simp only [Reads] at reads
    induction reads with
    | leave => exact List.not_mem_nil
    | again one _ later =>
      rw [List.mem_append, not_or]
      exact ⟨ih refused one, later⟩
  | group i p ih =>
    obtain ⟨_, _, inner⟩ := reads
    exact ih refused inner

theorem reads_groupRefuses {p : Pattern α} {i : Nat} {a : α} (refused : p.groupRefuses i a = true)
    {prev : Option α} {x rest : List α} {g : Groups α} (reads : Reads p prev x rest g) :
    ∀ w, (i, w) ∈ g → a ∉ w := by
  induction p generalizing prev x rest g with
  | empty => simp [reads.2]
  | look holds => simp [reads.2.1]
  | one accepts => simp [reads.2]
  | seq p q ihp ihq =>
    obtain ⟨refusedP, refusedQ⟩ := Bool.and_eq_true_iff.mp refused
    obtain ⟨_, _, _, _, _, rfl, first, second⟩ := reads
    intro w member
    rcases List.mem_append.mp member with later | earlier
    · exact ihq refusedQ second w later
    · exact ihp refusedP first w earlier
  | alt p q ihp ihq =>
    obtain ⟨refusedP, refusedQ⟩ := Bool.and_eq_true_iff.mp refused
    rcases reads with left | right
    · exact ihp refusedP left
    · exact ihq refusedQ right
  | star greedy p ih =>
    simp only [Reads] at reads
    induction reads with
    | leave => simp
    | again one _ later =>
      intro w member
      rcases List.mem_append.mp member with after | here
      · exact later w after
      · exact ih refused one w here
  | group j p ih =>
    obtain ⟨whole, inside⟩ := Bool.and_eq_true_iff.mp refused
    obtain ⟨h, rfl, inner⟩ := reads
    intro w member
    rcases List.mem_cons.mp member with here | deeper
    · cases here
      rw [bne_self_eq_false, Bool.false_or] at whole
      exact reads_refuses whole inner
    · exact ih inside inner w deeper

theorem not_mem_group {p : Pattern α} {i : Nat} {a : α} (refused : p.groupRefuses i a = true)
    {prev : Option α} {m : Match α} {rest : List α}
    (found : p.matchAt? prev (m.text ++ rest) = some m) : a ∉ m.group i := by
  rw [Match.group]
  cases held : m.groups.lookup i with
  | none => exact List.not_mem_nil
  | some w =>
    obtain ⟨_, _, split, _⟩ := List.lookup_eq_some_iff.mp held
    apply reads_groupRefuses refused (found_reads found) w
    rw [split]
    exact List.mem_append_right _ List.mem_cons_self

section Replacing

variable {p : Pattern α} {f : Match α → List α} {prev : Option α} {rest : List α}

/-- What a replacement makes of a text that stands behind `prev`. -/
def replaceAfter (p : Pattern α) (f : Match α → List α) (prev : Option α) (s : List α) : List α :=
  (piecesFrom p prev s).flatMap (Piece.put f)

theorem replaceAfter_nil : p.replaceAfter f prev [] = [] := by
  rw [replaceAfter, piecesFrom]
  rfl

theorem piecesFrom_gap {a : α}
    (unread : ∀ x r g, a :: rest = x ++ r → x ≠ [] → ¬ Reads p prev x r g) :
    piecesFrom p prev (a :: rest) = .gap a :: piecesFrom p (some a) rest := by
  rw [piecesFrom]
  split
  · rename_i m found
    obtain ⟨r, whole, reads⟩ := matchAt_reads found
    split
    · rfl
    · rename_i taken
      have some_ : m.text ≠ [] := fun empty => taken (List.isEmpty_iff.mpr empty)
      exact absurd reads (unread m.text r m.groups whole some_)
  · rfl

theorem piecesFrom_hit {m : Match α} (taken : m.text ≠ [])
    (found : p.matchAt? prev (m.text ++ rest) = some m) :
    piecesFrom p prev (m.text ++ rest) = .hit m :: piecesFrom p m.text.getLast? rest := by
  cases text : m.text with
  | nil => contradiction
  | cons a x =>
    rw [text] at found
    have dropped : (x ++ rest).drop (x.length + 1 - 1) = rest := by
      rw [Nat.add_sub_cancel, List.drop_left]
    rw [List.cons_append, piecesFrom, ← List.cons_append, found]
    simp only [text, List.isEmpty_cons, Bool.false_eq_true, ↓reduceIte, List.length_cons, dropped]

theorem replaceAfter_skip {front : List α}
    (unread : ∀ t, t ≠ [] → t <:+ front → ∀ prev x r g, t ++ rest = x ++ r → x ≠ [] →
      ¬ Reads p prev x r g) :
    p.replaceAfter f prev (front ++ rest)
      = front ++ p.replaceAfter f (lastOf prev front) rest := by
  induction front generalizing prev with
  | nil => rfl
  | cons a front ih =>
    have later : p.replaceAfter f (some a) (front ++ rest)
        = front ++ p.replaceAfter f (lastOf (some a) front) rest :=
      ih fun t some_ inside => unread t some_ (inside.trans (List.suffix_cons a front))
    have last : lastOf prev (a :: front) = lastOf (some a) front := lastOf_append prev [a] front
    have here : ∀ x r g, a :: (front ++ rest) = x ++ r → x ≠ [] → ¬ Reads p prev x r g :=
      unread (a :: front) (by simp) (List.suffix_refl _) prev
    rw [last, replaceAfter, List.cons_append, piecesFrom_gap here, List.flatMap_cons]
    exact congrArg (a :: ·) later

theorem replaceAfter_same {s : List α}
    (unread : ∀ t, t <:+ s → ∀ prev x r g, t = x ++ r → x ≠ [] → ¬ Reads p prev x r g) :
    p.replaceAfter f prev s = s := by
  have skipped : p.replaceAfter f prev (s ++ [])
      = s ++ p.replaceAfter f (lastOf prev s) [] := by
    apply replaceAfter_skip
    intro t _ inside prev x r g whole
    exact unread t inside prev x r g (by simpa using whole)
  simpa [replaceAfter_nil] using skipped

/-- Without a word that is part of every match nothing is replaced. -/
theorem replace_missing {w s : List α} (keyed : ∀ prev x r g, Reads p prev x r g → w <:+: x)
    (missing : ¬ w <:+: s) : p.replace f s = s := by
  have unread : ∀ t, t <:+ s → ∀ prev x r g, t = x ++ r → x ≠ [] → ¬ Reads p prev x r g := by
    intro t inside prev x r g whole _ reads
    have start : x <:+: t := by
      rw [whole]
      exact (List.prefix_append x r).isInfix
    exact missing (((keyed prev x r g reads).trans start).trans inside.isInfix)
  have copied : p.replaceAfter f none s = s := replaceAfter_same unread
  exact copied

theorem replaceAfter_free {a : α} {front : List α}
    (starts : ∀ prev x r g, Reads p prev x r g → x.head? = some a) (free : a ∉ front) :
    p.replaceAfter f prev (front ++ rest)
      = front ++ p.replaceAfter f (lastOf prev front) rest := by
  apply replaceAfter_skip
  intro t some_ inside prev x r g whole _ reads
  obtain ⟨b, t, rfl⟩ := List.exists_cons_of_ne_nil some_
  obtain ⟨y, rfl⟩ := List.head?_eq_some_iff.mp (starts prev x r g reads)
  rw [List.cons_append, List.cons_append, List.cons.injEq] at whole
  rw [← whole.1] at free
  exact free (inside.subset List.mem_cons_self)

/-- A stretch that starts with the first element of every match, but with no match, is copied. -/
theorem replaceAfter_pass {a : α} {front : List α}
    (starts : ∀ prev x r g, Reads p prev x r g → x.head? = some a) (free : a ∉ front)
    (unread : ∀ x r g, a :: (front ++ rest) = x ++ r → ¬ Reads p prev x r g) :
    p.replaceAfter f prev (a :: (front ++ rest))
      = a :: (front ++ p.replaceAfter f (lastOf (some a) front) rest) := by
  rw [replaceAfter, piecesFrom_gap fun x r g whole _ => unread x r g whole, List.flatMap_cons]
  exact congrArg (a :: ·) (replaceAfter_free starts free)

theorem replaceAfter_hit {m : Match α} (taken : m.text ≠ [])
    (found : p.matchAt? prev (m.text ++ rest) = some m) :
    p.replaceAfter f prev (m.text ++ rest) = f m ++ p.replaceAfter f m.text.getLast? rest := by
  rw [replaceAfter, piecesFrom_hit taken found, List.flatMap_cons]
  rfl

end Replacing

end DocBridge.Pattern
