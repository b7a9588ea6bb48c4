import DocBridge.Proofs.Pattern.Preference

/-
Replacements that settle. Every match starts with a mark that it does not hold again, and so does
what is put for it; then a match in the result cannot reach into what was put for another one, and in
front of that the result is the text, where nothing was found.
-/
namespace DocBridge.Pattern

variable {α : Type}

def blind : Pattern α → Bool
  | .empty | .one _ => true
  | .look _ => false
  | .seq p q | .alt p q => p.blind && q.blind
  | .star _ p | .group _ p => p.blind

theorem reads_blind {p : Pattern α} (blind : p.blind = true) {prev prev' : Option α}
    {x rest rest' : List α} {g : Groups α} (reads : Reads p prev x rest g) :
    Reads p prev' x rest' g := by
  induction p generalizing prev prev' x rest rest' g with
  | empty => exact reads
  | one accepts => exact reads
  | look holds => contradiction
  | seq p q ihp ihq =>
    obtain ⟨first, second⟩ := Bool.and_eq_true_iff.mp blind
    obtain ⟨y, z, h, i, rfl, rfl, one, other⟩ := reads
    exact reads_then (ihp first one) (ihq second other)
  | alt p q ihp ihq =>
    obtain ⟨first, second⟩ := Bool.and_eq_true_iff.mp blind
    rcases reads with left | right
    · exact .inl (ihp first left)
    · exact .inr (ihq second right)
  | star greedy p ih =>
    simp only [Reads] at reads ⊢
    induction reads generalizing prev' with
    | leave => exact .leave prev' rest'
    | again one _ more => exact .again (ih blind one) more
  | group i p ih =>
    obtain ⟨h, rfl, inner⟩ := reads
    exact reads_held i (ih blind inner)

/-- Matches and what is put for them start with `mark` and hold it nowhere else, and no match starts
at what was put. -/
structure Marked (p : Pattern α) (f : Match α → List α) (mark : α) : Prop where
  blind : p.blind = true
  matched {prev : Option α} {x rest : List α} {g : Groups α} (reads : Reads p prev x rest g) :
    ∃ y, x = mark :: y ∧ mark ∉ y
  put {prev : Option α} {m : Match α} {rest : List α}
    (found : p.matchAt? prev (m.text ++ rest) = some m) :
    ∃ w, f m = mark :: w ∧ mark ∉ w ∧
      ∀ prev' rest' x r g, f m ++ rest' = x ++ r → ¬ Reads p prev' x r g

section Settling

variable {p : Pattern α} {f : Match α → List α} {mark : α} {prev : Option α} {s : List α}
  {pieces : List (Piece α)}

/-- Up to the first mark that was put the result is the text. -/
theorem put_start (marked : Marked p f mark) (cut : Cut p prev s pieces) {y : List α}
    (free : mark ∉ y) (start : y <+: pieces.flatMap (Piece.put f)) : y <+: s := by
  induction cut generalizing y with
  | done => exact start
  | @gap prev a rest pieces unmatched more ih =>
    cases y with
    | nil => exact List.nil_prefix
    | cons b y =>
      have whole : b :: y <+: a :: pieces.flatMap (Piece.put f) := start
      obtain ⟨same, later⟩ := List.cons_prefix_cons.mp whole
      exact List.cons_prefix_cons.mpr ⟨same, ih (fun inside => free (by simp [inside])) later⟩
  | @hit prev m rest pieces taken found more ih =>
    cases y with
    | nil => exact List.nil_prefix
    | cons b y =>
      obtain ⟨w, put, -⟩ := marked.put found
      have whole : b :: y <+: f m ++ pieces.flatMap (Piece.put f) := start
      rw [put, List.cons_append] at whole
      obtain ⟨rfl, -⟩ := List.cons_prefix_cons.mp whole
      exact absurd List.mem_cons_self free

theorem put_unread (marked : Marked p f mark) (cut : Cut p prev s pieces) :
    ∀ t, t <:+ pieces.flatMap (Piece.put f) → ∀ prev' x r g, t = x ++ r →
      ¬ Reads p prev' x r g := by
  induction cut with
  | done =>
    intro t inside prev' x r g split reads
    obtain ⟨y, rfl, -⟩ := marked.matched reads
    rw [List.suffix_nil.mp inside] at split
    contradiction
  | @gap prev a rest pieces unmatched more ih =>
    intro t inside prev' x r g split reads
    have inside : t <:+ a :: pieces.flatMap (Piece.put f) := inside
    rcases List.suffix_cons_iff.mp inside with rfl | later
    · -- A reading right here would have been there in the text.
      obtain ⟨y, rfl, free⟩ := marked.matched reads
      obtain ⟨rfl, tail⟩ := List.cons.inj split
      obtain ⟨r', rfl⟩ := put_start marked more free ⟨r, tail.symm⟩
      have here : Reads p prev (a :: y) r' g := reads_blind marked.blind reads
      have none_ (r : List α) (h : Groups α) : ¬ Reads p prev [] r h := fun empty => by
        obtain ⟨y, clash, -⟩ := marked.matched empty
        contradiction
      obtain ⟨m, rest', whole, some_, found⟩ := reads_found here none_
      rw [← whole] at found
      exact some_ (unmatched m found)
    · exact ih t later prev' x r g split reads
  | @hit prev m rest pieces taken found more ih =>
    intro t inside prev' x r g split reads
    have inside : t <:+ f m ++ pieces.flatMap (Piece.put f) := inside
    obtain ⟨w, put, free, settled⟩ := marked.put found
    rcases List.suffix_or_suffix_of_suffix inside (List.suffix_append _ _) with later | ⟨u, rfl⟩
    · exact ih t later prev' x r g split reads
    · obtain ⟨v, whole⟩ := inside
      rw [← List.append_assoc, List.append_cancel_right_eq] at whole
      cases v with
      | nil =>
        rw [List.nil_append] at whole
        rw [whole] at split
        exact settled prev' _ x r g split reads
      | cons a v =>
        cases u with
        | nil => exact ih _ List.suffix_rfl prev' x r g split reads
        | cons b u =>
          -- The mark would stand within what was put.
          obtain ⟨y, rfl, -⟩ := marked.matched reads
          obtain ⟨rfl, -⟩ := List.cons.inj split
          rw [put, List.cons_append] at whole
          obtain ⟨-, tail⟩ := List.cons.inj whole
          exact free (by simp [← tail])

theorem replace_settled (marked : Marked p f mark) (s : List α) :
    p.replace f (p.replace f s) = p.replace f s := by
  have unread := put_unread marked (cut_pieces p s)
  exact replaceAfter_same fun t inside prev x r g split _ => unread t inside prev x r g split

end Settling

end DocBridge.Pattern
