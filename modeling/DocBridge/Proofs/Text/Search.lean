import DocBridge.Text

/-
Where a text is first found in another, and what does not change it. The order of texts is that of
lists of bytes.
-/
namespace DocBridge.Text

theorem isPrefixOf_append {needle s : Text} (enough : needle.length ≤ s.length) (t : Text) :
    needle.isPrefixOf (s ++ t) = needle.isPrefixOf s := by
  rw [Bool.eq_iff_iff, List.isPrefixOf_iff_prefix, List.isPrefixOf_iff_prefix]
  exact ⟨fun long => List.prefix_of_prefix_length_le long (List.prefix_append s t) enough,
    fun short => short.trans (List.prefix_append s t)⟩

theorem indexOf_le {needle s : Text} {i : Nat} (found : indexOf? needle s = some i) :
    i + needle.length ≤ s.length := by
  induction s generalizing i with
  | nil =>
    rw [indexOf?] at found
    split at found
    · rename_i empty
      cases found
      simp [List.isEmpty_iff.mp empty]
    · contradiction
  | cons b s ih =>
    rw [indexOf?] at found
    split at found
    · rename_i here
      cases found
      rw [Nat.zero_add]
      exact (List.isPrefixOf_iff_prefix.mp here).length_le
    · obtain ⟨j, later, rfl⟩ := Option.map_eq_some_iff.mp found
      have := ih later
      rw [List.length_cons]
      omega

theorem indexOf_prefix {needle s : Text} {i : Nat} (found : indexOf? needle s = some i) :
    needle <+: s.drop i := by
  induction s generalizing i with
  | nil =>
    rw [indexOf?] at found
    split at found
    · rename_i empty
      rw [List.isEmpty_iff.mp empty]
      exact List.nil_prefix
    · contradiction
  | cons b s ih =>
    rw [indexOf?] at found
    split at found
    · rename_i here
      cases found
      exact List.isPrefixOf_iff_prefix.mp here
    · obtain ⟨j, found', rfl⟩ := Option.map_eq_some_iff.mp found
      exact ih found'

theorem cut_split {sep s before after : Text} (cut : cut? sep s = some (before, after)) :
    s = before ++ (sep ++ after) := by
  obtain ⟨i, found, pair⟩ := Option.map_eq_some_iff.mp cut
  obtain ⟨rest, whole⟩ := indexOf_prefix found
  cases pair
  have after_ : s.drop (i + sep.length) = rest := by
    rw [← List.drop_drop, ← whole, List.drop_left]
  rw [after_, whole, List.take_append_drop]

theorem cut_index {sep s before after : Text} (cut : cut? sep s = some (before, after)) :
    indexOf? sep s = some before.length := by
  obtain ⟨i, found, pair⟩ := Option.map_eq_some_iff.mp cut
  have inside := indexOf_le found
  have taken : (s.take i).length = before.length := by rw [(Prod.mk.inj pair).1]
  rw [List.length_take, Nat.min_eq_left (by omega)] at taken
  rw [found, taken]

theorem indexOf_extend {short long s : Text} {i : Nat} (start : short <+: long)
    (found : indexOf? short s = some i) (here : long <+: s.drop i) : indexOf? long s = some i := by
  induction s generalizing i with
  | nil =>
    rw [List.drop_nil, List.prefix_nil] at here
    rw [here, List.prefix_nil] at start
    rw [start] at found
    rw [here]
    exact found
  | cons b s ih =>
    rw [indexOf?] at found ⊢
    split at found
    · cases found
      exact if_pos (List.isPrefixOf_iff_prefix.mpr here)
    · rename_i not_here
      obtain ⟨j, later, rfl⟩ := Option.map_eq_some_iff.mp found
      rw [if_neg, ih later here]
      · rfl
      · intro long_here
        exact not_here (List.isPrefixOf_iff_prefix.mpr
          (start.trans (List.isPrefixOf_iff_prefix.mp long_here)))

theorem indexOf_skip {b : UInt8} {needle front : Text} (free : b ∉ front) (s : Text) :
    indexOf? (b :: needle) (front ++ s) = (indexOf? (b :: needle) s).map (· + front.length) := by
  induction front with
  | nil => simp
  | cons c front ih =>
    rw [List.mem_cons, not_or] at free
    rw [List.cons_append, indexOf?, if_neg (by simp [List.isPrefixOf, free.1]), ih free.2,
      Option.map_map]
    rfl

theorem indexOf_append {needle : Text} (s : Text) {rest : Text} (here : needle <+: rest)
    (earlier : ∀ t, t ≠ [] → t <:+ s → ¬ needle <+: t ++ rest) :
    indexOf? needle (s ++ rest) = some s.length := by
  induction s with
  | nil =>
    cases rest with
    | nil => rw [List.prefix_nil.mp here]; rfl
    | cons b rest => rw [List.nil_append, indexOf?, if_pos (List.isPrefixOf_iff_prefix.mpr here)]; rfl
  | cons b s ih =>
    have not_here := earlier (b :: s) (by simp) (List.suffix_refl _)
    rw [List.cons_append] at not_here ⊢
    rw [indexOf?, if_neg fun found => not_here (List.isPrefixOf_iff_prefix.mp found),
      ih fun t some_ inside => earlier t some_ (inside.trans (List.suffix_cons b s))]
    rfl

theorem cut_append {needle : Text} (s rest : Text)
    (earlier : ∀ t, t ≠ [] → t <:+ s → ¬ needle <+: t ++ (needle ++ rest)) :
    cut? needle (s ++ (needle ++ rest)) = some (s, rest) := by
  rw [cut?, indexOf_append s (List.prefix_append needle rest) earlier, Option.map_some,
    List.take_left, List.drop_append, List.drop_eq_nil_of_le (by omega), Nat.add_sub_cancel_left,
    List.nil_append, List.drop_left]

theorem cut_word {b : UInt8} {needle s : Text} (clean : b ∉ s) (rest : Text) :
    cut? (b :: needle) (s ++ (b :: needle ++ rest)) = some (s, rest) := by
  refine cut_append s rest fun t some_ inside found => ?_
  cases t with
  | nil => contradiction
  | cons c t =>
    have first : b = c := (List.cons_prefix_cons.mp found).1
    exact clean (inside.subset (first ▸ List.mem_cons_self))

theorem cut_byte {q : UInt8} {s : Text} (clean : q ∉ s) (rest : Text) :
    cut? [q] (s ++ q :: rest) = some (s, rest) := cut_word clean rest

theorem not_prefix_of_contains {needle s u : Text} (missing : contains needle s = false)
    (inside : u <:+ s) : ¬ needle <+: u := by
  intro here
  induction s with
  | nil =>
    rw [List.suffix_nil.mp inside, List.prefix_nil] at here
    subst here
    contradiction
  | cons b s ih =>
    rw [contains, indexOf?] at missing
    split at missing
    · contradiction
    · rename_i not_here
      rw [Option.isSome_map] at missing
      rcases List.suffix_cons_iff.mp inside with rfl | later
      · exact not_here (List.isPrefixOf_iff_prefix.mpr here)
      · exact ih missing later

theorem contains_iff (needle s : Text) :
    contains needle s = true ↔ needle <:+: s := by
  unfold contains
  induction s with
  | nil =>
    rw [indexOf?, List.infix_nil]
    cases needle with
    | nil => simp
    | cons b needle => simp
  | cons b rest ih =>
    rw [indexOf?, List.infix_cons_iff, ← List.isPrefixOf_iff_prefix, ← ih]
    by_cases first : needle.isPrefixOf (b :: rest) = true
    · simp [first]
    · simp [first]

theorem contains_missing {needle s : Text} {b : UInt8} (member : b ∈ needle) (clean : b ∉ s) :
    contains needle s = false := by
  induction s with
  | nil => simp [contains, indexOf?, List.ne_nil_of_mem member]
  | cons c s ih =>
    have not_here : ¬ needle.isPrefixOf (c :: s) = true := fun here =>
      clean ((List.isPrefixOf_iff_prefix.mp here).subset member)
    rw [contains, indexOf?, if_neg not_here, Option.isSome_map]
    exact ih fun later => clean (List.mem_cons_of_mem c later)

theorem cut_missing {needle s : Text} {b : UInt8} (member : b ∈ needle) (clean : b ∉ s) :
    cut? needle s = none := by
  have missing := contains_missing member clean
  rw [contains, Option.isSome_eq_false_iff, Option.isNone_iff_eq_none] at missing
  rw [cut?, missing, Option.map_none]

theorem indexOf_local {needle : Text} (some_ : needle ≠ []) (s t t' : Text) {i : Nat}
    (found : indexOf? needle (s ++ t) = some i) (inside : i + needle.length ≤ s.length) :
    indexOf? needle (s ++ t') = some i := by
  induction s generalizing i with
  | nil =>
    have := List.length_pos_iff.mpr some_
    simp only [List.length_nil] at inside
    omega
  | cons b s ih =>
    have same : ∀ t, needle.isPrefixOf (b :: s ++ t) = needle.isPrefixOf (b :: s) :=
      isPrefixOf_append (by omega)
    rw [List.cons_append, indexOf?, ← List.cons_append, same] at found ⊢
    by_cases here : needle.isPrefixOf (b :: s) = true
    · rw [if_pos here] at found ⊢
      exact found
    · rw [if_neg here] at found ⊢
      obtain ⟨j, later, rfl⟩ := Option.map_eq_some_iff.mp found
      simp only [List.length_cons] at inside
      rw [ih later (by omega)]
      rfl

theorem indexOf_first {needle s : Text} {i : Nat} (found : indexOf? needle s = some i) :
    ∀ j, j < i → ¬ needle <+: s.drop j := by
  induction s generalizing i with
  | nil =>
    intro j earlier
    have := indexOf_le found
    simp only [List.length_nil] at this
    omega
  | cons b s ih =>
    intro j earlier
    rw [indexOf?] at found
    split at found
    · cases found
      contradiction
    · rename_i not_here
      obtain ⟨i', later, rfl⟩ := Option.map_eq_some_iff.mp found
      cases j with
      | zero =>
        intro here
        exact not_here (List.isPrefixOf_iff_prefix.mpr here)
      | succ j => exact ih later j (by omega)

/-- What starts in front of a byte that it does not hold ends there. -/
theorem prefix_before {needle t rest : Text} (stop : ∀ b ∈ rest.head?, b ∉ needle)
    (here : needle <+: t ++ rest) : needle <+: t := by
  rcases List.prefix_or_prefix_of_prefix here (List.prefix_append t rest) with inside | beyond
  · exact inside
  · obtain ⟨y, rfl⟩ := beyond
    cases y with
    | nil => simp
    | cons b y =>
      rw [List.prefix_append_right_inj] at here
      obtain ⟨z, rfl⟩ := here
      exact absurd (by simp) (stop b rfl)

theorem infix_break {needle s t : Text} {b : UInt8} (free : b ∉ needle)
    (inside : needle <:+: s ++ b :: t) : needle <:+: s ∨ needle <:+: t := by
  induction s with
  | nil =>
    rcases List.infix_cons_iff.mp inside with here | later
    · exact .inl (prefix_before (t := []) (by simpa using free) here).isInfix
    · exact .inr later
  | cons a s ih =>
    rcases List.infix_cons_iff.mp inside with here | later
    · exact .inl (prefix_before (t := a :: s) (by simpa using free) here).isInfix
    · exact (ih later).imp_left fun inner => inner.trans (List.suffix_cons a s).isInfix

theorem split_last {b : UInt8} {s : Text} (member : b ∈ s) :
    ∃ front back, s = front ++ b :: back ∧ b ∉ back := by
  obtain ⟨back, front, whole, free⟩ := List.eq_append_cons_of_mem (List.mem_reverse.mpr member)
  refine ⟨front.reverse, back.reverse, ?_, by simpa using free⟩
  rw [← List.reverse_reverse s, whole]
  simp

theorem le_iff (a b : Text) : Text.le a b = true ↔ a ≤ b := by
  rw [Text.le, Bool.not_eq_true', decide_eq_false_iff_not]
  rfl

end DocBridge.Text
