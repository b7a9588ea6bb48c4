import DocBridge.Proofs.Text.Search
import DocBridge.Proofs.Text.Split

/-
One word put for another wherever it occurs, from the left. The text is cut into the occurrences and
the parts between them, none of which holds the word, and the parts are copied.
-/
namespace DocBridge.Text

variable {old new : Text}

theorem replaceFrom_skip (old new : Text) (n : Nat) (text : Text) :
    replaceFrom old new n text = replaceFrom old new 0 (text.drop n) := by
  induction n generalizing text with
  | zero => rfl
  | succ n ih =>
    cases text with
    | nil => rfl
    | cons b rest => rw [replaceFrom, ih, List.drop_succ_cons]

theorem replaceAll_word (some_ : old ≠ []) (new rest : Text) :
    replaceAll old new (old ++ rest) = new ++ replaceAll old new rest := by
  obtain ⟨b, word, rfl⟩ := List.exists_cons_of_ne_nil some_
  have here : (b :: word).isPrefixOf (b :: (word ++ rest)) = true := by
    simp [List.isPrefixOf_iff_prefix]
  rw [replaceAll, List.cons_append, replaceFrom, if_pos here, replaceFrom_skip]
  simp [replaceAll]

theorem replaceAll_byte {b : UInt8} {s : Text} (absent : ¬ old <+: b :: s) (new : Text) :
    replaceAll old new (b :: s) = b :: replaceAll old new s := by
  rw [replaceAll, replaceFrom, if_neg (by rwa [List.isPrefixOf_iff_prefix])]
  rfl

/-- A text is read from the left, a word or a byte at a time. -/
theorem word_induction (some_ : old ≠ []) {motive : Text → Prop} (nil : motive [])
    (word : ∀ rest, motive rest → motive (old ++ rest))
    (byte : ∀ b s, ¬ old <+: b :: s → motive s → motive (b :: s)) (s : Text) : motive s := by
  induction size : s.length using Nat.strongRecOn generalizing s with
  | ind n ih =>
    cases s with
    | nil => exact nil
    | cons b s =>
      by_cases here : old <+: b :: s
      · obtain ⟨rest, whole⟩ := here
        have pos := List.length_pos_iff.mpr some_
        have shorter : rest.length < n := by
          rw [← size, ← whole, List.length_append]
          omega
        rw [← whole]
        exact word rest (ih _ shorter rest rfl)
      · have shorter : s.length < n := by
          rw [← size, List.length_cons]
          omega
        exact byte b s here (ih _ shorter s rfl)

theorem replaceAll_missing {s : Text} (missing : ¬ old <:+: s) (new : Text) :
    replaceAll old new s = s := by
  induction s with
  | nil => rfl
  | cons b s ih =>
    rw [List.infix_cons_iff, not_or] at missing
    rw [replaceAll_byte missing.1, ih missing.2]

theorem replaceAll_break (some_ : old ≠ []) {c : UInt8} (free : c ∉ old) (new s t : Text) :
    replaceAll old new (s ++ c :: t) = replaceAll old new s ++ c :: replaceAll old new t := by
  have stop : ∀ b ∈ (c :: t).head?, b ∉ old := by simpa using free
  induction s using word_induction some_ with
  | nil =>
    have absent : ¬ old <+: c :: t := by
      intro here
      have inside : old <+: [] := prefix_before (t := []) stop here
      exact some_ (List.prefix_nil.mp inside)
    rw [List.nil_append, replaceAll_byte absent]
    rfl
  | word rest ih =>
    rw [List.append_assoc, replaceAll_word some_, replaceAll_word some_, ih, List.append_assoc]
  | byte b s absent ih =>
    have still : ¬ old <+: b :: (s ++ c :: t) := by
      intro here
      exact absent (prefix_before (t := b :: s) stop here)
    rw [List.cons_append, replaceAll_byte still, replaceAll_byte absent, ih, List.cons_append]

/-- `out` is `s` with `new` for every `old`. -/
def Substituted (old new s out : Text) : Prop :=
  ∃ parts, s = join old parts ∧ (∀ part ∈ parts, ¬ old <:+: part) ∧ out = join new parts

theorem replaceAll_substituted (some_ : old ≠ []) (new s : Text) :
    Substituted old new s (replaceAll old new s) := by
  suffices cut : ∃ part parts, s = join old (part :: parts) ∧
      (∀ p ∈ part :: parts, ¬ old <:+: p) ∧ replaceAll old new s = join new (part :: parts) by
    obtain ⟨part, parts, whole⟩ := cut
    exact ⟨part :: parts, whole⟩
  induction s using word_induction some_ with
  | nil => exact ⟨[], [], rfl, by simpa using some_, rfl⟩
  | word rest ih =>
    obtain ⟨part, parts, rfl, free, out⟩ := ih
    refine ⟨[], part :: parts, rfl, ?_, ?_⟩
    · intro p member
      rcases List.mem_cons.mp member with first | later
      · rw [first]
        simpa using some_
      · exact free p later
    · rw [replaceAll_word some_, out]
      rfl
  | byte b s absent ih =>
    obtain ⟨part, parts, rfl, free, out⟩ := ih
    refine ⟨b :: part, parts, ?_, ?_, ?_⟩
    · rw [join_front]
    · intro p member
      rcases List.mem_cons.mp member with first | later
      · rw [first, List.infix_cons_iff, not_or]
        refine ⟨fun here => absent (here.trans ?_), free part List.mem_cons_self⟩
        have start : part <+: join old (part :: parts) := by
          cases parts with
          | nil => exact List.prefix_refl part
          | cons next parts => exact ⟨_, (join_cons (by simp) old part).symm⟩
        exact List.cons_prefix_cons.mpr ⟨rfl, start⟩
      · exact free p (List.mem_cons_of_mem part later)
    · rw [replaceAll_byte absent, out, join_front]

end DocBridge.Text
