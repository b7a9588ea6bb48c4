import DocBridge.Proofs.Token.Partition

/-
The lines of tokens. The stream adds up line feeds token by token, apart from the bytes that its
scanners take. The two stay in step since a token's text is just what was taken.
-/
namespace DocBridge.Token

open Text

variable {mode : Mode} {line : Nat} {s : Text} {tokens : List Token}

theorem lexed_line (lexed : Lexed mode line s tokens) : ∀ t ∈ tokens, line ≤ t.line := by
  induction lexed with
  | done => simp
  | token scanned more ih =>
    intro t member
    rcases List.mem_cons.mp member with rfl | later
    · exact Nat.le_refl _
    · exact Nat.le_trans (Nat.le_add_right _ _) (ih t later)

theorem stream_line_pos {src : Text} {t : Token} (member : t ∈ stream src) : 0 < t.line :=
  lexed_line (lexed_stream src) t member

theorem lexed_line_feeds {before after : List Token} {t : Token}
    (lexed : Lexed mode line s (before ++ t :: after)) :
    t.line = line + countByte 0x0A (before.flatMap Token.text) := by
  obtain ⟨rest, -, here⟩ := lexed_along lexed
  cases here
  rfl

theorem lexed_lines_ordered (lexed : Lexed mode line s tokens) :
    tokens.Pairwise fun t u => t.line ≤ u.line := by
  induction lexed with
  | done => exact .nil
  | token scanned more ih =>
    refine List.pairwise_cons.mpr ⟨?_, ih⟩
    intro u later
    exact Nat.le_trans (Nat.le_add_right _ _) (lexed_line more u later)

/-- A token that starts at a place of the source is on the line after as many line feeds as stand
in front of that place. So lines count from one and never go back. -/
theorem stream_lines_count_feeds (src : Text) :
    (∀ before t after, stream src = before ++ t :: after →
      let start := (before.flatMap Token.text).length
      t.text <+: src.drop start ∧ t.line = 1 + countByte 0x0A (src.take start)) ∧
    (∀ t ∈ stream src, 1 ≤ t.line) ∧ (stream src).Pairwise fun t u => t.line ≤ u.line := by
  have lexed := lexed_stream src
  refine ⟨?_, fun t member => stream_line_pos member, lexed_lines_ordered lexed⟩
  intro before t after split start
  have whole : src = before.flatMap Token.text ++ (t.text ++ after.flatMap Token.text) := by
    rw [← stream_join src, split, List.flatMap_append, List.flatMap_cons]
  rw [split] at lexed
  constructor
  · rw [whole, List.drop_left]
    exact List.prefix_append _ _
  · rw [whole, List.take_left]
    exact lexed_line_feeds lexed

example : (stream "<?php\r\n# a\r# b\r\n<<<A\n\nA?>\n\n<?= 1").map Token.line =
    [1, 2, 2, 3, 5, 6, 7, 7, 7] := by
  decide +kernel

end DocBridge.Token
