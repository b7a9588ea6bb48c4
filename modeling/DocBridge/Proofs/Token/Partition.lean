import DocBridge.Proofs.Token.Bounds

/-
The token stream as a derivation: one scan after another, each taking exactly the bytes it asks
for. The tokens of a source are non-empty and give the source back when put together.
-/
namespace DocBridge

theorem Text.countByte_append (b : UInt8) (s t : Text) :
    countByte b (s ++ t) = countByte b s + countByte b t := List.count_append

namespace Token

/-- The scans from `mode` and `line` on, one for each token, until nothing is left. A scan that
asked for more bytes than there are would have no place here. -/
inductive Lexed : Mode → Nat → Text → List Token → Prop where
  | done (mode : Mode) (line : Nat) : Lexed mode line [] []
  | token {mode : Mode} {line : Nat} {b : UInt8} {text rest : Text} {kind : Kind}
      {tokens : List Token} (scanned : scan mode b (text ++ rest) = (kind, text.length))
      (more : Lexed (modeAfter mode (kindIn mode kind) (b :: text))
        (line + Text.countByte 0x0A (b :: text)) rest tokens) :
      Lexed mode line (b :: (text ++ rest)) (⟨kindIn mode kind, b :: text, line⟩ :: tokens)

theorem streamFrom_token {mode : Mode} {line : Nat} {b : UInt8} {text rest : Text} {kind : Kind}
    (scanned : scan mode b (text ++ rest) = (kind, text.length)) :
    streamFrom mode line (b :: (text ++ rest)) =
      ⟨kindIn mode kind, b :: text, line⟩ ::
        streamFrom (modeAfter mode (kindIn mode kind) (b :: text))
          (line + Text.countByte 0x0A (b :: text)) rest := by
  rw [streamFrom]
  simp only [scanned, List.take_left, List.drop_left]

theorem lexed_streamFrom (mode : Mode) (line : Nat) (s : Text) :
    Lexed mode line s (streamFrom mode line s) := by
  induction h : s.length using Nat.strongRecOn generalizing mode line s with
  | ind size ih =>
    cases s with
    | nil =>
      rw [streamFrom]
      exact .done mode line
    | cons b rest =>
      have inside := scan_le mode b rest
      have taken : (rest.take (scan mode b rest).2).length = (scan mode b rest).2 := by
        rw [List.length_take, Nat.min_eq_left inside]
      have split := List.take_append_drop (scan mode b rest).2 rest
      have scanned : scan mode b (rest.take (scan mode b rest).2 ++ rest.drop (scan mode b rest).2)
          = ((scan mode b rest).1, (rest.take (scan mode b rest).2).length) := by
        rw [split, taken]
      have smaller : (rest.drop (scan mode b rest).2).length < size := by
        rw [List.length_drop, ← h, List.length_cons]
        omega
      have derived := Lexed.token scanned (ih _ smaller _ (line + Text.countByte 0x0A _) _ rfl)
      rw [← streamFrom_token scanned, split] at derived
      exact derived

theorem lexed_unique {mode : Mode} {line : Nat} {s : Text} {tokens : List Token}
    (lexed : Lexed mode line s tokens) : tokens = streamFrom mode line s := by
  induction lexed with
  | done mode line => rw [streamFrom]
  | token scanned more ih => rw [streamFrom_token scanned, ih]

theorem lexed_join {mode : Mode} {line : Nat} {s : Text} {tokens : List Token}
    (lexed : Lexed mode line s tokens) : tokens.flatMap Token.text = s := by
  induction lexed with
  | done mode line => rfl
  | token scanned more ih => simp [ih]

def modeAlong (mode : Mode) (tokens : List Token) : Mode :=
  tokens.foldl (fun mode t => modeAfter mode t.kind t.text) mode

theorem lexed_along {mode : Mode} {line : Nat} {s : Text} {before after : List Token}
    (lexed : Lexed mode line s (before ++ after)) :
    ∃ rest, s = before.flatMap Token.text ++ rest ∧
      Lexed (modeAlong mode before) (line + Text.countByte 0x0A (before.flatMap Token.text)) rest
        after := by
  induction before generalizing mode line s with
  | nil => exact ⟨s, rfl, lexed⟩
  | cons t before ih =>
    cases lexed with
    | @token _ _ b text rest kind _ scanned more =>
      obtain ⟨later, rfl, lexed'⟩ := ih more
      refine ⟨later, by simp, ?_⟩
      rw [List.flatMap_cons, Text.countByte_append, ← Nat.add_assoc]
      exact lexed'

/-- Every token comes from a scan of what stands there and behind it, in the mode that the tokens
before it lead to. -/
theorem lexed_at {mode : Mode} {line : Nat} {s : Text} {before after : List Token} {t : Token}
    (lexed : Lexed mode line s (before ++ t :: after)) :
    ∃ b text kind, t.kind = kindIn (modeAlong mode before) kind ∧ t.text = b :: text ∧
      scan (modeAlong mode before) b (text ++ after.flatMap Token.text) = (kind, text.length) ∧
      s = before.flatMap Token.text ++ (t.text ++ after.flatMap Token.text) := by
  obtain ⟨rest, rfl, later⟩ := lexed_along lexed
  cases later with
  | @token _ _ b text rest kind _ scanned more =>
    rw [← lexed_join more] at scanned ⊢
    exact ⟨b, text, kind, rfl, rfl, scanned, rfl⟩

theorem lexed_scanned {mode : Mode} {line : Nat} {s : Text} {before after : List Token} {t : Token}
    (lexed : Lexed mode line s (before ++ t :: after)) :
    ∃ mode' b text kind, t.kind = kindIn mode' kind ∧ t.text = b :: text ∧
      scan mode' b (text ++ after.flatMap Token.text) = (kind, text.length) ∧
      s = before.flatMap Token.text ++ (t.text ++ after.flatMap Token.text) := by
  obtain ⟨b, text, kind, here⟩ := lexed_at lexed
  exact ⟨modeAlong mode before, b, text, kind, here⟩

theorem lexed_text_ne_nil {mode : Mode} {line : Nat} {s : Text} {tokens : List Token}
    (lexed : Lexed mode line s tokens) : ∀ t ∈ tokens, t.text ≠ [] := by
  induction lexed with
  | done mode line => simp
  | token scanned more ih =>
    intro t member
    rcases List.mem_cons.mp member with first | later
    · simp [first]
    · exact ih t later

theorem lexed_length_le {mode : Mode} {line : Nat} {s : Text} {tokens : List Token}
    (lexed : Lexed mode line s tokens) : tokens.length ≤ s.length := by
  induction lexed with
  | done mode line => exact Nat.le_refl _
  | token scanned more ih =>
    simp only [List.length_cons, List.length_append]
    omega

theorem lexed_stream (src : Text) : Lexed {} 1 src (stream src) := lexed_streamFrom {} 1 src

theorem stream_join (src : Text) : (stream src).flatMap Token.text = src :=
  lexed_join (lexed_stream src)

/-- Every source has a token stream: finitely many scans reach its end, no token is empty, and the
texts of the tokens in order are the source. -/
theorem stream_partitions_source (src : Text) :
    Lexed {} 1 src (stream src) ∧ (stream src).length ≤ src.length ∧
      (∀ t ∈ stream src, t.text ≠ []) ∧ (stream src).flatMap Token.text = src := by
  have lexed := lexed_stream src
  exact ⟨lexed, lexed_length_le lexed, lexed_text_ne_nil lexed, lexed_join lexed⟩

end Token
end DocBridge
