import DocBridge.Proofs.Token.Partition

/-
Which kinds a token can have, given what its first bytes tell about it.
-/
namespace DocBridge.Scan

open Text

def Lead.Gives : Lead → Kind → Prop
  | .space, kind => kind = .whitespace
  | .closeTag, kind => kind = .closeTag
  | .attributeOpen, kind => kind = .attributeOpen
  | .lineComment, kind => kind = .comment
  | .blockComment, kind => kind = .comment ∨ kind = .docComment
  | .variableName, kind => kind = .variableName
  | .name, kind => kind = .name ∨ ∃ k, kind = .keyword k
  | .number, kind => kind = .number
  | .quote, kind => kind = .stringLiteral
  | .brackets, kind => kind = .heredoc ∨ kind = .operator ∨ kind = .char
  | .other, kind => kind = .operator ∨ kind = .char

theorem scanOperator_gives (b : UInt8) (rest : Text) :
    (scanOperator b rest).1 = .operator ∨ (scanOperator b rest).1 = .char := by
  unfold scanOperator
  split
  · exact .inl rfl
  · split
    · exact .inl rfl
    · split
      · exact .inl rfl
      · exact .inr rfl

theorem nameKind_gives (word : Text) : nameKind word = .name ∨ ∃ k, nameKind word = .keyword k := by
  unfold nameKind
  split
  · exact .inl rfl
  · split
    · rename_i k _
      exact .inr ⟨k, rfl⟩
    · exact .inl rfl

theorem blockComment_gives (body : Text) :
    (blockComment body).1 = .comment ∨ (blockComment body).1 = .docComment := by
  unfold blockComment
  split
  · exact .inl rfl
  · simp only
    split
    · exact .inr rfl
    · exact .inl rfl

theorem scanLead_gives (b : UInt8) (rest : Text) (lead : Lead) :
    lead.Gives (scanLead b rest lead).1 := by
  cases lead with
  | blockComment => exact blockComment_gives _
  | name => exact nameKind_gives _
  | brackets =>
    simp only [scanLead]
    split
    · exact .inl rfl
    · exact .inr (scanOperator_gives b rest)
  | other => exact scanOperator_gives b rest
  | _ => rfl

theorem openTag_gives {s : Text} {kind : Kind} {n : Nat} (h : openTag? s = some (kind, n)) :
    kind = .openTag ∨ kind = .openEchoTag := by
  unfold openTag? at h
  split at h
  · cases h
    exact .inr rfl
  · split at h
    · obtain ⟨_, _, pair⟩ := Option.map_eq_some_iff.mp h
      cases pair
      exact .inl rfl
    · contradiction

theorem scanInline_gives (b : UInt8) (rest : Text) :
    (scanInline b rest).1 = .inlineHtml ∨ (scanInline b rest).1 = .openTag ∨
      (scanInline b rest).1 = .openEchoTag := by
  unfold scanInline
  split
  · rename_i kind n tag
    exact .inr (openTag_gives tag)
  · exact .inl rfl

end DocBridge.Scan

namespace DocBridge.Token

open Scan

/-- A token that only code can hold was scanned as code, by a lead that gives its kind. -/
theorem scan_code {mode : Mode} {b : UInt8} {rest : Text} {kind : Kind} {n : Nat}
    (scanned : scan mode b rest = (kind, n)) (inline : kind ≠ .inlineHtml) (tag : kind ≠ .openTag)
    (echo : kind ≠ .openEchoTag) :
    mode.inCode = true ∧ (leadOf b rest).Gives kind ∧ (leadOf b rest).Seen b rest ∧
      scanLead b rest (leadOf b rest) = (kind, n) := by
  unfold scan at scanned
  split at scanned
  · rename_i code
    refine ⟨code, ?_, leadOf_seen b rest, scanned⟩
    have gives := scanLead_gives b rest (leadOf b rest)
    rw [← scanCode, scanned] at gives
    exact gives
  · have gives := scanInline_gives b rest
    rw [scanned] at gives
    rcases gives with same | same | same
    · exact absurd same inline
    · exact absurd same tag
    · exact absurd same echo

theorem kindIn_eq {mode : Mode} {kind kind' : Kind} (same : kindIn mode kind = kind')
    (other : kind' ≠ .name) : kind = kind' := by
  unfold kindIn at same
  split at same
  · exact absurd same.symm other
  · exact same

/-- A variable is a dollar sign and a name, so it holds no slash. -/
theorem scan_variable {mode : Mode} {b : UInt8} {text rest : Text}
    (scanned : scan mode b (text ++ rest) = (.variableName, text.length)) : 0x2F ∉ b :: text := by
  obtain ⟨_, gives, seen, scanned⟩ := scan_code scanned (by simp) (by simp) (by simp)
  have lead : leadOf b (text ++ rest) = .variableName := by
    cases found : leadOf b (text ++ rest) <;> rw [found] at gives <;> simp [Lead.Gives] at gives ⊢
  rw [lead] at seen scanned
  obtain ⟨dollar, _⟩ := Bool.and_eq_true_iff.mp seen
  have dollar : b = 0x24 := by simpa using dollar
  have all := all_of_runLength (congrArg Prod.snd scanned)
  intro slash
  rcases List.mem_cons.mp slash with first | later
  · rw [dollar] at first
    contradiction
  · exact absurd (all _ later) (by decide)

theorem lexed_variable {mode : Mode} {line : Nat} {s : Text} {tokens : List Token}
    (lexed : Lexed mode line s tokens) :
    ∀ t ∈ tokens, t.kind = .variableName → 0x2F ∉ t.text := by
  induction lexed with
  | done => simp
  | token scanned _ ih =>
    intro t member kind
    rcases List.mem_cons.mp member with rfl | later
    · rw [kindIn_eq kind (by simp)] at scanned
      exact scan_variable scanned
    · exact ih t later kind

end DocBridge.Token
