import DocBridge.Proofs.Token.Agreement
import DocBridge.Proofs.Token.Partition

/-
The lexer at an offset. From every state short of the end, whether the mode says code or not, both
scanners make all of their reads within the source, end behind their first byte and end within the
source. The guard against a scan that takes nothing is therefore never used, and the lexer gives
the token stream.
-/
namespace DocBridge

open Text Offset

structure Lexer where
  src : Text
  off : Nat := 0
  line : Nat := 1
  mode : Mode := {}

namespace Lexer

def scan (lx : Lexer) : Option (Kind × Nat) :=
  if lx.mode.inCode then scanCode lx.src lx.off else scanInline lx.src lx.off

def guarded (off : Nat) (scanned : Kind × Nat) : Kind × Nat :=
  if scanned.2 = off then (.char, off + 1) else scanned

/-- The next token and the lexer behind it, or nothing at the end. Outside of both, `none` is a
read out of range. -/
def next (lx : Lexer) : Option (Option (Token × Lexer)) :=
  if lx.src.length ≤ lx.off then some none
  else do
    let (scanned, stop) := guarded lx.off (← lx.scan)
    let text ← slice? lx.src lx.off stop
    let kind := Token.kindIn lx.mode scanned
    let behind : Lexer :=
      ⟨lx.src, stop, lx.line + countByte 0x0A text, Token.modeAfter lx.mode kind text⟩
    some (some (⟨kind, text, lx.line⟩, behind))

inductive Gives : Lexer → List Token → Prop
  | done {lx : Lexer} (nothing : lx.next = some none) : Gives lx []
  | token {lx behind : Lexer} {t : Token} {tokens : List Token}
      (first : lx.next = some (some (t, behind))) (more : Gives behind tokens) :
      Gives lx (t :: tokens)

def Advances (src : Text) (off : Nat) (scanned : Option (Kind × Nat)) : Prop :=
  ∃ kind stop, scanned = some (kind, stop) ∧ off < stop ∧ stop ≤ src.length

variable {src rest : Text} {off : Nat} {b : UInt8} {lx : Lexer}

theorem at_off (inside : off < src.length) : ∃ b rest, At src off (b :: rest) :=
  ⟨_, _, Nat.le_of_lt inside, List.drop_eq_getElem_cons inside⟩

theorem advances_ends (here : At src off (b :: rest)) {scanned : Kind × Nat}
    (fits : scanned.2 ≤ rest.length) : Advances src off (some (ends off scanned)) := by
  have total := here.length
  rw [List.length_cons] at total
  refine ⟨scanned.1, off + 1 + scanned.2, rfl, ?_, ?_⟩
  · omega
  · omega

theorem guarded_ends (off : Nat) (scanned : Kind × Nat) :
    guarded off (ends off scanned) = ends off scanned := by
  refine if_neg ?_
  rw [ends]
  omega

theorem scan_eq (here : At lx.src lx.off (b :: rest)) :
    lx.scan = some (ends lx.off (Token.scan lx.mode b rest)) := by
  rw [scan, Token.scan]
  split
  · exact scanCode_eq here
  · exact scanInline_eq here

theorem next_stream (inside : lx.off < lx.src.length) : ∃ t behind,
    lx.next = some (some (t, behind)) ∧ behind.src = lx.src ∧
      lx.off < behind.off ∧ behind.off ≤ lx.src.length ∧
      Token.streamFrom lx.mode lx.line (lx.src.drop lx.off) =
        t :: Token.streamFrom behind.mode behind.line (behind.src.drop behind.off) := by
  obtain ⟨b, rest, here⟩ := at_off inside
  have fits := Token.scan_le lx.mode b rest
  have total := here.length
  rw [List.length_cons] at total
  have stop : (ends lx.off (Token.scan lx.mode b rest)).2
      = lx.off + ((Token.scan lx.mode b rest).2 + 1) := by
    rw [ends, Nat.add_assoc, Nat.add_comm 1]
  have text := here.slice? (Nat.succ_le_succ fits)
  have behind := here.next.drop fits
  rw [next, if_neg (Nat.not_le.mpr inside), scan_eq here]
  simp only [Option.bind_eq_bind, Option.bind_some, guarded_ends, stop, text, List.take_succ_cons]
  refine ⟨_, _, rfl, rfl, ?_, ?_, ?_⟩
  · exact Nat.lt_add_of_pos_right (Nat.succ_pos _)
  · simp only
    omega
  · simp only [here.behind]
    rw [Token.streamFrom, ← Nat.add_comm 1, ← Nat.add_assoc, behind.behind]
    rfl

/-- From every state before the end both scanners stay in range and advance, as the scanners over
the remaining text do. So the guard changes nothing, and the lexer takes a step of the stream. -/
theorem scanners_advance_in_range (lx : Lexer) (inside : lx.off < lx.src.length) :
    Advances lx.src lx.off (scanInline lx.src lx.off) ∧
    Advances lx.src lx.off (scanCode lx.src lx.off) ∧
    (∃ b rest, lx.src.drop lx.off = b :: rest ∧
      scanInline lx.src lx.off = some (ends lx.off (Scan.scanInline b rest)) ∧
      scanCode lx.src lx.off = some (ends lx.off (Scan.scanCode b rest))) ∧
    (∃ scanned, lx.scan = some scanned ∧ guarded lx.off scanned = scanned) ∧
    ∃ t behind, lx.next = some (some (t, behind)) ∧ behind.src = lx.src ∧
      lx.off < behind.off ∧ behind.off ≤ lx.src.length ∧
      Token.streamFrom lx.mode lx.line (lx.src.drop lx.off) =
        t :: Token.streamFrom behind.mode behind.line (behind.src.drop behind.off) := by
  obtain ⟨b, rest, here⟩ := at_off inside
  refine ⟨?_, ?_, ⟨b, rest, here.behind, scanInline_eq here, scanCode_eq here⟩, ?_,
    next_stream inside⟩
  · rw [scanInline_eq here]
    exact advances_ends here (Scan.scanInline_le b rest)
  · rw [scanCode_eq here]
    exact advances_ends here (Scan.scanCode_le b rest)
  · exact ⟨_, scan_eq here, guarded_ends lx.off _⟩

theorem escape_at_end_in_range :
    let lx : Lexer := { src := "<?php '\\", off := 6, mode := { inCode := true } }
    lx.off < lx.src.length ∧ Advances lx.src lx.off (scanCode lx.src lx.off) := by
  intro lx
  have inside : lx.off < lx.src.length := by decide
  exact ⟨inside, (scanners_advance_in_range lx inside).2.1⟩

theorem gives_stream (inside : lx.off ≤ lx.src.length) :
    Gives lx (Token.streamFrom lx.mode lx.line (lx.src.drop lx.off)) := by
  induction h : lx.src.length - lx.off using Nat.strongRecOn generalizing lx with
  | ind left ih =>
    rcases Nat.eq_or_lt_of_le inside with ended | before
    · rw [ended, List.drop_length, Token.streamFrom]
      exact .done (if_pos (Nat.le_of_eq ended.symm))
    · obtain ⟨t, behind, first, same, advanced, stop, stream⟩ := next_stream before
      rw [stream]
      refine .token first (ih _ ?_ ?_ rfl)
      · rw [same]
        omega
      · rw [same]
        exact stop

theorem gives_tokens (src : Text) : Gives { src := src } (Token.stream src) :=
  gives_stream (Nat.zero_le _)

end Lexer
end DocBridge
