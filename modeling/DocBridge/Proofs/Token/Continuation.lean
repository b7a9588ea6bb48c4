import DocBridge.Proofs.Token.Forms

/-
A source can be continued behind a close tag: its tokens stay what they are, and those of the
continuation are what they would be on their own, on later lines. Of all that the stream keeps
track of, only the line passes a close tag.
-/
namespace DocBridge.Scan

open Text Lexeme

/-- The close tag is already as long as it would be with `rest` behind it. -/
def Settled (tag rest : Text) : Prop :=
  tag.getLast? = some 0x0A ∨ ¬ ofString "\n" <+: rest ∧ ¬ ofString "\r\n" <+: rest

theorem closeTag_split {tag : Text} (form : tag ∈ closeTags) :
    ∃ lineBreak, tag = 0x3F :: 0x3E :: lineBreak := by
  simp only [closeTags, List.mem_cons, List.not_mem_nil, or_false] at form
  rcases form with rfl | rfl | rfl
  · exact ⟨[], by decide⟩
  · exact ⟨[0x0A], by decide⟩
  · exact ⟨[0x0D, 0x0A], by decide⟩

theorem lineBreakLength_none {rest : Text}
    (none_ : ¬ ofString "\n" <+: rest ∧ ¬ ofString "\r\n" <+: rest) : lineBreakLength rest = 0 := by
  have feed : startsWith (· == 0x0A) rest = false := by
    cases rest with
    | nil => rfl
    | cons b rest =>
      rw [startsWith, beq_eq_false_iff_ne]
      rintro rfl
      exact none_.1 ⟨rest, rfl⟩
  rw [lineBreakLength, if_neg (mt List.isPrefixOf_iff_prefix.mp none_.2), feed]
  rfl

/-- A settled close tag takes no line break of what is put behind it. -/
theorem scanCode_settled {b : UInt8} {text rest : Text} (form : b :: text ∈ closeTags)
    (settled : Settled (b :: text) rest) :
    scanCode b (text ++ rest) = (.closeTag, text.length) := by
  have scanned (lineBreak : Text) : scanCode 0x3F (0x3E :: (lineBreak ++ rest))
      = (.closeTag, 1 + lineBreakLength (lineBreak ++ rest)) := rfl
  simp only [closeTags, List.mem_cons, List.not_mem_nil, or_false] at form
  rcases form with bare | feed | both
  · have bare : b :: text = [0x3F, 0x3E] := bare
    obtain ⟨rfl, rfl⟩ := List.cons.inj bare
    have none_ := settled.resolve_left (by decide)
    have taken := scanned []
    rw [List.nil_append, lineBreakLength_none none_] at taken
    exact taken
  · have feed : b :: text = [0x3F, 0x3E, 0x0A] := feed
    obtain ⟨rfl, rfl⟩ := List.cons.inj feed
    exact scanned [0x0A]
  · have both : b :: text = [0x3F, 0x3E, 0x0D, 0x0A] := both
    obtain ⟨rfl, rfl⟩ := List.cons.inj both
    exact scanned [0x0D, 0x0A]

end DocBridge.Scan

namespace DocBridge.Token

open Text Scan

def later (n : Nat) (t : Token) : Token := { t with line := t.line + n }

theorem lexed_later {mode : Mode} {line : Nat} {s : Text} {tokens : List Token} (n : Nat)
    (lexed : Lexed mode line s tokens) : Lexed mode (line + n) s (tokens.map (later n)) := by
  induction lexed with
  | done mode line => exact .done mode (line + n)
  | @token mode line b text rest kind tokens scanned more ih =>
    rw [Nat.add_right_comm] at ih
    exact .token scanned ih

theorem lexed_closed {mode : Mode} {line : Nat} {s : Text} {tokens : List Token}
    (lexed : Lexed mode line s tokens) {t : Token} (last : tokens.getLast? = some t)
    (close : t.kind = .closeTag) :
    t.text ∈ Lexeme.closeTags ∧ ∃ w lineBreak, s = w ++ 0x3F :: ([0x3E] ++ lineBreak) := by
  obtain ⟨before, rfl⟩ := List.getLast?_eq_some_iff.mp last
  have form := lexed_form lexed
  rw [close] at form
  have tag : t.text ∈ Lexeme.closeTags := form
  obtain ⟨lineBreak, text⟩ := closeTag_split tag
  refine ⟨tag, before.flatMap Token.text, lineBreak, ?_⟩
  rw [← lexed_join lexed, List.flatMap_append, List.flatMap_singleton, text]
  rfl

/-- No token in front of a settled close tag changes when the source is continued, and behind the
close tag the stream starts anew. -/
theorem lexed_continue {mode : Mode} {line : Nat} {s : Text} {tokens : List Token}
    (lexed : Lexed mode line s tokens) {rest : Text} {t : Token} (last : tokens.getLast? = some t)
    (close : t.kind = .closeTag) (settled : Settled t.text rest) {more : List Token}
    (next : Lexed {} (line + countByte 0x0A s) rest more) :
    Lexed mode line (s ++ rest) (tokens ++ more) := by
  induction lexed with
  | done => simp at last
  | @token mode line b text s kind tokens scanned tail ih =>
    rw [← List.cons_append, countByte_append, ← Nat.add_assoc] at next
    rw [List.cons_append, List.append_assoc]
    cases tokens with
    | nil =>
      cases tail
      obtain rfl : (⟨kindIn mode kind, b :: text, line⟩ : Token) = t := by simpa using last
      have kind_ := kindIn_eq close (by simp)
      have tag := (lexed_closed (.token scanned (.done _ _)) last close).1
      rw [kind_] at scanned ⊢
      obtain ⟨code, _⟩ := scan_code scanned (by simp) (by simp) (by simp)
      have plain : kindIn mode .closeTag = .closeTag := by simp [kindIn, Kind.isKeyword]
      have longer : scan mode b (text ++ rest) = (.closeTag, text.length) := by
        rw [scan, code, if_pos rfl]
        exact scanCode_settled tag settled
      refine .token longer ?_
      rw [plain]
      exact next
    | cons t' tokens =>
      have last' : (t' :: tokens).getLast? = some t := by rwa [List.getLast?_cons_cons] at last
      obtain ⟨_, w, lineBreak, rfl⟩ := lexed_closed tail last' close
      refine .token ?_ (ih last' next)
      -- The scan ends in front of the close tag, which hides the continuation from it.
      rw [← List.append_assoc] at scanned
      have inside : (scan mode b ((text ++ w) ++ 0x3F :: ([0x3E] ++ lineBreak))).2
          ≤ (text ++ w).length := by
        rw [scanned, List.length_append]
        exact Nat.le_add_right _ _
      have same := (scan_barrier .closeTag (lineBreak ++ rest) inside).trans scanned
      simpa using same

/-- A source that is empty or ends in a close tag can be continued: the tokens of the whole are
those of the source and those of the continuation, the latter on lines further down by the line
breaks of the source. The close tag must end in a line break already, or the continuation must not
start with one. -/
theorem stream_append_closed (a b : Text)
    (closed : ∀ t, (stream a).getLast? = some t → t.kind = .closeTag ∧ Settled t.text b) :
    stream (a ++ b) = stream a ++ (stream b).map (later (countByte 0x0A a)) := by
  have next : Lexed {} (1 + countByte 0x0A a) b ((stream b).map (later (countByte 0x0A a))) :=
    lexed_later _ (lexed_stream b)
  cases last : (stream a).getLast? with
  | none =>
    have none_ : stream a = [] := List.getLast?_eq_none_iff.mp last
    obtain rfl : a = [] := by rw [← stream_join a, none_]; rfl
    rw [none_]
    exact (lexed_unique next).symm
  | some t =>
    obtain ⟨close, settled⟩ := closed t last
    exact (lexed_unique (lexed_continue (lexed_stream a) last close settled next)).symm

theorem arrow_stays_behind :
    (∀ t, (stream "<?php\n$a-> ?>").getLast? = some t →
      t.kind = .closeTag ∧ Settled t.text "<?= class ") ∧
    stream ("<?php\n$a-> ?>" ++ "<?= class ") = stream "<?php\n$a-> ?>" ++
      [⟨.openEchoTag, "<?=", 2⟩, ⟨.whitespace, " ", 2⟩, ⟨.keyword .classKw, "class", 2⟩,
        ⟨.whitespace, " ", 2⟩] := by
  have last : (stream "<?php\n$a-> ?>").getLast? = some ⟨.closeTag, "?>", 2⟩ := by decide +kernel
  have closed : ∀ t, (stream "<?php\n$a-> ?>").getLast? = some t →
      t.kind = .closeTag ∧ Settled t.text "<?= class " := by
    intro t found
    cases last.symm.trans found
    exact ⟨rfl, .inr (by decide)⟩
  refine ⟨closed, (stream_append_closed _ _ closed).trans (congrArg _ ?_)⟩
  decide +kernel

end DocBridge.Token
