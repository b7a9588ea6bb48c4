import DocBridge.Proofs.Text.Search
import DocBridge.Proofs.Text.Split
import DocBridge.Proofs.Token.Replacement

/-
What tokens look like. Each kind of token has its lexical form, stated without the scanners, and
every token of a source has the form of its kind.
-/
namespace DocBridge.Lexeme

open Text Scan DocBridge.Frame

def IsLabel (text : Text) : Prop := ∃ b rest, text = b :: rest ∧ isNameStart b = true ∧
  ∀ c ∈ rest, isNamePart c = true

/-- Labels with single backslashes between them, and perhaps one in front. -/
def IsQualified (text : Text) : Prop := ∃ labels, labels ≠ [] ∧ (∀ l ∈ labels, IsLabel l) ∧
  (text = join "\\" labels ∨ text = 0x5C :: join "\\" labels)

def tagSpaces : List Text := ["", "\r\n", " ", "\t", "\r", "\n"]

def closeTags : List Text := ["?>", "?>\n", "?>\r\n"]

def lineBreaks : List Text := ["", "\n", "\r", "\r\n"]

def IsLine (text : Text) : Prop :=
  (∃ line ending, text = line ++ ending ∧ (∀ b ∈ line, b ≠ 0x0A ∧ b ≠ 0x0D) ∧
    ending ∈ lineBreaks) ∧ ¬ ofString "?>" <:+: text

/-- What follows the opener of a block comment. It ends at its first terminator or, without one,
where nothing comes `after` it. -/
def IsBlock (after body : Text) : Prop :=
  (∃ inner, body = inner ++ [0x2A, 0x2F] ∧ ¬ [0x2A, 0x2F] <:+: inner ++ [0x2A]) ∨
    (after = [] ∧ ¬ [0x2A, 0x2F] <:+: body)

def IsComment (after text : Text) : Prop :=
  (∃ body, text = "/*" ++ body ∧ IsBlock after body) ∨
    ((ofString "#" <+: text ∨ ofString "//" <+: text) ∧ IsLine text)

def AreDigits (text : Text) : Prop := ∀ b ∈ text, isDigitPart b = true

def IsExponent (text : Text) : Prop := ∃ e sign d digits, text = e :: (sign ++ d :: digits) ∧
  lowerByte e = 0x65 ∧ (sign = [] ∨ sign = [0x2B] ∨ sign = [0x2D]) ∧ isDigit d = true ∧
  AreDigits digits

/-- Digits with a point and an exponent, if there are any; a digit comes first, or after the point
that comes first. -/
def IsDecimal (text : Text) : Prop := ∃ whole fraction exponent,
  text = whole ++ fraction ++ exponent ∧ AreDigits whole ∧
    (startsWith isDigit text = true ∨ (whole = [] ∧ startsWith isDigit (fraction.drop 1) = true)) ∧
    (fraction = [] ∨ ∃ digits, fraction = 0x2E :: digits ∧ AreDigits digits) ∧
    (exponent = [] ∨ IsExponent exponent)

def IsRadixNumber (text : Text) : Prop := ∃ mark digits, text = 0x30 :: mark :: digits ∧
  isRadixMark mark = true ∧ ∀ b ∈ digits, (isHexDigit b || b == 0x5F) = true

inductive Escaped (quote : UInt8) : Text → Prop where
  | done : Escaped quote []
  | plain {b : UInt8} {rest : Text} (open_ : b ≠ 0x5C) (other : b ≠ quote)
      (more : Escaped quote rest) : Escaped quote (b :: rest)
  | pair (b : UInt8) {rest : Text} (more : Escaped quote rest) : Escaped quote (0x5C :: b :: rest)

/-- A quote, and text through the first such quote that is not escaped. Only a string that nothing
comes `after` may lack that quote. -/
def IsString (after text : Text) : Prop := ∃ quote body, text = quote :: body ∧
  isQuote quote = true ∧ (after = [] ∨ ∃ inner, body = inner ++ [quote] ∧ Escaped quote inner)

/-- The lexical form of a token with text `text` that `after` follows. -/
def Form (after text : Text) : Kind → Prop
  | .char => ∃ b, text = [b] ∧ b < 0x80
  | .inlineHtml => text ≠ []
  | .openTag => ∃ word space, text = word ++ space ∧ lowerAscii word = ofString "<?php" ∧
      space ∈ tagSpaces
  | .openEchoTag => text = ofString "<?="
  | .closeTag => text ∈ closeTags
  | .whitespace => text ≠ [] ∧ ∀ b ∈ text, isSpace b = true
  | .comment => IsComment after text
  | .docComment => DocText text
  | .attributeOpen => text = ofString "#["
  | .variableName => ∃ label, text = 0x24 :: label ∧ IsLabel label
  | .name => IsQualified text
  | .number => IsRadixNumber text ∨ IsDecimal text
  | .stringLiteral => IsString after text
  | .heredoc => ofString "<<<" <+: text
  | .operator => text ∈ operators3 ++ operators2 ∨ text = [0x5C]
  | .keyword k => IsLabel text ∧ Utf8.lower text = k.word

theorem tagSpace_form {s : Text} {n : Nat} (found : tagSpaceLength? s = some n) :
    s.take n ∈ tagSpaces := by
  cases s with
  | nil =>
    cases found
    decide
  | cons b rest =>
    rw [tagSpaceLength?] at found
    split at found
    · rename_i both
      obtain ⟨first, second⟩ := Bool.and_eq_true_iff.mp both
      cases found
      cases rest with
      | nil => contradiction
      | cons c rest =>
        obtain rfl : b = 0x0D := by simpa using first
        obtain rfl : c = 0x0A := by simpa [startsWith] using second
        have two : (0x0D :: 0x0A :: rest).take 2 = [0x0D, 0x0A] := rfl
        rw [two]
        decide
    · split at found
      · rename_i space
        cases found
        have one : (b :: rest).take 1 = [b] := rfl
        rw [one]
        simp only [isSpace, Bool.or_eq_true, beq_iff_eq] at space
        rcases space with ((rfl | rfl) | rfl) | rfl <;> decide
      · contradiction

theorem openTag_form {s : Text} {kind : Kind} {n : Nat} (found : openTag? s = some (kind, n))
    (after : Text) : Form after (s.take n) kind := by
  unfold openTag? at found
  split at found
  · rename_i echo
    cases found
    exact (List.prefix_iff_eq_take.mp (List.isPrefixOf_iff_prefix.mp echo)).symm
  · split at found
    · rename_i word
      obtain ⟨m, space, pair⟩ := Option.map_eq_some_iff.mp found
      cases pair
      refine ⟨s.take 5, (s.drop 5).take m, ?_, beq_iff_eq.mp word, tagSpace_form space⟩
      rw [Nat.add_comm, List.take_add]
    · contradiction

theorem lineBreak_form {text after : Text} (length : lineBreakLength (text ++ after) = text.length) :
    text = [] ∨ text = [0x0A] ∨ text = [0x0D, 0x0A] := by
  have both : ofString "\r\n" = [0x0D, 0x0A] := by decide
  unfold lineBreakLength at length
  rw [both] at length
  split at length
  · rename_i found
    have front := List.isPrefixOf_iff_prefix.mp found
    have same := List.prefix_of_prefix_length_le front (List.prefix_append text after)
      (Nat.le_of_eq length)
    exact .inr (.inr (same.eq_of_length length).symm)
  · split at length
    · rename_i feed
      obtain ⟨b, rfl⟩ := List.length_eq_one_iff.mp length.symm
      obtain rfl : b = 0x0A := by simpa [startsWith] using feed
      exact .inr (.inl rfl)
    · exact .inl (List.eq_nil_of_length_eq_zero length.symm)

theorem line_cons {c : UInt8} {text : Text} (line : IsLine text) (noFeed : c ≠ 0x0A)
    (noReturn : c ≠ 0x0D) (open_ : ¬ ofString "?>" <+: c :: text) : IsLine (c :: text) := by
  obtain ⟨⟨line, ending, rfl, clean, breaks⟩, noTag⟩ := line
  refine ⟨⟨c :: line, ending, rfl, ?_, breaks⟩, ?_⟩
  · exact List.forall_mem_cons.mpr ⟨⟨noFeed, noReturn⟩, clean⟩
  · rw [List.infix_cons_iff]
    exact not_or.mpr ⟨open_, noTag⟩

theorem lineComment_form {text after : Text}
    (length : lineCommentLength (text ++ after) = text.length) : IsLine text := by
  induction text with
  | nil => exact ⟨⟨[], [], rfl, by simp, by decide⟩, by decide⟩
  | cons c text ih =>
    rw [List.cons_append, lineCommentLength, List.length_cons] at length
    split at length
    · rename_i feed
      obtain rfl : c = 0x0A := by simpa using feed
      rw [List.eq_nil_of_length_eq_zero (show text.length = 0 by omega)]
      exact ⟨⟨[], [0x0A], rfl, by simp, by decide⟩, by decide⟩
    · rename_i noFeed
      split at length
      · rename_i return_
        obtain rfl : c = 0x0D := by simpa using return_
        split at length
        · rename_i feed
          obtain ⟨b, rfl⟩ := List.length_eq_one_iff.mp (show text.length = 1 by omega)
          obtain rfl : b = 0x0A := by simpa [startsWith] using feed
          exact ⟨⟨[], [0x0D, 0x0A], rfl, by simp, by decide⟩, by decide⟩
        · rw [List.eq_nil_of_length_eq_zero (show text.length = 0 by omega)]
          exact ⟨⟨[], [0x0D], rfl, by simp, by decide⟩, by decide⟩
      · rename_i noReturn
        split at length
        · omega
        · rename_i open_
          apply line_cons (ih (Nat.succ.inj length)) (by simpa using noFeed) (by simpa using noReturn)
          rw [show ofString "?>" = [0x3F, 0x3E] by decide]
          intro tag
          obtain ⟨rfl, rest, rfl⟩ := List.cons_prefix_cons.mp tag
          simp [startsWith] at open_

theorem infix_iff_drop (w t : Text) : w <:+: t ↔ ∃ i, w <+: t.drop i := by
  constructor
  · rintro ⟨front, back, rfl⟩
    refine ⟨front.length, back, ?_⟩
    rw [List.append_assoc, List.drop_left]
  · rintro ⟨i, back, rest⟩
    refine ⟨t.take i, back, ?_⟩
    rw [List.append_assoc, rest, List.take_append_drop]

theorem terminators_eq_zero {t : Text} : terminators t = 0 ↔ ¬ [0x2A, 0x2F] <:+: t := by
  rw [terminators_eq_zero_iff, infix_iff_drop, not_exists]

theorem indexOf_none {needle s : Text} (missing : indexOf? needle s = none) : ¬ needle <:+: s := by
  rw [infix_iff_drop]
  rintro ⟨i, here⟩
  have absent : contains needle s = false := by rw [contains, missing]; rfl
  exact not_prefix_of_contains absent (List.drop_suffix i s) here

theorem block_form {kind : Kind} {body after : Text}
    (scanned : blockComment (body ++ after) = (kind, body.length)) : IsBlock after body := by
  unfold blockComment at scanned
  split at scanned
  · rename_i missing
    have length := congrArg Prod.snd scanned
    rw [List.length_append, Nat.add_eq_left] at length
    rw [List.eq_nil_of_length_eq_zero length, List.append_nil] at missing
    exact .inr ⟨List.eq_nil_of_length_eq_zero length, indexOf_none missing⟩
  · rename_i i found
    have length : i + 2 = body.length := congrArg Prod.snd scanned
    obtain ⟨u, rest, whole, rfl, none_⟩ := indexOf_terminator_split found
    have split : body ++ after = (u ++ [0x2A, 0x2F]) ++ rest := by
      rw [whole, List.append_assoc]
      rfl
    have same := (List.append_inj split (by simpa using length.symm)).1
    refine .inl ⟨u, same, ?_⟩
    rw [← terminators_eq_zero, terminators_append, none_, seam_of_head (by simp)]
    rfl

theorem nameStart_part {b : UInt8} (start : isNameStart b = true) : isNamePart b = true := by
  rw [isNamePart, start, Bool.true_or]

theorem join_nil_cons (part : Text) (parts : List Text) :
    join "\\" ([] :: part :: parts) = 0x5C :: join "\\" (part :: parts) := rfl

structure Chain (text part : Text) (labels : List Text) : Prop where
  whole : text = join "\\" (part :: labels)
  part : ∀ b ∈ part, isNamePart b = true
  labels : ∀ l ∈ labels, IsLabel l

theorem chain_label {text part : Text} {labels : List Text} (chain : Chain text part labels)
    (start : startsWith isNameStart text = true) : IsLabel part := by
  obtain ⟨whole, all, _⟩ := chain
  cases part with
  | nil =>
    cases labels with
    | nil =>
      rw [whole] at start
      contradiction
    | cons l labels =>
      rw [whole, join_nil_cons] at start
      exact absurd start (show isNameStart 0x5C ≠ true by decide)
  | cons b part =>
    rw [whole, join_front] at start
    exact ⟨b, part, rfl, start, fun c member => all c (List.mem_cons_of_mem b member)⟩

theorem startsWith_taken {text after : Text} (length : qualifiedLength (text ++ after) = text.length)
    (start : startsWith isNameStart (text ++ after) = true) : startsWith isNameStart text = true := by
  cases text with
  | nil =>
    cases after with
    | nil => contradiction
    | cons c after =>
      have part : isNamePart c = true := nameStart_part start
      rw [List.nil_append, qualifiedLength, part, Bool.true_or, if_pos rfl] at length
      contradiction
  | cons c text => exact start

theorem qualified_chain {text after : Text} (length : qualifiedLength (text ++ after) = text.length) :
    ∃ part labels, Chain text part labels := by
  induction text with
  | nil => exact ⟨[], [], rfl, by simp, by simp⟩
  | cons b text ih =>
    rw [List.cons_append, qualifiedLength] at length
    split at length
    · rename_i more
      obtain ⟨part, labels, chain⟩ := ih (Nat.succ.inj length)
      rcases Bool.or_eq_true_iff.mp more with carries | separates
      · refine ⟨b :: part, labels, ?_, ?_, chain.labels⟩
        · rw [join_front, ← chain.whole]
        · exact List.forall_mem_cons.mpr ⟨carries, chain.part⟩
      · obtain ⟨slash, next⟩ := Bool.and_eq_true_iff.mp separates
        obtain rfl : b = 0x5C := by simpa using slash
        have start := startsWith_taken (Nat.succ.inj length) next
        refine ⟨[], part :: labels, ?_, by simp, ?_⟩
        · rw [join_nil_cons, ← chain.whole]
        · exact List.forall_mem_cons.mpr ⟨chain_label chain start, chain.labels⟩
    · contradiction

theorem name_form {b : UInt8} {text after : Text} (seen : Lead.name.Seen b (text ++ after))
    (length : qualifiedLength (text ++ after) = text.length) : IsQualified (b :: text) := by
  obtain ⟨part, labels, chain⟩ := qualified_chain length
  rcases Bool.or_eq_true_iff.mp seen with start | rooted
  · refine ⟨(b :: part) :: labels, by simp, ?_, .inl ?_⟩
    · exact List.forall_mem_cons.mpr ⟨⟨b, part, rfl, start, chain.part⟩, chain.labels⟩
    · rw [join_front, ← chain.whole]
  · obtain ⟨slash, next⟩ := Bool.and_eq_true_iff.mp rooted
    obtain rfl : b = 0x5C := by simpa using slash
    have label := chain_label chain (startsWith_taken length next)
    refine ⟨part :: labels, by simp, ?_, .inr ?_⟩
    · exact List.forall_mem_cons.mpr ⟨label, chain.labels⟩
    · rw [← chain.whole]

end DocBridge.Lexeme
