import DocBridge.Proofs.Token.Lexemes

/-
Every token has the form of its kind: first what a scan in code takes, lead by lead, then every
scan of a stream.
-/
namespace DocBridge.Lexeme

open Text Scan

theorem label_qualified {text : Text} (label : IsLabel text) : IsQualified text :=
  ⟨[text], by simp, by simpa using label, .inl rfl⟩

theorem slash_mem_join (first next : Text) (labels : List Text) :
    0x5C ∈ join "\\" (first :: next :: labels) := by
  simp [join, show ofString "\\" = [0x5C] by decide]

theorem qualified_label {text : Text} (name : IsQualified text) (clean : 0x5C ∉ text) :
    IsLabel text := by
  obtain ⟨labels, some_, all, rfl | rfl⟩ := name
  · match labels with
    | [] => contradiction
    | [label] => exact all label List.mem_cons_self
    | first :: next :: labels => exact absurd (slash_mem_join first next labels) clean
  · exact absurd List.mem_cons_self clean

theorem keyword_form {text : Text} {k : Keyword} (name : IsQualified text)
    (kind : nameKind text = .keyword k) : IsLabel text ∧ Utf8.lower text = k.word := by
  unfold nameKind at kind
  split at kind
  · contradiction
  · rename_i clean
    constructor
    · apply qualified_label name
      intro slash
      exact clean (List.any_eq_true.mpr ⟨0x5C, slash, rfl⟩)
    · split at kind
      · rename_i k' found
        cases kind
        exact (beq_iff_eq.mp (List.find?_some found :)).symm
      · contradiction

theorem nameKind_form {text : Text} (name : IsQualified text) (after : Text) :
    Form after text (nameKind text) := by
  rcases nameKind_gives text with plain | ⟨k, keyword⟩
  · rw [plain]
    exact name
  · rw [keyword]
    exact keyword_form name keyword

theorem kindIn_form {after text : Text} {kind : Kind} (form : Form after text kind) (mode : Mode) :
    Form after text (Token.kindIn mode kind) := by
  unfold Token.kindIn
  split
  · rename_i demoted
    cases kind with
    | keyword k => exact label_qualified form.1
    | _ => simp [Kind.isKeyword] at demoted
  · exact form

theorem take_runLength (p : UInt8 → Bool) (s : Text) : s.take (runLength p s) = s.takeWhile p :=
  (List.prefix_iff_eq_take.mp (List.takeWhile_prefix p)).symm

theorem run_form (p : UInt8 → Bool) (s : Text) : ∀ b ∈ s.take (runLength p s), p b = true := by
  intro b member
  rw [take_runLength] at member
  exact List.all_eq_true.mp List.all_takeWhile b member

theorem fraction_form (s : Text) : s.take (fractionLength s) = [] ∨
    ∃ digits, s.take (fractionLength s) = 0x2E :: digits ∧ AreDigits digits := by
  unfold fractionLength
  split
  · rename_i rest
    split
    · exact .inl rfl
    · exact .inr ⟨rest.take (runLength isDigitPart rest), rfl, run_form isDigitPart rest⟩
  · exact .inl rfl

theorem sign_form (s : Text) :
    let sign := if startsWith (fun b => b == 0x2B || b == 0x2D) s then 1 else 0
    s.take sign = [] ∨ s.take sign = [0x2B] ∨ s.take sign = [0x2D] := by
  intro sign
  cases s with
  | nil => exact .inl List.take_nil
  | cons b s =>
    by_cases signed : (b == 0x2B || b == 0x2D) = true
    · have one : (b :: s).take sign = [b] := by simp [sign, startsWith, signed]
      rw [one]
      rcases Bool.or_eq_true_iff.mp signed with plus | minus
      · exact .inr (.inl (by rw [beq_iff_eq.mp plus]))
      · exact .inr (.inr (by rw [beq_iff_eq.mp minus]))
    · exact .inl (by simp [sign, startsWith, signed])

theorem exponent_form (s : Text) :
    s.take (exponentLength s) = [] ∨ IsExponent (s.take (exponentLength s)) := by
  cases s with
  | nil => exact .inl rfl
  | cons e rest =>
    rw [exponentLength]
    split
    · rename_i mark
      have signed := sign_form rest
      simp only at signed ⊢
      generalize (if startsWith (fun b => b == 0x2B || b == 0x2D) rest = true then 1 else 0)
        = sign at signed ⊢
      split
      · rename_i digit
        obtain ⟨d, digits, tail⟩ : ∃ d digits, rest.drop sign = d :: digits := by
          cases found : rest.drop sign with
          | nil =>
            rw [found] at digit
            contradiction
          | cons d digits => exact ⟨d, digits, rfl⟩
        rw [tail] at digit ⊢
        have part : isDigitPart d = true := by rw [isDigitPart, show isDigit d = true from digit]; rfl
        have run : runLength isDigitPart (d :: digits) = 1 + runLength isDigitPart digits := by
          rw [runLength, List.takeWhile_cons_of_pos part, List.length_cons, Nat.add_comm]
          rfl
        refine .inr ⟨e, rest.take sign, d, digits.take (runLength isDigitPart digits), ?_,
          beq_iff_eq.mp mark, signed, digit, run_form isDigitPart digits⟩
        rw [run, Nat.add_assoc, Nat.add_comm 1, List.take_succ_cons, List.take_add, tail,
          Nat.add_comm 1, List.take_succ_cons]
      · exact .inl rfl
    · exact .inl rfl

theorem startsWith_cons {p : UInt8 → Bool} {s : Text} (start : startsWith p s = true) :
    ∃ b rest, s = b :: rest ∧ p b = true := by
  cases s with
  | nil => contradiction
  | cons b rest => exact ⟨b, rest, rfl, start⟩

theorem digit_part {b : UInt8} (digit : isDigit b = true) : isDigitPart b = true := by
  rw [isDigitPart, digit, Bool.true_or]

theorem decimal_form {b : UInt8} {rest : Text} (seen : Lead.number.Seen b rest) :
    IsDecimal ((b :: rest).take (numberLength.decimal (b :: rest))) := by
  have parts : (b :: rest).take (numberLength.decimal (b :: rest)) = _ :=
    (List.take_add.trans (congrArg (· ++ _) List.take_add))
  rw [parts]
  refine ⟨_, _, _, rfl, run_form isDigitPart (b :: rest), ?_, fraction_form _, exponent_form _⟩
  rcases Bool.or_eq_true_iff.mp seen with digit | pointed
  · left
    rw [take_runLength, List.takeWhile_cons_of_pos (digit_part digit)]
    exact digit
  · right
    obtain ⟨point, start⟩ := Bool.and_eq_true_iff.mp pointed
    obtain rfl : b = 0x2E := by simpa using point
    obtain ⟨d, digits, rfl, digit⟩ := startsWith_cons start
    have none_ : runLength isDigitPart (0x2E :: d :: digits) = 0 := rfl
    have single : startsWith (· == 0x2E) (d :: digits) = false := by
      simp only [startsWith, beq_eq_false_iff_ne]
      rintro rfl
      contradiction
    rw [none_, List.take_zero, List.drop_zero, fractionLength, single, if_neg Bool.false_ne_true,
      List.take_succ_cons, List.drop_one, List.tail_cons, take_runLength,
      List.takeWhile_cons_of_pos (digit_part digit)]
    exact ⟨rfl, digit⟩

theorem number_form {b : UInt8} {rest : Text} (seen : Lead.number.Seen b rest) :
    IsRadixNumber ((b :: rest).take (numberLength (b :: rest))) ∨
      IsDecimal ((b :: rest).take (numberLength (b :: rest))) := by
  unfold numberLength
  split
  · rename_i marked
    left
    obtain ⟨zero, mark⟩ := Bool.and_eq_true_iff.mp marked
    obtain rfl : b = 0x30 := by simpa [startsWith] using zero
    obtain ⟨m, digits, rfl, radix⟩ := startsWith_cons mark
    refine ⟨m, digits.take _, ?_, radix, run_form (fun b => isHexDigit b || b == 0x5F) digits⟩
    rw [Nat.add_comm]
    rfl
  · exact .inr (decimal_form seen)

theorem decimal_ne_nil {text : Text} (decimal : IsDecimal text) : text ≠ [] := by
  rintro rfl
  obtain ⟨whole, fraction, exponent, empty, -, first, -, -⟩ := decimal
  rcases first with first | ⟨-, first⟩
  · contradiction
  · have none_ : fraction = [] := by simp_all
    rw [none_] at first
    contradiction

theorem numberLength_pos {b : UInt8} {rest : Text} (seen : Lead.number.Seen b rest) :
    0 < numberLength (b :: rest) := by
  apply Nat.pos_of_ne_zero
  intro none_
  rcases number_form seen with ⟨m, digits, text, -, -⟩ | decimal
  · rw [none_] at text
    contradiction
  · rw [none_] at decimal
    exact decimal_ne_nil decimal rfl

theorem quoted_form {quote : UInt8} {body after : Text}
    (length : quotedLength quote (body ++ after) = body.length) :
    after = [] ∨ ∃ inner, body = inner ++ [quote] ∧ Escaped quote inner := by
  generalize whole : body ++ after = s at length
  fun_induction quotedLength quote s generalizing body with
  | case1 => exact .inl (List.append_eq_nil_iff.mp whole).2
  | case2 b =>
    have both := congrArg List.length whole
    rw [List.length_append, List.length_singleton] at both
    exact .inl (List.eq_nil_of_length_eq_zero (by omega))
  | case3 b next rest escape ih =>
    obtain rfl : b = 0x5C := by simpa using escape
    rcases body with _ | ⟨c, _ | ⟨d, body⟩⟩
    · simp only [List.length_nil] at length
      omega
    · simp only [List.length_singleton] at length
      omega
    · simp only [List.cons_append, List.cons.injEq] at whole
      obtain ⟨rfl, rfl, whole⟩ := whole
      refine (ih whole (Nat.add_right_cancel length)).imp_right ?_
      rintro ⟨inner, rfl, escaped⟩
      exact ⟨0x5C :: d :: inner, rfl, .pair d escaped⟩
  | case4 b next rest _ closes =>
    obtain rfl : b = quote := by simpa using closes
    obtain ⟨c, rfl⟩ := List.length_eq_one_iff.mp length.symm
    obtain ⟨rfl, -⟩ := List.cons.inj whole
    exact .inr ⟨[], rfl, .done⟩
  | case5 b next rest plain other ih =>
    cases body with
    | nil => contradiction
    | cons c body =>
      obtain ⟨rfl, tail⟩ := List.cons.inj whole
      refine (ih tail (Nat.add_right_cancel length)).imp_right ?_
      rintro ⟨inner, rfl, escaped⟩
      exact ⟨c :: inner, rfl, .plain (by simpa using plain) (by simpa using other) escaped⟩

theorem operator_taken {table : List Text} {n : Nat} (lengths : ∀ op ∈ table, op.length = n + 1)
    {b : UInt8} {text after : Text} (found : table.any (·.isPrefixOf (b :: (text ++ after))) = true)
    (size : n = text.length) : b :: text ∈ table := by
  obtain ⟨op, member, front⟩ := List.any_eq_true.mp found
  have length : op.length = (b :: text).length := by rw [lengths op member, size, List.length_cons]
  have short := List.prefix_of_prefix_length_le (List.isPrefixOf_iff_prefix.mp front)
    (List.prefix_append (b :: text) after) (Nat.le_of_eq length)
  rw [← short.eq_of_length length]
  exact member

theorem operator_form {kind : Kind} {b : UInt8} {text after : Text} (low : b < 0x80)
    (scanned : scanOperator b (text ++ after) = (kind, text.length)) :
    Form after (b :: text) kind := by
  unfold scanOperator at scanned
  split at scanned
  · rename_i three
    obtain ⟨rfl, size⟩ := Prod.mk.inj scanned
    exact .inl (List.mem_append_left _ (operator_taken (by decide) three size))
  · split at scanned
    · rename_i two
      obtain ⟨rfl, size⟩ := Prod.mk.inj scanned
      exact .inl (List.mem_append_right _ (operator_taken (by decide) two size))
    · split at scanned
      all_goals
        rename_i lone
        obtain ⟨rfl, size⟩ := Prod.mk.inj scanned
        rw [List.eq_nil_of_length_eq_zero size.symm]
      · exact .inr (by rw [beq_iff_eq.mp lone])
      · exact ⟨b, rfl, low⟩

theorem leadOf_low {b : UInt8} {rest : Text} (lead : leadOf b rest ≠ .name) : b < 0x80 := by
  apply UInt8.not_le.mp
  intro high
  apply lead
  have other : ∀ c < 0x80, b ≠ c := by
    rintro c low rfl
    exact UInt8.not_le.mpr low high
  simp [leadOf, isSpace, isNameStart, high, other]

theorem startsWith_front {p : UInt8 → Bool} {text after : Text} (some_ : 0 < text.length)
    (start : startsWith p (text ++ after) = true) : ∃ c rest, text = c :: rest ∧ p c = true := by
  obtain ⟨c, rest, rfl⟩ := List.exists_cons_of_length_pos some_
  exact ⟨c, rest, rfl, start⟩

theorem label_form {text after : Text} (start : startsWith isNameStart (text ++ after) = true)
    (size : nameLength (text ++ after) = text.length) : IsLabel text := by
  have some_ : 0 < text.length := by
    obtain ⟨c, rest, whole, first⟩ := startsWith_cons start
    rw [← size, whole, nameLength, runLength, List.takeWhile_cons_of_pos (nameStart_part first)]
    exact Nat.succ_pos _
  obtain ⟨c, rest, rfl, first⟩ := startsWith_front some_ start
  exact ⟨c, rest, rfl, first, (List.forall_mem_cons.mp (all_of_runLength size)).2⟩

theorem closeTag_form {b : UInt8} {text after : Text} (seen : Lead.closeTag.Seen b (text ++ after))
    (size : 1 + lineBreakLength ((text ++ after).drop 1) = text.length) :
    b :: text ∈ closeTags := by
  obtain ⟨mark, start⟩ := Bool.and_eq_true_iff.mp seen
  obtain ⟨c, rest, rfl, bracket⟩ := startsWith_front (by omega) start
  obtain rfl : b = 0x3F := by simpa using mark
  obtain rfl : c = 0x3E := by simpa using bracket
  rw [List.cons_append, List.drop_one, List.tail_cons, List.length_cons, Nat.add_comm] at size
  rcases lineBreak_form (Nat.succ.inj size) with rfl | rfl | rfl <;> decide

theorem lineComment_taken {b : UInt8} {text after : Text}
    (seen : Lead.lineComment.Seen b (text ++ after))
    (size : lineCommentLength (text ++ after) = text.length) : IsComment after (b :: text) := by
  have line := lineComment_form size
  have noTag : b ≠ 0x3F → ¬ ofString "?>" <+: b :: text := by
    intro other tag
    exact other (List.cons_prefix_cons.mp tag).1.symm
  rcases Bool.or_eq_true_iff.mp seen with hash | slashes
  · obtain rfl : b = 0x23 := by simpa using hash
    exact .inr ⟨.inl ⟨text, rfl⟩, line_cons line (by decide) (by decide) (noTag (by decide))⟩
  · obtain ⟨slash, start⟩ := Bool.and_eq_true_iff.mp slashes
    obtain rfl : b = 0x2F := by simpa using slash
    have some_ : 0 < text.length := by
      obtain ⟨c, rest, whole, second⟩ := startsWith_cons start
      obtain rfl : c = 0x2F := by simpa using second
      rw [← size, whole]
      exact Nat.succ_pos _
    obtain ⟨c, rest, rfl, second⟩ := startsWith_front some_ start
    obtain rfl : c = 0x2F := by simpa using second
    exact .inr ⟨.inr ⟨rest, rfl⟩, line_cons line (by decide) (by decide) (noTag (by decide))⟩

theorem blockComment_taken {b : UInt8} {text after : Text} {kind : Kind}
    (seen : Lead.blockComment.Seen b (text ++ after))
    (scanned : scanLead b (text ++ after) .blockComment = (kind, text.length)) :
    Form after (b :: text) kind := by
  obtain ⟨slash, start⟩ := Bool.and_eq_true_iff.mp seen
  obtain ⟨same, size⟩ := Prod.mk.inj scanned
  obtain ⟨c, body, rfl, star⟩ := startsWith_front (by omega) start
  obtain rfl : b = 0x2F := by simpa using slash
  obtain rfl : c = 0x2A := by simpa using star
  rcases blockComment_gives (body ++ after) with comment | doc
  · have kind_ : kind = .comment := same.symm.trans comment
    rw [kind_]
    refine .inl ⟨body, rfl, block_form (Prod.ext comment (Nat.succ.inj size))⟩
  · have kind_ : kind = .docComment := same.symm.trans doc
    rw [kind_] at scanned ⊢
    exact blockComment_docText scanned

theorem heredoc_form {b : UInt8} {text after : Text} {n : Nat}
    (seen : Lead.brackets.Seen b (text ++ after)) (size : n + 2 = text.length) :
    ofString "<<<" <+: b :: text := by
  obtain ⟨bracket, more⟩ := Bool.and_eq_true_iff.mp seen
  obtain rfl : b = 0x3C := by simpa using bracket
  have two : (ofString "<<").length = 2 := by decide
  have front := List.prefix_of_prefix_length_le (List.isPrefixOf_iff_prefix.mp more)
    (List.prefix_append text after) (by omega)
  exact List.cons_prefix_cons.mpr ⟨rfl, front⟩

/-- What a scan in code takes has the form of the kind that the scan gives. -/
theorem lead_form {b : UInt8} {text after : Text} {kind : Kind}
    (scanned : scanLead b (text ++ after) (leadOf b (text ++ after)) = (kind, text.length)) :
    Form after (b :: text) kind := by
  have seen := leadOf_seen b (text ++ after)
  cases lead : leadOf b (text ++ after) <;> rw [lead] at seen scanned
  case space =>
    obtain ⟨rfl, size⟩ := Prod.mk.inj scanned
    exact ⟨by simp, List.forall_mem_cons.mpr ⟨seen, all_of_runLength size⟩⟩
  case closeTag =>
    obtain ⟨rfl, size⟩ := Prod.mk.inj scanned
    exact closeTag_form seen size
  case attributeOpen =>
    obtain ⟨rfl, size⟩ := Prod.mk.inj scanned
    obtain ⟨hash, start⟩ := Bool.and_eq_true_iff.mp seen
    obtain ⟨c, rfl⟩ := List.length_eq_one_iff.mp size.symm
    obtain rfl : b = 0x23 := by simpa using hash
    obtain rfl : c = 0x5B := by simpa [startsWith] using start
    rfl
  case lineComment =>
    obtain ⟨rfl, size⟩ := Prod.mk.inj scanned
    exact lineComment_taken seen size
  case blockComment => exact blockComment_taken seen scanned
  case variableName =>
    obtain ⟨rfl, size⟩ := Prod.mk.inj scanned
    obtain ⟨dollar, start⟩ := Bool.and_eq_true_iff.mp seen
    obtain rfl : b = 0x24 := by simpa using dollar
    exact ⟨text, rfl, label_form start size⟩
  case name =>
    obtain ⟨rfl, size⟩ := Prod.mk.inj scanned
    rw [size, List.take_left]
    exact nameKind_form (name_form seen size) after
  case number =>
    obtain ⟨rfl, size⟩ := Prod.mk.inj scanned
    have positive := numberLength_pos seen
    have form := number_form seen
    have taken : (b :: (text ++ after)).take (numberLength (b :: (text ++ after))) = b :: text := by
      rw [show numberLength (b :: (text ++ after)) = text.length + 1 by omega,
        List.take_succ_cons, List.take_left]
    rwa [taken] at form
  case quote =>
    obtain ⟨rfl, size⟩ := Prod.mk.inj scanned
    exact ⟨b, text, rfl, seen, quoted_form size⟩
  case brackets =>
    simp only [scanLead] at scanned
    split at scanned
    · obtain ⟨rfl, size⟩ := Prod.mk.inj scanned
      exact heredoc_form seen size
    · exact operator_form (leadOf_low (by rw [lead]; simp)) scanned
  case other => exact operator_form (leadOf_low (by rw [lead]; simp)) scanned

theorem inline_form {b : UInt8} {text after : Text} {kind : Kind}
    (scanned : scanInline b (text ++ after) = (kind, text.length)) :
    Form after (b :: text) kind := by
  unfold scanInline at scanned
  split at scanned
  · rename_i kind' n tag
    obtain ⟨rfl, size⟩ := Prod.mk.inj scanned
    have bounds := openTag_bounds tag
    have form := openTag_form tag after
    rwa [show n = text.length + 1 by omega, List.take_succ_cons, List.take_left] at form
  · obtain ⟨rfl, -⟩ := Prod.mk.inj scanned
    exact List.cons_ne_nil b text

end DocBridge.Lexeme

namespace DocBridge.Token

theorem scan_form {mode : Mode} {b : UInt8} {text after : Text} {kind : Kind}
    (scanned : scan mode b (text ++ after) = (kind, text.length)) :
    Lexeme.Form after (b :: text) kind := by
  unfold scan at scanned
  split at scanned
  · exact Lexeme.lead_form scanned
  · exact Lexeme.inline_form scanned

theorem lexed_form {mode : Mode} {line : Nat} {s : Text} {before after : List Token} {t : Token}
    (lexed : Lexed mode line s (before ++ t :: after)) :
    Lexeme.Form (after.flatMap Token.text) t.text t.kind := by
  obtain ⟨mode', b, text, kind, kind_, text_, scanned, -⟩ := lexed_scanned lexed
  rw [kind_, text_]
  exact Lexeme.kindIn_form (scan_form scanned) mode'

/-- Every token of a source has the lexical form of its kind, given what follows it. -/
theorem stream_lexical_forms (src : Text) (before : List Token) (t : Token) (after : List Token)
    (split : stream src = before ++ t :: after) :
    Lexeme.Form (after.flatMap Token.text) t.text t.kind := by
  have lexed := lexed_stream src
  rw [split] at lexed
  exact lexed_form lexed

theorem comment_before_close_tag :
    stream "<?php $a->Class # b ?>\n" =
      [⟨.openTag, "<?php ", 1⟩, ⟨.variableName, "$a", 1⟩, ⟨.operator, "->", 1⟩, ⟨.name, "Class", 1⟩,
        ⟨.whitespace, " ", 1⟩] ++ ⟨.comment, "# b ", 1⟩ :: [⟨.closeTag, "?>\n", 1⟩] ∧
      Lexeme.Form ([⟨.closeTag, "?>\n", 1⟩].flatMap Token.text) "# b " .comment := by
  refine ⟨by decide +kernel, ?_⟩
  apply stream_lexical_forms "<?php $a->Class # b ?>\n" [⟨.openTag, "<?php ", 1⟩,
    ⟨.variableName, "$a", 1⟩, ⟨.operator, "->", 1⟩, ⟨.name, "Class", 1⟩, ⟨.whitespace, " ", 1⟩]
    ⟨.comment, "# b ", 1⟩
  decide +kernel

end DocBridge.Token
