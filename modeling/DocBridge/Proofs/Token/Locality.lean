import DocBridge.Proofs.Token.Partition

/-
How far a scan looks. A slash after a token hides all that follows it, and so does a close tag: no
scanner that ends its token before one of them reads on behind it. This is what lets a doc comment,
which starts with a slash, change without a change to the tokens before it, and what lets a source
be continued behind a close tag.
-/
namespace DocBridge.Scan

open Text

/-- What hides the text behind it, given by its first byte and the bytes after that. -/
inductive Barrier : UInt8 → Text → Prop where
  | slash : Barrier 0x2F []
  | closeTag : Barrier 0x3F [0x3E]

variable {c : UInt8} {z w d : Text}

/-- A word that does not hold the barrier is not looked for behind it. -/
theorem isPrefixOf_barrier {op : Text} (free : ¬ c :: z <:+: op) (d' : Text) :
    op.isPrefixOf (w ++ c :: (z ++ d)) = op.isPrefixOf (w ++ c :: (z ++ d')) := by
  have same (x : Text) : op <+: w ++ c :: (z ++ x) ↔ op <+: w ++ c :: z := by
    have cut : w ++ c :: (z ++ x) = (w ++ c :: z) ++ x := by simp
    rw [cut]
    constructor
    · intro found
      rcases List.prefix_or_prefix_of_prefix found (List.prefix_append _ x) with short | long
      · exact short
      · exact absurd ((List.suffix_append w _).isInfix.trans long.isInfix) free
    · exact fun found => found.trans (List.prefix_append _ x)
  rw [Bool.eq_iff_iff, List.isPrefixOf_iff_prefix, List.isPrefixOf_iff_prefix, same, same]

theorem isPrefixOf_stop (op : Text) (free : c ∉ op) :
    op.isPrefixOf (w ++ c :: d) = op.isPrefixOf w := by
  induction op generalizing w with
  | nil => simp
  | cons a op ih =>
    have other : (a == c) = false := by
      rw [beq_eq_false_iff_ne]
      intro same
      exact free (by simp [same])
    cases w with
    | nil => simp [List.isPrefixOf, other]
    | cons b w =>
      simp only [List.cons_append, List.isPrefixOf, ih (fun member => free (by simp [member]))]

theorem startsWith_same (p : UInt8 → Bool) (d' : Text) :
    startsWith p (w ++ c :: d') = startsWith p (w ++ c :: d) := by
  cases w <;> rfl

variable (bar : Barrier c z)

include bar

theorem Barrier.stops {p : UInt8 → Bool} (stop : p 0x2F = false ∧ p 0x3F = false) :
    p c = false := by
  cases bar with
  | slash => exact stop.1
  | closeTag => exact stop.2

section Runs

variable {p : UInt8 → Bool} (stop : p 0x2F = false ∧ p 0x3F = false)

include stop

theorem takeWhile_barrier : (w ++ c :: d).takeWhile p = w.takeWhile p := by
  induction w with
  | nil => simp [bar.stops stop]
  | cons b w ih => simp only [List.cons_append, List.takeWhile_cons, ih]

theorem dropWhile_barrier : (w ++ c :: d).dropWhile p = w.dropWhile p ++ c :: d := by
  induction w with
  | nil => simp [bar.stops stop]
  | cons b w ih =>
    simp only [List.cons_append, List.dropWhile_cons, ih]
    split <;> rfl

theorem runLength_barrier : runLength p (w ++ c :: d) = runLength p w := by
  rw [runLength, takeWhile_barrier bar stop, runLength]

theorem startsWith_barrier : startsWith p (w ++ c :: d) = startsWith p w := by
  cases w with
  | nil => simp [startsWith, bar.stops stop]
  | cons b w => rfl

end Runs

theorem operators_barrier (table : List Text)
    (free : ∀ op ∈ table, ¬ [0x2F] <:+: op.tail ∧ ¬ [0x3F, 0x3E] <:+: op.tail) (b : UInt8)
    (d' : Text) :
    table.any (·.isPrefixOf (b :: (w ++ c :: (z ++ d)))) =
      table.any (·.isPrefixOf (b :: (w ++ c :: (z ++ d')))) := by
  rw [Bool.eq_iff_iff, List.any_eq_true, List.any_eq_true]
  refine exists_congr fun op => and_congr_right fun member => ?_
  cases op with
  | nil => simp
  | cons a op =>
    have tail : ¬ c :: z <:+: op := by
      cases bar with
      | slash => exact (free _ member).1
      | closeTag => exact (free _ member).2
    simp only [List.isPrefixOf, isPrefixOf_barrier tail d']

theorem scanOperator_barrier (b : UInt8) (d' : Text) :
    scanOperator b (w ++ c :: (z ++ d')) = scanOperator b (w ++ c :: (z ++ d)) := by
  simp only [scanOperator, operators_barrier bar operators3 (by decide) b d,
    operators_barrier bar operators2 (by decide) b d]

theorem tagSpaceLength_barrier (d' : Text) :
    tagSpaceLength? (w ++ c :: d) = tagSpaceLength? (w ++ c :: d') := by
  cases w with
  | nil =>
    have space : isSpace c = false := bar.stops (by decide)
    have noReturn : (c == 0x0D) = false := bar.stops (p := (· == 0x0D)) (by decide)
    simp [tagSpaceLength?, space, noReturn]
  | cons b w =>
    simp only [List.cons_append, tagSpaceLength?,
      startsWith_barrier bar (p := (· == 0x0A)) (by decide)]

theorem openWord_barrier (short : w.length < 5) :
    (ofString "<?php").isPrefixOf (w ++ c :: (z ++ d)) = false := by
  have word : ofString "<?php" = [0x3C, 0x3F, 0x70, 0x68, 0x70] := by decide
  rw [word]
  match w, short with
  | [], _ | [_], _ | [_, _], _ | [_, _, _], _ | [_, _, _, _], _ =>
    cases bar <;> simp [List.isPrefixOf]

theorem openTag_barrier (d' : Text) :
    openTag? (w ++ c :: (z ++ d)) = openTag? (w ++ c :: (z ++ d')) := by
  have free : ¬ c :: z <:+: ofString "<?=" ∧ ¬ c :: z <:+: ofString "<?php" := by
    cases bar <;> decide
  have echo : (ofString "<?=").isPrefixOf (w ++ c :: (z ++ d))
      = (ofString "<?=").isPrefixOf (w ++ c :: (z ++ d')) := isPrefixOf_barrier free.1 d'
  -- No letter is part of a barrier, so that it can be looked for in lower case.
  have lower (x : Text) : lowerAscii (w ++ c :: (z ++ x))
      = lowerAscii w ++ c :: (z ++ lowerAscii x) := by
    cases bar <;> simp [lowerAscii] <;> decide
  have word (x : Text) : (lowerAscii ((w ++ c :: (z ++ x)).take 5) == ofString "<?php")
      = (ofString "<?php").isPrefixOf (lowerAscii w ++ c :: (z ++ lowerAscii x)) := by
    have five : (ofString "<?php").length = 5 := by decide
    rw [Bool.eq_iff_iff, beq_iff_eq, List.isPrefixOf_iff_prefix, List.prefix_iff_eq_take, five,
      ← lower, lowerAscii, List.map_take]
    exact eq_comm
  simp only [openTag?, echo, word, isPrefixOf_barrier free.2 (lowerAscii d')]
  by_cases long : 5 ≤ w.length
  · simp only [List.drop_append_of_le_length long, tagSpaceLength_barrier bar (z ++ d')]
  · have none_ (x : Text) := openWord_barrier bar (w := lowerAscii w) (d := x)
      (by rw [lowerAscii, List.length_map]; omega)
    simp only [none_, Bool.false_eq_true, ↓reduceIte]

theorem openTag_at_barrier : openTag? (c :: (z ++ d)) = none := by
  rw [← List.nil_append (c :: (z ++ d)), openTag_barrier bar []]
  cases bar <;> decide

theorem inlineLength_barrier (d' : Text) (inside : inlineLength (w ++ c :: (z ++ d)) ≤ w.length) :
    inlineLength (w ++ c :: (z ++ d')) = inlineLength (w ++ c :: (z ++ d)) := by
  induction w with
  | nil => simp [inlineLength, openTag_at_barrier bar] at inside
  | cons b w ih =>
    have same := openTag_barrier bar (w := b :: w) (d := d) d'
    simp only [List.cons_append] at same inside ⊢
    simp only [inlineLength, ← same] at inside ⊢
    split
    · rfl
    · rename_i noTag
      simp only [noTag] at inside
      rw [ih (by simpa using inside)]

theorem scanInline_barrier (b : UInt8) (d' : Text)
    (inside : (scanInline b (w ++ c :: (z ++ d))).2 ≤ w.length) :
    scanInline b (w ++ c :: (z ++ d')) = scanInline b (w ++ c :: (z ++ d)) := by
  have same := openTag_barrier bar (w := b :: w) (d := d) d'
  simp only [List.cons_append] at same
  unfold scanInline at inside ⊢
  rw [← same]
  cases tag : openTag? (b :: (w ++ c :: (z ++ d))) with
  | some found => rfl
  | none =>
    simp only [tag] at inside ⊢
    rw [inlineLength_barrier bar d' inside]

theorem lineBreakLength_barrier : lineBreakLength (w ++ c :: d) = lineBreakLength w := by
  have free : c ∉ ofString "\r\n" := by cases bar <;> decide
  simp only [lineBreakLength, isPrefixOf_stop _ free,
    startsWith_barrier bar (p := (· == 0x0A)) (by decide)]

theorem lineCommentLength_barrier (d' : Text)
    (inside : lineCommentLength (w ++ c :: (z ++ d)) ≤ w.length) :
    lineCommentLength (w ++ c :: (z ++ d')) = lineCommentLength (w ++ c :: (z ++ d)) := by
  induction w with
  | nil =>
    cases bar with
    | slash => simp [lineCommentLength] at inside
    | closeTag => rfl
  | cons b w ih =>
    simp only [List.cons_append, lineCommentLength,
      startsWith_barrier bar (p := (· == 0x0A)) (by decide),
      startsWith_barrier bar (p := (· == 0x3E)) (by decide), List.length_cons] at inside ⊢
    split
    · rfl
    · split
      · rfl
      · split
        · rfl
        · simp_all

omit bar in
theorem terminator_barrier (d' : Text) {i : Nat} (inside : i + 2 ≤ w.length)
    (found : indexOf? "*/" (w ++ c :: d) = some i) :
    indexOf? "*/" (w ++ c :: d') = some i := by
  induction w generalizing i with
  | nil => simp at inside
  | cons b w ih =>
    -- Two bytes are compared, and the second is the first of the barrier at the furthest.
    have same : (ofString "*/").isPrefixOf (b :: (w ++ c :: d'))
        = (ofString "*/").isPrefixOf (b :: (w ++ c :: d)) := by
      cases w <;> rfl
    simp only [List.cons_append, indexOf?, same] at found ⊢
    split
    · rename_i here
      simpa [here] using found
    · rename_i later
      simp only [later, Bool.false_eq_true, ↓reduceIte] at found
      obtain ⟨j, hj, rfl⟩ := Option.map_eq_some_iff.mp found
      rw [ih (by simp at inside; omega) hj]
      rfl

theorem blockComment_barrier (d' : Text) (inside : (blockComment (w ++ c :: d)).2 ≤ w.length) :
    blockComment (w ++ c :: d') = blockComment (w ++ c :: d) := by
  unfold blockComment at inside ⊢
  cases found : indexOf? "*/" (w ++ c :: d) with
  | none =>
    simp only [found, List.length_append, List.length_cons] at inside
    omega
  | some i =>
    simp only [found] at inside ⊢
    have one : 1 ≤ w.length := by omega
    rw [terminator_barrier d' inside found]
    simp only [startsWith_barrier bar (p := (· == 0x2A)) (by decide),
      List.drop_append_of_le_length one, startsWith_barrier bar (p := isSpace) (by decide)]

theorem qualifiedLength_barrier : qualifiedLength (w ++ c :: d) = qualifiedLength w := by
  induction w with
  | nil => cases bar <;> rfl
  | cons b w ih =>
    simp only [List.cons_append, qualifiedLength, ih,
      startsWith_barrier bar (p := isNameStart) (by decide)]

theorem fractionLength_barrier : fractionLength (w ++ c :: d) = fractionLength w := by
  cases w with
  | nil => cases bar <;> rfl
  | cons b w =>
    by_cases point : b = 0x2E
    · subst point
      simp only [List.cons_append, fractionLength,
        startsWith_barrier bar (p := (· == 0x2E)) (by decide),
        runLength_barrier bar (p := isDigitPart) (by decide)]
    · simp [fractionLength, point]

theorem exponentLength_barrier : exponentLength (w ++ c :: d) = exponentLength w := by
  cases w with
  | nil => cases bar <;> rfl
  | cons e w =>
    simp only [List.cons_append, exponentLength,
      startsWith_barrier bar (p := fun b => b == 0x2B || b == 0x2D) (by decide)]
    split
    · split
      · rename_i sign
        have one := startsWith_length sign
        rw [List.drop_append_of_le_length one, startsWith_barrier bar (p := isDigit) (by decide),
          runLength_barrier bar (p := isDigitPart) (by decide)]
      · simp only [List.drop_zero, startsWith_barrier bar (p := isDigit) (by decide),
          runLength_barrier bar (p := isDigitPart) (by decide)]
    · rfl

theorem decimal_barrier : numberLength.decimal (w ++ c :: d) = numberLength.decimal w := by
  have whole := runLength_le isDigitPart w
  have fraction := fractionLength_le (w.drop (runLength isDigitPart w))
  rw [List.length_drop] at fraction
  simp only [numberLength.decimal, runLength_barrier bar (p := isDigitPart) (by decide),
    List.drop_append_of_le_length whole, fractionLength_barrier bar]
  rw [List.drop_append_of_le_length (by omega), exponentLength_barrier bar]

theorem numberLength_barrier : numberLength (w ++ c :: d) = numberLength w := by
  unfold numberLength
  rw [decimal_barrier bar, startsWith_barrier bar (p := (· == 0x30)) (by decide)]
  by_cases zero : startsWith (· == 0x30) w = true
  · rw [List.drop_append_of_le_length (startsWith_length zero),
      startsWith_barrier bar (p := isRadixMark) (by decide)]
    cases mark : startsWith isRadixMark (w.drop 1) with
    | true =>
      have two := startsWith_length mark
      rw [List.length_drop] at two
      rw [List.drop_append_of_le_length (by omega),
        runLength_barrier bar (p := fun b => isHexDigit b || b == 0x5F) (by decide)]
    | false => simp only [Bool.and_false, Bool.false_eq_true, ↓reduceIte]
  · simp [zero]

omit bar in
theorem quotedLength_escape (quote a : UInt8) (rest : Text) :
    quotedLength quote (0x5C :: a :: rest) = quotedLength quote rest + 2 := by
  simp [quotedLength]

omit bar in
theorem quotedLength_plain {quote b : UInt8} (plain : b ≠ 0x5C) (rest : Text) :
    quotedLength quote (b :: rest) = if b = quote then 1 else quotedLength quote rest + 1 := by
  cases rest with
  | nil => simp [quotedLength]
  | cons next rest => simp [quotedLength, plain]

theorem quotedLength_barrier (quote : UInt8) (d' : Text) :
    ∀ (w : Text), quotedLength quote (w ++ c :: d) ≤ w.length →
      quotedLength quote (w ++ c :: d') = quotedLength quote (w ++ c :: d)
  | [], inside => by
    have plain : c ≠ 0x5C := by cases bar <;> decide
    rw [List.nil_append, quotedLength_plain plain] at inside
    split at inside <;> simp at inside
  | [b], inside => by
    by_cases escape : b = 0x5C
    · simp [escape, quotedLength] at inside
    · simp only [List.cons_append, quotedLength_plain escape] at inside ⊢
      split
      · rfl
      · rename_i open_
        simp only [open_, ↓reduceIte, List.length_cons] at inside
        rw [quotedLength_barrier quote d' [] (by simpa using inside)]
  | b :: a :: w, inside => by
    by_cases escape : b = 0x5C
    · subst escape
      simp only [List.cons_append, quotedLength_escape] at inside ⊢
      rw [quotedLength_barrier quote d' w (by simpa using inside)]
    · simp only [List.cons_append, quotedLength_plain escape] at inside ⊢
      split
      · rfl
      · rename_i open_
        simp only [open_, ↓reduceIte, List.length_cons] at inside
        have same := quotedLength_barrier quote d' (a :: w) (by simpa using inside)
        rw [← List.cons_append, ← List.cons_append, same]

theorem openQuote_barrier :
    openQuote (w ++ c :: d) = ((openQuote w).1, (openQuote w).2 ++ c :: d) := by
  cases w with
  | nil => cases bar <;> rfl
  | cons b w =>
    simp only [List.cons_append, openQuote]
    split <;> rfl

omit bar in
theorem closeQuote_barrier {quote : Option UInt8} (other : ∀ q ∈ quote, q ≠ c) :
    closeQuote? quote (w ++ c :: d) = (closeQuote? quote w).map (· ++ c :: d) := by
  cases quote with
  | none => rfl
  | some q =>
    cases w with
    | nil => simp [closeQuote?, (other q rfl).symm]
    | cons b w =>
      simp only [List.cons_append, closeQuote?]
      split <;> rfl

theorem openQuote_not_barrier (s : Text) : ∀ q ∈ (openQuote s).1, q ≠ c := by
  intro q member
  cases s with
  | nil => simp [openQuote] at member
  | cons b rest =>
    simp only [openQuote] at member
    split at member
    · rename_i quote
      cases member
      rintro rfl
      cases bar <;> simp at quote
    · simp at member

theorem afterLineBreak_barrier :
    afterLineBreak? (w ++ c :: d) = (afterLineBreak? w).map (· ++ c :: d) := by
  simp only [afterLineBreak?, lineBreakLength_barrier bar]
  split
  · rfl
  · rw [List.drop_append_of_le_length (lineBreakLength_le w)]
    rfl

theorem heredocOpening_barrier : heredocOpening? (w ++ c :: d)
    = (heredocOpening? w).map fun (label, body) => (label, body ++ c :: d) := by
  simp only [heredocOpening?, dropWhile_barrier bar (p := isBlank) (by decide),
    openQuote_barrier bar, takeWhile_barrier bar (p := isNamePart) (by decide),
    dropWhile_barrier bar (p := isNamePart) (by decide),
    closeQuote_barrier (openQuote_not_barrier bar _)]
  split
  · cases closeQuote? (openQuote (w.dropWhile isBlank)).1
      ((openQuote (w.dropWhile isBlank)).2.dropWhile isNamePart) with
    | none => rfl
    | some rest =>
      simp only [Option.map_some, Option.bind_some, afterLineBreak_barrier bar]
      cases afterLineBreak? rest <;> rfl
  · rfl

theorem heredocClosing_barrier {label : Text} (free : c ∉ label) :
    heredocClosing? label (w ++ c :: d) = heredocClosing? label w := by
  simp only [heredocClosing?, runLength_barrier bar (p := isBlank) (by decide),
    List.drop_append_of_le_length (runLength_le isBlank w), isPrefixOf_stop _ free]
  by_cases here : label.isPrefixOf (w.drop (runLength isBlank w)) = true
  · rw [List.drop_append_of_le_length (isPrefixOf_length_le here),
      startsWith_barrier bar (p := isNamePart) (by decide)]
  · simp [here]

theorem heredocClosing_at_barrier {label : Text} (free : c ∉ label) (named : label ≠ []) :
    heredocClosing? label (c :: d) = none := by
  have same := heredocClosing_barrier bar (w := []) (d := d) free
  rw [List.nil_append] at same
  rw [same]
  cases label with
  | nil => contradiction
  | cons b label => simp [heredocClosing?]

theorem heredocBodyLength_barrier {label : Text} (free : c ∉ label) (named : label ≠ [])
    (d' : Text) (atLineStart : Bool)
    (inside : heredocBodyLength label atLineStart (w ++ c :: d) ≤ w.length) :
    heredocBodyLength label atLineStart (w ++ c :: d')
      = heredocBodyLength label atLineStart (w ++ c :: d) := by
  induction w generalizing atLineStart with
  | nil =>
    cases atLineStart <;>
      simp [heredocBodyLength, heredocClosing_at_barrier bar free named] at inside
  | cons b w ih =>
    have same (x : Text) : heredocClosing? label (b :: (w ++ c :: x))
        = heredocClosing? label (b :: w) := heredocClosing_barrier bar (w := b :: w) free
    simp only [List.cons_append, heredocBodyLength, same, List.length_cons] at inside ⊢
    split
    · rfl
    · rename_i closing
      simp only [closing] at inside
      rw [ih (b == 0x0A) (by omega)]

theorem heredocOpening_label {s label body : Text} (h : heredocOpening? s = some (label, body)) :
    c ∉ label ∧ label ≠ [] := by
  simp only [heredocOpening?] at h
  split at h
  · rename_i start
    obtain ⟨_, _, pair⟩ := Option.map_eq_some_iff.mp h
    cases pair
    refine ⟨fun member => ?_, fun empty => ?_⟩
    · have part := List.all_eq_true.mp List.all_takeWhile _ member
      rw [bar.stops (p := isNamePart) (by decide)] at part
      contradiction
    · rw [empty] at start
      simp [startsWith] at start
  · simp at h

theorem heredocLength_barrier (d' : Text)
    (inside : ∀ n ∈ heredocLength? (w ++ c :: d), n ≤ w.length) :
    heredocLength? (w ++ c :: d') = heredocLength? (w ++ c :: d) := by
  simp only [heredocLength?, heredocOpening_barrier bar] at inside ⊢
  cases opening : heredocOpening? w with
  | none => rfl
  | some pair =>
    obtain ⟨label, body⟩ := pair
    have ⟨free, named⟩ := heredocOpening_label bar opening
    have suffix := (heredocOpening_suffix opening).length_le
    simp only [opening, Option.map_some, Option.mem_def, Option.some.injEq, forall_eq',
      List.length_append, List.length_cons] at inside ⊢
    rw [heredocBodyLength_barrier bar (d := d) free named d' true (by omega)]
    omega

theorem leadOf_barrier (b : UInt8) (d' : Text) :
    leadOf b (w ++ c :: d') = leadOf b (w ++ c :: d) := by
  have free : c ∉ ofString "<<" := by cases bar <;> decide
  have angle (x : Text) : (ofString "<<").isPrefixOf (w ++ c :: x)
      = (ofString "<<").isPrefixOf w := isPrefixOf_stop _ free
  unfold leadOf
  rw [angle d', angle d]
  simp only [startsWith_same (d := d) _ d']

theorem scanLead_barrier {b : UInt8} {lead : Lead} (d' : Text)
    (seen : lead.Seen b (w ++ c :: (z ++ d)))
    (inside : (scanLead b (w ++ c :: (z ++ d)) lead).2 ≤ w.length) :
    scanLead b (w ++ c :: (z ++ d')) lead = scanLead b (w ++ c :: (z ++ d)) lead := by
  cases lead with
  | space => simp only [scanLead, runLength_barrier bar (p := isSpace) (by decide)]
  | closeTag =>
    have next := (Bool.and_eq_true_iff.mp seen).2
    rw [startsWith_barrier bar (p := (· == 0x3E)) (by decide)] at next
    have one := startsWith_length next
    simp only [scanLead, List.drop_append_of_le_length one, lineBreakLength_barrier bar]
  | attributeOpen => rfl
  | lineComment =>
    simp only [scanLead] at inside ⊢
    rw [lineCommentLength_barrier bar d' inside]
  | blockComment =>
    have next := (Bool.and_eq_true_iff.mp seen).2
    rw [startsWith_barrier bar (p := (· == 0x2A)) (by decide)] at next
    have one := startsWith_length next
    simp only [scanLead, List.drop_append_of_le_length one] at inside ⊢
    rw [blockComment_barrier bar (d := z ++ d) (z ++ d') (by rw [List.length_drop]; omega)]
  | variableName =>
    simp only [scanLead, nameLength, runLength_barrier bar (p := isNamePart) (by decide)]
  | name =>
    have fits := qualifiedLength_le w
    simp only [scanLead, qualifiedLength_barrier bar, List.take_append_of_le_length fits]
  | number =>
    have same (x : Text) : numberLength (b :: (w ++ c :: x)) = numberLength (b :: w) :=
      numberLength_barrier bar (w := b :: w)
    simp only [scanLead, same]
  | quote =>
    simp only [scanLead] at inside ⊢
    rw [quotedLength_barrier bar b (z ++ d') w inside]
  | brackets =>
    have free : c ∉ ofString "<<" := by cases bar <;> decide
    have next := (Bool.and_eq_true_iff.mp seen).2
    rw [isPrefixOf_stop _ free] at next
    have two : 2 ≤ w.length := isPrefixOf_length_le next
    simp only [scanLead, List.drop_append_of_le_length two] at inside ⊢
    have body : ∀ n ∈ heredocLength? (w.drop 2 ++ c :: (z ++ d)), n ≤ (w.drop 2).length := by
      intro n found
      rw [Option.mem_def.mp found] at inside
      rw [List.length_drop]
      simp only at inside
      omega
    rw [heredocLength_barrier bar (z ++ d') body, scanOperator_barrier bar b d']
  | other => exact scanOperator_barrier bar b d'

theorem scanCode_barrier (b : UInt8) (d' : Text)
    (inside : (scanCode b (w ++ c :: (z ++ d))).2 ≤ w.length) :
    scanCode b (w ++ c :: (z ++ d')) = scanCode b (w ++ c :: (z ++ d)) := by
  unfold scanCode at inside ⊢
  rw [leadOf_barrier bar (d := z ++ d) b (z ++ d')]
  exact scanLead_barrier bar d' (leadOf_seen b _) inside

end DocBridge.Scan

namespace DocBridge.Token

/-- What follows a barrier behind a token has no part in its scan. -/
theorem scan_barrier {c : UInt8} {z : Text} (bar : Scan.Barrier c z) {mode : Mode} {b : UInt8}
    {w d : Text} (d' : Text) (inside : (scan mode b (w ++ c :: (z ++ d))).2 ≤ w.length) :
    scan mode b (w ++ c :: (z ++ d')) = scan mode b (w ++ c :: (z ++ d)) := by
  unfold scan at inside ⊢
  split
  · rename_i code
    simp only [code, ↓reduceIte] at inside
    exact Scan.scanCode_barrier bar b d' inside
  · rename_i code
    simp only [code] at inside
    exact Scan.scanInline_barrier bar b d' inside

end DocBridge.Token
