import DocBridge.Proofs.Token.Offset
import DocBridge.Proofs.Token.Segments

/-
The scanners over offsets agree with the ones over the text that is left. Where `s` stands at `i`,
each of them makes its reads within the source and ends as many bytes behind `i` as the other takes
of `s`.
-/
namespace DocBridge.Offset

open Text Scan Lexeme

variable {src s rest : Text} {i off : Nat} {b : UInt8}

theorem runLength_cons (p : UInt8 → Bool) (b : UInt8) (rest : Text) :
    runLength p (b :: rest) = if p b then runLength p rest + 1 else 0 := by
  rw [runLength, List.takeWhile_cons]
  split <;> rfl

theorem drop_runLength (p : UInt8 → Bool) (s : Text) : s.drop (runLength p s) = s.dropWhile p := by
  have whole : s.takeWhile p ++ s.dropWhile p = s := List.takeWhile_append_dropWhile
  calc s.drop (runLength p s) = (s.takeWhile p ++ s.dropWhile p).drop (s.takeWhile p).length := by
        rw [whole, runLength]
    _ = s.dropWhile p := List.drop_left

theorem dropWhile_stops (p : UInt8 → Bool) (s : Text) : startsWith p (s.dropWhile p) = false := by
  induction s with
  | nil => rfl
  | cons b rest ih =>
    rw [List.dropWhile_cons]
    split
    · exact ih
    · exact Bool.eq_false_iff.mpr ‹_›

theorem runEnd_eq (here : At src i s) (p : UInt8 → Bool) :
    runEnd src p i = some (i + runLength p s) := by
  induction s generalizing i with
  | nil => rw [runEnd, if_neg here.done]; rfl
  | cons b rest ih =>
    rw [runEnd, if_pos here.lt, here.byte, runLength_cons]
    simp only [Option.bind_eq_bind, Option.bind_some]
    split
    · rw [ih here.next]
      congr 1
      omega
    · rfl

theorem At.run (here : At src i s) (p : UInt8 → Bool) :
    At src (i + runLength p s) (s.dropWhile p) := by
  have behind := here.drop (runLength_le p s)
  rwa [drop_runLength] at behind

theorem openTag_bracket {tag : Kind × Nat} (found : openTag? (b :: rest) = some tag) : b = 0x3C := by
  have echo : ofString "<?=" = [0x3C, 0x3F, 0x3D] := by decide
  have php : ofString "<?php" = [0x3C, 0x3F, 0x70, 0x68, 0x70] := by decide
  rw [openTag?, echo, php] at found
  split at found
  · rename_i opens
    simp only [List.isPrefixOf, Bool.and_eq_true, beq_iff_eq] at opens
    exact opens.1.symm
  · split at found
    · rename_i word
      simp only [lowerAscii, List.take_succ_cons, List.map_cons, beq_iff_eq, List.cons.injEq] at word
      have lower : lowerByte b = 0x3C := word.1
      rw [lowerByte] at lower
      split at lower
      · rename_i upper
        -- An upper case letter does not become a bracket.
        have size := congrArg UInt8.toNat lower
        simp only [isUpper, Bool.and_eq_true, decide_eq_true_eq, UInt8.le_iff_toNat_le] at upper
        simp only [UInt8.toNat_add, UInt8.reduceToNat] at size upper
        omega
      · exact lower
    · contradiction

theorem openTagLength_cases (here : At src i s) :
    (openTagLength src i = some 0 ∧ openTag? s = none) ∨
    (openTagLength src i = some 3 ∧ openTag? s = some (.openEchoTag, 3) ∧
      (ofString "<?=").isPrefixOf s = true) ∨
    (openTagLength src i = some 5 ∧ 5 ≤ s.length ∧ (ofString "<?=").isPrefixOf s = false ∧
      ∃ n, openTag? s = some (.openTag, n + 5) ∧ tagSpaceLength? (s.drop 5) = some n) := by
  have start : At s 0 s := ⟨Nat.zero_le _, rfl⟩
  rw [openTagLength, here.rest?, openTag?]
  simp only [Option.bind_eq_bind, Option.bind_some]
  cases echo : (ofString "<?=").isPrefixOf s with
  | true => exact .inr (.inl ⟨rfl, rfl, rfl⟩)
  | false =>
    by_cases word : (lowerAscii (s.take 5) == ofString "<?php") = true
    · have long : 5 ≤ s.length := by
        have size := congrArg List.length (beq_iff_eq.mp word)
        rw [lowerAscii, List.length_map, List.length_take] at size
        exact Nat.le_trans (Nat.le_of_eq size.symm) (Nat.min_le_right 5 s.length)
      have behind := start.drop long
      have front := start.slice? long
      rw [Nat.zero_add] at behind front
      simp only [Bool.false_eq_true, if_false, long, if_true, front, Option.bind_some, word]
      generalize s.drop 5 = space at behind ⊢
      cases space with
      | nil =>
        have five : s.length = 5 := behind.length.symm
        rw [if_pos five]
        exact .inr (.inr ⟨rfl, trivial, trivial, 0, rfl, rfl⟩)
      | cons c tail =>
        have more : s.length ≠ 5 := Nat.ne_of_gt behind.lt
        have spaced := tagSpace_iff (c :: tail)
        rw [if_neg more, behind.byte, Option.bind_some]
        cases found : tagSpaceLength? (c :: tail) with
        | none => simp_all [startsWith]
        | some n => simp_all [startsWith]
    · left
      simp only [Bool.false_eq_true, if_false, word]
      split
      · rename_i long
        have front := start.slice? long
        rw [Nat.zero_add] at front
        rw [front, Option.bind_some, if_neg word]
        exact ⟨rfl, trivial⟩
      · exact ⟨rfl, trivial⟩

theorem crlf_front (b : UInt8) (rest : Text) :
    (ofString "\r\n").isPrefixOf (b :: rest) = (b == 0x0D && startsWith (· == 0x0A) rest) := by
  have both : ofString "\r\n" = [0x0D, 0x0A] := by decide
  rw [both]
  cases rest with
  | nil => simp [List.isPrefixOf, startsWith]
  | cons c tail => simp [List.isPrefixOf, startsWith, Bool.beq_comm]

theorem tagSpaceEnd_eq (here : At src i s) {n : Nat} (space : tagSpaceLength? s = some n) :
    tagSpaceEnd src i = some (i + n) := by
  rw [tagSpaceEnd, here.hasPrefix?, here.test?]
  cases s with
  | nil =>
    cases space
    rfl
  | cons b rest =>
    rw [tagSpaceLength?] at space
    simp only [Option.bind_eq_bind, Option.bind_some, crlf_front, startsWith]
    split at space
    · cases space
      rw [if_pos ‹_›]
    · rw [if_neg ‹_›]
      split at space
      · cases space
        rw [if_pos ‹_›]
      · contradiction

theorem tagLength_iff (here : At src i (b :: rest)) : ∃ n, tagLength src b i = some n ∧
    (0 < n ↔ (openTag? (b :: rest)).isSome = true) := by
  by_cases bracket : b = 0x3C
  · rw [tagLength, if_pos (beq_iff_eq.mpr bracket)]
    rcases openTagLength_cases here with ⟨none_, tag⟩ | ⟨three, tag, _⟩ | ⟨five, _, _, n, tag, _⟩
    · exact ⟨0, none_, by simp [tag]⟩
    · exact ⟨3, three, by simp [tag]⟩
    · exact ⟨5, five, by simp [tag]⟩
  · refine ⟨0, if_neg (by simpa using bracket), ?_⟩
    have noTag : openTag? (b :: rest) = none :=
      Option.eq_none_iff_forall_ne_some.mpr fun tag found => bracket (openTag_bracket found)
    simp [noTag]

theorem inlineEnd_eq (here : At src i s) : inlineEnd src i = some (i + inlineLength s) := by
  induction s generalizing i with
  | nil =>
    rw [inlineEnd, if_neg here.done, ← here.length]
    rfl
  | cons b rest ih =>
    obtain ⟨n, asked, tag⟩ := tagLength_iff here
    rw [inlineEnd, if_pos here.lt, here.byte, inlineLength]
    simp only [Option.bind_eq_bind, Option.bind_some, asked, tag, ih here.next]
    split
    · rfl
    · rw [Nat.add_right_comm, Nat.add_assoc]

/-- The kind and the length of a scan behind its first byte, as an offset. -/
def ends (off : Nat) (scanned : Kind × Nat) : Kind × Nat := (scanned.1, off + 1 + scanned.2)

theorem scanInline_eq (here : At src off (b :: rest)) :
    scanInline src off = some (ends off (Scan.scanInline b rest)) := by
  rw [scanInline, Scan.scanInline, here.hasPrefix?]
  simp only [Option.bind_eq_bind, Option.bind_some]
  rcases openTagLength_cases here with ⟨none_, tag⟩ | ⟨three, tag, echo⟩ |
    ⟨five, long, plain, n, tag, space⟩
  · simp only [none_, Option.bind_some, tag, inlineEnd_eq here.next]
    rfl
  · simp only [three, Option.bind_some, tag, echo]
    rfl
  · simp only [five, Option.bind_some, tag, plain, tagSpaceEnd_eq (here.drop long) space]
    have total : off + 5 + n = off + 1 + (n + 5 - 1) := by omega
    exact congrArg (fun stop => some (Kind.openTag, stop)) total

theorem breakEnd_eq (here : At src i s) : breakEnd src i = some (i + lineBreakLength s) := by
  rw [breakEnd, here.hasPrefix?, lineBreakLength]
  have feed := here.peek_here (p := (· == 0x0A)) (by decide)
  simp only [Option.bind_eq_bind, Option.bind_some, feed]
  split
  · rfl
  · split <;> rfl

theorem lineCommentEnd_eq (here : At src i s) :
    lineCommentEnd src i = some (i + lineCommentLength s) := by
  induction s generalizing i with
  | nil => rw [lineCommentEnd, if_neg here.done]; rfl
  | cons b rest ih =>
    have feed := here.peek_next (p := (· == 0x0A)) (by decide)
    have bracket := here.peek_next (p := (· == 0x3E)) (by decide)
    rw [lineCommentEnd, if_pos here.lt, here.byte, lineCommentLength, feed, bracket, ih here.next]
    simp only [Option.bind_eq_bind, Option.bind_some]
    split
    · rfl
    · split
      · split <;> rfl
      · split
        · rfl
        · congr 1
          omega

theorem blockComment_eq (here : At src off (b :: s)) (body : 1 ≤ s.length) :
    blockComment src off =
      some (ends off ((Scan.blockComment (s.drop 1)).1, (Scan.blockComment (s.drop 1)).2 + 1)) := by
  have two : 2 ≤ (b :: s).length := by simpa using body
  have star := here.peek (p := (· == 0x2A)) 2 (by decide)
  have space := here.peek (p := isSpace) 3 (by decide)
  have size := (here.drop two).length
  rw [blockComment, (here.drop two).rest?, star, space]
  simp only [Option.bind_eq_bind, Option.bind_some, List.drop_succ_cons] at size ⊢
  rw [Scan.blockComment]
  cases indexOf? "*/" (s.drop 1) with
  | none =>
    simp only [ends, Option.some.injEq, Prod.mk.injEq, true_and]
    omega
  | some n =>
    simp only [ends, List.drop_drop, Option.some.injEq, Prod.mk.injEq, true_and]
    omega

theorem qualifiedLength_run (s : Text) :
    qualifiedLength s = runLength isNamePart s + qualifiedLength (s.dropWhile isNamePart) := by
  induction s with
  | nil => rfl
  | cons b rest ih =>
    rw [runLength_cons, List.dropWhile_cons]
    split
    · rename_i part
      rw [qualifiedLength, part, Bool.true_or, if_pos rfl, ih]
      omega
    · exact (Nat.zero_add _).symm

theorem nameEnd_eq (here : At src i s) (ended : startsWith isNamePart s = false) (qualified : Bool) :
    nameEnd src qualified i = some
      (qualified || containsByte 0x5C (s.take (qualifiedLength s)), i + qualifiedLength s) := by
  induction h : s.length using Nat.strongRecOn generalizing i s qualified with
  | ind size ih =>
    cases s with
    | nil =>
      have slash := here.peek_here (p := (· == 0x5C)) (by decide)
      rw [startsWith] at slash
      rw [nameEnd, slash, Bool.false_and, if_neg Bool.false_ne_true, qualifiedLength, List.take_nil]
      simp [containsByte]
    | cons b rest =>
      have slash := here.peek_here (p := (· == 0x5C)) (by decide)
      have label := here.peek_next (p := isNameStart) (by decide)
      rw [startsWith] at slash
      have other : isNamePart b = false := ended
      rw [nameEnd, label, slash, qualifiedLength, other, Bool.false_or]
      split
      · rename_i both
        obtain ⟨slash, start⟩ := Bool.and_eq_true_iff.mp both
        have after := here.next.run isNamePart
        have smaller : (rest.dropWhile isNamePart).length < size := by
          have := (List.dropWhile_suffix isNamePart (l := rest)).length_le
          rw [List.length_cons] at h
          omega
        obtain rfl : b = 0x5C := by simpa using slash
        rw [runEnd_eq here.next]
        simp only
        rw [ih _ smaller after (dropWhile_stops isNamePart rest) true rfl, qualifiedLength_run rest]
        simp only [List.take_succ_cons, containsByte, List.any_cons, beq_self_eq_true,
          Bool.true_or, Bool.or_true, Option.some.injEq, Prod.mk.injEq, true_and]
        omega
      · simp [containsByte]

theorem slash_behind (s : Text) : containsByte 0x5C (s.take (qualifiedLength s)) =
    containsByte 0x5C
      ((s.dropWhile isNamePart).take (qualifiedLength (s.dropWhile isNamePart))) := by
  induction s with
  | nil => rfl
  | cons b rest ih =>
    rw [List.dropWhile_cons]
    split
    · rename_i part
      have plain : (b == 0x5C) = false := by
        rw [beq_eq_false_iff_ne]
        rintro rfl
        contradiction
      rw [qualifiedLength, part, Bool.true_or, if_pos rfl, List.take_succ_cons, ← ih]
      simp only [containsByte, List.any_cons, plain, Bool.false_or]
    · rfl

theorem scanName_eq (here : At src off (b :: rest)) (seen : Lead.name.Seen b rest) :
    scanName src off = some (ends off
      (nameKind (b :: rest.take (qualifiedLength rest)), qualifiedLength rest)) := by
  -- The first label ends in the same place whether or not a backslash stands before it.
  have label : runEnd src isNamePart (if b == 0x5C then off + 1 else off)
      = some (off + 1 + runLength isNamePart rest) := by
    split
    · exact runEnd_eq here.next isNamePart
    · rename_i plain
      have start : isNameStart b = true := by simpa [plain, Lead.Seen] using seen
      rw [runEnd_eq here, runLength_cons, nameStart_part start, if_pos rfl]
      congr 1
      omega
  have total : off + 1 + runLength isNamePart rest + qualifiedLength (rest.dropWhile isNamePart)
      = off + 1 + qualifiedLength rest := by
    rw [qualifiedLength_run rest, Nat.add_assoc]
  have word : slice? src off (off + 1 + qualifiedLength rest)
      = some (b :: rest.take (qualifiedLength rest)) := by
    have fits : qualifiedLength rest + 1 ≤ (b :: rest).length :=
      Nat.succ_le_succ (qualifiedLength_le rest)
    rw [Nat.add_assoc, Nat.add_comm 1, here.slice? fits, List.take_succ_cons]
  rw [scanName, here.byte]
  simp only [Option.bind_eq_bind, Option.bind_some, label, total, word, ← slash_behind,
    nameEnd_eq (here.next.run isNamePart) (dropWhile_stops isNamePart rest)]
  have found : containsByte 0x5C (b :: rest.take (qualifiedLength rest))
      = (b == 0x5C || containsByte 0x5C (rest.take (qualifiedLength rest))) := rfl
  rw [nameKind, found]
  split
  · rfl
  · cases Keyword.ofWord? (Utf8.lower (b :: rest.take (qualifiedLength rest))) with
    | some k => rfl
    | none => rfl

theorem fractionEnd_eq (here : At src i s) : fractionEnd src i = some (i + fractionLength s) := by
  rw [fractionEnd, here.peek_here (p := (· == 0x2E)) (by decide)]
  fun_cases fractionLength s with
  | case1 rest point =>
    rw [here.peek_next (p := (· == 0x2E)) (by decide), point]
    rfl
  | case2 rest point =>
    rw [here.peek_next (p := (· == 0x2E)) (by decide), runEnd_eq here.next, startsWith,
      Bool.eq_false_iff.mpr point, Nat.add_assoc, Nat.add_comm 1]
    rfl
  | case3 =>
    rename_i other
    have noPoint : startsWith (· == 0x2E) s = false := by
      rw [Bool.eq_false_iff]
      intro start
      obtain ⟨b, rest, rfl, point⟩ := startsWith_cons start
      exact other rest (by rw [beq_iff_eq.mp point])
    rw [noPoint]
    rfl

theorem exponentEnd_eq (here : At src i s) : exponentEnd src i = some (i + exponentLength s) := by
  rw [exponentEnd, here.peek_here (p := fun b => lowerByte b == 0x65) (by decide)]
  cases s with
  | nil => rfl
  | cons e rest =>
    have sign := here.peek_next (p := fun b => b == 0x2B || b == 0x2D) (by decide)
    rw [exponentLength, startsWith, sign]
    split
    · -- The digits start one further on where there is a sign.
      have digits : ∃ n ≤ rest.length,
          (if startsWith (fun b => b == 0x2B || b == 0x2D) rest then i + 2 else i + 1) = i + 1 + n ∧
          (if startsWith (fun b => b == 0x2B || b == 0x2D) rest then 1 else 0) = n := by
        split
        · exact ⟨1, startsWith_length ‹_›, rfl, rfl⟩
        · exact ⟨0, Nat.zero_le _, rfl, rfl⟩
      obtain ⟨n, fits, start, skipped⟩ := digits
      have after := here.next.drop fits
      simp only [start, skipped, after.peek_here (p := isDigit) (by decide), runEnd_eq after]
      split
      · congr 1
        omega
      · rfl
    · rfl

theorem numberEnd_eq (here : At src i s) : numberEnd src i = some (i + numberLength s) := by
  have zero := here.peek_here (p := (· == 0x30)) (by decide)
  have mark := here.peek (p := isRadixMark) 1 (by decide)
  rw [numberEnd, numberLength, zero, mark]
  split
  · rename_i marked
    have two : 2 ≤ s.length := by
      have := startsWith_length (Bool.and_eq_true_iff.mp marked).2
      rw [List.length_drop] at this
      omega
    rw [runEnd_eq (here.drop two), Nat.add_assoc]
  · have whole := here.drop (runLength_le isDigitPart s)
    have fraction := whole.drop (fractionLength_le _)
    rw [List.drop_drop] at fraction
    simp only [Option.bind_eq_bind, runEnd_eq here, Option.bind_some, fractionEnd_eq whole,
      exponentEnd_eq fraction, numberLength.decimal]
    congr 1
    omega

theorem quotedEnd_eq (here : At src i s) (quote : UInt8) :
    quotedEnd src quote i = some (i + quotedLength quote s) := by
  fun_induction quotedLength quote s generalizing i with
  | case1 => rw [quotedEnd, if_neg here.done]; rfl
  | case2 b =>
    have ended : quotedEnd src quote (i + 1) = some (i + 1) := by
      rw [quotedEnd, if_neg here.next.done]
    have clipped : min (i + 2) src.length = i + 1 := by
      rw [← here.length, List.length_singleton]
      omega
    rw [quotedEnd, if_pos here.lt, here.byte, clipped, ended]
    simp only [Option.bind_eq_bind, Option.bind_some, ite_self]
  | case3 b next rest slash ih =>
    have fits : min (i + 2) src.length = i + 2 := Nat.min_eq_left here.next_two.inside
    rw [quotedEnd, if_pos here.lt, here.byte, fits, ih here.next_two]
    simp only [Option.bind_eq_bind, Option.bind_some, slash, if_true]
    congr 1
    omega
  | case4 b next rest plain quotes =>
    rw [quotedEnd, if_pos here.lt, here.byte]
    simp only [Option.bind_eq_bind, Option.bind_some, if_neg plain, if_pos quotes]
  | case5 b next rest plain other ih =>
    rw [quotedEnd, if_pos here.lt, here.byte, ih here.next]
    simp only [Option.bind_eq_bind, Option.bind_some, if_neg plain, if_neg other]
    congr 1
    omega

/-- A search for a place agrees with one for the text that stands there. -/
inductive Finds (src : Text) : Option (Option Nat) → Option Text → Prop
  | missing : Finds src (some none) none
  | found {i : Nat} {s : Text} (here : At src i s) : Finds src (some (some i)) (some s)

theorem openQuote_eq (here : At src i s) : ∃ start,
    openQuote src i = some ((Scan.openQuote s).1.getD 0, start) ∧
      At src start (Scan.openQuote s).2 := by
  rw [openQuote, here.test?]
  cases s with
  | nil => exact ⟨i, rfl, here⟩
  | cons b rest =>
    rw [Scan.openQuote, here.byte, startsWith]
    simp only [Option.bind_eq_bind, Option.bind_some]
    split
    · exact ⟨i + 1, rfl, here.next⟩
    · exact ⟨i, rfl, here⟩

theorem openQuote_real (s : Text) : ∀ q ∈ (Scan.openQuote s).1, q ≠ 0 := by
  obtain ⟨quote, member, first, -⟩ := openQuote_split s
  rw [first]
  rcases labelQuotes_cases member with rfl | rfl | rfl <;> simp

/-- No byte that opens a label is the zero that stands for a bare one. -/
theorem closeQuoteEnd_finds (here : At src i s) {quote : Option UInt8} (real : ∀ q ∈ quote, q ≠ 0) :
    Finds src (closeQuoteEnd src (quote.getD 0) i) (closeQuote? quote s) := by
  cases quote with
  | none => exact .found here
  | some q =>
    have other : (q == 0) = false := beq_eq_false_iff_ne.mpr (real q rfl)
    rw [closeQuoteEnd, here.test?]
    simp only [Option.getD_some, other, Option.bind_eq_bind, Option.bind_some, Bool.false_eq_true,
      if_false]
    cases s with
    | nil => exact .missing
    | cons b rest =>
      rw [startsWith, closeQuote?]
      split
      · exact .found here.next
      · exact .missing

theorem lineBreakEnd_finds (here : At src i s) :
    Finds src (lineBreakEnd src i) (afterLineBreak? s) := by
  rw [lineBreakEnd, here.hasPrefix?, here.test?, afterLineBreak?, lineBreakLength]
  simp only [Option.bind_eq_bind, Option.bind_some]
  split
  · rename_i both
    exact .found (here.drop (isPrefixOf_length_le both))
  · split
    · rename_i feed
      exact .found (here.drop (startsWith_length feed))
    · exact .missing

theorem label_starts (s : Text) :
    startsWith isNameStart (s.takeWhile isNamePart) = startsWith isNameStart s := by
  cases s with
  | nil => rfl
  | cons b rest =>
    rw [List.takeWhile_cons]
    split
    · rfl
    · rename_i other
      exact (Bool.eq_false_iff.mpr fun start => other (nameStart_part start)).symm

theorem heredocOpening_finds (here : At src i s) : match heredocOpening? s with
    | none => heredocOpening src i = some none
    | some (label, body) => ∃ j, heredocOpening src i = some (some (label, j)) ∧ At src j body := by
  have blanks := here.run isBlank
  obtain ⟨start, quoted, labelled⟩ := openQuote_eq blanks
  have real := openQuote_real (s.dropWhile isBlank)
  rw [heredocOpening, heredocOpening?]
  generalize Scan.openQuote (s.dropWhile isBlank) = opened at quoted labelled real
  have closes := closeQuoteEnd_finds (labelled.run isNamePart) real
  simp only [Option.bind_eq_bind, runEnd_eq here, Option.bind_some, quoted, labelled.test?,
    label_starts, runEnd_eq labelled, labelled.slice? (runLength_le isNamePart opened.2),
    take_runLength]
  cases startsWith isNameStart opened.2 with
  | false => rfl
  | true =>
    simp only [if_true]
    generalize closeQuoteEnd src (opened.1.getD 0) _ = closed at closes ⊢
    generalize closeQuote? opened.1 _ = after at closes ⊢
    cases closes with
    | missing => rfl
    | @found j line behind =>
      have breaks := lineBreakEnd_finds behind
      simp only [Option.bind_some]
      generalize lineBreakEnd src j = broken at breaks ⊢
      generalize afterLineBreak? line = body at breaks ⊢
      cases breaks with
      | missing => rfl
      | found here => exact ⟨_, rfl, here⟩

theorem closingEnd_eq (here : At src i s) (label : Text) :
    closingEnd src label i = some ((heredocClosing? label s).map (i + ·)) := by
  have indent := here.drop (runLength_le isBlank s)
  rw [closingEnd, heredocClosing?]
  simp only [Option.bind_eq_bind, runEnd_eq here, Option.bind_some, indent.hasPrefix?]
  cases front : label.isPrefixOf (s.drop (runLength isBlank s)) with
  | false => rfl
  | true =>
    have behind := indent.drop (isPrefixOf_length_le front)
    simp only [if_true, behind.test?, Option.bind_some, Bool.true_and]
    cases startsWith isNamePart ((s.drop (runLength isBlank s)).drop label.length) with
    | true => rfl
    | false => simp [Nat.add_assoc]

theorem heredocBodyEnd_eq (here : At src i s) {label : Text} (name : IsLabel label) :
    heredocBodyEnd src label i = some (i + heredocBodyLength label true s) := by
  induction h : s.length using Nat.strongRecOn generalizing i s with
  | ind size ih =>
    cases s with
    | nil =>
      rw [heredocBodyEnd, if_neg here.done, ← here.length]
      rfl
    | cons b rest =>
      rw [heredocBodyEnd, if_pos here.lt, closingEnd_eq here, here.rest?]
      cases found : heredocClosing? label (b :: rest) with
      | some n =>
        rw [heredocBodyLength_closing name found]
        rfl
      | none =>
        simp only [Option.bind_eq_bind, Option.map_none, Option.bind_some,
          heredocBodyLength_open found]
        generalize b :: rest = lines at here h
        by_cases feed : 0x0A ∈ lines
        · obtain ⟨line, more, rfl, whole⟩ := List.eq_append_cons_of_mem feed
          have feedAt : indexOf? [0x0A] (line ++ 0x0A :: more) = some (0 + line.length) :=
            indexOf_skip whole (0x0A :: more)
          have split : heredocBodyLength label false (line ++ 0x0A :: more)
              = line.length + (heredocBodyLength label true more + 1) :=
            heredocBodyLength_line label whole (0x0A :: more)
          have behind : At src (i + line.length + 1) more := by
            have line_ := here.drop (n := line.length) (by simp)
            rw [List.drop_left] at line_
            exact line_.next
          have smaller : more.length < size := by
            rw [← h, List.length_append, List.length_cons]
            omega
          simp only [feedAt, Nat.zero_add, split, ih _ smaller behind rfl, Option.some.injEq]
          omega
        · have missing : indexOf? [0x0A] lines = none := by
            have nowhere : indexOf? [0x0A] (lines ++ []) = none := indexOf_skip feed []
            rwa [List.append_nil] at nowhere
          have all : heredocBodyLength label false lines = lines.length := by
            have line := heredocBodyLength_line label feed []
            rwa [List.append_nil] at line
          rw [missing, all, here.length]

theorem heredocEnd_eq (here : At src i s) :
    heredocEnd src i = some ((heredocLength? s).map (i + ·)) := by
  have opening := heredocOpening_finds here
  rw [heredocEnd, heredocLength?]
  cases found : heredocOpening? s with
  | none =>
    rw [found] at opening
    simp only at opening
    rw [opening]
    rfl
  | some pair =>
    obtain ⟨label, body⟩ := pair
    rw [found] at opening
    obtain ⟨j, opened, behind⟩ := opening
    obtain ⟨_, _, _, _, _, _, _, _, name, _⟩ := heredocOpening_iff.mp found
    have inside := (heredocOpening_suffix found).length_le
    have start := here.length
    have stop := behind.length
    simp only [Option.bind_eq_bind, opened, Option.bind_some, heredocBodyEnd_eq behind name,
      Option.map_some]
    congr 2
    omega

theorem scanOperator_eq (here : At src off (b :: rest)) :
    scanOperator src off = some (ends off (Scan.scanOperator b rest)) := by
  have start : At (b :: rest) 0 (b :: rest) := ⟨Nat.zero_le _, rfl⟩
  rw [scanOperator, here.rest?, Scan.scanOperator]
  simp only [Option.bind_eq_bind, Option.bind_some, operatorLength, start.test?, startsWith]
  split
  · rfl
  · split
    · rfl
    · split <;> rfl

theorem leadAt_eq (here : At src off (b :: rest)) : leadAt src off = some (leadOf b rest) := by
  have ahead {p : UInt8 → Bool} (zero : p 0 = false) := here.peek_next zero
  rw [leadAt, here.byte, here.hasPrefix?, leadOf]
  simp only [Option.bind_eq_bind, Option.bind_some, ahead (p := (· == 0x3E)) rfl,
    ahead (p := (· == 0x5B)) rfl, ahead (p := (· == 0x2F)) rfl, ahead (p := (· == 0x2A)) rfl,
    ahead (p := isNameStart) rfl, ahead (p := isDigit) rfl]
  have brackets : (if b == 0x3C then some (if (ofString "<<<").isPrefixOf (b :: rest) then
      Lead.brackets else .other) else some .other)
      = some (if b == 0x3C && (ofString "<<").isPrefixOf rest then .brackets else .other) := by
    have three : (ofString "<<<").isPrefixOf (b :: rest)
        = (0x3C == b && (ofString "<<").isPrefixOf rest) := rfl
    rw [three, Bool.beq_comm]
    cases (0x3C : UInt8) == b <;> rfl
  simp only [brackets, ← apply_ite some]

theorem scanLead_eq (here : At src off (b :: rest)) {lead : Lead} (seen : lead.Seen b rest) :
    scanLead src off lead = some (ends off (Scan.scanLead b rest lead)) := by
  cases lead with
  | space =>
    have start : isSpace b = true := seen
    rw [scanLead, runEnd_eq here, runLength_cons, if_pos start, Nat.add_comm _ 1, ← Nat.add_assoc]
    rfl
  | closeTag =>
    obtain ⟨_, bracket⟩ := Bool.and_eq_true_iff.mp seen
    have behind := here.next.drop (startsWith_length bracket)
    rw [scanLead, breakEnd_eq behind, Nat.add_assoc (off + 1)]
    rfl
  | attributeOpen => rfl
  | lineComment =>
    have first : lineCommentLength (b :: rest) = 1 + lineCommentLength rest := by
      rw [Nat.add_comm]
      rcases Bool.or_eq_true_iff.mp seen with hash | slashes
      · rw [beq_iff_eq.mp hash]
        rfl
      · rw [beq_iff_eq.mp (Bool.and_eq_true_iff.mp slashes).1]
        rfl
    rw [scanLead, lineCommentEnd_eq here, first, ← Nat.add_assoc]
    rfl
  | blockComment =>
    obtain ⟨_, star⟩ := Bool.and_eq_true_iff.mp seen
    exact blockComment_eq here (startsWith_length star)
  | variableName =>
    rw [scanLead, runEnd_eq here.next]
    rfl
  | name => exact scanName_eq here seen
  | number =>
    have one := numberLength_pos seen
    have total : off + numberLength (b :: rest) = off + 1 + (numberLength (b :: rest) - 1) := by
      omega
    rw [scanLead, numberEnd_eq here, total]
    rfl
  | quote =>
    rw [scanLead, here.byte]
    simp only [Option.bind_eq_bind, Option.bind_some, quotedEnd_eq here.next]
    rfl
  | brackets =>
    obtain ⟨_, two⟩ := Bool.and_eq_true_iff.mp seen
    have behind : At src (off + 3) (rest.drop 2) := here.next.drop (isPrefixOf_length_le two)
    rw [scanLead, heredocEnd_eq behind, Scan.scanLead]
    cases heredocLength? (rest.drop 2) with
    | none => exact scanOperator_eq here
    | some n =>
      have total : off + 3 + n = off + 1 + (n + 2) := by omega
      exact congrArg (fun stop => some (Kind.heredoc, stop)) total
  | other => exact scanOperator_eq here

theorem scanCode_eq (here : At src off (b :: rest)) :
    scanCode src off = some (ends off (Scan.scanCode b rest)) := by
  rw [scanCode, leadAt_eq here]
  exact scanLead_eq here (leadOf_seen b rest)

end DocBridge.Offset
