import DocBridge.Token.Stream

/-
No scanner runs past the end of the source. Each bound follows the recursion of its scanner; the
bound of a scanner that looks further ahead adds up the bounds of its parts.
-/
namespace DocBridge.Scan

open Text

theorem runLength_le (p : UInt8 → Bool) (s : Text) : runLength p s ≤ s.length :=
  (List.takeWhile_sublist p).length_le

theorem takeWhile_of_runLength {p : UInt8 → Bool} {text rest : Text}
    (length : runLength p (text ++ rest) = text.length) : (text ++ rest).takeWhile p = text := by
  have front := List.takeWhile_prefix p (l := text ++ rest)
  have same := List.prefix_of_prefix_length_le front (List.prefix_append text rest)
    (Nat.le_of_eq length)
  exact same.eq_of_length length

theorem all_of_runLength {p : UInt8 → Bool} {text rest : Text}
    (length : runLength p (text ++ rest) = text.length) : ∀ b ∈ text, p b = true := by
  intro b member
  rw [← takeWhile_of_runLength length] at member
  exact List.all_eq_true.mp List.all_takeWhile b member

theorem isPrefixOf_length_le {a s : Text} (h : a.isPrefixOf s = true) : a.length ≤ s.length :=
  (List.isPrefixOf_iff_prefix.mp h).length_le

theorem indexOf_bound {needle s : Text} {i : Nat} (h : indexOf? needle s = some i) :
    i + needle.length ≤ s.length := by
  induction s generalizing i with
  | nil =>
    simp only [indexOf?] at h
    split at h
    · rename_i empty
      rw [← Option.some.inj h, List.isEmpty_iff.mp empty]
      simp
    · simp at h
  | cons b rest ih =>
    simp only [indexOf?] at h
    split at h
    · rename_i found
      rw [← Option.some.inj h, Nat.zero_add]
      exact isPrefixOf_length_le found
    · obtain ⟨j, hj, rfl⟩ := Option.map_eq_some_iff.mp h
      have := ih hj
      simp only [List.length_cons]
      omega

theorem startsWith_length {p : UInt8 → Bool} {s : Text} (h : startsWith p s = true) :
    1 ≤ s.length := by
  cases s with
  | nil => simp [startsWith] at h
  | cons b rest => simp

theorem tagSpaceLength_le {s : Text} {n : Nat} (h : tagSpaceLength? s = some n) :
    n ≤ s.length := by
  cases s with
  | nil => cases h; exact Nat.zero_le _
  | cons b rest =>
    simp only [tagSpaceLength?] at h
    split at h
    · rename_i both
      have := startsWith_length (Bool.and_eq_true_iff.mp both).2
      cases h
      simp only [List.length_cons]
      omega
    · split at h
      · cases h; simp
      · simp at h

theorem openTag_bounds {s : Text} {kind : Kind} {n : Nat} (h : openTag? s = some (kind, n)) :
    1 ≤ n ∧ n ≤ s.length := by
  unfold openTag? at h
  split at h
  · rename_i echo
    have := isPrefixOf_length_le echo
    have three : (ofString "<?=").length = 3 := by decide
    cases h
    omega
  · split at h
    · rename_i word
      -- Five bytes must stand there for their lower case to be the tag.
      have five : (lowerAscii (s.take 5)).length = 5 := by
        rw [beq_iff_eq.mp word]; decide
      simp only [lowerAscii, List.length_map, List.length_take] at five
      obtain ⟨m, more, pair⟩ := Option.map_eq_some_iff.mp h
      have := tagSpaceLength_le more
      rw [List.length_drop] at this
      cases pair
      omega
    · simp at h

theorem inlineLength_le (s : Text) : inlineLength s ≤ s.length := by
  induction s with
  | nil => simp [inlineLength]
  | cons b rest ih =>
    simp only [inlineLength, List.length_cons]
    split <;> omega

theorem scanInline_le (b : UInt8) (rest : Text) : (scanInline b rest).2 ≤ rest.length := by
  unfold scanInline
  split
  · rename_i kind n tag
    have := openTag_bounds tag
    simp only [List.length_cons] at this
    simp only
    omega
  · exact inlineLength_le rest

theorem lineBreakLength_le (s : Text) : lineBreakLength s ≤ s.length := by
  unfold lineBreakLength
  split
  · rename_i both
    have two : (ofString "\r\n").length = 2 := by decide
    exact two ▸ isPrefixOf_length_le both
  · split
    · rename_i feed
      exact startsWith_length feed
    · exact Nat.zero_le _

theorem lineCommentLength_le (s : Text) : lineCommentLength s ≤ s.length := by
  induction s with
  | nil => simp [lineCommentLength]
  | cons b rest ih =>
    simp only [lineCommentLength, List.length_cons]
    split
    · omega
    · split
      · split
        · rename_i feed
          have := startsWith_length feed
          omega
        · omega
      · split <;> omega

theorem blockComment_le (body : Text) : (blockComment body).2 ≤ body.length := by
  unfold blockComment
  split
  · exact Nat.le_refl _
  · rename_i i found
    have two : (ofString "*/").length = 2 := by decide
    have := indexOf_bound found
    simp only
    omega

theorem qualifiedLength_le (s : Text) : qualifiedLength s ≤ s.length := by
  induction s with
  | nil => simp [qualifiedLength]
  | cons b rest ih =>
    simp only [qualifiedLength, List.length_cons]
    split <;> omega

theorem fractionLength_le (s : Text) : fractionLength s ≤ s.length := by
  unfold fractionLength
  split
  · rename_i rest
    have := runLength_le isDigitPart rest
    simp only [List.length_cons]
    split <;> omega
  · exact Nat.zero_le _

theorem exponentLength_le (s : Text) : exponentLength s ≤ s.length := by
  unfold exponentLength
  split
  · exact Nat.zero_le _
  · rename_i e rest
    simp only [List.length_cons]
    split
    · generalize (if startsWith (fun b => b == 0x2B || b == 0x2D) rest then 1 else 0) = sign
      split
      · rename_i digits
        have more := runLength_le isDigitPart (rest.drop sign)
        have one := startsWith_length digits
        rw [List.length_drop] at more one
        omega
      · omega
    · omega

theorem decimal_le (s : Text) : numberLength.decimal s ≤ s.length := by
  have whole := runLength_le isDigitPart s
  have fraction := fractionLength_le (s.drop (runLength isDigitPart s))
  have exponent := exponentLength_le (s.drop (runLength isDigitPart s
    + fractionLength (s.drop (runLength isDigitPart s))))
  rw [List.length_drop] at fraction exponent
  simp only [numberLength.decimal]
  omega

theorem numberLength_le (s : Text) : numberLength s ≤ s.length := by
  unfold numberLength
  split
  · rename_i marked
    have two := startsWith_length (Bool.and_eq_true_iff.mp marked).2
    have more := runLength_le (fun b => isHexDigit b || b == 0x5F) (s.drop 2)
    rw [List.length_drop] at two more
    omega
  · exact decimal_le s

theorem quotedLength_le (quote : UInt8) (s : Text) : quotedLength quote s ≤ s.length := by
  fun_induction quotedLength quote s <;> simp only [List.length_cons, List.length_nil] at * <;> omega

theorem openQuote_suffix (s : Text) : (openQuote s).2 <:+ s := by
  cases s with
  | nil => exact List.suffix_rfl
  | cons b rest =>
    simp only [openQuote]
    split
    · exact List.suffix_cons b rest
    · exact List.suffix_rfl

theorem closeQuote_suffix {quote : Option UInt8} {s rest : Text}
    (h : closeQuote? quote s = some rest) : rest <:+ s := by
  cases quote with
  | none => cases h; exact List.suffix_rfl
  | some q =>
    cases s with
    | nil => simp [closeQuote?] at h
    | cons b tail =>
      simp only [closeQuote?] at h
      split at h
      · cases h; exact List.suffix_cons b _
      · simp at h

theorem afterLineBreak_suffix {s rest : Text} (h : afterLineBreak? s = some rest) : rest <:+ s := by
  unfold afterLineBreak? at h
  split at h
  · simp at h
  · cases h; exact List.drop_suffix _ _

theorem heredocOpening_suffix {s label body : Text} (h : heredocOpening? s = some (label, body)) :
    body <:+ s := by
  simp only [heredocOpening?] at h
  split at h
  · obtain ⟨_, found, pair⟩ := Option.map_eq_some_iff.mp h
    obtain ⟨closed, hclosed, broken⟩ := Option.bind_eq_some_iff.mp found
    cases pair
    have line := (afterLineBreak_suffix broken).trans (closeQuote_suffix hclosed)
    have labelled := line.trans (List.dropWhile_suffix isNamePart)
    exact (labelled.trans (openQuote_suffix _)).trans (List.dropWhile_suffix isBlank)
  · simp at h

theorem heredocClosing_le {label line : Text} {n : Nat} (h : heredocClosing? label line = some n) :
    n ≤ line.length := by
  simp only [heredocClosing?] at h
  split at h
  · rename_i closing
    have labelled := isPrefixOf_length_le (Bool.and_eq_true_iff.mp closing).1
    have indent := runLength_le isBlank line
    rw [List.length_drop] at labelled
    cases h
    omega
  · simp at h

theorem heredocBodyLength_le (label : Text) (atLineStart : Bool) (s : Text) :
    heredocBodyLength label atLineStart s ≤ s.length := by
  induction s generalizing atLineStart with
  | nil => simp [heredocBodyLength]
  | cons b rest ih =>
    simp only [heredocBodyLength]
    split
    · rename_i n closing
      split at closing
      · exact heredocClosing_le closing
      · simp at closing
    · have := ih (b == 0x0A)
      simp only [List.length_cons]
      omega

theorem heredocLength_le {s : Text} {n : Nat} (h : heredocLength? s = some n) : n ≤ s.length := by
  obtain ⟨⟨label, body⟩, opening, rfl⟩ := Option.map_eq_some_iff.mp h
  have inside := (heredocOpening_suffix opening).length_le
  have := heredocBodyLength_le label true body
  simp only
  omega

theorem operator_fits {table : List Text} {n : Nat} (lengths : ∀ op ∈ table, op.length = n + 1)
    {b : UInt8} {rest : Text} (h : table.any (·.isPrefixOf (b :: rest)) = true) :
    n ≤ rest.length := by
  obtain ⟨op, member, found⟩ := List.any_eq_true.mp h
  have := isPrefixOf_length_le found
  rw [lengths op member, List.length_cons] at this
  omega

theorem scanOperator_le (b : UInt8) (rest : Text) : (scanOperator b rest).2 ≤ rest.length := by
  unfold scanOperator
  split
  · rename_i three
    exact operator_fits (n := 2) (by decide) three
  · split
    · rename_i two
      exact operator_fits (n := 1) (by decide) two
    · split <;> exact Nat.zero_le _

/-- What `leadOf` has seen of the token. -/
def Lead.Seen (b : UInt8) (rest : Text) : Lead → Prop
  | .space => isSpace b = true
  | .closeTag => (b == 0x3F && startsWith (· == 0x3E) rest) = true
  | .attributeOpen => (b == 0x23 && startsWith (· == 0x5B) rest) = true
  | .lineComment => (b == 0x23 || (b == 0x2F && startsWith (· == 0x2F) rest)) = true
  | .blockComment => (b == 0x2F && startsWith (· == 0x2A) rest) = true
  | .variableName => (b == 0x24 && startsWith isNameStart rest) = true
  | .name => (isNameStart b || (b == 0x5C && startsWith isNameStart rest)) = true
  | .number => (isDigit b || (b == 0x2E && startsWith isDigit rest)) = true
  | .quote => isQuote b = true
  | .brackets => (b == 0x3C && (ofString "<<").isPrefixOf rest) = true
  | .other => True

theorem seen_ite {b : UInt8} {rest : Text} {test : Bool} {yes no : Lead}
    (first : test = true → yes.Seen b rest) (others : no.Seen b rest) :
    (if test = true then yes else no).Seen b rest := by
  cases test with
  | true => exact first rfl
  | false => exact others

theorem leadOf_seen (b : UInt8) (rest : Text) : (leadOf b rest).Seen b rest := by
  unfold leadOf
  refine seen_ite id (seen_ite id (seen_ite id (seen_ite id (seen_ite id ?_))))
  exact seen_ite id (seen_ite id (seen_ite id (seen_ite id (seen_ite id trivial))))

theorem scanLead_le {b : UInt8} {rest : Text} {lead : Lead} (seen : lead.Seen b rest) :
    (scanLead b rest lead).2 ≤ rest.length := by
  cases lead with
  | space => exact runLength_le isSpace rest
  | closeTag =>
    have one := startsWith_length (Bool.and_eq_true_iff.mp seen).2
    have more := lineBreakLength_le (rest.drop 1)
    rw [List.length_drop] at more
    simp only [scanLead]
    omega
  | attributeOpen => exact startsWith_length (Bool.and_eq_true_iff.mp seen).2
  | lineComment => exact lineCommentLength_le rest
  | blockComment =>
    have one := startsWith_length (Bool.and_eq_true_iff.mp seen).2
    have more := blockComment_le (rest.drop 1)
    rw [List.length_drop] at more
    simp only [scanLead]
    omega
  | variableName => exact runLength_le isNamePart rest
  | name => exact qualifiedLength_le rest
  | number =>
    have := numberLength_le (b :: rest)
    simp only [List.length_cons] at this
    simp only [scanLead]
    omega
  | quote => exact quotedLength_le b rest
  | brackets =>
    have two : 2 ≤ rest.length := isPrefixOf_length_le (Bool.and_eq_true_iff.mp seen).2
    simp only [scanLead]
    split
    · rename_i n found
      have more := heredocLength_le found
      rw [List.length_drop] at more
      simp only
      omega
    · exact scanOperator_le b rest
  | other => exact scanOperator_le b rest

theorem scanCode_le (b : UInt8) (rest : Text) : (scanCode b rest).2 ≤ rest.length :=
  scanLead_le (leadOf_seen b rest)

end DocBridge.Scan

namespace DocBridge.Token

theorem scan_le (mode : Mode) (b : UInt8) (rest : Text) : (scan mode b rest).2 ≤ rest.length := by
  unfold scan
  split
  · exact Scan.scanCode_le b rest
  · exact Scan.scanInline_le b rest

end DocBridge.Token
