import DocBridge.Proofs.Markup.Escape

/-
How tokens are spelled. Each kind of token that a page is written with is read back from its
spelling, together with whatever follows it.
-/
namespace DocBridge.Markup

open Text

theorem ok_bind {ε α β : Type} (a : α) (f : α → Except ε β) : (.ok a >>= f) = f a := rfl

theorem nameByte_ascii : ∀ n < 128,
    isNameChar (Char.ofNat n) = true → isNameByte (UInt8.ofNat n) = true := by
  decide +kernel

theorem nameChar_byte {c : Char} (name : isNameChar c = true) {b : UInt8}
    (member : b ∈ Utf8.encodeChar c) : isNameByte b = true := by
  by_cases low : b.toNat < 128
  · have same : c = Char.ofNat b.toNat := by
      rw [← Utf8.mem_encodeChar member low]
      exact (Char.ofNat_toNat c).symm
    rw [same] at name
    have ascii := nameByte_ascii b.toNat low name
    rwa [UInt8.ofNat_toNat] at ascii
  · have high : 0x80 ≤ b := UInt8.le_iff_toNat_le.mpr (by simpa using low)
    simp [isNameByte, high]

theorem name_bytes {n : Text} (name : isName n = true) :
    n ≠ [] ∧ ∀ b ∈ n, isNameByte b = true := by
  unfold isName at name
  split at name
  · rename_i c cs read
    rw [Bool.and_eq_true, List.all_eq_true] at name
    have chars : ∀ c' ∈ c :: cs, isNameChar c' = true := by
      intro c' member
      rcases List.mem_cons.mp member with rfl | later
      · simp [isNameChar, name.1]
      · exact name.2 c' later
    have bytes := Utf8.ofChars_chars read
    refine ⟨?_, fun b member => ?_⟩
    · rintro rfl
      simp [Utf8.chars?, Utf8.glyphs, Utf8.glyphsFrom] at read
    · rw [bytes] at member
      obtain ⟨c', inside, byte⟩ := List.mem_flatMap.mp member
      exact nameChar_byte (chars c' inside) byte
  · contradiction

theorem takeWhile_stop {p : UInt8 → Bool} {a : Text} (all : ∀ b ∈ a, p b = true) {b : UInt8}
    (stop : p b = false) (rest : Text) : (a ++ b :: rest).takeWhile p = a := by
  rw [List.takeWhile_append_of_pos all, List.takeWhile_cons_of_neg (by simp [stop]), List.append_nil]

theorem scanName_spelled {n : Text} (name : isName n = true) {b : UInt8}
    (stop : isNameByte b = false) (rest : Text) :
    scanName (n ++ b :: rest) = .ok (n, b :: rest) := by
  obtain ⟨some_, bytes⟩ := name_bytes name
  simp [scanName, takeWhile_stop bytes stop, some_, name]

def isUnqualified (n : Text) : Bool :=
  countByte 0x3A n == 0
    || (countByte 0x3A n == 1 && (n.head? == some 0x3A || n.getLast? == some 0x3A))

theorem splitName_unqualified {n : Text} (plain : isUnqualified n = true) :
    splitName n = .ok ⟨[], n⟩ := by
  have colon : ofString ":" = [0x3A] := rfl
  simp only [isUnqualified, Bool.or_eq_true, Bool.and_eq_true, beq_iff_eq] at plain
  rw [splitName, if_neg (by omega), colon]
  rcases plain with none_ | ⟨one, ends⟩
  · rw [cut_missing (List.mem_singleton_self _) (List.count_eq_zero.mp none_)]
  · have member : 0x3A ∈ n := List.count_pos_iff.mp (by rw [show n.count 0x3A = 1 from one]; decide)
    obtain ⟨qualifier, base, rfl, first⟩ := List.eq_append_cons_of_mem member
    have last : 0x3A ∉ base := by
      rw [countByte, List.count_append, List.count_cons_self] at one
      exact List.count_eq_zero.mp (by omega)
    have empty : qualifier = [] ∨ base = [] := by
      rcases ends with head | tail
      · left
        cases qualifier with
        | nil => rfl
        | cons b qualifier =>
          cases head
          exact absurd List.mem_cons_self first
      · right
        cases base with
        | nil => rfl
        | cons b base =>
          rw [List.getLast?_append, List.getLast?_cons_cons, List.getLast?_cons, Option.some_or,
            ← List.getLast?_cons] at tail
          exact absurd (List.mem_of_getLast? tail) last
    rw [cut_byte first]
    rcases empty with rfl | rfl <;> simp

/-- A name that stands for itself: it has no qualifier and declares no namespace. -/
def isPlainName (n : Text) : Bool := isName n && isUnqualified n && n != ofString "xmlns"

theorem plainName {n : Text} (plain : isPlainName n = true) :
    isName n = true ∧ isUnqualified n = true ∧ n ≠ "xmlns" := by
  simpa [isPlainName, and_assoc] using plain

theorem scanQName_spelled {n : Text} (plain : isPlainName n = true) {b : UInt8}
    (stop : isNameByte b = false) (rest : Text) :
    scanQName (n ++ b :: rest) = .ok (⟨[], n⟩, b :: rest) := by
  obtain ⟨name, unqualified, _⟩ := plainName plain
  simp only [scanQName, scanName_spelled name stop rest, splitName_unqualified unqualified, ok_bind]
  rfl

theorem plainName_cons {n : Text} (plain : isPlainName n = true) :
    ∃ b s, n = b :: s ∧ isNameByte b = true := by
  obtain ⟨some_, bytes⟩ := name_bytes (plainName plain).1
  obtain ⟨b, s, rfl⟩ := List.exists_cons_of_ne_nil some_
  exact ⟨b, s, rfl, bytes b List.mem_cons_self⟩

theorem nameByte_plain {b : UInt8} (name : isNameByte b = true) :
    isSpace b = false ∧ b ≠ 0x21 ∧ b ≠ 0x2F ∧ b ≠ 0x3E ∧ b ≠ 0x3F := by
  have all : ∀ n < 256, isNameByte (UInt8.ofNat n) = true → isSpace (UInt8.ofNat n) = false ∧
      UInt8.ofNat n ≠ 0x21 ∧ UInt8.ofNat n ≠ 0x2F ∧ UInt8.ofNat n ≠ 0x3E ∧ UInt8.ofNat n ≠ 0x3F := by
    decide +kernel
  have here := all b.toNat b.toNat_lt
  rw [UInt8.ofNat_toNat] at here
  exact here name

end DocBridge.Markup

namespace DocBridge.Attr

open Markup

def isWritable (a : Attr) : Bool :=
  a.qualifier.isEmpty && a.uri.isEmpty && isPlainName a.name && isClean a.value

def spelled (a : Attr) : QName × Text := (⟨[], a.name⟩, a.value)

end DocBridge.Attr

namespace DocBridge.Markup

open Text

theorem skipSpace_dark {b : UInt8} (dark : isSpace b = false) (rest : Text) :
    skipSpace (b :: rest) = b :: rest :=
  List.dropWhile_cons_of_neg (by simp [dark])

theorem scanValue_spelled {v : Text} (clean : isClean v = true) (rest : Text) :
    scanValue true (0x22 :: (Escape.attr v ++ 0x22 :: rest)) = .ok (v, rest) := by
  have noQuote : 0x22 ∉ Escape.attr v := fun member => (mem_attr member).1 rfl
  have noBracket : containsByte 0x3C (Escape.attr v) = false := by
    simpa [containsByte] using fun b member => (mem_attr member).2
  have read : scanUntil [0x22] (Escape.attr v ++ 0x22 :: rest) = .ok (Escape.attr v, rest) := by
    rw [scanUntil, cut_byte noQuote rest]
  simp only [scanValue, beq_self_eq_true, Bool.true_or, if_true, read, ok_bind, noBracket,
    charData_attr clean]
  rfl

theorem scanAttr_spelled {n v : Text} (plain : isPlainName n = true) (clean : isClean v = true)
    (rest : Text) :
    scanAttr true (n ++ 0x3D :: 0x22 :: (Escape.attr v ++ 0x22 :: rest)) =
      .ok ((⟨[], n⟩, v), rest) := by
  simp only [scanAttr, scanQName_spelled plain (show isNameByte 0x3D = false by decide), ok_bind,
    skipSpace_dark (show isSpace 0x3D = false by decide),
    skipSpace_dark (show isSpace 0x22 = false by decide), scanValue_spelled clean]
  rfl

theorem attr_bytes {a : Attr} (writable : a.isWritable = true) :
    isPlainName a.name = true ∧ isClean a.value = true ∧
      a.render = 0x20 :: (a.name ++ 0x3D :: 0x22 :: (Escape.attr a.value ++ [0x22])) := by
  simp only [Attr.isWritable, Bool.and_eq_true, List.isEmpty_iff] at writable
  obtain ⟨⟨⟨unqualified, _⟩, plain⟩, clean⟩ := writable
  refine ⟨plain, clean, ?_⟩
  simp only [Attr.render, Tag.qualified, unqualified, List.isEmpty_nil, if_true, List.append_assoc]
  rfl

theorem scanAttrs_attr {n : Text} (plain : isPlainName n = true) (strict : Bool) (fuel : Nat)
    (s : Text) :
    scanAttrs strict (fuel + 1) (0x20 :: (n ++ s)) = (do
      let (attr, rest) ← scanAttr strict (n ++ s)
      let ((attrs, closed), rest) ← scanAttrs strict fuel rest
      return ((attr :: attrs, closed), rest)) := by
  obtain ⟨b, n, rfl, name⟩ := plainName_cons plain
  obtain ⟨dark, _, noSlash, noEnd, _⟩ := nameByte_plain name
  have skipped : skipSpace (0x20 :: (b :: n ++ s)) = b :: n ++ s := skipSpace_dark dark (n ++ s)
  rw [scanAttrs, skipped]
  split <;> simp_all

def ending (closed : Bool) : Text := if closed then "/>" else ">"

theorem scanAttrs_ending (strict closed : Bool) (fuel : Nat) (rest : Text) :
    scanAttrs strict (fuel + 1) (ending closed ++ rest) = .ok (([], closed), rest) := by
  cases closed <;> rfl

theorem scanAttrs_spelled {attrs : List Attr} (writable : attrs.all Attr.isWritable = true)
    (closed : Bool) (rest : Text) {fuel : Nat} (enough : attrs.length < fuel) :
    scanAttrs true fuel (attrs.flatMap Attr.render ++ (ending closed ++ rest)) =
      .ok ((attrs.map Attr.spelled, closed), rest) := by
  obtain ⟨fuel, rfl⟩ : ∃ k, fuel = k + 1 := ⟨fuel - 1, by omega⟩
  induction attrs generalizing fuel with
  | nil => exact scanAttrs_ending true closed fuel rest
  | cons a attrs ih =>
    rw [List.all_cons, Bool.and_eq_true] at writable
    rw [List.length_cons] at enough
    obtain ⟨fuel, rfl⟩ : ∃ k, fuel = k + 1 := ⟨fuel - 1, by omega⟩
    obtain ⟨plain, clean, bytes⟩ := attr_bytes writable.1
    have first := scanAttr_spelled plain clean
      (attrs.flatMap Attr.render ++ (ending closed ++ rest))
    rw [List.flatMap_cons, bytes]
    simp only [List.cons_append, List.append_assoc, List.nil_append]
    rw [scanAttrs_attr plain, first]
    simp only [ok_bind, ih writable.2 fuel (by omega)]
    rfl

theorem scanToken_name {n : Text} (plain : isPlainName n = true) (strict : Bool) (s : Text) :
    scanToken strict 0x3C (n ++ s) = scanStartTag strict (n ++ s) := by
  obtain ⟨b, n, rfl, name⟩ := plainName_cons plain
  obtain ⟨_, noBang, noSlash, _, noQuestion⟩ := nameByte_plain name
  unfold scanToken
  rw [if_neg (by decide)]
  split <;> simp_all

theorem length_attrs (attrs : List Attr) : attrs.length ≤ (attrs.flatMap Attr.render).length := by
  induction attrs with
  | nil => exact Nat.le_refl 0
  | cons a attrs ih =>
    have blank : 1 ≤ a.render.length := by
      simp only [Attr.render, List.append_assoc, List.length_append]
      exact Nat.le_add_right_of_le (by decide)
    rw [List.flatMap_cons, List.length_append, List.length_cons]
    omega

theorem tag_rest (attrs : List Attr) (closed : Bool) (rest : Text) :
    ∃ b s, attrs.flatMap Attr.render ++ (ending closed ++ rest) = b :: s ∧ isNameByte b = false := by
  cases attrs with
  | nil => cases closed <;> exact ⟨_, _, rfl, by decide⟩
  | cons a attrs => exact ⟨0x20, _, rfl, by decide⟩

theorem scanStartTag_spelled {n : Text} (plain : isPlainName n = true) {attrs : List Attr}
    (writable : attrs.all Attr.isWritable = true) (closed : Bool) (rest : Text) :
    scanStartTag true (n ++ (attrs.flatMap Attr.render ++ (ending closed ++ rest))) =
      .ok (.startTag ⟨[], n⟩ (attrs.map Attr.spelled) closed, rest) := by
  have enough : attrs.length < (attrs.flatMap Attr.render ++ (ending closed ++ rest)).length := by
    have one : 1 ≤ (ending closed).length := by cases closed <;> decide
    have := length_attrs attrs
    simp only [List.length_append]
    omega
  have read := scanAttrs_spelled writable closed rest enough
  obtain ⟨b, s, cons, stop⟩ := tag_rest attrs closed rest
  rw [cons] at read ⊢
  simp only [scanStartTag, scanQName_spelled plain stop, ok_bind, read]
  rfl

theorem scanEndTag_spelled {n : Text} (plain : isPlainName n = true) (rest : Text) :
    scanEndTag (n ++ 0x3E :: rest) = .ok (.endTag ⟨[], n⟩, rest) := by
  simp only [scanEndTag, scanQName_spelled plain (show isNameByte 0x3E = false by decide), ok_bind,
    skipSpace_dark (show isSpace 0x3E = false by decide)]
  rfl

theorem looksLikeSection_text {t : Text} (plain : looksLikeSection t = false) :
    looksLikeSection (Escape.text t) = false := by
  rw [Bool.eq_false_iff] at plain ⊢
  intro looks
  rw [looksLikeSection, beq_iff_eq] at looks
  have open_ : 0x26 ∉ (Escape.text t).take sectionOpener.length := by
    intro member
    have lowered : lowerByte 0x26 ∈ lowerAscii sectionOpener := looks ▸ List.mem_map_of_mem member
    revert lowered
    decide
  rw [Escape.text, take_escaped textByte_isEscape open_] at looks
  exact plain (by rw [looksLikeSection, looks, beq_self_eq_true])

def endsChars (rest : Text) : Bool := rest.head?.all (· == 0x3C)

theorem scanChars_spelled {t : Text} (clean : isClean t = true) (plain : looksLikeSection t = false)
    {rest : Text} (stops : endsChars rest = true) :
    scanChars true (Escape.text t ++ rest) = .ok (.chars t false, rest) := by
  have noBracket : ∀ b ∈ Escape.text t, (b != 0x3C) = true := fun b member => by
    simpa using (mem_text member).1
  have raw : (Escape.text t ++ rest).takeWhile (· != 0x3C) = Escape.text t := by
    rw [List.takeWhile_append_of_pos noBracket]
    cases rest with
    | nil => simp
    | cons b rest =>
      have bracket : b = 0x3C := by simpa [endsChars] using stops
      simp [bracket]
  have noEnd : contains "]]>" (Escape.text t) = false :=
    contains_missing (b := 0x3E) (by decide) fun member => (mem_text member).2 rfl
  simp only [scanChars, raw, noEnd, List.drop_left, charData_text clean, looksLikeSection_text plain,
    ok_bind]
  rfl

theorem scanSection_spelled {t : Text} (clean : isClean t = true)
    (whole : contains "]]>" t = false) (rest : Text) :
    scanSection (t ++ (ofString "]]>" ++ rest)) = .ok (.chars t true, rest) := by
  have first : cut? "]]>" (t ++ (ofString "]]>" ++ rest)) = some (t, rest) := by
    refine cut_append t rest fun u some_ inside found => ?_
    have stop : ofString "]]>" = [0x5D, 0x5D, 0x3E] := rfl
    -- An occurrence that starts inside ends inside, for the third byte is not a bracket.
    match u with
    | [] => contradiction
    | [a] => simp [stop] at found
    | [a, b] => simp [stop] at found
    | a :: b :: c :: u =>
      refine not_prefix_of_contains whole inside ?_
      exact List.prefix_of_prefix_length_le found (List.prefix_append _ _) (by simp [stop])
  obtain ⟨xml, noReturn⟩ := clean_text clean
  simp only [scanSection, scanUntil, first, ok_bind, normalizeLines_clean noReturn, xml]
  rfl

theorem scanComment_spelled {t : Text} (whole : contains "--" t = false)
    (dark : t.getLast? ≠ some 0x2D) (rest : Text) :
    scanComment (t ++ (ofString "-->" ++ rest)) = .ok (.comment t, rest) := by
  have first : cut? "--" (t ++ (ofString "--" ++ 0x3E :: rest)) = some (t, 0x3E :: rest) := by
    refine cut_append t _ fun u some_ inside found => ?_
    have stop : ofString "--" = [0x2D, 0x2D] := rfl
    match u with
    | [] => contradiction
    | [a] =>
      obtain ⟨front, rfl⟩ := inside
      have dash : a = 0x2D := by simpa [stop, eq_comm] using found
      exact dark (by simp [dash])
    | a :: b :: u =>
      refine not_prefix_of_contains whole inside ?_
      exact List.prefix_of_prefix_length_le found (List.prefix_append _ _) (by simp [stop])
  have split : ofString "-->" ++ rest = ofString "--" ++ 0x3E :: rest := rfl
  simp only [scanComment, scanUntil, split, first, ok_bind]
  rfl

theorem tokens_step {strict : Bool} {b : UInt8} {s rest : Text} {token : Token}
    (scanned : scanToken strict b s = .ok (token, rest)) (shorter : rest.length ≤ s.length) :
    tokens strict (b :: s) = (tokens strict rest).map (token :: ·) := by
  have progress : rest.length < (b :: s).length := Nat.lt_succ_of_le shorter
  rw [tokens, scanned]
  simp only [if_pos progress]

theorem tokens_startTag {n : Text} (plain : isPlainName n = true) {attrs : List Attr}
    (writable : attrs.all Attr.isWritable = true) (closed : Bool) (rest : Text) :
    tokens true (0x3C :: (n ++ (attrs.flatMap Attr.render ++ (ending closed ++ rest)))) =
      (tokens true rest).map (.startTag ⟨[], n⟩ (attrs.map Attr.spelled) closed :: ·) := by
  refine tokens_step ?_ (by simp only [List.length_append]; omega)
  rw [scanToken_name plain]
  exact scanStartTag_spelled plain writable closed rest

theorem tokens_endTag {n : Text} (plain : isPlainName n = true) (rest : Text) :
    tokens true (0x3C :: 0x2F :: (n ++ 0x3E :: rest)) =
      (tokens true rest).map (.endTag ⟨[], n⟩ :: ·) :=
  tokens_step (scanEndTag_spelled plain rest)
    (by simp only [List.length_append, List.length_cons]; omega)

theorem tokens_section {t : Text} (clean : isClean t = true) (whole : contains "]]>" t = false)
    (rest : Text) :
    tokens true (ofString "<![CDATA[" ++ (t ++ (ofString "]]>" ++ rest))) =
      (tokens true rest).map (.chars t true :: ·) := by
  have opener : ofString "<![CDATA[" = 0x3C :: sectionOpener := rfl
  rw [opener, List.cons_append]
  exact tokens_step (scanSection_spelled clean whole rest)
    (by simp only [List.length_append]; omega)

theorem tokens_comment {t : Text} (whole : contains "--" t = false)
    (dark : t.getLast? ≠ some 0x2D) (rest : Text) :
    tokens true (ofString "<!--" ++ (t ++ (ofString "-->" ++ rest))) =
      (tokens true rest).map (.comment t :: ·) := by
  have opener : ofString "<!--" = 0x3C :: ofString "!--" := rfl
  rw [opener, List.cons_append]
  exact tokens_step (scanComment_spelled whole dark rest)
    (by simp only [List.length_append]; omega)

theorem tokens_text {t : Text} (some_ : t ≠ []) (clean : isClean t = true)
    (plain : looksLikeSection t = false) {rest : Text} (stops : endsChars rest = true) :
    tokens true (Escape.text t ++ rest) = (tokens true rest).map (.chars t false :: ·) := by
  have read := scanChars_spelled clean plain stops
  obtain ⟨b, s, cons⟩ : ∃ b s, Escape.text t = b :: s :=
    List.exists_cons_of_ne_nil (escaped_ne_nil textByte_isEscape some_)
  have noBracket : b ≠ 0x3C := (mem_text (cons ▸ List.mem_cons_self)).1
  rw [cons, List.cons_append] at read ⊢
  refine tokens_step ?_ (by simp only [List.length_append]; omega)
  unfold scanToken
  rw [if_pos (by simpa using noBracket)]
  exact read

end DocBridge.Markup
