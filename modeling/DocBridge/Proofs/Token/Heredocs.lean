import DocBridge.Proofs.Token.Forms

/-
Heredocs. The scanner decides on the first line whether there is one at all, and then looks for its
end at the start of every line. Stated without it: what opens a heredoc, which line closes it, and
how much of the text behind the opening line belongs to it.
-/
namespace DocBridge.Lexeme

open Text Scan

def labelQuotes : List Text := ["", "'", "\""]

def openingBreaks : List Text := ["\n", "\r\n"]

/-- What follows the three brackets: blanks, the label bare or between two equal quotes, and the
end of the line. -/
def HeredocOpening (label opening : Text) : Prop := ∃ blanks quote lineBreak,
  opening = blanks ++ (quote ++ (label ++ (quote ++ lineBreak))) ∧
    (∀ b ∈ blanks, isBlank b = true) ∧ quote ∈ labelQuotes ∧ IsLabel label ∧
    lineBreak ∈ openingBreaks

def HeredocClosing (label closing rest : Text) : Prop := ∃ indent, closing = indent ++ label ∧
  (∀ b ∈ indent, isBlank b = true) ∧ startsWith isNamePart rest = false

def ClosesHeredoc (label line : Text) : Prop := ∃ closing rest, line = closing ++ rest ∧
  HeredocClosing label closing rest

/-- `body` belongs to the heredoc and `after` does not: `body` goes on over the lines that do not
close it and ends with the label on the first line that does. Without such a line it goes to the
end. -/
inductive HeredocBody (label : Text) : (body after : Text) → Prop where
  | closing {closing after : Text} (closes : HeredocClosing label closing after) :
      HeredocBody label closing after
  | line {line body after : Text} (whole : 0x0A ∉ line) (goesOn : ¬ ClosesHeredoc label line)
      (more : HeredocBody label body after) : HeredocBody label (line ++ 0x0A :: body) after
  | last {line : Text} (whole : 0x0A ∉ line) (goesOn : ¬ ClosesHeredoc label line) :
      HeredocBody label line []

theorem labelQuotes_cases {quote : Text} (member : quote ∈ labelQuotes) :
    quote = [] ∨ quote = [0x27] ∨ quote = [0x22] := by
  simp only [labelQuotes, List.mem_cons, List.not_mem_nil, or_false] at member
  exact member

theorem openQuote_split (s : Text) : ∃ quote ∈ labelQuotes,
    (openQuote s).1 = quote.head? ∧ s = quote ++ (openQuote s).2 := by
  cases s with
  | nil => exact ⟨[], by decide, rfl, rfl⟩
  | cons b rest =>
    rw [openQuote]
    split
    · rename_i quoted
      rcases Bool.or_eq_true_iff.mp quoted with single | double
      · obtain rfl : b = 0x27 := by simpa using single
        exact ⟨[0x27], by decide, rfl, rfl⟩
      · obtain rfl : b = 0x22 := by simpa using double
        exact ⟨[0x22], by decide, rfl, rfl⟩
    · exact ⟨[], by decide, rfl, rfl⟩

theorem nameStart_ne {b c : UInt8} (start : isNameStart b = true) (other : isNameStart c = false) :
    b ≠ c := by
  rintro rfl
  rw [start] at other
  contradiction

theorem nameStart_dark {b : UInt8} (start : isNameStart b = true) : isBlank b = false := by
  simp [isBlank, nameStart_ne start (c := 0x20) rfl, nameStart_ne start (c := 0x09) rfl]

theorem openQuote_append {quote t : Text} (member : quote ∈ labelQuotes)
    (start : startsWith isNameStart t = true) : openQuote (quote ++ t) = (quote.head?, t) := by
  rcases labelQuotes_cases member with rfl | rfl | rfl
  · obtain ⟨b, rest, rfl, first⟩ := startsWith_cons start
    have plain : ¬ (b == 0x27 || b == 0x22) = true := by
      simp [nameStart_ne first (c := 0x27) rfl, nameStart_ne first (c := 0x22) rfl]
    exact if_neg plain
  · rfl
  · rfl

theorem closeQuote_iff {quote s t : Text} (member : quote ∈ labelQuotes) :
    closeQuote? quote.head? s = some t ↔ s = quote ++ t := by
  have closes (q : UInt8) : closeQuote? (some q) s = some t ↔ s = q :: t := by
    cases s with
    | nil => simp [closeQuote?]
    | cons b rest =>
      rw [closeQuote?]
      split <;> simp_all
  rcases labelQuotes_cases member with rfl | rfl | rfl
  · exact Option.some_inj
  · exact closes 0x27
  · exact closes 0x22

theorem afterLineBreak_iff {s t : Text} :
    afterLineBreak? s = some t ↔ ∃ lineBreak ∈ openingBreaks, s = lineBreak ++ t := by
  unfold afterLineBreak?
  constructor
  · intro found
    split at found
    · contradiction
    · rename_i some_
      have rest : s.drop (lineBreakLength s) = t := Option.some.inj found
      have whole := List.take_append_drop (lineBreakLength s) s
      have taken : (s.take (lineBreakLength s)).length = lineBreakLength s :=
        List.length_take_of_le (lineBreakLength_le s)
      have size : lineBreakLength (s.take (lineBreakLength s) ++ s.drop (lineBreakLength s)) =
          (s.take (lineBreakLength s)).length := by
        rw [whole, taken]
      have form := lineBreak_form size
      refine ⟨s.take (lineBreakLength s), ?_, by rw [← rest, whole]⟩
      rcases form with none_ | feed | both
      · rw [none_] at taken
        exact absurd taken.symm some_
      · rw [feed]
        decide
      · rw [both]
        decide
  · rintro ⟨lineBreak, member, rfl⟩
    simp only [openingBreaks, List.mem_cons, List.not_mem_nil, or_false] at member
    rcases member with rfl | rfl
    · rfl
    · rfl

theorem label_ends {quote lineBreak : Text} (quotes : quote ∈ labelQuotes)
    (breaks : lineBreak ∈ openingBreaks) (rest : Text) :
    ∃ b tail, quote ++ (lineBreak ++ rest) = b :: tail ∧ isNamePart b = false := by
  simp only [openingBreaks, List.mem_cons, List.not_mem_nil, or_false] at breaks
  rcases labelQuotes_cases quotes with rfl | rfl | rfl
  · rcases breaks with rfl | rfl
    · exact ⟨0x0A, rest, rfl, by decide⟩
    · exact ⟨0x0D, 0x0A :: rest, rfl, by decide⟩
  · exact ⟨0x27, lineBreak ++ rest, rfl, by decide⟩
  · exact ⟨0x22, lineBreak ++ rest, rfl, by decide⟩

theorem label_parts {label : Text} (name : IsLabel label) : ∀ b ∈ label, isNamePart b = true := by
  obtain ⟨b, rest, rfl, start, parts⟩ := name
  exact List.forall_mem_cons.mpr ⟨nameStart_part start, parts⟩

theorem label_start {label : Text} (name : IsLabel label) (rest : Text) :
    startsWith isNameStart (label ++ rest) = true := by
  obtain ⟨b, tail, rfl, start, -⟩ := name
  exact start

theorem label_taken {label quote lineBreak : Text} (name : IsLabel label)
    (quotes : quote ∈ labelQuotes) (breaks : lineBreak ∈ openingBreaks) (rest : Text) :
    (label ++ (quote ++ (lineBreak ++ rest))).takeWhile isNamePart = label ∧
      (label ++ (quote ++ (lineBreak ++ rest))).dropWhile isNamePart
        = quote ++ (lineBreak ++ rest) := by
  obtain ⟨b, tail, behind, stop⟩ := label_ends quotes breaks rest
  have parts := label_parts name
  rw [behind, List.takeWhile_append_of_pos parts, List.dropWhile_append_of_pos parts,
    List.takeWhile_cons_of_neg (by simp [stop]), List.dropWhile_cons_of_neg (by simp [stop])]
  exact ⟨List.append_nil label, rfl⟩

/-- A quote or a label ends the blanks. -/
theorem blanks_dropped {blanks quote t : Text} (blank : ∀ b ∈ blanks, isBlank b = true)
    (quotes : quote ∈ labelQuotes) (start : startsWith isNameStart t = true) :
    (blanks ++ (quote ++ t)).dropWhile isBlank = quote ++ t := by
  rw [List.dropWhile_append_of_pos blank]
  rcases labelQuotes_cases quotes with rfl | rfl | rfl
  · obtain ⟨b, rest, rfl, first⟩ := startsWith_cons start
    exact List.dropWhile_cons_of_neg (by simp [nameStart_dark first])
  · rfl
  · rfl

theorem heredocOpening_iff {s label body : Text} : heredocOpening? s = some (label, body) ↔
    ∃ opening, s = opening ++ body ∧ HeredocOpening label opening := by
  constructor
  · intro found
    obtain ⟨quote, quotes, first, inner⟩ := openQuote_split (s.dropWhile isBlank)
    simp only [heredocOpening?] at found
    split at found
    · rename_i start
      obtain ⟨_, more, pair⟩ := Option.map_eq_some_iff.mp found
      obtain ⟨closed, closes, broken⟩ := Option.bind_eq_some_iff.mp more
      cases pair
      rw [first] at closes
      obtain ⟨lineBreak, breaks, rfl⟩ := afterLineBreak_iff.mp broken
      have behind := (closeQuote_iff quotes).mp closes
      generalize (openQuote (s.dropWhile isBlank)).2 = labelled at inner start behind ⊢
      have name : IsLabel (labelled.takeWhile isNamePart) := by
        obtain ⟨b, rest, whole, label⟩ := startsWith_cons start
        have parts : ∀ c ∈ b :: rest, isNamePart c = true := by
          rw [← whole]
          exact List.all_eq_true.mp List.all_takeWhile
        exact ⟨b, rest, whole, label, (List.forall_mem_cons.mp parts).2⟩
      refine ⟨_, ?_, s.takeWhile isBlank, quote, lineBreak, rfl,
        List.all_eq_true.mp List.all_takeWhile, quotes, name, breaks⟩
      calc s = s.takeWhile isBlank ++ s.dropWhile isBlank := List.takeWhile_append_dropWhile.symm
        _ = s.takeWhile isBlank ++ (quote ++ (labelled.takeWhile isNamePart
              ++ labelled.dropWhile isNamePart)) := by
          rw [inner, List.takeWhile_append_dropWhile]
        _ = _ := by
          rw [behind]
          simp only [List.append_assoc]
    · contradiction
  · rintro ⟨_, rfl, blanks, quote, lineBreak, rfl, blank, quotes, name, breaks⟩
    have whole : blanks ++ (quote ++ (label ++ (quote ++ lineBreak))) ++ body
        = blanks ++ (quote ++ (label ++ (quote ++ (lineBreak ++ body)))) := by
      simp only [List.append_assoc]
    have start := label_start name (quote ++ (lineBreak ++ body))
    obtain ⟨taken, left⟩ := label_taken name quotes breaks body
    have bare : startsWith isNameStart label = true := by
      have alone := label_start name []
      rwa [List.append_nil] at alone
    rw [heredocOpening?, whole, blanks_dropped blank quotes start, openQuote_append quotes start]
    simp only [taken, left, bare, if_true, (closeQuote_iff quotes).mpr rfl, Option.bind_some,
      afterLineBreak_iff.mpr ⟨lineBreak, breaks, rfl⟩, Option.map_some]

theorem heredocClosing_iff {label line : Text} (name : IsLabel label) {n : Nat} :
    heredocClosing? label line = some n ↔
      ∃ closing rest, line = closing ++ rest ∧ HeredocClosing label closing rest ∧
        n = closing.length := by
  constructor
  · intro found
    simp only [heredocClosing?] at found
    split at found
    · rename_i both
      obtain ⟨front, ends⟩ := Bool.and_eq_true_iff.mp both
      obtain ⟨rest, whole⟩ := List.isPrefixOf_iff_prefix.mp front
      rw [← whole, List.drop_left] at ends
      refine ⟨line.take (runLength isBlank line) ++ label, rest, ?_,
        ⟨_, rfl, run_form isBlank line, by simpa using ends⟩, ?_⟩
      · rw [List.append_assoc, whole, List.take_append_drop]
      · rw [List.length_append, List.length_take_of_le (runLength_le isBlank line)]
        exact (Option.some.inj found).symm
    · contradiction
  · rintro ⟨_, rest, rfl, ⟨indent, rfl, blank, ends⟩, rfl⟩
    obtain ⟨b, tail, rfl, start, -⟩ := name
    have run : runLength isBlank (indent ++ (b :: tail) ++ rest) = indent.length := by
      rw [runLength, List.append_assoc, List.takeWhile_append_of_pos blank, List.cons_append,
        List.takeWhile_cons_of_neg (by simp [nameStart_dark start]), List.append_nil]
    have front : (b :: tail).isPrefixOf (b :: tail ++ rest) = true :=
      List.isPrefixOf_iff_prefix.mpr (List.prefix_append _ rest)
    simp only [heredocClosing?, run]
    rw [List.append_assoc, List.drop_left, List.drop_left, front, ends, List.length_append]
    rfl

theorem heredocClosing_none {label line : Text} (name : IsLabel label) :
    heredocClosing? label line = none ↔ ¬ ClosesHeredoc label line := by
  rw [Option.eq_none_iff_forall_ne_some]
  constructor
  · rintro none_ ⟨closing, rest, whole, closes⟩
    exact none_ _ ((heredocClosing_iff name).mpr ⟨closing, rest, whole, closes, rfl⟩)
  · intro goesOn n found
    obtain ⟨closing, rest, whole, closes, -⟩ := (heredocClosing_iff name).mp found
    exact goesOn ⟨closing, rest, whole, closes⟩

theorem closesHeredoc_append {label line : Text} (closes : ClosesHeredoc label line) (rest : Text) :
    ClosesHeredoc label (line ++ 0x0A :: rest) := by
  obtain ⟨closing, behind, rfl, indent, rfl, blank, ends⟩ := closes
  refine ⟨indent ++ label, behind ++ 0x0A :: rest, List.append_assoc _ _ _, indent, rfl, blank, ?_⟩
  cases behind with
  | nil => rfl
  | cons b behind => exact ends

theorem heredocBodyLength_line (label : Text) {line : Text} (whole : 0x0A ∉ line) (rest : Text) :
    heredocBodyLength label false (line ++ rest)
      = line.length + heredocBodyLength label false rest := by
  induction line with
  | nil => exact (Nat.zero_add _).symm
  | cons b line ih =>
    rw [List.mem_cons, not_or] at whole
    have inside : (b == 0x0A) = false := beq_eq_false_iff_ne.mpr (Ne.symm whole.1)
    rw [List.cons_append, heredocBodyLength, inside, if_neg Bool.false_ne_true]
    simp only [ih whole.2, List.length_cons]
    omega

theorem heredocBodyLength_open {label s : Text} (goesOn : heredocClosing? label s = none) :
    heredocBodyLength label true s = heredocBodyLength label false s := by
  cases s with
  | nil => rfl
  | cons b rest => simp only [heredocBodyLength, if_true, goesOn, Bool.false_eq_true, if_false]

theorem heredocBodyLength_closing {label s : Text} (name : IsLabel label) {n : Nat}
    (found : heredocClosing? label s = some n) : heredocBodyLength label true s = n := by
  cases s with
  | nil =>
    obtain ⟨_, _, empty, ⟨indent, rfl, -⟩, -⟩ := (heredocClosing_iff name).mp found
    obtain ⟨b, tail, rfl, -⟩ := name
    simp at empty
  | cons b rest => simp only [heredocBodyLength, if_true, found]

theorem heredocBodyLength_body {label : Text} (name : IsLabel label) (s : Text) :
    HeredocBody label (s.take (heredocBodyLength label true s))
      (s.drop (heredocBodyLength label true s)) := by
  induction h : s.length using Nat.strongRecOn generalizing s with
  | ind size ih =>
    cases found : heredocClosing? label s with
    | some n =>
      obtain ⟨closing, rest, rfl, closes, rfl⟩ := (heredocClosing_iff name).mp found
      rw [heredocBodyLength_closing name found, List.take_left, List.drop_left]
      exact .closing closes
    | none =>
      rw [heredocBodyLength_open found]
      have goesOn := (heredocClosing_none name).mp found
      by_cases feed : 0x0A ∈ s
      · obtain ⟨line, rest, rfl, whole⟩ := List.eq_append_cons_of_mem feed
        have next : heredocBodyLength label false (0x0A :: rest)
            = heredocBodyLength label true rest + 1 := rfl
        have smaller : rest.length < size := by
          rw [← h, List.length_append, List.length_cons]
          omega
        rw [heredocBodyLength_line label whole, next, List.take_length_add_append,
          List.drop_length_add_append, List.take_succ_cons, List.drop_succ_cons]
        refine .line whole ?_ (ih _ smaller rest rfl)
        exact fun closes => goesOn (closesHeredoc_append closes rest)
      · have all : heredocBodyLength label false s = s.length := by
          have line := heredocBodyLength_line label feed []
          rwa [List.append_nil] at line
        rw [all, List.take_length, List.drop_length]
        exact .last feed goesOn

end DocBridge.Lexeme

namespace DocBridge.Token

open Text Scan Lexeme

theorem scanCode_brackets (s : Text) : scanCode 0x3C (0x3C :: 0x3C :: s) =
    match heredocLength? s with
    | some n => (.heredoc, n + 2)
    | none => (.operator, 1) := rfl

theorem scan_heredoc {mode : Mode} (code : mode.inCode = true) (s : Text) :
    (∃ label opening body after, s = opening ++ (body ++ after) ∧ HeredocOpening label opening ∧
      HeredocBody label body after ∧
      scan mode 0x3C (0x3C :: 0x3C :: s) = (.heredoc, (opening ++ body).length + 2)) ∨
    ((¬ ∃ label opening, opening <+: s ∧ HeredocOpening label opening) ∧
      scan mode 0x3C (0x3C :: 0x3C :: s) = (.operator, 1)) := by
  rw [scan, if_pos code, scanCode_brackets, heredocLength?]
  cases found : heredocOpening? s with
  | some pair =>
    obtain ⟨label, rest⟩ := pair
    obtain ⟨opening, rfl, opens⟩ := heredocOpening_iff.mp found
    obtain ⟨_, _, _, _, _, _, name, _⟩ := id opens
    have inside := heredocBodyLength_le label true rest
    refine .inl ⟨label, opening, _, _, by rw [List.take_append_drop], opens,
      heredocBodyLength_body name rest, ?_⟩
    simp only [Option.map_some, List.length_append, List.length_take_of_le inside]
    congr 1
    omega
  | none =>
    refine .inr ⟨?_, rfl⟩
    rintro ⟨label, opening, ⟨body, rfl⟩, opens⟩
    rw [heredocOpening_iff.mpr ⟨opening, rfl, opens⟩] at found
    contradiction

/-- Where code goes on with three brackets there is a heredoc exactly if one opens there. It ends
with the label on the first line that closes it, or with the source if no line does. Otherwise the
token is the operator of the first two brackets. -/
theorem heredocs_open_and_close (src : Text) (before : List Token) (t : Token) (after : List Token)
    (split : stream src = before ++ t :: after) (code : (modeAlong {} before).inCode = true)
    (s : Text) (brackets : t.text ++ after.flatMap Token.text = "<<<" ++ s) :
    (t.kind = .heredoc ↔ ∃ label opening, opening <+: s ∧ HeredocOpening label opening) ∧
    (t.kind = .heredoc → ∃ label opening body, t.text = "<<<" ++ (opening ++ body) ∧
      HeredocOpening label opening ∧ HeredocBody label body (after.flatMap Token.text)) ∧
    (t.kind ≠ .heredoc → t.kind = .operator ∧ t.text = "<<") := by
  have lexed := lexed_stream src
  rw [split] at lexed
  obtain ⟨b, text, kind, kind_, text_, scanned, -⟩ := lexed_at lexed
  have three : ofString "<<<" = [0x3C, 0x3C, 0x3C] := rfl
  rw [text_, three] at brackets ⊢
  obtain rfl : b = 0x3C := (List.cons.inj brackets).1
  have rest : text ++ after.flatMap Token.text = 0x3C :: 0x3C :: s := (List.cons.inj brackets).2
  rw [rest] at scanned
  rcases scan_heredoc code s with ⟨label, opening, body, behind, rfl, opens, closes, read⟩ |
    ⟨none_, read⟩
  · obtain ⟨rfl, size⟩ := Prod.mk.inj (read.symm.trans scanned)
    have heredoc : t.kind = .heredoc := by rw [kind_]; simp [kindIn, Kind.isKeyword]
    have cut : text ++ after.flatMap Token.text = (0x3C :: 0x3C :: (opening ++ body)) ++ behind := by
      rw [rest]
      simp
    obtain ⟨rfl, rfl⟩ := List.append_inj cut (by simp [← size])
    refine ⟨⟨fun _ => ⟨label, opening, List.prefix_append _ _, opens⟩, fun _ => heredoc⟩,
      fun _ => ⟨label, opening, body, rfl, opens, closes⟩, fun other => absurd heredoc other⟩
  · obtain ⟨rfl, size⟩ := Prod.mk.inj (read.symm.trans scanned)
    have operator : t.kind = .operator := by rw [kind_]; simp [kindIn, Kind.isKeyword]
    obtain ⟨c, rfl⟩ := List.length_eq_one_iff.mp size.symm
    obtain rfl : c = 0x3C := (List.cons.inj rest).1
    rw [operator]
    exact ⟨⟨fun heredoc => by contradiction, fun opens => absurd opens none_⟩,
      fun heredoc => by contradiction, fun _ => ⟨rfl, rfl⟩⟩

theorem label_goes_on_then_closes :
    let src : Text := "<?php <<<'A'\n AB\n\tA.<<<x;"
    let front : List Token := [⟨.openTag, "<?php ", 1⟩]
    let first : Token := ⟨.heredoc, "<<<'A'\n AB\n\tA", 1⟩
    let dot : Token := ⟨.char, ".", 3⟩
    let last : Token := ⟨.operator, "<<", 3⟩
    let behind : List Token := [⟨.char, "<", 3⟩, ⟨.name, "x", 3⟩, ⟨.char, ";", 3⟩]
    stream src = front ++ first :: (dot :: last :: behind) ∧
      (∃ label opening body, first.text = "<<<" ++ (opening ++ body) ∧
        HeredocOpening label opening ∧ HeredocBody label body ".<<<x;") ∧
      ¬ ∃ label opening, opening <+: "x;" ∧ HeredocOpening label opening := by
  intro src front first dot last behind
  have split : stream src = front ++ first :: (dot :: last :: behind) := by decide +kernel
  have split' : stream src = (front ++ [first, dot]) ++ last :: behind := split
  have ⟨_, closes, _⟩ := heredocs_open_and_close src front first _ split rfl "'A'\n AB\n\tA.<<<x;" rfl
  have ⟨opens, _, _⟩ := heredocs_open_and_close src _ last _ split' rfl "x;" rfl
  exact ⟨split, closes rfl, fun found => by cases opens.mpr found⟩

end DocBridge.Token
