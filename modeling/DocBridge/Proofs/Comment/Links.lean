import DocBridge.Proofs.Comment.Rules
import DocBridge.Proofs.Text.Split
import DocBridge.Proofs.Text.Utf8

/-
The two rules on links to addresses. The text of a block link runs to the end of its line, and a
terminator that stands there ends up inside the anchor. The text of an inline link may start on
the next line; a star at its end is then set free before whatever follows the closing brace.
-/
namespace DocBridge.Rule

open Text Pattern DocBridge.Frame

def firstLine (rest : Text) : Text := (splitOn 0x0A rest).headD []

def laterLines (rest : Text) : Text := ((splitOn 0x0A rest).drop 1).flatMap (0x0A :: ·)

def anchorText (href rest : Text) : Text :=
  if (Utf8.trimWhite (firstLine rest)).isEmpty then href else Utf8.trimWhite (firstLine rest)

theorem renderLink_eq (href rest : Text) : renderLink href rest = "<a href=\"" ++ (href ++ ("\">" ++
    (anchorText href rest ++ ("</a>" ++ laterLines rest)))) := by
  simp only [renderLink, List.append_assoc]
  rfl

theorem lines_cons_feed (rest : Text) :
    firstLine (0x0A :: rest) = [] ∧
      laterLines (0x0A :: rest) = 0x0A :: (firstLine rest ++ laterLines rest) := by
  rw [firstLine, laterLines, splitOn_cons_self]
  refine ⟨rfl, ?_⟩
  simp only [firstLine, laterLines, List.drop_one, List.tail_cons]
  cases some_ : splitOn 0x0A rest with
  | nil => exact absurd some_ (splitOn_ne_nil 0x0A rest)
  | cons part parts => simp

theorem lines_cons_other {b : UInt8} (other : b ≠ 0x0A) (rest : Text) :
    firstLine (b :: rest) = b :: firstLine rest ∧ laterLines (b :: rest) = laterLines rest := by
  rw [firstLine, laterLines, splitOn_cons_other other]
  exact ⟨rfl, rfl⟩

theorem lines_join (rest : Text) : firstLine rest ++ laterLines rest = rest := by
  induction rest with
  | nil => rfl
  | cons b rest ih =>
    by_cases feed : b = 0x0A
    · subst feed
      rw [(lines_cons_feed rest).1, (lines_cons_feed rest).2, ih, List.nil_append]
    · rw [(lines_cons_other feed rest).1, (lines_cons_other feed rest).2, List.cons_append, ih]

theorem laterLines_head (rest : Text) : (laterLines rest).head? ≠ some 0x2F := by
  unfold laterLines
  cases (splitOn 0x0A rest).drop 1 <;> simp

theorem laterLines_of_one {rest : Text} (one : ∀ b ∈ rest, notNewline b = true) :
    laterLines rest = [] := by
  induction rest with
  | nil => rfl
  | cons b rest ih =>
    have other : b ≠ 0x0A := by simpa [notNewline] using one b (by simp)
    rw [(lines_cons_other other rest).2, ih fun c member => one c (by simp [member])]

theorem renderLink_line (href : Text) {text : Text} (free : 0x0A ∉ text) : renderLink href text =
    "<a href=\"" ++ (href ++ ("\">" ++ (anchorText href text ++ "</a>"))) := by
  rw [renderLink_eq, laterLines_of_one (notNewline_iff.mpr free), List.append_nil]

theorem trimWhite_terminators (s : Text) : terminators (Utf8.trimWhite s) = terminators s := by
  obtain ⟨lead, trail, white, white', whole⟩ := Utf8.trimWhite_split s
  have freeLead : 0x2A ∉ lead := Utf8.not_mem_whiteBytes white (by decide) (by decide)
  have freeTrail : 0x2A ∉ trail := Utf8.not_mem_whiteBytes white' (by decide) (by decide)
  have slashTrail : 0x2F ∉ trail := Utf8.not_mem_whiteBytes white' (by decide) (by decide)
  have head : trail.head? ≠ some 0x2F := fun first => slashTrail (List.mem_of_head? first)
  have count := congrArg terminators whole
  rw [terminators_skip freeLead, terminators_break _ head, terminators_of_no_star freeTrail] at count
  exact count.symm

theorem renderLink_terminators (href rest : Text) :
    ∃ again, again ≤ terminators href ∧
      terminators (renderLink href rest) = terminators href + terminators rest + again := by
  have parts : terminators rest = terminators (firstLine rest) + terminators (laterLines rest) := by
    rw [← terminators_break _ (laterLines_head rest), lines_join]
  have whole : terminators (renderLink href rest)
      = terminators href + (terminators (anchorText href rest) + terminators (laterLines rest)) := by
    rw [renderLink_eq, terminators_skip (by decide), terminators_around (by decide),
      terminators_around (by decide)]
  have shown := trimWhite_terminators (firstLine rest)
  rw [whole, parts, anchorText]
  split
  · rename_i empty
    rw [List.isEmpty_iff.mp empty] at shown
    refine ⟨terminators href, Nat.le_refl _, ?_⟩
    rw [← shown]
    simp only [terminators]
    omega
  · refine ⟨0, Nat.zero_le _, ?_⟩
    rw [shown]
    omega

def IsAddress (href : Text) : Prop :=
  ∃ scheme path, href = scheme ++ ("://" ++ path) ∧ path ≠ [] ∧ ∀ b ∈ path, isUrlByte b = true

def IsLinkText (text : Text) : Prop :=
  text = [] ∨ ∃ b line, text = b :: line ∧ isGap b = true ∧ ∀ c ∈ line, notNewline c = true

theorem url_reads {greedy : Bool} {prev : Option UInt8} {x rest : Text} {g : Groups UInt8}
    (reads : Reads (url greedy) prev x rest g) : IsAddress x ∧ g = [(1, x)] := by
  simp only [url, seqs, lit, reads_group, reads_seq, reads_word, reads_plus_one,
    reads_star_one] at reads
  obtain ⟨_, rfl, scheme, _, _, _, rfl, rfl, ⟨_, rfl⟩, _, path, _, _, rfl, rfl, ⟨rfl, rfl⟩, some_,
    all, rfl⟩ := reads
  exact ⟨⟨scheme, path, rfl, some_, all⟩, rfl⟩

theorem linkText_reads {prev : Option UInt8} {x rest : Text} {g : Groups UInt8}
    (reads : Reads linkText prev x rest g) :
    IsLinkText x ∧ g.lookup 1 = none ∧ (g.lookup 2).getD [] = x := by
  simp only [linkText, dots, reads_opt, reads_group, reads_seq, reads_one, reads_star_one] at reads
  rcases reads with ⟨_, rfl, _, line, _, _, rfl, rfl, ⟨⟨b, rfl, gap⟩, rfl⟩, _, rfl, all, rfl⟩ |
    ⟨rfl, rfl⟩
  · exact ⟨.inr ⟨b, line, rfl, gap, all⟩, rfl, rfl⟩
  · exact ⟨.inl rfl, rfl, rfl⟩

theorem inlineLink_reads {prev : Option UInt8} {x rest : Text} {g : Groups UInt8}
    (reads : Reads inlineLinkPattern prev x rest g) :
    ∃ lead href text, x = "\x7b@link" ++ (lead ++ (href ++ (text ++ "\x7d"))) ∧ 0x2A ∉ lead ∧
      IsAddress href ∧ IsLinkText text ∧ (g.lookup 1).getD [] = href ∧
      (g.lookup 2).getD [] = text := by
  simp only [inlineLinkPattern, seqs, lit, gaps, reads_seq, reads_word, reads_plus_one] at reads
  obtain ⟨_, _, _, _, rfl, rfl, ⟨rfl, rfl⟩, lead, _, _, _, rfl, rfl, ⟨_, all, rfl⟩, href, _, _, _,
    rfl, rfl, address, text, _, _, _, rfl, rfl, shown, rfl, rfl⟩ := reads
  obtain ⟨isAddress, rfl⟩ := url_reads address
  obtain ⟨isText, one, two⟩ := linkText_reads shown
  refine ⟨lead, href, text, rfl, not_mem_of_all all (by decide), isAddress, isText, ?_, ?_⟩
  · simp [List.lookup_append, one]
  · have other : List.lookup 2 [(1, href)] = none := rfl
    simpa [List.lookup_append, other] using two

theorem blockLink_reads {prev : Option UInt8} {x rest : Text} {g : Groups UInt8}
    (reads : Reads blockLinkPattern prev x rest g) :
    ∃ lead href text, x = "@link" ++ (lead ++ (href ++ text)) ∧ 0x2A ∉ lead ∧
      IsAddress href ∧ IsLinkText text ∧ (g.lookup 1).getD [] = href ∧
      (g.lookup 2).getD [] = text := by
  simp only [blockLinkPattern, seqs, lit, gaps, reads_seq, reads_word, reads_plus_one] at reads
  obtain ⟨_, _, _, _, rfl, rfl, ⟨rfl, rfl⟩, lead, _, _, _, rfl, rfl, ⟨_, all, rfl⟩, href, text, _, _,
    rfl, rfl, address, shown⟩ := reads
  obtain ⟨isAddress, rfl⟩ := url_reads address
  obtain ⟨isText, one, two⟩ := linkText_reads shown
  refine ⟨lead, href, text, rfl, not_mem_of_all all (by decide), isAddress, isText, ?_, ?_⟩
  · simp [List.lookup_append, one]
  · have other : List.lookup 2 [(1, href)] = none := rfl
    simpa [List.lookup_append, other] using two

theorem linkText_head {text : Text} (isText : IsLinkText text) : text.head? ≠ some 0x2F := by
  rcases isText with rfl | ⟨b, line, rfl, gap, _⟩
  · simp
  · intro slash
    cases slash
    contradiction

theorem linkText_lines {text : Text} (isText : IsLinkText text) :
    (text.head? ≠ some 0x0A ∧ laterLines text = []) ∨
      (text.head? = some 0x0A ∧ laterLines text = text) := by
  rcases isText with rfl | ⟨b, line, rfl, _, all⟩
  · exact .inl ⟨by simp, rfl⟩
  · by_cases feed : b = 0x0A
    · subst feed
      refine .inr ⟨rfl, ?_⟩
      rw [(lines_cons_feed line).2, lines_join]
    · refine .inl ⟨by simpa using feed, laterLines_of_one fun c member => ?_⟩
      rcases List.mem_cons.mp member with rfl | inside
      · simpa [notNewline] using feed
      · exact all c inside

theorem renderLink_off (href text : Text) : StartsOff isFrame (renderLink href text) := by
  rw [renderLink_eq]
  exact startsOff_append (startsOff_of_head (by decide)) _

theorem renderLink_end (href : Text) {text : Text} (isText : IsLinkText text) :
    (text.head? ≠ some 0x0A ∧ (renderLink href text).getLast? = some 0x3E) ∨
      (text.head? = some 0x0A ∧ ∃ front, renderLink href text = front ++ text) := by
  rcases linkText_lines isText with ⟨other, none_⟩ | ⟨feed, same⟩
  · refine .inl ⟨other, ?_⟩
    rw [renderLink_eq, none_]
    exact last_append _ (last_append _ (last_append _ (last_append _ (by decide))))
  · refine .inr ⟨feed, "<a href=\"" ++ (href ++ ("\">" ++ (anchorText href text ++ "</a>"))), ?_⟩
    rw [renderLink_eq, same]
    simp only [List.append_assoc]

theorem renderLink_last (href : Text) {text : Text} (isText : IsLinkText text) :
    (renderLink href text).getLast? = some 0x2A ↔
      text.head? = some 0x0A ∧ text.getLast? = some 0x2A := by
  rcases renderLink_end href isText with ⟨other, last⟩ | ⟨feed, front, whole⟩
  · simp [other, last]
  · obtain ⟨b, line, rfl⟩ : ∃ b line, text = b :: line := by
      cases text with
      | nil => contradiction
      | cons b line => exact ⟨b, line, rfl⟩
    rw [whole, List.getLast?_append, List.getLast?_cons, Option.some_or]
    simp [feed]

theorem renderLink_closes (href : Text) {text : Text} (isText : IsLinkText text) :
    Closes (renderLink href text) ↔ text.head? = some 0x0A ∧ Closes text := by
  rcases renderLink_end href isText with ⟨other, last⟩ | ⟨feed, front, whole⟩
  · simp [other, not_closes_of_last last (by decide)]
  · have off : StartsOff (· == 0x2F) text := startsOff_of_head (by rw [feed]; decide)
    rw [whole, closes_append_startsOff off]
    simp [feed]

def anchor (m : Match UInt8) : Text := renderLink (m.group 1) (m.group 2)

def doubled (m : Match UInt8) : Nat := terminators (anchor m) - terminators m.text

theorem inlineUrlLinks_eq (text : Text) :
    inlineUrlLinks text = (inlineLinkPattern.pieces text).flatMap (Piece.put anchor) :=
  rfl

structure InlineHit (m : Match UInt8) : Prop where
  text : StartsOff isFrame m.text
  put : StartsOff isFrame (anchor m)
  textEnd : m.text.getLast? = some 0x7D
  putEnd : (anchor m).getLast? = some 0x2A ↔
    (m.group 2).head? = some 0x0A ∧ (m.group 2).getLast? = some 0x2A
  more : terminators m.text ≤ terminators (anchor m)
  bound : doubled m ≤ terminators m.text

theorem inlineHit : EachHit inlineLinkPattern fun m _ => InlineHit m := by
  intro prev m rest taken found
  obtain ⟨lead, href, text, whole, free, _, isText, one, two⟩ :=
    inlineLink_reads (found_reads found)
  have one : m.group 1 = href := one
  have two : m.group 2 = text := two
  have put : anchor m = renderLink href text := by rw [anchor, one, two]
  have before : terminators m.text = terminators href + terminators text := by
    have head : (text ++ ofString "\x7d").head? ≠ some 0x2F := by
      cases text with
      | nil => decide
      | cons b line => simpa using linkText_head isText
    rw [whole, terminators_skip (by decide), terminators_skip free, terminators_break _ head,
      terminators_before (by decide)]
  obtain ⟨again, below, after⟩ := renderLink_terminators href text
  rw [← put] at after
  constructor
  · rw [whole]
    exact startsOff_append (startsOff_of_head (by decide)) _
  · rw [put]
    exact renderLink_off href text
  · rw [whole]
    exact last_append _ (last_append _ (last_append _ (last_append _ (by decide))))
  · rw [put, two]
    exact renderLink_last href isText
  · omega
  · rw [doubled]
    omega

theorem inline_heads : EachHit inlineLinkPattern fun m _ =>
    StartsOff (· == 0x2F) m.text ∧ StartsOff (· == 0x2F) (anchor m) := by
  intro prev m rest taken found
  have hit := inlineHit prev m rest taken found
  exact ⟨startsOff_slash hit.text, startsOff_slash hit.put⟩

theorem inlineUrlLinks_opens (text : Text) : Opens (inlineUrlLinks text) ↔ Opens text := by
  refine opens_of_swap (replace_swap (fun prev m rest taken found => ?_) text)
  have hit := inlineHit prev m rest taken found
  exact ⟨hit.text, hit.put⟩

theorem inlineUrlLinks_closes {text : Text} (closes : Closes text) :
    Closes (inlineUrlLinks text) := by
  have cut := cut_pieces inlineLinkPattern text
  rw [inlineUrlLinks_eq]
  rcases List.eq_nil_or_concat (inlineLinkPattern.pieces text) with none_ | ⟨front, last, some_⟩
  · rw [none_] at cut
    cases cut
    exact absurd closes (by simp [Closes])
  · rw [some_, List.concat_eq_append] at cut ⊢
    cases last with
    | hit m =>
      obtain ⟨old, _⟩ := put_closes_hit inline_heads cut
      obtain ⟨_, _, _, tail⟩ := cut_append cut
      cases tail with
      | hit taken found more =>
        have hit := inlineHit _ m _ taken found
        exact absurd (old.mp closes) (not_closes_of_last hit.textEnd (by decide))
    | gap b =>
      obtain ⟨x, y, old, new, same⟩ := put_ending inline_heads cut
      rw [new]
      rcases same with rfl | ⟨prev', m, taken, found, rfl, rfl⟩
      · exact old.mp closes
      · have hit := inlineHit _ m _ taken found
        have spans := old.mp closes
        rw [seam_of_last (by simp [hit.textEnd])] at spans
        contradiction

/-- The text of an inline link starts with a line break and ends in a star, and a slash follows
the link. -/
def LinkLeavesStar (text : Text) : Prop :=
  ∃ front m back, inlineLinkPattern.pieces text = front ++ .hit m :: .gap 0x2F :: back ∧
    (m.group 2).head? = some 0x0A ∧ (m.group 2).getLast? = some 0x2A

theorem inlineUrlLinks_terminators {text : Text} (closes : Closes text)
    (one : terminators text = 1) :
    terminators (inlineUrlLinks text) = 1 ↔ ¬ LinkLeavesStar text := by
  have cut := cut_pieces inlineLinkPattern text
  have balance : EachHit inlineLinkPattern fun m rest => seam m.text rest = 0 ∧
      terminators (anchor m) + 0 = terminators m.text + doubled m := by
    intro prev m rest taken found
    have hit := inlineHit prev m rest taken found
    have more := hit.more
    exact ⟨seam_of_last (by simp [hit.textEnd]), by rw [doubled]; omega⟩
  have bound : EachHit inlineLinkPattern fun m _ => doubled m ≤ terminators m.text ∧
      (Closes m.text → doubled m + 1 ≤ terminators m.text) := by
    intro prev m rest taken found
    have hit := inlineHit prev m rest taken found
    exact ⟨hit.bound, fun closes => absurd closes (not_closes_of_last hit.textEnd (by decide))⟩
  have count : terminators (inlineUrlLinks text) + hitSum (fun _ => 0) _
      = terminators text + hitSum doubled _ + seams anchor _ :=
    put_terminators inline_heads balance cut
  have few := (hitSum_lt bound cut).2 closes
  rw [hitSum_zero] at count
  have stray := seams_pos_iff inline_heads cut
  have same : (∃ front m back, inlineLinkPattern.pieces text
        = front ++ .hit m :: .gap 0x2F :: back ∧ (anchor m).getLast? = some 0x2A) ↔
      LinkLeavesStar text := by
    refine exists_congr fun front => exists_congr fun m => exists_congr fun back => ?_
    refine and_congr_right fun whole => ?_
    rw [whole] at cut
    obtain ⟨_, _, _, tail⟩ := cut_append cut
    cases tail with
    | hit taken found _ => exact (inlineHit _ m _ taken found).putEnd
  rw [← same, ← stray]
  omega

theorem blockUrlLinks_eq (text : Text) :
    blockUrlLinks text = (blockLinkPattern.pieces text).flatMap (Piece.put anchor) :=
  rfl

theorem address_last {href : Text} (address : IsAddress href) :
    href.getLast? ≠ some 0x2A ∧ ¬ Closes href := by
  obtain ⟨scheme, path, rfl, some_, all⟩ := address
  have free : 0x2A ∉ path := not_mem_of_all all (by decide)
  constructor
  · intro star
    rw [← List.append_assoc, List.getLast?_append, List.getLast?_eq_some_getLast some_,
      Option.some_or, ← List.getLast?_eq_some_getLast some_] at star
    exact free (List.mem_of_getLast? star)
  · have slashes : (scheme ++ ofString "://").getLast? = some 0x2F := last_append _ (by decide)
    rw [← List.append_assoc, closes_append, slashes]
    simp [some_, not_closes_of_no_star free]

theorem address_append (x : Text) {href : Text} (address : IsAddress href) :
    IsAddress (x ++ href) := by
  obtain ⟨scheme, path, rfl, some_, all⟩ := address
  exact ⟨x ++ scheme, path, by simp, some_, all⟩

theorem blockLink_end {prev : Option UInt8} {m : Match UInt8} {rest : Text}
    (found : blockLinkPattern.matchAt? prev (m.text ++ rest) = some m) :
    rest.head? ≠ some 0x2F ∨ m.group 2 = [] := by
  have sated : Sated notNewline (.group 2 (.seq (.one isGap) (.group 3 dots))) :=
    sated_group 2 (sated_seq _ (sated_group 3 (sated_star notNewline)))
  have regrouped : (seq (seq (seq (lit "@link") gaps) (url true))
      (opt true (.group 2 (.seq (.one isGap) (.group 3 dots))))).matchAt? prev (m.text ++ rest)
        = some m := found
  rcases matchAt_opt sated regrouped with stop | reads
  · refine .inl fun slash => ?_
    have := stop 0x2F slash
    contradiction
  · right
    simp only [lit, gaps, reads_seq, reads_word, reads_plus_one] at reads
    obtain ⟨_, _, _, _, _, groups, ⟨_, _, _, _, _, rfl, ⟨_, rfl⟩, _, _, rfl⟩, address⟩ := reads
    obtain ⟨_, rfl⟩ := url_reads address
    rw [Match.group, groups]
    rfl

structure BlockHit (m : Match UInt8) (rest : Text) : Prop where
  text : StartsOff isFrame m.text
  put : StartsOff isFrame (anchor m)
  textEnd : seam m.text rest = 0
  putEnd : seam (anchor m) rest = 0
  putCloses : Closes m.text → (Closes (anchor m) ↔ (m.group 2).head? = some 0x0A)
  hasText : Closes m.text → m.group 2 ≠ []
  more : terminators m.text ≤ terminators (anchor m)
  bound : doubled m ≤ terminators m.text
  strict : Closes m.text → doubled m + 1 ≤ terminators m.text

theorem blockHit : EachHit blockLinkPattern BlockHit := by
  intro prev m rest taken found
  obtain ⟨lead, href, text, whole, free, address, isText, one, two⟩ :=
    blockLink_reads (found_reads found)
  have one : m.group 1 = href := one
  have two : m.group 2 = text := two
  have put : anchor m = renderLink href text := by rw [anchor, one, two]
  have before : terminators m.text = terminators href + terminators text := by
    rw [whole, terminators_skip (by decide), terminators_skip free,
      terminators_break _ (linkText_head isText)]
  have front : IsAddress ("@link" ++ (lead ++ href)) := address_append _ (address_append _ address)
  have whole' : m.text = ("@link" ++ (lead ++ href)) ++ text := by
    rw [whole]
    simp only [List.append_assoc]
  have close : Closes m.text ↔ Closes text := by
    have lone : text ≠ [0x2F] := fun slash => linkText_head isText (by rw [slash]; rfl)
    rw [whole', closes_append]
    simp [lone, (address_last front).2]
  have stop := blockLink_end found
  obtain ⟨again, below, after⟩ := renderLink_terminators href text
  rw [← put] at after
  constructor
  · rw [whole]
    exact startsOff_append (startsOff_of_head (by decide)) _
  · rw [put]
    exact renderLink_off href text
  · rcases stop with other | absent
    · exact seam_of_head other
    · rw [whole', ← two, absent, List.append_nil]
      exact seam_of_last (address_last front).1
  · rcases stop with other | absent
    · exact seam_of_head other
    · refine seam_of_last fun star => ?_
      rw [put, renderLink_last href isText, ← two, absent] at star
      simp at star
  · intro closes
    rw [put, two, renderLink_closes href isText]
    simp [close.mp closes]
  · intro closes empty
    rw [two] at empty
    rw [close, empty] at closes
    exact absurd closes (by simp [Closes])
  · omega
  · rw [doubled]
    omega
  · intro closes
    have := terminators_of_closes (close.mp closes)
    rw [doubled]
    omega

theorem block_heads : EachHit blockLinkPattern fun m _ =>
    StartsOff (· == 0x2F) m.text ∧ StartsOff (· == 0x2F) (anchor m) := by
  intro prev m rest taken found
  have hit := blockHit prev m rest taken found
  exact ⟨startsOff_slash hit.text, startsOff_slash hit.put⟩

theorem blockUrlLinks_opens (text : Text) : Opens (blockUrlLinks text) ↔ Opens text := by
  refine opens_of_swap (replace_swap (fun prev m rest taken found => ?_) text)
  have hit := blockHit prev m rest taken found
  exact ⟨hit.text, hit.put⟩

/-- A block link at the end of the comment has its text on the same line. -/
def LinkTakesEnd (text : Text) : Prop :=
  ∃ m b, (blockLinkPattern.pieces text).getLast? = some (.hit m) ∧ (m.group 2).head? = some b ∧
    b ≠ 0x0A

theorem blockUrlLinks_closes {text : Text} (closes : Closes text) :
    Closes (blockUrlLinks text) ↔ ¬ LinkTakesEnd text := by
  have cut := cut_pieces blockLinkPattern text
  rw [blockUrlLinks_eq, LinkTakesEnd]
  have clean : EachHit blockLinkPattern fun m rest => seam (anchor m) rest = seam m.text rest := by
    intro prev m rest taken found
    have hit := blockHit prev m rest taken found
    rw [hit.putEnd, hit.textEnd]
  rcases List.eq_nil_or_concat (blockLinkPattern.pieces text) with none_ | ⟨front, last, some_⟩
  · rw [none_] at cut
    cases cut
    exact absurd closes (by simp [Closes])
  · rw [some_, List.concat_eq_append] at cut ⊢
    cases last with
    | gap b =>
      rw [put_closes_gap block_heads clean cut]
      simp [closes]
    | hit m =>
      obtain ⟨old, new⟩ := put_closes_hit block_heads cut
      obtain ⟨_, _, _, tail⟩ := cut_append cut
      cases tail with
      | hit taken found more =>
        have hit := blockHit _ m _ taken found
        have closes' := old.mp closes
        obtain ⟨b, line, shown⟩ := List.exists_cons_of_ne_nil (hit.hasText closes')
        rw [new, hit.putCloses closes', shown]
        simp [shown]

theorem blockUrlLinks_terminators {text : Text} (closes : Closes text) :
    terminators (blockUrlLinks text) = 1 ↔ terminators text = 1 := by
  have cut := cut_pieces blockLinkPattern text
  have balance : EachHit blockLinkPattern fun m rest => seam m.text rest = 0 ∧
      terminators (anchor m) + 0 = terminators m.text + doubled m := by
    intro prev m rest taken found
    have hit := blockHit prev m rest taken found
    have more := hit.more
    exact ⟨hit.textEnd, by rw [doubled]; omega⟩
  have clean : EachHit blockLinkPattern fun m rest => seam (anchor m) rest = 0 :=
    fun prev m rest taken found => (blockHit prev m rest taken found).putEnd
  have bound : EachHit blockLinkPattern fun m _ => doubled m ≤ terminators m.text ∧
      (Closes m.text → doubled m + 1 ≤ terminators m.text) := by
    intro prev m rest taken found
    have hit := blockHit prev m rest taken found
    exact ⟨hit.bound, hit.strict⟩
  have count : terminators (blockUrlLinks text) + hitSum (fun _ => 0) _
      = terminators text + hitSum doubled _ + seams anchor _ :=
    put_terminators block_heads balance cut
  have few := (hitSum_lt bound cut).2 closes
  rw [hitSum_zero, seams_of_clean block_heads clean cut] at count
  omega

end DocBridge.Rule
