import DocBridge.Proofs.Comment.Intact
import DocBridge.Proofs.Comment.LinkMatch

/-
Lines made of plain text and inline links. The rules treat the links of a line one by one unless a
link takes more than itself: one with a text takes all links behind it along, and one to a property
is read as an address if any address stands behind it.
-/
namespace DocBridge.Rule

open Text Pattern

def isPlainByte (b : UInt8) : Bool :=
  b != 0x7B && b != 0x7D && b != 0x40 && b != 0x5C && b != 0x0A

inductive Segment where
  | plain (text : Text)
  | property (word : Text)
  | bare (url : Text)
  | labelled (url label : Text)

def link (href shown : Text) : Text :=
  ofString "<a href=\"" ++ (href ++ (ofString "\">" ++ (shown ++ ofString "</a>")))

namespace Segment

def source : Segment → Text
  | plain text => text
  | property word => ofString "\x7b@link " ++ (word ++ ofString "\x7d")
  | bare url => ofString "\x7b@link " ++ (url ++ ofString "\x7d")
  | labelled url label =>
    ofString "\x7b@link " ++ (url ++ (ofString " " ++ (label ++ ofString "\x7d")))

def marked : Segment → Text
  | property word => ofString "\x7b@link $" ++ (word ++ ofString "\x7d")
  | other => other.source

def rendered : Segment → Text
  | plain text => text
  | property word => ofString "\x7b@link $" ++ (word ++ ofString "\x7d")
  | bare url => link url url
  | labelled url label => link url label

def WellFormed : Segment → Prop
  | plain text => ∀ b ∈ text, isPlainByte b = true
  | property word => word ≠ [] ∧ ∀ b ∈ word, isWordByte b = true
  | bare url => IsUrl url
  | labelled url label => IsUrl url ∧ label ≠ [] ∧ Utf8.trimWhite label = label ∧
      ∀ b ∈ label, isPlainByte b = true

def IsPlain (s : Segment) : Prop := ∃ text, s = plain text

end Segment

/-- No link takes part of what stands behind it. -/
def Apart : List Segment → Prop
  | [] => True
  | .plain _ :: back | .bare _ :: back => Apart back
  | .property _ :: back => ¬ HasAddress (back.flatMap Segment.source) ∧ Apart back
  | .labelled _ _ :: back => ∀ s ∈ back, s.IsPlain

theorem hasAddress_marked (segs : List Segment) (front : Text) :
    HasAddress (front ++ segs.flatMap Segment.marked) ↔
      HasAddress (front ++ segs.flatMap Segment.source) := by
  induction segs generalizing front with
  | nil => rfl
  | cons s back ih =>
    rw [List.flatMap_cons, List.flatMap_cons]
    cases s with
    | property word =>
      have bytes : ofString "\x7b@link $" = ofString "\x7b@link" ++ [0x20, 0x24] ∧
          ofString "\x7b@link " = ofString "\x7b@link" ++ [0x20] := by decide
      have sigil (t : Text) : HasAddress (0x24 :: t) ↔ HasAddress t := by
        have := hasAddress_break (b := 0x24) (by decide) [] t
        simpa [not_hasAddress] using this
      have split (t : Text) : HasAddress (front ++ (ofString "\x7b@link" ++ 0x20 :: t)) ↔
          HasAddress (front ++ ofString "\x7b@link") ∨ HasAddress t := by
        rw [← List.append_assoc]
        exact hasAddress_break (by decide) _ t
      simp only [Segment.marked, Segment.source, bytes.1, bytes.2, List.append_assoc,
        List.cons_append, List.nil_append]
      rw [split, split, sigil, ← List.append_assoc, ← List.append_assoc, ih]
    | plain text | bare url | labelled url label =>
      rw [← List.append_assoc, ← List.append_assoc]
      exact ih _

theorem propertyLink_starts (prev : Option UInt8) (x r : Text) (g : Groups UInt8)
    (reads : Reads propertyLinkPattern prev x r g) : x.head? = some 0x7B := by
  obtain ⟨w, -, rfl, -⟩ := propertyLink_reads reads
  rfl

theorem namespaceSeparators_same {text : Text} (free : 0x5C ∉ text) :
    namespaceSeparators text = text := by
  suffices same : ∀ after, separatorsFrom after text = text from same false
  induction text with
  | nil => exact fun _ => rfl
  | cons b rest ih =>
    intro after
    rw [List.mem_cons, not_or] at free
    rw [separatorsFrom, if_neg (by simpa using Ne.symm free.1), ih free.2]

def withSigil (m : Match UInt8) : Text := ofString "\x7b@link $" ++ m.group 1 ++ ofString "\x7d"

theorem propertyLinks_eq (text : Text) :
    propertyLinks text = propertyLinkPattern.replaceAfter withSigil none text := rfl

theorem word_unique {w w' : Text} {b c : UInt8} {rest rest' : Text}
    (all : ∀ a ∈ w, isWordByte a = true) (all' : ∀ a ∈ w', isWordByte a = true)
    (stop : isWordByte b = false) (stop' : isWordByte c = false)
    (same : w ++ b :: rest = w' ++ c :: rest') : w = w' ∧ b :: rest = c :: rest' := by
  have later := congrArg (List.dropWhile isWordByte) same
  rw [List.dropWhile_append_of_pos all, List.dropWhile_append_of_pos all',
    List.dropWhile_cons_of_neg (by simp [stop]), List.dropWhile_cons_of_neg (by simp [stop'])]
    at later
  rw [later, List.append_cancel_right_eq] at same
  exact ⟨same, later⟩

theorem propertyLink_unread {url more x r : Text} (isUrl : IsUrl url) {prev : Option UInt8}
    {g : Groups UInt8} (whole : ofString "\x7b@link " ++ (url ++ more) = x ++ r) :
    ¬ Reads propertyLinkPattern prev x r g := by
  intro reads
  obtain ⟨w, all, rfl, -⟩ := propertyLink_reads reads
  obtain ⟨scheme, path, rfl, letters, -⟩ := isUrl
  have wordly : ∀ b ∈ scheme, isWordByte b = true := fun b member => by
    simp [isWordByte, letters b member]
  simp only [List.append_assoc, List.append_cancel_left_eq] at whole
  have ends := (word_unique (b := 0x3A) (c := 0x7D) wordly all (by decide) (by decide) whole).2
  cases ends

theorem propertyLink_hit (prev : Option UInt8) {word rest : Text} (some_ : word ≠ [])
    (all : ∀ b ∈ word, isWordByte b = true) :
    ∃ prev', propertyLinkPattern.replaceAfter withSigil prev
        ((Segment.property word).source ++ rest)
      = (Segment.property word).marked
        ++ propertyLinkPattern.replaceAfter withSigil prev' rest := by
  have reads : Reads propertyLinkPattern prev (Segment.property word).source rest _ :=
    reads_then (reads_literal _ _ _)
      (reads_then (reads_held 1 (reads_plus_one.mpr ⟨some_, all, rfl⟩)) (reads_literal _ _ _))
  obtain ⟨m, rest', whole, taken, found⟩ := reads_found reads fun r g empty => by
    have := propertyLink_starts _ _ _ _ empty
    contradiction
  obtain ⟨w, all', matched, groups⟩ := propertyLink_reads (found_reads found)
  have lines := whole
  simp only [matched, Segment.source, List.append_assoc, List.append_cancel_left_eq] at lines
  obtain ⟨rfl, rests⟩ := word_unique (b := 0x7D) (c := 0x7D) all all' (by decide) (by decide) lines
  obtain rfl : rest = rest' := (List.cons.inj rests).2
  have group : m.group 1 = word := by
    rw [Match.group, groups]
    rfl
  refine ⟨m.text.getLast?, ?_⟩
  rw [whole, replaceAfter_hit taken found, withSigil, group]
  simp only [Segment.marked, List.append_assoc]

theorem propertyLink_pass (prev : Option UInt8) {url tail rest : Text} (isUrl : IsUrl url)
    (free : 0x7B ∉ tail) :
    ∃ prev', propertyLinkPattern.replaceAfter withSigil prev
        ((ofString "\x7b@link " ++ (url ++ tail)) ++ rest)
      = (ofString "\x7b@link " ++ (url ++ tail))
        ++ propertyLinkPattern.replaceAfter withSigil prev' rest := by
  have brace : ofString "\x7b@link " = 0x7B :: ofString "@link " := by decide
  have later : 0x7B ∉ ofString "@link " ++ (url ++ tail) := by
    simp only [List.mem_append, not_or]
    exact ⟨by decide, not_mem_isUrl isUrl (by decide), free⟩
  have unread : ∀ x r g, 0x7B :: ((ofString "@link " ++ (url ++ tail)) ++ rest) = x ++ r →
      ¬ Reads propertyLinkPattern prev x r g := by
    intro x r g whole
    have split : ofString "\x7b@link " ++ (url ++ (tail ++ rest)) = x ++ r := by
      rw [← whole, brace]
      simp only [List.cons_append, List.append_assoc]
    exact propertyLink_unread isUrl split
  rw [brace]
  exact ⟨_, replaceAfter_pass propertyLink_starts later unread⟩

/-- The links to properties get their sigil, and nothing else is changed. -/
theorem properties_marked {segs : List Segment} (wellFormed : ∀ s ∈ segs, s.WellFormed)
    (prev : Option UInt8) :
    propertyLinkPattern.replaceAfter withSigil prev (segs.flatMap Segment.source)
      = segs.flatMap Segment.marked := by
  induction segs generalizing prev with
  | nil => exact replaceAfter_nil
  | cons s back ih =>
    obtain ⟨here, behind⟩ := List.forall_mem_cons.mp wellFormed
    have later := ih behind
    rw [List.flatMap_cons, List.flatMap_cons]
    cases s with
    | plain text =>
      have free : 0x7B ∉ text := not_mem_of_all here (by decide)
      rw [Segment.source, replaceAfter_free propertyLink_starts free, later]
      rfl
    | property word =>
      obtain ⟨prev', step⟩ := propertyLink_hit prev here.1 here.2
      rw [step, later]
    | bare url =>
      have free : 0x7B ∉ ofString "\x7d" := by decide
      obtain ⟨prev', step⟩ := propertyLink_pass prev here free
      rw [Segment.source, step, later]
      rfl
    | labelled url label =>
      have free : 0x7B ∉ ofString " " ++ (label ++ ofString "\x7d") := by
        simp only [List.mem_append, not_or]
        exact ⟨by decide, not_mem_of_all here.2.2.2 (by decide), by decide⟩
      obtain ⟨prev', step⟩ := propertyLink_pass prev here.1 free
      rw [Segment.source, step, later]
      rfl

theorem inlineLink_hit (prev : Option UInt8) {url text rest : Text} (isUrl : IsUrl url)
    (isText : IsLinkText text) (last : text = [] ∨ 0x7D ∉ rest) :
    ∃ prev', inlineLinkPattern.replaceAfter anchor prev
        ((ofString "\x7b@link " ++ (url ++ (text ++ ofString "\x7d"))) ++ rest)
      = renderLink url text ++ inlineLinkPattern.replaceAfter anchor prev' rest := by
  obtain ⟨m, found, matched, one, two⟩ := inlineLink_found prev isUrl isText last
  have taken : m.text ≠ [] := by
    rw [matched]
    simp [ofString]
  have same : ofString "\x7b@link " ++ (url ++ (text ++ ofString "\x7d")) = m.text := matched.symm
  refine ⟨m.text.getLast?, ?_⟩
  rw [same, replaceAfter_hit taken found, anchor, one, two]

def linked (prev prev' : Option UInt8) (s : Text) : Text :=
  blockLinkPattern.replaceAfter anchor prev' (inlineLinkPattern.replaceAfter anchor prev s)

variable {prev prev' : Option UInt8}

theorem linked_plain {text : Text} (plain : ∀ b ∈ text, isPlainByte b = true) (rest : Text) :
    ∃ q q', linked prev prev' ((Segment.plain text).marked ++ rest)
      = (Segment.plain text).rendered ++ linked q q' rest := by
  have brace : 0x7B ∉ text := not_mem_of_all plain (by decide)
  have sign : 0x40 ∉ text := not_mem_of_all plain (by decide)
  refine ⟨lastOf prev text, lastOf prev' text, ?_⟩
  have inline_ : inlineLinkPattern.replaceAfter anchor prev ((Segment.plain text).marked ++ rest)
      = text ++ inlineLinkPattern.replaceAfter anchor (lastOf prev text) rest :=
    replaceAfter_free inlineLink_starts brace
  rw [linked, inline_, replaceAfter_free blockLink_starts sign]
  rfl

theorem linked_hit {s : Segment} {url text shown rest : Text}
    (written : s.marked = ofString "\x7b@link " ++ (url ++ (text ++ ofString "\x7d")))
    (isUrl : IsUrl url) (isText : IsLinkText text) (last : text = [] ∨ 0x7D ∉ rest)
    (renders : renderLink url text = link url shown) (free : 0x40 ∉ shown) :
    ∃ q q', linked prev prev' (s.marked ++ rest) = link url shown ++ linked q q' rest := by
  obtain ⟨q, step⟩ := inlineLink_hit prev isUrl isText last
  have sign : 0x40 ∉ link url shown := by
    simp only [link, List.mem_append, not_or]
    exact ⟨by decide, not_mem_isUrl isUrl (by decide), by decide, free, by decide⟩
  refine ⟨q, lastOf prev' (link url shown), ?_⟩
  rw [linked, written, step, renders, replaceAfter_free blockLink_starts sign]
  rfl

theorem linked_bare {url : Text} (isUrl : IsUrl url) (rest : Text) :
    ∃ q q', linked prev prev' ((Segment.bare url).marked ++ rest)
      = (Segment.bare url).rendered ++ linked q q' rest := by
  have written : (Segment.bare url).marked
      = ofString "\x7b@link " ++ (url ++ ([] ++ ofString "\x7d")) := rfl
  have renders : renderLink url [] = link url url := renderLink_line url List.not_mem_nil
  have sign : 0x40 ∉ url := not_mem_isUrl isUrl (by decide)
  exact linked_hit written isUrl (.inl rfl) (.inl rfl) renders sign

theorem isLinkText_blank {line : Text} (oneLine : 0x0A ∉ line) : IsLinkText (0x20 :: line) :=
  .inr ⟨0x20, line, rfl, by decide, notNewline_iff.mpr oneLine⟩

theorem renderLink_blank {url line shown : Text} (oneLine : 0x0A ∉ line)
    (trimmed : Utf8.trimWhite line = shown) (some_ : shown ≠ []) :
    renderLink url (0x20 :: line) = link url shown := by
  have free : 0x0A ∉ (0x20 : UInt8) :: line := by simp [oneLine]
  have first : firstLine (0x20 :: line) = 0x20 :: line := by
    rw [firstLine, splitOn_clean free]
    rfl
  have visible : shown.isEmpty = false := List.isEmpty_eq_false_iff.mpr some_
  rw [renderLink_line url free, anchorText, first, Utf8.trimWhite_space, trimmed, visible]
  rfl

theorem linked_labelled {url label rest : Text}
    (wellFormed : (Segment.labelled url label).WellFormed) (last : 0x7D ∉ rest) :
    ∃ q q', linked prev prev' ((Segment.labelled url label).marked ++ rest)
      = (Segment.labelled url label).rendered ++ linked q q' rest := by
  obtain ⟨isUrl, some_, trimmed, plain⟩ := wellFormed
  have oneLine : 0x0A ∉ label := not_mem_of_all plain (by decide)
  have sign : 0x40 ∉ label := not_mem_of_all plain (by decide)
  have written : (Segment.labelled url label).marked
      = ofString "\x7b@link " ++ (url ++ ((0x20 :: label) ++ ofString "\x7d")) := rfl
  exact linked_hit written isUrl (isLinkText_blank oneLine) (.inr last)
    (renderLink_blank oneLine trimmed some_) sign

/-- Up to the last brace of the line all is taken for the text of the link. -/
theorem linked_labelled_clash {url label mid rest : Text}
    (wellFormed : (Segment.labelled url label).WellFormed) (oneLine : 0x0A ∉ mid)
    (last : 0x7D ∉ rest) :
    ∃ later, linked prev prev' ((Segment.labelled url label).marked ++ (mid ++ 0x7D :: rest))
      = ofString "<a href=\"" ++ (url ++ (ofString "\">" ++ (label ++ 0x7D :: later))) := by
  obtain ⟨isUrl, some_, trimmed, plain⟩ := wellFormed
  have wide : 0x0A ∉ label ++ 0x7D :: mid := by
    rw [List.mem_append, List.mem_cons, not_or, not_or]
    exact ⟨not_mem_of_all plain (by decide), by decide, oneLine⟩
  obtain ⟨tail, kept⟩ := Utf8.trimWhite_front trimmed (b := 0x7D) (by decide) (by decide) some_ mid
  have renders : renderLink url (0x20 :: (label ++ 0x7D :: mid))
      = link url (label ++ 0x7D :: tail) := renderLink_blank wide kept (by simp)
  obtain ⟨q, step⟩ := inlineLink_hit prev isUrl (isLinkText_blank wide) (.inr last)
  have split : (Segment.labelled url label).marked ++ (mid ++ 0x7D :: rest)
      = (ofString "\x7b@link " ++ (url ++ ((0x20 :: (label ++ 0x7D :: mid)) ++ ofString "\x7d")))
        ++ rest := by
    have blank : ofString " " = [0x20] := rfl
    have brace : ofString "\x7d" = [0x7D] := rfl
    simp only [Segment.marked, Segment.source, blank, brace, List.append_assoc, List.cons_append,
      List.nil_append]
  let front : Text := ofString "<a href=\"" ++ (url ++ (ofString "\">" ++ (label ++ [0x7D])))
  have sign : 0x40 ∉ front := by
    simp only [front, List.mem_append, not_or]
    exact ⟨by decide, not_mem_isUrl isUrl (by decide), by decide,
      not_mem_of_all plain (by decide), by decide⟩
  have start : link url (label ++ 0x7D :: tail) = front ++ (tail ++ ofString "</a>") := by
    simp only [link, front, List.append_assoc, List.cons_append, List.nil_append]
  rw [linked, split, step, renders, start, List.append_assoc,
    replaceAfter_free blockLink_starts sign]
  simp only [front, List.append_assoc, List.cons_append, List.nil_append]
  exact ⟨_, rfl⟩

theorem linked_same {s : Text} (none_ : ¬ HasAddress s) : linked prev prev' s = s := by
  have inside {t x r : Text} (later : t <:+ s) (whole : t = x ++ r) (found : HasAddress x) :
      HasAddress s := by
    have part : x <:+: t := by
      rw [whole]
      exact (List.prefix_append x r).isInfix
    exact hasAddress_mono (part.trans later.isInfix) found
  have inline_ : inlineLinkPattern.replaceAfter anchor prev s = s := by
    apply replaceAfter_same
    intro t later q x r g whole _ reads
    exact none_ (inside later whole (inlineLink_hasAddress reads))
  rw [linked, inline_]
  apply replaceAfter_same
  intro t later q x r g whole _ reads
  exact none_ (inside later whole (blockLink_hasAddress reads))

theorem anchor_found {p : Pat} {a : UInt8} {x rest : Text} {g : Groups UInt8}
    (starts : ∀ prev x r g, Reads p prev x r g → x.head? = some a)
    (reads : Reads p prev x rest g) :
    ∃ later, p.replaceAfter anchor prev (x ++ rest) = 0x3C :: later := by
  obtain ⟨m, rest', whole, taken, found⟩ := reads_found reads fun r h empty => by
    have := starts prev [] r h empty
    contradiction
  rw [whole, replaceAfter_hit taken found, anchor, renderLink_eq]
  exact ⟨_, rfl⟩

def GoesOn (tail : Text) : Prop :=
  ∃ href text rest, IsAddress href ∧ IsLinkText text ∧ tail = href ++ (text ++ 0x7D :: rest)

theorem inlineLink_put (prev : Option UInt8) {tail : Text} (oneLine : 0x0A ∉ tail)
    (goesOn : GoesOn tail) :
    ∃ later, inlineLinkPattern.replaceAfter anchor prev (ofString "\x7b@link" ++ 0x20 :: tail)
      = 0x3C :: later := by
  obtain ⟨href, text, rest, address, isText, rfl⟩ := goesOn
  rw [List.mem_append, not_or] at oneLine
  obtain ⟨g, reads⟩ := inlineLink_reads_of prev rest address oneLine.1 isText
  have same : ofString "\x7b@link" ++ 0x20 :: (href ++ (text ++ 0x7D :: rest))
      = (ofString "\x7b@link" ++ ([0x20] ++ (href ++ (text ++ [0x7D])))) ++ rest := by
    simp only [List.append_assoc, List.cons_append, List.nil_append]
  rw [same]
  exact anchor_found inlineLink_starts reads

theorem inlineLink_keeps (prev : Option UInt8) {tail : Text} (stops : ¬ GoesOn tail) :
    inlineLinkPattern.replaceAfter anchor prev (ofString "\x7b@link" ++ 0x20 :: tail)
      = ofString "\x7b@link" ++ 0x20 :: tail := by
  apply replaceAfter_same
  rintro t ⟨front, begins⟩ q x r g whole - reads
  obtain ⟨lead, href, text, rfl, -, address, isText, -⟩ := inlineLink_reads reads
  have far : IsAddress (front ++ (ofString "\x7b@link" ++ (lead ++ href))) :=
    address_append _ (address_append _ (address_append _ address))
  have brace : ofString "\x7d" = [0x7D] := rfl
  have same : (ofString "\x7b@link" ++ [0x20]) ++ tail
      = (front ++ (ofString "\x7b@link" ++ (lead ++ href))) ++ (text ++ 0x7D :: r) := by
    rw [List.append_assoc, List.singleton_append, ← begins, whole, brace]
    simp only [List.append_assoc, List.cons_append, List.nil_append]
  obtain ⟨href', address', whole'⟩ := address_after (by decide) far same
  exact stops ⟨href', text, r, address', isText, whole'⟩

theorem blockLink_put (prev : Option UInt8) {tail : Text} (oneLine : 0x0A ∉ tail)
    (found : HasAddress tail) :
    ∃ later, blockLinkPattern.replaceAfter anchor prev (ofString "\x7b@link" ++ 0x20 :: tail)
      = 0x7B :: 0x3C :: later := by
  obtain ⟨href, rest, rfl, address⟩ := hasAddress_prefix found
  rw [List.mem_append, not_or] at oneLine
  obtain ⟨g, reads⟩ := blockLink_reads_of (some 0x7B) rest address oneLine.1
  obtain ⟨later, put⟩ := anchor_found blockLink_starts reads
  have same : ofString "\x7b@link" ++ 0x20 :: (href ++ rest)
      = [0x7B] ++ ((ofString "@link" ++ ([0x20] ++ (href ++ []))) ++ rest) := by
    have bytes : ofString "\x7b@link" = 0x7B :: ofString "@link" := rfl
    rw [bytes]
    simp only [List.append_assoc, List.cons_append, List.nil_append]
  rw [same, replaceAfter_free blockLink_starts (by decide)]
  exact ⟨later, congrArg (0x7B :: ·) put⟩

theorem linked_property_clash {word back : Text} (wordly : ∀ b ∈ word, isWordByte b = true)
    (oneLine : 0x0A ∉ back) (found : HasAddress back) :
    ∃ later, linked prev prev' ((Segment.property word).marked ++ back) = 0x3C :: later ∨
      linked prev prev' ((Segment.property word).marked ++ back) = 0x7B :: 0x3C :: later := by
  let tail : Text := 0x24 :: (word ++ 0x7D :: back)
  have split : (Segment.property word).marked ++ back = ofString "\x7b@link" ++ 0x20 :: tail := by
    have bytes : ofString "\x7b@link $" = ofString "\x7b@link" ++ [0x20, 0x24] := rfl
    have brace : ofString "\x7d" = [0x7D] := rfl
    simp only [Segment.marked, bytes, brace, tail, List.append_assoc, List.cons_append,
      List.nil_append]
  have free : 0x0A ∉ tail := by
    have inWord : 0x0A ∉ word := not_mem_of_all wordly (by decide)
    simp [tail, inWord, oneLine]
  have behind : HasAddress tail := by
    have inside : back <:+ tail :=
      (List.suffix_cons 0x7D back).trans ((List.suffix_append word _).trans (List.suffix_cons _ _))
    exact hasAddress_mono inside.isInfix found
  rw [split, linked]
  by_cases goesOn : GoesOn tail
  · obtain ⟨later, put⟩ := inlineLink_put prev free goesOn
    have copied : blockLinkPattern.replaceAfter anchor prev' ([0x3C] ++ later)
        = [0x3C] ++ blockLinkPattern.replaceAfter anchor (some 0x3C) later :=
      replaceAfter_free blockLink_starts (by decide)
    rw [put]
    exact ⟨_, .inl copied⟩
  · obtain ⟨later, put⟩ := blockLink_put prev' free behind
    rw [inlineLink_keeps prev goesOn]
    exact ⟨later, .inr put⟩

theorem not_mem_line {segs : List Segment} (wellFormed : ∀ s ∈ segs, s.WellFormed) {b : UInt8}
    (control : b = 0x5C ∨ b = 0x0A) :
    b ∉ segs.flatMap Segment.source ∧ b ∉ segs.flatMap Segment.marked := by
  have other : isPlainByte b = false ∧ isWordByte b = false ∧ (isUrlByte b || b == 0x3A) = false ∧
      b ∉ ofString "\x7b@link " ∧ b ∉ ofString "\x7b@link $" ∧ b ∉ ofString " " ∧
      b ∉ ofString "\x7d" := by
    rcases control with rfl | rfl <;> decide
  obtain ⟨notPlain, notWord, notUrl, command, sigil, blank, brace⟩ := other
  have each : ∀ s ∈ segs, b ∉ s.source ∧ b ∉ s.marked := by
    intro s inside
    have here := wellFormed s inside
    cases s with
    | plain text => exact ⟨not_mem_of_all here notPlain, not_mem_of_all here notPlain⟩
    | property word =>
      have free : b ∉ word := not_mem_of_all here.2 notWord
      simp only [Segment.source, Segment.marked, List.mem_append, command, sigil, free, brace,
        or_self, not_false_eq_true, and_self]
    | bare url =>
      have free : b ∉ url := not_mem_isUrl here notUrl
      simp only [Segment.source, Segment.marked, List.mem_append, command, free, brace,
        or_self, not_false_eq_true, and_self]
    | labelled url label =>
      have free : b ∉ url := not_mem_isUrl here.1 notUrl
      have free' : b ∉ label := not_mem_of_all here.2.2.2 notPlain
      simp only [Segment.source, Segment.marked, List.mem_append, command, free, free', blank,
        brace, or_self, not_false_eq_true, and_self]
  simp only [List.mem_flatMap, not_exists, not_and]
  exact ⟨fun s inside => (each s inside).1, fun s inside => (each s inside).2⟩

theorem brace_mem_iff {segs : List Segment} (wellFormed : ∀ s ∈ segs, s.WellFormed) :
    0x7D ∉ segs.flatMap Segment.marked ↔ ∀ s ∈ segs, s.IsPlain := by
  simp only [List.mem_flatMap, not_exists, not_and]
  refine forall_congr' fun s => forall_congr' fun inside => ?_
  have here := wellFormed s inside
  have brace : 0x7D ∈ ofString "\x7d" := by decide
  cases s with
  | plain text =>
    have free : 0x7D ∉ text := not_mem_of_all here (by decide)
    exact ⟨fun _ => ⟨text, rfl⟩, fun _ => free⟩
  | property word | bare url | labelled url label =>
    simp [Segment.IsPlain, Segment.marked, Segment.source, brace]

theorem apart_of_plain {segs : List Segment} (plain : ∀ s ∈ segs, s.IsPlain) : Apart segs := by
  induction segs with
  | nil => trivial
  | cons s back ih =>
    obtain ⟨text, rfl⟩ := plain s List.mem_cons_self
    exact ih fun t inside => plain t (List.mem_cons_of_mem _ inside)

theorem hasAddress_link {url : Text} (isUrl : IsUrl url) (more : Text) :
    HasAddress (ofString "\x7b@link " ++ (url ++ more)) :=
  ⟨url, isAddress_of_isUrl isUrl, ofString "\x7b@link ", more, List.append_assoc _ _ _⟩

theorem apart_of_none {segs : List Segment} (wellFormed : ∀ s ∈ segs, s.WellFormed)
    (none_ : ¬ HasAddress (segs.flatMap Segment.source)) :
    Apart segs ∧ segs.flatMap Segment.marked = segs.flatMap Segment.rendered := by
  induction segs with
  | nil => exact ⟨trivial, rfl⟩
  | cons s back ih =>
    obtain ⟨here, later⟩ := List.forall_mem_cons.mp wellFormed
    rw [List.flatMap_cons] at none_
    have first : ¬ HasAddress s.source :=
      fun found => none_ (hasAddress_mono (List.prefix_append _ _).isInfix found)
    have behind : ¬ HasAddress (back.flatMap Segment.source) :=
      fun found => none_ (hasAddress_mono (List.suffix_append _ _).isInfix found)
    obtain ⟨apart, same⟩ := ih later behind
    rw [List.flatMap_cons, List.flatMap_cons, same]
    cases s with
    | plain text => exact ⟨apart, rfl⟩
    | property word => exact ⟨⟨behind, apart⟩, rfl⟩
    | bare url => exact absurd (hasAddress_link here _) first
    | labelled url label => exact absurd (hasAddress_link here.1 _) first

theorem hasAddress_property {word : Text} {back : List Segment}
    (wordly : ∀ b ∈ word, isWordByte b = true)
    (found : HasAddress ((Segment.property word).marked ++ back.flatMap Segment.marked)) :
    HasAddress (back.flatMap Segment.source) := by
  have unmarked := (hasAddress_marked (.property word :: back) []).mp found
  have colon : 0x3A ∉ ofString "\x7b@link " ++ word := by
    rw [List.mem_append, not_or]
    exact ⟨by decide, not_mem_of_all wordly (by decide)⟩
  have split : [] ++ (.property word :: back).flatMap Segment.source
      = (ofString "\x7b@link " ++ word) ++ 0x7D :: back.flatMap Segment.source := by
    have brace : ofString "\x7d" = [0x7D] := rfl
    simp only [List.flatMap_cons, Segment.source, brace, List.append_assoc, List.cons_append,
      List.nil_append]
  rw [split, hasAddress_break (by decide)] at unmarked
  exact unmarked.resolve_left (not_hasAddress colon)

theorem linked_property_iff {word : Text} {back : List Segment}
    (wordly : ∀ b ∈ word, isWordByte b = true) (wellFormed : ∀ s ∈ back, s.WellFormed) :
    linked prev prev' ((Segment.property word).marked ++ back.flatMap Segment.marked)
      = (Segment.property word).rendered ++ back.flatMap Segment.rendered ↔
        Apart (.property word :: back) := by
  by_cases address : HasAddress (back.flatMap Segment.source)
  · refine iff_of_false ?_ fun apart => apart.1 address
    have found := (hasAddress_marked back []).mpr address
    intro same
    obtain ⟨y, clash | clash⟩ :=
      linked_property_clash wordly (not_mem_line wellFormed (.inr rfl)).2 found
    · rw [clash] at same
      cases same
    · rw [clash] at same
      cases same
  · obtain ⟨apart, same⟩ := apart_of_none wellFormed address
    have none_ : ¬ HasAddress ((Segment.property word).marked ++ back.flatMap Segment.marked) :=
      fun found => address (hasAddress_property wordly found)
    refine iff_of_true ?_ ⟨address, apart⟩
    rw [linked_same none_, same]
    rfl

theorem linked_labelled_iff {url label : Text} {back : List Segment}
    (here : (Segment.labelled url label).WellFormed) (wellFormed : ∀ s ∈ back, s.WellFormed)
    (later : ∀ q q', Apart back →
      linked q q' (back.flatMap Segment.marked) = back.flatMap Segment.rendered) :
    linked prev prev' ((Segment.labelled url label).marked ++ back.flatMap Segment.marked)
      = (Segment.labelled url label).rendered ++ back.flatMap Segment.rendered ↔
        Apart (.labelled url label :: back) := by
  by_cases plain : ∀ s ∈ back, s.IsPlain
  · obtain ⟨q, q', step⟩ := linked_labelled here ((brace_mem_iff wellFormed).mpr plain)
    refine iff_of_true ?_ plain
    rw [step, later q q' (apart_of_plain plain)]
  · refine iff_of_false ?_ plain
    have brace : 0x7D ∈ back.flatMap Segment.marked :=
      Decidable.of_not_not fun free => plain ((brace_mem_iff wellFormed).mp free)
    have oneLine := (not_mem_line wellFormed (.inr rfl)).2
    obtain ⟨mid, rest, split, last⟩ := split_last brace
    rw [split, List.mem_append, not_or] at oneLine
    intro same
    obtain ⟨y, clash⟩ := linked_labelled_clash here oneLine.1 last
    rw [split, clash] at same
    simp only [Segment.rendered, link, List.append_assoc, List.append_cancel_left_eq] at same
    cases same

/-- Of the links that are marked each becomes what it stands for exactly if they stand apart. -/
theorem linked_line_iff {segs : List Segment} (wellFormed : ∀ s ∈ segs, s.WellFormed)
    (prev prev' : Option UInt8) :
    linked prev prev' (segs.flatMap Segment.marked) = segs.flatMap Segment.rendered ↔
      Apart segs := by
  induction segs generalizing prev prev' with
  | nil =>
    have empty : linked prev prev' [] = [] := by rw [linked, replaceAfter_nil, replaceAfter_nil]
    exact iff_of_true empty trivial
  | cons s back ih =>
    obtain ⟨here, later⟩ := List.forall_mem_cons.mp wellFormed
    rw [List.flatMap_cons, List.flatMap_cons]
    cases s with
    | plain text =>
      obtain ⟨q, q', step⟩ := linked_plain here (back.flatMap Segment.marked)
      rw [step, List.append_cancel_left_eq]
      exact ih later q q'
    | bare url =>
      obtain ⟨q, q', step⟩ := linked_bare here (back.flatMap Segment.marked)
      rw [step, List.append_cancel_left_eq]
      exact ih later q q'
    | property word => exact linked_property_iff here.2 later
    | labelled url label => exact linked_labelled_iff here later fun q q' => (ih later q q').mpr

end DocBridge.Rule

namespace DocBridge.Dialect

open Text Rule

/-- The common rules treat the segments of a line one by one exactly if they stand apart. -/
theorem commonRules_line_iff {segs : List Segment} (wellFormed : ∀ s ∈ segs, s.WellFormed) :
    applyRules commonRules (segs.flatMap Segment.source) = segs.flatMap Segment.rendered ↔
      Apart segs := by
  have free := (not_mem_line wellFormed (.inl rfl)).1
  have marked : beforeLinks (segs.flatMap Segment.source) = segs.flatMap Segment.marked := by
    rw [beforeLinks, namespaceSeparators_same free, propertyLinks_eq, properties_marked wellFormed]
  rw [commonRules_eq, marked]
  exact linked_line_iff wellFormed none none

theorem isUrl_http (host : Text) (some_ : host ≠ []) (all : host.all isUrlByte = true) :
    IsUrl (ofString "http" ++ (ofString "://" ++ host)) :=
  ⟨ofString "http", host, rfl, List.all_eq_true.mp (by decide), some_, List.all_eq_true.mp all⟩

theorem wellFormed_labelled {url label : Text} (isUrl : IsUrl url) (some_ : label ≠ [])
    (trimmed : Utf8.trimWhite label = label) (plain : label.all isPlainByte = true) :
    (Segment.labelled url label).WellFormed :=
  ⟨isUrl, some_, trimmed, List.all_eq_true.mp plain⟩

theorem wellFormed_plain {text : Text} (plain : text.all isPlainByte = true) :
    (Segment.plain text).WellFormed :=
  List.all_eq_true.mp plain

theorem bare_before_labelled :
    let segs : List Segment := [.plain " * ", .bare "http://a.example", .plain " and ",
      .labelled "http://b.example" "b", .plain "."]
    (∀ s ∈ segs, s.WellFormed) ∧ Apart segs ∧
      applyRules commonRules (segs.flatMap Segment.source) = segs.flatMap Segment.rendered := by
  intro segs
  have isUrlA : IsUrl "http://a.example" := isUrl_http "a.example" (by decide) (by decide)
  have isUrlB : IsUrl "http://b.example" := isUrl_http "b.example" (by decide) (by decide)
  have wellFormed : ∀ s ∈ segs, s.WellFormed := by
    simp only [segs, List.forall_mem_cons, List.not_mem_nil, false_implies, implies_true, and_true]
    exact ⟨wellFormed_plain (by decide), isUrlA, wellFormed_plain (by decide),
      wellFormed_labelled isUrlB (by decide) (by decide) (by decide), wellFormed_plain (by decide)⟩
  have apart : Apart segs := by
    intro s inside
    exact ⟨_, List.mem_singleton.mp inside⟩
  exact ⟨wellFormed, apart, (commonRules_line_iff wellFormed).mpr apart⟩

theorem labelled_takes_labelled :
    let segs : List Segment := [.labelled "http://a.example" "x", .plain " and ",
      .labelled "http://b.example" "y"]
    (∀ s ∈ segs, s.WellFormed) ∧
      applyRules commonRules (segs.flatMap Segment.source) =
        "<a href=\"http://a.example\">x\x7d and \x7b<a href=\"http://b.example\">y</a></a>" ∧
      segs.flatMap Segment.rendered =
        "<a href=\"http://a.example\">x</a> and <a href=\"http://b.example\">y</a>" := by
  intro segs
  have isUrlA : IsUrl "http://a.example" := isUrl_http "a.example" (by decide) (by decide)
  have isUrlB : IsUrl "http://b.example" := isUrl_http "b.example" (by decide) (by decide)
  have wellFormed : ∀ s ∈ segs, s.WellFormed := by
    simp only [segs, List.forall_mem_cons, List.not_mem_nil, false_implies, implies_true, and_true]
    exact ⟨wellFormed_labelled isUrlA (by decide) (by decide) (by decide),
      wellFormed_plain (by decide),
      wellFormed_labelled isUrlB (by decide) (by decide) (by decide)⟩
  exact ⟨wellFormed, by decide +kernel, by decide +kernel⟩

end DocBridge.Dialect
