import DocBridge.Proofs.Comment.Links
import DocBridge.Proofs.Pattern.Preference

/-
Which stretch an inline link takes. Its address is as short as can be and its text as long as can
be: a link with a text runs on to the last closing brace of the line.
-/
namespace DocBridge.Rule

open Text Pattern Place

def IsUrl (u : Text) : Prop :=
  ∃ scheme path, u = scheme ++ (ofString "://" ++ path) ∧ (∀ b ∈ scheme, isLetter b = true) ∧
    path ≠ [] ∧ ∀ b ∈ path, isUrlByte b = true

theorem isAddress_of_isUrl {u : Text} (isUrl : IsUrl u) : IsAddress u := by
  obtain ⟨scheme, path, rfl, -, some_, all⟩ := isUrl
  exact ⟨scheme, path, rfl, some_, all⟩

theorem isUrl_all {u : Text} (isUrl : IsUrl u) :
    ∀ b ∈ u, (isUrlByte b || b == 0x3A) = true := by
  obtain ⟨scheme, path, rfl, letters, -, all⟩ := isUrl
  have marks : ∀ b ∈ ofString "://", (isUrlByte b || b == 0x3A) = true :=
    List.all_eq_true.mp (by decide)
  intro b member
  rw [List.mem_append, List.mem_append] at member
  rcases member with early | mid | late
  · simp [isUrlByte, isWordByte, letters b early]
  · exact marks b mid
  · simp [all b late]

theorem not_mem_isUrl {u : Text} (isUrl : IsUrl u) {b : UInt8}
    (outside : (isUrlByte b || b == 0x3A) = false) : b ∉ u :=
  not_mem_of_all (isUrl_all isUrl) outside

theorem notGap_of_urlByte {b : UInt8} (urlByte : isUrlByte b = true) : isGap b = false := by
  cases gap : isGap b with
  | false => rfl
  | true =>
    simp only [isGap, isSpace, Bool.or_eq_true, beq_iff_eq] at gap
    rcases gap with (((rfl | rfl) | rfl) | rfl) | rfl <;> contradiction

theorem isUrl_head {u : Text} (isUrl : IsUrl u) (rest : Text) :
    ∀ b ∈ (u ++ rest).head?, isGap b = false := by
  have all := isUrl_all isUrl
  intro b first
  cases u with
  | nil =>
    obtain ⟨scheme, path, whole, -⟩ := isUrl
    cases scheme <;> cases whole
  | cons c u =>
    obtain rfl : c = b := Option.some.inj first
    have either := all c List.mem_cons_self
    rw [Bool.or_eq_true, beq_iff_eq] at either
    rcases either with urlByte | rfl
    · exact notGap_of_urlByte urlByte
    · decide

def afterUrl : Pat := .seq linkText (lit "\x7d")

section Ways

variable {full u text rest : Text} {s : Place UInt8} {k : Place UInt8 → Option (Place UInt8)}

theorem takes_gap (here : s.Within full) (split : s.rest = 0x20 :: rest)
    (stop : ∀ b ∈ rest.head?, isGap b = false)
    (goes : ∀ t : Place UInt8, t.Within full → t.rest = rest → k t ≠ none) :
    ∃ t, Takes full gaps k s t [0x20] [] ∧ t.rest = rest := by
  obtain ⟨t, first⟩ := takes_one (f := isGap) (k := run (.star true (.one isGap)) k) here split
    (by decide)
  have after : t.rest = [] ++ rest := leads_rest (x := [0x20]) first.lead split
  obtain ⟨v, more⟩ : ∃ v, Takes full (.star true (.one isGap)) k t v [] [] := by
    apply takes_greedy first.lead.within after
    · simp
    · intro y z v longer some_ gap _
      cases y with
      | nil => contradiction
      | cons b y =>
        have refused := stop b (by rw [longer]; rfl)
        rw [gap b List.mem_cons_self] at refused
        contradiction
    · intro v lead
      exact goes v lead.within (leads_rest lead after)
  have way := takes_seq first more
  exact ⟨v, way, leads_rest (x := [0x20]) way.lead split⟩

/-- The address of an inline link stops where the pattern goes on. -/
theorem takes_url (here : s.Within full) (split : s.rest = u ++ rest) (isUrl : IsUrl u)
    (stuck : ∀ (t : Place UInt8) (b : UInt8) (after : Text), t.rest = b :: after →
      isUrlByte b = true → k t = none)
    (goes : ∀ t : Place UInt8, t.Within full → t.rest = rest → k t ≠ none) :
    ∃ t, Takes full (url false) k s t u [(1, u)] ∧ t.rest = rest := by
  obtain ⟨scheme, path, rfl, letters, some_, all⟩ := isUrl
  obtain ⟨b, path, rfl⟩ := List.exists_cons_of_ne_nil some_
  let inner : Place UInt8 → Option (Place UInt8) :=
    fun t => k { t with groups := (1, s.pos, t.pos) :: t.groups }
  have pathWay (t : Place UInt8) (within : t.Within full) (next : t.rest = b :: path ++ rest) :
      ∃ v, Takes full (plus false (.one isUrlByte)) inner t v (b :: path) [] := by
    obtain ⟨v, first⟩ := takes_one (f := isUrlByte)
      (k := run (.star false (.one isUrlByte)) inner) within next (all b List.mem_cons_self)
    have after : v.rest = path ++ rest := leads_rest (x := [b]) first.lead next
    obtain ⟨w, more⟩ : ∃ w, Takes full (.star false (.one isUrlByte)) inner v w path [] := by
      apply takes_lazy first.lead.within after
      · exact fun c member => all c (List.mem_cons_of_mem b member)
      · intro y z w parts some_ further
        obtain ⟨c, z, rfl⟩ := List.exists_cons_of_ne_nil some_
        exact stuck _ c (z ++ rest) further (all c (by simp [parts]))
      · intro w lead
        have stop := leads_rest lead after
        exact goes _ lead.within stop
    exact ⟨w, takes_seq first more⟩
  have marksWay (t : Place UInt8) (within : t.Within full)
      (next : t.rest = (ofString "://" ++ b :: path) ++ rest) :
      ∃ v, Takes full (.seq (lit "://") (plus false (.one isUrlByte))) inner t v
        (ofString "://" ++ b :: path) [] := by
    rw [List.append_assoc] at next
    obtain ⟨v, first⟩ := takes_word (k := run (plus false (.one isUrlByte)) inner) within next
    obtain ⟨w, more⟩ := pathWay v first.lead.within (leads_rest first.lead next)
    exact ⟨w, takes_seq first more⟩
  rw [List.append_assoc] at split
  obtain ⟨t, first⟩ : ∃ t, Takes full (.star false (.one notNewline))
      (run (.seq (lit "://") (plus false (.one isUrlByte))) inner) s t scheme [] := by
    apply takes_lazy here split
    · exact notNewline_iff.mpr (not_mem_of_all letters (by decide))
    · intro y z t parts some_ further
      obtain ⟨c, z, rfl⟩ := List.exists_cons_of_ne_nil some_
      have letter := letters c (by simp [parts])
      have other : (c == 0x3A) = false := by
        rw [beq_eq_false_iff_ne]
        rintro rfl
        contradiction
      have marks : lit "://"
          = .seq (.one (· == 0x3A)) (.seq (.one (· == 0x2F)) (.one (· == 0x2F))) := rfl
      simp [marks, run, further, other]
    · intro t lead
      obtain ⟨v, way⟩ := marksWay t lead.within (leads_rest lead split)
      have stop := leads_rest way.lead (leads_rest lead split)
      rw [way.taken]
      exact goes _ way.lead.within stop
  obtain ⟨v, more⟩ := marksWay t first.lead.within (leads_rest first.lead split)
  obtain ⟨w, way, same⟩ := takes_group (k := k) 1 here (takes_seq first more)
  exact ⟨w, way, same.trans (leads_rest more.lead (leads_rest first.lead split))⟩

theorem afterUrl_stuck {b : UInt8} {after : Text} (next : s.rest = b :: after)
    (urlByte : isUrlByte b = true) : run afterUrl k s = none := by
  have other : (b == 0x7D) = false := by
    rw [beq_eq_false_iff_ne]
    rintro rfl
    contradiction
  have brace : lit "\x7d" = .one (· == 0x7D) := rfl
  simp [afterUrl, linkText, opt, brace, run, next, notGap_of_urlByte urlByte, other]

theorem takes_line {b stop : UInt8} {line : Text} (here : s.Within full)
    (split : s.rest = (b :: line) ++ stop :: rest) (gap : isGap b = true)
    (oneLine : ∀ c ∈ line, notNewline c = true) (last : stop ∉ rest)
    (stuck : ∀ t : Place UInt8, t.rest.head? ≠ some stop → k t = none)
    (goes : ∀ t : Place UInt8, t.Within full → t.rest = stop :: rest → k t ≠ none) :
    ∃ t, Takes full (.seq (.one isGap) (.group 3 dots)) k s t (b :: line) [(3, line)] ∧
      t.rest = stop :: rest := by
  obtain ⟨t, first⟩ := takes_one (f := isGap) (k := run (.group 3 dots) k) here split gap
  have after : t.rest = line ++ stop :: rest := leads_rest (x := [b]) first.lead split
  let inner : Place UInt8 → Option (Place UInt8) :=
    fun v => k { v with groups := (3, t.pos, v.pos) :: v.groups }
  obtain ⟨v, more⟩ : ∃ v, Takes full dots inner t v line [] := by
    apply takes_greedy first.lead.within after oneLine
    · intro y z v longer some_ _ further
      obtain ⟨c, y, rfl⟩ := List.exists_cons_of_ne_nil some_
      cases longer
      apply stuck
      intro head
      apply last
      rw [← further]
      exact List.mem_append_right _ (List.mem_of_head? head)
    · intro v lead
      have next := leads_rest lead after
      exact goes _ lead.within next
  obtain ⟨w, way, same⟩ := takes_group (k := k) 3 first.lead.within more
  exact ⟨w, takes_seq first way, same.trans (leads_rest more.lead after)⟩

theorem takes_afterUrl (here : s.Within full) (split : s.rest = text ++ 0x7D :: rest)
    (isText : IsLinkText text) (last : text = [] ∨ 0x7D ∉ rest) :
    ∃ t g, Takes full afterUrl some s t (text ++ [0x7D]) g ∧ g.lookup 1 = none ∧
      (g.lookup 2).getD [] = text := by
  have closing (t : Place UInt8) (within : t.Within full) (next : t.rest = 0x7D :: rest) :
      ∃ v, Takes full (lit "\x7d") some t v [0x7D] [] :=
    takes_word within next
  have goes (t : Place UInt8) (within : t.Within full) (next : t.rest = 0x7D :: rest) :
      run (lit "\x7d") some t ≠ none := by
    obtain ⟨v, way⟩ := closing t within next
    rw [way.taken]
    exact Option.some_ne_none v
  rcases isText with rfl | ⟨b, line, rfl, gap, oneLine⟩
  · obtain ⟨t, way⟩ := closing s here split
    have next : s.rest = 0x7D :: rest := split
    have out : run (.group 2 (.seq (.one isGap) (.group 3 dots))) (run (lit "\x7d") some) s
        = none := by
      have stop : isGap 0x7D = false := by decide
      simp [run, next, stop]
    exact ⟨t, [], takes_seq (takes_opt_out here out) way, rfl, rfl⟩
  · have stuck (t : Place UInt8) (other : t.rest.head? ≠ some 0x7D) :
        run (lit "\x7d") some t = none := by
      have brace : lit "\x7d" = .one (· == 0x7D) := rfl
      cases next : t.rest with
      | nil => simp [brace, run, next]
      | cons c after =>
        rw [next] at other
        simpa [brace, run, next] using other
    obtain ⟨t, inner, next⟩ := takes_line
      (k := fun t => run (lit "\x7d") some { t with groups := (2, s.pos, t.pos) :: t.groups })
      here split gap oneLine (last.resolve_left (by simp)) (fun t other => stuck _ other)
      (fun t within next => goes _ within next)
    obtain ⟨v, held, same⟩ := takes_group 2 here inner
    have next' := same.trans next
    obtain ⟨w, way⟩ := closing v held.lead.within next'
    exact ⟨w, _, takes_seq (takes_opt held (goes v held.lead.within next')) way, rfl, rfl⟩

end Ways

/-- What is found at an inline link: its address, and all of its line up to the last brace. -/
theorem inlineLink_found (prev : Option UInt8) {u text rest : Text} (isUrl : IsUrl u)
    (isText : IsLinkText text) (last : text = [] ∨ 0x7D ∉ rest) :
    ∃ m, inlineLinkPattern.matchAt? prev (m.text ++ rest) = some m ∧
      m.text = ofString "\x7b@link " ++ (u ++ (text ++ [0x7D])) ∧ m.group 1 = u ∧
      m.group 2 = text := by
  let whole : Text := ofString "\x7b@link" ++ (0x20 :: (u ++ (text ++ 0x7D :: rest)))
  have here := start_within prev whole
  have after (t : Place UInt8) (within : t.Within whole) (next : t.rest = text ++ 0x7D :: rest) :
      run afterUrl some t ≠ none := by
    obtain ⟨v, _, way, -⟩ := takes_afterUrl within next isText last
    rw [way.taken]
    exact Option.some_ne_none v
  have address (t : Place UInt8) (within : t.Within whole)
      (next : t.rest = u ++ (text ++ 0x7D :: rest)) :
      ∃ v, Takes whole (url false) (run afterUrl some) t v u [(1, u)] ∧
        v.rest = text ++ 0x7D :: rest :=
    takes_url within next isUrl (fun t b _ next => afterUrl_stuck next) after
  obtain ⟨s₁, command⟩ := takes_word (k := run (.seq gaps (.seq (url false) afterUrl)) some)
    here rfl
  obtain ⟨s₂, gap, next₂⟩ := takes_gap (k := run (.seq (url false) afterUrl) some)
    command.lead.within (leads_rest command.lead rfl) (isUrl_head isUrl _) fun t within next => by
      obtain ⟨v, way, next'⟩ := address t within next
      rw [run, way.taken]
      exact after v way.lead.within next'
  obtain ⟨s₃, shown, next₃⟩ := address s₂ gap.lead.within next₂
  obtain ⟨s₄, g, tail, one, two⟩ := takes_afterUrl shown.lead.within next₃ isText last
  have way := takes_seq command (takes_seq gap (takes_seq shown tail))
  rw [List.append_nil, List.append_nil] at way
  refine ⟨⟨ofString "\x7b@link " ++ (u ++ (text ++ [0x7D])), g ++ [(1, u)]⟩, ?_, rfl, ?_, ?_⟩
  · have split : (ofString "\x7b@link " ++ (u ++ (text ++ [0x7D]))) ++ rest = whole := by
      simp only [List.append_assoc, List.singleton_append]
      rfl
    rw [split]
    exact matchAt_takes way
  · simp [Match.group, List.lookup_append, one]
  · have other : List.lookup 2 [(1, u)] = none := rfl
    simpa [Match.group, List.lookup_append, other] using two

def HasAddress (s : Text) : Prop := ∃ href, IsAddress href ∧ href <:+: s

theorem hasAddress_mono {s t : Text} (inside : s <:+: t) (found : HasAddress s) : HasAddress t := by
  obtain ⟨href, address, inner⟩ := found
  exact ⟨href, address, inner.trans inside⟩

theorem hasAddress_prefix {s : Text} (found : HasAddress s) :
    ∃ href rest, s = href ++ rest ∧ IsAddress href := by
  obtain ⟨href, address, front, rest, rfl⟩ := found
  exact ⟨front ++ href, rest, rfl, address_append front address⟩

theorem isAddress_colon {href : Text} (address : IsAddress href) : 0x3A ∈ href := by
  obtain ⟨scheme, path, rfl, -⟩ := address
  have colon : 0x3A ∈ ofString "://" := by decide
  simp only [List.mem_append, colon, true_or, or_true]

theorem not_hasAddress {s : Text} (free : 0x3A ∉ s) : ¬ HasAddress s := by
  rintro ⟨href, address, inside⟩
  exact free (inside.subset (isAddress_colon address))

theorem hasAddress_break {b : UInt8} (outside : (isUrlByte b || b == 0x3A) = false) (s t : Text) :
    HasAddress (s ++ b :: t) ↔ HasAddress s ∨ HasAddress t := by
  constructor
  · rintro ⟨href, ⟨scheme, path, rfl, some_, all⟩, inside⟩
    have marks : ∀ c ∈ ofString "://", (isUrlByte c || c == 0x3A) = true :=
      List.all_eq_true.mp (by decide)
    have free : b ∉ ofString "://" ++ path := by
      rw [List.mem_append, not_or]
      exact ⟨not_mem_of_all marks outside, not_mem_of_all all (Bool.or_eq_false_iff.mp outside).1⟩
    have shorter : IsAddress (ofString "://" ++ path) := ⟨[], path, rfl, some_, all⟩
    have inner := (List.suffix_append scheme (ofString "://" ++ path)).isInfix.trans inside
    exact (infix_break free inner).imp (⟨_, shorter, ·⟩) (⟨_, shorter, ·⟩)
  · rintro (before | behind)
    · exact hasAddress_mono (List.prefix_append s (b :: t)).isInfix before
    · have later : t <:+ s ++ b :: t := (List.suffix_cons b t).trans (List.suffix_append s (b :: t))
      exact hasAddress_mono later.isInfix behind

theorem address_drop {front href : Text} (free : 0x3A ∉ front)
    (address : IsAddress (front ++ href)) : IsAddress href := by
  obtain ⟨scheme, path, whole, some_, all⟩ := address
  rcases List.append_eq_append_iff.mp whole with ⟨scheme', rfl, rfl⟩ | ⟨w, rfl, marks⟩
  · exact ⟨scheme', path, rfl, some_, all⟩
  · cases w with
    | nil => exact ⟨[], path, by simpa using marks.symm, some_, all⟩
    | cons b w =>
      have colon : b = 0x3A := (List.cons.inj marks).1.symm
      simp [colon] at free

theorem address_after {front s href rest : Text} (free : 0x3A ∉ front) (address : IsAddress href)
    (whole : front ++ s = href ++ rest) : ∃ href', IsAddress href' ∧ s = href' ++ rest := by
  rcases List.append_eq_append_iff.mp whole with ⟨href', rfl, rfl⟩ | ⟨w, rfl, -⟩
  · exact ⟨href', address_drop free address, rfl⟩
  · exact absurd (List.mem_append_left w (isAddress_colon address)) free

theorem inlineLink_starts (prev : Option UInt8) (x r : Text) (g : Groups UInt8)
    (reads : Reads inlineLinkPattern prev x r g) : x.head? = some 0x7B := by
  obtain ⟨_, _, _, rfl, -⟩ := inlineLink_reads reads
  rfl

theorem blockLink_starts (prev : Option UInt8) (x r : Text) (g : Groups UInt8)
    (reads : Reads blockLinkPattern prev x r g) : x.head? = some 0x40 := by
  obtain ⟨_, _, _, rfl, -⟩ := blockLink_reads reads
  rfl

theorem url_reads_of {greedy : Bool} {prev : Option UInt8} {href rest : Text}
    (address : IsAddress href) (oneLine : 0x0A ∉ href) :
    Reads (url greedy) prev href rest [(1, href)] := by
  obtain ⟨scheme, path, rfl, some_, all⟩ := address
  rw [List.mem_append, not_or] at oneLine
  exact reads_held 1 (reads_then (reads_star_one.mpr ⟨notNewline_iff.mpr oneLine.1, rfl⟩)
    (reads_then (reads_literal (ofString "://") _ _) (reads_plus_one.mpr ⟨some_, all, rfl⟩)))

theorem gap_reads (prev : Option UInt8) (rest : Text) : Reads gaps prev [0x20] rest [] :=
  reads_plus_one.mpr ⟨by simp, List.all_eq_true.mp (by decide), rfl⟩

theorem inlineLink_reads_of (prev : Option UInt8) {href text : Text} (rest : Text)
    (address : IsAddress href) (oneLine : 0x0A ∉ href) (isText : IsLinkText text) :
    ∃ g, Reads inlineLinkPattern prev
      (ofString "\x7b@link" ++ ([0x20] ++ (href ++ (text ++ [0x7D])))) rest g := by
  have shown (prev : Option UInt8) (rest : Text) : ∃ g, Reads linkText prev text rest g := by
    simp only [linkText, reads_opt]
    rcases isText with rfl | ⟨b, line, rfl, gap, all⟩
    · exact ⟨[], .inr ⟨rfl, rfl⟩⟩
    · exact ⟨_, .inl (reads_held 2 (reads_then (x := [b]) ⟨⟨b, rfl, gap⟩, rfl⟩
        (reads_held 3 (reads_star_one.mpr ⟨all, rfl⟩))))⟩
  obtain ⟨g, read⟩ := shown (lastOf (lastOf (lastOf prev (ofString "\x7b@link")) [0x20]) href)
    ([0x7D] ++ rest)
  simp only [inlineLinkPattern, seqs, lit]
  exact ⟨_, reads_then (reads_literal _ _ _) (reads_then (gap_reads _ _)
    (reads_then (url_reads_of address oneLine)
      (reads_then read (reads_literal (ofString "\x7d") _ _))))⟩

theorem blockLink_reads_of (prev : Option UInt8) {href : Text} (rest : Text)
    (address : IsAddress href) (oneLine : 0x0A ∉ href) :
    ∃ g, Reads blockLinkPattern prev (ofString "@link" ++ ([0x20] ++ (href ++ []))) rest g := by
  have absent (prev : Option UInt8) : Reads linkText prev [] rest [] :=
    reads_opt.mpr (.inr ⟨rfl, rfl⟩)
  simp only [blockLinkPattern, seqs, lit]
  exact ⟨_, reads_then (reads_literal _ _ _) (reads_then (gap_reads _ _)
    (reads_then (url_reads_of address oneLine) (absent _)))⟩

theorem inlineLink_hasAddress {prev : Option UInt8} {x r : Text} {g : Groups UInt8}
    (reads : Reads inlineLinkPattern prev x r g) : HasAddress x := by
  obtain ⟨lead, href, text, rfl, -, address, -⟩ := inlineLink_reads reads
  refine ⟨href, address, ofString "\x7b@link" ++ lead, text ++ ofString "\x7d", ?_⟩
  simp only [List.append_assoc]

theorem blockLink_hasAddress {prev : Option UInt8} {x r : Text} {g : Groups UInt8}
    (reads : Reads blockLinkPattern prev x r g) : HasAddress x := by
  obtain ⟨lead, href, text, rfl, -, address, -⟩ := blockLink_reads reads
  refine ⟨href, address, ofString "@link" ++ lead, text, ?_⟩
  simp only [List.append_assoc]

end DocBridge.Rule
