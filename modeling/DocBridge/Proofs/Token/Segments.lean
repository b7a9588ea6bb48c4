import DocBridge.Proofs.Token.Kinds

/-
The token stream follows the tags of the source: inline text, an open tag, code up to a close tag,
and so on from the start. Inline text goes exactly as far as the next open tag.
-/
namespace DocBridge

namespace Kind

def isOpenTag : Kind → Bool
  | .openTag | .openEchoTag => true
  | _ => false

def isCode : Kind → Bool
  | .inlineHtml | .openTag | .openEchoTag | .closeTag => false
  | _ => true

theorem isOpenTag_iff (k : Kind) : k.isOpenTag = true ↔ k = .openTag ∨ k = .openEchoTag := by
  cases k <;> simp [isOpenTag]

end Kind

structure Segment where
  hasInline : Bool
  tag : Kind
  code : List Kind
  opens : tag.isOpenTag = true
  inCode : ∀ k ∈ code, k.isCode = true

namespace Segment

def inline (s : Segment) : List Kind := if s.hasInline then [.inlineHtml] else []

def kinds (s : Segment) : List Kind := s.inline ++ s.tag :: (s.code ++ [.closeTag])

theorem inline_length (s : Segment) : s.inline.length ≤ 1 := by
  unfold inline
  split <;> simp

theorem tag_not_code (s : Segment) : s.tag.isCode = false := by
  rcases (Kind.isOpenTag_iff _).mp s.opens with tag | tag <;> rw [tag] <;> rfl

theorem tag_not_inline (s : Segment) : Kind.inlineHtml ∉ s.tag :: (s.code ++ [.closeTag]) := by
  intro member
  rcases List.mem_cons.mp member with tag | later
  · have opens := s.opens
    rw [← tag] at opens
    contradiction
  · rcases List.mem_append.mp later with code | close
    · exact absurd (s.inCode _ code) (by decide)
    · simp at close

theorem after_inlineHtml (s : Segment) {before after : List Kind}
    (here : s.kinds = before ++ .inlineHtml :: after) : after = s.tag :: (s.code ++ [.closeTag]) := by
  rcases List.append_eq_append_iff.mp here with ⟨x, rfl, tail⟩ | ⟨x, lead, tail⟩
  · exact absurd (by simp [tail]) s.tag_not_inline
  · cases x with
    | nil =>
      rw [List.nil_append] at tail
      exact absurd (by simp [← tail]) s.tag_not_inline
    | cons k x =>
      have short := s.inline_length
      rw [lead, List.length_append, List.length_cons] at short
      rw [List.eq_nil_of_length_eq_zero (show x.length = 0 by omega)] at tail
      exact (List.cons.inj tail).2

theorem before_code (s : Segment) {before after : List Kind} {k : Kind}
    (here : s.kinds = before ++ k :: after) (isCode : k.isCode = true) :
    ∃ code, before = s.inline ++ s.tag :: code ∧ ∀ k' ∈ code, k'.isCode = true := by
  rcases List.append_eq_append_iff.mp here with ⟨x, rfl, tail⟩ | ⟨x, lead, tail⟩
  · cases x with
    | nil =>
      rw [← (List.cons.inj tail).1, s.tag_not_code] at isCode
      contradiction
    | cons tag x =>
      obtain ⟨rfl, later⟩ := List.cons.inj tail
      refine ⟨x, rfl, ?_⟩
      rcases List.append_eq_append_iff.mp later with ⟨y, rfl, close⟩ | ⟨y, code, _⟩
      · cases y with
        | nil =>
          rw [List.append_nil]
          exact s.inCode
        | cons c y =>
          have size := congrArg List.length close
          simp only [List.length_append, List.length_cons, List.length_nil] at size
          omega
      · intro k' member
        exact s.inCode k' (by simp [code, member])
  · cases x with
    | nil =>
      rw [(List.cons.inj tail).1, s.tag_not_code] at isCode
      contradiction
    | cons c x =>
      have member : k ∈ s.inline := by simp [lead, (List.cons.inj tail).1]
      unfold inline at member
      split at member
      · rw [List.mem_singleton.mp member] at isCode
        contradiction
      · contradiction

end Segment

/-- Segments one after another; the last may stop after any of its parts. -/
inductive Segmented : List Kind → Prop
  | stops (s : Segment) {part : List Kind} (cut : part <+: s.kinds) : Segmented part
  | closes (s : Segment) {rest : List Kind} (more : Segmented rest) : Segmented (s.kinds ++ rest)

namespace Segmented

variable {ks before after : List Kind}

theorem nil : Segmented [] := .stops ⟨false, .openTag, [], rfl, by simp⟩ List.nil_prefix

theorem inlineHtml : Segmented [.inlineHtml] :=
  .stops ⟨true, .openTag, [], rfl, by simp⟩ ⟨_, rfl⟩

theorem after_inlineHtml (segmented : Segmented ks) (here : ks = before ++ .inlineHtml :: after) :
    after = [] ∨ ∃ tag more, after = tag :: more ∧ tag.isOpenTag = true := by
  induction segmented generalizing before with
  | stops s cut =>
    obtain ⟨rest, whole⟩ := cut
    rw [here, List.append_assoc, List.cons_append] at whole
    have next := s.after_inlineHtml whole.symm
    cases after with
    | nil => exact .inl rfl
    | cons tag more => exact .inr ⟨tag, more, rfl, (List.cons.inj next).1 ▸ s.opens⟩
  | closes s more ih =>
    rcases List.append_eq_append_iff.mp here with ⟨x, rfl, tail⟩ | ⟨x, lead, tail⟩
    · exact ih tail
    · cases x with
      | nil => exact @ih [] tail.symm
      | cons k x =>
        obtain ⟨rfl, rfl⟩ := List.cons.inj tail
        rw [s.after_inlineHtml lead]
        exact .inr ⟨s.tag, _, rfl, s.opens⟩

theorem before_code (segmented : Segmented ks) {k : Kind} (here : ks = before ++ k :: after)
    (isCode : k.isCode = true) :
    ∃ front tag code, before = front ++ tag :: code ∧ tag.isOpenTag = true ∧
      ∀ k' ∈ code, k'.isCode = true := by
  induction segmented generalizing before with
  | stops s cut =>
    obtain ⟨rest, whole⟩ := cut
    rw [here, List.append_assoc, List.cons_append] at whole
    obtain ⟨code, rfl, all⟩ := s.before_code whole.symm isCode
    exact ⟨s.inline, s.tag, code, rfl, s.opens, all⟩
  | closes s more ih =>
    rcases List.append_eq_append_iff.mp here with ⟨x, rfl, tail⟩ | ⟨x, lead, tail⟩
    · obtain ⟨front, tag, code, rfl, opens, all⟩ := ih tail
      exact ⟨s.kinds ++ front, tag, code, by simp, opens, all⟩
    · cases x with
      | nil =>
        obtain ⟨front, tag, code, empty, _⟩ := @ih [] tail.symm
        simp at empty
      | cons c x =>
        obtain ⟨rfl, rfl⟩ := List.cons.inj tail
        obtain ⟨code, rfl, all⟩ := s.before_code lead isCode
        exact ⟨s.inline, s.tag, code, rfl, s.opens, all⟩

end Segmented

def InCode (ks : List Kind) : Prop :=
  ∃ code rest, ks = code ++ rest ∧ (∀ k ∈ code, k.isCode = true) ∧
    (rest = [] ∨ ∃ more, rest = .closeTag :: more ∧ Segmented more)

theorem inCode_cons {k : Kind} {ks : List Kind} (isCode : k.isCode = true) (inCode : InCode ks) :
    InCode (k :: ks) := by
  obtain ⟨code, rest, rfl, all, ending⟩ := inCode
  refine ⟨k :: code, rest, rfl, ?_, ending⟩
  intro k' member
  rcases List.mem_cons.mp member with rfl | later
  · exact isCode
  · exact all k' later

theorem segmented_open (hasInline : Bool) {tag : Kind} {ks : List Kind}
    (opens : tag.isOpenTag = true) (inCode : InCode ks) :
    Segmented ((if hasInline then [.inlineHtml] else []) ++ tag :: ks) := by
  obtain ⟨code, rest, rfl, all, ending⟩ := inCode
  let s : Segment := ⟨hasInline, tag, code, opens, all⟩
  rcases ending with rfl | ⟨more, rfl, segmented⟩
  · refine .stops s ⟨[.closeTag], ?_⟩
    simp [s, Segment.kinds, Segment.inline]
  · have whole := Segmented.closes s segmented
    simp only [s, Segment.kinds, Segment.inline, List.append_assoc, List.cons_append,
      List.nil_append] at whole
    exact whole

namespace Scan

open Text

/-- An open tag starts here: `<?=`, or `<?php` in any letter case with white space or the end of
the source behind it. -/
def OpensTag (s : Text) : Prop :=
  ofString "<?=" <+: s ∨ ∃ word rest, s = word ++ rest ∧ lowerAscii word = ofString "<?php" ∧
    (rest = [] ∨ startsWith isSpace rest = true)

theorem tagSpace_iff (s : Text) :
    (tagSpaceLength? s).isSome = true ↔ s = [] ∨ startsWith isSpace s = true := by
  cases s with
  | nil => simp [tagSpaceLength?]
  | cons b rest =>
    have started : startsWith isSpace (b :: rest) = isSpace b := rfl
    rw [tagSpaceLength?, started]
    split
    · rename_i both
      have return_ : b = 0x0D := by simpa using (Bool.and_eq_true_iff.mp both).1
      have space : isSpace b = true := by rw [return_]; decide
      simp [space]
    · split <;> simp_all

theorem opensTag_iff (s : Text) : OpensTag s ↔ (openTag? s).isSome = true := by
  unfold OpensTag openTag?
  split
  · rename_i echo
    simp [List.isPrefixOf_iff_prefix.mp echo]
  · rename_i echo
    rw [List.isPrefixOf_iff_prefix] at echo
    have five : (ofString "<?php").length = 5 := by decide
    constructor
    · rintro (found | ⟨word, rest, rfl, php, ending⟩)
      · exact absurd found echo
      · have size : word.length = 5 := by
          rw [← five, ← php, lowerAscii, List.length_map]
        rw [← size, List.take_left, List.drop_left, if_pos (by rw [php, beq_self_eq_true]),
          Option.isSome_map]
        exact (tagSpace_iff rest).mpr ending
    · intro found
      split at found
      · rename_i php
        rw [Option.isSome_map, tagSpace_iff] at found
        exact .inr ⟨s.take 5, s.drop 5, (List.take_append_drop 5 s).symm, beq_iff_eq.mp php, found⟩
      · contradiction

theorem opensTag_none {s : Text} (none_ : openTag? s = none) : ¬ OpensTag s := by
  rw [opensTag_iff, none_]
  exact Bool.false_ne_true

theorem inlineLength_stops (s : Text) :
    (∀ i, i < inlineLength s → ¬ OpensTag (s.drop i)) ∧
      (s.drop (inlineLength s) = [] ∨ OpensTag (s.drop (inlineLength s))) := by
  induction s with
  | nil => simp [inlineLength]
  | cons b rest ih =>
    rw [inlineLength]
    split
    · rename_i tag
      refine ⟨fun i inside => absurd inside (Nat.not_lt_zero i), .inr ?_⟩
      exact (opensTag_iff _).mpr tag
    · rename_i noTag
      refine ⟨?_, ih.2⟩
      intro i inside
      cases i with
      | zero => rwa [List.drop_zero, opensTag_iff]
      | succ i => exact ih.1 i (Nat.lt_of_succ_lt_succ inside)

end Scan

namespace Token

open Scan

/-- Outside of code there is inline text or an open tag. -/
theorem scan_outside {mode : Mode} {b : UInt8} {rest : Text} {kind : Kind} {n : Nat}
    (outside : mode.inCode = false) (scanned : scan mode b rest = (kind, n)) :
    kind.isOpenTag = true ∨
      (kind = .inlineHtml ∧ n = inlineLength rest ∧ ¬ OpensTag (b :: rest)) := by
  rw [scan, outside, if_neg Bool.false_ne_true] at scanned
  unfold scanInline at scanned
  split at scanned
  · rename_i tag length found
    cases scanned
    exact .inl ((Kind.isOpenTag_iff _).mpr (openTag_gives found))
  · rename_i none_
    cases scanned
    exact .inr ⟨rfl, rfl, opensTag_none none_⟩

theorem scan_inside {mode : Mode} {b : UInt8} {rest : Text} {kind : Kind} {n : Nat}
    (inside : mode.inCode = true) (scanned : scan mode b rest = (kind, n)) :
    kind = .closeTag ∨ kind.isCode = true := by
  rw [scan, inside, if_pos rfl, scanCode] at scanned
  have gives := scanLead_gives b rest (leadOf b rest)
  rw [scanned] at gives
  cases lead : leadOf b rest <;> rw [lead] at gives <;> simp only [Lead.Gives] at gives
  case closeTag => exact .inl gives
  case name =>
    rcases gives with rfl | ⟨k, rfl⟩ <;> exact .inr rfl
  case blockComment =>
    rcases gives with rfl | rfl <;> exact .inr rfl
  case brackets =>
    rcases gives with rfl | rfl | rfl <;> exact .inr rfl
  case other =>
    rcases gives with rfl | rfl <;> exact .inr rfl
  all_goals
    subst gives
    exact .inr rfl

theorem scan_inlineHtml {mode : Mode} {b : UInt8} {rest : Text} {n : Nat}
    (scanned : scan mode b rest = (.inlineHtml, n)) :
    n = inlineLength rest ∧ ¬ OpensTag (b :: rest) := by
  cases inCode : mode.inCode with
  | true => rcases scan_inside inCode scanned with close | code <;> contradiction
  | false =>
    rcases scan_outside inCode scanned with tag | ⟨_, length, none_⟩
    · contradiction
    · exact ⟨length, none_⟩

theorem modeAfter_code {kind : Kind} (isCode : kind.isCode = true) (mode : Mode) (text : Text) :
    (modeAfter mode kind text).inCode = mode.inCode := by
  simp only [modeAfter]
  split
  · contradiction
  · contradiction
  · contradiction
  · rfl

/-- What is known of the kinds of the tokens read from a text on: in code the rest of a segment,
outside of it whole segments, the first with its open tag in front if the text starts with one. -/
structure Follows (mode : Mode) (s : Text) (kinds : List Kind) : Prop where
  inside : mode.inCode = true → InCode kinds
  outside : mode.inCode = false → Segmented kinds
  opened : mode.inCode = false → OpensTag s →
    ∃ tag more, kinds = tag :: more ∧ tag.isOpenTag = true ∧ InCode more

theorem follows_done (mode : Mode) : Follows mode [] [] where
  inside _ := ⟨[], [], rfl, by simp, .inl rfl⟩
  outside _ := .nil
  opened _ starts := by
    rw [opensTag_iff] at starts
    contradiction

theorem follows_inside {mode : Mode} {b : UInt8} {text rest : Text} {kind : Kind}
    {kinds : List Kind} (inside : mode.inCode = true)
    (scanned : scan mode b (text ++ rest) = (kind, text.length))
    (more : Follows (modeAfter mode (kindIn mode kind) (b :: text)) rest kinds) :
    InCode (kindIn mode kind :: kinds) := by
  rcases scan_inside inside scanned with rfl | isCode
  · have plain : kindIn mode .closeTag = .closeTag := by simp [kindIn, Kind.isKeyword]
    rw [plain] at more ⊢
    exact ⟨[], _, rfl, by simp, .inr ⟨kinds, rfl, more.outside rfl⟩⟩
  · have isCode : (kindIn mode kind).isCode = true := by
      unfold kindIn
      split
      · rfl
      · exact isCode
    have stays := modeAfter_code isCode mode (b :: text)
    exact inCode_cons isCode (more.inside (stays.trans inside))

theorem follows_outside {mode : Mode} {line : Nat} {b : UInt8} {text rest : Text} {kind : Kind}
    {tokens : List Token} (outside : mode.inCode = false)
    (scanned : scan mode b (text ++ rest) = (kind, text.length))
    (lexed : Lexed (modeAfter mode (kindIn mode kind) (b :: text)) line rest tokens)
    (more : Follows (modeAfter mode (kindIn mode kind) (b :: text)) rest (tokens.map Token.kind)) :
    Segmented (kindIn mode kind :: tokens.map Token.kind) ∧
      (OpensTag (b :: (text ++ rest)) →
        (kindIn mode kind).isOpenTag = true ∧ InCode (tokens.map Token.kind)) := by
  rcases scan_outside outside scanned with opens | ⟨rfl, length, none_⟩
  · have plain : kindIn mode kind = kind := by
      rcases (Kind.isOpenTag_iff _).mp opens with rfl | rfl <;> simp [kindIn, Kind.isKeyword]
    have enters : (modeAfter mode kind (b :: text)).inCode = true := by
      rcases (Kind.isOpenTag_iff _).mp opens with rfl | rfl <;> rfl
    rw [plain] at more ⊢
    have inCode := more.inside enters
    exact ⟨segmented_open false opens inCode, fun _ => ⟨opens, inCode⟩⟩
  · have plain : kindIn mode .inlineHtml = .inlineHtml := by simp [kindIn, Kind.isKeyword]
    rw [plain] at lexed more ⊢
    refine ⟨?_, fun starts => absurd starts none_⟩
    -- Inline text was taken to its end, so that an open tag is next.
    have stops := (inlineLength_stops (text ++ rest)).2
    rw [← length, List.drop_left] at stops
    rcases stops with rfl | starts
    · cases lexed
      exact .inlineHtml
    · obtain ⟨tag, later, same, opens, inCode⟩ := more.opened outside starts
      rw [same]
      exact segmented_open true opens inCode

theorem lexed_follows {mode : Mode} {line : Nat} {s : Text} {tokens : List Token}
    (lexed : Lexed mode line s tokens) : Follows mode s (tokens.map Token.kind) := by
  induction lexed with
  | done mode line => exact follows_done mode
  | token scanned more ih =>
    constructor
    · intro inside
      exact follows_inside inside scanned ih
    · intro outside
      exact (follows_outside outside scanned more ih).1
    · intro outside starts
      exact ⟨_, _, rfl, (follows_outside outside scanned more ih).2 starts⟩

/-- The kinds of the tokens of a source make up segments: inline text is followed by an open tag
or by nothing, and what is neither inline text nor a tag stands between an open tag and the next
close tag. No open tag starts at a place inside of inline text, and inline text ends only where one
starts or at the end of the source. -/
theorem stream_respects_mode (src : Text) :
    let kinds := (stream src).map Token.kind
    Segmented kinds ∧
    (∀ before after, kinds = before ++ .inlineHtml :: after →
      after = [] ∨ ∃ tag more, after = tag :: more ∧ tag.isOpenTag = true) ∧
    (∀ before k after, kinds = before ++ k :: after → k.isCode = true →
      ∃ front tag code, before = front ++ tag :: code ∧ tag.isOpenTag = true ∧
        ∀ k' ∈ code, k'.isCode = true) ∧
    ∀ before t after, stream src = before ++ t :: after → t.kind = .inlineHtml →
      let start := (before.flatMap Token.text).length
      let stop := start + t.text.length
      (∀ i, start ≤ i → i < stop → ¬ OpensTag (src.drop i)) ∧
        (src.drop stop = [] ∨ OpensTag (src.drop stop)) := by
  intro kinds
  have lexed := lexed_stream src
  have segmented : Segmented kinds := (lexed_follows lexed).outside rfl
  refine ⟨segmented, fun before after here => segmented.after_inlineHtml here,
    fun before k after here isCode => segmented.before_code here isCode, ?_⟩
  intro before t after here inline start stop
  rw [here] at lexed
  obtain ⟨mode, b, text, kind, kind_, text_, scanned, rfl⟩ := lexed_scanned lexed
  rw [kindIn_eq (kind_.symm.trans inline) (by simp)] at scanned
  obtain ⟨length, first⟩ := scan_inlineHtml scanned
  obtain ⟨within, ending⟩ := inlineLength_stops (text ++ after.flatMap Token.text)
  rw [text_, List.cons_append]
  constructor
  · intro i low high
    obtain ⟨k, rfl⟩ := Nat.exists_eq_add_of_le low
    rw [List.drop_append, List.drop_eq_nil_of_le (Nat.le_add_right _ _), List.nil_append,
      Nat.add_sub_cancel_left]
    cases k with
    | zero => exact first
    | succ k =>
      apply within k
      rw [← length]
      have : stop = start + (text.length + 1) := by rw [← List.length_cons (a := b), ← text_]
      omega
  · have past : ∀ s : Text, (before.flatMap Token.text ++ b :: (text ++ s)).drop stop = s := by
      intro s
      rw [← List.cons_append, ← text_, List.drop_append, List.drop_eq_nil_of_le (by omega),
        List.nil_append, Nat.add_sub_cancel_left, List.drop_left]
    rw [past]
    rw [← length, List.drop_left] at ending
    exact ending

end Token
end DocBridge
