import DocBridge.Proofs.Comment.Frame
import DocBridge.Proofs.Token.Kinds
import DocBridge.Proofs.Token.Locality

/-
Doc comments as tokens. A doc comment in the sense of `Frame.DocText` is scanned as one token
whatever follows it, and only such texts are. Doc comments may therefore be exchanged for others
without a change to any other token.
-/
namespace DocBridge.Scan

open Text DocBridge.Frame

theorem indexOf_terminator {u : Text} (rest : Text) (none_ : terminators u = 0) :
    indexOf? "*/" (u ++ 0x2A :: 0x2F :: rest) = some u.length := by
  induction u with
  | nil => rfl
  | cons b u ih =>
    rw [terminators, Nat.add_eq_zero_iff] at none_
    have here : (ofString "*/").isPrefixOf (b :: (u ++ 0x2A :: 0x2F :: rest)) = false := by
      have bytes : ofString "*/" = [0x2A, 0x2F] := by decide
      rw [bytes, ← Bool.not_eq_true, List.isPrefixOf_iff_prefix]
      intro found
      have none_ := none_.1
      cases u with
      | nil => simp at found
      | cons c u =>
        simp only [List.cons_append, List.cons_prefix_cons] at found
        simp [← found.1, ← found.2.1] at none_
    rw [List.cons_append, indexOf?, if_neg (by simp [here]), ih none_.2]
    rfl

theorem indexOf_terminator_split {s : Text} {i : Nat} (found : indexOf? "*/" s = some i) :
    ∃ u rest, s = u ++ 0x2A :: 0x2F :: rest ∧ u.length = i ∧ terminators u = 0 := by
  induction s generalizing i with
  | nil =>
    have nothing : indexOf? (ofString "*/") [] = none := by decide
    rw [nothing] at found
    contradiction
  | cons b s ih =>
    rw [indexOf?] at found
    split at found
    · rename_i here
      cases found
      have bytes : ofString "*/" = [0x2A, 0x2F] := by decide
      rw [bytes, List.isPrefixOf_iff_prefix] at here
      obtain ⟨rest, whole⟩ := here
      exact ⟨[], rest, whole.symm, rfl, rfl⟩
    · rename_i later
      obtain ⟨j, found', rfl⟩ := Option.map_eq_some_iff.mp found
      obtain ⟨u, rest, rfl, size, none_⟩ := ih found'
      refine ⟨b :: u, rest, rfl, by rw [List.length_cons, size], ?_⟩
      have here : ¬ (b = 0x2A ∧ u.head? = some 0x2F) := by
        rintro ⟨rfl, slash⟩
        cases u with
        | nil => simp at slash
        | cons c u =>
          simp only [List.head?_cons, Option.some.injEq] at slash
          subst slash
          exact later rfl
      rw [terminators, none_]
      simpa using here

theorem leadOf_opener (rest : Text) : leadOf 0x2F (0x2A :: rest) = .blockComment := by
  rfl

theorem scanCode_docText {b : UInt8} {text : Text} (doc : DocText (b :: text)) (rest : Text) :
    scanCode b (text ++ rest) = (.docComment, text.length) := by
  obtain ⟨c, body, space, none_, whole⟩ := docText_shape.mp doc
  simp only [List.cons_append, List.nil_append, List.cons.injEq] at whole
  obtain ⟨rfl, rfl⟩ := whole
  have other := space_not_frame space
  have early : terminators (0x2A :: c :: body) = 0 := by
    simp [terminators, none_, other.1, other.2]
  have found := indexOf_terminator rest early
  have text : 0x2A :: c :: (body ++ [0x2A, 0x2F]) ++ rest
      = (0x2A :: c :: body) ++ 0x2A :: 0x2F :: rest := by simp
  rw [List.cons_append, scanCode, leadOf_opener, scanLead, List.drop_one, List.tail_cons, text,
    blockComment, found]
  simp [startsWith, space]

theorem blockComment_docText {text rest : Text}
    (scanned : scanLead 0x2F (0x2A :: (text ++ rest)) .blockComment = (.docComment, text.length + 1)) :
    DocText (0x2F :: 0x2A :: text) := by
  simp only [scanLead, List.drop_one, List.tail_cons, blockComment] at scanned
  split at scanned
  · simp at scanned
  · rename_i i found
    obtain ⟨u, r, whole, rfl, none_⟩ := indexOf_terminator_split found
    rw [Prod.mk.injEq, Nat.add_right_cancel_iff] at scanned
    obtain ⟨doc, size⟩ := scanned
    have opener := mt (ite_eq_left_iff.mp doc) (by simp)
    obtain ⟨star, space⟩ := Bool.and_eq_true_iff.mp (Decidable.not_not.mp opener)
    have text_ : text = u ++ [0x2A, 0x2F] := by
      have cut : text ++ rest = (u ++ [0x2A, 0x2F]) ++ r := by
        rw [whole, List.append_assoc]
        rfl
      exact (List.append_inj cut (by simpa using size.symm)).1
    -- The opener needs two more bytes, and neither is part of the terminator.
    rw [whole] at star space
    cases u with
    | nil => simp [startsWith, isSpace] at space
    | cons a u =>
      cases u with
      | nil => simp [startsWith, isSpace] at space
      | cons c v =>
        have first : a = 0x2A := by simpa [startsWith] using star
        have space : isSpace c = true := space
        refine docText_shape.mpr ⟨c, v, space, ?_, by rw [text_, first]; rfl⟩
        simp only [terminators] at none_
        omega

end DocBridge.Scan

namespace DocBridge.Token

open DocBridge.Frame

theorem scan_doc {mode : Mode} {b : UInt8} {text rest : Text}
    (scanned : scan mode b (text ++ rest) = (.docComment, text.length)) :
    mode.inCode = true ∧ DocText (b :: text) := by
  obtain ⟨code, gives, seen, scanned⟩ := scan_code scanned (by simp) (by simp) (by simp)
  refine ⟨code, ?_⟩
  have lead : Scan.leadOf b (text ++ rest) = .blockComment := by
    cases found : Scan.leadOf b (text ++ rest) <;> rw [found] at gives <;>
      simp [Scan.Lead.Gives] at gives ⊢
  rw [lead] at seen scanned
  obtain ⟨slash, star⟩ := Bool.and_eq_true_iff.mp seen
  obtain rfl : b = 0x2F := by simpa using slash
  cases text with
  | nil => simp [Scan.scanLead] at scanned
  | cons c text =>
    obtain rfl : c = 0x2A := by simpa [Scan.startsWith] using star
    exact Scan.blockComment_docText scanned

theorem lexed_doc {mode : Mode} {line : Nat} {s : Text} {tokens : List Token}
    (lexed : Lexed mode line s tokens) : ∀ t ∈ tokens, t.kind = .docComment → DocText t.text := by
  induction lexed with
  | done => simp
  | token scanned _ ih =>
    intro t member kind
    rcases List.mem_cons.mp member with rfl | later
    · rw [kindIn_eq kind (by simp)] at scanned
      exact (scan_doc scanned).2
    · exact ih t later kind

theorem scan_docText {mode : Mode} {b : UInt8} {text : Text} (code : mode.inCode = true)
    (doc : DocText (b :: text)) (rest : Text) :
    scan mode b (text ++ rest) = (.docComment, text.length) := by
  rw [scan, if_pos code]
  exact Scan.scanCode_docText doc rest

/-- What may stand in place of a token: a doc comment for a doc comment, otherwise its own text. -/
def Replaces (t : Token) (text : Text) : Prop :=
  if t.kind = .docComment then DocText text else text = t.text

def MeetAtSlash (s s' : Text) : Prop :=
  s = s' ∨ ∃ w d d', s = w ++ 0x2F :: d ∧ s' = w ++ 0x2F :: d'

theorem meet_append (x : Text) {s s' : Text} (meet : MeetAtSlash s s') :
    MeetAtSlash (x ++ s) (x ++ s') := by
  rcases meet with same | ⟨w, d, d', rfl, rfl⟩
  · exact .inl (by rw [same])
  · exact .inr ⟨x ++ w, d, d', by simp, by simp⟩

theorem scan_meet {mode : Mode} {b : UInt8} {kind : Kind} {text s s' : Text}
    (meet : MeetAtSlash s s') (scanned : scan mode b (text ++ s) = (kind, text.length)) :
    scan mode b (text ++ s') = (kind, text.length) := by
  rcases meet with same | ⟨w, d, d', rfl, rfl⟩
  · rw [← same, scanned]
  · rw [← List.append_assoc] at scanned ⊢
    have inside : (scan mode b ((text ++ w) ++ 0x2F :: d)).2 ≤ (text ++ w).length := by
      rw [scanned, List.length_append]
      exact Nat.le_add_right _ _
    exact (scan_barrier .slash d' inside).trans scanned

theorem docText_slash {text : Text} (doc : DocText text) : ∃ rest, text = 0x2F :: rest := by
  obtain ⟨b, rest, rfl, _⟩ := doc.opens
  exact ⟨_, rfl⟩

/-- The source and the source with replaced doc comments part at a slash at the earliest. -/
theorem lexed_meet {mode : Mode} {line : Nat} {s : Text} (pairs : List (Token × Text))
    (lexed : Lexed mode line s (pairs.map Prod.fst)) (fits : ∀ p ∈ pairs, Replaces p.1 p.2) :
    MeetAtSlash s (pairs.flatMap Prod.snd) := by
  induction pairs generalizing mode line s with
  | nil =>
    cases lexed
    exact .inl rfl
  | cons p pairs ih =>
    obtain ⟨t, new⟩ := p
    have fit : Replaces t new := fits (t, new) (by simp)
    cases lexed with
    | @token _ _ b text rest kind _ scanned more =>
      rw [List.flatMap_cons, ← List.cons_append]
      by_cases doc : kindIn mode kind = .docComment
      · rw [Replaces, if_pos doc] at fit
        rw [kindIn_eq doc (by simp)] at scanned
        obtain ⟨old, hold⟩ := docText_slash (scan_doc scanned).2
        obtain ⟨new', rfl⟩ := docText_slash fit
        rw [hold]
        exact .inr ⟨[], _, _, rfl, rfl⟩
      · rw [Replaces, if_neg doc] at fit
        rw [fit]
        exact meet_append _ (ih more fun p member => fits p (by simp [member]))

/-- Doc comments may be exchanged for doc comments: kinds and texts of the tokens follow. -/
theorem lexed_replace {mode : Mode} {line : Nat} {s : Text} (pairs : List (Token × Text))
    (lexed : Lexed mode line s (pairs.map Prod.fst)) (fits : ∀ p ∈ pairs, Replaces p.1 p.2)
    (line' : Nat) :
    ∃ tokens, Lexed mode line' (pairs.flatMap Prod.snd) tokens ∧
      tokens.map Token.kind = pairs.map (fun p => p.1.kind) ∧
      tokens.map Token.text = pairs.map Prod.snd := by
  induction pairs generalizing mode line s line' with
  | nil => exact ⟨[], .done mode line', rfl, rfl⟩
  | cons p pairs ih =>
    obtain ⟨t, new⟩ := p
    have fit : Replaces t new := fits (t, new) (by simp)
    have later : ∀ p ∈ pairs, Replaces p.1 p.2 := fun p member => fits p (by simp [member])
    cases lexed with
    | @token _ _ b text rest kind _ scanned more =>
      rw [List.flatMap_cons]
      by_cases doc : kindIn mode kind = .docComment
      · -- The new comment is scanned as one token, and the mode after it does not depend on it.
        have kind_ := kindIn_eq doc (by simp)
        rw [Replaces, if_pos doc] at fit
        rw [kind_] at scanned more
        obtain ⟨new', rfl⟩ := docText_slash fit
        have scanned' := scan_docText (scan_doc scanned).1 fit (pairs.flatMap Prod.snd)
        have mode_ : modeAfter mode (kindIn mode .docComment) (0x2F :: new')
            = modeAfter mode (kindIn mode .docComment) (b :: text) := by
          rw [← kind_, doc]
          rfl
        rw [← mode_] at more
        obtain ⟨tokens, lexed', kinds, texts⟩ :=
          ih more later (line' + Text.countByte 0x0A (0x2F :: new'))
        exact ⟨_ :: tokens, .token scanned' lexed', by simp [kinds, kind_], by simp [texts]⟩
      · rw [Replaces, if_neg doc] at fit
        subst fit
        have scanned' := scan_meet (lexed_meet pairs more later) scanned
        obtain ⟨tokens, lexed', kinds, texts⟩ :=
          ih more later (line' + Text.countByte 0x0A (b :: text))
        exact ⟨_ :: tokens, .token scanned' lexed', by simp [kinds], by simp [texts]⟩

end DocBridge.Token
