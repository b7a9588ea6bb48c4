import DocBridge.Proofs.Comment.Copy
import DocBridge.Proofs.Comment.Links
import DocBridge.Proofs.Comment.TypedArrays
import DocBridge.Proofs.Token.Replacement

/-
When filtering keeps the tokens of a source. It does so exactly if every doc comment comes out as
a doc comment, and that fails only in the ways told apart here: a link text that takes the
terminator along or sets a star free, and a typed array that takes the opener or the terminator.
-/
namespace DocBridge.Dialect

open DocBridge.Frame Rule

def beforeLinks (text : Text) : Text := propertyLinks (namespaceSeparators text)

theorem commonRules_eq (text : Text) :
    applyRules commonRules text = blockUrlLinks (inlineUrlLinks (beforeLinks text)) := rfl

theorem headerRules_eq (text : Text) :
    applyRules headerRules text = licenseCommand (fileCommand text) := rfl

theorem memberRules_eq (text : Text) : applyRules memberRules text = inheritdoc (returns
    (readOnlyProperties (properties (internalCommand (typedArrayParams text))))) := rfl

theorem beforeLinks_frame (text : Text) : SameFrame text (beforeLinks text) :=
  sameFrame_trans (namespaceSeparators_frame text) (propertyLinks_frame _)

theorem headerRules_frame (text : Text) : SameFrame text (applyRules headerRules text) :=
  sameFrame_trans (fileCommand_frame text) (licenseCommand_frame _)

theorem memberRules_frame (text : Text) :
    SameFrame (typedArrayParams text) (applyRules memberRules text) := by
  rw [memberRules_eq]
  refine sameFrame_trans (internalCommand_frame _) (sameFrame_trans (properties_frame _) ?_)
  refine sameFrame_trans (readOnlyProperties_frame _) (sameFrame_trans (returns_frame _) ?_)
  exact inheritdoc_frame _

theorem docText_memberRules (text : Text) : DocText (applyRules memberRules text) ↔
    Opens text ∧ Closes text ∧ terminators text = 1 ∧ ¬ ParamTakesEnd text := by
  rw [docText_congr (memberRules_frame text), docText_iff, typedArrayParams_opens,
    typedArrayParams_closes, typedArrayParams_terminators]
  constructor
  · rintro ⟨opens, ⟨closes, kept⟩, one⟩
    exact ⟨opens, closes, one, kept⟩
  · rintro ⟨opens, closes, one, kept⟩
    exact ⟨opens, ⟨closes, kept⟩, one⟩

theorem commonRules_docText {text : Text} (doc : DocText text) :
    let linked := inlineUrlLinks (beforeLinks text)
    let common := applyRules commonRules text
    Opens common ∧ (Closes common ↔ ¬ LinkTakesEnd linked) ∧
      (terminators common = 1 ↔ ¬ LinkLeavesStar (beforeLinks text)) := by
  intro linked common
  obtain ⟨opens, closes, one⟩ := docText_iff.mp ((docText_congr (beforeLinks_frame text)).mpr doc)
  have closed : Closes linked := inlineUrlLinks_closes closes
  refine ⟨?_, blockUrlLinks_closes closed, ?_⟩
  · exact (blockUrlLinks_opens linked).mpr ((inlineUrlLinks_opens _).mpr opens)
  · exact (blockUrlLinks_terminators closed).trans (inlineUrlLinks_terminators closes one)

/-- The condition under which a doc comment comes out as a doc comment. -/
def Intact (l : Lookahead) (headerPassed : Bool) (c : Cursor) (text : Text) : Prop :=
  let common := applyRules commonRules text
  ¬ LinkTakesEnd (inlineUrlLinks (beforeLinks text)) ∧
    if headerPassed = true ∧ Text.contains "@var" common = true then
      ¬ ArrayTakesOpener common ∧
      terminators common = 1 + hitSum takesApart (typedArrayVarPattern.pieces common) ∧
      ∀ v ∈ (resolveVariable c l).1, ¬ ParamTakesEnd (annotateVar v.text (typedArrayVars common))
    else ¬ LinkLeavesStar (beforeLinks text) ∧ (headerPassed = true → ¬ ParamTakesEnd common)

/-- A doc comment whose variable, if it is found, has no slash in its name comes out as a doc
comment exactly if it is intact. -/
theorem docText_comment {l : Lookahead} {headerPassed : Bool} {c : Cursor} {text : Text}
    (doc : DocText text) (named : ∀ v ∈ (resolveVariable c l).1, 0x2F ∉ v.text) :
    DocText (comment l headerPassed c text).1 ↔ Intact l headerPassed c text := by
  obtain ⟨opens, closes, one⟩ := commonRules_docText doc
  unfold comment Intact
  generalize applyRules commonRules text = common at opens closes one
  cases headerPassed with
  | false =>
    simp only [Bool.false_eq_true, ↓reduceIte, false_and, false_implies, and_true]
    rw [docText_congr (headerRules_frame common), docText_iff, closes, one]
    simp only [opens, true_and]
  | true =>
    by_cases hasVar : Text.contains "@var" common = true
    · have count : terminators (typedArrayVars common) = 1 ↔ terminators common
          = 1 + hitSum takesApart (typedArrayVarPattern.pieces common) := by
        have := typedArrayVars_terminators common
        omega
      rcases found : resolveVariable c l with ⟨_ | v, line⟩
      · simp only [↓reduceIte, hasVar, and_self, Option.not_mem_none, false_implies,
          implies_true, and_true]
        rw [docText_iff, typedArrayVars_opens opens, typedArrayVars_closes, closes, count]
        exact and_left_comm
      · have same := annotateVar_frame (named v (by rw [found]; rfl)) (typedArrayVars common)
        simp only [↓reduceIte, hasVar, and_self, Option.mem_def, Option.some.injEq, forall_eq']
        rw [docText_memberRules, same.opens, same.closes, same.count, typedArrayVars_opens opens,
          typedArrayVars_closes, closes, count]
        exact and_left_comm
    · simp only [↓reduceIte, hasVar, Bool.false_eq_true, and_false, true_implies]
      rw [docText_memberRules, closes, one]
      simp only [opens, true_and]

end DocBridge.Dialect

namespace DocBridge.Filter

open DocBridge.Frame

theorem firstVariable_mem {line : Nat} {tokens : List Token} {t : Token}
    (found : (Dialect.firstVariable line tokens).1 = some t) :
    t ∈ tokens ∧ t.kind = .variableName := by
  induction tokens generalizing line with
  | nil => contradiction
  | cons first rest ih =>
    rw [Dialect.firstVariable] at found
    split at found
    · exact ⟨List.mem_cons_of_mem _ (ih found).1, (ih found).2⟩
    · split at found
      · rename_i isVariable
        cases found
        exact ⟨List.mem_cons_self, isVariable⟩
      · exact ⟨List.mem_cons_of_mem _ (ih found).1, (ih found).2⟩

theorem window_mem {c : Cursor} {lo hi : Int} {t : Token} (member : t ∈ c.window lo hi) :
    t ∈ c.tokens := by
  unfold Cursor.window at member
  simp only at member
  split at member
  · contradiction
  · split at member
    · exact List.mem_of_mem_drop member
    · exact List.mem_of_mem_drop (List.mem_of_mem_take member)

theorem variable_no_slash (l : Lookahead) (src : Text) (i : Int) :
    ∀ v ∈ (Dialect.resolveVariable ⟨Token.stream src, i⟩ l).1, 0x2F ∉ v.text := by
  intro v found
  obtain ⟨member, kind⟩ := firstVariable_mem found
  exact Token.lexed_variable (Token.lexed_stream src) v (window_mem member) kind

def writtenPairs (l : Lookahead) (tokens : List Token) : List (Token × Text) :=
  tokens.zipIdx.map fun (t, i) => (t, (written l tokens i t).1)

theorem writtenPairs_fst (l : Lookahead) (tokens : List Token) :
    (writtenPairs l tokens).map Prod.fst = tokens := by
  rw [writtenPairs, List.map_map]
  exact List.zipIdx_map_fst 0 tokens

theorem writtenPairs_snd (l : Lookahead) (name src : Text) :
    (writtenPairs l (Token.stream src)).flatMap Prod.snd = (process l name none src).output := by
  rw [process_output, writtenPairs, List.flatMap_map]

theorem writtenPairs_get (l : Lookahead) {tokens : List Token} {i : Nat} {t : Token}
    (here : tokens[i]? = some t) :
    (writtenPairs l tokens)[i]? = some (t, (written l tokens i t).1) := by
  simp [writtenPairs, here]

/-- Filtering keeps the tokens: there are as many as before, each of its kind, those that are not
doc comments with their texts, and every doc comment as rewritten is one token. -/
def KeepsTokens (l : Lookahead) (name src : Text) : Prop :=
  let tokens := Token.stream src
  let filtered := Token.stream (process l name none src).output
  filtered.length = tokens.length ∧
    ∀ i t t', tokens[i]? = some t → filtered[i]? = some t' →
      t'.kind = t.kind ∧ (t.kind ≠ .docComment → t'.text = t.text) ∧
      (t.kind = .docComment → DocText t'.text ∧
        t'.text = (Dialect.comment l (passedBefore tokens i) ⟨tokens, i⟩ t.text).1)

theorem docText_written {l : Lookahead} {src : Text} {i : Nat} {t : Token}
    (here : (Token.stream src)[i]? = some t) (doc : t.kind = .docComment) :
    DocText (written l (Token.stream src) i t).1 ↔
      Dialect.Intact l (passedBefore (Token.stream src) i) ⟨Token.stream src, i⟩ t.text := by
  have isDoc := Token.lexed_doc (Token.lexed_stream src) t (List.mem_of_getElem? here) doc
  rw [written_doc doc]
  exact Dialect.docText_comment isDoc (variable_no_slash l src i)

/-- With doc comments for doc comments the output is scanned into what was written. -/
theorem stream_output {l : Lookahead} (name : Text) {src : Text}
    (intact : ∀ i t, (Token.stream src)[i]? = some t → t.kind = .docComment →
      DocText (written l (Token.stream src) i t).1) :
    (Token.stream (process l name none src).output).map Token.kind
        = (Token.stream src).map Token.kind ∧
      (Token.stream (process l name none src).output).map Token.text
        = (writtenPairs l (Token.stream src)).map Prod.snd := by
  have fits : ∀ p ∈ writtenPairs l (Token.stream src), Token.Replaces p.1 p.2 := by
    intro p member
    obtain ⟨⟨t, i⟩, inside, rfl⟩ := List.mem_map.mp member
    have here := List.mem_zipIdx_iff_getElem?.mp inside
    by_cases doc : t.kind = .docComment
    · rw [Token.Replaces, if_pos doc]
      exact intact i t here doc
    · rw [Token.Replaces, if_neg doc]
      exact congrArg Prod.fst (written_other doc)
  have lexed := Token.lexed_stream src
  rw [← writtenPairs_fst l (Token.stream src)] at lexed
  obtain ⟨tokens, lexed', kinds, texts⟩ := Token.lexed_replace _ lexed fits 1
  rw [writtenPairs_snd l name] at lexed'
  have same : tokens = Token.stream (process l name none src).output := Token.lexed_unique lexed'
  rw [same] at kinds texts
  have before := congrArg (List.map Token.kind) (writtenPairs_fst l (Token.stream src))
  rw [List.map_map] at before
  exact ⟨kinds.trans before, texts⟩

/-- Filtering keeps the tokens of a source exactly if each of its doc comments is intact. -/
theorem process_keeps_tokens_iff (l : Lookahead) (name src : Text) :
    KeepsTokens l name src ↔
      ∀ i t, (Token.stream src)[i]? = some t → t.kind = .docComment →
        Dialect.Intact l (passedBefore (Token.stream src) i) ⟨Token.stream src, i⟩ t.text := by
  constructor
  · rintro ⟨length, each⟩ i t here doc
    have inside := (List.getElem?_eq_some_iff.mp here).1
    rw [← length] at inside
    obtain ⟨_, _, rewritten⟩ := each i t _ here (List.getElem?_eq_getElem inside)
    obtain ⟨isDoc, same⟩ := rewritten doc
    rw [← docText_written here doc, written_doc doc, ← same]
    exact isDoc
  · intro intact
    obtain ⟨kinds, texts⟩ := stream_output name fun i t here doc =>
      (docText_written here doc).mpr (intact i t here doc)
    refine ⟨by simpa using congrArg List.length kinds, fun i t t' here here' => ?_⟩
    have kind : t'.kind = t.kind := by
      have := congrArg (·[i]?) kinds
      simpa [here, here'] using this
    have text : t'.text = (written l (Token.stream src) i t).1 := by
      have := congrArg (·[i]?) texts
      simpa [here', writtenPairs_get l here] using this
    refine ⟨kind, fun other => ?_, fun doc => ?_⟩
    · rw [text, written_other other]
    · rw [text, ← written_doc doc]
      exact ⟨(docText_written here doc).mpr (intact i t here doc), rfl⟩

theorem link_at_end_breaks_tokens :
    ¬ KeepsTokens {} [] "<?php /** @link http://x.example */ $a;" := by
  intro keeps
  exact absurd keeps.1 (by decide +kernel)

end DocBridge.Filter
