import DocBridge.Proofs.Comment.Cutoff
import DocBridge.Proofs.Comment.Intact
import DocBridge.Proofs.Token.Forms

/-
Which lines filtering keeps. No rule adds a line break. The white space that a rule takes between
a command and its argument may hold line breaks, and those are lost: in both rules on links to
addresses, in both rules on properties and in the rule on return types. All other line breaks
stay, and so does the line of everything behind them.
-/
namespace DocBridge.Text

def breaks (text : Text) : Nat := countByte 0x0A text

theorem breaks_append (a b : Text) : breaks (a ++ b) = breaks a + breaks b := List.count_append

theorem breaks_free {text : Text} (free : 0x0A ∉ text) : breaks text = 0 :=
  List.count_eq_zero_of_not_mem free

end DocBridge.Text

namespace DocBridge.Rule

open Text Pattern DocBridge.Frame

theorem replace_breaks {p : Pat} {f : Match UInt8 → Text} {lost : Match UInt8 → Nat}
    (hits : EachHit p fun m _ => breaks (f m) + lost m = breaks m.text) (text : Text) :
    breaks (p.replace f text) + hitSum lost (p.pieces text) = breaks text := by
  have pieces {prev : Option UInt8} {t : Text} {ps : List (Piece UInt8)} (cut : Cut p prev t ps) :
      breaks (ps.flatMap (Piece.put f)) + hitSum lost ps = breaks t := by
    induction cut with
    | done => rfl
    | @gap _ a rest ps _ _ ih =>
      rw [List.flatMap_cons, Piece.put, ← List.singleton_append (l := rest), breaks_append,
        breaks_append, hitSum]
      omega
    | @hit _ m rest ps taken found _ ih =>
      have here := hits _ _ _ taken found
      rw [List.flatMap_cons, Piece.put, breaks_append, breaks_append, hitSum]
      omega
  exact pieces (cut_pieces p text)

theorem replace_keeps_breaks {p : Pat} {f : Match UInt8 → Text}
    (hits : EachHit p fun m _ => breaks (f m) = breaks m.text) (text : Text) :
    breaks (p.replace f text) = breaks text := by
  have balance := @replace_breaks p f (fun _ => 0) hits text
  rw [hitSum_zero] at balance
  exact balance

theorem swap_breaks {t out : Text} (swap : Swap (fun x y _ => breaks y = breaks x) t out) :
    breaks out = breaks t := by
  induction swap with
  | done => rfl
  | @keep b t out _ ih =>
    rw [← List.singleton_append, ← List.singleton_append (l := t), breaks_append, breaks_append, ih]
  | swap same _ ih => rw [breaks_append, breaks_append, same, ih]

theorem namespaceSeparators_breaks (text : Text) :
    breaks (namespaceSeparators text) = breaks text :=
  swap_breaks (separatorsFrom_swap (fun _ => by decide) false text)

theorem propertyLinks_breaks (text : Text) : breaks (propertyLinks text) = breaks text := by
  refine replace_keeps_breaks (fun prev m rest _ found => ?_) text
  obtain ⟨w, _, whole, groups⟩ := propertyLink_reads (found_reads found)
  have group : m.group 1 = w := by rw [Match.group, groups]; rfl
  rw [whole, group]
  simp only [breaks_append]
  rw [Nat.add_assoc]
  rfl

theorem fileCommand_breaks (text : Text) : breaks (fileCommand text) = breaks text := by
  unfold fileCommand replaceFirst
  split
  · rename_i before after cut
    rw [cut_split cut]
    simp only [breaks_append]
    rw [Nat.add_assoc]
    rfl
  · rfl

theorem licenseCommand_breaks (text : Text) : breaks (licenseCommand text) = breaks text :=
  swap_breaks (replaceAll_swap (by decide) (fun _ => by decide) text)

theorem inheritdoc_breaks (text : Text) : breaks (inheritdoc text) = breaks text :=
  swap_breaks (replaceAll_swap (by decide) (fun _ => by decide) text)

theorem internalCommand_breaks (text : Text) : breaks (internalCommand text) = breaks text := by
  refine replace_keeps_breaks (fun prev m rest _ found => ?_) text
  obtain ⟨b, _, whole, groups⟩ := internal_reads (found_reads found)
  have group : m.group 1 = [b] := by rw [Match.group, groups]; rfl
  rw [whole, group, breaks_append, breaks_append]
  rfl

theorem typedArrayVars_breaks (text : Text) : breaks (typedArrayVars text) = breaks text := by
  refine replace_keeps_breaks (fun prev m rest _ found => ?_) text
  obtain ⟨line, lead, type, whole, one, two, three⟩ := typedArrayVar_reads (found_reads found)
  have literals : breaks "* " = 0 ∧ breaks "[ ]" = 0 ∧ breaks "@var array" = 0 ∧ breaks "*" = 0 ∧
      breaks "@var " = 0 ∧ breaks "[]" = 0 := by decide
  simp only [Match.group, one, two, three, Option.getD_some, whole, breaks_append]
  omega

theorem typedArrayParams_breaks (text : Text) : breaks (typedArrayParams text) = breaks text := by
  refine replace_keeps_breaks (fun prev m rest _ found => ?_) text
  obtain ⟨type, name, whole, one, two⟩ := typedArrayParam_reads (found_reads found)
  have literals : breaks "@param array " = 0 ∧ breaks " " = 0 ∧ breaks "[ ]" = 0 ∧
      breaks "@param " = 0 ∧ breaks "[] " = 0 := by decide
  simp only [Match.group, one, two, Option.getD_some, whole, breaks_append]
  omega

theorem annotateLine_breaks {name : Text} (free : 0x0A ∉ name) (line : Text) :
    breaks (annotateLine name line) = breaks line := by
  have blank : breaks " " = 0 := by decide
  have none_ := breaks_free free
  rcases cutEnd_terminator line with ⟨open_, _⟩ | ⟨body, closed, whole⟩
  · simp only [annotateLine, open_, breaks_append]
    omega
  · obtain ⟨blanks, trimmed, _⟩ := trimEnd_append isBlank body
    have split : line = trimEnd isBlank body ++ (blanks ++ [0x2A, 0x2F]) := by
      rw [whole, ← List.append_assoc, ← trimmed]
    have rest : line.drop (trimEnd isBlank body).length = blanks ++ [0x2A, 0x2F] := by
      rw [split, List.drop_left]
    simp only [annotateLine, closed, rest]
    rw [split]
    simp only [breaks_append]
    omega

theorem annotateVar_breaks {name : Text} (free : 0x0A ∉ name) (text : Text) :
    breaks (annotateVar name text) = breaks text :=
  replace_keeps_breaks (fun _ m _ _ _ => annotateLine_breaks free m.text) text

theorem firstLine_free (rest : Text) : 0x0A ∉ firstLine rest := by
  induction rest with
  | nil => exact List.not_mem_nil
  | cons b rest ih =>
    by_cases feed : b = 0x0A
    · subst feed
      rw [(lines_cons_feed rest).1]
      exact List.not_mem_nil
    · rw [(lines_cons_other feed rest).1, List.mem_cons, not_or]
      exact ⟨Ne.symm feed, ih⟩

theorem mem_anchorText {b : UInt8} {href rest : Text} (member : b ∈ anchorText href rest) :
    b ∈ href ∨ b ∈ firstLine rest := by
  unfold anchorText at member
  split at member
  · exact .inl member
  · obtain ⟨lead, trail, _, _, whole⟩ := Utf8.trimWhite_split (firstLine rest)
    rw [whole]
    exact .inr (List.mem_append_right _ (List.mem_append_left _ member))

theorem anchorText_free {href : Text} (free : 0x0A ∉ href) (rest : Text) :
    0x0A ∉ anchorText href rest :=
  fun feed => (mem_anchorText feed).elim free (firstLine_free rest)

theorem renderLink_breaks {href : Text} (free : 0x0A ∉ href) (rest : Text) :
    breaks (renderLink href rest) = breaks rest := by
  have literals : breaks "<a href=\"" = 0 ∧ breaks "\">" = 0 ∧ breaks "</a>" = 0 := by decide
  have address := breaks_free free
  have shown := breaks_free (anchorText_free free rest)
  have first := breaks_free (firstLine_free rest)
  have lines := congrArg breaks (lines_join rest)
  rw [breaks_append] at lines
  rw [renderLink_eq]
  simp only [breaks_append]
  omega

/-- The line breaks of a link that are not part of its text: those in front of the address. -/
def breaksBeforeAddress (m : Match UInt8) : Nat := breaks m.text - breaks (m.group 2)

theorem renderLink_balance {m : Match UInt8} (free : 0x0A ∉ m.group 1)
    (inside : breaks (m.group 2) ≤ breaks m.text) :
    breaks (renderLink (m.group 1) (m.group 2)) + breaksBeforeAddress m = breaks m.text := by
  rw [renderLink_breaks free, breaksBeforeAddress]
  omega

theorem inlineUrlLinks_breaks (text : Text) : breaks (inlineUrlLinks text)
    + hitSum breaksBeforeAddress (inlineLinkPattern.pieces text) = breaks text := by
  refine replace_breaks (fun prev m rest _ found => ?_) text
  apply renderLink_balance (not_mem_group (by decide) found)
  obtain ⟨lead, href, shown, whole, -, -, -, -, two⟩ := inlineLink_reads (found_reads found)
  rw [Match.group, two, whole]
  simp only [breaks_append]
  omega

theorem blockUrlLinks_breaks (text : Text) : breaks (blockUrlLinks text)
    + hitSum breaksBeforeAddress (blockLinkPattern.pieces text) = breaks text := by
  refine replace_breaks (fun prev m rest _ found => ?_) text
  apply renderLink_balance (not_mem_group (by decide) found)
  obtain ⟨lead, href, shown, whole, -, -, -, -, two⟩ := blockLink_reads (found_reads found)
  rw [Match.group, two, whole]
  simp only [breaks_append]
  omega

theorem replace_loses_breaks {p : Pat} {f : Match UInt8 → Text}
    (hits : EachHit p fun m _ => 0x0A ∉ f m) (text : Text) :
    breaks (p.replace f text) + hitSum (fun m => breaks m.text) (p.pieces text) = breaks text := by
  refine replace_breaks (fun prev m rest taken found => ?_) text
  have none_ := breaks_free (hits prev m rest taken found)
  exact (congrArg (· + breaks m.text) none_).trans (Nat.zero_add _)

theorem properties_breaks (text : Text) : breaks (properties text)
    + hitSum (fun m => breaks m.text) (propertyPattern.pieces text) = breaks text := by
  refine replace_loses_breaks (fun prev m rest _ found => ?_) text
  have type : 0x0A ∉ m.group 1 := not_mem_group (by decide) found
  have name : 0x0A ∉ m.group 3 := not_mem_group (by decide) found
  have tail : 0x0A ∉ m.group 4 := not_mem_group (by decide) found
  simp only [List.mem_append, type, name, tail, or_false]
  decide

theorem readOnlyProperties_breaks (text : Text) : breaks (readOnlyProperties text)
    + hitSum (fun m => breaks m.text) (propertyReadPattern.pieces text) = breaks text := by
  refine replace_loses_breaks (fun prev m rest _ found => ?_) text
  have type : 0x0A ∉ m.group 1 := not_mem_group (by decide) found
  have name : 0x0A ∉ m.group 3 := not_mem_group (by decide) found
  have tail : 0x0A ∉ m.group 4 := not_mem_group (by decide) found
  simp only [List.mem_append, type, name, tail, or_false]
  decide

theorem returns_breaks (text : Text) : breaks (returns text)
    + hitSum (fun m => breaks m.text) (returnPattern.pieces text) = breaks text := by
  refine replace_loses_breaks (fun prev m rest _ found => ?_) text
  exact not_mem_retval (by decide) (not_mem_group (by decide) found)

end DocBridge.Rule

namespace DocBridge.Dialect

open Text Rule

def commonLoss (text : Text) : Nat :=
  hitSum breaksBeforeAddress (inlineLinkPattern.pieces (beforeLinks text))
    + hitSum breaksBeforeAddress (blockLinkPattern.pieces (inlineUrlLinks (beforeLinks text)))

theorem commonRules_breaks (text : Text) :
    breaks (applyRules commonRules text) + commonLoss text = breaks text := by
  have inline := inlineUrlLinks_breaks (beforeLinks text)
  have block := blockUrlLinks_breaks (inlineUrlLinks (beforeLinks text))
  have before : breaks (beforeLinks text) = breaks text := by
    rw [beforeLinks, propertyLinks_breaks, namespaceSeparators_breaks]
  rw [commonRules_eq, commonLoss]
  omega

theorem headerRules_breaks (text : Text) : breaks (applyRules headerRules text) = breaks text := by
  rw [headerRules_eq, licenseCommand_breaks, fileCommand_breaks]

def memberLoss (text : Text) : Nat :=
  let plain := internalCommand (typedArrayParams text)
  hitSum (fun m => breaks m.text) (propertyPattern.pieces plain)
    + hitSum (fun m => breaks m.text) (propertyReadPattern.pieces (properties plain))
    + hitSum (fun m => breaks m.text)
      (returnPattern.pieces (readOnlyProperties (properties plain)))

theorem memberRules_breaks (text : Text) :
    breaks (applyRules memberRules text) + memberLoss text = breaks text := by
  have plain : breaks (internalCommand (typedArrayParams text)) = breaks text := by
    rw [internalCommand_breaks, typedArrayParams_breaks]
  have written := properties_breaks (internalCommand (typedArrayParams text))
  have readOnly := readOnlyProperties_breaks (properties (internalCommand (typedArrayParams text)))
  have types := returns_breaks
    (readOnlyProperties (properties (internalCommand (typedArrayParams text))))
  rw [memberRules_eq, inheritdoc_breaks]
  simp only [memberLoss]
  omega

def loss (l : Lookahead) (headerPassed : Bool) (c : Cursor) (text : Text) : Nat :=
  let common := applyRules commonRules text
  commonLoss text +
    if headerPassed then
      if Text.contains "@var" common then
        match (resolveVariable c l).1 with
        | some v => memberLoss (annotateVar v.text (typedArrayVars common))
        | none => 0
      else memberLoss common
    else 0

theorem comment_breaks {l : Lookahead} {c : Cursor}
    (free : ∀ v ∈ (resolveVariable c l).1, 0x0A ∉ v.text) (headerPassed : Bool) (text : Text) :
    breaks (comment l headerPassed c text).1 + loss l headerPassed c text = breaks text := by
  have common := commonRules_breaks text
  simp only [comment, loss]
  split
  · split
    · have array := typedArrayVars_breaks (applyRules commonRules text)
      rcases found : resolveVariable c l with ⟨v, line⟩
      cases v with
      | none =>
        simp only
        omega
      | some v =>
        have named := annotateVar_breaks (free v (by rw [found]; rfl))
          (typedArrayVars (applyRules commonRules text))
        have member := memberRules_breaks
          (annotateVar v.text (typedArrayVars (applyRules commonRules text)))
        simp only
        omega
    · have member := memberRules_breaks (applyRules commonRules text)
      simp only
      omega
  · have header := headerRules_breaks (applyRules commonRules text)
    simp only
    omega

end DocBridge.Dialect

namespace DocBridge.Filter

open Text

def IsVariable (name : Text) : Prop := ∃ w, name = 0x24 :: w ∧ ∀ b ∈ w, Scan.isNamePart b = true

theorem isVariable_found (l : Lookahead) (src : Text) (i : Int) :
    ∀ v ∈ (Dialect.resolveVariable ⟨Token.stream src, i⟩ l).1, IsVariable v.text := by
  intro v found
  obtain ⟨member, kind⟩ := firstVariable_mem found
  obtain ⟨before, after, split⟩ := List.append_of_mem (window_mem member)
  have split : Token.stream src = before ++ v :: after := split
  have lexed := Token.lexed_stream src
  rw [split] at lexed
  have form := Token.lexed_form lexed
  rw [kind] at form
  obtain ⟨_, text, b, rest, rfl, start, all⟩ := form
  refine ⟨b :: rest, text, fun c member => ?_⟩
  rcases List.mem_cons.mp member with rfl | later
  · rw [Scan.isNamePart, start, Bool.true_or]
  · exact all c later

theorem not_mem_variable {name : Text} (variable_ : IsVariable name) {b : UInt8} (other : b ≠ 0x24)
    (refused : Scan.isNamePart b = false) : b ∉ name := by
  obtain ⟨w, rfl, all⟩ := variable_
  rw [List.mem_cons, not_or]
  exact ⟨other, Rule.not_mem_of_all all refused⟩

def lossAt (l : Lookahead) (tokens : List Token) (i : Nat) (t : Token) : Nat :=
  if t.kind = .docComment then Dialect.loss l (passedBefore tokens i) ⟨tokens, i⟩ t.text else 0

theorem written_breaks (l : Lookahead) (src : Text) (i : Nat) (t : Token) :
    breaks (written l (Token.stream src) i t).1 + lossAt l (Token.stream src) i t
      = breaks t.text := by
  by_cases doc : t.kind = .docComment
  · rw [written_doc doc, lossAt, if_pos doc]
    have free := fun v found =>
      not_mem_variable (b := 0x0A) (isVariable_found l src i v found) (by decide) (by decide)
    exact Dialect.comment_breaks free _ _
  · rw [written_other doc, lossAt, if_neg doc]
    rfl

def lossOver (l : Lookahead) (tokens : List Token) : List (Token × Nat) → Nat
  | [] => 0
  | (t, i) :: pairs => lossAt l tokens i t + lossOver l tokens pairs

theorem lossOver_breaks (l : Lookahead) (src : Text) (pairs : List (Token × Nat)) :
    breaks (pairs.flatMap fun (t, i) => (written l (Token.stream src) i t).1)
        + lossOver l (Token.stream src) pairs
      = breaks (pairs.flatMap fun (t, _) => t.text) := by
  induction pairs with
  | nil => rfl
  | cons pair pairs ih =>
    have here := written_breaks l src pair.2 pair.1
    simp only [List.flatMap_cons, lossOver, breaks_append] at ih ⊢
    omega

theorem lossOver_eq_zero_iff (l : Lookahead) (tokens : List Token) (pairs : List (Token × Nat)) :
    lossOver l tokens pairs = 0 ↔ ∀ pair ∈ pairs, lossAt l tokens pair.2 pair.1 = 0 := by
  induction pairs with
  | nil => simp [lossOver]
  | cons pair pairs ih => rw [lossOver, Nat.add_eq_zero_iff, ih, List.forall_mem_cons]

def lossUpTo (l : Lookahead) (tokens : List Token) (n : Nat) : Nat :=
  lossOver l tokens (upTo tokens n)

def sourceOf (tokens : List Token) (n : Nat) : Text := (tokens.take n).flatMap Token.text

theorem outputOf_breaks (l : Lookahead) (src : Text) (n : Nat) :
    breaks (outputOf l (Token.stream src) n) + lossUpTo l (Token.stream src) n
      = breaks (sourceOf (Token.stream src) n) := by
  rw [outputOf, lossUpTo, lossOver_breaks, sourceOf, ← List.zipIdx_map_fst 0 ((Token.stream src).take n),
    List.flatMap_map]
  rfl

theorem sourceOf_all (src : Text) :
    sourceOf (Token.stream src) (Token.stream src).length = src := by
  rw [sourceOf, List.take_length, Token.stream_join]

def lineAfter (front : Text) : Nat := 1 + breaks front

/-- Filtering keeps the lines: there are as many line breaks as before, and what is copied starts
on its own line. -/
def KeepsLines (l : Lookahead) (name src : Text) : Prop :=
  let tokens := Token.stream src
  breaks (process l name none src).output = breaks src ∧
    ∀ i t, tokens[i]? = some t → t.kind ≠ .docComment →
      lineAfter (outputOf l tokens i) = lineAfter (sourceOf tokens i)

theorem lossUpTo_eq_zero_iff (l : Lookahead) (tokens : List Token) (n : Nat) :
    lossUpTo l tokens n = 0 ↔ ∀ i t, (tokens.take n)[i]? = some t → lossAt l tokens i t = 0 := by
  rw [lossUpTo, lossOver_eq_zero_iff]
  constructor
  · intro zero i t here
    exact zero (t, i) (List.mem_zipIdx_iff_getElem?.mpr here)
  · rintro zero ⟨t, i⟩ inside
    exact zero i t (List.mem_zipIdx_iff_getElem?.mp inside)

/-- Filtering loses as many line breaks as its doc comments do, each token moves up by those lost
before it, and the lines are kept exactly if no doc comment loses any. -/
theorem process_keeps_lines_iff (l : Lookahead) (name src : Text) :
    let tokens := Token.stream src
    breaks (process l name none src).output + lossUpTo l tokens tokens.length = breaks src ∧
    (∀ i, lineAfter (outputOf l tokens i) + lossUpTo l tokens i = lineAfter (sourceOf tokens i)) ∧
    (KeepsLines l name src ↔ ∀ i t, tokens[i]? = some t → t.kind = .docComment →
      Dialect.loss l (passedBefore tokens i) ⟨tokens, i⟩ t.text = 0) := by
  intro tokens
  have total : breaks (process l name none src).output + lossUpTo l tokens tokens.length
      = breaks src := by
    rw [outputOf_all, outputOf_breaks, sourceOf_all]
  have moved (i : Nat) : lineAfter (outputOf l tokens i) + lossUpTo l tokens i
      = lineAfter (sourceOf tokens i) := by
    rw [lineAfter, lineAfter, ← outputOf_breaks l src i, Nat.add_assoc]
  refine ⟨total, moved, ?_, ?_⟩
  · rintro ⟨same, -⟩ i t here doc
    have none_ : lossUpTo l tokens tokens.length = 0 := by omega
    rw [lossUpTo_eq_zero_iff, List.take_length] at none_
    have zero := none_ i t here
    rwa [lossAt, if_pos doc] at zero
  · intro zero
    have none_ (n : Nat) : lossUpTo l tokens n = 0 := by
      apply (lossUpTo_eq_zero_iff l tokens n).mpr
      intro i t here
      rw [List.getElem?_take, Option.ite_none_right_eq_some] at here
      rw [lossAt]
      split
      · rename_i doc
        exact zero i t here.2 doc
      · rfl
    constructor
    · rw [none_] at total
      exact total
    · intro i t _ _
      have here := moved i
      rw [none_] at here
      exact here

theorem return_type_loses_line :
    ¬ KeepsLines {} [] "<?php namespace A;\n/** @return\n    int */\nfunction f() \x7b\x7d" := by
  intro keeps
  exact absurd keeps.1 (by decide +kernel)

end DocBridge.Filter
