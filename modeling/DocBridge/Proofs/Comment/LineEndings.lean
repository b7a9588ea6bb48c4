import DocBridge.Proofs.Comment.Stranded

/-
When filtering keeps the line endings of a source whose lines end in a return and a feed. It does so
exactly if no doc comment before the namespace has a line break, and none behind it has a block link
or a `@var` tag with a known variable on a line that ends in a return.
-/
namespace DocBridge.Dialect

open Text Rule
open DocBridge.Filter (IsVariable)

theorem beforeLinks_paired {text : Text} (paired : Paired text) : Paired (beforeLinks text) :=
  propertyLinks_paired (namespaceSeparators_paired paired)

theorem memberRules_paired {text : Text} (paired : Paired text) :
    Paired (applyRules memberRules text) := by
  rw [memberRules_eq]
  have plain := internalCommand_paired (typedArrayParams_paired paired)
  have listed := readOnlyProperties_paired (properties_paired plain)
  exact inheritdoc_paired (returns_paired listed)

theorem memberRules_stranded {text : Text} (here : stranded .loose text = true) :
    stranded .loose (applyRules memberRules text) = true := by
  rw [memberRules_eq]
  have plain := internalCommand_stranded (typedArrayParams_stranded here)
  have listed := readOnlyProperties_stranded (properties_stranded plain)
  exact inheritdoc_stranded (returns_stranded listed)

/-- The condition under which a doc comment keeps its pairs. -/
def KeepsPairs (l : Lookahead) (headerPassed : Bool) (c : Cursor) (text : Text) : Prop :=
  let common := applyRules commonRules text
  if headerPassed = true then
    ¬ LinkTakesReturn (inlineUrlLinks (beforeLinks text)) ∧
      (Text.contains "@var" common = true →
        ∀ v ∈ (resolveVariable c l).1, ¬ VarTakesReturn (typedArrayVars common))
  else 0x0A ∉ common

theorem headerRules_pairs {text : Text} (feed : 0x0A ∈ text) :
    pairs false (applyRules headerRules text) = none := by
  rw [headerRules_eq, licenseCommand_pairs, fileCommand_pairs feed]

theorem header_pairs {text : Text} (paired : Paired text)
    (one : 0x0A ∉ applyRules commonRules text) :
    Paired (applyRules headerRules (applyRules commonRules text)) := by
  have linked := inlineUrlLinks_paired (beforeLinks_paired paired)
  have kept : ¬ LinkTakesReturn (inlineUrlLinks (beforeLinks text)) := by
    intro taken
    have here := blockUrlLinks_stranded taken linked
    rw [← commonRules_eq, not_stranded_of_no_feed one] at here
    contradiction
  have common := (paired_iff _).mp (blockUrlLinks_paired kept linked)
  rw [headerRules_eq, fileCommand_without_feed one, paired_iff, licenseCommand_pairs]
  exact common

theorem comment_paired {l : Lookahead} {headerPassed : Bool} {c : Cursor} {text : Text}
    (names : ∀ v ∈ (resolveVariable c l).1, IsVariable v.text) (paired : Paired text)
    (keeps : KeepsPairs l headerPassed c text) : Paired (comment l headerPassed c text).1 := by
  have linked := inlineUrlLinks_paired (beforeLinks_paired paired)
  unfold KeepsPairs at keeps
  unfold comment
  cases headerPassed with
  | false => exact header_pairs paired keeps
  | true =>
    obtain ⟨links, vars⟩ := keeps
    have common : Paired (applyRules commonRules text) := blockUrlLinks_paired links linked
    by_cases hasVar : Text.contains "@var" (applyRules commonRules text) = true
    · have arrays := typedArrayVars_paired common
      simp only [if_true, hasVar]
      rcases found : resolveVariable c l with ⟨_ | v, line⟩
      · exact arrays
      · have inside : v ∈ (resolveVariable c l).1 := by rw [found]; rfl
        have clean : Clean v.text :=
          ⟨Filter.not_mem_variable (names v inside) (by decide) (by decide),
            Filter.not_mem_variable (names v inside) (by decide) (by decide)⟩
        exact memberRules_paired (annotateVar_paired clean (vars hasVar v inside) arrays)
    · simp only [if_true, hasVar, Bool.false_eq_true, if_false]
      exact memberRules_paired common

theorem comment_stranded {l : Lookahead} {c : Cursor} {text : Text}
    (names : ∀ v ∈ (resolveVariable c l).1, IsVariable v.text)
    (here : stranded .loose (applyRules commonRules text) = true) :
    stranded .loose (comment l true c text).1 = true := by
  unfold comment
  by_cases hasVar : Text.contains "@var" (applyRules commonRules text) = true
  · have arrays := typedArrayVars_stranded here
    simp only [if_true, hasVar]
    rcases found : resolveVariable c l with ⟨_ | v, line⟩
    · exact arrays
    · have variable_ := names v (by rw [found]; rfl)
      exact memberRules_stranded (annotateVar_stranded variable_ arrays)
  · simp only [if_true, hasVar, Bool.false_eq_true, if_false]
    exact memberRules_stranded here

theorem comment_unpaired {l : Lookahead} {headerPassed : Bool} {c : Cursor} {text : Text}
    (names : ∀ v ∈ (resolveVariable c l).1, IsVariable v.text) (paired : Paired text)
    (loses : ¬ KeepsPairs l headerPassed c text) :
    pairs false (comment l headerPassed c text).1 = none := by
  have linked := inlineUrlLinks_paired (beforeLinks_paired paired)
  unfold KeepsPairs at loses
  cases headerPassed with
  | false => exact headerRules_pairs (not_not.mp loses)
  | true =>
    refine stranded_pairs (s := .loose) (fun firm_ => by contradiction) ?_
    by_cases links : LinkTakesReturn (inlineUrlLinks (beforeLinks text))
    · exact comment_stranded names (blockUrlLinks_stranded links linked)
    · have common : Paired (applyRules commonRules text) := blockUrlLinks_paired links linked
      simp only [if_true, links, not_false_eq_true, true_and, Classical.not_imp, not_forall,
        not_not] at loses
      obtain ⟨hasVar, v, inside, taken⟩ := loses
      have arrays := typedArrayVars_paired common
      have here := annotateVar_returned (names v inside) taken arrays
      unfold comment
      simp only [if_true, hasVar]
      rcases found : resolveVariable c l with ⟨_ | w, line⟩
      · rw [found] at inside
        contradiction
      · rw [found] at inside
        cases Option.some.inj inside
        exact memberRules_stranded here

end DocBridge.Dialect

namespace DocBridge.Filter

open Text

def KeptAt (l : Lookahead) (tokens : List Token) (pair : Token × Nat) : Prop :=
  pair.1.kind = .docComment →
    Dialect.KeepsPairs l (passedBefore tokens pair.2) ⟨tokens, pair.2⟩ pair.1.text

theorem within_doc {src : Text} {t : Token} (member : t ∈ Token.stream src)
    (doc : t.kind = .docComment) : Within t.text := by
  obtain ⟨b, body, _, _, whole⟩ :=
    Frame.docText_shape.mp (Token.lexed_doc (Token.lexed_stream src) t member doc)
  rw [whole]
  refine within_of_ends (a := 0x2F) (b := 0x2F) rfl ?_ (by decide) (by decide)
  exact Frame.last_append _ (Frame.last_append _ rfl)

theorem written_pairs (l : Lookahead) {src : Text} {t : Token} {i : Nat}
    (here : (Token.stream src)[i]? = some t) {s e : Bool} (run : pairs s t.text = some e) :
    (KeptAt l (Token.stream src) (t, i) → pairs s (written l (Token.stream src) i t).1 = some e) ∧
    (¬ KeptAt l (Token.stream src) (t, i) → pairs s (written l (Token.stream src) i t).1 = none) := by
  by_cases doc : t.kind = .docComment
  · obtain ⟨rfl, rfl⟩ := within_doc (List.mem_of_getElem? here) doc s e run
    have paired := (paired_iff _).mpr run
    have names := isVariable_found l src i
    rw [written_doc doc]
    refine ⟨fun keeps => ?_, fun loses => ?_⟩
    · exact (paired_iff _).mp (Dialect.comment_paired names paired (keeps doc))
    · exact Dialect.comment_unpaired names paired fun keeps => loses fun _ => keeps
  · rw [written_other doc]
    exact ⟨fun _ => run, fun loses => absurd (fun isDoc => absurd isDoc doc) loses⟩

theorem flatMap_written_pairs (l : Lookahead) (src : Text) (ps : List (Token × Nat))
    (among : ∀ pair ∈ ps, (Token.stream src)[pair.2]? = some pair.1) {s e : Bool}
    (run : pairs s (ps.flatMap fun (t, _) => t.text) = some e) :
    let out := ps.flatMap fun (t, i) => (written l (Token.stream src) i t).1
    ((∀ pair ∈ ps, KeptAt l (Token.stream src) pair) → pairs s out = some e) ∧
    (¬ (∀ pair ∈ ps, KeptAt l (Token.stream src) pair) → pairs s out = none) := by
  induction ps generalizing s with
  | nil => exact ⟨fun _ => run, fun loses => absurd (fun _ => by simp) loses⟩
  | cons pair ps ih =>
    obtain ⟨t, i⟩ := pair
    obtain ⟨here, later⟩ := List.forall_mem_cons.mp among
    rw [List.flatMap_cons] at run
    obtain ⟨q, first, second⟩ := pairs_split run
    obtain ⟨kept, lost⟩ := written_pairs l here first
    obtain ⟨keptLater, lostLater⟩ := ih later second
    simp only [List.flatMap_cons, List.forall_mem_cons]
    refine ⟨fun all => pairs_join (kept all.1) (keptLater all.2), fun some_ => ?_⟩
    rw [pairs_append]
    by_cases one : KeptAt l (Token.stream src) (t, i)
    · rw [kept one]
      exact lostLater fun all => some_ ⟨one, all⟩
    · rw [lost one]
      rfl

/-- If all returns and feeds of a source are pairs, then those of the output are exactly if each of
its doc comments keeps its pairs. -/
theorem process_keeps_pairs_iff (l : Lookahead) (name : Text) {src : Text} (paired : Paired src) :
    Paired (process l name none src).output ↔
      ∀ i t, (Token.stream src)[i]? = some t → t.kind = .docComment →
        Dialect.KeepsPairs l (passedBefore (Token.stream src) i) ⟨Token.stream src, i⟩ t.text := by
  have among : ∀ pair ∈ (Token.stream src).zipIdx, (Token.stream src)[pair.2]? = some pair.1 :=
    fun pair inside => List.mem_zipIdx_iff_getElem?.mp inside
  have run : pairs false ((Token.stream src).zipIdx.flatMap fun (t, _) => t.text) = some false := by
    rw [flatMap_source]
    exact (paired_iff src).mp paired
  obtain ⟨kept, lost⟩ := flatMap_written_pairs l src _ among run
  rw [process_output, paired_iff]
  constructor
  · intro output i t here doc
    by_contra loses
    have gone := lost fun all => loses (all (t, i) (List.mem_zipIdx_iff_getElem?.mpr here) doc)
    rw [gone] at output
    contradiction
  · intro all
    exact kept fun pair inside => all pair.2 pair.1 (among pair inside)

theorem parameter_keeps_pairs :
    let src : Text := "<?php\r\nnamespace A;\r\n/**\r\n * @param int[] $x\r\n */\r\n"
    Paired src ∧ ∀ i t, (Token.stream src)[i]? = some t → t.kind = .docComment →
      Dialect.KeepsPairs {} (passedBefore (Token.stream src) i) ⟨Token.stream src, i⟩ t.text := by
  intro src
  have paired : Paired src := by decide +kernel
  exact ⟨paired, (process_keeps_pairs_iff {} [] paired).mp (by decide +kernel)⟩

theorem file_command_parts_pair :
    let src : Text := "<?php\r\n/**\r\n * x\r\n */"
    Paired src ∧ ¬ Paired (process {} [] none src).output := by
  decide +kernel

end DocBridge.Filter
