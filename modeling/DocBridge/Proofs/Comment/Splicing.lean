import DocBridge.Comment.Dialect
import DocBridge.Proofs.Comment.Backslashes
import DocBridge.Proofs.Pattern.Splice

/-
What the rules copy. All rules but three put something for the matches of a pattern. Each of these
patterns takes something in every match, and has no group that takes part in one twice; so whatever
is put for the matches, all around them is copied in order.
-/
namespace DocBridge.Rule

open Text Pattern

def slashRunPattern : Pat := plus true (.one isSlash)

def patterns : List Pat :=
  [slashRunPattern, propertyLinkPattern, inlineLinkPattern, blockLinkPattern, typedArrayVarPattern,
    varLinePattern, typedArrayParamPattern, internalPattern, propertyPattern, propertyReadPattern,
    returnPattern]

def Splices (apply : Text → Text) : Prop :=
  ∃ p ∈ patterns, ∃ f, ∀ text, apply text = p.replace f text

theorem takeWhile_run {front rest : Text} (run : ∀ b ∈ front, isSlash b = true)
    (stop : ∀ b ∈ rest.head?, isSlash b = false) : (front ++ rest).takeWhile isSlash = front := by
  rw [List.takeWhile_append_of_pos run]
  cases rest with
  | nil => rw [List.takeWhile_nil, List.append_nil]
  | cons b rest =>
    rw [List.takeWhile_cons_of_neg (Bool.eq_false_iff.mp (stop b rfl)), List.append_nil]

theorem slashRun_found (prev : Option UInt8) {front rest : Text} (part : PartOf true front rest) :
    slashRunPattern.matchAt? prev (front ++ rest) = some ⟨front, []⟩ := by
  have run : Reads slashRunPattern prev front rest [] :=
    reads_plus_one.mpr ⟨part.some_, part.uniform, rfl⟩
  obtain ⟨m, found⟩ := matchAt_complete run
  obtain ⟨rest', whole, reads⟩ := matchAt_reads found
  obtain ⟨-, slashes, groups⟩ := reads_plus_one.mp reads
  have stop : ∀ a ∈ rest'.head?, isSlash a = false := by
    rw [whole] at found
    exact matchAt_sated (sated_seq _ (sated_star isSlash)) found
  have maximal : ∀ b ∈ rest.head?, isSlash b = false :=
    fun b head => Bool.eq_false_iff.mpr (part.maximal b head)
  have text : front = m.text :=
    calc front = (front ++ rest).takeWhile isSlash := (takeWhile_run part.uniform maximal).symm
      _ = (m.text ++ rest').takeWhile isSlash := by rw [whole]
      _ = m.text := takeWhile_run slashes stop
  rw [found, text, ← groups]

theorem namespaceSeparators_replace (text : Text) :
    namespaceSeparators text = slashRunPattern.replace (fun m => separated m.text) text := by
  have starts : ∀ prev x r g, Reads slashRunPattern prev x r g → x.head? = some 0x5C := by
    intro prev x r g reads
    obtain ⟨some_, slashes, -⟩ := reads_plus_one.mp reads
    obtain ⟨b, x, rfl⟩ := List.exists_cons_of_ne_nil some_
    exact congrArg some (eq_of_beq (slashes b List.mem_cons_self))
  have after : ∀ prev, slashRunPattern.replaceAfter (fun m => separated m.text) prev text
      = namespaceSeparators text := by
    induction text using parts_induction with
    | nil => exact fun prev => replaceAfter_nil
    | part side front rest here ih =>
      intro prev
      rw [namespaceSeparators_part here]
      cases side with
      | false =>
        have free : 0x5C ∉ front := fun member => absurd (here.uniform _ member) (by decide)
        rw [replaceAfter_free starts free, ih, separated_stretch here.uniform]
      | true =>
        have hit := replaceAfter_hit (m := ⟨front, []⟩) (f := fun m => separated m.text) here.some_
          (slashRun_found prev here)
        rw [hit, ih]
  exact (after none).symm

/-- The patterns are all there are: the other three rules look for fixed words. -/
theorem rules_splice (variableName : Text) : ∀ rule ∈ Dialect.rules variableName,
    Splices rule.apply ∨ rule.name ∈ (["file_command", "license", "inheritdoc"] : List Text) := by
  have separators : Splices namespaceSeparators :=
    ⟨slashRunPattern, by simp [patterns], _, namespaceSeparators_replace⟩
  have direct {p : Pat} (used : p ∈ patterns) (f : Match UInt8 → Text) :
      Splices (p.replace f) := ⟨p, used, f, fun _ => rfl⟩
  intro rule member
  simp only [Dialect.rules, Dialect.commonRules, Dialect.headerRules, Dialect.memberRules,
    Dialect.typedArrayVarRule, Dialect.varNameRule, List.mem_append, List.mem_cons,
    List.not_mem_nil, or_false] at member
  rcases member with ((common | header) | var) | member
  · rcases common with rfl | rfl | rfl | rfl
    · exact .inl separators
    · exact .inl (direct (p := propertyLinkPattern) (by simp [patterns]) _)
    · exact .inl (direct (p := inlineLinkPattern) (by simp [patterns]) _)
    · exact .inl (direct (p := blockLinkPattern) (by simp [patterns]) _)
  · rcases header with rfl | rfl
    · exact .inr (by simp)
    · exact .inr (by simp)
  · rcases var with rfl | rfl
    · exact .inl (direct (p := typedArrayVarPattern) (by simp [patterns]) _)
    · exact .inl (direct (p := varLinePattern) (by simp [patterns]) _)
  · rcases member with rfl | rfl | rfl | rfl | rfl | rfl
    · exact .inl (direct (p := typedArrayParamPattern) (by simp [patterns]) _)
    · exact .inl (direct (p := internalPattern) (by simp [patterns]) _)
    · exact .inl (direct (p := propertyPattern) (by simp [patterns]) _)
    · exact .inl (direct (p := propertyReadPattern) (by simp [patterns]) _)
    · exact .inl (direct (p := returnPattern) (by simp [patterns]) _)
    · exact .inr (by simp)

theorem patterns_splicing : ∀ p ∈ patterns,
    p.takesSome = true ∧ p.loopsBare = true ∧ p.indices.Nodup := by decide

/-- One list of matches, found one after another from the left, serves every replacement: what is
put for them stands between the stretches of text around them, and nothing else. -/
theorem replace_copies_gaps {p : Pat} (used : p ∈ patterns) (text : Text) :
    ∃ found, (∀ found', Successive p text 0 found' ↔ found' = found) ∧
      (∀ o ∈ found, o.Given p text) ∧ (∀ f, p.replace f text = splice f text 0 found) ∧
      p.replace Match.text text = text := by
  obtain ⟨takes, bare, once⟩ := patterns_splicing p used
  have successive : Successive p text 0 (occurrences 0 (p.pieces text)) :=
    successive_occurrences takes (cut_pieces p text) List.drop_zero rfl
  refine ⟨_, fun found' => ⟨fun other => successive_unique takes other successive, ?_⟩,
    fun o member => ?_, fun f => replace_splice p f text, replace_whole p text⟩
  · rintro rfl
    exact successive
  · exact given_of_isFound takes bare once (found_of_successive successive o member)

theorem replace_links_copies :
    inlineLinkPattern ∈ patterns ∧
      ∃ found,
        (∀ found',
          Successive inlineLinkPattern "a \x7b@link x://b\x7d, \x7b@link y://c d\x7d" 0 found' ↔
            found' = found) ∧
        (∀ o ∈ found, o.Given inlineLinkPattern "a \x7b@link x://b\x7d, \x7b@link y://c d\x7d") ∧
        (∀ f, inlineLinkPattern.replace f "a \x7b@link x://b\x7d, \x7b@link y://c d\x7d" =
          splice f "a \x7b@link x://b\x7d, \x7b@link y://c d\x7d" 0 found) ∧
        inlineLinkPattern.replace Match.text "a \x7b@link x://b\x7d, \x7b@link y://c d\x7d" =
          ofString "a \x7b@link x://b\x7d, \x7b@link y://c d\x7d" := by
  have used : inlineLinkPattern ∈ patterns := by simp [patterns]
  exact ⟨used, replace_copies_gaps used _⟩

-- Where the two stand, and the text that only the second has.
example :
    (occurrences 0 (inlineLinkPattern.pieces "a \x7b@link x://b\x7d, \x7b@link y://c d\x7d")).map
        (fun o => (o.start, o.stop, o.found.group 2)) =
      [(2, 15, []), (17, 32, " d")] := by decide +kernel

end DocBridge.Rule
