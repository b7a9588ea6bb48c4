import DocBridge.Comment.Dialect
import DocBridge.Proofs.Comment.Backslashes
import DocBridge.Proofs.Comment.Intact

/-
Comments that hold none of the tags the rules look for. Every match of a rule holds the rule's tag,
so no rule finds anything: behind the namespace declaration the comment stays as it is, and before it
only the file command is put in and the licence renamed.
-/
namespace DocBridge.Rule

open Text Pattern

theorem namespaceSeparators_untouched {text : Text} (none_ : [0x5C] ∉ slashRuns text) :
    namespaceSeparators text = text := by
  rw [namespaceSeparators_parts, separated_others none_]
  exact List.flatten_splitBy _ _

theorem replace_lit_missing {f : Match UInt8 → Text} {tag text : Text} (w : String) (q : Pat)
    (inside : tag <:+: ofString w) (missing : ¬ tag <:+: text) :
    Pattern.replace (.seq (lit w) q) f text = text := by
  apply replace_missing _ missing
  intro prev x r g reads
  obtain ⟨y, z, _, _, rfl, _, first, _⟩ := reads
  rw [(reads_word.mp first).1]
  exact inside.trans (List.prefix_append _ z).isInfix

end DocBridge.Rule

namespace DocBridge.Dialect

open Rule Text

def tags : List Text :=
  ["@link", "@var", "@param", "@internal", "@property", "@return", "\x7b@inheritdoc\x7d"]

structure Untagged (text : Text) : Prop where
  separators : [0x5C] ∉ slashRuns text
  free : ∀ tag ∈ tags, ¬ tag <:+: text

theorem commonRules_untagged {text : Text} (untagged : Untagged text) :
    applyRules commonRules text = text := by
  have link : ¬ ofString "@link" <:+: text := untagged.free _ (by simp [tags])
  have property : propertyLinks text = text :=
    replace_lit_missing "\x7b@link " _ (by decide) link
  have inline : inlineUrlLinks text = text :=
    replace_lit_missing "\x7b@link" _ (by decide) link
  have block : blockUrlLinks text = text :=
    replace_lit_missing "@link" _ (by decide) link
  rw [commonRules_eq, beforeLinks, namespaceSeparators_untouched untagged.separators, property,
    inline, block]

theorem memberRules_untagged {text : Text} (untagged : Untagged text) :
    applyRules memberRules text = text := by
  have param : ¬ ofString "@param" <:+: text := untagged.free _ (by simp [tags])
  have internal : ¬ ofString "@internal" <:+: text := untagged.free _ (by simp [tags])
  have property : ¬ ofString "@property" <:+: text := untagged.free _ (by simp [tags])
  have return_ : ¬ ofString "@return" <:+: text := untagged.free _ (by simp [tags])
  have inherited : ¬ ofString "\x7b@inheritdoc\x7d" <:+: text := untagged.free _ (by simp [tags])
  have first : typedArrayParams text = text :=
    replace_lit_missing "@param " _ (by decide) param
  have second : internalCommand text = text :=
    replace_lit_missing "@internal" _ (by decide) internal
  have third : properties text = text :=
    replace_lit_missing "@property" _ (by decide) property
  have fourth : readOnlyProperties text = text :=
    replace_lit_missing "@property-read" _ (by decide) property
  have fifth : returns text = text :=
    replace_lit_missing "@return" _ (by decide) return_
  have sixth : inheritdoc text = text := replaceAll_missing inherited "@inheritdoc"
  rw [memberRules_eq, first, second, third, fourth, fifth, sixth]

def Relicensed (text out : Text) : Prop := Substituted "@license" "@copyright" text out

def Headed (text out : Text) : Prop :=
  (0x0A ∉ text ∧ Relicensed text out) ∨
    ∃ line rest line' rest', text = line ++ 0x0A :: rest ∧ 0x0A ∉ line ∧ Relicensed line line' ∧
      Relicensed rest rest' ∧ out = line' ++ (" @file\n" ++ rest')

theorem licenseCommand_relicensed (text : Text) : Relicensed text (licenseCommand text) :=
  replaceAll_substituted (by decide) "@copyright" text

/-- What is put behind the first line is no part of a licence command. -/
theorem licenseCommand_file (line rest : Text) :
    licenseCommand (line ++ (" @file\n" ++ rest)) =
      licenseCommand line ++ (" @file\n" ++ licenseCommand rest) := by
  have blank : ofString " @file\n" = 0x20 :: (ofString "@file" ++ [0x0A]) := by decide
  have command : licenseCommand "@file" = ofString "@file" := by decide
  unfold licenseCommand at command ⊢
  rw [blank, List.cons_append, replaceAll_break (by decide) (by decide), List.append_assoc,
    List.singleton_append, replaceAll_break (by decide) (by decide), command]
  simp

theorem headerRules_headed (text : Text) : Headed text (applyRules headerRules text) := by
  rw [headerRules_eq]
  by_cases feed : 0x0A ∈ text
  · obtain ⟨line, rest, rfl, first⟩ := List.eq_append_cons_of_mem feed
    rw [fileCommand_line first, licenseCommand_file]
    exact Or.inr ⟨line, rest, _, _, rfl, first, licenseCommand_relicensed line,
      licenseCommand_relicensed rest, rfl⟩
  · rw [fileCommand_without_feed feed]
    exact Or.inl ⟨feed, licenseCommand_relicensed text⟩

/-- Whatever stands around it, a comment without tags stays as it is behind the namespace
declaration and is only headed before it; no warning is given. -/
theorem comment_without_tags {text : Text} (untagged : Untagged text) (l : Lookahead) (c : Cursor) :
    comment l true c text = (text, none) ∧ (comment l false c text).2 = none ∧
      Headed text (comment l false c text).1 := by
  have common := commonRules_untagged untagged
  have noVar : contains "@var" text = false := by
    rw [Bool.eq_false_iff]
    intro has
    exact untagged.free _ (by simp [tags]) ((contains_iff _ _).mp has)
  refine ⟨?_, rfl, ?_⟩
  · simp [comment, common, noVar, memberRules_untagged untagged]
  · have header : (comment l false c text).1 = applyRules headerRules text := by
      simp [comment, common]
    rw [header]
    exact headerRules_headed text

theorem license_block_headed :
    let text : Text := "/** A\\\\B @see C\n * @license MIT\n */"
    Untagged text ∧ comment {} true ⟨[], 0⟩ text = (text, none) ∧
      (comment {} false ⟨[], 0⟩ text).2 = none ∧ Headed text (comment {} false ⟨[], 0⟩ text).1 := by
  intro text
  have untagged : Untagged text := ⟨by decide, by decide⟩
  exact ⟨untagged, comment_without_tags untagged {} ⟨[], 0⟩⟩

end DocBridge.Dialect
