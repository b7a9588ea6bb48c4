import DocBridge.Comment.Rule
import DocBridge.Fix.Tree

/-
Comments get Doxygen's separator for PHP's, pages get PHP's back. Between the two a text without
colons comes to no harm: every colon then stands in a pair that was put in for one backslash, and
reading from the left meets the pairs one by one.
-/
namespace DocBridge.Fix

theorem restore_pair (s : Text) :
    restoreSeparators (doxygenSeparator ++ s) = 0x5C :: restoreSeparators s := rfl

theorem restore_other {b : UInt8} (other : b ≠ 0x3A) (s : Text) :
    restoreSeparators (b :: s) = b :: restoreSeparators s := by
  have unmatched : doxygenSeparator.isPrefixOf (b :: s) = false := by
    have differ : ((0x3A : UInt8) == b) = false := beq_eq_false_iff_ne.mpr (Ne.symm other)
    change ((0x3A : UInt8) == b && _) = false
    rw [differ, Bool.false_and]
  rw [restoreSeparators, Text.replaceAll, Text.replaceFrom, unmatched]
  rfl

theorem restore_separatorsFrom (afterSlash : Bool) {text : Text} (plain : 0x3A ∉ text) :
    restoreSeparators (Rule.separatorsFrom afterSlash text) = text := by
  induction text generalizing afterSlash with
  | nil => rfl
  | cons b rest ih =>
    rw [List.mem_cons, not_or] at plain
    have later := fun after => ih after plain.2
    rw [Rule.separatorsFrom]
    by_cases slash : b = 0x5C
    · subst slash
      by_cases run : (afterSlash || rest.head? == some 0x5C) = true
      · -- A backslash of a longer run stays, and it is no colon.
        rw [if_pos (beq_self_eq_true _), if_pos run, restore_other (Ne.symm plain.1), later]
      · rw [if_pos (beq_self_eq_true _), if_neg run]
        exact (restore_pair _).trans (by rw [later])
    · rw [if_neg (by simpa using slash), restore_other (Ne.symm plain.1), later]

/-- The separators of a text without colons come back exactly, lone backslashes and longer runs
alike. -/
theorem restoreSeparators_namespaceSeparators {text : Text} (plain : 0x3A ∉ text) :
    restoreSeparators (Rule.namespaceSeparators text) = text :=
  restore_separatorsFrom false plain

theorem restored_runs :
    0x3A ∉ Text.ofString "\\A\\\\B\\C\\" ∧
      restoreSeparators (Rule.namespaceSeparators "\\A\\\\B\\C\\") = Text.ofString "\\A\\\\B\\C\\" := by
  have plain : 0x3A ∉ Text.ofString "\\A\\\\B\\C\\" := by decide
  exact ⟨plain, restoreSeparators_namespaceSeparators plain⟩

end DocBridge.Fix
