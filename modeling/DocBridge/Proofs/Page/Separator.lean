import DocBridge.Proofs.Page.Passes
import DocBridge.Proofs.Text.Search

/-
Separators in texts. Restoring leaves none behind, whatever run of colons it meets, and a text
without separators has none in any of its parts; so after one pass nothing is left for the next.
-/
namespace DocBridge

namespace Fix

open Query

theorem hasSeparator_part {part text : Text} (inner : part <:+: text)
    (clean : hasSeparator text = false) : hasSeparator part = false := by
  rw [Bool.eq_false_iff] at clean ⊢
  intro has
  refine clean ((Text.contains_iff _ _).mpr ?_)
  exact ((Text.contains_iff _ _).mp has).trans inner

theorem hasSeparator_append {x y : Text} (clean : hasSeparator (x ++ y) = false) :
    hasSeparator x = false ∧ hasSeparator y = false :=
  ⟨hasSeparator_part (List.prefix_append x y).isInfix clean,
    hasSeparator_part (List.suffix_append x y).isInfix clean⟩

theorem hasSeparator_cons {b : UInt8} {t : Text} (lone : ¬ (b = 0x3A ∧ t.head? = some 0x3A))
    (clean : hasSeparator t = false) : hasSeparator (b :: t) = false := by
  rw [Bool.eq_false_iff] at clean ⊢
  intro has
  rcases List.infix_cons_iff.mp ((Text.contains_iff _ _).mp has) with first | later
  · obtain ⟨rest, same⟩ := first
    cases same
    exact lone ⟨rfl, rfl⟩
  · exact clean ((Text.contains_iff _ _).mpr later)

/-- A colon at the start of the result is the colon at the start of the text, and a second one
would have been taken together with it. -/
theorem replaceFrom_clean (skip : Nat) (t : Text) :
    hasSeparator (Text.replaceFrom doxygenSeparator phpSeparator skip t) = false ∧
      (skip = 0 → (Text.replaceFrom doxygenSeparator phpSeparator skip t).head? = some 0x3A →
        t.head? = some 0x3A) := by
  induction t generalizing skip with
  | nil =>
    refine ⟨?_, ?_⟩
    · cases skip <;> rfl
    · cases skip <;> simp [Text.replaceFrom]
  | cons b rest ih =>
    cases skip with
    | succ skip => exact ⟨(ih skip).1, fun zero => by contradiction⟩
    | zero =>
      rw [Text.replaceFrom]
      by_cases taken : doxygenSeparator.isPrefixOf (b :: rest) = true
      · rw [if_pos taken]
        have backslash : phpSeparator = [0x5C] := rfl
        rw [backslash, List.singleton_append]
        refine ⟨hasSeparator_cons (fun colons => ?_) (ih _).1, fun _ colon => ?_⟩
        · exact absurd colons.1 (by decide)
        · simp at colon
      · rw [if_neg taken]
        refine ⟨hasSeparator_cons ?_ (ih 0).1, fun _ colon => colon⟩
        rintro ⟨rfl, colon⟩
        obtain ⟨rest', rfl⟩ := List.head?_eq_some_iff.mp ((ih 0).2 rfl colon)
        exact taken rfl

theorem restored_clean (t : Text) : hasSeparator (restoreSeparators t) = false :=
  (replaceFrom_clean 0 t).1

theorem newText?_clean {text : Text} (clean : hasSeparator text = false) : newText? text = none := by
  rw [newText?, clean]
  rfl

mutual

theorem on_clean (selected : List Path) (path : Path) : ∀ n : Node,
    hasSeparator n.innerText = false → (separatorRevision selected).on path n = n
  | .element tag cs, clean => by
    have kept : (separatorRevision selected).text path cs = none := by
      have none_new : newText? (Node.innerTexts cs) = none := newText?_clean clean
      simp only [separatorRevision, none_new, ite_self]
    rw [Revision.on_children kept, onAll_clean selected path 0 cs clean]
    rfl
  | .text _, _ | .cdata _, _ | .comment _, _ | .directive _, _ | .instruction _ _, _
  | .declaration, _ => rfl

theorem onAll_clean (selected : List Path) (path : Path) (i : Nat) : ∀ cs : List Node,
    hasSeparator (Node.innerTexts cs) = false → (separatorRevision selected).onAll path i cs = cs
  | [], _ => rfl
  | c :: cs, clean => by
    obtain ⟨first, others⟩ := hasSeparator_append clean
    rw [Revision.onAll, on_clean selected (path ++ [i]) c first,
      onAll_clean selected path (i + 1) cs others]

end

end Fix
end DocBridge
