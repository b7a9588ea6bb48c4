import DocBridge.Proofs.Page.Prolog

/-
The boundary between the preamble and the body does not move. A preamble that ends somewhere ends in
front of a body, and it ends there with any other body behind it; so a page whose body is written
anew is parted in the same place and declares the same encoding.
-/
namespace DocBridge.Preamble

open Text

theorem item_other {s : Text} (other : item s = .other) :
    (ofString "<?").isPrefixOf s = false ∧ (ofString "<!").isPrefixOf s = false := by
  have some_ (o : Option Nat) : item.found o ≠ .other := by cases o <;> simp [item.found]
  unfold item at other
  split at other
  · exact absurd other (some_ _)
  · split at other
    · exact absurd other (some_ _)
    · split at other
      · exact absurd other (some_ _)
      · rename_i noQuestion _ noBang
        exact ⟨Bool.eq_false_iff.mpr noQuestion, Bool.eq_false_iff.mpr noBang⟩

theorem length_stops (s : Text) {n : Nat} (found : length? s = some n) : StartsBody (s.drop n) := by
  fun_induction length? s generalizing n with
  | case1 =>
    rw [List.drop_nil]
    exact ⟨rfl, rfl, rfl⟩
  | case2 b rest space ih =>
    obtain ⟨m, inner, rfl⟩ := Option.map_eq_some_iff.mp found
    exact ih inner
  | case3 b rest dark other =>
    cases found
    exact ⟨Bool.eq_false_iff.mpr dark, item_other other⟩
  | case4 b rest dark unfinished => contradiction
  | case5 b rest dark k here ih =>
    obtain ⟨m, inner, rfl⟩ := Option.map_eq_some_iff.mp found
    have two := item_pos here
    have past : (b :: rest).drop (m + k) = (rest.drop (k - 1)).drop m := by
      rw [List.drop_drop, show m + k = (k - 1 + m) + 1 by omega, List.drop_succ_cons]
    rw [past]
    exact ih inner

/-- Either the scanner comes to a body, or all of the page counts as body. -/
theorem split_cases {page p b : Text} (parts : split page = (p, b)) :
    (page = p ++ b ∧ StartsBody b) ∨ (p = [] ∧ b = page) := by
  unfold split at parts
  split at parts
  · rename_i n found
    obtain ⟨rfl, rfl⟩ := Prod.mk.inj parts
    exact .inl ⟨(List.take_append_drop n page).symm, length_stops page found⟩
  · obtain ⟨rfl, rfl⟩ := Prod.mk.inj parts
    exact .inr ⟨rfl, rfl⟩

theorem split_body {body : Text} (starts : StartsBody body) : split body = ([], body) := by
  rw [split, startsBody_length starts]
  rfl

theorem split_preamble {page p b : Text} (parts : split page = (p, b)) : split p = (p, []) := by
  rcases split_cases parts with ⟨rfl, starts⟩ | ⟨rfl, -⟩
  · exact (split_fst_eq_iff starts).mp (congrArg Prod.fst parts)
  · rw [split, length?]
    rfl

end DocBridge.Preamble

namespace DocBridge.Document

open Preamble

/-- The parts of a page make up the page, and its body has no preamble of its own. A preamble stands
in front of the end or of something that starts a body, and in front of any other body it is the
same preamble; so a page with another body that can be read has the same preamble and the same
encoding. -/
theorem preamble_boundary_stable {page p b : Text} (parts : split page = (p, b)) :
    p ++ b = page ∧ split b = ([], b) ∧ (p ≠ [] → StartsBody b) ∧
    ∀ b', StartsBody b' → split (p ++ b') = (p, b') ∧
      encodingLabel (split (p ++ b')).1 = encodingLabel p ∧
      ∀ lenient d d', parse lenient page = .ok d → parse lenient (p ++ b') = .ok d' →
        d'.preamble = d.preamble ∧ d'.charset = d.charset := by
  have cases_ := split_cases parts
  refine ⟨?_, ?_, ?_, ?_⟩
  · rcases cases_ with ⟨whole, -⟩ | ⟨rfl, rfl⟩
    · exact whole.symm
    · rfl
  · rcases cases_ with ⟨-, starts⟩ | ⟨rfl, rfl⟩
    · exact split_body starts
    · exact parts
  · intro some_
    rcases cases_ with ⟨-, starts⟩ | ⟨none_, -⟩
    · exact starts
    · exact absurd none_ some_
  · intro b' starts
    have again : split (p ++ b') = (p, b') := split_append (split_preamble parts) starts
    refine ⟨again, by rw [again], ?_⟩
    intro lenient d d' parsed parsed'
    obtain ⟨preamble, declared, -⟩ := parse_ok parsed
    obtain ⟨preamble', declared', -⟩ := parse_ok parsed'
    rw [parts] at preamble
    rw [again] at preamble'
    have same : d'.preamble = d.preamble := preamble'.trans preamble.symm
    rw [same, declared] at declared'
    exact ⟨same, (Except.ok.inj declared').symm⟩

theorem quoted_end_stays :
    let p : Text := "<?xml version='1.0' encoding='latin1'?>\n<!DOCTYPE a [<!ENTITY b \"]>\">]>"
    let b : Text := "<a/>"
    let b' : Text := "]>?>'--><b/>"
    split (p ++ b) = (p, b) ∧ StartsBody b' ∧ split (p ++ b') = (p, b') ∧
      encodingLabel (split (p ++ b')).1 = encodingLabel p ∧ encodingLabel p = "latin1" := by
  intro p b b'
  have parts : split (p ++ b) = (p, b) := by decide +kernel
  have starts : StartsBody b' := by
    constructor
    · decide
    · decide
  have ⟨_, _, _, others⟩ := preamble_boundary_stable parts
  have ⟨again, label, _⟩ := others b' starts
  exact ⟨parts, starts, again, label, by decide +kernel⟩

end DocBridge.Document
