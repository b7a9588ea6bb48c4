import DocBridge.Page.Preamble
import DocBridge.Proofs.Text.Search
import Mathlib.Data.List.Basic

/-
The boundary between the preamble and the body of a page. Every item of the preamble has its end
inside the preamble, so another body that starts like an element leaves the boundary where it is.
-/
namespace DocBridge.Preamble

open Text

theorem declarationTail_cons (depth : Int) (quote : Option UInt8) (b : UInt8) :
    (b = 0x3E ∧ ∀ rest, declarationTail depth quote (b :: rest) = some 1) ∨
      ∃ depth' quote', ∀ rest, declarationTail depth quote (b :: rest) =
        (declarationTail depth' quote' rest).map (· + 1) := by
  cases quote with
  | some q => exact .inr ⟨_, _, fun rest => rfl⟩
  | none =>
    simp only [declarationTail]
    split
    · exact .inr ⟨_, _, fun rest => rfl⟩
    · split
      · exact .inr ⟨_, _, fun rest => rfl⟩
      · split
        · exact .inr ⟨_, _, fun rest => rfl⟩
        · split
          · rename_i ends
            rw [Bool.and_eq_true, beq_iff_eq] at ends
            exact .inl ⟨ends.1, fun rest => rfl⟩
          · exact .inr ⟨_, _, fun rest => rfl⟩

theorem declarationTail_pos {depth : Int} {quote : Option UInt8} {s : Text} {n : Nat}
    (found : declarationTail depth quote s = some n) : 1 ≤ n := by
  cases s with
  | nil => contradiction
  | cons b rest =>
    rcases declarationTail_cons depth quote b with ⟨_, ends⟩ | ⟨_, _, later⟩
    · rw [ends] at found
      cases found
      exact Nat.le_refl 1
    · rw [later] at found
      obtain ⟨m, _, rfl⟩ := Option.map_eq_some_iff.mp found
      exact Nat.le_add_left 1 m

theorem declarationTail_one {depth : Int} {quote : Option UInt8} {b : UInt8} {rest : Text}
    (found : declarationTail depth quote (b :: rest) = some 1) : b = 0x3E := by
  rcases declarationTail_cons depth quote b with ⟨ends, _⟩ | ⟨_, _, later⟩
  · exact ends
  · rw [later] at found
    obtain ⟨m, tail, one⟩ := Option.map_eq_some_iff.mp found
    have := declarationTail_pos tail
    omega

theorem declarationTail_le {depth : Int} {quote : Option UInt8} {s : Text} {n : Nat}
    (found : declarationTail depth quote s = some n) : n ≤ s.length := by
  induction s generalizing depth quote n with
  | nil => contradiction
  | cons b rest ih =>
    rw [List.length_cons]
    rcases declarationTail_cons depth quote b with ⟨_, ends⟩ | ⟨_, _, later⟩
    · rw [ends] at found
      cases found
      exact Nat.le_add_left 1 _
    · rw [later] at found
      obtain ⟨m, tail, rfl⟩ := Option.map_eq_some_iff.mp found
      exact Nat.succ_le_succ (ih tail)

theorem declarationTail_local (s t t' : Text) {depth : Int} {quote : Option UInt8} {n : Nat}
    (found : declarationTail depth quote (s ++ t) = some n) (inside : n ≤ s.length) :
    declarationTail depth quote (s ++ t') = some n := by
  induction s generalizing depth quote n with
  | nil =>
    have := declarationTail_pos found
    simp only [List.length_nil] at inside
    omega
  | cons b s ih =>
    rw [List.cons_append] at found ⊢
    rcases declarationTail_cons depth quote b with ⟨_, ends⟩ | ⟨_, _, later⟩
    · rw [ends] at found ⊢
      exact found
    · rw [later] at found ⊢
      obtain ⟨m, tail, rfl⟩ := Option.map_eq_some_iff.mp found
      rw [ih tail (by simpa using inside)]
      rfl

theorem item_cases {s : Text} {n : Nat} (found : item s = .length n) :
    ((ofString "<?").isPrefixOf s = true ∧ ∃ i, indexOf? "?>" s = some i ∧ n = i + 2) ∨
      ((ofString "<?").isPrefixOf s = false ∧ (ofString "<!--").isPrefixOf s = true ∧
        ∃ i, indexOf? "-->" (s.drop 4) = some i ∧ n = i + 7) ∨
      ((ofString "<?").isPrefixOf s = false ∧ (ofString "<!--").isPrefixOf s = false ∧
        (ofString "<!").isPrefixOf s = true ∧
        ∃ i, declarationTail 0 none (s.drop 2) = some i ∧ n = i + 2) := by
  have read {o : Option Nat} (length : item.found o = .length n) : o = some n := by
    cases o with
    | none => contradiction
    | some m =>
      cases length
      rfl
  unfold item at found
  split at found
  · rename_i first
    obtain ⟨i, at_, rfl⟩ := Option.map_eq_some_iff.mp (read found)
    exact .inl ⟨first, i, at_, rfl⟩
  · rename_i first
    rw [Bool.not_eq_true] at first
    split at found
    · rename_i second
      obtain ⟨i, at_, rfl⟩ := Option.map_eq_some_iff.mp (read found)
      exact .inr (.inl ⟨first, second, i, at_, rfl⟩)
    · rename_i second
      rw [Bool.not_eq_true] at second
      split at found
      · rename_i third
        obtain ⟨i, at_, rfl⟩ := Option.map_eq_some_iff.mp (read found)
        exact .inr (.inr ⟨first, second, third, i, at_, rfl⟩)
      · contradiction

theorem item_pos {s : Text} {n : Nat} (found : item s = .length n) : 2 ≤ n := by
  rcases item_cases found with ⟨_, i, _, rfl⟩ | ⟨_, _, i, _, rfl⟩ | ⟨_, _, _, i, _, rfl⟩ <;> omega

theorem item_le {s : Text} {n : Nat} (found : item s = .length n) : n ≤ s.length := by
  rcases item_cases found with ⟨_, i, at_, rfl⟩ | ⟨_, second, i, at_, rfl⟩ | ⟨_, _, third, i, at_, rfl⟩
  · exact indexOf_le at_
  · have long := (List.isPrefixOf_iff_prefix.mp second).length_le
    have inside : i + 3 ≤ (s.drop 4).length := indexOf_le at_
    have four : (ofString "<!--").length = 4 := rfl
    rw [List.length_drop] at inside
    omega
  · have long := (List.isPrefixOf_iff_prefix.mp third).length_le
    have inside := declarationTail_le at_
    have two : (ofString "<!").length = 2 := rfl
    rw [List.length_drop] at inside
    omega

/-- An item that ends inside `s` does so whatever follows `s`. -/
theorem item_local (s t t' : Text) {n : Nat} (found : item (s ++ t) = .length n)
    (inside : n ≤ s.length) : item (s ++ t') = .length n := by
  have two := item_pos found
  have question : ∀ t, (ofString "<?").isPrefixOf (s ++ t) = (ofString "<?").isPrefixOf s :=
    isPrefixOf_append (show 2 ≤ s.length by omega)
  have bang : ∀ t, (ofString "<!").isPrefixOf (s ++ t) = (ofString "<!").isPrefixOf s :=
    isPrefixOf_append (show 2 ≤ s.length by omega)
  rcases item_cases found with ⟨first, i, at_, rfl⟩ | ⟨first, second, i, at_, rfl⟩ |
    ⟨first, second, third, i, at_, rfl⟩
  · rw [question] at first
    rw [item, question, if_pos first, indexOf_local (by decide) s t t' at_ inside]
    rfl
  · have dashes : ∀ t, (ofString "<!--").isPrefixOf (s ++ t) = (ofString "<!--").isPrefixOf s :=
      isPrefixOf_append (show 4 ≤ s.length by omega)
    have split : ∀ t : Text, (s ++ t).drop 4 = s.drop 4 ++ t :=
      fun t => List.drop_append_of_le_length (by omega)
    rw [question] at first
    rw [dashes] at second
    rw [split] at at_
    rw [item, question, if_neg (by rw [first]; decide), dashes, if_pos second, split,
      indexOf_local (by decide) _ t t' at_ (by rw [List.length_drop]; exact Nat.le_sub_of_add_le inside)]
    rfl
  · have split : ∀ t : Text, (s ++ t).drop 2 = s.drop 2 ++ t :=
      fun t => List.drop_append_of_le_length (by omega)
    have dashes : (ofString "<!--").isPrefixOf (s ++ t') = false := by
      by_cases long : 4 ≤ s.length
      · have same : ∀ t, (ofString "<!--").isPrefixOf (s ++ t) = (ofString "<!--").isPrefixOf s :=
          isPrefixOf_append long
        rw [same] at second ⊢
        exact second
      · -- A declaration of three bytes has its end where a comment has a dash.
        have one := declarationTail_pos at_
        obtain ⟨x, y, b, rfl⟩ := List.length_eq_three.mp (show s.length = 3 by omega)
        have shortest : i = 1 := by simp only [List.length_cons, List.length_nil] at inside; omega
        subst shortest
        have ends : b = 0x3E := declarationTail_one at_
        subst ends
        have dash : ofString "<!--" = [0x3C, 0x21, 0x2D, 0x2D] := rfl
        simp [dash, List.isPrefixOf]
    rw [question] at first
    rw [bang] at third
    rw [split] at at_
    rw [item, question, if_neg (by rw [first]; decide), if_neg (by rw [dashes]; decide), bang,
      if_pos third, declarationLength?, split,
      declarationTail_local _ t t' at_ (by rw [List.length_drop]; omega)]
    rfl

def StartsBody (body : Text) : Prop :=
  body.head?.any isSpace = false ∧ (ofString "<?").isPrefixOf body = false ∧
    (ofString "<!").isPrefixOf body = false

theorem startsBody_length {body : Text} (starts : StartsBody body) : length? body = some 0 := by
  obtain ⟨dark, noQuestion, noBang⟩ := starts
  cases body with
  | nil => rw [length?]
  | cons b rest =>
    have noDashes : (ofString "<!--").isPrefixOf (b :: rest) = false := by
      rw [Bool.eq_false_iff, Ne, List.isPrefixOf_iff_prefix]
      intro dashes
      rw [Bool.eq_false_iff, Ne, List.isPrefixOf_iff_prefix] at noBang
      exact noBang (List.IsPrefix.trans (by decide) dashes)
    have other : item (b :: rest) = .other := by
      simp [item, noQuestion, noBang, noDashes]
    have dark : isSpace b = false := dark
    rw [length?, dark, other]
    rfl

/-- The boundary stays where it is when another body takes the place of the first. -/
theorem length_local (b b' : Text) (starts : StartsBody b') (p : Text)
    (found : length? (p ++ b) = some p.length) : length? (p ++ b') = some p.length := by
  induction h : p.length using Nat.strongRecOn generalizing p with
  | ind size ih =>
    cases p with
    | nil =>
      rw [← h]
      exact startsBody_length starts
    | cons c p =>
      rw [List.cons_append, length?] at found ⊢
      rw [List.length_cons] at h found
      by_cases space : isSpace c = true
      · rw [if_pos space] at found ⊢
        obtain ⟨n, inner, same⟩ := Option.map_eq_some_iff.mp found
        cases Nat.add_right_cancel same
        rw [ih p.length (by omega) p inner rfl, ← h]
        rfl
      · rw [if_neg space] at found ⊢
        cases here : item (c :: (p ++ b)) with
        | other => simp [here] at found
        | unfinished => simp [here] at found
        | length n =>
          simp only [here] at found
          obtain ⟨k, inner, whole⟩ := Option.map_eq_some_iff.mp found
          have two := item_pos here
          have split : ∀ t : Text, (p ++ t).drop (n - 1) = p.drop (n - 1) ++ t :=
            fun t => List.drop_append_of_le_length (by omega)
          have rest : k = (p.drop (n - 1)).length := by rw [List.length_drop]; omega
          rw [split, rest] at inner
          have item' := item_local (c :: p) b b' here (by rw [List.length_cons]; omega)
          rw [List.cons_append] at item'
          simp only [item', split, ih _ (by omega) _ inner rfl]
          rw [← rest, Option.map_some, whole, h]

theorem length_le (s : Text) {n : Nat} (found : length? s = some n) : n ≤ s.length := by
  fun_induction length? s generalizing n with
  | case1 =>
    cases found
    exact Nat.le_refl 0
  | case2 b rest space ih =>
    obtain ⟨m, inner, rfl⟩ := Option.map_eq_some_iff.mp found
    exact Nat.succ_le_succ (ih inner)
  | case3 b rest dark other =>
    cases found
    exact Nat.zero_le _
  | case4 b rest dark unfinished => contradiction
  | case5 b rest dark k here ih =>
    obtain ⟨m, inner, rfl⟩ := Option.map_eq_some_iff.mp found
    have inside := item_le here
    have later := ih inner
    have two := item_pos here
    rw [List.length_drop] at later
    rw [List.length_cons] at inside ⊢
    omega

theorem split_append {p body : Text} (whole : split p = (p, [])) (starts : StartsBody body) :
    split (p ++ body) = (p, body) := by
  have found : length? (p ++ []) = some p.length := by
    rw [List.append_nil]
    unfold split at whole
    cases size : length? p with
    | none =>
      rw [size] at whole
      have empty : p = [] := congrArg Prod.snd whole
      rw [empty, length?] at size
      contradiction
    | some n =>
      rw [size] at whole
      have all : p.drop n = [] := congrArg Prod.snd whole
      rw [Nat.le_antisymm (length_le p size) (List.drop_eq_nil_iff.mp all)]
  rw [split, length_local [] body starts p found]
  simp

end DocBridge.Preamble
