import DocBridge.Proofs.Token.Kinds
import Mathlib.Algebra.Group.Nat.Even
import Mathlib.Data.List.DropRight

/-
Where strings end. The scanner takes a backslash together with the byte behind it, two bytes at a
time; seen from the quote this is a matter of parity: a quote ends the string if an even number of
backslashes stands right before it. A pair taken at the front of a text changes no parity further on,
and neither does a byte that is no backslash.
-/
namespace DocBridge.Lexeme

open Text Scan

def slashesAtEnd (front : Text) : Nat := (front.rtakeWhile (· == 0x5C)).length

def Unescaped (quote : UInt8) (s : Text) (i : Nat) : Prop :=
  s[i]? = some quote ∧ Even (slashesAtEnd (s.take i))

def FirstUnescaped (quote : UInt8) (s : Text) (i : Nat) : Prop :=
  Unescaped quote s i ∧ ∀ j < i, ¬ Unescaped quote s j

theorem slashesAtEnd_cons (b : UInt8) (s : Text) :
    slashesAtEnd (b :: s) =
      if slashesAtEnd s = s.length then s.length + (if b == 0x5C then 1 else 0)
      else slashesAtEnd s := by
  simp only [slashesAtEnd, List.rtakeWhile, List.reverse_cons, List.length_reverse,
    List.takeWhile_append]
  split <;> cases slash : b == 0x5C <;> simp [slash]

theorem slashesAtEnd_le (s : Text) : slashesAtEnd s ≤ s.length :=
  (List.rtakeWhile_suffix _ _).length_le

theorem slashesAtEnd_plain {b : UInt8} (plain : b ≠ 0x5C) (s : Text) :
    slashesAtEnd (b :: s) = slashesAtEnd s := by
  have other : (b == 0x5C) = false := beq_eq_false_iff_ne.mpr plain
  rw [slashesAtEnd_cons, other]
  split
  · rename_i all
    rw [all]
    rfl
  · rfl

theorem slashesAtEnd_pair (a : UInt8) (s : Text) :
    Even (slashesAtEnd (0x5C :: a :: s)) ↔ Even (slashesAtEnd s) := by
  have inside := slashesAtEnd_le s
  rw [slashesAtEnd_cons, slashesAtEnd_cons, List.length_cons]
  by_cases all : slashesAtEnd s = s.length
  · cases slash : a == 0x5C <;> simp [all, Nat.even_add_one]
  · rw [if_neg all, if_neg (by omega)]

theorem unescaped_plain {quote b : UInt8} (plain : b ≠ 0x5C) (s : Text) (i : Nat) :
    Unescaped quote (b :: s) (i + 1) ↔ Unescaped quote s i := by
  rw [Unescaped, Unescaped, List.getElem?_cons_succ, List.take_succ_cons, slashesAtEnd_plain plain]

theorem unescaped_pair (quote a : UInt8) (s : Text) (i : Nat) :
    Unescaped quote (0x5C :: a :: s) (i + 2) ↔ Unescaped quote s i := by
  rw [Unescaped, Unescaped, List.getElem?_cons_succ, List.getElem?_cons_succ, List.take_succ_cons,
    List.take_succ_cons, slashesAtEnd_pair]

theorem unescaped_head (quote b : UInt8) (s : Text) : Unescaped quote (b :: s) 0 ↔ b = quote := by
  simp [Unescaped, slashesAtEnd]

theorem not_unescaped_pair {quote : UInt8} (other : quote ≠ 0x5C) (a : UInt8) (s : Text) {i : Nat}
    (within : i < 2) : ¬ Unescaped quote (0x5C :: a :: s) i := by
  rcases i with _ | _ | i
  · simpa [unescaped_head] using Ne.symm other
  · rintro ⟨-, even⟩
    have one : slashesAtEnd [0x5C] = 1 := by decide
    rw [List.take_succ_cons, List.take_zero, one] at even
    exact absurd even (by decide)
  · omega

theorem unescaped_append {quote : UInt8} {s : Text} {i : Nat} (inside : i < s.length) (t : Text) :
    Unescaped quote (s ++ t) i ↔ Unescaped quote s i := by
  rw [Unescaped, Unescaped, List.getElem?_append_left inside,
    List.take_append_of_le_length (Nat.le_of_lt inside)]

/-- The first `n` bytes go through the first quote that is not escaped, or there is none and they are
all. -/
def EndsAfter (quote : UInt8) (s : Text) (n : Nat) : Prop :=
  (∃ i, n = i + 1 ∧ FirstUnescaped quote s i) ∨ (n = s.length ∧ ∀ i, ¬ Unescaped quote s i)

/-- Bytes in front that hold no end and change none behind them only shift it. -/
theorem endsAfter_behind {quote : UInt8} (front : Text) {rest : Text} {n : Nat}
    (free : ∀ j < front.length, ¬ Unescaped quote (front ++ rest) j)
    (shift : ∀ k, Unescaped quote (front ++ rest) (k + front.length) ↔ Unescaped quote rest k)
    (ends : EndsAfter quote rest n) : EndsAfter quote (front ++ rest) (n + front.length) := by
  have behind {j : Nat} (unescaped : Unescaped quote (front ++ rest) j) :
      ∃ k, j = k + front.length ∧ Unescaped quote rest k := by
    by_cases within : j < front.length
    · exact absurd unescaped (free j within)
    · obtain ⟨k, rfl⟩ : ∃ k, j = k + front.length := ⟨j - front.length, by omega⟩
      exact ⟨k, rfl, (shift k).mp unescaped⟩
  rcases ends with ⟨i, rfl, here, none_⟩ | ⟨rfl, none_⟩
  · refine .inl ⟨i + front.length, by omega, (shift i).mpr here, ?_⟩
    intro j before unescaped
    obtain ⟨k, rfl, unescaped'⟩ := behind unescaped
    exact none_ k (by omega) unescaped'
  · refine .inr ⟨?_, ?_⟩
    · rw [List.length_append]
      omega
    · intro j unescaped
      obtain ⟨k, -, unescaped'⟩ := behind unescaped
      exact none_ k unescaped'

theorem quotedLength_endsAfter {quote : UInt8} (other : quote ≠ 0x5C) (s : Text) :
    EndsAfter quote s (quotedLength quote s) := by
  fun_induction quotedLength quote s with
  | case1 => exact .inr ⟨rfl, by simp [Unescaped]⟩
  | case2 b =>
    by_cases closes : b = quote
    · exact .inl ⟨0, rfl, (unescaped_head quote b []).mpr closes, by simp⟩
    · refine .inr ⟨rfl, ?_⟩
      intro i
      cases i with
      | zero => rwa [unescaped_head]
      | succ i => simp [Unescaped]
  | case3 b a rest escape ih =>
    obtain rfl : b = 0x5C := by simpa using escape
    apply endsAfter_behind [0x5C, a]
    · intro j within
      exact not_unescaped_pair other a rest within
    · exact unescaped_pair quote a rest
    · exact ih
  | case4 b next rest _ closes =>
    have same : b = quote := by simpa using closes
    exact .inl ⟨0, rfl, (unescaped_head ..).mpr same, by simp⟩
  | case5 b next rest plain differs ih =>
    apply endsAfter_behind [b]
    · intro j within
      obtain rfl : j = 0 := by simpa using within
      exact fun ends => absurd ((unescaped_head ..).mp ends) (by simpa using differs)
    · exact unescaped_plain (by simpa using plain) (next :: rest)
    · exact ih

end DocBridge.Lexeme

namespace DocBridge.Token

open Scan Lexeme

theorem scan_string {mode : Mode} {b : UInt8} {rest : Text} {n : Nat}
    (scanned : scan mode b rest = (.stringLiteral, n)) :
    isQuote b = true ∧ quotedLength b rest = n := by
  obtain ⟨_, gives, seen, scanned⟩ := scan_code scanned (by simp) (by simp) (by simp)
  have lead : leadOf b rest = .quote := by
    cases found : leadOf b rest <;> rw [found] at gives <;> simp [Lead.Gives] at gives ⊢
  rw [lead] at seen scanned
  exact ⟨seen, congrArg Prod.snd scanned⟩

theorem quote_plain {q : UInt8} (quote : isQuote q = true) : q ≠ 0x5C := by
  rintro rfl
  contradiction

/-- A string of a source ends with the first quote of its own behind an even number of backslashes.
If there is none up to the end of the source, it ends there. -/
theorem strings_end_at_first_unescaped (src : Text) (before : List Token) (t : Token)
    (after : List Token) (split : stream src = before ++ t :: after)
    (string : t.kind = .stringLiteral) :
    ∃ q body, isQuote q = true ∧ t.text = q :: body ∧
      ((∃ i, body.length = i + 1 ∧ FirstUnescaped q body i) ∨
        (src = before.flatMap Token.text ++ t.text ∧ ∀ i, ¬ Unescaped q body i)) := by
  have lexed := lexed_stream src
  rw [split] at lexed
  obtain ⟨mode, q, body, kind, kind_, text, scanned, whole⟩ := lexed_scanned lexed
  obtain rfl : kind = .stringLiteral := kindIn_eq (kind_.symm.trans string) (by simp)
  obtain ⟨quote, length⟩ := scan_string scanned
  refine ⟨q, body, quote, text, ?_⟩
  rcases quotedLength_endsAfter (quote_plain quote) (body ++ after.flatMap Token.text) with
    ⟨i, taken, here, none_⟩ | ⟨taken, none_⟩
  · rw [length] at taken
    have inside {j : Nat} (early : j ≤ i) :
        Unescaped q (body ++ after.flatMap Token.text) j ↔ Unescaped q body j := by
      apply unescaped_append
      omega
    refine .inl ⟨i, taken, (inside (Nat.le_refl i)).mp here, ?_⟩
    intro j early unescaped
    exact none_ j early ((inside (Nat.le_of_lt early)).mpr unescaped)
  · rw [length, List.length_append] at taken
    have ends : after.flatMap Token.text = [] := List.eq_nil_of_length_eq_zero (by omega)
    rw [ends, List.append_nil] at none_ whole
    exact .inr ⟨whole, none_⟩

theorem escaped_slash_then_open_escape :
    let src : Text := "<?php 'b\\\\'.\"\\"
    let front : List Token := [⟨.openTag, "<?php ", 1⟩]
    let first : Token := ⟨.stringLiteral, "'b\\\\'", 1⟩
    let dot : Token := ⟨.char, ".", 1⟩
    let last : Token := ⟨.stringLiteral, "\"\\", 1⟩
    stream src = front ++ first :: [dot, last] ∧ stream src = (front ++ [first, dot]) ++ last :: [] ∧
      (∃ q body, isQuote q = true ∧ first.text = q :: body ∧
        ((∃ i, body.length = i + 1 ∧ FirstUnescaped q body i) ∨
          (src = front.flatMap Token.text ++ first.text ∧ ∀ i, ¬ Unescaped q body i))) ∧
      ∃ q body, isQuote q = true ∧ last.text = q :: body ∧
        ((∃ i, body.length = i + 1 ∧ FirstUnescaped q body i) ∨
          (src = (front ++ [first, dot]).flatMap Token.text ++ last.text ∧
            ∀ i, ¬ Unescaped q body i)) := by
  intro src front first dot last
  have split : stream src = front ++ first :: [dot, last] := by decide +kernel
  have split' : stream src = (front ++ [first, dot]) ++ last :: [] := split
  exact ⟨split, split', strings_end_at_first_unescaped src front first _ split rfl,
    strings_end_at_first_unescaped src _ last _ split' rfl⟩

end DocBridge.Token
