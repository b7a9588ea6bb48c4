import DocBridge.Decimal
import DocBridge.Proofs.Text.Search
import Mathlib.Tactic.IntervalCases

/-
Decimal digits of natural numbers, and a reader of numerals: digits with a point among them or
none, and an exponent or none.
-/
namespace DocBridge.Numeral

open Text

def digitByte (d : Nat) : UInt8 := UInt8.ofNat (0x30 + d)

def value (digits : Text) : Nat := digits.foldl (fun n b => 10 * n + (b.toNat - 0x30)) 0

/-- The number that a numeral stands for, if that is a whole number. -/
def parse? (text : Text) : Option Nat :=
  let (mantissa, exponent) := (cut? "e+" text).getD (text, [])
  let (whole, fraction) := (cut? "." mantissa).getD (mantissa, [])
  let scaled := value (whole ++ fraction) * 10 ^ value exponent
  if whole.isEmpty || !(whole ++ (fraction ++ exponent)).all isDigit then none
  else if scaled % 10 ^ fraction.length = 0 then some (scaled / 10 ^ fraction.length)
  else none

theorem digitByte_toNat {d : Nat} (single : d < 10) : (digitByte d).toNat = 0x30 + d := by
  rw [digitByte, UInt8.toNat_ofNat']
  omega

theorem ofString_digit {d : Nat} (single : d < 10) :
    ofString (String.singleton d.digitChar) = [digitByte d] := by
  interval_cases d <;> decide

theorem ofNat_step {n : Nat} (more : 10 ≤ n) :
    Text.ofNat n = Text.ofNat (n / 10) ++ [digitByte (n % 10)] := by
  have parts : toString n = toString (n / 10) ++ String.singleton (n % 10).digitChar :=
    Nat.repr_of_ge more
  rw [← ofString_digit (Nat.mod_lt n (by decide)), Text.ofNat, parts, ofString,
    String.toByteArray_append, ByteArray.data_append, Array.toList_append]
  rfl

theorem ofNat_digit {n : Nat} (single : n < 10) : Text.ofNat n = [digitByte n] := by
  have alone : toString n = String.singleton n.digitChar := Nat.repr_of_lt single
  rw [Text.ofNat, alone, ofString_digit single]

theorem ofNat_last (n : Nat) : ∃ front, Text.ofNat n = front ++ [digitByte (n % 10)] := by
  rcases Nat.lt_or_ge n 10 with single | more
  · exact ⟨[], by rw [ofNat_digit single, Nat.mod_eq_of_lt single]; rfl⟩
  · exact ⟨_, ofNat_step more⟩

theorem digits_induction {motive : Nat → Prop} (digit : ∀ n < 10, motive n)
    (step : ∀ n, 10 ≤ n → motive (n / 10) → motive n) (n : Nat) : motive n := by
  induction n using Nat.strongRecOn with
  | ind n ih =>
    rcases Nat.lt_or_ge n 10 with single | more
    · exact digit n single
    · exact step n more (ih (n / 10) (by omega))

theorem value_snoc (digits : Text) {d : Nat} (single : d < 10) :
    value (digits ++ [digitByte d]) = 10 * value digits + d := by
  rw [value, List.foldl_append, List.foldl_cons, List.foldl_nil, digitByte_toNat single,
    Nat.add_sub_cancel_left]
  rfl

theorem value_ofNat (n : Nat) : value (Text.ofNat n) = n := by
  induction n using digits_induction with
  | digit n single =>
    have alone := value_snoc [] single
    rw [List.nil_append] at alone
    rw [ofNat_digit single, alone]
    exact Nat.zero_add n
  | step n more ih =>
    rw [ofNat_step more, value_snoc _ (Nat.mod_lt n (by decide)), ih]
    exact Nat.div_add_mod n 10

theorem digitByte_digit {d : Nat} (single : d < 10) : isDigit (digitByte d) = true := by
  interval_cases d <;> decide

theorem ofNat_digits (n : Nat) : (Text.ofNat n).all isDigit = true := by
  induction n using digits_induction with
  | digit n single => rw [ofNat_digit single, List.all_cons, digitByte_digit single]; rfl
  | step n more ih =>
    rw [ofNat_step more, List.all_append, ih, List.all_cons,
      digitByte_digit (Nat.mod_lt n (by decide))]
    rfl

theorem not_mem_ofNat {b : UInt8} (other : isDigit b = false) (n : Nat) : b ∉ Text.ofNat n := by
  intro member
  have digit := List.all_eq_true.mp (ofNat_digits n) b member
  rw [other] at digit
  contradiction

theorem ofNat_ne_nil (n : Nat) : Text.ofNat n ≠ [] := by
  induction n using digits_induction with
  | digit n single => rw [ofNat_digit single]; exact List.cons_ne_nil _ _
  | step n more ih => rw [ofNat_step more]; simp

theorem ofNat_length (n : Nat) : (Text.ofNat n).length = (Nat.toDigits 10 n).length := by
  induction n using digits_induction with
  | digit n single =>
    rw [ofNat_digit single, Nat.toDigits_eq_if (by decide), if_pos single]
    rfl
  | step n more ih =>
    rw [ofNat_step more, Nat.toDigits_eq_if (by decide), if_neg (Nat.not_lt.mpr more),
      List.length_append, List.length_append, ih]
    rfl

theorem ofNat_length_le {n k : Nat} (some_ : 0 < k) : (Text.ofNat n).length ≤ k ↔ n < 10 ^ k := by
  rw [ofNat_length, Nat.length_toDigits_le_iff (by decide) some_]

theorem ofNat_zeros {c : Nat} (some_ : 0 < c) (k : Nat) :
    Text.ofNat (c * 10 ^ k) = Text.ofNat c ++ NumberFormat.zeros k := by
  induction k with
  | zero => rw [Nat.pow_zero, Nat.mul_one]; exact (List.append_nil _).symm
  | succ k ih =>
    have tens : c * 10 ^ (k + 1) = 10 * (c * 10 ^ k) := by
      rw [Nat.pow_succ, Nat.mul_comm (10 ^ k), Nat.mul_left_comm]
    have left : 0 < c * 10 ^ k := Nat.mul_pos some_ (Nat.pow_pos (by decide))
    rw [tens, ofNat_step (by omega), Nat.mul_div_cancel_left _ (by decide), Nat.mul_mod_right, ih,
      NumberFormat.zeros, NumberFormat.zeros, List.replicate_succ', List.append_assoc]
    rfl

theorem parse_parts {text : Text} {n : Nat} (mantissa exponent whole fraction : Text)
    (outer : (cut? "e+" text).getD (text, []) = (mantissa, exponent))
    (inner : (cut? "." mantissa).getD (mantissa, []) = (whole, fraction))
    (some_ : whole ≠ []) (digits : (whole ++ (fraction ++ exponent)).all isDigit = true)
    (scaled : value (whole ++ fraction) * 10 ^ value exponent = n * 10 ^ fraction.length) :
    parse? text = some n := by
  have unit : 0 < 10 ^ fraction.length := Nat.pow_pos (by decide)
  simp only [parse?, outer, inner, digits, scaled, Nat.mul_mod_left, Nat.mul_div_cancel n unit,
    List.isEmpty_eq_false_iff.mpr some_, Bool.not_true, Bool.or_self, Bool.false_eq_true, if_false,
    if_true]

theorem parse_ofNat (n : Nat) : parse? (Text.ofNat n) = some n := by
  refine parse_parts (Text.ofNat n) [] (Text.ofNat n) [] ?_ ?_ (ofNat_ne_nil n) ?_ ?_
  · have noMark : 0x65 ∉ Text.ofNat n := not_mem_ofNat rfl n
    rw [cut_missing (by decide) noMark]
    rfl
  · have noPoint : 0x2E ∉ Text.ofNat n := not_mem_ofNat rfl n
    rw [cut_missing (by decide) noPoint]
    rfl
  · rw [List.append_nil, List.append_nil, ofNat_digits]
  · rw [List.append_nil, value_ofNat]
    rfl

end DocBridge.Numeral
