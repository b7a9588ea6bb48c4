import DocBridge.Proofs.Decimal.Numeral

/-
Whole numbers as floating-point numbers and their texts. Below `2 ^ 53` a whole number is kept
exactly, its shortest decimal is that number itself, and what is written reads back as it.
-/
namespace DocBridge.Binary

theorem width_small {n : Nat} (small : n < 2 ^ 53) : n.log2 + 1 ≤ precision := by
  rcases Nat.eq_zero_or_pos n with rfl | some_
  · decide
  · exact (Nat.log2_lt (Nat.ne_of_gt some_)).mpr small

theorem nearest_small {n : Nat} (small : n < 2 ^ 53) : nearest n = n := if_pos (width_small small)

theorem ofNat_nearest {n : Nat} (small : nearest n < 2 ^ 53) : ofNat n = ofNat (nearest n) := by
  rw [ofNat, ofNat, nearest_small small]

/- A whole number below `2 ^ 53`, as a multiple of a power of two. Its neighbours are at least a
whole place of the mantissa away, so that only the number itself reads back as it. -/

variable (n k : Nat)

def whole : Binary := ⟨n * 2 ^ k, -k⟩

theorem ofNat_whole {n : Nat} (small : n < 2 ^ 53) : ofNat n = whole n (52 - n.log2) := by
  have places : precision - (n.log2 + 1) = 52 - n.log2 := by
    rw [precision]
    omega
  simp only [ofNat, nearest_small small, width_small small, if_true, places]
  rfl

theorem mantissa_zero {n : Nat} (small : n < 2 ^ 53) : (ofNat n).mantissa = 0 ↔ n = 0 := by
  rw [ofNat_whole small, whole, Nat.mul_eq_zero]
  simp

theorem overCommon_whole (quarters c : Nat) (place : Int) :
    (whole n k).overCommon quarters c place =
      (quarters * 10 ^ (-place).toNat, c * 10 ^ place.toNat * 2 ^ (k + 2)) := by
  have up : (-(k : Int) - 2).toNat = 0 := by omega
  have down : (-(-(k : Int) - 2)).toNat = k + 2 := by omega
  simp only [overCommon, whole, up, down, Nat.pow_eq, Nat.pow_zero, Nat.mul_one]

theorem quarters_whole : 4 * (whole n k).mantissa = n * 2 ^ (k + 2) := by
  rw [whole, Nat.pow_add, Nat.mul_comm 4, Nat.mul_assoc]

theorem floorAt_whole (p : Nat) : (whole n k).floorAt p = n / 10 ^ p := by
  have above : (-(p : Int)).toNat = 0 := by omega
  rw [floorAt, overCommon_whole, quarters_whole, above, Int.toNat_natCast, Nat.pow_zero,
    Nat.mul_one, Nat.one_mul]
  exact Nat.mul_div_mul_right n (10 ^ p) (Nat.two_pow_pos (k + 2))

theorem floorAt_fine (q : Nat) : (whole n k).floorAt (-q) = n * 10 ^ q := by
  have below : (-(q : Int)).toNat = 0 := by omega
  rw [floorAt, overCommon_whole, quarters_whole, below, Int.neg_neg, Int.toNat_natCast,
    Nat.pow_zero, Nat.mul_one, Nat.one_mul, Nat.mul_right_comm]
  exact Nat.mul_div_cancel _ (Nat.two_pow_pos (k + 2))

theorem multiple_near {a b unit : Nat} (room : 4 ≤ unit) (low : b * unit ≤ a * unit + 2)
    (high : a * unit ≤ b * unit + 2) : a = b := by
  rcases Nat.lt_trichotomy a b with less | same | more
  · have := Nat.mul_le_mul_right unit (Nat.succ_le_of_lt less)
    rw [Nat.succ_mul] at this
    omega
  · exact same
  · have := Nat.mul_le_mul_right unit (Nat.succ_le_of_lt more)
    rw [Nat.succ_mul] at this
    omega

theorem readsBack_whole {n : Nat} (some_ : 0 < n) (c p : Nat) :
    (whole n k).readsBack c p = decide (c * 10 ^ p = n) := by
  have room : 4 ≤ 2 ^ (k + 2) := by
    rw [Nat.pow_add]
    have := Nat.two_pow_pos k
    omega
  obtain ⟨below, least, most, low⟩ : ∃ below, 1 ≤ below ∧ below ≤ 2 ∧
      (whole n k).bounds.1 = n * 2 ^ (k + 2) - below := by
    rw [← quarters_whole, bounds]
    split
    · exact ⟨1, Nat.le_refl 1, Nat.le_succ 1, rfl⟩
    · exact ⟨2, Nat.le_succ 1, Nat.le_refl 2, rfl⟩
  have high : (whole n k).bounds.2 = n * 2 ^ (k + 2) + 2 := by rw [← quarters_whole, bounds]
  have above : (-(p : Int)).toNat = 0 := by omega
  simp only [readsBack, low, high, overCommon_whole, above, Int.toNat_natCast, Nat.pow_zero,
    Nat.mul_one]
  generalize c * 10 ^ p = a
  have inside : 0 < n * 2 ^ (k + 2) := Nat.mul_pos some_ (Nat.two_pow_pos _)
  have near := multiple_near (a := a) (b := n) room
  rw [Bool.eq_iff_iff, decide_eq_true_eq]
  split
  · rw [Bool.and_eq_true, decide_eq_true_eq, decide_eq_true_eq]
    constructor
    · rintro ⟨lower, upper⟩
      exact near (by omega) upper
    · rintro rfl
      exact ⟨Nat.sub_le _ _, Nat.le_add_right _ _⟩
  · rw [Bool.and_eq_true, decide_eq_true_eq, decide_eq_true_eq]
    constructor
    · rintro ⟨lower, upper⟩
      exact near (by omega) (Nat.le_of_lt upper)
    · rintro rfl
      exact ⟨Nat.sub_lt inside least, Nat.lt_add_of_pos_right Nat.two_pos⟩

theorem choose_whole {n : Nat} (some_ : 0 < n) (p : Nat) :
    (whole n k).choose? p = if 10 ^ p ∣ n then some (n / 10 ^ p) else none := by
  have past : ¬ (n / 10 ^ p + 1) * 10 ^ p = n := by
    have := Nat.lt_div_mul_add (a := n) (b := 10 ^ p) (Nat.pow_pos (by decide))
    rw [Nat.add_one_mul]
    omega
  rw [choose?, floorAt_whole, readsBack_whole k some_, readsBack_whole k some_,
    decide_eq_false past]
  by_cases divides : 10 ^ p ∣ n
  · have exact_ := Nat.div_mul_cancel divides
    have some' : 0 < n / 10 ^ p := Nat.pos_of_ne_zero fun zero => by
      rw [zero, Nat.zero_mul] at exact_
      omega
    simp [exact_, some', divides]
  · have rest : ¬ n / 10 ^ p * 10 ^ p = n := fun exact_ =>
      divides ⟨n / 10 ^ p, by rw [Nat.mul_comm, exact_]⟩
    simp [rest, divides]

theorem search_whole {n : Nat} (some_ : 0 < n) {tries p : Nat} (enough : p < tries)
    (high : ¬ 10 ^ (p + 1) ∣ n) : ∃ c q : Nat, (whole n k).search tries p = (c, (q : Int)) ∧
      c * 10 ^ q = n ∧ ¬ 10 ∣ c := by
  induction tries generalizing p with
  | zero => contradiction
  | succ tries ih =>
    rw [search, choose_whole k some_]
    by_cases divides : 10 ^ p ∣ n
    · refine ⟨n / 10 ^ p, p, by rw [if_pos divides], Nat.div_mul_cancel divides, ?_⟩
      rintro ⟨c, tens⟩
      refine high ⟨c, ?_⟩
      rw [Nat.pow_succ, Nat.mul_assoc, ← tens, Nat.mul_div_cancel' divides]
    · rw [if_neg divides]
      cases p with
      | zero => exact absurd (Nat.one_dvd n) divides
      | succ p =>
        have finer : ((p + 1 : Nat) : Int) - 1 = p := by omega
        simp only [finer]
        exact ih (Nat.lt_of_succ_lt_succ enough) divides

theorem topPlace_whole {n : Nat} (some_ : 0 < n) :
    (whole n k).topPlace = ((Text.ofNat n).length : Int) - 1 := by
  have place : lowestPlace = -((350 : Nat) : Int) := rfl
  rw [topPlace, place, floorAt_fine, ← Numeral.ofNat_length, Numeral.ofNat_zeros some_,
    List.length_append, NumberFormat.zeros, List.length_replicate]
  omega

theorem shortest_whole {n : Nat} (some_ : 0 < n) (small : n < 2 ^ 53) : ∃ c q : Nat,
    (ofNat n).shortest = (c, (q : Int)) ∧ c * 10 ^ q = n ∧ ¬ 10 ∣ c := by
  have digits := List.length_pos_iff.mpr (Numeral.ofNat_ne_nil n)
  have few : (Text.ofNat n).length ≤ 16 :=
    (Numeral.ofNat_length_le (by decide)).mpr (Nat.lt_trans small (by decide))
  have below : n < 10 ^ (Text.ofNat n).length := (Numeral.ofNat_length_le digits).mp (Nat.le_refl _)
  have top : ((Text.ofNat n).length : Int) - 1 = ((Text.ofNat n).length - 1 : Nat) := by omega
  rw [shortest, ofNat_whole small, topPlace_whole _ some_, top]
  refine search_whole _ some_ (by omega) ?_
  rw [Nat.sub_add_cancel digits]
  exact Nat.not_dvd_of_pos_of_lt some_ below

end DocBridge.Binary

namespace DocBridge.NumberFormat

open Text Numeral

theorem value_zeros (k : Nat) (digits : Text) : value (zeros k ++ digits) = value digits := by
  induction k with
  | zero => rfl
  | succ k ih =>
    have first : value (zeros (k + 1) ++ digits) = value (zeros k ++ digits) := rfl
    rw [first, ih]

theorem exponentText_nat (x : Nat) : ∃ exponent, exponentText x = ofString "e+" ++ exponent ∧
    exponent.all isDigit = true ∧ value exponent = x := by
  refine ⟨zeros (2 - (Text.ofNat x).length) ++ Text.ofNat x, ?_, ?_, ?_⟩
  · have sign : ¬ (x : Int) < 0 := by omega
    rw [exponentText, if_neg sign, Int.natAbs_natCast, List.append_assoc]
  · rw [List.all_append, ofNat_digits, Bool.and_true, zeros, List.all_eq_true]
    intro b member
    rw [List.eq_of_mem_replicate member]
    rfl
  · rw [value_zeros, value_ofNat]

def mantissa (digits : Text) : Text :=
  digits.take 1 ++ if digits.length = 1 then [] else 0x2E :: digits.drop 1

theorem scientific_mantissa (digits : Text) (x : Int) :
    scientific digits x = mantissa digits ++ exponentText x := rfl

theorem not_mem_mantissa {digits : Text} {b : UInt8} (clean : b ∉ digits) (point : b ≠ 0x2E) :
    b ∉ mantissa digits := by
  rw [mantissa, List.mem_append, not_or]
  refine ⟨fun member => clean (List.mem_of_mem_take member), ?_⟩
  split
  · exact List.not_mem_nil
  · rw [List.mem_cons, not_or]
    exact ⟨point, fun member => clean (List.mem_of_mem_drop member)⟩

theorem mantissa_parts {digits : Text} (clean : 0x2E ∉ digits) :
    (cut? "." (mantissa digits)).getD (mantissa digits, []) =
      (digits.take 1, digits.drop 1) := by
  rw [mantissa]
  split
  · rename_i single
    have alone : digits.drop 1 = [] := List.drop_eq_nil_of_le (Nat.le_of_eq single)
    rw [List.append_nil, alone, List.take_of_length_le (Nat.le_of_eq single),
      cut_missing (by decide) clean]
    rfl
  · have point : ofString "." = [0x2E] := by decide
    rw [point, cut_byte fun member => clean (List.mem_of_mem_take member)]
    rfl

theorem parse_scientific (c q : Nat) :
    parse? (scientific (Text.ofNat c) (q + ((Text.ofNat c).length - 1) : Nat)) =
      some (c * 10 ^ q) := by
  obtain ⟨exponent, written, digits, x⟩ := exponentText_nat (q + ((Text.ofNat c).length - 1))
  have parts := List.take_append_drop 1 (Text.ofNat c)
  refine parse_parts (mantissa (Text.ofNat c)) exponent ((Text.ofNat c).take 1)
    ((Text.ofNat c).drop 1) ?_ (mantissa_parts (not_mem_ofNat rfl c)) ?_ ?_ ?_
  · have noMark : 0x65 ∉ mantissa (Text.ofNat c) :=
      not_mem_mantissa (not_mem_ofNat rfl c) (by decide)
    have mark : ofString "e+" = [0x65, 0x2B] := by decide
    rw [scientific_mantissa, written, mark, cut_word noMark]
    rfl
  · intro none_
    rw [List.take_eq_nil_iff] at none_
    exact none_.elim (by decide) (ofNat_ne_nil c)
  · rw [← List.append_assoc, parts, List.all_append, ofNat_digits, digits]
    rfl
  · rw [parts, value_ofNat, x, List.length_drop, Nat.pow_add, Nat.mul_assoc]

theorem trimEnd_ofNat {c : Nat} (ends : ¬ 10 ∣ c) :
    trimEnd (· == 0x30) (Text.ofNat c) = Text.ofNat c := by
  obtain ⟨front, written⟩ := ofNat_last c
  have last : ¬ (digitByte (c % 10) == 0x30) = true := by
    have size := digitByte_toNat (Nat.mod_lt c (by decide : 0 < 10))
    intro zero
    rw [beq_iff_eq.mp zero] at size
    have none_ : 0x30 = 0x30 + c % 10 := size
    exact ends (Nat.dvd_of_mod_eq_zero (by omega))
  rw [trimEnd, written, List.reverse_append, List.reverse_singleton, List.singleton_append,
    List.dropWhile_cons_of_neg (p := (· == 0x30)) last, List.reverse_cons, List.reverse_reverse]

theorem positional_ofNat (c q : Nat) :
    positional (Text.ofNat c) (q + ((Text.ofNat c).length - 1) : Nat) =
      Text.ofNat c ++ zeros q := by
  have some_ := List.length_pos_iff.mpr (ofNat_ne_nil c)
  have point : ((q + ((Text.ofNat c).length - 1) : Nat) : Int).toNat + 1
      = q + (Text.ofNat c).length := by omega
  have above : ¬ ((q + ((Text.ofNat c).length - 1) : Nat) : Int) < 0 := by omega
  have all : (Text.ofNat c).take (q + (Text.ofNat c).length) = Text.ofNat c :=
    List.take_of_length_le (Nat.le_add_left _ _)
  have none_ : (Text.ofNat c).drop (q + (Text.ofNat c).length) = [] :=
    List.drop_eq_nil_of_le (Nat.le_add_left _ _)
  simp only [positional, if_neg above, point, all, none_, Nat.add_sub_cancel, List.isEmpty_nil,
    if_true, List.append_nil]

/-- Whole numbers below `2 ^ 53` are written so that they read back exactly. -/
theorem parse_write {n : Nat} (small : n < 2 ^ 53) : parse? (plain.write (.ofNat n)) = some n := by
  rw [write]
  split
  · rename_i none_
    have zero := (Binary.mantissa_zero small).mp none_
    have text : ofString "0" = Text.ofNat 0 := by
      rw [ofNat_digit (by decide)]
      rfl
    rw [text, zero]
    exact parse_ofNat 0
  · rename_i more
    have some_ : 0 < n := Nat.pos_of_ne_zero fun zero => more ((Binary.mantissa_zero small).mpr zero)
    obtain ⟨c, q, shortest, scaled, ends⟩ := Binary.shortest_whole some_ small
    have digits := List.length_pos_iff.mpr (ofNat_ne_nil c)
    have lead : 0 < c := Nat.pos_of_ne_zero fun zero => ends (zero ▸ Nat.dvd_zero 10)
    have place : (q : Int) + (Text.ofNat c).length - 1
        = (q + ((Text.ofNat c).length - 1) : Nat) := by
      omega
    rw [shortest]
    simp only [trimEnd_ofNat ends, place]
    split
    · rw [positional_ofNat, ← ofNat_zeros lead, scaled]
      exact parse_ofNat n
    · rw [parse_scientific, scaled]

end DocBridge.NumberFormat
