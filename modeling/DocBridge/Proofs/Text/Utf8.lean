import DocBridge.Text.Utf8

/-
Reading text as characters loses nothing: the glyphs of a text, written again, are the text.
-/
namespace DocBridge.Utf8

theorem toNat_ofNat_char {n : Nat} (valid : n.isValidChar) : (Char.ofNat n).val.toNat = n := by
  unfold Char.ofNat
  rw [dif_pos valid]
  rfl

theorem byte_eq {b : UInt8} {n : Nat} (same : n = b.toNat) : UInt8.ofNat n = b := by
  rw [same, UInt8.ofNat_toNat]

theorem bounds_toNat {lo hi b : UInt8} (h : (lo ≤ b && b ≤ hi) = true) :
    lo.toNat ≤ b.toNat ∧ b.toNat ≤ hi.toNat := by
  rw [Bool.and_eq_true, decide_eq_true_eq, decide_eq_true_eq] at h
  exact ⟨UInt8.le_iff_toNat_le.mp h.1, UInt8.le_iff_toNat_le.mp h.2⟩

theorem encodeChar_one {n : Nat} {a : UInt8} (valid : n = a.toNat) (low : n ≤ 0x7F) :
    encodeChar (Char.ofNat n) = [a] := by
  have v := toNat_ofNat_char (n := n) (Or.inl (by omega))
  simp only [encodeChar, String.utf8EncodeChar, v, low, ↓reduceIte, byte_eq valid]

theorem encodeChar_two {a b : UInt8} (lead : 0xC2 ≤ a.toNat ∧ a.toNat ≤ 0xDF)
    (second : 0x80 ≤ b.toNat ∧ b.toNat ≤ 0xBF) :
    encodeChar (Char.ofNat (a.toNat % 32 * 64 + low6 b)) = [a, b] := by
  unfold low6
  have v := toNat_ofNat_char (n := a.toNat % 32 * 64 + b.toNat % 64) (Or.inl (by omega))
  have h1 : ¬ a.toNat % 32 * 64 + b.toNat % 64 ≤ 0x7F := by omega
  have h2 : a.toNat % 32 * 64 + b.toNat % 64 ≤ 0x7FF := by omega
  simp only [encodeChar, String.utf8EncodeChar, v, h1, h2, ↓reduceIte]
  rw [byte_eq (b := a) (by omega), byte_eq (b := b) (by omega)]

theorem encodeChar_three {a b c : UInt8} (lead : 0xE0 ≤ a.toNat ∧ a.toNat ≤ 0xEF)
    (second : 0x80 ≤ b.toNat ∧ b.toNat ≤ 0xBF) (third : 0x80 ≤ c.toNat ∧ c.toNat ≤ 0xBF)
    (short : a.toNat = 0xE0 → 0xA0 ≤ b.toNat) (surrogate : a.toNat = 0xED → b.toNat ≤ 0x9F) :
    encodeChar (Char.ofNat ((a.toNat % 16 * 64 + low6 b) * 64 + low6 c)) = [a, b, c] := by
  unfold low6
  have valid : ((a.toNat % 16 * 64 + b.toNat % 64) * 64 + c.toNat % 64).isValidChar := by
    unfold Nat.isValidChar
    omega
  have v := toNat_ofNat_char valid
  have h1 : ¬ (a.toNat % 16 * 64 + b.toNat % 64) * 64 + c.toNat % 64 ≤ 0x7F := by omega
  have h2 : ¬ (a.toNat % 16 * 64 + b.toNat % 64) * 64 + c.toNat % 64 ≤ 0x7FF := by omega
  have h3 : (a.toNat % 16 * 64 + b.toNat % 64) * 64 + c.toNat % 64 ≤ 0xFFFF := by omega
  simp only [encodeChar, String.utf8EncodeChar, v, h1, h2, h3, ↓reduceIte]
  rw [byte_eq (b := a) (by omega), byte_eq (b := b) (by omega), byte_eq (b := c) (by omega)]

theorem encodeChar_four {a b c d : UInt8} (lead : 0xF0 ≤ a.toNat ∧ a.toNat ≤ 0xF4)
    (second : 0x80 ≤ b.toNat ∧ b.toNat ≤ 0xBF) (third : 0x80 ≤ c.toNat ∧ c.toNat ≤ 0xBF)
    (fourth : 0x80 ≤ d.toNat ∧ d.toNat ≤ 0xBF) (short : a.toNat = 0xF0 → 0x90 ≤ b.toNat)
    (last : a.toNat = 0xF4 → b.toNat ≤ 0x8F) :
    encodeChar (Char.ofNat (((a.toNat % 8 * 64 + low6 b) * 64 + low6 c) * 64 + low6 d))
      = [a, b, c, d] := by
  unfold low6
  have valid : (((a.toNat % 8 * 64 + b.toNat % 64) * 64 + c.toNat % 64) * 64
      + d.toNat % 64).isValidChar := by
    unfold Nat.isValidChar
    omega
  have v := toNat_ofNat_char valid
  have h1 : ¬ ((a.toNat % 8 * 64 + b.toNat % 64) * 64 + c.toNat % 64) * 64 + d.toNat % 64
      ≤ 0xFFFF := by omega
  have h2 : ¬ ((a.toNat % 8 * 64 + b.toNat % 64) * 64 + c.toNat % 64) * 64 + d.toNat % 64
      ≤ 0x7FF := by omega
  have h3 : ¬ ((a.toNat % 8 * 64 + b.toNat % 64) * 64 + c.toNat % 64) * 64 + d.toNat % 64
      ≤ 0x7F := by omega
  simp only [encodeChar, String.utf8EncodeChar, v, h1, h2, h3, ↓reduceIte]
  rw [byte_eq (b := a) (by omega), byte_eq (b := b) (by omega), byte_eq (b := c) (by omega),
    byte_eq (b := d) (by omega)]

theorem secondBounds_toNat {a b : UInt8}
    (h : ((secondBounds a).1 ≤ b && b ≤ (secondBounds a).2) = true) :
    (0x80 ≤ b.toNat ∧ b.toNat ≤ 0xBF) ∧ (a.toNat = 0xE0 → 0xA0 ≤ b.toNat) ∧
      (a.toNat = 0xED → b.toNat ≤ 0x9F) ∧ (a.toNat = 0xF0 → 0x90 ≤ b.toNat) ∧
      (a.toNat = 0xF4 → b.toNat ≤ 0x8F) := by
  unfold secondBounds at h
  by_cases h1 : a = 0xE0
  · subst h1
    have := bounds_toNat h
    simp at this ⊢
    omega
  · by_cases h2 : a = 0xED
    · subst h2
      have := bounds_toNat h
      simp at this ⊢
      omega
    · by_cases h3 : a = 0xF0
      · subst h3
        have := bounds_toNat h
        simp at this ⊢
        omega
      · by_cases h4 : a = 0xF4
        · subst h4
          have := bounds_toNat h
          simp at this ⊢
          omega
        · simp only [beq_iff_eq, h1, h2, h3, h4, ↓reduceIte] at h
          have := bounds_toNat h
          simp [← UInt8.toNat_inj] at h1 h2 h3 h4 this ⊢
          omega

theorem first_spec {s : Text} {c : Char} {width : Nat} (h : first? s = some (c, width)) :
    1 ≤ width ∧ encodeChar c = s.take width := by
  match s with
  | [] => simp [first?] at h
  | a :: rest =>
    simp only [first?] at h
    split at h
    · rename_i ascii
      cases h
      have low : a.toNat < 0x80 := UInt8.lt_iff_toNat_lt.mp ascii
      exact ⟨Nat.le_refl 1, encodeChar_one rfl (by omega)⟩
    · split at h
      · rename_i lead
        split at h
        · rename_i b rest'
          split at h
          · rename_i tail
            cases h
            exact ⟨by omega, encodeChar_two (bounds_toNat lead) (bounds_toNat tail)⟩
          · contradiction
        · contradiction
      · split at h
        · rename_i lead
          split at h
          · rename_i b c' rest'
            split at h
            · rename_i tails
              cases h
              rw [Bool.and_eq_true] at tails
              obtain ⟨second, short, surrogate, _⟩ := secondBounds_toNat tails.1
              exact ⟨by omega, encodeChar_three (bounds_toNat lead) second (bounds_toNat tails.2)
                short surrogate⟩
            · contradiction
          · contradiction
        · split at h
          · rename_i lead
            split at h
            · rename_i b c' d rest'
              split at h
              · rename_i tails
                cases h
                rw [Bool.and_eq_true, Bool.and_eq_true] at tails
                obtain ⟨second, _, _, short, last⟩ := secondBounds_toNat tails.1.1
                exact ⟨by omega, encodeChar_four (bounds_toNat lead) second
                  (bounds_toNat tails.1.2) (bounds_toNat tails.2) short last⟩
              · contradiction
            · contradiction
          · contradiction

theorem encode_glyphsFrom (skip : Nat) (s : Text) : encode (glyphsFrom skip s) = s.drop skip := by
  induction s generalizing skip with
  | nil =>
    rw [glyphsFrom, List.drop_nil]
    rfl
  | cons b rest ih =>
    cases skip with
    | succ skip => rw [glyphsFrom, ih, List.drop_succ_cons]
    | zero =>
      rw [glyphsFrom]
      split
      · rename_i c width read
        obtain ⟨one, bytes⟩ := first_spec read
        have later := ih (width - 1)
        simp only [encode, List.flatMap_cons, Glyph.bytes] at later ⊢
        obtain ⟨n, rfl⟩ : ∃ n, width = n + 1 := ⟨width - 1, by omega⟩
        rw [later, bytes, List.take_succ_cons, Nat.add_sub_cancel, List.cons_append,
          List.take_append_drop]
        rfl
      · have later := ih 0
        simp only [encode, List.flatMap_cons, Glyph.bytes] at later ⊢
        rw [later]
        rfl

theorem encode_glyphs (s : Text) : encode (glyphs s) = s := encode_glyphsFrom 0 s

theorem mem_encodeChar {c : Char} {b : UInt8} (member : b ∈ encodeChar c) (low : b.toNat < 0x80) :
    c.val.toNat = b.toNat := by
  simp only [encodeChar, String.utf8EncodeChar] at member
  split at member
  · rename_i ascii
    rw [List.mem_singleton.mp member, UInt8.toNat_ofNat']
    omega
  · have high (n : Nat) (big : 0x80 ≤ n) (small : n < 256) : b ≠ UInt8.ofNat n := by
      rintro rfl
      rw [UInt8.toNat_ofNat'] at low
      omega
    split at member
    · simp only [List.mem_cons, List.not_mem_nil, or_false] at member
      rcases member with same | same <;> exact absurd same (high _ (by omega) (by omega))
    · split at member
      · simp only [List.mem_cons, List.not_mem_nil, or_false] at member
        rcases member with same | same | same <;> exact absurd same (high _ (by omega) (by omega))
      · simp only [List.mem_cons, List.not_mem_nil, or_false] at member
        rcases member with same | same | same | same <;>
          exact absurd same (high _ (by omega) (by omega))

def WhiteBytes (s : Text) : Prop := ∃ gs : List Glyph, (∀ g ∈ gs, g.isWhite = true) ∧ s = encode gs

theorem not_mem_whiteBytes {s : Text} (white : WhiteBytes s) {b : UInt8} (low : b.toNat < 0x80)
    (dark : isWhite (Char.ofNat b.toNat) = false) : b ∉ s := by
  obtain ⟨gs, all, rfl⟩ := white
  intro member
  obtain ⟨g, inside, byte⟩ := List.mem_flatMap.mp member
  have isWhite_ := all g inside
  cases g with
  | stray b' => contradiction
  | char c =>
    have same := mem_encodeChar byte low
    have whole : c = Char.ofNat b.toNat := by
      apply Char.ext
      apply UInt32.toNat_inj.mp
      rw [same, toNat_ofNat_char (Or.inl (by omega))]
    rw [whole] at isWhite_
    exact absurd isWhite_ (by simp [Glyph.isWhite, dark])

theorem trimWhite_split (s : Text) :
    ∃ lead trail, WhiteBytes lead ∧ WhiteBytes trail ∧ s = lead ++ (trimWhite s ++ trail) := by
  have white (gs : List Glyph) : ∀ g ∈ gs.takeWhile Glyph.isWhite, g.isWhite = true :=
    fun g member => List.all_eq_true.mp List.all_takeWhile g member
  refine ⟨encode ((glyphs s).takeWhile Glyph.isWhite),
    encode ((((glyphs s).dropWhile Glyph.isWhite).reverse.takeWhile Glyph.isWhite).reverse),
    ⟨_, white _, rfl⟩, ⟨_, fun g member => white _ g (List.mem_reverse.mp member), rfl⟩, ?_⟩
  have inner (gs : List Glyph) : gs = (gs.reverse.dropWhile Glyph.isWhite).reverse
      ++ (gs.reverse.takeWhile Glyph.isWhite).reverse := by
    rw [← List.reverse_append, List.takeWhile_append_dropWhile, List.reverse_reverse]
  have join (a b : List Glyph) : encode a ++ encode b = encode (a ++ b) :=
    List.flatMap_append.symm
  rw [trimWhite, join, ← inner, join, List.takeWhile_append_dropWhile, encode_glyphs]

theorem first_width {s : Text} {c : Char} {width : Nat} (read : first? s = some (c, width)) :
    width ≤ s.length := by
  rcases s with _ | ⟨a, _ | ⟨b, _ | ⟨d, _ | ⟨e, s⟩⟩⟩⟩ <;> grind [first?]

theorem first_break {a b : UInt8} (low : b.toNat < 0x80) (s t : Text) :
    first? (a :: s ++ b :: t) = first? (a :: s) := by
  have noTail : isTail b = false := by
    cases tail : isTail b with
    | false => rfl
    | true =>
      have bounds := bounds_toNat tail
      simp at bounds
      omega
  have outside : ¬ ((secondBounds a).1 ≤ b ∧ b ≤ (secondBounds a).2) := by
    intro inside
    have bounds := secondBounds_toNat (a := a) (b := b) (by simpa using inside)
    omega
  -- Three bytes behind the first one are all that is looked at.
  rcases s with _ | ⟨c, _ | ⟨d, _ | ⟨e, s⟩⟩⟩ <;> rcases t with _ | ⟨x, _ | ⟨y, t⟩⟩ <;>
    simp [first?, noTail, outside]

theorem glyphsFrom_break {b : UInt8} (low : b.toNat < 0x80) (t : Text) {skip : Nat} {s : Text}
    (inside : skip ≤ s.length) :
    glyphsFrom skip (s ++ b :: t) = glyphsFrom skip s ++ glyphs (b :: t) := by
  induction s generalizing skip with
  | nil =>
    obtain rfl : skip = 0 := Nat.le_zero.mp inside
    rfl
  | cons a s ih =>
    cases skip with
    | succ skip =>
      rw [List.cons_append, glyphsFrom, glyphsFrom]
      exact ih (Nat.le_of_succ_le_succ inside)
    | zero =>
      have same := first_break (a := a) low s t
      rw [List.cons_append] at same ⊢
      rw [glyphsFrom, glyphsFrom, same]
      cases read : first? (a :: s) with
      | none => exact congrArg (Glyph.stray a :: ·) (ih (Nat.zero_le _))
      | some found =>
        obtain ⟨c, width⟩ := found
        have within : width ≤ s.length + 1 := first_width read
        exact congrArg (Glyph.char c :: ·) (ih (by omega))

theorem glyphs_ascii {b : UInt8} (low : b.toNat < 0x80) (s : Text) :
    glyphs (b :: s) = .char (Char.ofNat b.toNat) :: glyphs s := by
  have ascii : b < 0x80 := UInt8.lt_iff_toNat_lt.mpr low
  have read : first? (b :: s) = some (Char.ofNat b.toNat, 1) := by
    simp only [first?, ascii, ↓reduceIte]
  rw [glyphs, glyphsFrom, read]
  rfl

theorem trimWhite_space (s : Text) : trimWhite (0x20 :: s) = trimWhite s := by
  have white : Glyph.isWhite (.char (Char.ofNat 0x20)) = true := by decide
  have space : glyphs (0x20 :: s) = .char (Char.ofNat 0x20) :: glyphs s :=
    glyphs_ascii (by decide) s
  rw [trimWhite, space, List.dropWhile_cons_of_pos white]
  rfl

theorem encodeChar_ne_nil (c : Char) : encodeChar c ≠ [] := by
  unfold encodeChar String.utf8EncodeChar
  grind

theorem encode_eq_nil {gs : List Glyph} (empty : encode gs = []) : gs = [] := by
  cases gs with
  | nil => rfl
  | cons g gs =>
    rw [encode, List.flatMap_cons, List.append_eq_nil_iff] at empty
    cases g with
    | char c => exact absurd empty.1 (encodeChar_ne_nil c)
    | stray b => cases empty.1

theorem glyphs_trimmed {s : Text} (trimmed : trimWhite s = s) :
    (glyphs s).dropWhile Glyph.isWhite = glyphs s := by
  have outer := List.takeWhile_append_dropWhile (p := Glyph.isWhite) (l := glyphs s)
  have empty : encode ((glyphs s).takeWhile Glyph.isWhite) = [] := by
    have inner := List.takeWhile_append_dropWhile (p := Glyph.isWhite)
      (l := ((glyphs s).dropWhile Glyph.isWhite).reverse)
    have size := congrArg (fun gs => (encode gs).length) outer
    have size' := congrArg (fun gs => (encode gs.reverse).length) inner
    have kept := congrArg List.length trimmed
    rw [trimWhite] at kept
    simp only [encode, List.reverse_append, List.reverse_reverse, List.flatMap_append,
      List.length_append] at size size' kept
    have all := congrArg List.length (encode_glyphs s)
    rw [encode] at all
    exact List.eq_nil_of_length_eq_zero (by rw [encode]; omega)
  rw [encode_eq_nil empty] at outer
  exact outer

theorem trimWhite_front {s : Text} {b : UInt8} (trimmed : trimWhite s = s) (low : b.toNat < 0x80)
    (dark : isWhite (Char.ofNat b.toNat) = false) (some_ : s ≠ []) (t : Text) :
    ∃ t', trimWhite (s ++ b :: t) = s ++ b :: t' := by
  have start := glyphs_trimmed trimmed
  have whole : glyphs (s ++ b :: t) = glyphs s ++ .char (Char.ofNat b.toNat) :: glyphs t := by
    rw [← glyphs_ascii low]
    exact glyphsFrom_break low t (Nat.zero_le _)
  have notEmpty : (glyphs s).isEmpty = false := by
    rw [List.isEmpty_eq_false_iff]
    intro none_
    have bytes := encode_glyphs s
    rw [none_] at bytes
    exact some_ bytes.symm
  -- From the front the text stops the trimming, from the back at the latest the byte does.
  have front : (glyphs (s ++ b :: t)).dropWhile Glyph.isWhite = glyphs (s ++ b :: t) := by
    rw [whole, List.dropWhile_append, start, if_neg (by simp [notEmpty])]
  have back : ∃ later, ((glyphs (s ++ b :: t)).reverse.dropWhile Glyph.isWhite).reverse
      = glyphs s ++ .char (Char.ofNat b.toNat) :: later := by
    have stop : Glyph.isWhite (.char (Char.ofNat b.toNat)) ≠ true := by simp [Glyph.isWhite, dark]
    rw [whole, List.reverse_append, List.reverse_cons, List.append_assoc, List.singleton_append,
      List.dropWhile_append]
    split
    · rw [List.dropWhile_cons_of_neg stop]
      exact ⟨[], by simp⟩
    · exact ⟨((glyphs t).reverse.dropWhile Glyph.isWhite).reverse, by simp⟩
  obtain ⟨later, kept⟩ := back
  have char : encodeChar (Char.ofNat b.toNat) = [b] := encodeChar_one rfl (by omega)
  refine ⟨encode later, ?_⟩
  rw [trimWhite, front, kept, encode, List.flatMap_append, List.flatMap_cons, Glyph.bytes, char]
  exact congrArg (· ++ _) (encode_glyphs s)

/-- A text whose last characters are those of `w` ends in the bytes of `w`, for a stray byte never
shows as one of them. -/
theorem chars_ending {s : Text} {x w : List Char} (split : chars s = x ++ w)
    (proper : Char.ofNat 0xFFFD ∉ w) : ∃ y, s = y ++ ofChars w := by
  obtain ⟨front, back, same, _, rfl⟩ := List.map_eq_append_iff.mp split
  refine ⟨encode front, ?_⟩
  have bytes : back.flatMap Glyph.bytes = ofChars (back.map Glyph.toChar) := by
    rw [ofChars, List.flatMap_map]
    clear same split
    induction back with
    | nil => rfl
    | cons g back ih =>
      rw [List.map_cons, List.mem_cons, not_or] at proper
      rw [List.flatMap_cons, List.flatMap_cons, ih proper.2]
      cases g with
      | char c => rfl
      | stray b => exact absurd rfl proper.1
  rw [← bytes, ← encode_glyphs s, same]
  exact List.flatMap_append

theorem ofChars_chars {s : Text} {cs : List Char} (read : chars? s = some cs) : s = ofChars cs := by
  refine (encode_glyphs s).symm.trans ?_
  unfold chars? at read
  generalize glyphs s = gs at read ⊢
  induction gs generalizing cs with
  | nil =>
    cases read
    rfl
  | cons g gs ih =>
    rw [List.mapM_cons, Option.bind_eq_bind, Option.bind_eq_some_iff] at read
    obtain ⟨c, first, read⟩ := read
    rw [Option.bind_eq_bind, Option.bind_eq_some_iff] at read
    obtain ⟨cs', later, same⟩ := read
    cases same
    cases g with
    | stray b => contradiction
    | char c =>
      cases first
      exact congrArg (encodeChar c ++ ·) (ih later)

end DocBridge.Utf8
