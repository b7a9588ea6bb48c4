import DocBridge.Comment.Rule
import DocBridge.Proofs.Comment.Frame
import DocBridge.Proofs.Pattern.Pieces

/-
Terminators over the pieces of a text. A rule may add or remove terminators; how many follows from
what it does to each match, as long as no match and no replacement starts with a slash.
-/
namespace DocBridge.Rule

open Text Pattern DocBridge.Frame

def hitSum (weight : Match UInt8 → Nat) : List (Piece UInt8) → Nat
  | [] => 0
  | .gap _ :: ps => hitSum weight ps
  | .hit m :: ps => weight m + hitSum weight ps

/-- How many terminators span the end of a replacement and what follows it. -/
def seams (f : Match UInt8 → Text) : List (Piece UInt8) → Nat
  | [] => 0
  | .gap _ :: ps => seams f ps
  | .hit m :: ps => seam (f m) (ps.flatMap (Piece.put f)) + seams f ps

def EachHit (p : Pat) (holds : Match UInt8 → Text → Prop) : Prop :=
  ∀ prev m rest, m.text ≠ [] → p.matchAt? prev (m.text ++ rest) = some m → holds m rest

variable {p : Pat} {f : Match UInt8 → Text} {prev : Option UInt8} {t : Text}
  {ps : List (Piece UInt8)}

/-- A rule that replaces the matches of a pattern, as replacements in the text. -/
theorem replace_swap_pieces {swapped : Text → Text → Text → Prop} {text : Text}
    (hits : ∀ m, .hit m ∈ p.pieces text → ∀ prev rest, m.text ≠ [] →
      p.matchAt? prev (m.text ++ rest) = some m → swapped m.text (f m) rest) :
    Swap swapped text (p.replace f text) := by
  have pieces {prev : Option UInt8} {t : Text} {ps : List (Piece UInt8)} (cut : Cut p prev t ps)
      (among : ∀ m, .hit m ∈ ps → .hit m ∈ p.pieces text) :
      Swap swapped t (ps.flatMap (Piece.put f)) := by
    induction cut with
    | done => exact .done
    | gap _ _ ih => exact .keep _ (ih fun m inside => among m (List.mem_cons_of_mem _ inside))
    | hit taken found _ ih =>
      have here := hits _ (among _ List.mem_cons_self) _ _ taken found
      exact .swap here (ih fun m inside => among m (List.mem_cons_of_mem _ inside))
  exact pieces (cut_pieces p text) fun m inside => inside

theorem replace_swap {swapped : Text → Text → Text → Prop}
    (hits : EachHit p fun m rest => swapped m.text (f m) rest) (text : Text) :
    Swap swapped text (p.replace f text) :=
  replace_swap_pieces fun m _ prev rest taken found => hits prev m rest taken found

theorem put_slash
    (heads : EachHit p fun m _ => StartsOff (· == 0x2F) m.text ∧ StartsOff (· == 0x2F) (f m))
    (cut : Cut p prev t ps) :
    (ps.flatMap (Piece.put f)).head? = some 0x2F ↔ t.head? = some 0x2F := by
  cases cut with
  | done => exact Iff.rfl
  | gap _ _ => simp [Piece.put]
  | hit taken found _ =>
    obtain ⟨⟨b, x, hx, hb⟩, c, y, hy, hc⟩ := heads _ _ _ taken found
    rw [beq_eq_false_iff_ne] at hb hc
    simp [Piece.put, hx, hy, hb, hc]

/-- The balance of terminators: what the replacements add by themselves (`more`) and where they
meet what follows, less what they leave out (`less`). -/
theorem put_terminators {less more : Match UInt8 → Nat}
    (heads : EachHit p fun m _ => StartsOff (· == 0x2F) m.text ∧ StartsOff (· == 0x2F) (f m))
    (balance : EachHit p fun m rest => seam m.text rest = 0 ∧
      terminators (f m) + less m = terminators m.text + more m)
    (cut : Cut p prev t ps) :
    terminators (ps.flatMap (Piece.put f)) + hitSum less ps
      = terminators t + hitSum more ps + seams f ps := by
  induction cut with
  | done => rfl
  | @gap _ a rest ps _ more ih =>
    have same := seam_congr (a := [a]) (put_slash heads more)
    simp only [List.flatMap_cons, Piece.put, hitSum, seams]
    rw [terminators_append, ← List.singleton_append (l := rest), terminators_append, same]
    omega
  | @hit _ m rest ps taken found more ih =>
    obtain ⟨clean, even⟩ := balance _ _ _ taken found
    simp only [List.flatMap_cons, Piece.put, hitSum, seams]
    rw [terminators_append, terminators_append, clean]
    omega

theorem seams_of_clean
    (heads : EachHit p fun m _ => StartsOff (· == 0x2F) m.text ∧ StartsOff (· == 0x2F) (f m))
    (clean : EachHit p fun m rest => seam (f m) rest = 0) (cut : Cut p prev t ps) :
    seams f ps = 0 := by
  induction cut with
  | done => rfl
  | gap _ _ ih => exact ih
  | hit taken found more ih =>
    rw [seams, ih, seam_congr (put_slash heads more), clean _ _ _ taken found]

theorem put_slash_piece
    (heads : EachHit p fun m _ => StartsOff (· == 0x2F) m.text ∧ StartsOff (· == 0x2F) (f m))
    (cut : Cut p prev t ps) :
    (ps.flatMap (Piece.put f)).head? = some 0x2F ↔ ∃ back, ps = .gap 0x2F :: back := by
  cases cut with
  | done => simp
  | gap _ _ => simp [Piece.put]
  | hit taken found _ =>
    obtain ⟨_, c, y, hy, hc⟩ := heads _ _ _ taken found
    rw [beq_eq_false_iff_ne] at hc
    simp [Piece.put, hy, hc]

theorem seams_pos_iff
    (heads : EachHit p fun m _ => StartsOff (· == 0x2F) m.text ∧ StartsOff (· == 0x2F) (f m))
    (cut : Cut p prev t ps) :
    seams f ps ≠ 0 ↔ ∃ front m back, ps = front ++ .hit m :: .gap 0x2F :: back ∧
      (f m).getLast? = some 0x2A := by
  induction cut with
  | done => simp [seams]
  | gap _ _ ih =>
    rw [seams, ih]
    constructor
    · rintro ⟨front, m, back, rfl, star⟩
      exact ⟨_ :: front, m, back, rfl, star⟩
    · rintro ⟨front, m, back, whole, star⟩
      cases front with
      | nil => cases whole
      | cons _ front =>
        cases whole
        exact ⟨front, m, back, rfl, star⟩
  | @hit _ m rest ps taken found more ih =>
    have here : seam (f m) (ps.flatMap (Piece.put f)) ≠ 0 ↔
        (f m).getLast? = some 0x2A ∧ ∃ back, ps = .gap 0x2F :: back := by
      rw [← put_slash_piece heads more, ← seam_eq_one_iff, seam]
      cases _ && _ <;> simp
    have either (a b : Nat) : a + b ≠ 0 ↔ a ≠ 0 ∨ b ≠ 0 := by omega
    rw [seams, either, here, ih]
    constructor
    · rintro (⟨star, back, rfl⟩ | ⟨front, m', back, rfl, star⟩)
      · exact ⟨[], m, back, rfl, star⟩
      · exact ⟨.hit m :: front, m', back, rfl, star⟩
    · rintro ⟨front, m', back, whole, star⟩
      cases front with
      | nil =>
        cases whole
        exact .inl ⟨star, back, rfl⟩
      | cons _ front =>
        cases whole
        exact .inr ⟨front, m', back, rfl, star⟩

theorem hitSum_zero (ps : List (Piece UInt8)) : hitSum (fun _ => 0) ps = 0 := by
  induction ps with
  | nil => rfl
  | cons piece ps ih =>
    cases piece with
    | gap _ => exact ih
    | hit _ => rw [hitSum, ih]

/-- A weight that stays below the terminators of each match, and strictly so for a match at the
end of the comment, stays below the terminators of the comment. -/
theorem hitSum_lt {weight : Match UInt8 → Nat}
    (bound : EachHit p fun m _ => weight m ≤ terminators m.text ∧
      (Closes m.text → weight m + 1 ≤ terminators m.text))
    (cut : Cut p prev t ps) :
    hitSum weight ps ≤ terminators t ∧ (Closes t → hitSum weight ps + 1 ≤ terminators t) := by
  induction cut with
  | done => exact ⟨Nat.zero_le _, fun closes => absurd closes (by simp [Closes])⟩
  | @gap _ a rest ps _ more ih =>
    rw [← List.singleton_append (l := rest), terminators_append, hitSum]
    refine ⟨by omega, fun closes => ?_⟩
    rcases (closes_append _ _).mp closes with later | ⟨slash, star⟩ | ⟨_, alone⟩
    · have := ih.2 later
      omega
    · rw [seam_eq_one_iff.mpr ⟨star, by rw [slash]; rfl⟩]
      omega
    · simp [Closes, List.suffix_cons_iff] at alone
  | @hit _ m rest ps taken found more ih =>
    obtain ⟨below, strictly⟩ := bound _ _ _ taken found
    rw [terminators_append, hitSum]
    refine ⟨by omega, fun closes => ?_⟩
    rcases (closes_append _ _).mp closes with later | ⟨slash, star⟩ | ⟨_, alone⟩
    · have := ih.2 later
      omega
    · rw [seam_eq_one_iff.mpr ⟨star, by rw [slash]; rfl⟩]
      omega
    · have := strictly alone
      omega

theorem closes_append_startsOff {x y : Text} (off : StartsOff (· == 0x2F) y) :
    Closes (x ++ y) ↔ Closes y := by
  obtain ⟨b, y, rfl, hb⟩ := off
  rw [beq_eq_false_iff_ne] at hb
  simp [closes_append, hb]

theorem closes_before_last {u y : Text} {b : UInt8} (some_ : y ≠ []) :
    Closes (u ++ (y ++ [b])) ↔ seam y [b] = 1 := by
  have lone : ¬ Closes [b] := by simp [Closes, List.suffix_cons_iff]
  have last : (u ++ y).getLast? = y.getLast? := by
    rw [List.getLast?_append, List.getLast?_eq_some_getLast some_, Option.some_or]
  rw [← List.append_assoc, closes_append, last, seam_eq_one_iff]
  simp [lone, and_comm]

theorem startsOff_ne_nil {q : UInt8 → Bool} {x : Text} (off : StartsOff q x) : x ≠ [] := by
  obtain ⟨b, x, rfl, _⟩ := off
  simp

theorem put_ending
    (heads : EachHit p fun m _ => StartsOff (· == 0x2F) m.text ∧ StartsOff (· == 0x2F) (f m))
    {front : List (Piece UInt8)} {b : UInt8} (cut : Cut p prev t (front ++ [.gap b])) :
    ∃ x y, (Closes t ↔ seam x [b] = 1) ∧
      (Closes ((front ++ [Piece.gap b]).flatMap (Piece.put f)) ↔ seam y [b] = 1) ∧
      (x = y ∨ ∃ prev' m, m.text ≠ [] ∧ p.matchAt? prev' (m.text ++ [b]) = some m ∧
        x = m.text ∧ y = f m) := by
  rcases List.eq_nil_or_concat front with rfl | ⟨front, before, rfl⟩
  · cases cut with
    | gap _ more =>
      cases more
      have lone : Closes [b] ↔ seam [] [b] = 1 := by
        rw [seam_of_last (by simp)]
        simp [Closes, List.suffix_cons_iff]
      exact ⟨[], [], lone, lone, .inl rfl⟩
  · rw [List.concat_eq_append, List.append_assoc, List.singleton_append] at cut ⊢
    obtain ⟨prev', later, rfl, tail⟩ := cut_append cut
    rw [List.flatMap_append]
    cases tail with
    | @gap _ a _ _ _ more =>
      cases more with
      | gap _ more =>
        cases more
        exact ⟨[a], [a], closes_before_last (List.cons_ne_nil a []),
          closes_before_last (List.cons_ne_nil a []), .inl rfl⟩
    | @hit _ m rest _ taken found more =>
      cases more with
      | gap _ more =>
        cases more
        obtain ⟨offText, off⟩ := heads _ _ _ taken found
        exact ⟨m.text, f m, closes_before_last (startsOff_ne_nil offText),
          closes_before_last (startsOff_ne_nil off), .inr ⟨prev', m, taken, found, rfl, rfl⟩⟩

theorem put_closes_gap
    (heads : EachHit p fun m _ => StartsOff (· == 0x2F) m.text ∧ StartsOff (· == 0x2F) (f m))
    (clean : EachHit p fun m rest => seam (f m) rest = seam m.text rest)
    {front : List (Piece UInt8)} {b : UInt8} (cut : Cut p prev t (front ++ [.gap b])) :
    Closes ((front ++ [Piece.gap b]).flatMap (Piece.put f)) ↔ Closes t := by
  obtain ⟨x, y, old, new, same⟩ := put_ending heads cut
  rw [old, new]
  rcases same with rfl | ⟨prev', m, taken, found, rfl, rfl⟩
  · rfl
  · rw [clean _ _ _ taken found]

theorem put_closes_hit
    (heads : EachHit p fun m _ => StartsOff (· == 0x2F) m.text ∧ StartsOff (· == 0x2F) (f m))
    {front : List (Piece UInt8)} {m : Match UInt8} (cut : Cut p prev t (front ++ [.hit m])) :
    (Closes t ↔ Closes m.text) ∧
      (Closes ((front ++ [Piece.hit m]).flatMap (Piece.put f)) ↔ Closes (f m)) := by
  obtain ⟨prev', later, rfl, tail⟩ := cut_append cut
  cases tail with
  | hit taken found more =>
    cases more
    obtain ⟨offText, off⟩ := heads _ _ _ taken found
    rw [List.append_nil, closes_append_startsOff offText, List.flatMap_append,
      List.flatMap_singleton]
    exact ⟨Iff.rfl, closes_append_startsOff off⟩

end DocBridge.Rule
