import DocBridge.Text

/-
The frame of a doc comment: the opener with the white space after it, the terminator at the end,
and no terminator before that. A rule of the dialect replaces stretches of the text and keeps the
rest; this module says which replacements keep the frame.
-/
namespace DocBridge.Frame

open Text

def terminators : Text → Nat
  | [] => 0
  | b :: rest => (b == 0x2A && rest.head? == some 0x2F).toNat + terminators rest

/-- One if a terminator spans the end of `a` and the start of `b`. -/
def seam (a b : Text) : Nat := (a.getLast? == some 0x2A && b.head? == some 0x2F).toNat

theorem terminators_append (a b : Text) :
    terminators (a ++ b) = terminators a + seam a b + terminators b := by
  induction a with
  | nil => simp [terminators, seam]
  | cons x a ih =>
    cases a with
    | nil => simp [terminators, seam]
    | cons y a =>
      have last : seam (x :: y :: a) b = seam (y :: a) b := by
        simp only [seam, List.getLast?_cons_cons]
      rw [last, List.cons_append, terminators, ih]
      simp only [terminators, List.cons_append, List.head?_cons]
      omega

theorem seam_eq_one_iff {a b : Text} :
    seam a b = 1 ↔ a.getLast? = some 0x2A ∧ b.head? = some 0x2F := by
  rw [seam, Bool.toNat_eq_one, Bool.and_eq_true, beq_iff_eq, beq_iff_eq]

theorem seam_of_head {a b : Text} (other : b.head? ≠ some 0x2F) : seam a b = 0 := by
  rw [seam, beq_false_of_ne other, Bool.and_false, Bool.toNat_false]

theorem seam_of_last {a b : Text} (other : a.getLast? ≠ some 0x2A) : seam a b = 0 := by
  rw [seam, beq_false_of_ne other, Bool.false_and, Bool.toNat_false]

theorem last_of_no_star {a : Text} (free : 0x2A ∉ a) : a.getLast? ≠ some 0x2A :=
  fun last => free (List.mem_of_getLast? last)

theorem last_append (a : Text) {b : Text} {c : UInt8} (last : b.getLast? = some c) :
    (a ++ b).getLast? = some c := by
  rw [List.getLast?_append, last, Option.some_or]

theorem seam_congr {a b c : Text} (same : b.head? = some 0x2F ↔ c.head? = some 0x2F) :
    seam a b = seam a c := by
  have heads : (b.head? == some 0x2F) = (c.head? == some 0x2F) := by
    rw [Bool.eq_iff_iff, beq_iff_eq, beq_iff_eq, same]
  rw [seam, heads, seam]

theorem terminators_of_no_star {a : Text} (free : 0x2A ∉ a) : terminators a = 0 := by
  induction a with
  | nil => rfl
  | cons x a ih =>
    simp only [List.mem_cons, not_or] at free
    simp [terminators, ih free.2, Ne.symm free.1]

theorem terminators_of_no_slash {a : Text} (free : 0x2F ∉ a) : terminators a = 0 := by
  induction a with
  | nil => rfl
  | cons x a ih =>
    simp only [List.mem_cons, not_or] at free
    have head : a.head? ≠ some 0x2F := fun first => free.2 (List.mem_of_head? first)
    simp [terminators, ih free.2, head]

theorem terminators_skip {a : Text} (free : 0x2A ∉ a) (b : Text) :
    terminators (a ++ b) = terminators b := by
  rw [terminators_append, terminators_of_no_star free, seam_of_last (last_of_no_star free)]
  omega

theorem terminators_break (a : Text) {b : Text} (head : b.head? ≠ some 0x2F) :
    terminators (a ++ b) = terminators a + terminators b := by
  rw [terminators_append, seam_of_head head]
  omega

def isInert (w : Text) : Bool := w.head?.any (· != 0x2F) && decide (0x2A ∉ w)

theorem terminators_around {w : Text} (inert : isInert w = true) (a b : Text) :
    terminators (a ++ (w ++ b)) = terminators a + terminators b := by
  rw [isInert, Bool.and_eq_true, decide_eq_true_eq] at inert
  obtain ⟨head, free⟩ := inert
  cases w with
  | nil => contradiction
  | cons c w =>
    have other : c ≠ 0x2F := by simpa using head
    rw [terminators_break a (by simpa using other), terminators_skip free]

theorem terminators_before {w : Text} (inert : isInert w = true) (a : Text) :
    terminators (a ++ w) = terminators a := by
  have := terminators_around inert a []
  rwa [List.append_nil] at this

theorem terminators_eq_zero_iff (t : Text) :
    terminators t = 0 ↔ ∀ i, ¬ [0x2A, 0x2F] <+: t.drop i := by
  induction t with
  | nil => simp [terminators]
  | cons b t ih =>
    have here : [0x2A, 0x2F] <+: b :: t ↔ b = 0x2A ∧ t.head? = some 0x2F := by
      cases t <;> simp [List.cons_prefix_cons, eq_comm]
    rw [terminators, Nat.add_eq_zero_iff, ih]
    constructor
    · intro ⟨first, later⟩ i
      cases i with
      | zero =>
        rw [List.drop_zero, here]
        intro both
        simp [both] at first
      | succ i => exact later i
    · intro none_
      refine ⟨?_, fun i => none_ (i + 1)⟩
      have first := none_ 0
      rw [List.drop_zero, here] at first
      simpa using first

def Closes (t : Text) : Prop := [0x2A, 0x2F] <:+ t

theorem closes_reverse (t : Text) : Closes t ↔ [0x2F, 0x2A] <+: t.reverse := by
  rw [Closes, ← List.reverse_prefix]
  rfl

theorem closes_append (x t : Text) : Closes (x ++ t) ↔
    Closes t ∨ (t = [0x2F] ∧ x.getLast? = some 0x2A) ∨ (t = [] ∧ Closes x) := by
  have lone : t = [0x2F] ↔ t.reverse = [0x2F] := by
    rw [← List.reverse_inj]
    rfl
  have empty : t = [] ↔ t.reverse = [] := by rw [List.reverse_eq_nil_iff]
  rw [closes_reverse, closes_reverse, closes_reverse, lone, empty, List.reverse_append,
    ← List.head?_reverse]
  match t.reverse with
  | [] => simp
  | [b] =>
    cases x.reverse with
    | nil => simp
    | cons a x => simp [eq_comm]
  | b :: c :: t => simp

theorem not_closes_of_no_star {t : Text} (free : 0x2A ∉ t) : ¬ Closes t :=
  fun closes => free (closes.subset (by simp))

theorem not_closes_of_no_slash {t : Text} (free : 0x2F ∉ t) : ¬ Closes t :=
  fun closes => free (closes.subset (by simp))

theorem not_closes_of_last {t : Text} {b : UInt8} (last : t.getLast? = some b) (other : b ≠ 0x2F) :
    ¬ Closes t := by
  rintro ⟨u, rfl⟩
  simp at last
  exact other last.symm

theorem terminators_of_closes {t : Text} (closes : Closes t) : 1 ≤ terminators t := by
  obtain ⟨u, rfl⟩ := closes
  rw [terminators_append]
  exact Nat.le_add_left _ _

def Opens (t : Text) : Prop :=
  ∃ b rest, t = 0x2F :: 0x2A :: 0x2A :: b :: rest ∧ isSpace b = true

theorem opens_cons {a b c d : UInt8} {rest : Text} :
    Opens (a :: b :: c :: d :: rest) ↔ a = 0x2F ∧ b = 0x2A ∧ c = 0x2A ∧ isSpace d = true := by
  constructor
  · rintro ⟨e, rest', same, space⟩
    cases same
    exact ⟨rfl, rfl, rfl, space⟩
  · rintro ⟨rfl, rfl, rfl, space⟩
    exact ⟨d, rest, rfl, space⟩

instance (t : Text) : Decidable (Opens t) :=
  match t with
  | _ :: _ :: _ :: _ :: _ => decidable_of_iff _ opens_cons.symm
  | [] | [_] | [_, _] | [_, _, _] => isFalse fun ⟨_, _, whole, _⟩ => by simp at whole

def isFrame (b : UInt8) : Bool := b == 0x2F || b == 0x2A || isSpace b

theorem opens_takeWhile (t : Text) : Opens (t.takeWhile isFrame) ↔ Opens t := by
  constructor
  · rintro ⟨b, rest, start, space⟩
    refine ⟨b, rest ++ t.dropWhile isFrame, ?_, space⟩
    have whole := List.takeWhile_append_dropWhile (p := isFrame) (l := t)
    rw [start] at whole
    exact whole.symm
  · rintro ⟨b, rest, rfl, space⟩
    have frame : isFrame b = true := by simp [isFrame, space]
    refine ⟨b, rest.takeWhile isFrame, ?_, space⟩
    have star : isFrame 0x2A = true := by decide
    have slash : isFrame 0x2F = true := by decide
    simp only [List.takeWhile_cons, frame, star, slash, ↓reduceIte]

/-- A doc comment: opener, terminator, and no terminator in between. -/
structure DocText (t : Text) : Prop where
  opens : Opens t
  closes : Closes t
  single : ∀ i, 2 ≤ i → i + 3 ≤ t.length → ¬ [0x2A, 0x2F] <+: t.drop i

theorem single_iff {t : Text} (opens : Opens t) (closes : Closes t) :
    (∀ i, 2 ≤ i → i + 3 ≤ t.length → ¬ [0x2A, 0x2F] <+: t.drop i) ↔ terminators t = 1 := by
  obtain ⟨b, after, start, _⟩ := opens
  obtain ⟨u, rfl⟩ := closes
  have count : terminators (u ++ [0x2A, 0x2F]) = terminators u + 1 := by
    rw [terminators_append, seam_of_head (by simp)]
    rfl
  rw [count, Nat.add_eq_right, terminators_eq_zero_iff]
  constructor
  · intro single i found
    have bound : i + 2 ≤ u.length := by
      have := found.length_le
      simp only [List.length_cons, List.length_nil, List.length_drop] at this
      omega
    have whole : [0x2A, 0x2F] <+: (u ++ [0x2A, 0x2F]).drop i := by
      rw [List.drop_append_of_le_length (by omega)]
      exact found.trans (List.prefix_append _ _)
    match i with
    | 0 => simp [start] at whole
    | 1 => simp [start] at whole
    | i + 2 => exact single (i + 2) (by omega) (by simp; omega) whole
  · intro none_ i _ bound found
    simp only [List.length_append, List.length_cons, List.length_nil] at bound
    rw [List.drop_append_of_le_length (by omega)] at found
    match rest : u.drop i with
    | [] =>
      rw [List.drop_eq_nil_iff] at rest
      omega
    | [c] => simp [rest] at found
    | c :: d :: rest' =>
      refine none_ i ?_
      rw [rest] at found ⊢
      simpa using found

theorem docText_iff {t : Text} : DocText t ↔ Opens t ∧ Closes t ∧ terminators t = 1 := by
  constructor
  · intro doc
    exact ⟨doc.opens, doc.closes, (single_iff doc.opens doc.closes).mp doc.single⟩
  · rintro ⟨opens, closes, one⟩
    exact ⟨opens, closes, (single_iff opens closes).mpr one⟩

instance (t : Text) : Decidable (Closes t) :=
  decidable_of_iff _ (closes_reverse t).symm

instance (t : Text) : Decidable (DocText t) :=
  decidable_of_iff _ docText_iff.symm

theorem space_not_frame {b : UInt8} (space : isSpace b = true) : b ≠ 0x2A ∧ b ≠ 0x2F := by
  constructor <;> rintro rfl <;> simp [isSpace] at space

theorem docText_shape {t : Text} : DocText t ↔ ∃ b body, isSpace b = true ∧
    terminators body = 0 ∧ t = [0x2F, 0x2A, 0x2A, b] ++ (body ++ [0x2A, 0x2F]) := by
  have count {b : UInt8} (space : isSpace b = true) (rest : Text) :
      terminators ([0x2F, 0x2A, 0x2A, b] ++ rest) = terminators rest := by
    have other := space_not_frame space
    rw [terminators_append, seam_of_last (by simp [other.1])]
    simp [terminators, other.2]
  have ending (body : Text) : terminators (body ++ [0x2A, 0x2F]) = terminators body + 1 := by
    rw [terminators_append, seam_of_head (by simp)]
    rfl
  rw [docText_iff]
  constructor
  · rintro ⟨⟨b, rest, rfl, space⟩, closes, one⟩
    have other := space_not_frame space
    have closes : Closes ([0x2F, 0x2A, 0x2A, b] ++ rest) := closes
    have opener : ¬ Closes [0x2F, 0x2A, 0x2A, b] := not_closes_of_last rfl other.2
    rw [closes_append] at closes
    simp only [List.getLast?_cons_cons, List.getLast?_singleton, Option.some.injEq, other.1,
      and_false, opener, or_false] at closes
    obtain ⟨body, rfl⟩ := closes
    have one : terminators ([0x2F, 0x2A, 0x2A, b] ++ (body ++ [0x2A, 0x2F])) = 1 := one
    rw [count space, ending] at one
    exact ⟨b, body, space, by omega, rfl⟩
  · rintro ⟨b, body, space, none_, rfl⟩
    refine ⟨⟨b, _, rfl, space⟩, ?_, ?_⟩
    · rw [← List.append_assoc]
      exact List.suffix_append _ _
    · rw [count space, ending, none_]

structure SameFrame (t out : Text) : Prop where
  opens : Opens out ↔ Opens t
  closes : Closes out ↔ Closes t
  count : terminators out = terminators t

theorem sameFrame_trans {a b c : Text} (first : SameFrame a b) (second : SameFrame b c) :
    SameFrame a c where
  opens := second.opens.trans first.opens
  closes := second.closes.trans first.closes
  count := second.count.trans first.count

theorem docText_congr {t out : Text} (same : SameFrame t out) : DocText out ↔ DocText t := by
  rw [docText_iff, docText_iff, same.opens, same.closes, same.count]

/-- `out` is `t` with some stretches replaced; `swapped x y rest` holds where `x` before `rest`
became `y`. -/
inductive Swap (swapped : Text → Text → Text → Prop) : Text → Text → Prop
  | done : Swap swapped [] []
  | keep (b : UInt8) {t out : Text} (more : Swap swapped t out) : Swap swapped (b :: t) (b :: out)
  | swap {x y t out : Text} (ok : swapped x y t) (more : Swap swapped t out) :
      Swap swapped (x ++ t) (y ++ out)

theorem swap_mono {swapped swapped' : Text → Text → Text → Prop}
    (weaker : ∀ x y rest, swapped x y rest → swapped' x y rest) {t out : Text}
    (swap : Swap swapped t out) : Swap swapped' t out := by
  induction swap with
  | done => exact .done
  | keep b _ ih => exact .keep b ih
  | swap ok _ ih => exact .swap (weaker _ _ _ ok) ih

theorem swap_refl (swapped : Text → Text → Text → Prop) (t : Text) : Swap swapped t t := by
  induction t with
  | nil => exact .done
  | cons b t ih => exact .keep b ih

theorem swap_append {swapped : Text → Text → Text → Prop} (x : Text) {t out : Text}
    (swap : Swap swapped t out) : Swap swapped (x ++ t) (x ++ out) := by
  induction x with
  | nil => exact swap
  | cons b x ih => exact .keep b ih

def StartsOff (p : UInt8 → Bool) (x : Text) : Prop := ∃ b rest, x = b :: rest ∧ p b = false

theorem startsOff_of_head {p : UInt8 → Bool} {x : Text} (off : x.head?.any (!p ·) = true) :
    StartsOff p x := by
  cases x with
  | nil => contradiction
  | cons b x => exact ⟨b, x, rfl, by simpa using off⟩

theorem startsOff_append {p : UInt8 → Bool} {x : Text} (off : StartsOff p x) (t : Text) :
    StartsOff p (x ++ t) := by
  obtain ⟨b, rest, rfl, refused⟩ := off
  exact ⟨b, rest ++ t, rfl, refused⟩

/-- Replacements away from the bytes of the opener leave the opener alone. -/
theorem opens_of_swap {t out : Text}
    (swap : Swap (fun x y _ => StartsOff isFrame x ∧ StartsOff isFrame y) t out) :
    Opens out ↔ Opens t := by
  have same : out.takeWhile isFrame = t.takeWhile isFrame := by
    induction swap with
    | done => rfl
    | keep b _ ih => simp only [List.takeWhile_cons, ih]
    | swap ok _ ih =>
      obtain ⟨⟨b, x, rfl, hb⟩, c, y, rfl, hc⟩ := ok
      simp [hb, hc]
  rw [← opens_takeWhile, same, opens_takeWhile]

structure Even (x y rest : Text) : Prop where
  left : StartsOff (· == 0x2F) x ∧ StartsOff (· == 0x2F) y
  count : terminators y = terminators x
  seam : seam y rest = seam x rest
  closes : Closes y ↔ Closes x

/-- What has to agree so that any text before `t` and `out` sees the same terminators. -/
structure Alike (t out : Text) : Prop where
  count : terminators out = terminators t
  closes : Closes out ↔ Closes t
  slash : out.head? = some 0x2F ↔ t.head? = some 0x2F
  lone : out = [0x2F] ↔ t = [0x2F]
  empty : out = [] ↔ t = []

theorem alike_append (x : Text) {t out : Text} (alike : Alike t out) :
    Alike (x ++ t) (x ++ out) where
  count := by
    rw [terminators_append, terminators_append, alike.count, seam_congr alike.slash]
  closes := by
    rw [closes_append, closes_append, alike.closes, alike.lone, alike.empty]
  slash := by
    cases x with
    | nil => exact alike.slash
    | cons b x => rfl
  lone := by
    cases x with
    | nil => exact alike.lone
    | cons b x => simp [alike.empty]
  empty := by simp [alike.empty]

theorem alike_even {x y t : Text} (even : Even x y t) : Alike (x ++ t) (y ++ t) := by
  obtain ⟨⟨b, x, rfl, hb⟩, c, y, rfl, hc⟩ := even.left
  have hb : b ≠ 0x2F := by simpa using hb
  have hc : c ≠ 0x2F := by simpa using hc
  constructor
  case count => rw [terminators_append, terminators_append, even.count, even.seam]
  case closes =>
    have ends : (t = [0x2F] ∧ (c :: y).getLast? = some 0x2A) ↔
        (t = [0x2F] ∧ (b :: x).getLast? = some 0x2A) := by
      refine and_congr_right fun slash => ?_
      have spans : Frame.seam (c :: y) t = 1 ↔ Frame.seam (b :: x) t = 1 := by rw [even.seam]
      simpa only [seam_eq_one_iff, slash, List.head?_cons, and_true] using spans
    rw [closes_append, closes_append, ends, even.closes]
  case slash => simp [hb, hc]
  case lone => simp [hb, hc]
  case empty => simp

theorem alike_trans {a b c : Text} (first : Alike a b) (second : Alike b c) : Alike a c where
  count := second.count.trans first.count
  closes := second.closes.trans first.closes
  slash := second.slash.trans first.slash
  lone := second.lone.trans first.lone
  empty := second.empty.trans first.empty

theorem alike_of_swap {t out : Text} (swap : Swap Even t out) : Alike t out := by
  induction swap with
  | done => exact ⟨rfl, Iff.rfl, Iff.rfl, Iff.rfl, Iff.rfl⟩
  | keep b _ ih => exact alike_append [b] ih
  | swap ok _ ih => exact alike_trans (alike_even ok) (alike_append _ ih)

def Aside (x y rest : Text) : Prop :=
  Even x y rest ∧ StartsOff isFrame x ∧ StartsOff isFrame y

theorem sameFrame_of_swap {t out : Text} (swap : Swap Aside t out) : SameFrame t out where
  opens := opens_of_swap (swap_mono (fun _ _ _ aside => aside.2) swap)
  closes := (alike_of_swap (swap_mono (fun _ _ _ aside => aside.1) swap)).closes
  count := (alike_of_swap (swap_mono (fun _ _ _ aside => aside.1) swap)).count

theorem startsOff_slash {x : Text} (off : StartsOff isFrame x) : StartsOff (· == 0x2F) x := by
  obtain ⟨b, rest, rfl, refused⟩ := off
  simp only [isFrame, Bool.or_eq_false_iff] at refused
  exact ⟨b, rest, rfl, refused.1.1⟩

theorem aside_of_no_star {x y : Text} (z rest : Text) (hx : StartsOff isFrame x)
    (hy : StartsOff isFrame y) (freeX : 0x2A ∉ x) (freeY : 0x2A ∉ y) :
    Aside (x ++ z) (y ++ z) rest := by
  have close {w : Text} (free : 0x2A ∉ w) : Closes (w ++ z) ↔ Closes z := by
    simp [closes_append, last_of_no_star free, not_closes_of_no_star free]
  have join {w : Text} (free : 0x2A ∉ w) : seam (w ++ z) rest = seam z rest := by
    cases z with
    | nil => rw [List.append_nil, seam_of_last (last_of_no_star free), seam_of_last (by simp)]
    | cons b z => simp only [seam, List.getLast?_append, List.getLast?_cons, Option.some_or]
  refine ⟨⟨⟨startsOff_slash (startsOff_append hx z), startsOff_slash (startsOff_append hy z)⟩,
    ?_, ?_, ?_⟩, startsOff_append hx z, startsOff_append hy z⟩
  · rw [terminators_skip freeX, terminators_skip freeY]
  · rw [join freeX, join freeY]
  · rw [close freeX, close freeY]

theorem aside_plain {x y : Text} (rest : Text) (hx : StartsOff isFrame x)
    (hy : StartsOff isFrame y) (freeX : 0x2A ∉ x) (freeY : 0x2A ∉ y) : Aside x y rest := by
  have aside := aside_of_no_star [] rest hx hy freeX freeY
  rwa [List.append_nil, List.append_nil] at aside

end DocBridge.Frame
