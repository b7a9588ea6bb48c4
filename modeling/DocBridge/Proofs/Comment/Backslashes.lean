import DocBridge.Comment.Rule
import Mathlib.Data.List.SplitBy

/-
Which backslashes are separators. A text is cut into maximal runs of backslashes and the stretches
between them; the rule works part by part, and nothing but the runs of one backslash changes. What is
put for these holds no backslash, so the longer runs are the runs of the result.
-/
namespace DocBridge.Rule

open Text

def isSlash (b : UInt8) : Bool := b == 0x5C

/-- The maximal runs of backslashes and the stretches between them, in order. -/
def slashRuns (text : Text) : List Text := text.splitBy fun a b => isSlash a == isSlash b

def isRun (part : Text) : Bool := part.all isSlash

def separated (part : Text) : Text := if part = [0x5C] then "::" else part

/-- `part` holds nothing but backslashes, or none, and cannot go on into `rest`. -/
structure PartOf (side : Bool) (part rest : Text) : Prop where
  some_ : part ≠ []
  uniform : ∀ b ∈ part, isSlash b = side
  maximal : ∀ b ∈ rest.head?, isSlash b ≠ side

theorem isRun_stretch {part : Text} (some_ : part ≠ []) (plain : ∀ b ∈ part, isSlash b = false) :
    isRun part = false := by
  obtain ⟨b, part, rfl⟩ := List.exists_cons_of_ne_nil some_
  rw [isRun, List.all_cons, plain b List.mem_cons_self, Bool.false_and]

/-- A text is taken apart from the left. -/
theorem parts_induction {motive : Text → Prop} (nil : motive [])
    (part : ∀ side front rest, PartOf side front rest → motive rest → motive (front ++ rest))
    (text : Text) : motive text := by
  induction size : text.length using Nat.strongRecOn generalizing text with
  | ind n ih =>
    cases text with
    | nil => exact nil
    | cons b text =>
      let same := fun a => isSlash a == isSlash b
      have split : (b :: text).takeWhile same ++ (b :: text).dropWhile same = b :: text :=
        List.takeWhile_append_dropWhile
      have first : (b :: text).takeWhile same = b :: text.takeWhile same := by simp [same]
      have shorter : ((b :: text).dropWhile same).length < n := by
        have whole := congrArg List.length split
        rw [first, List.length_append, List.length_cons, size] at whole
        omega
      rw [← split]
      refine part (isSlash b) _ _ ⟨by simp [first], fun a member => ?_, fun a head => ?_⟩
        (ih _ shorter _ rfl)
      · have := List.all_eq_true.mp List.all_takeWhile a member
        simpa [same] using this
      · have stop := List.head?_dropWhile_not same (b :: text)
        rw [head] at stop
        simpa [same] using stop

theorem slashRuns_part {side : Bool} {front rest : Text} (part : PartOf side front rest) :
    slashRuns (front ++ rest) = front :: slashRuns rest := by
  have chain : front.IsChain fun a b => (isSlash a == isSlash b) = true := by
    refine List.Pairwise.isChain (List.pairwise_of_forall_mem_list fun a first b later => ?_)
    rw [part.uniform a first, part.uniform b later, beq_self_eq_true]
  rw [slashRuns, List.splitBy_append, List.splitBy_of_isChain part.some_ chain]
  · rfl
  · intro a last b head
    rw [part.uniform a (List.mem_of_getLast? last), beq_eq_false_iff_ne]
    exact (part.maximal b head).symm

theorem separatorsFrom_stretch {front : Text} (plain : ∀ b ∈ front, isSlash b = false)
    (rest : Text) :
    separatorsFrom false (front ++ rest) = front ++ separatorsFrom false rest := by
  induction front with
  | nil => rfl
  | cons b front ih =>
    obtain ⟨first, others⟩ := List.forall_mem_cons.mp plain
    have other : (b == 0x5C) = false := first
    rw [List.cons_append, separatorsFrom, other, if_neg Bool.false_ne_true, ih others]
    rfl

theorem separated_stretch {part : Text} (plain : ∀ b ∈ part, isSlash b = false) :
    separated part = part := by
  refine if_neg ?_
  rintro rfl
  exact absurd (plain 0x5C (by simp)) (by decide)

theorem separatorsFrom_within {front rest : Text} (run : ∀ b ∈ front, isSlash b = true)
    (stop : ∀ b ∈ rest.head?, isSlash b ≠ true) :
    separatorsFrom true (front ++ rest) = front ++ separatorsFrom false rest := by
  induction front with
  | nil =>
    cases rest with
    | nil => rfl
    | cons b rest =>
      have other : (b == 0x5C) = false := Bool.eq_false_iff.mpr (stop b rfl)
      rw [List.nil_append, List.nil_append, separatorsFrom, separatorsFrom, other,
        if_neg Bool.false_ne_true, if_neg Bool.false_ne_true]
  | cons b front ih =>
    obtain ⟨first, others⟩ := List.forall_mem_cons.mp run
    have slash : (b == 0x5C) = true := first
    rw [List.cons_append, separatorsFrom, if_pos slash, Bool.true_or, if_pos rfl, ih others]
    rfl

theorem namespaceSeparators_part {side : Bool} {front rest : Text}
    (part : PartOf side front rest) :
    namespaceSeparators (front ++ rest) = separated front ++ namespaceSeparators rest := by
  obtain ⟨some_, uniform, maximal⟩ := part
  unfold namespaceSeparators
  cases side with
  | false => rw [separated_stretch uniform, separatorsFrom_stretch uniform]
  | true =>
    match front with
    | [b] =>
      obtain rfl : b = 0x5C := by simpa [isSlash] using uniform b (by simp)
      have alone : (rest.head? == some 0x5C) = false := by
        rw [beq_eq_false_iff_ne]
        exact fun head => maximal 0x5C head rfl
      have after : separatorsFrom true rest = separatorsFrom false rest :=
        separatorsFrom_within (by simp : ∀ b ∈ [], isSlash b = true) maximal
      rw [List.cons_append, List.nil_append, separatorsFrom, if_pos (beq_self_eq_true _),
        Bool.false_or, alone, if_neg Bool.false_ne_true, after]
      rfl
    | b :: c :: front =>
      obtain ⟨first, others⟩ := List.forall_mem_cons.mp uniform
      have slash : (b == 0x5C) = true := first
      have next : ((c :: front ++ rest).head? == some 0x5C) = true := by
        simpa [isSlash] using others c (by simp)
      have kept : separated (b :: c :: front) = b :: c :: front := if_neg (by simp)
      rw [kept, List.cons_append, separatorsFrom, if_pos slash, next, Bool.or_true, if_pos rfl,
        separatorsFrom_within others maximal]
      rfl

theorem namespaceSeparators_head {text : Text} (plain : ∀ b ∈ text.head?, isSlash b ≠ true) :
    ∀ b ∈ (namespaceSeparators text).head?, isSlash b ≠ true := by
  cases text with
  | nil => exact plain
  | cons b rest =>
    have other : (b == 0x5C) = false := Bool.eq_false_iff.mpr (plain b rfl)
    rw [namespaceSeparators, separatorsFrom, other, if_neg Bool.false_ne_true]
    exact plain

theorem runs_stretch {front : Text} (plain : ∀ b ∈ front, isSlash b = false) (text : Text) :
    (slashRuns (front ++ text)).filter isRun = (slashRuns text).filter isRun := by
  -- Both sides are the runs of what follows the first stretch.
  have behind (stretch rest : Text) (free : ∀ b ∈ stretch, isSlash b = false)
      (stop : ∀ b ∈ rest.head?, isSlash b ≠ false) :
      (slashRuns (stretch ++ rest)).filter isRun = (slashRuns rest).filter isRun := by
    cases stretch with
    | nil => rfl
    | cons b stretch =>
      rw [slashRuns_part ⟨by simp, free, stop⟩, List.filter_cons, isRun_stretch (by simp) free]
      rfl
  induction text using parts_induction with
  | nil => exact behind front [] plain (by simp)
  | part side part rest here _ =>
    cases side with
    | true =>
      have stop : ∀ b ∈ (part ++ rest).head?, isSlash b ≠ false := by
        obtain ⟨b, part, rfl⟩ := List.exists_cons_of_ne_nil here.some_
        simpa using here.uniform b (by simp)
      exact behind front _ plain stop
    | false =>
      have both : ∀ b ∈ front ++ part, isSlash b = false := by
        simpa [or_imp, forall_and] using ⟨plain, here.uniform⟩
      rw [← List.append_assoc, behind _ rest both here.maximal,
        behind part rest here.uniform here.maximal]

theorem runs_namespaceSeparators (text : Text) :
    (slashRuns (namespaceSeparators text)).filter isRun =
      (slashRuns text).filter fun part => isRun part && part.length != 1 := by
  induction text using parts_induction with
  | nil => rfl
  | part side part rest here ih =>
    rw [namespaceSeparators_part here, slashRuns_part here, List.filter_cons]
    cases side with
    | false =>
      rw [separated_stretch here.uniform, runs_stretch here.uniform, ih,
        isRun_stretch here.some_ here.uniform]
      rfl
    | true =>
      by_cases lone : part = [0x5C]
      · subst lone
        have colons : separated [0x5C] = [0x3A, 0x3A] := by decide
        have plain : ∀ b ∈ separated [0x5C], isSlash b = false := by
          rw [colons]
          simp [isSlash]
        exact (runs_stretch plain _).trans ih
      · have kept : separated part = part := if_neg lone
        have run : isRun part = true := List.all_eq_true.mpr here.uniform
        have long : (part.length != 1) = true := by
          rw [bne_iff_ne]
          intro single
          obtain ⟨b, rfl⟩ := List.length_eq_one_iff.mp single
          exact lone (by simpa [isSlash] using here.uniform b (by simp))
        have later : PartOf true part (namespaceSeparators rest) :=
          ⟨here.some_, here.uniform, namespaceSeparators_head here.maximal⟩
        rw [kept, slashRuns_part later, List.filter_cons, run, long, ih]
        rfl

theorem separated_others {parts : List Text} (none_ : [0x5C] ∉ parts) :
    parts.flatMap separated = parts.flatten := by
  induction parts with
  | nil => rfl
  | cons part parts ih =>
    rw [List.mem_cons, not_or] at none_
    rw [List.flatMap_cons, List.flatten_cons, ih none_.2, separated, if_neg (Ne.symm none_.1)]

theorem namespaceSeparators_parts (text : Text) :
    namespaceSeparators text = (slashRuns text).flatMap separated := by
  induction text using parts_induction with
  | nil => rfl
  | part side part rest here ih =>
    rw [namespaceSeparators_part here, slashRuns_part here, List.flatMap_cons, ih]

/-- Separators are put for the runs of one backslash and nothing else is changed. -/
theorem namespaceSeparators_lone_runs (text : Text) :
    namespaceSeparators text = (slashRuns text).flatMap separated ∧
      [0x5C] ∉ slashRuns (namespaceSeparators text) ∧
      (slashRuns (namespaceSeparators text)).filter isRun =
        (slashRuns text).filter (fun part => isRun part && part.length != 1) ∧
      namespaceSeparators (namespaceSeparators text) = namespaceSeparators text := by
  have runs := runs_namespaceSeparators text
  have lone : [0x5C] ∉ slashRuns (namespaceSeparators text) := by
    intro member
    have kept : [0x5C] ∈ (slashRuns (namespaceSeparators text)).filter isRun :=
      List.mem_filter.mpr ⟨member, rfl⟩
    rw [runs] at kept
    exact absurd (List.mem_filter.mp kept).2 (by decide)
  refine ⟨namespaceSeparators_parts text, lone, runs, ?_⟩
  rw [namespaceSeparators_parts (namespaceSeparators text), separated_others lone]
  exact List.flatten_splitBy _ _

example : slashRuns "A\\\\\\B\\C\\\\" = ["A", "\\\\\\", "B", "\\", "C", "\\\\"] := by decide

end DocBridge.Rule
