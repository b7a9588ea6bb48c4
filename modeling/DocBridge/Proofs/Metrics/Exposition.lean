import DocBridge.Proofs.Fix.Counters
import Mathlib.Data.List.Perm.Basic

/-
The text of the metrics. It depends on what was counted and not on the order: each counter has one
entry for each label, the entries are written in the order of the labels, and every number reads
back as what was counted there.
-/
namespace DocBridge

theorem gathered_iff {α : Type} [Add α] [Zero α] {events : List (Text × α)} {label : Text} {n : α} :
    gathered events label = some n ↔
      amounts events label ≠ [] ∧ (amounts events label).sum = n := by
  unfold gathered
  cases amounts events label <;> simp

theorem gathered_perm {α : Type} [AddCommMonoid α] {events other : List (Text × α)}
    (same : events.Perm other) (label : Text) : gathered events label = gathered other label := by
  have there : (amounts events label).Perm (amounts other label) := (same.filter _).map _
  refine Option.ext fun n => ?_
  rw [gathered_iff, gathered_iff, there.sum_eq, ne_eq, ne_eq, ← List.isEmpty_iff,
    ← List.isEmpty_iff, there.isEmpty_eq]

namespace Counter

def Distinct (c : Counter) : Prop := (c.map Prod.fst).Nodup

theorem add_labels (c : Counter) (label : Text) (n : UInt64) : (c.add label n).map Prod.fst =
    if label ∈ c.map Prod.fst then c.map Prod.fst else c.map Prod.fst ++ [label] := by
  induction c with
  | nil => rfl
  | cons e c ih =>
    obtain ⟨l, old⟩ := e
    by_cases here : l = label
    · simp [add, here]
    · have other : ¬ label = l := fun same => here same.symm
      simp only [add, beq_iff_eq, here, if_false, List.map_cons, ih, List.mem_cons, other, false_or]
      split <;> rfl

theorem distinct_add {c : Counter} (distinct : c.Distinct) (label : Text) (n : UInt64) :
    (c.add label n).Distinct := by
  rw [Distinct, add_labels]
  split
  · exact distinct
  · rename_i fresh
    exact List.nodup_append.mpr ⟨distinct, List.nodup_singleton label, by
      intro l member l' single same
      rw [List.mem_singleton.mp single] at same
      exact fresh (same ▸ member)⟩

theorem distinct_addAll (events : List (Text × UInt64)) : (addAll [] events).Distinct := by
  induction events using List.reverseRecOn with
  | nil => exact List.nodup_nil
  | append_singleton events e ih =>
    rw [addAll_append]
    exact distinct_add ih e.1 e.2

theorem mem_iff_lookup {c : Counter} (distinct : c.Distinct) (e : Text × UInt64) :
    e ∈ c ↔ c.lookup e.1 = some e.2 := by
  induction c with
  | nil => simp
  | cons first c ih =>
    obtain ⟨fresh, rest⟩ := List.nodup_cons.mp distinct
    rw [List.mem_cons, List.lookup_cons]
    by_cases same : e.1 = first.1
    · have later : e ∉ c := fun member => fresh (same ▸ List.mem_map_of_mem member)
      simp [same, later, Prod.ext_iff, eq_comm]
    · have other : e ≠ first := fun whole => same (congrArg Prod.fst whole)
      have differ : (e.1 == first.1) = false := beq_eq_false_iff_ne.mpr same
      simp [differ, other, ih rest]

theorem addAll_perm {events other : List (Text × UInt64)} (same : events.Perm other) :
    (addAll [] events).Perm (addAll [] other) := by
  have mine := distinct_addAll events
  have theirs := distinct_addAll other
  refine (List.perm_ext_iff_of_nodup (.of_map _ mine) (.of_map _ theirs)).mpr fun e => ?_
  rw [mem_iff_lookup mine, mem_iff_lookup theirs, lookup_addAll, lookup_addAll,
    gathered_perm same]

theorem sorted_pairwise (c : Counter) : c.sorted.Pairwise fun a b => a.1 ≤ b.1 := by
  have trans (a b c : Text × UInt64) (first : Text.le a.1 b.1 = true)
      (second : Text.le b.1 c.1 = true) : Text.le a.1 c.1 = true := by
    rw [Text.le_iff] at first second ⊢
    exact List.le_trans first second
  have total (a b : Text × UInt64) : (Text.le a.1 b.1 || Text.le b.1 a.1) = true := by
    rw [Bool.or_eq_true, Text.le_iff, Text.le_iff]
    exact List.le_total a.1 b.1
  exact (List.pairwise_mergeSort trans total c).imp fun first => (Text.le_iff _ _).mp first

theorem sorted_perm (c : Counter) : c.sorted.Perm c := List.mergeSort_perm c _

theorem sorted_labels {c : Counter} (distinct : c.Distinct) :
    (c.sorted.map Prod.fst).Pairwise (· < ·) := by
  have nodup : (c.sorted.map Prod.fst).Nodup := ((sorted_perm c).map Prod.fst).nodup_iff.mpr distinct
  refine ((List.pairwise_map.mpr (sorted_pairwise c)).and nodup).imp ?_
  rintro a b ⟨le, ne⟩
  exact (List.le_iff_lt_or_eq.mp le).resolve_right ne

theorem sorted_eq {c d : Counter} (distinct : c.Distinct) (same : c.Perm d) :
    c.sorted = d.sorted := by
  have whole : c.sorted.Perm d.sorted := (sorted_perm c).trans (same.trans (sorted_perm d).symm)
  refine whole.eq_of_pairwise ?_ (sorted_pairwise c) (sorted_pairwise d)
  intro a b here there ab ba
  have mine := (mem_iff_lookup distinct a).mp ((sorted_perm c).mem_iff.mp here)
  have theirs := (mem_iff_lookup distinct b).mp (same.mem_iff.mpr ((sorted_perm d).mem_iff.mp there))
  have label := List.le_antisymm ab ba
  rw [label, theirs] at mine
  exact Prod.ext label (Option.some.inj mine).symm

end Counter

namespace Metrics

inductive Event where
  | file (outcome : Text)
  | changes (query : Text) (amount : Int)
  deriving DecidableEq

def apply (m : Metrics) : Event → Metrics
  | .file outcome => m.countFile outcome
  | .changes query amount => m.addChanges query amount

def recorded (events : List Event) : Metrics := events.foldl apply {}

def fileTotal (events : List Event) (outcome : Text) : Nat := events.count (.file outcome)

def amountFor (query : Text) : Event → Nat
  | .file _ => 0
  | .changes q amount => if q = query then amount.toNat else 0

def changeTotal (events : List Event) (query : Text) : Nat := (events.map (amountFor query)).sum

structure Small (events : List Event) : Prop where
  files : ∀ outcome, fileTotal events outcome < 2 ^ 53
  changes : ∀ query, changeTotal events query < 2 ^ 53

def heading (name help : Text) : Text :=
  "# HELP " ++ name ++ " " ++ help ++ "\n# TYPE " ++ name ++ " counter\n"

def line (name key label number : Text) : Text :=
  name ++ "\x7b" ++ key ++ "=\"" ++ label.flatMap escapeByte ++ "\"\x7d " ++ number ++ "\n"

/-- The text of a family: nothing if no label is listed; otherwise the heading, and for each listed
label, in ascending order, a line with a number that reads back as the total. -/
def Lists (name help key : Text) (listed : Text → Prop) (total : Text → Nat) (text : Text) : Prop :=
  ∃ (labels : List Text) (number : Text → Text), labels.Pairwise (· < ·) ∧
    (∀ l, l ∈ labels ↔ listed l) ∧
    (∀ l ∈ labels, Numeral.parse? (number l) = some (total l)) ∧
    text = if labels.isEmpty then [] else
      heading name help ++ labels.flatMap fun l => line name key l (number l)

theorem family_lists {c : Counter} (distinct : c.Distinct) {listed : Text → Prop}
    {total : Text → Nat} (shown : ∀ l k, c.shown l = some k ↔ listed l ∧ total l = k)
    (small : ∀ l, total l < 2 ^ 53) (name help key : Text) :
    Lists name help key listed total (family name help key c) := by
  have number_ (e : Text × UInt64) (member : e ∈ c.sorted) :
      listed e.1 ∧ total e.1 = Binary.nearest e.2.toNat := by
    have found := (Counter.mem_iff_lookup distinct e).mp ((Counter.sorted_perm c).mem_iff.mp member)
    exact (shown e.1 _).mp (by rw [Counter.shown, found, Option.map_some])
  refine ⟨c.sorted.map Prod.fst, fun l => NumberFormat.plain.write (.ofNat (total l)),
    Counter.sorted_labels distinct, ?_, fun l _ => NumberFormat.parse_write (small l), ?_⟩
  · intro l
    constructor
    · intro member
      obtain ⟨e, inside, rfl⟩ := List.mem_map.mp member
      exact (number_ e inside).1
    · intro here
      have present := (shown l _).mpr ⟨here, rfl⟩
      obtain ⟨n, found, -⟩ := Option.map_eq_some_iff.mp present
      have inside := (Counter.mem_iff_lookup distinct (l, n)).mpr found
      exact List.mem_map_of_mem ((Counter.sorted_perm c).mem_iff.mpr inside)
  · have lines : c.sorted.flatMap (sample name key) = (c.sorted.map Prod.fst).flatMap fun l =>
        line name key l (NumberFormat.plain.write (.ofNat (total l))) := by
      rw [List.flatMap_map]
      refine List.flatMap_congr fun e member => ?_
      have exact_ := (number_ e member).2
      rw [exact_, ← Binary.ofNat_nearest (exact_ ▸ small e.1)]
      rfl
    rw [family, lines, List.isEmpty_map, (Counter.sorted_perm c).isEmpty_eq]
    rfl

theorem effective_perm {events other : List (Text × Int)} (same : events.Perm other) :
    (effective events).Perm (effective other) := (same.filter _).map _

theorem family_perm {c d : Counter} (distinct : c.Distinct) (same : c.Perm d)
    (name help key : Text) : family name help key c = family name help key d := by
  rw [family, family, same.isEmpty_eq, Counter.sorted_eq distinct same]

def Event.mark? : Event → Option (Text × UInt64)
  | .file outcome => some (outcome, 1)
  | .changes _ _ => none

def Event.change? : Event → Option (Text × Int)
  | .file _ => none
  | .changes query amount => some (query, amount)

theorem foldl_apply (events : List Event) (m : Metrics) : events.foldl apply m =
    ⟨m.files.addAll (events.filterMap Event.mark?),
      m.changes.addAll (effective (events.filterMap Event.change?))⟩ := by
  induction events generalizing m with
  | nil => rfl
  | cons e events ih =>
    rw [List.foldl_cons, ih]
    cases e with
    | file outcome => rfl
    | changes query amount =>
      have added := addChanges_changes m (query, amount)
      simp only [apply, List.filterMap_cons, Event.mark?, Event.change?]
      rw [← List.singleton_append (l := events.filterMap Event.change?), effective_append,
        Counter.addAll_append, ← added, addChanges_files]

theorem recorded_eq (events : List Event) : recorded events =
    ⟨Counter.addAll [] (events.filterMap Event.mark?),
      Counter.addAll [] (effective (events.filterMap Event.change?))⟩ := foldl_apply events {}

theorem marks_counted (events : List Event) (l : Text) :
    (events.filterMap Event.mark?).countP (·.1 == l) = fileTotal events l := by
  induction events with
  | nil => rfl
  | cons e events ih =>
    rw [fileTotal] at ih ⊢
    cases e with
    | file outcome => simp [Event.mark?, List.countP_cons, List.count_cons, ih]
    | changes query amount =>
      rw [List.count_cons_of_ne (by simp), ← ih]
      rfl

theorem shown_files {events : List Event} {l : Text} (small : fileTotal events l < 2 ^ 53)
    (k : Nat) : (recorded events).files.shown l = some k ↔
      .file l ∈ events ∧ fileTotal events l = k := by
  have single : ∀ e ∈ events.filterMap Event.mark?, e.2 = 1 := by
    intro e member
    obtain ⟨event, -, marked⟩ := List.mem_filterMap.mp member
    cases event with
    | file outcome => exact (Option.some.inj marked) ▸ rfl
    | changes query amount => contradiction
  rw [recorded_eq, Counter.shown_ones single (marks_counted events l ▸ small),
    marks_counted, Counter.ones, ← List.count_pos_iff, ← fileTotal]
  split
  · rename_i none_
    simp [none_]
  · rename_i some_
    simp [Nat.pos_of_ne_zero some_]

def counting (events : List Event) (query : Text) : List Int :=
  amounts ((events.filterMap Event.change?).filter (0 < ·.2)) query

theorem counting_cons (e : Event) (events : List Event) (query : Text) :
    counting (e :: events) query = match e with
      | .file _ => counting events query
      | .changes q amount =>
        if 0 < amount ∧ q = query then amount :: counting events query else counting events query := by
  cases e with
  | file outcome => rfl
  | changes q amount =>
    by_cases some_ : 0 < amount
    · simp [counting, Event.change?, some_, amounts_cons]
    · simp [counting, Event.change?, some_]

theorem mem_counting {events : List Event} {query : Text} {n : Int} :
    n ∈ counting events query ↔ 0 < n ∧ .changes query n ∈ events := by
  induction events with
  | nil => simp [counting, amounts]
  | cons e events ih =>
    rw [counting_cons]
    cases e with
    | file outcome => simp [ih]
    | changes q amount =>
      simp only [List.mem_cons, Event.changes.injEq]
      split
      · rename_i counts
        rw [List.mem_cons, ih]
        constructor
        · rintro (rfl | ⟨some_, later⟩)
          · exact ⟨counts.1, .inl ⟨counts.2.symm, rfl⟩⟩
          · exact ⟨some_, .inr later⟩
        · rintro ⟨some_, ⟨-, rfl⟩ | later⟩
          · exact .inl rfl
          · exact .inr ⟨some_, later⟩
      · rename_i idle
        rw [ih]
        constructor
        · rintro ⟨some_, later⟩
          exact ⟨some_, .inr later⟩
        · rintro ⟨some_, ⟨rfl, rfl⟩ | later⟩
          · exact absurd ⟨some_, rfl⟩ idle
          · exact ⟨some_, later⟩

theorem sum_counting (events : List Event) (query : Text) :
    (counting events query).sum = changeTotal events query := by
  induction events with
  | nil => rfl
  | cons e events ih =>
    rw [counting_cons, changeTotal, List.map_cons, List.sum_cons, ← changeTotal, Nat.cast_add, ← ih]
    cases e with
    | file outcome => simp [amountFor]
    | changes q amount =>
      simp only [amountFor]
      split
      · rename_i counts
        rw [List.sum_cons, if_pos counts.2, Int.toNat_of_nonneg counts.1.le]
      · rename_i idle
        have none_ : (if q = query then amount.toNat else 0) = 0 := by
          split
          · have : ¬ 0 < amount := fun some_ => idle ⟨some_, ‹_›⟩
            omega
          · rfl
        rw [none_, Nat.cast_zero, zero_add]

theorem shown_changes {events : List Event} {query : Text} (small : changeTotal events query < 2 ^ 53)
    (k : Nat) : (recorded events).changes.shown query = some k ↔
      (∃ amount, 0 < amount ∧ .changes query amount ∈ events) ∧ changeTotal events query = k := by
  have whole : effective (events.filterMap Event.change?) =
      effective ((events.filterMap Event.change?).filter (0 < ·.2)) := by
    rw [effective, effective, List.filter_filter]
    simp
  have gathers (n : Int) :
      gathered ((events.filterMap Event.change?).filter (0 < ·.2)) query = some n ↔
      (∃ amount, 0 < amount ∧ .changes query amount ∈ events) ∧ changeTotal events query = n := by
    have some_ : counting events query ≠ [] ↔ ∃ amount, amount ∈ counting events query := by
      refine ⟨List.exists_mem_of_ne_nil _, ?_⟩
      rintro ⟨amount, member⟩
      exact List.ne_nil_of_mem member
    rw [gathered_iff, ← counting, sum_counting, some_]
    simp only [mem_counting]
  have positive : ∀ e ∈ (events.filterMap Event.change?).filter (0 < ·.2), 0 < e.2 :=
    fun e member => of_decide_eq_true (List.mem_filter.mp member).2
  have exact_ := shown_effective positive fun n found => by
    have total := ((gathers n).mp found).2
    omega
  calc (recorded events).changes.shown query = some k
      ↔ ((recorded events).changes.shown query).map Int.ofNat = some (k : Int) := by
        simp [Option.map_eq_some_iff]
    _ ↔ _ := by
        rw [recorded_eq, whole]
        simp only [exact_, gathers, Nat.cast_inj]

/-- However the events are ordered the text is the same. It lists the outcomes that files had with
the number of those files, and the queries that changed something with the sum of their positive
amounts. -/
theorem render_order_free {events other : List Event} (same : events.Perm other)
    (small : Small events) : (recorded events).render = (recorded other).render ∧
    ∃ files changes, (recorded events).render = files ++ changes ∧
      Lists "doxyphp_fixhtml_files_total" "HTML files seen by the post-processor, by outcome"
        "status" (fun outcome => .file outcome ∈ events) (fileTotal events) files ∧
      Lists "doxyphp_fixhtml_rewrites_total" "Nodes rewritten, by selector query" "query"
        (fun query => ∃ amount, 0 < amount ∧ .changes query amount ∈ events) (changeTotal events)
        changes := by
  refine ⟨?_, _, _, rfl, ?_, ?_⟩
  · have files := Counter.addAll_perm (same.filterMap Event.mark?)
    have changes := Counter.addAll_perm (effective_perm (same.filterMap Event.change?))
    rw [recorded_eq, recorded_eq]
    simp only [render, family_perm (Counter.distinct_addAll _) files,
      family_perm (Counter.distinct_addAll _) changes]
  · refine family_lists ?_ (fun l => shown_files (small.files l)) small.files _ _ _
    rw [recorded_eq]
    exact Counter.distinct_addAll _
  · refine family_lists ?_ (fun query => shown_changes (small.changes query)) small.changes _ _ _
    rw [recorded_eq]
    exact Counter.distinct_addAll _

theorem query_around_file :
    let events : List Event := [.changes "//a" 2, .file "fixed", .changes "//a" (-3), .changes "//a" 1]
    let other : List Event := [.changes "//a" (-3), .changes "//a" 1, .changes "//a" 2, .file "fixed"]
    events.Perm other ∧ Small events ∧ changeTotal events "//a" = 3 ∧
      (recorded events).render = (recorded other).render := by
  intro events other
  have same : events.Perm other := by decide
  have small : Small events := by
    refine ⟨fun outcome => Nat.lt_of_le_of_lt List.count_le_length (by decide), fun query => ?_⟩
    simp only [events, changeTotal, amountFor, List.map_cons, List.map_nil, List.sum_cons,
      List.sum_nil]
    split <;> decide
  exact ⟨same, small, by decide, (render_order_free same small).1⟩

end Metrics
end DocBridge
