import DocBridge.Metrics
import DocBridge.Proofs.Decimal.Whole
import Mathlib.Algebra.Order.BigOperators.Group.List
import Mathlib.Data.List.Induction
import Mathlib.Data.UInt

/-
Counters as sums. Whatever the order in which amounts are added, there is under each label the sum
of the amounts added there, and nothing where none was added. Below `2 ^ 53` a counter shows the
exact number.
-/
namespace DocBridge

section Sums

variable {α : Type}

def amounts (events : List (Text × α)) (label : Text) : List α :=
  (events.filter (·.1 == label)).map Prod.snd

theorem amounts_append (events later : List (Text × α)) (label : Text) :
    amounts (events ++ later) label = amounts events label ++ amounts later label := by
  simp [amounts]

theorem amounts_cons (e : Text × α) (events : List (Text × α)) (label : Text) :
    amounts (e :: events) label =
      if e.1 = label then e.2 :: amounts events label else amounts events label := by
  by_cases here : e.1 = label
  · simp [amounts, here]
  · simp [amounts, here]

/-- The sum of what events add under a label; nothing if none of them does. -/
def gathered [Add α] [Zero α] (events : List (Text × α)) (label : Text) : Option α :=
  match amounts events label with
  | [] => none
  | ns => some ns.sum

theorem gathered_snoc [AddMonoid α] (events : List (Text × α)) (e : Text × α) (label : Text) :
    gathered (events ++ [e]) label =
      if label == e.1 then some ((gathered events label).getD 0 + e.2)
      else gathered events label := by
  unfold gathered
  rw [amounts_append]
  by_cases here : e.1 = label
  · have last : amounts [e] label = [e.2] := by simp [amounts, here]
    rw [last, here]
    cases amounts events label with
    | nil => simp
    | cons n ns => simp [add_assoc]
  · have none_ : amounts [e] label = [] := by simp [amounts, here]
    have other : ¬ label = e.1 := fun same => here same.symm
    simp [none_, other]

/-- A table to which amounts are added one after another, each under its own label. -/
theorem lookup_foldl [AddMonoid α] {add : List (Text × α) → Text → α → List (Text × α)}
    (lookup_add : ∀ table label n key, (add table label n).lookup key =
      if key == label then some ((table.lookup key).getD 0 + n) else table.lookup key)
    (events : List (Text × α)) (key : Text) :
    (events.foldl (fun table e => add table e.1 e.2) []).lookup key = gathered events key := by
  induction events using List.reverseRecOn with
  | nil => rfl
  | append_singleton events e ih =>
    rw [List.foldl_append, List.foldl_cons, List.foldl_nil, lookup_add, ih, gathered_snoc]

end Sums

namespace Tally

theorem lookup_set (t : Tally) (name : Text) (n : Int) (key : Text) :
    (t.set name n).lookup key = if key == name then some n else t.lookup key := by
  induction t with
  | nil => cases same : key == name <;> simp [set, List.lookup_cons, same]
  | cons e t ih =>
    obtain ⟨k, old⟩ := e
    by_cases here : k = name
    · subst here
      cases same : key == k <;> simp [set, List.lookup_cons, same]
    · simp only [set, beq_iff_eq, here, if_false, List.lookup_cons, ih]
      cases same : key == k with
      | true => simp [eq_of_beq same, here]
      | false => rfl

theorem lookup_add (t : Tally) (name : Text) (n : Int) (key : Text) :
    (t.add name n).lookup key =
      if key == name then some ((t.lookup key).getD 0 + n) else t.lookup key := by
  rw [add, lookup_set, get]
  by_cases same : key = name
  · rw [same]
  · simp [same]

theorem get_set (t : Tally) (name : Text) (n : Int) (label : Text) :
    (t.set name n).get label = if label = name then n else t.get label := by
  unfold get
  rw [lookup_set]
  by_cases same : label = name
  · simp [same]
  · simp [same]

theorem get_add (t : Tally) (name : Text) (n : Int) (label : Text) :
    (t.add name n).get label = t.get label + if name = label then n else 0 := by
  rw [add, get_set]
  by_cases same : label = name
  · simp [same]
  · have other : ¬ name = label := fun turned => same turned.symm
    simp [same, other]

theorem total_set (t : Tally) (name : Text) (n : Int) :
    (t.set name n).total = t.total - t.get name + n := by
  induction t with
  | nil => simp [set, total, get]
  | cons e t ih =>
    obtain ⟨k, old⟩ := e
    simp only [total, get] at ih
    by_cases here : k = name
    · subst here
      simp only [set, beq_self_eq_true, if_true, total, List.foldr_cons, get, List.lookup_cons,
        Option.getD_some]
      omega
    · have other : (name == k) = false := by simpa using fun same => here same.symm
      simp only [set, beq_iff_eq, here, if_false, total, List.foldr_cons, get, List.lookup_cons,
        other, ih]
      omega

theorem total_add (t : Tally) (name : Text) (n : Int) : (t.add name n).total = t.total + n := by
  rw [add, total_set]
  omega

theorem total_append (t u : Tally) : Tally.total (t ++ u) = t.total + u.total := by
  induction t with
  | nil => simp [total]
  | cons e t ih =>
    simp only [total, List.cons_append, List.foldr_cons] at ih ⊢
    rw [ih, add_assoc]

theorem total_merge (t u : Tally) : (t.merge u).total = t.total + u.total := by
  induction u generalizing t with
  | nil => simp [merge, total]
  | cons e u ih =>
    have next : t.merge (e :: u) = (t.add e.1 e.2).merge u := rfl
    rw [next, ih, total_add, add_assoc]
    rfl

theorem lookup_merge (u : Tally) (name : Text) : (merge [] u).lookup name = gathered u name :=
  lookup_foldl lookup_add u name

def Positive (t : Tally) : Prop := ∀ e ∈ t, 0 < e.2

theorem positive_set {t : Tally} (positive : t.Positive) (name : Text) {n : Int} (some_ : 0 < n) :
    (t.set name n).Positive := by
  induction t with
  | nil => simpa [set, Positive] using some_
  | cons e t ih =>
    obtain ⟨first, rest⟩ := List.forall_mem_cons.mp positive
    rw [set]
    split
    · exact List.forall_mem_cons.mpr ⟨some_, rest⟩
    · exact List.forall_mem_cons.mpr ⟨first, ih rest⟩

theorem positive_get {t : Tally} (positive : t.Positive) (name : Text) : 0 ≤ t.get name := by
  induction t with
  | nil => exact le_refl 0
  | cons e t ih =>
    obtain ⟨first, rest⟩ := List.forall_mem_cons.mp positive
    have later := ih rest
    unfold get at later ⊢
    rw [List.lookup_cons]
    split
    · exact first.le
    · exact later

theorem positive_add {t : Tally} (positive : t.Positive) (name : Text) {n : Int} (some_ : 0 < n) :
    (t.add name n).Positive :=
  positive_set positive name (Int.add_pos_of_nonneg_of_pos (positive_get positive name) some_)

end Tally

theorem Report.changes_eq (r : Report) :
    r.changes = Tally.merge [] (r.files.flatMap FileResult.changes) := by
  rw [Report.changes, Tally.merge, List.foldl_flatMap]
  rfl

namespace Counter

def shown (c : Counter) (label : Text) : Option Nat :=
  (c.lookup label).map fun n => Binary.nearest n.toNat

theorem lookup_add (c : Counter) (label : Text) (n : UInt64) (key : Text) :
    (c.add label n).lookup key =
      if key == label then some ((c.lookup key).getD 0 + n) else c.lookup key := by
  induction c with
  | nil => cases same : key == label <;> simp [add, List.lookup_cons, same]
  | cons e c ih =>
    obtain ⟨l, old⟩ := e
    by_cases here : l = label
    · subst here
      cases same : key == l <;> simp [add, List.lookup_cons, same]
    · simp only [add, beq_iff_eq, here, if_false, List.lookup_cons, ih]
      cases same : key == l with
      | true => simp [eq_of_beq same, here]
      | false => rfl

def addAll (c : Counter) (events : List (Text × UInt64)) : Counter :=
  events.foldl (fun c e => c.add e.1 e.2) c

theorem addAll_append (c : Counter) (events later : List (Text × UInt64)) :
    c.addAll (events ++ later) = (c.addAll events).addAll later := by
  rw [addAll, List.foldl_append]
  rfl

theorem lookup_addAll (events : List (Text × UInt64)) (label : Text) :
    (addAll [] events).lookup label = gathered events label :=
  lookup_foldl lookup_add events label

theorem toNat_sum_ones {n : Nat} (small : n < 2 ^ 53) :
    (List.replicate n (1 : UInt64)).sum.toNat = n := by
  induction n with
  | zero => rfl
  | succ n ih =>
    rw [List.replicate_succ, List.sum_cons, UInt64.toNat_add, ih (by omega), UInt64.toNat_one]
    omega

def ones (n : Nat) : Option Nat := if n = 0 then none else some n

theorem shown_ones {events : List (Text × UInt64)} (single : ∀ e ∈ events, e.2 = 1) {label : Text}
    (small : events.countP (·.1 == label) < 2 ^ 53) :
    (addAll [] events).shown label = ones (events.countP (·.1 == label)) := by
  have all : amounts events label = .replicate (events.countP (·.1 == label)) 1 := by
    refine List.eq_replicate_iff.mpr ⟨?_, fun n member => ?_⟩
    · rw [amounts, List.length_map, List.countP_eq_length_filter]
    · obtain ⟨e, kept, rfl⟩ := List.mem_map.mp member
      exact single e (List.mem_of_mem_filter kept)
  rw [shown, lookup_addAll, gathered, all, ones]
  generalize events.countP (·.1 == label) = n at small
  cases n with
  | zero => rfl
  | succ n =>
    have exact_ := toNat_sum_ones small
    rw [if_neg (Nat.succ_ne_zero n)]
    rw [List.replicate_succ] at exact_ ⊢
    dsimp only
    rw [Option.map_some, exact_, Binary.nearest_small small]

end Counter

namespace Metrics

/-- What the counter of changes takes of an amount. -/
def weight (n : Int) : UInt64 := (Binary.nearest n.toNat).toUInt64

def effective (events : List (Text × Int)) : List (Text × UInt64) :=
  (events.filter (0 < ·.2)).map fun e => (e.1, weight e.2)

theorem addChanges_changes (m : Metrics) (e : Text × Int) :
    (m.addChanges e.1 e.2).changes = m.changes.addAll (effective [e]) := by
  unfold addChanges
  by_cases none_ : e.2 ≤ 0
  · simp [effective, Counter.addAll, none_]
  · have some_ : 0 < e.2 := not_le.mp none_
    simp [effective, Counter.addAll, none_, some_, weight]

theorem addChanges_files (m : Metrics) (query : Text) (n : Int) :
    (m.addChanges query n).files = m.files := by
  unfold addChanges
  split <;> rfl

theorem effective_append (events later : List (Text × Int)) :
    effective (events ++ later) = effective events ++ effective later := by
  rw [effective, effective, effective, List.filter_append, List.map_append]

theorem foldl_addChanges (events : List (Text × Int)) (m : Metrics) :
    events.foldl (fun m e => m.addChanges e.1 e.2) m =
      { m with changes := m.changes.addAll (effective events) } := by
  induction events generalizing m with
  | nil => rfl
  | cons e events ih =>
    rw [List.foldl_cons, ih, ← List.singleton_append, effective_append, Counter.addAll_append,
      addChanges_changes, addChanges_files]

theorem record_eq (m : Metrics) (r : FileResult) :
    m.record r =
      ⟨m.files.add r.status.counted.label 1, m.changes.addAll (effective r.changes)⟩ :=
  foldl_addChanges r.changes (m.countFile r.status.counted.label)

theorem amounts_effective {events : List (Text × Int)} (positive : ∀ e ∈ events, 0 < e.2)
    (query : Text) : amounts (effective events) query = (amounts events query).map weight := by
  have all : events.filter (0 < ·.2) = events :=
    List.filter_eq_self.mpr fun e member => decide_eq_true (positive e member)
  rw [effective, all, amounts, amounts, List.filter_map, List.map_map, List.map_map]
  rfl

theorem sum_weight {ns : List Int} (positive : ∀ n ∈ ns, 0 < n) (small : ns.sum < 2 ^ 53) :
    ((ns.map weight).sum.toNat : Int) = ns.sum ∧ 0 ≤ ns.sum := by
  induction ns with
  | nil => simp
  | cons n ns ih =>
    obtain ⟨first, rest⟩ := List.forall_mem_cons.mp positive
    rw [List.sum_cons] at small ⊢
    have ends : 0 ≤ ns.sum := List.sum_nonneg fun n member => (rest n member).le
    obtain ⟨exact_, _⟩ := ih rest (by omega)
    have exact_first : (weight n).toNat = n.toNat := by
      rw [weight, Binary.nearest_small (by omega)]
      exact Nat.mod_eq_of_lt (by omega)
    refine ⟨?_, by omega⟩
    rw [List.map_cons, List.sum_cons, UInt64.toNat_add, exact_first]
    omega

theorem shown_effective {events : List (Text × Int)} (positive : ∀ e ∈ events, 0 < e.2)
    {query : Text} (small : ∀ n, gathered events query = some n → n < 2 ^ 53) :
    ((Counter.addAll [] (effective events)).shown query).map Int.ofNat = gathered events query := by
  have each : ∀ n ∈ amounts events query, 0 < n := by
    intro n member
    obtain ⟨e, kept, rfl⟩ := List.mem_map.mp member
    exact positive e (List.mem_of_mem_filter kept)
  rw [Counter.shown, Counter.lookup_addAll, gathered, amounts_effective positive]
  unfold gathered at small ⊢
  cases named : amounts events query with
  | nil => rfl
  | cons n ns =>
    rw [named] at each small
    have bound := small _ rfl
    obtain ⟨exact_, _⟩ := sum_weight each bound
    rw [List.map_cons] at exact_ ⊢
    dsimp only
    rw [Option.map_some, Option.map_some, Binary.nearest_small (by omega)]
    exact congrArg some exact_

end Metrics
end DocBridge
