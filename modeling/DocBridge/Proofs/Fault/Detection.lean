import DocBridge.Fault

/-
What the tests for a category and for a severity see of a failure. A chain may hold several faults,
one below the other. The tests look at the outermost one only, so they speak for the whole chain
exactly if its faults are all of one kind.
-/
namespace DocBridge.Failure

inductive Links : Failure → Failure → Prop
  | here (e : Failure) : Links e e
  | inward {e inner u : Failure} (next : e.inner? = some inner) (more : Links inner u) : Links e u

def Holds (e : Failure) (f : Fault) : Prop := ∃ u, Links e u ∧ u.head? = some f

def Outermost (e : Failure) (f : Fault) : Prop :=
  ∃ labels u, e = List.foldr labelled u labels ∧ u.head? = some f

theorem holds_step (e : Failure) (f : Fault) :
    e.Holds f ↔ e.head? = some f ∨ ∃ inner, e.inner? = some inner ∧ inner.Holds f := by
  constructor
  · rintro ⟨u, links, head⟩
    cases links with
    | here => exact Or.inl head
    | inward next more => exact Or.inr ⟨_, next, u, more, head⟩
  · intro either
    rcases either with head | ⟨inner, next, u, more, head⟩
    · exact ⟨e, .here e, head⟩
    · exact ⟨u, .inward next more, head⟩

theorem holds_iff_mem (e : Failure) (f : Fault) : e.Holds f ↔ f ∈ e.faults := by
  induction e with
  | plain text =>
    rw [holds_step]
    simp [head?, inner?, faults]
  | labelled label inner ih =>
    rw [holds_step]
    simp [head?, inner?, faults, ih]
  | fault head =>
    rw [holds_step]
    simp [head?, inner?, faults, eq_comm]
  | caused head cause ih =>
    rw [holds_step]
    simp [head?, inner?, faults, ih, eq_comm]

theorem outermost_labelled (label : Text) (inner : Failure) (f : Fault) :
    (labelled label inner).Outermost f ↔ inner.Outermost f := by
  constructor
  · rintro ⟨labels, u, whole, head⟩
    cases labels with
    | nil =>
      have start : u = labelled label inner := whole.symm
      subst start
      contradiction
    | cons first labels =>
      obtain ⟨-, same⟩ := labelled.inj whole
      exact ⟨labels, u, same, head⟩
  · rintro ⟨labels, u, whole, head⟩
    refine ⟨label :: labels, u, ?_, head⟩
    rw [whole, List.foldr_cons]

theorem outermost_head {e : Failure} (bare : ∀ label inner, e ≠ labelled label inner) (f : Fault) :
    e.Outermost f ↔ e.head? = some f := by
  constructor
  · rintro ⟨labels, u, whole, head⟩
    cases labels with
    | nil =>
      subst whole
      exact head
    | cons first labels => exact absurd whole (bare first _)
  · intro head
    exact ⟨[], e, rfl, head⟩

theorem outermost_iff_head (e : Failure) (f : Fault) :
    e.Outermost f ↔ e.faults.head? = some f := by
  induction e with
  | plain text =>
    rw [outermost_head (by simp)]
    simp [head?, faults]
  | labelled label inner ih => rw [outermost_labelled, ih, faults]
  | fault head =>
    rw [outermost_head (by simp)]
    simp [head?, faults]
  | caused head cause ih =>
    rw [outermost_head (by simp)]
    simp [head?, faults]

theorem classified_fst (e : Failure) : e.classified?.map Prod.fst = e.faults.head? := by
  induction e with
  | labelled label inner ih => simpa [classified?, faults] using ih
  | _ => simp [classified?, faults]

theorem classified_any (e : Failure) (test : Fault → Bool) :
    e.classified?.any (fun found => test found.1) = true ↔ ∃ f, e.Outermost f ∧ test f = true := by
  simp only [outermost_iff_head, ← classified_fst]
  cases e.classified? with
  | none => simp
  | some found => simp

/-- The outermost fault stands for all of them if they are of one kind, and otherwise not. -/
theorem outermost_speaks_iff {κ : Type} (e : Failure) (kind : Fault → κ) :
    (∀ k, (∃ f, e.Outermost f ∧ kind f = k) ↔ ∃ f, e.Holds f ∧ kind f = k) ↔
      ∀ f g, e.Holds f → e.Holds g → kind f = kind g := by
  simp only [outermost_iff_head, holds_iff_mem]
  constructor
  · intro speaks f g heldF heldG
    obtain ⟨f', first, sameF⟩ := (speaks (kind f)).mpr ⟨f, heldF, rfl⟩
    obtain ⟨g', first', sameG⟩ := (speaks (kind g)).mpr ⟨g, heldG, rfl⟩
    rw [first] at first'
    cases first'
    exact sameF.symm.trans sameG
  · intro alike k
    constructor
    · rintro ⟨f, first, same⟩
      exact ⟨f, List.mem_of_head? first, same⟩
    · rintro ⟨f, held, same⟩
      obtain ⟨g, rest, whole⟩ := List.exists_cons_of_ne_nil (List.ne_nil_of_mem held)
      have first : e.faults.head? = some g := by rw [whole, List.head?_cons]
      exact ⟨g, first, (alike g f (List.mem_of_head? first) held).trans same⟩

theorem hasCategory_iff (e : Failure) (c : Category) :
    e.hasCategory c = true ↔ ∃ f, e.Outermost f ∧ f.category = c := by
  have seen : e.hasCategory c = true ↔ ∃ f, e.Outermost f ∧ (f.category == c) = true :=
    classified_any e (fun f => f.category == c)
  simpa only [beq_iff_eq] using seen

theorem hasSeverity_iff (e : Failure) (s : Severity) :
    e.hasSeverity s = true ↔ ∃ f, e.Outermost f ∧ f.severity = s := by
  have seen : e.hasSeverity s = true ↔ ∃ f, e.Outermost f ∧ (f.severity == s) = true :=
    classified_any e (fun f => f.severity == s)
  simpa only [beq_iff_eq] using seen

/-- A category or a severity is seen if it is that of the outermost fault. What is seen is in the
chain, and everything in the chain is seen exactly if all its faults agree. -/
theorem detection_sees_outermost (e : Failure) :
    (∀ c, e.hasCategory c = true ↔ ∃ f, e.Outermost f ∧ f.category = c) ∧
      (∀ s, e.hasSeverity s = true ↔ ∃ f, e.Outermost f ∧ f.severity = s) ∧
      (∀ f, e.Outermost f → e.Holds f) ∧
      ((∀ c, e.hasCategory c = true ↔ ∃ f, e.Holds f ∧ f.category = c) ↔
        ∀ f g, e.Holds f → e.Holds g → f.category = g.category) ∧
      ((∀ s, e.hasSeverity s = true ↔ ∃ f, e.Holds f ∧ f.severity = s) ↔
        ∀ f g, e.Holds f → e.Holds g → f.severity = g.severity) := by
  refine ⟨hasCategory_iff e, hasSeverity_iff e, ?_, ?_, ?_⟩
  · intro f outermost
    exact (holds_iff_mem e f).mpr (List.mem_of_head? ((outermost_iff_head e f).mp outermost))
  · simp only [hasCategory_iff]
    exact outermost_speaks_iff e Fault.category
  · simp only [hasSeverity_iff]
    exact outermost_speaks_iff e Fault.severity

theorem cause_is_not_seen :
    let page : Fault := Fault.of .parse "bad page"
    let e : Failure := .caused { category := .config, severity := .error, message := "cannot load" }
      (.labelled "index.html" (.fault page))
    ¬ (e.hasCategory .parse = true ↔ ∃ f, e.Holds f ∧ f.category = .parse) ∧
      ¬ (e.hasSeverity .warning = true ↔ ∃ f, e.Holds f ∧ f.severity = .warning) := by
  intro page e
  have held : e.Holds page := (holds_iff_mem e page).mpr (by simp [e, faults])
  have category : e.hasCategory .parse = false := by decide
  have severity : e.hasSeverity .warning = false := by decide
  constructor
  · intro law
    have seen := law.mpr ⟨page, held, rfl⟩
    rw [category] at seen
    contradiction
  · intro law
    have seen := law.mpr ⟨page, held, rfl⟩
    rw [severity] at seen
    contradiction

end DocBridge.Failure
