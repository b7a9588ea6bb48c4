import DocBridge.Proofs.Page.Paths

/-
Document order. Nodes are ordered as their paths are, and a node stands before all that is inside it.
So a selection in this order that lists no element twice is one from the top down.
-/
namespace DocBridge.Query

theorem not_append_lt (path rest : Path) : ¬ path ++ rest < path := by
  induction path with
  | nil => exact List.not_lt_nil rest
  | cons i path ih =>
    rw [List.cons_append, List.cons_lt_cons_iff]
    intro before
    rcases before with less | ⟨_, less⟩
    · exact Nat.lt_irrefl i less
    · exact ih less

/-- Document order is the lexicographic order of paths. -/
theorem topdown_of_ordered {paths : List Path} (ordered : paths.Pairwise (· < ·)) :
    Topdown paths := by
  apply List.Pairwise.imp _ ordered
  intro p q before above
  obtain ⟨rest, rfl⟩ := above
  exact not_append_lt q rest before

theorem topdown_nodup {paths : List Path} (topdown : Topdown paths) : paths.Nodup := by
  apply List.Pairwise.imp _ topdown
  intro p q apart same
  exact apart (same ▸ List.prefix_refl p)

theorem Item.le_iff (i j : Item) : i.le j = true ↔
    i.path < j.path ∨ (i.path = j.path ∧ i.attr.elim 0 (· + 1) ≤ j.attr.elim 0 (· + 1)) := by
  simp [Item.le]

theorem Item.le_trans (i j k : Item) (first : i.le j = true) (second : j.le k = true) :
    i.le k = true := by
  rw [le_iff] at first second ⊢
  rcases first with before | ⟨same, small⟩
  · rcases second with before' | ⟨same', -⟩
    · exact .inl (List.lt_trans before before')
    · exact .inl (same' ▸ before)
  · rcases second with before' | ⟨same', small'⟩
    · exact .inl (same ▸ before')
    · exact .inr ⟨same.trans same', Nat.le_trans small small'⟩

theorem Item.le_total (i j : Item) : (i.le j || j.le i) = true := by
  rw [Bool.or_eq_true, le_iff, le_iff]
  by_cases same : i.path = j.path
  · rcases Nat.le_total (i.attr.elim 0 (· + 1)) (j.attr.elim 0 (· + 1)) with small | small
    · exact .inl (.inr ⟨same, small⟩)
    · exact .inr (.inr ⟨same.symm, small⟩)
  · rcases List.le_total i.path j.path with before | after
    · exact .inl (.inl ((List.le_iff_lt_or_eq.mp before).resolve_right same))
    · exact .inr (.inl ((List.le_iff_lt_or_eq.mp after).resolve_right (Ne.symm same)))

theorem insertItem_perm (i : Item) (is : List Item) : (insertItem i is).Perm (i :: is) := by
  induction is with
  | nil => exact .refl _
  | cons j is ih =>
    rw [insertItem]
    split
    · exact .refl _
    · exact (ih.cons j).trans (.swap i j is)

theorem inOrder_perm (is : List Item) : (inOrder is).Perm is := by
  induction is with
  | nil => exact .refl _
  | cons i is ih => exact (insertItem_perm i (inOrder is)).trans (ih.cons i)

theorem insertItem_ordered (i : Item) {is : List Item}
    (ordered : is.Pairwise fun i j => i.le j = true) :
    (insertItem i is).Pairwise fun i j => i.le j = true := by
  induction is with
  | nil => exact List.pairwise_singleton _ i
  | cons j is ih =>
    obtain ⟨first, others⟩ := List.pairwise_cons.mp ordered
    rw [insertItem]
    split
    · rename_i small
      refine List.pairwise_cons.mpr ⟨List.forall_mem_cons.mpr ⟨small, fun k later => ?_⟩, ordered⟩
      exact Item.le_trans i j k small (first k later)
    · rename_i great
      have back : j.le i = true := by simpa [great] using Item.le_total i j
      refine List.pairwise_cons.mpr ⟨fun k member => ?_, ih others⟩
      rcases List.mem_cons.mp ((insertItem_perm i is).mem_iff.mp member) with rfl | later
      · exact back
      · exact first k later

theorem inOrder_ordered (is : List Item) : (inOrder is).Pairwise fun i j => i.le j = true := by
  induction is with
  | nil => exact .nil
  | cons i is ih => exact insertItem_ordered i ih

theorem inOrder_same {is : List Item} (ordered : is.Pairwise fun i j => i.le j = true) :
    inOrder is = is := by
  induction is with
  | nil => rfl
  | cons i is ih =>
    obtain ⟨first, others⟩ := List.pairwise_cons.mp ordered
    change insertItem i (inOrder is) = i :: is
    rw [ih others]
    cases is with
    | nil => rfl
    | cons j is => exact if_pos (first j List.mem_cons_self)

/-- Put in order, distinct nodes are listed from the top down. -/
theorem topdown_inOrder {is : List Item} (distinct : (is.map Item.path).Nodup) :
    Topdown ((inOrder is).map Item.path) := by
  have apart : ((inOrder is).map Item.path).Nodup :=
    ((inOrder_perm is).map Item.path).nodup_iff.mpr distinct
  apply topdown_of_ordered
  apply List.pairwise_map.mpr
  apply List.Pairwise.imp _ ((List.pairwise_map.mp apart).and (inOrder_ordered is))
  intro i j both
  rcases (Item.le_iff i j).mp both.2 with before | ⟨same, -⟩
  · exact before
  · exact absurd same both.1

end DocBridge.Query
