import DocBridge.Query.Eval

/-
Paths into a page. Document order lists every node once and after the nodes around it.
-/
namespace DocBridge.Query

def inside? (n : Node) : Path → Option Node
  | [] => some n
  | i :: rest => nodeAt? n.children (i :: rest)

theorem nodeAt?_cons (t : Tree) (i : Nat) (rest : Path) :
    nodeAt? t (i :: rest) = t[i]?.bind fun n => inside? n rest := by
  cases rest with
  | nil => exact (Option.bind_fun_some t[i]?).symm
  | cons j rest => rfl

theorem inside?_cons (n : Node) (i : Nat) (rest : Path) :
    inside? n (i :: rest) = n.children[i]?.bind fun c => inside? c rest :=
  nodeAt?_cons n.children i rest

theorem inside?_child (n : Node) (path : Path) (i : Nat) :
    inside? n (path ++ [i]) = (inside? n path).bind fun m => m.children[i]? := by
  induction path generalizing n with
  | nil => rfl
  | cons j path ih =>
    rw [List.cons_append, inside?_cons, inside?_cons, Option.bind_assoc]
    congr 1
    funext c
    exact ih c

theorem nodeAt?_child (t : Tree) (path : Path) (i : Nat) :
    nodeAt? t (path ++ [i]) = (childrenAt t path)[i]? := by
  cases path with
  | nil => rfl
  | cons j path =>
    have walked : nodeAt? t (j :: path ++ [i]) =
        (nodeAt? t (j :: path)).bind fun m => m.children[i]? := by
      rw [List.cons_append, nodeAt?_cons, nodeAt?_cons, Option.bind_assoc]
      congr 1
      funext c
      exact inside?_child c path i
    rw [walked]
    simp only [childrenAt, List.isEmpty_cons, Bool.false_eq_true, if_false]
    cases nodeAt? t (j :: path) with
    | none => rfl
    | some m => rfl

mutual

theorem mem_below (path p : Path) : ∀ n : Node,
    p ∈ below path n ↔ ∃ i rest, p = path ++ i :: rest ∧ (inside? n (i :: rest)).isSome
  | .element _ cs => by
    rw [below, mem_belowAll path p 0 cs]
    simp only [Nat.zero_add]
    exact Iff.rfl
  | .text _ | .cdata _ | .comment _ | .directive _ | .instruction _ _ | .declaration => by
    simp [below, inside?_cons, Node.children]

theorem mem_belowAll (path p : Path) (i : Nat) : ∀ cs : List Node,
    p ∈ belowAll path i cs ↔
      ∃ j rest, p = path ++ (i + j) :: rest ∧ (nodeAt? cs (j :: rest)).isSome
  | [] => by simp [belowAll, nodeAt?_cons]
  | c :: cs => by
    rw [belowAll, List.cons_append, List.mem_cons, List.mem_append, mem_below (path ++ [i]) p c,
      mem_belowAll path p (i + 1) cs]
    constructor
    · rintro (rfl | ⟨j, rest, rfl, there⟩ | ⟨j, rest, rfl, there⟩)
      · exact ⟨0, [], rfl, rfl⟩
      · refine ⟨0, j :: rest, by simp, ?_⟩
        rw [nodeAt?_cons]
        exact there
      · refine ⟨j + 1, rest, by rw [Nat.add_assoc, Nat.add_comm 1 j], ?_⟩
        rw [nodeAt?_cons] at there ⊢
        exact there
    · rintro ⟨j, rest, rfl, there⟩
      rw [nodeAt?_cons] at there
      cases j with
      | zero =>
        cases rest with
        | nil => exact .inl rfl
        | cons k rest => exact .inr (.inl ⟨k, rest, by simp, there⟩)
      | succ j =>
        refine .inr (.inr ⟨j, rest, by rw [Nat.add_assoc, Nat.add_comm 1 j], ?_⟩)
        rw [nodeAt?_cons]
        exact there

end

/-- The paths below the page are those that lead to a node. -/
theorem mem_descendants (t : Tree) (p : Path) :
    p ∈ descendants t [] ↔ (nodeAt? t p).isSome := by
  have listed := mem_belowAll [] p 0 t
  simp only [Nat.zero_add, List.nil_append] at listed
  refine listed.trans ⟨?_, fun there => ?_⟩
  · rintro ⟨i, rest, rfl, there⟩
    exact there
  · cases p with
    | nil => contradiction
    | cons i rest => exact ⟨i, rest, rfl, there⟩

/-- No path comes again, or after a path below it. -/
def Topdown (ps : List Path) : Prop := ps.Pairwise fun p q => ¬ q <+: p

mutual

theorem topdown_below (path : Path) : ∀ n : Node, Topdown (below path n)
  | .element _ cs => topdown_belowAll path 0 cs
  | .text _ | .cdata _ | .comment _ | .directive _ | .instruction _ _ | .declaration => .nil

theorem topdown_belowAll (path : Path) (i : Nat) : ∀ cs : List Node,
    Topdown (belowAll path i cs)
  | [] => .nil
  | c :: cs => by
    have apart (j : Nat) (p q : Path) :
        ¬ path ++ (i + 1 + j) :: q <+: path ++ i :: p := by
      rw [List.prefix_append_right_inj, List.cons_prefix_cons]
      omega
    refine List.pairwise_append.mpr ⟨List.pairwise_cons.mpr ⟨?_, topdown_below _ c⟩,
      topdown_belowAll path (i + 1) cs, ?_⟩
    · intro q inner above
      obtain ⟨j, rest, rfl, _⟩ := (mem_below _ q c).mp inner
      have short := above.length_le
      simp at short
    · intro p first q later
      obtain ⟨j, rest, rfl, _⟩ := (mem_belowAll _ q _ cs).mp later
      rcases List.mem_cons.mp first with rfl | inner
      · exact apart j [] rest
      · obtain ⟨k, more, rfl, _⟩ := (mem_below _ p c).mp inner
        rw [List.append_assoc]
        exact apart j (k :: more) rest

end

theorem mem_childPaths (t : Tree) (path p : Path) :
    p ∈ childPaths t path ↔ ∃ i, p = path ++ [i] ∧ (nodeAt? t p).isSome := by
  simp only [childPaths, List.mem_map, List.mem_range]
  constructor
  · rintro ⟨i, small, rfl⟩
    refine ⟨i, rfl, ?_⟩
    rw [nodeAt?_child, List.getElem?_eq_getElem small]
    rfl
  · rintro ⟨i, rfl, there⟩
    rw [nodeAt?_child, isSome_getElem?] at there
    exact ⟨i, there, rfl⟩

theorem mem_children {t : Tree} {p : Path} {n : Node} (there : nodeAt? t p = some n) :
    p ∈ ([] :: descendants t []).flatMap (childPaths t) := by
  rcases List.eq_nil_or_concat p with rfl | ⟨path, i, rfl⟩
  · contradiction
  · rw [List.concat_eq_append] at there ⊢
    refine List.mem_flatMap.mpr ⟨path, ?_, (mem_childPaths t path _).mpr ⟨i, rfl, ?_⟩⟩
    · cases path with
      | nil => exact List.mem_cons_self
      | cons j path =>
        refine List.mem_cons_of_mem _ ((mem_descendants t _).mpr ?_)
        rw [nodeAt?_child] at there
        cases parent : nodeAt? t (j :: path) with
        | none => simp [childrenAt, parent] at there
        | some m => rfl
    · rw [there]
      rfl

theorem topdown_children (t : Tree) : Topdown (([] :: descendants t []).flatMap (childPaths t)) := by
  refine List.pairwise_flatMap.mpr ⟨fun path _ => ?_, List.Pairwise.imp ?_
    (List.pairwise_cons.mpr ⟨?_, topdown_belowAll [] 0 _⟩)⟩
  · refine List.pairwise_map.mpr (List.Pairwise.imp ?_ (List.pairwise_lt_range))
    intro i j less above
    rw [List.prefix_append_right_inj, List.cons_prefix_cons] at above
    omega
  · intro path later apart p child q child' above
    obtain ⟨i, rfl, _⟩ := (mem_childPaths t path p).mp child
    obtain ⟨j, rfl, _⟩ := (mem_childPaths t later q).mp child'
    -- A prefix would make the later parent the earlier one or an element around it.
    rcases List.prefix_concat_iff.mp above with same | inside
    · rw [(List.append_inj' same rfl).1] at apart
      exact apart (List.prefix_refl path)
    · exact apart ((List.prefix_append later [j]).trans inside)
  · intro p listed above
    have there := (mem_descendants t p).mp listed
    rw [List.prefix_nil.mp above] at there
    contradiction

end DocBridge.Query
