import DocBridge.Text

/-
Texts cut at a byte and put together again.
-/
namespace DocBridge.Text

theorem splitOn_ne_nil (sep : UInt8) (s : Text) : splitOn sep s ≠ [] := by
  cases s with
  | nil => simp [splitOn]
  | cons b rest =>
    rw [splitOn]
    split
    · simp
    · split <;> simp

theorem splitOn_cons_self (sep : UInt8) (rest : Text) :
    splitOn sep (sep :: rest) = [] :: splitOn sep rest := by
  rw [splitOn]
  split
  · rename_i none_
    exact absurd none_ (splitOn_ne_nil sep rest)
  · rename_i part parts some_
    simp [some_]

theorem splitOn_cons_other {sep b : UInt8} (other : b ≠ sep) (rest : Text) :
    splitOn sep (b :: rest)
      = (b :: (splitOn sep rest).headD []) :: (splitOn sep rest).drop 1 := by
  rw [splitOn]
  split
  · rename_i none_
    exact absurd none_ (splitOn_ne_nil sep rest)
  · rename_i part parts some_
    simp [some_, other]

theorem splitOn_clean {sep : UInt8} {s : Text} (clean : sep ∉ s) : splitOn sep s = [s] := by
  induction s with
  | nil => rfl
  | cons b rest ih =>
    rw [List.mem_cons, not_or] at clean
    rw [splitOn_cons_other (Ne.symm clean.1), ih clean.2]
    rfl

theorem splitOn_front {sep : UInt8} {front : Text} (clean : sep ∉ front) (rest : Text) :
    splitOn sep (front ++ rest)
      = (front ++ (splitOn sep rest).headD []) :: (splitOn sep rest).drop 1 := by
  induction front with
  | nil =>
    obtain ⟨part, parts, some_⟩ := List.exists_cons_of_ne_nil (splitOn_ne_nil sep rest)
    rw [List.nil_append, some_]
    rfl
  | cons b front ih =>
    rw [List.mem_cons, not_or] at clean
    rw [List.cons_append, splitOn_cons_other (Ne.symm clean.1), ih clean.2]
    rfl

theorem splitOn_append (sep : UInt8) (s t : Text) :
    splitOn sep (s ++ sep :: t) = splitOn sep s ++ splitOn sep t := by
  induction s with
  | nil => exact splitOn_cons_self sep t
  | cons b rest ih =>
    by_cases same : b = sep
    · subst same
      rw [List.cons_append, splitOn_cons_self, splitOn_cons_self, ih, List.cons_append]
    · rw [List.cons_append, splitOn_cons_other same, splitOn_cons_other same, ih]
      cases parts : splitOn sep rest with
      | nil => exact absurd parts (splitOn_ne_nil sep rest)
      | cons part parts => rfl

theorem splitOn_join {sep : UInt8} {parts : List Text} (some_ : parts ≠ [])
    (clean : ∀ part ∈ parts, sep ∉ part) : splitOn sep (join [sep] parts) = parts := by
  induction parts with
  | nil => contradiction
  | cons part parts ih =>
    have first := splitOn_clean (clean part List.mem_cons_self)
    cases parts with
    | nil => exact first
    | cons next parts =>
      rw [join, List.append_assoc, List.singleton_append, splitOn_append, first, ih (by simp)
        fun p member => clean p (List.mem_cons_of_mem _ member)]
      · rfl
      · simp

theorem join_splitOn (sep : UInt8) (s : Text) : join [sep] (splitOn sep s) = s := by
  induction s with
  | nil => rfl
  | cons b rest ih =>
    cases parts : splitOn sep rest with
    | nil => exact absurd parts (splitOn_ne_nil sep rest)
    | cons part parts' =>
      rw [parts] at ih
      by_cases same : b = sep
      · subst same
        rw [splitOn_cons_self, parts, join, ih]
        · rfl
        · simp
      · rw [splitOn_cons_other same, parts, ← ih]
        cases parts' <;> rfl

theorem not_mem_splitOn {sep : UInt8} {s : Text} : ∀ part ∈ splitOn sep s, sep ∉ part := by
  induction s with
  | nil => simp [splitOn]
  | cons b rest ih =>
    by_cases same : b = sep
    · subst same
      rw [splitOn_cons_self]
      exact List.forall_mem_cons.mpr ⟨List.not_mem_nil, ih⟩
    · rw [splitOn_cons_other same]
      cases parts : splitOn sep rest with
      | nil => exact absurd parts (splitOn_ne_nil sep rest)
      | cons part parts' =>
        rw [parts] at ih
        obtain ⟨first, later⟩ := List.forall_mem_cons.mp ih
        intro part' member
        rcases List.mem_cons.mp member with rfl | inside
        · simp [Ne.symm same, first]
        · exact later part' inside

theorem join_cons {parts : List Text} (some_ : parts ≠ []) (sep part : Text) :
    join sep (part :: parts) = part ++ (sep ++ join sep parts) := by
  obtain ⟨next, parts, rfl⟩ := List.exists_cons_of_ne_nil some_
  rw [join, List.append_assoc]
  simp

theorem join_front (sep : Text) (b : UInt8) (part : Text) (parts : List Text) :
    join sep ((b :: part) :: parts) = b :: join sep (part :: parts) := by
  cases parts with
  | nil => rfl
  | cons next parts => rfl

theorem join_append {front back : List Text} (some_ : front ≠ []) (more : back ≠ []) (sep : Text) :
    join sep (front ++ back) = join sep front ++ (sep ++ join sep back) := by
  induction front with
  | nil => contradiction
  | cons part front ih =>
    cases front with
    | nil => exact join_cons more sep part
    | cons next front =>
      have single : join sep (part :: next :: front) = part ++ (sep ++ join sep (next :: front)) :=
        join_cons (by simp) sep part
      have longer : join sep (part :: (next :: front ++ back))
          = part ++ (sep ++ join sep (next :: front ++ back)) := join_cons (by simp) sep part
      rw [List.cons_append, longer, ih (by simp), single]
      simp

theorem splitOn_second {sep : UInt8} {s second : Text} (found : (splitOn sep s)[1]? = some second) :
    ∃ first tail, s = first ++ sep :: (second ++ tail) ∧ sep ∉ first ∧ sep ∉ second := by
  have clean : ∀ part ∈ splitOn sep s, sep ∉ part := not_mem_splitOn
  have whole := join_splitOn sep s
  match parts : splitOn sep s with
  | [] | [_] => simp [parts] at found
  | first :: part :: later =>
    rw [parts] at found clean whole
    obtain rfl : part = second := by simpa using found
    have firstClean := clean first (by simp)
    have secondClean := clean part (by simp)
    rw [join_cons (by simp)] at whole
    cases later with
    | nil => exact ⟨first, [], by simpa [join] using whole.symm, firstClean, secondClean⟩
    | cons third later =>
      rw [join_cons (by simp)] at whole
      exact ⟨first, _, whole.symm, firstClean, secondClean⟩

theorem join_head {part : Text} (some_ : part ≠ []) (sep : Text) (parts : List Text) :
    (join sep (part :: parts)).head? = part.head? := by
  cases part with
  | nil => contradiction
  | cons b rest => cases parts <;> rfl

end DocBridge.Text
