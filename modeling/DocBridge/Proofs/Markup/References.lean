import DocBridge.Page.Render

/-
Escaping loses nothing. A byte is either left alone or spelled as its own reference, the ampersand
never left alone; so a reader that expands references from the left meets them one by one, and what
the text itself had that looks like a reference comes back as it was.
-/
namespace DocBridge.Escape

open DocBridge.Text

def references : List (Text × UInt8) :=
  [("&amp;", 0x26), ("&lt;", 0x3C), ("&gt;", 0x3E), ("&quot;", 0x22)]

def referenceAt? (s : Text) : Option (Text × UInt8) := references.find? (·.1.isPrefixOf s)

def expandAfter : Nat → Text → Text
  | _, [] => []
  | skip + 1, _ :: rest => expandAfter skip rest
  | 0, b :: rest =>
    match referenceAt? (b :: rest) with
    | some (w, c) => c :: expandAfter (w.length - 1) rest
    | none => b :: expandAfter 0 rest

def expand (s : Text) : Text := expandAfter 0 s

/-- Nothing in `t` opens or closes a tag, and an ampersand opens one of the references. -/
structure Guarded (t : Text) : Prop where
  opens : 0x3C ∉ t
  closes : 0x3E ∉ t
  refers : ∀ rest, 0x26 :: rest <:+ t → ∃ e ∈ references, e.1 <+: 0x26 :: rest

structure Spells (marked : List UInt8) (escape : UInt8 → Text) : Prop where
  ampersand : 0x26 ∈ marked
  referred : ∀ b ∈ marked, (escape b, b) ∈ references
  plain : ∀ b, b ∉ marked → escape b = [b]

def textMarks : List UInt8 := [0x26, 0x3C, 0x3E]

def attrMarks : List UInt8 := 0x22 :: textMarks

theorem textByte_spells : Spells textMarks textByte := by
  refine ⟨by decide, by decide +kernel, fun b other => ?_⟩
  simp only [textMarks, List.mem_cons, List.not_mem_nil, or_false, not_or] at other
  simp [textByte, other]

theorem attrByte_spells : Spells attrMarks attrByte := by
  refine ⟨by decide, by decide +kernel, fun b other => ?_⟩
  rw [attrMarks, List.mem_cons, not_or] at other
  obtain ⟨quote, others⟩ := other
  have same : attrByte b = textByte b := by simp [attrByte, quote]
  rw [same]
  exact textByte_spells.plain b others

theorem expandAfter_skip (w rest : Text) : expandAfter w.length (w ++ rest) = expand rest := by
  induction w with
  | nil => rfl
  | cons b w ih => exact ih

theorem referenceAt_front (rest : Text) :
    ∀ e ∈ references, referenceAt? (e.1 ++ rest) = some e := by
  intro e member
  simp only [references, List.mem_cons, List.not_mem_nil, or_false] at member
  rcases member with rfl | rfl | rfl | rfl <;> rfl

theorem reference_word : ∀ e ∈ references,
    e.1.head? = some 0x26 ∧ 0x26 ∉ e.1.tail ∧ ∀ c ∈ attrMarks, c ≠ 0x26 → c ∉ e.1 := by
  decide +kernel

theorem expand_reference {e : Text × UInt8} (member : e ∈ references) (rest : Text) :
    expand (e.1 ++ rest) = e.2 :: expand rest := by
  have front := referenceAt_front rest e member
  obtain ⟨w, b⟩ := e
  obtain ⟨word, same⟩ := List.head?_eq_some_iff.mp (reference_word _ member).1
  subst same
  rw [List.cons_append] at front ⊢
  rw [expand, expandAfter, front]
  exact congrArg (b :: ·) (expandAfter_skip word rest)

theorem expand_plain {b : UInt8} (other : b ≠ 0x26) (rest : Text) :
    expand (b :: rest) = b :: expand rest := by
  have none_ : referenceAt? (b :: rest) = none := by
    rw [referenceAt?, List.find?_eq_none]
    intro e member front
    obtain ⟨word, same⟩ := List.head?_eq_some_iff.mp (reference_word e member).1
    rw [same, List.isPrefixOf_iff_prefix, List.cons_prefix_cons] at front
    exact other front.1.symm
  rw [expand, expandAfter, none_]
  rfl

section Escapers

variable {marked : List UInt8} {escape : UInt8 → Text} (spells : Spells marked escape)

include spells

theorem spelled (b : UInt8) : (escape b, b) ∈ references ∨ (b ∉ marked ∧ escape b = [b]) := by
  by_cases mark : b ∈ marked
  · exact .inl (spells.referred b mark)
  · exact .inr ⟨mark, spells.plain b mark⟩

theorem expand_spelled (b : UInt8) (rest : Text) :
    expand (escape b ++ rest) = b :: expand rest := by
  rcases spelled spells b with reference | ⟨unmarked, same⟩
  · exact expand_reference reference rest
  · have other : b ≠ 0x26 := by
      rintro rfl
      exact unmarked spells.ampersand
    rw [same]
    exact expand_plain other rest

theorem expand_escape (t : Text) : expand (t.flatMap escape) = t := by
  induction t with
  | nil => rfl
  | cons b t ih => rw [List.flatMap_cons, expand_spelled spells, ih]

theorem escape_injective {s t : Text} (same : s.flatMap escape = t.flatMap escape) : s = t :=
  calc s = expand (s.flatMap escape) := (expand_escape spells s).symm
    _ = expand (t.flatMap escape) := by rw [same]
    _ = t := expand_escape spells t

theorem marked_absent {c : UInt8} (mark : c ∈ marked) (known : c ∈ attrMarks) (other : c ≠ 0x26)
    (t : Text) : c ∉ t.flatMap escape := by
  intro member
  obtain ⟨b, -, shown⟩ := List.mem_flatMap.mp member
  rcases spelled spells b with reference | ⟨unmarked, same⟩
  · exact (reference_word _ reference).2.2 c known other shown
  · rw [same, List.mem_singleton] at shown
    exact unmarked (shown ▸ mark)

theorem spelled_ampersand {b : UInt8} {front word : Text}
    (split : escape b = front ++ 0x26 :: word) : (0x26 :: word, b) ∈ references := by
  rcases spelled spells b with reference | ⟨unmarked, same⟩
  · cases front with
    | nil =>
      rw [split] at reference
      exact reference
    | cons a front =>
      have inside : 0x26 ∈ (escape b).tail := by simp [split]
      exact absurd inside (reference_word _ reference).2.1
  · have shown : 0x26 ∈ escape b := by simp [split]
    rw [same, List.mem_singleton] at shown
    exact absurd (shown ▸ spells.ampersand) unmarked

theorem ampersand_refers {t rest : Text} (here : 0x26 :: rest <:+ t.flatMap escape) :
    ∃ e ∈ references, e.1 <+: 0x26 :: rest := by
  induction t with
  | nil => exact absurd (List.suffix_nil.mp here) (List.cons_ne_nil 0x26 rest)
  | cons b t ih =>
    obtain ⟨front, whole⟩ := here
    rw [List.flatMap_cons] at whole
    -- The ampersand stands in the spelling of `b` or behind it.
    rcases List.append_eq_append_iff.mp whole with ⟨word, spelling, tail⟩ | ⟨between, -, tail⟩
    · cases word with
      | nil => exact ih ⟨[], tail⟩
      | cons a word =>
        rw [List.cons_append, List.cons.injEq] at tail
        obtain ⟨rfl, rfl⟩ := tail
        exact ⟨_, spelled_ampersand spells spelling, List.prefix_append (0x26 :: word) _⟩
    · exact ih ⟨between, tail.symm⟩

theorem escaped_guarded (lt : 0x3C ∈ marked) (gt : 0x3E ∈ marked) (t : Text) :
    Guarded (t.flatMap escape) where
  opens := marked_absent spells lt (by decide) (by decide) t
  closes := marked_absent spells gt (by decide) (by decide) t
  refers _ here := ampersand_refers spells here

end Escapers

/-- What either escaper writes is read back as it was, whatever it looked like, and can be put where
the escaper is for; so no two texts are written alike. -/
theorem expand_undoes_escapes :
    (∀ s, expand (text s) = s ∧ Guarded (text s)) ∧
      (∀ s, expand (attr s) = s ∧ Guarded (attr s) ∧ 0x22 ∉ attr s) ∧
      Function.Injective text ∧ Function.Injective attr := by
  refine ⟨fun s => ⟨?_, ?_⟩, fun s => ⟨?_, ?_, ?_⟩, fun s t same => ?_, fun s t same => ?_⟩
  · exact expand_escape textByte_spells s
  · exact escaped_guarded textByte_spells (by decide) (by decide) s
  · exact expand_escape attrByte_spells s
  · exact escaped_guarded attrByte_spells (by decide) (by decide) s
  · exact marked_absent attrByte_spells (by decide) (by decide) (by decide) s
  · exact escape_injective textByte_spells same
  · exact escape_injective attrByte_spells same

-- A text that spells out a reference to an ampersand.
example : text "&amp;lt; \"" = ofString "&amp;amp;lt; \"" ∧
    attr "&amp;lt; \"" = ofString "&amp;amp;lt; &quot;" := by decide +kernel

end DocBridge.Escape
