import DocBridge.Markup.Token
import DocBridge.Page.Render
import DocBridge.Proofs.Text.Search
import DocBridge.Proofs.Text.Utf8

/-
What escaping puts in, reading takes out again: each reference that stands for a byte is expanded
to that byte, and no byte that ends a text or a value is left in the open.
-/
namespace DocBridge.Markup

open Text

theorem expand_skip (strict atEnd : Bool) (w rest : Text) :
    expandFrom strict atEnd w.length (w ++ rest) = expandFrom strict atEnd 0 rest := by
  induction w with
  | nil => rfl
  | cons b w ih =>
    rw [List.length_cons, List.cons_append, expandFrom]
    exact ih

def isReferenceByte (c : UInt8) : Bool := c == 0x26 || c == 0x3B || isLower c

theorem reference_byte {c : UInt8} (written : isReferenceByte c = true) :
    c ≠ 0x0D ∧ c ≠ 0x22 ∧ c ≠ 0x3C ∧ c ≠ 0x3E := by
  refine ⟨?_, ?_, ?_, ?_⟩ <;> rintro rfl <;> exact absurd written (by decide)

structure RefersTo (w : Text) (b : UInt8) : Prop where
  known : ∀ rest, reference (w ++ rest) = .known [b] w.length
  written : w.all isReferenceByte = true

/-- Every byte is written as a reference to it or, other than an ampersand, as it is. -/
def IsEscape (escape : UInt8 → Text) : Prop :=
  ∀ b, (∃ w, RefersTo w b ∧ escape b = 0x26 :: w) ∨ (b ≠ 0x26 ∧ escape b = [b])

theorem textByte_isEscape : IsEscape Escape.textByte := by
  intro b
  by_cases amp : b = 0x26
  · subst amp
    exact .inl ⟨"amp;", ⟨fun _ => rfl, by decide⟩, rfl⟩
  · by_cases lt : b = 0x3C
    · subst lt
      exact .inl ⟨"lt;", ⟨fun _ => rfl, by decide⟩, rfl⟩
    · by_cases gt : b = 0x3E
      · subst gt
        exact .inl ⟨"gt;", ⟨fun _ => rfl, by decide⟩, rfl⟩
      · exact .inr ⟨amp, by simp [Escape.textByte, amp, lt, gt]⟩

theorem attrByte_isEscape : IsEscape Escape.attrByte := by
  intro b
  by_cases quote : b = 0x22
  · subst quote
    exact .inl ⟨"quot;", ⟨fun _ => rfl, by decide⟩, rfl⟩
  · have same : Escape.attrByte b = Escape.textByte b := by simp [Escape.attrByte, quote]
    rw [same]
    exact textByte_isEscape b

section Escapes

variable {escape : UInt8 → Text} (escapes : IsEscape escape)

include escapes

theorem expand_byte (strict atEnd : Bool) (b : UInt8) (rest : Text) :
    expandFrom strict atEnd 0 (escape b ++ rest) =
      (expandFrom strict atEnd 0 rest).map (b :: ·) := by
  rcases escapes b with ⟨w, refers, same⟩ | ⟨other, same⟩
  · rw [same, List.cons_append, expandFrom, if_pos (beq_self_eq_true _), refers.known]
    simp only [expand_skip, List.singleton_append]
  · rw [same, List.singleton_append, expandFrom, if_neg (by simpa using other)]

theorem expand_escaped (strict atEnd : Bool) (t : Text) :
    expandFrom strict atEnd 0 (t.flatMap escape) = .ok t := by
  induction t with
  | nil => rfl
  | cons b t ih =>
    rw [List.flatMap_cons, expand_byte escapes, ih]
    rfl

/-- A byte of an escaped text belongs to a reference or stands there as in the text. -/
theorem mem_escaped {t : Text} {c : UInt8} (member : c ∈ t.flatMap escape) :
    isReferenceByte c = true ∨ (c ∈ t ∧ escape c = [c]) := by
  obtain ⟨b, inside, byte⟩ := List.mem_flatMap.mp member
  rcases escapes b with ⟨w, refers, same⟩ | ⟨_, same⟩
  · rw [same, List.mem_cons] at byte
    rcases byte with rfl | later
    · exact .inl (by decide)
    · exact .inl (List.all_eq_true.mp refers.written c later)
  · rw [same, List.mem_singleton] at byte
    subst byte
    exact .inr ⟨inside, same⟩

theorem escaped_ne_nil {t : Text} (some_ : t ≠ []) : t.flatMap escape ≠ [] := by
  obtain ⟨b, t, rfl⟩ := List.exists_cons_of_ne_nil some_
  rw [List.flatMap_cons]
  rcases escapes b with ⟨w, _, same⟩ | ⟨_, same⟩ <;> simp [same]

theorem take_escaped {t : Text} {n : Nat} (open_ : 0x26 ∉ (t.flatMap escape).take n) :
    (t.flatMap escape).take n = t.take n := by
  induction t generalizing n with
  | nil => rfl
  | cons b t ih =>
    cases n with
    | zero => rfl
    | succ n =>
      rw [List.flatMap_cons] at open_ ⊢
      rcases escapes b with ⟨w, _, same⟩ | ⟨_, same⟩
      · simp [same] at open_
      · rw [same, List.singleton_append, List.take_succ_cons] at open_ ⊢
        rw [ih fun later => open_ (List.mem_cons_of_mem b later), List.take_succ_cons]

end Escapes

theorem mem_text {t : Text} {c : UInt8} (member : c ∈ Escape.text t) : c ≠ 0x3C ∧ c ≠ 0x3E := by
  rcases mem_escaped textByte_isEscape member with written | ⟨_, same⟩
  · exact (reference_byte written).2.2
  · constructor <;> rintro rfl <;> exact absurd same (by decide)

theorem mem_attr {t : Text} {c : UInt8} (member : c ∈ Escape.attr t) : c ≠ 0x22 ∧ c ≠ 0x3C := by
  rcases mem_escaped attrByte_isEscape member with written | ⟨_, same⟩
  · exact ⟨(reference_byte written).2.1, (reference_byte written).2.2.1⟩
  · constructor <;> rintro rfl <;> exact absurd same (by decide)

theorem normalizeLines_clean {s : Text} (clean : 0x0D ∉ s) : normalizeLines s = s := by
  fun_induction normalizeLines s with
  | case1 => rfl
  | case2 rest ih => exact absurd List.mem_cons_self clean
  | case3 rest _ ih => exact absurd List.mem_cons_self clean
  | case4 b rest _ _ ih => rw [ih fun later => clean (List.mem_cons_of_mem _ later)]

def isClean (t : Text) : Bool := isXmlText t && !containsByte 0x0D t

theorem clean_text {t : Text} (clean : isClean t = true) : isXmlText t = true ∧ 0x0D ∉ t := by
  simp only [isClean, containsByte, Bool.and_eq_true, Bool.not_eq_true', List.any_beq',
    List.contains_eq_mem, decide_eq_false_iff_not] at clean
  exact clean

theorem charData_escaped {escape : UInt8 → Text} (escapes : IsEscape escape) (strict atEnd : Bool)
    {t : Text} (clean : isClean t = true) : charData strict atEnd (t.flatMap escape) = .ok t := by
  obtain ⟨xml, noReturn⟩ := clean_text clean
  have kept : 0x0D ∉ t.flatMap escape := by
    intro member
    rcases mem_escaped escapes member with written | ⟨inside, _⟩
    · exact (reference_byte written).1 rfl
    · exact noReturn inside
  rw [charData, normalizeLines_clean kept, expand_escaped escapes]
  exact if_pos xml

theorem charData_text {t : Text} (clean : isClean t = true) (strict atEnd : Bool) :
    charData strict atEnd (Escape.text t) = .ok t :=
  charData_escaped textByte_isEscape strict atEnd clean

theorem charData_attr {t : Text} (clean : isClean t = true) (strict atEnd : Bool) :
    charData strict atEnd (Escape.attr t) = .ok t :=
  charData_escaped attrByte_isEscape strict atEnd clean

end DocBridge.Markup
