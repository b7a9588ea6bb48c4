import DocBridge.Fix.Fixer
import DocBridge.Proofs.Pattern.Reads
import DocBridge.Proofs.Text.Utf8

/-
Links into the manual. What the standard pattern matches ends in `.php.html`, so a link that has
lost its suffix ends in `.php` and is never shortened again.
-/
namespace DocBridge.Fixer

open Pattern Pattern.Written

def literal (c : Char) : Pattern Char := Written.Class.pattern (· == c.toNat)

def pageChar : Written.Class := fun n =>
  ((false || wordChars n) || Written.Class.ofSpans [(0x2E, 0x2E)] n) ||
    Written.Class.ofSpans [(0x2D, 0x2D)] n

def manualStart : List (Pattern Char) :=
  atTextStart :: "https://php.net/manual/en/".toList.map literal ++
    [times false pageChar.pattern 1 none]

def manualEnd : List Char := ".php.html".toList

def manualPage : Pattern Char := seqs (manualStart ++ (manualEnd.map literal ++ [atTextEnd]))

theorem reads_seqs_last {ps qs : List (Pattern Char)} (some_ : qs ≠ []) {prev : Option Char}
    {x rest : List Char} {g : Groups Char} (reads : Reads (seqs (ps ++ qs)) prev x rest g) :
    ∃ front last prev' h, x = front ++ last ∧ Reads (seqs qs) prev' last rest h := by
  induction ps generalizing prev x g with
  | nil => exact ⟨[], x, prev, g, rfl, reads⟩
  | cons p ps ih =>
    have unfolded : seqs (p :: ps ++ qs) = .seq p (seqs (ps ++ qs)) := by
      obtain ⟨q, qs, rfl⟩ := List.exists_cons_of_ne_nil some_
      cases ps <;> rfl
    rw [unfolded, reads_seq] at reads
    obtain ⟨y, z, h, i, rfl, _, _, more⟩ := reads
    obtain ⟨front, last, prev', h', rfl, found⟩ := ih more
    exact ⟨y ++ front, last, prev', h', (List.append_assoc y front last).symm, found⟩

theorem reads_literals {w : List Char} {prev : Option Char} {x rest : List Char} {g : Groups Char}
    (reads : Reads (seqs (w.map literal ++ [atTextEnd])) prev x rest g) : x = w ∧ rest = [] := by
  induction w generalizing prev x g with
  | nil =>
    obtain ⟨rfl, _, last⟩ := reads
    exact ⟨rfl, List.head?_eq_none_iff.mp (Option.isNone_iff_eq_none.mp last)⟩
  | cons c w ih =>
    have unfolded : seqs ((c :: w).map literal ++ [atTextEnd]) =
        .seq (literal c) (seqs (w.map literal ++ [atTextEnd])) := by
      cases w <;> rfl
    rw [unfolded, reads_seq] at reads
    obtain ⟨y, z, h, i, rfl, _, one, more⟩ := reads
    obtain ⟨⟨d, rfl, same⟩, _⟩ := one
    obtain ⟨rfl, rfl⟩ := ih more
    have equal : d = c := Char.toNat_inj.mp (eq_of_beq same)
    exact ⟨by rw [equal]; rfl, rfl⟩

theorem manualPage_ending {cs : List Char} (occurs : manualPage.occursIn cs = true) :
    ∃ x, cs = x ++ manualEnd := by
  obtain ⟨m, found⟩ := Option.isSome_iff_exists.mp occurs
  obtain ⟨front, rest, split, reads⟩ := findFrom_reads found
  have some_ : manualEnd.map literal ++ [atTextEnd] ≠ [] :=
    List.append_ne_nil_of_right_ne_nil _ (List.cons_ne_nil _ _)
  obtain ⟨start, last, _, _, taken, ending⟩ := reads_seqs_last some_ reads
  obtain ⟨rfl, rfl⟩ := reads_literals ending
  refine ⟨front ++ start, ?_⟩
  rw [split, taken, List.append_nil, List.append_assoc]

theorem cutEnd_eq_some {ending s rest : Text} :
    Text.cutEnd? ending s = some rest ↔ s = rest ++ ending := by
  unfold Text.cutEnd?
  constructor
  · intro cut
    split at cut
    · rename_i ends
      obtain ⟨front, rfl⟩ := List.isSuffixOf_iff_suffix.mp ends
      cases cut
      simp
    · contradiction
  · rintro rfl
    rw [if_pos (List.isSuffixOf_iff_suffix.mpr (List.suffix_append rest ending))]
    simp

variable {f : Fixer}

theorem shortened_cut {value : Option Text} {short : Text}
    (cut : f.shortened? value = some short) :
    f.manualLink.occursIn (Utf8.chars (value.getD [])) = true ∧
      f.settings.manualLinkSuffix ≠ [] ∧ value.getD [] = short ++ f.settings.manualLinkSuffix := by
  rw [shortened?] at cut
  split at cut
  · rename_i both
    rw [Bool.and_eq_true, Bool.not_eq_true', List.isEmpty_eq_false_iff] at both
    exact ⟨both.1, both.2, cutEnd_eq_some.mp cut⟩
  · contradiction

/-- The pattern may find an empty link, but there is nothing to cut off it. -/
theorem shortened_missing : f.shortened? none = none := by
  rw [Option.eq_none_iff_forall_not_mem]
  intro short cut
  obtain ⟨_, some_, ends⟩ := shortened_cut cut
  exact some_ (List.append_eq_nil_iff.mp ends.symm).2

theorem shortened_again (standard : f.manualLink = manualPage)
    (suffix : f.settings.manualLinkSuffix = Text.ofString ".html") {value : Option Text}
    {short : Text} (cut : f.shortened? value = some short) : f.shortened? (some short) = none := by
  obtain ⟨occurs, _, ends⟩ := shortened_cut cut
  rw [standard] at occurs
  rw [suffix] at ends
  obtain ⟨x, chars⟩ := manualPage_ending occurs
  obtain ⟨y, bytes⟩ := Utf8.chars_ending chars (by decide)
  -- The bytes end as the characters do, so the cut leaves `.php` at the end.
  have split : Utf8.ofChars manualEnd = Text.ofString ".php" ++ Text.ofString ".html" := by decide
  have short_php : short = y ++ Text.ofString ".php" := by
    rw [ends, split, ← List.append_assoc] at bytes
    exact List.append_cancel_right bytes
  rw [Option.eq_none_iff_forall_not_mem]
  intro shorter again
  have short_html : short = shorter ++ Text.ofString ".html" := suffix ▸ (shortened_cut again).2.2
  have last := congrArg List.getLast? (short_php.symm.trans short_html)
  have php : (Text.ofString ".php").getLast? = some 0x70 := by decide
  have html : (Text.ofString ".html").getLast? = some 0x6C := by decide
  rw [List.getLast?_append, List.getLast?_append, php, html] at last
  simp at last

end DocBridge.Fixer
