import DocBridge.Proofs.Token.Agreement
import DocBridge.Proofs.Token.Keywords

/-
Tokens are maximal. What stands behind white space, a variable, a word or punctuation does not carry
it on; a token there therefore starts with nothing that would have belonged to the token before it.
-/
namespace DocBridge.Scan

open Text

def operators : List Text := operators3 ++ operators2

/-- Right behind a token with text `text` stands more that would belong to it. -/
def CarriesOn (text rest : Text) : Kind → Prop
  | .whitespace => startsWith isSpace rest = true
  | .variableName => startsWith isNamePart rest = true
  | .name | .keyword _ => startsWith isNamePart rest = true ∨
      (startsWith (· == 0x5C) rest = true ∧ startsWith isNameStart (rest.drop 1) = true)
  | .operator | .char => ∃ op ∈ operators, op <+: text ++ rest ∧ text.length < op.length
  | _ => False

variable {b : UInt8} {text rest : Text} {kind : Kind}

theorem run_stops {p : UInt8 → Bool} (length : runLength p (text ++ rest) = text.length) :
    startsWith p rest = false := by
  have behind := Offset.drop_runLength p (text ++ rest)
  rw [length, List.drop_left] at behind
  rw [behind]
  exact Offset.dropWhile_stops p (text ++ rest)

theorem qualified_stops (length : qualifiedLength (text ++ rest) = text.length) :
    ¬ CarriesOn text rest .name := by
  induction text with
  | nil =>
    cases rest with
    | nil => simp [CarriesOn, startsWith]
    | cons c rest =>
      rw [List.nil_append, qualifiedLength] at length
      split at length
      · contradiction
      · rename_i stops
        simpa [CarriesOn, startsWith] using stops
  | cons c text ih =>
    rw [List.cons_append, qualifiedLength] at length
    split at length
    · exact ih (Nat.succ.inj length)
    · contradiction

theorem operator_stops (scanned : scanOperator b (text ++ rest) = (kind, text.length)) :
    ¬ CarriesOn (b :: text) rest kind := by
  have three : ∀ op ∈ operators, op.length ≤ 3 := by decide
  have two : ∀ op ∈ operators2, op.length = 2 := by decide
  have longest : ∀ op ∈ operators, op <+: b :: (text ++ rest) → op.length ≤ text.length + 1 := by
    intro op member fits
    have found {table : List Text} (inside : op ∈ table) :
        table.any (·.isPrefixOf (b :: (text ++ rest))) = true :=
      List.any_eq_true.mpr ⟨op, inside, List.isPrefixOf_iff_prefix.mpr fits⟩
    unfold scanOperator at scanned
    split at scanned
    · rw [← (Prod.mk.inj scanned).2]
      exact three op member
    · rename_i not3
      rcases List.mem_append.mp member with inside | inside
      · exact absurd (found inside) not3
      · rw [if_pos (found inside)] at scanned
        rw [← (Prod.mk.inj scanned).2]
        exact Nat.le_of_eq (two op inside)
  have same : kind = .operator ∨ kind = .char := by
    have gives := scanOperator_gives b (text ++ rest)
    rwa [scanned] at gives
  rcases same with rfl | rfl
  all_goals
    rintro ⟨op, member, fits, longer⟩
    have := longest op member fits
    rw [List.length_cons] at longer
    omega

theorem lead_stops
    (scanned : scanLead b (text ++ rest) (leadOf b (text ++ rest)) = (kind, text.length)) :
    ¬ CarriesOn (b :: text) rest kind := by
  cases lead : leadOf b (text ++ rest) <;> rw [lead] at scanned
  case space =>
    obtain ⟨rfl, size⟩ := Prod.mk.inj scanned
    exact Bool.eq_false_iff.mp (run_stops size)
  case variableName =>
    obtain ⟨rfl, size⟩ := Prod.mk.inj scanned
    exact Bool.eq_false_iff.mp (run_stops size)
  case name =>
    have gives := scanLead_gives b (text ++ rest) .name
    have stops := qualified_stops (congrArg Prod.snd scanned)
    rw [scanned] at gives
    rcases gives with rfl | ⟨k, rfl⟩ <;> exact stops
  case blockComment =>
    have gives := scanLead_gives b (text ++ rest) .blockComment
    rw [scanned] at gives
    rcases gives with rfl | rfl <;> exact id
  case brackets =>
    simp only [scanLead] at scanned
    split at scanned
    · obtain ⟨rfl, -⟩ := Prod.mk.inj scanned
      exact id
    · exact operator_stops scanned
  case other => exact operator_stops scanned
  all_goals
    obtain ⟨rfl, -⟩ := Prod.mk.inj scanned
    exact id

end DocBridge.Scan

namespace DocBridge.Token

open Scan Text

theorem scan_stops {mode : Mode} {b : UInt8} {text rest : Text} {kind : Kind}
    (scanned : scan mode b (text ++ rest) = (kind, text.length)) :
    ¬ CarriesOn (b :: text) rest kind := by
  unfold scan at scanned
  split at scanned
  · exact lead_stops scanned
  · have gives := scanInline_gives b (text ++ rest)
    rw [scanned] at gives
    rcases gives with rfl | rfl | rfl <;> exact id

theorem carriesOn_word {kind : Kind} (word : kind.IsWord) (text rest : Text) :
    CarriesOn text rest kind ↔ CarriesOn text rest .name := by
  rcases word with rfl | isKeyword
  · exact Iff.rfl
  · cases kind with
    | keyword k => exact Iff.rfl
    | _ => simp [Kind.isKeyword] at isKeyword

theorem carriesOn_kindIn (mode : Mode) (kind : Kind) (text rest : Text) :
    CarriesOn text rest (kindIn mode kind) ↔ CarriesOn text rest kind := by
  unfold kindIn
  split
  · rename_i demoted
    have word : kind.IsWord := .inr (Bool.and_eq_true_iff.mp demoted).2
    exact (carriesOn_word word text rest).symm
  · exact Iff.rfl

theorem lexed_stops {mode : Mode} {line : Nat} {s : Text} {before after : List Token} {t : Token}
    (lexed : Lexed mode line s (before ++ t :: after)) :
    ¬ CarriesOn t.text (after.flatMap Token.text) t.kind := by
  obtain ⟨mode', b, text, kind, kind_, text_, scanned, -⟩ := lexed_scanned lexed
  rw [kind_, text_, carriesOn_kindIn]
  exact scan_stops scanned

/-- `u` starts with nothing that would have belonged to `t` right before it. -/
structure Parted (t u : Token) : Prop where
  spaces : t.kind = .whitespace → u.kind ≠ .whitespace
  labels : t.kind.IsWord ∨ t.kind = .variableName → startsWith isNamePart u.text = false
  qualified : t.kind.IsWord → u.kind = .name → startsWith (· == 0x5C) u.text = false

theorem scan_space {mode : Mode} {b : UInt8} {rest : Text} {n : Nat}
    (scanned : scan mode b rest = (.whitespace, n)) : isSpace b = true := by
  obtain ⟨_, gives, seen, _⟩ := scan_code scanned (by simp) (by simp) (by simp)
  have lead : leadOf b rest = .space := by
    cases found : leadOf b rest <;> rw [found] at gives <;> simp [Lead.Gives] at gives ⊢
  rw [lead] at seen
  exact seen

theorem lexed_parted {mode : Mode} {line : Nat} {s : Text} {before after : List Token} {t u : Token}
    (lexed : Lexed mode line s (before ++ t :: u :: after)) : Parted t u := by
  have stops := lexed_stops lexed
  rw [List.append_cons] at lexed
  obtain ⟨mode', b, text, kind, kind_, text_, scanned, -⟩ := lexed_scanned lexed
  rw [List.flatMap_cons, text_, List.cons_append] at stops
  have behindWord (word : t.kind.IsWord) : ¬ CarriesOn t.text (b :: _) .name :=
    fun more => stops ((carriesOn_word word _ _).mpr more)
  constructor
  case spaces =>
    intro space space'
    rw [space] at stops
    rw [kindIn_eq (kind_.symm.trans space') (by simp)] at scanned
    exact stops (scan_space scanned)
  case labels =>
    rw [text_, ← Bool.not_eq_true]
    rintro (word | variable_) part
    · exact behindWord word (.inl part)
    · rw [variable_] at stops
      exact stops part
  case qualified =>
    intro word name
    have named : (kindIn mode' kind).IsWord := kind_ ▸ .inl name
    rw [text_, ← Bool.not_eq_true]
    intro slash
    -- A label stands behind the backslash, and the word before would have gone on with it.
    have label : startsWith isNameStart (text ++ after.flatMap Token.text) = true := by
      obtain rfl : b = 0x5C := by simpa [startsWith] using slash
      exact (scan_word_lead (isWord_kindIn.mp named) scanned).1
    exact behindWord word (.inr ⟨slash, label⟩)

/-- Tokens are as long as they can be: white space stands beside no white space, no label goes on in
the token behind it, no name goes on in a name that starts with a backslash, and no operator of two
bytes is the start of one of three that stands there. -/
theorem stream_tokens_maximal (src : Text) :
    (∀ before t u after, stream src = before ++ t :: u :: after → Parted t u) ∧
    ∀ before t after, stream src = before ++ t :: after → t.kind = .operator →
      t.text.length = 2 → ∀ b, src[(before.flatMap Token.text).length + 2]? = some b →
        t.text ++ [b] ∉ operators3 := by
  have lexed := lexed_stream src
  constructor
  · intro before t u after split
    rw [split] at lexed
    exact lexed_parted lexed
  · intro before t after split operator two b next longer
    have whole : src = before.flatMap Token.text ++ (t.text ++ after.flatMap Token.text) := by
      rw [← stream_join src, split, List.flatMap_append, List.flatMap_cons]
    rw [split] at lexed
    have stops := lexed_stops lexed
    rw [operator] at stops
    rw [whole, ← two, List.getElem?_append_right (Nat.le_add_right _ _), Nat.add_sub_cancel_left,
      List.getElem?_append_right (Nat.le_refl _), Nat.sub_self] at next
    obtain ⟨rest, behind⟩ : ∃ rest, after.flatMap Token.text = b :: rest :=
      List.head?_eq_some_iff.mp (List.head?_eq_getElem?.trans next)
    refine stops ⟨t.text ++ [b], List.mem_append_left _ longer, ?_, by simp⟩
    rw [behind]
    simp

-- A lone backslash behind a name, and more signs than any operator has.
example : (stream "<?php namespace\\foo\\<<<1").map Token.text =
    ["<?php ", "namespace\\foo", "\\", "<<", "<", "1"].map ofString := by decide +kernel

end DocBridge.Token
