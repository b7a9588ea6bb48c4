import DocBridge.Proofs.Comment.Rules
import DocBridge.Proofs.Pattern.Settled
import DocBridge.Proofs.Text.Split
import Mathlib.Data.List.Basic

/-
Return commands. Types hold no blank, so a command can be cut at its blanks: the fields are the types
that are listed, with bars between them, and then, if there was a typed array, the types as written
in the same form. A single list has an odd number of fields and two lists have an even one, so the
types as written can be read off the command.
-/
namespace DocBridge.Rule

open Text Pattern

def IsTypeList (types : Text) : Prop := ∀ b ∈ types, isTypeListByte b = true

def bar : Text := [0x7C]

def fields (command : Text) : List Text := (splitOn 0x20 command).drop 1

def firstList : List Text → List Text
  | [] => []
  | [field] => [field]
  | field :: next :: rest => if next = bar then field :: firstList rest else [field]

def listedTypes (command : Text) : List Text := firstList (fields command)

/-- The types that a command was made from: all of an odd number of fields, the second half of an
even one. -/
def writtenTypes (command : Text) : Text :=
  let all := fields command
  (all.drop (if all.length % 2 = 0 then all.length / 2 else 0)).flatten

def plainType (type : Text) : Text := if isTypedArray type then "array" else type

theorem barred_ne_nil {parts : List Text} (some_ : parts ≠ []) : parts.intersperse bar ≠ [] := by
  have := List.length_pos_iff.mpr some_
  apply List.length_pos_iff.mp
  rw [List.length_intersperse]
  omega

theorem join_barred (parts : List Text) :
    join " | " parts = join [0x20] (parts.intersperse bar) := by
  have bytes : ofString " | " = [0x20, 0x7C, 0x20] := by decide
  induction parts with
  | nil => rfl
  | cons part parts ih =>
    cases parts with
    | nil => rfl
    | cons next parts =>
      have some_ := barred_ne_nil (List.cons_ne_nil next parts)
      have left : join " | " (part :: next :: parts)
          = part ++ (" | " ++ join " | " (next :: parts)) := join_cons (by simp) _ part
      have right : join [0x20] (part :: bar :: (next :: parts).intersperse bar)
          = part ++ ([0x20] ++ (bar ++ ([0x20] ++ join [0x20] ((next :: parts).intersperse bar)))) := by
        rw [join_cons (by simp), join_cons some_]
      rw [List.intersperse_cons_cons, left, right, ih, bytes]
      rfl

theorem join_bar (parts : List Text) : (parts.intersperse bar).flatten = join bar parts := by
  induction parts with
  | nil => rfl
  | cons part parts ih =>
    cases parts with
    | nil => simp [join]
    | cons next parts =>
      rw [List.intersperse_cons_cons, join_cons (by simp), List.flatten_cons, List.flatten_cons, ih]

theorem mem_barred {part : Text} {parts : List Text} (member : part ∈ parts.intersperse bar) :
    part = bar ∨ part ∈ parts := by
  induction parts with
  | nil => exact .inr member
  | cons first parts ih =>
    cases parts with
    | nil => exact .inr member
    | cons next parts =>
      rw [List.intersperse_cons_cons, List.mem_cons, List.mem_cons] at member
      rcases member with rfl | rfl | later
      · exact .inr List.mem_cons_self
      · exact .inl rfl
      · exact (ih later).imp_right (List.mem_cons_of_mem first)

def plainList (types : Text) : List Text := ((splitOn 0x7C types).map plainType).intersperse bar

def description (types : Text) : List Text :=
  if (splitOn 0x7C types).any isTypedArray then (splitOn 0x7C types).intersperse bar else []

theorem plainList_ne_nil (types : Text) : plainList types ≠ [] := by
  apply barred_ne_nil
  simpa using splitOn_ne_nil 0x7C types

theorem retval_join (types : Text) :
    retval types = join [0x20] ("@retval" :: (plainList types ++ description types)) := by
  have command : ofString "@retval " = ofString "@retval" ++ [0x20] := by decide
  have blank : ofString " " = [0x20] := by decide
  have written := barred_ne_nil (splitOn_ne_nil 0x7C types)
  have plain := plainList_ne_nil types
  have listed : retval types = "@retval " ++ join " | " ((splitOn 0x7C types).map plainType)
    ++ (if (splitOn 0x7C types).any isTypedArray then " " ++ join " | " (splitOn 0x7C types)
      else []) := rfl
  rw [listed, join_barred, join_barred, ← plainList, command, blank, join_cons (by simp [plain]),
    description]
  split
  · rw [join_append plain written]
    simp
  · simp

theorem retval_clean {b : UInt8} {types : Text} (free : b ∉ types) (noBar : b ∉ bar)
    (noArray : b ∉ ofString "array") :
    ∀ field ∈ plainList types ++ description types, b ∉ field := by
  have written : ∀ type ∈ splitOn 0x7C types, b ∉ type := by
    intro type member inside
    exact free (mem_of_mem_splitOn member inside)
  intro field member
  rcases List.mem_append.mp member with plain | described
  · rcases mem_barred plain with rfl | inside
    · exact noBar
    · obtain ⟨type, inside', rfl⟩ := List.mem_map.mp inside
      unfold plainType
      split
      · exact noArray
      · exact written type inside'
  · unfold description at described
    split at described
    · rcases mem_barred described with rfl | inside
      · exact noBar
      · exact written field inside
    · contradiction

theorem retval_fields {types : Text} (list : IsTypeList types) :
    fields (retval types) = plainList types ++ description types := by
  have blank : 0x20 ∉ types := not_mem_of_all list (by decide)
  rw [fields, retval_join, splitOn_join (by simp)]
  · rfl
  · intro field member
    rcases List.mem_cons.mp member with rfl | later
    · decide
    · exact retval_clean blank (by decide) (by decide) field later

theorem firstList_barred {parts rest : List Text} (some_ : parts ≠ [])
    (stop : ∀ next ∈ rest.head?, next ≠ bar) : firstList (parts.intersperse bar ++ rest) = parts := by
  induction parts with
  | nil => contradiction
  | cons part parts ih =>
    cases parts with
    | nil =>
      cases rest with
      | nil => rfl
      | cons next rest => exact if_neg (stop next rfl)
    | cons next parts =>
      rw [List.intersperse_cons_cons, List.cons_append, List.cons_append, firstList, if_pos rfl,
        ih (by simp)]

theorem description_stop (types : Text) : ∀ next ∈ (description types).head?, next ≠ bar := by
  intro next head
  unfold description at head
  split at head
  · have first : next ∈ splitOn 0x7C types := by
      obtain ⟨part, parts, split⟩ := List.exists_cons_of_ne_nil (splitOn_ne_nil 0x7C types)
      rw [split] at head ⊢
      cases parts <;> simp_all
    rintro rfl
    exact absurd List.mem_cons_self (not_mem_splitOn bar first)
  · contradiction

theorem listedTypes_retval {types : Text} (list : IsTypeList types) :
    listedTypes (retval types) = (splitOn 0x7C types).map plainType := by
  rw [listedTypes, retval_fields list]
  apply firstList_barred
  · simpa using splitOn_ne_nil 0x7C types
  · exact description_stop types

theorem writtenTypes_retval {types : Text} (list : IsTypeList types) :
    writtenTypes (retval types) = types := by
  have whole : ((splitOn 0x7C types).intersperse bar).flatten = types := by
    rw [join_bar]
    exact join_splitOn 0x7C types
  have count : 0 < (splitOn 0x7C types).length :=
    List.length_pos_iff.mpr (splitOn_ne_nil 0x7C types)
  rw [writtenTypes, retval_fields list]
  unfold description
  split
  · -- Two lists of one length.
    have both : (plainList types ++ (splitOn 0x7C types).intersperse bar).length
        = 2 * (plainList types).length := by
      rw [plainList, List.length_append, List.length_intersperse, List.length_intersperse,
        List.length_map]
      omega
    simp only [both, Nat.mul_mod_right, if_true, Nat.mul_div_cancel_left _ (Nat.zero_lt_succ 1),
      List.drop_left]
    exact whole
  · rename_i untyped
    have same : (splitOn 0x7C types).map plainType = splitOn 0x7C types := by
      conv_rhs => rw [← List.map_id (splitOn 0x7C types)]
      apply List.map_congr_left
      intro type member
      exact if_neg fun typed => untyped (List.any_eq_true.mpr ⟨type, member, typed⟩)
    have odd : ((splitOn 0x7C types).intersperse bar).length % 2 ≠ 0 := by
      rw [List.length_intersperse]
      omega
    rw [plainList, same, List.append_nil]
    simp only [odd, if_false, List.drop_zero]
    exact whole

/-- The at sign that starts a command is its only one. -/
theorem retval_mark {types : Text} (free : 0x40 ∉ types) :
    ∃ w, retval types = 0x40 :: w ∧ 0x40 ∉ w := by
  have command : ofString "@retval" = 0x40 :: ofString "retval" := by decide
  have noMark := retval_clean free (by decide) (by decide)
  have fields_ : 0x40 ∉ join [0x20] (plainList types ++ description types) :=
    not_mem_join (by decide) noMark
  have some_ : plainList types ++ description types ≠ [] := by
    apply List.append_ne_nil_of_left_ne_nil
    exact plainList_ne_nil types
  rw [retval_join, join_cons some_, command, List.cons_append]
  refine ⟨_, rfl, ?_⟩
  simp only [List.mem_append, fields_, or_false]
  decide

theorem return_mark {prev : Option UInt8} {x rest : Text} {g : Groups UInt8}
    (reads : Reads returnPattern prev x rest g) : ∃ y, x = 0x40 :: y ∧ 0x40 ∉ y := by
  have command : ofString "@return" = 0x40 :: ofString "return" := by decide
  obtain ⟨plural, lead, types, rfl, ending, gaps, ⟨_, list⟩, _⟩ := return_reads reads
  have noLead : 0x40 ∉ lead := not_mem_of_all gaps (by decide)
  have noTypes : 0x40 ∉ types := not_mem_of_all list (by decide)
  have noPlural : 0x40 ∉ plural := by
    rcases ending with rfl | rfl <;> decide
  rw [command, List.cons_append]
  refine ⟨_, rfl, ?_⟩
  simp only [List.mem_append, noLead, noTypes, noPlural, or_false]
  decide

theorem retval_unread (types : Text) {prev : Option UInt8} {rest x r : Text} {g : Groups UInt8}
    (split : retval types ++ rest = x ++ r) : ¬ Reads returnPattern prev x r g := by
  intro reads
  have bytes : ofString "@return" = [0x40, 0x72, 0x65, 0x74, 0x75, 0x72, 0x6E] := by decide
  have bytes' : ofString "@retval " = [0x40, 0x72, 0x65, 0x74, 0x76, 0x61, 0x6C, 0x20] := by decide
  obtain ⟨plural, lead, types', rfl, _⟩ := return_reads reads
  rw [retval, bytes, bytes'] at split
  simp at split

theorem return_marked : Marked returnPattern (fun m => retval (m.group 1)) 0x40 where
  blind := rfl
  matched := return_mark
  put := by
    intro prev m rest found
    obtain ⟨_, _, types, _, _, _, ⟨_, list⟩, one⟩ := return_reads (found_reads found)
    have group : m.group 1 = types := by simp only [Match.group, one, Option.getD_some]
    have free : 0x40 ∉ types := not_mem_of_all list (by decide)
    obtain ⟨w, whole, clean⟩ := retval_mark free
    rw [group]
    exact ⟨w, whole, clean, fun _ _ _ _ _ split => retval_unread types split⟩

theorem plainType_eq_array (type : Text) :
    plainType type = "array" ↔ ofString "[]" <:+ type ∨ type = "array" := by
  rw [← List.isSuffixOf_iff_suffix]
  unfold plainType isTypedArray
  split
  · rename_i typed
    exact iff_of_true rfl (.inl typed)
  · rename_i untyped
    simp [untyped]

/-- Return commands lose nothing of the types they are made from, list a plain array for each typed
one, and are left alone by the rule that makes them. -/
theorem returns_lossless_and_settled :
    (∀ x y, IsTypeList x → IsTypeList y → retval x = retval y → x = y) ∧
      (∀ x, IsTypeList x →
        (∃ rest, retval x = "@retval " ++ (join " | " (listedTypes (retval x)) ++ rest)) ∧
        (listedTypes (retval x)).length = (splitOn 0x7C x).length ∧
        ∀ (i : Nat) type, (splitOn 0x7C x)[i]? = some type →
          ((listedTypes (retval x))[i]? = some (ofString "array") ↔
            ofString "[]" <:+ type ∨ type = "array")) ∧
      ∀ text, returns (returns text) = returns text := by
  refine ⟨?_, ?_, ?_⟩
  · intro x y listX listY same
    rw [← writtenTypes_retval listX, same, writtenTypes_retval listY]
  · intro x list
    rw [listedTypes_retval list]
    refine ⟨?_, List.length_map .., ?_⟩
    · exact ⟨_, List.append_assoc ..⟩
    · intro i type here
      rw [List.getElem?_map, here, ← plainType_eq_array]
      simp
  · exact replace_settled return_marked

theorem typed_empty_and_plain_listed :
    let x : Text := "int[]||array"
    let y : Text := join bar ["int[]", "", "array"]
    (IsTypeList x ∧ IsTypeList y ∧ retval x = retval y ∧ x = y) ∧
      (splitOn 0x7C x)[0]? = some (ofString "int[]") ∧
      (listedTypes (retval x)).length = (splitOn 0x7C x).length ∧
      (listedTypes (retval x))[0]? = some (ofString "array") := by
  intro x y
  have listX : IsTypeList x := List.all_eq_true.mp (by decide)
  have listY : IsTypeList y := List.all_eq_true.mp (by decide)
  have same : retval x = retval y := by decide
  have first : (splitOn 0x7C x)[0]? = some (ofString "int[]") := by decide
  obtain ⟨injective, listed, -⟩ := returns_lossless_and_settled
  obtain ⟨-, length, arrays⟩ := listed x listX
  refine ⟨⟨listX, listY, same, injective x y listX listY same⟩, first, length, ?_⟩
  exact (arrays 0 _ first).mpr (.inl ⟨ofString "int", by decide⟩)

end DocBridge.Rule
