import DocBridge.Comment.Dialect
import DocBridge.Proofs.Comment.Counting
import DocBridge.Proofs.Text.Substitution

/-
The rules that never touch the frame of a doc comment: what they replace and what they put there
holds no star, up to an ending that both have in common.
-/
namespace DocBridge.Rule

open Text Pattern DocBridge.Frame

theorem not_mem_of_all {f : UInt8 → Bool} {w : Text} {b : UInt8} (all : ∀ a ∈ w, f a = true)
    (refused : f b = false) : b ∉ w := by
  intro member
  rw [all b member] at refused
  contradiction

theorem notNewline_iff {w : Text} : (∀ b ∈ w, notNewline b = true) ↔ 0x0A ∉ w := by
  constructor
  · intro all feed
    have := all 0x0A feed
    contradiction
  · intro free b member
    simpa [notNewline] using fun feed : b = 0x0A => free (feed ▸ member)

theorem propertyLink_reads {prev : Option UInt8} {x rest : Text} {g : Groups UInt8}
    (reads : Reads propertyLinkPattern prev x rest g) :
    ∃ w, (∀ b ∈ w, isWordByte b = true) ∧ x = "\x7b@link " ++ (w ++ "\x7d") ∧ g = [(1, w)] := by
  simp only [propertyLinkPattern, seqs, lit, words, reads_seq, reads_group, reads_word,
    reads_plus_one] at reads
  obtain ⟨_, _, _, _, rfl, rfl, ⟨rfl, rfl⟩, _, _, _, _, rfl, rfl, ⟨_, rfl, _, all, rfl⟩, rfl, rfl⟩ :=
    reads
  exact ⟨_, all, rfl, rfl⟩

theorem propertyLinks_frame (text : Text) : SameFrame text (propertyLinks text) := by
  refine sameFrame_of_swap (replace_swap (fun prev m rest _ found => ?_) text)
  obtain ⟨w, all, whole, groups⟩ := propertyLink_reads (found_reads found)
  have free : 0x2A ∉ w := not_mem_of_all all (by decide)
  have group : m.group 1 = w := by rw [Match.group, groups]; rfl
  rw [whole, group]
  refine aside_plain rest (startsOff_append (startsOff_of_head (by decide)) _) ?_ ?_ ?_
  · exact startsOff_append (startsOff_append (startsOff_of_head (by decide)) _) _
  · simp only [List.mem_append, free, false_or, not_or]
    decide
  · simp only [List.mem_append, free, or_false, not_or]
    decide

theorem separatorsFrom_swap {swapped : Text → Text → Text → Prop}
    (ok : ∀ rest, swapped [0x5C] "::" rest) (afterSlash : Bool) (text : Text) :
    Swap swapped text (separatorsFrom afterSlash text) := by
  induction text generalizing afterSlash with
  | nil => exact .done
  | cons b rest ih =>
    rw [separatorsFrom]
    split
    · rename_i slash
      split
      · exact .keep b (ih true)
      · rw [beq_iff_eq.mp slash]
        exact .swap (ok rest) (ih true)
    · exact .keep b (ih false)

theorem namespaceSeparators_frame (text : Text) : SameFrame text (namespaceSeparators text) := by
  refine sameFrame_of_swap (separatorsFrom_swap (fun rest => aside_plain rest ?_ ?_ ?_ ?_) false text)
  · exact startsOff_of_head (by decide)
  · exact startsOff_of_head (by decide)
  · decide
  · decide

theorem replaceAll_swap {old new : Text} {swapped : Text → Text → Text → Prop} (some_ : old ≠ [])
    (ok : ∀ rest, swapped old new rest) (text : Text) :
    Swap swapped text (replaceAll old new text) := by
  induction text using word_induction some_ with
  | nil => exact .done
  | word rest ih =>
    rw [replaceAll_word some_]
    exact .swap (ok rest) ih
  | byte b rest absent ih =>
    rw [replaceAll_byte absent]
    exact .keep b ih

theorem licenseCommand_frame (text : Text) : SameFrame text (licenseCommand text) := by
  refine sameFrame_of_swap (replaceAll_swap (by decide) (fun rest => ?_) text)
  exact aside_plain rest (startsOff_of_head (by decide)) (startsOff_of_head (by decide))
    (by decide) (by decide)

theorem inheritdoc_frame (text : Text) : SameFrame text (inheritdoc text) := by
  refine sameFrame_of_swap (replaceAll_swap (by decide) (fun rest => ?_) text)
  exact aside_plain rest (startsOff_of_head (by decide)) (startsOff_of_head (by decide))
    (by decide) (by decide)

theorem internal_reads {prev : Option UInt8} {x rest : Text} {g : Groups UInt8}
    (reads : Reads internalPattern prev x rest g) :
    ∃ b, isGap b = true ∧ x = "@internal" ++ [b] ∧ g = [(1, [b])] := by
  simp only [internalPattern, lit, reads_seq, reads_group, reads_word, reads_one] at reads
  obtain ⟨_, _, _, _, rfl, rfl, ⟨rfl, rfl⟩, _, rfl, ⟨b, rfl, gap⟩, rfl⟩ := reads
  exact ⟨b, gap, rfl, rfl⟩

theorem internalCommand_frame (text : Text) : SameFrame text (internalCommand text) := by
  refine sameFrame_of_swap (replace_swap (fun prev m rest _ found => ?_) text)
  obtain ⟨b, gap, whole, groups⟩ := internal_reads (found_reads found)
  have free : 0x2A ≠ b := by
    rintro rfl
    contradiction
  have group : m.group 1 = [b] := by rw [Match.group, groups]; rfl
  rw [whole, group]
  refine aside_plain rest ?_ ?_ ?_ ?_
  · exact startsOff_append (startsOff_of_head (by decide)) _
  · exact startsOff_append (startsOff_of_head (by decide)) _
  · simp only [List.mem_append, List.mem_singleton, free, or_false]
    decide
  · simp only [List.mem_append, List.mem_singleton, free, or_false]
    decide

theorem property_reads {command : String} {prev : Option UInt8} {x rest : Text}
    {g : Groups UInt8} (reads : Reads (propertyPatternFor command) prev x rest g) :
    ∃ lead stem brackets mid dollar name tail,
      x = command ++ (lead ++ (stem ++ (brackets ++ (mid ++ (dollar ++ name))))) ++ tail ∧
      (∀ b ∈ lead, isGap b = true) ∧ (∀ b ∈ stem, isTypeByte b = true) ∧
      (brackets = ofString "[]" ∨ brackets = []) ∧ (∀ b ∈ mid, isGap b = true) ∧
      (dollar = ofString "$" ∨ dollar = []) ∧ (name ≠ [] ∧ ∀ b ∈ name, isWordByte b = true) ∧
      g.lookup 1 = some (stem ++ brackets) ∧ g.lookup 3 = some name ∧ g.lookup 4 = some tail := by
  simp only [propertyPatternFor, seqs, lit, gaps, words, dots, reads_seq, reads_group, reads_word,
    reads_plus_one, reads_opt, reads_star_one] at reads
  obtain ⟨_, _, _, _, rfl, rfl, ⟨rfl, rfl⟩, lead, _, _, _, rfl, rfl, ⟨_, leadAll, rfl⟩,
    _, _, _, _, rfl, rfl, ⟨_, rfl, stem, brackets, _, _, rfl, rfl, ⟨_, stemAll, rfl⟩, array⟩,
    mid, _, _, _, rfl, rfl, ⟨_, midAll, rfl⟩, dollar, _, sigils, _, rfl, rfl, sigil,
    name, tail, _, _, rfl, rfl, ⟨_, rfl, some_, nameAll, rfl⟩, _, rfl, _, rfl⟩ := reads
  have noGroup : sigils = [] := by
    rcases sigil with ⟨_, none_⟩ | ⟨_, none_⟩ <;> exact none_
  subst noGroup
  refine ⟨lead, stem, brackets, mid, dollar, name, tail, by simp, leadAll, stemAll, ?_, midAll, ?_,
    ⟨some_, nameAll⟩, rfl, rfl, rfl⟩
  · rcases array with ⟨_, _, rfl, _⟩ | ⟨rfl, _⟩
    · exact .inl rfl
    · exact .inr rfl
  · rcases sigil with ⟨rfl, _⟩ | ⟨rfl, _⟩
    · exact .inl rfl
    · exact .inr rfl

theorem property_aside {command : String} {closing : Text}
    (off : StartsOff isFrame (ofString command)) (free : 0x2A ∉ ofString command)
    (freeClosing : 0x2A ∉ closing) {prev : Option UInt8} {m : Match UInt8} {rest : Text}
    (found : (propertyPatternFor command).matchAt? prev (m.text ++ rest) = some m) :
    Aside m.text ("@remark Property <b>" ++ m.group 3 ++ "</b> <em>(" ++ m.group 1 ++ closing
      ++ m.group 4) rest := by
  obtain ⟨lead, stem, brackets, mid, dollar, name, tail, whole, leadAll, stemAll, array, midAll,
    sigil, ⟨_, nameAll⟩, one, three, four⟩ := property_reads (found_reads found)
  have freeLead : 0x2A ∉ lead := not_mem_of_all leadAll (by decide)
  have freeMid : 0x2A ∉ mid := not_mem_of_all midAll (by decide)
  have freeName : 0x2A ∉ name := not_mem_of_all nameAll (by decide)
  have freeStem : 0x2A ∉ stem := not_mem_of_all stemAll (by decide)
  have freeDollar : 0x2A ∉ dollar := by
    rcases sigil with rfl | rfl <;> decide
  have freeBrackets : 0x2A ∉ brackets := by
    rcases array with rfl | rfl <;> decide
  simp only [Match.group, one, three, four, Option.getD_some]
  rw [whole]
  refine aside_of_no_star tail rest ?_ ?_ ?_ ?_
  · exact startsOff_append off _
  · have start : StartsOff isFrame (ofString "@remark Property <b>") :=
      startsOff_of_head (by decide)
    exact startsOff_append (startsOff_append (startsOff_append (startsOff_append start _) _) _) _
  · simp [free, freeLead, freeStem, freeBrackets, freeMid, freeDollar, freeName]
  · simp only [List.mem_append, freeName, freeStem, freeBrackets, freeClosing, or_false, not_or]
    decide

theorem properties_frame (text : Text) : SameFrame text (properties text) := by
  refine sameFrame_of_swap (replace_swap (fun prev m rest _ found => ?_) text)
  exact property_aside (startsOff_of_head (by decide)) (by decide) (by decide) found

theorem readOnlyProperties_frame (text : Text) : SameFrame text (readOnlyProperties text) := by
  refine sameFrame_of_swap (replace_swap (fun prev m rest _ found => ?_) text)
  exact property_aside (startsOff_of_head (by decide)) (by decide) (by decide) found

theorem mem_of_mem_splitOn {sep b : UInt8} {text part : Text} (member : part ∈ splitOn sep text)
    (inside : b ∈ part) : b ∈ text := by
  induction text generalizing part with
  | nil =>
    rw [splitOn, List.mem_singleton] at member
    rw [member] at inside
    exact inside
  | cons c rest ih =>
    rw [splitOn] at member
    split at member
    · rw [List.mem_singleton.mp member] at inside
      simp at inside
    · rename_i first others parts
      rw [parts] at ih
      split at member
      · rcases List.mem_cons.mp member with rfl | later
        · simp at inside
        · exact List.mem_cons_of_mem c (ih later inside)
      · rcases List.mem_cons.mp member with rfl | later
        · rcases List.mem_cons.mp inside with rfl | deeper
          · exact List.mem_cons_self
          · exact List.mem_cons_of_mem c (ih List.mem_cons_self deeper)
        · exact List.mem_cons_of_mem c (ih (List.mem_cons_of_mem _ later) inside)

theorem not_mem_join {b : UInt8} {sep : Text} {parts : List Text} (free : b ∉ sep)
    (each : ∀ part ∈ parts, b ∉ part) : b ∉ join sep parts := by
  match parts with
  | [] => simp [join]
  | [part] => exact each part (by simp)
  | part :: next :: parts =>
    have later := not_mem_join free fun p member => each p (List.mem_cons_of_mem part member)
    rw [join]
    · simp [each part (by simp), free, later]
    · simp

def retvalWords : List Text := ["@retval ", "array", " | ", " "]

theorem not_mem_retval {b : UInt8} {types : Text} (words : ∀ w ∈ retvalWords, b ∉ w)
    (free : b ∉ types) : b ∉ retval types := by
  have command : b ∉ ofString "@retval " := words _ (by simp [retvalWords])
  have array : b ∉ ofString "array" := words _ (by simp [retvalWords])
  have bar : b ∉ ofString " | " := words _ (by simp [retvalWords])
  have blank : b ∉ ofString " " := words _ (by simp [retvalWords])
  have each : ∀ part ∈ splitOn 0x7C types, b ∉ part :=
    fun part member inside => free (mem_of_mem_splitOn member inside)
  have plain : b ∉ join " | " ((splitOn 0x7C types).map fun t =>
      if isTypedArray t then ofString "array" else t) := by
    refine not_mem_join bar fun part member => ?_
    obtain ⟨t, inside, rfl⟩ := List.mem_map.mp member
    split
    · exact array
    · exact each t inside
  have listed : b ∉ join " | " (splitOn 0x7C types) := not_mem_join bar each
  simp only [retval, List.mem_append, plain, command, or_false, false_or]
  split
  · simp only [List.mem_append, listed, blank, or_false, not_false_eq_true]
  · exact List.not_mem_nil

theorem return_reads {prev : Option UInt8} {x rest : Text} {g : Groups UInt8}
    (reads : Reads returnPattern prev x rest g) :
    ∃ plural lead types, x = "@return" ++ (plural ++ (lead ++ types)) ∧
      (plural = ofString "s" ∨ plural = []) ∧ (∀ b ∈ lead, isGap b = true) ∧
      (types ≠ [] ∧ ∀ b ∈ types, isTypeListByte b = true) ∧ g.lookup 1 = some types := by
  simp only [returnPattern, seqs, lit, gaps, reads_seq, reads_group, reads_word, reads_plus_one,
    reads_opt] at reads
  obtain ⟨_, _, _, _, rfl, rfl, ⟨rfl, rfl⟩, plural, _, _, _, rfl, rfl, ending, lead, types, _, _,
    rfl, rfl, ⟨_, leadAll, rfl⟩, _, rfl, some_, typesAll, rfl⟩ := reads
  refine ⟨plural, lead, types, rfl, ?_, leadAll, ⟨some_, typesAll⟩, rfl⟩
  rcases ending with ⟨rfl, _⟩ | ⟨rfl, _⟩
  · exact .inl rfl
  · exact .inr rfl

theorem returns_frame (text : Text) : SameFrame text (returns text) := by
  refine sameFrame_of_swap (replace_swap (fun prev m rest _ found => ?_) text)
  obtain ⟨plural, lead, types, whole, ending, leadAll, ⟨_, typesAll⟩, one⟩ :=
    return_reads (found_reads found)
  have freeLead : 0x2A ∉ lead := not_mem_of_all leadAll (by decide)
  have freeTypes : 0x2A ∉ types := not_mem_of_all typesAll (by decide)
  have freePlural : 0x2A ∉ plural := by
    rcases ending with rfl | rfl <;> decide
  simp only [Match.group, one, Option.getD_some]
  rw [whole]
  refine aside_plain rest (startsOff_append (startsOff_of_head (by decide)) _) ?_ ?_ ?_
  · rw [retval, List.append_assoc]
    exact startsOff_append (startsOff_of_head (by decide)) _
  · simp only [List.mem_append, freePlural, freeLead, freeTypes, or_false]
    decide
  · exact not_mem_retval (by decide) freeTypes

theorem fileCommand_without_feed {text : Text} (free : 0x0A ∉ text) : fileCommand text = text := by
  have feed : ofString "\n" = [0x0A] := by decide
  rw [fileCommand, replaceFirst, feed, cut_missing (List.mem_singleton_self _) free]

theorem fileCommand_line {line : Text} (one : 0x0A ∉ line) (rest : Text) :
    fileCommand (line ++ 0x0A :: rest) = line ++ (" @file\n" ++ rest) := by
  have feed : ofString "\n" = [0x0A] := by decide
  rw [fileCommand, replaceFirst, feed, cut_byte one]
  exact List.append_assoc _ _ _

theorem fileCommand_frame (text : Text) : SameFrame text (fileCommand text) := by
  unfold fileCommand replaceFirst
  split
  · rename_i before after cut
    rw [cut_split cut, List.append_assoc]
    have feed : ofString "\n" = [0x0A] := by decide
    have command : ofString " @file\n" = [0x20, 0x40, 0x66, 0x69, 0x6C, 0x65, 0x0A] := by decide
    have even : Even "\n" " @file\n" after := by
      refine ⟨⟨startsOff_of_head (by decide), startsOff_of_head (by decide)⟩, by decide, ?_, ?_⟩
      · rw [seam_of_last (by decide), seam_of_last (by decide)]
      · have none_ := not_closes_of_no_star (t := ofString " @file\n") (by decide)
        have none_' := not_closes_of_no_star (t := ofString "\n") (by decide)
        simp only [none_, none_']
    have alike := alike_of_swap (swap_append before (.swap even (swap_refl Even after)))
    refine ⟨?_, alike.closes, alike.count⟩
    -- The line break may be the white space of the opener; then a blank takes its place.
    rw [feed, command]
    match before with
    | [] => simp [Opens]
    | [a] => simp [Opens]
    | [a, b] => simp [Opens]
    | [a, b, c] =>
      have blank : isSpace 0x20 = isSpace 0x0A := by decide
      simp only [List.cons_append, List.nil_append, opens_cons, blank]
    | a :: b :: c :: d :: before => simp only [List.cons_append, opens_cons]
  · exact ⟨Iff.rfl, Iff.rfl, rfl⟩

theorem varLine_reads {prev : Option UInt8} {x rest : Text} {g : Groups UInt8}
    (reads : Reads varLinePattern prev x rest g) : ∃ w, x = "@var " ++ w := by
  simp only [varLinePattern, lit, dots, reads_seq, reads_word] at reads
  obtain ⟨_, w, _, _, rfl, _, ⟨rfl, _⟩, _⟩ := reads
  exact ⟨w, rfl⟩

theorem trimEnd_append (p : UInt8 → Bool) (s : Text) :
    ∃ blanks, s = trimEnd p s ++ blanks ∧ ∀ b ∈ blanks, p b = true := by
  refine ⟨(s.reverse.takeWhile p).reverse, ?_, ?_⟩
  · rw [trimEnd, ← List.reverse_append, List.takeWhile_append_dropWhile, List.reverse_reverse]
  · intro b member
    exact List.all_eq_true.mp List.all_takeWhile b (List.mem_reverse.mp member)

theorem trimEnd_cons {p : UInt8 → Bool} {b : UInt8} (refused : p b = false) (s : Text) :
    ∃ rest, trimEnd p (b :: s) = b :: rest := by
  obtain ⟨blanks, whole, all⟩ := trimEnd_append p (b :: s)
  cases trimmed : trimEnd p (b :: s) with
  | nil =>
    rw [trimmed, List.nil_append] at whole
    rw [all b (by simp [← whole])] at refused
    contradiction
  | cons c rest =>
    rw [trimmed] at whole
    cases whole
    exact ⟨rest, rfl⟩

theorem cutEnd_terminator (line : Text) :
    (cutEnd? "*/" line = none ∧ ¬ Closes line) ∨
      ∃ body, cutEnd? "*/" line = some body ∧ line = body ++ [0x2A, 0x2F] := by
  have bytes : ofString "*/" = [0x2A, 0x2F] := by decide
  unfold cutEnd?
  rw [bytes]
  by_cases closes : [0x2A, 0x2F] <:+ line
  · obtain ⟨body, rfl⟩ := closes
    exact .inr ⟨body, by simp, rfl⟩
  · exact .inl ⟨by simp [closes], closes⟩

theorem head_of_no_slash {t back : Text} (free : 0x2F ∉ t) (head : back.head? ≠ some 0x2F) :
    (t ++ back).head? ≠ some 0x2F := by
  cases t with
  | nil => exact head
  | cons b t =>
    simp only [List.mem_cons, not_or] at free
    simpa using Ne.symm free.1

theorem aside_insert {front added back rest : Text} (off : StartsOff isFrame front)
    (free : 0x2F ∉ added) (head : back.head? ≠ some 0x2F) (stop : rest.head? ≠ some 0x2F)
    (closes : Closes (front ++ (added ++ back)) ↔ Closes (front ++ back)) :
    Aside (front ++ back) (front ++ (added ++ back)) rest := by
  have before := startsOff_append off back
  have after := startsOff_append off (added ++ back)
  refine ⟨⟨⟨startsOff_slash before, startsOff_slash after⟩, ?_, ?_, closes⟩, before, after⟩
  · rw [terminators_append, terminators_append added, terminators_append front,
      terminators_of_no_slash free, seam_of_head head, seam_of_head head,
      seam_of_head (head_of_no_slash free head)]
    omega
  · rw [seam_of_head stop, seam_of_head stop]

theorem annotateLine_aside {name line rest : Text} (freeSlash : 0x2F ∉ name)
    (stop : rest.head? ≠ some 0x2F) (start : ∃ w, line = 0x40 :: w) :
    Aside line (annotateLine name line) rest := by
  have at_ : isFrame 0x40 = false := by decide
  have blank : ofString " " = [0x20] := by decide
  have free : 0x2F ∉ 0x20 :: name := by simpa using freeSlash
  obtain ⟨w, rfl⟩ := start
  rcases cutEnd_terminator (0x40 :: w) with ⟨none_, open_⟩ | ⟨body, some_, whole⟩
  · have off : StartsOff isFrame (0x40 :: w) := ⟨0x40, w, rfl, at_⟩
    have closes : Closes (0x40 :: w ++ ((0x20 :: name) ++ [])) ↔ Closes (0x40 :: w ++ []) := by
      rw [List.append_nil, List.append_nil, closes_append]
      simp [not_closes_of_no_slash free, open_]
    have aside := aside_insert off free (by simp) stop closes
    rw [List.append_nil, List.append_nil] at aside
    simp only [annotateLine, none_, blank, List.append_assoc, List.singleton_append]
    exact aside
  · obtain ⟨blanks, body_, all⟩ := trimEnd_append isBlank body
    have line_ : 0x40 :: w = trimEnd isBlank body ++ (blanks ++ [0x2A, 0x2F]) := by
      rw [whole, ← List.append_assoc, ← body_]
    have dropped : (0x40 :: w).drop (trimEnd isBlank body).length = blanks ++ [0x2A, 0x2F] := by
      rw [line_, List.drop_left]
    have off : StartsOff isFrame (trimEnd isBlank body) := by
      cases body with
      | nil => cases whole
      | cons b body =>
        cases whole
        obtain ⟨rest', trimmed⟩ := trimEnd_cons (p := isBlank) (b := 0x40) (by decide) body
        exact ⟨0x40, rest', trimmed, at_⟩
    have close (x : Text) : Closes (x ++ (blanks ++ [0x2A, 0x2F])) := by
      rw [← List.append_assoc]
      exact List.suffix_append _ _
    have head : (blanks ++ [0x2A, 0x2F]).head? ≠ some 0x2F :=
      head_of_no_slash (not_mem_of_all all (by decide)) (by simp)
    have closes : Closes (trimEnd isBlank body ++ ((0x20 :: name) ++ (blanks ++ [0x2A, 0x2F]))) ↔
        Closes (trimEnd isBlank body ++ (blanks ++ [0x2A, 0x2F])) := by
      rw [← List.append_assoc]
      exact iff_of_true (close _) (close _)
    have aside := aside_insert off free head stop closes
    simp only [annotateLine, some_, dropped, blank, List.append_assoc, List.singleton_append]
    rw [line_]
    exact aside

theorem annotateVar_frame {name : Text} (freeSlash : 0x2F ∉ name) (text : Text) :
    SameFrame text (annotateVar name text) := by
  refine sameFrame_of_swap (replace_swap (fun prev m rest _ found => ?_) text)
  have sated : Sated notNewline varLinePattern := sated_seq _ (sated_star notNewline)
  have stop : rest.head? ≠ some 0x2F := by
    intro slash
    have := matchAt_sated sated found 0x2F slash
    contradiction
  refine annotateLine_aside freeSlash stop ?_
  obtain ⟨w, whole⟩ := varLine_reads (found_reads found)
  exact ⟨_, whole⟩

end DocBridge.Rule
