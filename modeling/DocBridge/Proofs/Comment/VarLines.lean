import DocBridge.Proofs.Comment.Rules
import DocBridge.Proofs.Pattern.Preference
import DocBridge.Proofs.Text.Split

/-
Naming the variable of a comment works line by line and only inserts. A match of the rule runs from
the first tag of a line to the end of that line, so each line has at most one; main statement:
`annotateVar_names_lines`.
-/
namespace DocBridge.Rule

open Text Pattern DocBridge.Frame

/-- What becomes of a line: without a tag it stays; with one the name goes to its end, or, if it
closes the comment, before the terminator and the blanks in front of it. The blanks reach back to
the first tag at most. -/
inductive NamedLine (name : Text) : Text → Text → Prop
  | untagged {line : Text} (none_ : contains "@var " line = false) : NamedLine name line line
  | atEnd {line : Text} (tagged : contains "@var " line = true) (open_ : ¬ Closes line) :
      NamedLine name line (line ++ (" " ++ name))
  | beforeEnd {front type blanks : Text}
      (first : indexOf? "@var " (front ++ ("@var" ++ (type ++ (blanks ++ "*/"))))
        = some front.length)
      (run : ∀ b ∈ blanks, isBlank b = true)
      (whole : ∀ b ∈ ("@var" ++ type).getLast?, isBlank b = false) :
      NamedLine name (front ++ ("@var" ++ (type ++ (blanks ++ "*/"))))
        (front ++ ("@var" ++ (type ++ ((" " ++ name) ++ (blanks ++ "*/")))))

theorem trimEnd_behind {p : UInt8 → Bool} {a : Text} {b : UInt8} (last : a.getLast? = some b)
    (refused : p b = false) (s : Text) : trimEnd p (a ++ s) = a ++ trimEnd p s := by
  have stays : a.reverse.dropWhile p = a.reverse := by
    rw [← List.head?_reverse] at last
    cases reversed : a.reverse with
    | nil => rfl
    | cons c rest =>
      rw [reversed, List.head?_cons, Option.some.injEq] at last
      rw [last, List.dropWhile_cons, refused]
      rfl
  rw [trimEnd, trimEnd, List.reverse_append, List.dropWhile_append, stays]
  split
  · rename_i empty
    rw [List.isEmpty_iff.mp empty]
    simp
  · simp

theorem trimEnd_last {p : UInt8 → Bool} (s : Text) : ∀ b ∈ (trimEnd p s).getLast?, p b = false := by
  intro b last
  rw [trimEnd, List.getLast?_reverse] at last
  have := List.head?_dropWhile_not p s.reverse
  rw [Option.mem_def] at last
  rw [last] at this
  simpa using this

def EndsLine (rest : Text) : Prop := ∀ b ∈ rest.head?, b = 0x0A

theorem varLine_match {w rest : Text} (one : 0x0A ∉ w) (ends : EndsLine rest)
    (prev : Option UInt8) :
    varLinePattern.matchAt? prev ("@var " ++ w ++ rest) = some ⟨"@var " ++ w, []⟩ := by
  let full : Text := "@var " ++ w ++ rest
  have here := start_within prev full
  have split : (Place.start prev full).rest = "@var " ++ (w ++ rest) := List.append_assoc _ _ _
  obtain ⟨t, tag⟩ := takes_word (k := run dots some) here split
  obtain ⟨u, line⟩ : ∃ u, Takes full dots some t u w [] := by
    apply takes_greedy tag.lead.within (leads_rest tag.lead split) (notNewline_iff.mpr one)
    · intro y z t whole some_ all _
      obtain ⟨b, y, rfl⟩ := List.exists_cons_of_ne_nil some_
      have feed : b = 0x0A := ends b (by rw [whole]; rfl)
      have other := all b List.mem_cons_self
      rw [feed] at other
      contradiction
    · simp
  exact matchAt_takes (takes_seq tag line)

theorem tag_startsOff (w : Text) : StartsOff (· == 0x2F) ("@var " ++ w) :=
  startsOff_append (startsOff_of_head (by decide)) w

/-- The rule on a text behind `prev`. -/
def annotateAfter (name : Text) (prev : Option UInt8) (text : Text) : Text :=
  varLinePattern.replaceAfter (fun m => annotateLine name m.text) prev text

theorem annotateVar_eq (name text : Text) : annotateVar name text = annotateAfter name none text :=
  rfl

theorem annotateAfter_skip (name : Text) {front rest : Text}
    (free : ∀ t, t ≠ [] → t <:+ front → ¬ ofString "@var " <+: t ++ rest) (prev : Option UInt8) :
    annotateAfter name prev (front ++ rest)
      = front ++ annotateAfter name (lastOf prev front) rest := by
  apply replaceAfter_skip
  intro t some_ inside prev x r g whole _ reads
  obtain ⟨w, rfl⟩ := varLine_reads reads
  rw [List.append_assoc] at whole
  exact free t some_ inside ⟨w ++ r, whole.symm⟩

theorem tag_before_end {t rest : Text} (ends : EndsLine rest)
    (here : ofString "@var " <+: t ++ rest) : ofString "@var " <+: t := by
  apply prefix_before _ here
  intro b head
  rw [ends b head]
  decide

theorem annotateAfter_untagged (name : Text) {line rest : Text} (ends : EndsLine rest)
    (none_ : contains "@var " line = false) (prev : Option UInt8) :
    annotateAfter name prev (line ++ rest)
      = line ++ annotateAfter name (lastOf prev line) rest := by
  apply annotateAfter_skip
  intro t _ inside here
  exact not_prefix_of_contains none_ inside (tag_before_end ends here)

theorem annotateAfter_tagged (name : Text) {front w rest : Text} (ends : EndsLine rest)
    (one : 0x0A ∉ w) (first : indexOf? "@var " (front ++ ("@var " ++ w)) = some front.length)
    (prev : Option UInt8) : ∃ prev', annotateAfter name prev (front ++ ("@var " ++ w) ++ rest)
      = front ++ annotateLine name ("@var " ++ w) ++ annotateAfter name prev' rest := by
  have skipped : annotateAfter name prev (front ++ ("@var " ++ w ++ rest))
      = front ++ annotateAfter name (lastOf prev front) ("@var " ++ w ++ rest) := by
    apply annotateAfter_skip
    intro t some_ inside here
    obtain ⟨u, rfl⟩ := inside
    rw [← List.append_assoc] at here
    have earlier : u.length < (u ++ t).length := by
      rw [List.length_append]
      have := List.length_pos_iff.mpr some_
      omega
    apply indexOf_first first u.length earlier
    rw [List.append_assoc, List.drop_left]
    exact tag_before_end ends here
  have taken : ofString "@var " ++ w ≠ [] := startsOff_ne_nil (tag_startsOff w)
  have hit := replaceAfter_hit (f := fun m => annotateLine name m.text)
    (m := ⟨"@var " ++ w, []⟩) taken (varLine_match one ends (lastOf prev front))
  refine ⟨(ofString "@var " ++ w).getLast?, ?_⟩
  rw [List.append_assoc front, skipped, List.append_assoc front]
  exact congrArg (front ++ ·) hit

theorem namedLine_tagged (name : Text) {front w : Text}
    (first : indexOf? "@var " (front ++ ("@var " ++ w)) = some front.length) :
    NamedLine name (front ++ ("@var " ++ w)) (front ++ annotateLine name ("@var " ++ w)) := by
  have tag : ofString "@var " = "@var" ++ ofString " " := by decide
  rcases cutEnd_terminator ("@var " ++ w) with ⟨none_, open_⟩ | ⟨body, some_, whole⟩
  · have added : front ++ annotateLine name ("@var " ++ w)
        = (front ++ ("@var " ++ w)) ++ (" " ++ name) := by
      simp only [annotateLine, none_, List.append_assoc]
    rw [added]
    apply NamedLine.atEnd
    · rw [contains, first]
      rfl
    · rw [closes_append_startsOff (tag_startsOff w)]
      exact open_
  · -- The terminator lies behind the tag, which holds no star.
    have closes : Closes ("@var " ++ w) := ⟨body, whole.symm⟩
    have behind : Closes w := by
      rw [closes_append] at closes
      rcases closes with inside | ⟨-, star⟩ | ⟨-, alone⟩
      · exact inside
      · exact absurd star (by decide)
      · exact absurd alone (not_closes_of_no_star (by decide))
    obtain ⟨w, rfl⟩ := behind
    have body_ : body = "@var" ++ (" " ++ w) := by
      rw [← List.append_assoc, List.append_left_inj] at whole
      rw [← whole, tag, List.append_assoc]
    have trimmed : trimEnd isBlank body = "@var" ++ trimEnd isBlank (" " ++ w) := by
      rw [body_]
      exact trimEnd_behind (b := 0x72) (by decide) (by decide) _
    obtain ⟨blanks, rest, run⟩ := trimEnd_append isBlank (" " ++ w)
    have line : ofString "@var " ++ (w ++ [0x2A, 0x2F])
        = ofString "@var" ++ (trimEnd isBlank (" " ++ w) ++ (blanks ++ ofString "*/")) := by
      rw [tag, List.append_assoc, ← List.append_assoc (ofString " "), ← List.append_assoc _ blanks,
        ← rest]
      rfl
    have dropped : (ofString "@var " ++ (w ++ [0x2A, 0x2F])).drop (trimEnd isBlank body).length
        = blanks ++ ofString "*/" := by
      rw [trimmed, line, ← List.append_assoc, List.drop_left]
    have named : annotateLine name (ofString "@var " ++ (w ++ [0x2A, 0x2F]))
        = ofString "@var"
          ++ (trimEnd isBlank (" " ++ w) ++ ((" " ++ name) ++ (blanks ++ "*/"))) := by
      rw [annotateLine, some_]
      simp only [dropped]
      rw [trimmed]
      simp only [List.append_assoc]
    rw [named]
    rw [line] at first ⊢
    apply NamedLine.beforeEnd first run
    rw [← trimmed]
    exact trimEnd_last body

theorem annotateAfter_line (name : Text) {line rest : Text} (one : 0x0A ∉ line)
    (ends : EndsLine rest) (prev : Option UInt8) : ∃ out prev', NamedLine name line out ∧
      annotateAfter name prev (line ++ rest) = out ++ annotateAfter name prev' rest := by
  cases found : indexOf? "@var " line with
  | none =>
    have none_ : contains "@var " line = false := by
      rw [contains, found]
      rfl
    exact ⟨line, _, .untagged none_, annotateAfter_untagged name ends none_ prev⟩
  | some i =>
    obtain ⟨w, behind⟩ := indexOf_prefix found
    have split : line = line.take i ++ ("@var " ++ w) := by
      rw [behind, List.take_append_drop]
    have inside := indexOf_le found
    have length : (line.take i).length = i := by
      rw [List.length_take]
      omega
    rw [← length] at found
    generalize line.take i = front at split found
    subst split
    rw [List.mem_append, List.mem_append, not_or, not_or] at one
    obtain ⟨prev', same⟩ := annotateAfter_tagged name ends one.2.2 found prev
    exact ⟨_, prev', namedLine_tagged name found, same⟩

theorem annotateAfter_feed (name : Text) (prev : Option UInt8) (rest : Text) :
    annotateAfter name prev (0x0A :: rest) = 0x0A :: annotateAfter name (some 0x0A) rest := by
  have copied : annotateAfter name prev ([0x0A] ++ rest)
      = [0x0A] ++ annotateAfter name (some 0x0A) rest := by
    apply annotateAfter_skip
    intro t some_ inside found
    rcases List.suffix_cons_iff.mp inside with rfl | shorter
    · exact absurd (List.cons_prefix_cons.mp found).1 (by decide)
    · exact some_ (List.suffix_nil.mp shorter)
  exact copied

theorem annotateAfter_lines (name : Text) {lines : List Text} (some_ : lines ≠ [])
    (one : ∀ line ∈ lines, 0x0A ∉ line) (prev : Option UInt8) :
    ∃ outs, outs.length = lines.length ∧
      (∀ pair ∈ lines.zip outs, NamedLine name pair.1 pair.2) ∧
      annotateAfter name prev (join "\n" lines) = join "\n" outs := by
  induction lines generalizing prev with
  | nil => contradiction
  | cons line lines ih =>
    obtain ⟨here, later⟩ := List.forall_mem_cons.mp one
    by_cases last : lines = []
    · subst last
      have ends : EndsLine [] := by simp [EndsLine]
      obtain ⟨out, prev', named, same⟩ := annotateAfter_line name here ends prev
      refine ⟨[out], rfl, by simpa using named, ?_⟩
      have nothing : annotateAfter name prev' [] = [] := replaceAfter_nil
      rw [List.append_nil, nothing, List.append_nil] at same
      exact same
    · have feed : ofString "\n" = [0x0A] := by decide
      have ends : EndsLine (0x0A :: join "\n" lines) := by simp [EndsLine]
      obtain ⟨out, prev', named, same⟩ := annotateAfter_line name here ends prev
      obtain ⟨outs, length, all, same'⟩ := ih last later (some 0x0A)
      have more : outs ≠ [] := by
        intro none_
        rw [none_] at length
        exact last (List.eq_nil_of_length_eq_zero length.symm)
      refine ⟨out :: outs, by simp [length], ?_, ?_⟩
      · rw [List.zip_cons_cons]
        exact List.forall_mem_cons.mpr ⟨named, all⟩
      · rw [join_cons last, join_cons more, ← same', feed]
        exact same.trans (congrArg (out ++ ·) (annotateAfter_feed name prev' _))

theorem namedLine_free {name line out : Text} (named : NamedLine name line out)
    (oneName : 0x0A ∉ name) (one : 0x0A ∉ line) : 0x0A ∉ out := by
  have blank : 0x0A ∉ ofString " " := by decide
  cases named with
  | untagged => exact one
  | atEnd =>
    simp only [List.mem_append, not_or]
    exact ⟨one, blank, oneName⟩
  | beforeEnd =>
    simp only [List.mem_append, not_or] at one ⊢
    exact ⟨one.1, one.2.1, one.2.2.1, ⟨blank, oneName⟩, one.2.2.2⟩

/-- Naming the variable maps a text line by line and leaves their number as it is; what a line
becomes is said by `NamedLine`. A name without line breaks keeps the lines apart. -/
theorem annotateVar_names_lines (name text : Text) :
    ∃ outs, annotateVar name text = join "\n" outs ∧
      outs.length = (splitOn 0x0A text).length ∧
      (∀ pair ∈ (splitOn 0x0A text).zip outs, NamedLine name pair.1 pair.2) ∧
      (0x0A ∉ name → splitOn 0x0A (annotateVar name text) = outs) := by
  obtain ⟨outs, length, all, same⟩ :=
    annotateAfter_lines name (splitOn_ne_nil 0x0A text) not_mem_splitOn none
  have feed : ofString "\n" = [0x0A] := by decide
  have whole : annotateVar name text = join "\n" outs := by
    rw [annotateVar_eq, ← same, feed, join_splitOn]
  refine ⟨outs, whole, length, all, fun oneName => ?_⟩
  have some_ : outs ≠ [] := by
    intro none_
    rw [none_] at length
    exact splitOn_ne_nil 0x0A text (List.eq_nil_of_length_eq_zero length.symm)
  have clean : ∀ out ∈ outs, 0x0A ∉ out := by
    intro out member
    obtain ⟨i, inside, rfl⟩ := List.getElem_of_mem member
    have both : i < ((splitOn 0x0A text).zip outs).length := by
      rw [List.length_zip]
      omega
    have paired : ((splitOn 0x0A text)[i], outs[i]) ∈ (splitOn 0x0A text).zip outs := by
      rw [← List.getElem_zip (h := both)]
      exact List.getElem_mem both
    exact namedLine_free (all _ paired) oneName (not_mem_splitOn _ (List.getElem_mem _))
  rw [whole, feed, splitOn_join some_ clean]

end DocBridge.Rule
