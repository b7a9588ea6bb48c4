import DocBridge.Comment.Dialect
import DocBridge.Proofs.Token.Lines
import Mathlib.Data.List.Induction

/-
The search for the variable of a comment, in terms of offsets from the cursor. The window may lie
anywhere: what counts are the offsets up to which every position from the first one on is a position
of the sequence. The search finds the variable at the least of these, and the line it gives is that
of the last token it has passed over, bare characters aside.
-/
namespace DocBridge

def Cursor.At (c : Cursor) (o : Int) (t : Token) : Prop := tokenAt c.tokens (c.index + o) = some t

theorem Cursor.at_mem {c : Cursor} {o : Int} {t : Token} (here : c.At o t) : t ∈ c.tokens := by
  unfold Cursor.At tokenAt at here
  split at here
  · contradiction
  · exact List.mem_of_getElem? here

namespace Dialect

/-- `o` is an offset of the window, and from its first offset to `o` all positions are positions of
the sequence. -/
def Readable (c : Cursor) (l : Lookahead) (o : Int) : Prop :=
  l.min ≤ o ∧ o ≤ l.max ∧
    ∀ p, l.min ≤ p → p ≤ o → 0 ≤ c.index + p ∧ c.index + p < c.tokens.length

def Passed (c : Cursor) (l : Lookahead) (o : Int) : Prop :=
  Readable c l o ∧ ∀ p t, l.min ≤ p → p ≤ o → c.At p t → t.kind ≠ .variableName

def FirstVariable (c : Cursor) (l : Lookahead) (o : Int) (t : Token) : Prop :=
  Readable c l o ∧ c.At o t ∧ t.kind = .variableName ∧
    ∀ p t', l.min ≤ p → p < o → c.At p t' → t'.kind ≠ .variableName

def LastLine (c : Cursor) (l : Lookahead) (line : Nat) : Prop :=
  (∃ o t, Passed c l o ∧ c.At o t ∧ t.kind ≠ .char ∧ line = t.line ∧
    ∀ p t', o < p → Passed c l p → c.At p t' → t'.kind = .char) ∨
  ((∀ o t, Passed c l o → c.At o t → t.kind = .char) ∧ line = 0)

/-- None of the sums that the search forms leaves the 64-bit words: neither the positions at both
ends of the window nor, counting on, the offset after one that was passed. -/
structure SumsFit (c : Cursor) (l : Lookahead) : Prop where
  first : -Cursor.greatestWord - 1 ≤ c.index + l.min
  last : c.index + l.max ≤ Cursor.greatestWord
  next : ∀ o, Passed c l o → o + 1 ≤ Cursor.greatestWord

def lineAfter (line : Nat) (passed : List Token) : Nat :=
  passed.foldl (fun line t => if t.kind = .char then line else t.line) line

theorem lineAfter_last (line : Nat) (passed : List Token) :
    (∃ front t back, passed = front ++ t :: back ∧ t.kind ≠ .char ∧ (∀ u ∈ back, u.kind = .char) ∧
      lineAfter line passed = t.line) ∨
    ((∀ t ∈ passed, t.kind = .char) ∧ lineAfter line passed = line) := by
  induction passed using List.reverseRecOn with
  | nil => exact .inr ⟨by simp, rfl⟩
  | append_singleton passed t ih =>
    have step : lineAfter line (passed ++ [t])
        = if t.kind = .char then lineAfter line passed else t.line := by
      rw [lineAfter, List.foldl_append]
      rfl
    by_cases char : t.kind = .char
    · rw [step, if_pos char]
      rcases ih with ⟨front, u, back, rfl, solid, chars, same⟩ | ⟨chars, same⟩
      · refine .inl ⟨front, u, back ++ [t], by simp, solid, ?_, same⟩
        simpa [or_imp, forall_and, char] using chars
      · refine .inr ⟨?_, same⟩
        simpa [or_imp, forall_and, char] using chars
    · rw [step, if_neg char]
      exact .inl ⟨passed, t, [], rfl, char, by simp, rfl⟩

/-- The search stops at the first variable or at the end; what it gives is read off the tokens in
front of that place. -/
theorem firstVariable_cases (line : Nat) (tokens : List Token) :
    (∃ passed v rest, tokens = passed ++ v :: rest ∧ v.kind = .variableName ∧
      (∀ t ∈ passed, t.kind ≠ .variableName) ∧
      firstVariable line tokens = (some v, lineAfter line passed)) ∨
    ((∀ t ∈ tokens, t.kind ≠ .variableName) ∧
      firstVariable line tokens = (none, lineAfter line tokens)) := by
  induction tokens generalizing line with
  | nil => exact .inr ⟨by simp, rfl⟩
  | cons t rest ih =>
    by_cases isVar : t.kind = .variableName
    · refine .inl ⟨[], t, rest, rfl, isVar, by simp, ?_⟩
      simp [firstVariable, isVar, lineAfter]
    · have step : firstVariable line (t :: rest)
          = firstVariable (lineAfter line [t]) rest := by
        rw [firstVariable, if_neg isVar]
        by_cases char : t.kind = .char <;> simp [char, lineAfter]
      rw [step]
      rcases ih (lineAfter line [t]) with ⟨passed, v, rest, rfl, kind, others, found⟩ | ⟨all, failed⟩
      · refine .inl ⟨t :: passed, v, rest, rfl, kind, ?_, found⟩
        exact List.forall_mem_cons.mpr ⟨isVar, others⟩
      · exact .inr ⟨List.forall_mem_cons.mpr ⟨isVar, all⟩, failed⟩

theorem firstVariable_append {line : Nat} {tokens : List Token} (more : List Token)
    (found : (firstVariable line tokens).1.isSome = true) :
    firstVariable line (tokens ++ more) = firstVariable line tokens := by
  induction tokens generalizing line with
  | nil => simp [firstVariable] at found
  | cons t rest ih =>
    rw [List.cons_append, firstVariable, firstVariable]
    rw [firstVariable] at found
    split
    · rename_i char
      rw [if_pos char] at found
      exact ih found
    · rename_i char
      rw [if_neg char] at found
      split
      · rfl
      · rename_i isVar
        rw [if_neg isVar] at found
        exact ih found

def ahead (c : Cursor) (l : Lookahead) : List Token :=
  if 0 ≤ c.index + l.min then
    (c.tokens.drop (c.index + l.min).toNat).take (l.max - l.min + 1).toNat
  else []

theorem ahead_get {c : Cursor} {l : Lookahead} {k : Nat} {t : Token} :
    (ahead c l)[k]? = some t ↔ Readable c l (l.min + k) ∧ c.At (l.min + k) t := by
  unfold ahead Cursor.At Cursor.tokenAt
  split
  · rename_i start
    have place : (c.index + (l.min + k)).toNat = (c.index + l.min).toNat + k := by omega
    rw [List.getElem?_take, List.getElem?_drop, place, if_neg (by omega : ¬ c.index + (l.min + k) < 0)]
    constructor
    · intro here
      split at here
      · rename_i inside
        obtain ⟨before, -⟩ := List.getElem?_eq_some_iff.mp here
        refine ⟨⟨by omega, by omega, fun p low high => ⟨by omega, by omega⟩⟩, here⟩
      · contradiction
    · rintro ⟨⟨-, inside, -⟩, here⟩
      rw [if_pos (by omega)]
      exact here
  · rename_i start
    simp only [List.getElem?_nil, reduceCtorEq, false_iff, not_and]
    rintro ⟨low, high, positions⟩ -
    have := (positions l.min (by omega) low).1
    contradiction

theorem readable_place {c : Cursor} {l : Lookahead} {o : Int} (readable : Readable c l o) :
    ∃ (k : Nat) (t : Token), o = l.min + k ∧ (ahead c l)[k]? = some t := by
  obtain ⟨low, high, positions⟩ := readable
  obtain ⟨k, rfl⟩ := Int.le.dest low
  obtain ⟨inside, before⟩ := positions (l.min + k) low (Int.le_refl _)
  have within : (c.index + (l.min + k)).toNat < c.tokens.length := by omega
  have here : c.At (l.min + k) (c.tokens.get ⟨_, within⟩) := by
    rw [Cursor.At, Cursor.tokenAt, if_neg (by omega)]
    exact List.getElem?_eq_getElem within
  exact ⟨k, _, rfl, ahead_get.mpr ⟨⟨low, high, positions⟩, here⟩⟩

theorem at_unique {c : Cursor} {o : Int} {t u : Token} (one : c.At o t) (other : c.At o u) :
    t = u := Option.some.inj (one.symm.trans other)

theorem ahead_before {c : Cursor} {l : Lookahead} {k : Nat} {p : Int} {t u : Token}
    (readable : (ahead c l)[k]? = some t) (low : l.min ≤ p) (high : p ≤ l.min + k)
    (here : c.At p u) : ∃ j : Nat, j ≤ k ∧ p = l.min + j ∧ (ahead c l)[j]? = some u := by
  obtain ⟨⟨-, end_, positions⟩, -⟩ := ahead_get.mp readable
  obtain ⟨j, rfl⟩ := Int.le.dest low
  have readable' : Readable c l (l.min + j) :=
    ⟨low, by omega, fun q above below => positions q above (by omega)⟩
  exact ⟨j, by omega, rfl, ahead_get.mpr ⟨readable', here⟩⟩

theorem passed_iff {c : Cursor} {l : Lookahead} {passed rest : List Token}
    (split : ahead c l = passed ++ rest) (others : ∀ t ∈ passed, t.kind ≠ .variableName)
    (stop : ∀ v ∈ rest.head?, v.kind = .variableName) (o : Int) (t : Token) :
    Passed c l o ∧ c.At o t ↔ ∃ k : Nat, o = l.min + k ∧ passed[k]? = some t := by
  constructor
  · rintro ⟨⟨readable, none_⟩, here⟩
    obtain ⟨k, u, rfl, place⟩ := readable_place readable
    obtain rfl := at_unique (ahead_get.mp place).2 here
    refine ⟨k, rfl, ?_⟩
    rw [split] at place
    by_cases inside : k < passed.length
    · rwa [List.getElem?_append_left inside] at place
    · -- Otherwise the token right behind those in front stands at or before `k`.
      exfalso
      cases rest with
      | nil =>
        rw [List.append_nil, List.getElem?_eq_none (by omega)] at place
        contradiction
      | cons v rest =>
        have first : (ahead c l)[passed.length]? = some v := by simp [split]
        have there := (ahead_get.mp first).2
        exact none_ _ v (by omega) (by omega) there (stop v rfl)
  · rintro ⟨k, rfl, place⟩
    have inside := (List.getElem?_eq_some_iff.mp place).1
    have place' : (ahead c l)[k]? = some t := by rw [split, List.getElem?_append_left inside, place]
    obtain ⟨readable, here⟩ := ahead_get.mp place'
    refine ⟨⟨readable, fun p u low high there => ?_⟩, here⟩
    obtain ⟨j, before, rfl, earlier⟩ := ahead_before place' low high there
    rw [split, List.getElem?_append_left (by omega)] at earlier
    exact others u (List.mem_of_getElem? earlier)

/-- The offset after the greatest word is no word. So in a window up to there the search has to come
to a variable or to the end of the sequence, and what stands behind the window does not matter. -/
theorem firstVariable_greatest {c : Cursor} {l : Lookahead} (ordered : l.min ≤ l.max)
    (greatest : l.max = Cursor.greatestWord) (start : 0 ≤ c.index + l.min)
    (next : ∀ o, Passed c l o → o + 1 ≤ Cursor.greatestWord) :
    firstVariable 0 (c.tokens.drop (c.index + l.min).toNat) = firstVariable 0 (ahead c l) := by
  have ahead_ : ahead c l =
      (c.tokens.drop (c.index + l.min).toNat).take (l.max - l.min + 1).toNat := if_pos start
  generalize c.tokens.drop (c.index + l.min).toNat = later at ahead_ ⊢
  generalize count : (l.max - l.min + 1).toNat = n at ahead_
  by_cases short : later.length ≤ n
  · rw [ahead_, List.take_of_length_le short]
  have full : (ahead c l).length = n := by
    rw [ahead_, List.length_take]
    omega
  have stops : (firstVariable 0 (ahead c l)).1.isSome = true := by
    rcases firstVariable_cases 0 (ahead c l) with ⟨passed, v, rest, -, -, -, found⟩ | ⟨others, -⟩
    · rw [found]
      rfl
    · -- Else the token at the end of the window would have been passed.
      exfalso
      obtain ⟨t, place⟩ : ∃ t, (ahead c l)[n - 1]? = some t :=
        ⟨_, List.getElem?_eq_getElem (by omega)⟩
      have passed := (passed_iff (List.append_nil _).symm others (by simp) _ t).mpr
        ⟨n - 1, rfl, place⟩
      have := next _ passed.1
      omega
  have same := firstVariable_append (later.drop n) stops
  rwa [ahead_, List.take_append_drop, ← ahead_] at same

/-- As long as the sums fit, the search goes through the tokens that can be read. -/
theorem resolveVariable_ahead {c : Cursor} {l : Lookahead} (fit : SumsFit c l) :
    resolveVariable c l = firstVariable 0 (ahead c l) := by
  obtain ⟨low, high, next⟩ := fit
  rw [resolveVariable, Cursor.window]
  by_cases reversed : l.max < l.min
  · have count : (l.max - l.min + 1).toNat = 0 := by omega
    simp [ahead, reversed, count]
  have start : Cursor.wrap (c.index + l.min) = c.index + l.min := by
    have word : Cursor.greatestWord = 9223372036854775807 := rfl
    apply Int.bmod_eq_of_le
    · omega
    · omega
  simp only [start, reversed, or_false]
  by_cases outside : c.index + l.min < 0
  · rw [if_pos outside, ahead, if_neg (by omega)]
  rw [if_neg outside]
  by_cases greatest : l.max = Cursor.greatestWord
  · rw [if_pos greatest]
    exact firstVariable_greatest (by omega) greatest (by omega) next
  · rw [if_neg greatest, ahead, if_pos (by omega)]

theorem resolveVariable_passed {c : Cursor} {l : Lookahead} (fit : SumsFit c l) :
    ∃ passed rest, ahead c l = passed ++ rest ∧ (∀ t ∈ passed, t.kind ≠ .variableName) ∧
      (∀ v ∈ rest.head?, v.kind = .variableName) ∧
      resolveVariable c l = (rest.head?, lineAfter 0 passed) := by
  rw [resolveVariable_ahead fit]
  rcases firstVariable_cases 0 (ahead c l) with
    ⟨passed, v, rest, split, kind, others, found⟩ | ⟨others, failed⟩
  · exact ⟨passed, v :: rest, split, others, by simpa using kind, found⟩
  · exact ⟨ahead c l, [], by simp, others, by simp, failed⟩

theorem lastLine_after {c : Cursor} {l : Lookahead} {passed rest : List Token}
    (split : ahead c l = passed ++ rest) (others : ∀ t ∈ passed, t.kind ≠ .variableName)
    (stop : ∀ v ∈ rest.head?, v.kind = .variableName) : LastLine c l (lineAfter 0 passed) := by
  have places := passed_iff split others stop
  rcases lineAfter_last 0 passed with ⟨front, t, back, rfl, solid, chars, same⟩ | ⟨chars, same⟩
  · obtain ⟨passed_, here⟩ := (places (l.min + front.length) t).mpr ⟨front.length, rfl, by simp⟩
    refine .inl ⟨_, t, passed_, here, solid, same, fun p t' later passed' there => ?_⟩
    obtain ⟨k, rfl, place⟩ := (places p t').mp ⟨passed', there⟩
    obtain ⟨j, rfl⟩ : ∃ j, k = front.length + (j + 1) := ⟨k - front.length - 1, by omega⟩
    rw [List.getElem?_append_right (by omega), Nat.add_sub_cancel_left,
      List.getElem?_cons_succ] at place
    exact chars t' (List.mem_of_getElem? place)
  · refine .inr ⟨fun o t passed' here => ?_, same⟩
    obtain ⟨k, -, place⟩ := (places o t).mp ⟨passed', here⟩
    exact chars t (List.mem_of_getElem? place)

theorem firstVariable_iff {c : Cursor} {l : Lookahead} {passed rest : List Token}
    (split : ahead c l = passed ++ rest) (others : ∀ t ∈ passed, t.kind ≠ .variableName)
    (stop : ∀ v ∈ rest.head?, v.kind = .variableName) (v : Token) :
    rest.head? = some v ↔ ∃ o, FirstVariable c l o v := by
  have first {w : Token} (head : rest.head? = some w) : (ahead c l)[passed.length]? = some w := by
    rw [split, List.getElem?_append_right (Nat.le_refl _), Nat.sub_self, ← List.head?_eq_getElem?,
      head]
  constructor
  · intro head
    obtain ⟨readable, here⟩ := ahead_get.mp (first head)
    refine ⟨_, readable, here, stop v head, fun p t low before there => ?_⟩
    obtain ⟨j, -, rfl, place⟩ := ahead_before (first head) low (by omega) there
    rw [split, List.getElem?_append_left (by omega)] at place
    exact others t (List.mem_of_getElem? place)
  · rintro ⟨o, readable, here, kind, none_⟩
    obtain ⟨k, t, rfl, place⟩ := readable_place readable
    obtain rfl := at_unique (ahead_get.mp place).2 here
    have behind : passed.length ≤ k := by
      by_contra inside
      rw [split, List.getElem?_append_left (by omega)] at place
      exact others t (List.mem_of_getElem? place) kind
    cases head : rest.head? with
    | none =>
      rw [split, List.head?_eq_none_iff.mp head, List.append_nil,
        List.getElem?_eq_none behind] at place
      contradiction
    | some w =>
      have there := (ahead_get.mp (first head)).2
      have reached : ¬ passed.length < k := fun before =>
        none_ _ w (by omega) (by omega) there (stop w head)
      rw [show k = passed.length by omega, first head] at place
      exact place

structure FindsFirst (c : Cursor) (l : Lookahead) : Prop where
  succeeds_iff : (resolveVariable c l).1.isSome = true ↔
    ∃ o t, Readable c l o ∧ c.At o t ∧ t.kind = .variableName
  finds_iff : ∀ t, (resolveVariable c l).1 = some t ↔ ∃ o, FirstVariable c l o t
  line : LastLine c l (resolveVariable c l).2

theorem resolveVariable_first {c : Cursor} {l : Lookahead} (fit : SumsFit c l) :
    FindsFirst c l := by
  obtain ⟨passed, rest, split, others, stop, result⟩ := resolveVariable_passed fit
  have finds := firstVariable_iff split others stop
  refine ⟨⟨fun some_ => ?_, ?_⟩, fun t => ?_, ?_⟩
  · obtain ⟨t, found⟩ := Option.isSome_iff_exists.mp some_
    rw [result] at found
    obtain ⟨o, readable, here, kind, -⟩ := (finds t).mp found
    exact ⟨o, t, readable, here, kind⟩
  · rintro ⟨o, t, readable, here, kind⟩
    obtain ⟨k, u, rfl, place⟩ := readable_place readable
    obtain rfl := at_unique (ahead_get.mp place).2 here
    rw [result]
    cases rest with
    | nil =>
      rw [split, List.append_nil] at place
      exact absurd kind (others u (List.mem_of_getElem? place))
    | cons v rest => rfl
  · rw [result]
    exact finds t
  · rw [result]
    exact lastLine_after split others stop

theorem ahead_enlarge (c : Cursor) (l : Lookahead) {hi : Int} (larger : l.max ≤ hi) :
    ahead c l <+: ahead c ⟨l.min, hi⟩ := by
  have count : (l.max - l.min + 1).toNat ≤ (hi - l.min + 1).toNat := by omega
  unfold ahead
  split
  · exact List.take_prefix_take_left count
  · exact List.prefix_rfl

theorem resolveVariable_enlarge {c : Cursor} {l : Lookahead} {hi : Int} (fit : SumsFit c l)
    (larger : l.max ≤ hi) (fit' : SumsFit c ⟨l.min, hi⟩)
    (found : (resolveVariable c l).1.isSome = true) :
    resolveVariable c ⟨l.min, hi⟩ = resolveVariable c l := by
  obtain ⟨more, longer⟩ := ahead_enlarge c l larger
  rw [resolveVariable_ahead fit] at found ⊢
  rw [resolveVariable_ahead fit', ← longer, firstVariable_append more found]

theorem comment_warning {c : Cursor} {l : Lookahead} {headerPassed : Bool} {text : Text}
    {warning : Fault} (warns : (comment l headerPassed c text).2 = some warning) :
    warning = notFound (resolveVariable c l).2 := by
  simp only [comment] at warns
  split at warns
  · split at warns
    · split at warns
      · contradiction
      · rename_i line failed
        rw [failed]
        exact (Option.some.inj warns).symm
    · contradiction
  · contradiction

theorem lastLine_pos {c : Cursor} {l : Lookahead} {line : Nat} (last : LastLine c l line)
    (lines : ∀ t ∈ c.tokens, 0 < t.line) :
    line ≠ 0 ↔ ∃ o t, Passed c l o ∧ c.At o t ∧ t.kind ≠ .char := by
  rcases last with ⟨o, t, passed, here, solid, rfl, -⟩ | ⟨chars, rfl⟩
  · exact iff_of_true (Nat.ne_of_gt (lines t (Cursor.at_mem here))) ⟨o, t, passed, here, solid⟩
  · refine iff_of_false (by simp) ?_
    rintro ⟨o, t, passed, here, solid⟩
    exact solid (chars o t passed here)

theorem notFound_line_iff (line : Nat) :
    (∃ value, (Log.Key.line, value) ∈ (notFound line).context) ↔ line ≠ 0 := by
  unfold notFound
  split <;> simp [*]

/-- The search finds the first variable of the readable window and tells the line in front of it.
So a larger window never changes what was found, and for the tokens of a source the warning names a
line if and only if something else than a bare character was passed over. -/
theorem resolveVariable_finds_first (c : Cursor) (l : Lookahead) (fit : SumsFit c l) :
    FindsFirst c l ∧
      (∀ hi, l.max ≤ hi → SumsFit c ⟨l.min, hi⟩ → (resolveVariable c l).1.isSome = true →
        resolveVariable c ⟨l.min, hi⟩ = resolveVariable c l) ∧
      ∀ src, c.tokens = Token.stream src → ∀ headerPassed text warning,
        (comment l headerPassed c text).2 = some warning →
        ((∃ value, (Log.Key.line, value) ∈ warning.context) ↔
          ∃ o t, Passed c l o ∧ c.At o t ∧ t.kind ≠ .char) := by
  have finds := resolveVariable_first fit
  refine ⟨finds, fun hi larger fit' found => resolveVariable_enlarge fit larger fit' found, ?_⟩
  intro src tokens headerPassed text warning warns
  have lines : ∀ t ∈ c.tokens, 0 < t.line := by
    rw [tokens]
    exact fun t member => Token.stream_line_pos member
  rw [comment_warning warns, notFound_line_iff]
  exact lastLine_pos finds.line lines

example :
    resolveVariable ⟨Token.stream "<?php $x", -Cursor.greatestWord⟩
      ⟨Cursor.greatestWord, Cursor.greatestWord⟩ = (some ⟨.variableName, "$x", 1⟩, 1) := by
  decide +kernel

theorem sumsFit_of_lt {c : Cursor} {l : Lookahead}
    (first : -Cursor.greatestWord - 1 ≤ c.index + l.min)
    (last : c.index + l.max ≤ Cursor.greatestWord) (next : l.max < Cursor.greatestWord) :
    SumsFit c l where
  first := first
  last := last
  next := fun o passed => by
    have := passed.1.2.1
    omega

theorem argument_of_call_found :
    let c : Cursor := ⟨Token.stream "<?php\n/** @var x */\nfoo();\n\nbar( $x )", -3⟩
    (SumsFit c ⟨6, 20⟩ ∧ SumsFit c ⟨6, 100⟩ ∧
      resolveVariable c ⟨6, 20⟩ = (some ⟨.variableName, "$x", 5⟩, 5) ∧ FindsFirst c ⟨6, 20⟩ ∧
      resolveVariable c ⟨6, 100⟩ = resolveVariable c ⟨6, 20⟩) ∧
    SumsFit c ⟨6, 12⟩ ∧ (comment ⟨6, 12⟩ true c "/** @var x */").2 = some (notFound 5) ∧
      ∃ o t, Passed c ⟨6, 12⟩ o ∧ c.At o t ∧ t.kind ≠ .char := by
  intro c
  have fit : SumsFit c ⟨6, 20⟩ := sumsFit_of_lt (by decide) (by decide) (by decide)
  have larger : SumsFit c ⟨6, 100⟩ := sumsFit_of_lt (by decide) (by decide) (by decide)
  have early : SumsFit c ⟨6, 12⟩ := sumsFit_of_lt (by decide) (by decide) (by decide)
  have found : resolveVariable c ⟨6, 20⟩ = (some ⟨.variableName, "$x", 5⟩, 5) := by decide +kernel
  have missed : (comment ⟨6, 12⟩ true c "/** @var x */").2 = some (notFound 5) := by decide +kernel
  obtain ⟨finds, enlarge, -⟩ := resolveVariable_finds_first c ⟨6, 20⟩ fit
  obtain ⟨-, -, warns⟩ := resolveVariable_finds_first c ⟨6, 12⟩ early
  refine ⟨⟨fit, larger, found, finds, enlarge 100 (by decide) larger (by rw [found]; rfl)⟩, early,
    missed, ?_⟩
  exact (warns _ rfl true _ _ missed).mp ((notFound_line_iff 5).mpr (by decide))

end Dialect
end DocBridge
