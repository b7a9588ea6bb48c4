import DocBridge.Proofs.Markup.Spelling

/-
What stands before the root element of a page that is read token by token: how each token is
spelled, and the tokens up to the first start tag.
-/
namespace DocBridge.Markup

open Text

theorem scanUntil_ok {stop s : Text} {found : Text × Text} (ok : scanUntil stop s = .ok found) :
    cut? stop s = some found := by
  unfold scanUntil at ok
  split at ok
  · cases ok
    assumption
  · contradiction

theorem bind_ok {ε α β : Type} {x : Except ε α} {f : α → Except ε β} {r : β}
    (ok : (x >>= f) = .ok r) : ∃ a, x = .ok a ∧ f a = .ok r := by
  cases x with
  | error e => contradiction
  | ok a => exact ⟨a, rfl, ok⟩

theorem scanComment_ok {s : Text} {token : Token} {rest : Text}
    (ok : scanComment s = .ok (token, rest)) :
    ∃ data, token = .comment data ∧ s = data ++ ("-->" ++ rest) ∧
      indexOf? "-->" s = some data.length := by
  obtain ⟨⟨data, after⟩, read, ok⟩ := bind_ok ok
  have cut := scanUntil_ok read
  have whole := cut_split cut
  simp only at ok
  split at ok
  · cases ok
    refine ⟨data, rfl, whole, ?_⟩
    have found := cut_index cut
    apply indexOf_extend (by decide) found
    rw [whole, List.drop_left]
    exact ⟨rest, rfl⟩
  · contradiction
  · contradiction

theorem scanName_ok {s name rest : Text} (ok : scanName s = .ok (name, rest)) :
    s = name ++ rest ∧ name ≠ [] ∧ ∀ b ∈ name, isNameByte b = true := by
  simp only [scanName] at ok
  split at ok
  · contradiction
  · rename_i some_
    split at ok
    · contradiction
    · split at ok
      · cases ok
        refine ⟨?_, by simpa using some_, List.all_eq_true.mp List.all_takeWhile⟩
        exact (List.prefix_iff_eq_append.mp (List.takeWhile_prefix isNameByte)).symm
      · contradiction

theorem scanInstruction_ok {s : Text} {token : Token} {rest : Text}
    (ok : scanInstruction s = .ok (token, rest)) :
    ∃ target data w, token = .instruction target data ∧ s = w ++ ("?>" ++ rest) ∧
      indexOf? "?>" (0x3C :: 0x3F :: s) = some (w.length + 2) := by
  obtain ⟨⟨target, after⟩, name, more⟩ := bind_ok ok
  obtain ⟨⟨data, rest'⟩, read, last⟩ := bind_ok more
  obtain ⟨rfl, some_, bytes⟩ := scanName_ok name
  have cut := scanUntil_ok read
  have whole := cut_split cut
  have same : rest' = rest ∧ token = .instruction target data := by
    simp only at last
    split at last
    · contradiction
    · cases last
      exact ⟨rfl, rfl⟩
  obtain ⟨rfl, rfl⟩ := same
  have spaces : after = after.takeWhile isSpace ++ (data ++ ("?>" ++ rest')) := by
    rw [← whole, skipSpace, List.takeWhile_append_dropWhile]
  refine ⟨target, data, target ++ (after.takeWhile isSpace ++ data), rfl, ?_, ?_⟩
  · rw [List.append_assoc, List.append_assoc, ← spaces]
  -- The end mark is first found behind the name and the white space, where it was looked for.
  · have found := cut_index cut
    have mark : ofString "?>" = [0x3F, 0x3E] := rfl
    have free : 0x3F ∉ target ++ after.takeWhile isSpace := by
      rw [List.mem_append, not_or]
      constructor
      · intro member
        exact (nameByte_plain (bytes _ member)).2.2.2.2 rfl
      · intro member
        exact absurd (List.all_eq_true.mp List.all_takeWhile _ member) (by decide)
    have split : target ++ after = (target ++ after.takeWhile isSpace) ++ skipSpace after := by
      rw [List.append_assoc, skipSpace, List.takeWhile_append_dropWhile]
    obtain ⟨c, name', rfl⟩ := List.exists_cons_of_ne_nil some_
    have noEnd : 0x3E ≠ c := Ne.symm (nameByte_plain (bytes c List.mem_cons_self)).2.2.2.1
    rw [mark] at found ⊢
    rw [indexOf?, if_neg (by simp [List.isPrefixOf]), indexOf?,
      if_neg (by simp [List.isPrefixOf, noEnd]), split, indexOf_skip free, found]
    simp only [Option.map_some, Option.some.injEq, List.length_append]
    omega

/-- Every way for a token to be read, with the bytes that tell it. -/
theorem scanToken_cases {strict : Bool} {b : UInt8} {s : Text} {read : Scanned Token}
    (ok : scanToken strict b s = .ok read) :
    (b ≠ 0x3C ∧ scanChars strict (b :: s) = .ok read) ∨
    (b = 0x3C ∧
      ((∃ t, s = 0x2F :: t ∧ scanEndTag t = .ok read) ∨
      (∃ t, s = 0x3F :: t ∧ scanInstruction t = .ok read) ∨
      (∃ t, s = 0x21 :: 0x2D :: 0x2D :: t ∧ scanComment t = .ok read) ∨
      (∃ t, s = 0x21 :: 0x5B :: t ∧ scanSection (t.drop 6) = .ok read) ∨
      (∃ c t, s = 0x21 :: c :: t ∧ c ≠ 0x2D ∧ scanDirective c t = .ok read) ∨
      (s.head? ≠ some 0x2F ∧ s.head? ≠ some 0x3F ∧ s.head? ≠ some 0x21 ∧
        scanStartTag strict s = .ok read))) := by
  have head {c : UInt8} {s : Text} (none_ : ∀ t, s = c :: t → False) : s.head? ≠ some c := by
    intro first
    obtain ⟨t, whole⟩ := List.head?_eq_some_iff.mp first
    exact none_ t whole
  unfold scanToken at ok
  split at ok
  · rename_i other
    exact .inl ⟨by simpa using other, ok⟩
  · rename_i bracket
    refine .inr ⟨by simpa using bracket, ?_⟩
    split at ok
    · contradiction
    · exact .inl ⟨_, rfl, ok⟩
    · exact .inr (.inl ⟨_, rfl, ok⟩)
    · split at ok
      · contradiction
      · exact .inr (.inr (.inl ⟨_, rfl, ok⟩))
      · contradiction
      · split at ok
        · exact .inr (.inr (.inr (.inl ⟨_, rfl, ok⟩)))
        · contradiction
      · rename_i noDash _
        exact .inr (.inr (.inr (.inr (.inl ⟨_, _, rfl, noDash, ok⟩))))
    · rename_i slash question bang
      exact .inr (.inr (.inr (.inr (.inr ⟨head slash, head question, head bang, ok⟩))))

theorem scanStartTag_ok {strict : Bool} {s : Text} {token : Token} {rest : Text}
    (ok : scanStartTag strict s = .ok (token, rest)) :
    ∃ name attrs closed, token = .startTag name attrs closed := by
  obtain ⟨⟨name, _⟩, _, more⟩ := bind_ok ok
  obtain ⟨⟨⟨attrs, closed⟩, _⟩, _, last⟩ := bind_ok more
  cases last
  exact ⟨name, attrs, closed, rfl⟩

theorem scanEndTag_ok {s : Text} {token : Token} {rest : Text}
    (ok : scanEndTag s = .ok (token, rest)) : ∃ name, token = .endTag name := by
  obtain ⟨⟨name, _⟩, _, more⟩ := bind_ok ok
  simp only at more
  split at more
  · cases more
    exact ⟨name, rfl⟩
  · contradiction
  · contradiction

theorem scanChars_ok {strict : Bool} {s : Text} {token : Token} {rest : Text}
    (ok : scanChars strict s = .ok (token, rest)) :
    (∃ data section_, token = .chars data section_) ∧ s = s.takeWhile (· != 0x3C) ++ rest := by
  simp only [scanChars] at ok
  split at ok
  · contradiction
  · obtain ⟨data, _, last⟩ := bind_ok ok
    cases last
    refine ⟨⟨data, _, rfl⟩, ?_⟩
    exact (List.prefix_iff_eq_append.mp (List.takeWhile_prefix _)).symm

theorem scanSection_ok {s : Text} {token : Token} {rest : Text}
    (ok : scanSection s = .ok (token, rest)) : ∃ data, token = .chars data true := by
  obtain ⟨⟨raw, _⟩, _, more⟩ := bind_ok ok
  simp only at more
  split at more
  · cases more
    exact ⟨_, rfl⟩
  · contradiction

theorem scanDirective_ok {c : UInt8} {s : Text} {token : Token} {rest : Text}
    (ok : scanDirective c s = .ok (token, rest)) : ∃ data, token = .directive data := by
  unfold scanDirective at ok
  cases tail : directiveTail 0 none s.length s with
  | error e =>
    rw [tail] at ok
    contradiction
  | ok read =>
    rw [tail] at ok
    cases ok
    exact ⟨_, rfl⟩

abbrev SpelledToken := Token × Text

def spelling (items : List SpelledToken) : Text := items.flatMap Prod.snd

def Token.isStart : Token → Bool
  | .startTag _ _ _ => true
  | _ => false

/-- Read token by token, the page holds `items` and then the start tag of its root. -/
inductive Prolog (strict : Bool) : Text → List SpelledToken → Text → Prop where
  | root {b : UInt8} {s : Text} {token : Token} {rest : Text}
      (read : scanToken strict b s = .ok (token, rest)) (start : token.isStart = true) :
      Prolog strict (b :: s) [] (b :: s)
  | item {b : UInt8} {s : Text} {token : Token} {x rest : Text} {items : List SpelledToken} {root : Text}
      (read : scanToken strict b s = .ok (token, rest)) (other : token.isStart = false)
      (spelled : b :: s = x ++ rest) (more : Prolog strict rest items root) :
      Prolog strict (b :: s) ((token, x) :: items) root

/-- Looks for the root; `fuel` bounds the items before it. -/
def findProlog (strict : Bool) : Nat → Text → Option (List SpelledToken × Text)
  | fuel + 1, b :: s =>
    match scanToken strict b s with
    | .ok (token, rest) =>
      let x := (b :: s).take ((b :: s).length - rest.length)
      if token.isStart then some ([], b :: s)
      else if b :: s = x ++ rest then
        (findProlog strict fuel rest).map fun (items, root) => ((token, x) :: items, root)
      else none
    | .error _ => none
  | _, _ => none

theorem findProlog_sound {strict : Bool} {fuel : Nat} {page : Text} {items : List SpelledToken}
    {root : Text} (found : findProlog strict fuel page = some (items, root)) :
    Prolog strict page items root := by
  induction fuel generalizing page items with
  | zero => contradiction
  | succ fuel ih =>
    cases page with
    | nil => contradiction
    | cons b s =>
      rw [findProlog] at found
      split at found
      · rename_i token rest read
        simp only at found
        split at found
        · rename_i start
          cases found
          exact .root read start
        · rename_i other
          split at found
          · rename_i spelled
            obtain ⟨⟨items', root'⟩, later, pair⟩ := Option.map_eq_some_iff.mp found
            cases pair
            exact .item read (by simpa using other) spelled (ih later)
          · contradiction
      · contradiction

theorem prolog_spelling {strict : Bool} {page : Text} {items : List SpelledToken} {root : Text}
    (prolog : Prolog strict page items root) : page = spelling items ++ root := by
  induction prolog with
  | root => rfl
  | item _ _ spelled _ ih => rw [spelled, ih, spelling, spelling, List.flatMap_cons, List.append_assoc]

theorem prolog_item {strict : Bool} {page : Text} {front back : List SpelledToken} {token : Token}
    {x root : Text} (prolog : Prolog strict page (front ++ (token, x) :: back) root) :
    ∃ b s rest, scanToken strict b s = .ok (token, rest) ∧ b :: s = x ++ rest ∧
      Prolog strict rest back root := by
  induction front generalizing page with
  | nil =>
    cases prolog with
    | item read _ spelled more => exact ⟨_, _, _, read, spelled, more⟩
  | cons first front ih =>
    cases prolog with
    | item _ _ _ more => exact ih more

def Stray (x : Text) : Prop := x.head? ≠ some 0x3C ∧ ∃ b ∈ x, isSpace b = false

theorem stray_run {strict : Bool} {page : Text} {front back : List SpelledToken} {token : Token}
    {x root : Text} (prolog : Prolog strict page (front ++ (token, x) :: back) root)
    (stray : Stray x) : (x ++ (spelling back ++ root)).takeWhile (· != 0x3C) = x := by
  obtain ⟨b, s, rest, read, spelled, more⟩ := prolog_item prolog
  obtain ⟨open_, c, member, _⟩ := stray
  have other : b ≠ 0x3C := by
    rintro rfl
    cases x with
    | nil => contradiction
    | cons d x =>
      rw [← (List.cons.inj spelled).1] at open_
      contradiction
  rcases scanToken_cases read with ⟨_, ok⟩ | ⟨same, _⟩
  · have run := (scanChars_ok ok).2
    rw [← prolog_spelling more, ← spelled]
    exact (List.append_cancel_right (spelled.symm.trans run)).symm
  · exact absurd same other

end DocBridge.Markup
