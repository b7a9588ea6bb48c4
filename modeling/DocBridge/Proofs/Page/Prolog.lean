import DocBridge.Page.Document
import DocBridge.Proofs.Markup.Prolog
import DocBridge.Proofs.Page.Preamble

/-
What becomes of the part of a page before its root element. Setting the preamble aside agrees with
reading token by token on white space, comments, instructions and declarations with balanced quotes
and brackets, so these survive; other text in front of the root is dropped.
-/
namespace DocBridge.Preamble

open Text Markup

theorem prolog_root {strict : Bool} {page : Text} {items : List SpelledToken} {root : Text}
    (prolog : Prolog strict page items root) : StartsBody root := by
  induction prolog with
  | item _ _ _ _ ih => exact ih
  | @root b s token rest read start =>
    have question : ofString "<?" = [0x3C, 0x3F] := rfl
    have bang : ofString "<!" = [0x3C, 0x21] := rfl
    rcases scanToken_cases read with ⟨_, ok⟩ | ⟨rfl, ⟨t, _, ok⟩ | ⟨t, _, ok⟩ | ⟨t, _, ok⟩ |
      ⟨t, _, ok⟩ | ⟨c, t, _, _, ok⟩ | ⟨_, noQuestion, noBang, _⟩⟩
    · obtain ⟨⟨_, _, rfl⟩, _⟩ := scanChars_ok ok
      contradiction
    · obtain ⟨_, rfl⟩ := scanEndTag_ok ok
      contradiction
    · obtain ⟨_, _, _, rfl, _⟩ := scanInstruction_ok ok
      contradiction
    · obtain ⟨_, rfl, _⟩ := scanComment_ok ok
      contradiction
    · obtain ⟨_, rfl⟩ := scanSection_ok ok
      contradiction
    · obtain ⟨_, rfl⟩ := scanDirective_ok ok
      contradiction
    · refine ⟨rfl, ?_, ?_⟩
      · cases s with
        | nil => rfl
        | cons c s =>
          have other : c ≠ 0x3F := by simpa using noQuestion
          simp [question, List.isPrefixOf, Ne.symm other]
      · cases s with
        | nil => rfl
        | cons c s =>
          have other : c ≠ 0x21 := by simpa using noBang
          simp [bang, List.isPrefixOf, Ne.symm other]

def isMark (b : UInt8) : Bool :=
  b == 0x22 || b == 0x27 || b == 0x5B || b == 0x5D || b == 0x3E

/-- Text with its quotes closed and its square brackets matched. Only `inside` of brackets there
may be a `>` out of quotes. -/
inductive Balanced : Bool → Text → Prop where
  | done (inside : Bool) : Balanced inside []
  | byte {inside : Bool} {b : UInt8} {rest : Text} (plain : isMark b = false)
      (more : Balanced inside rest) : Balanced inside (b :: rest)
  | angle {rest : Text} (more : Balanced true rest) : Balanced true (0x3E :: rest)
  | quoted {inside : Bool} {q : UInt8} {inner rest : Text} (quote : q = 0x22 ∨ q = 0x27)
      (closed : q ∉ inner) (more : Balanced inside rest) :
      Balanced inside (q :: (inner ++ q :: rest))
  | brackets {inside : Bool} {inner rest : Text} (within : Balanced true inner)
      (more : Balanced inside rest) : Balanced inside (0x5B :: (inner ++ 0x5D :: rest))

theorem balanced_bytes {inside : Bool} {w rest : Text} (plain : w.any isMark = false)
    (more : Balanced inside rest) : Balanced inside (w ++ rest) := by
  induction w with
  | nil => exact more
  | cons b w ih =>
    obtain ⟨here, later⟩ := Bool.or_eq_false_iff.mp plain
    exact .byte here (ih later)

theorem declarationTail_quoted (depth : Int) {q : UInt8} {inner : Text} (closed : q ∉ inner)
    (rest : Text) : declarationTail depth (some q) (inner ++ q :: rest) =
      (declarationTail depth none rest).map (· + (inner.length + 1)) := by
  induction inner with
  | nil => simp [declarationTail]
  | cons b inner ih =>
    rw [List.mem_cons, not_or] at closed
    have other : (b == q) = false := by simpa using Ne.symm closed.1
    rw [List.cons_append, declarationTail]
    simp only [other, Bool.false_eq_true, if_false]
    rw [ih closed.2, Option.map_map]
    rfl

theorem declarationTail_balanced {inside : Bool} {w : Text} (balanced : Balanced inside w)
    {depth : Int} (deep : inside = true → 0 < depth) (shallow : 0 ≤ depth) (rest : Text) :
    declarationTail depth none (w ++ rest) =
      (declarationTail depth none rest).map (· + w.length) := by
  induction balanced generalizing depth rest with
  | done => simp
  | @byte _ b _ plain _ ih =>
    simp only [isMark, Bool.or_eq_false_iff, beq_eq_false_iff_ne] at plain
    obtain ⟨⟨⟨⟨h1, h2⟩, h3⟩, h4⟩, h5⟩ := plain
    rw [List.cons_append, declarationTail]
    simp only [h1, h2, h3, h4, h5, beq_iff_eq, Bool.or_eq_true, or_self, Bool.and_eq_true, false_and,
      if_false]
    rw [ih deep shallow, Option.map_map]
    rfl
  | @angle rest' _ ih =>
    have positive := deep rfl
    have nonzero : (depth == 0) = false := by
      rw [beq_eq_false_iff_ne]
      omega
    have step : declarationTail depth none (0x3E :: (rest' ++ rest)) =
        (declarationTail depth none (rest' ++ rest)).map (· + 1) := by
      simp [declarationTail, nonzero]
    rw [List.cons_append, step, ih deep shallow, Option.map_map]
    rfl
  | @quoted _ q inner rest' quote closed _ ih =>
    have step : declarationTail depth none (q :: (inner ++ q :: (rest' ++ rest))) =
        (declarationTail depth (some q) (inner ++ q :: (rest' ++ rest))).map (· + 1) := by
      rcases quote with rfl | rfl <;> rfl
    rw [List.cons_append, List.append_assoc, List.cons_append, step,
      declarationTail_quoted depth closed, ih deep shallow, Option.map_map, Option.map_map]
    congr 1
    funext n
    simp only [Function.comp, List.length_cons, List.length_append]
    omega
  | @brackets _ inner rest' _ _ ihInner ih =>
    have open_ : declarationTail depth none (0x5B :: (inner ++ 0x5D :: (rest' ++ rest))) =
        (declarationTail (depth + 1) none (inner ++ 0x5D :: (rest' ++ rest))).map (· + 1) := rfl
    have close : declarationTail (depth + 1) none (0x5D :: (rest' ++ rest)) =
        (declarationTail (depth + 1 - 1) none (rest' ++ rest)).map (· + 1) := rfl
    rw [List.cons_append, List.append_assoc, List.cons_append, open_,
      ihInner (fun _ => by omega) (by omega), close, Int.add_sub_cancel, ih deep shallow]
    simp only [Option.map_map]
    congr 1
    funext n
    simp only [Function.comp, List.length_cons, List.length_append]
    omega

def IsDeclaration (x : Text) : Prop := ∃ w, x = "<!" ++ (w ++ ">") ∧ Balanced false w

theorem declarationLength_balanced {x : Text} (declared : IsDeclaration x) (rest : Text) :
    declarationLength? (x ++ rest) = some x.length := by
  obtain ⟨w, rfl, balanced⟩ := declared
  have inner : (ofString "<!" ++ (w ++ ofString ">") ++ rest).drop 2 = w ++ 0x3E :: rest := by
    rw [List.append_assoc, List.append_assoc]
    rfl
  have ends : declarationTail 0 none (0x3E :: rest) = some 1 := rfl
  rw [declarationLength?, inner, declarationTail_balanced balanced (by simp) (by omega), ends]
  simp only [Option.map_some, Option.some.injEq, List.length_append]
  have two : (ofString "<!").length = 2 := rfl
  have one : (ofString ">").length = 1 := rfl
  omega

def Plain : SpelledToken → Prop
  | (.chars _ _, x) => (∀ b ∈ x, isSpace b = true) ∨ IsDeclaration x
  | (.directive _, x) => IsDeclaration x
  | (.comment _, _) => True
  | (.instruction _ _, _) => True
  | (.startTag _ _ _, _) => False
  | (.endTag _, _) => False

theorem length_white {x : Text} (white : ∀ b ∈ x, isSpace b = true) (rest : Text) :
    length? (x ++ rest) = (length? rest).map (· + x.length) := by
  induction x with
  | nil => simp
  | cons b x ih =>
    obtain ⟨space, later⟩ := List.forall_mem_cons.mp white
    rw [List.cons_append, length?, if_pos space, ih later, Option.map_map]
    rfl

theorem item_head {b : UInt8} {s : Text} {n : Nat} (found : item (b :: s) = .length n) :
    b = 0x3C := by
  rcases item_cases found with ⟨start, _⟩ | ⟨_, start, _⟩ | ⟨_, _, start, _⟩
  all_goals exact (List.cons_prefix_cons.mp (List.isPrefixOf_iff_prefix.mp start)).1.symm

theorem length_item {x rest : Text} (found : item (x ++ rest) = .length x.length) :
    length? (x ++ rest) = (length? rest).map (· + x.length) := by
  have two := item_pos found
  obtain ⟨b, x, rfl⟩ := List.exists_cons_of_length_pos (show 0 < x.length by omega)
  rw [List.cons_append] at found ⊢
  have dark : isSpace b = false := by rw [item_head found]; decide
  rw [length?, dark, found]
  simp only [Bool.false_eq_true, if_false, List.length_cons, Nat.add_sub_cancel, List.drop_left]

theorem item_comment {s : Text} {n : Nat} (found : indexOf? "-->" s = some n) :
    item (0x3C :: 0x21 :: 0x2D :: 0x2D :: s) = .length (n + 7) := by
  have noQuestion : (ofString "<?").isPrefixOf (0x3C :: 0x21 :: 0x2D :: 0x2D :: s) = false := rfl
  have dashes : (ofString "<!--").isPrefixOf (0x3C :: 0x21 :: 0x2D :: 0x2D :: s) = true := rfl
  have inner : (0x3C :: 0x21 :: 0x2D :: 0x2D :: s).drop 4 = s := rfl
  rw [item, noQuestion, if_neg Bool.false_ne_true, if_pos dashes, inner, found]
  rfl

theorem item_instruction {s : Text} {n : Nat}
    (found : indexOf? "?>" (0x3C :: 0x3F :: s) = some n) :
    item (0x3C :: 0x3F :: s) = .length (n + 2) := by
  have question : (ofString "<?").isPrefixOf (0x3C :: 0x3F :: s) = true := rfl
  rw [item, if_pos question, found]
  rfl

theorem item_declaration {c : UInt8} {s : Text} {n : Nat} (noDash : c ≠ 0x2D)
    (found : declarationLength? (0x3C :: 0x21 :: c :: s) = some n) :
    item (0x3C :: 0x21 :: c :: s) = .length n := by
  have noQuestion : (ofString "<?").isPrefixOf (0x3C :: 0x21 :: c :: s) = false := rfl
  have noDashes : (ofString "<!--").isPrefixOf (0x3C :: 0x21 :: c :: s) = false := by
    have bytes : ofString "<!--" = [0x3C, 0x21, 0x2D, 0x2D] := rfl
    simp [bytes, List.isPrefixOf, Ne.symm noDash]
  have bang : (ofString "<!").isPrefixOf (0x3C :: 0x21 :: c :: s) = true := rfl
  rw [item, noQuestion, if_neg Bool.false_ne_true, noDashes, if_neg Bool.false_ne_true,
    if_pos bang, found]
  rfl

theorem length_plain {strict : Bool} {b : UInt8} {s : Text} {token : Token} {x rest : Text}
    (read : scanToken strict b s = .ok (token, rest)) (spelled : b :: s = x ++ rest)
    (plain : Plain (token, x)) : length? (x ++ rest) = (length? rest).map (· + x.length) := by
  have declaration {c : UInt8} {t : Text} (whole : b :: s = 0x3C :: 0x21 :: c :: t)
      (noDash : c ≠ 0x2D) (declared : IsDeclaration x) :
      length? (x ++ rest) = (length? rest).map (· + x.length) := by
    have length := declarationLength_balanced declared rest
    apply length_item
    rw [← spelled, whole] at length ⊢
    exact item_declaration noDash length
  rcases scanToken_cases read with ⟨other, ok⟩ | ⟨rfl, ⟨t, _, ok⟩ | ⟨t, rfl, ok⟩ | ⟨t, rfl, ok⟩ |
    ⟨t, rfl, ok⟩ | ⟨c, t, rfl, noDash, ok⟩ | ⟨_, _, _, ok⟩⟩
  · obtain ⟨⟨_, _, rfl⟩, _⟩ := scanChars_ok ok
    rcases plain with white | ⟨w, rfl, _⟩
    · exact length_white white rest
    · exact absurd (List.cons.inj spelled).1 other
  · obtain ⟨_, rfl⟩ := scanEndTag_ok ok
    contradiction
  · obtain ⟨_, _, w, rfl, whole, found⟩ := scanInstruction_ok ok
    have size := congrArg List.length spelled
    have two : (ofString "?>").length = 2 := rfl
    rw [whole] at size
    simp only [List.length_cons, List.length_append] at size
    apply length_item
    rw [← spelled, item_instruction found]
    congr 1
    omega
  · obtain ⟨data, rfl, whole, found⟩ := scanComment_ok ok
    have size := congrArg List.length spelled
    have three : (ofString "-->").length = 3 := rfl
    rw [whole] at size
    simp only [List.length_cons, List.length_append] at size
    apply length_item
    rw [← spelled, item_comment found]
    congr 1
    omega
  · obtain ⟨_, rfl⟩ := scanSection_ok ok
    rcases plain with white | declared
    · exact length_white white rest
    · exact declaration rfl (by decide) declared
  · obtain ⟨_, rfl⟩ := scanDirective_ok ok
    exact declaration rfl noDash plain
  · obtain ⟨_, _, _, rfl⟩ := scanStartTag_ok ok
    contradiction

theorem length_prolog {strict : Bool} {page : Text} {front back : List SpelledToken} {root : Text}
    (prolog : Prolog strict page (front ++ back) root) (plain : ∀ item ∈ front, Plain item) :
    length? page = (length? (spelling back ++ root)).map (· + (spelling front).length) := by
  induction front generalizing page with
  | nil =>
    rw [prolog_spelling prolog]
    simp [spelling]
  | cons first front ih =>
    obtain ⟨here, later⟩ := List.forall_mem_cons.mp plain
    cases prolog with
    | @item b s token x rest _ _ read other spelled more =>
      rw [spelled, length_plain read spelled here, ih more later, Option.map_map]
      congr 1
      funext n
      simp only [Function.comp, spelling, List.flatMap_cons, List.length_append]
      omega

theorem split_of_length {front back : Text} (found : length? (front ++ back) = some front.length) :
    split (front ++ back) = (front, back) := by
  rw [split, found]
  simp

/-- In front of a body the preamble is `p` exactly if `p` by itself is all preamble. -/
theorem split_fst_eq_iff {p body : Text} (starts : StartsBody body) :
    (split (p ++ body)).1 = p ↔ split p = (p, []) := by
  constructor
  · intro first
    have found : length? (p ++ body) = some p.length ∨ p = [] := by
      unfold split at first
      split at first
      · rename_i n size
        have inside := length_le _ size
        have taken := congrArg List.length first
        rw [List.length_take, Nat.min_eq_left inside] at taken
        exact .inl (by rw [size, taken])
      · exact .inr first.symm
    rcases found with found | rfl
    · have alone := length_local body [] ⟨rfl, rfl, rfl⟩ p found
      have split := split_of_length alone
      rwa [List.append_nil] at split
    · rw [split, length?]
      rfl
  · intro whole
    rw [split_append whole starts]

theorem split_plain {strict : Bool} {page : Text} {items : List SpelledToken} {root : Text}
    (prolog : Prolog strict page items root) (plain : ∀ item ∈ items, Plain item) :
    split page = (spelling items, root) := by
  rw [← List.append_nil items] at prolog
  have length := length_prolog prolog plain
  have starts : length? (spelling [] ++ root) = some 0 := startsBody_length (prolog_root prolog)
  rw [List.append_nil] at prolog
  rw [starts, Option.map_some, Nat.zero_add] at length
  rw [prolog_spelling prolog] at length ⊢
  exact split_of_length length

theorem stray_body {x rest : Text} (run : (x ++ rest).takeWhile (· != 0x3C) = x) (stray : Stray x) :
    ∃ c y, x.dropWhile isSpace = c :: y ∧ isSpace c = false ∧ c ≠ 0x3C := by
  obtain ⟨-, b, member, dark⟩ := stray
  have join := List.takeWhile_append_dropWhile (p := isSpace) (l := x)
  cases tail : x.dropWhile isSpace with
  | nil =>
    rw [tail, List.append_nil] at join
    rw [← join] at member
    rw [List.all_eq_true.mp List.all_takeWhile b member] at dark
    contradiction
  | cons c y =>
    have first := List.head?_dropWhile_not isSpace x
    rw [tail] at first join
    have inside : c ∈ (x ++ rest).takeWhile (· != 0x3C) := by
      rw [run, ← join]
      exact List.mem_append_right _ List.mem_cons_self
    have other := List.all_eq_true.mp List.all_takeWhile c inside
    exact ⟨c, y, rfl, first, by simpa using other⟩

theorem startsBody_text {c : UInt8} (dark : isSpace c = false) (other : c ≠ 0x3C) (t : Text) :
    StartsBody (c :: t) := by
  have question : ofString "<?" = [0x3C, 0x3F] := rfl
  have bang : ofString "<!" = [0x3C, 0x21] := rfl
  refine ⟨by simpa using dark, ?_, ?_⟩
  · simp [question, List.isPrefixOf, Ne.symm other]
  · simp [bang, List.isPrefixOf, Ne.symm other]

theorem split_stray {strict : Bool} {page : Text} {front back : List SpelledToken} {token : Token}
    {x root : Text} (prolog : Prolog strict page (front ++ (token, x) :: back) root)
    (plain : ∀ item ∈ front, Plain item) (stray : Stray x) :
    split page = (spelling front ++ x.takeWhile isSpace,
      x.dropWhile isSpace ++ (spelling back ++ root)) := by
  obtain ⟨c, y, text, dark, other⟩ := stray_body (stray_run prolog stray) stray
  have whole : spelling (front ++ (token, x) :: back) ++ root = (spelling front ++
      x.takeWhile isSpace) ++ (x.dropWhile isSpace ++ (spelling back ++ root)) := by
    rw [List.append_assoc, ← List.append_assoc (x.takeWhile isSpace), List.takeWhile_append_dropWhile]
    simp [spelling]
  have later : length? (x ++ (spelling back ++ root)) = some (x.takeWhile isSpace).length := by
    have white : ∀ b ∈ x.takeWhile isSpace, isSpace b = true := List.all_eq_true.mp List.all_takeWhile
    have body := startsBody_length (startsBody_text dark other (y ++ (spelling back ++ root)))
    have join := List.takeWhile_append_dropWhile (p := isSpace) (l := x)
    rw [text] at join
    rw [← join, List.append_assoc, join, length_white white, List.cons_append, body]
    simp
  have length := length_prolog prolog plain
  have rest : spelling ((token, x) :: back) ++ root = x ++ (spelling back ++ root) := by
    simp [spelling]
  rw [rest, later, prolog_spelling prolog, whole] at length
  rw [prolog_spelling prolog, whole]
  apply split_of_length
  rw [length, List.length_append, Option.map_some, Nat.add_comm]

end DocBridge.Preamble

namespace DocBridge.Document

open Text Markup

theorem parse_ok {lenient : Bool} {page : Text} {d : Document} (parsed : parse lenient page = .ok d) :
    d.preamble = (Preamble.split page).1 ∧ charsetOf d.preamble = .ok d.charset ∧
      parseBody (!lenient) (d.charset.decode (Preamble.split page).2) = .ok d.nodes := by
  unfold parse at parsed
  generalize Preamble.split page = parts at parsed ⊢
  obtain ⟨charset, declared, more⟩ := bind_ok parsed
  split at more
  · rename_i read
    cases more
    exact ⟨rfl, declared, read⟩
  · contradiction

theorem tokens_chars {strict : Bool} {c : UInt8} {s : Text} {ts : List Token} (other : c ≠ 0x3C)
    (ok : tokens strict (c :: s) = .ok ts) :
    ∃ data section_ rest later, ts = .chars data section_ :: later ∧
      c :: s = (c :: s).takeWhile (· != 0x3C) ++ rest ∧ tokens strict rest = .ok later := by
  rw [tokens] at ok
  split at ok
  · contradiction
  · rename_i token rest read
    split at ok
    · rcases scanToken_cases read with ⟨_, chars⟩ | ⟨same, _⟩
      · obtain ⟨⟨data, section_, rfl⟩, run⟩ := scanChars_ok chars
        cases later : tokens strict rest with
        | error e =>
          rw [later] at ok
          contradiction
        | ok ts' =>
          rw [later] at ok
          cases ok
          exact ⟨data, section_, rest, ts', rfl, run, later⟩
      · exact absurd same other
    · contradiction

theorem nodes_chars (strict : Bool) (data : Text) (section_ : Bool) (ts : List Token) :
    Build.nodes strict (.chars data section_ :: ts) = Build.nodes strict ts := by
  have first : Build.addToken strict Build.start (.chars data section_) = .ok Build.start := by
    cases strict <;> rfl
  rw [Build.nodes, Build.nodes, List.foldlM_cons, first]
  rfl

theorem parseBody_stray {strict : Bool} {x rest : Text} {nodes : List Node}
    (run : (x ++ rest).takeWhile (· != 0x3C) = x) (stray : Stray x)
    (parsed : parseBody strict (x.dropWhile isSpace ++ rest) = .ok nodes) :
    parseBody strict rest = .ok nodes := by
  obtain ⟨c, y, text, dark, other⟩ := Preamble.stray_body run stray
  obtain ⟨ts, read, built⟩ := bind_ok parsed
  rw [text, List.cons_append] at read
  obtain ⟨data, section_, rest', later, rfl, cut, more⟩ := tokens_chars other read
  have same : rest' = rest := by
    have join := List.takeWhile_append_dropWhile (p := isSpace) (l := x)
    have white : ∀ b ∈ x.takeWhile isSpace, (b != 0x3C) = true := by
      intro b member
      have space : isSpace b = true := List.all_eq_true.mp List.all_takeWhile b member
      rw [bne_iff_ne]
      rintro rfl
      contradiction
    rw [text] at join
    rw [← join, List.append_assoc, List.takeWhile_append_of_pos white] at run
    rw [List.cons_append] at run
    rw [List.append_cancel_left run, List.cons_append] at cut
    exact (List.append_cancel_left (List.cons.inj cut).2).symm
  rw [same] at more
  rw [nodes_chars] at built
  rw [parseBody, more]
  exact built

theorem parsed_of_rendered {lenient : Bool} {page out : Text}
    (rendered : (parse lenient page).map render = .ok out) :
    ∃ d, parse lenient page = .ok d ∧ d.render = out := by
  cases parsed : parse lenient page with
  | error e =>
    rw [parsed] at rendered
    contradiction
  | ok d =>
    rw [parsed] at rendered
    exact ⟨d, rfl, Except.ok.inj rendered⟩

def markedPage : Text := "\ufeff<?xml version=\"1.0\"?>\n<html/>"

def markedProlog : List SpelledToken :=
  [(.chars "\ufeff" false, "\ufeff"),
    (.instruction "xml" "version=\"1.0\"", "<?xml version=\"1.0\"?>"), (.chars "\n" false, "\n")]

theorem markedPage_prolog : Prolog true markedPage markedProlog "<html/>" := by
  have found : findProlog true 4 markedPage = some (markedProlog, ofString "<html/>") := by
    decide +kernel
  exact findProlog_sound found

theorem markedPage_parsed : ∃ d, parse false markedPage = .ok d ∧ d.charset = .utf8 ∧
    d.render = "\n<html></html>" := by
  have rendered : (parse false markedPage).map render = .ok (ofString "\n<html></html>") := by
    decide +kernel
  have none_ : (Preamble.split markedPage).1 = [] := by decide +kernel
  obtain ⟨d, parsed, out⟩ := parsed_of_rendered rendered
  obtain ⟨preamble, declared, _⟩ := parse_ok parsed
  rw [preamble, none_] at declared
  exact ⟨d, parsed, (Except.ok.inj declared).symm, out⟩

def subset : Text := "<!ENTITY a \"b>]\">"

def doctype : Text := "DOCTYPE html [" ++ (subset ++ "]")

def subsetPage : Text :=
  "<?xml version=\"1.0\"?>\n<!-- it's -->\n<!DOCTYPE html [<!ENTITY a \"b>]\">]>\n<html/>"

def subsetProlog : List SpelledToken :=
  [(.instruction "xml" "version=\"1.0\"", "<?xml version=\"1.0\"?>"), (.chars "\n" false, "\n"),
    (.comment " it's ", "<!-- it's -->"), (.chars "\n" false, "\n"),
    (.directive doctype, "<!" ++ (doctype ++ ">")), (.chars "\n" false, "\n")]

theorem doctype_balanced : Preamble.Balanced false doctype := by
  have entity : Preamble.Balanced true subset :=
    Preamble.balanced_bytes (w := "<!ENTITY a ") (by decide)
      (.quoted (.inl rfl) (show 0x22 ∉ ofString "b>]" by decide) (.angle (.done true)))
  exact Preamble.balanced_bytes (w := "DOCTYPE html ") (by decide) (.brackets entity (.done false))

theorem subsetProlog_plain : ∀ item ∈ subsetProlog, Preamble.Plain item := by
  have feed : ∀ b ∈ ofString "\n", isSpace b = true := List.all_eq_true.mp rfl
  simp only [subsetProlog, List.forall_mem_cons, Preamble.Plain, true_and]
  exact ⟨.inl feed, .inl feed, ⟨doctype, rfl, doctype_balanced⟩, .inl feed, by simp⟩

/-- The preamble is the prolog exactly if the prolog by itself is all preamble. That holds of plain
items, which are therefore written out again; stray text behind such items is left out of the page,
and the part behind it is written as if it stood alone. -/
theorem parse_prolog (lenient : Bool) {page : Text} {items : List SpelledToken} {root : Text}
    {d : Document} (prolog : Prolog (!lenient) page items root) (parsed : parse lenient page = .ok d) :
    (d.preamble = spelling items ↔
      Preamble.split (spelling items) = (spelling items, [])) ∧
    ((∀ item ∈ items, Preamble.Plain item) →
      d.preamble = spelling items ∧ spelling items <+: d.render) ∧
    ∀ front token x back, items = front ++ (token, x) :: back →
      (∀ item ∈ front, Preamble.Plain item) → Stray x → d.charset = .utf8 →
      d.render = spelling front ++ (x.takeWhile isSpace ++ Node.renderAll d.nodes) ∧
        parseBody (!lenient) (spelling back ++ root) = .ok d.nodes := by
  obtain ⟨preamble, _, body⟩ := parse_ok parsed
  refine ⟨?_, ?_, ?_⟩
  · rw [preamble, prolog_spelling prolog]
    exact Preamble.split_fst_eq_iff (Preamble.prolog_root prolog)
  · intro plain
    have split := Preamble.split_plain prolog plain
    have same : d.preamble = spelling items := by rw [preamble, split]
    refine ⟨same, ?_⟩
    rw [render, same]
    exact List.prefix_append _ _
  · rintro front token x back rfl plain stray utf8
    have split := Preamble.split_stray prolog plain stray
    rw [split, utf8] at body
    constructor
    · rw [render, preamble, split, utf8, List.append_assoc]
      rfl
    · exact parseBody_stray (stray_run prolog stray) stray body

theorem prologs_with_subset_and_mark :
    (∃ d, parse false subsetPage = .ok d ∧ spelling subsetProlog <+: d.render) ∧
      ∃ d, parse false markedPage = .ok d ∧ d.render = Node.renderAll d.nodes ∧
        parseBody true "<?xml version=\"1.0\"?>\n<html/>" = .ok d.nodes := by
  constructor
  · have found : findProlog true 7 subsetPage = some (subsetProlog, ofString "<html/>") := by
      decide +kernel
    have rendered : (parse false subsetPage).map render =
        .ok (subsetPage.dropLast.dropLast ++ "></html>") := by
      decide +kernel
    obtain ⟨d, parsed, _⟩ := parsed_of_rendered rendered
    have ⟨_, plain, _⟩ := parse_prolog false (findProlog_sound found) parsed
    exact ⟨d, parsed, (plain subsetProlog_plain).2⟩
  · obtain ⟨d, parsed, utf8, _⟩ := markedPage_parsed
    have stray : Stray (ofString "\ufeff") := ⟨by decide, 0xEF, by decide, by decide⟩
    have ⟨_, _, left⟩ := parse_prolog false markedPage_prolog parsed
    exact ⟨d, parsed, left [] _ _ _ rfl (by simp) stray utf8⟩

def KeepsProlog (lenient : Bool) (page : Text) : Prop :=
  ∀ items root d, Prolog (!lenient) page items root → parse lenient page = .ok d →
    spelling items <+: d.render

theorem byte_order_mark_is_lost : ¬ KeepsProlog false markedPage := by
  intro keeps
  obtain ⟨d, parsed, _, rendered⟩ := markedPage_parsed
  have kept := keeps _ _ d markedPage_prolog parsed
  rw [rendered] at kept
  exact absurd kept (by decide +kernel)

end DocBridge.Document
