import DocBridge.Comment.Filter
import DocBridge.Proofs.Token.Partition
import Mathlib.Data.List.Basic

/-
What the filter writes to a stream that takes everything: the tokens in order, each doc comment in
Doxygen's dialect and everything else as it stands, and what it counts and logs on the way.
-/
namespace DocBridge.Sink

def Open (s : Sink) : Prop := s.room = none ∧ s.failed = false

def content (s : Sink) : Text := s.received ++ s.buffered

theorem flush_open {s : Sink} (isOpen : s.Open) :
    s.flush.Open ∧ s.flush.received = s.content ∧ s.flush.content = s.content := by
  simp only [flush, isOpen.1, content, List.append_nil, and_self, and_true]
  exact ⟨rfl, isOpen.2⟩

theorem write_open {s : Sink} (isOpen : s.Open) (text : Text) :
    (s.write text).Open ∧ (s.write text).content = s.content ++ text := by
  fun_induction write s text with
  | case1 s text failed =>
    rw [isOpen.2] at failed
    contradiction
  | case2 s text free failed fits =>
    exact ⟨isOpen, by simp [content]⟩
  | case3 s text free failed overflow ih =>
    -- The buffer is filled up and handed over; the rest goes the same way.
    have filled : Open { s with buffered := s.buffered ++ text.take free } := isOpen
    have flushed := flush_open filled
    have more := ih flushed.1
    refine ⟨more.1, ?_⟩
    rw [more.2, flushed.2.2]
    simp [content]

end DocBridge.Sink

namespace DocBridge.Dialect

theorem comment_warns_iff (l : Lookahead) (headerPassed : Bool) (c : Cursor) (text : Text) :
    (comment l headerPassed c text).2.isSome = true ↔
      headerPassed = true ∧ Text.contains "@var" (applyRules commonRules text) = true ∧
        (resolveVariable c l).1 = none := by
  simp only [comment]
  cases headerPassed with
  | false => simp
  | true =>
    by_cases hasVar : Text.contains "@var" (applyRules commonRules text) = true
    · rcases resolution : resolveVariable c l with ⟨found, line⟩
      cases found <;> simp [hasVar]
    · simp [hasVar]

end DocBridge.Dialect

namespace DocBridge.Filter

def passedBefore (tokens : List Token) (i : Nat) : Bool :=
  (tokens.take i).any fun t => t.kind == .keyword .namespaceKw

def written (l : Lookahead) (tokens : List Token) (i : Nat) (t : Token) : Text × Option Fault :=
  tokenText l (passedBefore tokens i) ⟨tokens, i⟩ t

theorem written_other {l : Lookahead} {tokens : List Token} {i : Nat} {t : Token}
    (other : t.kind ≠ .docComment) : written l tokens i t = (t.text, none) := by
  simp [written, tokenText, other]

theorem written_doc {l : Lookahead} {tokens : List Token} {i : Nat} {t : Token}
    (doc : t.kind = .docComment) :
    written l tokens i t = Dialect.comment l (passedBefore tokens i) ⟨tokens, i⟩ t.text := by
  simp [written, tokenText, doc]

def upTo (tokens : List Token) (n : Nat) : List (Token × Nat) := (tokens.take n).zipIdx

theorem upTo_succ {tokens : List Token} {n : Nat} {t : Token} (here : tokens[n]? = some t) :
    upTo tokens (n + 1) = upTo tokens n ++ [(t, n)] := by
  obtain ⟨inside, rfl⟩ := List.getElem?_eq_some_iff.mp here
  rw [upTo, upTo, List.take_succ_eq_append_getElem inside, List.zipIdx_append, List.length_take,
    Nat.min_eq_left (Nat.le_of_lt inside), Nat.zero_add]
  rfl

theorem passedBefore_succ {tokens : List Token} {n : Nat} {t : Token} (here : tokens[n]? = some t) :
    passedBefore tokens (n + 1) = (passedBefore tokens n || t.kind == .keyword .namespaceKw) := by
  obtain ⟨inside, rfl⟩ := List.getElem?_eq_some_iff.mp here
  rw [passedBefore, passedBefore, List.take_succ_eq_append_getElem inside, List.any_append]
  simp only [List.any_cons, List.any_nil, Bool.or_false]

/-- The filter has dealt with the first `n` tokens and the stream has taken all of it. -/
structure Dealt (l : Lookahead) (tokens : List Token) (n : Nat) (s : State) : Prop where
  header : s.headerPassed = passedBefore tokens n
  taken : s.sink.Open
  content : s.sink.content = (upTo tokens n).flatMap fun (t, i) => (written l tokens i t).1
  total : s.stats.tokens = tokens.length
  docs : s.stats.docComments = (upTo tokens n).countP fun (t, _) => t.kind = .docComment
  changed : s.stats.changed =
    (upTo tokens n).countP fun (t, i) => (written l tokens i t).1 ≠ t.text
  warnings : s.stats.warnings = (upTo tokens n).countP fun (t, i) => (written l tokens i t).2.isSome
  records : s.logs.length = s.stats.warnings
  levels : ∀ record ∈ s.logs, record.level = .warn

theorem dealt_start (l : Lookahead) (tokens : List Token) :
    Dealt l tokens 0 { stats := { tokens := tokens.length }, sink := { room := none } } where
  header := rfl
  taken := ⟨rfl, rfl⟩
  content := rfl
  total := rfl
  docs := rfl
  changed := rfl
  warnings := rfl
  records := rfl
  levels := by simp

theorem step_dealt {l : Lookahead} {tokens : List Token} {n : Nat} {s : State} {t : Token}
    (name : Text) (dealt : Dealt l tokens n s) (here : tokens[n]? = some t) :
    Dealt l tokens (n + 1) (step l name ⟨tokens, n⟩ t s) := by
  have text : tokenText l s.headerPassed ⟨tokens, n⟩ t = written l tokens n t := by
    rw [written, dealt.header]
  have sink := Sink.write_open dealt.taken (written l tokens n t).1
  constructor <;> simp only [step, text]
  case header => rw [dealt.header, passedBefore_succ here]
  case taken => exact sink.1
  case content => rw [sink.2, dealt.content, upTo_succ here]; simp
  case total => exact dealt.total
  case docs => rw [dealt.docs, upTo_succ here]; simp
  case changed => rw [dealt.changed, upTo_succ here]; simp
  case warnings => rw [dealt.warnings, upTo_succ here]; simp
  case records =>
    rw [List.length_append, dealt.records]
    cases (written l tokens n t).2 <;> rfl
  case levels =>
    intro record member
    rcases List.mem_append.mp member with old | new
    · exact dealt.levels record old
    · obtain ⟨warning, _, rfl⟩ := Option.map_eq_some_iff.mp (Option.mem_toList.mp new)
      rfl

theorem steps_dealt {l : Lookahead} {tokens : List Token} (name : Text) (rest : List Token) :
    ∀ (n : Nat) (s : State), n ≤ tokens.length → tokens.drop n = rest → Dealt l tokens n s →
      ∃ s', Dealt l tokens tokens.length s' ∧
        steps l name tokens n rest s = { s' with sink := s'.sink.flush } := by
  induction rest with
  | nil =>
    intro n s bound suffix dealt
    have last : n = tokens.length := Nat.le_antisymm bound (List.drop_eq_nil_iff.mp suffix)
    exact ⟨s, last ▸ dealt, rfl⟩
  | cons t rest ih =>
    intro n s bound suffix dealt
    have here : tokens[n]? = some t := by rw [← List.head?_drop, suffix]; rfl
    have next : tokens.drop (n + 1) = rest := by rw [← List.tail_drop, suffix]; rfl
    have inside : n < tokens.length := (List.getElem?_eq_some_iff.mp here).1
    have done := step_dealt name dealt here
    simp only [steps, done.taken.2]
    exact ih (n + 1) _ inside next done

theorem upTo_length (tokens : List Token) : upTo tokens tokens.length = tokens.zipIdx := by
  rw [upTo, List.take_length]

theorem process_dealt (l : Lookahead) (name src : Text) :
    ∃ s, Dealt l (Token.stream src) (Token.stream src).length s ∧
      process l name none src = ⟨s.sink.content, s.stats, s.logs, none⟩ := by
  have start := dealt_start l (Token.stream src)
  obtain ⟨s, dealt, run⟩ := steps_dealt name (Token.stream src) 0 _ (Nat.zero_le _) List.drop_zero start
  have flushed := Sink.flush_open dealt.taken
  refine ⟨s, dealt, ?_⟩
  rw [process, run, flushed.2.1, flushed.1.2]
  rfl

theorem process_output (l : Lookahead) (name src : Text) :
    (process l name none src).output =
      (Token.stream src).zipIdx.flatMap fun (t, i) => (written l (Token.stream src) i t).1 := by
  obtain ⟨s, dealt, run⟩ := process_dealt l name src
  rw [run, ← upTo_length, ← dealt.content]

theorem flatMap_source (src : Text) :
    ((Token.stream src).zipIdx.flatMap fun (t, _) => t.text) = src :=
  calc (Token.stream src).zipIdx.flatMap (fun p => p.1.text)
      = ((Token.stream src).zipIdx.map Prod.fst).flatMap Token.text := by rw [List.flatMap_map]
    _ = src := by rw [List.zipIdx_map_fst, Token.stream_join]

theorem output_without_doc (l : Lookahead) (name src : Text)
    (plain : ∀ t ∈ Token.stream src, t.kind ≠ .docComment) :
    (process l name none src).output = src := by
  have same : ∀ p ∈ (Token.stream src).zipIdx,
      (written l (Token.stream src) p.2 p.1).1 = p.1.text := by
    intro p member
    rw [written_other (plain p.1 (List.fst_mem_of_mem_zipIdx member))]
  rw [process_output]
  exact (List.flatMap_congr same).trans (flatMap_source src)

/-- Filtering into a stream that never fails copies every token but the doc comments, which are
rewritten where they stand, and counts the tokens, the doc comments, those that changed and those
whose variable was not found. There is one warning in the log for each of the last. -/
theorem process_copies_all_but_doc_comments (l : Lookahead) (name src : Text) :
    let tokens := Token.stream src
    let rewrite := fun (i : Nat) (t : Token) =>
      Dialect.comment l (passedBefore tokens i) ⟨tokens, i⟩ t.text
    let outcome := process l name none src
    outcome.failure = none ∧
    outcome.output = (tokens.zipIdx.flatMap fun (t, i) =>
      if t.kind = .docComment then (rewrite i t).1 else t.text) ∧
    outcome.stats.tokens = tokens.length ∧
    outcome.stats.docComments = tokens.countP (fun t => t.kind = .docComment) ∧
    outcome.stats.changed = (tokens.zipIdx.countP fun (t, i) =>
      t.kind = .docComment ∧ (rewrite i t).1 ≠ t.text) ∧
    outcome.stats.warnings = outcome.logs.countP (fun record => record.level = .warn) ∧
    outcome.stats.warnings = (tokens.zipIdx.countP fun (t, i) =>
      t.kind = .docComment ∧ passedBefore tokens i ∧
        Text.contains "@var" (Dialect.applyRules Dialect.commonRules t.text) ∧
        (Dialect.resolveVariable ⟨tokens, i⟩ l).1 = none) ∧
    ((∀ t ∈ tokens, t.kind ≠ .docComment) → outcome.output = src) := by
  intro tokens rewrite outcome
  obtain ⟨s, dealt, run⟩ := process_dealt l name src
  have result : outcome = ⟨s.sink.content, s.stats, s.logs, none⟩ := run
  have docs := dealt.docs
  have changed := dealt.changed
  have warnings := dealt.warnings
  rw [upTo_length] at docs changed warnings
  refine ⟨by rw [result], ?_, by rw [result]; exact dealt.total, ?_, ?_, ?_, ?_,
    output_without_doc l name src⟩
  · refine (process_output l name src).trans (List.flatMap_congr ?_)
    intro p _
    simp only [written, tokenText]
    split <;> rfl
  · rw [result, ← List.zipIdx_map_fst 0 tokens, List.countP_map]
    exact docs
  · rw [result]
    refine changed.trans (List.countP_congr ?_)
    intro p _
    by_cases doc : p.1.kind = .docComment
    · simp [written_doc doc, doc, rewrite, tokens]
    · simp [written_other doc, doc]
  · rw [result, ← dealt.records]
    exact (List.countP_eq_length.mpr (by simpa using dealt.levels)).symm
  · rw [result]
    refine warnings.trans (List.countP_congr ?_)
    intro p _
    by_cases doc : p.1.kind = .docComment
    · simp [written_doc doc, doc, Dialect.comment_warns_iff, tokens]
    · simp [written_other doc, doc]

end DocBridge.Filter
