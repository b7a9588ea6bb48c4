import DocBridge.Proofs.Comment.Copy

/-
The filter and a stream that runs full. The buffer hides the failure until it is handed over, so
tokens are still dealt with after the stream has no room for them; how many is a matter of the
bytes written so far and of the limit alone.
-/
namespace DocBridge.Sink

/-- What is written by the time that a full buffer exceeds the limit. -/
def reach (limit : Nat) : Nat := capacity * (limit / capacity + 1)

theorem lt_reach (limit : Nat) : limit < reach limit := Nat.lt_mul_div_succ limit (by decide)

structure Taking (limit : Nat) (s : Sink) : Prop where
  working : s.failed = false
  room : s.room = some (limit - s.received.length)
  fits : s.received.length ≤ limit
  buffers : capacity ∣ s.received.length
  waiting : s.buffered.length ≤ capacity

structure Refused (limit : Nat) (written : Text) (s : Sink) : Prop where
  failed : s.failed = true
  received : s.received = written.take limit
  beyond : reach limit < written.length

theorem taking_start (limit : Nat) : Taking limit { room := some limit } where
  working := rfl
  room := rfl
  fits := Nat.zero_le _
  buffers := Nat.dvd_zero _
  waiting := Nat.zero_le _

theorem length_content (s : Sink) : s.content.length = s.received.length + s.buffered.length :=
  List.length_append

theorem taking_within {limit : Nat} {s : Sink} (taking : Taking limit s) :
    s.content.length ≤ reach limit := by
  obtain ⟨n, whole⟩ := taking.buffers
  have below : capacity * n ≤ capacity * (limit / capacity) := by
    refine Nat.mul_le_mul_left _ ((Nat.le_div_iff_mul_le (by decide)).mpr ?_)
    rw [Nat.mul_comm, ← whole]
    exact taking.fits
  have waiting := taking.waiting
  rw [length_content, reach, Nat.mul_add, Nat.mul_one]
  omega

theorem flush_taking {limit : Nat} {s : Sink} (taking : Taking limit s) :
    s.flush.received = s.content.take limit ∧
      s.flush.failed = decide (limit < s.content.length) ∧
      s.flush.room = some (limit - s.content.length) := by
  have size := length_content s
  have fits := taking.fits
  simp only [flush, taking.room]
  by_cases room : s.buffered.length ≤ limit - s.received.length
  · rw [if_pos room, List.take_of_length_le (by omega), decide_eq_false (by omega)]
    refine ⟨rfl, taking.working, ?_⟩
    simp only [Option.some.injEq]
    omega
  · rw [if_neg room, decide_eq_true (by omega)]
    refine ⟨?_, rfl, ?_⟩
    · rw [content, List.take_append, List.take_of_length_le fits]
    · simp only [Option.some.injEq]
      omega

theorem flush_fitting {limit : Nat} {s : Sink} (taking : Taking limit s)
    (full : s.buffered.length = capacity) (fits : s.content.length ≤ limit) :
    Taking limit s.flush ∧ s.flush.content = s.content := by
  obtain ⟨received, failed, room⟩ := flush_taking taking
  rw [List.take_of_length_le fits] at received
  refine ⟨⟨?_, ?_, ?_, ?_, ?_⟩, ?_⟩
  · rw [failed, decide_eq_false (by omega)]
  · rw [room, received]
  · rw [received]
    exact fits
  · rw [received, length_content, full]
    exact Nat.dvd_add taking.buffers (Nat.dvd_refl _)
  · rw [flush_buffered]
    exact Nat.zero_le _
  · rw [content, received, flush_buffered, List.append_nil]

theorem full_length {limit : Nat} {s : Sink} (taking : Taking limit s)
    (full : s.buffered.length = capacity) (exceeds : limit < s.content.length) :
    s.content.length = reach limit := by
  refine Nat.le_antisymm (taking_within taking) ?_
  obtain ⟨n, whole⟩ := taking.buffers
  rw [length_content, full, whole] at exceeds ⊢
  have least : limit / capacity < n + 1 :=
    (Nat.div_lt_iff_lt_mul (by decide)).mpr (by rw [Nat.mul_comm, Nat.mul_add]; omega)
  rw [← Nat.mul_succ]
  exact Nat.mul_le_mul_left _ least

theorem write_failed {s : Sink} (failed : s.failed = true) (text : Text) : s.write text = s := by
  rw [write, if_pos failed]

/-- Adding a text leaves the stream working or ends it, according to what has been written. -/
theorem write_taking {limit : Nat} {s : Sink} (taking : Taking limit s) (text : Text) :
    (Taking limit (s.write text) ∧ (s.write text).content = s.content ++ text) ∨
      Refused limit (s.content ++ text) (s.write text) := by
  fun_induction write s text with
  | case1 s text failed =>
    rw [taking.working] at failed
    contradiction
  | case2 s text free working enough =>
    have waiting := taking.waiting
    refine .inl ⟨{ taking with waiting := ?_ }, by simp [content]⟩
    simp only [List.length_append]
    omega
  | case3 s text free working overflow ih =>
    -- The buffer is filled up, and there is more to come.
    have waiting := taking.waiting
    have full : (s.buffered ++ text.take free).length = capacity := by
      rw [List.length_append, List.length_take]
      omega
    have filled : Taking limit { s with buffered := s.buffered ++ text.take free } :=
      { taking with waiting := Nat.le_of_eq full }
    generalize next : { s with buffered := s.buffered ++ text.take free } = s' at filled ih ⊢
    have full : s'.buffered.length = capacity := by rw [← next]; exact full
    have split : s.content ++ text = s'.content ++ text.drop free := by
      rw [← next]
      simp [content]
    rw [split]
    by_cases fits : s'.content.length ≤ limit
    · obtain ⟨taking', same⟩ := flush_fitting filled full fits
      rw [← same]
      exact ih taking'
    · obtain ⟨received, failed, _⟩ := flush_taking filled
      rw [decide_eq_true (by omega)] at failed
      rw [write_failed failed]
      refine .inr ⟨failed, ?_, ?_⟩
      · rw [received, List.take_append_of_le_length (by omega)]
      · rw [List.length_append, full_length filled full (by omega), List.length_drop]
        omega

end DocBridge.Sink

namespace DocBridge.Filter

def outputOf (l : Lookahead) (tokens : List Token) (n : Nat) : Text :=
  (upTo tokens n).flatMap fun (t, i) => (written l tokens i t).1

def statsOf (l : Lookahead) (tokens : List Token) (n : Nat) : Stats where
  tokens := tokens.length
  docComments := (upTo tokens n).countP fun (t, _) => t.kind = .docComment
  changed := (upTo tokens n).countP fun (t, i) => (written l tokens i t).1 ≠ t.text
  warnings := (upTo tokens n).countP fun (t, i) => (written l tokens i t).2.isSome

def recordsOf (l : Lookahead) (name : Text) (tokens : List Token) (n : Nat) : List Log.Record :=
  (upTo tokens n).filterMap fun (t, i) => (written l tokens i t).2.map (warningRecord name)

theorem outputOf_succ {l : Lookahead} {tokens : List Token} {n : Nat} {t : Token}
    (here : tokens[n]? = some t) :
    outputOf l tokens (n + 1) = outputOf l tokens n ++ (written l tokens n t).1 := by
  simp [outputOf, upTo_succ here]

theorem outputOf_le (l : Lookahead) (tokens : List Token) {m n : Nat} (le : m ≤ n) :
    outputOf l tokens m <+: outputOf l tokens n := by
  obtain ⟨later, split⟩ := List.take_prefix_take_left (l := tokens) le
  rw [outputOf, outputOf, upTo, upTo, ← split, List.zipIdx_append, List.flatMap_append]
  exact List.prefix_append _ _

structure Handled (l : Lookahead) (name : Text) (tokens : List Token) (n : Nat) (s : State) :
    Prop where
  header : s.headerPassed = passedBefore tokens n
  stats : s.stats = statsOf l tokens n
  logs : s.logs = recordsOf l name tokens n

theorem step_handled {l : Lookahead} {name : Text} {tokens : List Token} {n : Nat} {s : State}
    {t : Token} (handled : Handled l name tokens n s) (here : tokens[n]? = some t) :
    Handled l name tokens (n + 1) (step l name ⟨tokens, n⟩ t s) ∧
      (step l name ⟨tokens, n⟩ t s).sink = s.sink.write (written l tokens n t).1 := by
  have text : tokenText l s.headerPassed ⟨tokens, n⟩ t = written l tokens n t := by
    rw [written, handled.header]
  refine ⟨⟨?_, ?_, ?_⟩, ?_⟩ <;> simp only [step, text]
  · rw [handled.header, passedBefore_succ here]
  · simp [handled.stats, statsOf, upTo_succ here]
  · rw [handled.logs, recordsOf, recordsOf, upTo_succ here, List.filterMap_append]
    simp only [List.filterMap_cons, List.filterMap_nil]
    cases (written l tokens n t).2 <;> rfl

structure Running (l : Lookahead) (name : Text) (limit : Nat) (tokens : List Token) (n : Nat)
    (s : State) : Prop where
  handled : Handled l name tokens n s
  taking : s.sink.Taking limit
  content : s.sink.content = outputOf l tokens n

theorem running_within {l : Lookahead} {name : Text} {limit : Nat} {tokens : List Token} {n : Nat}
    {s : State} (running : Running l name limit tokens n s) {j : Nat} (le : j ≤ n) :
    (outputOf l tokens j).length ≤ Sink.reach limit := by
  have within := Sink.taking_within running.taking
  rw [running.content] at within
  exact Nat.le_trans (outputOf_le l tokens le).length_le within

/-- The stream fails at the `k`-th token, at which the output first goes beyond the reach. -/
structure Stopped (l : Lookahead) (name : Text) (limit : Nat) (tokens : List Token) (k : Nat)
    (s : State) : Prop where
  inside : k ≤ tokens.length
  handled : Handled l name tokens k s
  refused : s.sink.Refused limit (outputOf l tokens k)
  first : ∀ j < k, (outputOf l tokens j).length ≤ Sink.reach limit

theorem step_running {l : Lookahead} {name : Text} {limit : Nat} {tokens : List Token} {n : Nat}
    {s : State} {t : Token} (running : Running l name limit tokens n s)
    (here : tokens[n]? = some t) :
    Running l name limit tokens (n + 1) (step l name ⟨tokens, n⟩ t s) ∨
      Stopped l name limit tokens (n + 1) (step l name ⟨tokens, n⟩ t s) := by
  obtain ⟨handled, sink⟩ := step_handled running.handled here
  have added := Sink.write_taking running.taking (written l tokens n t).1
  rw [← sink, running.content, ← outputOf_succ here] at added
  rcases added with ⟨taking, content⟩ | refused
  · exact .inl ⟨handled, taking, content⟩
  · have inside : n < tokens.length := (List.getElem?_eq_some_iff.mp here).1
    exact .inr ⟨inside, handled, refused, fun j before => running_within running (by omega)⟩

theorem steps_running {l : Lookahead} {name : Text} {limit : Nat} {tokens : List Token}
    (rest : List Token) : ∀ (n : Nat) (s : State), n ≤ tokens.length → tokens.drop n = rest →
      Running l name limit tokens n s →
      (∃ k, Stopped l name limit tokens k (steps l name tokens n rest s)) ∨
        ∃ s', Running l name limit tokens tokens.length s' ∧
          steps l name tokens n rest s = { s' with sink := s'.sink.flush } := by
  induction rest with
  | nil =>
    intro n s bound suffix running
    have last : n = tokens.length := Nat.le_antisymm bound (List.drop_eq_nil_iff.mp suffix)
    exact .inr ⟨s, last ▸ running, rfl⟩
  | cons t rest ih =>
    intro n s bound suffix running
    have here : tokens[n]? = some t := by rw [← List.head?_drop, suffix]; rfl
    have next : tokens.drop (n + 1) = rest := by rw [← List.tail_drop, suffix]; rfl
    have inside : n < tokens.length := (List.getElem?_eq_some_iff.mp here).1
    rw [steps]
    rcases step_running running here with more | stopped
    · rw [more.taking.working]
      exact ih (n + 1) _ inside next more
    · rw [stopped.refused.failed]
      exact .inl ⟨n + 1, stopped⟩

theorem outputOf_all (l : Lookahead) (name src : Text) :
    (process l name none src).output =
      outputOf l (Token.stream src) (Token.stream src).length := by
  rw [process_output, outputOf, upTo_length]

theorem running_start (l : Lookahead) (name : Text) (limit : Nat) (tokens : List Token) :
    Running l name limit tokens 0
      { stats := { tokens := tokens.length }, sink := { room := some limit } } where
  handled := ⟨rfl, rfl, rfl⟩
  taking := Sink.taking_start limit
  content := rfl

/-- A stream that takes `limit` bytes receives just these of the whole output, and the run fails if
there are more. Counts and warnings are those of the tokens up to the first that brings the output
beyond the buffer which the limit falls into, or of all tokens if none does. -/
theorem process_stops_beyond_limit (l : Lookahead) (name src : Text) (limit : Nat) :
    let tokens := Token.stream src
    let full := (process l name none src).output
    let outcome := process l name (some limit) src
    let produced := fun k => (outputOf l tokens k).length
    let bound := 4096 * (limit / 4096 + 1)
    full = outputOf l tokens tokens.length ∧
    outcome.output = full.take (min limit full.length) ∧
    outcome.failure = (if limit < full.length then some (writeFailure name streamFull) else none) ∧
    ∃ k ≤ tokens.length,
      ((bound < produced k ∧ ∀ j < k, produced j ≤ bound) ∨
        (k = tokens.length ∧ ∀ j ≤ tokens.length, produced j ≤ bound)) ∧
      outcome.stats = statsOf l tokens k ∧ outcome.logs = recordsOf l name tokens k := by
  intro tokens full outcome produced bound
  have all : full = outputOf l tokens tokens.length := outputOf_all l name src
  have least : full.take (min limit full.length) = full.take limit :=
    List.take_eq_take_min.symm
  refine ⟨all, ?_⟩
  have run := steps_running tokens 0 _ (Nat.zero_le _) List.drop_zero
    (running_start l name limit tokens)
  rw [least]
  rcases run with ⟨k, stopped⟩ | ⟨s, running, ended⟩
  · obtain ⟨later, whole⟩ := outputOf_le l tokens stopped.inside
    have beyond := stopped.refused.beyond
    have exceeds : limit < (outputOf l tokens k).length :=
      Nat.lt_trans (Sink.lt_reach limit) beyond
    rw [all, ← whole]
    refine ⟨?_, ?_, k, stopped.inside, .inl ⟨beyond, stopped.first⟩, ?_, ?_⟩
    · rw [List.take_append_of_le_length (Nat.le_of_lt exceeds)]
      exact stopped.refused.received
    · rw [if_pos (by rw [List.length_append]; omega)]
      exact if_pos stopped.refused.failed
    · exact stopped.handled.stats
    · exact stopped.handled.logs
  · obtain ⟨received, failed, _⟩ := Sink.flush_taking running.taking
    rw [running.content] at received failed
    have last : outcome = { output := s.sink.flush.received, stats := s.stats, logs := s.logs
                            failure := if s.sink.flush.failed then
                              some (writeFailure name streamFull) else none } := by
      simp only [outcome, process]
      rw [ended]
    rw [last, all, received, failed]
    refine ⟨rfl, ?_, tokens.length, Nat.le_refl _, .inr ⟨rfl, fun j le => ?_⟩, ?_, ?_⟩
    · simp only [decide_eq_true_eq]
    · exact running_within running le
    · exact running.handled.stats
    · exact running.handled.logs

end DocBridge.Filter
