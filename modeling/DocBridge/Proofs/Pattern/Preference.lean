import DocBridge.Proofs.Pattern.Pieces

/-
Which match is found. Backtracking finds a match wherever the pattern has a reading; which of
several readings it takes is followed here step by step: a lazy repetition stops as soon as the
rest of the pattern goes on, a greedy one as late as that is so.
-/
namespace DocBridge.Pattern

open Place

variable {α β : Type}

theorem reads_then {p q : Pattern α} {prev : Option α} {x y rest : List α} {g h : Groups α}
    (first : Reads p prev x (y ++ rest) g) (second : Reads q (lastOf prev x) y rest h) :
    Reads (.seq p q) prev (x ++ y) rest (h ++ g) :=
  ⟨x, y, g, h, rfl, rfl, first, second⟩

theorem reads_held {p : Pattern α} {prev : Option α} {x rest : List α} {g : Groups α} (i : Nat)
    (inner : Reads p prev x rest g) : Reads (.group i p) prev x rest ((i, x) :: g) :=
  ⟨g, rfl, inner⟩

theorem reads_literal [BEq α] [LawfulBEq α] (w : List α) (prev : Option α) (rest : List α) :
    Reads (word w) prev w rest [] :=
  reads_word.mpr ⟨rfl, rfl⟩

theorem rounds_start {round : Option α → List α → List α → Groups α → Prop} {prev : Option α}
    {x rest : List α} {g : Groups α} (rounds : Rounds round prev x rest g) :
    x = [] ∨ ∃ y z h i, x = y ++ z ∧ y ≠ [] ∧ round prev y (z ++ rest) h ∧
      Rounds round (lastOf prev y) z rest i := by
  induction rounds with
  | leave => exact .inl rfl
  | @again prev x y rest g h one more ih =>
    by_cases empty : x = []
    · subst empty
      exact ih
    · exact .inr ⟨x, y, g, h, rfl, empty, one, more⟩

def Complete (p : Pattern α) (step : (Place α → Option β) → Place α → Option β) : Prop :=
  ∀ (full : List α) (k : Place α → Option β) (s : Place α) (x rest : List α) (g : Groups α),
    s.Within full → s.rest = x ++ rest → Reads p s.prev x rest g →
    (∀ t h, Leads full s t x h → k t ≠ none) → step k s ≠ none

theorem leads_rest {full : List α} {s t : Place α} {x rest : List α} {g : Groups α}
    (lead : Leads full s t x g) (split : s.rest = x ++ rest) : t.rest = rest := by
  have both := lead.rest
  rw [split, List.append_cancel_left_eq] at both
  exact both.symm

theorem orElse_ne_none {a : Option β} {b : Unit → Option β} (some_ : a ≠ none ∨ b () ≠ none) :
    a.orElse b ≠ none := by
  intro nothing
  rw [Option.orElse_eq_or, Option.or_eq_none_iff] at nothing
  exact some_.elim (· nothing.1) (· nothing.2)

theorem rounds_complete {p : Pattern α} {step : (Place α → Option β) → Place α → Option β}
    (complete : Complete p step) (greedy : Bool) (fuel : Nat) :
    ∀ (full : List α) (k : Place α → Option β) (s : Place α) (x rest : List α) (g : Groups α),
      x.length ≤ fuel → s.Within full → s.rest = x ++ rest → Rounds (Reads p) s.prev x rest g →
      (∀ t h, Leads full s t x h → k t ≠ none) → rounds greedy step k fuel s ≠ none := by
  induction fuel with
  | zero =>
    intro full k s x rest g short here split reads goes
    obtain rfl := List.eq_nil_of_length_eq_zero (Nat.le_zero.mp short)
    exact goes s [] (leads_refl here)
  | succ fuel ih =>
    intro full k s x rest g short here split reads goes
    have either : k s ≠ none ∨
        step (fun t => if s.pos < t.pos then rounds greedy step k fuel t else none) s ≠ none := by
      rcases rounds_start reads with rfl | ⟨y, z, h, i, rfl, some_, one, more⟩
      · exact .inl (goes s [] (leads_refl here))
      · right
        have one_ : 1 ≤ y.length := List.length_pos_iff.mpr some_
        rw [List.append_assoc] at split
        apply complete full _ s y (z ++ rest) h here split one
        intro t g' lead
        have further : s.pos < t.pos := by
          rw [lead.pos]
          omega
        rw [if_pos further]
        rw [List.length_append] at short
        apply ih full k t z rest i (by omega) lead.within (leads_rest lead split)
        · rw [lead.prev]
          exact more
        · intro u g'' later
          exact goes u _ (leads_trans lead later)
    rw [rounds]
    cases greedy with
    | true => exact orElse_ne_none either.symm
    | false => exact orElse_ne_none either

/-- Backtracking gives up only where the pattern has no reading that can be continued. -/
theorem run_complete (p : Pattern α) : Complete (β := β) p (run p) := by
  induction p with
  | empty =>
    intro full k s x rest g here split reads goes
    obtain ⟨rfl, -⟩ := reads
    exact goes s [] (leads_refl here)
  | one accepts =>
    intro full k s x rest g here split reads goes
    obtain ⟨⟨a, rfl, accepted⟩, -⟩ := reads
    have next : s.rest = a :: rest := split
    rw [run, next]
    simp only [accepted, ↓reduceIte]
    exact goes _ [] (leads_one here next)
  | look holds =>
    intro full k s x rest g here split reads goes
    obtain ⟨rfl, -, held⟩ := reads
    have same : s.rest = rest := split
    rw [run, same, if_pos held]
    exact goes s [] (leads_refl here)
  | seq p q ihp ihq =>
    intro full k s x rest g here split reads goes
    obtain ⟨y, z, h, i, rfl, -, first, second⟩ := reads
    rw [List.append_assoc] at split
    apply ihp full _ s y (z ++ rest) h here split first
    intro t h' lead
    apply ihq full k t z rest i lead.within (leads_rest lead split)
    · rw [lead.prev]
      exact second
    · intro u i' later
      exact goes u _ (leads_trans lead later)
  | alt p q ihp ihq =>
    intro full k s x rest g here split reads goes
    apply orElse_ne_none
    rcases reads with left | right
    · exact .inl (ihp full k s x rest g here split left goes)
    · exact .inr (ihq full k s x rest g here split right goes)
  | star greedy p ih =>
    intro full k s x rest g here split reads goes
    have enough : x.length ≤ s.rest.length := by
      rw [split, List.length_append]
      omega
    exact rounds_complete ih greedy _ full k s x rest g enough here split reads goes
  | group i p ih =>
    intro full k s x rest g here split reads goes
    obtain ⟨h, -, inner⟩ := reads
    apply ih full _ s x rest h here split inner
    intro t h' lead
    exact goes _ _ (leads_group i here lead)

theorem matchAt_complete {p : Pattern α} {prev : Option α} {x rest : List α} {g : Groups α}
    (reads : Reads p prev x rest g) : ∃ m, p.matchAt? prev (x ++ rest) = some m := by
  have found := run_complete p _ some (start prev (x ++ rest)) x rest g (start_within prev _) rfl
    reads (by simp)
  obtain ⟨t, ran⟩ := Option.ne_none_iff_exists'.mp found
  exact ⟨_, congrArg (Option.map _) ran⟩

theorem reads_found {p : Pattern α} {prev : Option α} {x rest : List α} {g : Groups α}
    (reads : Reads p prev x rest g) (some_ : ∀ r h, ¬ Reads p prev [] r h) :
    ∃ m rest', x ++ rest = m.text ++ rest' ∧ m.text ≠ [] ∧
      p.matchAt? prev (m.text ++ rest') = some m := by
  obtain ⟨m, found⟩ := matchAt_complete reads
  obtain ⟨rest', whole, reads'⟩ := matchAt_reads found
  rw [whole] at found
  refine ⟨m, rest', whole, ?_, found⟩
  intro empty
  rw [empty] at reads'
  exact some_ rest' m.groups reads'

theorem run_eq_none {p : Pattern α} {full : List α} {k : Place α → Option β} {s : Place α}
    (here : s.Within full)
    (stuck : ∀ t x g, Leads full s t x g → Reads p s.prev x t.rest g → k t = none) :
    run p k s = none := by
  rw [Option.eq_none_iff_forall_ne_some]
  intro r ran
  obtain ⟨t, x, g, lead, reads, done⟩ := run_sound p full k s r here ran
  rw [stuck t x g lead reads] at done
  contradiction

/-- Of all ways through `p` from `s` the one to `t` is taken, so that `k` goes on from there. -/
structure Takes (full : List α) (p : Pattern α) (k : Place α → Option β) (s t : Place α)
    (x : List α) (g : Groups α) : Prop where
  lead : Leads full s t x g
  taken : run p k s = k t

section Ways

variable {full : List α} {p q : Pattern α} {k : Place α → Option β} {s t u : Place α}
  {x y rest : List α} {g h : Groups α} {f : α → Bool}

theorem takes_one {a : α} (here : s.Within full) (next : s.rest = a :: rest)
    (accepted : f a = true) : ∃ t, Takes full (.one f) k s t [a] [] := by
  refine ⟨_, leads_one here next, ?_⟩
  rw [run, next]
  simp only [accepted, ↓reduceIte]

theorem takes_seq (first : Takes full p (run q k) s t x g) (second : Takes full q k t u y h) :
    Takes full (.seq p q) k s u (x ++ y) (h ++ g) where
  lead := leads_trans first.lead second.lead
  taken := first.taken.trans second.taken

theorem takes_group (i : Nat) (here : s.Within full)
    (inner : Takes full p (fun t => k { t with groups := (i, s.pos, t.pos) :: t.groups }) s t x g) :
    ∃ u, Takes full (.group i p) k s u x ((i, x) :: g) ∧ u.rest = t.rest :=
  ⟨_, ⟨leads_group i here inner.lead, inner.taken⟩, rfl⟩

theorem takes_word [BEq α] [LawfulBEq α] {w : List α} (here : s.Within full)
    (split : s.rest = w ++ rest) : ∃ t, Takes full (word w) k s t w [] := by
  induction w generalizing s with
  | nil => exact ⟨s, leads_refl here, rfl⟩
  | cons a w ih =>
    cases w with
    | nil => exact takes_one (f := (· == a)) here split (beq_self_eq_true a)
    | cons b w =>
      obtain ⟨t, first⟩ := takes_one (f := (· == a)) (k := run (word (b :: w)) k) here split
        (beq_self_eq_true a)
      obtain ⟨u, later⟩ := ih first.lead.within (leads_rest first.lead split)
      exact ⟨u, takes_seq first later⟩

theorem takes_opt (inner : Takes full p k s t x g) (goes : k t ≠ none) :
    Takes full (opt true p) k s t x g where
  lead := inner.lead
  taken := by
    obtain ⟨r, done⟩ := Option.ne_none_iff_exists'.mp goes
    have ran : run p k s = some r := inner.taken.trans done
    rw [done]
    simp only [opt, ↓reduceIte, run, ran, Option.orElse_some]

theorem takes_opt_out (here : s.Within full) (fails : run p k s = none) :
    Takes full (opt true p) k s s [] [] where
  lead := leads_refl here
  taken := by simp only [opt, ↓reduceIte, run, fails, Option.orElse_none]

/-- A lazy repetition stops as soon as the rest of the pattern goes on. -/
theorem takes_lazy (here : s.Within full) (split : s.rest = x ++ rest)
    (all : ∀ a ∈ x, f a = true)
    (early : ∀ y z t, x = y ++ z → z ≠ [] → t.rest = z ++ rest → k t = none)
    (goes : ∀ t, Leads full s t x [] → k t ≠ none) :
    ∃ t, Takes full (.star false (.one f)) k s t x [] := by
  suffices ways : ∀ fuel, x.length ≤ fuel →
      ∃ t, Leads full s t x [] ∧ rounds false (run (.one f)) k fuel s = k t by
    obtain ⟨t, lead, taken⟩ := ways s.rest.length (by simp [split])
    exact ⟨t, lead, taken⟩
  induction x generalizing s with
  | nil =>
    intro fuel _
    refine ⟨s, leads_refl here, ?_⟩
    obtain ⟨r, done⟩ := Option.ne_none_iff_exists'.mp (goes s (leads_refl here))
    cases fuel with
    | zero => rfl
    | succ fuel => simp [rounds, done]
  | cons a x ih =>
    intro fuel enough
    cases fuel with
    | zero => simp at enough
    | succ fuel =>
      have next : s.rest = a :: (x ++ rest) := split
      have first := leads_one here next
      have accepted := all a List.mem_cons_self
      have notYet : k s = none := early [] (a :: x) s rfl (by simp) split
      obtain ⟨t, lead, taken⟩ := ih first.within rfl (fun b member => all b (by simp [member]))
        (fun y z t split' => early (a :: y) z t (by rw [split']; rfl))
        (fun t later => goes t (leads_trans first later)) fuel (by simpa using enough)
      refine ⟨t, leads_trans first lead, ?_⟩
      rw [rounds, notYet, run, next]
      simpa [accepted] using taken

/-- A greedy repetition stops where no longer one lets the rest of the pattern go on. -/
theorem takes_greedy (here : s.Within full) (split : s.rest = x ++ rest)
    (all : ∀ a ∈ x, f a = true)
    (late : ∀ y z t, rest = y ++ z → y ≠ [] → (∀ a ∈ y, f a = true) → t.rest = z → k t = none)
    (goes : ∀ t, Leads full s t x [] → k t ≠ none) :
    ∃ t, Takes full (.star true (.one f)) k s t x [] := by
  suffices ways : ∀ fuel, x.length ≤ fuel →
      ∃ t, Leads full s t x [] ∧ rounds true (run (.one f)) k fuel s = k t by
    obtain ⟨t, lead, taken⟩ := ways s.rest.length (by simp [split])
    exact ⟨t, lead, taken⟩
  induction x generalizing s with
  | nil =>
    intro fuel _
    refine ⟨s, leads_refl here, ?_⟩
    cases fuel with
    | zero => rfl
    | succ fuel =>
      have further : run (.one f)
          (fun t => if s.pos < t.pos then rounds true (run (.one f)) k fuel t else none) s
            = none := by
        apply run_eq_none here
        intro t x g lead reads
        obtain ⟨⟨a, rfl, accepted⟩, -⟩ := reads
        split
        · rw [Option.eq_none_iff_forall_ne_some]
          intro r ran
          obtain ⟨u, y, h, later, more, done⟩ :=
            rounds_sound (run_sound (.one f)) true fuel full k t r lead.within ran
          have longer : rest = a :: (y ++ u.rest) := by
            rw [← later.rest]
            exact split.symm.trans lead.rest
          have accepts : ∀ b ∈ a :: y, f b = true :=
            List.forall_mem_cons.mpr ⟨accepted, (rounds_one more).1⟩
          rw [late (a :: y) u.rest u longer (by simp) accepts rfl] at done
          contradiction
        · rfl
      rw [rounds, further]
      rfl
  | cons a x ih =>
    intro fuel enough
    cases fuel with
    | zero => simp at enough
    | succ fuel =>
      have next : s.rest = a :: (x ++ rest) := split
      have first := leads_one here next
      have accepted := all a List.mem_cons_self
      obtain ⟨t, lead, taken⟩ := ih first.within rfl (fun b member => all b (by simp [member]))
        (fun t later => goes t (leads_trans first later)) fuel (by simpa using enough)
      refine ⟨t, leads_trans first lead, ?_⟩
      obtain ⟨r, done⟩ := Option.ne_none_iff_exists'.mp (goes t (leads_trans first lead))
      rw [done] at taken ⊢
      rw [rounds, run, next]
      simp [accepted, taken]

end Ways

theorem matchAt_takes {p : Pattern α} {prev : Option α} {s x : List α} {t : Place α}
    {g : Groups α} (way : Takes s p some (start prev s) t x g) :
    p.matchAt? prev s = some ⟨x, g⟩ := by
  have found : p.matchAt? prev s = some _ := congrArg (Option.map _) way.taken
  obtain ⟨r, ran, shape⟩ := matchAt_run found
  rw [way.taken] at ran
  cases ran
  rw [found, (shape x g way.lead).1]

end DocBridge.Pattern
