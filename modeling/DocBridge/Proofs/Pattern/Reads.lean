import DocBridge.Pattern.Basic

/-
What a match looks like. `Reads` says which texts a pattern stands for and what its groups hold,
without a word on the order of the search; every match found by backtracking is of that form. What
the order decides, namely that a greedy repetition at the end of a pattern leaves nothing it could
still take, is said by `Sated`.
-/
namespace DocBridge.Pattern

variable {α β : Type}

abbrev Groups (α : Type) := List (Nat × List α)

def lastOf (prev : Option α) (x : List α) : Option α := x.getLast?.or prev

theorem lastOf_append (prev : Option α) (x y : List α) :
    lastOf prev (x ++ y) = lastOf (lastOf prev x) y := by
  simp only [lastOf, List.getLast?_append, Option.or_assoc]

/-- One round after another of a relation on the element before, a text, what follows and the
groups. Groups of later rounds come first. -/
inductive Rounds (round : Option α → List α → List α → Groups α → Prop) :
    Option α → List α → List α → Groups α → Prop
  | leave (prev : Option α) (rest : List α) : Rounds round prev [] rest []
  | again {prev : Option α} {x y rest : List α} {g h : Groups α} (one : round prev x (y ++ rest) g)
      (more : Rounds round (lastOf prev x) y rest h) : Rounds round prev (x ++ y) rest (h ++ g)

/-- The pattern can take `x` between `prev` and `rest`, and its groups are then `g`. -/
def Reads : Pattern α → Option α → List α → List α → Groups α → Prop
  | .empty, _, x, _, g => x = [] ∧ g = []
  | .one accepts, _, x, _, g => (∃ a, x = [a] ∧ accepts a = true) ∧ g = []
  | .look holds, prev, x, rest, g => x = [] ∧ g = [] ∧ holds prev rest.head? = true
  | .seq p q, prev, x, rest, g => ∃ y z h i, x = y ++ z ∧ g = i ++ h ∧
      Reads p prev y (z ++ rest) h ∧ Reads q (lastOf prev y) z rest i
  | .alt p q, prev, x, rest, g => Reads p prev x rest g ∨ Reads q prev x rest g
  | .star _ p, prev, x, rest, g => Rounds (Reads p) prev x rest g
  | .group i p, prev, x, rest, g => ∃ h, g = (i, x) :: h ∧ Reads p prev x rest h

theorem reads_one {f : α → Bool} {prev : Option α} {x rest : List α} {g : Groups α} :
    Reads (.one f) prev x rest g ↔ (∃ a, x = [a] ∧ f a = true) ∧ g = [] := Iff.rfl

theorem reads_seq {p q : Pattern α} {prev : Option α} {x rest : List α} {g : Groups α} :
    Reads (.seq p q) prev x rest g ↔ ∃ y z h i, x = y ++ z ∧ g = i ++ h ∧
      Reads p prev y (z ++ rest) h ∧ Reads q (lastOf prev y) z rest i := Iff.rfl

theorem reads_group {i : Nat} {p : Pattern α} {prev : Option α} {x rest : List α} {g : Groups α} :
    Reads (.group i p) prev x rest g ↔ ∃ h, g = (i, x) :: h ∧ Reads p prev x rest h := Iff.rfl

theorem rounds_one {f : α → Bool} {prev : Option α} {x rest : List α} {g : Groups α}
    (rounds : Rounds (Reads (.one f)) prev x rest g) : (∀ a ∈ x, f a = true) ∧ g = [] := by
  induction rounds with
  | leave => simp
  | again one more ih =>
    obtain ⟨⟨a, rfl, accepted⟩, rfl⟩ := one
    simp only [List.singleton_append, List.mem_cons, forall_eq_or_imp, ih.2, List.append_nil,
      and_true]
    exact ⟨accepted, ih.1⟩

theorem rounds_of_all {f : α → Bool} (prev : Option α) (rest : List α) {x : List α}
    (all : ∀ a ∈ x, f a = true) : Rounds (Reads (.one f)) prev x rest [] := by
  induction x generalizing prev with
  | nil => exact .leave prev rest
  | cons a x ih =>
    have first : Reads (.one f) prev [a] (x ++ rest) [] := ⟨⟨a, rfl, all a (by simp)⟩, rfl⟩
    exact .again first (ih _ fun b member => all b (by simp [member]))

theorem reads_star_one {greedy : Bool} {f : α → Bool} {prev : Option α} {x rest : List α}
    {g : Groups α} :
    Reads (.star greedy (.one f)) prev x rest g ↔ (∀ a ∈ x, f a = true) ∧ g = [] := by
  constructor
  · exact rounds_one
  · rintro ⟨all, rfl⟩
    exact rounds_of_all prev rest all

theorem reads_plus_one {greedy : Bool} {f : α → Bool} {prev : Option α} {x rest : List α}
    {g : Groups α} :
    Reads (plus greedy (.one f)) prev x rest g ↔ x ≠ [] ∧ (∀ a ∈ x, f a = true) ∧ g = [] := by
  simp only [plus, Reads]
  constructor
  · rintro ⟨y, z, h, i, rfl, rfl, ⟨⟨a, rfl, accepted⟩, rfl⟩, rounds⟩
    obtain ⟨all, rfl⟩ := rounds_one rounds
    refine ⟨by simp, ?_, rfl⟩
    simpa [accepted] using all
  · rintro ⟨some_, all, rfl⟩
    cases x with
    | nil => contradiction
    | cons a x =>
      refine ⟨[a], x, [], [], rfl, rfl, ⟨⟨a, rfl, all a (by simp)⟩, rfl⟩, ?_⟩
      exact rounds_of_all _ rest fun b member => all b (by simp [member])

theorem reads_opt {greedy : Bool} {p : Pattern α} {prev : Option α} {x rest : List α}
    {g : Groups α} :
    Reads (opt greedy p) prev x rest g ↔ Reads p prev x rest g ∨ (x = [] ∧ g = []) := by
  cases greedy with
  | true => rfl
  | false => exact or_comm

theorem reads_word [BEq α] [LawfulBEq α] {w : List α} {prev : Option α} {x rest : List α}
    {g : Groups α} : Reads (word w) prev x rest g ↔ x = w ∧ g = [] := by
  induction w generalizing prev x g with
  | nil => rfl
  | cons a w ih =>
    cases w with
    | nil =>
      simp only [word, List.map_cons, List.map_nil, seqs, Reads, beq_iff_eq, exists_eq_right]
    | cons b w =>
      have unfolded : word (a :: b :: w) = .seq (.one (· == a)) (word (b :: w)) := rfl
      simp only [unfolded, Reads, ih, beq_iff_eq, exists_eq_right]
      constructor
      · rintro ⟨y, z, h, i, rfl, rfl, ⟨rfl, rfl⟩, rfl, rfl⟩
        exact ⟨rfl, rfl⟩
      · rintro ⟨rfl, rfl⟩
        exact ⟨[a], b :: w, [], [], rfl, rfl, ⟨rfl, rfl⟩, rfl, rfl⟩

namespace Place

def Within (full : List α) (s : Place α) : Prop := s.rest = full.drop s.pos

def texts (full : List α) (s : Place α) : Groups α :=
  s.groups.map fun (i, start, stop) => (i, (full.take stop).drop start)

structure Leads (full : List α) (s t : Place α) (x : List α) (g : Groups α) : Prop where
  within : t.Within full
  rest : s.rest = x ++ t.rest
  pos : t.pos = s.pos + x.length
  prev : t.prev = lastOf s.prev x
  groups : t.texts full = g ++ s.texts full

variable {full : List α} {s t u : Place α} {x y : List α} {g h : Groups α}

theorem leads_refl (here : s.Within full) : Leads full s s [] [] :=
  ⟨here, rfl, rfl, rfl, rfl⟩

theorem leads_trans (first : Leads full s t x g) (second : Leads full t u y h) :
    Leads full s u (x ++ y) (h ++ g) where
  within := second.within
  rest := by rw [first.rest, second.rest, List.append_assoc]
  pos := by rw [second.pos, first.pos, List.length_append, Nat.add_assoc]
  prev := by rw [second.prev, first.prev, lastOf_append]
  groups := by rw [second.groups, first.groups, List.append_assoc]

theorem leads_one {a : α} {rest : List α} (here : s.Within full) (next : s.rest = a :: rest) :
    Leads full s { s with pos := s.pos + 1, prev := some a, rest := rest } [a] [] where
  within := by
    have dropped : full.drop s.pos = a :: rest := here.symm.trans next
    simp only [Within]
    rw [← List.tail_drop, dropped, List.tail_cons]
  rest := next
  pos := rfl
  prev := rfl
  groups := rfl

theorem leads_group (i : Nat) (here : s.Within full) (lead : Leads full s t x g) :
    Leads full s { t with groups := (i, s.pos, t.pos) :: t.groups } x ((i, x) :: g) where
  within := lead.within
  rest := lead.rest
  pos := lead.pos
  prev := lead.prev
  groups := by
    have taken : (full.take t.pos).drop s.pos = x := by
      rw [List.drop_take, ← here, lead.rest, lead.pos, Nat.add_sub_cancel_left, List.take_left]
    simp only [texts, List.map_cons, taken, List.cons_append, List.cons.injEq, true_and]
    exact lead.groups

end Place

open Place

def Sound (p : Pattern α) (step : (Place α → Option β) → Place α → Option β) : Prop :=
  ∀ (full : List α) (k : Place α → Option β) (s : Place α) (r : β), s.Within full →
    step k s = some r →
    ∃ t x g, Leads full s t x g ∧ Reads p s.prev x t.rest g ∧ k t = some r

theorem rounds_sound {p : Pattern α} {step : (Place α → Option β) → Place α → Option β}
    (sound : Sound p step) (greedy : Bool) (fuel : Nat) :
    Sound (.star greedy p) fun k s => rounds greedy step k fuel s := by
  induction fuel with
  | zero =>
    intro full k s r here h
    exact ⟨s, [], [], leads_refl here, .leave s.prev s.rest, h⟩
  | succ fuel ih =>
    intro full k s r here h
    have leave (done : k s = some r) : ∃ t x g, Leads full s t x g ∧
        Reads (.star greedy p) s.prev x t.rest g ∧ k t = some r :=
      ⟨s, [], [], leads_refl here, .leave s.prev s.rest, done⟩
    have again (round : step
          (fun t => if s.pos < t.pos then rounds greedy step k fuel t else none) s = some r) :
        ∃ t x g, Leads full s t x g ∧ Reads (.star greedy p) s.prev x t.rest g ∧ k t = some r := by
      obtain ⟨t, x, g, first, reads, more⟩ := sound full _ s r here round
      split at more
      · obtain ⟨u, y, h, second, rounds, done⟩ := ih full k t r first.within more
        refine ⟨u, x ++ y, h ++ g, leads_trans first second, .again ?_ ?_, done⟩
        · rw [← second.rest]
          exact reads
        · rw [← first.prev]
          exact rounds
      · contradiction
    simp only [rounds] at h
    cases greedy with
    | true =>
      rw [if_pos rfl, Option.orElse_eq_or, Option.or_eq_some_iff] at h
      rcases h with round | ⟨_, done⟩
      · exact again round
      · exact leave done
    | false =>
      rw [if_neg Bool.false_ne_true, Option.orElse_eq_or, Option.or_eq_some_iff] at h
      rcases h with done | ⟨_, round⟩
      · exact leave done
      · exact again round

theorem run_sound (p : Pattern α) : Sound (β := β) p (run p) := by
  induction p with
  | empty =>
    intro full k s r here h
    exact ⟨s, [], [], leads_refl here, ⟨rfl, rfl⟩, h⟩
  | one accepts =>
    intro full k s r here h
    simp only [run] at h
    split at h
    · contradiction
    · rename_i a rest next
      split at h
      · rename_i accepted
        exact ⟨_, [a], [], leads_one here next, ⟨⟨a, rfl, accepted⟩, rfl⟩, h⟩
      · contradiction
  | look holds =>
    intro full k s r here h
    simp only [run] at h
    split at h
    · rename_i held
      exact ⟨s, [], [], leads_refl here, ⟨rfl, rfl, held⟩, h⟩
    · contradiction
  | seq p q ihp ihq =>
    intro full k s r here h
    obtain ⟨t, x, g, first, reads, more⟩ := ihp full _ s r here h
    obtain ⟨u, y, i, second, reads', done⟩ := ihq full k t r first.within more
    refine ⟨u, x ++ y, i ++ g, leads_trans first second, ⟨x, y, g, i, rfl, rfl, ?_, ?_⟩, done⟩
    · rw [← second.rest]
      exact reads
    · rw [← first.prev]
      exact reads'
  | alt p q ihp ihq =>
    intro full k s r here h
    rw [run, Option.orElse_eq_or, Option.or_eq_some_iff] at h
    rcases h with left | ⟨_, right⟩
    · obtain ⟨t, x, g, lead, reads, done⟩ := ihp full k s r here left
      exact ⟨t, x, g, lead, .inl reads, done⟩
    · obtain ⟨t, x, g, lead, reads, done⟩ := ihq full k s r here right
      exact ⟨t, x, g, lead, .inr reads, done⟩
  | star greedy p ih =>
    intro full k s r here h
    exact rounds_sound ih greedy s.rest.length full k s r here h
  | group i p ih =>
    intro full k s r here h
    obtain ⟨t, x, g, lead, reads, done⟩ := ih full _ s r here h
    exact ⟨_, x, _, leads_group i here lead, ⟨g, rfl, reads⟩, done⟩

def Place.start (prev : Option α) (s : List α) : Place α := ⟨0, prev, s, []⟩

theorem matchAt_run {p : Pattern α} {prev : Option α} {s : List α} {m : Match α}
    (found : p.matchAt? prev s = some m) :
    ∃ r, run p some (start prev s) = some r ∧
      ∀ x g, Leads s (start prev s) r x g → m = ⟨x, g⟩ ∧ s = x ++ r.rest := by
  obtain ⟨r, ran, rfl⟩ := Option.map_eq_some_iff.mp found
  refine ⟨r, ran, fun x g lead => ?_⟩
  have rest : s = x ++ r.rest := lead.rest
  have size : r.pos = x.length := lead.pos.trans (Nat.zero_add _)
  have taken : s.take r.pos = x := by
    rw [size, rest, List.take_left]
  have groups : r.texts s = g := lead.groups.trans (List.append_nil g)
  exact ⟨by rw [taken, ← groups]; rfl, rest⟩

theorem start_within (prev : Option α) (s : List α) : (start prev s).Within s := rfl

theorem matchAt_reads {p : Pattern α} {prev : Option α} {s : List α} {m : Match α}
    (found : p.matchAt? prev s = some m) :
    ∃ rest, s = m.text ++ rest ∧ Reads p prev m.text rest m.groups := by
  obtain ⟨r, ran, shape⟩ := matchAt_run found
  obtain ⟨t, x, g, lead, reads, same⟩ := run_sound p s some _ r (start_within prev s) ran
  obtain rfl : t = r := Option.some.inj same
  obtain ⟨rfl, rest⟩ := shape x g lead
  exact ⟨t.rest, rest, reads⟩

theorem findFrom_reads {p : Pattern α} {prev : Option α} {s : List α} {m : Match α}
    (found : p.findFrom? prev s = some m) :
    ∃ front rest, s = front ++ m.text ++ rest ∧
      Reads p (lastOf prev front) m.text rest m.groups := by
  induction s generalizing prev with
  | nil =>
    obtain ⟨rest, split, reads⟩ := matchAt_reads found
    exact ⟨[], rest, split, reads⟩
  | cons a s ih =>
    rw [findFrom?, Option.orElse_eq_or, Option.or_eq_some_iff] at found
    rcases found with here | ⟨_, later⟩
    · obtain ⟨rest, split, reads⟩ := matchAt_reads here
      exact ⟨[], rest, split, reads⟩
    · obtain ⟨front, rest, split, reads⟩ := ih later
      refine ⟨a :: front, rest, congrArg (a :: ·) split, ?_⟩
      have last : lastOf prev (a :: front) = lastOf (some a) front := lastOf_append prev [a] front
      rw [last]
      exact reads

/-- A pattern that ends in a greedy repetition of `f`: what follows a match of it is nothing that
`f` accepts, provided that the match may end anywhere. -/
def Sated (f : α → Bool) (p : Pattern α) : Prop :=
  ∀ (full : List α) (k : Place α → Option (Place α)) (s r : Place α), s.Within full →
    (∀ t, ∃ u, k t = some u ∧ u.rest = t.rest) → run p k s = some r →
    ∀ a ∈ r.rest.head?, f a = false

theorem rounds_sated {f : α → Bool} {k : Place α → Option (Place α)}
    (free : ∀ t, ∃ u, k t = some u ∧ u.rest = t.rest) (fuel : Nat) :
    ∀ s r : Place α, s.rest.length ≤ fuel → rounds true (run (.one f)) k fuel s = some r →
      ∀ a ∈ r.rest.head?, f a = false := by
  induction fuel with
  | zero =>
    intro s r short h
    obtain ⟨u, done, rest⟩ := free s
    cases done.symm.trans h
    rw [rest, List.eq_nil_of_length_eq_zero (Nat.le_zero.mp short)]
    simp
  | succ fuel ih =>
    intro s r short h
    rw [rounds, if_pos rfl] at h
    have stop (refused : ∀ a ∈ s.rest.head?, f a = false) (done : k s = some r) :
        ∀ a ∈ r.rest.head?, f a = false := by
      obtain ⟨u, done', rest⟩ := free s
      cases done'.symm.trans done
      rw [rest]
      exact refused
    cases next : s.rest with
    | nil =>
      simp only [run, next, Option.orElse_none] at h
      exact stop (by simp [next]) h
    | cons a rest =>
      simp only [run, next] at h
      cases accepted : f a with
      | false =>
        simp only [accepted, Bool.false_eq_true, ↓reduceIte, Option.orElse_none] at h
        exact stop (by simp [next, accepted]) h
      | true =>
        -- The round is taken, and whatever follows succeeds, so the search never comes back.
        rw [next] at short
        simp only [accepted, ↓reduceIte, Nat.lt_succ_self, Option.orElse_eq_or,
          Option.or_eq_some_iff] at h
        rcases h with more | ⟨failed, _⟩
        · exact ih _ r (by simpa using short) more
        · exact absurd failed (rounds_ne_none free fuel _)
where
  rounds_ne_none (free : ∀ t, ∃ u, k t = some u ∧ u.rest = t.rest) (fuel : Nat) (s : Place α) :
      rounds true (run (.one f)) k fuel s ≠ none := by
    obtain ⟨u, done, _⟩ := free s
    cases fuel <;> simp [rounds, done]

theorem sated_star (f : α → Bool) : Sated f (.star true (.one f)) := by
  intro full k s r here free h
  exact rounds_sated free _ s r (Nat.le_refl _) h

theorem sated_seq {f : α → Bool} (p : Pattern α) {q : Pattern α} (sated : Sated f q) :
    Sated f (.seq p q) := by
  intro full k s r here free h
  obtain ⟨t, x, g, lead, _, more⟩ := run_sound p full _ s r here h
  exact sated full k t r lead.within free more

theorem sated_group {f : α → Bool} (i : Nat) {p : Pattern α} (sated : Sated f p) :
    Sated f (.group i p) := by
  intro full k s r here free h
  refine sated full (fun t => k { t with groups := (i, s.pos, t.pos) :: t.groups }) s r here ?_ h
  intro t
  exact free _

theorem matchAt_sated {f : α → Bool} {p : Pattern α} (sated : Sated f p) {prev : Option α}
    {m : Match α} {rest : List α} (found : p.matchAt? prev (m.text ++ rest) = some m) :
    ∀ a ∈ rest.head?, f a = false := by
  obtain ⟨r, ran, shape⟩ := matchAt_run found
  have stop := sated _ some _ r (start_within prev _) (fun t => ⟨t, rfl, rfl⟩) ran
  obtain ⟨t, x, g, lead, _, same⟩ := run_sound p _ some _ r (start_within prev _) ran
  obtain rfl : t = r := Option.some.inj same
  obtain ⟨rfl, whole⟩ := shape x g lead
  rw [List.append_cancel_left_eq] at whole
  rw [whole]
  exact stop

theorem matchAt_opt {f : α → Bool} {p q : Pattern α} (sated : Sated f q) {prev : Option α}
    {m : Match α} {rest : List α}
    (found : (seq p (opt true q)).matchAt? prev (m.text ++ rest) = some m) :
    (∀ a ∈ rest.head?, f a = false) ∨ Reads p prev m.text rest m.groups := by
  obtain ⟨r, ran, shape⟩ := matchAt_run found
  obtain ⟨t, x, g, lead, reads, more⟩ := run_sound p _ _ _ r (start_within prev _) ran
  simp only [opt, ↓reduceIte, run, Option.orElse_eq_or, Option.or_eq_some_iff,
    Option.some.injEq] at more
  rcases more with taken | ⟨_, rfl⟩
  · have stop := sated _ some t r lead.within (fun t => ⟨t, rfl, rfl⟩) taken
    obtain ⟨u, y, h, lead', _, same⟩ := run_sound q _ some t r lead.within taken
    obtain rfl : u = r := Option.some.inj same
    obtain ⟨rfl, whole⟩ := shape _ _ (leads_trans lead lead')
    rw [List.append_cancel_left_eq] at whole
    rw [whole]
    exact .inl stop
  · obtain ⟨rfl, whole⟩ := shape x g lead
    rw [List.append_cancel_left_eq] at whole
    rw [← whole] at reads
    exact .inr reads

end DocBridge.Pattern
