import DocBridge.Proofs.Comment.Lines

/-
Line breaks of two bytes, a carriage return and a line feed, and what the rules make of them. All
rules but three keep such pairs together. The file command goes between the two bytes of a pair. A
block link takes the return at the end of its line along and a `@var` line is continued behind it.
-/
namespace DocBridge.Text

/-- Returns and feeds come in pairs only: what is followed by a feed is a return, and nothing else
is. -/
def Paired (t : Text) : Prop :=
  t.head? ≠ some 0x0A ∧ ∀ i : Nat, t[i]? = some 0x0D ↔ t[i + 1]? = some 0x0A

/-- Reads on after a return or after anything else, and tells how the text ends. Nothing, if a
return or a feed stands alone on the way. -/
def pairs (returned : Bool) : Text → Option Bool
  | [] => some returned
  | b :: rest => if returned == (b == 0x0A) then pairs (b == 0x0D) rest else none

theorem pairs_eq_iff (t : Text) (returned : Bool) : pairs returned t = some false ↔
    (t.head? = some 0x0A ↔ returned = true) ∧
      ∀ i : Nat, t[i]? = some 0x0D ↔ t[i + 1]? = some 0x0A := by
  induction t generalizing returned with
  | nil => simp [pairs]
  | cons b t ih =>
    rw [pairs, Option.ite_none_right_eq_some, ih]
    have first : returned = (b == 0x0A) ↔ ((b :: t).head? = some 0x0A ↔ returned = true) := by
      cases returned <;> simp
    have next : (t.head? = some 0x0A ↔ (b == 0x0D) = true) ↔
        ((b :: t)[0]? = some 0x0D ↔ (b :: t)[0 + 1]? = some 0x0A) := by
      simp [List.head?_eq_getElem?, Iff.comm]
    rw [beq_iff_eq, first, next]
    constructor
    · rintro ⟨start, zero, later⟩
      exact ⟨start, fun i => by cases i with | zero => exact zero | succ i => simpa using later i⟩
    · rintro ⟨start, all⟩
      exact ⟨start, all 0, fun i => by simpa using all (i + 1)⟩

theorem paired_iff (t : Text) : Paired t ↔ pairs false t = some false := by
  rw [pairs_eq_iff, Paired]
  simp

instance (t : Text) : Decidable (Paired t) := decidable_of_iff _ (paired_iff t).symm

theorem pairs_append (a b : Text) (s : Bool) : pairs s (a ++ b) = (pairs s a).bind (pairs · b) := by
  induction a generalizing s with
  | nil => rfl
  | cons c a ih =>
    rw [List.cons_append, pairs, pairs]
    split
    · exact ih _
    · rfl

theorem pairs_split {a b : Text} {s e : Bool} (run : pairs s (a ++ b) = some e) :
    ∃ q, pairs s a = some q ∧ pairs q b = some e := by
  rw [pairs_append] at run
  exact Option.bind_eq_some_iff.mp run

theorem pairs_join {a b : Text} {s q e : Bool} (first : pairs s a = some q)
    (second : pairs q b = some e) : pairs s (a ++ b) = some e := by
  rw [pairs_append, first]
  exact second

theorem pairs_head {t : Text} {b : UInt8} {s e : Bool} (run : pairs s t = some e)
    (first : t.head? = some b) : s = (b == 0x0A) := by
  cases t with
  | nil => contradiction
  | cons c t =>
    cases first
    rw [pairs, Option.ite_none_right_eq_some] at run
    exact beq_iff_eq.mp run.1

theorem pairs_last {t : Text} {b : UInt8} {s e : Bool} (run : pairs s t = some e)
    (last : t.getLast? = some b) : e = (b == 0x0D) := by
  obtain ⟨front, rfl⟩ := List.getLast?_eq_some_iff.mp last
  obtain ⟨q, _, one⟩ := pairs_split run
  rw [pairs, Option.ite_none_right_eq_some] at one
  exact (Option.some.inj one.2).symm

theorem feed_after_return {t : Text} (run : pairs true t = some false) :
    ∃ rest, t = 0x0A :: rest := by
  cases t with
  | nil => contradiction
  | cons b rest =>
    have feed : b = 0x0A := by simpa using pairs_head run rfl
    exact ⟨rest, by rw [feed]⟩

def Within (t : Text) : Prop := ∀ s e, pairs s t = some e → s = false ∧ e = false

theorem within_of_ends {t : Text} {a b : UInt8} (first : t.head? = some a)
    (last : t.getLast? = some b) (noFeed : a ≠ 0x0A) (noReturn : b ≠ 0x0D) : Within t := by
  intro s e run
  have start := pairs_head run first
  have stop := pairs_last run last
  rw [beq_eq_false_iff_ne.mpr noFeed] at start
  rw [beq_eq_false_iff_ne.mpr noReturn] at stop
  exact ⟨start, stop⟩

def Clean (t : Text) : Prop := 0x0D ∉ t ∧ 0x0A ∉ t

instance (t : Text) : Decidable (Clean t) := inferInstanceAs (Decidable (_ ∧ _))

theorem clean_append {a b : Text} : Clean (a ++ b) ↔ Clean a ∧ Clean b := by
  simp only [Clean, List.mem_append, not_or]
  exact and_and_and_comm

theorem pairs_clean {t : Text} (clean : Clean t) : pairs false t = some false := by
  induction t with
  | nil => rfl
  | cons b t ih =>
    simp only [Clean, List.mem_cons, not_or] at clean
    have noFeed : (b == 0x0A) = false := by simpa using Ne.symm clean.2.1
    have noReturn : (b == 0x0D) = false := by simpa using Ne.symm clean.1.1
    rw [pairs, noFeed, noReturn]
    exact ih ⟨clean.1.2, clean.2.2⟩

theorem pairs_clean_some {t : Text} (clean : Clean t) (some_ : t ≠ []) (s : Bool) :
    pairs s t = if s then none else some false := by
  cases s with
  | false => exact pairs_clean clean
  | true =>
    cases t with
    | nil => contradiction
    | cons b t =>
      have noFeed : (b == 0x0A) = false := by
        simp only [Clean, List.mem_cons, not_or] at clean
        simpa using Ne.symm clean.2.1
      rw [pairs, noFeed]
      rfl

theorem last_of_clean {t : Text} (clean : Clean t) (some_ : t ≠ []) :
    ∃ b, t.getLast? = some b ∧ b ≠ 0x0D := by
  refine ⟨t.getLast some_, List.getLast?_eq_some_getLast some_, fun same => clean.1 ?_⟩
  rw [← same]
  exact List.getLast_mem some_

theorem clean_of_no_feed {t : Text} {s : Bool} (free : 0x0A ∉ t)
    (run : pairs s t = some false) : s = false ∧ Clean t := by
  induction t generalizing s with
  | nil => exact ⟨Option.some.inj run, List.not_mem_nil, List.not_mem_nil⟩
  | cons b t ih =>
    have start := pairs_head run rfl
    rw [pairs, Option.ite_none_right_eq_some] at run
    simp only [List.mem_cons, not_or] at free
    obtain ⟨noReturn, clean⟩ := ih free.2 run.2
    refine ⟨start.trans (by simpa using Ne.symm free.1), ?_, by simpa using free⟩
    simp only [List.mem_cons, not_or]
    exact ⟨fun same => by simp [← same] at noReturn, clean.1⟩

end DocBridge.Text

namespace DocBridge.Rule

open Text Pattern DocBridge.Frame

/-- Where a text with only pairs has `x` before `rest`, it may have `y` just as well. -/
def MayStand (x y rest : Text) : Prop :=
  ∀ s e, pairs s x = some e → (pairs e rest).isSome = true → pairs s y = some e

theorem swap_pairs {t out : Text} (swap : Swap MayStand t out) {s e : Bool}
    (run : pairs s t = some e) : pairs s out = some e := by
  induction swap generalizing s with
  | done => exact run
  | keep b _ ih =>
    rw [pairs, Option.ite_none_right_eq_some] at run ⊢
    exact ⟨run.1, ih run.2⟩
  | swap ok _ ih =>
    obtain ⟨q, first, second⟩ := pairs_split run
    exact pairs_join (ok s q first (by rw [second]; rfl)) (ih second)

theorem swap_paired {t out : Text} (swap : Swap MayStand t out) (paired : Paired t) : Paired out :=
  (paired_iff out).mpr (swap_pairs swap ((paired_iff t).mp paired))

/-- What neither starts with a feed nor ends in a return may give way to anything clean. -/
theorem mayStand_clean {x y : Text} (within : Within x) (clean : Clean y) (rest : Text) :
    MayStand x y rest := by
  intro s e run _
  obtain ⟨rfl, rfl⟩ := within s e run
  exact pairs_clean clean

theorem mayStand_of_clean {x y : Text} (some_ : x ≠ []) (old : Clean x) (new : Clean y)
    (rest : Text) : MayStand x y rest := by
  intro s e run _
  rw [pairs_clean_some old some_] at run
  cases s with
  | true => contradiction
  | false => exact (pairs_clean new).trans run

theorem namespaceSeparators_paired {text : Text} (paired : Paired text) :
    Paired (namespaceSeparators text) :=
  swap_paired (separatorsFrom_swap (mayStand_of_clean (by decide) (by decide) (by decide)) false text)
    paired

theorem licenseCommand_pairs (text : Text) (s : Bool) :
    pairs s (licenseCommand text) = pairs s text := by
  have same (q : Bool) : pairs q "@copyright" = pairs q "@license" := by
    cases q <;> decide
  have swap : Swap (fun x y _ => ∀ q, pairs q y = pairs q x) text (licenseCommand text) :=
    replaceAll_swap (by decide) (fun _ => same) text
  generalize licenseCommand text = out at swap ⊢
  induction swap generalizing s with
  | done => rfl
  | keep b _ ih => rw [pairs, pairs, ih]
  | swap ok _ ih => simp only [pairs_append, ok, ih]

theorem inheritdoc_paired {text : Text} (paired : Paired text) : Paired (inheritdoc text) :=
  swap_paired (replaceAll_swap (by decide)
    (mayStand_of_clean (by decide) (by decide) (by decide)) text) paired

theorem clean_group {p : Pat} {i : Nat} (noReturn : p.groupRefuses i 0x0D = true)
    (noFeed : p.groupRefuses i 0x0A = true) {prev : Option UInt8} {m : Match UInt8} {rest : Text}
    (found : p.matchAt? prev (m.text ++ rest) = some m) : Clean (m.group i) :=
  ⟨not_mem_group noReturn found, not_mem_group noFeed found⟩

theorem propertyLinks_paired {text : Text} (paired : Paired text) : Paired (propertyLinks text) := by
  refine swap_paired (replace_swap (fun prev m rest taken found => ?_) text) paired
  have word : Clean (m.group 1) := clean_group (by decide) (by decide) found
  have old : Clean m.text :=
    ⟨reads_refuses (by decide) (found_reads found), reads_refuses (by decide) (found_reads found)⟩
  refine mayStand_of_clean taken old ?_ rest
  simp only [clean_append, word, and_true]
  decide

theorem typedArrayParams_paired {text : Text} (paired : Paired text) :
    Paired (typedArrayParams text) := by
  refine swap_paired (replace_swap (fun prev m rest taken found => ?_) text) paired
  have type : Clean (m.group 1) := clean_group (by decide) (by decide) found
  have name : Clean (m.group 2) := clean_group (by decide) (by decide) found
  have old : Clean m.text :=
    ⟨reads_refuses (by decide) (found_reads found), reads_refuses (by decide) (found_reads found)⟩
  refine mayStand_of_clean taken old ?_ rest
  simp only [clean_append, type, name, and_true]
  decide

theorem internalCommand_paired {text : Text} (paired : Paired text) :
    Paired (internalCommand text) := by
  refine swap_paired (replace_swap (fun prev m rest _ found => ?_) text) paired
  obtain ⟨b, _, whole, groups⟩ := internal_reads (found_reads found)
  have group : m.group 1 = [b] := by rw [Match.group, groups]; rfl
  rw [whole, group]
  intro s e run _
  obtain ⟨q, first, second⟩ := pairs_split run
  cases s with
  | true => contradiction
  | false =>
    have stop : q = false := (Option.some.inj first).symm
    rw [stop] at second
    exact pairs_join (pairs_clean (by decide)) second

theorem property_mayStand {command : String} (start : (ofString command).head? = some 0x40)
    {closing : Text} (plain : Clean closing) {prev : Option UInt8} {m : Match UInt8} {rest : Text}
    (found : (propertyPatternFor command).matchAt? prev (m.text ++ rest) = some m)
    (type : Clean (m.group 1)) : MayStand m.text
      ("@remark Property <b>" ++ m.group 3 ++ "</b> <em>(" ++ m.group 1 ++ closing ++ m.group 4)
      rest := by
  obtain ⟨lead, stem, brackets, mid, dollar, name, tail, whole, _, _, _, _, _, ⟨some_, all⟩, _,
    three, four⟩ := property_reads (found_reads found)
  have clean : Clean name := ⟨not_mem_of_all all (by decide), not_mem_of_all all (by decide)⟩
  have three : m.group 3 = name := by rw [Match.group, three]; rfl
  have four : m.group 4 = tail := by rw [Match.group, four]; rfl
  obtain ⟨b, last, noReturn⟩ := last_of_clean clean some_
  have within :
      Within (command ++ (lead ++ (stem ++ (brackets ++ (mid ++ (dollar ++ name)))))) := by
    refine within_of_ends (a := 0x40) (b := b) ?_ ?_ (by decide) noReturn
    · simp [List.head?_append, start]
    · simp [List.getLast?_append, last]
  rw [whole, three, four]
  intro s e run _
  obtain ⟨q, first, second⟩ := pairs_split run
  obtain ⟨rfl, rfl⟩ := within s q first
  refine pairs_join (pairs_clean ?_) second
  simp only [clean_append, clean, type, plain, and_true]
  decide

theorem properties_paired {text : Text} (paired : Paired text) : Paired (properties text) := by
  refine swap_paired (replace_swap (fun prev m rest _ found => ?_) text) paired
  have type : Clean (m.group 1) := clean_group (by decide) (by decide) found
  exact property_mayStand (by decide) (by decide) found type

theorem readOnlyProperties_paired {text : Text} (paired : Paired text) :
    Paired (readOnlyProperties text) := by
  refine swap_paired (replace_swap (fun prev m rest _ found => ?_) text) paired
  have type : Clean (m.group 1) := clean_group (by decide) (by decide) found
  exact property_mayStand (by decide) (by decide) found type

theorem returns_paired {text : Text} (paired : Paired text) : Paired (returns text) := by
  refine swap_paired (replace_swap (fun prev m rest _ found => ?_) text) paired
  obtain ⟨plural, lead, types, whole, _, _, ⟨some_, all⟩, one⟩ := return_reads (found_reads found)
  have clean : Clean types := ⟨not_mem_of_all all (by decide), not_mem_of_all all (by decide)⟩
  have one : m.group 1 = types := by rw [Match.group, one]; rfl
  obtain ⟨b, last, noReturn⟩ := last_of_clean clean some_
  have within : Within m.text := by
    rw [whole]
    refine within_of_ends (a := 0x40) (b := b) ?_ ?_ (by decide) noReturn
    · rw [List.head?_append]
      rfl
    · simp [List.getLast?_append, last]
  rw [one]
  exact mayStand_clean within
    ⟨not_mem_retval (by decide) clean.1, not_mem_retval (by decide) clean.2⟩ rest

theorem typedArrayVars_paired {text : Text} (paired : Paired text) :
    Paired (typedArrayVars text) := by
  refine swap_paired (replace_swap (fun prev m rest _ found => ?_) text) paired
  obtain ⟨line, lead, type, whole, one, two, three⟩ := typedArrayVar_reads (found_reads found)
  have freeLead : 0x0A ∉ m.group 2 := not_mem_group (by decide) found
  have freeType : 0x0A ∉ m.group 3 := not_mem_group (by decide) found
  simp only [Match.group, one, two, three, Option.getD_some] at freeLead freeType ⊢
  rw [whole]
  intro s e run _
  obtain ⟨_, star, run⟩ := pairs_split run
  obtain ⟨returned, first, run⟩ := pairs_split run
  obtain ⟨_, feed, run⟩ := pairs_split run
  obtain ⟨_, second, run⟩ := pairs_split run
  obtain ⟨_, var, run⟩ := pairs_split run
  obtain ⟨_, third, brackets⟩ := pairs_split run
  obtain ⟨rfl, rfl⟩ := within_of_ends (a := 0x2A) (b := 0x2A) rfl rfl (by decide) (by decide) _ _ star
  obtain ⟨rfl, rfl⟩ := within_of_ends (a := 0x40) (b := 0x20) rfl rfl (by decide) (by decide) _ _ var
  obtain ⟨rfl, rfl⟩ :=
    within_of_ends (a := 0x5B) (b := 0x5D) rfl rfl (by decide) (by decide) _ _ brackets
  obtain rfl := pairs_head feed rfl
  obtain rfl := pairs_last feed rfl
  have cleanLead := (clean_of_no_feed freeLead second).2
  have cleanType := (clean_of_no_feed freeType third).2
  have hint : Clean ("* " ++ type ++ "[ ]") := by
    simp only [clean_append, cleanType, and_true]
    decide
  have ending : Clean (lead ++ "@var array") := by
    simp only [clean_append, cleanLead, true_and]
    decide
  have broken := pairs_join (pairs_join first feed) (pairs_clean ending)
  simpa only [List.append_assoc] using pairs_join (pairs_clean hint) broken

theorem mem_annotateLine {name line : Text} {b : UInt8} (member : b ∈ annotateLine name line) :
    b ∈ line ∨ b = 0x20 ∨ b ∈ name := by
  unfold annotateLine at member
  rcases cutEnd_terminator line with ⟨open_, _⟩ | ⟨body, closed, whole⟩
  · rw [open_] at member
    simp only [List.mem_append, or_assoc] at member
    exact member.imp_right (Or.imp_left List.mem_singleton.mp)
  · obtain ⟨blanks, trimmed, _⟩ := trimEnd_append isBlank body
    rw [closed] at member
    simp only [List.mem_append, or_assoc] at member
    rcases member with front | blank | inside | back
    · refine .inl ?_
      rw [whole, trimmed]
      exact List.mem_append_left _ (List.mem_append_left _ front)
    · exact .inr (.inl (List.mem_singleton.mp blank))
    · exact .inr (.inr inside)
    · exact .inl (List.mem_of_mem_drop back)

def VarTakesReturn (text : Text) : Prop :=
  ∃ m, .hit m ∈ varLinePattern.pieces text ∧ 0x0D ∈ m.text

theorem annotateVar_paired {name : Text} (clean : Clean name) {text : Text}
    (kept : ¬ VarTakesReturn text) (paired : Paired text) : Paired (annotateVar name text) := by
  refine swap_paired (replace_swap_pieces fun m member prev rest taken found => ?_) paired
  have old : Clean m.text :=
    ⟨fun inside => kept ⟨m, member, inside⟩, reads_refuses (by decide) (found_reads found)⟩
  have new (b : UInt8) (inside : b ∈ annotateLine name m.text) : b ≠ 0x0D ∧ b ≠ 0x0A := by
    constructor <;> rintro rfl <;> rcases mem_annotateLine inside with line | blank | inName
    · exact old.1 line
    · contradiction
    · exact clean.1 inName
    · exact old.2 line
    · contradiction
    · exact clean.2 inName
  have clean' : Clean (annotateLine name m.text) :=
    ⟨fun inside => (new _ inside).1 rfl, fun inside => (new _ inside).2 rfl⟩
  exact mayStand_of_clean taken old clean' rest

/-- A link between pairs: its address is clean, its text does not start a new line, and only a
return at its end may be the start of a pair. -/
theorem link_pairs {lead href text : Text} (noFeed : 0x0A ∉ href) (address : IsAddress href)
    (isText : IsLinkText text) {s e : Bool} (run : pairs s (lead ++ (href ++ text)) = some e) :
    Clean href ∧ 0x0A ∉ text ∧ (e = false ↔ 0x0D ∉ text) := by
  obtain ⟨scheme, path, whole, some_, all⟩ := address
  obtain ⟨_, _, run⟩ := pairs_split run
  obtain ⟨_, first, second⟩ := pairs_split run
  obtain ⟨b, last⟩ := Option.ne_none_iff_exists'.mp (List.getLast?_eq_none_iff.not.mpr some_)
  have noReturn : b ≠ 0x0D := by
    rintro rfl
    have := all _ (List.mem_of_getLast? last)
    contradiction
  have stop : href.getLast? = some b := by
    rw [whole]
    simp [List.getLast?_append, last]
  obtain rfl := pairs_last first stop
  rw [beq_eq_false_iff_ne.mpr noReturn] at first second
  have free : 0x0A ∉ text := by
    rcases isText with rfl | ⟨c, line, rfl, _, rest⟩
    · exact List.not_mem_nil
    · have head := pairs_head second rfl
      simp only [List.mem_cons, not_or]
      exact ⟨fun same => by simp [← same] at head, not_mem_of_all rest (by decide)⟩
  refine ⟨(clean_of_no_feed noFeed first).2, free, ?_, fun clean => ?_⟩
  · rintro rfl
    exact (clean_of_no_feed free second).2.1
  · have ran := second.symm.trans (pairs_clean ⟨clean, free⟩)
    exact Option.some.inj ran

theorem clean_renderLink {href text : Text} (address : Clean href) (shown : Clean text) :
    Clean (renderLink href text) := by
  have first : Clean (firstLine text) := by
    rw [← lines_join text, clean_append] at shown
    exact shown.1
  have inside : Clean (anchorText href text) :=
    ⟨fun member => (mem_anchorText member).elim address.1 first.1,
      fun member => (mem_anchorText member).elim address.2 first.2⟩
  rw [renderLink_line href shown.2]
  simp only [clean_append, address, inside, true_and]
  decide

theorem inlineUrlLinks_paired {text : Text} (paired : Paired text) :
    Paired (inlineUrlLinks text) := by
  refine swap_paired (replace_swap (fun prev m rest _ found => ?_) text) paired
  obtain ⟨lead, href, shown, whole, _, address, isText, one, two⟩ :=
    inlineLink_reads (found_reads found)
  have one : m.group 1 = href := one
  have two : m.group 2 = shown := two
  have noFeed : 0x0A ∉ m.group 1 := not_mem_group (by decide) found
  have parts : m.text = "\x7b@link" ++ ((lead ++ (href ++ shown)) ++ "\x7d") := by
    rw [whole]
    simp only [List.append_assoc]
  rw [one] at noFeed
  intro s e run _
  have within : Within m.text := by
    rw [parts]
    refine within_of_ends (a := 0x7B) (b := 0x7D) ?_ ?_ (by decide) (by decide)
    · rw [List.head?_append]
      rfl
    · exact last_append _ (last_append _ rfl)
  obtain ⟨rfl, rfl⟩ := within s e run
  rw [parts] at run
  obtain ⟨_, _, run⟩ := pairs_split run
  obtain ⟨q, link, brace⟩ := pairs_split run
  obtain ⟨clean, free, ends⟩ := link_pairs noFeed address isText link
  rw [one, two]
  exact pairs_clean (clean_renderLink clean ⟨ends.mp (pairs_head brace rfl), free⟩)

theorem blockLink_pairs : EachHit blockLinkPattern fun m _ => ∀ s e, pairs s m.text = some e →
    s = false ∧ Clean (m.group 1) ∧ 0x0A ∉ m.group 2 ∧ (e = false ↔ 0x0D ∉ m.group 2) := by
  intro prev m rest _ found s e run
  obtain ⟨lead, href, shown, whole, _, address, isText, one, two⟩ :=
    blockLink_reads (found_reads found)
  have one : m.group 1 = href := one
  have two : m.group 2 = shown := two
  have noFeed : 0x0A ∉ m.group 1 := not_mem_group (by decide) found
  rw [one] at noFeed
  rw [whole] at run
  obtain ⟨_, command, run⟩ := pairs_split run
  obtain ⟨rfl, rfl⟩ :=
    within_of_ends (a := 0x40) (b := 0x6B) rfl rfl (by decide) (by decide) _ _ command
  rw [one, two]
  exact ⟨rfl, link_pairs noFeed address isText run⟩

def LinkTakesReturn (text : Text) : Prop :=
  ∃ m, .hit m ∈ blockLinkPattern.pieces text ∧ 0x0D ∈ m.group 2

theorem blockUrlLinks_paired {text : Text} (kept : ¬ LinkTakesReturn text)
    (paired : Paired text) : Paired (blockUrlLinks text) := by
  refine swap_paired (replace_swap_pieces fun m member prev rest taken found => ?_) paired
  intro s e run _
  obtain ⟨rfl, address, free, ends⟩ := blockLink_pairs prev m rest taken found s e run
  have clean : 0x0D ∉ m.group 2 := fun inside => kept ⟨m, member, inside⟩
  obtain rfl := ends.mpr clean
  exact pairs_clean (clean_renderLink address ⟨clean, free⟩)

theorem fileCommand_pairs {text : Text} (feed : 0x0A ∈ text) (s : Bool) :
    pairs s (fileCommand text) = none := by
  obtain ⟨before, after, rfl, first⟩ := List.eq_append_cons_of_mem feed
  have alone (q : Bool) : pairs q " @file\n" = none := by
    cases q <;> decide
  rw [fileCommand_line first]
  simp only [pairs_append]
  cases pairs s before with
  | none => rfl
  | some q =>
    rw [Option.bind_some, alone]
    rfl

end DocBridge.Rule
