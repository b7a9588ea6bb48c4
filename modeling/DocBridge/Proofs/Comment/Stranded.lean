import DocBridge.Proofs.Comment.Pairing
import DocBridge.Token.Scan

/-
Line feeds that have lost their return for good. The rules for members drop white space only behind
a command or a type. A feed that stands behind an anchor, a variable or a spaced bracket is none of
that, and whatever these rules do to the text it stays and gets no return.
-/
namespace DocBridge.Text

open Scan (isNamePart)

/-- What a text ends in: in something that no rule drops white space behind (`firm`), in a blank, or
in anything else. -/
inductive Footing where
  | loose | blank | firm
  deriving DecidableEq, Repr

namespace Footing

def rank : Footing → Nat
  | loose => 0
  | blank => 1
  | firm => 2

/-- One byte further. Names stay firm behind a dollar sign or an anchor, and so does a bracket
behind a blank. -/
def next (s : Footing) (b : UInt8) : Footing :=
  if isNamePart b then (if s = firm then firm else loose)
  else if b == 0x24 || b == 0x3E then firm
  else if b == 0x5D then (if s = loose then loose else firm)
  else if b == 0x20 then blank
  else loose

theorem next_mono {s s' : Footing} (below : s.rank ≤ s'.rank) (b : UInt8) :
    (s.next b).rank ≤ (s'.next b).rank := by
  unfold next
  split_ifs <;> cases s <;> cases s' <;> simp_all [rank]

end Footing

def footing (s : Footing) (t : Text) : Footing := t.foldl Footing.next s

def stranded (s : Footing) : Text → Bool
  | [] => false
  | b :: t => (b == 0x0A && s == .firm) || stranded (s.next b) t

theorem footing_append (s : Footing) (a b : Text) : footing s (a ++ b) = footing (footing s a) b :=
  List.foldl_append

theorem stranded_append (s : Footing) (a b : Text) :
    stranded s (a ++ b) = (stranded s a || stranded (footing s a) b) := by
  induction a generalizing s with
  | nil => rfl
  | cons c a ih => rw [List.cons_append, stranded, stranded, ih, Bool.or_assoc]; rfl

theorem footing_mono {s s' : Footing} (below : s.rank ≤ s'.rank) (t : Text) :
    (footing s t).rank ≤ (footing s' t).rank := by
  induction t generalizing s s' with
  | nil => exact below
  | cons b t ih => exact ih (Footing.next_mono below b)

theorem stranded_mono {s s' : Footing} (below : s.rank ≤ s'.rank) {t : Text}
    (here : stranded s t = true) : stranded s' t = true := by
  induction t generalizing s s' with
  | nil => contradiction
  | cons b t ih =>
    rw [stranded, Bool.or_eq_true_iff] at here ⊢
    refine here.imp (fun first => ?_) (ih (Footing.next_mono below b))
    obtain ⟨feed, firm⟩ := Bool.and_eq_true_iff.mp first
    rw [beq_iff_eq.mp firm] at below
    have top : s' = .firm := by cases s' <;> simp_all [Footing.rank]
    rw [feed, top]
    rfl

theorem not_stranded_of_no_feed {t : Text} (free : 0x0A ∉ t) (s : Footing) :
    stranded s t = false := by
  induction t generalizing s with
  | nil => rfl
  | cons b t ih =>
    simp only [List.mem_cons, not_or] at free
    have other : (b == 0x0A) = false := by simpa using Ne.symm free.1
    rw [stranded, other, Bool.false_and, Bool.false_or, ih free.2]

theorem stranded_pairs {t : Text} {s : Footing} {returned : Bool}
    (apart : s = .firm → returned = false) (here : stranded s t = true) :
    pairs returned t = none := by
  induction t generalizing s returned with
  | nil => contradiction
  | cons b t ih =>
    rw [pairs]
    split
    · rename_i goes
      rw [stranded, Bool.or_eq_true_iff] at here
      rcases here with first | later
      · obtain ⟨feed, firm⟩ := Bool.and_eq_true_iff.mp first
        rw [feed, apart (beq_iff_eq.mp firm)] at goes
        contradiction
      · refine ih (fun firm => ?_) later
        refine beq_eq_false_iff_ne.mpr fun isReturn => ?_
        rw [isReturn] at firm
        cases s <;> contradiction
    · rfl

end DocBridge.Text

namespace DocBridge.Rule

open Text Pattern DocBridge.Frame Footing
open DocBridge.Filter (IsVariable)

/-- In place of `x`, and behind something no less firm, `y` strands a feed if `x` does and ends no
less firmly. -/
def Upholds (x y : Text) : Prop := ∀ s s' : Footing, s.rank ≤ s'.rank →
  (stranded s x = true → stranded s' y = true) ∧ (footing s x).rank ≤ (footing s' y).rank

theorem swap_stranded {t out : Text} (swap : Swap (fun x y _ => Upholds x y) t out)
    {s s' : Footing} (below : s.rank ≤ s'.rank) (here : stranded s t = true) :
    stranded s' out = true := by
  induction swap generalizing s s' with
  | done => contradiction
  | keep b _ ih =>
    rw [← List.singleton_append, stranded_append, Bool.or_eq_true_iff] at here ⊢
    exact here.imp (stranded_mono below) (ih (footing_mono below [b]))
  | swap ok _ ih =>
    rw [stranded_append, Bool.or_eq_true_iff] at here ⊢
    obtain ⟨inside, ends⟩ := ok s s' below
    exact here.imp inside (ih ends)

theorem upholds_of_no_feed {x y : Text} (free : 0x0A ∉ x)
    (ends : ∀ s s' : Footing, s.rank ≤ s'.rank → (footing s x).rank ≤ (footing s' y).rank) :
    Upholds x y := by
  intro s s' below
  refine ⟨fun here => ?_, ends s s' below⟩
  rw [not_stranded_of_no_feed free] at here
  contradiction

theorem rank_le_firm (s : Footing) : s.rank ≤ firm.rank := by
  cases s <;> decide

theorem footing_spaced (s : Footing) : footing s "[ ]" = .firm := by
  cases s <;> decide

theorem footing_brackets (s : Footing) : footing s "[]" = .loose := by
  cases s <;> decide

theorem typedArrayVars_stranded {text : Text} (here : stranded .loose text = true) :
    stranded .loose (typedArrayVars text) = true := by
  refine swap_stranded (replace_swap (fun prev m rest _ found => ?_) text) (Nat.le_refl _) here
  obtain ⟨line, lead, type, whole, one, two, three⟩ := typedArrayVar_reads (found_reads found)
  have freeLine : 0x0A ∉ m.group 1 := not_mem_group (by decide) found
  have freeLead : 0x0A ∉ m.group 2 := not_mem_group (by decide) found
  have freeType : 0x0A ∉ m.group 3 := not_mem_group (by decide) found
  simp only [Match.group, one, two, three, Option.getD_some] at freeLine freeLead freeType ⊢
  rw [whole]
  intro s s' _
  have feed (q : Footing) : stranded q "\n" = (q == .firm) := by
    cases q <;> decide
  constructor
  · intro old
    have star : stranded s "*" = false ∧ footing s "*" = .loose := by
      cases s <;> decide
    have tail : 0x0A ∉ lead ++ ("@var " ++ (type ++ "[]")) := by
      simp only [List.mem_append, freeLead, freeType, false_or, not_or]
      decide
    rw [stranded_append, star.1, star.2, stranded_append, not_stranded_of_no_feed freeLine,
      stranded_append, feed, not_stranded_of_no_feed tail, Bool.false_or, Bool.false_or,
      Bool.or_false, beq_iff_eq] at old
    have firmer := footing_mono (rank_le_firm .loose) line
    rw [old] at firmer
    have firm_ : footing .firm line = .firm := by
      cases ends : footing .firm line <;> simp_all [rank]
    simp only [stranded_append, footing_append, footing_spaced, firm_, feed, beq_self_eq_true,
      Bool.or_true, Bool.true_or]
  · have loose_ : footing s ("*" ++ (line ++ ("\n" ++ (lead ++ ("@var " ++ (type ++ "[]"))))))
        = .loose := by simp only [footing_append, footing_brackets]
    rw [loose_]
    exact Nat.zero_le _

theorem inheritdoc_stranded {text : Text} (here : stranded .loose text = true) :
    stranded .loose (inheritdoc text) = true := by
  refine swap_stranded (replaceAll_swap (by decide) (fun _ => ?_) text) (Nat.le_refl _) here
  refine upholds_of_no_feed (by decide) fun s s' _ => ?_
  cases s <;> exact Nat.zero_le _

theorem internalCommand_stranded {text : Text} (here : stranded .loose text = true) :
    stranded .loose (internalCommand text) = true := by
  refine swap_stranded (replace_swap (fun prev m rest _ found => ?_) text) (Nat.le_refl _) here
  obtain ⟨b, _, whole, groups⟩ := internal_reads (found_reads found)
  have group : m.group 1 = [b] := by rw [Match.group, groups]; rfl
  rw [whole, group]
  intro s s' _
  have old : stranded s "@internal" = false ∧ footing s "@internal" = .loose := by
    cases s <;> decide
  have new : footing s' "@private" = .loose := by
    cases s' <;> decide
  rw [stranded_append, stranded_append, footing_append, footing_append, old.1, old.2, new]
  exact ⟨fun first => by rw [Bool.false_or] at first; rw [first, Bool.or_true], Nat.le_refl _⟩

theorem typedArrayParams_stranded {text : Text} (here : stranded .loose text = true) :
    stranded .loose (typedArrayParams text) = true := by
  refine swap_stranded (replace_swap (fun prev m rest _ found => ?_) text) (Nat.le_refl _) here
  have free : 0x0A ∉ m.text := reads_refuses (by decide) (found_reads found)
  refine upholds_of_no_feed free fun s s' _ => ?_
  rw [footing_append, footing_spaced]
  exact rank_le_firm _

theorem footing_variable {name : Text} (variable_ : IsVariable name) (s : Footing) :
    footing s name = .firm := by
  obtain ⟨w, rfl, all⟩ := variable_
  have dollar : s.next 0x24 = .firm := by cases s <;> decide
  rw [footing, List.foldl_cons, dollar]
  induction w with
  | nil => rfl
  | cons b w ih =>
    have part : Footing.next .firm b = .firm := by simp [Footing.next, all b List.mem_cons_self]
    rw [List.foldl_cons, part]
    exact ih fun c member => all c (List.mem_cons_of_mem b member)

theorem annotateVar_stranded {name : Text} (variable_ : IsVariable name) {text : Text}
    (here : stranded .loose text = true) : stranded .loose (annotateVar name text) = true := by
  refine swap_stranded (replace_swap (fun prev m rest _ found => ?_) text) (Nat.le_refl _) here
  have free : 0x0A ∉ m.text := reads_refuses (by decide) (found_reads found)
  refine upholds_of_no_feed free fun s s' _ => ?_
  unfold annotateLine
  rcases cutEnd_terminator m.text with ⟨open_, _⟩ | ⟨body, closed, whole⟩
  · rw [open_]
    simp only [footing_append, footing_variable variable_]
    exact rank_le_firm _
  · have closing (q : Footing) : footing q [0x2A, 0x2F] = .loose := by
      cases q <;> decide
    rw [whole, footing_append, closing]
    exact Nat.zero_le _

def Soft (t : Text) : Prop := 0x24 ∉ t ∧ 0x3E ∉ t ∧ 0x5D ∉ t

theorem soft_of_all {f : UInt8 → Bool} {t : Text} (all : ∀ b ∈ t, f b = true)
    (refused : f 0x24 = false ∧ f 0x3E = false ∧ f 0x5D = false) : Soft t :=
  ⟨not_mem_of_all all refused.1, not_mem_of_all all refused.2.1, not_mem_of_all all refused.2.2⟩

theorem not_stranded_soft {t : Text} (soft : Soft t) {s : Footing} (start : s ≠ .firm) :
    stranded s t = false ∧ footing s t ≠ .firm := by
  induction t generalizing s with
  | nil => exact ⟨rfl, start⟩
  | cons b t ih =>
    simp only [Soft, List.mem_cons, not_or] at soft
    obtain ⟨⟨dollar, noDollar⟩, ⟨anchor, noAnchor⟩, bracket, noBracket⟩ := soft
    have here : s.next b ≠ .firm := by
      simp only [Footing.next, start, beq_iff_eq, Ne.symm dollar, Ne.symm anchor, Ne.symm bracket,
        Bool.or_eq_true, or_self, if_false]
      split_ifs <;> decide
    obtain ⟨later, ends⟩ := ih ⟨noDollar, noAnchor, noBracket⟩ here
    refine ⟨?_, ends⟩
    rw [stranded, later, beq_eq_false_iff_ne.mpr start, Bool.and_false, Bool.or_false]

/-- Every part of a property but the rest of its line is free of stranded feeds. -/
theorem property_upholds {command : String}
    (isCommand : ∀ s : Footing, stranded s (ofString command) = false ∧
      footing s (ofString command) = .loose)
    {closing : Text} (firm_ : ∀ s, footing s closing = .firm) {prev : Option UInt8}
    {m : Match UInt8} {rest : Text}
    (found : (propertyPatternFor command).matchAt? prev (m.text ++ rest) = some m)
    (freeTail : 0x0A ∉ m.group 4) : Upholds m.text
      ("@remark Property <b>" ++ m.group 3 ++ "</b> <em>(" ++ m.group 1 ++ closing ++ m.group 4) := by
  obtain ⟨lead, stem, brackets, mid, dollar, name, tail, whole, leadAll, stemAll, array, midAll,
    sigil, ⟨_, nameAll⟩, _, _, four⟩ := property_reads (found_reads found)
  have four : m.group 4 = tail := by rw [Match.group, four]; rfl
  rw [four] at freeTail ⊢
  rw [whole]
  intro s s' _
  constructor
  · obtain ⟨noLead, q⟩ := not_stranded_soft (soft_of_all leadAll (by decide)) (s := .loose) (by decide)
    obtain ⟨noStem, q⟩ := not_stranded_soft (soft_of_all stemAll (by decide)) q
    have noBrackets : stranded (footing (footing .loose lead) stem) brackets = false ∧
        footing (footing (footing .loose lead) stem) brackets ≠ .firm := by
      rcases array with rfl | rfl
      · rw [footing_brackets, not_stranded_of_no_feed (by decide)]
        decide
      · exact ⟨rfl, q⟩
    obtain ⟨noMid, _⟩ := not_stranded_soft (soft_of_all midAll (by decide)) noBrackets.2
    have freeDollar : 0x0A ∉ dollar := by rcases sigil with rfl | rfl <;> decide
    have freeName : 0x0A ∉ name := not_mem_of_all nameAll (by decide)
    simp only [stranded_append, footing_append, (isCommand s).1, (isCommand s).2, noLead, noStem,
      noBrackets.1, noMid, not_stranded_of_no_feed freeDollar, not_stranded_of_no_feed freeName,
      not_stranded_of_no_feed freeTail, Bool.or_false, Bool.false_eq_true, false_implies]
  · simp only [footing_append, firm_]
    exact footing_mono (rank_le_firm _) tail

theorem properties_stranded {text : Text} (here : stranded .loose text = true) :
    stranded .loose (properties text) = true := by
  refine swap_stranded (replace_swap (fun prev m rest _ found => ?_) text) (Nat.le_refl _) here
  refine property_upholds (fun s => ?_) (fun s => ?_) found (not_mem_group (by decide) found)
  · cases s <;> decide
  · cases s <;> decide

theorem readOnlyProperties_stranded {text : Text} (here : stranded .loose text = true) :
    stranded .loose (readOnlyProperties text) = true := by
  refine swap_stranded (replace_swap (fun prev m rest _ found => ?_) text) (Nat.le_refl _) here
  refine property_upholds (fun s => ?_) (fun s => ?_) found (not_mem_group (by decide) found)
  · cases s <;> decide
  · cases s <;> decide

theorem footing_types {types : Text} (all : ∀ b ∈ types, isTypeListByte b = true) :
    footing .loose types = .loose := by
  induction types with
  | nil => rfl
  | cons b types ih =>
    have listed (c : UInt8) (other : isTypeListByte c = false) : b ≠ c := by
      rintro rfl
      rw [all b List.mem_cons_self] at other
      contradiction
    have here : Footing.next .loose b = .loose := by
      have dollar := listed 0x24 (by decide)
      have anchor := listed 0x3E (by decide)
      have blank_ := listed 0x20 (by decide)
      simp [Footing.next, dollar, anchor, blank_]
    rw [footing, List.foldl_cons, here]
    exact ih fun c member => all c (List.mem_cons_of_mem b member)

theorem retval_plain {types : Text} (one : 0x7C ∉ types) (plain : 0x5B ∉ types) :
    retval types = "@retval " ++ types := by
  have noArray : isTypedArray types = false := by
    refine Bool.eq_false_iff.mpr fun array => plain ?_
    have suffix := List.isSuffixOf_iff_suffix.mp array
    exact suffix.subset (by decide)
  simp [retval, splitOn_clean one, noArray, join]

theorem retval_firm {types : Text} (all : ∀ b ∈ types, isTypeListByte b = true) {s s' : Footing}
    (start : s ≠ .firm) : (footing s types).rank ≤ (footing s' (retval types)).rank := by
  have ends (c : UInt8) (stop : ∀ q : Footing, q.next c = .loose) (member : c ∈ types) :
      footing s types = .loose := by
    obtain ⟨front, back, rfl⟩ := List.append_of_mem member
    rw [footing_append, footing, List.foldl_cons, stop]
    exact footing_types fun b inside =>
      all b (List.mem_append_right front (List.mem_cons_of_mem c inside))
  by_cases bar : 0x7C ∈ types
  · rw [ends 0x7C (fun q => by cases q <;> decide) bar]
    exact Nat.zero_le _
  by_cases bracket : 0x5B ∈ types
  · rw [ends 0x5B (fun q => by cases q <;> decide) bracket]
    exact Nat.zero_le _
  have command : footing s' "@retval " = .blank := by
    cases s' <;> decide
  rw [retval_plain bar bracket, footing_append, command]
  refine footing_mono ?_ types
  cases s with
  | firm => contradiction
  | loose => decide
  | blank => decide

theorem returns_stranded {text : Text} (here : stranded .loose text = true) :
    stranded .loose (returns text) = true := by
  refine swap_stranded (replace_swap (fun prev m rest _ found => ?_) text) (Nat.le_refl _) here
  obtain ⟨plural, lead, types, whole, ending, leadAll, ⟨_, typesAll⟩, one⟩ :=
    return_reads (found_reads found)
  have one : m.group 1 = types := by rw [Match.group, one]; rfl
  have freeTypes : 0x0A ∉ types := not_mem_of_all typesAll (by decide)
  rw [whole, one]
  intro s s' _
  have command : stranded s "@return" = false ∧ footing s "@return" = .loose := by
    cases s <;> decide
  have noPlural : stranded .loose plural = false ∧ footing .loose plural = .loose := by
    rcases ending with rfl | rfl <;> decide
  obtain ⟨noLead, start⟩ :=
    not_stranded_soft (soft_of_all leadAll (by decide)) (s := .loose) (by decide)
  simp only [stranded_append, footing_append, command.1, command.2, noPlural.1, noPlural.2, noLead,
    not_stranded_of_no_feed freeTypes, Bool.or_false, Bool.false_eq_true, false_implies, true_and]
  exact retval_firm typesAll start

theorem stranded_of_hit {p : Pat} {f : Match UInt8 → Text} {text : Text} {m : Match UInt8}
    (heads : EachHit p fun m _ => m.text.head? ≠ some 0x0A) (paired : Paired text)
    (member : .hit m ∈ p.pieces text)
    (returned : ∀ prev rest, m.text ≠ [] → p.matchAt? prev (m.text ++ rest) = some m → ∀ s e,
      pairs s m.text = some e → e = true ∧ ∀ q, footing q (f m) = .firm) :
    stranded .loose (p.replace f text) = true := by
  obtain ⟨front, back, split⟩ := List.append_of_mem member
  have cut := cut_pieces p text
  rw [split] at cut
  obtain ⟨prev, later, whole, tail⟩ := cut_append cut
  cases tail with
  | @hit _ _ rest _ taken found more =>
    have run := (paired_iff text).mp paired
    rw [whole] at run
    obtain ⟨_, _, run⟩ := pairs_split run
    obtain ⟨_, here, after⟩ := pairs_split run
    obtain ⟨rfl, firm_⟩ := returned prev rest taken found _ _ here
    obtain ⟨rest, rfl⟩ := feed_after_return after
    rcases cut_cons more with ⟨back', rfl, _⟩ | ⟨m', after', _, _, start, some_, hit⟩
    · have put : p.replace f text = (p.pieces text).flatMap (Piece.put f) := rfl
      have result : p.replace f text = front.flatMap (Piece.put f) ++
          (f m ++ (0x0A :: back'.flatMap (Piece.put f))) := by
        rw [put, split]
        simp [Piece.put]
      rw [result, stranded_append, stranded_append, firm_, stranded]
      simp
    · have first : m'.text.head? ≠ some 0x0A := heads _ m' after' some_ hit
      obtain ⟨c, tail, text'⟩ := List.exists_cons_of_ne_nil some_
      rw [text'] at first start
      cases start
      exact absurd rfl first

theorem blockUrlLinks_stranded {text : Text} (taken : LinkTakesReturn text)
    (paired : Paired text) : stranded .loose (blockUrlLinks text) = true := by
  obtain ⟨m, member, inside⟩ := taken
  have heads : EachHit blockLinkPattern fun m _ => m.text.head? ≠ some 0x0A := by
    intro prev m rest _ found
    obtain ⟨lead, href, shown, whole, _⟩ := blockLink_reads (found_reads found)
    have first : m.text.head? = some 0x40 := by
      rw [whole, List.head?_append]
      rfl
    rw [first]
    decide
  refine stranded_of_hit heads paired member fun prev rest some_ found s e run => ?_
  obtain ⟨_, _, free, ends⟩ := blockLink_pairs prev m rest some_ found s e run
  refine ⟨?_, fun q => ?_⟩
  · cases e with
    | true => rfl
    | false => exact absurd inside (ends.mp rfl)
  · have closing (r : Footing) : footing r "</a>" = .firm := by
      cases r <;> decide
    rw [renderLink_line _ free]
    simp only [footing_append, closing]

theorem annotateVar_returned {name : Text} (variable_ : IsVariable name) {text : Text}
    (taken : VarTakesReturn text) (paired : Paired text) :
    stranded .loose (annotateVar name text) = true := by
  obtain ⟨m, member, inside⟩ := taken
  have heads : EachHit varLinePattern fun m _ => m.text.head? ≠ some 0x0A := by
    intro prev m rest _ found
    obtain ⟨w, whole⟩ := varLine_reads (found_reads found)
    have first : m.text.head? = some 0x40 := by
      rw [whole, List.head?_append]
      rfl
    rw [first]
    decide
  refine stranded_of_hit heads paired member fun prev rest _ found s e run => ?_
  have free : 0x0A ∉ m.text := reads_refuses (by decide) (found_reads found)
  have returned : e = true := by
    cases e with
    | true => rfl
    | false => exact absurd inside (clean_of_no_feed free run).2.1
  refine ⟨returned, fun q => ?_⟩
  unfold annotateLine
  rcases cutEnd_terminator m.text with ⟨open_, _⟩ | ⟨body, _, whole⟩
  · rw [open_]
    simp only [footing_append, footing_variable variable_]
  · have last : m.text.getLast? = some 0x2F := by
      rw [whole]
      simp
    rw [pairs_last run last] at returned
    contradiction

end DocBridge.Rule
