import DocBridge.Proofs.Comment.Rules

/-
The two rules on typed arrays. Both move text past each other and can damage the frame: the
variable rule if its match starts at the opener, the parameter rule if its match runs into the
terminator.
-/
namespace DocBridge.Rule

open Text Pattern DocBridge.Frame

theorem typedArrayVar_reads {prev : Option UInt8} {x rest : Text} {g : Groups UInt8}
    (reads : Reads typedArrayVarPattern prev x rest g) :
    ∃ line lead type, x = "*" ++ (line ++ ("\n" ++ (lead ++ ("@var " ++ (type ++ "[]"))))) ∧
      g.lookup 1 = some line ∧ g.lookup 2 = some lead ∧ g.lookup 3 = some type := by
  simp only [typedArrayVarPattern, seqs, lit, dots, reads_seq, reads_group, reads_word,
    reads_star_one] at reads
  obtain ⟨_, _, _, _, rfl, rfl, ⟨rfl, rfl⟩, line, _, _, _, rfl, rfl, ⟨_, rfl, _, rfl⟩,
    _, _, _, _, rfl, rfl, ⟨rfl, rfl⟩, lead, _, _, _, rfl, rfl, ⟨_, rfl, _, rfl⟩,
    _, _, _, _, rfl, rfl, ⟨rfl, rfl⟩, type, _, _, _, rfl, rfl, ⟨_, rfl, _, rfl⟩, rfl, rfl⟩ := reads
  exact ⟨line, lead, type, rfl, rfl, rfl, rfl⟩

def plainArrayVar (m : Match UInt8) : Text :=
  "* " ++ m.group 3 ++ "[ ]" ++ m.group 1 ++ "\n" ++ m.group 2 ++ "@var array"

theorem typedArrayVars_eq (text : Text) :
    typedArrayVars text = (typedArrayVarPattern.pieces text).flatMap (Piece.put plainArrayVar) :=
  rfl

/-- One for a match that starts at a terminator, which it takes apart. -/
def takesApart (m : Match UInt8) : Nat := ((m.group 1).head? == some 0x2F).toNat

structure ArrayVarHit (m : Match UInt8) : Prop where
  text : ∃ rest, m.text = 0x2A :: rest
  put : ∃ rest, plainArrayVar m = 0x2A :: 0x20 :: rest
  textEnd : m.text.getLast? = some 0x5D
  putEnd : (plainArrayVar m).getLast? = some 0x79
  balance : terminators (plainArrayVar m) + takesApart m = terminators m.text

theorem arrayVarHit : EachHit typedArrayVarPattern fun m _ => ArrayVarHit m := by
  intro prev m rest taken found
  obtain ⟨line, lead, type, whole, one, two, three⟩ := typedArrayVar_reads (found_reads found)
  have put : plainArrayVar m
      = "* " ++ (type ++ ("[ ]" ++ (line ++ ("\n" ++ (lead ++ "@var array"))))) := by
    simp only [plainArrayVar, Match.group, one, two, three, Option.getD_some, List.append_assoc]
  have apart : takesApart m = (line.head? == some 0x2F).toNat := by
    rw [takesApart, Match.group, one]
    rfl
  constructor
  · exact ⟨_, whole⟩
  · exact ⟨_, put⟩
  · rw [whole]
    exact last_append _ (last_append _ (last_append _ (last_append _ (last_append _
      (last_append _ (by decide))))))
  · rw [put]
    exact last_append _ (last_append _ (last_append _ (last_append _ (last_append _
      (last_append _ (by decide))))))
  · have new : terminators (plainArrayVar m)
        = terminators type + (terminators line + terminators lead) := by
      rw [put, terminators_append, seam_of_last (by decide), terminators_around (by decide),
        terminators_around (by decide), terminators_before (by decide)]
      exact Nat.zero_add _
    have old : terminators m.text
        = seam "*" m.text.tail + (terminators line + (terminators lead + terminators type)) := by
      rw [whole, terminators_append, terminators_around (by decide), terminators_around (by decide),
        terminators_before (by decide)]
      exact congrArg (· + _) (Nat.zero_add _)
    have start : seam "*" m.text.tail = takesApart m := by
      rw [apart, whole]
      cases line <;> rfl
    rw [new, old, start]
    omega

theorem arrayVar_heads : EachHit typedArrayVarPattern fun m _ =>
    StartsOff (· == 0x2F) m.text ∧ StartsOff (· == 0x2F) (plainArrayVar m) := by
  intro prev m rest taken found
  have hit := arrayVarHit prev m rest taken found
  obtain ⟨x, hx⟩ := hit.text
  obtain ⟨y, hy⟩ := hit.put
  exact ⟨⟨_, x, hx, by decide⟩, ⟨_, _, hy, by decide⟩⟩

theorem typedArrayVars_terminators (text : Text) :
    terminators (typedArrayVars text) + hitSum takesApart (typedArrayVarPattern.pieces text)
      = terminators text := by
  have cut := cut_pieces typedArrayVarPattern text
  have balance : EachHit typedArrayVarPattern fun m rest => seam m.text rest = 0 ∧
      terminators (plainArrayVar m) + takesApart m = terminators m.text + 0 := by
    intro prev m rest taken found
    have hit := arrayVarHit prev m rest taken found
    exact ⟨seam_of_last (by simp [hit.textEnd]), hit.balance⟩
  have clean : EachHit typedArrayVarPattern fun m rest => seam (plainArrayVar m) rest = 0 := by
    intro prev m rest taken found
    exact seam_of_last (by simp [(arrayVarHit prev m rest taken found).putEnd])
  have count := put_terminators arrayVar_heads balance cut
  rw [seams_of_clean arrayVar_heads clean cut, hitSum_zero] at count
  exact count

theorem typedArrayVars_closes (text : Text) : Closes (typedArrayVars text) ↔ Closes text := by
  have cut := cut_pieces typedArrayVarPattern text
  rw [typedArrayVars_eq]
  have clean : EachHit typedArrayVarPattern fun m rest =>
      seam (plainArrayVar m) rest = seam m.text rest := by
    intro prev m rest taken found
    have hit := arrayVarHit prev m rest taken found
    rw [seam_of_last (by simp [hit.putEnd]), seam_of_last (by simp [hit.textEnd])]
  rcases List.eq_nil_or_concat (typedArrayVarPattern.pieces text) with none_ | ⟨front, last, some_⟩
  · rw [none_] at cut ⊢
    cases cut
    exact Iff.rfl
  · rw [some_, List.concat_eq_append] at cut ⊢
    cases last with
    | gap b => exact put_closes_gap arrayVar_heads clean cut
    | hit m =>
      obtain ⟨old, new⟩ := put_closes_hit arrayVar_heads cut
      obtain ⟨_, _, _, tail⟩ := cut_append cut
      cases tail with
      | hit taken found more =>
        have hit := arrayVarHit _ m _ taken found
        have none_ := not_closes_of_last hit.textEnd (by decide)
        have none_' := not_closes_of_last hit.putEnd (by decide)
        simp only [old, new, none_, none_']

def ArrayTakesOpener (text : Text) : Prop :=
  ∃ m ps, typedArrayVarPattern.pieces text = .gap 0x2F :: .hit m :: ps

theorem typedArrayVars_opens {text : Text} (opens : Opens text) :
    Opens (typedArrayVars text) ↔ ¬ ArrayTakesOpener text := by
  have cut := cut_pieces typedArrayVarPattern text
  rw [typedArrayVars_eq, ArrayTakesOpener]
  obtain ⟨b, rest, rfl, space⟩ := opens
  have other := space_not_frame space
  rcases cut_cons cut with ⟨ps, hps, cut₁⟩ | ⟨m, after, ps, _, whole, taken, found⟩
  · rcases cut_cons cut₁ with ⟨ps, rfl, cut₂⟩ | ⟨m, after, ps, rfl, whole, taken, found⟩
    · refine ⟨fun _ takes => by simp [hps] at takes, fun _ => ?_⟩
      rcases cut_cons cut₂ with ⟨ps, rfl, cut₃⟩ | ⟨m, after, ps, rfl, whole, taken, found⟩
      · rcases cut_cons cut₃ with ⟨ps, rfl, cut₄⟩ | ⟨m, after, ps, rfl, whole, taken, found⟩
        · rw [hps]
          exact ⟨b, _, rfl, space⟩
        · obtain ⟨x, hx⟩ := (arrayVarHit _ m _ taken found).text
          rw [hx] at whole
          cases whole
          exact absurd rfl other.1
      · obtain ⟨y, hy⟩ := (arrayVarHit _ m _ taken found).put
        rw [hps]
        simp only [List.flatMap_cons, Piece.put, hy]
        exact ⟨0x20, _, rfl, by decide⟩
    · obtain ⟨y, hy⟩ := (arrayVarHit _ m _ taken found).put
      refine ⟨fun opens => ?_, fun kept => absurd ⟨m, ps, hps⟩ kept⟩
      rw [hps] at opens
      simp only [List.flatMap_cons, Piece.put, hy] at opens
      obtain ⟨c, rest', whole, _⟩ := opens
      cases whole
  · obtain ⟨x, hx⟩ := (arrayVarHit _ m _ taken found).text
    rw [hx] at whole
    cases whole

theorem typedArrayParam_reads {prev : Option UInt8} {x rest : Text} {g : Groups UInt8}
    (reads : Reads typedArrayParamPattern prev x rest g) :
    ∃ type name, x = "@param " ++ (type ++ ("[] " ++ name)) ∧ g.lookup 1 = some type ∧
      g.lookup 2 = some name := by
  simp only [typedArrayParamPattern, seqs, lit, solid, reads_seq, reads_group, reads_word,
    reads_plus_one] at reads
  obtain ⟨_, _, _, _, rfl, rfl, ⟨rfl, rfl⟩, type, _, _, _, rfl, rfl, ⟨_, rfl, _, _, rfl⟩,
    _, _, _, _, rfl, rfl, ⟨rfl, rfl⟩, _, rfl, _, _, _, _, rfl, rfl, ⟨rfl, rfl⟩, _, _, rfl⟩ := reads
  exact ⟨type, _, rfl, rfl, rfl⟩

def plainArrayParam (m : Match UInt8) : Text :=
  "@param array " ++ m.group 2 ++ " " ++ m.group 1 ++ "[ ]"

theorem typedArrayParams_eq (text : Text) : typedArrayParams text
    = (typedArrayParamPattern.pieces text).flatMap (Piece.put plainArrayParam) :=
  rfl

structure ArrayParamHit (m : Match UInt8) (rest : Text) : Prop where
  text : StartsOff isFrame m.text
  put : StartsOff isFrame (plainArrayParam m)
  textEnd : seam m.text rest = 0
  putEnd : (plainArrayParam m).getLast? = some 0x5D
  balance : terminators (plainArrayParam m) = terminators m.text

theorem arrayParamHit : EachHit typedArrayParamPattern ArrayParamHit := by
  intro prev m rest taken found
  obtain ⟨type, name, whole, one, two⟩ := typedArrayParam_reads (found_reads found)
  have put : plainArrayParam m = "@param array " ++ (name ++ (" " ++ (type ++ "[ ]"))) := by
    simp only [plainArrayParam, Match.group, one, two, Option.getD_some, List.append_assoc]
  constructor
  · rw [whole]
    exact startsOff_append (startsOff_of_head (by decide)) _
  · rw [put]
    exact startsOff_append (startsOff_of_head (by decide)) _
  · have sated : Sated notGap typedArrayParamPattern :=
      sated_seq _ (sated_seq _ (sated_seq _ (sated_group 2 (sated_seq _ (sated_seq _
        (sated_star notGap))))))
    refine seam_of_head fun slash => ?_
    have := matchAt_sated sated found 0x2F slash
    contradiction
  · rw [put]
    exact last_append _ (last_append _ (last_append _ (last_append _ (by decide))))
  · rw [put, whole, terminators_skip (by decide), terminators_around (by decide),
      terminators_before (by decide), terminators_skip (by decide), terminators_around (by decide),
      Nat.add_comm]

theorem arrayParam_heads : EachHit typedArrayParamPattern fun m _ =>
    StartsOff (· == 0x2F) m.text ∧ StartsOff (· == 0x2F) (plainArrayParam m) := by
  intro prev m rest taken found
  have hit := arrayParamHit prev m rest taken found
  exact ⟨startsOff_slash hit.text, startsOff_slash hit.put⟩

theorem arrayParam_clean : EachHit typedArrayParamPattern fun m rest =>
    seam (plainArrayParam m) rest = 0 := by
  intro prev m rest taken found
  exact seam_of_last (by simp [(arrayParamHit prev m rest taken found).putEnd])

theorem typedArrayParams_terminators (text : Text) :
    terminators (typedArrayParams text) = terminators text := by
  have cut := cut_pieces typedArrayParamPattern text
  have balance : EachHit typedArrayParamPattern fun m rest => seam m.text rest = 0 ∧
      terminators (plainArrayParam m) + 0 = terminators m.text + 0 := by
    intro prev m rest taken found
    have hit := arrayParamHit prev m rest taken found
    exact ⟨hit.textEnd, by rw [hit.balance]⟩
  have count : terminators (typedArrayParams text) + hitSum (fun _ => 0) _
      = terminators text + hitSum (fun _ => 0) _ + seams plainArrayParam _ :=
    put_terminators arrayParam_heads balance cut
  rw [seams_of_clean arrayParam_heads arrayParam_clean cut, hitSum_zero] at count
  exact count

theorem typedArrayParams_opens (text : Text) : Opens (typedArrayParams text) ↔ Opens text := by
  refine opens_of_swap (replace_swap (fun prev m rest taken found => ?_) text)
  have hit := arrayParamHit prev m rest taken found
  exact ⟨hit.text, hit.put⟩

def ParamTakesEnd (text : Text) : Prop :=
  ∃ m, (typedArrayParamPattern.pieces text).getLast? = some (.hit m)

theorem typedArrayParams_closes (text : Text) :
    Closes (typedArrayParams text) ↔ Closes text ∧ ¬ ParamTakesEnd text := by
  have cut := cut_pieces typedArrayParamPattern text
  rw [typedArrayParams_eq, ParamTakesEnd]
  have clean : EachHit typedArrayParamPattern fun m rest =>
      seam (plainArrayParam m) rest = seam m.text rest := by
    intro prev m rest taken found
    rw [arrayParam_clean prev m rest taken found, (arrayParamHit prev m rest taken found).textEnd]
  rcases List.eq_nil_or_concat (typedArrayParamPattern.pieces text) with
    none_ | ⟨front, last, some_⟩
  · rw [none_] at cut ⊢
    cases cut
    simp
  · rw [some_, List.concat_eq_append] at cut ⊢
    cases last with
    | gap b =>
      rw [put_closes_gap arrayParam_heads clean cut]
      simp
    | hit m =>
      obtain ⟨_, new⟩ := put_closes_hit arrayParam_heads cut
      obtain ⟨_, _, _, tail⟩ := cut_append cut
      cases tail with
      | hit taken found more =>
        have hit := arrayParamHit _ m _ taken found
        have none_ := not_closes_of_last hit.putEnd (by decide)
        simp only [new, none_, false_iff]
        simp

end DocBridge.Rule
