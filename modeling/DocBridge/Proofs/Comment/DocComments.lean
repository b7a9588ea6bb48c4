import DocBridge.Proofs.Comment.Lines
import DocBridge.Proofs.Pattern.Preference

/-
Which rules keep a doc comment a doc comment, each taken alone. Ten do so for every text. The one
on typed-array variables does so unless the tag stands on the second line: its match then starts at
the first star of the opener.
-/
namespace DocBridge.Dialect

open Text DocBridge.Frame Rule
open DocBridge.Filter (IsVariable)

def steadyRules : List Text :=
  ["namespace_separator", "property_link", "file_command", "license", "internal", "property",
    "property_read", "return", "inheritdoc", "var_name"]

theorem varName_frame {variableName : Text} (isVariable : IsVariable variableName) (text : Text) :
    SameFrame text (annotateVar variableName text) :=
  annotateVar_frame (Filter.not_mem_variable isVariable (by decide) (by decide)) text

/-- A steady rule makes doc comments of doc comments and of nothing else. -/
theorem steady_rule_keeps_docText {ruleName variableName : Text} (steady : ruleName ∈ steadyRules)
    (isVariable : IsVariable variableName) :
    ∃ rule, rule? ruleName variableName = some rule ∧
      ∀ text, DocText (rule.apply text) ↔ DocText text := by
  simp only [steadyRules, List.mem_cons, List.not_mem_nil, or_false] at steady
  rcases steady with rfl | rfl | rfl | rfl | rfl | rfl | rfl | rfl | rfl | rfl
  · exact ⟨_, rfl, fun text => docText_congr (namespaceSeparators_frame text)⟩
  · exact ⟨_, rfl, fun text => docText_congr (propertyLinks_frame text)⟩
  · exact ⟨_, rfl, fun text => docText_congr (fileCommand_frame text)⟩
  · exact ⟨_, rfl, fun text => docText_congr (licenseCommand_frame text)⟩
  · exact ⟨_, rfl, fun text => docText_congr (internalCommand_frame text)⟩
  · exact ⟨_, rfl, fun text => docText_congr (properties_frame text)⟩
  · exact ⟨_, rfl, fun text => docText_congr (readOnlyProperties_frame text)⟩
  · exact ⟨_, rfl, fun text => docText_congr (returns_frame text)⟩
  · exact ⟨_, rfl, fun text => docText_congr (inheritdoc_frame text)⟩
  · exact ⟨_, rfl, fun text => docText_congr (varName_frame isVariable text)⟩

theorem var_name_keeps_docText : ofString "var_name" ∈ steadyRules ∧ IsVariable "$n" ∧
    ∃ rule, rule? "var_name" "$n" = some rule ∧ DocText (rule.apply "/** @var int */") := by
  have steady : ofString "var_name" ∈ steadyRules := by decide
  have isVariable : IsVariable "$n" := ⟨"n", rfl, List.all_eq_true.mp (by decide)⟩
  obtain ⟨rule, found, keeps⟩ := steady_rule_keeps_docText steady isVariable
  exact ⟨steady, isVariable, rule, found, (keeps _).mpr (by decide)⟩

end DocBridge.Dialect

namespace DocBridge.Rule

open Text Pattern DocBridge.Frame

def arrayTag (lead type : Text) : Text := lead ++ (ofString "@var " ++ (type ++ ofString "[]"))

def ArrayOnSecondLine (text : Text) : Prop :=
  ∃ lead type trail, (splitOn 0x0A text)[1]? = some (arrayTag lead type ++ trail)

theorem not_mem_arrayTag {lead type : Text} :
    0x0A ∉ arrayTag lead type ↔ 0x0A ∉ lead ∧ 0x0A ∉ type := by
  have tag : 0x0A ∉ ofString "@var " := by decide
  have brackets : 0x0A ∉ ofString "[]" := by decide
  simp only [arrayTag, List.mem_append, not_or, tag, brackets, not_false_eq_true, true_and,
    and_true]

theorem typedArrayVar_reads_iff {prev : Option UInt8} {x rest : Text} :
    (∃ g, Reads typedArrayVarPattern prev x rest g) ↔ ∃ line lead type,
      x = 0x2A :: (line ++ 0x0A :: arrayTag lead type) ∧
      0x0A ∉ line ∧ 0x0A ∉ lead ∧ 0x0A ∉ type := by
  constructor
  · rintro ⟨g, reads⟩
    simp only [typedArrayVarPattern, seqs, lit, dots, reads_seq, reads_group, reads_word,
      reads_star_one] at reads
    obtain ⟨_, _, _, _, rfl, -, ⟨rfl, -⟩, line, _, _, _, rfl, -, ⟨_, -, oneLine, -⟩,
      _, _, _, _, rfl, -, ⟨rfl, -⟩, lead, _, _, _, rfl, -, ⟨_, -, oneLead, -⟩,
      _, _, _, _, rfl, -, ⟨rfl, -⟩, type, _, _, _, rfl, -, ⟨_, -, oneType, -⟩, rfl, -⟩ := reads
    exact ⟨line, lead, type, rfl, notNewline_iff.mp oneLine, notNewline_iff.mp oneLead,
      notNewline_iff.mp oneType⟩
  · rintro ⟨line, lead, type, rfl, oneLine, oneLead, oneType⟩
    have stretch (i : Nat) {w : Text} (free : 0x0A ∉ w) (prev : Option UInt8) (rest : Text) :
        Reads (.group i dots) prev w rest [(i, w)] :=
      reads_held i (reads_star_one.mpr ⟨notNewline_iff.mpr free, rfl⟩)
    exact ⟨_, reads_then (reads_literal (ofString "*") _ _) (reads_then (stretch 1 oneLine _ _)
      (reads_then (reads_literal (ofString "\n") _ _) (reads_then (stretch 2 oneLead _ _)
        (reads_then (reads_literal _ _ _) (reads_then (stretch 3 oneType _ _)
          (reads_literal _ _ _))))))⟩

theorem arrayTakesOpener_cons {s : Text} : ArrayTakesOpener (0x2F :: s) ↔
    ∃ line lead type rest, s = 0x2A :: (line ++ 0x0A :: arrayTag lead type) ++ rest ∧
      0x0A ∉ line ∧ 0x0A ∉ lead ∧ 0x0A ∉ type := by
  have slash : typedArrayVarPattern.pieces (0x2F :: s)
      = .gap 0x2F :: typedArrayVarPattern.piecesFrom (some 0x2F) s := by
    apply piecesFrom_gap
    intro x r g whole _ reads
    obtain ⟨line, lead, type, rfl, -⟩ := typedArrayVar_reads_iff.mp ⟨g, reads⟩
    cases whole
  rw [ArrayTakesOpener, slash]
  constructor
  · rintro ⟨m, ps, hits⟩
    have cut := cut_piecesFrom typedArrayVarPattern (some 0x2F) s
    rw [List.cons.injEq] at hits
    rw [hits.2] at cut
    cases cut with
    | @hit _ _ rest _ taken found more =>
      obtain ⟨line, lead, type, matched, clean⟩ :=
        typedArrayVar_reads_iff.mp ⟨_, found_reads found⟩
      exact ⟨line, lead, type, rest, by rw [matched], clean⟩
  · rintro ⟨line, lead, type, rest, rfl, clean⟩
    obtain ⟨g, reads⟩ := typedArrayVar_reads_iff.mpr ⟨line, lead, type, rfl, clean⟩
    obtain ⟨m, rest', whole, taken, found⟩ := reads_found reads fun r h empty => by
      obtain ⟨_, _, _, matched, -⟩ := typedArrayVar_reads_iff.mp ⟨h, empty⟩
      cases matched
    rw [whole, piecesFrom_hit taken found]
    exact ⟨m, _, rfl⟩

/-- In a text that starts like a comment the match of a typed array takes the first star if and
only if its tag stands on the second line. -/
theorem arrayTakesOpener_iff {text : Text} (opens : Opens text) :
    ArrayTakesOpener text ↔ ArrayOnSecondLine text := by
  obtain ⟨b, after, rfl, -⟩ := opens
  rw [arrayTakesOpener_cons]
  constructor
  · rintro ⟨line, lead, type, rest, whole, oneLine, oneLead, oneType⟩
    have lines : 0x2F :: 0x2A :: 0x2A :: b :: after
        = (0x2F :: 0x2A :: line) ++ 0x0A :: (arrayTag lead type ++ rest) := by
      rw [whole]
      simp
    have firstClean : 0x0A ∉ 0x2F :: 0x2A :: line := by simp [oneLine]
    have secondClean := not_mem_arrayTag.mpr ⟨oneLead, oneType⟩
    refine ⟨lead, type, (splitOn 0x0A rest).headD [], ?_⟩
    rw [lines, splitOn_append, splitOn_clean firstClean, splitOn_front secondClean]
    rfl
  · rintro ⟨lead, type, trail, second⟩
    obtain ⟨first, tail, lines, firstClean, secondClean⟩ := splitOn_second second
    rw [List.mem_append, not_or] at secondClean
    match first with
    | [] | [_] => simp at lines
    | c :: d :: line =>
      simp only [List.cons_append, List.cons.injEq] at lines
      obtain ⟨rfl, rfl, same⟩ := lines
      rw [List.mem_cons, List.mem_cons, not_or, not_or] at firstClean
      refine ⟨line, lead, type, trail ++ tail, ?_, firstClean.2.2,
        not_mem_arrayTag.mp secondClean.1⟩
      rw [same]
      simp

/-- What the rule makes of a doc comment ends like one. It starts like one as well unless a typed
array stands on the second line. -/
theorem typedArrayVars_docText {text : Text} (doc : DocText text) :
    Closes (typedArrayVars text) ∧ terminators (typedArrayVars text) = 1 ∧
      (DocText (typedArrayVars text) ↔ ¬ ArrayOnSecondLine text) := by
  obtain ⟨opens, closes, one⟩ := docText_iff.mp doc
  have closed : Closes (typedArrayVars text) := (typedArrayVars_closes text).mpr closes
  have single : terminators (typedArrayVars text) = 1 := by
    have atLeast := terminators_of_closes closed
    have count := typedArrayVars_terminators text
    omega
  refine ⟨closed, single, ?_⟩
  rw [docText_iff, typedArrayVars_opens opens, arrayTakesOpener_iff opens]
  simp only [closed, single, and_self, and_true]

theorem third_line_array_keeps_docText :
    let text : Text := "/**\n * The items.\n * @var Item[]\n */"
    DocText text ∧ ¬ ArrayOnSecondLine text ∧ DocText (typedArrayVars text) := by
  intro text
  have doc : DocText text := by decide
  have second : (splitOn 0x0A text)[1]? = some (ofString " * The items.") := by decide
  have later : ¬ ArrayOnSecondLine text := by
    rintro ⟨lead, type, trail, tagged⟩
    have same := Option.some.inj (second.symm.trans tagged)
    have tag : 0x40 ∈ ofString "@var " := by decide
    have sign : 0x40 ∈ arrayTag lead type ++ trail := by
      simp only [arrayTag, List.mem_append, tag, true_or, or_true]
    rw [← same] at sign
    exact absurd sign (by decide)
  exact ⟨doc, later, (typedArrayVars_docText doc).2.2.mpr later⟩

theorem second_line_array_breaks_opener :
    let text : Text := "/**\n * @var int[]\n */"
    DocText text ∧ typedArrayVars text = "/* int[ ]*\n * @var array\n */" ∧
      ¬ Opens (typedArrayVars text) := by
  decide +kernel

end DocBridge.Rule
