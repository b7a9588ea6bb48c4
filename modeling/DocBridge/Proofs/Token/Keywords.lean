import DocBridge.Proofs.Comment.Copy
import DocBridge.Proofs.Token.Kinds
import Mathlib.Data.List.Induction

/-
Which words are keywords. Behind a member arrow, with any white space and comments in between, a
word is the name of a member; everywhere else the table of keywords decides. The header of a source
therefore ends at the first unqualified word `namespace` that names no member.
-/
namespace DocBridge

namespace Keyword

theorem mem_all (k : Keyword) : k ∈ all := by cases k <;> decide

theorem word_injective {k k' : Keyword} (same : k.word = k'.word) : k = k' := by
  have distinct : ∀ a ∈ all, ∀ b ∈ all, a.word = b.word → a = b := by decide +kernel
  exact distinct k k.mem_all k' k'.mem_all same

theorem ofWord_word (k : Keyword) : ofWord? k.word = some k := by
  cases found : ofWord? k.word with
  | none =>
    have other := List.find?_eq_none.mp found k k.mem_all
    exact absurd (beq_self_eq_true k.word) other
  | some k' =>
    rw [ofWord?] at found
    have same := List.find?_some found
    rw [word_injective (beq_iff_eq.mp same)]

theorem ofWord_none {w : Text} (other : ∀ k : Keyword, w ≠ k.word) : ofWord? w = none := by
  rw [ofWord?, List.find?_eq_none]
  intro k _ same
  exact other k (beq_iff_eq.mp same).symm

end Keyword

namespace Kind

def IsWord (k : Kind) : Prop := k = .name ∨ k.isKeyword = true

end Kind

namespace Token

open Scan

def IsMemberArrow (t : Token) : Prop :=
  t.kind = .operator ∧ (t.text = Text.ofString "->" ∨ t.text = Text.ofString "?->")

/-- The nearest token that is neither white space nor a comment is a member arrow. -/
def FollowsArrow (before : List Token) : Prop :=
  ∃ front arrow trivia, before = front ++ arrow :: trivia ∧ arrow.IsMemberArrow ∧
    ∀ t ∈ trivia, t.kind.isTrivia = true

theorem isArrow_iff (t : Token) : isArrow t.kind t.text = true ↔ t.IsMemberArrow := by
  simp only [isArrow, IsMemberArrow, Bool.and_eq_true, Bool.or_eq_true, beq_iff_eq]

theorem arrow_not_trivia {t : Token} (arrow : t.IsMemberArrow) : t.kind.isTrivia = false := by
  rw [arrow.1]
  rfl

theorem not_followsArrow_nil : ¬ FollowsArrow [] := by
  rintro ⟨front, arrow, trivia, empty, _⟩
  simp at empty

/-- White space and comments pass the arrow on, every other token decides anew. -/
theorem followsArrow_append (before : List Token) (t : Token) :
    FollowsArrow (before ++ [t]) ↔
      if t.kind.isTrivia = true then FollowsArrow before else t.IsMemberArrow := by
  constructor
  · rintro ⟨front, arrow, trivia, whole, isArrow, all⟩
    rcases List.eq_nil_or_concat trivia with rfl | ⟨trivia, last, rfl⟩
    · obtain ⟨-, same⟩ := List.append_inj' whole rfl
      obtain rfl : t = arrow := List.singleton_inj.mp same
      rw [if_neg (by simp [arrow_not_trivia isArrow])]
      exact isArrow
    · rw [List.concat_eq_append] at whole all
      rw [← List.cons_append, ← List.append_assoc] at whole
      obtain ⟨rfl, same⟩ := List.append_inj' whole rfl
      obtain rfl : t = last := List.singleton_inj.mp same
      rw [if_pos (all t (by simp))]
      exact ⟨front, arrow, trivia, rfl, isArrow, fun u member => all u (by simp [member])⟩
  · intro arrow
    split at arrow
    · rename_i isTrivia
      obtain ⟨front, arrow, trivia, rfl, isArrow, all⟩ := arrow
      refine ⟨front, arrow, trivia ++ [t], by simp, isArrow, fun u member => ?_⟩
      rcases List.mem_append.mp member with earlier | last
      · exact all u earlier
      · rw [List.mem_singleton.mp last]
        exact isTrivia
    · exact ⟨before, t, [], rfl, arrow, by simp⟩

/-- The mode remembers the arrow across white space and comments of any length. -/
theorem afterArrow_along {mode : Mode} (fresh : mode.afterArrow = false) (before : List Token) :
    (modeAlong mode before).afterArrow = true ↔ FollowsArrow before := by
  induction before using List.reverseRecOn with
  | nil => simp [modeAlong, fresh, not_followsArrow_nil]
  | append_singleton before t ih =>
    have step : (modeAlong mode (before ++ [t])).afterArrow =
        if t.kind.isTrivia then (modeAlong mode before).afterArrow else isArrow t.kind t.text := by
      rw [modeAlong, List.foldl_append]
      rfl
    rw [step, followsArrow_append]
    split
    · exact ih
    · exact isArrow_iff t

theorem gives_word {lead : Lead} {kind : Kind} (word : kind.IsWord) (gives : lead.Gives kind) :
    lead = .name := by
  cases kind <;> cases lead <;> simp [Lead.Gives] at gives <;>
    simp [Kind.IsWord, Kind.isKeyword] at word ⊢

theorem scan_word_lead {mode : Mode} {b : UInt8} {rest : Text} {kind : Kind} {n : Nat}
    (word : kind.IsWord) (scanned : scan mode b rest = (kind, n)) :
    Lead.name.Seen b rest ∧ scanLead b rest .name = (kind, n) := by
  have plain : kind ≠ .inlineHtml ∧ kind ≠ .openTag ∧ kind ≠ .openEchoTag := by
    rcases word with rfl | isKeyword
    · simp
    · refine ⟨?_, ?_, ?_⟩ <;> (rintro rfl; simp [Kind.isKeyword] at isKeyword)
  obtain ⟨_, gives, seen, scanned⟩ := scan_code scanned plain.1 plain.2.1 plain.2.2
  rw [gives_word word gives] at seen scanned
  exact ⟨seen, scanned⟩

theorem scan_word {mode : Mode} {b : UInt8} {text rest : Text} {kind : Kind}
    (word : kind.IsWord) (scanned : scan mode b (text ++ rest) = (kind, text.length)) :
    kind = nameKind (b :: text) := by
  obtain ⟨kind_, length⟩ := Prod.mk.inj (scan_word_lead word scanned).2
  rw [← kind_, length, List.take_left]

theorem isWord_kindIn {mode : Mode} {kind : Kind} : (kindIn mode kind).IsWord ↔ kind.IsWord := by
  unfold kindIn
  split
  · rename_i demoted
    have isKeyword := (Bool.and_eq_true_iff.mp demoted).2
    simp [Kind.IsWord, isKeyword]
  · exact Iff.rfl

theorem nameKind_slash {word : Text} (slash : 0x5C ∈ word) : nameKind word = .name := by
  rw [nameKind, if_pos]
  exact List.any_eq_true.mpr ⟨0x5C, slash, rfl⟩

theorem nameKind_clean {word : Text} (clean : 0x5C ∉ word) :
    nameKind word = ((Keyword.ofWord? (Utf8.lower word)).map Kind.keyword).getD .name := by
  have none_ : Text.containsByte 0x5C word = false := by
    rw [Text.containsByte, List.any_eq_false]
    intro b member same
    rw [beq_iff_eq.mp same] at member
    exact clean member
  rw [nameKind, none_, if_neg Bool.false_ne_true]
  cases Keyword.ofWord? (Utf8.lower word) <;> rfl

/-- What the kind of a word is, given the tokens before it. -/
structure KindOfWord (before : List Token) (t : Token) : Prop where
  qualified : 0x5C ∈ t.text → t.kind = .name
  keyword : ∀ k : Keyword, 0x5C ∉ t.text → Utf8.lower t.text = k.word → ¬ FollowsArrow before →
    t.kind = .keyword k
  member : FollowsArrow before → t.kind = .name
  other : (∀ k : Keyword, Utf8.lower t.text ≠ k.word) → t.kind = .name

theorem lexed_word {mode : Mode} {line : Nat} {s : Text} {before after : List Token} {t : Token}
    (fresh : mode.afterArrow = false) (lexed : Lexed mode line s (before ++ t :: after))
    (word : t.kind.IsWord) : KindOfWord before t := by
  obtain ⟨b, text, kind, kind_, text_, scanned, -⟩ := lexed_at lexed
  rw [kind_, isWord_kindIn] at word
  have kind' := scan_word word scanned
  rw [← text_] at kind'
  have arrow := afterArrow_along fresh before
  have named : nameKind t.text = .name → t.kind = .name := by
    intro plain
    rw [kind_, kind', plain, kindIn]
    split <;> rfl
  constructor
  case qualified =>
    intro slash
    exact named (nameKind_slash slash)
  case keyword =>
    intro k clean lower noArrow
    rw [kind_, kind', nameKind_clean clean, lower, Keyword.ofWord_word, kindIn]
    rw [← arrow, Bool.not_eq_true] at noArrow
    rw [noArrow]
    rfl
  case member =>
    intro follows
    rcases word with plain | isKeyword
    · exact named (kind' ▸ plain)
    · rw [kind_, kindIn, arrow.mpr follows, isKeyword]
      rfl
  case other =>
    intro unlisted
    by_cases slash : 0x5C ∈ t.text
    · exact named (nameKind_slash slash)
    · apply named
      rw [nameKind_clean slash, Keyword.ofWord_none unlisted]
      rfl

end Token

namespace Filter

def EndsHeader (before : List Token) (t : Token) : Prop :=
  t.kind.IsWord ∧ 0x5C ∉ t.text ∧ Utf8.lower t.text = Keyword.namespaceKw.word ∧
    ¬ Token.FollowsArrow before

theorem endsHeader_iff {src : Text} {before after : List Token} {t : Token}
    (split : Token.stream src = before ++ t :: after) :
    t.kind = .keyword .namespaceKw ↔ EndsHeader before t := by
  have lexed := Token.lexed_stream src
  rw [split] at lexed
  constructor
  · intro keyword
    have word : t.kind.IsWord := .inr (by rw [keyword]; rfl)
    have kind := Token.lexed_word rfl lexed word
    have notName : t.kind ≠ .name := by simp [keyword]
    have clean : 0x5C ∉ t.text := fun slash => notName (kind.qualified slash)
    have noArrow : ¬ Token.FollowsArrow before := fun follows => notName (kind.member follows)
    refine ⟨word, clean, ?_, noArrow⟩
    -- The word is in the table, and it can only stand there for the keyword that it is.
    by_contra other
    apply notName
    apply kind.other
    intro k lower
    have same := kind.keyword k clean lower noArrow
    rw [keyword] at same
    cases same
    exact other lower
  · rintro ⟨word, clean, lower, noArrow⟩
    exact (Token.lexed_word rfl lexed word).keyword _ clean lower noArrow

theorem passedBefore_iff (src : Text) (i : Nat) :
    passedBefore (Token.stream src) i = true ↔
      ∃ before t after, Token.stream src = before ++ t :: after ∧ before.length < i ∧
        EndsHeader before t := by
  rw [passedBefore, List.any_eq_true]
  constructor
  · rintro ⟨t, member, keyword⟩
    obtain ⟨before, rest, front⟩ := List.append_of_mem member
    have whole : Token.stream src = before ++ t :: (rest ++ (Token.stream src).drop i) := by
      rw [← List.cons_append, ← List.append_assoc, ← front, List.take_append_drop]
    refine ⟨before, t, _, whole, ?_, (endsHeader_iff whole).mp (beq_iff_eq.mp keyword)⟩
    have size := congrArg List.length front
    rw [List.length_take, List.length_append, List.length_cons] at size
    omega
  · rintro ⟨before, t, after, whole, early, ends⟩
    refine ⟨t, ?_, beq_iff_eq.mpr ((endsHeader_iff whole).mpr ends)⟩
    rw [whole]
    obtain ⟨n, rfl⟩ : ∃ n, i = before.length + (n + 1) := ⟨i - before.length - 1, by omega⟩
    rw [List.take_length_add_append, List.take_succ_cons]
    simp

/-- A word is a keyword exactly if it is unqualified, stands in the table of keywords and names no
member; otherwise it is a name. A doc comment belongs to the header as long as no unqualified word
`namespace` that names no member stands before it. -/
theorem words_are_keywords_outside_members (src : Text) :
    let tokens := Token.stream src
    (∀ before t after, tokens = before ++ t :: after → t.kind.IsWord →
      Token.KindOfWord before t) ∧
    (∀ i, passedBefore tokens i = true ↔
      ∃ before t after, tokens = before ++ t :: after ∧ before.length < i ∧
        EndsHeader before t) ∧
    ∀ l name, (process l name none src).output = tokens.zipIdx.flatMap fun (t, i) =>
      if t.kind = .docComment then
        (Dialect.comment l (passedBefore tokens i) ⟨tokens, i⟩ t.text).1
      else t.text := by
  intro tokens
  refine ⟨?_, passedBefore_iff src, ?_⟩
  · intro before t after split word
    have lexed := Token.lexed_stream src
    rw [show Token.stream src = before ++ t :: after from split] at lexed
    exact Token.lexed_word rfl lexed word
  · intro l name
    refine (process_output l name src).trans (List.flatMap_congr ?_)
    rintro ⟨t, i⟩ _
    by_cases doc : t.kind = .docComment
    · simp only [written_doc doc, doc, if_true, tokens]
    · simp only [written_other doc, doc, if_false]

end Filter
end DocBridge
