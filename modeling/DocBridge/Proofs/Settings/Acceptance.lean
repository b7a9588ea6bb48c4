import DocBridge.Fix.Fixer
import DocBridge.Settings.Load
import Mathlib

/-
Settings that were accepted always work. Filling in defaults again changes nothing, and the check
asks for all that a fixer is built from, so nothing is left to fail once settings are loaded.
-/
namespace DocBridge

section Results

variable {ε ε' α β : Type}

theorem bind_eq_ok {x : Except ε α} {g : α → Except ε β} {b : β} :
    x >>= g = .ok b ↔ ∃ a, x = .ok a ∧ g a = .ok b := by
  cases x <;> simp [bind, Except.bind]

theorem pure_eq_ok {a b : α} : (pure a : Except ε α) = .ok b ↔ a = b := by
  simp [pure, Except.pure]

theorem mapError_eq_ok {x : Except ε α} {g : ε → ε'} {a : α} : x.mapError g = .ok a ↔ x = .ok a := by
  cases x <;> simp [Except.mapError]

theorem map_eq_ok {x : Except ε α} {g : α → β} {b : β} :
    x.map g = .ok b ↔ ∃ a, x = .ok a ∧ g a = b := by
  cases x <;> simp [Except.map]

theorem eq_ok_of_toOption {x : Except ε α} {a : α} (found : x.toOption = some a) : x = .ok a := by
  cases x with
  | error e => contradiction
  | ok b => exact congrArg Except.ok (Option.some.inj found)

theorem exists_mapM_eq_ok (g : α → Except ε β) (as : List α) :
    (∃ bs, as.mapM g = .ok bs) ↔ ∀ a ∈ as, ∃ b, g a = .ok b := by
  induction as with
  | nil => simp [pure_eq_ok]
  | cons a as ih =>
    rw [List.forall_mem_cons, ← ih, List.mapM_cons]
    simp only [bind_eq_ok, pure_eq_ok]
    constructor
    · rintro ⟨_, b, first, bs, rest, _⟩
      exact ⟨⟨b, first⟩, bs, rest⟩
    · rintro ⟨⟨b, first⟩, bs, rest⟩
      exact ⟨b :: bs, b, first, bs, rest, rfl⟩

end Results

theorem Lookahead.orDefault_orDefault (l : Lookahead) : l.orDefault.orDefault = l.orDefault := by
  unfold orDefault
  by_cases unset : l.min = 0 ∧ l.max = 0
  · simp [unset]
  · simp [unset]

namespace PageSettings

theorem orElse_orElse (given fallback : Text) :
    orElse (orElse given fallback) fallback = orElse given fallback := by
  unfold orElse
  cases given <;> cases fallback <;> rfl

theorem orDefault_orDefault (p : PageSettings) : p.orDefault.orDefault = p.orDefault := by
  have namespaces : p.orDefault.namespaces.isEmpty = false := by
    cases given : p.namespaces <;> simp [orDefault, given]
  have queries : p.orDefault.separatorQueries.isEmpty = false := by
    cases given : p.separatorQueries <;> simp [orDefault, given, defaultQueries]
  rw [orDefault]
  simp only [namespaces, queries, Bool.false_eq_true, if_false]
  simp only [orDefault, orElse_orElse]

end PageSettings

theorem Settings.orDefault_orDefault (s : Settings) : s.orDefault.orDefault = s.orDefault := by
  simp only [orDefault, Lookahead.orDefault_orDefault, PageSettings.orDefault_orDefault]

namespace Fixer

def Compiles (ns : Query.Namespaces) (query : Text) : Prop := ∃ e, Query.compile ns query = .ok e

theorem exists_ofSettings (p : PageSettings) :
    (∃ f, ofSettings p = .ok f) ↔
      (∀ q ∈ p.separatorQueries, Compiles p.namespaces q.query) ∧
      Compiles p.namespaces p.linkQuery ∧
      ∃ m, Pattern.Written.compile p.manualLinkPattern = .ok m := by
  have each (q : SeparatorQuery) :
      (∃ s, compileSeparators p q = .ok s) ↔ Compiles p.namespaces q.query := by
    simp only [compileSeparators, compileQuery, map_eq_ok, mapError_eq_ok, Compiles]
    constructor
    · rintro ⟨_, e, compiled, _⟩
      exact ⟨e, compiled⟩
    · rintro ⟨e, compiled⟩
      exact ⟨_, e, compiled, rfl⟩
  have queries := exists_mapM_eq_ok (compileSeparators p) p.separatorQueries
  simp only [each] at queries
  rw [← queries, Compiles, ofSettings]
  simp only [compileQuery, bind_eq_ok, mapError_eq_ok, pure_eq_ok]
  constructor
  · rintro ⟨_, separators, read, links, linked, m, pattern, _⟩
    exact ⟨⟨separators, read⟩, ⟨links, linked⟩, m, pattern⟩
  · rintro ⟨⟨separators, read⟩, ⟨links, linked⟩, m, pattern⟩
    exact ⟨_, separators, read, links, linked, m, pattern, rfl⟩

theorem ofSettings_metricsFile {p : PageSettings} {f : Fixer} (built : ofSettings p = .ok f)
    (file : Text) :
    ofSettings { p with metricsFile := file } =
      .ok { f with settings := { p with metricsFile := file } } := by
  unfold ofSettings at built ⊢
  simp only [bind_eq_ok, pure_eq_ok] at built ⊢
  obtain ⟨separators, read, links, linked, m, pattern, same⟩ := built
  subst same
  exact ⟨separators, read, links, linked, m, pattern, rfl⟩

end Fixer

namespace Settings

theorem checkLookahead_ok (l : Lookahead) :
    checkLookahead l = .ok () ↔ 1 ≤ l.min ∧ l.min ≤ l.max ∧ l.max ≤ lookaheadLimit := by
  unfold checkLookahead
  constructor
  · intro accepted
    split at accepted
    · contradiction
    · split at accepted
      · contradiction
      · split at accepted
        · contradiction
        · omega
  · intro bounds
    rw [if_neg (by omega), if_neg (by omega), if_neg (by omega)]

theorem checkQueries_ok (ns : Query.Namespaces) (i : Nat) (qs : List SeparatorQuery) :
    checkQueries ns i qs = .ok () ↔
      (∀ q ∈ qs, isBlank q.query = false) ∧ ∀ q ∈ qs, Fixer.Compiles ns q.query := by
  induction qs generalizing i with
  | nil => simp [checkQueries]
  | cons q qs ih =>
    rw [List.forall_mem_cons, List.forall_mem_cons, checkQueries]
    by_cases blank : isBlank q.query = true
    · simp [blank]
    · rw [if_neg blank]
      cases compiled : Query.compile ns q.query with
      | error p => simp [Fixer.Compiles, compiled]
      | ok e => simp [Fixer.Compiles, compiled, blank, ih]

theorem checkPages_ok (p : PageSettings) :
    checkPages p = .ok () ↔
      isBlank p.extension = false ∧ (∀ q ∈ p.separatorQueries, isBlank q.query = false) ∧
      ∃ f, Fixer.ofSettings p = .ok f := by
  rw [Fixer.exists_ofSettings, ← and_assoc (b := ∀ q ∈ _, Fixer.Compiles _ _),
    ← checkQueries_ok p.namespaces 0, checkPages, Fixer.Compiles]
  by_cases blank : isBlank p.extension = true
  · simp [blank, throw, throwThe, MonadExceptOf.throw, bind, Except.bind]
  · rw [Bool.not_eq_true] at blank
    simp only [blank, Bool.false_eq_true, if_false, bind_eq_ok, mapError_eq_ok, true_and]
    constructor
    · rintro ⟨⟨⟩, queries, links, linked, m, pattern, _⟩
      exact ⟨queries, ⟨links, linked⟩, m, pattern⟩
    · rintro ⟨queries, ⟨links, linked⟩, m, pattern⟩
      exact ⟨(), queries, links, linked, m, pattern, rfl⟩

theorem read_ok {env : Environment} {yaml : Text} {s : Settings}
    (accepted : read env yaml = .ok s) : s.orDefault = s ∧ s.check = .ok () := by
  unfold read at accepted
  simp only [bind_eq_ok, mapError_eq_ok, pure_eq_ok] at accepted
  obtain ⟨given, _, _, checked, same⟩ := accepted
  subst same
  exact ⟨orDefault_orDefault given, checked⟩

theorem read_empty : read [] [] = .ok standard := eq_ok_of_toOption (by decide +kernel)

theorem load_read {d : Disk} {env : Environment} {flag : Text} {s : Settings}
    (loaded : (load d env flag).result = .ok s) : ∃ env yaml, read env yaml = .ok s := by
  unfold load at loaded
  generalize loadEnv d env envFiles = found at loaded
  dsimp only at loaded
  split at loaded
  · cases loaded
    exact ⟨[], [], read_empty⟩
  · unfold loadFile at loaded
    cases taken : d.read (source d found.1 flag).path with
    | error e => simp [taken] at loaded
    | ok yaml =>
      cases parsed : read found.1 yaml with
      | error e => simp [taken, parsed] at loaded
      | ok s' =>
        simp only [taken, parsed] at loaded
        cases loaded
        exact ⟨found.1, yaml, parsed⟩

/-- A window that starts behind the cursor holds none of the tokens up to it. A position past the
greatest word counts as one before the sequence, and there is no token in either case. -/
theorem window_after (before : List Token) (doc : Token) (after : List Token) {lo hi : Int}
    (behind : 1 ≤ lo) (ordered : lo ≤ hi) (near : hi ≤ lookaheadLimit)
    (fits : (before ++ doc :: after).length < 2 ^ 63) :
    Cursor.window ⟨before ++ doc :: after, before.length⟩ lo hi =
      (after.drop (lo - 1).toNat).take (hi - lo + 1).toNat := by
  have limit : lookaheadLimit = 32 := rfl
  have ends : hi ≠ Cursor.greatestWord := by
    rw [Cursor.greatestWord]
    omega
  rw [List.length_append, List.length_cons] at fits
  unfold Cursor.window
  simp only [ends, if_false]
  by_cases inside : (before.length : Int) + lo < 2 ^ 63
  · have start : Cursor.wrap (before.length + lo) = before.length + lo := by
      apply Int.bmod_eq_of_le
      · omega
      · omega
    have passed : ((before.length : Int) + lo).toNat = before.length + ((lo - 1).toNat + 1) := by
      omega
    simp only [start]
    rw [if_neg (by omega), passed, List.drop_length_add_append, List.drop_succ_cons]
  · have start : Cursor.wrap (before.length + lo) < 0 := by
      rw [Cursor.wrap, Int.bmod_def]
      split
      · omega
      · omega
    have none_left : after.drop (lo - 1).toNat = [] := by
      apply List.drop_eq_nil_of_le
      omega
    simp only [start, true_or, if_true, none_left, List.take_nil]

structure Usable (s : Settings) : Prop where
  filled : s.orDefault = s
  lookahead : 1 ≤ s.lookahead.min ∧ s.lookahead.min ≤ s.lookahead.max ∧ s.lookahead.max ≤ 32
  extension : isBlank s.pages.extension = false
  fixer : ∃ f, Fixer.ofSettings s.pages = .ok f ∧
    ∀ file, Fixer.ofSettings { s.pages with metricsFile := file } =
      .ok { f with settings := { s.pages with metricsFile := file } }
  /-- The variable of a comment is looked for in what follows the comment. Sequences in memory are
  shorter than the greatest position. -/
  ahead : ∀ (before : List Token) (doc : Token) (after : List Token),
    (before ++ doc :: after).length < 2 ^ 63 →
    Dialect.resolveVariable ⟨before ++ doc :: after, before.length⟩ s.lookahead =
      Dialect.firstVariable 0 ((after.drop (s.lookahead.min - 1).toNat).take
        (s.lookahead.max - s.lookahead.min + 1).toNat)

theorem usable_of_check {s : Settings} (filled : s.orDefault = s) (checked : s.check = .ok ()) :
    Usable s := by
  unfold check at checked
  rw [bind_eq_ok] at checked
  obtain ⟨_, bounds, pages⟩ := checked
  obtain ⟨positive, ordered, small⟩ := (checkLookahead_ok s.lookahead).mp bounds
  obtain ⟨extension, _, f, built⟩ := (checkPages_ok s.pages).mp pages
  constructor
  · exact filled
  · exact ⟨positive, ordered, small⟩
  · exact extension
  · exact ⟨f, built, Fixer.ofSettings_metricsFile built⟩
  · intro before doc after fits
    unfold Dialect.resolveVariable
    rw [window_after before doc after positive ordered small fits]

/-- Settings that were read from a text and accepted, or loaded in any way, never fail later. -/
theorem accepted_settings_usable :
    (∀ env yaml s, read env yaml = .ok s → Usable s) ∧
      ∀ d env flag s, (load d env flag).result = .ok s → Usable s := by
  have usable (env : Environment) (yaml : Text) (s : Settings)
      (accepted : read env yaml = .ok s) : Usable s := by
    obtain ⟨filled, checked⟩ := read_ok accepted
    exact usable_of_check filled checked
  constructor
  · exact usable
  · intro d env flag s loaded
    obtain ⟨env', yaml, accepted⟩ := load_read loaded
    exact usable env' yaml s accepted

theorem own_query_usable :
    let yaml : Text :=
      "filter:\n  var_lookahead: \x7bmin_offset: 2, max_offset: 10\x7d\n" ++
        "fixhtml:\n  namespaces: \x7bx: $NS\x7d\n  separator_queries:\n    - query: //x:code\n"
    let s : Settings :=
      orDefault
        { lookahead := ⟨2, 10⟩
          pages := { namespaces := [("x", "u")], separatorQueries := [{ query := "//x:code" }] } }
    let env : Environment := [("NS", "u")]
    let d : Disk := ⟨[([defaultFile], .file yaml 0o644)]⟩
    (read env yaml = .ok s ∧ Usable s) ∧ (load d env []).result = .ok s ∧ Usable s := by
  intro yaml s env d
  have accepted : read env yaml = .ok s := eq_ok_of_toOption (by decide +kernel)
  have loaded : (load d env []).result = .ok s := by
    have dotenv : loadEnv d env envFiles = (env, noEnvRecord) := by cbv
    have chosen : source d env [] = ⟨defaultFile, false⟩ := by cbv
    have content : d.read defaultFile = .ok yaml := by cbv
    have named : defaultFile.isEmpty = false := rfl
    simp only [load, dotenv, chosen, named, Bool.false_eq_true, if_false, loadFile, content,
      accepted]
  exact ⟨⟨accepted, accepted_settings_usable.1 env yaml s accepted⟩, loaded,
    accepted_settings_usable.2 d env [] s loaded⟩

end Settings
end DocBridge
