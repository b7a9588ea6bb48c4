import DocBridge.Proofs.Query.Order
import DocBridge.Query.Parse

/-
What the queries of the form `//name[predicate]` select. A predicate that reads no more than the
start tag of an element decides for every page alike which elements belong to the selection.
-/
namespace DocBridge.Query

def tagAt? (t : Tree) (path : Path) : Option Tag :=
  match nodeAt? t path with
  | some (.element tag _) => some tag
  | _ => none

theorem tagAt?_eq_some {t : Tree} {path : Path} {tag : Tag} :
    tagAt? t path = some tag ↔ ∃ cs, nodeAt? t path = some (.element tag cs) := by
  unfold tagAt?
  split
  · rename_i found cs there
    simp [there]
  · rename_i other
    constructor
    · intro h
      contradiction
    · rintro ⟨cs, there⟩
      exact absurd there (other tag cs)

theorem kindOf_element (t : Tree) (path : Path) :
    (kindOf t ⟨path, none⟩ == .element) = (tagAt? t path).isSome := by
  unfold kindOf tagAt?
  cases nodeAt? t path with
  | none => rfl
  | some n => cases n <;> rfl

/-- The elements whose start tags are wanted, each once and none after an element inside it. -/
structure Selects (e : Expr) (wanted : Tag → Bool) : Prop where
  mem : ∀ t path, path ∈ elements t e ↔ ∃ tag, tagAt? t path = some tag ∧ wanted tag = true
  topdown : ∀ t, Topdown (elements t e)

def Names (test : Test) (named : Tag → Bool) : Prop :=
  ∀ t path, test.holds .child t ⟨path, none⟩ = (tagAt? t path).any named

theorem names_any : Names .any fun _ => true := by
  intro t path
  have kind := kindOf_element t path
  cases found : tagAt? t path with
  | none => simp [Test.holds, kind, found]
  | some tag => simp [Test.holds, kind, found]

theorem names_inSpace (uri name : Text) :
    Names (.inSpace uri name) fun tag => tag.name == name && tag.uri == uri := by
  intro t path
  have kind := kindOf_element t path
  cases found : tagAt? t path with
  | none => simp [Test.holds, kind, found]
  | some tag =>
    obtain ⟨cs, there⟩ := tagAt?_eq_some.mp found
    simp [Test.holds, kind, found, nameOf, itemAttr?, there]

/-- A predicate that reads no more than the start tag. -/
def Judges (e : Expr) (passed : Tag → Bool) : Prop :=
  ∀ t path tag position size, tagAt? t path = some tag →
    (eval t e ⟨⟨path, none⟩, position, size⟩).passes position = passed tag

theorem contexts_items (is : List Item) : (contexts is).map Context.item = is := by
  simp only [contexts, List.map_map]
  exact List.zipIdx_map_fst 0 is

theorem filter_contexts {is : List Item} {test : Context → Bool} (passed : Item → Bool)
    (same : ∀ c ∈ contexts is, test c = passed c.item) :
    ((contexts is).filter test).map Context.item = is.filter passed := by
  rw [List.filter_congr same]
  calc ((contexts is).filter fun c => passed c.item).map Context.item
      = ((contexts is).map Context.item).filter passed := by rw [List.filter_map]; rfl
    _ = is.filter passed := by rw [contexts_items]

theorem child_items (t : Tree) (path : Path) :
    Axis.child.items t ⟨path, none⟩ = (childPaths t path).map fun p => ⟨p, none⟩ := rfl

theorem keep_named {test : Test} {named : Tag → Bool} (names : Names test named) (t : Tree)
    (path : Path) :
    (Axis.child.items t ⟨path, none⟩).filter (test.holds .child t) =
      ((childPaths t path).filter fun p => (tagAt? t p).any named).map fun p => ⟨p, none⟩ := by
  rw [child_items, List.filter_map]
  refine congrArg _ (List.filter_congr fun p _ => ?_)
  exact names t p

theorem keep_judged {e : Expr} {passed : Tag → Bool} (judges : Judges e passed) (t : Tree)
    {paths : List Path} (elements : ∀ p ∈ paths, (tagAt? t p).isSome) :
    keep t [e] (paths.map fun p => ⟨p, none⟩) =
      (paths.filter fun p => (tagAt? t p).any passed).map fun p => ⟨p, none⟩ := by
  have test : ∀ c ∈ contexts (paths.map fun p => ⟨p, none⟩),
      (eval t e c).passes c.position = (tagAt? t c.item.path).any passed := by
    intro c member
    have item : c.item ∈ paths.map fun p => (⟨p, none⟩ : Item) := by
      rw [← contexts_items (paths.map fun p => ⟨p, none⟩)]
      exact List.mem_map_of_mem member
    obtain ⟨p, listed, same⟩ := List.mem_map.mp item
    obtain ⟨tag, found⟩ := Option.isSome_iff_exists.mp (elements p listed)
    have judged := judges t p tag c.position c.size found
    rw [← same, found]
    rw [same] at judged
    exact judged
  rw [keep, keep, filter_contexts (fun i => (tagAt? t i.path).any passed) test, List.filter_map]
  rfl

/-- The wanted elements, listed by their parents. -/
def wantedChildren (wanted : Tag → Bool) (t : Tree) : List Path :=
  (([] :: descendants t []).flatMap (childPaths t)).filter fun p => (tagAt? t p).any wanted

theorem map_path (paths : List Path) :
    (paths.map fun p => (⟨p, none⟩ : Item)).map Item.path = paths := by
  rw [List.map_map]
  exact List.map_id paths

theorem anywhere_items (t : Tree) : (itemsOf (eval t (anywhere .root) ⟨⟨[], none⟩, 1, 1⟩)).Perm
    (([] :: descendants t []).map fun p => ⟨p, none⟩) := by
  have all (is : List Item) : is.filter (Test.node.holds .descendantOrSelf t) = is :=
    List.filter_eq_self.mpr fun _ _ => rfl
  have around : itemsOf (eval t (anywhere .root) ⟨⟨[], none⟩, 1, 1⟩) =
      inOrder (([] :: descendants t []).map fun p => ⟨p, none⟩) := by
    simp [anywhere, eval, itemsOf, keep, Axis.merge, Axis.items, all]
  rw [around]
  exact inOrder_perm _

theorem wantedChildren_elements (wanted : Tag → Bool) (t : Tree) :
    ((wantedChildren wanted t).map fun p => (⟨p, none⟩ : Item)).filter
      (fun i => kindOf t i == .element) = (wantedChildren wanted t).map fun p => ⟨p, none⟩ := by
  refine List.filter_eq_self.mpr fun i member => ?_
  obtain ⟨p, listed, rfl⟩ := List.mem_map.mp member
  rw [kindOf_element]
  exact Option.isSome_of_any (List.mem_filter.mp listed).2

/-- What the last step of a query `//…` finds, before it is put in order. -/
def foundChildren (test : Test) (predicates : List Expr) (t : Tree) : List Item :=
  (itemsOf (eval t (anywhere .root) ⟨⟨[], none⟩, 1, 1⟩)).flatMap fun i =>
    keep t predicates ((Axis.child.items t i).filter (test.holds .child t))

theorem select_children (test : Test) (predicates : List Expr) (t : Tree) :
    select t (.step (anywhere .root) .child test predicates) =
      inOrder (foundChildren test predicates t) := rfl

section Kept

variable {test : Test} {predicates : List Expr} {wanted : Tag → Bool}
  (kept : ∀ t path,
    keep t predicates ((Axis.child.items t ⟨path, none⟩).filter (test.holds .child t)) =
      ((childPaths t path).filter fun p => (tagAt? t p).any wanted).map fun p => ⟨p, none⟩)

include kept

theorem foundChildren_perm (t : Tree) : (foundChildren test predicates t).Perm
    ((wantedChildren wanted t).map fun p => ⟨p, none⟩) := by
  have steps : (fun p => keep t predicates
      ((Axis.child.items t ⟨p, none⟩).filter (test.holds .child t))) = fun path =>
        ((childPaths t path).filter fun p => (tagAt? t p).any wanted).map fun p => ⟨p, none⟩ :=
    funext fun path => kept t path
  refine ((anywhere_items t).flatMap_right _).trans (List.Perm.of_eq ?_)
  rw [List.flatMap_map, steps, ← List.map_flatMap, ← List.filter_flatMap]
  rfl

theorem elements_perm (t : Tree) :
    (elements t (.step (anywhere .root) .child test predicates)).Perm
      (wantedChildren wanted t) := by
  have perm := (((inOrder_perm _).trans (foundChildren_perm kept t)).filter
    fun i => kindOf t i == .element).map Item.path
  rwa [wantedChildren_elements, map_path, ← select_children] at perm

/-- A query `//…` whose last step keeps the children that are wanted. -/
theorem selects_of_kept : Selects (.step (anywhere .root) .child test predicates) wanted := by
  constructor
  · intro t path
    rw [(elements_perm kept t).mem_iff, wantedChildren, List.mem_filter, Option.any_eq_true]
    refine ⟨fun h => h.2, ?_⟩
    rintro ⟨tag, there, want⟩
    refine ⟨?_, tag, there, want⟩
    obtain ⟨cs, node⟩ := tagAt?_eq_some.mp there
    exact mem_children node
  · intro t
    have distinct : ((foundChildren test predicates t).map Item.path).Nodup := by
      rw [((foundChildren_perm kept t).map Item.path).nodup_iff, map_path]
      exact topdown_nodup ((topdown_children t).filter _)
    rw [elements, select_children]
    exact (topdown_inOrder distinct).sublist (List.filter_sublist.map Item.path)

end Kept

theorem selects_named {test : Test} {named : Tag → Bool} (names : Names test named) :
    Selects (.step (anywhere .root) .child test []) named :=
  selects_of_kept fun t path => keep_named names t path

theorem selects_judged {test : Test} {e : Expr} {named passed : Tag → Bool}
    (names : Names test named) (judges : Judges e passed) :
    Selects (.step (anywhere .root) .child test [e]) fun tag => named tag && passed tag := by
  refine selects_of_kept fun t path => ?_
  have elements : ∀ p ∈ (childPaths t path).filter fun p => (tagAt? t p).any named,
      (tagAt? t p).isSome := by
    intro p listed
    exact Option.isSome_of_any (List.mem_filter.mp listed).2
  rw [keep_named names, keep_judged judges t elements, List.filter_filter]
  refine congrArg _ (List.filter_congr fun p _ => ?_)
  cases tagAt? t p with
  | none => rfl
  | some tag => exact Bool.and_comm _ _

def attrStep (key : Text) : Expr := .step .context .attribute (.plain key) []

theorem head_filter_range {α : Type} (l : List α) (p : α → Bool) :
    ((List.range l.length).filter fun n => l[n]?.any p).head?.bind (l[·]?) = l.find? p := by
  rw [List.head?_filter]
  induction l with
  | nil => rfl
  | cons a l ih =>
    rw [List.length_cons, List.range_succ_eq_map, List.find?_cons, List.find?_cons]
    cases accepted : p a with
    | true => simp [accepted]
    | false =>
      simp only [List.getElem?_cons_zero, Option.any_some, accepted]
      rw [← ih, List.find?_map, Option.bind_map]
      rfl

theorem attrStep_head {t : Tree} {path : Path} {tag : Tag} (found : tagAt? t path = some tag)
    (key : Text) (position size : Nat) :
    (itemsOf (eval t (attrStep key) ⟨⟨path, none⟩, position, size⟩)).head?.map (valueOf t) =
      tag.attr? key := by
  obtain ⟨cs, there⟩ := tagAt?_eq_some.mp found
  have read {n : Nat} {a : Attr} (at_n : tag.attrs[n]? = some a) :
      itemAttr? t ⟨path, some n⟩ = some a := by
    simp only [itemAttr?, there]
    exact at_n
  have items : itemsOf (eval t (attrStep key) ⟨⟨path, none⟩, position, size⟩) =
      ((List.range tag.attrs.length).filter fun n =>
        tag.attrs[n]?.any fun a => a.qualifier.isEmpty && a.name == key).map
          fun n => ⟨path, some n⟩ := by
    have tests : ∀ n ∈ List.range tag.attrs.length,
        (Test.plain key).holds .attribute t ⟨path, some n⟩ =
          tag.attrs[n]?.any fun a => a.qualifier.isEmpty && a.name == key := by
      intro n small
      have at_n := List.getElem?_eq_getElem (List.mem_range.mp small)
      simp [Test.holds, kindOf, nameOf, read at_n, at_n]
    simp only [attrStep, eval, itemsOf, keep, Axis.merge, List.flatMap_cons, List.flatMap_nil,
      List.append_nil, Bool.false_eq_true, if_false, Axis.items, Option.isSome_none,
      attributeItems, there, List.filter_map]
    refine (inOrder_same ?_).trans (congrArg _ (List.filter_congr tests))
    refine List.pairwise_map.mpr (List.Pairwise.imp ?_ (List.pairwise_lt_range.filter _))
    intro n m less
    exact (Item.le_iff _ _).mpr (.inr ⟨rfl, Nat.succ_le_succ (Nat.le_of_lt less)⟩)
  rw [items, Tag.attr?, ← head_filter_range, List.head?_map, Option.map_map, Option.map_bind]
  cases first : ((List.range tag.attrs.length).filter fun n =>
      tag.attrs[n]?.any fun a => a.qualifier.isEmpty && a.name == key).head? with
  | none => rfl
  | some n =>
    have kept := (List.mem_filter.mp (List.mem_of_mem_head? first)).2
    obtain ⟨a, at_n, _⟩ := (Option.any_eq_true _ _).mp kept
    simp [valueOf, read at_n, at_n]

theorem judges_present (key : Text) : Judges (attrStep key) fun tag => (tag.attr? key).isSome := by
  intro t path tag position size found
  have head := attrStep_head found key position size
  have items : (eval t (attrStep key) ⟨⟨path, none⟩, position, size⟩).passes position =
      !(itemsOf (eval t (attrStep key) ⟨⟨path, none⟩, position, size⟩)).isEmpty := rfl
  simp only [items, ← head, Option.isSome_map]
  cases itemsOf (eval t (attrStep key) ⟨⟨path, none⟩, position, size⟩) with
  | nil => rfl
  | cons i is => rfl

def hasWord (blank key word : Text) : Expr :=
  .call .contains
    [.call .concat [.literal blank, .call .normalizeSpace [attrStep key], .literal blank],
      .literal (blank ++ word ++ blank)]

def tagHasWord (blank key word : Text) (tag : Tag) : Bool :=
  Text.contains (blank ++ word ++ blank)
    (blank ++ (normalizeSpace ((tag.attr? key).getD []) ++ blank))

theorem apply_normalizeSpace (t : Tree) (c : Context) (r : Result) :
    apply t c .normalizeSpace [r] = .text (normalizeSpace (r.asText t)) := rfl

theorem apply_concat (t : Tree) (c : Context) (x y z : Text) :
    apply t c .concat [.text x, .text y, .text z] = .text (x ++ (y ++ (z ++ []))) := rfl

theorem apply_contains (t : Tree) (c : Context) (x y : Text) :
    apply t c .contains [.text x, .text y] = .bool (Text.contains y x) := rfl

theorem judges_word (blank key word : Text) :
    Judges (hasWord blank key word) (tagHasWord blank key word) := by
  intro t path tag position size found
  have head := attrStep_head found key position size
  have text : (eval t (attrStep key) ⟨⟨path, none⟩, position, size⟩).asText t =
      (tag.attr? key).getD [] := by
    rw [← head]
    rfl
  simp only [hasWord, eval, evalAll, apply_normalizeSpace, apply_concat, apply_contains, text,
    List.append_nil]
  rfl

end DocBridge.Query
