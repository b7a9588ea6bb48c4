import DocBridge.Proofs.Page.Idempotence

/-
Attributes under the fixes. A pass writes only where it has read: the first attribute of a name
without a qualifier. So start tags keep their shape, and every value that differs has been restored,
shortened, or first the one and then the other.
-/
namespace DocBridge

namespace Tag

def shape (tag : Tag) : Tag :=
  { tag with attrs := tag.attrs.map fun a => { a with value := [] } }

def FirstNamed (tag : Tag) (key : Text) (i : Nat) : Prop :=
  tag.attrs.findIdx? (fun a => a.qualifier.isEmpty && a.name == key) = some i

/-- The same start tag but for values, each of which is what it was or has changed in a way that is
`allowed` for its place. -/
structure Revalued (allowed : Nat → Text → Text → Prop) (tag tag' : Tag) : Prop where
  shape : tag'.shape = tag.shape
  values : ∀ i a a', tag.attrs[i]? = some a → tag'.attrs[i]? = some a' →
    a'.value = a.value ∨ allowed i a.value a'.value

variable {tag tag' : Tag} {key : Text} {i : Nat} {allowed allowed' : Nat → Text → Text → Prop}

theorem firstNamed_shape : tag.shape.FirstNamed key i ↔ tag.FirstNamed key i := by
  unfold FirstNamed shape
  rw [List.findIdx?_map]
  rfl

theorem firstNamed_congr (same : tag'.shape = tag.shape) :
    tag'.FirstNamed key i ↔ tag.FirstNamed key i := by
  rw [← firstNamed_shape, same, firstNamed_shape]

theorem attr_of_shape (same : tag'.shape = tag.shape) {a : Attr} (here : tag.attrs[i]? = some a) :
    ∃ a', tag'.attrs[i]? = some a' := by
  have attrs : tag'.attrs.map _ = tag.attrs.map _ := congrArg Tag.attrs same
  have length := congrArg List.length attrs
  rw [List.length_map, List.length_map] at length
  obtain ⟨inside, -⟩ := List.getElem?_eq_some_iff.mp here
  exact ⟨_, List.getElem?_eq_getElem (length ▸ inside)⟩

theorem revalued_refl (allowed : Nat → Text → Text → Prop) (tag : Tag) : Revalued allowed tag tag where
  shape := rfl
  values := by
    intro i a a' here here'
    cases here.symm.trans here'
    exact .inl rfl

theorem revalued_mono (weaker : ∀ i v v', allowed i v v' → allowed' i v v')
    (revalued : Revalued allowed tag tag') : Revalued allowed' tag tag' where
  shape := revalued.shape
  values i a a' here here' := (revalued.values i a a' here here').imp_right (weaker i _ _)

theorem revalued_trans {tag'' : Tag} (first : Revalued allowed tag tag')
    (second : Revalued allowed' tag' tag'') :
    Revalued (fun i v v'' => ∃ v', (v' = v ∨ allowed i v v') ∧ (v'' = v' ∨ allowed' i v' v''))
      tag tag'' where
  shape := second.shape.trans first.shape
  values := by
    intro i a a'' here here''
    obtain ⟨a', here'⟩ := attr_of_shape first.shape here
    exact .inr ⟨a'.value, first.values i a a' here here', second.values i a' a'' here' here''⟩

theorem setIn_first {key : Text} {attrs : List Attr} {i : Nat} (value : Text)
    (first : attrs.findIdx? (fun a => a.qualifier.isEmpty && a.name == key) = some i) :
    setIn key value attrs = attrs.modify i fun a => { a with value := value } := by
  induction attrs generalizing i with
  | nil => simp at first
  | cons a rest ih =>
    rw [List.findIdx?_cons] at first
    rw [setIn]
    split at first
    · rename_i here
      cases first
      rw [if_pos here]
      rfl
    · rename_i other
      obtain ⟨j, later, rfl⟩ := Option.map_eq_some_iff.mp first
      rw [if_neg other, ih later]
      rfl

theorem attr?_first {value : Text} (read : tag.attr? key = some value) :
    ∃ i a, tag.FirstNamed key i ∧ tag.attrs[i]? = some a ∧ a.value = value := by
  unfold attr? at read
  unfold FirstNamed
  generalize tag.attrs = attrs at read ⊢
  induction attrs with
  | nil => simp at read
  | cons a rest ih =>
    rw [List.find?_cons] at read
    rw [List.findIdx?_cons]
    split at read
    · rename_i here
      rw [if_pos here]
      exact ⟨0, a, rfl, rfl, Option.some.inj read⟩
    · rename_i other
      obtain ⟨i, a', first, there, same⟩ := ih read
      rw [if_neg (by simp [other]), first]
      exact ⟨i + 1, a', rfl, there, same⟩

theorem revalued_setAttr {i : Nat} {a : Attr} {value : Text} (first : tag.FirstNamed key i)
    (here : tag.attrs[i]? = some a) (permitted : allowed i a.value value) :
    Revalued allowed tag (tag.setAttr key value) := by
  rw [setAttr, setIn_first value first]
  constructor
  · unfold shape
    congr 1
    refine List.ext_getElem? fun j => ?_
    rw [List.getElem?_map, List.getElem?_map, List.getElem?_modify]
    split
    · cases tag.attrs[j]? <;> rfl
    · cases tag.attrs[j]? <;> rfl
  · intro j b b' at_j at_j'
    rw [List.getElem?_modify, at_j] at at_j'
    split at at_j'
    · rename_i same
      subst same
      cases here.symm.trans at_j
      cases at_j'
      exact .inr permitted
    · cases at_j'
      exact .inl rfl

end Tag

theorem Revision.on_tag {r : Revision} {path : Query.Path} {tag tag' : Tag} {cs cs' : List Node}
    (same : r.on path (.element tag cs) = .element tag' cs') : tag' = r.tag path tag := by
  rw [Revision.on] at same
  split at same
  · cases same
    rfl
  · cases same
    rfl

namespace Fix

open Query

/-- Every element of the later page stood at its place before, with a start tag so related. -/
def Keeps (related : Tag → Tag → Prop) (t t' : Tree) : Prop :=
  ∀ p tag' cs', nodeAt? t' p = some (.element tag' cs') →
    ∃ tag cs, nodeAt? t p = some (.element tag cs) ∧ related tag tag'

variable {related related' related'' : Tag → Tag → Prop} {t t' t'' : Tree} {key : Text}
  {change : Option Text → Option Text}

theorem keeps_same (reflexive : ∀ tag, related tag tag) (t : Tree) : Keeps related t t := by
  intro p tag cs there
  exact ⟨tag, cs, there, reflexive tag⟩

theorem keeps_trans (joined : ∀ a b c, related a b → related' b c → related'' a c)
    (first : Keeps related t t') (second : Keeps related' t' t'') : Keeps related'' t t'' := by
  intro p tag'' cs'' there
  obtain ⟨tag', cs', there', later⟩ := second p tag'' cs'' there
  obtain ⟨tag, cs, before, earlier⟩ := first p tag' cs' there'
  exact ⟨tag, cs, before, joined _ _ _ earlier later⟩

theorem keeps_mono (weaker : ∀ tag tag', related tag tag' → related' tag tag')
    (keeps : Keeps related t t') : Keeps related' t t' := by
  intro p tag' cs' there
  obtain ⟨tag, cs, before, here⟩ := keeps p tag' cs' there
  exact ⟨tag, cs, before, weaker _ _ here⟩

theorem keeps_fixTexts (t : Tree) (selected : List Path) :
    Keeps (fun tag tag' => tag' = tag) t (fixTexts t selected).1 := by
  intro p tag' cs' there
  have revised : (fixTexts t selected).1 =
      (textRevision (selected.foldl (editText t) ([], 0)).1).onAll [] 0 t :=
    applyEditsIn_eq _ [] 0 t
  rw [revised] at there
  obtain ⟨tag, cs, before, same⟩ := Revision.nodeAt?_onAll there
  exact ⟨tag, cs, before, Revision.on_tag same⟩

theorem modifyAt_element {f : Tag → Tag} {path p : Path} {tag' : Tag} {cs' : List Node}
    (there : nodeAt? (modifyAt (Node.mapTag f) path t) p = some (.element tag' cs'))
    (inside : path ≠ []) :
    ∃ tag cs, nodeAt? t p = some (.element tag cs) ∧ tag' = if p = path then f tag else tag := by
  obtain ⟨i, rest, rfl⟩ := List.exists_cons_of_ne_nil inside
  have revised := modifyAt_onAll (r := {}) rfl f rest [] 0 i t
  rw [Revision.onAll_nothing, Nat.zero_add, List.nil_append] at revised
  rw [revised] at there
  obtain ⟨tag, cs, before, same⟩ := Revision.nodeAt?_onAll there
  exact ⟨tag, cs, before, Revision.on_tag same⟩

theorem newValue?_some {path : Path} {value : Text} (missing : change none = none)
    (found : newValue? key change t path = some value) :
    ∃ tag cs, nodeAt? t path = some (.element tag cs) ∧ change (tag.attr? key) = some value := by
  obtain ⟨n, there, changed⟩ := Option.bind_eq_some_iff.mp found
  cases n with
  | element tag cs => exact ⟨tag, cs, there, changed⟩
  | _ => exact absurd (missing.symm.trans changed) (Option.some_ne_none value).symm

theorem changed_first {tag : Tag} {value : Text} (missing : change none = none)
    (changed : change (tag.attr? key) = some value) :
    ∃ i a, tag.FirstNamed key i ∧ tag.attrs[i]? = some a ∧ change (some a.value) = some value := by
  cases read : tag.attr? key with
  | none =>
    rw [read, missing] at changed
    contradiction
  | some old =>
    obtain ⟨i, a, first, here, rfl⟩ := Tag.attr?_first read
    rw [read] at changed
    exact ⟨i, a, first, here, changed⟩

/-- Whatever value there is to write replaces one: it goes to the first attribute of the name, and
none is added. -/
def InPlace (key : Text) (change : Option Text → Option Text) : Prop :=
  ∀ t path value, newValue? key change t path = some value →
    ∃ tag cs i, nodeAt? t path = some (.element tag cs) ∧ tag.FirstNamed key i ∧
      tag.setAttr key value =
        { tag with attrs := tag.attrs.modify i fun a => { a with value := value } }

theorem inPlace_of_missing (missing : change none = none) : InPlace key change := by
  intro t path value found
  obtain ⟨tag, cs, there, changed⟩ := newValue?_some missing found
  obtain ⟨i, _, first, _⟩ := changed_first missing changed
  exact ⟨tag, cs, i, there, first, by rw [Tag.setAttr, Tag.setIn_first value first]⟩

theorem keeps_setSelected (missing : change none = none) (s : Tree × Nat) (path : Path) :
    Keeps (fun tag tag' => tag' = tag ∨ tag' = newTag key change tag) s.1
      (setSelected key change s path).1 := by
  unfold setSelected
  cases found : newValue? key change s.1 path with
  | none => exact keeps_same (fun _ => .inl rfl) s.1
  | some value =>
    intro p tag' cs' there
    obtain ⟨old, _, at_path, changed⟩ := newValue?_some missing found
    have inside : path ≠ [] := by
      rintro rfl
      contradiction
    obtain ⟨tag, cs, before, same⟩ := modifyAt_element there inside
    refine ⟨tag, cs, before, ?_⟩
    split at same
    · rename_i here
      rw [here, at_path] at before
      cases before
      right
      rw [same, newTag, changed]
    · exact .inl same

theorem keeps_fixAttributes (missing : change none = none) (reflexive : ∀ tag, related tag tag)
    (transitive : ∀ a b c, related a b → related b c → related a c)
    (step : ∀ tag, related tag (newTag key change tag)) (t : Tree) (selected : List Path) :
    Keeps related t (fixAttributes key change t selected).1 := by
  have run (s : Tree × Nat) :
      Keeps related s.1 (selected.foldl (setSelected key change) s).1 := by
    induction selected generalizing s with
    | nil => exact keeps_same reflexive s.1
    | cons path later ih =>
      refine keeps_trans transitive (keeps_mono ?_ (keeps_setSelected missing s path)) (ih _)
      rintro tag tag' (rfl | rfl)
      · exact reflexive _
      · exact step tag
  exact run (t, 0)

theorem revalued_newTag (missing : change none = none) (tag : Tag) :
    Tag.Revalued (fun i v v' => tag.FirstNamed key i ∧ change (some v) = some v') tag
      (newTag key change tag) := by
  unfold newTag
  cases found : change (tag.attr? key) with
  | none => exact Tag.revalued_refl _ tag
  | some value =>
    obtain ⟨i, a, first, here, changed⟩ := changed_first missing found
    exact Tag.revalued_setAttr first here ⟨first, changed⟩

end Fix

namespace Fixer

open Query DocBridge.Fix

variable {tag tag' : Tag} {i : Nat} {v v' : Text}

def RestoredAt (queries : List Separators) (tag : Tag) (i : Nat) (v v' : Text) : Prop :=
  (∃ s ∈ queries, s.attr ≠ [] ∧ tag.FirstNamed s.attr i) ∧ hasSeparator v = true ∧
    v' = restoreSeparators v

def ShortenedAt (f : Fixer) (tag : Tag) (i : Nat) (v v' : Text) : Prop :=
  tag.FirstNamed hrefKey i ∧ f.manualLink.occursIn (Utf8.chars v) = true ∧
    f.settings.manualLinkSuffix ≠ [] ∧ v = v' ++ f.settings.manualLinkSuffix

theorem restoredAt_congr {queries : List Separators} (same : tag'.shape = tag.shape)
    (restored : RestoredAt queries tag' i v v') : RestoredAt queries tag i v v' := by
  obtain ⟨⟨s, member, named, first⟩, value⟩ := restored
  exact ⟨⟨s, member, named, (Tag.firstNamed_congr same).mp first⟩, value⟩

theorem shortenedAt_congr {f : Fixer} (same : tag'.shape = tag.shape)
    (shortened : ShortenedAt f tag' i v v') : ShortenedAt f tag i v v' :=
  shortened.imp_left (Tag.firstNamed_congr same).mp

theorem revalued_restored_trans {queries : List Separators} (a b c : Tag)
    (first : Tag.Revalued (RestoredAt queries a) a b)
    (second : Tag.Revalued (RestoredAt queries b) b c) :
    Tag.Revalued (RestoredAt queries a) a c where
  shape := second.shape.trans first.shape
  values := by
    intro i x z here here'
    obtain ⟨y, between⟩ := Tag.attr_of_shape first.shape here
    have earlier := first.values i x y here between
    rcases second.values i y z between here' with kept | later
    · rw [kept]
      exact earlier
    · right
      rcases earlier with kept | ⟨_, _, restored⟩
      · rw [← kept]
        exact restoredAt_congr first.shape later
      · have clean := restored_clean x.value
        rw [← restored, later.2.1] at clean
        contradiction

theorem keeps_fixSelected {queries : List Separators} {s : Separators} (member : s ∈ queries)
    (t : Tree) :
    Keeps (fun tag tag' => tag.Revalued (RestoredAt queries tag) tag') t (fixSelected s t).1 := by
  unfold fixSelected
  by_cases text : s.attr.isEmpty = true
  · simp only [text, if_true]
    refine keeps_mono ?_ (keeps_fixTexts t _)
    rintro tag _ rfl
    exact Tag.revalued_refl _ _
  · simp only [text, Bool.false_eq_true, if_false]
    refine keeps_fixAttributes rfl (fun tag => Tag.revalued_refl _ tag) revalued_restored_trans
      (fun tag => ?_) t _
    refine Tag.revalued_mono ?_ (revalued_newTag rfl tag)
    rintro i v v' ⟨first, restored⟩
    have named : s.attr ≠ [] := fun empty => text (by rw [empty]; rfl)
    rw [restored?, Option.bind_some] at restored
    split at restored
    · rename_i has
      cases restored
      exact ⟨⟨s, member, named, first⟩, has, rfl⟩
    · contradiction

theorem keeps_fixSeparators (f : Fixer) (t : Tree) :
    Keeps (fun tag tag' => tag.Revalued (RestoredAt f.separators tag) tag') t
      (f.fixSeparators t).1 := by
  rw [fixSeparators_tree]
  have run (todo : List Separators) (among : todo ⊆ f.separators) (t : Tree) :
      Keeps (fun tag tag' => tag.Revalued (RestoredAt f.separators tag) tag') t
        (todo.foldl (fun t s => (fixSelected s t).1) t) := by
    induction todo generalizing t with
    | nil => exact keeps_same (fun tag => Tag.revalued_refl _ tag) t
    | cons s todo ih =>
      obtain ⟨member, rest⟩ := List.cons_subset.mp among
      exact keeps_trans revalued_restored_trans (keeps_fixSelected member t) (ih rest _)
  exact run f.separators (List.Subset.refl _) t

theorem keeps_fixLinks (f : Fixer) {t : Tree} (once : (elements t f.links).Nodup) :
    Keeps (fun tag tag' => tag.Revalued (ShortenedAt f tag) tag') t (f.fixLinks t).1 := by
  intro p tag' cs' there
  obtain ⟨tag, cs, before, new, _⟩ := fixAttributes_element once there
  refine ⟨tag, cs, before, ?_⟩
  rw [new]
  split
  · refine Tag.revalued_mono ?_ (revalued_newTag shortened_missing tag)
    rintro i v v' ⟨first, cut⟩
    exact ⟨first, shortened_cut cut⟩
  · exact Tag.revalued_refl _ tag

/-- The fixes add, remove, rename and reorder no attribute. Whatever element is still there has its
name and its attributes, and a value that differs was restored by a query for that attribute, or
was a link and has lost the suffix once, or both in this order. No value is written where there
was none. -/
theorem fixTree_keeps_attributes (f : Fixer) (t : Tree)
    (once : (elements (f.fixSeparators t).1 f.links).Nodup) :
    (∀ p tag' cs', nodeAt? (f.fixTree t).1 p = some (.element tag' cs') →
      ∃ tag cs, nodeAt? t p = some (.element tag cs) ∧
        tag.Revalued (fun i v v'' => ∃ v', (v' = v ∨ RestoredAt f.separators tag i v v') ∧
          (v'' = v' ∨ ShortenedAt f tag i v' v'')) tag') ∧
      (∀ s ∈ f.separators, InPlace s.attr restored?) ∧ InPlace hrefKey f.shortened? := by
  refine ⟨?_, fun _ _ => inPlace_of_missing rfl, inPlace_of_missing shortened_missing⟩
  refine keeps_trans ?_ (keeps_fixSeparators f t) (keeps_fixLinks f once)
  intro a b c restored shortened
  refine Tag.revalued_trans restored (Tag.revalued_mono ?_ shortened)
  intro i v v' here
  exact shortenedAt_congr restored.shape here

def anyLink : Fixer where
  settings := { Settings.standard.pages with manualLinkPattern := "" }
  separators := [⟨"link", linked, hrefKey⟩]
  links := linked
  manualLink := .empty

def threeLinks (value : Text) : Tag where
  name := "a"
  attrs :=
    [{ qualifier := "x", name := hrefKey, value := "A::B.html" },
      { name := hrefKey, value := value }, { name := hrefKey, value := "E::F.html" }]

theorem first_link_changes :
    let before := threeLinks "C::D.html.html"
    let after := threeLinks "C\\D.html"
    let t : Tree := [.element before []]
    (elements (anyLink.fixSeparators t).1 anyLink.links).Nodup ∧
      tagAt? (anyLink.fixTree t).1 [0] = some after ∧
      before.Revalued (fun i v v'' =>
        ∃ v', (v' = v ∨ RestoredAt anyLink.separators before i v v') ∧
          (v'' = v' ∨ ShortenedAt anyLink before i v' v'')) after ∧
      InPlace hrefKey restored? ∧ InPlace hrefKey anyLink.shortened? := by
  intro before after t
  have once : (elements (anyLink.fixSeparators t).1 anyLink.links).Nodup := by
    decide +kernel
  have changed : tagAt? (anyLink.fixTree t).1 [0] = some after := by decide +kernel
  obtain ⟨kept, restores, shortens⟩ := fixTree_keeps_attributes anyLink t once
  obtain ⟨cs', fixed⟩ := tagAt?_eq_some.mp changed
  obtain ⟨tag, cs, there, revalued⟩ := kept [0] after cs' fixed
  cases there
  exact ⟨once, changed, revalued, restores _ List.mem_cons_self, shortens⟩

end Fixer

end DocBridge
