import DocBridge.Fix.Fixer
import DocBridge.Proofs.Page.Layout
import DocBridge.Proofs.Page.Separator
import DocBridge.Proofs.Query.Selection

/-
When nothing is left to fix. A pass leaves its own selection at rest, and no later pass disturbs
it: texts only lose separators, and an attribute that changes is none that a query reads.
-/
namespace DocBridge

namespace Tag

theorem attr?_setAttr (tag : Tag) (key value : Text) :
    (tag.setAttr key value).attr? key = some value := by
  simp only [setAttr, attr?]
  induction tag.attrs with
  | nil => simp [setIn]
  | cons a rest ih =>
    rw [setIn]
    by_cases found : (a.qualifier.isEmpty && a.name == key) = true
    · rw [if_pos found]
      simp only [List.find?_cons, found, Option.map_some]
    · rw [if_neg found, List.find?_cons, Bool.eq_false_iff.mpr found]
      exact ih

theorem attr?_setAttr_other (tag : Tag) {key other : Text} (value : Text) (differ : other ≠ key) :
    (tag.setAttr key value).attr? other = tag.attr? other := by
  simp only [setAttr, attr?]
  have apart (a : Attr) (found : (a.qualifier.isEmpty && a.name == key) = true) :
      (a.qualifier.isEmpty && a.name == other) = false := by
    rw [Bool.eq_false_iff]
    intro both
    rw [Bool.and_eq_true, beq_iff_eq] at found both
    exact differ (both.2.symm.trans found.2)
  induction tag.attrs with
  | nil =>
    have absent := apart { name := key, value := value } (by simp)
    rw [setIn, List.find?_cons, absent]
  | cons a rest ih =>
    rw [setIn]
    by_cases found : (a.qualifier.isEmpty && a.name == key) = true
    · rw [if_pos found]
      simp only [List.find?_cons, apart a found]
    · rw [if_neg found, List.find?_cons, List.find?_cons]
      split
      · rfl
      · exact ih

end Tag

namespace Fix

open Query

variable {t : Tree} {selected : List Path} {p : Path} {tag tag' : Tag} {cs cs' : List Node}
  {key : Text} {change : Option Text → Option Text}

theorem nodup_of_topdown (topdown : Topdown selected) : selected.Nodup := by
  refine List.Pairwise.imp ?_ topdown
  intro p q apart same
  rw [same] at apart
  exact apart (List.prefix_refl q)

mutual

theorem innerText_plain {r : Revision} (plain : r.text = fun _ _ => none) (path : Path) :
    ∀ n : Node, (r.on path n).innerText = n.innerText
  | .element tag cs => by
    rw [Revision.on_children (congrFun (congrFun plain path) cs)]
    exact innerTexts_plain plain path 0 cs
  | .text _ | .cdata _ | .comment _ | .directive _ | .instruction _ _ | .declaration => rfl

theorem innerTexts_plain {r : Revision} (plain : r.text = fun _ _ => none) (path : Path) (i : Nat) :
    ∀ cs : List Node, Node.innerTexts (r.onAll path i cs) = Node.innerTexts cs
  | [] => rfl
  | c :: cs => by
    rw [Revision.onAll, Node.innerTexts, Node.innerTexts, innerText_plain plain (path ++ [i]) c,
      innerTexts_plain plain path (i + 1) cs]

end

theorem fixTexts_element (topdown : Topdown selected)
    (there : nodeAt? (fixTexts t selected).1 p = some (.element tag cs')) :
    ∃ cs, nodeAt? t p = some (.element tag cs) ∧
      (hasSeparator (Node.innerTexts cs) = false → cs' = cs) ∧
      (p ∈ selected → hasSeparator (Node.innerTexts cs') = false) := by
  rw [fixTexts_tree topdown] at there
  obtain ⟨tag₀, cs, before, same⟩ := Revision.nodeAt?_onAll there
  cases new : (separatorRevision selected).text p cs with
  | some text =>
    rw [Revision.on_text new] at same
    cases same
    simp only [separatorRevision, newText?] at new
    split at new
    · split at new
      · rename_i has
        cases new
        refine ⟨cs, before, fun clean => ?_, fun _ => ?_⟩
        · rw [clean] at has
          contradiction
        · rw [Node.innerTexts, Node.innerTexts, List.append_nil]
          exact restored_clean _
      · contradiction
    · contradiction
  | none =>
    rw [Revision.on_children new] at same
    cases same
    have unchanged (clean : hasSeparator (Node.innerTexts cs) = false) :
        (separatorRevision selected).onAll p 0 cs = cs := onAll_clean selected p 0 cs clean
    refine ⟨cs, before, unchanged, fun member => ?_⟩
    have clean : hasSeparator (Node.innerTexts cs) = false := by
      simp only [separatorRevision, if_pos member, newText?] at new
      split at new
      · contradiction
      · rename_i none_left
        exact Bool.eq_false_iff.mpr none_left
    rw [unchanged clean]
    exact clean

theorem fixAttributes_element (once : selected.Nodup)
    (there : nodeAt? (fixAttributes key change t selected).1 p = some (.element tag' cs')) :
    ∃ tag cs, nodeAt? t p = some (.element tag cs) ∧
      tag' = (if p ∈ selected then newTag key change tag else tag) ∧
      Node.innerTexts cs' = Node.innerTexts cs := by
  rw [fixAttributes_tree once] at there
  obtain ⟨tag, cs, before, same⟩ := Revision.nodeAt?_onAll there
  rw [Revision.on_children rfl] at same
  cases same
  exact ⟨tag, cs, before, rfl, innerTexts_plain rfl p 0 cs⟩

/-- A change that has nothing to do where it has been made, and needs an attribute to change. -/
structure Settles (change : Option Text → Option Text) : Prop where
  missing : change none = none
  again : ∀ {value : Option Text} {new : Text}, change value = some new → change (some new) = none

/-- What is wanted does not depend on the value of an attribute with one of these names. -/
def Stable (keys : List Text) (wanted : Tag → Bool) : Prop :=
  ∀ key ∈ keys, ∀ tag value, (tag.attr? key).isSome → wanted (tag.setAttr key value) = wanted tag

theorem newTag_stable {keys : List Text} {wanted : Tag → Bool} (stable : Stable keys wanted)
    (member : key ∈ keys) (settles : Settles change) (tag : Tag) :
    wanted (newTag key change tag) = wanted tag := by
  unfold newTag
  cases found : change (tag.attr? key) with
  | none => rfl
  | some value =>
    refine stable key member tag value ?_
    cases present : tag.attr? key with
    | some old => rfl
    | none =>
      rw [present, settles.missing] at found
      contradiction

theorem newTag_again (settles : Settles change) (tag : Tag) :
    change ((newTag key change tag).attr? key) = none := by
  unfold newTag
  cases found : change (tag.attr? key) with
  | none => exact found
  | some value =>
    rw [Tag.attr?_setAttr]
    exact settles.again found

theorem newTag_other {other : Text} (differ : other ≠ key) (tag : Tag) :
    (newTag key change tag).attr? other = tag.attr? other := by
  unfold newTag
  split
  · exact Tag.attr?_setAttr_other tag _ differ
  · rfl

theorem newTag_verbatim (tag : Tag) : (newTag key change tag).isVerbatim = tag.isVerbatim := by
  unfold newTag
  split <;> rfl

end Fix

namespace Fixer

open Query DocBridge.Fix

theorem settles_restored : Settles restored? where
  missing := rfl
  again := by
    intro value new restored
    obtain ⟨old, rfl, replaced⟩ := Option.bind_eq_some_iff.mp restored
    split at replaced
    · cases replaced
      rw [restored?, Option.bind_some, restored_clean]
      rfl
    · contradiction

/-- All that one pass over a page can do: it keeps what stable tests say of an element, it brings
no separator into an attribute other than a link or into a text, and it keeps the page collapsed. -/
structure Pass (keys : List Text) (t t' : Tree) : Prop where
  element : ∀ p tag' cs', nodeAt? t' p = some (.element tag' cs') →
    ∃ tag cs, nodeAt? t p = some (.element tag cs) ∧
      (∀ wanted, Stable keys wanted → wanted tag' = wanted tag) ∧
      (∀ key, key ≠ hrefKey → restored? (tag.attr? key) = none →
        restored? (tag'.attr? key) = none) ∧
      (hasSeparator (Node.innerTexts cs) = false → hasSeparator (Node.innerTexts cs') = false)
  collapsed : Document.Collapsed t → Document.Collapsed t'

variable {keys : List Text} {t t' : Tree} {selected : List Path}

theorem pass_fixTexts (topdown : Topdown selected) : Pass keys t (fixTexts t selected).1 where
  element := by
    intro p tag cs' there
    obtain ⟨cs, before, unchanged, _⟩ := fixTexts_element topdown there
    refine ⟨tag, cs, before, fun _ _ => rfl, fun _ _ done => done, fun clean => ?_⟩
    rw [unchanged clean]
    exact clean
  collapsed := by
    intro collapsed
    rw [fixTexts_tree topdown]
    exact Document.collapsed_onAll (fun _ _ => rfl) [] 0 collapsed

theorem pass_fixAttributes {key : Text} {change : Option Text → Option Text} (member : key ∈ keys)
    (settles : Settles change) (restores : key ≠ hrefKey → change = restored?)
    (once : selected.Nodup) : Pass keys t (fixAttributes key change t selected).1 where
  element := by
    intro p tag' cs' there
    obtain ⟨tag, cs, before, new, texts⟩ := fixAttributes_element once there
    refine ⟨tag, cs, before, fun wanted stable => ?_, fun other differ done => ?_, fun clean => ?_⟩
    · rw [new]
      split
      · exact newTag_stable stable member settles tag
      · rfl
    · rw [new]
      split
      · by_cases same : other = key
        · subst same
          rw [restores differ]
          exact newTag_again settles_restored tag
        · rw [newTag_other same]
          exact done
      · exact done
    · rw [texts]
      exact clean
  collapsed := by
    intro collapsed
    rw [fixAttributes_tree once]
    refine Document.collapsed_onAll (fun p tag => ?_) [] 0 collapsed
    simp only [attrRevision]
    split
    · exact newTag_verbatim tag
    · rfl

def Steady (keys : List Text) (e : Expr) : Prop := ∃ wanted, Selects e wanted ∧ Stable keys wanted

theorem steady_topdown {e : Expr} (steady : Steady keys e) (t : Tree) : Topdown (elements t e) := by
  obtain ⟨wanted, selects, _⟩ := steady
  exact selects.topdown t

theorem steady_pass {e : Expr} (steady : Steady keys e) (pass : Pass keys t t') {p : Path}
    {tag' : Tag} {cs' : List Node} (there : nodeAt? t' p = some (.element tag' cs')) :
    p ∈ elements t' e → p ∈ elements t e := by
  obtain ⟨wanted, selects, stable⟩ := steady
  obtain ⟨tag, cs, before, same, _, _⟩ := pass.element p tag' cs' there
  rw [selects.mem, selects.mem]
  rintro ⟨found, at_p, want⟩
  obtain rfl : tag' = found :=
    Option.some.inj ((tagAt?_eq_some.mpr ⟨cs', there⟩).symm.trans at_p)
  exact ⟨tag, tagAt?_eq_some.mpr ⟨cs, before⟩, by rw [← same wanted stable, want]⟩

end Fixer
end DocBridge
