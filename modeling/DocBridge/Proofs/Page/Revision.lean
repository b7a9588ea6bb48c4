import DocBridge.Fix.Tree
import DocBridge.Proofs.Page.Paths

/-
Revising a page in one pass from the top down. Elements stay where they are unless an element
around them gets a text for its content, so an element of the revised page is the revision of the
element that stood at its place.
-/
namespace DocBridge

open Query DocBridge.Fix

/-- What becomes of the element at a path: its start tag, and a text in place of its content. -/
structure Revision where
  tag : Path → Tag → Tag := fun _ tag => tag
  text : Path → List Node → Option Text := fun _ _ => none

namespace Revision

mutual

def on (r : Revision) (path : Path) : Node → Node
  | .element tag cs =>
    match r.text path cs with
    | some t => .element (r.tag path tag) [.text t]
    | none => .element (r.tag path tag) (r.onAll path 0 cs)
  | n => n

def onAll (r : Revision) (path : Path) (i : Nat) : List Node → List Node
  | [] => []
  | c :: cs => r.on (path ++ [i]) c :: r.onAll path (i + 1) cs

end

variable {r r' : Revision} {path : Path} {tag tag' : Tag} {cs cs' : List Node}

theorem on_text {t : Text} (new : r.text path cs = some t) :
    r.on path (.element tag cs) = .element (r.tag path tag) [.text t] := by
  rw [on, new]

theorem on_children (kept : r.text path cs = none) :
    r.on path (.element tag cs) = .element (r.tag path tag) (r.onAll path 0 cs) := by
  rw [on, kept]

theorem isElement_on (r : Revision) (path : Path) (n : Node) :
    (r.on path n).isElement = n.isElement := by
  cases n with
  | element tag cs =>
    rw [on]
    split <;> rfl
  | _ => rfl

theorem getElem?_onAll (r : Revision) (path : Path) (i j : Nat) (cs : List Node) :
    (r.onAll path i cs)[j]? = cs[j]?.map (r.on (path ++ [i + j])) := by
  induction cs generalizing i j with
  | nil => rfl
  | cons c cs ih =>
    cases j with
    | zero => rfl
    | succ j =>
      rw [onAll, List.getElem?_cons_succ, List.getElem?_cons_succ, ih, Nat.add_assoc,
        Nat.add_comm 1 j]

theorem inside?_on {n : Node} {rest : Path}
    (there : inside? (r.on path n) rest = some (.element tag' cs')) :
    ∃ tag cs, inside? n rest = some (.element tag cs) ∧
      r.on (path ++ rest) (.element tag cs) = .element tag' cs' := by
  induction rest generalizing n path with
  | nil =>
    have same : r.on path n = .element tag' cs' := Option.some.inj there
    have element := r.isElement_on path n
    rw [same] at element
    cases n with
    | element tag cs => exact ⟨tag, cs, rfl, by rw [List.append_nil, same]⟩
    | _ => contradiction
  | cons i rest ih =>
    rw [inside?_cons, Option.bind_eq_some_iff] at there
    obtain ⟨c, child, there⟩ := there
    cases n with
    | element tag cs =>
      cases new : r.text path cs with
      | some t =>
        -- The new content is a text, and nothing stands inside a text.
        rw [on_text new] at child
        obtain rfl : c = .text t := by simpa [Node.children] using List.mem_of_getElem? child
        cases rest with
        | nil => cases there
        | cons j rest => simp [inside?_cons, Node.children] at there
      | none =>
        rw [on_children new] at child
        have at_i := child.symm.trans (r.getElem?_onAll path 0 i cs)
        obtain ⟨c', child', rfl⟩ := Option.map_eq_some_iff.mp at_i.symm
        rw [Nat.zero_add] at there
        obtain ⟨tag₀, cs₀, found, same⟩ := ih there
        refine ⟨tag₀, cs₀, ?_, by rw [← same, List.append_assoc, List.singleton_append]⟩
        rw [inside?_cons, Option.bind_eq_some_iff]
        exact ⟨c', child', found⟩
    | _ => simp [on, Node.children] at child

theorem nodeAt?_onAll {t : Tree} {p : Path}
    (there : nodeAt? (r.onAll [] 0 t) p = some (.element tag' cs')) :
    ∃ tag cs, nodeAt? t p = some (.element tag cs) ∧
      r.on p (.element tag cs) = .element tag' cs' := by
  cases p with
  | nil => contradiction
  | cons i rest =>
    rw [nodeAt?_cons, getElem?_onAll, Option.bind_map, Option.bind_eq_some_iff] at there
    obtain ⟨c, child, there⟩ := there
    obtain ⟨tag, cs, found, same⟩ := inside?_on there
    refine ⟨tag, cs, ?_, ?_⟩
    · rw [nodeAt?_cons, Option.bind_eq_some_iff]
      exact ⟨c, child, found⟩
    · rw [← same, Nat.zero_add]
      rfl

def Agree (r r' : Revision) (p : Path) (tag : Tag) (cs : List Node) : Prop :=
  r.tag p tag = r'.tag p tag ∧ r.text p cs = r'.text p cs

mutual

theorem on_congr (r r' : Revision) (path : Path) : ∀ n : Node,
    (∀ rest tag cs, inside? n rest = some (.element tag cs) → Agree r r' (path ++ rest) tag cs) →
    r.on path n = r'.on path n
  | .element tag cs, agree => by
    have here := agree [] tag cs rfl
    rw [List.append_nil] at here
    have below : r.onAll path 0 cs = r'.onAll path 0 cs := by
      refine onAll_congr r r' path 0 cs fun j rest tag' cs' there => ?_
      rw [Nat.zero_add]
      exact agree (j :: rest) tag' cs' there
    rw [on, on, here.1, here.2, below]
  | .text _, _ | .cdata _, _ | .comment _, _ | .directive _, _ | .instruction _ _, _
  | .declaration, _ => rfl

theorem onAll_congr (r r' : Revision) (path : Path) (i : Nat) : ∀ cs : List Node,
    (∀ j rest tag cs', nodeAt? cs (j :: rest) = some (.element tag cs') →
      Agree r r' (path ++ (i + j) :: rest) tag cs') →
    r.onAll path i cs = r'.onAll path i cs
  | [], _ => rfl
  | c :: cs, agree => by
    have first : r.on (path ++ [i]) c = r'.on (path ++ [i]) c := by
      refine on_congr r r' (path ++ [i]) c fun rest tag cs' there => ?_
      rw [List.append_assoc, List.singleton_append]
      refine agree 0 rest tag cs' ?_
      rw [nodeAt?_cons]
      exact there
    have others : r.onAll path (i + 1) cs = r'.onAll path (i + 1) cs := by
      refine onAll_congr r r' path (i + 1) cs fun j rest tag cs' there => ?_
      rw [Nat.add_assoc, Nat.add_comm 1 j]
      refine agree (j + 1) rest tag cs' ?_
      rw [nodeAt?_cons] at there ⊢
      exact there
    rw [onAll, onAll, first, others]

end

theorem page_congr {t : Tree}
    (agree : ∀ p tag cs, nodeAt? t p = some (.element tag cs) → Agree r r' p tag cs) :
    r.onAll [] 0 t = r'.onAll [] 0 t := by
  refine onAll_congr r r' [] 0 t fun j rest tag cs there => ?_
  rw [Nat.zero_add]
  exact agree (j :: rest) tag cs there

mutual

theorem on_nothing (path : Path) : ∀ n : Node, ({} : Revision).on path n = n
  | .element tag cs => by rw [on_children rfl, onAll_nothing path 0 cs]
  | .text _ | .cdata _ | .comment _ | .directive _ | .instruction _ _ | .declaration => rfl

theorem onAll_nothing (path : Path) (i : Nat) : ∀ cs : List Node,
    ({} : Revision).onAll path i cs = cs
  | [] => rfl
  | c :: cs => by rw [onAll, on_nothing (path ++ [i]) c, onAll_nothing path (i + 1) cs]

end

end Revision
end DocBridge
