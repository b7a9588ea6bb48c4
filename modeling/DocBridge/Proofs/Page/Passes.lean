import DocBridge.Proofs.Page.Revision

/-
The changes that are collected first and carried out one by one come to one revision of the page,
as long as the selection names every element once and outer elements first.
-/
namespace DocBridge.Fix

open Query

def textRevision (edits : Edits) : Revision where
  text path _ := edits.lookup path

mutual

theorem applyEdits_eq (edits : Edits) (path : Path) : ∀ n : Node,
    applyEdits edits path n = (textRevision edits).on path n
  | .element tag cs => by
    rw [applyEdits, Revision.on, applyEditsIn_eq edits path 0 cs]
    rfl
  | .text _ | .cdata _ | .comment _ | .directive _ | .instruction _ _ | .declaration => rfl

theorem applyEditsIn_eq (edits : Edits) (path : Path) (i : Nat) : ∀ cs : List Node,
    applyEditsIn edits path i cs = (textRevision edits).onAll path i cs
  | [] => rfl
  | c :: cs => by
    rw [applyEditsIn, Revision.onAll, applyEdits_eq edits (path ++ [i]) c,
      applyEditsIn_eq edits path (i + 1) cs]

end

mutual

theorem textUnder_unedited (edits : Edits) (path : Path) : ∀ n : Node,
    (∀ rest, edits.lookup (path ++ rest) = none) → textUnder edits path n = n.innerText
  | .element tag cs, fresh => by
    have here := fresh []
    rw [List.append_nil] at here
    rw [textUnder, here]
    exact textsUnder_unedited edits path 0 cs fun j rest => fresh (j :: rest)
  | .text _, _ | .cdata _, _ | .comment _, _ | .directive _, _ | .instruction _ _, _
  | .declaration, _ => rfl

theorem textsUnder_unedited (edits : Edits) (path : Path) (i : Nat) : ∀ cs : List Node,
    (∀ j rest, edits.lookup (path ++ j :: rest) = none) →
      textsUnder edits path i cs = Node.innerTexts cs
  | [], _ => rfl
  | c :: cs, fresh => by
    have first : textUnder edits (path ++ [i]) c = c.innerText := by
      refine textUnder_unedited edits (path ++ [i]) c fun rest => ?_
      rw [List.append_assoc, List.singleton_append]
      exact fresh i rest
    rw [textsUnder, Node.innerTexts, first, textsUnder_unedited edits path (i + 1) cs fresh]

end

def newText? (text : Text) : Option Text :=
  if hasSeparator text then some (restoreSeparators text) else none

def Fresh (edits : Edits) (path : Path) : Prop := ∀ rest, edits.lookup (path ++ rest) = none

theorem editText_lookup {t : Tree} {edits : Edits} {path : Path} (fresh : Fresh edits path)
    (n : Nat) (p : Path) :
    (editText t (edits, n) path).1.lookup p =
      if p = path then (nodeAt? t path).bind fun node => newText? node.innerText
      else edits.lookup p := by
  have before : edits.lookup path = none := by
    have here := fresh []
    rwa [List.append_nil] at here
  unfold editText
  cases nodeAt? t path with
  | none =>
    by_cases same : p = path
    · rw [if_pos same, same]
      exact before
    · rw [if_neg same]
  | some node =>
    simp only [textUnder_unedited edits path node fresh, Option.bind_some, newText?]
    by_cases has : hasSeparator node.innerText = true
    · rw [if_pos has, if_pos has]
      by_cases same : p = path
      · rw [if_pos same, same, List.lookup_cons_self]
      · rw [if_neg same, List.lookup_cons, beq_eq_false_iff_ne.mpr same]
    · rw [if_neg has, if_neg has]
      by_cases same : p = path
      · rw [if_pos same, same]
        exact before
      · rw [if_neg same]

theorem editText_fresh {t : Tree} {edits : Edits} {path p : Path} (here : Fresh edits path)
    (there : Fresh edits p) (apart : ¬ p <+: path) (n : Nat) :
    Fresh (editText t (edits, n) path).1 p := by
  intro rest
  rw [editText_lookup here]
  have other : p ++ rest ≠ path := by
    intro same
    exact apart (same ▸ List.prefix_append p rest)
  rw [if_neg other]
  exact there rest

/-- Every selected element with a separator is edited by the text it has on the page as it was:
outer elements come first, so nothing below it has been edited before its turn. -/
theorem edits_lookup {t : Tree} {selected : List Path} (topdown : Topdown selected) {edits : Edits}
    (fresh : ∀ p ∈ selected, Fresh edits p) (n : Nat) (p : Path) :
    (selected.foldl (editText t) (edits, n)).1.lookup p =
      if p ∈ selected then (nodeAt? t p).bind fun node => newText? node.innerText
      else edits.lookup p := by
  induction selected generalizing edits n with
  | nil => rfl
  | cons path later ih =>
    obtain ⟨first, topdown⟩ := List.pairwise_cons.mp topdown
    have here := fresh path List.mem_cons_self
    have ahead : ∀ q ∈ later, Fresh (editText t (edits, n) path).1 q := fun q member =>
      editText_fresh here (fresh q (List.mem_cons_of_mem _ member)) (first q member) n
    rw [List.foldl_cons, ih topdown ahead, editText_lookup here]
    by_cases member : p ∈ later
    · rw [if_pos member, if_pos (List.mem_cons_of_mem _ member)]
    · rw [if_neg member]
      by_cases same : p = path
      · rw [if_pos same, if_pos (by rw [same]; exact List.mem_cons_self), same]
      · rw [if_neg same, if_neg (by simp [same, member])]

def separatorRevision (selected : List Path) : Revision where
  text path cs := if path ∈ selected then newText? (Node.innerTexts cs) else none

theorem fixTexts_tree {t : Tree} {selected : List Path} (topdown : Topdown selected) :
    (fixTexts t selected).1 = (separatorRevision selected).onAll [] 0 t := by
  have nothing : ∀ p ∈ selected, Fresh [] p := fun _ _ _ => rfl
  refine (applyEditsIn_eq _ [] 0 t).trans (Revision.page_congr fun p tag cs there => ⟨rfl, ?_⟩)
  refine (edits_lookup topdown nothing 0 p).trans ?_
  rw [there]
  rfl

def retag (r : Revision) (p : Path) (f : Tag → Tag) : Revision where
  tag q tag := if q = p then f (r.tag q tag) else r.tag q tag

variable {r : Revision} {path : Path}

theorem retag_elsewhere (plain : r.text = fun _ _ => none) {p q : Path} (f : Tag → Tag)
    (other : q ≠ p) (tag : Tag) (cs : List Node) : Revision.Agree r (retag r p f) q tag cs :=
  ⟨(if_neg other).symm, congrFun (congrFun plain q) cs⟩

theorem onAll_modify {r' : Revision} {i j : Nat} {g : Node → Node} (cs : List Node)
    (here : ∀ c, g (r.on (path ++ [i + j]) c) = r'.on (path ++ [i + j]) c)
    (others : ∀ k c, k ≠ j → r.on (path ++ [i + k]) c = r'.on (path ++ [i + k]) c) :
    (r.onAll path i cs).modify j g = r'.onAll path i cs := by
  refine List.ext_getElem? fun k => ?_
  by_cases same : j = k
  · subst same
    rw [List.getElem?_modify_eq, Revision.getElem?_onAll, Revision.getElem?_onAll,
      Option.map_eq_map, Option.map_map]
    exact congrArg (cs[j]?.map ·) (funext here)
  · rw [List.getElem?_modify_ne _ _ same, Revision.getElem?_onAll, Revision.getElem?_onAll]
    exact congrArg (cs[k]?.map ·) (funext fun c => others k c (Ne.symm same))

/-- Changing one more start tag of a page on which only start tags were revised. -/
theorem modifyAt_onAll (plain : r.text = fun _ _ => none) (f : Tag → Tag) (rest : Path) :
    ∀ (path : Path) (i j : Nat) (cs : List Node),
      modifyAt (Node.mapTag f) (j :: rest) (r.onAll path i cs) =
        (retag r (path ++ (i + j) :: rest) f).onAll path i cs := by
  have kept (p : Path) (cs : List Node) : r.text p cs = none := congrFun (congrFun plain p) cs
  -- The siblings are off the path, so they are as before.
  have others (path : Path) (i j : Nat) (rest : Path) (k : Nat) (c : Node) (other : k ≠ j) :
      r.on (path ++ [i + k]) c = (retag r (path ++ (i + j) :: rest) f).on (path ++ [i + k]) c := by
    refine Revision.on_congr r _ _ c fun q tag cs _ => retag_elsewhere plain f ?_ tag cs
    rw [List.append_assoc, List.singleton_append]
    intro same
    have heads := List.append_cancel_left same
    rw [List.cons.injEq] at heads
    omega
  induction rest with
  | nil =>
    intro path i j cs
    refine onAll_modify cs (fun c => ?_) (fun k c other => others path i j [] k c other)
    cases c with
    | element tag cs =>
      have below : r.onAll (path ++ [i + j]) 0 cs =
          (retag r (path ++ [i + j]) f).onAll (path ++ [i + j]) 0 cs := by
        refine Revision.onAll_congr r _ _ 0 cs fun k q tag cs _ => retag_elsewhere plain f ?_ tag cs
        simp
      rw [Revision.on_children (kept _ cs), Revision.on_children rfl, Node.mapTag, below]
      simp only [retag, if_pos]
    | _ => rfl
  | cons k rest ih =>
    intro path i j cs
    refine onAll_modify cs (fun c => ?_) (fun l c other => others path i j (k :: rest) l c other)
    cases c with
    | element tag cs =>
      have step := ih (path ++ [i + j]) 0 k cs
      rw [Nat.zero_add, List.append_assoc, List.singleton_append] at step
      have tagged : (retag r (path ++ (i + j) :: k :: rest) f).tag (path ++ [i + j]) tag =
          r.tag (path ++ [i + j]) tag := if_neg (by simp)
      rw [Revision.on_children (kept _ cs), Revision.on_children rfl, tagged]
      simp only [step]
    | _ => rfl

theorem nodeAt?_plain (plain : r.text = fun _ _ => none) (t : Tree) (p : Path) :
    nodeAt? (r.onAll [] 0 t) p = (nodeAt? t p).map (r.on p) := by
  have inner (n : Node) (path rest : Path) :
      inside? (r.on path n) rest = (inside? n rest).map (r.on (path ++ rest)) := by
    induction rest generalizing n path with
    | nil => rw [List.append_nil]; rfl
    | cons i rest ih =>
      rw [inside?_cons, inside?_cons, Option.map_bind]
      cases n with
      | element tag cs =>
        rw [Revision.on_children (congrFun (congrFun plain path) cs), Node.children,
          Revision.getElem?_onAll, Option.bind_map, Nat.zero_add]
        congr 1
        funext c
        rw [Function.comp_apply, ih, List.append_assoc, List.singleton_append]
        rfl
      | _ => rfl
  cases p with
  | nil => rfl
  | cons i rest =>
    rw [nodeAt?_cons, nodeAt?_cons, Revision.getElem?_onAll, Option.bind_map, Option.map_bind,
      Nat.zero_add]
    congr 1
    funext c
    exact inner c [i] rest

def newTag (key : Text) (change : Option Text → Option Text) (tag : Tag) : Tag :=
  match change (tag.attr? key) with
  | some value => tag.setAttr key value
  | none => tag

def attrRevision (key : Text) (change : Option Text → Option Text) (selected : List Path) :
    Revision where
  tag path tag := if path ∈ selected then newTag key change tag else tag

variable {key : Text} {change : Option Text → Option Text} {t : Tree}

def newValue? (key : Text) (change : Option Text → Option Text) (t : Tree) (path : Path) :
    Option Text :=
  (nodeAt? t path).bind fun node => change (node.attr? key)

def setSelected (key : Text) (change : Option Text → Option Text) (s : Tree × Nat) (path : Path) :
    Tree × Nat :=
  match newValue? key change s.1 path with
  | some value => (modifyAt (Node.mapTag (·.setAttr key value)) path s.1, s.2 + 1)
  | none => s

theorem fixAttributes_eq (key : Text) (change : Option Text → Option Text) (t : Tree)
    (selected : List Path) :
    fixAttributes key change t selected = selected.foldl (setSelected key change) (t, 0) := rfl

theorem newValue?_element {done : List Path} {path : Path} (fresh : path ∉ done) {tag : Tag}
    {cs : List Node} (there : nodeAt? t path = some (.element tag cs)) :
    newValue? key change ((attrRevision key change done).onAll [] 0 t) path =
      change (tag.attr? key) := by
  rw [newValue?, nodeAt?_plain rfl, there, Option.map_some, Revision.on_children rfl]
  simp only [Option.bind_some, Node.attr?, attrRevision, if_neg fresh]

theorem setSelected_tree (key : Text) (change : Option Text → Option Text) (t : Tree)
    {done : List Path} {path : Path} (fresh : path ∉ done) (n : Nat) :
    (setSelected key change ((attrRevision key change done).onAll [] 0 t, n) path).1 =
      (attrRevision key change (done ++ [path])).onAll [] 0 t := by
  have elsewhere {p : Path} (other : p ≠ path) : p ∈ done ↔ p ∈ done ++ [path] := by
    simp [other]
  have here : path ∈ done ++ [path] := by simp
  unfold setSelected
  cases found : newValue? key change ((attrRevision key change done).onAll [] 0 t) path with
  | none =>
    refine Revision.page_congr fun p tag cs there => ⟨?_, rfl⟩
    by_cases same : p = path
    · subst same
      rw [newValue?_element fresh there] at found
      simp only [attrRevision, if_neg fresh, if_pos here, newTag, found]
    · simp only [attrRevision, elsewhere same]
  | some value =>
    cases path with
    | nil => contradiction
    | cons i rest =>
      refine (modifyAt_onAll rfl _ rest [] 0 i t).trans ?_
      refine Revision.page_congr fun p tag cs there => ⟨?_, rfl⟩
      rw [Nat.zero_add, List.nil_append]
      by_cases same : p = i :: rest
      · subst same
        rw [newValue?_element fresh there] at found
        simp only [retag, attrRevision, if_pos, if_neg fresh, if_pos here, newTag, found]
      · simp only [retag, attrRevision, if_neg same, elsewhere same]

theorem setAll_tree (key : Text) (change : Option Text → Option Text) (t : Tree)
    {selected : List Path} (once : selected.Nodup) {done : List Path}
    (fresh : ∀ p ∈ selected, p ∉ done) (n : Nat) :
    (selected.foldl (setSelected key change) ((attrRevision key change done).onAll [] 0 t, n)).1 =
      (attrRevision key change (done ++ selected)).onAll [] 0 t := by
  induction selected generalizing done n with
  | nil => rw [List.append_nil]; rfl
  | cons path later ih =>
    obtain ⟨unique, once⟩ := List.nodup_cons.mp once
    have step := setSelected_tree key change t (fresh path List.mem_cons_self) n
    have ahead : ∀ p ∈ later, p ∉ done ++ [path] := by
      intro p member
      have old := fresh p (List.mem_cons_of_mem _ member)
      simp only [List.mem_append, List.mem_singleton, not_or]
      exact ⟨old, fun same => unique (same ▸ member)⟩
    have rest := ih once ahead
      (setSelected key change ((attrRevision key change done).onAll [] 0 t, n) path).2
    rw [List.append_assoc, List.singleton_append] at rest
    rw [← rest, ← step]
    rfl

theorem fixAttributes_tree {selected : List Path} (once : selected.Nodup) :
    (fixAttributes key change t selected).1 =
      (attrRevision key change selected).onAll [] 0 t := by
  have nothing : (attrRevision key change []).onAll [] 0 t = t := by
    have same : (attrRevision key change []).onAll [] 0 t = ({} : Revision).onAll [] 0 t :=
      Revision.page_congr fun _ _ _ _ =>
        ⟨by simp only [attrRevision, List.not_mem_nil, if_false], rfl⟩
    rw [same, Revision.onAll_nothing]
  have all := setAll_tree key change t once (fun _ _ => List.not_mem_nil) 0
  rw [nothing, List.nil_append] at all
  exact all

theorem fixTexts_same {t : Tree} {selected : List Path}
    (clean : ∀ p ∈ selected, ∀ n, nodeAt? t p = some n → hasSeparator n.innerText = false) :
    fixTexts t selected = (t, 0) := by
  have edits : selected.foldl (editText t) ([], 0) = ([], 0) := by
    induction selected with
    | nil => rfl
    | cons path later ih =>
      have step : editText t ([], 0) path = ([], 0) := by
        unfold editText
        cases there : nodeAt? t path with
        | none => rfl
        | some n =>
          have text := textUnder_unedited [] path n fun _ => rfl
          simp only [text, clean path List.mem_cons_self n there, Bool.false_eq_true, if_false]
      rw [List.foldl_cons, step]
      exact ih fun p member => clean p (List.mem_cons_of_mem _ member)
  unfold fixTexts
  rw [edits]
  exact congrArg (·, 0) ((applyEditsIn_eq [] [] 0 t).trans (Revision.onAll_nothing [] 0 t))

theorem fixAttributes_same {selected : List Path}
    (done : ∀ p ∈ selected, newValue? key change t p = none) :
    fixAttributes key change t selected = (t, 0) := by
  rw [fixAttributes_eq]
  induction selected with
  | nil => rfl
  | cons path later ih =>
    have step : setSelected key change (t, 0) path = (t, 0) := by
      simp only [setSelected, done path List.mem_cons_self]
    rw [List.foldl_cons, step]
    exact ih fun p member => done p (List.mem_cons_of_mem _ member)

end DocBridge.Fix
