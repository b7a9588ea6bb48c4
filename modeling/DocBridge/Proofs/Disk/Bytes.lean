import DocBridge.Proofs.Disk.Lookup

/-
Disks that differ in the bytes of their files only. They agree on where paths lead, and writing to
a file takes one such disk to another.
-/
namespace DocBridge

def Entry.withBytes (change : Text → Text) : Entry → Entry
  | .file data mode => .file (change data) mode
  | e => e

namespace Disk

variable {d : Disk} {bytes : List Text → Text → Text}

def withBytes (d : Disk) (bytes : List Text → Text → Text) : Disk where
  entries := d.entries.map fun p => (p.1, p.2.withBytes (bytes p.1))

theorem withBytes_congr {bytes' : List Text → Text → Text}
    (same : ∀ path data mode, (path, .file data mode) ∈ d.entries → bytes path data = bytes' path data) :
    d.withBytes bytes = d.withBytes bytes' := by
  refine congrArg Disk.mk (List.map_congr_left fun p member => ?_)
  obtain ⟨path, e⟩ := p
  cases e with
  | file data mode => simp only [Entry.withBytes, same path data mode member]
  | directory => rfl
  | link target => rfl

theorem withBytes_same (d : Disk) : d.withBytes (fun _ data => data) = d := by
  have unchanged : d.entries.map (fun p => (p.1, p.2.withBytes fun data => data)) = d.entries := by
    conv_rhs => rw [← List.map_id d.entries]
    refine List.map_congr_left fun p _ => ?_
    obtain ⟨path, e⟩ := p
    cases e <;> rfl
  exact congrArg Disk.mk unchanged

theorem entry_withBytes (d : Disk) (bytes : List Text → Text → Text) (path : List Text) :
    Disk.entry? (d.withBytes bytes) path = (d.entry? path).map (Entry.withBytes (bytes path)) := by
  unfold entry? withBytes
  split
  · rfl
  · induction d.entries with
    | nil => rfl
    | cons p entries ih =>
      rw [List.map_cons, List.lookup_cons, List.lookup_cons]
      by_cases here : path = p.1
      · simp [here]
      · have other : (path == p.1) = false := by simpa using here
        simp only [other, ih]

theorem tree_withBytes (tree : d.IsTree) (bytes : List Text → Text → Text) :
    (d.withBytes bytes).IsTree := by
  have keys : (d.withBytes bytes).entries.map Prod.fst = d.entries.map Prod.fst := by
    simp [withBytes]
  have old : ∀ p ∈ (d.withBytes bytes).entries,
      ∃ e, (p.1, e) ∈ d.entries ∧ p.2 = e.withBytes (bytes p.1) := by
    intro p member
    obtain ⟨q, inside, rfl⟩ := List.mem_map.mp member
    exact ⟨q.2, inside, rfl⟩
  refine ⟨keys ▸ tree.distinct, fun p member => ?_, fun p member n short => ?_,
    fun p member target => ?_⟩
  · obtain ⟨e, inside, _⟩ := old p member
    exact tree.named (p.1, e) inside
  · obtain ⟨e, inside, _⟩ := old p member
    rw [entry_withBytes, tree.inside _ inside n short]
    rfl
  · obtain ⟨e, inside, same⟩ := old p member
    rw [same]
    cases e with
    | link target => exact absurd rfl (tree.linkless _ inside target)
    | file data mode => exact Entry.noConfusion
    | directory => exact Entry.noConfusion

theorem stepTo_withBytes (d : Disk) (bytes : List Text → Text → Text) :
    (d.withBytes bytes).stepTo = d.stepTo := by
  funext at_ name
  simp only [stepTo, entry_withBytes, Option.isNone_map]
  cases d.entry? at_ with
  | none => rfl
  | some e => cases e <;> rfl

/-- Where paths lead does not depend on the bytes. -/
theorem resolve_withBytes (tree : d.IsTree) (bytes : List Text → Text → Text) (follow : Bool)
    (path : Text) : (d.withBytes bytes).resolve follow path = d.resolve follow path := by
  by_cases some_ : path = []
  · subst some_
    rfl
  · rw [resolve_eq (tree_withBytes tree bytes) follow some_, resolve_eq tree follow some_,
      stepTo_withBytes]

theorem entry_file (tree : d.IsTree) {place : List Text} {data : Text} {mode : Nat}
    (member : (place, .file data mode) ∈ d.entries) :
    Disk.entry? (d.withBytes bytes) place = some (.file (bytes place data) mode) := by
  rw [entry_withBytes, entry_of_mem tree member]
  rfl

theorem read_withBytes (tree : d.IsTree) (bytes : List Text → Text → Text) {path : Text}
    {place : List Text} {data : Text} {mode : Nat} (leads : d.resolve true path = .ok place)
    (member : (place, .file data mode) ∈ d.entries) :
    (d.withBytes bytes).read path = .ok (bytes place data) := by
  simp only [read, resolve_withBytes tree, leads, entry_file tree member]

theorem put_withBytes (tree : d.IsTree) {place : List Text} {data new : Text} {mode : Nat}
    (member : (place, .file data mode) ∈ d.entries) :
    (d.withBytes bytes).put place (.file new mode) =
      d.withBytes fun path data => if path = place then new else bytes path data := by
  have there : (d.withBytes bytes).entries.any (fun p => p.1 == place) = true := by
    rw [List.any_eq_true]
    exact ⟨_, List.mem_map_of_mem member, beq_self_eq_true _⟩
  rw [put, if_pos there, withBytes, withBytes, List.map_map]
  refine congrArg Disk.mk (List.map_congr_left fun p inside => ?_)
  obtain ⟨path, e⟩ := p
  by_cases here : path = place
  · -- No other entry has this name.
    subst here
    have only := (entry_of_mem tree inside).symm.trans (entry_of_mem tree member)
    cases Option.some.inj only
    simp [Entry.withBytes]
  · simp [here]

theorem overwrite_withBytes (tree : d.IsTree) {path : Text} {place : List Text} {data : Text}
    {mode : Nat} (leads : d.resolve true path = .ok place)
    (member : (place, .file data mode) ∈ d.entries) (new : Text) :
    (d.withBytes bytes).overwrite path new =
      .ok (d.withBytes fun path data => if path = place then new else bytes path data) := by
  simp only [overwrite, resolve_withBytes tree, leads, entry_file tree member,
    put_withBytes tree member]

theorem file_unique (tree : d.IsTree) {place : List Text} {data old : Text} {mode mode' : Nat}
    (member : (place, .file data mode) ∈ d.entries) (inside : (place, .file old mode') ∈ d.entries) :
    old = data ∧ mode' = mode := by
  have only := (entry_of_mem tree inside).symm.trans (entry_of_mem tree member)
  cases Option.some.inj only
  exact ⟨rfl, rfl⟩

theorem withBytes_keep (tree : d.IsTree) (bytes : List Text → Text → Text) {place : List Text}
    {data : Text} {mode : Nat}
    (member : (place, .file data mode) ∈ d.entries) :
    (d.withBytes fun path old => if path = place then bytes place data else bytes path old) =
      d.withBytes bytes := by
  refine withBytes_congr fun path old mode' inside => ?_
  split
  · rename_i here
    subst here
    rw [(file_unique tree member inside).1]
  · rfl

end Disk
end DocBridge
