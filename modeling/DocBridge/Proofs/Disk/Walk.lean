import DocBridge.Proofs.Disk.Lookup
import DocBridge.Proofs.Text.Search
import Mathlib.Data.List.Perm.Basic

/-
What a walk visits: every file below the directory once, directory by directory in the order of
the names, under a path that leads to it.
-/
namespace DocBridge

namespace Path

theorem before_trans (a b c : List Text) (first : before a b = true) (second : before b c = true) :
    before a c = true := by
  induction a generalizing b c with
  | nil => rfl
  | cons x a ih =>
    cases b with
    | nil => contradiction
    | cons y b =>
      cases c with
      | nil => contradiction
      | cons z c =>
        simp only [before, beq_iff_eq] at first second ⊢
        by_cases xy : x = y
        · subst xy
          by_cases xz : x = z
          · rw [if_pos xz] at second ⊢
            rw [if_pos rfl] at first
            exact ih b c first second
          · rw [if_neg xz] at second ⊢
            exact second
        · rw [if_neg xy] at first
          by_cases yz : y = z
          · subst yz
            rw [if_neg xy]
            exact first
          · rw [if_neg yz] at second
            rw [Text.le_iff] at first second
            have different : x ≠ z := by
              rintro rfl
              exact xy (List.le_antisymm first second)
            rw [if_neg different, Text.le_iff]
            exact List.le_trans first second

theorem before_total (a b : List Text) : (before a b || before b a) = true := by
  induction a generalizing b with
  | nil => rfl
  | cons x a ih =>
    cases b with
    | nil => rfl
    | cons y b =>
      simp only [before, beq_iff_eq]
      by_cases same : x = y
      · rw [if_pos same, if_pos same.symm]
        exact ih b
      · rw [if_neg same, if_neg (Ne.symm same), Bool.or_eq_true, Text.le_iff, Text.le_iff]
        exact List.le_total x y

end Path

namespace Disk

variable {d : Disk}

def isFound (place : List Text) (p : List Text × Entry) : Bool :=
  isBelow place p.1 && p.2 != .directory

def found (d : Disk) (place : List Text) : List (List Text) := (d.below place).map (place ++ ·)

theorem below_path {place path : List Text} (below : isBelow place path = true) :
    place ++ path.drop place.length = path := by
  rw [isBelow, Bool.and_eq_true, List.isPrefixOf_iff_prefix] at below
  obtain ⟨⟨rest, rfl⟩, _⟩ := below
  rw [List.drop_left]

/-- Every entry below that is not a directory is visited, and each just once. -/
theorem found_perm (d : Disk) (place : List Text) :
    (d.found place).Perm ((d.entries.filter (isFound place)).map Prod.fst) := by
  have listed : d.entries.filterMap (fun p =>
        if isBelow place p.1 && p.2 != .directory then some (p.1.drop place.length) else none) =
      (d.entries.filter (isFound place)).map fun p => p.1.drop place.length := by
    rw [← List.filterMap_eq_map, List.filterMap_filter]
    rfl
  have back : ((d.entries.filter (isFound place)).map fun p => p.1.drop place.length).map (place ++ ·)
      = (d.entries.filter (isFound place)).map Prod.fst := by
    rw [List.map_map]
    refine List.map_congr_left fun p member => ?_
    have wanted := (List.mem_filter.mp member).2
    rw [isFound, Bool.and_eq_true] at wanted
    exact below_path wanted.1
  rw [← back, ← listed]
  exact (List.mergeSort_perm _ _).map _

theorem found_sorted (d : Disk) (place : List Text) :
    (d.found place).Pairwise fun a b =>
      Path.before (a.drop place.length) (b.drop place.length) = true := by
  rw [found, List.pairwise_map]
  simp only [List.drop_left]
  exact List.pairwise_mergeSort Path.before_trans Path.before_total _

theorem found_nodup (tree : d.IsTree) (place : List Text) : (d.found place).Nodup :=
  (found_perm d place).nodup_iff.mpr
    (tree.distinct.sublist (List.filter_sublist.map Prod.fst))

theorem mem_found {place path : List Text} :
    path ∈ d.found place ↔
      ∃ e, (path, e) ∈ d.entries ∧ isBelow place path = true ∧ e ≠ .directory := by
  rw [(found_perm d place).mem_iff, List.mem_map]
  constructor
  · rintro ⟨⟨path, e⟩, member, rfl⟩
    obtain ⟨inside, wanted⟩ := List.mem_filter.mp member
    rw [isFound, Bool.and_eq_true, bne_iff_ne] at wanted
    exact ⟨e, inside, wanted⟩
  · rintro ⟨e, inside, below, other⟩
    refine ⟨(path, e), List.mem_filter.mpr ⟨inside, ?_⟩, rfl⟩
    rw [isFound, Bool.and_eq_true, bne_iff_ne]
    exact ⟨below, other⟩

def nameOf (dir : Text) (place path : List Text) : Text :=
  Path.join dir (Text.join "/" (path.drop place.length))

/-- What a walk from a directory visits is a file, and the path under which it is visited leads to
it. -/
theorem found_file (tree : d.IsTree) {dir : Text} {place path : List Text}
    (there : d.resolve true dir = .ok place) (isDir : d.entry? place = some .directory)
    (member : path ∈ d.found place) :
    ∃ data mode, (path, .file data mode) ∈ d.entries ∧
      ∀ follow, d.resolve follow (nameOf dir place path) = .ok path := by
  obtain ⟨e, inside, below, other⟩ := mem_found.mp member
  have apart : path ≠ place := by
    rintro rfl
    rw [entry_of_mem tree inside] at isDir
    exact other (Option.some.inj isDir)
  have leads := resolve_below tree there inside below apart
  cases e with
  | directory => contradiction
  | link target => exact absurd rfl (tree.linkless _ inside target)
  | file data mode => exact ⟨data, mode, inside, leads⟩

theorem names_nodup (tree : d.IsTree) {dir : Text} {place : List Text}
    (there : d.resolve true dir = .ok place) (isDir : d.entry? place = some .directory) :
    ((d.found place).map (nameOf dir place)).Nodup := by
  refine (List.nodup_map_iff_inj_on (found_nodup tree place)).mpr fun a inA b inB same => ?_
  obtain ⟨_, _, _, leadsA⟩ := found_file tree there isDir inA
  obtain ⟨_, _, _, leadsB⟩ := found_file tree there isDir inB
  have both := (leadsA true).symm.trans ((congrArg (d.resolve true) same).trans (leadsB true))
  exact Except.ok.inj both

end Disk
end DocBridge
