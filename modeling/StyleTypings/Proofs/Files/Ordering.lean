import Mathlib.Data.List.Lex
import Mathlib.Data.List.Nodup
import Mathlib.Order.Lattice
import StyleTypings.Files.Pattern
import StyleTypings.Session.Batch

/-!
# The order of paths

Paths are ordered as their keys are: lists of lists of numbers, where the numbers of a name
are the codes of its characters. Alike paths are those of one key, so a pattern selects its
files in strict order, and results are brought into one order in whatever order they come.
-/

namespace StyleTypings

/-! ## Keys -/

/-- Lists of keys are compared at the first place at which they differ. -/
theorem map_cons_le_iff
    {α β : Type}
    [LinearOrder β]
    (key : α → β)
    (a b : α)
    (rest others : List α) :
    (a :: rest).map key ≤ (b :: others).map key ↔
      key a < key b ∨ key a = key b ∧ rest.map key ≤ others.map key := by
  rw [← not_lt, ← not_lt, List.map_cons, List.map_cons, List.cons_lt_cons_iff]
  rcases lt_trichotomy (key a) (key b) with less | same | greater
  · simp [less, not_lt_of_gt less, less.ne']
  · simp [same]
  · simp [greater, not_lt_of_gt greater, greater.ne']

namespace PathComponent

/-- The kind of a component, and the codes of a name behind it. -/
def key : PathComponent → List Nat
  | .root => [0]
  | .current => [1]
  | .parent => [2]
  | .normal name => 3 :: name.map Char.toNat

theorem nameLe_iff (left right : Text) :
    nameLe left right = true ↔ left.map Char.toNat ≤ right.map Char.toNat := by
  fun_induction nameLe left right with
  | case1 right =>
      rw [← not_lt]
      simp
  | case2 a rest => simp
  | case3 rest b others inductionHypothesis =>
      rw [inductionHypothesis, map_cons_le_iff]
      simp
  | case4 a rest b others differ =>
      have codes : a.toNat ≠ b.toNat := fun same => differ (Char.toNat_inj.mp same)
      rw [map_cons_le_iff]
      simp [codes]

theorem key_injective : Function.Injective key := by
  have codes : Function.Injective (List.map Char.toNat) :=
    List.map_injective_iff.mpr fun _ _ same => Char.toNat_inj.mp same
  intro left right same
  cases left <;> cases right
  case normal.normal name other =>
    exact congrArg normal (codes (List.cons.inj same).2)
  all_goals first | rfl | simp [key] at same

theorem le_iff (left right : PathComponent) :
    left.le right = true ↔ left.key ≤ right.key := by
  cases left <;> cases right
  case normal.normal name other =>
    rw [le, nameLe_iff, key, key, ← not_lt, ← not_lt, List.cons_lt_cons_iff]
    simp
  all_goals
    rw [← not_lt]
    simp [le, rank, key, List.cons_lt_cons_iff]

end PathComponent

namespace Path

/-- The keys of the components. -/
def key (path : Path) : List (List Nat) :=
  path.components.map PathComponent.key

theorem componentsLe_iff (left right : List PathComponent) :
    componentsLe left right = true ↔
      left.map PathComponent.key ≤ right.map PathComponent.key := by
  fun_induction componentsLe left right with
  | case1 right =>
      rw [← not_lt]
      simp
  | case2 a rest => simp
  | case3 rest b others inductionHypothesis =>
      rw [inductionHypothesis, map_cons_le_iff]
      simp
  | case4 a rest b others differ =>
      have keys : a.key ≠ b.key := fun same => differ (PathComponent.key_injective same)
      rw [PathComponent.le_iff, map_cons_le_iff, le_iff_lt_or_eq]
      simp [keys]

theorem le_iff (left right : Path) : left.le right = true ↔ left.key ≤ right.key :=
  componentsLe_iff left.components right.components

theorem alike_iff (left right : Path) : left.alike right = true ↔ left.key = right.key := by
  unfold alike key
  rw [beq_iff_eq, PathComponent.key_injective.list_map.eq_iff]

theorem pairwise_mergeSort (paths : List Path) :
    (paths.mergeSort le).Pairwise fun path other => path.key ≤ other.key := by
  have sorted : (paths.mergeSort le).Pairwise fun path other => path.le other = true := by
    refine List.pairwise_mergeSort (fun a b c first second => ?_) (fun a b => ?_) paths
    · rw [le_iff] at *
      exact first.trans second
    · rw [Bool.or_eq_true, le_iff, le_iff]
      exact le_total a.key b.key
  exact sorted.imp (le_iff _ _).mp

end Path

/-! ## Selected files -/

namespace FilePattern

theorem dropRepeats_sublist (paths : List Path) : (dropRepeats paths).Sublist paths := by
  fun_induction dropRepeats paths with
  | case1 => exact .slnil
  | case2 path rest isNil inductionHypothesis => exact (List.nil_sublist rest).cons_cons path
  | case3 path rest next others isCons alike inductionHypothesis =>
      rw [isCons] at inductionHypothesis
      exact ((List.sublist_cons_self next others).trans inductionHypothesis).cons_cons path
  | case4 path rest next others isCons differ inductionHypothesis =>
      rw [isCons] at inductionHypothesis
      exact inductionHypothesis.cons_cons path

/-- Of ordered paths those that are left are in strict order. -/
theorem pairwise_dropRepeats
    {paths : List Path}
    (ordered : paths.Pairwise fun path other => path.key ≤ other.key) :
    (dropRepeats paths).Pairwise fun path other => path.key < other.key := by
  fun_induction dropRepeats paths with
  | case1 => exact .nil
  | case2 path rest isNil inductionHypothesis => exact List.pairwise_singleton _ _
  | case3 path rest next others isCons alike inductionHypothesis =>
      obtain ⟨-, later⟩ := List.pairwise_cons.mp ordered
      have strict := inductionHypothesis later
      rw [isCons, List.pairwise_cons] at strict
      rw [Path.alike_iff] at alike
      exact List.pairwise_cons.mpr ⟨fun other present => alike ▸ strict.1 other present, strict.2⟩
  | case4 path rest next others isCons differ inductionHypothesis =>
      obtain ⟨first, later⟩ := List.pairwise_cons.mp ordered
      have strict := inductionHypothesis later
      rw [isCons] at strict
      have present : next ∈ rest :=
        (dropRepeats_sublist rest).subset (isCons ▸ List.mem_cons_self)
      have less : path.key < next.key :=
        lt_of_le_of_ne (first next present) fun same =>
          differ ((Path.alike_iff path next).mpr same)
      refine List.pairwise_cons.mpr ⟨fun other among => ?_, strict⟩
      rcases List.mem_cons.mp among with rfl | behind
      · exact less
      · exact less.trans ((List.pairwise_cons.mp strict).1 other behind)

/-- Every path is alike to one that is left. -/
theorem exists_alike_dropRepeats {paths : List Path} {path : Path} (present : path ∈ paths) :
    ∃ other ∈ dropRepeats paths, path.alike other = true := by
  fun_induction dropRepeats paths with
  | case1 => exact absurd present List.not_mem_nil
  | case2 first rest isNil inductionHypothesis =>
      rcases List.mem_cons.mp present with rfl | behind
      · exact ⟨path, List.mem_cons_self, beq_self_eq_true _⟩
      · obtain ⟨other, among, -⟩ := inductionHypothesis behind
        rw [isNil] at among
        exact absurd among List.not_mem_nil
  | case3 first rest next others isCons alike inductionHypothesis =>
      rcases List.mem_cons.mp present with rfl | behind
      · exact ⟨path, List.mem_cons_self, beq_self_eq_true _⟩
      · obtain ⟨other, among, likewise⟩ := inductionHypothesis behind
        rw [isCons] at among
        rcases List.mem_cons.mp among with rfl | later
        · refine ⟨first, List.mem_cons_self, ?_⟩
          rw [Path.alike_iff] at *
          exact likewise.trans alike.symm
        · exact ⟨other, List.mem_cons_of_mem _ later, likewise⟩
  | case4 first rest next others isCons differ inductionHypothesis =>
      rcases List.mem_cons.mp present with rfl | behind
      · exact ⟨path, List.mem_cons_self, beq_self_eq_true _⟩
      · obtain ⟨other, among, likewise⟩ := inductionHypothesis behind
        rw [isCons] at among
        exact ⟨other, List.mem_cons_of_mem _ among, likewise⟩

/-- The files that a pattern matches among those of a walk. -/
def matched (pattern : FilePattern) (files : List Path) : List Path :=
  (files.map pattern.walked).filter fun path => pattern.glob.doesMatch path.text

/-- Files list those that a pattern matches, in order and each once. -/
structure Lists (pattern : FilePattern) (found files : List Path) : Prop where
  /-- The files are in strict order, so no two of them are alike. -/
  strict : files.Pairwise fun path other => path.key < other.key
  /-- A file is listed only if it is matched. -/
  sound : ∀ path ∈ files, path ∈ pattern.matched found
  /-- Of each matched file an alike one is listed. -/
  complete : ∀ path ∈ pattern.matched found, ∃ other ∈ files, path.alike other = true

theorem lists_select (pattern : FilePattern) (found : List Path) :
    pattern.Lists found (pattern.select found) where
  strict := pairwise_dropRepeats (Path.pairwise_mergeSort (pattern.matched found))
  sound _ selected := List.mem_mergeSort.mp ((dropRepeats_sublist _).subset selected)
  complete _ matched := exists_alike_dropRepeats (List.mem_mergeSort.mpr matched)

end FilePattern

/-! ## Results in order -/

namespace Batch

variable {α : Type}

theorem pairwise_inPathOrder (results : List (Path × α)) :
    (inPathOrder results).Pairwise fun result other => result.1.key ≤ other.1.key := by
  have sorted : (inPathOrder results).Pairwise fun result other =>
      result.1.le other.1 = true := by
    refine List.pairwise_mergeSort (fun a b c first second => ?_) (fun a b => ?_) results
    · rw [Path.le_iff] at *
      exact first.trans second
    · rw [Bool.or_eq_true, Path.le_iff, Path.le_iff]
      exact le_total a.1.key b.1.key
  exact sorted.imp (Path.le_iff _ _).mp

/-- Results for files that are not alike, in whatever order they come, are brought into one
order. -/
theorem inPathOrder_eq_of_perm
    {results others : List (Path × α)}
    (distinct : (results.map fun result => result.1.key).Nodup)
    (same : results.Perm others) :
    inPathOrder results = inPathOrder others := by
  have sorted : (inPathOrder results).Perm (inPathOrder others) :=
    (List.mergeSort_perm results _).trans (same.trans (List.mergeSort_perm others _).symm)
  refine sorted.eq_of_pairwise (fun a b isResult isOther lower upper => ?_)
    (pairwise_inPathOrder results) (pairwise_inPathOrder others)
  exact List.inj_on_of_nodup_map distinct (List.mem_mergeSort.mp isResult)
    (same.mem_iff.mpr (List.mem_mergeSort.mp isOther)) (le_antisymm lower upper)

/-- Results for files in strict order, in whatever order they come, are brought into the
order of the files. -/
theorem inPathOrder_eq
    {files : List Path}
    {results : List (Path × α)}
    {value : Path → α}
    (strict : files.Pairwise fun path other => path.key < other.key)
    (found : results.Perm (files.map fun file => (file, value file))) :
    inPathOrder results = files.map fun file => (file, value file) := by
  have sorted : (files.map fun file => (file, value file)).Pairwise fun result other =>
      result.1.le other.1 = true :=
    List.pairwise_map.mpr (strict.imp fun less => (Path.le_iff _ _).mpr less.le)
  have distinct : ((files.map fun file => (file, value file)).map fun result =>
      result.1.key).Nodup := by
    rw [List.map_map]
    exact List.pairwise_map.mpr (strict.imp fun less => less.ne)
  rw [← inPathOrder_eq_of_perm distinct found.symm]
  exact List.mergeSort_of_pairwise sorted

end Batch
end StyleTypings
