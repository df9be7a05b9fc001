import Mathlib.Order.Interval.Set.Basic
import Mathlib.Order.Lattice
import Mathlib.Data.List.FinRange
import Mathlib.Data.List.Perm.Basic
import Mathlib.Tactic.Common
import Mathlib.Algebra.Group.Pi.Basic
import Mathlib.Algebra.Ring.Int.Defs

/-! Axis-aligned boxes over a totally ordered scalar type, against the sets of points they stand
for. -/
namespace AtlasNet

@[ext] structure AABB (Dim : Nat) (α : Type) where
  min : Fin Dim → α
  max : Fin Dim → α

namespace AABB
variable {Dim : Nat} {α : Type} [LinearOrder α]

/-- `AABB()`, which the source calls the invalid or empty box. -/
def empty [Zero α] : AABB Dim α := ⟨fun _ => 0,fun _ => 0⟩

def valid (box : AABB Dim α) : Bool := (List.finRange Dim).all fun i => !decide (box.max i < box.min i)

def expand (box : AABB Dim α) (p : Fin Dim → α) : AABB Dim α := ⟨box.min ⊓ p,box.max ⊔ p⟩

def expand_box (box other : AABB Dim α) : AABB Dim α := ⟨box.min ⊓ other.min,box.max ⊔ other.max⟩

def contains (box : AABB Dim α) (p : Fin Dim → α) : Bool :=
  (List.finRange Dim).all fun i => !(decide (p i < box.min i) || decide (box.max i < p i))

def contains_box (box other : AABB Dim α) : Bool := box.contains other.min && box.contains other.max

def intersects (box other : AABB Dim α) : Bool :=
  (List.finRange Dim).all fun i => !(decide (box.max i < other.min i) || decide (other.max i < box.min i))

def intersection [Zero α] (box other : AABB Dim α) : AABB Dim α :=
  let result : AABB Dim α := ⟨box.min ⊔ other.min,box.max ⊓ other.max⟩
  if result.valid then result else empty

/-- The points of a box, an interval in the order of all axes. -/
def points (box : AABB Dim α) : Set (Fin Dim → α) := Set.Icc box.min box.max

section Points

theorem valid_iff (box : AABB Dim α) : box.valid = true ↔ box.min ≤ box.max := by
  simp [valid,Pi.le_def]

theorem contains_iff (box : AABB Dim α) (p : Fin Dim → α) : box.contains p = true ↔ p ∈ box.points := by
  simp [contains,points,Pi.le_def,forall_and]

theorem intersects_iff (box other : AABB Dim α) :
    box.intersects other = true ↔ other.min ≤ box.max ∧ box.min ≤ other.max := by
  simp [intersects,Pi.le_def,forall_and]

theorem contains_box_iff {box other : AABB Dim α} (valid : other.valid = true) :
    box.contains_box other = true ↔ box.min ≤ other.min ∧ other.max ≤ box.max := by
  have ordered := (valid_iff other).mp valid
  rw [contains_box,Bool.and_eq_true,contains_iff,contains_iff]
  constructor
  · rintro ⟨low,high⟩
    exact ⟨low.1,high.2⟩
  · rintro ⟨low,high⟩
    exact ⟨⟨low,ordered.trans high⟩,⟨low.trans ordered,high⟩⟩

end Points

section Operations

/-- The operations on a pair of boxes are those on their sets of points. -/
structure SetOperations [Zero α] (A B : AABB Dim α) : Prop where
  contains : A.contains_box B = true ↔ ∀ p, B.contains p = true → A.contains p = true
  intersects : A.intersects B = true ↔ ∃ p, A.contains p = true ∧ B.contains p = true
  intersection : ∀ p, (A.intersection B).contains p = true ↔ A.contains p = true ∧ B.contains p = true

theorem contains_box_subset {A B : AABB Dim α} (valid : B.valid = true) :
    A.contains_box B = true ↔ ∀ p, B.contains p = true → A.contains p = true := by
  simp only [contains_box_iff valid,contains_iff]
  exact (Set.Icc_subset_Icc_iff ((valid_iff B).mp valid)).symm

/-- The overlap of two boxes, before its validity is looked at. -/
theorem overlap_points (A B : AABB Dim α) : A.points ∩ B.points = Set.Icc (A.min ⊔ B.min) (A.max ⊓ B.max) := Set.Icc_inter_Icc

theorem overlap_nonempty {A B : AABB Dim α} (first : A.valid = true) (second : B.valid = true) :
    A.min ⊔ B.min ≤ A.max ⊓ B.max ↔ B.min ≤ A.max ∧ A.min ≤ B.max := by
  rw [sup_le_iff,le_inf_iff,le_inf_iff]
  have left := (valid_iff A).mp first
  have right := (valid_iff B).mp second
  tauto

theorem intersects_meet {A B : AABB Dim α} (first : A.valid = true) (second : B.valid = true) :
    A.intersects B = true ↔ ∃ p, A.contains p = true ∧ B.contains p = true := by
  rw [intersects_iff,← overlap_nonempty first second,← Set.nonempty_Icc,← overlap_points]
  simp only [contains_iff]
  exact Iff.rfl

theorem intersection_meeting [Zero α] {A B : AABB Dim α} (first : A.valid = true) (second : B.valid = true)
    (meets : B.min ≤ A.max ∧ A.min ≤ B.max) (p : Fin Dim → α) :
    (A.intersection B).contains p = true ↔ A.contains p = true ∧ B.contains p = true := by
  have overlap : (⟨A.min ⊔ B.min,A.max ⊓ B.max⟩ : AABB Dim α).valid = true :=
    (valid_iff _).mpr ((overlap_nonempty first second).mpr meets)
  rw [intersection,if_pos overlap,contains_iff,contains_iff,contains_iff,← Set.mem_inter_iff,overlap_points]
  exact Iff.rfl

/-- What two boxes that do not meet have in common is said to be the origin. -/
theorem intersection_apart [Zero α] {A B : AABB Dim α} (first : A.valid = true) (second : B.valid = true)
    (apart : ¬ (B.min ≤ A.max ∧ A.min ≤ B.max)) : A.intersection B = empty := by
  have none : ¬ (⟨A.min ⊔ B.min,A.max ⊓ B.max⟩ : AABB Dim α).valid = true := fun valid =>
    apart ((overlap_nonempty first second).mp ((valid_iff _).mp valid))
  rw [intersection,if_neg none]

/-- The operations are those of the sets exactly when the boxes meet on every axis. -/
theorem setOperations_iff [Zero α] (A B : AABB Dim α) (first : A.valid = true) (second : B.valid = true) :
    SetOperations A B ↔ ∀ i, B.min i ≤ A.max i ∧ A.min i ≤ B.max i := by
  rw [forall_and]
  change _ ↔ B.min ≤ A.max ∧ A.min ≤ B.max
  constructor
  · intro operations
    by_contra apart
    have origin : (A.intersection B).contains (fun _ => 0) = true := by
      rw [intersection_apart first second apart,contains_iff]
      exact ⟨le_rfl,le_rfl⟩
    have common := (operations.intersection _).mp origin
    have meets := (intersects_meet first second).mpr ⟨_,common⟩
    exact apart ((intersects_iff A B).mp meets)
  · intro meets
    exact ⟨contains_box_subset second,intersects_meet first second,intersection_meeting first second meets⟩

theorem setOperations_corner :
    SetOperations (⟨fun _ => -1,fun _ => 1⟩ : AABB 3 Int) ⟨fun _ => 1,fun i => i.val+2⟩ := by
  refine (setOperations_iff _ _ (by decide) (by decide)).mpr ?_
  decide

/-- Two boxes away from the origin and from each other: the origin is in their intersection and in
neither. -/
theorem apart_boxes_share_origin :
    ((⟨fun _ => 1,fun _ => 2⟩ : AABB 2 Int).intersection ⟨fun _ => 3,fun _ => 4⟩).contains (fun _ => 0) = true ∧
      ¬ SetOperations (⟨fun _ => 1,fun _ => 2⟩ : AABB 2 Int) ⟨fun _ => 3,fun _ => 4⟩ := by
  have origin : ((⟨fun _ => 1,fun _ => 2⟩ : AABB 2 Int).intersection ⟨fun _ => 3,fun _ => 4⟩).contains (fun _ => 0) = true := by
    decide
  refine ⟨origin,fun operations => ?_⟩
  have common := ((operations.intersection _).mp origin).1
  revert common
  decide

end Operations

section Growth

/-- What a box is expanded by: a point, or a valid box. -/
inductive Shape (Dim : Nat) (α : Type) [LinearOrder α]
  | point (p : Fin Dim → α)
  | box (b : AABB Dim α) (valid : b.valid = true)

namespace Shape

def low : Shape Dim α → Fin Dim → α
  | point p => p
  | box b _ => b.min

def high : Shape Dim α → Fin Dim → α
  | point p => p
  | box b _ => b.max

def grow (box : AABB Dim α) : Shape Dim α → AABB Dim α
  | .point p => box.expand p
  | .box b _ => box.expand_box b

def inside (box : AABB Dim α) : Shape Dim α → Bool
  | .point p => box.contains p
  | .box b _ => box.contains_box b

theorem grow_eq (box : AABB Dim α) (shape : Shape Dim α) : shape.grow box = ⟨box.min ⊓ shape.low,box.max ⊔ shape.high⟩ := by
  cases shape <;> rfl

theorem inside_iff (box : AABB Dim α) (shape : Shape Dim α) :
    shape.inside box = true ↔ box.min ≤ shape.low ∧ shape.high ≤ box.max := by
  cases shape with
  | point p => exact contains_iff box p
  | box b valid => exact contains_box_iff valid

end Shape

/-- The box after the shapes have been added to it one after the other. -/
def grownFrom (start : AABB Dim α) (shapes : List (Shape Dim α)) : AABB Dim α := shapes.foldl (fun box shape => shape.grow box) start

def grown [Zero α] (shapes : List (Shape Dim α)) : AABB Dim α := grownFrom empty shapes

theorem grownFrom_cons (start : AABB Dim α) (shape : Shape Dim α) (shapes : List (Shape Dim α)) :
    grownFrom start (shape::shapes) = grownFrom ⟨start.min ⊓ shape.low,start.max ⊔ shape.high⟩ shapes := by
  rw [← Shape.grow_eq]
  rfl

theorem grownFrom_min_le (start : AABB Dim α) (shapes : List (Shape Dim α)) (i : Fin Dim) (x : α) :
    (grownFrom start shapes).min i ≤ x ↔ start.min i ≤ x ∨ ∃ shape ∈ shapes, shape.low i ≤ x := by
  induction shapes generalizing start with
  | nil => simp [grownFrom]
  | cons shape shapes ih =>
    rw [grownFrom_cons,ih]
    simp [or_assoc]

theorem grownFrom_le_max (start : AABB Dim α) (shapes : List (Shape Dim α)) (i : Fin Dim) (x : α) :
    x ≤ (grownFrom start shapes).max i ↔ x ≤ start.max i ∨ ∃ shape ∈ shapes, x ≤ shape.high i := by
  induction shapes generalizing start with
  | nil => simp [grownFrom]
  | cons shape shapes ih =>
    rw [grownFrom_cons,ih]
    simp [or_assoc]

theorem inside_grownFrom (start : AABB Dim α) (shapes : List (Shape Dim α)) :
    ∀ shape ∈ shapes, shape.inside (grownFrom start shapes) = true := by
  intro shape member
  rw [Shape.inside_iff]
  exact ⟨fun i => (grownFrom_min_le start shapes i _).mpr (.inr ⟨shape,member,le_rfl⟩),
    fun i => (grownFrom_le_max start shapes i _).mpr (.inr ⟨shape,member,le_rfl⟩)⟩

/-- A box that holds the start and the shapes holds what grows from them. -/
theorem grownFrom_least {box start : AABB Dim α} {shapes : List (Shape Dim α)} (low : box.min ≤ start.min)
    (high : start.max ≤ box.max) (inside : ∀ shape ∈ shapes, shape.inside box = true) :
    box.min ≤ (grownFrom start shapes).min ∧ (grownFrom start shapes).max ≤ box.max := by
  induction shapes generalizing start with
  | nil => exact ⟨low,high⟩
  | cons shape shapes ih =>
    obtain ⟨here,others⟩ := List.forall_mem_cons.mp inside
    obtain ⟨above,below⟩ := (Shape.inside_iff box shape).mp here
    rw [grownFrom_cons]
    exact ih (le_inf low above) (sup_le high below) others

theorem grownFrom_valid {start : AABB Dim α} (valid : start.valid = true) (shapes : List (Shape Dim α)) :
    (grownFrom start shapes).valid = true := by
  rw [valid_iff]
  intro i
  have low := (grownFrom_min_le start shapes i _).mpr (.inl le_rfl)
  have high := (grownFrom_le_max start shapes i _).mpr (.inl le_rfl)
  exact (low.trans ((valid_iff start).mp valid i)).trans high

theorem grownFrom_perm (start : AABB Dim α) {first second : List (Shape Dim α)} (same : first.Perm second) :
    grownFrom start first = grownFrom start second := by
  apply same.foldl_eq'
  intro a _ b _ box
  simp only [Shape.grow_eq]
  exact AABB.ext (inf_right_comm ..) (sup_right_comm ..)

/-- Growing the box of the default constructor ends with the least box that holds all shapes,
whatever their order. -/
structure GrowsToHull [Zero α] (shapes : List (Shape Dim α)) : Prop where
  holds : ∀ shape ∈ shapes, shape.inside (grown shapes) = true
  least : ∀ box : AABB Dim α, (∀ shape ∈ shapes, shape.inside box = true) → box.contains_box (grown shapes) = true
  order : ∀ other, shapes.Perm other → grown other = grown shapes

theorem growsToHull_iff [Zero α] (shapes : List (Shape Dim α)) (some : shapes ≠ []) :
    GrowsToHull shapes ↔ ∀ i, (∃ shape ∈ shapes, shape.low i ≤ 0) ∧ ∃ shape ∈ shapes, 0 ≤ shape.high i := by
  have origin : (empty : AABB Dim α).valid = true := (valid_iff _).mpr le_rfl
  have valid : (grown shapes).valid = true := grownFrom_valid origin shapes
  constructor
  · intro grows i
    obtain ⟨first,rest,rfl⟩ := List.exists_cons_of_ne_nil some
    -- the hull starts with a shape, and not with the origin
    have hull : ∀ shape ∈ first::rest, shape.inside (grownFrom ⟨first.low,first.high⟩ rest) = true := by
      refine List.forall_mem_cons.mpr ⟨?_,inside_grownFrom _ rest⟩
      rw [Shape.inside_iff]
      exact ⟨fun i => (grownFrom_min_le _ rest i _).mpr (.inl le_rfl),fun i => (grownFrom_le_max _ rest i _).mpr (.inl le_rfl)⟩
    obtain ⟨low,high⟩ := (contains_box_iff valid).mp (grows.least _ hull)
    have below : (grown (first::rest)).min i ≤ 0 := (grownFrom_min_le _ _ i 0).mpr (.inl le_rfl)
    have above : 0 ≤ (grown (first::rest)).max i := (grownFrom_le_max _ _ i 0).mpr (.inl le_rfl)
    have least := (grownFrom_min_le _ rest i 0).mp ((low i).trans below)
    have greatest := (grownFrom_le_max _ rest i 0).mp (above.trans (high i))
    simp only [List.exists_mem_cons_iff]
    exact ⟨least,greatest⟩
  · intro spans
    refine ⟨inside_grownFrom _ shapes,fun box inside => (contains_box_iff valid).mpr ?_,fun other same => ?_⟩
    · refine grownFrom_least (fun i => ?_) (fun i => ?_) inside
      · obtain ⟨shape,member,low⟩ := (spans i).1
        exact (((Shape.inside_iff box shape).mp (inside shape member)).1 i).trans low
      · obtain ⟨shape,member,high⟩ := (spans i).2
        exact high.trans (((Shape.inside_iff box shape).mp (inside shape member)).2 i)
    · exact grownFrom_perm _ same.symm

theorem growsToHull_around :
    GrowsToHull [Shape.point (fun _ => (3 : Int)),.box (⟨fun _ => -2,fun i => -(i.val : Int)⟩ : AABB 2 Int) (by decide)] := by
  refine (growsToHull_iff _ (List.cons_ne_nil _ _)).mpr fun i => ⟨⟨_,List.mem_cons_of_mem _ List.mem_cons_self,?_⟩,
    ⟨_,List.mem_cons_self,?_⟩⟩
  · change (-2 : Int) ≤ 0
    decide
  · change (0 : Int) ≤ 3
    decide

/-- What grows from one point away from the origin is not the box of that point. -/
theorem point_grows_from_origin : ¬ GrowsToHull [Shape.point (fun _ : Fin 2 => (1 : Int))] := by
  intro grows
  have least := grows.least ⟨fun _ => 1,fun _ => 1⟩ (by decide)
  revert least
  decide

end Growth

end AABB

end AtlasNet
