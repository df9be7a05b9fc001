import AtlasNet.RayTest
import Mathlib.Data.Fin.Tuple.Basic
import Mathlib.Tactic.Ring

/-! The centre and the half extents of boxes, and the box that is made of the two, in exact
rationals and in `int32_t`. -/
namespace AtlasNet
open Foundation

/-- What the centre and the half extents use besides: sums, and `Type(0.5)`. -/
structure CenteredType (α : Type) extends ScalarType α where
  half : α
  add : α → α → Except Fault α

namespace CenteredType
open ScalarType

def rational : CenteredType ℚ where
  toScalarType := ScalarType.rational
  half := 1/2
  add a b := .ok (a+b)

/-- The conversion of 0.5 to an integer truncates. -/
def int32 : CenteredType Int32 where
  toScalarType := ScalarType.int32
  half := 0
  add a b := checked (a.toInt+b.toInt)

end CenteredType

namespace AABB
open CenteredType
open ScalarType (Fits checked)

section Definitions
variable {Dim : Nat} {α : Type}

/-- A vector whose components are computed one after the other. -/
def vec : {Dim : Nat} → (Fin Dim → Except Fault α) → Except Fault (Fin Dim → α)
  | 0,_ => pure Fin.elim0
  | _+1,components => do
    let x ← components 0
    let rest ← vec fun i => components i.succ
    pure (Fin.cons x rest)

def center (type : CenteredType α) (box : AABB Dim α) : Except Fault (Fin Dim → α) :=
  vec fun i => do type.mul (← type.add (box.min i) (box.max i)) type.half

def halfExtents (type : CenteredType α) (box : AABB Dim α) : Except Fault (Fin Dim → α) :=
  vec fun i => do type.mul (← type.sub (box.max i) (box.min i)) type.half

def FromCenterExtents (type : CenteredType α) (center halfExtents : Fin Dim → α) : Except Fault (AABB Dim α) := do
  let low ← vec fun i => type.sub (center i) (halfExtents i)
  let high ← vec fun i => type.add (center i) (halfExtents i)
  pure ⟨low,high⟩

theorem vec_ok (components : Fin Dim → α) : vec (fun i => .ok (components i)) = .ok components := by
  induction Dim with
  | zero => exact congrArg Except.ok (funext fun i => i.elim0)
  | succ Dim ih =>
    rw [vec,ih fun i => components i.succ]
    exact congrArg Except.ok (Fin.cons_self_tail components)

theorem vec_eq {components : Fin Dim → Except Fault α} {values : Fin Dim → α} (each : ∀ i, components i = .ok (values i)) :
    vec components = .ok values := by
  rw [funext each,vec_ok]

theorem FromCenterExtents_eq {type : CenteredType α} {center halfExtents low high : Fin Dim → α}
    (below : ∀ i, type.sub (center i) (halfExtents i) = .ok (low i))
    (above : ∀ i, type.add (center i) (halfExtents i) = .ok (high i)) :
    FromCenterExtents type center halfExtents = .ok ⟨low,high⟩ := by
  rw [FromCenterExtents,vec_eq below,vec_eq above]
  rfl

end Definitions

/-- The centre lies in the box, and the box made of centre and half extents holds the centre and
lies in the box. -/
structure Describes {Dim : Nat} {α : Type} [LinearOrder α] (type : CenteredType α) (box : AABB Dim α)
    (middle extents : Fin Dim → α) (rebuilt : AABB Dim α) : Prop where
  center : box.center type = .ok middle
  halfExtents : box.halfExtents type = .ok extents
  rebuilds : FromCenterExtents type middle extents = .ok rebuilt
  inside : box.contains middle = true
  holds : rebuilt.contains middle = true
  contained : box.contains_box rebuilt = true

section Instantiations
variable {Dim : Nat}

theorem middle_mem {box : AABB Dim ℚ} (valid : box.valid = true) : box.contains (fun i => (box.min i+box.max i)*(1/2)) = true := by
  have ordered := (valid_iff box).mp valid
  rw [contains_iff]
  constructor
  · intro i
    have here := ordered i
    change box.min i ≤ (box.min i+box.max i)*(1/2)
    linarith
  · intro i
    have here := ordered i
    change (box.min i+box.max i)*(1/2) ≤ box.max i
    linarith

theorem describes_rational {box : AABB Dim ℚ} (valid : box.valid = true) :
    Describes rational box (fun i => (box.min i+box.max i)*(1/2)) (fun i => (box.max i-box.min i)*(1/2)) box where
  center := vec_eq fun _ => rfl
  halfExtents := vec_eq fun _ => rfl
  rebuilds := by
    apply FromCenterExtents_eq
    · intro i
      change Except.ok _ = _
      congr 1
      ring
    · intro i
      change Except.ok _ = _
      congr 1
      ring
  inside := middle_mem valid
  holds := middle_mem valid
  contained := (contains_box_iff valid).mpr ⟨le_rfl,le_rfl⟩

theorem mul_half (x : Int32) : int32.mul x int32.half = .ok 0 := by
  change checked (x.toInt*0) = _
  rw [Int.mul_zero]
  rfl

/-- In `int32_t` one half is zero: centre and half extents are zero for all boxes. -/
theorem center_int32 {box : AABB Dim Int32} (fits : ∀ i, Fits ((box.min i).toInt+(box.max i).toInt)) :
    box.center int32 = .ok fun _ => 0 := by
  apply vec_eq
  intro i
  have sum : int32.add (box.min i) (box.max i) = .ok (Int32.ofInt ((box.min i).toInt+(box.max i).toInt)) := checked_eq (fits i)
  rw [sum]
  exact mul_half _

theorem halfExtents_int32 {box : AABB Dim Int32} (fits : ∀ i, Fits ((box.max i).toInt-(box.min i).toInt)) :
    box.halfExtents int32 = .ok fun _ => 0 := by
  apply vec_eq
  intro i
  have difference : int32.sub (box.max i) (box.min i) = .ok (Int32.ofInt ((box.max i).toInt-(box.min i).toInt)) :=
    checked_eq (fits i)
  rw [difference]
  exact mul_half _

theorem rebuilt_int32 : FromCenterExtents int32 (fun _ : Fin Dim => 0) (fun _ => 0) = .ok empty :=
  FromCenterExtents_eq (fun _ => rfl) (fun _ => rfl)

theorem origin_mem_iff (box : AABB Dim Int32) : box.contains (fun _ => 0) = true ↔ ∀ i, box.min i ≤ 0 ∧ 0 ≤ box.max i := by
  rw [contains_iff,forall_and]
  exact Iff.rfl

theorem describes_int32 {box : AABB Dim Int32} (sums : ∀ i, Fits ((box.min i).toInt+(box.max i).toInt))
    (differences : ∀ i, Fits ((box.max i).toInt-(box.min i).toInt)) :
    (∃ middle extents rebuilt, Describes int32 box middle extents rebuilt) ↔ ∀ i, box.min i ≤ 0 ∧ 0 ≤ box.max i := by
  rw [← origin_mem_iff]
  constructor
  · rintro ⟨middle,extents,rebuilt,describes⟩
    obtain rfl := Except.ok.inj (describes.center.symm.trans (center_int32 sums))
    exact describes.inside
  · intro inside
    refine ⟨_,_,_,center_int32 sums,halfExtents_int32 differences,rebuilt_int32,inside,?_,?_⟩
    · exact (contains_iff _ _).mpr ⟨le_rfl,le_rfl⟩
    · exact Bool.and_eq_true_iff.mpr ⟨inside,inside⟩

/-- Centre and half extents describe all boxes over the rationals, with the box itself made of
them, and in `int32_t` exactly the boxes that hold the origin. -/
theorem centerExtents_describe (Dim : Nat) :
    (∀ box : AABB Dim ℚ, box.valid = true → ∃ middle extents, Describes rational box middle extents box) ∧
    ∀ box : AABB Dim Int32, box.valid = true → (∀ i, Fits ((box.min i).toInt+(box.max i).toInt)) →
      (∀ i, Fits ((box.max i).toInt-(box.min i).toInt)) →
      ((∃ middle extents rebuilt, Describes int32 box middle extents rebuilt) ↔ ∀ i, box.min i ≤ 0 ∧ 0 ≤ box.max i) :=
  ⟨fun _ valid => ⟨_,_,describes_rational valid⟩,fun _ _ sums differences => describes_int32 sums differences⟩

theorem centerExtents_describe_around :
    (∃ middle extents, Describes rational (⟨fun _ => 1,fun i => i.val+2⟩ : AABB 2 ℚ) middle extents ⟨fun _ => 1,fun i => i.val+2⟩) ∧
    ∃ middle extents rebuilt, Describes int32 (⟨fun _ => -3,fun _ => 5⟩ : AABB 2 Int32) middle extents rebuilt := by
  have both := centerExtents_describe 2
  constructor
  · apply both.1
    rw [valid_iff]
    intro i
    change (1 : ℚ) ≤ (i.val : ℚ)+2
    have low : (0 : ℚ) ≤ i.val := Nat.cast_nonneg _
    linarith
  · exact (both.2 _ (by decide) (by decide) (by decide)).mpr (by decide)

/-- The centre of the box from (2,2) to (4,4) is given as the origin. -/
theorem center_outside_box :
    ¬ ∃ middle extents rebuilt, Describes int32 (⟨fun _ => 2,fun _ => 4⟩ : AABB 2 Int32) middle extents rebuilt := by
  rw [describes_int32 (by decide) (by decide)]
  decide

end Instantiations

end AABB

end AtlasNet
