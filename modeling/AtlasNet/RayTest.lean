import AtlasNet.AABB
import AtlasNet.Foundation.Program
import Mathlib.Algebra.Order.Field.Basic
import Mathlib.Algebra.Order.Field.Rat
import Mathlib.Tactic.Linarith

/-! The ray test of boxes by slabs, in exact rationals and in `int32_t`. -/
namespace AtlasNet
open Foundation

/-- What the ray test uses of its scalar type. -/
structure ScalarType (α : Type) where
  zero : α
  one : α
  /-- `Type(1e-8)` -/
  eps : α
  /-- `std::numeric_limits<Type>::max()` -/
  max : α
  less : α → α → Bool
  abs : α → Except Fault α
  sub : α → α → Except Fault α
  mul : α → α → Except Fault α
  div : α → α → Except Fault α

def divisionByZero : Fault := .undefined "division by zero"
def signedOverflow : Fault := .undefined "signed overflow"

namespace ScalarType

/-- Exact numbers in place of `float`, with its largest value. -/
def rational : ScalarType ℚ where
  zero := 0
  one := 1
  eps := 1/10^8
  max := (2^24-1)*2^104
  less a b := decide (a < b)
  abs a := .ok |a|
  sub a b := .ok (a-b)
  mul a b := .ok (a*b)
  div a b := if b = 0 then .error divisionByZero else .ok (a/b)

/-- Whether an `int32_t` can hold the number. -/
def Fits (n : Int) : Prop := -2^31 ≤ n ∧ n < 2^31

instance (n : Int) : Decidable (Fits n) := inferInstanceAs (Decidable (_ ∧ _))

def checked (n : Int) : Except Fault Int32 := if Fits n then .ok (Int32.ofInt n) else .error signedOverflow

/-- The conversion of 1e-8 to an integer truncates, as a division does. What the language leaves
undefined ends the run. -/
def int32 : ScalarType Int32 where
  zero := 0
  one := 1
  eps := 0
  max := Int32.maxValue
  less a b := decide (a < b)
  abs a := checked |a.toInt|
  sub a b := checked (a.toInt-b.toInt)
  mul a b := checked (a.toInt*b.toInt)
  div a b := if b = 0 then .error divisionByZero else checked (a.toInt.tdiv b.toInt)

/-- The run goes on behind an overflow, with the value in two's complement. -/
def wrapping : ScalarType Int32 where
  zero := 0
  one := 1
  eps := 0
  max := Int32.maxValue
  less a b := decide (a < b)
  abs a := .ok (if a < 0 then -a else a)
  sub a b := .ok (a-b)
  mul a b := .ok (a*b)
  div a b := if b = 0 then .error divisionByZero else .ok (a/b)

end ScalarType

instance linearOrderInt32 : LinearOrder Int32 where
  le_refl := Int32.le_refl
  le_trans _ _ _ := Int32.le_trans
  lt_iff_le_not_ge a b := by
    simp only [Int32.lt_iff_toInt_lt,Int32.le_iff_toInt_le]
    omega
  le_antisymm _ _ := Int32.le_antisymm
  le_total := Int32.le_total
  toDecidableLE := inferInstance
  toDecidableEq := inferInstance
  toDecidableLT := inferInstance

namespace AABB
open ScalarType

section Definitions
variable {Dim : Nat} {α : Type}

/-- The interval cut down to the two crossings of a slab, and whether something is left. -/
def narrowed (type : ScalarType α) (t0 t1 tMin tMax : α) : Bool × α × α :=
  let t := if type.less t1 t0 then (t1,t0) else (t0,t1)
  let tMin := if type.less tMin t.1 then t.1 else tMin
  let tMax := if type.less t.2 tMax then t.2 else tMax
  (!type.less tMax tMin,tMin,tMax)

/-- The loop body of `intersectsRay` for one axis: whether the loop goes on, and the interval. -/
def slab (type : ScalarType α) (min max rayOrigin rayDir tMin tMax : α) : Except Fault (Bool × α × α) := do
  if type.less (← type.abs rayDir) type.eps then
    pure (!(type.less rayOrigin min || type.less max rayOrigin),tMin,tMax)
  else
    let invD ← type.div type.one rayDir
    let t0 ← type.mul (← type.sub min rayOrigin) invD
    let t1 ← type.mul (← type.sub max rayOrigin) invD
    pure (narrowed type t0 t1 tMin tMax)

def slabs (type : ScalarType α) (box : AABB Dim α) (rayOrigin rayDir : Fin Dim → α) :
    List (Fin Dim) → α → α → Except Fault (Bool × α × α)
  | [],tMin,tMax => pure (true,tMin,tMax)
  | i::axes,tMin,tMax => do
    let (goes,tMin,tMax) ← slab type (box.min i) (box.max i) (rayOrigin i) (rayDir i) tMin tMax
    if goes then slabs type box rayOrigin rayDir axes tMin tMax else pure (false,tMin,tMax)

/-- The result with the interval that the call leaves in `tMin` and `tMax`. -/
def intersectsRay (type : ScalarType α) (box : AABB Dim α) (rayOrigin rayDir : Fin Dim → α) : Except Fault (Bool × α × α) :=
  slabs type box rayOrigin rayDir (List.finRange Dim) type.zero type.max

end Definitions

section Loop
variable {Dim : Nat} {α β : Type} [LinearOrder β]

/-- The body cuts the interval down to what lies in a set of parameters, and ends the loop when
nothing is left. -/
def Cuts (value : α → β) (outcome : Except Fault (Bool × α × α)) (parameters : Set β) (tMin tMax : α) : Prop :=
  ∃ goes low high, outcome = .ok (goes,low,high) ∧
    if goes then value low ≤ value high ∧ Set.Icc (value low) (value high) = Set.Icc (value tMin) (value tMax) ∩ parameters
    else Set.Icc (value tMin) (value tMax) ∩ parameters = ∅

theorem cuts_narrowed {type : ScalarType α} {value : α → β} (less_iff : ∀ a b, type.less a b = true ↔ value a < value b)
    (t0 t1 tMin tMax : α) : Cuts value (.ok (narrowed type t0 t1 tMin tMax))
      (Set.Icc (value t0 ⊓ value t1) (value t0 ⊔ value t1)) tMin tMax := by
  have lower (a b : α) : value (if type.less a b then b else a) = value a ⊔ value b := by
    by_cases less : value a < value b
    · rw [if_pos ((less_iff a b).mpr less),sup_eq_right.mpr less.le]
    · rw [if_neg (mt (less_iff a b).mp less),sup_eq_left.mpr (not_lt.mp less)]
  have upper (a b : α) : value (if type.less a b then a else b) = value b ⊓ value a := by
    by_cases less : value a < value b
    · rw [if_pos ((less_iff a b).mpr less),inf_eq_right.mpr less.le]
    · rw [if_neg (mt (less_iff a b).mp less),inf_eq_left.mpr (not_lt.mp less)]
  have first : value (if type.less t1 t0 then (t1,t0) else (t0,t1)).1 = value t0 ⊓ value t1 := by
    rw [apply_ite Prod.fst]
    exact upper t1 t0
  have second : value (if type.less t1 t0 then (t1,t0) else (t0,t1)).2 = value t0 ⊔ value t1 := by
    rw [apply_ite Prod.snd,sup_comm]
    exact lower t1 t0
  refine ⟨_,_,_,rfl,?_⟩
  rw [lower,upper,first,second,Set.Icc_inter_Icc]
  by_cases left : value tMin ⊔ (value t0 ⊓ value t1) ≤ value tMax ⊓ (value t0 ⊔ value t1)
  · rw [if_pos]
    · exact ⟨left,rfl⟩
    · rw [Bool.not_eq_true',← Bool.not_eq_true,less_iff,lower,upper,first,second]
      exact not_lt.mpr left
  · rw [if_neg]
    · exact Set.Icc_eq_empty left
    · rw [Bool.not_eq_true',← Bool.not_eq_true,less_iff,lower,upper,first,second,not_not]
      exact not_le.mp left

/-- The interval after the first axes is what lies in all their sets, unless nothing does. -/
theorem slabs_front (type : ScalarType α) (value : α → β) (box : AABB Dim α) (rayOrigin rayDir : Fin Dim → α)
    (parameters : Fin Dim → Set β) (front rest : List (Fin Dim))
    (cuts : ∀ i ∈ front, ∀ tMin tMax, value tMin ≤ value tMax →
      Cuts value (slab type (box.min i) (box.max i) (rayOrigin i) (rayDir i) tMin tMax) (parameters i) tMin tMax)
    {tMin tMax : α} (some : value tMin ≤ value tMax) :
    (∃ low high, value low ≤ value high ∧
      Set.Icc (value low) (value high) = Set.Icc (value tMin) (value tMax) ∩ {t | ∀ i ∈ front, t ∈ parameters i} ∧
      slabs type box rayOrigin rayDir (front ++ rest) tMin tMax = slabs type box rayOrigin rayDir rest low high) ∨
    Set.Icc (value tMin) (value tMax) ∩ {t | ∀ i ∈ front, t ∈ parameters i} = ∅ ∧
      ∃ low high, slabs type box rayOrigin rayDir (front ++ rest) tMin tMax = .ok (false,low,high) := by
  induction front generalizing tMin tMax with
  | nil => exact .inl ⟨tMin,tMax,some,by simp,rfl⟩
  | cons i front ih =>
    obtain ⟨here,others⟩ := List.forall_mem_cons.mp cuts
    obtain ⟨goes,low,high,outcome,cut⟩ := here tMin tMax some
    have split : Set.Icc (value tMin) (value tMax) ∩ {t | ∀ j ∈ i::front, t ∈ parameters j} =
        (Set.Icc (value tMin) (value tMax) ∩ parameters i) ∩ {t | ∀ j ∈ front, t ∈ parameters j} := by
      ext t
      simp only [List.forall_mem_cons,Set.mem_inter_iff,Set.mem_ofPred_eq,and_assoc]
    rw [split,List.cons_append,slabs,outcome]
    cases goes with
    | true =>
      rw [if_pos rfl] at cut
      rw [← cut.2]
      exact ih others cut.1
    | false =>
      rw [if_neg Bool.false_ne_true] at cut
      rw [cut,Set.empty_inter]
      exact .inr ⟨rfl,low,high,rfl⟩

/-- The loop fails when it comes to an axis that cannot be crossed, all the axes before it being
crossed by a common parameter. -/
theorem slabs_fails (type : ScalarType α) (value : α → β) (box : AABB Dim α) (rayOrigin rayDir : Fin Dim → α)
    (crosses : Fin Dim → Prop) (parameters : Fin Dim → Set β)
    (cuts : ∀ i, crosses i → ∀ tMin tMax, value tMin ≤ value tMax →
      Cuts value (slab type (box.min i) (box.max i) (rayOrigin i) (rayDir i) tMin tMax) (parameters i) tMin tMax)
    (fails : ∀ i, ¬ crosses i → ∀ tMin tMax, ∃ fault, slab type (box.min i) (box.max i) (rayOrigin i) (rayDir i) tMin tMax = .error fault)
    (axes : List (Fin Dim)) {tMin tMax : α} (some : value tMin ≤ value tMax) :
    (∃ fault, slabs type box rayOrigin rayDir axes tMin tMax = .error fault) ↔
      ∃ front i back, axes = front ++ i::back ∧ ¬ crosses i ∧ (∀ j ∈ front, crosses j) ∧
        ∃ t, value tMin ≤ t ∧ t ≤ value tMax ∧ ∀ j ∈ front, t ∈ parameters j := by
  constructor
  · rintro ⟨fault,ran⟩
    induction axes generalizing tMin tMax with
    | nil => cases ran
    | cons i axes ih =>
      by_cases here : crosses i
      · obtain ⟨goes,low,high,outcome,cut⟩ := cuts i here tMin tMax some
        rw [slabs,outcome] at ran
        cases goes with
        | false => cases ran
        | true =>
          rw [if_pos rfl] at cut
          obtain ⟨front,k,back,split,stuck,crossed,t,lower,upper,meets⟩ := ih cut.1 ran
          have inside := (Set.ext_iff.mp cut.2 t).mp ⟨lower,upper⟩
          exact ⟨i::front,k,back,by rw [split]; rfl,stuck,List.forall_mem_cons.mpr ⟨here,crossed⟩,t,inside.1.1,inside.1.2,
            List.forall_mem_cons.mpr ⟨inside.2,meets⟩⟩
      · exact ⟨[],i,axes,rfl,here,nofun,value tMin,le_rfl,some,nofun⟩
  · rintro ⟨front,i,back,rfl,stuck,crossed,t,lower,upper,meets⟩
    rcases slabs_front type value box rayOrigin rayDir parameters front (i::back) (fun j member => cuts j (crossed j member)) some with
      ⟨low,high,_,_,ran⟩ | ⟨nothing,_⟩
    · obtain ⟨fault,failed⟩ := fails i stuck low high
      refine ⟨fault,?_⟩
      rw [ran,slabs,failed]
      rfl
    · have inside : t ∈ (∅ : Set β) := nothing ▸ ⟨⟨lower,upper⟩,meets⟩
      exact inside.elim

theorem slabs_all (type : ScalarType α) (value : α → β) (box : AABB Dim α) (rayOrigin rayDir : Fin Dim → α)
    (parameters : Fin Dim → Set β) (cuts : ∀ i tMin tMax, value tMin ≤ value tMax →
      Cuts value (slab type (box.min i) (box.max i) (rayOrigin i) (rayDir i) tMin tMax) (parameters i) tMin tMax)
    (some : value type.zero ≤ value type.max) :
    ∃ hit low high, intersectsRay type box rayOrigin rayDir = .ok (hit,low,high) ∧
      if hit then value low ≤ value high ∧
        Set.Icc (value low) (value high) = Set.Icc (value type.zero) (value type.max) ∩ {t | ∀ i, t ∈ parameters i}
      else Set.Icc (value type.zero) (value type.max) ∩ {t | ∀ i, t ∈ parameters i} = ∅ := by
  have every : {t | ∀ i ∈ List.finRange Dim, t ∈ parameters i} = {t | ∀ i, t ∈ parameters i} := by simp
  have front := slabs_front type value box rayOrigin rayDir parameters (List.finRange Dim) [] (fun i _ => cuts i) some
  rw [every,List.append_nil] at front
  rcases front with ⟨low,high,ordered,interval,ran⟩ | ⟨nothing,low,high,ran⟩
  · exact ⟨true,low,high,ran,ordered,interval⟩
  · exact ⟨false,low,high,ran,nothing⟩

end Loop

section Rational

theorem slab_rational (min max rayOrigin rayDir tMin tMax : ℚ) :
    slab rational min max rayOrigin rayDir tMin tMax =
      if |rayDir| < 1/10^8 then .ok (!(decide (rayOrigin < min) || decide (max < rayOrigin)),tMin,tMax)
      else .ok (narrowed rational ((min-rayOrigin)*(1/rayDir)) ((max-rayOrigin)*(1/rayDir)) tMin tMax) := by
  have abs_eq : rational.abs rayDir = .ok |rayDir| := rfl
  rw [slab,abs_eq]
  change (if decide (|rayDir| < 1/10^8) = true then _ else _) = _
  simp only [decide_eq_true_eq]
  split
  · rfl
  · rename_i crosses
    have nonzero : rayDir ≠ 0 := by
      rintro rfl
      apply crosses
      rw [abs_zero]
      norm_num
    have div_eq : rational.div rational.one rayDir = .ok (1/rayDir) := if_neg nonzero
    rw [div_eq]
    rfl

/-- The parameters at which a ray is between two parallel planes. -/
def between (min max rayOrigin rayDir : ℚ) : Set ℚ := {t | min ≤ rayOrigin+t*rayDir ∧ rayOrigin+t*rayDir ≤ max}

theorem between_crossing {min max rayDir : ℚ} (rayOrigin : ℚ) (ordered : min ≤ max) (nonzero : rayDir ≠ 0) :
    let t0 := (min-rayOrigin)*(1/rayDir)
    let t1 := (max-rayOrigin)*(1/rayDir)
    between min max rayOrigin rayDir = Set.Icc (t0 ⊓ t1) (t0 ⊔ t1) := by
  intro t0 t1
  have first : t0 = (min-rayOrigin)/rayDir := mul_one_div _ _
  have second : t1 = (max-rayOrigin)/rayDir := mul_one_div _ _
  ext t
  rcases lt_or_gt_of_ne nonzero with negative | positive
  · have swapped : t1 ≤ t0 := by
      rw [first,second]
      exact (div_le_div_right_of_neg negative).mpr (sub_le_sub_right ordered rayOrigin)
    rw [inf_eq_right.mpr swapped,sup_eq_left.mpr swapped,Set.mem_Icc,first,second,div_le_iff_of_neg negative,
      le_div_iff_of_neg negative]
    change _ ∧ _ ↔ _
    constructor
    · rintro ⟨low,high⟩
      exact ⟨by linarith,by linarith⟩
    · rintro ⟨high,low⟩
      exact ⟨by linarith,by linarith⟩
  · have straight : t0 ≤ t1 := by
      rw [first,second]
      exact (div_le_div_iff_of_pos_right positive).mpr (sub_le_sub_right ordered rayOrigin)
    rw [inf_eq_left.mpr straight,sup_eq_right.mpr straight,Set.mem_Icc,first,second,div_le_iff₀ positive,le_div_iff₀ positive]
    change _ ∧ _ ↔ _
    constructor
    · rintro ⟨low,high⟩
      exact ⟨by linarith,by linarith⟩
    · rintro ⟨low,high⟩
      exact ⟨by linarith,by linarith⟩

theorem cuts_rational {min max rayOrigin rayDir : ℚ} (ordered : min ≤ max) (exactly : rayDir = 0 ∨ 1/10^8 ≤ |rayDir|)
    {tMin tMax : ℚ} (some : tMin ≤ tMax) :
    Cuts id (slab rational min max rayOrigin rayDir tMin tMax) (between min max rayOrigin rayDir) tMin tMax := by
  rw [slab_rational]
  rcases exactly with rfl | large
  · have parallel : |(0 : ℚ)| < 1/10^8 := by
      rw [abs_zero]
      norm_num
    rw [if_pos parallel]
    refine ⟨_,_,_,rfl,?_⟩
    by_cases inside : min ≤ rayOrigin ∧ rayOrigin ≤ max
    · have all : between min max rayOrigin 0 = Set.univ := by
        ext t
        simp [between,inside]
      rw [if_pos (by simpa using inside),all,Set.inter_univ]
      exact ⟨some,rfl⟩
    · have nothing : between min max rayOrigin 0 = ∅ := by
        ext t
        simpa [between] using inside
      rw [if_neg (by simpa using inside),nothing,Set.inter_empty]
  · have nonzero : rayDir ≠ 0 := by
      rintro rfl
      rw [abs_zero] at large
      norm_num at large
    rw [if_neg (not_lt.mpr large),between_crossing rayOrigin ordered nonzero]
    exact cuts_narrowed (fun a b => decide_eq_true_iff) _ _ tMin tMax

theorem slabs_rational {Dim : Nat} (box : AABB Dim ℚ) (rayOrigin rayDir : Fin Dim → ℚ) (axes : List (Fin Dim)) (tMin tMax : ℚ) :
    ∃ outcome, slabs rational box rayOrigin rayDir axes tMin tMax = .ok outcome := by
  induction axes generalizing tMin tMax with
  | nil => exact ⟨_,rfl⟩
  | cons i axes ih =>
    obtain ⟨⟨goes,low,high⟩,passed⟩ : ∃ outcome, slab rational (box.min i) (box.max i) (rayOrigin i) (rayDir i) tMin tMax =
        .ok outcome := by
      rw [slab_rational]
      split <;> exact ⟨_,rfl⟩
    rw [slabs,passed]
    cases goes with
    | true => exact ih low high
    | false => exact ⟨_,rfl⟩

end Rational

section Int32

theorem checked_eq {n : Int} (fits : Fits n) : checked n = .ok (Int32.ofInt n) := if_pos fits

theorem checked_value {n : Int} (fits : Fits n) : (Int32.ofInt n).toInt = n := Int32.toInt_ofInt_of_le fits.1 fits.2

theorem checked_overflow {n : Int} (exceeds : ¬ Fits n) : checked n = .error signedOverflow := if_neg exceeds

theorem fits_toInt (x : Int32) : Fits x.toInt := ⟨x.le_toInt,x.toInt_lt⟩

/-- The ray crosses the slab of an axis without an overflow or a division by zero. -/
structure Crossable (min max rayOrigin rayDir : Int) : Prop where
  nonzero : rayDir ≠ 0
  negates : rayDir ≠ -2^31
  low : Fits (min-rayOrigin)
  high : Fits (max-rayOrigin)
  back : rayDir = -1 → Fits (rayOrigin-min) ∧ Fits (rayOrigin-max)

/-- The parameters that are taken for those in the slab: the reciprocal of a component beyond one is
truncated to zero. -/
def taken (min max rayOrigin rayDir : Int) : Set Int :=
  {t | if |rayDir| = 1 then min ≤ rayOrigin+t*rayDir ∧ rayOrigin+t*rayDir ≤ max else t = 0}

theorem one_tdiv {d : Int} (nonzero : d ≠ 0) :
    d = 1 ∧ Int.tdiv 1 d = 1 ∨ d = -1 ∧ Int.tdiv 1 d = -1 ∨ |d| ≠ 1 ∧ Int.tdiv 1 d = 0 := by
  rcases lt_trichotomy d 0 with negative | zero | positive
  · by_cases unit : d = -1
    · subst unit
      exact .inr (.inl ⟨rfl,rfl⟩)
    · have small : Int.tdiv 1 (-d) = 0 := Int.tdiv_eq_zero_of_lt (by decide) (by omega)
      rw [Int.tdiv_neg] at small
      exact .inr (.inr ⟨by rw [abs_of_neg negative]; omega,by omega⟩)
  · exact absurd zero nonzero
  · by_cases unit : d = 1
    · subst unit
      exact .inl ⟨rfl,rfl⟩
    · have small : Int.tdiv 1 d = 0 := Int.tdiv_eq_zero_of_lt (by decide) (by omega)
      exact .inr (.inr ⟨by rw [abs_of_pos positive]; omega,small⟩)

theorem fits_abs_iff (d : Int32) : Fits |d.toInt| ↔ d.toInt ≠ -2^31 := by
  have bounds := fits_toInt d
  unfold Fits at *
  rcases abs_cases d.toInt with ⟨same,_⟩ | ⟨same,_⟩ <;> rw [same] <;> omega

/-- One crossing of a slab: a difference, times the reciprocal. -/
theorem crossing_eq (x rayOrigin invD : Int32) (next : Int32 → Except Fault (Bool × Int32 × Int32)) :
    (do let t ← int32.mul (← int32.sub x rayOrigin) invD; next t) =
      if Fits (x.toInt-rayOrigin.toInt) ∧ Fits ((x.toInt-rayOrigin.toInt)*invD.toInt) then
        next (Int32.ofInt ((x.toInt-rayOrigin.toInt)*invD.toInt))
      else .error signedOverflow := by
  have sub_eq : int32.sub x rayOrigin = checked (x.toInt-rayOrigin.toInt) := rfl
  rw [sub_eq]
  by_cases first : Fits (x.toInt-rayOrigin.toInt)
  · have mul_eq : int32.mul (Int32.ofInt (x.toInt-rayOrigin.toInt)) invD = checked ((x.toInt-rayOrigin.toInt)*invD.toInt) := by
      change checked _ = _
      rw [checked_value first]
    rw [checked_eq first]
    change (do let t ← int32.mul (Int32.ofInt (x.toInt-rayOrigin.toInt)) invD; next t) = _
    rw [mul_eq]
    by_cases second : Fits ((x.toInt-rayOrigin.toInt)*invD.toInt)
    · rw [checked_eq second,if_pos ⟨first,second⟩]
      rfl
    · rw [checked_overflow second,if_neg (fun both => second both.2)]
      rfl
  · rw [checked_overflow first,if_neg (fun both => first both.1)]
    rfl

theorem slab_int32 (min max rayOrigin rayDir tMin tMax : Int32) :
    let invD := Int.tdiv 1 rayDir.toInt
    let low := min.toInt-rayOrigin.toInt
    let high := max.toInt-rayOrigin.toInt
    slab int32 min max rayOrigin rayDir tMin tMax =
      if rayDir = 0 then .error divisionByZero
      else if rayDir.toInt ≠ -2^31 ∧ (Fits low ∧ Fits (low*invD)) ∧ Fits high ∧ Fits (high*invD) then
        .ok (narrowed int32 (Int32.ofInt (low*invD)) (Int32.ofInt (high*invD)) tMin tMax)
      else .error signedOverflow := by
  intro invD low high
  have abs_eq : int32.abs rayDir = checked |rayDir.toInt| := rfl
  rw [slab,abs_eq]
  by_cases zero : rayDir = 0
  · subst zero
    rfl
  rw [if_neg zero]
  have nonzero : rayDir.toInt ≠ 0 := fun same => zero (Int32.toInt_inj.mp same)
  by_cases negates : rayDir.toInt ≠ -2^31
  · have fits := (fits_abs_iff rayDir).mpr negates
    have large : ¬ int32.less (Int32.ofInt |rayDir.toInt|) int32.eps = true := by
      change ¬ decide (Int32.ofInt |rayDir.toInt| < 0) = true
      rw [decide_eq_true_iff,Int32.lt_iff_toInt_lt,checked_value fits]
      exact not_lt.mpr (abs_nonneg _)
    have unit : Fits invD := by
      rcases one_tdiv nonzero with ⟨_,same⟩ | ⟨_,same⟩ | ⟨_,same⟩ <;> change Fits (Int.tdiv 1 rayDir.toInt) <;> rw [same] <;>
        decide
    have div_eq : int32.div int32.one rayDir = .ok (Int32.ofInt invD) := (if_neg zero).trans (checked_eq unit)
    rw [checked_eq fits]
    change (if int32.less (Int32.ofInt |rayDir.toInt|) int32.eps = true then _ else _) = _
    rw [if_neg large,div_eq]
    change (do
      let t0 ← int32.mul (← int32.sub min rayOrigin) (Int32.ofInt invD)
      let t1 ← int32.mul (← int32.sub max rayOrigin) (Int32.ofInt invD)
      pure (narrowed int32 t0 t1 tMin tMax)) = _
    rw [crossing_eq,crossing_eq,checked_value unit]
    by_cases first : Fits low ∧ Fits (low*invD)
    · by_cases second : Fits high ∧ Fits (high*invD)
      · rw [if_pos first,if_pos second,if_pos ⟨negates,first,second⟩]
        rfl
      · rw [if_pos first,if_neg second,if_neg (fun all => second all.2.2)]
    · rw [if_neg first,if_neg (fun all => first all.2.1)]
  · rw [checked_overflow (mt (fits_abs_iff rayDir).mp negates),if_neg (fun all => negates all.1)]
    rfl

theorem crossable_iff (min max rayOrigin rayDir : Int32) :
    Crossable min.toInt max.toInt rayOrigin.toInt rayDir.toInt ↔ rayDir ≠ 0 ∧ rayDir.toInt ≠ -2^31 ∧
      (Fits (min.toInt-rayOrigin.toInt) ∧ Fits ((min.toInt-rayOrigin.toInt)*Int.tdiv 1 rayDir.toInt)) ∧
      Fits (max.toInt-rayOrigin.toInt) ∧ Fits ((max.toInt-rayOrigin.toInt)*Int.tdiv 1 rayDir.toInt) := by
  have zero_iff : rayDir ≠ 0 ↔ rayDir.toInt ≠ 0 := not_congr Int32.toInt_inj.symm
  have zero_fits : Fits 0 := by decide
  constructor
  · rintro ⟨nonzero,negates,low,high,back⟩
    refine ⟨zero_iff.mpr nonzero,negates,⟨low,?_⟩,high,?_⟩
    all_goals rcases one_tdiv nonzero with ⟨_,same⟩ | ⟨unit,same⟩ | ⟨_,same⟩ <;> rw [same]
    · rwa [mul_one]
    · rw [mul_neg_one,neg_sub]
      exact (back unit).1
    · rwa [mul_zero]
    · rwa [mul_one]
    · rw [mul_neg_one,neg_sub]
      exact (back unit).2
    · rwa [mul_zero]
  · rintro ⟨nonzero,negates,⟨low,lowProduct⟩,high,highProduct⟩
    refine ⟨zero_iff.mp nonzero,negates,low,high,fun unit => ?_⟩
    rw [unit,show Int.tdiv 1 (-1) = -1 from rfl,mul_neg_one,neg_sub] at lowProduct highProduct
    exact ⟨lowProduct,highProduct⟩

theorem cuts_int32 {min max rayOrigin rayDir : Int32} (ordered : min.toInt ≤ max.toInt)
    (crosses : Crossable min.toInt max.toInt rayOrigin.toInt rayDir.toInt) (tMin tMax : Int32) :
    Cuts Int32.toInt (slab int32 min max rayOrigin rayDir tMin tMax)
      (taken min.toInt max.toInt rayOrigin.toInt rayDir.toInt) tMin tMax := by
  obtain ⟨nonzero,fits⟩ := (crossable_iff min max rayOrigin rayDir).mp crosses
  have less_iff (a b : Int32) : int32.less a b = true ↔ a.toInt < b.toInt := decide_eq_true_iff.trans Int32.lt_iff_toInt_lt
  have cut := cuts_narrowed less_iff (Int32.ofInt ((min.toInt-rayOrigin.toInt)*Int.tdiv 1 rayDir.toInt))
    (Int32.ofInt ((max.toInt-rayOrigin.toInt)*Int.tdiv 1 rayDir.toInt)) tMin tMax
  rw [checked_value fits.2.1.2,checked_value fits.2.2.2] at cut
  have same : taken min.toInt max.toInt rayOrigin.toInt rayDir.toInt =
      Set.Icc ((min.toInt-rayOrigin.toInt)*Int.tdiv 1 rayDir.toInt ⊓ (max.toInt-rayOrigin.toInt)*Int.tdiv 1 rayDir.toInt)
        ((min.toInt-rayOrigin.toInt)*Int.tdiv 1 rayDir.toInt ⊔ (max.toInt-rayOrigin.toInt)*Int.tdiv 1 rayDir.toInt) := by
    ext t
    rcases one_tdiv crosses.nonzero with ⟨unit,inverse⟩ | ⟨unit,inverse⟩ | ⟨wide,inverse⟩
    · rw [inverse,mul_one,mul_one,inf_eq_left.mpr (by omega),sup_eq_right.mpr (by omega),unit,Set.mem_Icc]
      simp only [taken,Set.mem_ofPred_eq,abs_one,if_true]
      omega
    · rw [inverse,mul_neg_one,mul_neg_one,inf_eq_right.mpr (by omega),sup_eq_left.mpr (by omega),unit,Set.mem_Icc]
      simp only [taken,Set.mem_ofPred_eq,abs_neg,abs_one,if_true]
      omega
    · rw [inverse,mul_zero,mul_zero,inf_idem,sup_idem,Set.Icc_self]
      simp only [taken,Set.mem_ofPred_eq,if_neg wide]
      exact Iff.rfl
  rw [slab_int32,if_neg nonzero,if_pos fits,same]
  exact cut

theorem slab_int32_fails {min max rayOrigin rayDir : Int32}
    (stuck : ¬ Crossable min.toInt max.toInt rayOrigin.toInt rayDir.toInt) (tMin tMax : Int32) :
    ∃ fault, slab int32 min max rayOrigin rayDir tMin tMax = .error fault := by
  rw [slab_int32]
  split
  · exact ⟨_,rfl⟩
  · rename_i nonzero
    rw [if_neg fun fits => stuck ((crossable_iff min max rayOrigin rayDir).mpr ⟨nonzero,fits⟩)]
    exact ⟨_,rfl⟩

theorem wrapping_abs (a : Int32) : (if a < 0 then -a else a) < 0 ↔ a.toInt = -2^31 := by
  have bounds := fits_toInt a
  unfold Fits at bounds
  have zero : (0 : Int32).toInt = 0 := rfl
  by_cases negative : a < 0
  · rw [if_pos negative,Int32.lt_iff_toInt_lt,Int32.toInt_neg,zero]
    rw [Int32.lt_iff_toInt_lt,zero] at negative
    by_cases least : a.toInt = -2^31
    · rw [least]
      decide
    · rw [Int.bmod_eq_of_le (by omega) (by omega)]
      omega
  · rw [if_neg negative]
    rw [Int32.lt_iff_toInt_lt,zero] at negative
    rw [Int32.lt_iff_toInt_lt,zero]
    omega

theorem slab_wrapping (min max rayOrigin rayDir tMin tMax : Int32) : slab wrapping min max rayOrigin rayDir tMin tMax =
    if rayDir = 0 then .error divisionByZero
    else if rayDir.toInt = -2^31 then .ok (!(decide (rayOrigin < min) || decide (max < rayOrigin)),tMin,tMax)
    else .ok (narrowed wrapping ((min-rayOrigin)*(1/rayDir)) ((max-rayOrigin)*(1/rayDir)) tMin tMax) := by
  have less_iff : wrapping.less (if rayDir < 0 then -rayDir else rayDir) wrapping.eps = true ↔ rayDir.toInt = -2^31 :=
    decide_eq_true_iff.trans (wrapping_abs rayDir)
  have abs_eq : wrapping.abs rayDir = .ok (if rayDir < 0 then -rayDir else rayDir) := rfl
  rw [slab,abs_eq]
  by_cases zero : rayDir = 0
  · subst zero
    rfl
  rw [if_neg zero]
  have div_eq : wrapping.div wrapping.one rayDir = .ok (1/rayDir) := if_neg zero
  change (if wrapping.less (if rayDir < 0 then -rayDir else rayDir) wrapping.eps = true then _ else _) = _
  by_cases least : rayDir.toInt = -2^31
  · rw [if_pos (less_iff.mpr least),if_pos least]
    rfl
  · rw [if_neg (mt less_iff.mp least),if_neg least,div_eq]
    rfl

/-- An integer in two's complement. -/
def wrapped (n : Int) : Int := n.bmod (2^32)

/-- The parameters that are taken for those in the slab where values wrap around: the least integer
has no absolute value, so that its axis is taken for a parallel one. -/
def takenWrapped (min max rayOrigin rayDir : Int) : Set Int :=
  if rayDir = -2^31 then {_t | min ≤ rayOrigin ∧ rayOrigin ≤ max}
  else if |rayDir| = 1 then Set.uIcc (wrapped ((min-rayOrigin)*rayDir)) (wrapped ((max-rayOrigin)*rayDir))
  else {0}

theorem crossing_wrapped (x rayOrigin : Int32) {rayDir : Int32} (nonzero : rayDir ≠ 0) :
    ((x-rayOrigin)*(1/rayDir)).toInt = if |rayDir.toInt| = 1 then wrapped ((x.toInt-rayOrigin.toInt)*rayDir.toInt) else 0 := by
  have one : (1 : Int32).toInt = 1 := rfl
  have inverse : (1/rayDir).toInt = Int.tdiv 1 rayDir.toInt := by
    rw [Int32.toInt_div_of_ne_left 1 rayDir (by decide),one]
  have nonzero' : rayDir.toInt ≠ 0 := fun same => nonzero (Int32.toInt_inj.mp same)
  have product : ((x-rayOrigin)*(1/rayDir)).toInt = wrapped ((x.toInt-rayOrigin.toInt)*Int.tdiv 1 rayDir.toInt) := by
    rw [Int32.toInt_mul,Int32.toInt_sub,inverse,Int.bmod_mul_bmod]
    rfl
  rw [product]
  rcases one_tdiv nonzero' with ⟨unit,same⟩ | ⟨unit,same⟩ | ⟨wide,same⟩
  · rw [same,unit]
    rfl
  · rw [same,unit]
    rfl
  · rw [same,if_neg wide,mul_zero]
    rfl

theorem cuts_wrapping (min max rayOrigin : Int32) {rayDir tMin tMax : Int32} (nonzero : rayDir ≠ 0) (some : tMin.toInt ≤ tMax.toInt) :
    Cuts Int32.toInt (slab wrapping min max rayOrigin rayDir tMin tMax)
      (takenWrapped min.toInt max.toInt rayOrigin.toInt rayDir.toInt) tMin tMax := by
  have less_iff (a b : Int32) : wrapping.less a b = true ↔ a.toInt < b.toInt := decide_eq_true_iff.trans Int32.lt_iff_toInt_lt
  rw [slab_wrapping,if_neg nonzero,takenWrapped]
  by_cases least : rayDir.toInt = -2^31
  · rw [if_pos least,if_pos least]
    refine ⟨_,_,_,rfl,?_⟩
    by_cases inside : min.toInt ≤ rayOrigin.toInt ∧ rayOrigin.toInt ≤ max.toInt
    · have all : {_t : Int | min.toInt ≤ rayOrigin.toInt ∧ rayOrigin.toInt ≤ max.toInt} = Set.univ := by
        ext t
        simp [inside]
      rw [if_pos (by simpa [Int32.le_iff_toInt_le] using inside),all,Set.inter_univ]
      exact ⟨some,rfl⟩
    · have nothing : {_t : Int | min.toInt ≤ rayOrigin.toInt ∧ rayOrigin.toInt ≤ max.toInt} = ∅ := by
        ext t
        simpa using inside
      rw [if_neg (by simpa [Int32.le_iff_toInt_le] using inside),nothing,Set.inter_empty]
  · have cut := cuts_narrowed less_iff ((min-rayOrigin)*(1/rayDir)) ((max-rayOrigin)*(1/rayDir)) tMin tMax
    rw [crossing_wrapped min rayOrigin nonzero,crossing_wrapped max rayOrigin nonzero] at cut
    rw [if_neg least,if_neg least]
    by_cases unit : |rayDir.toInt| = 1
    · simp only [if_pos unit] at cut ⊢
      exact cut
    · simpa only [if_neg unit,inf_idem,sup_idem,Set.Icc_self] using cut

theorem slab_wrapping_fails {rayDir : Int32} (zero : ¬ rayDir ≠ 0) (min max rayOrigin tMin tMax : Int32) :
    slab wrapping min max rayOrigin rayDir tMin tMax = .error divisionByZero := by
  rw [slab_wrapping,if_pos (not_not.mp zero)]

theorem slabs_wrapping_error {Dim : Nat} {box : AABB Dim Int32} {rayOrigin rayDir : Fin Dim → Int32} {axes : List (Fin Dim)}
    {tMin tMax : Int32} {fault : Fault} (ran : slabs wrapping box rayOrigin rayDir axes tMin tMax = .error fault) :
    fault = divisionByZero := by
  induction axes generalizing tMin tMax with
  | nil => cases ran
  | cons i axes ih =>
    rw [slabs] at ran
    rcases passed : slab wrapping (box.min i) (box.max i) (rayOrigin i) (rayDir i) tMin tMax with failed | ⟨goes,low,high⟩
    · rw [passed] at ran
      obtain rfl : failed = fault := Except.error.inj ran
      rw [slab_wrapping] at passed
      split_ifs at passed
      exact (Except.error.inj passed).symm
    · rw [passed] at ran
      cases goes with
      | false => cases ran
      | true => exact ih ran

section Axes
variable {Dim : Nat} (box : AABB Dim Int32) (rayOrigin rayDir : Fin Dim → Int32)

/-- An axis cannot be crossed, and all axes before it are, at one parameter. -/
def Stuck (crosses : Fin Dim → Prop) (parameters : Fin Dim → Set Int) : Prop :=
  ∃ i, ¬ crosses i ∧ (∀ j < i, crosses j) ∧ ∃ t : Int, 0 ≤ t ∧ t < 2^31 ∧ ∀ j < i, t ∈ parameters j

/-- The loop comes to an axis at which it divides by zero or a value overflows. -/
def Undefined : Prop :=
  Stuck (fun i => Crossable (box.min i).toInt (box.max i).toInt (rayOrigin i).toInt (rayDir i).toInt)
    fun i => taken (box.min i).toInt (box.max i).toInt (rayOrigin i).toInt (rayDir i).toInt

/-- The loop comes to an axis with a direction of zero, where values wrap around. -/
def DividesByZero : Prop :=
  Stuck (fun i => rayDir i ≠ 0) fun i => takenWrapped (box.min i).toInt (box.max i).toInt (rayOrigin i).toInt (rayDir i).toInt

end Axes

theorem front_iff {Dim : Nat} {front back : List (Fin Dim)} {i : Fin Dim} (split : List.finRange Dim = front ++ i::back)
    (j : Fin Dim) : j ∈ front ↔ j < i := by
  have sorted := List.pairwise_lt_finRange Dim
  rw [split,List.pairwise_append] at sorted
  obtain ⟨_,behind,across⟩ := sorted
  constructor
  · exact fun member => across j member i List.mem_cons_self
  · intro before
    have member : j ∈ front ++ i::back := split ▸ List.mem_finRange j
    rcases List.mem_append.mp member with here | here
    · exact here
    · rcases List.mem_cons.mp here with rfl | later
      · exact absurd before (lt_irrefl j)
      · exact absurd before (lt_asymm (List.rel_of_pairwise_cons behind later))

theorem stuck_iff {Dim : Nat} {crosses : Fin Dim → Prop} {parameters : Fin Dim → Set Int} :
    Stuck crosses parameters ↔ ∃ front i back, List.finRange Dim = front ++ i::back ∧ ¬ crosses i ∧ (∀ j ∈ front, crosses j) ∧
      ∃ t : Int, (0 : Int32).toInt ≤ t ∧ t ≤ Int32.maxValue.toInt ∧ ∀ j ∈ front, t ∈ parameters j := by
  have largest : Int32.maxValue.toInt = 2^31-1 := rfl
  have least : (0 : Int32).toInt = 0 := rfl
  constructor
  · rintro ⟨i,stuck,crossed,t,lower,upper,meets⟩
    obtain ⟨front,back,split⟩ := List.append_of_mem (List.mem_finRange i)
    exact ⟨front,i,back,split,stuck,fun j member => crossed j ((front_iff split j).mp member),t,by omega,by omega,
      fun j member => meets j ((front_iff split j).mp member)⟩
  · rintro ⟨front,i,back,split,stuck,crossed,t,lower,upper,meets⟩
    exact ⟨i,stuck,fun j before => crossed j ((front_iff split j).mpr before),t,by omega,by omega,
      fun j before => meets j ((front_iff split j).mpr before)⟩

theorem intersectsRay_undefined {Dim : Nat} (box : AABB Dim Int32) (valid : box.valid = true) (rayOrigin rayDir : Fin Dim → Int32) :
    (∃ fault, intersectsRay int32 box rayOrigin rayDir = .error fault) ↔ Undefined box rayOrigin rayDir := by
  have ordered (i : Fin Dim) : (box.min i).toInt ≤ (box.max i).toInt :=
    Int32.le_iff_toInt_le.mp ((valid_iff box).mp valid i)
  rw [intersectsRay,Undefined,stuck_iff]
  exact slabs_fails int32 Int32.toInt box rayOrigin rayDir _ _ (fun i crosses _ _ _ => cuts_int32 (ordered i) crosses _ _)
    (fun i stuck => slab_int32_fails stuck) _ (by decide)

theorem intersectsRay_divides {Dim : Nat} (box : AABB Dim Int32) (rayOrigin rayDir : Fin Dim → Int32) :
    intersectsRay wrapping box rayOrigin rayDir = .error divisionByZero ↔ DividesByZero box rayOrigin rayDir := by
  rw [DividesByZero,stuck_iff]
  refine Iff.trans ?_ (slabs_fails wrapping Int32.toInt box rayOrigin rayDir _ _ (fun i nonzero _ _ => cuts_wrapping _ _ _ nonzero)
    (fun i zero _ _ => ⟨_,slab_wrapping_fails zero _ _ _ _ _⟩) (List.finRange Dim) (by decide))
  constructor
  · exact fun ran => ⟨_,ran⟩
  · rintro ⟨fault,ran⟩
    exact slabs_wrapping_error ran ▸ ran

end Int32

/-- The ray is in the box at the parameter. -/
def Meets {Dim : Nat} (box : AABB Dim ℚ) (rayOrigin rayDir : Fin Dim → ℚ) (t : ℚ) : Prop :=
  0 ≤ t ∧ t ≤ rational.max ∧ box.contains (fun i => rayOrigin i+t*rayDir i) = true

/-- The test tells whether the ray meets the box, and leaves the interval of the parameters at which
it does. -/
def RayExact {Dim : Nat} (box : AABB Dim ℚ) (rayOrigin rayDir : Fin Dim → ℚ) : Prop :=
  ∃ hit tMin tMax, intersectsRay rational box rayOrigin rayDir = .ok (hit,tMin,tMax) ∧
    (hit = true ↔ ∃ t, Meets box rayOrigin rayDir t) ∧ (hit = true → ∀ t, tMin ≤ t ∧ t ≤ tMax ↔ Meets box rayOrigin rayDir t)

theorem rayExact {Dim : Nat} {box : AABB Dim ℚ} (valid : box.valid = true) {rayOrigin rayDir : Fin Dim → ℚ}
    (exactly : ∀ i, rayDir i = 0 ∨ 1/10^8 ≤ |rayDir i|) : RayExact box rayOrigin rayDir := by
  have ordered := (valid_iff box).mp valid
  have start : id rational.zero ≤ id rational.max := by
    change (0 : ℚ) ≤ (2^24-1)*2^104
    norm_num
  obtain ⟨hit,low,high,ran,cut⟩ := slabs_all rational id box rayOrigin rayDir
    (fun i => between (box.min i) (box.max i) (rayOrigin i) (rayDir i))
    (fun i _ _ some => cuts_rational (ordered i) (exactly i) some) start
  have meets (t : ℚ) : t ∈ Set.Icc (id rational.zero) (id rational.max) ∩
      {t | ∀ i, t ∈ between (box.min i) (box.max i) (rayOrigin i) (rayDir i)} ↔ Meets box rayOrigin rayDir t := by
    rw [Meets,contains_iff,← and_assoc]
    exact and_congr_right' forall_and
  refine ⟨hit,low,high,ran,?_⟩
  cases hit with
  | true =>
    obtain ⟨some,interval⟩ := cut
    have all (t : ℚ) : low ≤ t ∧ t ≤ high ↔ Meets box rayOrigin rayDir t := (Set.ext_iff.mp interval t).trans (meets t)
    exact ⟨iff_of_true rfl ⟨low,(all low).mp ⟨le_rfl,some⟩⟩,fun _ => all⟩
  | false =>
    refine ⟨iff_of_false Bool.false_ne_true ?_,fun hit => absurd hit Bool.false_ne_true⟩
    rintro ⟨t,met⟩
    exact (Set.ext_iff.mp cut t).mp ((meets t).mpr met)

/-- In exact numbers the test never divides by zero and is exact. In `int32_t` it divides by zero, or
overflows, exactly when the loop comes to an axis where it must; where values wrap around, it divides
by zero exactly when the loop comes to an axis along which the ray does not move. -/
theorem ray_test (Dim : Nat) :
    (∀ (box : AABB Dim ℚ) (rayOrigin rayDir : Fin Dim → ℚ), ∃ outcome, intersectsRay rational box rayOrigin rayDir = .ok outcome) ∧
    (∀ box : AABB Dim ℚ, box.valid = true → ∀ rayOrigin rayDir : Fin Dim → ℚ, (∀ i, rayDir i = 0 ∨ 1/10^8 ≤ |rayDir i|) →
      RayExact box rayOrigin rayDir) ∧
    ∀ box : AABB Dim Int32, box.valid = true → ∀ rayOrigin rayDir : Fin Dim → Int32,
      ((∀ fault, intersectsRay int32 box rayOrigin rayDir ≠ .error fault) ↔ ¬ Undefined box rayOrigin rayDir) ∧
      (intersectsRay wrapping box rayOrigin rayDir ≠ .error divisionByZero ↔ ¬ DividesByZero box rayOrigin rayDir) := by
  refine ⟨fun box rayOrigin rayDir => slabs_rational box rayOrigin rayDir _ _ _,fun _ valid _ _ exactly => rayExact valid exactly,
    fun box valid rayOrigin rayDir => ⟨?_,not_congr (intersectsRay_divides box rayOrigin rayDir)⟩⟩
  rw [← intersectsRay_undefined box valid rayOrigin rayDir,not_exists]

theorem ray_test_diagonal : RayExact (⟨fun _ => 1,fun _ => 2⟩ : AABB 2 ℚ) (fun _ => 0) (fun _ => 1/2) ∧
    intersectsRay wrapping (⟨fun _ => 1,fun _ => 2⟩ : AABB 2 Int32) (fun _ => 0) (fun _ => 1) ≠ .error divisionByZero ∧
    Undefined (⟨fun _ => -1,fun _ => 1⟩ : AABB 2 Int32) (fun _ => 0) (fun i => if i = 0 then Int32.minValue else 0) ∧
    DividesByZero (⟨fun _ => -1,fun _ => 1⟩ : AABB 2 Int32) (fun _ => 0) (fun i => if i = 0 then Int32.minValue else 0) := by
  obtain ⟨_,rational,int32⟩ := ray_test 2
  obtain ⟨undefined,divides⟩ := int32 ⟨fun _ => -1,fun _ => 1⟩ (by decide) (fun _ => 0) (fun i => if i = 0 then Int32.minValue else 0)
  refine ⟨rational _ ((valid_iff _).mpr fun _ => by norm_num) _ _ fun _ => .inr (by norm_num),
    (int32 _ (by decide) _ _).2.mpr ?_,?_,?_⟩
  · rintro ⟨_,zero,_⟩
    exact zero (show (1 : Int32) ≠ 0 by decide)
  · exact not_not.mp (mt undefined.mpr fun defined => defined signedOverflow (by decide))
  · exact not_not.mp (mt divides.mpr fun apart => apart (by decide))

/-- A ray through the origin along the second of two axes: the reciprocal of its first component is
computed. -/
theorem axis_ray_divides : (⟨fun _ => -1,fun _ => 1⟩ : AABB 2 Int32).valid = true ∧
    intersectsRay int32 (⟨fun _ => -1,fun _ => 1⟩ : AABB 2 Int32) (fun _ => 0) (fun i => if i = 0 then 0 else 1) =
      .error divisionByZero ∧
    intersectsRay wrapping (⟨fun _ => -1,fun _ => 1⟩ : AABB 2 Int32) (fun _ => 0) (fun i => if i = 0 then 0 else 1) =
      .error divisionByZero := by decide

end AABB

end AtlasNet
