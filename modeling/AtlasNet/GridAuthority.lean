import AtlasNet.Bounds
import AtlasNet.Foundation.Table
import Mathlib.Data.Rat.Defs
import Mathlib.Algebra.Order.Ring.Rat
import Mathlib.Algebra.Order.Field.Basic
import Mathlib.Tactic.Linarith
import Mathlib.Tactic.NormNum
import Mathlib.Tactic.FieldSimp

/-! Which bound has a position: the closed box that a shard tests, and the first
box that the routing query meets. Positions are exact rationals. -/
namespace AtlasNet
open Foundation

namespace AABB3f

/-- The number that a finite bit pattern stands for. -/
def value (bits : UInt32) : ℚ :=
  let exponent : ℕ := bits.toNat / 2^23 % 256
  let fraction : ℕ := bits.toNat % 2^23
  let magnitude : ℚ := if exponent = 0 then (fraction : ℚ)/2^149 else ((2^23+fraction : ℕ) : ℚ)*2^exponent/2^150
  if 2^31 ≤ bits.toNat then -magnitude else magnitude

def contains (aabb : AABB3f) (p : ℚ × ℚ × ℚ) : Bool :=
  if p.1 < value aabb.min.1 ∨ p.1 > value aabb.max.1 then false
  else if p.2.1 < value aabb.min.2.1 ∨ p.2.1 > value aabb.max.2.1 then false
  else if p.2.2 < value aabb.min.2.2 ∨ p.2.2 > value aabb.max.2.2 then false
  else true

theorem whole_toNat (n : Int) (some : n ≠ 0) (small : n.natAbs < 2^24) :
    (whole n).toNat = (if n < 0 then 2^31 else 0)+(127+n.natAbs.log2)*2^23+
      (n.natAbs*2^(23-n.natAbs.log2)-2^23) ∧
      n.natAbs.log2 ≤ 23 ∧ 2^23 ≤ n.natAbs*2^(23-n.natAbs.log2) ∧ n.natAbs*2^(23-n.natAbs.log2) < 2^24 := by
  have positive : n.natAbs ≠ 0 := Int.natAbs_ne_zero.mpr some
  have below := Nat.log2_self_le positive
  have above : n.natAbs < 2^(n.natAbs.log2+1) := Nat.lt_log2_self
  have top : n.natAbs.log2 ≤ 23 := by
    have less : n.natAbs.log2 < 24 := (Nat.log2_lt positive).mpr small
    omega
  have low : 2^23 ≤ n.natAbs*2^(23-n.natAbs.log2) := by
    calc 2^23 = 2^n.natAbs.log2*2^(23-n.natAbs.log2) := by rw [← Nat.pow_add,Nat.add_sub_cancel' top]
      _ ≤ n.natAbs*2^(23-n.natAbs.log2) := Nat.mul_le_mul_right _ below
  have high : n.natAbs*2^(23-n.natAbs.log2) < 2^24 := by
    calc n.natAbs*2^(23-n.natAbs.log2) < 2^(n.natAbs.log2+1)*2^(23-n.natAbs.log2) :=
          Nat.mul_lt_mul_of_pos_right above (Nat.two_pow_pos _)
      _ = 2^24 := by
        rw [← Nat.pow_add]
        congr 1
        omega
  refine ⟨?_,top,low,high⟩
  rw [whole,if_neg some,UInt32.toNat_ofNat',Nat.mod_eq_of_lt]
  split <;> omega

theorem value_whole (n : Int) (small : n.natAbs < 2^24) : value (whole n) = n := by
  by_cases some : n = 0
  · subst some
    simp [whole,value]
  obtain ⟨bits,top,low,high⟩ := whole_toNat n some small
  set digits := n.natAbs*2^(23-n.natAbs.log2) with scaled
  have exponent : (whole n).toNat / 2^23 % 256 = 127+n.natAbs.log2 := by
    rw [bits]
    split <;> omega
  have fraction : (whole n).toNat % 2^23 = digits-2^23 := by
    rw [bits]
    split <;> omega
  have sign : 2^31 ≤ (whole n).toNat ↔ n < 0 := by
    rw [bits]
    split <;> omega
  have scale : (digits : ℚ)*2^(127+n.natAbs.log2)/2^150 = n.natAbs := by
    have shift : (2 : ℚ)^150 = 2^(23-n.natAbs.log2)*2^(127+n.natAbs.log2) := by
      rw [← pow_add]
      congr 1
      omega
    rw [shift,scaled,Nat.cast_mul,Nat.cast_pow,Nat.cast_ofNat]
    field_simp
  have sum : 2^23+(digits-2^23) = digits := Nat.add_sub_cancel' low
  have normal : ¬ 127+n.natAbs.log2 = 0 := by omega
  simp only [value,exponent,fraction,sum,normal,if_false,scale]
  rw [Nat.cast_natAbs]
  split
  · rename_i negative
    rw [abs_of_neg (sign.mp negative),Int.cast_neg,neg_neg]
  · rename_i positive
    rw [abs_of_nonneg (not_lt.mp (mt sign.mpr positive))]

theorem contains_iff (aabb : AABB3f) (p : ℚ × ℚ × ℚ) : aabb.contains p = true ↔
    (value aabb.min.1 ≤ p.1 ∧ p.1 ≤ value aabb.max.1) ∧ (value aabb.min.2.1 ≤ p.2.1 ∧ p.2.1 ≤ value aabb.max.2.1) ∧
      value aabb.min.2.2 ≤ p.2.2 ∧ p.2.2 ≤ value aabb.max.2.2 := by
  unfold contains
  split
  · rename_i outside
    exact ⟨fun no => (Bool.false_ne_true no).elim,fun inside => absurd outside (by
      simpa only [gt_iff_lt,not_or,not_lt] using inside.1)⟩
  split
  · rename_i outside
    exact ⟨fun no => (Bool.false_ne_true no).elim,fun inside => absurd outside (by
      simpa only [gt_iff_lt,not_or,not_lt] using inside.2.1)⟩
  split
  · rename_i outside
    exact ⟨fun no => (Bool.false_ne_true no).elim,fun inside => absurd outside (by
      simpa only [gt_iff_lt,not_or,not_lt] using inside.2.2)⟩
  · rename_i x y z
    simp only [gt_iff_lt,not_or,not_lt] at x y z
    exact ⟨fun _ => ⟨x,y,z⟩,fun _ => rfl⟩

end AABB3f

def GridShape.Contains (s : GridShape) (p : ℚ × ℚ × ℚ) : Bool := s.aabb.contains p

namespace GridHeuristic

def QueryPosition (h : GridHeuristic) (p : ℚ × ℚ × ℚ) : Option GridShape :=
  Table.find (fun shape => shape.aabb.contains p) h.quads

/-- The box that the four quads cover. -/
def Covered (p : ℚ × ℚ × ℚ) : Prop :=
  (-100 ≤ p.1 ∧ p.1 ≤ 100) ∧ (-100 ≤ p.2.1 ∧ p.2.1 ≤ 100) ∧ -5 ≤ p.2.2 ∧ p.2.2 ≤ 5

/-- A quad is the part of the covered box on its side of the two axes. -/
theorem quad_contains_iff (i : Nat) (p : ℚ × ℚ × ℚ) : (quad i).Contains p = true ↔
    Covered p ∧ (if i % 2 ≠ 0 then 0 ≤ p.1 else p.1 ≤ 0) ∧ if i / 2 ≠ 0 then 0 ≤ p.2.1 else p.2.1 ≤ 0 := by
  -- the corners are whole, so their bit patterns stand for them
  have axis (upper : Prop) [Decidable upper] (x : ℚ) :
      (AABB3f.value (AABB3f.whole ((if upper then 1 else -1)*50-50)) ≤ x ∧
        x ≤ AABB3f.value (AABB3f.whole ((if upper then 1 else -1)*50+50))) ↔
      (-100 ≤ x ∧ x ≤ 100) ∧ if upper then 0 ≤ x else x ≤ 0 := by
    rw [AABB3f.value_whole _ (by split <;> decide),AABB3f.value_whole _ (by split <;> decide)]
    by_cases positive : upper
    · norm_num [positive]
      constructor
      · rintro ⟨low,high⟩
        exact ⟨⟨by linarith,high⟩,low⟩
      · rintro ⟨⟨_,high⟩,low⟩
        exact ⟨low,high⟩
    · norm_num [positive]
      exact fun high _ => by linarith
  have height : (AABB3f.value (AABB3f.whole (0-5)) ≤ p.2.2 ∧ p.2.2 ≤ AABB3f.value (AABB3f.whole (0+5))) ↔
      -5 ≤ p.2.2 ∧ p.2.2 ≤ 5 := by
    rw [AABB3f.value_whole _ (by decide),AABB3f.value_whole _ (by decide)]
    norm_num
  have box := AABB3f.contains_iff (quad i).aabb p
  have x := axis (i % 2 ≠ 0) p.1
  have y := axis (i / 2 ≠ 0) p.2.1
  unfold GridShape.Contains Covered
  rw [box]
  constructor
  · rintro ⟨inX,inY,inZ⟩
    obtain ⟨wide,sideX⟩ := x.mp inX
    obtain ⟨long,sideY⟩ := y.mp inY
    exact ⟨⟨wide,long,height.mp inZ⟩,sideX,sideY⟩
  · rintro ⟨⟨wide,long,inZ⟩,sideX,sideY⟩
    exact ⟨x.mpr ⟨wide,sideX⟩,y.mpr ⟨long,sideY⟩,height.mpr inZ⟩

theorem mem_quads (h : GridHeuristic) (b : GridShape) : b ∈ h.Compute.quads ↔ ∃ i < 4, quad i = b := by
  simp [Compute]

theorem quads_sorted (h : GridHeuristic) : h.Compute.quads.Pairwise (fun a b => a.ID < b.ID) := by
  change [quad 0,quad 1,quad 2,quad 3].Pairwise _
  simp [quad]

theorem covered_iff (h : GridHeuristic) (p : ℚ × ℚ × ℚ) :
    Covered p ↔ ∃ b ∈ h.Compute.quads, b.Contains p = true := by
  constructor
  · intro covered
    rcases le_total p.1 0 with left | right <;> rcases le_total p.2.1 0 with lower | upper
    · exact ⟨quad 0,(mem_quads h _).mpr ⟨0,by decide,rfl⟩,(quad_contains_iff 0 p).mpr ⟨covered,left,lower⟩⟩
    · exact ⟨quad 2,(mem_quads h _).mpr ⟨2,by decide,rfl⟩,(quad_contains_iff 2 p).mpr ⟨covered,left,upper⟩⟩
    · exact ⟨quad 1,(mem_quads h _).mpr ⟨1,by decide,rfl⟩,(quad_contains_iff 1 p).mpr ⟨covered,right,lower⟩⟩
    · exact ⟨quad 3,(mem_quads h _).mpr ⟨3,by decide,rfl⟩,(quad_contains_iff 3 p).mpr ⟨covered,right,upper⟩⟩
  · rintro ⟨b,member,inside⟩
    obtain ⟨i,_,rfl⟩ := (mem_quads h b).mp member
    exact ((quad_contains_iff i p).mp inside).1

def Shared (p : ℚ × ℚ × ℚ) : Prop := p.1 = 0 ∨ p.2.1 = 0

theorem shared_twice (h : GridHeuristic) {p : ℚ × ℚ × ℚ} (covered : Covered p) (shared : Shared p) :
    ∃ a ∈ h.Compute.quads, ∃ b ∈ h.Compute.quads, a.Contains p = true ∧ b.Contains p = true ∧ a.ID < b.ID := by
  have inside (i : Nat) (few : i < 4) : quad i ∈ h.Compute.quads := (mem_quads h _).mpr ⟨i,few,rfl⟩
  rcases shared with middle | middle
  · rcases le_total p.2.1 0 with lower | upper
    · exact ⟨_,inside 0 (by decide),_,inside 1 (by decide),(quad_contains_iff 0 p).mpr ⟨covered,middle.le,lower⟩,
        (quad_contains_iff 1 p).mpr ⟨covered,middle.ge,lower⟩,by decide⟩
    · exact ⟨_,inside 2 (by decide),_,inside 3 (by decide),(quad_contains_iff 2 p).mpr ⟨covered,middle.le,upper⟩,
        (quad_contains_iff 3 p).mpr ⟨covered,middle.ge,upper⟩,by decide⟩
  · rcases le_total p.1 0 with left | right
    · exact ⟨_,inside 0 (by decide),_,inside 2 (by decide),(quad_contains_iff 0 p).mpr ⟨covered,left,middle.le⟩,
        (quad_contains_iff 2 p).mpr ⟨covered,left,middle.ge⟩,by decide⟩
    · exact ⟨_,inside 1 (by decide),_,inside 3 (by decide),(quad_contains_iff 1 p).mpr ⟨covered,right,middle.le⟩,
        (quad_contains_iff 3 p).mpr ⟨covered,right,middle.ge⟩,by decide⟩

theorem contained_once (h : GridHeuristic) {p : ℚ × ℚ × ℚ} (apart : ¬ Shared p) :
    ∀ a ∈ h.Compute.quads, ∀ b ∈ h.Compute.quads, a.Contains p = true → b.Contains p = true → a = b := by
  intro a first b second inA inB
  obtain ⟨i,small,rfl⟩ := (mem_quads h a).mp first
  obtain ⟨j,few,rfl⟩ := (mem_quads h b).mp second
  obtain ⟨_,xA,yA⟩ := (quad_contains_iff i p).mp inA
  obtain ⟨_,xB,yB⟩ := (quad_contains_iff j p).mp inB
  obtain ⟨offX,offY⟩ := not_or.mp apart
  have column : i % 2 ≠ 0 ↔ j % 2 ≠ 0 := by
    by_contra differ
    apply offX
    split at xA <;> split at xB <;> first | exact le_antisymm xA xB | exact le_antisymm xB xA | exact absurd (by tauto) differ
  have row : i / 2 ≠ 0 ↔ j / 2 ≠ 0 := by
    by_contra differ
    apply offY
    split at yA <;> split at yB <;> first | exact le_antisymm yA yB | exact le_antisymm yB yA | exact absurd (by tauto) differ
  congr 1
  omega

theorem agrees_iff (h : GridHeuristic) (p : ℚ × ℚ × ℚ) :
    (∀ b ∈ h.Compute.quads, b.Contains p = true ↔ h.Compute.QueryPosition p = some b) ↔ ¬ (Covered p ∧ Shared p) := by
  have scan := Table.find_agrees_iff (fun shape : GridShape => shape.aabb.contains p) h.Compute.quads
  refine scan.trans ⟨?_,fun apart => ?_⟩
  · rintro unique ⟨covered,shared⟩
    obtain ⟨a,first,b,second,inA,inB,less⟩ := shared_twice h covered shared
    exact absurd (congrArg GridShape.ID (unique a first b second inA inB)) (UInt32.ne_of_lt less)
  · intro a first b second inA inB
    have covered : Covered p := (covered_iff h p).mpr ⟨a,first,inA⟩
    exact contained_once h (fun shared => apart ⟨covered,shared⟩) a first b second inA inB

/-- The query names the first of the bounds that contain a position, and some bound does
inside the covered box only. A shard's own test agrees with the query on every bound
exactly off the shared faces, and there a covered position is in one bound. -/
theorem authority (h : GridHeuristic) (p : ℚ × ℚ × ℚ) :
    (∀ b, h.Compute.QueryPosition p = some b ↔ b ∈ h.Compute.quads ∧ b.Contains p = true ∧
      ∀ other ∈ h.Compute.quads, other.Contains p = true → b.ID ≤ other.ID) ∧
    (Covered p ↔ ∃ b ∈ h.Compute.quads, b.Contains p = true) ∧
    ((∀ b ∈ h.Compute.quads, b.Contains p = true ↔ h.Compute.QueryPosition p = some b) ↔
      ¬ (Covered p ∧ Shared p)) ∧
    (Covered p → ¬ Shared p → ∃! b, b ∈ h.Compute.quads ∧ b.Contains p = true) := by
  have first := Table.find_iff_least (fun shape : GridShape => shape.ID.toNat)
    (fun shape => shape.aabb.contains p) (quads_sorted h)
  refine ⟨first,covered_iff h p,agrees_iff h p,?_⟩
  intro covered apart
  obtain ⟨b,member,inside⟩ := (covered_iff h p).mp covered
  exact ⟨b,⟨member,inside⟩,fun other found => contained_once h apart _ found.1 _ member found.2 inside⟩

/-- Bound 3 contains a position of the face between it and bound 2, which the query names. -/
theorem shared_face_disagrees : ¬ ∀ (p : ℚ × ℚ × ℚ), ∀ b ∈ (Compute {}).quads,
    b.Contains p = true ↔ (Compute {}).QueryPosition p = some b := by
  intro agrees
  have off := (agrees_iff {} (0,10,0)).mp (agrees (0,10,0))
  exact off ⟨by norm_num [Covered],.inl rfl⟩

end GridHeuristic

end AtlasNet
