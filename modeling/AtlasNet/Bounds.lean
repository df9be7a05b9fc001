import AtlasNet.ByteStream

/-! Bounds and the grid heuristic that makes them. Coordinates are the bit
patterns of `float`; the ones `Compute` makes are whole numbers. -/
namespace AtlasNet
open Foundation Foundation.Program

abbrev BoundsID := UInt32

abbrev Vec3 := UInt32 × UInt32 × UInt32

structure AABB3f where
  min : Vec3 := (0,0,0)
  max : Vec3 := (0,0,0)
deriving DecidableEq

namespace AABB3f

def Serialize (aabb : AABB3f) (bw : ByteWriter) : ByteWriter := (bw.vec3 aabb.min).vec3 aabb.max

def Deserialize : Program ByteReader AABB3f := do
  let min ← ByteReader.vec3
  let max ← ByteReader.vec3
  pure ⟨min,max⟩

/-- The bit pattern of a whole number below 2^24. -/
def whole (n : Int) : UInt32 :=
  if n = 0 then 0
  else UInt32.ofNat ((if n < 0 then 2^31 else 0)+(127+n.natAbs.log2)*2^23+
    (n.natAbs*2^(23-n.natAbs.log2)-2^23))

theorem roundTrips (aabb : AABB3f) : RoundTrips aabb.Serialize Deserialize aabb := by
  have last := roundTrips_map (fun max => (⟨aabb.min,max⟩ : AABB3f)) (roundTrips_vec3 aabb.max)
  have whole := roundTrips_bind _ (fun min => do return (⟨min,← ByteReader.vec3⟩ : AABB3f))
    (roundTrips_vec3 aabb.min) last
  exact whole

def point (v : Int × Int × Int) : Vec3 := (whole v.1,whole v.2.1,whole v.2.2)

def FromCenterExtents (center halfExtents : Int × Int × Int) : AABB3f :=
  ⟨point (center-halfExtents),point (center+halfExtents)⟩

end AABB3f

structure GridShape where
  ID : BoundsID
  aabb : AABB3f := {}
deriving DecidableEq

namespace GridShape

def Serialize (s : GridShape) (bw : ByteWriter) : ByteWriter := s.aabb.Serialize (bw.u32 s.ID)

def Deserialize : Program ByteReader GridShape := do
  let ID ← ByteReader.u32
  let aabb ← AABB3f.Deserialize
  pure ⟨ID,aabb⟩

theorem roundTrips (s : GridShape) : RoundTrips s.Serialize Deserialize s := by
  have last := roundTrips_map (fun aabb => (⟨s.ID,aabb⟩ : GridShape)) (AABB3f.roundTrips s.aabb)
  have whole := roundTrips_bind _ (fun ID => do return (⟨ID,← AABB3f.Deserialize⟩ : GridShape))
    (roundTrips_u32 s.ID) last
  exact whole

theorem Serialize_append (s : GridShape) (bw : ByteWriter) :
    (s.Serialize bw).buf = bw.buf ++ (s.Serialize {}).buf := by
  obtain ⟨bytes,wrote,_⟩ := roundTrips s
  rw [wrote bw,wrote {}]
  rfl

theorem Serialize_nonempty (s : GridShape) (bw : ByteWriter) : (s.Serialize bw).buf ≠ [] := by
  simp [Serialize,AABB3f.Serialize,ByteWriter.vec3,ByteWriter.f32,ByteWriter.u32,ByteWriter.push_be,
    ByteWriter.write,BigEndian.encode]

end GridShape

structure GridHeuristic where
  quads : List GridShape := []

abbrev Writers := List (BoundsID × ByteWriter)

namespace GridHeuristic

/-- `options.GridSize`, which nothing changes. -/
def GridSize : Int × Int := (100,100)

def quad (i : Nat) : GridShape where
  ID := UInt32.ofNat i
  aabb := .FromCenterExtents ((if i % 2 ≠ 0 then 1 else -1)*50,(if i / 2 ≠ 0 then 1 else -1)*50,0)
    (GridSize.1/2,GridSize.2/2,5)

/-- `Compute` reads none of the entities. -/
def Compute (_ : GridHeuristic) : GridHeuristic := ⟨(List.range 4).map quad⟩

def Serialize (h : GridHeuristic) (bw : ByteWriter) : ByteWriter :=
  h.quads.foldl (fun bw quad => quad.Serialize bw) (bw.u64 (UInt64.ofNat h.quads.length))

/-- One turn of `SerializeBounds`: `emplace` keeps the writer an ID already has,
and the shape is written behind what that one holds. -/
def emplaced (quad : GridShape) : Writers → Writers
  | [] => [(quad.ID,quad.Serialize {})]
  | (ID,writer)::rest =>
    if ID = quad.ID then (ID,quad.Serialize writer)::rest else (ID,writer)::emplaced quad rest

/-- The writers by ID; an iteration over them may take any order. -/
def SerializeBounds (h : GridHeuristic) : Writers :=
  h.quads.foldl (fun bws quad => emplaced quad bws) []

theorem emplaced_ids (quad : GridShape) (bws : Writers) :
    (emplaced quad bws).map (·.1) =
      if quad.ID ∈ bws.map (·.1) then bws.map (·.1) else bws.map (·.1) ++ [quad.ID] := by
  induction bws with
  | nil => rfl
  | cons entry rest ih =>
    by_cases same : entry.1 = quad.ID
    · simp [emplaced,same]
    · simp only [emplaced,same,if_false,List.map_cons,ih,List.mem_cons,Ne.symm same,false_or]
      split <;> rfl

theorem emplaced_distinct (quad : GridShape) (bws : Writers) (distinct : (bws.map (·.1)).Nodup) :
    ((emplaced quad bws).map (·.1)).Nodup := by
  rw [emplaced_ids]
  split
  · exact distinct
  · rename_i absent
    rw [List.nodup_append]
    exact ⟨distinct,by simp,fun a member b single => by
      rw [List.mem_singleton.mp single]
      exact fun same => absent (same ▸ member)⟩

theorem emplaced_known {quads : List GridShape} {quad : GridShape} {bws : Writers} (known : ∀ other ∈ quads, other.ID ∈ bws.map (·.1)) :
    ∀ other ∈ quads ++ [quad], other.ID ∈ (emplaced quad bws).map (·.1) := by
  intro other member
  rw [emplaced_ids]
  rcases List.mem_append.mp member with inside | last
  · split
    · exact known other inside
    · exact List.mem_append_left _ (known other inside)
  · rw [List.mem_singleton.mp last]
    split
    · assumption
    · exact List.mem_append_right _ List.mem_cons_self

theorem SerializeBounds_distinct (h : GridHeuristic) : (h.SerializeBounds.map (·.1)).Nodup := by
  suffices general : ∀ (quads : List GridShape) (bws : Writers), (bws.map (·.1)).Nodup →
      ((quads.foldl (fun bws quad => emplaced quad bws) bws).map (·.1)).Nodup from
    general h.quads [] List.nodup_nil
  intro quads
  induction quads with
  | nil => exact fun _ distinct => distinct
  | cons quad quads ih => exact fun bws distinct => ih _ (emplaced_distinct quad bws distinct)

/-- The first shape of an ID stands first in the writer of that ID. -/
def Begins (quads : List GridShape) (w : BoundsID × ByteWriter) : Prop :=
  ∃ shape rest, quads.find? (fun quad => quad.ID = w.1) = some shape ∧ w.2.buf = (shape.Serialize {}).buf ++ rest

theorem emplaced_begins (quads : List GridShape) (quad : GridShape) (bws : Writers)
    (before : ∀ w ∈ bws, Begins quads w) (known : ∀ other ∈ quads, other.ID ∈ bws.map (·.1)) :
    ∀ w ∈ emplaced quad bws, Begins (quads ++ [quad]) w := by
  have kept : ∀ w, Begins quads w → Begins (quads ++ [quad]) w := by
    rintro w ⟨shape,rest,found,bytes⟩
    exact ⟨shape,rest,by rw [List.find?_append,found]; rfl,bytes⟩
  have fresh : quad.ID ∉ bws.map (·.1) → Begins (quads ++ [quad]) (quad.ID,quad.Serialize {}) := by
    intro absent
    have none : quads.find? (fun other => other.ID = quad.ID) = none := by
      apply List.find?_eq_none.mpr
      intro other member same
      exact absent (of_decide_eq_true same ▸ known other member)
    exact ⟨quad,[],by rw [List.find?_append,none]; simp,by simp⟩
  clear known
  induction bws with
  | nil =>
    intro w member
    rw [List.mem_singleton.mp member]
    exact fresh (by simp)
  | cons entry rest ih =>
    intro w member
    rw [emplaced] at member
    split at member
    · rename_i same
      rcases List.mem_cons.mp member with rfl | inside
      · obtain ⟨shape,tail,found,bytes⟩ := kept entry (before entry (by simp))
        refine ⟨shape,tail ++ (quad.Serialize {}).buf,by simpa [same] using found,?_⟩
        rw [quad.Serialize_append,bytes,List.append_assoc]
      · exact kept w (before w (by simp [inside]))
    · rename_i different
      rcases List.mem_cons.mp member with rfl | inside
      · exact kept _ (before _ (by simp))
      · exact ih (fun o inner => before o (by simp [inner]))
          (fun absent => fresh (by simpa [Ne.symm different] using absent)) w inside

theorem SerializeBounds_begins (h : GridHeuristic) : ∀ w ∈ h.SerializeBounds, Begins h.quads w := by
  suffices general : ∀ (quads earlier : List GridShape) (bws : Writers), (∀ w ∈ bws, Begins earlier w) →
      (∀ other ∈ earlier, other.ID ∈ bws.map (·.1)) →
      ∀ w ∈ quads.foldl (fun bws quad => emplaced quad bws) bws, Begins (earlier ++ quads) w from
    general h.quads [] [] (fun _ member => absurd member List.not_mem_nil)
      (fun _ member => absurd member List.not_mem_nil)
  intro quads
  induction quads with
  | nil => exact fun earlier bws before _ => by simpa using before
  | cons quad quads ih =>
    intro earlier bws before known
    have next := ih (earlier ++ [quad]) (emplaced quad bws) (emplaced_begins earlier quad bws before known)
    rw [List.append_assoc] at next
    apply next
    exact emplaced_known known

/-- The writer of an ID holds all shapes of that ID, in their order. -/
def Collects (quads : List GridShape) (w : BoundsID × ByteWriter) : Prop :=
  w.2.buf = (quads.filter (·.ID = w.1)).flatMap fun quad => (quad.Serialize {}).buf

theorem emplaced_collects (quads : List GridShape) (quad : GridShape) (bws : Writers) (distinct : (bws.map (·.1)).Nodup)
    (before : ∀ w ∈ bws, Collects quads w) (known : ∀ other ∈ quads, other.ID ∈ bws.map (·.1)) :
    ∀ w ∈ emplaced quad bws, Collects (quads ++ [quad]) w := by
  have kept (w : BoundsID × ByteWriter) (collects : Collects quads w) (different : w.1 ≠ quad.ID) : Collects (quads ++ [quad]) w := by
    rw [Collects,List.filter_append,List.filter_cons_of_neg (by simpa using Ne.symm different),List.filter_nil,List.append_nil]
    exact collects
  have fresh (absent : quad.ID ∉ bws.map (·.1)) : Collects (quads ++ [quad]) (quad.ID,quad.Serialize {}) := by
    have none : quads.filter (·.ID = quad.ID) = [] := by
      apply List.filter_eq_nil_iff.mpr
      intro other member same
      exact absent (of_decide_eq_true same ▸ known other member)
    rw [Collects,List.filter_append,none]
    simp
  clear known
  induction bws with
  | nil =>
    intro w member
    rw [List.mem_singleton.mp member]
    exact fresh List.not_mem_nil
  | cons entry rest ih =>
    obtain ⟨alone,distinct⟩ := List.nodup_cons.mp distinct
    intro w member
    rw [emplaced] at member
    split at member
    · rename_i same
      rcases List.mem_cons.mp member with rfl | inside
      · have collects : entry.2.buf = _ := before entry List.mem_cons_self
        rw [Collects,List.filter_append,List.flatMap_append,← collects,quad.Serialize_append]
        simp [same]
      · refine kept w (before w (List.mem_cons_of_mem _ inside)) fun again => alone ?_
        exact List.mem_map.mpr ⟨w,inside,again.trans same.symm⟩
    · rename_i different
      rcases List.mem_cons.mp member with rfl | inside
      · exact kept _ (before _ List.mem_cons_self) different
      · refine ih distinct (fun o inner => before o (List.mem_cons_of_mem _ inner)) (fun absent => fresh ?_) w inside
        simpa [Ne.symm different] using absent

theorem SerializeBounds_collects (h : GridHeuristic) : ∀ w ∈ h.SerializeBounds, Collects h.quads w := by
  suffices general : ∀ (quads earlier : List GridShape) (bws : Writers), (bws.map (·.1)).Nodup →
      (∀ w ∈ bws, Collects earlier w) → (∀ other ∈ earlier, other.ID ∈ bws.map (·.1)) →
      ∀ w ∈ quads.foldl (fun bws quad => emplaced quad bws) bws, Collects (earlier ++ quads) w from
    general h.quads [] [] List.nodup_nil nofun nofun
  intro quads
  induction quads with
  | nil => exact fun earlier bws _ before _ => by simpa using before
  | cons quad quads ih =>
    intro earlier bws distinct before known
    have next := ih (earlier ++ [quad]) (emplaced quad bws) (emplaced_distinct quad bws distinct)
      (emplaced_collects earlier quad bws distinct before known)
    rw [List.append_assoc] at next
    apply next
    exact emplaced_known known

theorem emplaced_fresh {quad : GridShape} {bws : Writers} (absent : quad.ID ∉ bws.map (·.1)) :
    emplaced quad bws = bws ++ [(quad.ID,quad.Serialize {})] := by
  induction bws with
  | nil => rfl
  | cons entry rest ih =>
    obtain ⟨different,absent⟩ := not_or.mp (List.mem_cons.not.mp absent)
    rw [emplaced,if_neg (Ne.symm different),ih absent]
    rfl

/-- Quads with distinct IDs have a writer each. -/
theorem SerializeBounds_alone {h : GridHeuristic} (distinct : (h.quads.map (·.ID)).Nodup) :
    h.SerializeBounds = h.quads.map fun quad => (quad.ID,quad.Serialize {}) := by
  suffices general : ∀ (quads : List GridShape) (bws : Writers), (bws.map (·.1) ++ quads.map (·.ID)).Nodup →
      quads.foldl (fun bws quad => emplaced quad bws) bws = bws ++ quads.map fun quad => (quad.ID,quad.Serialize {}) from
    general h.quads [] distinct
  intro quads
  induction quads with
  | nil => exact fun bws _ => (List.append_nil bws).symm
  | cons quad quads ih =>
    intro bws distinct
    have absent : quad.ID ∉ bws.map (·.1) := fun member =>
      (List.nodup_append.mp distinct).2.2 _ member _ List.mem_cons_self rfl
    rw [List.foldl_cons,emplaced_fresh absent,ih]
    · rw [List.append_assoc]
      rfl
    · rw [List.map_append,List.append_assoc]
      exact distinct

theorem emplaced_nonempty (quad : GridShape) (bws : Writers) (before : ∀ w ∈ bws, w.2.buf ≠ []) :
    ∀ w ∈ emplaced quad bws, w.2.buf ≠ [] := by
  induction bws with
  | nil => exact fun w member => List.mem_singleton.mp member ▸ quad.Serialize_nonempty {}
  | cons entry rest ih =>
    intro w member
    rw [emplaced] at member
    split at member
    · rcases List.mem_cons.mp member with rfl | inside
      · exact quad.Serialize_nonempty entry.2
      · exact before w (by simp [inside])
    · rcases List.mem_cons.mp member with rfl | inside
      · exact before _ (by simp)
      · exact ih (fun o inner => before o (by simp [inner])) w inside

theorem SerializeBounds_nonempty (h : GridHeuristic) : ∀ w ∈ h.SerializeBounds, w.2.buf ≠ [] := by
  suffices general : ∀ (quads : List GridShape) (bws : Writers), (∀ w ∈ bws, w.2.buf ≠ []) →
      ∀ w ∈ quads.foldl (fun bws quad => emplaced quad bws) bws, w.2.buf ≠ [] from
    general h.quads [] (fun _ member => absurd member List.not_mem_nil)
  intro quads
  induction quads with
  | nil => exact fun _ before => before
  | cons quad quads ih => exact fun bws before => ih _ (emplaced_nonempty quad bws before)

theorem Serialize_nonempty (h : GridHeuristic) : (h.Serialize {}).buf ≠ [] := by
  suffices general : ∀ (quads : List GridShape) (bw : ByteWriter), bw.buf ≠ [] →
      (quads.foldl (fun bw quad => quad.Serialize bw) bw).buf ≠ [] from
    general h.quads _ (by simp [ByteWriter.u64,ByteWriter.push_be,ByteWriter.write,BigEndian.encode])
  intro quads
  induction quads with
  | nil => exact fun _ some => some
  | cons quad quads ih => exact fun bw _ => ih _ (quad.Serialize_nonempty bw)

end GridHeuristic

end AtlasNet
