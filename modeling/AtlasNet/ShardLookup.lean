import AtlasNet.PacketWriting
import AtlasNet.GridAuthority
import AtlasNet.BoundLeases

/-! The shard of a position: the pushed heuristic is read back, asked for the bound of
the position, and the claimed bounds are asked for the owner of that one. -/
namespace AtlasNet
open Foundation Foundation.Program Foundation.Redis HeuristicManifest

namespace AABB3f

def nan (bits : UInt32) : Bool := bits.toNat / 2^23 % 256 = 255 && bits.toNat % 2^23 ≠ 0

/-- `<` of `float`. The pattern of an infinity counts as 2^128, which no finite one reaches. -/
def less (a b : UInt32) : Bool := !nan a && !nan b && value a < value b

/-- `contains` of the bit patterns themselves; nothing is below or above a NaN. -/
def containsBits (aabb : AABB3f) (p : Vec3) : Bool :=
  if less p.1 aabb.min.1 || less aabb.max.1 p.1 then false
  else if less p.2.1 aabb.min.2.1 || less aabb.max.2.1 p.2.1 then false
  else if less p.2.2 aabb.min.2.2 || less aabb.max.2.2 p.2.2 then false
  else true

end AABB3f

def GridShape.format : Format UInt8 GridShape := return ⟨← ByteFormat.u32,← AABB3f.format⟩

theorem GridShape.accepts : ByteReader.cursor.Accepts Deserialize format :=
  Cursor.accepts_bind ByteReader.accepts_u32 (fun _ => ByteReader.accepts_map _ AABB3f.accepts)

theorem GridShape.written (s : GridShape) : Written s.Serialize format s := by
  have wrote : Written _ format s := written_bind (ByteWriter.written_u32 s.ID) (written_map (GridShape.mk s.ID) s.aabb.written)
  exact wrote

namespace GridHeuristic
variable [Platform]

def Deserialize : Program ByteReader GridHeuristic := return ⟨← ByteReader.counted_int GridShape.Deserialize⟩

def format : Format UInt8 GridHeuristic := return ⟨← ByteFormat.counted_int GridShape.format⟩

theorem accepts : ByteReader.cursor.Accepts Deserialize format :=
  ByteReader.accepts_map _ (ByteReader.accepts_counted_int GridShape.accepts)

theorem exec_Deserialize (h : GridHeuristic) (storable : Storable h.quads) (countable : h.quads.length < 2^31) :
    (exec Deserialize {p := (h.Serialize {}).buf}).1 = .ok h := by
  have quads := written_counted_int storable countable (fun quad _ => quad.written)
  have wrote : Written h.Serialize format h := written_map GridHeuristic.mk quads
  have read := exec_written accepts wrote []
  rw [List.append_nil] at read
  rw [read]

/-- The loop over an `int` does not come to the end of as many quads as it cannot count. -/
theorem Deserialize_overflows (h : GridHeuristic) (storable : Storable h.quads) (many : 2^31 ≤ h.quads.length)
    (other : GridHeuristic) : (exec Deserialize {p := (h.Serialize {}).buf}).1 ≠ .ok other := by
  intro ran
  obtain ⟨quads,_,counted,_⟩ := bind_returned _ _ _ _ _ (Prod.ext ran rfl)
  obtain ⟨count,middle,started,counted⟩ := bind_returned _ _ _ _ _ counted
  obtain ⟨rest,bytes⟩ : ∃ rest, (h.Serialize {}).buf = (ByteWriter.u64 (UInt64.ofNat h.quads.length) {}).buf ++ rest := by
    obtain ⟨values,appends,_⟩ := written_times h.quads (fun quad _ => quad.written)
    exact ⟨values,congrArg ByteWriter.buf (appends _)⟩
  have read := exec_written ByteReader.accepts_u64 (ByteWriter.written_u64 (UInt64.ofNat h.quads.length)) rest
  rw [← bytes,started] at read
  obtain rfl := Except.ok.inj (Prod.mk.inj read).1
  rw [count_toNat storable,exec_throwIf,if_neg (Nat.not_lt.mpr storable)] at counted
  obtain ⟨_,_,_,counted⟩ := bind_returned _ _ _ _ _ counted
  rw [exec_throwIf,if_pos many] at counted
  cases (Prod.mk.inj counted).1

omit [Platform]

/-- `QueryPosition` over the bit patterns of a position. -/
def QueryPositionBits (h : GridHeuristic) (p : Vec3) : Option GridShape :=
  Table.find (fun shape => shape.aabb.containsBits p) h.quads

theorem QueryPositionBits_some {h : GridHeuristic} {p : Vec3} {quad : GridShape} (found : h.QueryPositionBits p = some quad) :
    quad ∈ h.quads ∧ quad.aabb.containsBits p = true := by
  have first : Table.find (fun shape : GridShape => shape.aabb.containsBits p) h.quads = some quad := found
  have chosen := Table.find_chosen first
  exact ⟨Table.find_member first,chosen⟩

end GridHeuristic

namespace HeuristicManifest
variable [Platform]

/-- The reply's text without the quotes around it. -/
def unquoted (encoded : List Char) : List Char :=
  if 2 ≤ encoded.length ∧ encoded.head? = some '\x22' ∧ encoded.getLast? = some '\x22' then
    (encoded.drop 1).take (encoded.length-2)
  else encoded

def PullHeuristic : Command GridHeuristic := do
  match ← GetActiveHeuristicType with
  | .eGridCell =>
    let serializedData64 ← jsonGet JSONDataTable [.field JSONHeuristicData64Entry]
    assert serializedData64.isSome "Heuristic Serialize data has no data?"
    let encoded := unquoted ((serializedData64.map Json.text).getD [])
    within GridHeuristic.Deserialize (.ofBase64 (String.ofList encoded))
  | .eOctree | .eQuadtree =>
    let serializedData64 ← jsonGet JSONDataTable [.field JSONHeuristicData64Entry]
    assert serializedData64.isSome "Heuristic Serialize data has no data?"
    throw (.undefined "Deserialize of a null heuristic")
  | _ => throw (.runtimeError "Invalid Heuristic?")

/-- The bound is asked for its ID whether or not there is one. -/
def ShardFromPosition (position : Vec3) : Command (Option NetworkIdentity) := do
  let heuristic ← PullHeuristic
  match heuristic.QueryPositionBits position with
  | none => throw (.undefined "GetID of a null bound")
  | some bound => ShardFromBoundID bound.ID

section Lookups
variable {db : Database} {ledger : Bounds} {h : GridHeuristic}

omit [Platform] in
theorem escape_base64 (bytes : Bytes) : (Base64.encode bytes).flatMap Json.escape = Base64.encode bytes := by
  have single (c : Char) (member : c ∈ Base64.encode bytes) : Json.escape c = [c] := by
    obtain ⟨low,other⟩ := Base64.encode_plain bytes c member
    have quote : c ≠ '\x22' := by
      rintro rfl
      exact absurd low (by decide)
    have backslash : c ≠ '\x5c' := by
      rintro rfl
      exact other rfl
    rw [Json.escape,if_neg quote,if_neg backslash,if_neg (by omega)]
  rw [List.flatMap_congr single,List.flatMap_singleton']

omit [Platform] in
theorem unquoted_base64 (bytes : Bytes) :
    unquoted (Json.str (String.ofList (Base64.encode bytes))).text = Base64.encode bytes := by
  have last : ('\x22'::Base64.encode bytes ++ ['\x22']).getLast? = some '\x22' := List.getLast?_concat
  rw [Json.text,Json.quoted,String.toList_ofList,escape_base64,unquoted,if_pos ⟨by simp,rfl,last⟩]
  simp

theorem exec_PullHeuristic (pushed : Pushed db h) (document : ∃ fields, db.json JSONDataTable = some (.obj fields)) :
    exec PullHeuristic db = ((exec GridHeuristic.Deserialize {p := (h.Serialize {}).buf}).1,db) := by
  obtain ⟨fields,here⟩ := document
  have data := pushed.data
  rw [entry_fields here] at data
  rw [PullHeuristic,exec_bind_ok _ _ _ _ _ (BoundClaims.getActiveHeuristicType_spec .eGridCell pushed.type ⟨fields,here⟩)]
  simp only
  rw [exec_bind_ok _ _ _ _ _ (jsonGet_field _ here data),exec_assert_bind,if_pos Option.isSome_some,Option.map_some,Option.getD_some,
    unquoted_base64,ofBase64_encode,exec_within]

omit [Platform] in
theorem shardFromBoundID_absent {id : BoundsID} (stored : Stored db ledger) (absent : id ∉ ledger.heldIds) :
    exec (ShardFromBoundID id) db = (.ok none,db) := by
  obtain ⟨fields,here,_,claimed⟩ := stored.opened
  have query : ∃ items, exec (jsonGetWhere JSONDataTable [.field JSONClaimedEntry] "ID" id.toNat) db =
      (.ok (some (.arr items)),db) ∧ items = [] := by
    rcases claimed with present | ⟨missing,_⟩
    · refine ⟨_,jsonGetWhere_array _ "ID" id.toNat here present,?_⟩
      rw [List.filter_eq_nil_iff]
      rintro item member same
      obtain ⟨held,inside,rfl⟩ := List.mem_map.mp member
      rw [claimedJson_id,decide_eq_true_eq] at same
      exact absent (List.mem_map.mpr ⟨held,inside,same⟩)
    · exact ⟨[],by simp [jsonGetWhere,here,Json.get,missing],rfl⟩
  obtain ⟨_,ran,rfl⟩ := query
  have pulled : exec (Internal_PullClaimedBound id) db = (.ok none,db) := by
    rw [Internal_PullClaimedBound,exec_bind_ok _ _ _ _ _ ran]
    rfl
  rw [ShardFromBoundID,exec_bind_ok _ _ _ _ _ pulled]
  rfl

/-- The lookup answers, and names the shard that has claimed the first quad with the position. -/
def Answers (db : Database) (ledger : Bounds) (h : GridHeuristic) (position : Vec3) : Prop :=
  ∃ answer, exec (ShardFromPosition position) db = (.ok answer,db) ∧
    ∀ shard, answer = some shard ↔ ∃ quad, h.QueryPositionBits position = some quad ∧
      ∃ held ∈ ledger.held, held.1.1 = quad.ID ∧ held.2 = shard

theorem exec_ShardFromPosition (pushed : Pushed db h) (stored : Stored db ledger) (storable : Storable h.quads)
    (countable : h.quads.length < 2^31) (position : Vec3) : exec (ShardFromPosition position) db =
      exec (match h.QueryPositionBits position with
        | none => throw (.undefined "GetID of a null bound")
        | some bound => ShardFromBoundID bound.ID) db := by
  have pulled := exec_PullHeuristic pushed stored.document
  rw [h.exec_Deserialize storable countable] at pulled
  rw [ShardFromPosition,exec_bind_ok _ _ _ _ _ pulled]

/-- The lookup answers where the quads can be counted by an `int` and one of them has the
position; where none has, a null bound is asked for its ID. -/
theorem shardFromPosition_iff (pushed : Pushed db h) (stored : Stored db ledger) (distinct : ledger.heldIds.Nodup)
    (storable : Storable h.quads) (position : Vec3) : Answers db ledger h position ↔
      h.quads.length < 2^31 ∧ ∃ quad ∈ h.quads, quad.aabb.containsBits position = true := by
  constructor
  · rintro ⟨answer,ran,_⟩
    obtain ⟨heuristic,_,pulled,_⟩ := bind_returned _ _ _ _ _ ran
    have countable : h.quads.length < 2^31 := by
      by_contra many
      rw [exec_PullHeuristic pushed stored.document] at pulled
      exact h.Deserialize_overflows storable (not_lt.mp many) heuristic (Prod.mk.inj pulled).1
    refine ⟨countable,?_⟩
    rw [exec_ShardFromPosition pushed stored storable countable] at ran
    cases found : h.QueryPositionBits position with
    | none =>
      rw [found] at ran
      cases (Prod.mk.inj ran).1
    | some quad => exact ⟨quad,GridHeuristic.QueryPositionBits_some found⟩
  · rintro ⟨countable,quad,member,inside⟩
    rw [Answers,exec_ShardFromPosition pushed stored storable countable]
    cases found : h.QueryPositionBits position with
    | none => exact absurd (Table.find_none.mp found quad member) (by rw [inside]; decide)
    | some first =>
      by_cases claimed : first.ID ∈ ledger.heldIds
      · obtain ⟨held,inside,same⟩ := List.mem_map.mp claimed
        have owner := BoundLeases.shardFromBoundID_spec held stored inside distinct
        rw [same] at owner
        refine ⟨some held.2,owner,fun shard => ?_⟩
        constructor
        · rintro ⟨rfl⟩
          exact ⟨first,rfl,held,inside,same,rfl⟩
        · rintro ⟨_,⟨rfl⟩,other,also,sameID,rfl⟩
          have both := BoundLeases.held_once distinct inside
          have member : other ∈ ledger.held.filter (fun other => decide (other.1.1 = held.1.1)) :=
            List.mem_filter.mpr ⟨also,decide_eq_true (sameID.trans same.symm)⟩
          rw [both,List.mem_singleton] at member
          rw [member]
      · refine ⟨none,shardFromBoundID_absent stored claimed,fun shard => ⟨nofun,?_⟩⟩
        rintro ⟨_,⟨rfl⟩,held,inside,same,_⟩
        exact absurd (List.mem_map.mpr ⟨held,inside,same⟩) claimed

omit [Platform]

/-- The store after the first push of a heuristic, with the bounds as the ledger has them. -/
def placedStore (h : GridHeuristic) (ledger : Bounds) : Database :=
  Database.empty.withJson JSONDataTable (.obj [(JSONPendingEntry,.arr (ledger.waiting.map pendingJson)),
    (JSONClaimedEntry,.arr (ledger.held.map claimedJson)),(JSONHeuristicTypeEntry,.str "GridCell"),
    (JSONHeuristicData64Entry,.str (String.ofList (Base64.encode (h.Serialize {}).buf)))])

theorem pushed_placedStore (h : GridHeuristic) (ledger : Bounds) : Pushed (placedStore h ledger) h :=
  ⟨entry_withJson _ _ _,entry_withJson _ _ _⟩

theorem stored_placedStore (h : GridHeuristic) (ledger : Bounds) : Stored (placedStore h ledger) ledger :=
  ⟨⟨_,withJson_json _ _ _⟩,.inl (entry_withJson _ _ _),.inl (entry_withJson _ _ _)⟩

/-- All bounds of a heuristic wait for a shard. -/
def offered (h : GridHeuristic) : Bounds := ⟨h.SerializeBounds.map row,[]⟩

/-- The store after a heuristic was pushed for the first time. -/
def pushedStore (h : GridHeuristic) : Database :=
  Database.empty.withJson JSONDataTable (.obj [(JSONHeuristicTypeEntry,.str "GridCell"),
    (JSONHeuristicData64Entry,.str (String.ofList (Base64.encode (h.Serialize {}).buf)))])

theorem pushed_pushedStore (h : GridHeuristic) : Pushed (pushedStore h) h :=
  ⟨entry_withJson _ _ _,entry_withJson _ _ _⟩

theorem stored_pushedStore (h : GridHeuristic) : Stored (pushedStore h) Ledger.empty :=
  ⟨⟨_,withJson_json _ _ _⟩,.inr ⟨entry_withJson _ _ _,rfl⟩,.inr ⟨entry_withJson _ _ _,rfl⟩⟩

theorem storable_Compute : @Storable fnvPlatform _ (GridHeuristic.Compute {}).quads :=
  show 4 ≤ 2^32 by decide

/-- The computed grid with its first bound claimed. -/
def settled : Bounds := (offered (GridHeuristic.Compute {})).claim (.MakeIDShard .nil)

theorem shardFromPosition_iff_inside :
    @Answers fnvPlatform (placedStore (GridHeuristic.Compute {}) settled) settled (GridHeuristic.Compute {})
      (AABB3f.point (-50,-50,0)) ∧
    exec (@ShardFromPosition fnvPlatform (AABB3f.point (-50,-50,0))) (placedStore (GridHeuristic.Compute {}) settled) =
      (.ok (some (.MakeIDShard .nil)),placedStore (GridHeuristic.Compute {}) settled) := by
  let _ := fnvPlatform
  have answers := (shardFromPosition_iff (pushed_placedStore (GridHeuristic.Compute {}) settled) (stored_placedStore _ settled)
    (by decide) storable_Compute (AABB3f.point (-50,-50,0))).mpr ⟨by decide,by decide +kernel⟩
  refine ⟨answers,?_⟩
  obtain ⟨answer,ran,named⟩ := answers
  have first : ((GridHeuristic.Compute {}).QueryPositionBits (AABB3f.point (-50,-50,0))).map (·.ID) = some 0 := by
    decide +kernel
  obtain ⟨quad,found,ID⟩ := Option.map_eq_some_iff.mp first
  have owner : answer = some (.MakeIDShard .nil) := by
    refine (named _).mpr ⟨quad,found,?_⟩
    rw [ID]
    decide +kernel
  rw [ran,owner]

/-- A position beyond the grid ends in the access to a null bound. -/
theorem outside_dereferences : exec (@ShardFromPosition fnvPlatform (AABB3f.point (150,0,0)))
      (pushedStore (GridHeuristic.Compute {})) =
        (.error (.undefined "GetID of a null bound"),pushedStore (GridHeuristic.Compute {})) ∧
    ¬ ∀ (db : Database) (ledger : Bounds) (h : GridHeuristic) (position : Vec3), Pushed db h → Stored db ledger →
      ledger.heldIds.Nodup → @Answers fnvPlatform db ledger h position := by
  let _ := fnvPlatform
  have outside : (GridHeuristic.Compute {}).QueryPositionBits (AABB3f.point (150,0,0)) = none := by decide +kernel
  have ran : exec (ShardFromPosition (AABB3f.point (150,0,0))) (pushedStore (GridHeuristic.Compute {})) =
      (.error (.undefined "GetID of a null bound"),pushedStore (GridHeuristic.Compute {})) := by
    rw [exec_ShardFromPosition (pushed_pushedStore _) (stored_pushedStore _) storable_Compute (by decide),outside]
    rfl
  refine ⟨ran,fun answers => ?_⟩
  obtain ⟨answer,answered,_⟩ := answers _ _ _ (AABB3f.point (150,0,0)) (pushed_pushedStore (GridHeuristic.Compute {}))
    (stored_pushedStore _) List.nodup_nil
  cases (Prod.mk.inj (ran.symm.trans answered)).1

end Lookups

end HeuristicManifest

end AtlasNet
