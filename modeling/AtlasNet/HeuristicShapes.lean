import AtlasNet.HardcodedDecoders

/-! The shapes of the map in its two collection modes: from the pushed heuristic with a lookup of
each bound's owner, and from the arrays of pending and claimed bounds. Coordinates are exact. -/
namespace AtlasNet
open Foundation Foundation.Program Foundation.Redis HeuristicManifest

namespace HeuristicDraw

/-- `IBoundsDrawShape`, of which `DrawCurrentHeuristic` sets these. -/
structure IBoundsDrawShape where
  id : BoundsID
  owner_id : String := ""
  type : Int
  pos_x : ℚ
  pos_y : ℚ
  color : String
  size_x : ℚ
  size_y : ℚ

def eRectangle : Int := 1

def center (low high : UInt32) : ℚ := (AABB3f.value low+AABB3f.value high)*(1/2)
def halfExtents (low high : UInt32) : ℚ := (AABB3f.value high-AABB3f.value low)*(1/2)

def rectangle (grid : GridShape) (shard : Option NetworkIdentity) : IBoundsDrawShape where
  pos_x := center grid.aabb.min.1 grid.aabb.max.1
  pos_y := center grid.aabb.min.2.1 grid.aabb.max.2.1
  type := eRectangle
  size_x := halfExtents grid.aabb.min.1 grid.aabb.max.1*2
  size_y := halfExtents grid.aabb.min.2.1 grid.aabb.max.2.1*2
  id := grid.ID
  color := if shard.isSome then "rgba(100, 255, 149, 1)" else "rgba(255, 149, 100, 1)"
  owner_id := (shard.map (·.ToString)).getD ""

def DrawCurrentHeuristic [Platform] : Command (List IBoundsDrawShape) := do
  let current_heuristic ← PullHeuristic
  current_heuristic.quads.mapM fun grid => return rectangle grid (← ShardFromBoundID grid.ID)

end HeuristicDraw

namespace PureDatabaseTelemetry

structure Shape where
  id : String
  ownerId : DecodedText
  type : Int
  position : ℚ × ℚ
  size : ℚ × ℚ
  color : String

/-- The value of a number, if `Number.isFinite` holds of it. -/
def finite : Number → Option ℚ
  | .NaN => none
  | .float bits => if bits.toNat / 2^23 % 256 = 255 then none else some (AABB3f.value bits)

def toRectangleShape (bounds : ShapeObject) (ownerId : DecodedText) (color : String) : Option Shape := do
  let minX ← finite bounds.min.x
  let minY ← finite bounds.min.y
  let maxX ← finite bounds.max.x
  let maxY ← finite bounds.max.y
  some {
    id := String.ofList (Nat.toDigits 10 bounds.ID.toNat)
    ownerId
    type := 1
    position := ((minX+maxX)/2,(minY+maxY)/2)
    size := (|maxX-minX|,|maxY-minY|)
    color}

def getManifestEntryValues : Option Json → List Json
  | some (.arr items) => items
  | some (.obj fields) => fields.map (·.2)
  | _ => []

def text (name : String) (value : Json) : Option String :=
  match value.member name with
  | some (.str text) => some text
  | _ => none

def boundsOf (value : Json) : Option ShapeObject := do
  let base64Value ← text "BoundsData64" value
  decodeGridShapeBounds base64Value.toList

/-- The stored name, or the one that `Owner64` decodes to. -/
def ownerOf (value : Json) : DecodedText :=
  let ownerId := (text "OwnerName" value).getD ""
  if ownerId ≠ "" then .text ownerId.toList
  else
    match text "Owner64" value with
    | some Owner64 => decodeNetworkIdentity (Buffer.fromBase64 Owner64.toList)
    | none => .text []

def pendingShape (value : Json) : Option Shape := do
  let bounds ← boundsOf value
  toRectangleShape bounds (.text []) "rgba(255, 149, 100, 1)"

def claimedShape (value : Json) : Option Shape := do
  let bounds ← boundsOf value
  toRectangleShape bounds (ownerOf value) "rgba(100, 255, 149, 1)"

/-- The reply parsed, which may be in an array, when it is an object or an array. -/
def normalizeRedisJsonPayload (payload : Option Json) : Option Json :=
  let parsed :=
    match payload with
    | some (.arr items) => items.head?
    | other => other
  match parsed with
  | some (.obj fields) => some (.obj fields)
  | some (.arr items) => some (.arr items)
  | _ => none

def readHeuristicShapesFromDatabase (db : Database) : List Shape :=
  match normalizeRedisJsonPayload (db.json JSONDataTable) with
  | none => []
  | some manifest =>
    (getManifestEntryValues (manifest.member JSONPendingEntry)).filterMap pendingShape ++
      (getManifestEntryValues (manifest.member JSONClaimedEntry)).filterMap claimedShape

end PureDatabaseTelemetry

section Modes
open HeuristicDraw PureDatabaseTelemetry
variable {db : Database} {ledger : Bounds} {h : GridHeuristic}

/-- A drawn shape as the other mode has it. -/
def HeuristicDraw.IBoundsDrawShape.object (shape : IBoundsDrawShape) : PureDatabaseTelemetry.Shape where
  id := String.ofList (Nat.toDigits 10 shape.id.toNat)
  ownerId := .text shape.owner_id.toList
  type := shape.type
  position := (shape.pos_x,shape.pos_y)
  size := (shape.size_x,shape.size_y)
  color := shape.color

/-- The corners are finite, and their coordinates in order. -/
structure GridShape.Valid (quad : GridShape) : Prop where
  minX : finite (.ofFloat quad.aabb.min.1) = some (AABB3f.value quad.aabb.min.1)
  minY : finite (.ofFloat quad.aabb.min.2.1) = some (AABB3f.value quad.aabb.min.2.1)
  maxX : finite (.ofFloat quad.aabb.max.1) = some (AABB3f.value quad.aabb.max.1)
  maxY : finite (.ofFloat quad.aabb.max.2.1) = some (AABB3f.value quad.aabb.max.2.1)
  wide : AABB3f.value quad.aabb.min.1 ≤ AABB3f.value quad.aabb.max.1
  high : AABB3f.value quad.aabb.min.2.1 ≤ AABB3f.value quad.aabb.max.2.1

instance (quad : GridShape) : Decidable quad.Valid :=
  decidable_of_iff (finite (.ofFloat quad.aabb.min.1) = some (AABB3f.value quad.aabb.min.1) ∧
    finite (.ofFloat quad.aabb.min.2.1) = some (AABB3f.value quad.aabb.min.2.1) ∧
    finite (.ofFloat quad.aabb.max.1) = some (AABB3f.value quad.aabb.max.1) ∧
    finite (.ofFloat quad.aabb.max.2.1) = some (AABB3f.value quad.aabb.max.2.1) ∧
    AABB3f.value quad.aabb.min.1 ≤ AABB3f.value quad.aabb.max.1 ∧
    AABB3f.value quad.aabb.min.2.1 ≤ AABB3f.value quad.aabb.max.2.1)
    ⟨fun ⟨a,b,c,d,e,f⟩ => ⟨a,b,c,d,e,f⟩,fun ⟨a,b,c,d,e,f⟩ => ⟨a,b,c,d,e,f⟩⟩

def owner (ledger : Bounds) (id : BoundsID) : Option NetworkIdentity := (ledger.held.find? (·.1.1 = id)).map (·.2)

theorem exec_ShardFromBoundID (stored : Stored db ledger) (distinct : ledger.heldIds.Nodup) (id : BoundsID) :
    exec (ShardFromBoundID id) db = (.ok (owner ledger id),db) := by
  rw [owner]
  cases found : ledger.held.find? (·.1.1 = id) with
  | none =>
    refine shardFromBoundID_absent stored fun claimed => ?_
    obtain ⟨held,member,same⟩ := List.mem_map.mp claimed
    simpa [same] using List.find?_eq_none.mp found held member
  | some held =>
    have same : held.1.1 = id := by simpa using List.find?_some found
    have spec := BoundLeases.shardFromBoundID_spec held stored (List.mem_of_find?_eq_some found) distinct
    rw [same] at spec
    exact spec

theorem exec_DrawCurrentHeuristic [Platform] (pushed : Pushed db h) (stored : Stored db ledger) (distinct : ledger.heldIds.Nodup)
    (storable : Storable h.quads) (countable : h.quads.length < 2^31) : exec DrawCurrentHeuristic db =
      (.ok (h.quads.map fun grid => rectangle grid (owner ledger grid.ID)),db) := by
  have pulled := exec_PullHeuristic pushed stored.document
  rw [h.exec_Deserialize storable countable] at pulled
  rw [DrawCurrentHeuristic,exec_bind_ok _ _ _ _ _ pulled]
  apply exec_mapM
  intro grid _
  rw [exec_bind_ok _ _ _ _ _ (exec_ShardFromBoundID stored distinct grid.ID)]
  rfl

/-- The shape of a row with the owner that the ledger has for its ID. -/
def shapeOf (ledger : Bounds) (row : BoundsID × String) : Option Shape := do
  let bounds ← decodeGridShapeBounds row.2.toList
  toRectangleShape bounds (.text ((owner ledger row.1).map (·.ToString) |>.getD "").toList)
    (if (owner ledger row.1).isSome then "rgba(100, 255, 149, 1)" else "rgba(255, 149, 100, 1)")

theorem pendingShape_row {row : BoundsID × String} (unowned : owner ledger row.1 = none) :
    pendingShape (pendingJson row) = shapeOf ledger row := by
  rw [shapeOf,unowned]
  rfl

theorem ToString_nonempty (id : NetworkIdentity) : id.ToString ≠ "" := by
  intro empty
  have chars : id.toChars = [] := String.ofList_inj.mp empty
  rw [NetworkIdentity.toChars_eq] at chars
  split at chars
  · exact name_nonempty id.type chars
  · exact name_nonempty id.type (List.append_eq_nil_iff.mp chars).1

theorem claimedShape_row {held : (BoundsID × String) × NetworkIdentity} (owned : owner ledger held.1.1 = some held.2) :
    claimedShape (claimedJson held) = shapeOf ledger held.1 := by
  have name : ownerOf (claimedJson held) = .text held.2.ToString.toList := if_pos (ToString_nonempty held.2)
  rw [shapeOf,owned,claimedShape,name]
  rfl

/-- A row with the bytes of a quad shows what the other mode draws for it. -/
theorem shapeOf_quad {quad : GridShape} (valid : quad.Valid) :
    shapeOf ledger (row (quad.ID,quad.Serialize {})) = some (rectangle quad (owner ledger quad.ID)).object := by
  have bounds := decodeGridShapeBounds_words quad []
  rw [List.append_nil] at bounds
  rw [shapeOf,row,String.toList_ofList,bounds]
  have wide := abs_of_nonneg (sub_nonneg.mpr valid.wide)
  have high := abs_of_nonneg (sub_nonneg.mpr valid.high)
  simp only [toRectangleShape,ShapeObject.of,Coordinates.of,Option.bind_eq_bind,Option.bind_some,valid.minX,valid.minY,valid.maxX,
    valid.maxY,wide,high]
  have centre (low high : ℚ) : (low+high)/2 = (low+high)*(1/2) := by ring
  have extent (low high : ℚ) : high-low = (high-low)*(1/2)*2 := by ring
  apply congrArg
  rw [centre,centre,extent (AABB3f.value quad.aabb.min.1),extent (AABB3f.value quad.aabb.min.2.1)]
  rfl

theorem owner_held {held : (BoundsID × String) × NetworkIdentity} (distinct : ledger.heldIds.Nodup) (member : held ∈ ledger.held) :
    owner ledger held.1.1 = some held.2 := by
  have only := BoundLeases.held_once distinct member
  rw [owner,← List.head?_filter,only]
  rfl

theorem owner_waiting {row : BoundsID × String} (exclusive : ledger.Exclusive) (member : row ∈ ledger.waiting) :
    owner ledger row.1 = none := by
  have absent : ledger.held.find? (·.1.1 = row.1) = none := by
    rw [List.find?_eq_none]
    intro held inside same
    exact (List.nodup_append.mp exclusive).2.2 _ (List.mem_map_of_mem member) _ (List.mem_map_of_mem inside)
      (of_decide_eq_true same).symm
  rw [owner,absent]
  rfl

theorem getManifestEntryValues_shown {fields : Json.Fields} {name : String} {items : List Json}
    (shown : Shown (Entries.get name fields) items) : getManifestEntryValues (Json.member name (.obj fields)) = items := by
  rcases shown with present | ⟨absent,rfl⟩
  · rw [Json.member,present]
    rfl
  · rw [Json.member,absent]
    rfl

/-- The database mode shows every row of the ledger with the owner that the ledger has for it. -/
theorem readHeuristicShapes_rows (stored : Stored db ledger) (exclusive : ledger.Exclusive) :
    readHeuristicShapesFromDatabase db = ledger.rows.filterMap (shapeOf ledger) := by
  obtain ⟨fields,here,pending,claimed⟩ := stored.opened
  have document : normalizeRedisJsonPayload (db.json JSONDataTable) = some (.obj fields) := by
    rw [here]
    rfl
  have waiting : ledger.waiting.filterMap (pendingShape ∘ pendingJson) = ledger.waiting.filterMap (shapeOf ledger) :=
    List.filterMap_congr fun row member => pendingShape_row (owner_waiting exclusive member)
  have held : ledger.held.filterMap (claimedShape ∘ claimedJson) = ledger.held.filterMap (shapeOf ledger ∘ (·.1)) :=
    List.filterMap_congr fun held member => claimedShape_row (owner_held exclusive.of_append_right member)
  rw [readHeuristicShapesFromDatabase,document]
  simp only
  rw [getManifestEntryValues_shown pending,getManifestEntryValues_shown claimed,List.filterMap_map,List.filterMap_map,waiting,held,
    Ledger.rows,List.filterMap_append,List.filterMap_map]

/-- Every bound of the heuristic occurs once among the pending and the claimed bounds. -/
def Placed (h : GridHeuristic) (ledger : Bounds) : Prop := ledger.rows.Perm (h.SerializeBounds.map row)

theorem exclusive_placed (unique : (h.quads.map (·.ID)).Nodup) (placed : Placed h ledger) : ledger.Exclusive := by
  have ids := placed.map (·.1)
  rw [GridHeuristic.SerializeBounds_alone unique,Ledger.rows_ids,List.map_map,List.map_map] at ids
  exact ids.nodup_iff.mpr unique

theorem rows_shapes (unique : (h.quads.map (·.ID)).Nodup) (placed : Placed h ledger) :
    (ledger.rows.filterMap (shapeOf ledger)).Perm (h.quads.filterMap fun quad => shapeOf ledger (row (quad.ID,quad.Serialize {}))) := by
  have rows := placed.filterMap (shapeOf ledger)
  rw [GridHeuristic.SerializeBounds_alone unique,List.map_map,List.filterMap_map] at rows
  exact rows

theorem readHeuristicShapes_quads (stored : Stored db ledger) (unique : (h.quads.map (·.ID)).Nodup) (placed : Placed h ledger)
    (valid : ∀ quad ∈ h.quads, quad.Valid) : (readHeuristicShapesFromDatabase db).Perm
      (h.quads.map fun quad => (rectangle quad (owner ledger quad.ID)).object) := by
  have drawn : ∀ quad ∈ h.quads, shapeOf ledger (row (quad.ID,quad.Serialize {})) =
      some (rectangle quad (owner ledger quad.ID)).object := fun quad member => shapeOf_quad (valid quad member)
  have rows := rows_shapes unique placed
  rw [List.filterMap_congr drawn] at rows
  rw [readHeuristicShapes_rows stored (exclusive_placed unique placed),← List.filterMap_eq_map]
  exact rows

/-- Both modes answer, and with the same shapes. -/
def Alike [Platform] (db : Database) : Prop :=
  ∃ shapes, exec DrawCurrentHeuristic db = (.ok shapes,db) ∧
    (shapes.map (·.object)).Perm (readHeuristicShapesFromDatabase db)

theorem modes_alike [Platform] (pushed : Pushed db h) (stored : Stored db ledger) (storable : Storable h.quads)
    (unique : (h.quads.map (·.ID)).Nodup) (placed : Placed h ledger) (valid : ∀ quad ∈ h.quads, quad.Valid) :
    Alike db ↔ h.quads.length < 2^31 := by
  have distinct : ledger.heldIds.Nodup := (exclusive_placed unique placed).of_append_right
  constructor
  · rintro ⟨shapes,ran,_⟩
    by_contra many
    obtain ⟨heuristic,_,pulled,_⟩ := bind_returned _ _ _ _ _ ran
    rw [exec_PullHeuristic pushed stored.document] at pulled
    exact h.Deserialize_overflows storable (not_lt.mp many) heuristic (Prod.mk.inj pulled).1
  · intro countable
    refine ⟨_,exec_DrawCurrentHeuristic pushed stored distinct storable countable,?_⟩
    rw [List.map_map]
    exact (readHeuristicShapes_quads stored unique placed valid).symm

theorem placed_offered (h : GridHeuristic) : Placed h (offered h) := .of_eq (List.append_nil _)

theorem modes_alike_Compute : @Alike fnvPlatform
    (placedStore (GridHeuristic.Compute {}) ((offered (GridHeuristic.Compute {})).claim (.MakeIDShard .nil))) := by
  let _ := fnvPlatform
  apply (modes_alike (pushed_placedStore _ _) (stored_placedStore _ _) storable_Compute (by decide) _ _).mpr (by decide)
  · exact (Ledger.claim_rows _ _).trans (placed_offered _)
  · decide +kernel

end Modes

end AtlasNet
