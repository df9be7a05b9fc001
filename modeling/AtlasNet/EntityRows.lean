import AtlasNet.ClaimedOwners
import AtlasNet.EntityLedgersView

/-! The rows of the entities on the map: what the shards answered about each of them, with the
shard that has claimed its bound. -/
namespace AtlasNet.EntityLedgerTelemetry
open Foundation Foundation.Program Foundation.Redis Foundation.Streams HeuristicManifest BoundOwnership
open JavaScript HeuristicDraw PureDatabaseTelemetry NetworkTelemetry

def shapeOwner (shape : IBoundsDrawShape) : Option (List Char × List Char) :=
  let boundId := trim (decimal shape.id.toNat)
  let ownerId := trim shape.owner_id.toList
  if boundId = [] ∨ ownerId = [] then none else some (boundId,ownerId)

/-- The later shape of a bound counts. -/
def shapeOwners (shapes : List IBoundsDrawShape) : Owners :=
  (shapes.filterMap shapeOwner).foldl (fun owners shape => owners.insert shape.1 shape.2) ∅

def readOwnerByBoundIdFromHeuristic [Platform] (db : Database) : Owners :=
  match (exec DrawCurrentHeuristic db).1 with
  | .ok shapes => shapeOwners shapes
  | .error _ => ∅

def ownerText (ownerByBoundIdFromDb ownerByBoundIdFallback : Owners) (boundId : List Char) : List Char :=
  let fromDb := if boundId = [] then [] else (ownerByBoundIdFromDb.lookup boundId).getD []
  let fallback := (ownerByBoundIdFallback.lookup boundId).getD []
  if fromDb ≠ [] then fromDb
  else if fallback ≠ [] then fallback
  else if boundId ≠ [] then "bound:".toList ++ boundId
  else "unknown".toList

/-- `coordinate` is the text of a coordinate. -/
def entityRow (coordinate : UInt32 → List Char) (ownerByBoundIdFromDb ownerByBoundIdFallback : Owners) (entry : EntityLedgerEntry) :
    Option (List (List Char)) :=
  let entityId := trim entry.EntityID
  if entityId = [] then none
  else
    let boundId := trim (integer entry.BoundID.toInt)
    some [entityId,ownerText ownerByBoundIdFromDb ownerByBoundIdFallback boundId,integer entry.WorldID.toInt,
      coordinate entry.positionx,coordinate entry.positiony,coordinate entry.positionz,
      if entry.ISClient then ['1'] else ['0'],trim entry.ClientID]

def readEntityLedgersTelemetry [Platform] (coordinate : UInt32 → List Char) (entities : List EntityLedgerEntry) (ownerByBoundId : Owners)
    (db : Database) : List (List (List Char)) :=
  entities.filterMap (entityRow coordinate ownerByBoundId (readOwnerByBoundIdFromHeuristic db))

section Rows
variable {db : Database} {ledger now : Bounds} {owners : Owners} {h : GridHeuristic} {id : BoundsID}

theorem integer_toInt32 (small : id.toNat < 2^31) : integer id.toInt32.toInt = idText id := by
  have value : id.toInt32.toInt = id.toNat := by
    have bits : id.toInt32.toInt = id.toBitVec.toInt := rfl
    rw [bits,BitVec.toInt_eq_toNat_of_lt (by simpa using (by omega : 2*id.toNat < 2^32))]
    rfl
  rw [integer,value,if_neg (by omega)]
  rfl

theorem shapeOwner_rectangle (grid : GridShape) (shard : Option NetworkIdentity) :
    shapeOwner (rectangle grid shard) = shard.map fun shard => (idText grid.ID,shard.toChars) := by
  have boundId : trim (decimal (rectangle grid shard).id.toNat) = idText grid.ID := trim_idText grid.ID
  have numbered : idText grid.ID ≠ [] := decimal_nonempty _
  cases shard with
  | none =>
    have nobody : trim (rectangle grid none).owner_id.toList = [] := rfl
    simp [shapeOwner,nobody]
  | some shard =>
    have named : trim (rectangle grid (some shard)).owner_id.toList = shard.toChars := by
      change trim shard.ToString.toList = _
      rw [NetworkIdentity.ToString,String.toList_ofList]
      exact trim_toChars shard
    have nonempty := toChars_nonempty shard
    simp [shapeOwner,boundId,named,numbered,nonempty]

theorem lookup_shapeOwners (quads : List GridShape) :
    (shapeOwners (quads.map fun grid => rectangle grid (owner now grid.ID))).lookup (idText id) =
      if id ∈ quads.map (·.ID) then (owner now id).map (·.toChars) else none := by
  rw [shapeOwners,Dictionary.lookup_insertAll,AList.lookup_empty,Option.or_none,List.filterMap_map]
  simp only [Function.comp_def,shapeOwner_rectangle]
  cases found : List.find? _ _ with
  | none =>
    split
    · rename_i member
      obtain ⟨grid,inside,rfl⟩ := List.mem_map.mp member
      cases held : owner now grid.ID with
      | none => rfl
      | some shard =>
        have entry : (idText grid.ID,shard.toChars) ∈
            (quads.filterMap fun grid => (owner now grid.ID).map fun shard => (idText grid.ID,shard.toChars)).reverse :=
          List.mem_reverse.mpr (List.mem_filterMap.mpr ⟨grid,inside,by rw [held]; rfl⟩)
        simpa using List.find?_eq_none.mp found _ entry
    · rfl
  | some entry =>
    have key : entry.1 = idText id := by simpa using List.find?_some found
    obtain ⟨grid,inside,made⟩ := List.mem_filterMap.mp (List.mem_reverse.mp (List.mem_of_find?_eq_some found))
    obtain ⟨shard,held,rfl⟩ := Option.map_eq_some_iff.mp made
    have same : grid.ID = id := idText_injective key
    rw [if_pos (List.mem_map.mpr ⟨grid,inside,same⟩),← same,held]
    rfl

/-- The shard that holds the bound now, where the map that was read or the pushed heuristic
tells of it. -/
def shownOwner (ledger now : Bounds) (h : GridHeuristic) (id : BoundsID) : List Char :=
  match owner now id with
  | some shard => if id ∈ ledger.heldIds ∨ id ∈ h.quads.map (·.ID) then shard.toChars else "bound:".toList ++ idText id
  | none => "bound:".toList ++ idText id

theorem claimant_owner (distinct : now.heldIds.Nodup) (kept : ledger.held <+: now.held) (id : BoundsID) :
    claimant ledger id = if id ∈ ledger.heldIds then owner now id else none := by
  rw [claimant]
  cases found : ledger.held.reverse.find? (·.1.1 = id) with
  | none =>
    rw [if_neg fun member => ?_]
    · rfl
    · obtain ⟨held,inside,mine⟩ := List.mem_map.mp member
      simpa [mine] using List.find?_eq_none.mp found held (List.mem_reverse.mpr inside)
  | some held =>
    have inside := List.mem_reverse.mp (List.mem_of_find?_eq_some found)
    have mine : held.1.1 = id := by simpa using List.find?_some found
    have claimed : id ∈ ledger.heldIds := List.mem_map.mpr ⟨held,inside,mine⟩
    rw [if_pos claimed,owner]
    have still : now.held.find? (·.1.1 = id) = some held := by
      cases other : now.held.find? (·.1.1 = id) with
      | none => simpa [mine] using List.find?_eq_none.mp other held (kept.subset inside)
      | some first =>
        have same : first.1.1 = held.1.1 := (by simpa using List.find?_some other : first.1.1 = id).trans mine.symm
        exact congrArg some (List.inj_on_of_nodup_map distinct (List.mem_of_find?_eq_some other) (kept.subset inside) same)
    rw [still]

theorem fallback_pushed [Platform] (pushed : Pushed db h) (stored : Stored db now) (distinct : now.heldIds.Nodup)
    (storable : Storable h.quads) (countable : h.quads.length < 2^31) (id : BoundsID) :
    (readOwnerByBoundIdFromHeuristic db).lookup (idText id) =
      if id ∈ h.quads.map (·.ID) then (owner now id).map (·.toChars) else none := by
  rw [readOwnerByBoundIdFromHeuristic,exec_DrawCurrentHeuristic pushed stored distinct storable countable]
  exact lookup_shapeOwners h.quads

theorem ownerText_shown {fallback : Owners} (shows : Shows owners ledger) (distinct : now.heldIds.Nodup) (kept : ledger.held <+: now.held)
    (drawn : fallback.lookup (idText id) = if id ∈ h.quads.map (·.ID) then (owner now id).map (·.toChars) else none) :
    ownerText owners fallback (idText id) = shownOwner ledger now h id := by
  have numbered : idText id ≠ [] := decimal_nonempty _
  have looked := shows.claimed id
  rw [claimant_owner distinct kept] at looked
  rw [ownerText,if_neg numbered,looked,drawn,shownOwner]
  cases held : owner now id with
  | none => by_cases claimed : id ∈ ledger.heldIds <;> by_cases there : id ∈ h.quads.map (·.ID) <;> simp [claimed,there,numbered]
  | some shard =>
    have nonempty := toChars_nonempty shard
    by_cases claimed : id ∈ ledger.heldIds <;> by_cases there : id ∈ h.quads.map (·.ID) <;> simp [claimed,there,nonempty,numbered]

theorem trim_to_string (id : UUID) : trim id.to_string = id.to_string := by
  have shown := List.all_eq_true.mp (printable_to_chars 0 id.data)
  have digits := List.all_eq_true.mp (wordly_to_chars 0 id.data)
  refine trim_ends (fun c first => ?_) fun c last => ?_
  · exact whitespace_word (digits c (List.mem_of_head? first)) (shown c (List.mem_of_head? first))
  · exact whitespace_word (digits c (List.mem_of_getLast? last)) (shown c (List.mem_of_getLast? last))

/-- What is shown of an entity of a bound. -/
def shownEntity (coordinate : UInt32 → List Char) (ownerId : List Char) (ae : AtlasEntityMinimal) : List (List Char) :=
  [ae.Entity_ID.to_string,ownerId,['0'],coordinate ae.transform.position.1,coordinate ae.transform.position.2.1,
    coordinate ae.transform.position.2.2,if ae.IsClient then ['1'] else ['0'],ae.Client_ID.to_string]

theorem entityRow_of (coordinate : UInt32 → List Char) (fallback : Owners) (small : id.toNat < 2^31) (ae : AtlasEntityMinimal) :
    entityRow coordinate owners fallback (.of id ae) = some (shownEntity coordinate (ownerText owners fallback (idText id)) ae) := by
  have boundId : trim (integer (EntityLedgerEntry.of id ae).BoundID.toInt) = idText id := by
    rw [EntityLedgerEntry.of,integer_toInt32 small,trim_idText]
  have entityId : trim (EntityLedgerEntry.of id ae).EntityID = ae.Entity_ID.to_string := trim_to_string _
  have clientId : trim (EntityLedgerEntry.of id ae).ClientID = ae.Client_ID.to_string := trim_to_string _
  have world : integer (EntityLedgerEntry.of id ae).WorldID.toInt = ['0'] := by
    simp [EntityLedgerEntry.of,integer,decimal]
  rw [entityRow,entityId,clientId,boundId,world,if_neg (NetworkIdentity.to_string_nonempty _)]
  rfl

/-- The rows of entities whose shards answered for bounds below 2^31. They name the shard that
holds the bound now, unless neither the claims of a moment not long ago nor the pushed
heuristic tell of the bound; no row names another shard. -/
theorem entity_rows [Platform] (around : Surroundings) {ι : Type} [DecidableEq ι] {start : Database} {clock limit : Int}
    {s : Caching.Reading ι Database Owners} (empty : EmptyStore start)
    (reached : (System.stepping {source := start,clock} (readHeuristicClaimedOwners around).next).ReachableWhile (InTime limit) s)
    {i : ι} {time : Int} (returned : s.reads i = .returned time owners) (pushed : Pushed s.source h) (storable : Storable h.quads)
    (countable : h.quads.length < 2^31) (distinct : (claimedIDs s.source).Nodup) :
    ∃ moment ledger now,
      (System.stepping {source := start,clock} (readHeuristicClaimedOwners around).next).ReachableWhile (InTime limit) moment ∧
      ((System.stepping {source := start,clock} (readHeuristicClaimedOwners around).next).behind moment).ReachableWhile (InTime limit) s ∧
      moment.clock ≤ time ∧ time < moment.clock+CLAIMED_OWNER_MAP_CACHE_TTL_MS+limit ∧
      Consistent moment.source ledger ∧ Consistent s.source now ∧
      ∀ (coordinate : UInt32 → List Char) (found : List (BoundsID × AtlasEntityMinimal)), (∀ e ∈ found, e.1.toNat < 2^31) →
        readEntityLedgersTelemetry coordinate (found.map fun e => .of e.1 e.2) owners s.source =
          found.map fun e => shownEntity coordinate (shownOwner ledger now h e.1) e.2 := by
  obtain ⟨answer,member,before,after,ledger,now,first,second,kept,shows⟩ := returned_shows around (reads_sound around empty reached) returned
  obtain ⟨moment,passed,rfl,rest⟩ := Caching.answers_passed rfl reached member
  refine ⟨moment,ledger,now,passed,rest,before,by omega,first,second,fun coordinate found small => ?_⟩
  have unique : now.heldIds.Nodup := by
    rw [claimedIDs_holds second.holds] at distinct
    exact distinct.of_map
  have stored : Stored s.source now := by
    refine second.holds.resolve_right fun ⟨absent,_⟩ => ?_
    have type := pushed.type
    simp [entry,absent] at type
  rw [readEntityLedgersTelemetry,List.filterMap_map,← List.filterMap_eq_map]
  refine List.filterMap_congr fun e inside => ?_
  rw [Function.comp_apply,entityRow_of coordinate _ (small e inside),
    ownerText_shown shows unique kept (fallback_pushed pushed stored unique storable countable e.1)]
  rfl

theorem entity_rows_finished : ∃ owners, finished.reads () = .returned 30 owners ∧ ∃ ledger now, Consistent finished.source now ∧
    ∀ ae, @readEntityLedgersTelemetry fnvPlatform (fun _ => []) [.of 7 ae] owners finished.source =
      [shownEntity (fun _ => []) (shownOwner ledger now single 7) ae] := by
  let _ := fnvPlatform
  have returned : finished.reads () = .returned 30 ((claimedOwners plainly answered.source).get rfl) := rfl
  have pushed : Pushed finished.source single := ⟨rfl,rfl⟩
  have claimed : claimedIDs finished.source = [7] := rfl
  obtain ⟨moment,ledger,now,_,_,_,_,_,still,rows⟩ := entity_rows plainly empty_store finished_reached returned pushed
    (by rw [Storable]; decide) (by decide) (by rw [claimed]; exact List.nodup_singleton _)
  refine ⟨_,returned,ledger,now,still,fun ae => rows (fun _ => []) [(7,ae)] ?_⟩
  rintro e member
  rw [List.mem_singleton.mp member]
  exact (by decide : (7 : UInt32).toNat < 2^31)

end Rows

end AtlasNet.EntityLedgerTelemetry
