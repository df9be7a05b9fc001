import AtlasNet.ServerHandoff
import AtlasNet.Telemetry
import AtlasNet.Foundation.Scripts

/-! The table of the handoffs that are under way and the sets of the shards that hold their
entities, as the two shards of a handoff write them command by command. -/
namespace AtlasNet.HandoffTransferManifest
open Foundation Foundation.Redis Foundation.Streams Script
open ServerHandoff (AtlasEntityID Mark)

/-- The table of the records, and the sets of the holders under keys that lapse. -/
structure Store where
  tables : Database
  holders : Sets := {}

section Stores
variable {α : Type}

def inTables (program : Command α) : Program Store α := Program.zoom (·.tables) (fun tables s => {s with tables}) program

def inHolders (program : Program Sets α) : Program Store α := Program.zoom (·.holders) (fun holders s => {s with holders}) program

/-- `DEL key`. -/
def delKey (key : String) : Program Store Unit := do
  inTables (del key)
  inHolders (Expiring.del key)

end Stores

structure ActiveTransferRecord where
  entityId : AtlasEntityID := 0
  source : Bytes := []
  target : Bytes := []
  transferTimeUs : UInt64 := 0
  lastAuthority : Bytes := []
  state : Bytes := []
  updatedAtUs : UInt64 := 0

/-- In seconds. -/
def kHolderKeyTtl : Nat := 30

def kActiveTransferTable : String := "EntityHandoff:TransferActive"

def kHolderKeyPrefix : String := "EntityHandoff:TransferHolders:"

def HoldersKey (entityId : AtlasEntityID) : String := kHolderKeyPrefix ++ String.ofList (decimal entityId.toNat)

/-- `std::to_string` of an ID. -/
def entityField (entityId : AtlasEntityID) : Bytes := ascii (decimal entityId.toNat)

def columns (record : ActiveTransferRecord) : List Bytes :=
  [record.source,record.target,ascii (decimal record.transferTimeUs.toNat),record.lastAuthority,record.state,
    ascii (decimal record.updatedAtUs.toNat)]

def Encode (record : ActiveTransferRecord) : Bytes := [NetworkManifest.tab].intercalate (columns record)

/-- A number that cannot be read leaves what was assigned before it. -/
def ParseRecord (entityField payload : Bytes) (out : ActiveTransferRecord) : Bool × ActiveTransferRecord :=
  match payload.splitOn NetworkManifest.tab with
  | [source,target,time,lastAuthority,state,updated] =>
    match stoull entityField with
    | none => (false,out)
    | some entityId =>
      let out := {out with entityId,source,target}
      match stoull time with
      | none => (false,out)
      | some transferTimeUs =>
        let out := {out with transferTimeUs,lastAuthority,state}
        match stoull updated with
        | none => (false,out)
        | some updatedAtUs => (true,{out with updatedAtUs})
  | _ => (false,out)

def Upsert (record : ActiveTransferRecord) : Script Store Unit :=
  query (inTables (hset kActiveTransferTable (entityField record.entityId) (Encode record)))

def TryGet (entityId : AtlasEntityID) (out : ActiveTransferRecord) : Script Store (Bool × ActiveTransferRecord) := do
  match ← query (inTables (hget kActiveTransferTable (entityField entityId))) with
  | none => pure (false,out)
  | some payload => pure (ParseRecord (entityField entityId) payload out)

def ClearTransfer (entityId : AtlasEntityID) : Script Store Unit := do
  query (inTables (hdel kActiveTransferTable (entityField entityId)))
  query (delKey (HoldersKey entityId))

/-- The two flags of `TryFinalize` behind a holder. -/
def heldBy (sourceId targetId : Bytes) (has : Bool × Bool) (holder : Bytes) : Bool × Bool :=
  if holder = sourceId then (true,has.2) else if holder = targetId then (has.1,true) else has

def TryFinalize (entityId : AtlasEntityID) (sourceId targetId : Bytes) : Script Store Unit := do
  let holders ← query (inHolders (Sets.smembers (HoldersKey entityId)))
  let (hasSource,hasTarget) := holders.foldl (heldBy sourceId targetId) (false,false)
  if hasTarget && !hasSource then ClearTransfer entityId else pure ()

/-- `nowUs` is what `NowUnixTimeUs` gives in the call. -/
def MarkTransferStarted (entityId : AtlasEntityID) (source target : NetworkIdentity) (transferTimeUs nowUs : UInt64) :
    Script Store Unit := do
  let sourceId := source.text
  let targetId := target.text
  Upsert {entityId,source := sourceId,target := targetId,transferTimeUs,lastAuthority := sourceId
          state := ascii "started".toList,updatedAtUs := nowUs}
  query (inHolders (Sets.sadd (HoldersKey entityId) sourceId))
  let _ttlSet ← query (inHolders (Expiring.expire (HoldersKey entityId) kHolderKeyTtl))

def MarkIncomingAdopted (entityId : AtlasEntityID) (source target : NetworkIdentity) (transferTimeUs nowUs : UInt64) :
    Script Store Unit := do
  let sourceId := source.text
  let targetId := target.text
  let (found,record) ← TryGet entityId {}
  let record := if found then record else {record with entityId,source := sourceId,target := targetId,transferTimeUs}
  let record := if record.source = [] then {record with source := sourceId} else record
  let record := if record.target = [] then {record with target := targetId} else record
  let record := if record.transferTimeUs = 0 then {record with transferTimeUs} else record
  Upsert {record with lastAuthority := targetId,state := ascii "adopted".toList,updatedAtUs := nowUs}
  query (inHolders (Sets.sadd (HoldersKey entityId) targetId))
  let _ttlSet ← query (inHolders (Expiring.expire (HoldersKey entityId) kHolderKeyTtl))
  TryFinalize entityId sourceId targetId

def MarkOutgoingCommitted (entityId : AtlasEntityID) (source target : NetworkIdentity) (nowUs : UInt64) :
    Script Store Unit := do
  let sourceId := source.text
  let targetId := target.text
  let (found,record) ← TryGet entityId {}
  let record := if found then record else {record with entityId,source := sourceId,target := targetId}
  let record := if record.source = [] then {record with source := sourceId} else record
  let record := if record.target = [] then {record with target := targetId} else record
  Upsert {record with lastAuthority := targetId,state := ascii "committed".toList,updatedAtUs := nowUs}
  query (inHolders (Sets.srem (HoldersKey entityId) sourceId))
  TryFinalize entityId sourceId targetId

def MarkTransferCanceled (entityId : AtlasEntityID) : Script Store Unit := ClearTransfer entityId

/-- The records of a table that can be read. -/
def activeTransfers (all : Hash) : List ActiveTransferRecord :=
  all.filterMap fun (entityField,payload) =>
    match ParseRecord entityField payload {} with
    | (true,record) => some record
    | (false,_) => none

def GetAllActiveTransfers : Program Store (List ActiveTransferRecord) := do
  return activeTransfers (← inTables (hgetall kActiveTransferTable))

def GetTransferHolders (entityId : AtlasEntityID) : Program Store (List Bytes) := inHolders (Sets.smembers (HoldersKey entityId))

/-- What a shard writes for a mark of its runtime. -/
def script (nowUs : UInt64) : Mark → Script Store Unit
  | .started entityId source target transferTimeUs => MarkTransferStarted entityId source target transferTimeUs nowUs
  | .adopted entityId source target transferTimeUs => MarkIncomingAdopted entityId source target transferTimeUs nowUs
  | .committed entityId source target => MarkOutgoingCommitted entityId source target nowUs
  | .canceled entityId => MarkTransferCanceled entityId

section Records
variable {entityId : AtlasEntityID} {record out : ActiveTransferRecord}

theorem entityField_injective : Function.Injective entityField := by
  intro a b same
  have first := stoull_decimal a
  rw [show ascii (decimal a.toNat) = ascii (decimal b.toNat) from same,stoull_decimal b] at first
  exact (Option.some.inj first).symm

theorem HoldersKey_injective : Function.Injective HoldersKey := by
  intro a b same
  have digits : decimal a.toNat = decimal b.toNat := by
    have lists := congrArg String.toList same
    simpa [HoldersKey] using lists
  exact entityField_injective (congrArg ascii digits)

theorem HoldersKey_apart (entityId : AtlasEntityID) : kActiveTransferTable ≠ HoldersKey entityId := by
  intro same
  have letters := congrArg (fun key : String => key.toList[22]?) same
  simp [HoldersKey,kActiveTransferTable,kHolderKeyPrefix] at letters

/-- No text of the record has a separator in it. -/
structure ActiveTransferRecord.Plain (record : ActiveTransferRecord) : Prop where
  source : NetworkManifest.tab ∉ record.source
  target : NetworkManifest.tab ∉ record.target
  lastAuthority : NetworkManifest.tab ∉ record.lastAuthority
  state : NetworkManifest.tab ∉ record.state

theorem tab_not_mem_ascii {text : List Char} (whole : text.all printable = true) : NetworkManifest.tab ∉ ascii text :=
  control_not_mem_ascii whole (by decide)

theorem tab_not_mem_text (ID : NetworkIdentity) : NetworkManifest.tab ∉ ID.text :=
  tab_not_mem_ascii ID.printable_toChars

theorem splitOn_Encode (plain : record.Plain) : (Encode record).splitOn NetworkManifest.tab = columns record := by
  refine List.splitOn_intercalate _ ?_ (List.cons_ne_nil _ _)
  simp only [columns,List.forall_mem_cons]
  exact ⟨plain.source,plain.target,tab_not_mem_ascii (printable_decimal _),plain.lastAuthority,plain.state,
    tab_not_mem_ascii (printable_decimal _),fun _ none => absurd none List.not_mem_nil⟩

/-- A record comes back from what it is stored as. -/
theorem ParseRecord_Encode (plain : record.Plain) : ParseRecord (entityField record.entityId) (Encode record) out = (true,record) := by
  have field : stoull (entityField record.entityId) = some record.entityId := stoull_decimal _
  simp only [ParseRecord,splitOn_Encode plain,columns,field,stoull_decimal]

theorem ParseRecord_plain {entityField payload : Bytes} (parsed : ParseRecord entityField payload out = (true,record)) : record.Plain := by
  unfold ParseRecord at parsed
  split at parsed
  · rename_i source target time lastAuthority state updated split
    have clean : ∀ column ∈ payload.splitOn NetworkManifest.tab, NetworkManifest.tab ∉ column := fun _ => not_mem_splitOn
    rw [split] at clean
    simp only [List.forall_mem_cons] at clean
    split at parsed
    · cases parsed
    split at parsed
    · cases parsed
    split at parsed
    · cases parsed
    · obtain rfl := (Prod.mk.inj parsed).2
      exact ⟨clean.1,clean.2.1,clean.2.2.2.1,clean.2.2.2.2.1⟩
  · cases parsed

/-- A plain record comes back from what it is stored as, and a record that could be read, also
from a text that nobody wrote so, is stored as a text that reads the same. -/
theorem records_reencoded (out : ActiveTransferRecord) :
    (∀ record : ActiveTransferRecord, record.Plain → ParseRecord (entityField record.entityId) (Encode record) out = (true,record)) ∧
    ∀ field payload before record, ParseRecord field payload before = (true,record) →
      ParseRecord (entityField record.entityId) (Encode record) out = (true,record) :=
  ⟨fun _ plain => ParseRecord_Encode plain,fun _ _ _ _ parsed => ParseRecord_Encode (ParseRecord_plain parsed)⟩

theorem records_reencoded_blanks :
    ParseRecord (ascii "7".toList) (ascii "a\tb\t +60000us\tc\t\t-1".toList) {} =
      (true,⟨7,ascii ['a'],ascii ['b'],60000,ascii ['c'],[],18446744073709551615⟩) ∧
    ParseRecord (ascii "7".toList) (ascii "a\tb\t60000\tc\t\t18446744073709551615".toList) {} =
      (true,⟨7,ascii ['a'],ascii ['b'],60000,ascii ['c'],[],18446744073709551615⟩) := by
  have read : ParseRecord (ascii "7".toList) (ascii "a\tb\t +60000us\tc\t\t-1".toList) {} =
      (true,⟨7,ascii ['a'],ascii ['b'],60000,ascii ['c'],[],18446744073709551615⟩) := by rfl
  exact ⟨read,(records_reencoded {}).2 _ _ _ _ read⟩

end Records

end AtlasNet.HandoffTransferManifest
