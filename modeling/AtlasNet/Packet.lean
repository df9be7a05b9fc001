import AtlasNet.Bounds
import AtlasNet.Connection

/-! Entities and the packets that carry them, as they are written to and read from
a message. -/
namespace AtlasNet
open Foundation Foundation.Program

structure Transform where
  world : UInt16 := 0
  position : Vec3 := (0,0,0)
  boundingBox : AABB3f := {}

namespace Transform

def Serialize (t : Transform) (bw : ByteWriter) : ByteWriter :=
  t.boundingBox.Serialize ((bw.u16 t.world).vec3 t.position)

def Deserialize : Program ByteReader Transform := do
  let world ← ByteReader.u16
  let position ← ByteReader.vec3
  let boundingBox ← AABB3f.Deserialize
  pure {world,position,boundingBox}

end Transform

structure AtlasEntityMinimal where
  Entity_ID : UUID := .nil
  IsClient : Bool := false
  Client_ID : UUID := .nil
  PacketSeq : UInt64 := 0
  TransferGeneration : UInt64 := 0
  transform : Transform := {}

namespace AtlasEntityMinimal

def Serialize (e : AtlasEntityMinimal) (bw : ByteWriter) : ByteWriter :=
  e.transform.Serialize
    (((((bw.uuid e.Entity_ID).u8 (if e.IsClient then 1 else 0)).uuid e.Client_ID).u64 e.PacketSeq).u64
      e.TransferGeneration)

def Deserialize : Program ByteReader AtlasEntityMinimal := do
  let Entity_ID ← ByteReader.uuid
  let IsClient ← ByteReader.u8
  let Client_ID ← ByteReader.uuid
  let PacketSeq ← ByteReader.u64
  let TransferGeneration ← ByteReader.u64
  let transform ← Transform.Deserialize
  pure {Entity_ID,IsClient := IsClient ≠ 0,Client_ID,PacketSeq,TransferGeneration,transform}

end AtlasEntityMinimal

structure AtlasEntity extends AtlasEntityMinimal where
  Metadata : Bytes := []

namespace AtlasEntity

def Serialize (e : AtlasEntity) (bw : ByteWriter) : ByteWriter :=
  (e.toAtlasEntityMinimal.Serialize bw).blob e.Metadata

def Deserialize : Program ByteReader AtlasEntity := do
  let minimal ← AtlasEntityMinimal.Deserialize
  let Metadata ← ByteReader.blob
  pure {toAtlasEntityMinimal := minimal,Metadata}

end AtlasEntity

/-- A counted list: the number of elements and then each of them. -/
def ByteWriter.counted {α : Type} (item : α → ByteWriter → ByteWriter) (items : List α) (bw : ByteWriter) :
    ByteWriter :=
  items.foldl (fun bw value => item value bw) (bw.u64 (UInt64.ofNat items.length))

namespace ByteReader

def each {α : Type} (item : Program ByteReader α) : Nat → Program ByteReader (List α)
  | 0 => pure []
  | n+1 => do
    let value ← item
    let rest ← each item n
    pure (value::rest)

/-- The container is sized by the count before an element is read. -/
def counted [Platform] {α : Type} (item : Program ByteReader α) : Program ByteReader (List α) := do
  let count ← u64
  throwIf (Platform.capacity < count.toNat) .lengthError
  each item count.toNat

/-- The same with a loop over an `int`, which overflows behind 2^31 elements. -/
def counted_int [Platform] {α : Type} (item : Program ByteReader α) : Program ByteReader (List α) := do
  let count ← u64
  throwIf (Platform.capacity < count.toNat) .lengthError
  let values ← each item (min count.toNat (2^31))
  throwIf (2^31 ≤ count.toNat) (.undefined "signed overflow of the loop counter")
  pure values

end ByteReader

/-- An entity ID with the sequence number of its last packet. -/
structure Sequenced where
  EntityID : UUID
  LastPacketSequence : UInt64

namespace Sequenced

def Serialize (ed : Sequenced) (bw : ByteWriter) : ByteWriter := (bw.uuid ed.EntityID).u64 ed.LastPacketSequence

def Deserialize : Program ByteReader Sequenced := do
  let EntityID ← ByteReader.uuid
  let LastPacketSequence ← ByteReader.u64
  pure {EntityID,LastPacketSequence}

end Sequenced

namespace ClientTransferPacket

/-- The data of a stage, `std::variant` of the six stage structures. -/
inductive StageData
  | Prepare (entitiesToTransfer : List (AtlasEntity × UInt64))
  | Ready (entitiesToTransfer : List Sequenced)
  | RequestSwitch (entitiesToTransfer : List UUID) (newOwner : NetworkIdentity)
  | Freeze (entitiesToTransfer : List UUID)
  | Drained (entitiesToTransfer : List Sequenced)
  | TransferActivate (entitiesToTransfer : List (Sequenced × UInt64))

def StageData.Serialize : StageData → ByteWriter → ByteWriter
  | .Prepare entities,bw => bw.counted (fun ed bw => (ed.1.Serialize bw).u64 ed.2) entities
  | .Ready entities,bw => bw.counted Sequenced.Serialize entities
  | .RequestSwitch entities newOwner,bw => newOwner.Serialize (bw.counted ByteWriter.uuid entities)
  | .Freeze entities,bw => bw.counted ByteWriter.uuid entities
  | .Drained entities,bw => bw.counted Sequenced.Serialize entities
  | .TransferActivate entities,bw => bw.counted (fun ed bw => (ed.1.Serialize bw).u64 ed.2) entities

/-- The stages eShardPrepare 0, eShardReady 1, eProxyRequestSwitch 2, eProxyFreeze 3,
eShardDrained 4 and eProxyTransferActivate 5. -/
def StageData.Deserialize [Platform] (stage : Int32) : Program ByteReader StageData :=
  if stage = 0 then return .Prepare (← ByteReader.counted (return (← AtlasEntity.Deserialize,← ByteReader.u64)))
  else if stage = 1 then return .Ready (← ByteReader.counted Sequenced.Deserialize)
  else if stage = 2 then return .RequestSwitch (← ByteReader.counted ByteReader.uuid) (← NetworkIdentity.Deserialize)
  else if stage = 3 then return .Freeze (← ByteReader.counted ByteReader.uuid)
  else if stage = 4 then return .Drained (← ByteReader.counted Sequenced.Deserialize)
  else if stage = 5 then
    return .TransferActivate (← ByteReader.counted (return (← Sequenced.Deserialize,← ByteReader.u64)))
  else throw (.runtimeError "Invalid ClientTransferPacket stage")

end ClientTransferPacket

structure ClientTransferPacket where
  TransferID : UUID
  stage : Int32
  Data : ClientTransferPacket.StageData

namespace ClientTransferPacket

def SerializeData (p : ClientTransferPacket) (bw : ByteWriter) : ByteWriter :=
  p.Data.Serialize ((bw.uuid p.TransferID).i32 p.stage)

def DeserializeData [Platform] : Program ByteReader ClientTransferPacket := do
  let TransferID ← ByteReader.uuid
  let stage ← ByteReader.i32
  let Data ← StageData.Deserialize stage
  pure {TransferID,stage,Data}

end ClientTransferPacket

namespace EntityTransferPacket

inductive StageData
  | Prepare (entityIDs : List UUID)
  | Ready
  | Commit (entitySnapshots : List (AtlasEntity × UInt64))
  | Complete

def StageData.Serialize : StageData → ByteWriter → ByteWriter
  | .Prepare entityIDs,bw => bw.counted ByteWriter.uuid entityIDs
  | .Ready,bw => bw
  | .Commit snapshots,bw => bw.counted (fun ed bw => (ed.1.Serialize bw).u64 ed.2) snapshots
  | .Complete,bw => bw

/-- The stages ePrepare 0, eReady 1, eCommit 2 and eComplete 3. -/
def StageData.Deserialize [Platform] (stage : Int32) : Program ByteReader StageData :=
  if stage = 0 then return .Prepare (← ByteReader.counted ByteReader.uuid)
  else if stage = 1 then return .Ready
  else if stage = 2 then return .Commit (← ByteReader.counted (return (← AtlasEntity.Deserialize,← ByteReader.u64)))
  else if stage = 3 then return .Complete
  else throw (.runtimeError "Invalid ClientTransferPacket stage")

end EntityTransferPacket

structure EntityTransferPacket where
  TransferID : UUID
  stage : Int32
  Data : EntityTransferPacket.StageData

namespace EntityTransferPacket

def SerializeData (p : EntityTransferPacket) (bw : ByteWriter) : ByteWriter :=
  p.Data.Serialize ((bw.uuid p.TransferID).i32 p.stage)

def DeserializeData [Platform] : Program ByteReader EntityTransferPacket := do
  let TransferID ← ByteReader.uuid
  let stage ← ByteReader.i32
  let Data ← StageData.Deserialize stage
  pure {TransferID,stage,Data}

end EntityTransferPacket

/-- `std::variant` of the two lists of a `LocalEntityListRequestPacket`. -/
inductive ResponseEntities
  | full (entities : List AtlasEntity)
  | minimal (entities : List AtlasEntityMinimal)

structure LocalEntityListRequestPacket where
  status : UInt32
  Request_IncludeMetadata : Bool
  Response_Entities : ResponseEntities

namespace LocalEntityListRequestPacket

def eQuery : UInt32 := 0
def eResponse : UInt32 := 1

def SerializeData (p : LocalEntityListRequestPacket) (bw : ByteWriter) : ByteWriter :=
  let bw := (bw.u32 p.status).i8 (if p.Request_IncludeMetadata then 1 else 0)
  match p.Response_Entities with
  | .full entities => bw.counted AtlasEntity.Serialize entities
  | .minimal entities => bw.counted AtlasEntityMinimal.Serialize entities

def DeserializeData [Platform] : Program ByteReader LocalEntityListRequestPacket := do
  let status ← ByteReader.u32
  let metadata ← ByteReader.i8
  if metadata ≠ 0 then
    let entities ← ByteReader.counted_int AtlasEntity.Deserialize
    return ⟨status,true,.full entities⟩
  else
    let entities ← ByteReader.counted_int AtlasEntityMinimal.Deserialize
    return ⟨status,false,.minimal entities⟩

def ValidateData (p : LocalEntityListRequestPacket) : Bool :=
  if p.status = eQuery then true
  else if p.status = eResponse then
    match p.Request_IncludeMetadata,p.Response_Entities with
    | true,.full _ => true
    | false,.minimal _ => true
    | _,_ => false
  else false

end LocalEntityListRequestPacket

abbrev PacketTypeID := UInt32

/-- FNV-1a over the characters of a name. -/
def HashString (str : List Char) : UInt32 :=
  str.foldl (fun hash c => (hash ^^^ UInt32.ofNat c.toNat)*16777619) 2166136261

/-- The packet classes of the registry. -/
inductive PacketClass
  | ClientTransferPacket | EntityTransferPacket | LocalEntityListRequestPacket | ClientIDAssignPacket
deriving DecidableEq

def PacketClass.Name : PacketClass → String
  | .ClientTransferPacket => "ClientTransferPacket"
  | .EntityTransferPacket => "EntityTransferPacket"
  | .LocalEntityListRequestPacket => "LocalEntityListRequestPacket"
  | .ClientIDAssignPacket => "ClientIDAssignPacket"

def PacketClass.TypeID (c : PacketClass) : PacketTypeID := HashString c.Name.toList

inductive PacketData
  | clientTransfer (p : ClientTransferPacket)
  | entityTransfer (p : EntityTransferPacket)
  | localEntityList (p : LocalEntityListRequestPacket)
  | clientIDAssign (AssignedClientID : NetworkIdentity)

namespace PacketData

def SerializeData : PacketData → ByteWriter → ByteWriter
  | .clientTransfer p => p.SerializeData
  | .entityTransfer p => p.SerializeData
  | .localEntityList p => p.SerializeData
  | .clientIDAssign AssignedClientID => AssignedClientID.Serialize

def DeserializeData [Platform] : PacketClass → Program ByteReader PacketData
  | .ClientTransferPacket => return .clientTransfer (← AtlasNet.ClientTransferPacket.DeserializeData)
  | .EntityTransferPacket => return .entityTransfer (← AtlasNet.EntityTransferPacket.DeserializeData)
  | .LocalEntityListRequestPacket => return .localEntityList (← AtlasNet.LocalEntityListRequestPacket.DeserializeData)
  | .ClientIDAssignPacket => return .clientIDAssign (← NetworkIdentity.Deserialize)

def ValidateData : PacketData → Bool
  | .clientTransfer _ => true
  | .entityTransfer _ => true
  | .localEntityList p => p.ValidateData
  | .clientIDAssign AssignedClientID => !AssignedClientID.ID.is_nil

end PacketData

structure IPacket where
  packet_type : PacketTypeID
  data : PacketData

namespace IPacket

def Serialize (packet : IPacket) (bw : ByteWriter) : ByteWriter :=
  packet.data.SerializeData (bw.u32 packet.packet_type)

/-- `Deserialize` of a packet of the given class. -/
def Deserialize [Platform] (factory : PacketClass) : Program ByteReader IPacket := do
  let packet_type ← ByteReader.u32
  let data ← PacketData.DeserializeData factory
  pure {packet_type,data}

def Validate (packet : IPacket) : Bool := packet.packet_type ≠ 0xFFFFFFFF && packet.data.ValidateData

end IPacket

abbrev PacketRegistry := List PacketClass

namespace PacketRegistry

def registered : PacketRegistry :=
  [.ClientIDAssignPacket,.LocalEntityListRequestPacket,.EntityTransferPacket,.ClientTransferPacket]

variable [Platform]

def Create {σ : Type} (factories : PacketRegistry) (type : PacketTypeID) : Program σ PacketClass :=
  match factories.find? (fun factory => factory.TypeID = type) with
  | some factory => pure factory
  | none => throw (.assertion "Packet Type not registered?")

/-- The type is read once to choose the packet and again by the packet. -/
def CreateFromBytes {σ : Type} (factories : PacketRegistry) (bytes : Bytes) : Program σ IPacket := do
  let type ← within ByteReader.u32 {p := bytes}
  let factory ← Create factories type
  let packet ← within (IPacket.Deserialize factory) {p := bytes}
  assert packet.Validate "Message From bytes failed to validate"
  pure packet

end PacketRegistry

end AtlasNet
