import AtlasNet.PacketFormat
import AtlasNet.ByteWriting

/-! What a packet writes stands for the packet exactly when its stage or flag denotes
the alternative that it holds. The transfer packets survive the wire; a packet that
validates need not. -/
namespace AtlasNet
open Foundation Foundation.Program

section Entities

theorem AABB3f.written (box : AABB3f) : Written box.Serialize format box := by
  have wrote : Written _ format box := written_bind (ByteWriter.written_vec3 box.min)
    (written_map (AABB3f.mk box.min) (ByteWriter.written_vec3 box.max))
  exact wrote

theorem Transform.written (t : Transform) : Written t.Serialize format t := by
  have wrote : Written _ format t := written_bind (ByteWriter.written_u16 t.world)
    (written_bind (ByteWriter.written_vec3 t.position)
      (written_map (fun boundingBox => {t with boundingBox}) t.boundingBox.written))
  exact wrote

theorem AtlasEntityMinimal.written (e : AtlasEntityMinimal) : Written e.Serialize format e := by
  have flag : decide ((if e.IsClient then 1 else 0 : UInt8) ≠ 0) = e.IsClient := by
    cases e.IsClient <;> rfl
  have last := written_map (fun transform => {e with transform,IsClient := (if e.IsClient then 1 else 0 : UInt8) ≠ 0})
    e.transform.written
  have wrote : Written _ format _ := written_bind (ByteWriter.written_uuid e.Entity_ID)
    (written_bind (ByteWriter.written_u8 (if e.IsClient then 1 else 0)) (written_bind (ByteWriter.written_uuid e.Client_ID)
      (written_bind (ByteWriter.written_u64 e.PacketSeq) (written_bind (ByteWriter.written_u64 e.TransferGeneration) last))))
  rw [flag] at wrote
  exact wrote

/-- The length of the metadata can be counted in 32 bits. -/
def AtlasEntity.Storable (e : AtlasEntity) : Prop := e.Metadata.length < 2^32

theorem AtlasEntity.written (e : AtlasEntity) (storable : e.Storable) : Written e.Serialize format e := by
  have wrote : Written _ format e := written_bind e.toAtlasEntityMinimal.written
    (written_map (AtlasEntity.mk e.toAtlasEntityMinimal) (ByteWriter.written_blob e.Metadata storable))
  exact wrote

theorem AtlasEntity.storable_of_format {word : Bytes} {e : AtlasEntity} (stands : format word e) : e.Storable := by
  obtain ⟨_,_,minimal,_,_,_,_,Metadata,_,⟨_,_,len,_,_,long,rfl⟩,_,rfl⟩ := stands
  exact long.trans_lt len.toNat_lt

theorem Sequenced.written (ed : Sequenced) : Written ed.Serialize format ed := by
  have wrote : Written _ format ed := written_bind (ByteWriter.written_uuid ed.EntityID)
    (written_map (Sequenced.mk ed.EntityID) (ByteWriter.written_u64 ed.LastPacketSequence))
  exact wrote

theorem NetworkIdentity.written (ID : NetworkIdentity) : Written ID.Serialize format ID := by
  have wrote : Written _ format ID := written_bind (ByteWriter.written_i32 ID.type.code)
    (written_map (NetworkIdentity.mk ID.type) (ByteWriter.written_uuid ID.ID))
  exact wrote

end Entities

section Lists
variable [Platform] {α : Type} {item : α → ByteWriter → ByteWriter} {F : Format UInt8 α}

/-- The elements fit in a container, whatever their number. -/
def Storable (items : List α) : Prop := items.length ≤ Platform.capacity

theorem count_toNat {items : List α} (storable : Storable items) : (UInt64.ofNat items.length).toNat = items.length := by
  rw [UInt64.toNat_ofNat',Nat.mod_eq_of_lt (lt_of_le_of_lt storable Platform.capacity_size)]

theorem written_counted {items : List α} (storable : Storable items) (each : ∀ value ∈ items, Written (item value) F value) :
    Written (ByteWriter.counted item items) (ByteFormat.counted F) items := by
  have values : Written (items.foldl fun bw value => item value bw) (F.times items.length) items :=
    written_times items each
  have count := count_toNat storable
  rw [← count] at values
  have wrote : Written _ (ByteFormat.counted F) items := written_bind (ByteWriter.written_u64 (UInt64.ofNat items.length))
    (written_bind (written_guard (count.symm ▸ storable)) values)
  exact wrote

theorem written_counted_int {items : List α} (storable : Storable items) (countable : items.length < 2^31)
    (each : ∀ value ∈ items, Written (item value) F value) :
    Written (ByteWriter.counted item items) (ByteFormat.counted_int F) items := by
  have values : Written (items.foldl fun bw value => item value bw) (F.times items.length) items :=
    written_times items each
  have count := count_toNat storable
  rw [← Nat.min_eq_left countable.le,← count] at values
  have wrote : Written _ (ByteFormat.counted_int F) items := written_bind (ByteWriter.written_u64 (UInt64.ofNat items.length))
    (written_bind (written_guard (count.symm ▸ storable))
      (written_bind values (written_bind (written_guard (count.symm ▸ countable)) (written_pure items))))
  exact wrote

theorem parts_of_counted {word : Bytes} {items : List α} (stands : ByteFormat.counted F word items) :
    Storable items ∧ ∀ value ∈ items, ∃ part, F part value := by
  obtain ⟨_,_,count,_,_,_,_,_,_,⟨_,fits⟩,values⟩ := stands
  obtain ⟨long,parts⟩ := Format.times_parts values
  exact ⟨long.trans_le fits,parts⟩

theorem parts_of_counted_int {word : Bytes} {items : List α} (stands : ByteFormat.counted_int F word items) :
    Storable items ∧ items.length < 2^31 ∧ ∀ value ∈ items, ∃ part, F part value := by
  obtain ⟨_,_,count,_,_,_,_,_,_,⟨_,fits⟩,_,_,_,_,values,_,_,_,_,⟨_,countable⟩,_,rfl⟩ := stands
  obtain ⟨long,parts⟩ := Format.times_parts values
  rw [Nat.min_eq_left countable.le] at long
  exact ⟨long.trans_le fits,long.trans_lt countable,parts⟩

omit [Platform] in
theorem written_numbered {value : α × UInt64} (wrote : Written (item value.1) F value.1) :
    Written (fun bw => (item value.1 bw).u64 value.2) (numbered F) value := by
  have both : Written _ (numbered F) value :=
    written_bind wrote (written_map (value.1,·) (ByteWriter.written_u64 value.2))
  exact both

end Lists

namespace ClientTransferPacket
variable [Platform]

def StageData.stage : StageData → Int32
  | .Prepare _ => 0
  | .Ready _ => 1
  | .RequestSwitch _ _ => 2
  | .Freeze _ => 3
  | .Drained _ => 4
  | .TransferActivate _ => 5

def StageData.Storable : StageData → Prop
  | .Prepare entities => AtlasNet.Storable entities ∧ ∀ ed ∈ entities, ed.1.Storable
  | .Ready entities => AtlasNet.Storable entities
  | .RequestSwitch entities _ => AtlasNet.Storable entities
  | .Freeze entities => AtlasNet.Storable entities
  | .Drained entities => AtlasNet.Storable entities
  | .TransferActivate entities => AtlasNet.Storable entities

theorem StageData.written (data : StageData) (storable : data.Storable) :
    Written data.Serialize (stageFormat data.stage) data := by
  cases data with
  | Prepare entities =>
    have snapshots := written_counted storable.1 (fun ed member => written_numbered (ed.1.written (storable.2 ed member)))
    exact written_map StageData.Prepare snapshots
  | Ready entities => exact written_map StageData.Ready (written_counted storable (fun ed _ => ed.written))
  | RequestSwitch entities newOwner =>
    have owner := written_map (StageData.RequestSwitch entities) newOwner.written
    have wrote : Written _ (stageFormat 2) (.RequestSwitch entities newOwner) :=
      written_bind (written_counted storable (fun ID _ => ByteWriter.written_uuid ID)) owner
    exact wrote
  | Freeze entities => exact written_map StageData.Freeze (written_counted storable (fun ID _ => ByteWriter.written_uuid ID))
  | Drained entities => exact written_map StageData.Drained (written_counted storable (fun ed _ => ed.written))
  | TransferActivate entities =>
    exact written_map StageData.TransferActivate (written_counted storable (fun ed _ => written_numbered ed.1.written))

theorem stage_of_format {stage : Int32} {word : Bytes} {data : StageData} (stands : stageFormat stage word data) :
    stage = data.stage ∧ data.Storable := by
  rcases (Format.ite_iff ..).mp stands with ⟨rfl,_,_,entities,_,counted,_,rfl⟩ | ⟨_,stands⟩
  · obtain ⟨storable,parts⟩ := parts_of_counted counted
    refine ⟨rfl,storable,fun ed member => ?_⟩
    obtain ⟨_,_,_,entity,_,snapshot,_,_,_,_,_,_,rfl⟩ := parts ed member
    exact AtlasEntity.storable_of_format snapshot
  rcases (Format.ite_iff ..).mp stands with ⟨rfl,_,_,entities,_,counted,_,rfl⟩ | ⟨_,stands⟩
  · exact ⟨rfl,(parts_of_counted counted).1⟩
  rcases (Format.ite_iff ..).mp stands with ⟨rfl,_,_,entities,_,counted,_,_,_,_,_,_,rfl⟩ | ⟨_,stands⟩
  · exact ⟨rfl,(parts_of_counted counted).1⟩
  rcases (Format.ite_iff ..).mp stands with ⟨rfl,_,_,entities,_,counted,_,rfl⟩ | ⟨_,stands⟩
  · exact ⟨rfl,(parts_of_counted counted).1⟩
  rcases (Format.ite_iff ..).mp stands with ⟨rfl,_,_,entities,_,counted,_,rfl⟩ | ⟨_,stands⟩
  · exact ⟨rfl,(parts_of_counted counted).1⟩
  rcases (Format.ite_iff ..).mp stands with ⟨rfl,_,_,entities,_,counted,_,rfl⟩ | ⟨_,none⟩
  · exact ⟨rfl,(parts_of_counted counted).1⟩
  · exact none.elim

theorem written (p : ClientTransferPacket) (denoted : p.stage = p.Data.stage) (storable : p.Data.Storable) :
    Written p.SerializeData format p := by
  have data := p.Data.written storable
  rw [← denoted] at data
  have wrote : Written _ format p := written_bind (ByteWriter.written_uuid p.TransferID)
    (written_bind (ByteWriter.written_i32 p.stage) (written_map (ClientTransferPacket.mk p.TransferID p.stage) data))
  exact wrote

theorem denoted_of_format {word : Bytes} {p : ClientTransferPacket} (stands : format word p) :
    p.stage = p.Data.stage ∧ p.Data.Storable := by
  obtain ⟨_,_,_,_,_,_,_,stage,_,_,_,_,_,_,data,_,rfl⟩ := stands
  exact stage_of_format data

end ClientTransferPacket

namespace EntityTransferPacket
variable [Platform]

def StageData.stage : StageData → Int32
  | .Prepare _ => 0
  | .Ready => 1
  | .Commit _ => 2
  | .Complete => 3

def StageData.Storable : StageData → Prop
  | .Prepare entityIDs => AtlasNet.Storable entityIDs
  | .Commit snapshots => AtlasNet.Storable snapshots ∧ ∀ ed ∈ snapshots, ed.1.Storable
  | _ => True

theorem StageData.written (data : StageData) (storable : data.Storable) :
    Written data.Serialize (stageFormat data.stage) data := by
  cases data with
  | Prepare entityIDs => exact written_map StageData.Prepare (written_counted storable (fun ID _ => ByteWriter.written_uuid ID))
  | Ready => exact written_pure StageData.Ready
  | Commit snapshots =>
    have commits := written_counted storable.1 (fun ed member => written_numbered (ed.1.written (storable.2 ed member)))
    exact written_map StageData.Commit commits
  | Complete => exact written_pure StageData.Complete

theorem stage_of_format {stage : Int32} {word : Bytes} {data : StageData} (stands : stageFormat stage word data) :
    stage = data.stage ∧ data.Storable := by
  rcases (Format.ite_iff ..).mp stands with ⟨rfl,_,_,entityIDs,_,counted,_,rfl⟩ | ⟨_,stands⟩
  · exact ⟨rfl,(parts_of_counted counted).1⟩
  rcases (Format.ite_iff ..).mp stands with ⟨rfl,_,rfl⟩ | ⟨_,stands⟩
  · exact ⟨rfl,trivial⟩
  rcases (Format.ite_iff ..).mp stands with ⟨rfl,_,_,snapshots,_,counted,_,rfl⟩ | ⟨_,stands⟩
  · obtain ⟨storable,parts⟩ := parts_of_counted counted
    refine ⟨rfl,storable,fun ed member => ?_⟩
    obtain ⟨_,_,_,entity,_,snapshot,_,_,_,_,_,_,rfl⟩ := parts ed member
    exact AtlasEntity.storable_of_format snapshot
  rcases (Format.ite_iff ..).mp stands with ⟨rfl,_,rfl⟩ | ⟨_,none⟩
  · exact ⟨rfl,trivial⟩
  · exact none.elim

theorem written (p : EntityTransferPacket) (denoted : p.stage = p.Data.stage) (storable : p.Data.Storable) :
    Written p.SerializeData format p := by
  have data := p.Data.written storable
  rw [← denoted] at data
  have wrote : Written _ format p := written_bind (ByteWriter.written_uuid p.TransferID)
    (written_bind (ByteWriter.written_i32 p.stage) (written_map (EntityTransferPacket.mk p.TransferID p.stage) data))
  exact wrote

theorem denoted_of_format {word : Bytes} {p : EntityTransferPacket} (stands : format word p) :
    p.stage = p.Data.stage ∧ p.Data.Storable := by
  obtain ⟨_,_,_,_,_,_,_,stage,_,_,_,_,_,_,data,_,rfl⟩ := stands
  exact stage_of_format data

end EntityTransferPacket

section ResponseEntities
variable [Platform]

def ResponseEntities.metadata : ResponseEntities → Bool
  | .full _ => true
  | .minimal _ => false

def ResponseEntities.Storable : ResponseEntities → Prop
  | .full entities => AtlasNet.Storable entities ∧ entities.length < 2^31 ∧ ∀ e ∈ entities, e.Storable
  | .minimal entities => AtlasNet.Storable entities ∧ entities.length < 2^31

theorem LocalEntityListRequestPacket.written (p : LocalEntityListRequestPacket)
    (denoted : p.Request_IncludeMetadata = p.Response_Entities.metadata) (storable : p.Response_Entities.Storable) :
    Written p.SerializeData format p := by
  obtain ⟨status,metadata,entities⟩ := p
  change metadata = entities.metadata at denoted
  subst denoted
  cases entities with
  | full entities =>
    have list := written_map (fun entities => LocalEntityListRequestPacket.mk status true (.full entities))
      (written_counted_int storable.1 storable.2.1 (fun e member => e.written (storable.2.2 e member)))
    have wrote : Written _ format _ :=
      written_bind (ByteWriter.written_u32 status) (written_bind (ByteWriter.written_i8 1) list)
    exact wrote
  | minimal entities =>
    have list := written_map (fun entities => LocalEntityListRequestPacket.mk status false (.minimal entities))
      (written_counted_int storable.1 storable.2 (fun e _ => e.written))
    have wrote : Written _ format _ :=
      written_bind (ByteWriter.written_u32 status) (written_bind (ByteWriter.written_i8 0) list)
    exact wrote

theorem LocalEntityListRequestPacket.denoted_of_format {word : Bytes} {p : LocalEntityListRequestPacket}
    (stands : format word p) :
    p.Request_IncludeMetadata = p.Response_Entities.metadata ∧ p.Response_Entities.Storable := by
  obtain ⟨_,_,status,_,_,_,_,metadata,_,_,list⟩ := stands
  rcases (Format.ite_iff ..).mp list with ⟨_,_,_,entities,_,counted,_,rfl⟩ | ⟨_,_,_,entities,_,counted,_,rfl⟩
  · obtain ⟨storable,countable,parts⟩ := parts_of_counted_int counted
    refine ⟨rfl,storable,countable,fun e member => ?_⟩
    obtain ⟨_,stored⟩ := parts e member
    exact AtlasEntity.storable_of_format stored
  · obtain ⟨storable,countable,_⟩ := parts_of_counted_int counted
    exact ⟨rfl,storable,countable⟩

end ResponseEntities

namespace PacketData
variable [Platform]

def packetClass : PacketData → PacketClass
  | clientTransfer _ => .ClientTransferPacket
  | entityTransfer _ => .EntityTransferPacket
  | localEntityList _ => .LocalEntityListRequestPacket
  | clientIDAssign _ => .ClientIDAssignPacket

/-- The stage or the flag denotes the alternative that the variant holds. -/
def Denoted : PacketData → Prop
  | clientTransfer p => p.stage = p.Data.stage
  | entityTransfer p => p.stage = p.Data.stage
  | localEntityList p => p.Request_IncludeMetadata = p.Response_Entities.metadata
  | clientIDAssign _ => True

def Storable : PacketData → Prop
  | clientTransfer p => p.Data.Storable
  | entityTransfer p => p.Data.Storable
  | localEntityList p => p.Response_Entities.Storable
  | clientIDAssign _ => True

theorem written (data : PacketData) (denoted : data.Denoted) (storable : data.Storable) :
    Written data.SerializeData (format data.packetClass) data := by
  cases data with
  | clientTransfer p => exact written_map PacketData.clientTransfer (p.written denoted storable)
  | entityTransfer p => exact written_map PacketData.entityTransfer (p.written denoted storable)
  | localEntityList p => exact written_map PacketData.localEntityList (p.written denoted storable)
  | clientIDAssign ID => exact written_map PacketData.clientIDAssign ID.written

theorem denoted_of_format {factory : PacketClass} {word : Bytes} {data : PacketData} (stands : format factory word data) :
    factory = data.packetClass ∧ data.Denoted ∧ data.Storable := by
  cases factory with
  | ClientTransferPacket =>
    obtain ⟨_,_,p,_,read,_,rfl⟩ := stands
    exact ⟨rfl,ClientTransferPacket.denoted_of_format read⟩
  | EntityTransferPacket =>
    obtain ⟨_,_,p,_,read,_,rfl⟩ := stands
    exact ⟨rfl,EntityTransferPacket.denoted_of_format read⟩
  | LocalEntityListRequestPacket =>
    obtain ⟨_,_,p,_,read,_,rfl⟩ := stands
    exact ⟨rfl,LocalEntityListRequestPacket.denoted_of_format read⟩
  | ClientIDAssignPacket =>
    obtain ⟨_,_,ID,_,_,_,rfl⟩ := stands
    exact ⟨rfl,trivial,trivial⟩

def packet (data : PacketData) : IPacket := {packet_type := data.packetClass.TypeID,data}

end PacketData

namespace IPacket
variable [Platform]

/-- The type is that of the class of the data, the variant holds what the packet says
it holds, and the lengths can be counted. -/
structure WellBuilt (packet : IPacket) : Prop where
  typed : packet.packet_type = packet.data.packetClass.TypeID
  denoted : packet.data.Denoted
  storable : packet.data.Storable

theorem written (packet : IPacket) (denoted : packet.data.Denoted) (storable : packet.data.Storable) :
    Written packet.Serialize (format packet.data.packetClass) packet := by
  have wrote : Written _ (format packet.data.packetClass) packet :=
    written_bind (ByteWriter.written_u32 packet.packet_type)
      (written_map (IPacket.mk packet.packet_type) (packet.data.written denoted storable))
  exact wrote

theorem exec_Deserialize (packet : IPacket) (denoted : packet.data.Denoted) (storable : packet.data.Storable)
    (rest : Bytes) : exec (Deserialize packet.data.packetClass) {p := (packet.Serialize {}).buf ++ rest} =
      (.ok packet,{p := (packet.Serialize {}).buf ++ rest,i := (packet.Serialize {}).buf.length}) :=
  exec_written (IPacket.accepts _) (packet.written denoted storable) rest

end IPacket

namespace PacketRegistry

theorem find_registered (factory : PacketClass) :
    registered.find? (fun candidate => candidate.TypeID = factory.TypeID) = some factory := by
  cases factory <;> rfl

theorem TypeID_valid (factory : PacketClass) : factory.TypeID ≠ 0xFFFFFFFF := by
  cases factory <;> decide

variable [Platform]

/-- What is written comes back, whatever follows it, from a packet that is well built. -/
theorem exec_CreateFromBytes {σ : Type} {packet : IPacket} (valid : packet.Validate = true) (built : packet.WellBuilt)
    (rest : Bytes) (state : σ) :
    exec (registered.CreateFromBytes ((packet.Serialize {}).buf ++ rest)) state = (.ok packet,state) := by
  have stands := written_buf (packet.written built.denoted built.storable)
  have found := find_registered packet.data.packetClass
  rw [← built.typed] at found
  exact (CreateFromBytes_iff _ _ _ _).mpr ⟨_,rest,rfl,_,found,stands,valid⟩

theorem exec_CreateFromBytes_alone {σ : Type} {packet : IPacket} (valid : packet.Validate = true) (built : packet.WellBuilt) (state : σ) :
    exec (registered.CreateFromBytes (packet.Serialize {}).buf) state = (.ok packet,state) := by
  have ran := exec_CreateFromBytes valid built [] state
  rwa [List.append_nil] at ran

theorem wellBuilt_of_created {σ : Type} {packet : IPacket} {bytes : Bytes} {state : σ}
    (ran : exec (registered.CreateFromBytes bytes) state = (.ok packet,state)) : packet.WellBuilt := by
  obtain ⟨front,rest,_,factory,found,⟨_,_,type,_,_,_,_,data,_,stands,_,rfl⟩,_⟩ := (CreateFromBytes_iff _ _ _ _).mp ran
  obtain ⟨rfl,denoted,storable⟩ := PacketData.denoted_of_format stands
  have typed := List.find?_some found
  exact ⟨(of_decide_eq_true typed).symm,denoted,storable⟩

/-- A transfer packet survives the wire, and its bytes are all that decoding reads. -/
theorem transfer_survives {σ : Type} (data : PacketData)
    (transfer : data.packetClass = .ClientTransferPacket ∨ data.packetClass = .EntityTransferPacket)
    (denoted : data.Denoted) (storable : data.Storable) (rest : Bytes) (state : σ) :
    exec (registered.CreateFromBytes (data.packet.Serialize {}).buf) state = (.ok data.packet,state) ∧
      exec (registered.CreateFromBytes ((data.packet.Serialize {}).buf ++ rest)) state = (.ok data.packet,state) ∧
      exec (IPacket.Deserialize data.packetClass) {p := (data.packet.Serialize {}).buf ++ rest} =
        (.ok data.packet,
          {p := (data.packet.Serialize {}).buf ++ rest,i := (data.packet.Serialize {}).buf.length}) := by
  have built : data.packet.WellBuilt := ⟨rfl,denoted,storable⟩
  have valid : data.packet.Validate = true := by
    have typed : decide (data.packetClass.TypeID ≠ 0xFFFFFFFF) = true := decide_eq_true (TypeID_valid _)
    have checked : data.ValidateData = true := by
      cases data with
      | clientTransfer p => rfl
      | entityTransfer p => rfl
      | localEntityList p => rcases transfer with no | no <;> cases no
      | clientIDAssign ID => rcases transfer with no | no <;> cases no
    exact Bool.and_eq_true_iff.mpr ⟨typed,checked⟩
  exact ⟨exec_CreateFromBytes_alone valid built state,exec_CreateFromBytes valid built rest state,
    data.packet.exec_Deserialize denoted storable rest⟩

def switchRequest : PacketData := .clientTransfer {
  TransferID := .nil,stage := 2,Data := .RequestSwitch [.nil,.nil] (NetworkIdentity.MakeIDShard .nil)}

omit [Platform] in
theorem transfer_survives_switch : switchRequest.packetClass = .ClientTransferPacket ∧
    exec (@CreateFromBytes fnvPlatform Unit registered (switchRequest.packet.Serialize {}).buf) () =
      (.ok switchRequest.packet,()) := by
  let _ := fnvPlatform
  have few : Storable [UUID.nil,UUID.nil] := by
    change 2 ≤ 2^32
    decide
  exact ⟨rfl,(transfer_survives switchRequest (.inl rfl) rfl few [] ()).1⟩

/-- A packet that validates comes back exactly when it is well built. -/
theorem validated_decodes_iff {σ : Type} (packet : IPacket) (valid : packet.Validate = true) (state : σ) :
    exec (registered.CreateFromBytes (packet.Serialize {}).buf) state = (.ok packet,state) ↔ packet.WellBuilt :=
  ⟨wellBuilt_of_created,fun built => exec_CreateFromBytes_alone valid built state⟩

def readyFreeze : PacketData := .clientTransfer {TransferID := .nil,stage := 1,Data := .Freeze [.nil]}

omit [Platform] in
theorem validated_decodes_switch : switchRequest.packet.Validate = true ∧
    exec (@CreateFromBytes fnvPlatform Unit registered (switchRequest.packet.Serialize {}).buf) () =
      (.ok switchRequest.packet,()) := by
  let _ := fnvPlatform
  have valid : switchRequest.packet.Validate = true := rfl
  have few : Storable [UUID.nil,UUID.nil] := by
    change 2 ≤ 2^32
    decide
  exact ⟨valid,(validated_decodes_iff switchRequest.packet valid ()).mpr ⟨rfl,rfl,few⟩⟩

omit [Platform] in
/-- It validates, but its receiver takes it for the data of eShardReady. -/
theorem readyFreeze_lost : readyFreeze.packet.Validate = true ∧
    exec (@CreateFromBytes fnvPlatform Unit registered (readyFreeze.packet.Serialize {}).buf) () ≠
      (.ok readyFreeze.packet,()) := by
  let _ := fnvPlatform
  have valid : readyFreeze.packet.Validate = true := rfl
  refine ⟨valid,fun ran => ?_⟩
  have denoted : (1 : Int32) = 3 := (wellBuilt_of_created ran).denoted
  cases denoted

end PacketRegistry

end AtlasNet
