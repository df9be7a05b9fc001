import AtlasNet.Packet
import AtlasNet.ByteFormat

/-! The formats of the packets, and that the registry makes a packet of exactly the
bytes that stand for it. -/
namespace AtlasNet
open Foundation Foundation.Program

namespace ByteFormat

/-- The number of elements, which a container can hold, and then each of them. -/
def counted [Platform] {α : Type} (item : Format UInt8 α) : Format UInt8 (List α) := do
  let count ← u64
  Format.guard (count.toNat ≤ Platform.capacity)
  item.times count.toNat

/-- Fewer elements than an `int` can count. -/
def counted_int [Platform] {α : Type} (item : Format UInt8 α) : Format UInt8 (List α) := do
  let count ← u64
  Format.guard (count.toNat ≤ Platform.capacity)
  let values ← item.times (min count.toNat (2^31))
  Format.guard (count.toNat < 2^31)
  pure values

end ByteFormat

namespace ByteReader

theorem accepts_each {α : Type} {item : Program ByteReader α} {F : Format UInt8 α} (accepts : cursor.Accepts item F)
    (n : Nat) : cursor.Accepts (each item n) (F.times n) := by
  induction n with
  | zero => exact Cursor.accepts_pure _
  | succ n ih => exact Cursor.accepts_bind accepts (fun _ => Cursor.accepts_bind ih (fun _ => Cursor.accepts_pure _))

theorem accepts_counted [Platform] {α : Type} {item : Program ByteReader α} {F : Format UInt8 α}
    (accepts : cursor.Accepts item F) : cursor.Accepts (counted item) (ByteFormat.counted F) := by
  refine Cursor.accepts_bind accepts_u64 (fun count => ?_)
  refine Cursor.accepts_bind ?_ (fun _ => accepts_each accepts _)
  exact Cursor.accepts_congr (Cursor.accepts_throwIf _ _) (fun _ _ => by rw [Nat.not_lt])

theorem accepts_counted_int [Platform] {α : Type} {item : Program ByteReader α} {F : Format UInt8 α}
    (accepts : cursor.Accepts item F) : cursor.Accepts (counted_int item) (ByteFormat.counted_int F) := by
  refine Cursor.accepts_bind accepts_u64 (fun count => ?_)
  refine Cursor.accepts_bind ?_ (fun _ => Cursor.accepts_bind (accepts_each accepts _) (fun _ =>
    Cursor.accepts_bind ?_ (fun _ => Cursor.accepts_pure _)))
  · exact Cursor.accepts_congr (Cursor.accepts_throwIf _ _) (fun _ _ => by rw [Nat.not_lt])
  · exact Cursor.accepts_congr (Cursor.accepts_throwIf _ _) (fun _ _ => by rw [Nat.not_le])

end ByteReader

section Entities

def AABB3f.format : Format UInt8 AABB3f := return ⟨← ByteFormat.vec3,← ByteFormat.vec3⟩

def Transform.format : Format UInt8 Transform := do
  let world ← ByteFormat.u16
  let position ← ByteFormat.vec3
  let boundingBox ← AABB3f.format
  pure {world,position,boundingBox}

/-- Any byte but zero stands for a client. -/
def AtlasEntityMinimal.format : Format UInt8 AtlasEntityMinimal := do
  let Entity_ID ← ByteFormat.uuid
  let IsClient ← ByteFormat.u8
  let Client_ID ← ByteFormat.uuid
  let PacketSeq ← ByteFormat.u64
  let TransferGeneration ← ByteFormat.u64
  let transform ← Transform.format
  pure {Entity_ID,IsClient := IsClient ≠ 0,Client_ID,PacketSeq,TransferGeneration,transform}

def AtlasEntity.format : Format UInt8 AtlasEntity := do
  let minimal ← AtlasEntityMinimal.format
  let Metadata ← ByteFormat.blob
  pure {toAtlasEntityMinimal := minimal,Metadata}

def Sequenced.format : Format UInt8 Sequenced := return ⟨← ByteFormat.uuid,← ByteFormat.u64⟩

def NetworkIdentity.format : Format UInt8 NetworkIdentity := return ⟨⟨← ByteFormat.i32⟩,← ByteFormat.uuid⟩

open ByteReader Cursor

theorem AABB3f.accepts : cursor.Accepts Deserialize format :=
  accepts_bind accepts_vec3 (fun _ => accepts_map _ accepts_vec3)

theorem Transform.accepts : cursor.Accepts Deserialize format :=
  accepts_bind accepts_u16 (fun _ => accepts_bind accepts_vec3 (fun _ => accepts_map _ AABB3f.accepts))

theorem AtlasEntityMinimal.accepts : cursor.Accepts Deserialize format :=
  accepts_bind accepts_uuid (fun _ => accepts_bind accepts_u8 (fun _ => accepts_bind accepts_uuid (fun _ =>
    accepts_bind accepts_u64 (fun _ => accepts_bind accepts_u64 (fun _ => accepts_map _ Transform.accepts)))))

theorem AtlasEntity.accepts : cursor.Accepts Deserialize format :=
  accepts_bind AtlasEntityMinimal.accepts (fun _ => accepts_map _ accepts_blob)

theorem Sequenced.accepts : cursor.Accepts Deserialize format :=
  accepts_bind accepts_uuid (fun _ => accepts_map _ accepts_u64)

theorem NetworkIdentity.accepts : cursor.Accepts Deserialize format :=
  accepts_bind accepts_i32 (fun _ => accepts_map _ accepts_uuid)

end Entities

section Packets
variable [Platform]
open ByteFormat

def numbered {α : Type} (item : Format UInt8 α) : Format UInt8 (α × UInt64) := return (← item,← u64)

def ClientTransferPacket.stageFormat (stage : Int32) : Format UInt8 StageData :=
  if stage = 0 then return .Prepare (← counted (numbered AtlasEntity.format))
  else if stage = 1 then return .Ready (← counted Sequenced.format)
  else if stage = 2 then return .RequestSwitch (← counted uuid) (← NetworkIdentity.format)
  else if stage = 3 then return .Freeze (← counted uuid)
  else if stage = 4 then return .Drained (← counted Sequenced.format)
  else if stage = 5 then return .TransferActivate (← counted (numbered Sequenced.format))
  else Format.fail

def ClientTransferPacket.format : Format UInt8 ClientTransferPacket := do
  let TransferID ← uuid
  let stage ← i32
  let Data ← stageFormat stage
  pure {TransferID,stage,Data}

def EntityTransferPacket.stageFormat (stage : Int32) : Format UInt8 StageData :=
  if stage = 0 then return .Prepare (← counted uuid)
  else if stage = 1 then return .Ready
  else if stage = 2 then return .Commit (← counted (numbered AtlasEntity.format))
  else if stage = 3 then return .Complete
  else Format.fail

def EntityTransferPacket.format : Format UInt8 EntityTransferPacket := do
  let TransferID ← uuid
  let stage ← i32
  let Data ← stageFormat stage
  pure {TransferID,stage,Data}

/-- Any byte but zero announces entities with their metadata. -/
def LocalEntityListRequestPacket.format : Format UInt8 LocalEntityListRequestPacket := do
  let status ← u32
  let metadata ← i8
  if metadata ≠ 0 then return ⟨status,true,.full (← counted_int AtlasEntity.format)⟩
  else return ⟨status,false,.minimal (← counted_int AtlasEntityMinimal.format)⟩

def PacketData.format : PacketClass → Format UInt8 PacketData
  | .ClientTransferPacket => return .clientTransfer (← AtlasNet.ClientTransferPacket.format)
  | .EntityTransferPacket => return .entityTransfer (← AtlasNet.EntityTransferPacket.format)
  | .LocalEntityListRequestPacket => return .localEntityList (← AtlasNet.LocalEntityListRequestPacket.format)
  | .ClientIDAssignPacket => return .clientIDAssign (← NetworkIdentity.format)

def IPacket.format (factory : PacketClass) : Format UInt8 IPacket := do
  let packet_type ← u32
  let data ← PacketData.format factory
  pure {packet_type,data}

open ByteReader Cursor

omit [Platform] in
theorem accepts_numbered {α : Type} {item : Program ByteReader α} {F : Format UInt8 α}
    (accepts : cursor.Accepts item F) : cursor.Accepts (do return (← item,← ByteReader.u64)) (numbered F) :=
  accepts_bind accepts (fun _ => accepts_map _ accepts_u64)

theorem ClientTransferPacket.accepts_stage (stage : Int32) :
    cursor.Accepts (StageData.Deserialize stage) (stageFormat stage) := by
  refine accepts_ite _ (accepts_map _ (accepts_counted (accepts_numbered AtlasEntity.accepts))) ?_
  refine accepts_ite _ (accepts_map _ (accepts_counted Sequenced.accepts)) ?_
  refine accepts_ite _ (accepts_bind (accepts_counted accepts_uuid) (fun _ => accepts_map _ NetworkIdentity.accepts)) ?_
  refine accepts_ite _ (accepts_map _ (accepts_counted accepts_uuid)) ?_
  refine accepts_ite _ (accepts_map _ (accepts_counted Sequenced.accepts)) ?_
  exact accepts_ite _ (accepts_map _ (accepts_counted (accepts_numbered Sequenced.accepts))) (accepts_throw _)

theorem ClientTransferPacket.accepts : cursor.Accepts DeserializeData format :=
  accepts_bind accepts_uuid (fun _ => accepts_bind accepts_i32 (fun stage => accepts_map _ (accepts_stage stage)))

theorem EntityTransferPacket.accepts_stage (stage : Int32) :
    cursor.Accepts (StageData.Deserialize stage) (stageFormat stage) := by
  refine accepts_ite _ (accepts_map _ (accepts_counted accepts_uuid)) ?_
  refine accepts_ite _ (accepts_pure _) ?_
  refine accepts_ite _ (accepts_map _ (accepts_counted (accepts_numbered AtlasEntity.accepts))) ?_
  exact accepts_ite _ (accepts_pure _) (accepts_throw _)

theorem EntityTransferPacket.accepts : cursor.Accepts DeserializeData format :=
  accepts_bind accepts_uuid (fun _ => accepts_bind accepts_i32 (fun stage => accepts_map _ (accepts_stage stage)))

theorem LocalEntityListRequestPacket.accepts : cursor.Accepts DeserializeData format :=
  accepts_bind accepts_u32 (fun _ => accepts_bind accepts_i8 (fun _ => accepts_ite _
    (accepts_map _ (accepts_counted_int AtlasEntity.accepts)) (accepts_map _ (accepts_counted_int AtlasEntityMinimal.accepts))))

theorem PacketData.accepts (factory : PacketClass) : cursor.Accepts (DeserializeData factory) (format factory) := by
  cases factory with
  | ClientTransferPacket => exact accepts_map _ ClientTransferPacket.accepts
  | EntityTransferPacket => exact accepts_map _ EntityTransferPacket.accepts
  | LocalEntityListRequestPacket => exact accepts_map _ LocalEntityListRequestPacket.accepts
  | ClientIDAssignPacket => exact accepts_map _ NetworkIdentity.accepts

theorem IPacket.accepts (factory : PacketClass) : cursor.Accepts (IPacket.Deserialize factory) (format factory) :=
  accepts_bind accepts_u32 (fun _ => accepts_map _ (PacketData.accepts factory))

/-- The packets of the registered classes that validate. -/
def PacketRegistry.format (factories : PacketRegistry) : Format UInt8 IPacket := fun word packet =>
  ∃ factory, factories.find? (fun factory => factory.TypeID = packet.packet_type) = some factory ∧
    IPacket.format factory word packet ∧ packet.Validate = true

omit [Platform] in
theorem PacketRegistry.exec_Create {σ : Type} (factories : PacketRegistry) (type : PacketTypeID) (factory : PacketClass)
    (state : σ) : (exec (factories.Create type) state).1 = .ok factory ↔
      factories.find? (fun factory => factory.TypeID = type) = some factory := by
  unfold Create
  split <;> simp [*]

theorem IPacket.Deserialize_type {factory : PacketClass} {bytes : Bytes} {packet : IPacket}
    (ran : (exec (IPacket.Deserialize factory) {p := bytes}).1 = .ok packet) :
    (exec ByteReader.u32 {p := bytes}).1 = .ok packet.packet_type := by
  obtain ⟨type,middle,started,ran⟩ := bind_returned _ _ _ _ _ (Prod.ext ran rfl)
  obtain ⟨data,last,_,ended⟩ := bind_returned _ _ _ _ _ ran
  cases (Prod.mk.inj ended).1
  rw [started]

/-- The registry makes a packet of a message exactly when the message begins with the
bytes of the packet. -/
theorem PacketRegistry.CreateFromBytes_iff {σ : Type} (factories : PacketRegistry) (bytes : Bytes) (packet : IPacket)
    (state : σ) : exec (factories.CreateFromBytes bytes) state = (.ok packet,state) ↔
      factories.format.Begins bytes packet := by
  have accepted (factory : PacketClass) := accepts_within (IPacket.accepts factory)
    (show cursor.Inside {p := bytes} from Nat.zero_le _) packet
  constructor
  · intro ran
    obtain ⟨type,s,typed,ran⟩ := bind_returned _ _ _ _ _ ran
    obtain ⟨factory,t,created,ran⟩ := bind_returned _ _ _ _ _ ran
    obtain ⟨made,u,deserialized,ran⟩ := bind_returned _ _ _ _ _ ran
    obtain ⟨_,v,validated,ended⟩ := bind_returned _ _ _ _ _ ran
    cases (Prod.mk.inj ended).1
    rw [exec_within] at typed deserialized
    rw [exec_assert] at validated
    have read := (Prod.mk.inj deserialized).1
    have same := (IPacket.Deserialize_type read).symm.trans (Prod.mk.inj typed).1
    cases same
    obtain ⟨front,rest,here,stands⟩ := (accepted factory).mp read
    have valid : packet.Validate = true := by
      by_contra invalid
      rw [if_neg invalid] at validated
      cases (Prod.mk.inj validated).1
    exact ⟨front,rest,here,factory,(exec_Create _ _ _ s).mp (by rw [created]),stands,valid⟩
  · rintro ⟨front,rest,here,factory,found,stands,valid⟩
    have deserialized := (accepted factory).mpr ⟨front,rest,here,stands⟩
    have typed := IPacket.Deserialize_type deserialized
    have created : exec (factories.Create packet.packet_type : Program σ PacketClass) state = (.ok factory,state) := by
      rw [Create,found]
      rfl
    rw [CreateFromBytes,exec_bind_ok _ _ _ _ _ ((exec_within _ _ _).trans (by rw [typed])),
      exec_bind_ok _ _ _ _ _ created,
      exec_bind_ok _ _ _ _ _ ((exec_within _ _ _).trans (by rw [deserialized])),exec_assert_bind,if_pos valid,exec_pure]

end Packets

end AtlasNet
