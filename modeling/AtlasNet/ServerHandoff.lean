import AtlasNet.Bounds
import AtlasNet.NetworkIdentity
import AtlasNet.Foundation.Dictionary

/-! The runtime that simulates the entities of a shard and hands those that leave its
bound over to the shard whose bound has them, at a time that both agree on. -/
namespace AtlasNet.ServerHandoff
open Foundation

abbrev AtlasEntityID := UInt64

structure Transform (vec3 : Type) where
  world : UInt16 := 0
  position : vec3

structure AtlasEntity (vec3 : Type) where
  Entity_ID : AtlasEntityID
  transform : Transform vec3
  IsClient : Bool := false
  Client_ID : UUID := .nil

/-- What a debug simulator carries for each entity, keeps for itself and sees of the world
outside of it, and its arithmetic with these. -/
structure Motion (vec3 Carried Own Outside : Type) where
  Contains : GridShape → vec3 → Bool
  spawn : Outside → UInt32 → Own → vec3 × Carried × Own
  adopt : AtlasEntity vec3 → Option Carried → Own → Carried × Own
  advance : Outside → Own → Own
  move : Outside → Own → vec3 → Carried → vec3 × Carried

structure Simulated (vec3 Carried : Type) where
  entity : AtlasEntity vec3
  carried : Carried

structure DebugEntitySimulator (vec3 Carried Own : Type) where
  own : Own
  entitiesById : Dictionary AtlasEntityID (Simulated vec3 Carried) := ∅

def kDebugEntityIdNamespace : AtlasEntityID := 0xA7105EED00000000

def MakeEntityId (index : UInt32) : AtlasEntityID := kDebugEntityIdNamespace ^^^ ((index+1).toUInt64 <<< 1)

variable {vec3 Carried Own Outside : Type}

namespace DebugEntitySimulator
variable (motion : Motion vec3 Carried Own Outside)

def Count (s : DebugEntitySimulator vec3 Carried Own) : Nat := s.entitiesById.size

def SeedEntity (outside : Outside) (s : DebugEntitySimulator vec3 Carried Own) (i : Nat) : DebugEntitySimulator vec3 Carried Own :=
  let index := UInt32.ofNat i
  let placed := motion.spawn outside index s.own
  let entity : AtlasEntity vec3 := {Entity_ID := MakeEntityId index,transform := {position := placed.1}}
  ⟨placed.2.2,s.entitiesById.insert entity.Entity_ID ⟨entity,placed.2.1⟩⟩

def SeedEntities (outside : Outside) (desiredCount : Nat) (s : DebugEntitySimulator vec3 Carried Own) :
    DebugEntitySimulator vec3 Carried Own :=
  if s.Count ≥ desiredCount then s
  else (List.range' s.Count (desiredCount-s.Count)).foldl (SeedEntity motion outside) s

def AdoptSingleEntity (entity : AtlasEntity vec3) (s : DebugEntitySimulator vec3 Carried Own) :
    DebugEntitySimulator vec3 Carried Own :=
  let adopted := motion.adopt entity ((s.entitiesById.lookup entity.Entity_ID).map (·.carried)) s.own
  ⟨adopted.2,s.entitiesById.insert entity.Entity_ID ⟨entity,adopted.1⟩⟩

def RemoveEntity (entityId : AtlasEntityID) (s : DebugEntitySimulator vec3 Carried Own) : DebugEntitySimulator vec3 Carried Own :=
  {s with entitiesById := s.entitiesById.erase entityId}

def moved (outside : Outside) (own : Own) (s : Simulated vec3 Carried) : Simulated vec3 Carried :=
  let position := motion.move outside own s.entity.transform.position s.carried
  ⟨{s.entity with transform := {s.entity.transform with position := position.1}},position.2⟩

def Tick (outside : Outside) (s : DebugEntitySimulator vec3 Carried Own) : DebugEntitySimulator vec3 Carried Own :=
  let own := motion.advance outside s.own
  ⟨own,s.entitiesById.mapValues (moved motion outside own)⟩

def GetEntitiesSnapshot (s : DebugEntitySimulator vec3 Carried Own) : List (AtlasEntity vec3) :=
  s.entitiesById.values.map (·.entity)

end DebugEntitySimulator

inductive AuthorityState
  | eAuthoritative
  | ePassing
deriving DecidableEq

structure AuthorityEntry (vec3 : Type) where
  entitySnapshot : AtlasEntity vec3
  authorityState : AuthorityState := .eAuthoritative
  passingTo : Option NetworkIdentity := none

structure AuthorityTelemetryRow (vec3 : Type) where
  entityId : AtlasEntityID
  owner : NetworkIdentity
  entitySnapshot : AtlasEntity vec3
  world : UInt16
  position : vec3
  isClient : Bool
  clientId : UUID

/-- `authorityByEntityId` of the tracker. -/
abbrev EntityAuthorityTracker (vec3 : Type) := Dictionary AtlasEntityID (AuthorityEntry vec3)

namespace EntityAuthorityTracker

def SetOwned (tracker : EntityAuthorityTracker vec3) (entity : AtlasEntity vec3) : EntityAuthorityTracker vec3 :=
  match tracker.lookup entity.Entity_ID with
  | none => tracker.insert entity.Entity_ID {entitySnapshot := entity}
  | some entry => tracker.insert entity.Entity_ID {entry with entitySnapshot := entity}

def SetOwnedEntities (ownedEntities : List (AtlasEntity vec3)) (tracker : EntityAuthorityTracker vec3) :
    EntityAuthorityTracker vec3 :=
  let keepIds := ownedEntities.map (·.Entity_ID)
  let kept := ownedEntities.foldl SetOwned tracker
  kept.eraseAll (kept.keys.filter (· ∉ keepIds))

def CollectTelemetryRows (selfIdentity : NetworkIdentity) (tracker : EntityAuthorityTracker vec3) :
    List (AuthorityTelemetryRow vec3) :=
  tracker.entries.map fun entry =>
    let snapshot := entry.2.entitySnapshot
    {entityId := entry.1,owner := selfIdentity,entitySnapshot := snapshot,world := snapshot.transform.world,
      position := snapshot.transform.position,isClient := snapshot.IsClient,clientId := snapshot.Client_ID}

def GetOwnedEntitySnapshots (tracker : EntityAuthorityTracker vec3) : List (AtlasEntity vec3) :=
  tracker.values.map (·.entitySnapshot)

def MarkPassing (entityId : AtlasEntityID) (passingTarget : NetworkIdentity) (tracker : EntityAuthorityTracker vec3) :
    Bool × EntityAuthorityTracker vec3 :=
  match tracker.lookup entityId with
  | none => (false,tracker)
  | some entry =>
    if entry.authorityState = .ePassing ∧ entry.passingTo.any (· == passingTarget) then (false,tracker)
    else (true,tracker.insert entityId {entry with authorityState := .ePassing,passingTo := some passingTarget})

def MarkAuthoritative (entityId : AtlasEntityID) (tracker : EntityAuthorityTracker vec3) : EntityAuthorityTracker vec3 :=
  match tracker.lookup entityId with
  | none => tracker
  | some entry => tracker.insert entityId {entry with authorityState := .eAuthoritative,passingTo := none}

def IsPassing (entityId : AtlasEntityID) (tracker : EntityAuthorityTracker vec3) : Bool :=
  (tracker.lookup entityId).any fun entry => entry.authorityState = .ePassing ∧ entry.passingTo.isSome

def IsPassingTo (entityId : AtlasEntityID) (passingTarget : NetworkIdentity) (tracker : EntityAuthorityTracker vec3) : Bool :=
  (tracker.lookup entityId).any fun entry =>
    entry.authorityState = .ePassing ∧ entry.passingTo.any (· == passingTarget)

end EntityAuthorityTracker

structure PendingIncomingHandoff (vec3 : Type) where
  entity : AtlasEntity vec3
  sender : NetworkIdentity
  transferTimeUs : UInt64 := 0

structure PendingOutgoingHandoff where
  entityId : AtlasEntityID := 0
  targetIdentity : NetworkIdentity := {}
  transferTimeUs : UInt64 := 0

structure GenericEntityPacket (vec3 : Type) where
  sender : NetworkIdentity
  entity : AtlasEntity vec3
  transferTick : UInt64

/-- A packet on its way to the shard it was sent to. -/
structure Sent (vec3 : Type) where
  target : NetworkIdentity
  packet : GenericEntityPacket vec3

/-- A call of the manifest of active transfers. -/
inductive Mark
  | started (entityId : AtlasEntityID) (source target : NetworkIdentity) (transferTimeUs : UInt64)
  | adopted (entityId : AtlasEntityID) (source target : NetworkIdentity) (transferTimeUs : UInt64)
  | committed (entityId : AtlasEntityID) (source target : NetworkIdentity)
  | canceled (entityId : AtlasEntityID)

def Mark.entityId : Mark → AtlasEntityID
  | started entityId .. | adopted entityId .. | committed entityId .. | canceled entityId => entityId

section
variable {entityId : AtlasEntityID} {source target : NetworkIdentity} {transferTimeUs : UInt64}

@[simp] theorem Mark.entityId_started : (Mark.started entityId source target transferTimeUs).entityId = entityId := rfl
@[simp] theorem Mark.entityId_adopted : (Mark.adopted entityId source target transferTimeUs).entityId = entityId := rfl
@[simp] theorem Mark.entityId_committed : (Mark.committed entityId source target).entityId = entityId := rfl
@[simp] theorem Mark.entityId_canceled : (Mark.canceled entityId).entityId = entityId := rfl

end

structure TransferMailbox (vec3 : Type) where
  pendingIncomingByEntityId : Dictionary AtlasEntityID (PendingIncomingHandoff vec3) := ∅
  pendingOutgoingByEntityId : Dictionary AtlasEntityID PendingOutgoingHandoff := ∅

structure ServerAuthorityRuntime (vec3 Carried Own : Type) where
  selfIdentity : NetworkIdentity
  hasSeededInitialEntities : Bool := false
  tracker : EntityAuthorityTracker vec3 := ∅
  debugSimulator : DebugEntitySimulator vec3 Carried Own
  transferMailbox : TransferMailbox vec3 := {}

namespace TransferMailbox
variable (motion : Motion vec3 Carried Own Outside)

def QueueIncoming (entity : AtlasEntity vec3) (sender : NetworkIdentity) (transferTimeUs : UInt64) (mailbox : TransferMailbox vec3) :
    TransferMailbox vec3 :=
  {mailbox with pendingIncomingByEntityId :=
    mailbox.pendingIncomingByEntityId.insert entity.Entity_ID ⟨entity,sender,transferTimeUs⟩}

/-- What the loop over the pending incoming handoffs has done. -/
structure Adopting (vec3 Carried Own : Type) where
  debugSimulator : DebugEntitySimulator vec3 Carried Own
  adoptedIds : List AtlasEntityID := []
  marks : List Mark := []

def adoptIfDue (selfIdentity : NetworkIdentity) (nowUnixTimeUs : UInt64) (done : Adopting vec3 Carried Own)
    (pending : Sigma fun _ : AtlasEntityID => PendingIncomingHandoff vec3) : Adopting vec3 Carried Own :=
  if nowUnixTimeUs < pending.2.transferTimeUs then done
  else {
    debugSimulator := done.debugSimulator.AdoptSingleEntity motion pending.2.entity
    adoptedIds := done.adoptedIds ++ [pending.1]
    marks := done.marks ++ [.adopted pending.1 pending.2.sender selfIdentity pending.2.transferTimeUs]}

/-- The mailbox, the simulator, the number of adopted entities and the marks. -/
def AdoptIncomingIfDue (selfIdentity : NetworkIdentity) (nowUnixTimeUs : UInt64) (mailbox : TransferMailbox vec3)
    (debugSimulator : DebugEntitySimulator vec3 Carried Own) : TransferMailbox vec3 × Adopting vec3 Carried Own :=
  let done := mailbox.pendingIncomingByEntityId.entries.foldl (adoptIfDue motion selfIdentity nowUnixTimeUs) {debugSimulator}
  ({mailbox with pendingIncomingByEntityId := mailbox.pendingIncomingByEntityId.eraseAll done.adoptedIds},done)

def AddPendingOutgoing (mailbox : TransferMailbox vec3) (handoff : PendingOutgoingHandoff) : TransferMailbox vec3 :=
  {mailbox with pendingOutgoingByEntityId := mailbox.pendingOutgoingByEntityId.insert handoff.entityId handoff}

/-- What the loop over the pending outgoing handoffs has done. -/
structure Committing (vec3 Carried Own : Type) where
  debugSimulator : DebugEntitySimulator vec3 Carried Own
  tracker : EntityAuthorityTracker vec3
  committedIds : List AtlasEntityID := []
  canceledIds : List AtlasEntityID := []
  marks : List Mark := []

def commitIfDue (selfIdentity : NetworkIdentity) (nowUnixTimeUs : UInt64) (done : Committing vec3 Carried Own)
    (pending : Sigma fun _ : AtlasEntityID => PendingOutgoingHandoff) : Committing vec3 Carried Own :=
  if nowUnixTimeUs < pending.2.transferTimeUs then done
  else if !done.tracker.IsPassingTo pending.1 pending.2.targetIdentity then
    {done with canceledIds := done.canceledIds ++ [pending.1],marks := done.marks ++ [.canceled pending.1]}
  else {done with
    debugSimulator := done.debugSimulator.RemoveEntity pending.1
    tracker := done.tracker.erase pending.1
    committedIds := done.committedIds ++ [pending.1]
    marks := done.marks ++ [.committed pending.1 selfIdentity pending.2.targetIdentity]}

def CommitOutgoingIfDue (selfIdentity : NetworkIdentity) (nowUnixTimeUs : UInt64) (mailbox : TransferMailbox vec3)
    (debugSimulator : DebugEntitySimulator vec3 Carried Own) (tracker : EntityAuthorityTracker vec3) :
    TransferMailbox vec3 × Committing vec3 Carried Own :=
  let done := mailbox.pendingOutgoingByEntityId.entries.foldl (commitIfDue selfIdentity nowUnixTimeUs) {debugSimulator,tracker}
  ({mailbox with pendingOutgoingByEntityId :=
    (mailbox.pendingOutgoingByEntityId.eraseAll done.committedIds).eraseAll done.canceledIds},done)

end TransferMailbox

namespace BorderHandoffPlanner
variable (motion : Motion vec3 Carried Own Outside)

def SelectTargetClaimKeyForPosition (claimedBounds : List (NetworkIdentity × GridShape)) (selfKey : NetworkIdentity)
    (position : vec3) : NetworkIdentity :=
  match claimedBounds.find? fun claim => !(claim.1 == selfKey) && motion.Contains claim.2 position with
  | none => {}
  | some claim => claim.1

def ResolveIdentityFromClaimKey (claimKey : NetworkIdentity) (servers : List NetworkIdentity) : Option NetworkIdentity :=
  servers.find? (· == claimKey)

/-- What the loop over the owned entities has done. -/
structure Planning (vec3 : Type) where
  tracker : EntityAuthorityTracker vec3
  outgoingHandoffs : List PendingOutgoingHandoff := []
  sent : List (Sent vec3) := []
  marks : List Mark := []

/-- What a shard's own tick reads of the clock and of the shared tables. The registry is read
again for each entity. -/
structure Surroundings (Outside : Type) where
  nowUnixTimeUs : UInt64
  isOwner : Bool
  snapshotDue : Bool
  claimedBounds : List (NetworkIdentity × GridShape)
  GetServers : AtlasEntityID → List NetworkIdentity
  outside : Outside

def plan (selfIdentity : NetworkIdentity) (delayUs : UInt64) (around : Surroundings Outside) (selfBounds : GridShape)
    (done : Planning vec3) (entity : AtlasEntity vec3) : Planning vec3 :=
  if done.tracker.IsPassing entity.Entity_ID then done
  else
    let position := entity.transform.position
    if motion.Contains selfBounds position then {done with tracker := done.tracker.MarkAuthoritative entity.Entity_ID}
    else
      let targetClaimKey := SelectTargetClaimKeyForPosition motion around.claimedBounds selfIdentity position
      match ResolveIdentityFromClaimKey targetClaimKey (around.GetServers entity.Entity_ID) with
      | none => done
      | some targetIdentity =>
        if targetIdentity == selfIdentity then done
        else
          let marked := done.tracker.MarkPassing entity.Entity_ID targetIdentity
          if !marked.1 then done
          else
            let transferTimeUs := around.nowUnixTimeUs+delayUs
            { tracker := marked.2
              outgoingHandoffs := done.outgoingHandoffs ++ [⟨entity.Entity_ID,targetIdentity,transferTimeUs⟩]
              sent := done.sent ++ [⟨targetIdentity,⟨selfIdentity,entity,transferTimeUs⟩⟩]
              marks := done.marks ++ [.started entity.Entity_ID selfIdentity targetIdentity transferTimeUs] }

/-- The map of the claims finds a key by its hash first; identities that print alike and differ in
their hashes are of types that no enumerator names. -/
def PlanAndSendAll (selfIdentity : NetworkIdentity) (delayUs : UInt64) (around : Surroundings Outside)
    (tracker : EntityAuthorityTracker vec3) : Planning vec3 :=
  match around.claimedBounds.find? (·.1 == selfIdentity) with
  | none => {tracker}
  | some claim => tracker.GetOwnedEntitySnapshots.foldl (plan motion selfIdentity delayUs around claim.2) {tracker}

end BorderHandoffPlanner

namespace ServerAuthorityRuntime
open BorderHandoffPlanner
variable (motion : Motion vec3 Carried Own Outside)

def kDefaultTestEntityCount : Nat := 50

/-- What a tick leaves, sends, marks in the manifest and publishes. -/
structure Ticked (vec3 Carried Own : Type) where
  runtime : ServerAuthorityRuntime vec3 Carried Own
  sent : List (Sent vec3)
  marks : List Mark
  published : List (List (AuthorityTelemetryRow vec3))

/-- The first half of `Tick`: what is simulated when the planner looks. -/
def simulate (around : Surroundings Outside) (r : ServerAuthorityRuntime vec3 Carried Own) :
    ServerAuthorityRuntime vec3 Carried Own × List Mark :=
  let adopted := r.transferMailbox.AdoptIncomingIfDue motion r.selfIdentity around.nowUnixTimeUs r.debugSimulator
  let seeds : Bool := around.isOwner && !r.hasSeededInitialEntities
  let seeded := if seeds then adopted.2.debugSimulator.SeedEntities motion around.outside kDefaultTestEntityCount
    else adopted.2.debugSimulator
  let ticked := if seeded.Count > 0 then seeded.Tick motion around.outside else seeded
  ({ r with
    hasSeededInitialEntities := r.hasSeededInitialEntities || seeds
    transferMailbox := adopted.1
    debugSimulator := ticked
    tracker := r.tracker.SetOwnedEntities ticked.GetEntitiesSnapshot },adopted.2.marks)

/-- The second half: entities that have left are handed over, and due ones given up. -/
def handOver (delayUs : UInt64) (around : Surroundings Outside) (r : ServerAuthorityRuntime vec3 Carried Own) (marks : List Mark) :
    Ticked vec3 Carried Own :=
  let planned := PlanAndSendAll motion r.selfIdentity delayUs around r.tracker
  let mailbox := planned.outgoingHandoffs.foldl TransferMailbox.AddPendingOutgoing r.transferMailbox
  let committed := mailbox.CommitOutgoingIfDue r.selfIdentity around.nowUnixTimeUs r.debugSimulator planned.tracker
  let tracker := committed.2.tracker
  let idle := !around.isOwner && tracker.size == 0 && committed.1.pendingIncomingByEntityId.size == 0 &&
    committed.1.pendingOutgoingByEntityId.size == 0
  let rows := tracker.CollectTelemetryRows r.selfIdentity
  { runtime := { r with
      tracker
      debugSimulator := committed.2.debugSimulator
      transferMailbox := committed.1
      hasSeededInitialEntities := r.hasSeededInitialEntities && !idle }
    sent := planned.sent
    marks := marks ++ planned.marks ++ committed.2.marks
    published := (if committed.2.committedIds = [] then [] else [rows]) ++ (if around.snapshotDue then [rows] else []) }

def Tick (delayUs : UInt64) (around : Surroundings Outside) (r : ServerAuthorityRuntime vec3 Carried Own) :
    Ticked vec3 Carried Own :=
  let simulated := r.simulate motion around
  simulated.1.handOver motion delayUs around simulated.2

/-- `OnGenericEntityPacket` and the callback that the runtime set. -/
def OnGenericEntityPacket (packet : GenericEntityPacket vec3) (r : ServerAuthorityRuntime vec3 Carried Own) :
    ServerAuthorityRuntime vec3 Carried Own :=
  if packet.sender == r.selfIdentity then r
  else {r with transferMailbox := r.transferMailbox.QueueIncoming packet.entity packet.sender packet.transferTick}

end ServerAuthorityRuntime

end AtlasNet.ServerHandoff
