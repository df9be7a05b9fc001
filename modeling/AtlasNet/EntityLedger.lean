import AtlasNet.ShardLookup
import AtlasNet.Foundation.System

/-! The ledger of a shard's entities, the loop that looks for entities outside of the
leased bound, and the coordinator that puts them into transfers. -/
namespace AtlasNet
open Foundation

abbrev AtlasEntityID := UUID

/-- A transfer of entities, or of clients. -/
structure TransferData where
  ID : UUID
  entityIDs : List AtlasEntityID := []

structure TransferCoordinator where
  EntityTransfers : List TransferData := []
  ClientTransfers : List TransferData := []

/-- What `UUIDGen::Gen` gives for a transfer of entities and for one of clients. -/
structure Generated where
  entity : UUID
  client : UUID

/-- The entities stand in the order in which they came, where the `flat_map` of the source sorts
them by their IDs. -/
structure EntityLedger where
  entities : List (AtlasEntityID × AtlasEntity) := []
  entitiesMarkedForTransfer : List AtlasEntityID := []

namespace EntityLedger

def find (ID : AtlasEntityID) (ledger : EntityLedger) : Option AtlasEntity :=
  (Table.find (fun entry => entry.1 = ID) ledger.entities).map (·.2)

def RegisterNewEntity (e : AtlasEntity) (ledger : EntityLedger) : Except Fault EntityLedger :=
  if (ledger.find e.Entity_ID).isSome then .error (.assertion "Duplicate Entities")
  else .ok {ledger with entities := ledger.entities ++ [(e.Entity_ID,e)]}

def IsEntityClient (ID : AtlasEntityID) (ledger : EntityLedger) : Except Fault Bool :=
  match ledger.find ID with
  | none => .error (.assertion "Invalid ID")
  | some e => .ok e.IsClient

end EntityLedger

namespace TransferData

def push_back (ID : UUID) (entityID : AtlasEntityID) (data : Option TransferData) : TransferData :=
  let data := data.getD {ID}
  {data with entityIDs := data.entityIDs ++ [entityID]}

/-- A transfer whose ID is there already is not inserted. -/
def insert (data : Option TransferData) (transfers : List TransferData) : List TransferData :=
  match data with
  | none => transfers
  | some data => if transfers.any (·.ID = data.ID) then transfers else transfers ++ [data]

end TransferData

namespace TransferCoordinator

/-- The loop over the entities, with the transfer of entities and the one of clients. -/
def grouped (ledger : EntityLedger) (Gen : Generated) (entities : List AtlasEntityID) :
    Except Fault (Option TransferData × Option TransferData) :=
  entities.foldlM (fun (ed,cd) entityID => do
    let isClient ← ledger.IsEntityClient entityID
    if isClient then pure (ed,some (TransferData.push_back Gen.client entityID cd))
    else pure (some (TransferData.push_back Gen.entity entityID ed),cd)) (none,none)

def MarkEntitiesForTransfer (ledger : EntityLedger) (Gen : Generated) (entities : List AtlasEntityID)
    (coordinator : TransferCoordinator) : Except Fault TransferCoordinator := do
  let (ed,cd) ← grouped ledger Gen entities
  pure {EntityTransfers := TransferData.insert ed coordinator.EntityTransfers
        ClientTransfers := TransferData.insert cd coordinator.ClientTransfers}

end TransferCoordinator

namespace EntityLedger

structure State where
  leaser : BoundLeaser := {}
  ledger : EntityLedger := {}
  coordinator : TransferCoordinator := {}

/-- The IDs that are out of bounds newly, and the marked ones, behind a look at an entity. -/
def look (leaser : BoundLeaser) (found : List AtlasEntityID × List AtlasEntityID) (entry : AtlasEntityID × AtlasEntity) :
    Except Fault (List AtlasEntityID × List AtlasEntityID) :=
  if entry.1 ∈ found.2 then .ok found
  else do
    let bound ← leaser.GetBound
    if bound.aabb.containsBits entry.2.transform.position then pure found
    else pure (found.1 ++ [entry.1],found.2 ++ [entry.1])

/-- The body of the loop of `LoopThreadEntry`. -/
def iterate (Gen : Generated) (s : State) : Except Fault State :=
  if s.leaser.HasBound then do
    let (EntitiesNewlyOutOfBounds,marked) ← s.ledger.entities.foldlM (look s.leaser) ([],s.ledger.entitiesMarkedForTransfer)
    let ledger := {s.ledger with entitiesMarkedForTransfer := marked}
    if EntitiesNewlyOutOfBounds = [] then pure {s with ledger}
    else
      let coordinator ← s.coordinator.MarkEntitiesForTransfer ledger Gen EntitiesNewlyOutOfBounds
      pure {s with ledger,coordinator}
  else .ok s

/-- An entity moves through the reference that `ViewLocalEntities` gives. -/
def move (ID : AtlasEntityID) (transform : Transform) (ledger : EntityLedger) : EntityLedger :=
  {ledger with entities := ledger.entities.map fun entry =>
    if entry.1 = ID then (entry.1,{entry.2 with transform}) else entry}

/-- The leased bound may be any other between two iterations. -/
inductive Event
  | RegisterNewEntity (e : AtlasEntity)
  | move (ID : AtlasEntityID) (transform : Transform)
  | lease (leaser : BoundLeaser)
  | iterate (Gen : Generated)

def next : Event → State → Option State
  | .RegisterNewEntity e,s => (s.ledger.RegisterNewEntity e).toOption.map fun ledger => {s with ledger}
  | .move ID transform,s => some {s with ledger := s.ledger.move ID transform}
  | .lease leaser,s => some {s with leaser}
  | .iterate Gen,s => (iterate Gen s).toOption

def looping : System State Event := .stepping {} next

/-- The IDs that are generated are those of no transfer. -/
def Fresh (s : State) : Event → Prop
  | .iterate Gen => (∀ t ∈ s.coordinator.EntityTransfers, t.ID ≠ Gen.entity) ∧
      ∀ t ∈ s.coordinator.ClientTransfers, t.ID ≠ Gen.client
  | _ => True

def State.transfers (s : State) : List TransferData := s.coordinator.EntityTransfers ++ s.coordinator.ClientTransfers

def outside (bound : GridShape) (e : AtlasEntity) : Bool := !bound.aabb.containsBits e.transform.position

/-- The unmarked IDs of the entities outside. -/
def departing (bound : GridShape) (marked : List AtlasEntityID) (entities : List (AtlasEntityID × AtlasEntity)) : List AtlasEntityID :=
  (entities.filter fun entry => entry.1 ∉ marked ∧ outside bound entry.2 = true).map (·.1)

section Looking
variable {leaser : BoundLeaser} {bound : GridShape}

theorem departing_marked {marked : List AtlasEntityID} {ID : AtlasEntityID} {entities : List (AtlasEntityID × AtlasEntity)}
    (absent : ID ∉ entities.map (·.1)) : departing bound (marked ++ [ID]) entities = departing bound marked entities := by
  unfold departing
  congr 1
  apply List.filter_congr
  intro entry member
  have different : entry.1 ≠ ID := fun same => absent (List.mem_map.mpr ⟨entry,member,same⟩)
  simp [different]

theorem look_run (leased : leaser.ClaimedBound = some bound) {entities : List (AtlasEntityID × AtlasEntity)}
    (distinct : (entities.map (·.1)).Nodup) (found marked : List AtlasEntityID) :
    entities.foldlM (look leaser) (found,marked) =
      .ok (found ++ departing bound marked entities,marked ++ departing bound marked entities) := by
  induction entities generalizing found marked with
  | nil => simp [departing,pure,Except.pure]
  | cons entry entities ih =>
    obtain ⟨absent,distinct⟩ := List.nodup_cons.mp distinct
    rw [List.foldlM_cons]
    by_cases known : entry.1 ∈ marked
    · rw [look,if_pos known]
      refine (ih distinct found marked).trans ?_
      simp [departing,known]
    · rw [look,if_neg known,BoundLeaser.GetBound,leased]
      by_cases inside : bound.aabb.containsBits entry.2.transform.position = true
      · refine (congrArg (· >>= _) (if_pos inside)).trans ((ih distinct found marked).trans ?_)
        simp [departing,outside,inside]
      · refine (congrArg (· >>= _) (if_neg inside)).trans ((ih distinct _ _).trans ?_)
        rw [departing_marked absent]
        simp [departing,outside,known,inside]

end Looking

end EntityLedger

namespace TransferData

/-- The transfer of the IDs, if there are any. -/
def batch (ID : UUID) (entityIDs : List AtlasEntityID) : Option TransferData :=
  if entityIDs = [] then none else some {ID,entityIDs}

theorem push_back_batch (ID : UUID) (entityID : AtlasEntityID) (entityIDs : List AtlasEntityID) :
    some (push_back ID entityID (batch ID entityIDs)) = batch ID (entityIDs ++ [entityID]) := by
  rw [batch,batch,if_neg (List.append_ne_nil_of_right_ne_nil _ (List.cons_ne_nil _ _))]
  split
  · rename_i none
    rw [none]
    rfl
  · rfl

theorem batch_entityIDs (ID : UUID) (entityIDs : List AtlasEntityID) :
    (batch ID entityIDs).toList.flatMap (·.entityIDs) = entityIDs := by
  rw [batch]
  split
  · rename_i none
    exact none.symm
  · exact List.flatMap_singleton ..

theorem mem_batch {ID : UUID} {entityIDs : List AtlasEntityID} {t : TransferData} (member : t ∈ (batch ID entityIDs).toList) :
    t = {ID,entityIDs} ∧ entityIDs ≠ [] := by
  rw [batch] at member
  split at member
  · cases member
  · rename_i nonempty
    exact ⟨List.mem_singleton.mp member,nonempty⟩

theorem insert_batch {ID : UUID} {transfers : List TransferData} (fresh : ∀ t ∈ transfers, t.ID ≠ ID)
    (entityIDs : List AtlasEntityID) : insert (batch ID entityIDs) transfers = transfers ++ (batch ID entityIDs).toList := by
  rw [batch]
  split
  · exact (List.append_nil _).symm
  · have absent : ¬ transfers.any (·.ID = ID) = true := by simpa using fresh
    exact if_neg absent

end TransferData

namespace TransferCoordinator
open TransferData

theorem grouped_eq {ledger : EntityLedger} {isClient : AtlasEntityID → Bool} (Gen : Generated) (entities : List AtlasEntityID)
    (known : ∀ ID ∈ entities, ledger.IsEntityClient ID = .ok (isClient ID)) :
    grouped ledger Gen entities =
      .ok (batch Gen.entity (entities.filter (!isClient ·)),batch Gen.client (entities.filter isClient)) := by
  have general (others clients : List AtlasEntityID) : entities.foldlM (fun (ed,cd) entityID => do
      let isClient ← ledger.IsEntityClient entityID
      if isClient then pure (ed,some (push_back Gen.client entityID cd))
      else pure (some (push_back Gen.entity entityID ed),cd)) (batch Gen.entity others,batch Gen.client clients) =
      Except.ok (batch Gen.entity (others ++ entities.filter (!isClient ·)),batch Gen.client (clients ++ entities.filter isClient)) := by
    induction entities generalizing others clients with
    | nil => simp [pure,Except.pure]
    | cons ID entities ih =>
      have ih := ih fun other member => known other (List.mem_cons_of_mem _ member)
      rw [List.foldlM_cons]
      dsimp only
      rw [known ID List.mem_cons_self]
      cases kind : isClient ID with
      | true =>
        have step := ih others (clients ++ [ID])
        rw [← push_back_batch] at step
        refine step.trans ?_
        simp [kind]
      | false =>
        have step := ih (others ++ [ID]) clients
        rw [← push_back_batch] at step
        refine step.trans ?_
        simp [kind]
  exact general [] []

end TransferCoordinator

namespace EntityLedger
open TransferData

def kind (ledger : EntityLedger) (ID : AtlasEntityID) : Bool := (ledger.find ID).any (·.IsClient)

theorem find_mem {ledger : EntityLedger} {ID : AtlasEntityID} (member : ID ∈ ledger.entities.map (·.1)) :
    ∃ e, ledger.find ID = some e := by
  obtain ⟨entry,there,rfl⟩ := List.mem_map.mp member
  cases found : Table.find (fun other => other.1 = entry.1) ledger.entities with
  | none => simpa using Table.find_none.mp found entry there
  | some other => exact ⟨other.2,by rw [find,found]; rfl⟩

theorem IsEntityClient_mem {ledger : EntityLedger} {ID : AtlasEntityID} (member : ID ∈ ledger.entities.map (·.1)) :
    ledger.IsEntityClient ID = .ok (ledger.kind ID) := by
  obtain ⟨e,found⟩ := find_mem member
  rw [IsEntityClient,kind,found]
  rfl

/-- The marked IDs are those of the transfers, where each occurs once, in a transfer of its kind. -/
structure Invariant (s : State) : Prop where
  distinct : (s.ledger.entities.map (·.1)).Nodup
  known : ∀ ID ∈ s.ledger.entitiesMarkedForTransfer, ID ∈ s.ledger.entities.map (·.1)
  once : s.ledger.entitiesMarkedForTransfer.Nodup
  marked : s.ledger.entitiesMarkedForTransfer.Perm (s.transfers.flatMap (·.entityIDs))
  others : ∀ t ∈ s.coordinator.EntityTransfers, ∀ ID ∈ t.entityIDs, s.ledger.IsEntityClient ID = .ok false
  clients : ∀ t ∈ s.coordinator.ClientTransfers, ∀ ID ∈ t.entityIDs, s.ledger.IsEntityClient ID = .ok true
  nonempty : ∀ t ∈ s.transfers, t.entityIDs ≠ []

section Steps
variable {s after : State}

theorem invariant_initial : Invariant {} := by
  constructor <;> simp [State.transfers]

theorem invariant_entities (holds : Invariant s) {entities : List (AtlasEntityID × AtlasEntity)}
    (distinct : (entities.map (·.1)).Nodup) (kept : s.ledger.entities.map (·.1) ⊆ entities.map (·.1))
    (kinds : ∀ ID isClient, s.ledger.IsEntityClient ID = .ok isClient →
      IsEntityClient ID {s.ledger with entities} = .ok isClient) :
    Invariant {s with ledger := {s.ledger with entities}} := by
  constructor
  · exact distinct
  · exact fun ID member => kept (holds.known ID member)
  · exact holds.once
  · exact holds.marked
  · exact fun t member ID there => kinds ID false (holds.others t member ID there)
  · exact fun t member ID there => kinds ID true (holds.clients t member ID there)
  · exact holds.nonempty

theorem invariant_RegisterNewEntity (holds : Invariant s) {e : AtlasEntity} {ledger : EntityLedger}
    (registered : s.ledger.RegisterNewEntity e = .ok ledger) : Invariant {s with ledger} := by
  rw [RegisterNewEntity] at registered
  split at registered
  · cases registered
  · rename_i absent
    obtain rfl := Except.ok.inj registered
    apply invariant_entities holds
    · rw [List.map_append,List.nodup_append]
      refine ⟨holds.distinct,List.nodup_singleton _,fun ID member other own same => absent ?_⟩
      obtain rfl := List.mem_singleton.mp own
      obtain ⟨known,there⟩ := find_mem member
      have found : s.ledger.find e.Entity_ID = some known := (congrArg (EntityLedger.find · s.ledger) same.symm).trans there
      rw [found]
      rfl
    · rw [List.map_append]
      exact List.subset_append_left _ _
    · intro ID isClient before
      rw [IsEntityClient] at before ⊢
      cases found : s.ledger.find ID with
      | none =>
        rw [found] at before
        cases before
      | some other =>
        obtain ⟨entry,first,same⟩ := Option.map_eq_some_iff.mp found
        have still : find ID {s.ledger with entities := s.ledger.entities ++ [(e.Entity_ID,e)]} = some other := by
          rw [find,Table.find,List.find?_append]
          rw [Table.find] at first
          rw [first]
          exact congrArg some same
        rw [found] at before
        rw [still]
        exact before

theorem find_move (ID moved : AtlasEntityID) (transform : Transform) (ledger : EntityLedger) :
    ((ledger.move moved transform).find ID).map (·.IsClient) = (ledger.find ID).map (·.IsClient) := by
  rw [find,find,move,Table.find,Table.find,List.find?_map]
  have same : (fun entry : AtlasEntityID × AtlasEntity => decide (entry.1 = ID)) ∘ (fun entry =>
      if entry.1 = moved then (entry.1,{entry.2 with transform}) else entry) = fun entry => decide (entry.1 = ID) := by
    funext entry
    simp only [Function.comp]
    split <;> rfl
  rw [same]
  cases ledger.entities.find? (fun entry => decide (entry.1 = ID)) with
  | none => rfl
  | some entry =>
    dsimp only [Option.map_some]
    split <;> rfl

theorem IsEntityClient_move (ID moved : AtlasEntityID) (transform : Transform) (ledger : EntityLedger) :
    (ledger.move moved transform).IsEntityClient ID = ledger.IsEntityClient ID := by
  have same := find_move ID moved transform ledger
  rw [IsEntityClient,IsEntityClient]
  cases before : ledger.find ID with
  | none =>
    rw [before] at same
    rw [Option.map_eq_none_iff.mp same]
  | some e =>
    rw [before] at same
    obtain ⟨other,after,kept⟩ := Option.map_eq_some_iff.mp same
    rw [after]
    exact congrArg Except.ok kept

theorem invariant_move (holds : Invariant s) (ID : AtlasEntityID) (transform : Transform) :
    Invariant {s with ledger := s.ledger.move ID transform} := by
  have keys : (s.ledger.move ID transform).entities.map (·.1) = s.ledger.entities.map (·.1) := by
    rw [move,List.map_map]
    apply List.map_congr_left
    intro entry _
    simp only [Function.comp]
    split <;> rfl
  apply invariant_entities holds
  · exact keys ▸ holds.distinct
  · exact keys ▸ List.Subset.refl _
  · exact fun other isClient before => (IsEntityClient_move other ID transform s.ledger).trans before

/-- The transfers behind a batch of IDs. -/
def joined (Gen : Generated) (found : List AtlasEntityID) (ledger : EntityLedger) (coordinator : TransferCoordinator) :
    TransferCoordinator where
  EntityTransfers := coordinator.EntityTransfers ++ (batch Gen.entity (found.filter (!ledger.kind ·))).toList
  ClientTransfers := coordinator.ClientTransfers ++ (batch Gen.client (found.filter ledger.kind)).toList

theorem MarkEntitiesForTransfer_known {ledger : EntityLedger} {Gen : Generated} {found : List AtlasEntityID}
    {coordinator : TransferCoordinator} (known : ∀ ID ∈ found, ID ∈ ledger.entities.map (·.1))
    (entity : ∀ t ∈ coordinator.EntityTransfers, t.ID ≠ Gen.entity) (client : ∀ t ∈ coordinator.ClientTransfers, t.ID ≠ Gen.client) :
    coordinator.MarkEntitiesForTransfer ledger Gen found = .ok (joined Gen found ledger coordinator) := by
  have kinds : ∀ ID ∈ found, ledger.IsEntityClient ID = .ok (ledger.kind ID) := fun ID member => IsEntityClient_mem (known ID member)
  rw [TransferCoordinator.MarkEntitiesForTransfer,TransferCoordinator.grouped_eq Gen found kinds]
  change Except.ok (TransferCoordinator.mk (insert _ coordinator.EntityTransfers) (insert _ coordinator.ClientTransfers)) = _
  rw [insert_batch entity,insert_batch client]
  rfl

def State.departing (bound : GridShape) (s : State) : List AtlasEntityID :=
  EntityLedger.departing bound s.ledger.entitiesMarkedForTransfer s.ledger.entities

theorem departing_known {bound : GridShape} {ID : AtlasEntityID} (found : ID ∈ s.departing bound) :
    ID ∈ s.ledger.entities.map (·.1) := by
  obtain ⟨entry,member,rfl⟩ := List.mem_map.mp found
  exact List.mem_map.mpr ⟨entry,(List.mem_filter.mp member).1,rfl⟩

/-- An iteration with a bound marks the unmarked entities outside, and puts them into a transfer
for each kind that occurs. -/
theorem iterate_leased {bound : GridShape} {Gen : Generated} (holds : Invariant s) (fresh : Fresh s (.iterate Gen))
    (leased : s.leaser.ClaimedBound = some bound) : iterate Gen s = .ok {s with
      ledger := {s.ledger with entitiesMarkedForTransfer := s.ledger.entitiesMarkedForTransfer ++ s.departing bound}
      coordinator := joined Gen (s.departing bound) s.ledger s.coordinator} := by
  have looked : s.ledger.entities.foldlM (look s.leaser) ([],s.ledger.entitiesMarkedForTransfer) =
      .ok (s.departing bound,s.ledger.entitiesMarkedForTransfer ++ s.departing bound) := look_run leased holds.distinct [] _
  have has : s.leaser.HasBound = true := by rw [BoundLeaser.HasBound,leased]; rfl
  rw [iterate,if_pos has,looked]
  change (if s.departing bound = [] then _ else _) = _
  split
  · rename_i none
    rw [none,joined]
    simp [batch,pure,Except.pure]
  · have marked : s.coordinator.MarkEntitiesForTransfer
        {s.ledger with entitiesMarkedForTransfer := s.ledger.entitiesMarkedForTransfer ++ s.departing bound} Gen (s.departing bound) =
        .ok (joined Gen (s.departing bound) s.ledger s.coordinator) :=
      MarkEntitiesForTransfer_known (fun ID found => departing_known found) fresh.1 fresh.2
    exact congrArg (· >>= _) marked

theorem iterate_unleased {Gen : Generated} (unleased : s.leaser.ClaimedBound = none) : iterate Gen s = .ok s := by
  have without : ¬ s.leaser.HasBound = true := by rw [BoundLeaser.HasBound,unleased]; exact Bool.false_ne_true
  rw [iterate,if_neg without]

theorem mem_departing {bound : GridShape} {ID : AtlasEntityID} : ID ∈ s.departing bound ↔
    ID ∉ s.ledger.entitiesMarkedForTransfer ∧ ∃ e, (ID,e) ∈ s.ledger.entities ∧ outside bound e = true := by
  constructor
  · intro found
    obtain ⟨⟨_,e⟩,member,rfl⟩ := List.mem_map.mp found
    obtain ⟨there,left⟩ := List.mem_filter.mp member
    obtain ⟨unmarked,out⟩ := of_decide_eq_true left
    exact ⟨unmarked,e,there,out⟩
  · rintro ⟨unmarked,e,there,out⟩
    exact List.mem_map.mpr ⟨(ID,e),List.mem_filter.mpr ⟨there,decide_eq_true ⟨unmarked,out⟩⟩,rfl⟩

theorem departing_nodup {bound : GridShape} (distinct : (s.ledger.entities.map (·.1)).Nodup) : (s.departing bound).Nodup :=
  distinct.sublist (List.filter_sublist.map _)

theorem joined_perm (Gen : Generated) (found : List AtlasEntityID) :
    ((joined Gen found s.ledger s.coordinator).EntityTransfers ++ (joined Gen found s.ledger s.coordinator).ClientTransfers).flatMap
      (·.entityIDs) |>.Perm (s.transfers.flatMap (·.entityIDs) ++ found) := by
  rw [joined,State.transfers,List.flatMap_append,List.flatMap_append,List.flatMap_append,List.flatMap_append,
    batch_entityIDs,batch_entityIDs]
  have halves : (found.filter (!s.ledger.kind ·) ++ found.filter s.ledger.kind).Perm found :=
    List.perm_append_comm.trans (List.filter_append_perm s.ledger.kind found)
  refine List.Perm.trans ?_ (halves.append_left _)
  rw [List.append_assoc,List.append_assoc]
  apply List.Perm.append_left
  rw [← List.append_assoc,← List.append_assoc]
  exact List.perm_append_comm.append_right _

theorem invariant_iterate {bound : GridShape} (holds : Invariant s) (Gen : Generated) : Invariant {s with
      ledger := {s.ledger with entitiesMarkedForTransfer := s.ledger.entitiesMarkedForTransfer ++ s.departing bound}
      coordinator := joined Gen (s.departing bound) s.ledger s.coordinator} := by
  constructor
  · exact holds.distinct
  · intro ID member
    rcases List.mem_append.mp member with marked | found
    · exact holds.known ID marked
    · exact departing_known (s := s) found
  · rw [List.nodup_append]
    refine ⟨holds.once,departing_nodup holds.distinct,?_⟩
    rintro ID marked other found rfl
    exact (mem_departing.mp found).1 marked
  · exact (holds.marked.append_right _).trans (joined_perm Gen _).symm
  · intro t member ID there
    rcases List.mem_append.mp member with earlier | last
    · exact holds.others t earlier ID there
    · obtain ⟨rfl,_⟩ := mem_batch last
      obtain ⟨found,other⟩ := List.mem_filter.mp there
      refine (IsEntityClient_mem (departing_known found)).trans (congrArg Except.ok ?_)
      simpa using other
  · intro t member ID there
    rcases List.mem_append.mp member with earlier | last
    · exact holds.clients t earlier ID there
    · obtain ⟨rfl,_⟩ := mem_batch last
      obtain ⟨found,client⟩ := List.mem_filter.mp there
      exact (IsEntityClient_mem (departing_known found)).trans (congrArg Except.ok client)
  · intro t member
    rcases List.mem_append.mp member with entity | client
    · rcases List.mem_append.mp entity with earlier | last
      · exact holds.nonempty t (List.mem_append_left _ earlier)
      · obtain ⟨rfl,nonempty⟩ := mem_batch last
        exact nonempty
    · rcases List.mem_append.mp client with earlier | last
      · exact holds.nonempty t (List.mem_append_right _ earlier)
      · obtain ⟨rfl,nonempty⟩ := mem_batch last
        exact nonempty

theorem iterate_cases {Gen : Generated} (holds : Invariant s) (fresh : Fresh s (.iterate Gen)) :
    (s.leaser.ClaimedBound = none ∧ iterate Gen s = .ok s) ∨
      ∃ bound, s.leaser.ClaimedBound = some bound ∧ iterate Gen s = .ok {s with
        ledger := {s.ledger with entitiesMarkedForTransfer := s.ledger.entitiesMarkedForTransfer ++ s.departing bound}
        coordinator := joined Gen (s.departing bound) s.ledger s.coordinator} := by
  cases leased : s.leaser.ClaimedBound with
  | none => exact .inl ⟨rfl,iterate_unleased leased⟩
  | some bound => exact .inr ⟨bound,rfl,iterate_leased holds fresh leased⟩

theorem invariant_step {event : Event} (holds : Invariant s) (fresh : Fresh s event) (taken : next event s = some after) :
    Invariant after := by
  cases event with
  | RegisterNewEntity e =>
    obtain ⟨ledger,registered,rfl⟩ := Option.map_eq_some_iff.mp taken
    cases ran : s.ledger.RegisterNewEntity e with
    | error fault =>
      rw [ran] at registered
      cases registered
    | ok other =>
      rw [ran] at registered
      obtain rfl := Option.some.inj registered
      exact invariant_RegisterNewEntity holds ran
  | move ID transform =>
    obtain rfl := Option.some.inj taken
    exact invariant_move holds ID transform
  | lease leaser =>
    obtain rfl := Option.some.inj taken
    exact {holds with}
  | iterate Gen =>
    rcases iterate_cases holds fresh with ⟨_,ran⟩ | ⟨bound,_,ran⟩
    · rw [next,ran] at taken
      obtain rfl := Option.some.inj taken
      exact holds
    · rw [next,ran] at taken
      obtain rfl := Option.some.inj taken
      exact invariant_iterate holds Gen

theorem invariant_reached (reached : looping.ReachableWhile Fresh s) : Invariant s :=
  System.stepping_invariant Invariant invariant_initial (fun _ _ _ => invariant_step) reached

/-- An entity that is marked in a step is outside of the bound that is leased then. -/
theorem marked_step {event : Event} {ID : AtlasEntityID} (holds : Invariant s) (fresh : Fresh s event)
    (taken : next event s = some after) (unmarked : ID ∉ s.ledger.entitiesMarkedForTransfer)
    (marked : ID ∈ after.ledger.entitiesMarkedForTransfer) :
    ∃ bound e, s.leaser.ClaimedBound = some bound ∧ (ID,e) ∈ s.ledger.entities ∧ outside bound e = true := by
  cases event with
  | RegisterNewEntity e =>
    obtain ⟨ledger,registered,rfl⟩ := Option.map_eq_some_iff.mp taken
    rw [EntityLedger.RegisterNewEntity] at registered
    split at registered
    · cases registered
    · obtain rfl := Option.some.inj registered
      exact absurd marked unmarked
  | move other transform =>
    obtain rfl := Option.some.inj taken
    exact absurd marked unmarked
  | lease leaser =>
    obtain rfl := Option.some.inj taken
    exact absurd marked unmarked
  | iterate Gen =>
    rcases iterate_cases holds fresh with ⟨_,ran⟩ | ⟨bound,leased,ran⟩
    · rw [next,ran] at taken
      obtain rfl := Option.some.inj taken
      exact absurd marked unmarked
    · rw [next,ran] at taken
      obtain rfl := Option.some.inj taken
      obtain ⟨_,e,there,out⟩ := mem_departing.mp ((List.mem_append.mp marked).resolve_left unmarked)
      exact ⟨bound,e,leased,there,out⟩

theorem outside_marked {Gen : Generated} {bound : GridShape} {ID : AtlasEntityID} {e : AtlasEntity} (holds : Invariant s)
    (fresh : Fresh s (.iterate Gen)) (ran : iterate Gen s = .ok after) (leased : after.leaser.ClaimedBound = some bound)
    (there : (ID,e) ∈ after.ledger.entities) (out : outside bound e = true) : ID ∈ after.ledger.entitiesMarkedForTransfer := by
  rcases iterate_cases holds fresh with ⟨without,same⟩ | ⟨other,before,same⟩
  · obtain rfl := Except.ok.inj (same.symm.trans ran)
    rw [without] at leased
    cases leased
  · obtain rfl := Except.ok.inj (same.symm.trans ran)
    obtain rfl := Option.some.inj (before.symm.trans leased)
    rw [List.mem_append]
    by_cases marked : ID ∈ s.ledger.entitiesMarkedForTransfer
    · exact .inl marked
    · exact .inr (mem_departing.mpr ⟨marked,e,there,out⟩)

end Steps

/-- The marked IDs are those that occur in transfers, each in one transfer and once in it, and
each in one of its kind; no transfer is empty. -/
structure Accounted (s : State) : Prop where
  marked : ∀ ID, ID ∈ s.ledger.entitiesMarkedForTransfer ↔ ∃ t ∈ s.transfers, ID ∈ t.entityIDs
  once : (s.transfers.flatMap (·.entityIDs)).Nodup
  others : ∀ t ∈ s.coordinator.EntityTransfers, ∀ ID ∈ t.entityIDs, s.ledger.IsEntityClient ID = .ok false
  clients : ∀ t ∈ s.coordinator.ClientTransfers, ∀ ID ∈ t.entityIDs, s.ledger.IsEntityClient ID = .ok true
  nonempty : ∀ t ∈ s.transfers, t.entityIDs ≠ []

/-- In every run the marked entities and the transfers agree; an entity was outside of the leased
bound in the step that marked it; and an iteration goes through and leaves no entity outside of
the bound unmarked. -/
theorem departing_transferred {s : State} (reached : looping.ReachableWhile Fresh s) : Accounted s ∧
    (∀ ID ∈ s.ledger.entitiesMarkedForTransfer, ∃ before event middle,
      looping.ReachableWhile Fresh before ∧ next event before = some middle ∧ (looping.behind middle).ReachableWhile Fresh s ∧
      ID ∉ before.ledger.entitiesMarkedForTransfer ∧ ID ∈ middle.ledger.entitiesMarkedForTransfer ∧
      ∃ bound e, before.leaser.ClaimedBound = some bound ∧ (ID,e) ∈ before.ledger.entities ∧ outside bound e = true) ∧
    ∀ Gen, Fresh s (.iterate Gen) → ∃ after, next (.iterate Gen) s = some after ∧
      ∀ bound, after.leaser.ClaimedBound = some bound → ∀ ID e, (ID,e) ∈ after.ledger.entities → outside bound e = true →
        ID ∈ after.ledger.entitiesMarkedForTransfer := by
  have holds := invariant_reached reached
  refine ⟨?_,?_,?_⟩
  · constructor
    · exact fun ID => holds.marked.mem_iff.trans List.mem_flatMap
    · exact holds.marked.nodup_iff.mp holds.once
    · exact holds.others
    · exact holds.clients
    · exact holds.nonempty
  · intro ID marked
    have unmarked (start : State) (initial : looping.Initial start) : ID ∉ start.ledger.entitiesMarkedForTransfer := by
      obtain rfl : start = {} := initial
      exact List.not_mem_nil
    obtain ⟨before,event,middle,come,fresh,taken,without,with_,rest⟩ :=
      reached.turned (fun s => ID ∈ s.ledger.entitiesMarkedForTransfer) unmarked marked
    exact ⟨before,event,middle,come,taken,rest,without,with_,marked_step (invariant_reached come) fresh taken without with_⟩
  · intro Gen fresh
    obtain ⟨after,ran⟩ : ∃ after, iterate Gen s = .ok after := by
      rcases iterate_cases holds fresh with ⟨_,ran⟩ | ⟨_,_,ran⟩
      · exact ⟨_,ran⟩
      · exact ⟨_,ran⟩
    exact ⟨after,by rw [next,ran]; rfl,fun bound leased ID e there out => outside_marked holds fresh ran leased there out⟩

/-- A client and another entity outside of a bound that is leased behind their registration. -/
theorem departing_transferred_pair : ∃ s, looping.ReachableWhile Fresh s ∧ Accounted s ∧
    s.ledger.entitiesMarkedForTransfer.length = 2 ∧ s.coordinator.ClientTransfers.length = 1 ∧
    s.coordinator.EntityTransfers.length = 1 := by
  let away : Transform := {position := (0x40000000,0,0)}
  let client : AtlasEntity := {IsClient := true,transform := away}
  let other : AtlasEntity := {Entity_ID := ⟨List.replicate 16 1,rfl⟩,transform := away}
  let leaser : BoundLeaser := {ClaimedBound := some {ID := 0,aabb := {min := (0,0,0),max := (0x3F800000,0x3F800000,0x3F800000)}}}
  let Gen : Generated := {entity := .nil,client := .nil}
  have ran : ∃ s, System.replay next [.RegisterNewEntity client,.RegisterNewEntity other,.lease leaser] {} = some s ∧
      s.coordinator.EntityTransfers = [] ∧ s.coordinator.ClientTransfers = [] ∧
      (next (.iterate Gen) s).any (fun after => after.ledger.entitiesMarkedForTransfer.length = 2 ∧
        after.coordinator.ClientTransfers.length = 1 ∧ after.coordinator.EntityTransfers.length = 1) = true := by
    exact ⟨_,rfl,rfl,rfl,by decide +kernel⟩
  obtain ⟨s,ran,entity,clients,iterated⟩ := ran
  obtain ⟨after,taken,counts⟩ := (Option.any_eq_true ..).mp iterated
  have registered : looping.ReachableWhile Fresh s := by
    refine System.stepping_replay (fun state event member => ?_) System.stepping_start ran
    simp only [List.mem_cons,List.not_mem_nil,or_false] at member
    rcases member with rfl | rfl | rfl <;> trivial
  have fresh : Fresh s (.iterate Gen) := ⟨by rw [entity]; exact nofun,by rw [clients]; exact nofun⟩
  have reached := registered.step s _ after fresh taken
  exact ⟨after,reached,(departing_transferred reached).1,of_decide_eq_true counts⟩

end EntityLedger

end AtlasNet
