import AtlasNet.ServerHandoff
import AtlasNet.Foundation.Handover

/-! What one tick of a shard does with each entity, whatever else the shard simulates. -/
namespace AtlasNet.ServerHandoff
open Foundation

variable {vec3 Carried Own Outside : Type}

section Simulator
variable {motion : Motion vec3 Carried Own Outside} {s : DebugEntitySimulator vec3 Carried Own} {e : AtlasEntityID}

/-- Every entity stands under its own identifier. -/
def Keyed (s : DebugEntitySimulator vec3 Carried Own) : Prop :=
  ∀ e found, s.entitiesById.lookup e = some found → found.entity.Entity_ID = e

theorem lookup_AdoptSingleEntity {entity : AtlasEntity vec3} :
    ((s.AdoptSingleEntity motion entity).entitiesById.lookup e).isSome = (e == entity.Entity_ID || (s.entitiesById.lookup e).isSome) := by
  by_cases same : e = entity.Entity_ID
  · subst same
    simp [DebugEntitySimulator.AdoptSingleEntity]
  · simp [DebugEntitySimulator.AdoptSingleEntity,same,AList.lookup_insert_ne same]

theorem keyed_AdoptSingleEntity {entity : AtlasEntity vec3} (keyed : Keyed s) : Keyed (s.AdoptSingleEntity motion entity) := by
  intro e found looked
  by_cases same : e = entity.Entity_ID
  · subst same
    simp only [DebugEntitySimulator.AdoptSingleEntity,AList.lookup_insert,Option.some.injEq] at looked
    rw [← looked]
  · rw [DebugEntitySimulator.AdoptSingleEntity,AList.lookup_insert_ne same] at looked
    exact keyed e found looked

/-- The identifiers of the entities that a shard seeds when it simulates none. -/
def seeds (first : Nat) : List AtlasEntityID :=
  (List.range' first (ServerAuthorityRuntime.kDefaultTestEntityCount-first)).map fun i => MakeEntityId (UInt32.ofNat i)

variable (motion e) in
theorem SeedEntity_spec (outside : Outside) (i : Nat) (keyed : Keyed s) :
    Keyed (s.SeedEntity motion outside i) ∧ ((s.SeedEntity motion outside i).entitiesById.lookup e).isSome =
      (e == MakeEntityId (UInt32.ofNat i) || (s.entitiesById.lookup e).isSome) := by
  constructor
  · intro e found looked
    by_cases same : e = MakeEntityId (UInt32.ofNat i)
    · subst same
      simp only [DebugEntitySimulator.SeedEntity,AList.lookup_insert,Option.some.injEq] at looked
      rw [← looked]
    · rw [DebugEntitySimulator.SeedEntity,AList.lookup_insert_ne same] at looked
      exact keyed e found looked
  · by_cases same : e = MakeEntityId (UInt32.ofNat i)
    · subst same
      simp [DebugEntitySimulator.SeedEntity]
    · simp [DebugEntitySimulator.SeedEntity,same,AList.lookup_insert_ne same]

theorem SeedEntities_spec (outside : Outside) (keyed : Keyed s) :
    Keyed (s.SeedEntities motion outside ServerAuthorityRuntime.kDefaultTestEntityCount) ∧
      (((s.SeedEntities motion outside ServerAuthorityRuntime.kDefaultTestEntityCount).entitiesById.lookup e).isSome = true ↔
        e ∈ seeds s.Count ∨ (s.entitiesById.lookup e).isSome = true) := by
  unfold DebugEntitySimulator.SeedEntities
  split
  · rename_i enough
    have none : seeds s.Count = [] := by simp [seeds,Nat.sub_eq_zero_of_le enough]
    exact ⟨keyed,by simp [none]⟩
  · rename_i few
    clear few
    unfold seeds
    generalize List.range' s.Count (ServerAuthorityRuntime.kDefaultTestEntityCount-s.Count) = indices
    induction indices generalizing s with
    | nil => exact ⟨keyed,by simp⟩
    | cons i indices ih =>
      obtain ⟨kept,first⟩ := SeedEntity_spec motion e outside i keyed
      obtain ⟨rest,found⟩ := ih kept
      refine ⟨rest,found.trans ?_⟩
      simp only [first,Bool.or_eq_true,beq_iff_eq,List.map_cons,List.mem_cons]
      tauto

theorem Tick_spec (outside : Outside) (keyed : Keyed s) : Keyed (s.Tick motion outside) ∧
    ((s.Tick motion outside).entitiesById.lookup e).isSome = (s.entitiesById.lookup e).isSome := by
  constructor
  · intro e found looked
    rw [DebugEntitySimulator.Tick,Dictionary.lookup_mapValues,Option.map_eq_some_iff] at looked
    obtain ⟨before,held,rfl⟩ := looked
    exact keyed e before held
  · simp [DebugEntitySimulator.Tick]

theorem mem_GetEntitiesSnapshot (keyed : Keyed s) :
    e ∈ s.GetEntitiesSnapshot.map (·.Entity_ID) ↔ (s.entitiesById.lookup e).isSome = true := by
  simp only [DebugEntitySimulator.GetEntitiesSnapshot,List.map_map,List.mem_map,Dictionary.mem_values,Option.isSome_iff_exists]
  constructor
  · rintro ⟨found,⟨key,looked⟩,rfl⟩
    exact ⟨found,by rwa [Function.comp_apply,keyed key found looked]⟩
  · rintro ⟨found,looked⟩
    exact ⟨found,⟨e,looked⟩,keyed e found looked⟩

end Simulator

section Tracker
variable {tracker : EntityAuthorityTracker vec3} {e : AtlasEntityID}

/-- What the planner and the mailbox ask of an entry. -/
def AuthorityEntry.marked (entry : AuthorityEntry vec3) : AuthorityState × Option NetworkIdentity :=
  (entry.authorityState,entry.passingTo)

/-- The mark of a new entry. -/
def owned : AuthorityState × Option NetworkIdentity := (.eAuthoritative,none)

def markOf (tracker : EntityAuthorityTracker vec3) (e : AtlasEntityID) : Option (AuthorityState × Option NetworkIdentity) :=
  (tracker.lookup e).map (·.marked)

/-- Every snapshot stands under its own identifier. -/
def Recorded (tracker : EntityAuthorityTracker vec3) : Prop :=
  ∀ e entry, tracker.lookup e = some entry → entry.entitySnapshot.Entity_ID = e

theorem SetOwned_spec (entity : AtlasEntity vec3) (recorded : Recorded tracker) : Recorded (tracker.SetOwned entity) ∧
    markOf (tracker.SetOwned entity) e =
      if entity.Entity_ID = e then some ((markOf tracker e).getD owned) else markOf tracker e := by
  unfold EntityAuthorityTracker.SetOwned markOf
  split <;> rename_i known
  all_goals
    constructor
    · intro other entry looked
      by_cases same : other = entity.Entity_ID
      · subst same
        rw [AList.lookup_insert,Option.some.injEq] at looked
        rw [← looked]
      · rw [AList.lookup_insert_ne same] at looked
        exact recorded other entry looked
    · by_cases same : entity.Entity_ID = e
      · subst same
        simp [known,owned,AuthorityEntry.marked]
      · rw [AList.lookup_insert_ne (Ne.symm same),if_neg same]

theorem SetOwnedEntities_spec (entities : List (AtlasEntity vec3)) (recorded : Recorded tracker) :
    Recorded (tracker.SetOwnedEntities entities) ∧ markOf (tracker.SetOwnedEntities entities) e =
      if e ∈ entities.map (·.Entity_ID) then some ((markOf tracker e).getD owned) else none := by
  have loop : Recorded (entities.foldl EntityAuthorityTracker.SetOwned tracker) ∧
      markOf (entities.foldl EntityAuthorityTracker.SetOwned tracker) e =
        if e ∈ entities.map (·.Entity_ID) then some ((markOf tracker e).getD owned) else markOf tracker e := by
    induction entities generalizing tracker with
    | nil => exact ⟨recorded,by simp⟩
    | cons entity entities ih =>
      obtain ⟨kept,first⟩ := SetOwned_spec (e := e) entity recorded
      obtain ⟨rest,found⟩ := ih kept
      refine ⟨rest,found.trans ?_⟩
      rw [first]
      by_cases same : entity.Entity_ID = e
      · simp [same]
      · simp [same,Ne.symm same]
  obtain ⟨kept,found⟩ := loop
  constructor
  · intro other entry looked
    simp only [EntityAuthorityTracker.SetOwnedEntities,Dictionary.lookup_eraseAll] at looked
    split at looked
    · cases looked
    · exact kept other entry looked
  · simp only [EntityAuthorityTracker.SetOwnedEntities,markOf,Dictionary.lookup_eraseAll,List.mem_filter,decide_eq_true_eq]
    by_cases inside : e ∈ entities.map (·.Entity_ID)
    · rw [if_neg (by simp [inside]),if_pos inside]
      exact found.trans (if_pos inside)
    · rw [if_neg inside]
      split
      · rfl
      · rename_i unlisted
        rw [AList.lookup_eq_none.mpr,Option.map_none]
        intro present
        exact unlisted ⟨AList.mem_keys.mp present,inside⟩

end Tracker

section Planner
open BorderHandoffPlanner
variable {motion : Motion vec3 Carried Own Outside} {around : Surroundings Outside} {self : NetworkIdentity} {delayUs : UInt64}
  {selfBounds : GridShape} {e : AtlasEntityID} {tracker : EntityAuthorityTracker vec3}

/-- What the planner knows and does about one entity: its mark, and what was planned and sent for it. -/
structure Planned (vec3 : Type) where
  mark : Option (AuthorityState × Option NetworkIdentity)
  outgoing : List PendingOutgoingHandoff := []
  sent : List (Sent vec3) := []
  marks : List Mark := []

def BorderHandoffPlanner.Planning.about (e : AtlasEntityID) (p : Planning vec3) : Planned vec3 where
  mark := markOf p.tracker e
  outgoing := p.outgoingHandoffs.filter (·.entityId = e)
  sent := p.sent.filter (·.packet.entity.Entity_ID = e)
  marks := p.marks.filter (·.entityId = e)

/-- A mark that some tick leaves. -/
def WellMarked (mark : Option (AuthorityState × Option NetworkIdentity)) : Prop :=
  mark = none ∨ mark = some owned ∨ ∃ target, mark = some (.ePassing,some target)

/-- An entity is left as it is, or one that is owned is passed on to another shard. -/
inductive Plans (self : NetworkIdentity) (e : AtlasEntityID) (transferTimeUs : UInt64) :
    Option (AuthorityState × Option NetworkIdentity) → Planned vec3 → Prop
  | keeps (mark) : Plans self e transferTimeUs mark {mark}
  | passes (target : NetworkIdentity) (entity : AtlasEntity vec3) (here : entity.Entity_ID = e) (apart : (target == self) = false) :
      Plans self e transferTimeUs (some owned) {
        mark := some (.ePassing,some target)
        outgoing := [⟨e,target,transferTimeUs⟩]
        sent := [⟨target,⟨self,entity,transferTimeUs⟩⟩]
        marks := [.started e self target transferTimeUs]}

theorem Plans.isSome {mark : Option (AuthorityState × Option NetworkIdentity)} {transferTimeUs : UInt64} {about : Planned vec3}
    (planned : Plans self e transferTimeUs mark about) : about.mark.isSome = mark.isSome := by
  cases planned <;> rfl

theorem IsPassing_eq : tracker.IsPassing e = (markOf tracker e).any fun mark => mark.1 = .ePassing ∧ mark.2.isSome := by
  unfold EntityAuthorityTracker.IsPassing markOf
  cases tracker.lookup e <;> rfl

theorem IsPassingTo_eq (target : NetworkIdentity) : tracker.IsPassingTo e target =
    (markOf tracker e).any fun mark => mark.1 = .ePassing ∧ mark.2.any (· == target) := by
  unfold EntityAuthorityTracker.IsPassingTo markOf
  cases tracker.lookup e <;> rfl

theorem markOf_insert (entry : AuthorityEntry vec3) (other : AtlasEntityID) :
    markOf (tracker.insert other entry) e = if other = e then some entry.marked else markOf tracker e := by
  unfold markOf
  by_cases same : other = e
  · subst same
    simp
  · rw [AList.lookup_insert_ne (Ne.symm same),if_neg same]

theorem markOf_MarkAuthoritative (other : AtlasEntityID) : markOf (tracker.MarkAuthoritative other) e =
    if other = e then (markOf tracker e).map fun _ => owned else markOf tracker e := by
  unfold EntityAuthorityTracker.MarkAuthoritative
  split <;> rename_i known
  · by_cases same : other = e
    · subst same
      simp [markOf,known]
    · rw [if_neg same]
  · rw [markOf_insert]
    by_cases same : other = e
    · subst same
      simp [markOf,known,owned,AuthorityEntry.marked]
    · rw [if_neg same,if_neg same]

theorem markOf_MarkPassing (other : AtlasEntityID) (target : NetworkIdentity) :
    markOf (tracker.MarkPassing other target).2 e = if other = e ∧ (tracker.MarkPassing other target).1 = true then
      some (.ePassing,some target) else markOf tracker e := by
  unfold EntityAuthorityTracker.MarkPassing
  split <;> rename_i known
  · simp
  · split
    · simp
    · simp [markOf_insert,AuthorityEntry.marked]

theorem plan_others (p : Planning vec3) {entity : AtlasEntity vec3} (other : entity.Entity_ID ≠ e) :
    (plan motion self delayUs around selfBounds p entity).about e = p.about e := by
  unfold plan
  split
  · rfl
  dsimp only
  split
  · simp [Planning.about,markOf_MarkAuthoritative,other]
  split
  · rfl
  split
  · rfl
  split
  · rfl
  · simp [Planning.about,markOf_MarkPassing,other]

theorem plan_own (p : Planning vec3) {entity : AtlasEntity vec3} (here : entity.Entity_ID = e)
    (marked : WellMarked (p.about e).mark) (fresh : p.about e = {mark := (p.about e).mark}) :
    Plans self e (around.nowUnixTimeUs+delayUs) (p.about e).mark
      ((plan motion self delayUs around selfBounds p entity).about e) := by
  have unplanned : p.outgoingHandoffs.filter (·.entityId = e) = [] := congrArg Planned.outgoing fresh
  have unsent : p.sent.filter (·.packet.entity.Entity_ID = e) = [] := congrArg Planned.sent fresh
  have unmarked : p.marks.filter (·.entityId = e) = [] := congrArg Planned.marks fresh
  have kept : Plans self e (around.nowUnixTimeUs+delayUs) (p.about e).mark (p.about e) := by
    rw [fresh]
    exact .keeps _
  unfold plan
  split
  · exact kept
  rename_i unpassed
  have known : markOf p.tracker e = none ∨ markOf p.tracker e = some owned := by
    rcases marked with absent | here | ⟨target,passing⟩
    · exact .inl absent
    · exact .inr here
    · have passing : markOf p.tracker e = some (.ePassing,some target) := passing
      exact absurd (by simp [here,IsPassing_eq,passing]) unpassed
  dsimp only
  split
  · convert kept using 1
    rcases known with absent | here <;>
      simp_all [Planning.about,markOf_MarkAuthoritative]
  split
  · exact kept
  rename_i target resolved
  split
  · exact kept
  rename_i apart
  split
  · exact kept
  rename_i news
  have news : (p.tracker.MarkPassing e target).1 = true := by simpa [here] using news
  have held : markOf p.tracker e = some owned := by
    refine known.resolve_left fun absent => ?_
    have missing : p.tracker.lookup e = none := by simpa [markOf] using absent
    simp [EntityAuthorityTracker.MarkPassing,missing] at news
  have passed : Plans self e (around.nowUnixTimeUs+delayUs) (some owned) _ := .passes target entity here (by simpa using apart)
  have same : (p.about e).mark = some owned := held
  rw [same]
  convert passed using 1
  simp [Planning.about,markOf_MarkPassing,news,here,unplanned,unsent,unmarked]

theorem recorded_insert {entry : AuthorityEntry vec3} (recorded : Recorded tracker) (here : entry.entitySnapshot.Entity_ID = e) :
    Recorded (tracker.insert e entry) := by
  intro other found looked
  by_cases same : other = e
  · subst same
    rw [AList.lookup_insert,Option.some.injEq] at looked
    rw [← looked,here]
  · rw [AList.lookup_insert_ne same] at looked
    exact recorded other found looked

theorem recorded_plan (p : Planning vec3) (entity : AtlasEntity vec3) (recorded : Recorded p.tracker) :
    Recorded (plan motion self delayUs around selfBounds p entity).tracker := by
  unfold plan
  split
  · exact recorded
  dsimp only
  split
  · unfold EntityAuthorityTracker.MarkAuthoritative
    split <;> rename_i known
    · exact recorded
    · exact recorded_insert recorded (recorded _ _ known :)
  split
  · exact recorded
  split
  · exact recorded
  split
  · exact recorded
  · unfold EntityAuthorityTracker.MarkPassing
    split <;> rename_i known
    · exact recorded
    split
    · exact recorded
    · exact recorded_insert recorded (recorded _ _ known :)

theorem recorded_PlanAndSendAll (recorded : Recorded tracker) :
    Recorded (PlanAndSendAll motion self delayUs around tracker).tracker := by
  unfold PlanAndSendAll
  split
  · exact recorded
  · generalize tracker.GetOwnedEntitySnapshots = entities
    have start : Recorded ({tracker} : Planning vec3).tracker := recorded
    generalize ({tracker} : Planning vec3) = p at start ⊢
    induction entities generalizing p with
    | nil => exact start
    | cons entity entities ih => exact ih _ (recorded_plan p entity start)

theorem GetOwnedEntitySnapshots_spec (recorded : Recorded tracker) :
    (tracker.GetOwnedEntitySnapshots.map (·.Entity_ID)) = tracker.keys := by
  simp only [EntityAuthorityTracker.GetOwnedEntitySnapshots,Dictionary.values,AList.keys,List.keys,List.map_map]
  apply List.map_congr_left
  intro entry inside
  exact recorded entry.1 entry.2 (Dictionary.mem_entries.mp inside)

theorem PlanAndSendAll_spec (recorded : Recorded tracker) (marked : WellMarked (markOf tracker e)) :
    Plans self e (around.nowUnixTimeUs+delayUs) (markOf tracker e)
      ((PlanAndSendAll motion self delayUs around tracker).about e) := by
  unfold PlanAndSendAll
  split
  · exact .keeps _
  rename_i claim found
  have ids := GetOwnedEntitySnapshots_spec recorded
  have others : ∀ p, ∀ entity ∈ tracker.GetOwnedEntitySnapshots, entity.Entity_ID ≠ e →
      (plan motion self delayUs around claim.2 p entity).about e = p.about e := fun p entity _ other => plan_others p other
  by_cases inside : e ∈ tracker.GetOwnedEntitySnapshots.map (·.Entity_ID)
  · obtain ⟨entity,member,here⟩ := List.mem_map.mp inside
    obtain ⟨before,unchanged,turned⟩ := foldl_present (BorderHandoffPlanner.Planning.about e) _ (ids ▸ tracker.keys_nodup) others member here
      {tracker}
    rw [turned]
    have same : (before.about e).mark = markOf tracker e := congrArg Planned.mark unchanged
    rw [← same]
    apply plan_own before here
    · rwa [same]
    · rw [unchanged]
      rfl
  · rw [foldl_absent (BorderHandoffPlanner.Planning.about e) _ others inside]
    exact .keeps _

end Planner

section Mailbox
open TransferMailbox
variable {motion : Motion vec3 Carried Own Outside} {self : NetworkIdentity} {now : UInt64} {e : AtlasEntityID}
  {mailbox : TransferMailbox vec3} {simulator : DebugEntitySimulator vec3 Carried Own} {tracker : EntityAuthorityTracker vec3}

def Due (now transferTimeUs : UInt64) : Prop := ¬ now < transferTimeUs

theorem due_iff {now transferTimeUs : UInt64} : Due now transferTimeUs ↔ transferTimeUs.toNat ≤ now.toNat := by
  rw [Due,UInt64.not_lt,UInt64.le_iff_toNat_le]

instance (now transferTimeUs : UInt64) : Decidable (Due now transferTimeUs) := inferInstanceAs (Decidable (¬ _))

/-- Every pending handoff stands under the identifier of its entity. -/
def Addressed (pending : Dictionary AtlasEntityID (PendingIncomingHandoff vec3)) : Prop :=
  ∀ e handoff, pending.lookup e = some handoff → handoff.entity.Entity_ID = e

/-- What the loop over the incoming handoffs has done with one entity. -/
structure Adopted where
  simulated : Bool
  adopted : Bool := false
  marks : List Mark := []

def TransferMailbox.Adopting.about (e : AtlasEntityID) (a : Adopting vec3 Carried Own) : Adopted where
  simulated := (a.debugSimulator.entitiesById.lookup e).isSome
  adopted := e ∈ a.adoptedIds
  marks := a.marks.filter (·.entityId = e)

theorem adoptIfDue_others (a : Adopting vec3 Carried Own) {pending : Sigma fun _ : AtlasEntityID => PendingIncomingHandoff vec3}
    (addressed : pending.2.entity.Entity_ID = pending.1) (other : pending.1 ≠ e) :
    (adoptIfDue motion self now a pending).about e = a.about e := by
  unfold adoptIfDue
  split
  · rfl
  · simp [Adopting.about,lookup_AdoptSingleEntity,addressed,other,Ne.symm other]

theorem adoptIfDue_own (a : Adopting vec3 Carried Own) {handoff : PendingIncomingHandoff vec3}
    (addressed : handoff.entity.Entity_ID = e) (fresh : a.about e = {simulated := (a.about e).simulated}) :
    (adoptIfDue motion self now a ⟨e,handoff⟩).about e =
      if Due now handoff.transferTimeUs then ⟨true,true,[.adopted e handoff.sender self handoff.transferTimeUs]⟩
      else {simulated := (a.about e).simulated} := by
  have unmarked : a.marks.filter (·.entityId = e) = [] := congrArg Adopted.marks fresh
  unfold adoptIfDue
  by_cases due : Due now handoff.transferTimeUs
  · rw [if_neg due,if_pos due]
    simp [Adopting.about,lookup_AdoptSingleEntity,addressed,unmarked]
  · rw [if_pos (not_not.mp due),if_neg due]
    exact fresh

theorem keyed_adopted (pending : List (Sigma fun _ : AtlasEntityID => PendingIncomingHandoff vec3)) (a : Adopting vec3 Carried Own)
    (keyed : Keyed a.debugSimulator) : Keyed (pending.foldl (adoptIfDue motion self now) a).debugSimulator := by
  induction pending generalizing a with
  | nil => exact keyed
  | cons handoff pending ih =>
    apply ih
    unfold adoptIfDue
    split
    · exact keyed
    · exact keyed_AdoptSingleEntity keyed

/-- The handoff of an entity that is pending and due. -/
def dueIncoming (now : UInt64) (e : AtlasEntityID) (mailbox : TransferMailbox vec3) : Option (PendingIncomingHandoff vec3) :=
  (mailbox.pendingIncomingByEntityId.lookup e).filter fun handoff => Due now handoff.transferTimeUs

variable (motion self now e) in
theorem AdoptIncomingIfDue_spec (addressed : Addressed mailbox.pendingIncomingByEntityId) (keyed : Keyed simulator) :
    Keyed (mailbox.AdoptIncomingIfDue motion self now simulator).2.debugSimulator ∧
    (mailbox.AdoptIncomingIfDue motion self now simulator).2.about e = (match dueIncoming now e mailbox with
      | none => {simulated := (simulator.entitiesById.lookup e).isSome}
      | some handoff => ⟨true,true,[.adopted e handoff.sender self handoff.transferTimeUs]⟩) := by
  refine ⟨keyed_adopted _ _ keyed,?_⟩
  have others : ∀ a : Adopting vec3 Carried Own, ∀ pending ∈ mailbox.pendingIncomingByEntityId.entries, pending.1 ≠ e →
      (adoptIfDue motion self now a pending).about e = a.about e := fun a pending member other =>
    adoptIfDue_others a (addressed pending.1 pending.2 (Dictionary.mem_entries.mp member)) other
  unfold AdoptIncomingIfDue
  dsimp only
  cases found : mailbox.pendingIncomingByEntityId.lookup e with
  | none =>
    have absent : e ∉ mailbox.pendingIncomingByEntityId.entries.map (·.1) := AList.lookup_eq_none.mp found
    rw [foldl_absent (Adopting.about e) _ others absent]
    simp [dueIncoming,found,Adopting.about]
  | some handoff =>
    obtain ⟨before,unchanged,turned⟩ := foldl_present (Adopting.about e) _ mailbox.pendingIncomingByEntityId.keys_nodup others
      (Dictionary.mem_entries.mpr found) rfl {debugSimulator := simulator}
    have start : before.about e = {simulated := (simulator.entitiesById.lookup e).isSome} := unchanged
    rw [turned,adoptIfDue_own before (addressed e handoff found) (by rw [start])]
    by_cases due : Due now handoff.transferTimeUs
    · simp [dueIncoming,found,Option.filter_some,due]
    · simp [dueIncoming,found,Option.filter_some,due,start]

theorem lookup_adopted (addressed : Addressed mailbox.pendingIncomingByEntityId) (keyed : Keyed simulator) :
    (mailbox.AdoptIncomingIfDue motion self now simulator).1.pendingIncomingByEntityId.lookup e =
      if (dueIncoming now e mailbox).isSome then none else mailbox.pendingIncomingByEntityId.lookup e := by
  have adopted := congrArg Adopted.adopted (AdoptIncomingIfDue_spec motion self now e
    addressed keyed).2
  have looked := Dictionary.lookup_eraseAll (mailbox.AdoptIncomingIfDue motion self now simulator).2.adoptedIds
    mailbox.pendingIncomingByEntityId e
  refine looked.trans ?_
  cases due : dueIncoming now e mailbox <;> simp_all [Adopting.about]

theorem lookup_AddPendingOutgoing (handoffs : List PendingOutgoingHandoff) (mailbox : TransferMailbox vec3) :
    (handoffs.foldl AddPendingOutgoing mailbox).pendingOutgoingByEntityId.lookup e =
      ((handoffs.filter (·.entityId = e)).getLast?).or (mailbox.pendingOutgoingByEntityId.lookup e) ∧
    (handoffs.foldl AddPendingOutgoing mailbox).pendingIncomingByEntityId = mailbox.pendingIncomingByEntityId := by
  induction handoffs generalizing mailbox with
  | nil => simp
  | cons handoff handoffs ih =>
    obtain ⟨looked,incoming⟩ := ih (mailbox.AddPendingOutgoing handoff)
    refine ⟨looked.trans ?_,incoming⟩
    by_cases same : handoff.entityId = e
    · rw [List.filter_cons_of_pos (by simpa using same),List.getLast?_cons]
      subst same
      cases (handoffs.filter _).getLast? <;> simp [AddPendingOutgoing]
    · rw [List.filter_cons_of_neg (by simpa using same),AddPendingOutgoing,AList.lookup_insert_ne (Ne.symm same)]

/-- What the loop over the outgoing handoffs has done with one entity. -/
structure Resolved where
  simulated : Bool
  mark : Option (AuthorityState × Option NetworkIdentity)
  committed : Bool := false
  canceled : Bool := false
  marks : List Mark := []

def TransferMailbox.Committing.about (e : AtlasEntityID) (c : Committing vec3 Carried Own) : Resolved where
  simulated := (c.debugSimulator.entitiesById.lookup e).isSome
  mark := markOf c.tracker e
  committed := e ∈ c.committedIds
  canceled := e ∈ c.canceledIds
  marks := c.marks.filter (·.entityId = e)

theorem commitIfDue_others (c : Committing vec3 Carried Own) {pending : Sigma fun _ : AtlasEntityID => PendingOutgoingHandoff}
    (other : pending.1 ≠ e) : (commitIfDue self now c pending).about e = c.about e := by
  unfold commitIfDue
  split
  · rfl
  split
  · simp [Committing.about,other,Ne.symm other]
  · simp [Committing.about,markOf,DebugEntitySimulator.RemoveEntity,other,Ne.symm other,
      AList.lookup_erase_ne (Ne.symm other)]

theorem commitIfDue_own (c : Committing vec3 Carried Own) {handoff : PendingOutgoingHandoff}
    (passing : (c.about e).mark = some (.ePassing,some handoff.targetIdentity))
    (fresh : c.about e = {simulated := (c.about e).simulated,mark := (c.about e).mark}) :
    (commitIfDue self now c ⟨e,handoff⟩).about e =
      if Due now handoff.transferTimeUs then ⟨false,none,true,false,[.committed e self handoff.targetIdentity]⟩
      else c.about e := by
  have unmarked : c.marks.filter (·.entityId = e) = [] := congrArg Resolved.marks fresh
  have uncanceled : e ∉ c.canceledIds := by simpa [Committing.about] using congrArg Resolved.canceled fresh
  have passing : markOf c.tracker e = some (.ePassing,some handoff.targetIdentity) := passing
  unfold commitIfDue
  by_cases due : Due now handoff.transferTimeUs
  · rw [if_neg due,if_pos due,if_neg (by simp [IsPassingTo_eq,passing])]
    simp [Committing.about,DebugEntitySimulator.RemoveEntity,markOf,unmarked,uncanceled]
  · rw [if_pos (not_not.mp due),if_neg due]

variable (self now) in
theorem committed_keeps (pending : List (Sigma fun _ : AtlasEntityID => PendingOutgoingHandoff)) (c : Committing vec3 Carried Own)
    (keyed : Keyed c.debugSimulator) (recorded : Recorded c.tracker) :
    Keyed (pending.foldl (commitIfDue self now) c).debugSimulator ∧ Recorded (pending.foldl (commitIfDue self now) c).tracker := by
  induction pending generalizing c with
  | nil => exact ⟨keyed,recorded⟩
  | cons handoff pending ih =>
    rw [List.foldl_cons]
    unfold commitIfDue
    split
    · exact ih c keyed recorded
    split
    · exact ih _ keyed recorded
    · apply ih
      · intro other found looked
        exact keyed other found (Dictionary.lookup_of_erase looked)
      · intro other entry looked
        exact recorded other entry (Dictionary.lookup_of_erase looked)

/-- The handoff to another shard that is pending and due. -/
def dueOutgoing (now : UInt64) (e : AtlasEntityID) (mailbox : TransferMailbox vec3) : Option PendingOutgoingHandoff :=
  (mailbox.pendingOutgoingByEntityId.lookup e).filter fun handoff => Due now handoff.transferTimeUs

variable (self now simulator) in
theorem CommitOutgoingIfDue_spec (passing : ∀ handoff, mailbox.pendingOutgoingByEntityId.lookup e = some handoff →
      markOf tracker e = some (.ePassing,some handoff.targetIdentity)) :
    (mailbox.CommitOutgoingIfDue self now simulator tracker).2.about e =
      (match dueOutgoing now e mailbox with
      | none => {simulated := (simulator.entitiesById.lookup e).isSome,mark := markOf tracker e}
      | some handoff => ⟨false,none,true,false,[.committed e self handoff.targetIdentity]⟩) := by
  have others : ∀ c : Committing vec3 Carried Own, ∀ pending ∈ mailbox.pendingOutgoingByEntityId.entries, pending.1 ≠ e →
      (commitIfDue self now c pending).about e = c.about e := fun c pending _ other => commitIfDue_others c other
  unfold CommitOutgoingIfDue
  dsimp only
  cases found : mailbox.pendingOutgoingByEntityId.lookup e with
  | none =>
    have absent : e ∉ mailbox.pendingOutgoingByEntityId.entries.map (·.1) := AList.lookup_eq_none.mp found
    rw [foldl_absent (Committing.about e) _ others absent]
    simp [dueOutgoing,found,Committing.about]
  | some handoff =>
    obtain ⟨before,unchanged,turned⟩ := foldl_present (Committing.about e) _ mailbox.pendingOutgoingByEntityId.keys_nodup
      others (Dictionary.mem_entries.mpr found) rfl {debugSimulator := simulator,tracker}
    have start : before.about e = {simulated := (simulator.entitiesById.lookup e).isSome,mark := markOf tracker e} := unchanged
    rw [turned,commitIfDue_own before (by rw [start]; exact passing handoff found) (by rw [start])]
    by_cases due : Due now handoff.transferTimeUs
    · simp [dueOutgoing,found,Option.filter_some,due]
    · simp [dueOutgoing,found,Option.filter_some,due,start]

variable (self now simulator) in
theorem lookup_committed (passing : ∀ handoff, mailbox.pendingOutgoingByEntityId.lookup e = some handoff →
      markOf tracker e = some (.ePassing,some handoff.targetIdentity)) :
    (mailbox.CommitOutgoingIfDue self now simulator tracker).1.pendingOutgoingByEntityId.lookup e =
      if (dueOutgoing now e mailbox).isSome then none else mailbox.pendingOutgoingByEntityId.lookup e := by
  have resolved := CommitOutgoingIfDue_spec self now simulator passing
  have committed := congrArg Resolved.committed resolved
  have canceled := congrArg Resolved.canceled resolved
  have looked := Dictionary.lookup_eraseAll (mailbox.CommitOutgoingIfDue self now simulator tracker).2.canceledIds
    (mailbox.pendingOutgoingByEntityId.eraseAll (mailbox.CommitOutgoingIfDue self now simulator tracker).2.committedIds) e
  refine looked.trans ?_
  rw [Dictionary.lookup_eraseAll]
  cases due : dueOutgoing now e mailbox <;> simp_all [Committing.about]

end Mailbox

section Runtime
open BorderHandoffPlanner
variable {motion : Motion vec3 Carried Own Outside} {around : Surroundings Outside} {delayUs : UInt64}
  {r : ServerAuthorityRuntime vec3 Carried Own} {e : AtlasEntityID}

abbrev Held := Handover.Held NetworkIdentity

/-- The handoffs that are committed when they are due. -/
def committed (self : NetworkIdentity) (e : AtlasEntityID) (now : UInt64) : Held → List Mark
  | .passing target time => if time ≤ now.toNat then [.committed e self target] else []
  | _ => []

def heldOf : Option (AuthorityState × Option NetworkIdentity) → Option PendingOutgoingHandoff → Held
  | none,_ => .absent
  | some _,none => .authoritative
  | some _,some handoff => .passing handoff.targetIdentity handoff.transferTimeUs.toNat

namespace ServerAuthorityRuntime

def pendingIncoming (r : ServerAuthorityRuntime vec3 Carried Own) (e : AtlasEntityID) : Option (PendingIncomingHandoff vec3) :=
  r.transferMailbox.pendingIncomingByEntityId.lookup e

def pendingOutgoing (r : ServerAuthorityRuntime vec3 Carried Own) (e : AtlasEntityID) : Option PendingOutgoingHandoff :=
  r.transferMailbox.pendingOutgoingByEntityId.lookup e

def simulates (r : ServerAuthorityRuntime vec3 Carried Own) (e : AtlasEntityID) : Bool :=
  (r.debugSimulator.entitiesById.lookup e).isSome

def held (r : ServerAuthorityRuntime vec3 Carried Own) (e : AtlasEntityID) : Held :=
  heldOf (markOf r.tracker e) (r.pendingOutgoing e)

/-- What holds of a shard between its ticks, in every run. -/
structure Sound (r : ServerAuthorityRuntime vec3 Carried Own) : Prop where
  keyed : Keyed r.debugSimulator
  recorded : Recorded r.tracker
  addressed : Addressed r.transferMailbox.pendingIncomingByEntityId
  others : ∀ e handoff, r.pendingIncoming e = some handoff → (handoff.sender == r.selfIdentity) = false
  tracked : ∀ e, r.simulates e = (markOf r.tracker e).isSome
  passing : ∀ e handoff, r.pendingOutgoing e = some handoff →
    markOf r.tracker e = some (.ePassing,some handoff.targetIdentity)
  settled : ∀ e, r.pendingOutgoing e = none → markOf r.tracker e = none ∨ markOf r.tracker e = some owned

theorem sound_initial (self : NetworkIdentity) (own : Own) :
    Sound ({selfIdentity := self,debugSimulator := {own}} : ServerAuthorityRuntime vec3 Carried Own) where
  keyed _ _ looked := by cases looked
  recorded _ _ looked := by cases looked
  addressed _ _ looked := by cases looked
  others _ _ looked := by cases looked
  tracked _ := rfl
  passing _ _ looked := by cases looked
  settled _ _ := .inl rfl

theorem WellMarked_of_sound (sound : r.Sound) (e : AtlasEntityID) : WellMarked (markOf r.tracker e) := by
  cases out : r.pendingOutgoing e with
  | none => exact (sound.settled e out).imp_right .inl
  | some handoff => exact .inr (.inr ⟨_,sound.passing e handoff out⟩)

theorem pending_of_passing {target : NetworkIdentity} {time : Nat} (passing : r.held e = .passing target time) :
    ∃ handoff, r.pendingOutgoing e = some handoff ∧ handoff.transferTimeUs.toNat = time := by
  rw [held] at passing
  cases mark : markOf r.tracker e with
  | none => simp [mark,heldOf] at passing
  | some m =>
    cases out : r.pendingOutgoing e with
    | none => simp [mark,out,heldOf] at passing
    | some handoff =>
      simp only [mark,out,heldOf,Handover.Held.passing.injEq] at passing
      exact ⟨handoff,rfl,passing.2⟩

theorem simulates_iff (sound : r.Sound) : r.simulates e = true ↔ r.held e ≠ .absent := by
  rw [sound.tracked e,held]
  cases markOf r.tracker e <;> cases r.pendingOutgoing e <;> simp [heldOf]

/-- The entities that a tick seeds. -/
def seeded (motion : Motion vec3 Carried Own Outside) (around : Surroundings Outside) (r : ServerAuthorityRuntime vec3 Carried Own) :
    List AtlasEntityID :=
  if around.isOwner && !r.hasSeededInitialEntities then
    seeds (r.transferMailbox.AdoptIncomingIfDue motion r.selfIdentity around.nowUnixTimeUs r.debugSimulator).2.debugSimulator.Count
  else []

/-- The handoff that a tick adopts an entity from. -/
def due (around : Surroundings Outside) (r : ServerAuthorityRuntime vec3 Carried Own) (e : AtlasEntityID) :
    Option (PendingIncomingHandoff vec3) :=
  dueIncoming around.nowUnixTimeUs e r.transferMailbox

variable (motion around e) in
theorem simulate_simulator (sound : r.Sound) : Keyed (r.simulate motion around).1.debugSimulator ∧
    ((r.simulate motion around).1.simulates e = true ↔
      r.simulates e = true ∨ (r.due around e).isSome = true ∨ e ∈ r.seeded motion around) := by
  obtain ⟨keyed,adopted⟩ := AdoptIncomingIfDue_spec motion r.selfIdentity around.nowUnixTimeUs
    e sound.addressed sound.keyed
  have simulated := congrArg Adopted.simulated adopted
  have held : ((r.transferMailbox.AdoptIncomingIfDue motion r.selfIdentity around.nowUnixTimeUs
      r.debugSimulator).2.debugSimulator.entitiesById.lookup e).isSome = true ↔ r.simulates e = true ∨ (r.due around e).isSome = true := by
    cases here : dueIncoming around.nowUnixTimeUs e r.transferMailbox <;>
      simp_all [TransferMailbox.Adopting.about,due,simulates]
  unfold simulate seeded
  dsimp only [simulates] at held ⊢
  generalize (r.transferMailbox.AdoptIncomingIfDue motion r.selfIdentity around.nowUnixTimeUs r.debugSimulator).2.debugSimulator =
    simulator at keyed held ⊢
  generalize owning : (around.isOwner && !r.hasSeededInitialEntities) = seeding
  have planted : Keyed (if seeding then simulator.SeedEntities motion around.outside kDefaultTestEntityCount else simulator) ∧
      (((if seeding then simulator.SeedEntities motion around.outside kDefaultTestEntityCount
        else simulator).entitiesById.lookup e).isSome = true ↔
        e ∈ (if seeding then seeds simulator.Count else []) ∨ (simulator.entitiesById.lookup e).isSome = true) := by
    cases seeding with
    | false => exact ⟨keyed,by simp⟩
    | true => exact SeedEntities_spec around.outside keyed
  generalize (if seeding then simulator.SeedEntities motion around.outside kDefaultTestEntityCount else simulator) = stocked at planted ⊢
  rw [← or_assoc,← held,or_comm,← planted.2]
  split
  · exact (Tick_spec around.outside planted.1).imp_right fun same => by rw [same]
  · exact ⟨planted.1,Iff.rfl⟩

variable (motion around e) in
theorem simulate_mark (sound : r.Sound) : Recorded (r.simulate motion around).1.tracker ∧
    markOf (r.simulate motion around).1.tracker e =
      if (r.simulate motion around).1.simulates e then some ((markOf r.tracker e).getD owned) else none := by
  obtain ⟨keyed,_⟩ := simulate_simulator motion around e sound
  obtain ⟨recorded,mark⟩ := SetOwnedEntities_spec (e := e) (r.simulate motion around).1.debugSimulator.GetEntitiesSnapshot
    sound.recorded
  exact ⟨recorded,mark.trans (if_congr (mem_GetEntitiesSnapshot keyed) rfl rfl)⟩

variable (motion around e) in
theorem simulate_incoming (sound : r.Sound) : (r.simulate motion around).1.pendingIncoming e =
    if (r.due around e).isSome then none else r.pendingIncoming e :=
  lookup_adopted sound.addressed sound.keyed

theorem simulate_marks (sound : r.Sound) : (r.simulate motion around).2.filter (·.entityId = e) =
    ((r.due around e).map fun handoff => Mark.adopted e handoff.sender r.selfIdentity handoff.transferTimeUs).toList := by
  have adopted := (AdoptIncomingIfDue_spec motion r.selfIdentity around.nowUnixTimeUs
    e sound.addressed sound.keyed).2
  refine (congrArg Adopted.marks adopted).trans ?_
  unfold due
  cases dueIncoming around.nowUnixTimeUs e r.transferMailbox <;> rfl

variable (motion around) in
theorem simulate_sound (sound : r.Sound) : (r.simulate motion around).1.Sound where
  keyed := (simulate_simulator _ _ 0 sound).1
  recorded := (simulate_mark _ _ 0 sound).1
  addressed e handoff looked := by
    have kept := simulate_incoming motion around e sound
    unfold pendingIncoming at kept
    rw [kept] at looked
    split at looked
    · cases looked
    · exact sound.addressed e handoff looked
  others e handoff looked := by
    rw [simulate_incoming _ _ _ sound] at looked
    split at looked
    · cases looked
    · exact sound.others e handoff looked
  tracked e := by
    rw [(simulate_mark _ _ _ sound).2]
    split <;> simp_all
  passing e handoff looked := by
    have before := sound.passing e handoff looked
    have held : (r.simulate motion around).1.simulates e = true :=
      (simulate_simulator _ _ _ sound).2.mpr (.inl ((sound.tracked e).trans (by rw [before]; rfl)))
    rw [(simulate_mark _ _ _ sound).2,if_pos held,before]
    rfl
  settled e looked := by
    rw [(simulate_mark _ _ _ sound).2]
    split
    · rcases sound.settled e looked with before | before <;> exact .inr (by rw [before]; rfl)
    · exact .inl rfl

/-- How a shard has an entity when the planner looks: one that arrives or is seeded is owned,
unless the shard has it already. -/
def taken (motion : Motion vec3 Carried Own Outside) (around : Surroundings Outside) (r : ServerAuthorityRuntime vec3 Carried Own)
    (e : AtlasEntityID) : Held :=
  match r.held e with
  | .absent => if (r.due around e).isSome ∨ e ∈ r.seeded motion around then .authoritative else .absent
  | before => before

theorem taken_idle (early : r.due around e = none) (unseeded : e ∉ r.seeded motion around) : r.taken motion around e = r.held e := by
  unfold taken
  cases r.held e <;> simp [early,unseeded]

theorem taken_arrives (absent : r.held e = .absent) (arrives : (r.due around e).isSome = true ∨ e ∈ r.seeded motion around) :
    r.taken motion around e = .authoritative := by
  unfold taken
  rw [absent]
  exact if_pos arrives

theorem taken_has (has : r.held e ≠ .absent) : r.taken motion around e = r.held e := by
  unfold taken
  cases here : r.held e with
  | absent => exact absurd here has
  | authoritative => rfl
  | passing => rfl

theorem simulate_held (sound : r.Sound) : (r.simulate motion around).1.held e = r.taken motion around e := by
  have mark := (simulate_mark motion around e sound).2
  have simulated := (simulate_simulator motion around e sound).2
  have tracked := sound.tracked e
  have same : (r.simulate motion around).1.pendingOutgoing e = r.pendingOutgoing e := rfl
  unfold taken held
  rw [mark,same]
  cases known : markOf r.tracker e with
  | none =>
    have absent : r.pendingOutgoing e = none := by
      cases out : r.pendingOutgoing e with
      | none => rfl
      | some handoff => exact absurd (sound.passing e handoff out) (by simp [known])
    rw [known] at tracked
    by_cases arrives : (r.due around e).isSome = true ∨ e ∈ r.seeded motion around
    · simp [simulated.mpr (.inr arrives),absent,arrives,heldOf]
    · have still : ¬ (r.simulate motion around).1.simulates e = true := by
        rw [simulated,tracked]
        simpa using arrives
      simp [still,arrives,heldOf]
  | some mark =>
    rw [known] at tracked
    have still := simulated.mpr (.inl tracked)
    cases out : r.pendingOutgoing e <;> simp [still,heldOf]

/-- The mailbox to which the planned handoffs were added. -/
def mailed (motion : Motion vec3 Carried Own Outside) (delayUs : UInt64) (around : Surroundings Outside)
    (r : ServerAuthorityRuntime vec3 Carried Own) : TransferMailbox vec3 :=
  (PlanAndSendAll motion r.selfIdentity delayUs around r.tracker).outgoingHandoffs.foldl TransferMailbox.AddPendingOutgoing
    r.transferMailbox

variable (motion around delayUs) in
theorem plan_spec (sound : r.Sound) (e : AtlasEntityID) :
    Plans r.selfIdentity e (around.nowUnixTimeUs+delayUs) (markOf r.tracker e)
      ((PlanAndSendAll motion r.selfIdentity delayUs around r.tracker).about e) :=
  PlanAndSendAll_spec sound.recorded (WellMarked_of_sound sound e)

variable (motion around delayUs r) in
theorem mailed_outgoing (e : AtlasEntityID) : (r.mailed motion delayUs around).pendingOutgoingByEntityId.lookup e =
    (((PlanAndSendAll motion r.selfIdentity delayUs around r.tracker).about e).outgoing.getLast?).or (r.pendingOutgoing e) :=
  (lookup_AddPendingOutgoing _ _).1

variable (motion around delayUs) in
theorem mailed_passing (sound : r.Sound) (e : AtlasEntityID) (handoff : PendingOutgoingHandoff)
    (looked : (r.mailed motion delayUs around).pendingOutgoingByEntityId.lookup e = some handoff) :
    markOf (PlanAndSendAll motion r.selfIdentity delayUs around r.tracker).tracker e = some (.ePassing,some handoff.targetIdentity) := by
  change ((PlanAndSendAll motion r.selfIdentity delayUs around r.tracker).about e).mark = _
  rw [mailed_outgoing] at looked
  have planned := plan_spec motion around delayUs sound e
  generalize (PlanAndSendAll motion r.selfIdentity delayUs around r.tracker).about e = about at planned looked ⊢
  generalize before : markOf r.tracker e = mark at planned
  cases planned with
  | keeps => exact before.symm.trans (sound.passing e handoff looked)
  | passes target entity here apart =>
    obtain rfl := Option.some.inj looked
    rfl

variable (motion around delayUs) in
theorem handOver_committed (sound : r.Sound) (marks : List Mark) (e : AtlasEntityID) :
    ((r.handOver motion delayUs around marks).runtime.simulates e,markOf (r.handOver motion delayUs around marks).runtime.tracker e,
      (r.handOver motion delayUs around marks).runtime.pendingOutgoing e) =
    match dueOutgoing around.nowUnixTimeUs e (r.mailed motion delayUs around) with
    | none => (r.simulates e,((PlanAndSendAll motion r.selfIdentity delayUs around r.tracker).about e).mark,
        (r.mailed motion delayUs around).pendingOutgoingByEntityId.lookup e)
    | some _ => (false,none,none) := by
  have passing := mailed_passing motion around delayUs sound e
  have resolved := CommitOutgoingIfDue_spec r.selfIdentity around.nowUnixTimeUs r.debugSimulator passing
  have looked := lookup_committed r.selfIdentity around.nowUnixTimeUs r.debugSimulator passing
  have simulated := congrArg Resolved.simulated resolved
  have mark := congrArg Resolved.mark resolved
  refine Prod.ext (simulated.trans ?_) (Prod.ext (mark.trans ?_) (looked.trans ?_)) <;>
    cases dueOutgoing around.nowUnixTimeUs e (r.mailed motion delayUs around) <;> rfl

variable (motion around delayUs r e) in
theorem handOver_incoming (marks : List Mark) : (r.handOver motion delayUs around marks).runtime.pendingIncoming e =
    r.pendingIncoming e := by
  have kept := (lookup_AddPendingOutgoing (e := e)
    (PlanAndSendAll motion r.selfIdentity delayUs around r.tracker).outgoingHandoffs r.transferMailbox).2
  exact congrArg (AList.lookup e) kept

/-- The planner leaves an entity with the shard, or starts to pass it on. -/
inductive Hands (self : NetworkIdentity) (e : AtlasEntityID) (transferTimeUs : UInt64) :
    Held → Held → List (Sent vec3) → List Mark → Prop
  | keeps (h) : Hands self e transferTimeUs h h [] []
  | passes (target : NetworkIdentity) (entity : AtlasEntity vec3) (here : entity.Entity_ID = e) (apart : (target == self) = false) :
      Hands self e transferTimeUs .authoritative (.passing target transferTimeUs.toNat) [⟨target,⟨self,entity,transferTimeUs⟩⟩]
        [.started e self target transferTimeUs]

variable (motion around delayUs) in
theorem handOver_held (sound : r.Sound) (before : List Mark) (e : AtlasEntityID) : ∃ h sent marks,
    Hands r.selfIdentity e (around.nowUnixTimeUs+delayUs) (r.held e) h sent marks ∧
    (r.handOver motion delayUs around before).runtime.held e = h.settled around.nowUnixTimeUs.toNat ∧
    (r.handOver motion delayUs around before).sent.filter (·.packet.entity.Entity_ID = e) = sent ∧
    (r.handOver motion delayUs around before).marks.filter (·.entityId = e) =
      before.filter (·.entityId = e) ++ marks ++ committed r.selfIdentity e around.nowUnixTimeUs h := by
  have passing := mailed_passing motion around delayUs sound e
  have resolved := congrArg Resolved.marks (CommitOutgoingIfDue_spec r.selfIdentity around.nowUnixTimeUs
    r.debugSimulator passing)
  have committed := handOver_committed motion around delayUs sound before e
  have planned := plan_spec motion around delayUs sound e
  have outgoing := mailed_outgoing motion around delayUs r e
  have marks : (r.handOver motion delayUs around before).marks.filter (·.entityId = e) = before.filter (·.entityId = e) ++
      ((PlanAndSendAll motion r.selfIdentity delayUs around r.tracker).about e).marks ++
      ((r.mailed motion delayUs around).CommitOutgoingIfDue r.selfIdentity around.nowUnixTimeUs r.debugSimulator
        (PlanAndSendAll motion r.selfIdentity delayUs around r.tracker).tracker).2.marks.filter (·.entityId = e) := by
    simp [handOver,mailed,Planning.about]
  have sent : (r.handOver motion delayUs around before).sent.filter (·.packet.entity.Entity_ID = e) =
      ((PlanAndSendAll motion r.selfIdentity delayUs around r.tracker).about e).sent := rfl
  have resolved : ((r.mailed motion delayUs around).CommitOutgoingIfDue r.selfIdentity around.nowUnixTimeUs r.debugSimulator
      (PlanAndSendAll motion r.selfIdentity delayUs around r.tracker).tracker).2.marks.filter (·.entityId = e) = _ := resolved
  have after : (r.handOver motion delayUs around before).runtime.held e =
      heldOf _ _ := congrArg₂ heldOf (congrArg (·.2.1) committed) (congrArg (·.2.2) committed)
  rw [marks,sent,resolved,after]
  have owner := sound.passing e
  unfold held
  unfold dueOutgoing
  rw [outgoing]
  generalize (PlanAndSendAll motion r.selfIdentity delayUs around r.tracker).about e = about at planned ⊢
  generalize markOf r.tracker e = mark at planned owner ⊢
  cases planned with
  | keeps =>
    refine ⟨_,[],[],.keeps _,?_⟩
    cases out : r.pendingOutgoing e with
    | none => cases mark <;> simp [heldOf,Handover.Held.settled,ServerHandoff.committed]
    | some handoff =>
      by_cases due : Due around.nowUnixTimeUs handoff.transferTimeUs <;>
        simp [owner handoff out,Option.filter_some,heldOf,Handover.Held.settled,ServerHandoff.committed,← due_iff,due]
  | passes target entity here apart =>
    have out : r.pendingOutgoing e = none := by
      cases out : r.pendingOutgoing e with
      | none => rfl
      | some handoff => exact absurd (owner handoff out) (by simp [owned])
    rw [out]
    refine ⟨_,_,_,.passes target entity here apart,?_⟩
    generalize around.nowUnixTimeUs+delayUs = transferTimeUs
    by_cases due : Due around.nowUnixTimeUs transferTimeUs <;>
      simp [Option.filter_some,heldOf,Handover.Held.settled,ServerHandoff.committed,← due_iff,due]

theorem handOver_sound (sound : r.Sound) (marks : List Mark) : (r.handOver motion delayUs around marks).runtime.Sound := by
  have kept := committed_keeps r.selfIdentity around.nowUnixTimeUs
    (r.mailed motion delayUs around).pendingOutgoingByEntityId.entries
    {debugSimulator := r.debugSimulator,tracker := (PlanAndSendAll motion r.selfIdentity delayUs around r.tracker).tracker}
    sound.keyed (recorded_PlanAndSendAll sound.recorded)
  have seen := fun e => handOver_committed motion around delayUs sound marks e
  have incoming := fun e => handOver_incoming motion around delayUs r e marks
  have planned := fun e => plan_spec motion around delayUs sound e
  refine ⟨kept.1,kept.2,?_,?_,?_,?_,?_⟩
  · intro e handoff looked
    exact sound.addressed e handoff ((incoming e).symm.trans looked)
  · intro e handoff looked
    exact sound.others e handoff ((incoming e).symm.trans looked)
  all_goals
    intro e
    have seen := seen e
    cases due : dueOutgoing around.nowUnixTimeUs e (r.mailed motion delayUs around) <;>
      rw [due,Prod.mk.injEq,Prod.mk.injEq] at seen <;> obtain ⟨simulated,mark,outgoing⟩ := seen
  · rw [simulated,mark,(planned e).isSome]
    exact sound.tracked e
  · rw [simulated,mark]
    rfl
  · intro handoff looked
    rw [mark]
    exact mailed_passing _ _ _ sound e handoff (outgoing.symm.trans looked)
  · intro handoff looked
    rw [outgoing] at looked
    cases looked
  · intro looked
    rw [outgoing,mailed_outgoing] at looked
    have planned := planned e
    rw [mark]
    generalize (PlanAndSendAll motion r.selfIdentity delayUs around r.tracker).about e = about at planned looked ⊢
    generalize before : markOf r.tracker e = known at planned
    cases planned with
    | keeps => exact before ▸ sound.settled e looked
    | passes => cases looked
  · intro _
    exact .inl mark

theorem Tick_sound (sound : r.Sound) : (r.Tick motion delayUs around).runtime.Sound :=
  handOver_sound (simulate_sound _ _ sound) _

variable (motion around delayUs e) in
theorem Tick_incoming (sound : r.Sound) : (r.Tick motion delayUs around).runtime.pendingIncoming e =
    if (r.due around e).isSome then none else r.pendingIncoming e :=
  (handOver_incoming _ _ _ _ _ _).trans (simulate_incoming _ _ _ sound)

variable (motion around delayUs) in
/-- A tick does the same with each entity, whatever else the shard simulates: it takes a due
one in, leaves it or hands it on, and gives up what has been handed on when that is due. -/
theorem Tick_held (sound : r.Sound) (e : AtlasEntityID) : ∃ h sent marks,
    Hands r.selfIdentity e (around.nowUnixTimeUs+delayUs) (r.taken motion around e) h sent marks ∧
    (r.Tick motion delayUs around).runtime.held e = h.settled around.nowUnixTimeUs.toNat ∧
    (r.Tick motion delayUs around).sent.filter (·.packet.entity.Entity_ID = e) = sent ∧
    (r.Tick motion delayUs around).marks.filter (·.entityId = e) =
      ((r.due around e).map fun handoff => Mark.adopted e handoff.sender r.selfIdentity handoff.transferTimeUs).toList ++
        marks ++ committed r.selfIdentity e around.nowUnixTimeUs h := by
  have handed := handOver_held motion around delayUs
    (simulate_sound motion around sound) (r.simulate motion around).2 e
  rw [simulate_held sound,simulate_marks sound] at handed
  exact handed

theorem OnGenericEntityPacket_incoming (packet : GenericEntityPacket vec3) (e : AtlasEntityID) :
    (r.OnGenericEntityPacket packet).pendingIncoming e =
      if (packet.sender == r.selfIdentity) = false ∧ packet.entity.Entity_ID = e then
        some ⟨packet.entity,packet.sender,packet.transferTick⟩
      else r.pendingIncoming e := by
  unfold OnGenericEntityPacket
  by_cases own : (packet.sender == r.selfIdentity) = true
  · rw [if_pos own,if_neg (by simp [own])]
  · rw [if_neg own]
    by_cases same : packet.entity.Entity_ID = e
    · subst same
      simp [pendingIncoming,TransferMailbox.QueueIncoming,own]
    · rw [if_neg (fun both => same both.2)]
      exact AList.lookup_insert_ne (Ne.symm same)

theorem OnGenericEntityPacket_sound (packet : GenericEntityPacket vec3) (sound : r.Sound) : (r.OnGenericEntityPacket packet).Sound := by
  have incoming := OnGenericEntityPacket_incoming (r := r) packet
  have kept : (r.OnGenericEntityPacket packet).debugSimulator = r.debugSimulator ∧ (r.OnGenericEntityPacket packet).tracker = r.tracker ∧
      (r.OnGenericEntityPacket packet).pendingOutgoing = r.pendingOutgoing ∧
      (r.OnGenericEntityPacket packet).selfIdentity = r.selfIdentity := by
    unfold OnGenericEntityPacket
    split <;> exact ⟨rfl,rfl,rfl,rfl⟩
  obtain ⟨simulator,tracker,outgoing,self⟩ := kept
  constructor
  · exact simulator ▸ sound.keyed
  · exact tracker ▸ sound.recorded
  · intro e handoff looked
    have looked : (r.OnGenericEntityPacket packet).pendingIncoming e = some handoff := looked
    rw [incoming] at looked
    split at looked
    · rename_i arrived
      obtain rfl := Option.some.inj looked
      exact arrived.2
    · exact sound.addressed e handoff looked
  · intro e handoff looked
    rw [incoming] at looked
    rw [self]
    split at looked
    · rename_i arrived
      obtain rfl := Option.some.inj looked
      exact arrived.1
    · exact sound.others e handoff looked
  · intro e
    rw [simulates,simulator,tracker]
    exact sound.tracked e
  · rw [outgoing,tracker]
    exact sound.passing
  · rw [outgoing,tracker]
    exact sound.settled

end ServerAuthorityRuntime

end Runtime

end AtlasNet.ServerHandoff
