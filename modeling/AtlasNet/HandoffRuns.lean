import AtlasNet.HandoffCustody
import AtlasNet.Foundation.System
import Mathlib.Algebra.BigOperators.Group.Finset.Piecewise

/-! Any number of shards that tick and get each other's packets in any order, each on a clock
of its own. -/
namespace AtlasNet.ServerHandoff
open Foundation Handover ServerAuthorityRuntime BorderHandoffPlanner

variable {ι vec3 Carried Own Outside : Type}

/-- The shards, what the clock of each showed at its last tick, the packets on their way, and
the calls of the manifest so far. -/
structure State (ι vec3 Carried Own : Type) where
  shards : ι → ServerAuthorityRuntime vec3 Carried Own
  clock : ι → UInt64 := fun _ => 0
  inFlight : List (Sent vec3) := []
  marks : List Mark := []

inductive Event (ι Outside : Type)
  | tick (i : ι) (around : Surroundings Outside)
  | deliver (i : ι) (k : Nat)

/-- What `Init` leaves. -/
def start (name : ι → NetworkIdentity) (own : ι → Own) : State ι vec3 Carried Own where
  shards i := {selfIdentity := name i,debugSimulator := {own := own i}}

variable [DecidableEq ι]

namespace State
variable {s : State ι vec3 Carried Own} {i : ι} {e : AtlasEntityID} {motion : Motion vec3 Carried Own Outside} {delayUs : UInt64}
  {around : Surroundings Outside}

def ticked (motion : Motion vec3 Carried Own Outside) (delayUs : UInt64) (s : State ι vec3 Carried Own) (i : ι)
    (around : Surroundings Outside) : State ι vec3 Carried Own :=
  let ticked := (s.shards i).Tick motion delayUs around
  { shards := Function.update s.shards i ticked.runtime
    clock := Function.update s.clock i around.nowUnixTimeUs
    inFlight := s.inFlight ++ ticked.sent
    marks := s.marks ++ ticked.marks }

def delivered (s : State ι vec3 Carried Own) (i : ι) (k : Nat) (m : Sent vec3) : State ι vec3 Carried Own :=
  {s with shards := Function.update s.shards i ((s.shards i).OnGenericEntityPacket m.packet),inFlight := s.inFlight.eraseIdx k}

@[simp] theorem ticked_self : (s.ticked motion delayUs i around).shards i = ((s.shards i).Tick motion delayUs around).runtime :=
  Function.update_self _ _ _

theorem ticked_other {j : ι} (other : j ≠ i) : (s.ticked motion delayUs i around).shards j = s.shards j :=
  Function.update_of_ne other _ _

@[simp] theorem delivered_self {k : Nat} {m : Sent vec3} :
    (s.delivered i k m).shards i = (s.shards i).OnGenericEntityPacket m.packet :=
  Function.update_self _ _ _

theorem delivered_other {j : ι} {k : Nat} {m : Sent vec3} (other : j ≠ i) : (s.delivered i k m).shards j = s.shards j :=
  Function.update_of_ne other _ _

def act (motion : Motion vec3 Carried Own Outside) (delayUs : UInt64) :
    Event ι Outside → State ι vec3 Carried Own → Option (State ι vec3 Carried Own)
  | .tick i around,s => some (s.ticked motion delayUs i around)
  | .deliver i k,s => match s.inFlight[k]? with
    | none => none
    | some m => if (s.shards i).selfIdentity == m.target then some (s.delivered i k m) else none

theorem act_getD {event : Event ι Outside} (takes : (act motion delayUs event s).isSome = true) :
    act motion delayUs event s = some ((act motion delayUs event s).getD s) := by
  obtain ⟨next,taken⟩ := Option.isSome_iff_exists.mp takes
  rw [taken,Option.getD_some]

def transit (m : Sent vec3) : Transit NetworkIdentity := ⟨⟨m.packet.sender,m.packet.transferTick.toNat⟩,m.target⟩

/-- Where one entity is. -/
def custody (s : State ι vec3 Carried Own) (e : AtlasEntityID) : Custody ι NetworkIdentity where
  held i := (s.shards i).held e
  incoming i := ((s.shards i).pendingIncoming e).map fun handoff => ⟨handoff.sender,handoff.transferTimeUs.toNat⟩
  clock i := (s.clock i).toNat
  flying := (s.inFlight.filter (·.packet.entity.Entity_ID = e)).map transit

/-- No shard simulates or awaits anything, and no packet is on its way. -/
structure Empty (s : State ι vec3 Carried Own) : Prop where
  simulated : ∀ i, (s.shards i).debugSimulator.Count = 0
  incoming : ∀ i, (s.shards i).transferMailbox.pendingIncomingByEntityId.size = 0
  inFlight : s.inFlight = []

/-- Every shard keeps its name and what holds between ticks, no packet goes back to the shard
that sent it, and no transfer was canceled. -/
structure Sound (name : ι → NetworkIdentity) (s : State ι vec3 Carried Own) : Prop where
  named : ∀ i, (s.shards i).selfIdentity = name i
  sound : ∀ i, (s.shards i).Sound
  apart : ∀ m ∈ s.inFlight, (m.target == m.packet.sender) = false
  uncanceled : ∀ e, .canceled e ∉ s.marks

omit [DecidableEq ι] in
theorem vacant_of_empty {name : ι → NetworkIdentity} (sound : s.Sound name) (empty : s.Empty) (e : AtlasEntityID) :
    (s.custody e).Vacant where
  held i := by
    have none := Dictionary.size_eq_zero.mp (empty.simulated i) e
    have absent : markOf (s.shards i).tracker e = .none := by
      simpa [simulates,none] using (sound.sound i).tracked e
    change heldOf _ _ = _
    rw [absent]
    rfl
  incoming i := by
    have none := Dictionary.size_eq_zero.mp (empty.incoming i) e
    simp [custody,pendingIncoming,none]
  flying := by simp [custody,empty.inFlight]

variable (motion around e) in
omit [DecidableEq ι] in
theorem arrives_taken (r : ServerAuthorityRuntime vec3 Carried Own)
    (first : e ∈ r.seeded motion around → r.held e = .absent ∧ r.pendingIncoming e = none) :
    Arrives around.nowUnixTimeUs.toNat (decide (e ∈ r.seeded motion around)) (r.held e)
      ((r.pendingIncoming e).map fun handoff => ⟨handoff.sender,handoff.transferTimeUs.toNat⟩) (r.taken motion around e)
      ((if (r.due around e).isSome then none else r.pendingIncoming e).map fun handoff =>
        ⟨handoff.sender,handoff.transferTimeUs.toNat⟩) := by
  have due : r.due around e = (r.pendingIncoming e).filter fun handoff => Due around.nowUnixTimeUs handoff.transferTimeUs := rfl
  by_cases seeded : e ∈ r.seeded motion around
  · obtain ⟨absent,unawaited⟩ := first seeded
    rw [taken_arrives absent (.inr seeded),absent,unawaited,decide_eq_true seeded,ite_self]
    exact .granted
  rw [decide_eq_false seeded]
  cases pending : r.pendingIncoming e with
  | none =>
    have early : r.due around e = none := by rw [due,pending,Option.filter_none]
    rw [taken_idle early seeded,ite_self]
    exact .waits _ _ (fun _ none => by cases none)
  | some handoff =>
    rw [pending,Option.filter_some] at due
    by_cases late : Due around.nowUnixTimeUs handoff.transferTimeUs
    · have late' := due_iff.mp late
      have taking : (r.due around e).isSome = true := by simp [due,late]
      rw [if_pos taking]
      by_cases absent : r.held e = .absent
      · rw [taken_arrives absent (.inl taking),absent]
        exact .takes _ late'
      · rw [taken_has absent]
        exact .merges _ _ late' absent
    · have early : r.due around e = none := by simp [due,late]
      rw [taken_idle early seeded,early]
      refine .waits _ _ fun t same => ?_
      obtain rfl := Option.some.inj same
      exact Nat.lt_of_not_le (mt due_iff.mpr late)

omit [DecidableEq ι] in
theorem hands_view {self : NetworkIdentity} {time : UInt64} {held handed : Held} {sent : List (Sent vec3)} {marks : List Mark}
    (hands : ServerAuthorityRuntime.Hands self e time held handed sent marks) :
    Handover.Hands self time.toNat held handed (sent.map transit) := by
  cases hands with
  | keeps => exact .keeps _
  | passes target entity here apart => exact .passes target apart

variable (delayUs) in
/-- A tick is a turn of its shard in the handover of each entity. -/
theorem tick_custody {name : ι → NetworkIdentity} (sound : s.Sound name)
    (first : (s.shards i).seeded motion around ≠ [] → s.Empty)
    (e : AtlasEntityID) : ∃ granted held incoming handed sent,
    (granted = true ↔ e ∈ (s.shards i).seeded motion around) ∧ (granted = true → (s.custody e).Vacant) ∧
    Arrives around.nowUnixTimeUs.toNat granted ((s.custody e).held i) ((s.custody e).incoming i) held incoming ∧
    Handover.Hands (name i) (around.nowUnixTimeUs+delayUs).toNat held handed sent ∧
    (s.ticked motion delayUs i around).custody e =
      (((s.custody e).arrived i around.nowUnixTimeUs.toNat held incoming).handed i handed sent).settled i := by
  have vacant : e ∈ (s.shards i).seeded motion around → (s.custody e).Vacant := fun inside =>
    vacant_of_empty sound (first (List.ne_nil_of_mem inside)) e
  have arrives := arrives_taken e motion around (s.shards i) fun inside =>
    ⟨(vacant inside).held i,Option.map_eq_none_iff.mp ((vacant inside).incoming i)⟩
  obtain ⟨handed,sent,marks,hands,after,went,_⟩ := Tick_held motion around delayUs (sound.sound i) e
  have incoming := Tick_incoming motion around delayUs e (sound.sound i)
  have passed := hands_view hands
  rw [sound.named i] at passed
  refine ⟨_,_,_,_,_,decide_eq_true_iff,fun yes => vacant (of_decide_eq_true yes),arrives,passed,?_⟩
  apply Custody.ext
  · funext j
    by_cases same : j = i
    · subst same
      simpa [custody,ticked,Custody.settled,Custody.handed,Custody.arrived] using after
    · simp [custody,ticked,Custody.settled,Custody.handed,Custody.arrived,same]
  · funext j
    by_cases same : j = i
    · subst same
      simpa [custody,ticked,Custody.settled,Custody.handed,Custody.arrived] using congrArg _ incoming
    · simp [custody,ticked,Custody.settled,Custody.handed,Custody.arrived,same]
  · funext j
    by_cases same : j = i
    · subst same
      simp [custody,ticked,Custody.settled,Custody.handed,Custody.arrived]
    · simp [custody,ticked,Custody.settled,Custody.handed,Custody.arrived,same]
  · simp [custody,ticked,Custody.settled,Custody.handed,Custody.arrived,went]

theorem ticked_sound {name : ι → NetworkIdentity} (sound : s.Sound name) : (s.ticked motion delayUs i around).Sound name := by
  have each := fun e => Tick_held motion around delayUs (sound.sound i) e
  constructor
  · intro j
    by_cases same : j = i
    · subst same
      rw [ticked_self]
      exact sound.named j
    · rw [ticked_other same]
      exact sound.named j
  · intro j
    by_cases same : j = i
    · subst same
      rw [ticked_self]
      exact Tick_sound (sound.sound j)
    · rw [ticked_other same]
      exact sound.sound j
  · intro m inside
    rcases List.mem_append.mp inside with old | new
    · exact sound.apart m old
    · obtain ⟨_,sent,_,hands,_,went,_⟩ := each m.packet.entity.Entity_ID
      have listed : m ∈ sent := went ▸ List.mem_filter.mpr ⟨new,decide_eq_true rfl⟩
      generalize (s.shards i).taken motion around m.packet.entity.Entity_ID = before at hands
      cases hands with
      | keeps => cases listed
      | passes target entity here apart =>
        obtain rfl := List.mem_singleton.mp listed
        exact apart
  · intro e inside
    rcases List.mem_append.mp inside with old | new
    · exact sound.uncanceled e old
    · obtain ⟨h,_,_,hands,_,_,marked⟩ := each e
      have listed : .canceled e ∈ ((s.shards i).Tick motion delayUs around).marks.filter (·.entityId = e) :=
        List.mem_filter.mpr ⟨new,by simp⟩
      generalize (s.shards i).taken motion around e = before at hands
      rw [marked,List.mem_append,List.mem_append] at listed
      rcases listed with (adopted | handed) | committed
      · obtain ⟨_,_,same⟩ := Option.map_eq_some_iff.mp (Option.mem_toList.mp adopted)
        cases same
      · cases hands with
        | keeps => cases handed
        | passes => cases List.mem_singleton.mp handed
      · cases h with
        | absent => cases committed
        | authoritative => cases committed
        | passing target time =>
          simp [ServerHandoff.committed] at committed

theorem delivered_sound {name : ι → NetworkIdentity} {k : Nat} {m : Sent vec3} (sound : s.Sound name) :
    (s.delivered i k m).Sound name := by
  constructor
  · intro j
    by_cases same : j = i
    · subst same
      rw [delivered_self,OnGenericEntityPacket]
      split <;> exact sound.named j
    · rw [delivered_other same]
      exact sound.named j
  · intro j
    by_cases same : j = i
    · subst same
      rw [delivered_self]
      exact OnGenericEntityPacket_sound m.packet (sound.sound j)
    · rw [delivered_other same]
      exact sound.sound j
  · exact fun other inside => sound.apart other (List.mem_of_mem_eraseIdx inside)
  · exact sound.uncanceled

theorem act_sound {name : ι → NetworkIdentity} {event : Event ι Outside} {next : State ι vec3 Carried Own} (sound : s.Sound name)
    (taken : act motion delayUs event s = some next) : next.Sound name := by
  cases event with
  | tick i around =>
    obtain rfl := Option.some.inj taken
    exact ticked_sound sound
  | deliver i k =>
    simp only [act] at taken
    split at taken
    · cases taken
    split at taken
    · obtain rfl := Option.some.inj taken
      exact delivered_sound sound
    · cases taken

/-- A packet that is delivered arrives in the handover of its entity, and in no other one. -/
theorem delivered_custody {name : ι → NetworkIdentity} {k : Nat} {m : Sent vec3} (sound : s.Sound name)
    (sent : s.inFlight[k]? = some m) (here : ((s.shards i).selfIdentity == m.target) = true) (e : AtlasEntityID) :
    (s.delivered i k m).custody e = s.custody e ∨ ∃ before t after, (s.custody e).flying = before ++ t::after ∧
      (name i == t.target) = true ∧ (s.delivered i k m).custody e = {s.custody e with
        incoming := Function.update (s.custody e).incoming i (some t.toArriving),flying := before ++ after} := by
  obtain ⟨inside,there⟩ := List.getElem?_eq_some_iff.mp sent
  have split : s.inFlight = s.inFlight.take k ++ m::s.inFlight.drop (k+1) := by
    rw [← there,List.getElem_cons_drop,List.take_append_drop]
  have erased : s.inFlight.eraseIdx k = s.inFlight.take k ++ s.inFlight.drop (k+1) := List.eraseIdx_eq_take_drop_succ ..
  have foreign : (m.packet.sender == (s.shards i).selfIdentity) = false := by
    rw [BEq.comm,BEq.congr_left here]
    exact sound.apart m (List.mem_of_getElem? sent)
  have incoming := OnGenericEntityPacket_incoming (r := s.shards i) m.packet e
  have held : ∀ j, ((s.delivered i k m).shards j).held e = (s.shards j).held e := by
    intro j
    by_cases same : j = i
    · subst same
      rw [delivered_self,OnGenericEntityPacket]
      split <;> rfl
    · rw [delivered_other same]
  by_cases same : m.packet.entity.Entity_ID = e
  · refine .inr ⟨((s.inFlight.take k).filter (·.packet.entity.Entity_ID = e)).map transit,transit m,
      ((s.inFlight.drop (k+1)).filter (·.packet.entity.Entity_ID = e)).map transit,?_,?_,?_⟩
    · have flying := congrArg (fun sent => (sent.filter (·.packet.entity.Entity_ID = e)).map transit) split
      refine flying.trans ?_
      simp [same]
    · rw [← sound.named i]
      exact here
    · apply Custody.ext
      · exact funext held
      · funext j
        by_cases mine : j = i
        · subst mine
          rw [if_pos ⟨foreign,same⟩] at incoming
          simp [custody,incoming,transit]
        · simp [custody,delivered_other mine,mine]
      · rfl
      · simp [custody,delivered,erased]
  · refine .inl (Custody.ext (funext held) ?_ rfl ?_)
    · funext j
      by_cases mine : j = i
      · subst mine
        rw [if_neg (fun both => same both.2)] at incoming
        simp [custody,incoming]
      · simp [custody,delivered_other mine]
    · have flying := congrArg (fun sent => (sent.filter (·.packet.entity.Entity_ID = e)).map transit) split
      refine Eq.trans ?_ flying.symm
      simp [custody,delivered,erased,same]

omit [DecidableEq ι] in
theorem start_sound (name : ι → NetworkIdentity) (own : ι → Own) :
    (start name own : State ι vec3 Carried Own).Sound name where
  named _ := rfl
  sound i := sound_initial (name i) (own i)
  apart _ inside := by cases inside
  uncanceled _ inside := by cases inside

end State

section Runs
variable [Fintype ι] {name : ι → NetworkIdentity} {own : ι → Own} {motion : Motion vec3 Carried Own Outside} {delayUs : UInt64}
  {s : State ι vec3 Carried Own}

/-- A shard that is to seed its entities is the first one that has any. -/
def SeedsOnce (s : State ι vec3 Carried Own) : Event ι Outside → Prop
  | .tick i around => around.isOwner = true → (s.shards i).hasSeededInitialEntities = false → s.Empty
  | .deliver .. => True

/-- No clock goes back, and a shard that passes entities on ticks again within the delay of a
handoff. -/
structure TicksOften (delayUs : UInt64) (s : State ι vec3 Carried Own) (i : ι) (now : UInt64) : Prop where
  later : s.clock i ≤ now
  often : (s.shards i).transferMailbox.pendingOutgoingByEntityId.size ≠ 0 → now.toNat ≤ (s.clock i).toNat+delayUs.toNat
  future : now.toNat+delayUs.toNat < 2^64

/-- A tick at which a shard seeds its entities. -/
def Seeds (s : State ι vec3 Carried Own) : Event ι Outside → Prop
  | .tick i around => around.isOwner = true ∧ (s.shards i).hasSeededInitialEntities = false
  | .deliver .. => False

def Punctual (delayUs : UInt64) (s : State ι vec3 Carried Own) (event : Event ι Outside) : Prop :=
  SeedsOnce s event ∧ match event with
    | .tick i around => TicksOften delayUs s i around.nowUnixTimeUs
    | .deliver .. => True

namespace ServerAuthorityRuntime

def authoritative (r : ServerAuthorityRuntime vec3 Carried Own) (e : AtlasEntityID) : Bool :=
  (r.tracker.lookup e).isSome && !r.tracker.IsPassing e

theorem authoritative_iff {r : ServerAuthorityRuntime vec3 Carried Own} (sound : r.Sound) (e : AtlasEntityID) :
    r.authoritative e = true ↔ r.held e = .authoritative := by
  have known : (r.tracker.lookup e).isSome = (markOf r.tracker e).isSome := by simp [markOf]
  rw [authoritative,known,IsPassing_eq,held]
  cases out : r.pendingOutgoing e with
  | some handoff => simp [sound.passing e handoff out,heldOf]
  | none => rcases sound.settled e out with absent | mine <;> simp_all [heldOf,owned]

end ServerAuthorityRuntime

/-- In how many places an entity is: with an authority, awaited, or on its way. -/
def State.places (s : State ι vec3 Carried Own) (e : AtlasEntityID) : Nat :=
  (Finset.univ.filter fun i => (s.shards i).authoritative e = true).card+
    (Finset.univ.filter fun i => ((s.shards i).pendingIncoming e).isSome = true).card+
    (s.inFlight.filter (·.packet.entity.Entity_ID = e)).length

omit [DecidableEq ι] in
theorem places_eq (sound : s.Sound name) (e : AtlasEntityID) : s.places e = (s.custody e).tokens := by
  have load : ∀ i, (s.custody e).load i =
      (if (s.shards i).authoritative e = true then 1 else 0)+(if ((s.shards i).pendingIncoming e).isSome = true then 1 else 0) := by
    intro i
    simp only [Custody.load,State.custody]
    congr 1
    · by_cases mine : (s.shards i).held e = .authoritative
      · simp [mine,(authoritative_iff (sound.sound i) e).mpr mine,Handover.Held.load]
      · rw [if_neg (mt (authoritative_iff (sound.sound i) e).mp mine)]
        cases here : (s.shards i).held e with
        | authoritative => exact absurd here mine
        | absent => rfl
        | passing => rfl
    · cases (s.shards i).pendingIncoming e <;> rfl
  rw [State.places,Custody.tokens,Finset.sum_congr rfl (fun i _ => load i),Finset.sum_add_distrib,Finset.card_filter,Finset.card_filter]
  simp [State.custody]

omit [Fintype ι] [DecidableEq ι] in
theorem seeded_eq_nil {i : ι} {around : Surroundings Outside} (unseeded : ¬ Seeds s (.tick i around)) :
    (s.shards i).seeded motion around = [] := by
  refine if_neg fun seeding => unseeded ?_
  rwa [Bool.and_eq_true,Bool.not_eq_true'] at seeding

omit [Fintype ι] [DecidableEq ι] in
theorem empty_of_seeds {i : ι} {around : Surroundings Outside} (once : SeedsOnce s (.tick i around))
    (seeds : (s.shards i).seeded motion around ≠ []) : s.Empty := by
  by_cases seeding : Seeds s (.tick i around)
  · exact once seeding.1 seeding.2
  · exact absurd (seeded_eq_nil seeding) seeds

omit [Fintype ι] [DecidableEq ι] in
theorem seeded_of_empty {i : ι} {around : Surroundings Outside} (empty : s.Empty) (seeding : Seeds s (.tick i around)) :
    (s.shards i).seeded motion around = seeds 0 := by
  have entries : (s.shards i).transferMailbox.pendingIncomingByEntityId.entries = [] :=
    List.length_eq_zero_iff.mp (empty.incoming i)
  have count := empty.simulated i
  simp [seeded,seeding.1,seeding.2,TransferMailbox.AdoptIncomingIfDue,entries,count]

omit [Fintype ι] in
/-- A run whose first step is a tick. -/
theorem reached_ticked (i : ι) (around : Surroundings Outside) (future : around.nowUnixTimeUs.toNat+delayUs.toNat < 2^64) :
    (System.stepping (start name own) (State.act motion delayUs)).ReachableWhile (Punctual delayUs)
      ((start name own).ticked motion delayUs i around) := by
  have empty : (start name own : State ι vec3 Carried Own).Empty := ⟨fun _ => rfl,fun _ => rfl,rfl⟩
  have often : TicksOften delayUs (start name own : State ι vec3 Carried Own) i around.nowUnixTimeUs :=
    ⟨UInt64.le_iff_toNat_le.mpr (Nat.zero_le _),fun some => absurd rfl some,future⟩
  have punctual : Punctual delayUs (start name own : State ι vec3 Carried Own) (.tick i around) := ⟨fun _ _ => empty,often⟩
  exact System.stepping_start.step _ _ _ punctual rfl

/-- Two shards, whose entities stand where they are. -/
def neighbours (i : Fin 2) : NetworkIdentity := .MakeIDShard ⟨List.replicate 16 (UInt8.ofNat i.val),List.length_replicate⟩

def standing : Motion Int Unit Unit Unit where
  Contains bound position := (bound.ID == 0) == decide (position < 0)
  spawn _ _ _ := (0,(),())
  adopt _ _ _ := ((),())
  advance _ _ := ()
  move _ _ position _ := (position,())

def opening : Surroundings Unit where
  nowUnixTimeUs := 1000
  isOwner := true
  snapshotDue := false
  claimedBounds := [(neighbours 0,⟨0,{}⟩),(neighbours 1,⟨1,{}⟩)]
  GetServers _ := [neighbours 0,neighbours 1]
  outside := ()

def later : Surroundings Unit := {opening with nowUnixTimeUs := 2000,isOwner := false}

def opened : State (Fin 2) Int Unit Unit := (start neighbours fun _ => ()).ticked standing 60000 0 opening

theorem opened_reached : (System.stepping (start neighbours fun _ => ()) (State.act standing 60000)).ReachableWhile
    (Punctual 60000) opened :=
  reached_ticked 0 opening (by decide)

/-- Entities that step over the border at every tick. -/
def swinging : Motion Int Unit Unit Unit :=
  {standing with spawn := fun _ _ _ => (-1,(),()),move := fun _ _ position _ => (-1-position,())}

def meeting : Surroundings Unit := {later with nowUnixTimeUs := 70000}

def launched : State (Fin 2) Int Unit Unit := (start neighbours fun _ => ()).ticked swinging 60000 0 opening

/-- The first entity is with the second shard, which has not looked yet. -/
def received : State (Fin 2) Int Unit Unit := (State.act swinging 60000 (.deliver 1 0) launched).getD launched

/-- The second shard has taken the entity and sent it back, and the first one keeps it still. -/
def returned : State (Fin 2) Int Unit Unit := received.ticked swinging 60000 1 meeting

/-- Both shards simulate the first entity. -/
theorem returned_simulates : ∀ i, (returned.shards i).simulates (MakeEntityId 0) = true := by decide +kernel

theorem received_behind : ((System.stepping (start neighbours fun _ => ()) (State.act swinging 60000)).behind launched).ReachableWhile
    (Punctual 60000) received := by
  have taken : State.act swinging 60000 (.deliver 1 0) launched = some received := State.act_getD (by decide +kernel)
  have punctual : Punctual 60000 launched (.deliver 1 0 : Event (Fin 2) Unit) := And.intro trivial trivial
  exact (System.ReachableWhile.initial launched rfl).step launched (Event.deliver 1 0) received punctual taken

theorem returned_behind : ((System.stepping (start neighbours fun _ => ()) (State.act swinging 60000)).behind launched).ReachableWhile
    (Punctual 60000) returned := by
  have once : SeedsOnce received (.tick 1 meeting) := fun owner => Bool.noConfusion owner
  have none : (received.shards 1).transferMailbox.pendingOutgoingByEntityId.size = 0 := by decide +kernel
  have often : TicksOften 60000 received 1 meeting.nowUnixTimeUs :=
    ⟨by decide +kernel,fun some => absurd none some,by decide⟩
  have punctual : Punctual 60000 received (.tick 1 meeting) := And.intro once often
  have taken : State.act swinging 60000 (.tick 1 meeting) received = some returned := rfl
  exact received_behind.step received (Event.tick 1 meeting) returned punctual taken

theorem returned_reached : (System.stepping (start neighbours fun _ => ()) (State.act swinging 60000)).ReachableWhile
    (Punctual 60000) returned :=
  returned_behind.from (reached_ticked 0 opening (by decide))

omit [Fintype ι] in
/-- The entities that are tracked are those that are simulated, one is passed on as long as its
handoff is pending, and the branch that cancels a handoff is never taken. -/
theorem never_canceled (reached : (System.stepping (start name own) (State.act motion delayUs)).Reachable s) :
    (∀ e, .canceled e ∉ s.marks) ∧ ∀ i e,
      ((s.shards i).debugSimulator.entitiesById.lookup e).isSome = ((s.shards i).tracker.lookup e).isSome ∧
      (∀ handoff, (s.shards i).pendingOutgoing e = some handoff →
        (s.shards i).tracker.IsPassingTo e handoff.targetIdentity = true) ∧
      ((s.shards i).tracker.IsPassing e = true → ((s.shards i).pendingOutgoing e).isSome = true) := by
  have sound : s.Sound name := System.stepping_invariant _ (State.start_sound name own)
    (fun _ _ _ before _ taken => State.act_sound before taken) reached
  refine ⟨sound.uncanceled,fun i e => ⟨?_,?_,?_⟩⟩
  · have tracked := (sound.sound i).tracked e
    rwa [simulates,markOf,Option.isSome_map] at tracked
  · intro handoff looked
    rw [IsPassingTo_eq,(sound.sound i).passing e handoff looked]
    simp
  · intro passing
    rw [IsPassing_eq] at passing
    cases out : (s.shards i).pendingOutgoing e with
    | some handoff => rfl
    | none => rcases (sound.sound i).settled e out with absent | mine <;> simp_all [owned]

theorem never_canceled_opened : (∃ handoff, (opened.shards 0).pendingOutgoing (MakeEntityId 0) = some handoff ∧
    (opened.shards 0).tracker.IsPassingTo (MakeEntityId 0) handoff.targetIdentity = true) ∧ ∀ e, .canceled e ∉ opened.marks := by
  obtain ⟨uncanceled,each⟩ := never_canceled opened_reached.reachable
  obtain ⟨_,passing,_⟩ := each 0 (MakeEntityId 0)
  have pending : ((opened.shards 0).pendingOutgoing (MakeEntityId 0)).isSome = true := by decide +kernel
  obtain ⟨handoff,looked⟩ := Option.isSome_iff_exists.mp pending
  exact ⟨⟨handoff,looked,passing handoff looked⟩,uncanceled⟩

omit [Fintype ι] [DecidableEq ι] in
theorem start_vacant (e : AtlasEntityID) : ((start name own : State ι vec3 Carried Own).custody e).Vacant where
  held _ := rfl
  incoming _ := rfl
  flying := rfl

/-- No entity is ever with two authorities, whatever the clocks of the shards show and however
late a packet comes. -/
theorem one_place (reached : (System.stepping (start name own) (State.act motion delayUs)).ReachableWhile SeedsOnce s)
    (e : AtlasEntityID) : s.places e ≤ 1 := by
  have invariant : s.Sound name ∧ (s.custody e).tokens ≤ 1 := by
    refine System.stepping_invariant (fun s => s.Sound name ∧ (s.custody e).tokens ≤ 1) ?_ ?_ reached
    · exact ⟨State.start_sound name own,(Custody.tokens_vacant (start_vacant e)).trans_le (Nat.zero_le _)⟩
    · intro s event next ⟨sound,once⟩ allowed taken
      refine ⟨State.act_sound sound taken,?_⟩
      cases event with
      | tick i around =>
        obtain rfl := Option.some.inj taken
        obtain ⟨granted,_,_,_,_,_,first,arrives,hands,after⟩ :=
          State.tick_custody delayUs sound (empty_of_seeds allowed) e
        rw [after]
        exact turn_once once first arrives hands
      | deliver i k =>
        simp only [State.act] at taken
        split at taken
        · cases taken
        rename_i m sent
        split at taken
        · rename_i here
          obtain rfl := Option.some.inj taken
          rcases State.delivered_custody sound sent here e with same | ⟨before,t,after,split,_,same⟩
          · rwa [same]
          · rw [same,tokens_delivered split ((Custody.flown once _ _ split).2.2 i).2]
            exact once
        · cases taken
  rw [places_eq invariant.1]
  exact invariant.2

theorem one_place_opened : opened.places (MakeEntityId 0) ≤ 1 :=
  one_place (opened_reached.weaken fun _ _ punctual => punctual.1) (MakeEntityId 0)

/-- A tick that seeds nothing loses an entity exactly when it takes one in that the shard has
not given up yet. -/
theorem tick_places (reached : (System.stepping (start name own) (State.act motion delayUs)).ReachableWhile SeedsOnce s)
    (i : ι) (around : Surroundings Outside) (unseeded : around.isOwner = false ∨ (s.shards i).hasSeededInitialEntities = true)
    (e : AtlasEntityID) : (s.ticked motion delayUs i around).places e+
      (if ((s.shards i).due around e).isSome = true ∧ (s.shards i).simulates e = true then 1 else 0) = s.places e := by
  have sound : s.Sound name := System.stepping_invariant _ (State.start_sound name own)
    (fun _ _ _ before _ taken => State.act_sound before taken) (reached.weaken (fun _ _ _ => trivial))
  have none : (s.shards i).seeded motion around = [] := by
    refine seeded_eq_nil fun seeding => ?_
    rcases unseeded with other | already
    · cases other.symm.trans seeding.1
    · cases already.symm.trans seeding.2
  obtain ⟨granted,_,_,_,_,seeds,_,arrives,hands,after⟩ :=
    State.tick_custody delayUs sound (show (s.shards i).seeded motion around ≠ [] → s.Empty from fun some => absurd none some) e
  have places : (s.ticked motion delayUs i around).places e = ((s.ticked motion delayUs i around).custody e).tokens :=
    places_eq (State.ticked_sound sound) e
  classical
  have counted := turn_tokens arrives hands
  have zero : granted.toNat = 0 := by
    cases granted with
    | false => rfl
    | true => exact absurd (seeds.mp rfl) (by simp [none])
  have overtaken : (s.custody e).Overtaken i around.nowUnixTimeUs.toNat ↔
      ((s.shards i).due around e).isSome = true ∧ (s.shards i).simulates e = true := by
    have due : (s.shards i).due around e = ((s.shards i).pendingIncoming e).filter fun handoff =>
      Due around.nowUnixTimeUs handoff.transferTimeUs := rfl
    rw [simulates_iff (sound.sound i)]
    refine (and_congr Iff.rfl ?_).trans and_comm
    simp only [State.custody,due]
    cases (s.shards i).pendingIncoming e with
    | none => simp
    | some handoff => simp [Option.filter_some,due_iff]
  rw [places,places_eq sound,after,← if_congr overtaken rfl rfl,counted,zero,Nat.add_zero]

/-- The first shard is late: it gets the entity back before it has given it up. -/
def overdue : Surroundings Unit := {later with nowUnixTimeUs := 200000}

def awaited : State (Fin 2) Int Unit Unit := (State.act swinging 60000 (.deliver 0 49) returned).getD returned

theorem tick_places_overdue : ((awaited.shards 0).due overdue (MakeEntityId 0)).isSome = true ∧
    (awaited.shards 0).simulates (MakeEntityId 0) = true ∧
    (awaited.ticked swinging 60000 0 overdue).places (MakeEntityId 0)+1 = awaited.places (MakeEntityId 0) := by
  have taken : State.act swinging 60000 (.deliver 0 49) returned = some awaited := State.act_getD (by decide +kernel)
  have reached : (System.stepping (start neighbours fun _ => ()) (State.act swinging 60000)).ReachableWhile SeedsOnce awaited :=
    (returned_reached.weaken fun _ _ punctual => punctual.1).step returned (Event.deliver 0 49) awaited trivial taken
  have due : ((awaited.shards 0).due overdue (MakeEntityId 0)).isSome = true := by decide +kernel
  have here : (awaited.shards 0).simulates (MakeEntityId 0) = true := by decide +kernel
  have counted := tick_places reached 0 overdue (.inl rfl) (MakeEntityId 0)
  rw [if_pos ⟨due,here⟩] at counted
  exact ⟨due,here,counted⟩

/-- What holds in every state of a punctual run. -/
structure Kept (name : ι → NetworkIdentity) (delayUs : UInt64) (s : State ι vec3 Carried Own) : Prop where
  sound : s.Sound name
  safe : ∀ e, Safe name delayUs.toNat (s.custody e)

omit [DecidableEq ι] [Fintype ι] in
theorem timely_of_ticksOften {i : ι} {now : UInt64} (often : TicksOften delayUs s i now) (e : AtlasEntityID) :
    Timely delayUs.toNat (s.custody e) i now.toNat where
  later := UInt64.le_iff_toNat_le.mp often.later
  often target time passing := by
    obtain ⟨handoff,pending,_⟩ := pending_of_passing passing
    refine often.often fun none => ?_
    exact absurd (Dictionary.size_eq_zero.mp none e) (fun absent => Option.some_ne_none handoff (pending.symm.trans absent))

/-- The entities that an event seeds. -/
def State.seededBy (motion : Motion vec3 Carried Own Outside) (s : State ι vec3 Carried Own) : Event ι Outside → List AtlasEntityID
  | .tick i around => (s.shards i).seeded motion around
  | .deliver .. => []

omit [Fintype ι] [DecidableEq ι] in
theorem seededBy_eq_nil {event : Event ι Outside} (unseeded : ¬ Seeds s event) : s.seededBy motion event = [] := by
  cases event with
  | tick i around => exact seeded_eq_nil unseeded
  | deliver => rfl

theorem ticked_kept {i : ι} {around : Surroundings Outside} (kept : Kept name delayUs s)
    (allowed : Punctual delayUs s (.tick i around)) : Kept name delayUs (s.ticked motion delayUs i around) ∧
      ∀ e, ((s.ticked motion delayUs i around).custody e).tokens =
        (s.custody e).tokens+(if e ∈ (s.shards i).seeded motion around then 1 else 0) := by
  obtain ⟨once,often⟩ := allowed
  have time : (around.nowUnixTimeUs+delayUs).toNat = around.nowUnixTimeUs.toNat+delayUs.toNat := by
    rw [UInt64.toNat_add,Nat.mod_eq_of_lt often.future]
  have turned : ∀ e, Safe name delayUs.toNat ((s.ticked motion delayUs i around).custody e) ∧
      ((s.ticked motion delayUs i around).custody e).tokens =
        (s.custody e).tokens+(if e ∈ (s.shards i).seeded motion around then 1 else 0) := by
    intro e
    obtain ⟨granted,_,_,_,_,seeds,first,arrives,hands,after⟩ :=
      State.tick_custody delayUs kept.sound (empty_of_seeds once) e
    rw [time] at hands
    rw [after]
    refine (turn_safe (kept.safe e) (timely_of_ticksOften often e) first arrives hands).imp_right fun total => total.trans ?_
    cases granted with
    | false => rw [if_neg (fun inside => Bool.false_ne_true (seeds.mpr inside))]; rfl
    | true => rw [if_pos (seeds.mp rfl)]; rfl
  exact ⟨⟨State.ticked_sound kept.sound,fun e => (turned e).1⟩,fun e => (turned e).2⟩

theorem delivered_kept {i : ι} {k : Nat} {m : Sent vec3} (kept : Kept name delayUs s) (sent : s.inFlight[k]? = some m)
    (here : ((s.shards i).selfIdentity == m.target) = true) : Kept name delayUs (s.delivered i k m) ∧
      ∀ e, ((s.delivered i k m).custody e).tokens = (s.custody e).tokens := by
  have moved : ∀ e, Safe name delayUs.toNat ((s.delivered i k m).custody e) ∧
      ((s.delivered i k m).custody e).tokens = (s.custody e).tokens := by
    intro e
    rcases State.delivered_custody kept.sound sent here e with same | ⟨before,t,after,split,there,same⟩
    · rw [same]
      exact ⟨kept.safe e,rfl⟩
    · rw [same]
      exact ⟨deliver_safe (kept.safe e) split there,
        tokens_delivered split ((Custody.flown (kept.safe e).once _ _ split).2.2 i).2⟩
  exact ⟨⟨State.delivered_sound kept.sound,fun e => (moved e).1⟩,fun e => (moved e).2⟩

/-- A punctual step neither loses an entity nor brings one that it does not seed. -/
theorem step_kept {event : Event ι Outside} {next : State ι vec3 Carried Own} (kept : Kept name delayUs s)
    (allowed : Punctual delayUs s event) (taken : State.act motion delayUs event s = some next) : Kept name delayUs next ∧
      ∀ e, (next.custody e).tokens = (s.custody e).tokens+(if e ∈ s.seededBy motion event then 1 else 0) := by
  cases event with
  | tick i around =>
    obtain rfl := Option.some.inj taken
    exact ticked_kept kept allowed
  | deliver i k =>
    simp only [State.act] at taken
    split at taken
    · cases taken
    rename_i m sent
    split at taken
    · rename_i here
      obtain rfl := Option.some.inj taken
      exact (delivered_kept kept sent here).imp_right fun same e => by simpa [State.seededBy] using same e
    · cases taken

omit [DecidableEq ι] in
theorem start_kept : Kept name delayUs (start name own : State ι vec3 Carried Own) :=
  ⟨State.start_sound name own,fun e => vacant_safe (start_vacant e)⟩

theorem kept_of_punctual
    (reached : (System.stepping (start name own) (State.act motion delayUs)).ReachableWhile (Punctual delayUs) s) :
    Kept name delayUs s :=
  System.stepping_invariant _ start_kept (fun _ _ _ kept allowed taken => (step_kept kept allowed taken).1) reached

/-- A step that seeds anything finds nothing anywhere. -/
theorem seeds_tokens {event : Event ι Outside} {next : State ι vec3 Carried Own} (kept : Kept name delayUs s)
    (allowed : Punctual delayUs s event) (taken : State.act motion delayUs event s = some next) (seeding : Seeds s event)
    (e : AtlasEntityID) : (next.custody e).tokens = if e ∈ seeds 0 then 1 else 0 := by
  have counted := (step_kept kept allowed taken).2 e
  cases event with
  | deliver => cases seeding
  | tick i around =>
    have empty := allowed.1 seeding.1 seeding.2
    rw [counted,Custody.tokens_vacant (State.vacant_of_empty kept.sound empty e),Nat.zero_add,State.seededBy,
      seeded_of_empty empty seeding]

/-- Before the entities are seeded there are none anywhere. -/
theorem unseeded_places (reached : (System.stepping (start name own) (State.act motion delayUs)).ReachableWhile
      (fun s event => Punctual delayUs s event ∧ ¬ Seeds s event) s) (e : AtlasEntityID) : s.places e = 0 := by
  have invariant : Kept name delayUs s ∧ (s.custody e).tokens = 0 := by
    refine System.stepping_invariant (fun s => Kept name delayUs s ∧ (s.custody e).tokens = 0) ?_ ?_ reached
    · exact ⟨start_kept,Custody.tokens_vacant (start_vacant e)⟩
    · intro s event next ⟨kept,nowhere⟩ allowed taken
      obtain ⟨kept,counted⟩ := step_kept kept allowed.1 taken
      refine ⟨kept,?_⟩
      rw [counted e,nowhere,seededBy_eq_nil allowed.2]
      rfl
  rw [places_eq invariant.1.sound]
  exact invariant.2

/-- From when the entities are seeded on, each of them is in exactly one place: with an
authority, awaited by a shard, or on its way to one. -/
theorem never_lost {i : ι} {around : Surroundings Outside} {s' : State ι vec3 Carried Own}
    (reached : (System.stepping (start name own) (State.act motion delayUs)).ReachableWhile (Punctual delayUs) s)
    (allowed : Punctual delayUs s (.tick i around)) (seeding : Seeds s (.tick i around))
    (later : ((System.stepping (start name own) (State.act motion delayUs)).behind
      (s.ticked motion delayUs i around)).ReachableWhile (Punctual delayUs) s') (e : AtlasEntityID) :
    s'.places e = if e ∈ seeds 0 then 1 else 0 := by
  have kept := kept_of_punctual reached
  have invariant : Kept name delayUs s' ∧ (s'.custody e).tokens = if e ∈ seeds 0 then 1 else 0 := by
    refine later.invariant (fun s => Kept name delayUs s ∧ (s.custody e).tokens = if e ∈ seeds 0 then 1 else 0) ?_ ?_
    · rintro _ rfl
      exact ⟨(step_kept kept allowed rfl).1,seeds_tokens kept allowed rfl seeding e⟩
    · intro s event next ⟨kept,exact'⟩ allowed taken
      refine ⟨(step_kept kept allowed taken).1,?_⟩
      by_cases seeding : Seeds s event
      · exact seeds_tokens kept allowed taken seeding e
      · rw [(step_kept kept allowed taken).2 e,seededBy_eq_nil seeding,exact']
        rfl
  rw [places_eq invariant.1.sound]
  exact invariant.2

theorem never_lost_returned : (returned.shards 0).simulates (MakeEntityId 0) = true ∧
    (returned.shards 1).simulates (MakeEntityId 0) = true ∧ returned.places (MakeEntityId 0) = 1 := by
  have empty : (start neighbours fun _ => () : State (Fin 2) Int Unit Unit).Empty := ⟨fun _ => rfl,fun _ => rfl,rfl⟩
  have often : TicksOften 60000 (start neighbours fun _ => () : State (Fin 2) Int Unit Unit) 0 opening.nowUnixTimeUs :=
    ⟨by decide,fun some => absurd rfl some,by decide⟩
  have counted := never_lost System.stepping_start (And.intro (fun _ _ => empty) often) (And.intro rfl rfl) returned_behind
    (MakeEntityId 0)
  have seed : MakeEntityId 0 ∈ seeds 0 := by decide
  rw [if_pos seed] at counted
  exact ⟨returned_simulates 0,returned_simulates 1,counted⟩

/-- One shard keeps an entity until its clock shows a time that the clock of another one shows already. -/
def State.Outlives (s : State ι vec3 Carried Own) (e : AtlasEntityID) (j i : ι) : Prop :=
  ∃ handoff, (s.shards j).pendingOutgoing e = some handoff ∧ s.clock j < handoff.transferTimeUs ∧
    handoff.transferTimeUs ≤ s.clock i

omit [Fintype ι] [DecidableEq ι] in
theorem outlives_of_custody {e : AtlasEntityID} {i j : ι} (outlives : (s.custody e).Outlives j i) : s.Outlives e j i := by
  obtain ⟨target,time,held,early,past⟩ := outlives
  obtain ⟨handoff,pending,rfl⟩ := pending_of_passing held
  exact ⟨handoff,pending,UInt64.lt_iff_toNat_lt.mpr early,UInt64.le_iff_toNat_le.mpr past⟩

/-- A shard keeps an entity that it hands over until its clock shows the agreed time, and of two
shards that simulate one entity, one does so only from when its own clock shows the time at
which the other one gives it up. -/
theorem agreed_time
    (reached : (System.stepping (start name own) (State.act motion delayUs)).ReachableWhile (Punctual delayUs) s) :
    (∀ m ∈ s.inFlight, ∃ i, (name i == m.packet.sender) = true ∧
      ((s.shards i).simulates m.packet.entity.Entity_ID = true ∨ m.packet.transferTick ≤ s.clock i)) ∧
    (∀ j e handoff, (s.shards j).pendingIncoming e = some handoff → ∃ i, (name i == handoff.sender) = true ∧
      ((s.shards i).simulates e = true ∨ handoff.transferTimeUs ≤ s.clock i)) ∧
    ∀ i j e, i ≠ j → (s.shards i).simulates e = true → (s.shards j).simulates e = true →
      s.Outlives e j i ∨ (s.shards i).authoritative e = false ∧ s.Outlives e i j := by
  have kept := kept_of_punctual reached
  have backed : ∀ e t, Backed name (s.custody e) t → ∃ i, (name i == t.sender) = true ∧
      ((s.shards i).simulates e = true ∨ t.time ≤ (s.clock i).toNat) := by
    rintro e t ⟨i,mine,⟨target,passing⟩ | past⟩
    · refine ⟨i,mine,.inl ((simulates_iff (kept.sound.sound i)).mpr ?_)⟩
      intro absent
      cases absent.symm.trans passing
    · exact ⟨i,mine,.inr past⟩
  refine ⟨?_,?_,?_⟩
  · intro m inside
    have flying : State.transit m ∈ (s.custody m.packet.entity.Entity_ID).flying :=
      List.mem_map_of_mem (List.mem_filter.mpr ⟨inside,decide_eq_true rfl⟩)
    obtain ⟨i,mine,held⟩ := backed _ _ ((kept.safe _).ordered.flying _ flying).2.1
    exact ⟨i,mine,held.imp_right UInt64.le_iff_toNat_le.mpr⟩
  · intro j e handoff looked
    have arriving : (s.custody e).incoming j = some ⟨handoff.sender,handoff.transferTimeUs.toNat⟩ := by
      simp [State.custody,looked]
    obtain ⟨i,mine,held⟩ := backed _ _ ((kept.safe e).ordered.incoming j _ arriving).2.1
    exact ⟨i,mine,held.imp_right UInt64.le_iff_toNat_le.mpr⟩
  · intro i j e apart first second
    have here := (simulates_iff (kept.sound.sound i)).mp first
    have there := (simulates_iff (kept.sound.sound j)).mp second
    rcases (kept.safe e).outlives apart here there with earlier | ⟨unowned,earlier⟩
    · exact .inl (outlives_of_custody earlier)
    · refine .inr ⟨?_,outlives_of_custody earlier⟩
      exact Bool.eq_false_iff.mpr (mt (authoritative_iff (kept.sound.sound i) e).mp unowned)

theorem agreed_time_returned : returned.Outlives (MakeEntityId 0) 0 1 := by
  obtain ⟨_,_,both⟩ := agreed_time returned_reached
  have early : returned.clock 0 < returned.clock 1 := by decide +kernel
  rcases both 1 0 (MakeEntityId 0) (by decide) (returned_simulates 1) (returned_simulates 0) with first | ⟨_,handoff,_,later,past⟩
  · exact first
  · exact absurd (UInt64.lt_of_lt_of_le later past) (UInt64.lt_asymm early)

end Runs

end AtlasNet.ServerHandoff
