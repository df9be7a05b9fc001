import AtlasNet.HealthManifest
import AtlasNet.Foundation.System

/-! Updates of any servers among the single database steps of the health-check loop. -/
namespace AtlasNet.HealthRuns
open Foundation Foundation.Program Foundation.Redis RedisConnection WatchDog HealthManifest

/-- Where the loop of `ScheduleHealthChecks` stands. -/
inductive Phase
  | sleeping
  | timed (now : Nat)
  | handling (expired_pings : List Bytes)
  | removing (expired_key : Bytes) (expired_pings : List Bytes)
  | ended

def Phase.awaiting : Phase → List Bytes
  | handling expired_pings => expired_pings
  | removing expired_key expired_pings => expired_key::expired_pings
  | _ => []

/-- What was stored for a server when the handler acted on it. -/
structure Taken where
  key : Bytes
  expiry : Option Nat
  time : Nat

def Taken.Expired (t : Taken) : Prop := ∃ score, t.expiry = some score ∧ score ≤ t.time

/-- The store, the clock of its server, the loop, the time that each server's last update
asked for, and what the handler has done. -/
structure State where
  db : Database
  time : Nat
  phase : Phase := .sleeping
  updated : Bytes → Option Nat := fun _ => none
  requeued : List Taken := []
  removed : List Taken := []

def State.taken (s : State) (key : Bytes) : Taken := {key,expiry := expiry s.db key,time := s.time}

def note (really : Bool) (t : Taken) (done : List Taken) : List Taken := if really then done ++ [t] else done

inductive Event
  | wait (d : Nat)
  | HealthUpdate (identifier : NetworkIdentity) (asked : Nat) (failed : Bool)
  | readTime (failed : Bool)
  | readPings
  | requeue
  | removePing
  | sleep

inductive Step : State → Event → State → Prop
  | wait (s) (d : Nat) : Step s (.wait d) {s with time := s.time+d}
  -- the time was asked for when the update began, the write is this step
  | HealthUpdate (s) (identifier : NetworkIdentity) (asked : Nat) (failed : Bool) (past : asked ≤ s.time) :
    Step s (.HealthUpdate identifier asked failed) {s with
      db := (exec (HealthUpdate identifier (TIME asked failed)) s.db).2
      updated := Function.update s.updated identifier.key (some asked)}
  | readTime (s) (failed : Bool) (turn : s.phase = .sleeping) :
    Step s (.readTime failed) {s with phase := .timed (GetTimeNowSeconds (TIME s.time failed))}
  | readPings (s) (now : Nat) (pings iteration : Pings) (turn : s.phase = .timed now)
      (ran : (exec GetAllPings s.db).1 = .ok pings) (order : iteration.Perm pings) :
    Step s .readPings {s with phase := .handling (expired now iteration)}
  | readPingsThrows (s) (now : Nat) (fault : Fault) (turn : s.phase = .timed now)
      (ran : (exec GetAllPings s.db).1 = .error fault) : Step s .readPings {s with phase := .ended}
  | requeue (s) (key : Bytes) (keys : List Bytes) (requeued : Bool) (turn : s.phase = .handling (key::keys))
      (ran : (exec (requeueFailed key) s.db).1 = .ok requeued) :
    Step s .requeue {s with
      db := (exec (requeueFailed key) s.db).2
      phase := .removing key keys
      requeued := note requeued (s.taken key) s.requeued}
  | requeueThrows (s) (key : Bytes) (keys : List Bytes) (fault : Fault) (turn : s.phase = .handling (key::keys))
      (ran : (exec (requeueFailed key) s.db).1 = .error fault) :
    Step s .requeue {s with db := (exec (requeueFailed key) s.db).2,phase := .ended}
  | removePing (s) (key : Bytes) (keys : List Bytes) (turn : s.phase = .removing key keys) :
    Step s .removePing {s with
      db := (exec (RemovePing key) s.db).2
      phase := .handling keys
      removed := note ((s.db.hash HealthPingTable).get key).isSome (s.taken key) s.removed}
  | sleep (s) (turn : s.phase = .handling []) : Step s .sleep {s with phase := .sleeping}

/-- Runs from a store without pings. -/
def health : System State Event where
  Initial s := ∃ (db : Database) (time : Nat), db.hash HealthPingTable = [] ∧ s = {db,time}
  Step := Step

section Steps
variable {s after : State} {event : Event}

theorem requeueFailed_pings (key : Bytes) (db : Database) :
    (exec (requeueFailed key) db).2.hash HealthPingTable = db.hash HealthPingTable := by
  rw [requeueFailed,exec_bind,exec_within]
  cases (exec NetworkIdentity.Deserialize {p := key}).1 with
  | error fault => rfl
  | ok id => exact requeue_pings id.ToString

theorem expiry_congr {db next : Database} (same : next.hash HealthPingTable = db.hash HealthPingTable) (key : Bytes) :
    expiry next key = expiry db key := by
  rw [expiry,expiry,same]

theorem kept_congr {db next : Database} (same : next.hash HealthPingTable = db.hash HealthPingTable) (kept : Kept db) :
    Kept next :=
  ⟨same ▸ kept.distinct,same ▸ kept.keyed,same ▸ kept.printed⟩

theorem kept_step (kept : Kept s.db) (taken : Step s event after) : Kept after.db := by
  cases taken with
  | HealthUpdate identifier asked failed past => exact kept_HealthUpdate identifier _ kept
  | removePing key keys turn => exact kept_RemovePing key kept
  | requeue key keys requeued turn ran => exact kept_congr (requeueFailed_pings key s.db) kept
  | requeueThrows key keys fault turn ran => exact kept_congr (requeueFailed_pings key s.db) kept
  | wait | readTime | readPings | readPingsThrows | sleep => exact kept

theorem kept_initial (start : health.Initial s) : Kept s.db := by
  obtain ⟨db,time,none,rfl⟩ := start
  constructor <;> simp [none]

/-- Only an update of the server and the removal of its ping change what is stored for it. -/
theorem expiry_step (key : Bytes) (taken : Step s event after) :
    (expiry after.db key = expiry s.db key ∧ after.updated key = s.updated key) ∨
      (event = .removePing ∧ expiry after.db key = none ∧ after.updated key = s.updated key) ∨
        ∃ identifier asked failed, event = .HealthUpdate identifier asked failed ∧ key = identifier.key ∧
          expiry after.db key = some (TTL (TIME asked failed)) ∧ after.updated key = some asked := by
  cases taken with
  | HealthUpdate identifier asked failed past =>
    by_cases own : key = identifier.key
    · subst own
      exact .inr (.inr ⟨identifier,asked,failed,rfl,rfl,expiry_HealthUpdate_self identifier _,Function.update_self ..⟩)
    · exact .inl ⟨expiry_HealthUpdate_other identifier _ own,Function.update_of_ne own ..⟩
  | removePing removed keys turn =>
    by_cases own : key = removed
    · subst own
      exact .inr (.inl ⟨rfl,expiry_RemovePing_self key,rfl⟩)
    · exact .inl ⟨expiry_RemovePing_other removed own,rfl⟩
  | requeue taken keys requeued turn ran => exact .inl ⟨expiry_congr (requeueFailed_pings taken s.db) key,rfl⟩
  | requeueThrows taken keys fault turn ran => exact .inl ⟨expiry_congr (requeueFailed_pings taken s.db) key,rfl⟩
  | wait | readTime | readPings | readPingsThrows | sleep => exact .inl ⟨rfl,rfl⟩

end Steps

section Updates
variable {s after : State} {event : Event} {ID : NetworkIdentity}

def lifetime : Nat := HEALTH_PING_TIMESTAMP_LIFE_MS*1000

theorem TTL_now (asked : Nat) : TTL (TIME asked false) = asked+lifetime := by
  unfold TTL lifetime
  rw [GetTimeNowSeconds_now]

theorem TTL_failed (asked : Nat) : TTL (TIME asked true) = lifetime := by
  unfold TTL lifetime
  rw [GetTimeNowSeconds_failed,Nat.zero_add]

/-- The server itself is told the time at each of its updates. -/
def Timed (ID : NetworkIdentity) (_ : State) : Event → Prop
  | .HealthUpdate identifier _ failed => identifier = ID → failed = false
  | _ => True

/-- What is stored for the server, if anything, is its last update plus the lifetime. -/
structure Alive (ID : NetworkIdentity) (s : State) : Prop where
  kept : Kept s.db
  stored : ∀ score, expiry s.db ID.key = some score → ∃ asked, s.updated ID.key = some asked ∧ score = asked+lifetime

theorem alive_step (alive : Alive ID s) (timed : Timed ID s event) (taken : Step s event after) : Alive ID after := by
  refine ⟨kept_step alive.kept taken,fun score found => ?_⟩
  rcases expiry_step ID.key taken with ⟨same,last⟩ | ⟨_,gone,_⟩ | ⟨identifier,asked,failed,rfl,own,wrote,last⟩
  · rw [last]
    exact alive.stored score (same ▸ found)
  · rw [gone] at found
    cases found
  · obtain rfl : failed = false := timed (NetworkIdentity.key_injective own).symm
    rw [wrote,TTL_now] at found
    exact ⟨asked,last,(Option.some.inj found).symm⟩

theorem reachable_alive (reached : health.ReachableWhile (Timed ID) s) : Alive ID s := by
  apply reached.invariant (Alive ID)
  · rintro s start
    refine ⟨kept_initial start,fun score found => ?_⟩
    obtain ⟨db,time,none,rfl⟩ := start
    simp [expiry,none,Entries.get] at found
  · exact fun _ _ _ alive timed taken => alive_step alive timed taken

def Event.queryFailed : Event → Prop
  | .HealthUpdate _ _ failed => failed = true
  | .readTime failed => failed = true
  | _ => False

/-- Before the server's last update plus the lifetime its key is not among the expired ones. -/
def Live (ID : NetworkIdentity) (s : State) : Prop :=
  ∀ (reply : Option RedisTime) (iteration : Pings → Pings), (∀ pings, (iteration pings).Perm pings) →
    (∀ asked, s.updated ID.key = some asked → GetTimeNowSeconds reply < asked+lifetime) →
    ∃ out_expired, exec (GetExpiredPings reply iteration) s.db = (.ok out_expired,s.db) ∧ ID.key ∉ out_expired

def NotLowered (ID : NetworkIdentity) (s after : State) : Prop :=
  ∀ score, expiry s.db ID.key = some score → ∃ later, expiry after.db ID.key = some later ∧ score ≤ later

theorem live_of_alive (alive : Alive ID s) : Live ID s := by
  intro reply iteration order early
  obtain ⟨out_expired,ran,members⟩ := getExpiredPings_spec alive.kept reply iteration order
  refine ⟨out_expired,ran,fun member => ?_⟩
  obtain ⟨score,found,late⟩ := (members ID.key).mp member
  obtain ⟨asked,last,rfl⟩ := alive.stored score found
  exact absurd (early asked last) (Nat.not_lt.mpr late)

theorem not_lowered (timed : Timed ID s event) (taken : Step s event after) (failed : event.queryFailed) :
    NotLowered ID s after := by
  intro score found
  rcases expiry_step ID.key taken with ⟨same,_⟩ | ⟨rfl,_⟩ | ⟨identifier,asked,_,rfl,own,_,_⟩
  · exact ⟨score,same.trans found,le_rfl⟩
  · exact failed.elim
  · have told : _ = false := timed (NetworkIdentity.key_injective own).symm
    rw [told] at failed
    cases failed

/-- A server that is told the time at each of its updates is not taken for dead while it
keeps pinging. -/
theorem pinging_stays_alive (ID : NetworkIdentity) {s : State} (reached : health.ReachableWhile (Timed ID) s) :
    Live ID s ∧ ∀ event after, Timed ID s event → health.Step s event after → event.queryFailed → NotLowered ID s after :=
  ⟨live_of_alive (reachable_alive reached),fun _ _ timed taken failed => not_lowered timed taken failed⟩

def present : Nat := 1700000000000000

def fresh : State := {db := .empty,time := present}

def pinged : State := {fresh with
  db := (exec (HealthUpdate .MakeIDWatchDog (TIME present false)) .empty).2
  updated := Function.update (fun _ => none) NetworkIdentity.MakeIDWatchDog.key (some present)}

theorem reachable_pinged {allowed : State → Event → Prop} (meets : allowed fresh (.HealthUpdate .MakeIDWatchDog present false)) :
    health.ReachableWhile allowed pinged :=
  .step _ (Event.HealthUpdate .MakeIDWatchDog present false) _ (.initial fresh ⟨.empty,present,rfl,rfl⟩) meets
    (Step.HealthUpdate fresh .MakeIDWatchDog present false le_rfl)

theorem reachable_timed_pinged : health.ReachableWhile (Timed .MakeIDWatchDog) pinged :=
  reachable_pinged (fun _ => rfl)

theorem expiry_pinged : expiry pinged.db NetworkIdentity.MakeIDWatchDog.key = some (present+lifetime) := by
  rw [← TTL_now]
  exact expiry_HealthUpdate_self ..

theorem pinging_stays_alive_watchdog : Live .MakeIDWatchDog pinged :=
  (pinging_stays_alive .MakeIDWatchDog reachable_timed_pinged).1

/-- An update whose query of the time fails stores an expiry right behind the epoch. -/
theorem failed_query_expires : ∃ after, health.Reachable pinged ∧
    health.Step pinged (.HealthUpdate .MakeIDWatchDog present true) after ∧
    ¬ NotLowered .MakeIDWatchDog pinged after ∧ ¬ Live .MakeIDWatchDog after := by
  have taken := Step.HealthUpdate pinged .MakeIDWatchDog present true le_rfl
  have lowered : expiry (exec (HealthUpdate .MakeIDWatchDog (TIME present true)) pinged.db).2
      NetworkIdentity.MakeIDWatchDog.key = some lifetime := by
    rw [expiry_HealthUpdate_self,TTL_failed]
  have last : Function.update pinged.updated NetworkIdentity.MakeIDWatchDog.key (some present)
      NetworkIdentity.MakeIDWatchDog.key = some present := Function.update_self ..
  refine ⟨_,reachable_timed_pinged.reachable,taken,fun kept => ?_,fun live => ?_⟩
  · obtain ⟨later,found,order⟩ := kept _ expiry_pinged
    obtain rfl := Option.some.inj (found.symm.trans lowered)
    have earlier : lifetime < present+lifetime := Nat.lt_add_of_pos_left (by decide)
    exact absurd order (Nat.not_le.mpr earlier)
  · obtain ⟨out_expired,ran,absent⟩ := live (TIME present false) id (fun _ => List.Perm.refl _) (by
      intro asked asking
      obtain rfl := Option.some.inj (last.symm.trans asking)
      rw [GetTimeNowSeconds_now]
      exact Nat.lt_add_of_pos_right (by decide))
    obtain ⟨found,read,members⟩ := getExpiredPings_spec (kept_step (reachable_alive reachable_timed_pinged).kept taken)
      (TIME present false) id (fun _ => List.Perm.refl _)
    obtain rfl := Except.ok.inj (Prod.mk.inj (read.symm.trans ran)).1
    refine absent ((members _).mpr ⟨_,lowered,?_⟩)
    rw [GetTimeNowSeconds_now]
    decide

end Updates

section Removals
variable {s after : State} {event : Event}

/-- No update writes an expiry still ahead for a server of the snapshot that is not removed yet. -/
def Undisturbed (s : State) : Event → Prop
  | .HealthUpdate identifier asked failed => identifier.key ∈ s.phase.awaiting → TTL (TIME asked failed) ≤ s.time
  | _ => True

/-- The servers that the loop still has to handle are expired, and so were those it handled. -/
structure Orderly (s : State) : Prop where
  kept : Kept s.db
  clock : ∀ now, s.phase = .timed now → now ≤ s.time
  distinct : s.phase.awaiting.Nodup
  dead : ∀ key ∈ s.phase.awaiting, (s.taken key).Expired
  requeued : ∀ t ∈ s.requeued, t.Expired
  removed : ∀ t ∈ s.removed, t.Expired

theorem expired_mono {t : Taken} {later : Nat} (expired : t.Expired) (order : t.time ≤ later) :
    ({t with time := later} : Taken).Expired := by
  obtain ⟨score,found,late⟩ := expired
  exact ⟨score,found,late.trans order⟩

theorem expired_note {done : List Taken} {t : Taken} (really : Bool) (before : ∀ t ∈ done, t.Expired) (last : t.Expired) :
    ∀ other ∈ note really t done, other.Expired := by
  cases really with
  | false => exact before
  | true =>
    intro other member
    rcases List.mem_append.mp member with old | new
    · exact before other old
    · obtain rfl := List.mem_singleton.mp new
      exact last

theorem dead_of_snapshot (orderly : Orderly s) {now : Nat} {pings iteration : Pings} (turn : s.phase = .timed now)
    (ran : (exec GetAllPings s.db).1 = .ok pings) (order : iteration.Perm pings) :
    (expired now iteration).Nodup ∧ ∀ key ∈ expired now iteration, (s.taken key).Expired := by
  obtain ⟨found,read,keys,scores⟩ := getAllPings_spec orderly.kept
  rw [read] at ran
  obtain rfl := Except.ok.inj ran
  have distinct : (iteration.map (·.1)).Nodup := (order.map _).nodup_iff.mpr (keys ▸ orderly.kept.distinct)
  refine ⟨expired_nodup distinct,fun key member => ?_⟩
  obtain ⟨score,inside,late⟩ := mem_expired.mp member
  exact ⟨score,scores (key,score) (order.mem_iff.mp inside),late.trans (orderly.clock now turn)⟩

theorem orderly_step (orderly : Orderly s) (undisturbed : Undisturbed s event) (taken : Step s event after) :
    Orderly after := by
  have kept := kept_step orderly.kept taken
  cases taken with
  | wait d =>
    have later : s.time ≤ s.time+d := Nat.le_add_right ..
    exact {orderly with
      clock := fun now turn => (orderly.clock now turn).trans later
      dead := fun key member => expired_mono (orderly.dead key member) later}
  | HealthUpdate identifier asked failed past =>
    refine {orderly with kept,dead := fun key member => ?_}
    by_cases own : key = identifier.key
    · subst own
      exact ⟨_,expiry_HealthUpdate_self identifier _,undisturbed member⟩
    · obtain ⟨score,found,late⟩ := orderly.dead key member
      exact ⟨score,(expiry_HealthUpdate_other identifier _ own).trans found,late⟩
  | readTime failed turn =>
    refine {orderly with clock := fun now same => ?_,distinct := List.nodup_nil,dead := nofun}
    obtain rfl := Phase.timed.inj same
    exact GetTimeNowSeconds_le s.time failed
  | readPings now pings iteration turn ran order =>
    obtain ⟨distinct,dead⟩ := dead_of_snapshot orderly turn ran order
    exact {orderly with clock := nofun,distinct,dead}
  | readPingsThrows now fault turn ran => exact {orderly with clock := nofun,distinct := List.nodup_nil,dead := nofun}
  | requeue key keys requeued turn ran =>
    have awaiting : s.phase.awaiting = key::keys := congrArg Phase.awaiting turn
    have distinct := orderly.distinct
    have dead := orderly.dead
    rw [awaiting] at distinct dead
    refine {orderly with kept,clock := nofun,distinct,dead := fun other member => ?_,requeued := ?_}
    · obtain ⟨score,found,late⟩ := dead other member
      exact ⟨score,(expiry_congr (requeueFailed_pings key s.db) other).trans found,late⟩
    · exact expired_note _ orderly.requeued (dead key List.mem_cons_self)
  | requeueThrows key keys fault turn ran =>
    exact {orderly with kept,clock := nofun,distinct := List.nodup_nil,dead := nofun}
  | removePing key keys turn =>
    have awaiting : s.phase.awaiting = key::keys := congrArg Phase.awaiting turn
    have distinct := orderly.distinct
    have dead := orderly.dead
    rw [awaiting] at distinct dead
    obtain ⟨absent,apart⟩ := List.nodup_cons.mp distinct
    refine {orderly with kept,clock := nofun,distinct := apart,dead := fun other member => ?_,removed := ?_}
    · obtain ⟨score,found,late⟩ := dead other (List.mem_cons_of_mem _ member)
      have different : other ≠ key := fun same => absent (same ▸ member)
      exact ⟨score,(expiry_RemovePing_other key different).trans found,late⟩
    · exact expired_note _ orderly.removed (dead key List.mem_cons_self)
  | sleep turn => exact {orderly with clock := nofun,distinct := List.nodup_nil,dead := nofun}

theorem reachable_orderly (reached : health.ReachableWhile Undisturbed s) : Orderly s := by
  apply reached.invariant Orderly
  · rintro s start
    have kept := kept_initial start
    obtain ⟨db,time,none,rfl⟩ := start
    exact ⟨kept,nofun,List.nodup_nil,nofun,nofun,nofun⟩
  · exact fun _ _ _ orderly undisturbed taken => orderly_step orderly undisturbed taken

/-- Where no server of the snapshot is refreshed before its turn, the handler only acts on
servers whose stored ping is expired. -/
theorem removes_expired {s : State} (reached : health.ReachableWhile Undisturbed s) :
    (∀ t ∈ s.removed, t.Expired) ∧ ∀ t ∈ s.requeued, t.Expired :=
  ⟨(reachable_orderly reached).removed,(reachable_orderly reached).requeued⟩

def later : Nat := present+4000000

def snapshot : State := {pinged with time := later,phase := .handling [NetworkIdentity.MakeIDWatchDog.key]}

theorem reachable_snapshot : health.ReachableWhile Undisturbed snapshot := by
  have reached : health.ReachableWhile Undisturbed pinged := reachable_pinged (fun member => absurd member List.not_mem_nil)
  have waited : health.ReachableWhile Undisturbed {pinged with time := later} :=
    .step _ (Event.wait 4000000) _ reached trivial (Step.wait pinged 4000000)
  have told : health.ReachableWhile Undisturbed {pinged with time := later,phase := .timed later} := by
    have taken := Step.readTime {pinged with time := later} false rfl
    rw [GetTimeNowSeconds_now] at taken
    exact .step _ (Event.readTime false) _ waited trivial taken
  obtain ⟨pings,ran,keys,scores⟩ := getAllPings_spec (reachable_orderly reached).kept
  have one : pings = [(NetworkIdentity.MakeIDWatchDog.key,present+lifetime)] := by
    obtain ⟨ping,rfl,key⟩ := List.map_eq_singleton_iff.mp keys
    change ping.1 = NetworkIdentity.MakeIDWatchDog.key at key
    have score := scores ping List.mem_cons_self
    rw [key] at score
    have same := Option.some.inj (score.symm.trans expiry_pinged)
    rw [← key,← same]
  have taken := Step.readPings {pinged with time := later,phase := .timed later} later pings pings rfl
    (congrArg Prod.fst ran) (List.Perm.refl _)
  have late : expired later pings = [NetworkIdentity.MakeIDWatchDog.key] := by
    have order : present+lifetime ≤ later := by decide
    rw [one,expired,List.filter_cons,if_pos (decide_eq_true order),List.filter_nil,List.map_singleton]
  rw [late] at taken
  exact .step _ Event.readPings _ told trivial taken

/-- The handler removes the next server of the snapshot, whatever is stored for it now. -/
theorem reachable_removed {allowed : State → Event → Prop} (meets : ∀ s, allowed s .requeue ∧ allowed s .removePing)
    (reached : health.ReachableWhile allowed s) {ID : NetworkIdentity} {keys : List Bytes}
    (turn : s.phase = .handling (ID.key::keys)) (stored : ((s.db.hash HealthPingTable).get ID.key).isSome)
    (unclaimed : s.db.hash HeuristicManifest.ClaimedHashTableNID2BoundData = []) :
    ∃ after, health.ReachableWhile allowed after ∧ after.removed = s.removed ++ [s.taken ID.key] := by
  have identity : exec (within NetworkIdentity.Deserialize {p := ID.key} : Command NetworkIdentity) s.db = (.ok ID,s.db) := by
    rw [exec_within,ID.Deserialize_key]
  have ran : exec (requeueFailed ID.key) s.db = (.ok false,s.db) :=
    (exec_bind_ok _ _ _ _ _ identity).trans (HeuristicManifest.requeue_spec _ unclaimed)
  have first := Step.requeue s ID.key keys false turn (congrArg Prod.fst ran)
  have second := Step.removePing {s with db := (exec (requeueFailed ID.key) s.db).2,phase := .removing ID.key keys} ID.key keys rfl
  refine ⟨_,.step _ Event.removePing _ (.step _ Event.requeue _ reached (meets s).1 first) (meets _).2 second,?_⟩
  simp [note,ran,stored,State.taken]

/-- The loop removes the watchdog, which has not pinged again. -/
theorem removes_expired_watchdog : ∃ s : State, s.removed = [snapshot.taken NetworkIdentity.MakeIDWatchDog.key] ∧
    ∀ t ∈ s.removed, t.Expired := by
  have stored : ((snapshot.db.hash HealthPingTable).get NetworkIdentity.MakeIDWatchDog.key).isSome := rfl
  obtain ⟨after,reached,removed⟩ := reachable_removed (fun _ => ⟨trivial,trivial⟩) reachable_snapshot rfl stored rfl
  exact ⟨after,removed,(removes_expired reached).1⟩

/-- A server that pings between the snapshot and its turn is removed. -/
theorem refreshed_removed : ∃ s, health.Reachable s ∧ ∃ t ∈ s.removed, ¬ t.Expired := by
  have refreshed := Step.HealthUpdate snapshot .MakeIDWatchDog later false le_rfl
  have reached := System.ReachableWhile.step _ (Event.HealthUpdate .MakeIDWatchDog later false) _
    reachable_snapshot.reachable trivial refreshed
  have stored : (((exec (HealthUpdate .MakeIDWatchDog (TIME later false)) snapshot.db).2.hash HealthPingTable).get
      NetworkIdentity.MakeIDWatchDog.key).isSome := rfl
  obtain ⟨after,removed,done⟩ := reachable_removed (fun _ => ⟨trivial,trivial⟩) reached rfl stored rfl
  refine ⟨after,removed,_,done ▸ List.mem_append_right _ List.mem_cons_self,fun ⟨score,found,late⟩ => ?_⟩
  rw [State.taken,expiry_HealthUpdate_self,TTL_now] at found
  obtain rfl := Option.some.inj found
  exact absurd late (by decide)

end Removals

end AtlasNet.HealthRuns
