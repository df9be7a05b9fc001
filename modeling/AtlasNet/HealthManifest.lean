import AtlasNet.WatchDog
import AtlasNet.Foundation.Streams

/-! The pings that the servers keep writing, and the ones that have expired. A time is a
number of microseconds, the unit in which Redis tells it and in which it is printed. -/
namespace AtlasNet
open Foundation Foundation.Program Foundation.Redis Foundation.Streams

/-- The reply to `TIME`, with the values it has when the query fails. -/
structure RedisTime where
  seconds : Nat := 0
  microseconds : Nat := 0

namespace RedisConnection

def TIME (now : Nat) (failed : Bool) : Option RedisTime :=
  if failed then none else some {seconds := now / 10^6,microseconds := now % 10^6}

def GetTimeNow (reply : Option RedisTime) : RedisTime := reply.getD {}

def GetTimeNowSeconds (reply : Option RedisTime) : Nat :=
  (GetTimeNow reply).seconds*10^6+(GetTimeNow reply).microseconds

theorem GetTimeNowSeconds_now (now : Nat) : GetTimeNowSeconds (TIME now false) = now := by
  simp only [GetTimeNowSeconds,GetTimeNow,TIME,Bool.false_eq_true,if_false,Option.getD_some]
  exact Nat.div_add_mod' now _

theorem GetTimeNowSeconds_failed (now : Nat) : GetTimeNowSeconds (TIME now true) = 0 := by
  simp [GetTimeNowSeconds,GetTimeNow,TIME]

theorem GetTimeNowSeconds_le (now : Nat) (failed : Bool) : GetTimeNowSeconds (TIME now failed) ≤ now := by
  cases failed with
  | false => rw [GetTimeNowSeconds_now]
  | true =>
    rw [GetTimeNowSeconds_failed]
    exact Nat.zero_le now

end RedisConnection

/-- The field of a server in the table of pings. -/
def NetworkIdentity.key (ID : NetworkIdentity) : Bytes := (ID.Serialize {}).buf

theorem NetworkIdentity.Deserialize_key (ID : NetworkIdentity) :
    (exec Deserialize {p := ID.key}).1 = .ok ID := by
  have read := ID.Deserialize_written [] (by decide)
  rw [List.append_nil] at read
  exact read

theorem NetworkIdentity.key_injective : Function.Injective NetworkIdentity.key := by
  intro a b same
  have first := a.Deserialize_key
  rw [same,b.Deserialize_key] at first
  exact (Except.ok.inj first).symm

namespace HealthManifest
open RedisConnection WatchDog HeuristicManifest

def HEALTH_PING_TIMESTAMP_LIFE_MS : Nat := 3000

abbrev Pings := List (Bytes × Nat)

def TTL (reply : Option RedisTime) : Nat := GetTimeNowSeconds reply+HEALTH_PING_TIMESTAMP_LIFE_MS*1000

def HealthUpdate (identifier : NetworkIdentity) (reply : Option RedisTime) : Command Unit :=
  hset HealthPingTable identifier.key (ascii (seconds (TTL reply)))

def RemovePing (key : Bytes) : Command Unit := hdel HealthPingTable key

/-- The loop over the fields; `stod` throws where it finds no number. -/
def readPings : Hash → Option Pings
  | [] => some []
  | (member,text)::rest => do
    let score ← stod text
    return (member,score)::(← readPings rest)

def GetAllPings : Command Pings := do
  let All_Pings ← hgetall HealthPingTable
  match readPings All_Pings with
  | some pings => pure pings
  | none => throw (.runtimeError "stod")

def expired (now : Nat) (all_pings : Pings) : List Bytes := (all_pings.filter (fun ping => ping.2 ≤ now)).map (·.1)

/-- The map of the pings is iterated in an order of its own. -/
def GetExpiredPings (reply : Option RedisTime) (iteration : Pings → Pings) : Command (List Bytes) := do
  let now := GetTimeNowSeconds reply
  let all_pings ← GetAllPings
  pure (expired now (iteration all_pings))

/-- The condition under which a ping is passed over is that of the expired ones. -/
def GetLivePings (reply : Option RedisTime) (iteration : Pings → Pings) : Command (List Bytes) := do
  let now := GetTimeNowSeconds reply
  let all_pings ← GetAllPings
  pure (((iteration all_pings).filter (fun ping => ¬ ping.2 > now)).map (·.1))

/-- The first half of the handler, with the identity that the loop reads from the key. -/
def requeueFailed (key : Bytes) : Command Bool := do
  let id ← within NetworkIdentity.Deserialize {p := key}
  RequeueClaimedBound id.ToString

/-- The two steps of a failed server are the handler of the watchdog. -/
theorem requeue_remove (ID : NetworkIdentity) (db : Database) :
    exec (onHealthCheckFail ID ID.key) db =
      exec (do
        let requeued ← requeueFailed ID.key
        RemovePing ID.key
        pure requeued) db := by
  have identity : exec (within NetworkIdentity.Deserialize {p := ID.key} : Command NetworkIdentity) db = (.ok ID,db) := by
    rw [exec_within,ID.Deserialize_key]
  have first : exec (requeueFailed ID.key) db = exec (RequeueClaimedBound ID.ToString) db :=
    exec_bind_ok _ _ _ _ _ identity
  rw [onHealthCheckFail,exec_bind,exec_bind,first]
  rfl

def expiry (db : Database) (key : Bytes) : Option Nat := ((db.hash HealthPingTable).get key).bind stod

/-- Every field is the key of a server, once, with a printed time. -/
structure Kept (db : Database) : Prop where
  distinct : ((db.hash HealthPingTable).map (·.1)).Nodup
  keyed : ∀ entry ∈ db.hash HealthPingTable, ∃ ID : NetworkIdentity, entry.1 = ID.key
  printed : ∀ entry ∈ db.hash HealthPingTable, ∃ us, entry.2 = ascii (seconds us)

section Commands
variable {db : Database}

theorem readPings_printed (hash : Hash) (printed : ∀ entry ∈ hash, ∃ us, entry.2 = ascii (seconds us)) :
    ∃ pings, readPings hash = some pings ∧ pings.map (·.1) = hash.map (·.1) ∧
      ∀ ping ∈ pings, ∃ text, (ping.1,text) ∈ hash ∧ stod text = some ping.2 := by
  induction hash with
  | nil => exact ⟨[],rfl,rfl,nofun⟩
  | cons entry rest ih =>
    obtain ⟨us,text⟩ := printed entry List.mem_cons_self
    obtain ⟨pings,read,keys,found⟩ := ih (fun other member => printed other (List.mem_cons_of_mem _ member))
    have score : stod entry.2 = some us := text ▸ stod_seconds us
    refine ⟨(entry.1,us)::pings,?_,congrArg _ keys,fun ping member => ?_⟩
    · simp [readPings,score,read]
    · rcases List.mem_cons.mp member with rfl | later
      · exact ⟨entry.2,List.mem_cons_self,score⟩
      · obtain ⟨text,inside,same⟩ := found ping later
        exact ⟨text,List.mem_cons_of_mem _ inside,same⟩

theorem getAllPings_spec (kept : Kept db) :
    ∃ pings, exec GetAllPings db = (.ok pings,db) ∧ pings.map (·.1) = (db.hash HealthPingTable).map (·.1) ∧
      ∀ ping ∈ pings, expiry db ping.1 = some ping.2 := by
  obtain ⟨pings,read,keys,found⟩ := readPings_printed _ kept.printed
  refine ⟨pings,?_,keys,fun ping member => ?_⟩
  · have all : exec (hgetall HealthPingTable) db = (.ok (db.hash HealthPingTable),db) := rfl
    rw [GetAllPings,exec_bind_ok _ _ _ _ _ all,read]
    rfl
  · obtain ⟨text,inside,score⟩ := found ping member
    rw [expiry,Entries.get_mem kept.distinct inside,Option.bind_some,score]

theorem mem_expired {now : Nat} {pings : Pings} {key : Bytes} :
    key ∈ expired now pings ↔ ∃ score, (key,score) ∈ pings ∧ score ≤ now := by
  simp [expired]

/-- The keys that expire are those whose stored expiry is not ahead of the time that was read. -/
theorem getExpiredPings_spec (kept : Kept db) (reply : Option RedisTime) (iteration : Pings → Pings)
    (order : ∀ pings, (iteration pings).Perm pings) :
    ∃ out_expired, exec (GetExpiredPings reply iteration) db = (.ok out_expired,db) ∧
      ∀ key, key ∈ out_expired ↔ ∃ score, expiry db key = some score ∧ score ≤ GetTimeNowSeconds reply := by
  obtain ⟨pings,ran,keys,scores⟩ := getAllPings_spec kept
  refine ⟨expired (GetTimeNowSeconds reply) (iteration pings),?_,fun key => mem_expired.trans ⟨?_,?_⟩⟩
  · rw [GetExpiredPings,exec_bind_ok _ _ _ _ _ ran]
    rfl
  · intro ⟨score,inside,late⟩
    exact ⟨score,scores (key,score) ((order pings).mem_iff.mp inside),late⟩
  · intro ⟨score,found,late⟩
    have listed : key ∈ pings.map (·.1) := by
      rw [keys]
      by_contra absent
      rw [expiry,Entries.get_none absent] at found
      cases found
    obtain ⟨ping,member,rfl⟩ := List.mem_map.mp listed
    obtain rfl := Option.some.inj (found.symm.trans (scores ping member))
    exact ⟨ping.2,(order pings).mem_iff.mpr member,late⟩

theorem expired_nodup {now : Nat} {pings : Pings} (distinct : (pings.map (·.1)).Nodup) : (expired now pings).Nodup :=
  distinct.sublist (List.filter_sublist.map _)

theorem kept_HealthUpdate (ID : NetworkIdentity) (reply : Option RedisTime) (kept : Kept db) :
    Kept (exec (HealthUpdate ID reply) db).2 := by
  have hash : (exec (HealthUpdate ID reply) db).2.hash HealthPingTable =
      (db.hash HealthPingTable).put ID.key (ascii (seconds (TTL reply))) := withHash_self ..
  refine ⟨?_,?_,?_⟩
  · rw [hash]
    exact Entries.keys_put_nodup _ _ _ kept.distinct
  · rw [hash]
    intro entry member
    rcases Entries.mem_put member with rfl | before
    · exact ⟨ID,rfl⟩
    · exact kept.keyed entry before
  · rw [hash]
    intro entry member
    rcases Entries.mem_put member with rfl | before
    · exact ⟨_,rfl⟩
    · exact kept.printed entry before

theorem expiry_HealthUpdate_self (ID : NetworkIdentity) (reply : Option RedisTime) :
    expiry (exec (HealthUpdate ID reply) db).2 ID.key = some (TTL reply) := by
  have hash : (exec (HealthUpdate ID reply) db).2.hash HealthPingTable =
      (db.hash HealthPingTable).put ID.key (ascii (seconds (TTL reply))) := withHash_self ..
  rw [expiry,hash,Entries.get_put_self,Option.bind_some,stod_seconds]

theorem expiry_HealthUpdate_other (ID : NetworkIdentity) (reply : Option RedisTime) {key : Bytes} (other : key ≠ ID.key) :
    expiry (exec (HealthUpdate ID reply) db).2 key = expiry db key := by
  have hash : (exec (HealthUpdate ID reply) db).2.hash HealthPingTable =
      (db.hash HealthPingTable).put ID.key (ascii (seconds (TTL reply))) := withHash_self ..
  rw [expiry,hash,Entries.get_put_other _ _ _ _ other]
  rfl

theorem kept_RemovePing (key : Bytes) (kept : Kept db) : Kept (exec (RemovePing key) db).2 := by
  have hash : (exec (RemovePing key) db).2.hash HealthPingTable = (db.hash HealthPingTable).drop key := withHash_self ..
  refine ⟨?_,?_,?_⟩
  · rw [hash]
    exact kept.distinct.sublist (List.filter_sublist.map _)
  · rw [hash]
    exact fun entry member => kept.keyed entry (List.mem_filter.mp member).1
  · rw [hash]
    exact fun entry member => kept.printed entry (List.mem_filter.mp member).1

theorem expiry_RemovePing_other (removed : Bytes) {key : Bytes} (other : key ≠ removed) :
    expiry (exec (RemovePing removed) db).2 key = expiry db key := by
  have hash : (exec (RemovePing removed) db).2.hash HealthPingTable = (db.hash HealthPingTable).drop removed :=
    withHash_self ..
  rw [expiry,hash,Entries.get_drop_other _ _ _ other]
  rfl

theorem expiry_RemovePing_self (key : Bytes) : expiry (exec (RemovePing key) db).2 key = none := by
  have hash : (exec (RemovePing key) db).2.hash HealthPingTable = (db.hash HealthPingTable).drop key := withHash_self ..
  rw [expiry,hash,Entries.get_drop_self]
  rfl

theorem requeue_pings (claim_key : String) :
    (exec (RequeueClaimedBound claim_key) db).2.hash HealthPingTable = db.hash HealthPingTable := by
  have pending : HealthPingTable ≠ PendingHashTable := by decide
  have claimed : HealthPingTable ≠ ClaimedHashTableNID2BoundData := by decide
  have read : exec (hget ClaimedHashTableNID2BoundData (keyBytes claim_key)) db =
      (.ok ((db.hash ClaimedHashTableNID2BoundData).get (keyBytes claim_key)),db) := rfl
  rw [RequeueClaimedBound,exec_bind_ok _ _ _ _ _ read]
  cases (db.hash ClaimedHashTableNID2BoundData).get (keyBytes claim_key) with
  | none => rfl
  | some value =>
    by_cases short : value.length < 4
    · simp only [short,if_true,exec_pure]
    · simp only [short,if_false]
      exact (withHash_other _ _ _ _ claimed).trans (withHash_other _ _ _ _ pending)

end Commands

section Halves
variable {db : Database} {reply : Option RedisTime} {live_iteration expired_iteration : Pings → Pings}

/-- Both lists are returned, and are the two halves of the table: the keys that are live have
an expiry ahead of the time. -/
def Halves (db : Database) (reply : Option RedisTime) (live_iteration expired_iteration : Pings → Pings) : Prop :=
  ∃ all_pings out_live out_expired, exec GetAllPings db = (.ok all_pings,db) ∧
    exec (GetLivePings reply live_iteration) db = (.ok out_live,db) ∧
    exec (GetExpiredPings reply expired_iteration) db = (.ok out_expired,db) ∧
    (out_live ++ out_expired).Nodup ∧
    (∀ key, key ∈ out_live ++ out_expired ↔ key ∈ all_pings.map (·.1)) ∧
    ∀ key, key ∈ out_live ↔ ∃ score, (key,score) ∈ all_pings ∧ GetTimeNowSeconds reply < score

theorem live_eq_expired (now : Nat) (pings : Pings) :
    (pings.filter (fun ping => ¬ ping.2 > now)).map (·.1) = expired now pings := by
  simp only [expired,gt_iff_lt,not_lt]

theorem exec_pings (reply : Option RedisTime) (live_iteration expired_iteration : Pings → Pings) {all_pings : Pings}
    (ran : exec GetAllPings db = (.ok all_pings,db)) :
    exec (GetLivePings reply live_iteration) db = (.ok (expired (GetTimeNowSeconds reply) (live_iteration all_pings)),db) ∧
    exec (GetExpiredPings reply expired_iteration) db =
      (.ok (expired (GetTimeNowSeconds reply) (expired_iteration all_pings)),db) := by
  constructor
  · rw [GetLivePings,exec_bind_ok _ _ _ _ _ ran,exec_pure,live_eq_expired]
  · rw [GetExpiredPings,exec_bind_ok _ _ _ _ _ ran,exec_pure]

theorem readPings_nil {hash : Hash} (read : readPings hash = some []) : hash = [] := by
  cases hash with
  | nil => rfl
  | cons entry rest =>
    obtain ⟨score,_,read⟩ := Option.bind_eq_some_iff.mp read
    obtain ⟨pings,_,read⟩ := Option.bind_eq_some_iff.mp read
    cases read

/-- The live list is the list of the expired keys, so that the two are the halves of the
empty table only. -/
theorem halves_iff_empty (live_order : ∀ pings, (live_iteration pings).Perm pings)
    (expired_order : ∀ pings, (expired_iteration pings).Perm pings) :
    Halves db reply live_iteration expired_iteration ↔ db.hash HealthPingTable = [] := by
  constructor
  · rintro ⟨all_pings,out_live,out_expired,ran,lived,died,distinct,all,-⟩
    obtain ⟨live,dead⟩ := exec_pings reply live_iteration expired_iteration ran
    obtain rfl := Except.ok.inj (Prod.mk.inj (live.symm.trans lived)).1
    obtain rfl := Except.ok.inj (Prod.mk.inj (dead.symm.trans died)).1
    have same (key : Bytes) : key ∈ expired (GetTimeNowSeconds reply) (live_iteration all_pings) ↔
        key ∈ expired (GetTimeNowSeconds reply) (expired_iteration all_pings) := by
      simp only [mem_expired,(live_order all_pings).mem_iff,(expired_order all_pings).mem_iff]
    have apart := (List.nodup_append.mp distinct).2.2
    have none : all_pings = [] := by
      apply List.eq_nil_iff_forall_not_mem.mpr
      intro ping member
      rcases List.mem_append.mp ((all ping.1).mpr (List.mem_map_of_mem member)) with inside | inside
      · exact apart _ inside _ ((same _).mp inside) rfl
      · exact apart _ ((same _).mpr inside) _ inside rfl
    subst none
    apply readPings_nil
    change exec (match readPings (db.hash HealthPingTable) with
      | some pings => pure pings
      | none => throw (.runtimeError "stod") : Command Pings) db = _ at ran
    split at ran
    · rename_i pings read
      rw [read,Except.ok.inj (Prod.mk.inj ran).1]
    · cases (Prod.mk.inj ran).1
  · intro empty
    have ran : exec GetAllPings db = (.ok [],db) := by
      have all : exec (hgetall HealthPingTable) db = (.ok (db.hash HealthPingTable),db) := rfl
      rw [GetAllPings,exec_bind_ok _ _ _ _ _ all,empty]
      rfl
    obtain ⟨live,dead⟩ := exec_pings reply live_iteration expired_iteration ran
    rw [List.perm_nil.mp (live_order [])] at live
    rw [List.perm_nil.mp (expired_order [])] at dead
    exact ⟨[],[],[],ran,live,dead,List.nodup_nil,by simp,by simp⟩

/-- The table of one server that has pinged. -/
def pinged : Database := (exec (HealthUpdate .MakeIDWatchDog (TIME 0 false)) .empty).2

/-- The lists are the halves again once the only ping is removed. -/
theorem halves_empty : ¬ Halves pinged (TIME 9 false) id id ∧
    Halves (exec (RemovePing NetworkIdentity.MakeIDWatchDog.key) pinged).2 (TIME 9 false) id id := by
  have halves (db : Database) : Halves db (TIME 9 false) id id ↔ db.hash HealthPingTable = [] :=
    halves_iff_empty (fun _ => List.Perm.refl _) (fun _ => List.Perm.refl _)
  rw [halves,halves]
  decide +kernel

/-- A server whose ping is still ahead of the time is in neither list. -/
theorem live_not_listed : ¬ ∀ (db : Database) (now : Nat), Kept db → Halves db (TIME now false) id id := by
  intro halves
  have kept : Kept (exec (HealthUpdate .MakeIDWatchDog (TIME 0 false)) .empty).2 :=
    kept_HealthUpdate _ _ ⟨List.nodup_nil,nofun,nofun⟩
  obtain ⟨all_pings,out_live,out_expired,ran,lived,-,-,-,live⟩ := halves _ 0 kept
  obtain ⟨pings,read,keys,scores⟩ := getAllPings_spec kept
  obtain rfl := Except.ok.inj (Prod.mk.inj (read.symm.trans ran)).1
  obtain ⟨ping,rfl,key⟩ := List.map_eq_singleton_iff.mp (show pings.map (·.1) = [NetworkIdentity.MakeIDWatchDog.key] from keys)
  have score := scores ping List.mem_cons_self
  rw [key,expiry_HealthUpdate_self] at score
  have ahead : ¬ TTL (TIME 0 false) ≤ GetTimeNowSeconds (TIME 0 false) := by decide
  have nobody : exec (GetLivePings (TIME 0 false) id) _ = (.ok [],_) := (exec_pings _ _ id ran).1.trans (by
    rw [id,expired,List.filter_cons,← Option.some.inj score,if_neg (by simpa using ahead)]
    rfl)
  obtain rfl := Except.ok.inj (Prod.mk.inj (nobody.symm.trans lived)).1
  exact absurd ((live ping.1).mpr ⟨ping.2,List.mem_cons_self,Option.some.inj score ▸ Nat.lt_of_not_le ahead⟩)
    List.not_mem_nil

end Halves

end HealthManifest

end AtlasNet
