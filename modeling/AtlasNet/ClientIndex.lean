import AtlasNet.Registries
import Mathlib.Data.List.Induction

/-! The proxy that a client is assigned to, in the hash by client and in the set that
the manifest keeps for a proxy. The key of the set is the same for all proxies. -/
namespace AtlasNet.ClientManifest
open Foundation Foundation.Redis Foundation.Program

inductive Call
  | RegisterClient (client : Client)
  | AssignProxyClient (cid : UUID) (ID : NetworkIdentity)

def Call.run : Call → Command Unit
  | RegisterClient client => ClientManifest.RegisterClient client
  | AssignProxyClient cid ID => ClientManifest.AssignProxyClient cid ID

/-- The store after some calls; one that stops keeps what it has written. -/
def history (calls : List Call) : Database := calls.foldl (fun db call => (exec call.run db).2) Database.empty

def ProxyOf (cid : UUID) (db : Database) : Option Bytes := (db.hash ClientID_2_ProxyID_Hashtable).get cid.data

/-- The clients of a proxy by the set that `__ProxyAddClient` fills for it. -/
def ClientsOf (_idProxy : NetworkIdentity) (db : Database) : List Bytes := db.members ProxyID_2_ClientIDs_Set

/-- The hash has a client at a proxy exactly when the set of the proxy has the client,
and the sets of two proxies have no client in common. -/
def Agree (proxies : List NetworkIdentity) (db : Database) : Prop :=
  ∀ cid : UUID, ∀ p ∈ proxies, (ProxyOf cid db = some (p.Serialize {}).buf ↔ cid.data ∈ ClientsOf p db) ∧
    (cid.data ∈ ClientsOf p db → ∀ other ∈ proxies, other ≠ p → cid.data ∉ ClientsOf other db)

def Deployed (proxies : List NetworkIdentity) (calls : List Call) : Prop :=
  ∀ cid ID, .AssignProxyClient cid ID ∈ calls → ID ∈ proxies

/-- What the calls leave: a proxy in the hash for each client that was assigned, and
exactly these clients in the set. -/
structure Follows (proxies : List NetworkIdentity) (calls : List Call) (db : Database) : Prop where
  proxied : ∀ cid value, ProxyOf cid db = some value → ∃ p ∈ proxies, value = (p.Serialize {}).buf
  assigned : ∀ cid, (ProxyOf cid db).isSome ↔ ∃ ID, .AssignProxyClient cid ID ∈ calls
  listed : ∀ cid : UUID, cid.data ∈ db.members ProxyID_2_ClientIDs_Set ↔ (ProxyOf cid db).isSome

section Steps
variable {proxies : List NetworkIdentity} {calls : List Call} {db : Database}

theorem RegisterClient_elsewhere (client : Client) (db : Database) :
    (exec (RegisterClient client) db).2.hash ClientID_2_ProxyID_Hashtable = db.hash ClientID_2_ProxyID_Hashtable ∧
      (exec (RegisterClient client) db).2.members = db.members := by
  cases ran : exec (RegisterClient client) db with
  | mk reply next =>
    cases reply with
    | ok _ =>
      obtain ⟨address,rfl⟩ := RegisterClient_returned ran
      exact ⟨withHash_other _ _ _ _ tables_differ,rfl⟩
    | error fault =>
      unfold RegisterClient ClientSetIP IPAddress.Serialize at ran
      split at ran
      · cases (Prod.mk.inj ran).1
      · obtain rfl := (Prod.mk.inj ran).2
        exact ⟨rfl,rfl⟩

theorem follows_RegisterClient (follows : Follows proxies calls db) (client : Client) :
    Follows proxies (calls ++ [.RegisterClient client]) (exec (RegisterClient client) db).2 := by
  obtain ⟨table,sets⟩ := RegisterClient_elsewhere client db
  have same (cid : UUID) : ProxyOf cid (exec (RegisterClient client) db).2 = ProxyOf cid db := by
    rw [ProxyOf,table]
    rfl
  refine ⟨fun cid value found => follows.proxied cid value (same cid ▸ found),fun cid => ?_,fun cid => ?_⟩
  · rw [same,follows.assigned]
    simp
  · rw [same,sets,follows.listed]

/-- The hash holds identities, so an assignment to a proxy returns. -/
theorem AssignProxyClient_returns (follows : Follows proxies calls db) (cid : UUID) {ID : NetworkIdentity}
    (typed : ID.type = .eProxy) : ∃ next, exec (AssignProxyClient cid ID) db = (.ok (),next) := by
  have got : ∃ original, exec (ClientGetProxy cid) db = (.ok original,db) := by
    rw [ClientGetProxy]
    cases found : ProxyOf cid db with
    | none =>
      have asked : exec (hget ClientID_2_ProxyID_Hashtable (ByteWriter.uuid cid {}).buf) db = (.ok none,db) := by
        rw [← found]
        rfl
      rw [exec_bind_ok _ _ _ _ _ asked]
      exact ⟨none,rfl⟩
    | some value =>
      have asked : exec (hget ClientID_2_ProxyID_Hashtable (ByteWriter.uuid cid {}).buf) db = (.ok (some value),db) := by
        rw [← found]
        rfl
      obtain ⟨p,_,rfl⟩ := follows.proxied cid value found
      have decoded := NetworkIdentity.Deserialize_written p [] (by decide)
      rw [List.append_nil] at decoded
      rw [exec_bind_ok _ _ _ _ _ asked]
      refine ⟨some p,?_⟩
      rw [exec_bind_ok _ _ _ _ _ ((exec_within _ _ _).trans (by rw [decoded]))]
      rfl
  obtain ⟨original,got⟩ := got
  rw [AssignProxyClient,exec_assert_bind,if_pos typed,exec_bind_ok _ _ _ _ _ got]
  cases original <;> exact ⟨_,rfl⟩

theorem follows_AssignProxyClient (follows : Follows proxies calls db) (cid : UUID) {ID : NetworkIdentity}
    (typed : ID.type = .eProxy) (deployed : ID ∈ proxies) :
    Follows proxies (calls ++ [.AssignProxyClient cid ID]) (exec (AssignProxyClient cid ID) db).2 := by
  obtain ⟨next,ran⟩ := AssignProxyClient_returns follows cid typed
  obtain ⟨hashes,before,members,stays⟩ := AssignProxyClient_returned ran
  rw [ran]
  have here : ProxyOf cid next = some (ID.Serialize {}).buf := by
    rw [ProxyOf,hashes,withHash_self,Entries.get_put_self]
  have elsewhere (other : UUID) (apart : other ≠ cid) : ProxyOf other next = ProxyOf other db := by
    have different : other.data ≠ cid.data := fun same => apart (UUID.ext_data _ _ same)
    rw [ProxyOf,hashes,withHash_self,Entries.get_put_other _ _ _ _ different]
    rfl
  refine ⟨fun other value found => ?_,fun other => ?_,fun other => ?_⟩
  · by_cases mine : other = cid
    · subst mine
      exact ⟨ID,deployed,Option.some.inj (found.symm.trans here)⟩
    · exact follows.proxied other value (elsewhere other mine ▸ found)
  · by_cases mine : other = cid
    · subst mine
      rw [here]
      exact ⟨fun _ => ⟨ID,by simp⟩,fun _ => rfl⟩
    · rw [elsewhere other mine,follows.assigned]
      simp [mine]
  · change other.data ∈ next.members ProxyID_2_ClientIDs_Set ↔ _
    rw [members,mem_including]
    by_cases mine : other = cid
    · subst mine
      rw [here]
      exact ⟨fun _ => rfl,fun _ => .inl rfl⟩
    · have different : other.data ≠ cid.data := fun same => mine (UUID.ext_data _ _ same)
      rw [elsewhere other mine,← follows.listed,stays _ different]
      exact ⟨fun inside => inside.resolve_left different,.inr⟩

end Steps

theorem follows_history {proxies : List NetworkIdentity} (typed : ∀ p ∈ proxies, p.type = .eProxy) {calls : List Call}
    (deployed : Deployed proxies calls) : Follows proxies calls (history calls) := by
  induction calls using List.reverseRecOn with
  | nil => exact ⟨nofun,fun cid => by simp [ProxyOf,history,Database.empty,Entries.get],fun cid => by
      simp [ProxyOf,history,Database.empty,Entries.get]⟩
  | append_singleton calls call ih =>
    have follows := ih (fun cid ID member => deployed cid ID (List.mem_append_left _ member))
    have last : history (calls ++ [call]) = (exec call.run (history calls)).2 := List.foldl_concat ..
    rw [last]
    cases call with
    | RegisterClient client => exact follows_RegisterClient follows client
    | AssignProxyClient cid ID =>
      have known := deployed cid ID (List.mem_append_right _ List.mem_cons_self)
      exact follows_AssignProxyClient follows cid (typed ID known) known

/-- The index and the sets agree after some calls exactly when no client was assigned, or
there is no second proxy. -/
theorem index_agrees_iff (proxies : List NetworkIdentity) (typed : ∀ p ∈ proxies, p.type = .eProxy) (calls : List Call)
    (deployed : Deployed proxies calls) : Agree proxies (history calls) ↔
      (∀ cid ID, .AssignProxyClient cid ID ∉ calls) ∨ ∀ p ∈ proxies, ∀ q ∈ proxies, p = q := by
  have follows := follows_history typed deployed
  constructor
  · intro agree
    by_contra neither
    obtain ⟨assigned,several⟩ := not_or.mp neither
    simp only [not_forall,not_not] at assigned several
    obtain ⟨cid,ID,member⟩ := assigned
    obtain ⟨p,first,q,second,differ⟩ := several
    have inside : cid.data ∈ (history calls).members ProxyID_2_ClientIDs_Set :=
      (follows.listed cid).mpr ((follows.assigned cid).mpr ⟨ID,member⟩)
    exact (agree cid p first).2 inside q second (Ne.symm differ) inside
  · rintro (unassigned | single) cid p known
    · have absent : ProxyOf cid (history calls) = none := by
        rw [← Option.not_isSome_iff_eq_none,follows.assigned]
        rintro ⟨ID,member⟩
        exact unassigned cid ID member
      have unlisted : cid.data ∉ ClientsOf p (history calls) := by
        intro inside
        have found := (follows.listed cid).mp inside
        rw [absent] at found
        cases found
      rw [absent]
      exact ⟨⟨nofun,fun inside => absurd inside unlisted⟩,fun inside => absurd inside unlisted⟩
    · refine ⟨⟨fun found => ?_,fun inside => ?_⟩,fun _ other member differ => absurd (single other member p known) differ⟩
      · exact (follows.listed cid).mpr (by rw [found]; rfl)
      · obtain ⟨value,found⟩ := Option.isSome_iff_exists.mp ((follows.listed cid).mp inside)
        obtain ⟨q,deployedToo,rfl⟩ := follows.proxied cid value found
        rw [found,single q deployedToo p known]

def proxy (digit : UInt8) : NetworkIdentity := ⟨.eProxy,⟨List.replicate 16 digit,rfl⟩⟩

theorem index_agrees_single : Agree [proxy 1] (history [.AssignProxyClient .nil (proxy 1)]) := by
  refine (index_agrees_iff [proxy 1] (fun p member => ?_) _ (fun cid ID member => ?_)).mpr (.inr ?_)
  · rw [List.mem_singleton.mp member]
    rfl
  · cases List.mem_singleton.mp member
    exact List.mem_singleton.mpr rfl
  · intro p first q second
    rw [List.mem_singleton.mp first,List.mem_singleton.mp second]

def twoClients : List Call := [.AssignProxyClient .nil (proxy 1),.AssignProxyClient (proxy 3).ID (proxy 2)]

/-- With a client on each of two proxies, the set of either proxy has both clients. -/
theorem two_proxies_disagree : ¬ Agree [proxy 1,proxy 2] (history twoClients) := by
  intro agree
  have follows : Follows [proxy 1,proxy 2] twoClients (history twoClients) := by
    refine follows_history (fun p member => ?_) (fun cid ID member => ?_)
    · rcases List.mem_pair.mp member with rfl | rfl <;> rfl
    · rcases List.mem_pair.mp member with same | same <;> cases same <;> simp
  have inside := (follows.listed .nil).mpr ((follows.assigned .nil).mpr ⟨proxy 1,List.mem_cons_self⟩)
  have differ : proxy 2 ≠ proxy 1 := by
    intro same
    cases congrArg (fun ID => ID.ID.data.head?) same
  exact (agree .nil (proxy 1) (by simp)).2 inside (proxy 2) (by simp) differ inside

end AtlasNet.ClientManifest
