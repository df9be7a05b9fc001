import AtlasNet.Connection
import AtlasNet.Foundation.Redis

/-! The registry of the servers and the manifest of the clients, kept in hashes and
sets of the database under serialized keys. -/
namespace AtlasNet
open Foundation Foundation.Program Foundation.Redis

structure ServerRegistryEntry where
  address : IPAddress
  identifier : NetworkIdentity

namespace ServerRegistry

def HashTableNameID_IP : String := "Server Registry ID_IP"

def GetKeyOfIdentifier (ID : NetworkIdentity) : Bytes := (ID.Serialize {}).buf

def ExistsInRegistry (ID : NetworkIdentity) : Command Bool := hexists HashTableNameID_IP (GetKeyOfIdentifier ID)

section Lookups
variable [Platform]

def GetIPOfID (ID : NetworkIdentity) : Command (Option IPAddress) := do
  match ← hget HashTableNameID_IP (GetKeyOfIdentifier ID) with
  | none => pure none
  | some ret => pure (if ret.isEmpty then none else some (Platform.ParseString ret))

def GetServers_loop : Hash → List ServerRegistryEntry → Command (List ServerRegistryEntry)
  | [],servers => pure servers
  | (key,value)::rest,servers => do
    let id ← within NetworkIdentity.Deserialize {p := key}
    assert (id.type ≠ .eInvalid) "Invalid entry in server ServerRegistry"
    assert (¬ servers.any (fun entry => (⟨entry.identifier⟩ : MapKey) == ⟨id⟩))
      "Duplicate entry in server ServerRegistry?"
    GetServers_loop rest (servers ++ [{address := Platform.ParseString value,identifier := id}])

def GetServers : Command (List ServerRegistryEntry) := do
  let entries ← hgetall HashTableNameID_IP
  GetServers_loop entries []

theorem reads_GetIPOfID (ID : NetworkIdentity) : Reads (GetIPOfID ID) := by
  intro db
  unfold GetIPOfID
  cases found : (db.hash HashTableNameID_IP).get (GetKeyOfIdentifier ID) <;> simp [hget,found]

theorem reads_GetServers_loop (entries : Hash) (servers : List ServerRegistryEntry) :
    Reads (GetServers_loop entries servers) := by
  induction entries generalizing servers with
  | nil => exact fun _ => rfl
  | cons entry rest ih =>
    refine reads_bind (fun db => by simp) (fun id => ?_)
    refine reads_bind (fun db => by simp) (fun _ => ?_)
    exact reads_bind (fun db => by simp) (fun _ => ih _)

theorem reads_GetServers : Reads GetServers :=
  reads_bind (fun _ => rfl) (fun entries => reads_GetServers_loop entries [])

end Lookups

def Registered (ID : NetworkIdentity) (db : Database) : Prop :=
  ((db.hash HashTableNameID_IP).get (GetKeyOfIdentifier ID)).isSome

instance (ID : NetworkIdentity) (db : Database) : Decidable (Registered ID db) :=
  inferInstanceAs (Decidable (_ = true))

@[simp] theorem exec_ExistsInRegistry (ID : NetworkIdentity) (db : Database) :
    exec (ExistsInRegistry ID) db = (.ok (decide (Registered ID db)),db) := by
  have known : decide (Registered ID db) = ((db.hash HashTableNameID_IP).get (GetKeyOfIdentifier ID)).isSome :=
    Bool.decide_eq_true
  rw [known]
  rfl

end ServerRegistry

structure Client where
  ip : IPAddress
  ID : UUID

namespace ClientManifest

def ClientID_2_IP_Hashtable : String := "ClientID to IP"
def ClientID_2_ProxyID_Hashtable : String := "ClientID to ProxyID"
def ProxyID_2_ClientIDs_Set : String := "Proxy_\x7b\x7d_Clients"

def ClientSetIP (c : UUID) (address : IPAddress) : Command Unit := do
  let IPWrite ← address.Serialize {}
  hset ClientID_2_IP_Hashtable (ByteWriter.uuid c {}).buf IPWrite.buf

def RegisterClient (client : Client) : Command Unit := ClientSetIP client.ID client.ip

def ClientSetProxy (c : UUID) (idProxy : NetworkIdentity) : Command Unit :=
  hset ClientID_2_ProxyID_Hashtable (ByteWriter.uuid c {}).buf (idProxy.Serialize {}).buf

def ClientGetProxy (client_ID : UUID) : Command (Option NetworkIdentity) := do
  match ← hget ClientID_2_ProxyID_Hashtable (ByteWriter.uuid client_ID {}).buf with
  | none => pure none
  | some result => return some (← within NetworkIdentity.Deserialize {p := result})

/-- The key of the set does not name the proxy. -/
def ProxyRemoveClient (_idProxy : NetworkIdentity) (ID : UUID) : Command Unit :=
  srem ProxyID_2_ClientIDs_Set (ByteWriter.uuid ID {}).buf

def ProxyAddClient (_idProxy : NetworkIdentity) (ID : UUID) : Command Unit :=
  sadd ProxyID_2_ClientIDs_Set (ByteWriter.uuid ID {}).buf

def RemoveOriginal (OriginalProxy : Option NetworkIdentity) (cid : UUID) : Command Unit :=
  match OriginalProxy with
  | some proxy => ProxyRemoveClient proxy cid
  | none => pure ()

def AssignProxyClient (cid : UUID) (ID : NetworkIdentity) : Command Unit := do
  assert (ID.type = .eProxy) "Proxy must be proxy type"
  let OriginalProxy ← ClientGetProxy cid
  RemoveOriginal OriginalProxy cid
  ClientSetProxy cid ID
  ProxyAddClient ID cid

/-- The client has an address, and stands at the proxy in the hash and in the set. -/
structure Assigned (cid : UUID) (proxy : NetworkIdentity) (db : Database) : Prop where
  registered : ((db.hash ClientID_2_IP_Hashtable).get cid.data).isSome
  proxied : (db.hash ClientID_2_ProxyID_Hashtable).get cid.data = some (proxy.Serialize {}).buf
  listed : cid.data ∈ db.members ProxyID_2_ClientIDs_Set

theorem tables_differ : ClientID_2_ProxyID_Hashtable ≠ ClientID_2_IP_Hashtable := by decide

section Effects
variable {db next : Database} {cid : UUID}

theorem RegisterClient_returned {client : Client} (ran : exec (RegisterClient client) db = (.ok (),next)) :
    ∃ address, next = db.withHash ClientID_2_IP_Hashtable
      ((db.hash ClientID_2_IP_Hashtable).put client.ID.data address) := by
  obtain ⟨IPWrite,middle,wrote,stored⟩ := bind_returned _ _ _ _ _ ran
  have same : middle = db := by
    unfold IPAddress.Serialize at wrote
    split at wrote
    · exact (Prod.mk.inj wrote).2.symm
    · cases (Prod.mk.inj wrote).1
  subst same
  exact ⟨IPWrite.buf,(Prod.mk.inj stored).2.symm⟩

theorem RegisterClient_registers {client : Client} (ran : exec (RegisterClient client) db = (.ok (),next)) :
    ((next.hash ClientID_2_IP_Hashtable).get client.ID.data).isSome := by
  obtain ⟨address,rfl⟩ := RegisterClient_returned ran
  rw [withHash_self,Entries.get_put_self]
  rfl

theorem RegisterClient_keeps {client : Client} {proxy : NetworkIdentity}
    (ran : exec (RegisterClient client) db = (.ok (),next)) (assigned : Assigned cid proxy db) :
    Assigned cid proxy next := by
  obtain ⟨address,rfl⟩ := RegisterClient_returned ran
  refine ⟨?_,?_,assigned.listed⟩
  · rw [withHash_self]
    by_cases mine : cid.data = client.ID.data
    · rw [mine,Entries.get_put_self]
      rfl
    · rw [Entries.get_put_other _ _ _ _ mine]
      exact assigned.registered
  · rw [withHash_other _ _ _ _ tables_differ]
    exact assigned.proxied

theorem reads_ClientGetProxy (cid : UUID) : Reads (ClientGetProxy cid) := by
  refine reads_bind (fun _ => rfl) (fun found => ?_)
  cases found with
  | none => exact fun _ => rfl
  | some result => exact reads_bind (fun db => by rw [exec_within]) (fun _ _ => rfl)

/-- What an assignment that returns has written: the members of the set may have
lost the client before it was added. -/
theorem AssignProxyClient_returned {proxy : NetworkIdentity}
    (ran : exec (AssignProxyClient cid proxy) db = (.ok (),next)) :
    next.hash = (db.withHash ClientID_2_ProxyID_Hashtable
        ((db.hash ClientID_2_ProxyID_Hashtable).put cid.data (proxy.Serialize {}).buf)).hash ∧
      ∃ before, next.members ProxyID_2_ClientIDs_Set = including cid.data before ∧
        ∀ other, other ≠ cid.data → (other ∈ before ↔ other ∈ db.members ProxyID_2_ClientIDs_Set) := by
  obtain ⟨_,checked,passed,ran⟩ := bind_returned _ _ _ _ _ ran
  obtain ⟨original,read,got,ran⟩ := bind_returned _ _ _ _ _ ran
  have unread : read = checked := by
    have reads := reads_ClientGetProxy cid checked
    rw [got] at reads
    exact reads
  have unchecked : checked = db := by
    rw [exec_assert] at passed
    exact (Prod.mk.inj passed).2.symm
  subst unread
  subst unchecked
  cases original with
  | none =>
    have final : exec (RemoveOriginal none cid >>= fun _ => ClientSetProxy cid proxy >>= fun _ =>
        ProxyAddClient proxy cid) read = (.ok (),(read.withHash _ _).withMembers _ _) := rfl
    obtain rfl := (Prod.mk.inj (final.symm.trans ran)).2
    exact ⟨rfl,_,withMembers_self ..,fun _ _ => Iff.rfl⟩
  | some original =>
    have final : exec (RemoveOriginal (some original) cid >>= fun _ => ClientSetProxy cid proxy >>= fun _ =>
        ProxyAddClient proxy cid) read = (.ok (),((read.withMembers _ _).withHash _ _).withMembers _ _) := rfl
    obtain rfl := (Prod.mk.inj (final.symm.trans ran)).2
    refine ⟨rfl,(read.members ProxyID_2_ClientIDs_Set).filter (· ≠ cid.data),?_,?_⟩
    · exact (withMembers_self ..).trans (congrArg (including cid.data) (withMembers_self read ProxyID_2_ClientIDs_Set _))
    · intro other different
      simp [different]

theorem AssignProxyClient_assigns {proxy : NetworkIdentity}
    (registered : ((db.hash ClientID_2_IP_Hashtable).get cid.data).isSome)
    (ran : exec (AssignProxyClient cid proxy) db = (.ok (),next)) : Assigned cid proxy next := by
  obtain ⟨hashes,before,members,_⟩ := AssignProxyClient_returned ran
  refine ⟨?_,?_,?_⟩
  · rw [hashes,withHash_other _ _ _ _ tables_differ.symm]
    exact registered
  · rw [hashes,withHash_self,Entries.get_put_self]
  · rw [members,mem_including]
    exact .inl rfl

theorem AssignProxyClient_keeps {other : UUID} {proxy mine : NetworkIdentity} (apart : other ≠ cid)
    (ran : exec (AssignProxyClient cid proxy) db = (.ok (),next)) (assigned : Assigned other mine db) :
    Assigned other mine next := by
  obtain ⟨hashes,before,members,stays⟩ := AssignProxyClient_returned ran
  have different : other.data ≠ cid.data := fun same => apart (UUID.ext_data _ _ same)
  refine ⟨?_,?_,?_⟩
  · rw [hashes,withHash_other _ _ _ _ tables_differ.symm]
    exact assigned.registered
  · rw [hashes,withHash_self,Entries.get_put_other _ _ _ _ different]
    exact assigned.proxied
  · rw [members,mem_including]
    exact .inr ((stays _ different).mpr assigned.listed)

end Effects

end ClientManifest

end AtlasNet
