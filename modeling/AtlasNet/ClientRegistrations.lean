import AtlasNet.ClientIndex
import AtlasNet.Foundation.Scripts

/-! Any number of proxies that enter their clients into the manifest at the same time, each
command of theirs between any commands of the others. -/
namespace AtlasNet.ClientManifest
open Foundation Foundation.Redis Foundation.Program Script

/-- A client that connects to a proxy. -/
structure Registration where
  client : Client
  proxy : NetworkIdentity

namespace Registration

def sequence (r : Registration) : Command Unit := do
  RegisterClient r.client
  AssignProxyClient r.client.ID r.proxy

def script (r : Registration) : Script Database Unit := do
  query (RegisterClient r.client)
  query (assert (r.proxy.type = .eProxy) "Proxy must be proxy type")
  let OriginalProxy ← query (ClientGetProxy r.client.ID)
  query (RemoveOriginal OriginalProxy r.client.ID)
  query (ClientSetProxy r.client.ID r.proxy)
  query (ProxyAddClient r.proxy r.client.ID)

/-- With no other commands between, the commands are the calls. -/
theorem script_alone (r : Registration) (db : Database) : alone r.script db = exec r.sequence db := by
  refine alone_query_bind (fun _ => alone_query_bind fun _ => alone_query_bind fun _ => ?_) db
  exact alone_query_bind fun _ => alone_query_bind fun _ _ => rfl

end Registration

/-- How far a registration has come: it has set the address, it has taken the client out of
the set, it has set the proxy, it has put the client into the set. -/
inductive Stage
  | idle
  | begun
  | addressed
  | removed
  | proxied
  | listed
  | refused
deriving DecidableEq

def AddressOf (cid : UUID) (db : Database) : Option Bytes := (db.hash ClientID_2_IP_Hashtable).get cid.data

section Commands
variable {κ : Type} {registration : κ → Registration} {stages : κ → Stage} {db : Database} {k : κ} {stage : Stage}

/-- What the stages say of the store. A client that has been listed is missing from the set
only while another registration of it is on its way to list it again. -/
structure Registering (registration : κ → Registration) (stages : κ → Stage) (db : Database) : Prop where
  members : ∀ member ∈ db.members ProxyID_2_ClientIDs_Set, ∃ k, stages k = .listed ∧ (registration k).client.ID.data = member
  addresses : ∀ k, stages k ≠ .idle → stages k ≠ .begun → stages k ≠ .refused →
    (AddressOf (registration k).client.ID db).isSome
  proxied : ∀ k, stages k = .proxied ∨ stages k = .listed → (ProxyOf (registration k).client.ID db).isSome
  proxies : ∀ cid value, ProxyOf cid db = some value → ∃ k, (stages k = .proxied ∨ stages k = .listed) ∧
    (registration k).client.ID = cid ∧ value = ((registration k).proxy.Serialize {}).buf
  listed : ∀ k, stages k = .listed → (registration k).client.ID.data ∈ db.members ProxyID_2_ClientIDs_Set ∨
    ∃ j, (registration j).client.ID = (registration k).client.ID ∧ (stages j = .removed ∨ stages j = .proxied)

theorem Registering.fresh {store : Database} (unlisted : store.members ProxyID_2_ClientIDs_Set = [])
    (unproxied : store.hash ClientID_2_ProxyID_Hashtable = []) : Registering registration (fun _ => .idle) store where
  members member inside := by
    rw [unlisted] at inside
    exact absurd inside List.not_mem_nil
  addresses _ other := absurd rfl other
  proxied _ gone := by simp at gone
  proxies cid value found := by
    rw [ProxyOf,unproxied] at found
    cases found
  listed _ gone := by simp at gone

variable [DecidableEq κ]

/-- The registration goes on and the store stays as it is, apart from further addresses. -/
theorem Registering.goes_on (registering : Registering registration stages db) {after : Database}
    (members : after.members = db.members) (proxies : after.hash ClientID_2_ProxyID_Hashtable = db.hash ClientID_2_ProxyID_Hashtable)
    (kept : ∀ cid, (AddressOf cid db).isSome → (AddressOf cid after).isSome)
    (before : stages k = .idle ∨ stages k = .begun ∨ stages k = .addressed)
    (here : stage = .begun ∨ stage = .refused ∨ stage = .addressed ∧ (AddressOf (registration k).client.ID after).isSome) :
    Registering registration (Function.update stages k stage) after := by
  obtain ⟨inside,addresses,proxied,known,listed⟩ := registering
  have same (cid : UUID) : ProxyOf cid after = ProxyOf cid db := by rw [ProxyOf,proxies,ProxyOf]
  constructor
  · rw [members]
    grind [Function.update_apply]
  · grind [Function.update_apply]
  · grind [Function.update_apply]
  · grind [Function.update_apply]
  · rw [members]
    grind [Function.update_apply]

theorem Registering.removes (registering : Registering registration stages db) (here : stages k = .addressed)
    (original : Option NetworkIdentity) : Registering registration (Function.update stages k .removed)
      (exec (RemoveOriginal original (registration k).client.ID) db).2 := by
  obtain ⟨inside,addresses,proxied,known,listed⟩ := registering
  have others (member : Bytes) (other : member ≠ (registration k).client.ID.data) :
      member ∈ (exec (RemoveOriginal original (registration k).client.ID) db).2.members ProxyID_2_ClientIDs_Set ↔
        member ∈ db.members ProxyID_2_ClientIDs_Set := by
    cases original with
    | none => rfl
    | some proxy =>
      change member ∈ (db.withMembers _ _).members _ ↔ _
      rw [withMembers_self,List.mem_filter]
      exact and_iff_left (decide_eq_true other)
  have fewer (member : Bytes)
      (left : member ∈ (exec (RemoveOriginal original (registration k).client.ID) db).2.members ProxyID_2_ClientIDs_Set) :
      member ∈ db.members ProxyID_2_ClientIDs_Set := by
    cases original with
    | none => exact left
    | some proxy =>
      change member ∈ (db.withMembers _ _).members _ at left
      rw [withMembers_self] at left
      exact (List.mem_filter.mp left).1
  have tables : (exec (RemoveOriginal original (registration k).client.ID) db).2.hash = db.hash := by cases original <;> rfl
  have proxies (cid : UUID) : ProxyOf cid (exec (RemoveOriginal original (registration k).client.ID) db).2 = ProxyOf cid db := by
    rw [ProxyOf,tables,ProxyOf]
  have addressed (cid : UUID) : AddressOf cid (exec (RemoveOriginal original (registration k).client.ID) db).2 = AddressOf cid db := by
    rw [AddressOf,tables,AddressOf]
  constructor
  · intro member left
    obtain ⟨j,_,_⟩ := inside member (fewer member left)
    exact ⟨j,by grind [Function.update_apply]⟩
  · grind [Function.update_apply]
  · grind [Function.update_apply]
  · grind [Function.update_apply]
  · intro j stopped
    by_cases mine : (registration j).client.ID = (registration k).client.ID
    · exact .inr ⟨k,mine.symm,.inl (Function.update_self ..)⟩
    · have apart : (registration j).client.ID.data ≠ (registration k).client.ID.data := fun same => mine (UUID.ext_data _ _ same)
      rw [others _ apart]
      grind [Function.update_apply]

theorem ProxyOf_ClientSetProxy_self (cid : UUID) (p : NetworkIdentity) (db : Database) :
    ProxyOf cid (exec (ClientSetProxy cid p) db).2 = some (p.Serialize {}).buf := by
  change ((db.withHash _ _).hash _).get _ = _
  rw [withHash_self]
  exact Entries.get_put_self _ _ _

theorem ProxyOf_ClientSetProxy_other {cid other : UUID} (apart : other ≠ cid) (p : NetworkIdentity) (db : Database) :
    ProxyOf other (exec (ClientSetProxy cid p) db).2 = ProxyOf other db := by
  change ((db.withHash _ _).hash _).get _ = _
  rw [withHash_self]
  exact Entries.get_put_other _ _ _ _ fun same => apart (UUID.ext_data _ _ same)

theorem AddressOf_ClientSetProxy (cid other : UUID) (p : NetworkIdentity) (db : Database) :
    AddressOf other (exec (ClientSetProxy cid p) db).2 = AddressOf other db := by
  change ((db.withHash _ _).hash _).get _ = _
  rw [withHash_other _ _ _ _ tables_differ.symm]
  rfl

theorem Registering.sets_proxy (registering : Registering registration stages db) (here : stages k = .removed) :
    Registering registration (Function.update stages k .proxied)
      (exec (ClientSetProxy (registration k).client.ID (registration k).proxy) db).2 := by
  obtain ⟨inside,addresses,proxied,known,listed⟩ := registering
  constructor
  · intro member left
    obtain ⟨j,_,_⟩ := inside member left
    exact ⟨j,by grind [Function.update_apply]⟩
  · simp only [AddressOf_ClientSetProxy]
    grind [Function.update_apply]
  · intro j stopped
    by_cases same : (registration j).client.ID = (registration k).client.ID
    · rw [same,ProxyOf_ClientSetProxy_self]
      rfl
    · rw [ProxyOf_ClientSetProxy_other same]
      grind [Function.update_apply]
  · intro cid value found
    by_cases same : cid = (registration k).client.ID
    · rw [same,ProxyOf_ClientSetProxy_self] at found
      exact ⟨k,.inl (Function.update_self ..),same.symm,(Option.some.inj found).symm⟩
    · rw [ProxyOf_ClientSetProxy_other same] at found
      obtain ⟨j,_,_,_⟩ := known cid value found
      exact ⟨j,by grind [Function.update_apply]⟩
  · intro j stopped
    have before : stages j = .listed := by grind [Function.update_apply]
    refine (listed j before).imp_right fun ⟨i,_,_⟩ => ⟨i,by grind [Function.update_apply]⟩

theorem Registering.lists (registering : Registering registration stages db) (here : stages k = .proxied) :
    Registering registration (Function.update stages k .listed)
      (exec (ProxyAddClient (registration k).proxy (registration k).client.ID) db).2 := by
  obtain ⟨inside,addresses,proxied,known,listed⟩ := registering
  change Registering _ _ (db.withMembers ProxyID_2_ClientIDs_Set
    (including (registration k).client.ID.data (db.members ProxyID_2_ClientIDs_Set)))
  constructor
  · intro member left
    rw [withMembers_self,mem_including] at left
    rcases left with rfl | left
    · exact ⟨k,Function.update_self ..,rfl⟩
    · obtain ⟨j,_,_⟩ := inside member left
      exact ⟨j,by grind [Function.update_apply]⟩
  · exact fun j => by
      change _ → _ → _ → (AddressOf (registration j).client.ID db).isSome
      grind [Function.update_apply]
  · exact fun j => by
      change _ → (ProxyOf (registration j).client.ID db).isSome
      grind [Function.update_apply]
  · intro cid value found
    obtain ⟨j,_,_,_⟩ := known cid value found
    exact ⟨j,by grind [Function.update_apply]⟩
  · intro j stopped
    rw [withMembers_self,mem_including]
    by_cases same : (registration j).client.ID = (registration k).client.ID
    · exact .inl (.inl (congrArg UUID.data same))
    · have before : stages j = .listed := by grind [Function.update_apply]
      rcases listed j before with left | ⟨i,client,going⟩
      · exact .inl (.inr left)
      · refine .inr ⟨i,client,?_⟩
        have other : i ≠ k := by
          rintro rfl
          exact same client.symm
        rwa [Function.update_of_ne other]

theorem exec_RegisterClient (client : Client) (db : Database) : exec (RegisterClient client) db =
    if client.ip.IsIPv4 then (.ok (),db.withHash ClientID_2_IP_Hashtable ((db.hash ClientID_2_IP_Hashtable).put client.ID.data
      (((({} : ByteWriter).u8 1).u16 client.ip.m_port).u32 client.ip.GetIPv4).buf))
    else (.error (.assertion "not implemented"),db) := by
  rw [RegisterClient,ClientSetIP,exec_bind,IPAddress.Serialize]
  by_cases address : client.ip.IsIPv4
  · rw [if_pos address,if_pos address]
    rfl
  · rw [if_neg address,if_neg address]
    rfl

theorem Registering.registers (registering : Registering registration stages db) (here : stages k = .begun)
    (address : (registration k).client.ip.IsIPv4) :
    Registering registration (Function.update stages k .addressed) (exec (RegisterClient (registration k).client) db).2 := by
  rw [exec_RegisterClient,if_pos address]
  have mine (value : Bytes) : (AddressOf (registration k).client.ID (db.withHash ClientID_2_IP_Hashtable
      ((db.hash ClientID_2_IP_Hashtable).put (registration k).client.ID.data value))).isSome := by
    rw [AddressOf,withHash_self,Entries.get_put_self]
    rfl
  refine registering.goes_on rfl (withHash_other _ _ _ _ tables_differ) (fun cid found => ?_) (.inr (.inl here)) (.inr (.inr ⟨rfl,mine _⟩))
  by_cases same : cid = (registration k).client.ID
  · rw [same]
    exact mine _
  · rw [AddressOf,withHash_self,Entries.get_put_other _ _ _ _ fun same' => same (UUID.ext_data _ _ same')]
    exact found

omit [DecidableEq κ] in
theorem Registering.finds (registering : Registering registration stages db) (cid : UUID) :
    ∃ original, exec (ClientGetProxy cid) db = (.ok original,db) := by
  rw [ClientGetProxy]
  cases found : ProxyOf cid db with
  | none =>
    have asked : exec (hget ClientID_2_ProxyID_Hashtable (ByteWriter.uuid cid {}).buf) db = (.ok none,db) := by
      rw [← found]
      rfl
    exact ⟨none,exec_bind_ok _ _ _ _ _ asked⟩
  | some value =>
    have asked : exec (hget ClientID_2_ProxyID_Hashtable (ByteWriter.uuid cid {}).buf) db = (.ok (some value),db) := by
      rw [← found]
      rfl
    obtain ⟨j,_,_,rfl⟩ := registering.proxies cid value found
    have decoded := NetworkIdentity.Deserialize_written (registration j).proxy [] (by decide)
    rw [List.append_nil] at decoded
    rw [exec_bind_ok _ _ _ _ _ asked]
    exact ⟨_,exec_bind_ok _ _ _ _ _ ((exec_within _ _ _).trans (by rw [decoded]))⟩

/-- A registration ends with its client listed, or with the fault of an address or a proxy
that does not do. -/
def ends (r : Registration) (result : Except Fault Unit) (stage : Stage) : Prop :=
  (result = .ok () ∧ stage = .listed) ∨
    (∃ fault, result = .error fault) ∧ stage = .refused ∧ ¬ (r.client.ip.IsIPv4 ∧ r.proxy.type = .eProxy)

theorem upholds_script : Upholds (Registering registration) k (ends (registration k)) (registration k).script .begun := by
  refine upholds_bind (upholds_query fun stages db here registering => ?_)
  by_cases address : (registration k).client.ip.IsIPv4
  swap
  · rw [exec_RegisterClient,if_neg address]
    exact ⟨.refused,registering.goes_on rfl rfl (fun _ found => found) (.inr (.inl here)) (.inr (.inl rfl)),
      .inr ⟨⟨_,rfl⟩,rfl,fun both => address both.1⟩⟩
  refine ⟨.addressed,registering.registers here address,?_⟩
  rw [exec_RegisterClient,if_pos address]
  refine upholds_bind (upholds_query fun stages db here registering => ?_)
  by_cases typed : (registration k).proxy.type = .eProxy
  swap
  · rw [exec_assert,if_neg typed]
    exact ⟨.refused,registering.goes_on rfl rfl (fun _ found => found) (.inr (.inr here)) (.inr (.inl rfl)),
      .inr ⟨⟨_,rfl⟩,rfl,fun both => typed both.2⟩⟩
  rw [exec_assert,if_pos typed]
  refine ⟨.addressed,by rwa [← here,Function.update_eq_self],upholds_bind (upholds_query fun stages db here registering => ?_)⟩
  obtain ⟨original,found⟩ := registering.finds (registration k).client.ID
  rw [found]
  refine ⟨.addressed,by rwa [← here,Function.update_eq_self],upholds_bind (upholds_query fun stages db here registering => ?_)⟩
  have removed := registering.removes here original
  have returned : (exec (RemoveOriginal original (registration k).client.ID) db).1 = .ok () := by cases original <;> rfl
  refine ⟨.removed,removed,?_⟩
  rw [returned]
  refine upholds_bind (upholds_query fun stages db here registering => ⟨.proxied,registering.sets_proxy here,?_⟩)
  exact upholds_query fun stages db here registering => ⟨.listed,registering.lists here,.inl ⟨rfl,rfl⟩⟩

end Commands

section Runs
variable {κ : Type} [DecidableEq κ] {registration : κ → Registration} {store : Database} {threads : Threads κ Database Unit}

/-- Whatever the order of the commands, a client is in the set only with a proxy in the hash,
which a registration of it has set; once every registration of a client that has begun has
ended, and one of them has returned, it has an address, the proxy of one of them, and its place
in the set. A registration with an address and a proxy that do returns. -/
theorem clients_listed (unlisted : store.members ProxyID_2_ClientIDs_Set = [])
    (unproxied : store.hash ClientID_2_ProxyID_Hashtable = [])
    (reached : (System.stepping {store} (Threads.move fun k => (registration k).script)).Reachable threads) :
    (∀ member ∈ threads.store.members ProxyID_2_ClientIDs_Set, ∃ k, threads.script k ≠ none ∧
      (registration k).client.ID.data = member ∧ (ProxyOf (registration k).client.ID threads.store).isSome) ∧
    (∀ cid value, ProxyOf cid threads.store = some value → ∃ k, threads.script k ≠ none ∧
      (registration k).client.ID = cid ∧ value = ((registration k).proxy.Serialize {}).buf) ∧
    (∀ k, threads.Ended k → (registration k).client.ip.IsIPv4 → (registration k).proxy.type = .eProxy →
      threads.script k = some (ended (.ok ()))) ∧
    ∀ k, threads.script k = some (ended (.ok ())) →
      (∀ j, (registration j).client.ID = (registration k).client.ID → threads.script j ≠ none → threads.Ended j) →
      ∃ j, threads.script j ≠ none ∧ (registration j).client.ID = (registration k).client.ID ∧
        Assigned (registration k).client.ID (registration j).proxy threads.store := by
  obtain ⟨stages,covers⟩ := Threads.covered (Registering registration) Stage.idle
    (fun k => ends (registration k)) (.fresh unlisted unproxied)
    (fun threads stages k covers _ unbegun => ⟨.begun,covers.holds.goes_on rfl rfl (fun _ found => found)
      (.inl (covers.idle k unbegun)) (.inl rfl),upholds_script⟩) reached
  have registering := covers.holds
  have begun (k : κ) (come : stages k = .proxied ∨ stages k = .listed) : threads.script k ≠ none := by
    intro unbegun
    simp [covers.idle k unbegun] at come
  have returned (k : κ) (stopped : threads.script k = some (ended (.ok ()))) : stages k = .listed := by
    rcases covers.upheld k _ stopped with ⟨_,listed⟩ | ⟨⟨_,fault⟩,_,_⟩
    · exact listed
    · cases fault
  refine ⟨fun member inside => ?_,fun cid value found => ?_,fun k stopped address typed => ?_,fun k stopped others => ?_⟩
  · obtain ⟨k,listed,mine⟩ := registering.members member inside
    exact ⟨k,begun k (.inr listed),mine,registering.proxied k (.inr listed)⟩
  · obtain ⟨k,come,mine,written⟩ := registering.proxies cid value found
    exact ⟨k,begun k come,mine,written⟩
  · obtain ⟨result,script,⟨rfl,_⟩ | ⟨_,_,bad⟩⟩ := covers.finished stopped
    · exact script
    · exact absurd ⟨address,typed⟩ bad
  · have listed := returned k stopped
    obtain ⟨value,found⟩ := Option.isSome_iff_exists.mp (registering.proxied k (.inr listed))
    obtain ⟨j,come,same,written⟩ := registering.proxies _ _ found
    refine ⟨j,begun j come,same,?_,found.trans (congrArg some written),?_⟩
    · exact registering.addresses k (by simp [listed]) (by simp [listed]) (by simp [listed])
    · refine (registering.listed k listed).resolve_right ?_
      rintro ⟨i,client,going⟩
      have started : threads.script i ≠ none := by
        intro unbegun
        simp [covers.idle i unbegun] at going
      obtain ⟨_,_,⟨_,stopped⟩ | ⟨_,stopped,_⟩⟩ := covers.finished (others i client started)
      · simp [stopped] at going
      · simp [stopped] at going

section Moving

/-- A client that two proxies register. -/
def moving (second : Bool) : Registration where
  client := {ip := {m_ipv6 := List.replicate 10 0 ++ [255,255,10,0,0,1]},ID := (proxy 3).ID}
  proxy := proxy (if second then 2 else 1)

def moves : Move Bool → Threads Bool Database Unit → Option (Threads Bool Database Unit) :=
  Threads.move fun second => (moving second).script

/-- The second proxy looks for an earlier one before the first has set itself, and sets itself last. -/
def moved : Threads Bool Database Unit :=
  (System.replay moves ([.begin false,.begin true] ++ List.replicate 3 (.command true) ++ List.replicate 6 (.command false) ++
    List.replicate 3 (.command true)) {store := Database.empty}).get rfl

theorem clients_listed_moved : ∃ second : Bool, Assigned (proxy 3).ID (proxy (if second then 2 else 1)) moved.store := by
  have reached : (System.stepping {store := Database.empty} moves).Reachable moved :=
    System.stepping_replay (fun _ _ _ => trivial) System.stepping_start (Option.some_get _).symm
  obtain ⟨_,_,_,assigned⟩ := clients_listed rfl rfl reached
  obtain ⟨second,_,_,there⟩ := assigned false rfl fun second _ _ => by cases second <;> exact ⟨_,rfl⟩
  exact ⟨second,there⟩

end Moving

end Runs

end AtlasNet.ClientManifest
