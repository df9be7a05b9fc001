import AtlasNet.InterlinkRuns

/-! Whether the clients that are connected to a proxy have identities of their own, are
registered under them, and are reached by what is sent to them. -/
namespace AtlasNet.Interlink
open Foundation Foundation.Program

def ConnectedClient (c : Connection) : Prop := c.state = .eConnected ∧ c.target.type = .eGameClient

structure ClientsKnown [Platform] (node : Interlink) : Prop where
  distinct : node.Connections.Pairwise
    (fun a b => ConnectedClient a → ConnectedClient b → a.target.ID ≠ b.target.ID)
  assigned : ∀ c ∈ node.Connections, ConnectedClient c →
    ClientManifest.Assigned c.target.ID node.ID node.db
  reached : ∀ c ∈ node.Connections, ConnectedClient c → ∀ packet sendFlag, packet.Validate = true →
    exec (SendMessage c.target packet sendFlag) node = (.ok (),node.handOver c c.target (packet,sendFlag))

/-- `UUIDGen::Gen` yields a UUID that no entry of the table has. -/
def FreshUUID (node : Interlink) : Event → Prop
  | .connected _ Gen _ => ∀ c ∈ node.Connections, c.target.ID ≠ Gen
  | _ => True

/-- A client that connects has presented no ID, or one that is registered and assigned
to this proxy already and that no earlier entry has. -/
def Introduced (node : Interlink) : Event → Prop
  | .connected info _ _ => ∀ v, node.findHandle info.m_hConn = some v → v.IsInternal = false →
    v.target.ID.is_nil = true ∨ (ClientManifest.Assigned v.target.ID node.ID node.db ∧
      (node.findTarget v.target).any (Connection.isHandle info.m_hConn) = true)
  | _ => True

/-- No entry precedes a connected client under its identity. -/
def Routed (table : List Connection) : Prop :=
  table.Pairwise (fun a b => ConnectedClient b → (a.target == b.target) = false)

def AllAssigned (node : Interlink) : Prop :=
  ∀ c ∈ node.Connections, ConnectedClient c → ClientManifest.Assigned c.target.ID node.ID node.db

section Tables
variable {node next : Interlink} {event : Event} {table : List Connection}

theorem not_client_of_state {c : Connection} (state : c.state ≠ .eConnected) : ¬ ConnectedClient c :=
  fun client => state client.1

theorem not_client_of_internal {c : Connection} (internal : c.IsInternal = true) : ¬ ConnectedClient c := by
  intro client
  have external := (NetworkIdentity.external_iff c.target).mpr client.2
  exact Bool.false_ne_true (external.symm.trans internal)

theorem routed_append {c : Connection} (routed : Routed table) (other : ¬ ConnectedClient c) : Routed (table ++ [c]) := by
  refine List.pairwise_append.mpr ⟨routed,List.pairwise_singleton _ _,?_⟩
  intro a _ b last client
  rw [List.mem_singleton.mp last] at client
  exact absurd client other

theorem ID_apart {a b : NetworkIdentity} (different : a.ID ≠ b.ID) : (a == b) = false := by
  by_contra same
  rw [Bool.not_eq_false,NetworkIdentity.beq_iff] at same
  exact different same.2

theorem routed_contacted {h : HSteamNetConnection} (routed : Routed table) :
    Routed (Table.modify (Connection.isHandle h) (·.SetNewState .eConnecting) table) := by
  cases found : Table.find (Connection.isHandle h) table with
  | none => exact (Table.modify_absent _ found).symm ▸ routed
  | some v =>
    obtain ⟨before,after,rfl,chosen,none⟩ := Table.find_split found
    rw [Table.modify_split _ chosen none]
    refine Table.pairwise_replace routed ?_ ?_
    · exact fun a _ _ client => absurd client (not_client_of_state (by simp))
    · exact fun b _ apart client => apart client

theorem routed_generated {results : List (Option HSteamNetConnection)} (routed : Routed table) :
    Routed (GenerateNewConnections_loop table results) := by
  have column := loop_column (fun c => (c.state,c.target)) (fun _ _ => rfl) table results
  have paired (l : List Connection) : Routed l ↔ (l.map (fun c => (c.state,c.target))).Pairwise
      (fun a b => b.1 = .eConnected ∧ b.2.type = .eGameClient → (a.2 == b.2) = false) := by
    rw [List.pairwise_map]
    exact Iff.rfl
  rw [paired,column,← paired]
  exact routed

/-- Where the lookup of a target yields the entry of a handle, no entry before that one
has the target. -/
theorem first_of_target {before after : List Connection} {v : Connection} {h : HSteamNetConnection}
    (none : ∀ c ∈ before, c.isHandle h = false) (target : NetworkIdentity)
    (first : (Table.find (Connection.isTarget target) (before ++ v::after)).any (Connection.isHandle h) = true) :
    ∀ a ∈ before, (a.target == target) = false := by
  intro a member
  by_contra same
  rw [Bool.not_eq_false] at same
  cases found : before.find? (Connection.isTarget target) with
  | none =>
    have unlike := List.find?_eq_none.mp found a member
    exact unlike same
  | some c =>
    rw [Table.find,List.find?_append,found,Option.some_or,Option.any_some,
      none c (List.mem_of_find?_eq_some found)] at first
    cases first

theorem routed_welcomed {info : CallbackInfo} {Gen : UUID} {outcome : Option Fault} {v : Connection}
    (found : node.findHandle info.m_hConn = some v) (unseen : FreshUUID node (.connected info Gen outcome))
    (introduced : Introduced node (.connected info Gen outcome)) (routed : Routed node.Connections) :
    Routed (Table.modify (Connection.isHandle info.m_hConn) (welcomed v Gen) node.Connections) := by
  have asked := introduced v found
  obtain ⟨before,after,split,chosen,none⟩ := Table.find_split found
  simp only [FreshUUID,Interlink.findTarget,split] at unseen asked routed ⊢
  rw [Table.modify_split _ chosen none]
  cases which : v.IsInternal with
  | true =>
    have kept : welcomed v Gen v = v.SetNewState .eConnected := if_neg (fun unnamed => by simp [which] at unnamed)
    rw [kept]
    refine Table.pairwise_replace routed ?_ ?_
    · exact fun a _ _ client => absurd client (not_client_of_internal which)
    · exact fun b _ apart client => apart client
  | false =>
    by_cases unnamed : v.target.ID.is_nil = true
    · have renamed : (welcomed v Gen v).target = ⟨v.target.type,Gen⟩ := by
        rw [welcomed,if_pos ⟨which,unnamed⟩]
      refine Table.pairwise_replace routed ?_ ?_
      · intro a member _ _
        rw [renamed]
        exact ID_apart (unseen a (by simp [member]))
      · intro b member _ _
        rw [renamed]
        exact ID_apart (Ne.symm (unseen b (by simp [member])))
    · have kept : welcomed v Gen v = v.SetNewState .eConnected := if_neg (fun both => unnamed both.2)
      obtain ⟨_,first⟩ := (asked which).resolve_left unnamed
      rw [kept]
      refine Table.pairwise_replace routed ?_ ?_
      · exact fun a member _ _ => first_of_target none v.target first a member
      · exact fun b _ apart client => apart client

theorem Changed.routed (changed : Changed node event table) (unseen : FreshUUID node event)
    (introduced : Introduced node event) (routed : Routed node.Connections) : Routed table := by
  cases changed with
  | same => exact routed
  | dialled => exact routed_append routed (not_client_of_state (by simp [outgoing]))
  | erased => exact routed.sublist (Table.erase_sublist _ _)
  | generated => exact routed_generated routed
  | contacted => exact routed_contacted routed
  | accepted => exact routed_append routed (not_client_of_state (by simp [incoming]))
  | connected info Gen outcome v found => exact routed_welcomed found unseen introduced routed

theorem mem_of_client {c added : Connection} (unconnected : ¬ ConnectedClient added) {table : List Connection}
    (member : c ∈ table ++ [added]) (client : ConnectedClient c) : c ∈ table := by
  rcases List.mem_append.mp member with old | new
  · exact old
  · rw [List.mem_singleton.mp new] at client
    exact absurd client unconnected

theorem Changed.client (changed : Changed node event table)
    (other : ∀ info Gen outcome, event ≠ .connected info Gen outcome) {c : Connection} (member : c ∈ table)
    (client : ConnectedClient c) :
    ∃ old ∈ node.Connections, ConnectedClient old ∧ old.target = c.target := by
  cases changed with
  | same => exact ⟨c,member,client,rfl⟩
  | dialled => exact ⟨c,mem_of_client (not_client_of_state (by simp [outgoing])) member client,client,rfl⟩
  | erased => exact ⟨c,(Table.erase_sublist _ _).subset member,client,rfl⟩
  | generated results =>
    obtain ⟨old,inside,result,rfl⟩ := mem_loop _ _ c member
    cases result <;> exact ⟨old,inside,client,rfl⟩
  | contacted =>
    rcases Table.mem_modify member with old | ⟨old,_,rfl⟩
    · exact ⟨c,old,client,rfl⟩
    · cases client.1
  | accepted => exact ⟨c,mem_of_client (not_client_of_state (by simp [incoming])) member client,client,rfl⟩
  | connected info Gen outcome => exact absurd rfl (other info Gen outcome)

theorem assigned_servers {cid : UUID} {proxy : NetworkIdentity} {db : Redis.Database} (entries : Redis.Hash)
    (assigned : ClientManifest.Assigned cid proxy db) :
    ClientManifest.Assigned cid proxy (db.withHash ServerRegistry.HashTableNameID_IP entries) := by
  have clients : ClientManifest.ClientID_2_IP_Hashtable ≠ ServerRegistry.HashTableNameID_IP := by decide
  have proxies : ClientManifest.ClientID_2_ProxyID_Hashtable ≠ ServerRegistry.HashTableNameID_IP := by decide
  refine ⟨?_,?_,assigned.listed⟩
  · rw [Redis.withHash_other _ _ _ _ clients]
    exact assigned.registered
  · rw [Redis.withHash_other _ _ _ _ proxies]
    exact assigned.proxied

theorem client_found (routed : Routed node.Connections) {c : Connection} (member : c ∈ node.Connections)
    (client : ConnectedClient c) : node.findTarget c.target = some c := by
  obtain ⟨before,after,split⟩ := List.append_of_mem member
  rw [Routed,split,List.pairwise_append] at routed
  rw [findTarget,split,Table.find,List.find?_append]
  have none : before.find? (Connection.isTarget c.target) = none := by
    apply List.find?_eq_none.mpr
    intro a inside same
    have apart := routed.2.2 a inside c List.mem_cons_self client
    exact Bool.false_ne_true (apart.symm.trans same)
  rw [none,Option.none_or]
  exact List.find?_cons_of_pos BEq.rfl

end Tables

section Steps
variable [Platform] {node next : Interlink} {event : Event}

theorem step_keeps_assigned (ran : exec (act event) node = (.ok (),next))
    (other : ∀ info Gen outcome, event ≠ .connected info Gen outcome) {cid : UUID} {proxy : NetworkIdentity}
    (assigned : ClientManifest.Assigned cid proxy node.db) : ClientManifest.Assigned cid proxy next.db := by
  cases event with
  | send who packet sendFlag =>
    rw [(SendMessage_returned ran).2.kept.db]
    exact assigned
  | connected info Gen outcome => exact absurd rfl (other info Gen outcome)
  | establishTo id =>
    obtain ⟨_,established⟩ := discard_returned ran
    cases EstablishConnectionTo_returned established <;> exact assigned
  | establishAtIP id address =>
    obtain ⟨_,established⟩ := discard_returned ran
    rcases EstablishConnectionAtIP_returned established with rfl | ⟨_,rfl⟩ <;> exact assigned
  | connecting info accepted =>
    rcases CallbackOnConnecting_returned ran with ⟨_,_,rfl⟩ | ⟨_,rfl⟩ | ⟨_,_,_,_,rfl⟩ <;> exact assigned
  | receive messages =>
    rw [ReceiveMessages_returned ran]
    exact assigned
  | close id =>
    rw [CloseConnectionTo_returned ran]
    exact assigned
  | closedByPeer h =>
    rw [CallbackOnClosedByPear_returned ran]
    exact assigned
  | servers entries =>
    obtain rfl := (Prod.mk.inj ran).2
    exact assigned_servers entries assigned
  | _ =>
    obtain rfl := (Prod.mk.inj ran).2
    exact assigned

theorem Greeted.assigned_kept {v : Connection} {h : HSteamNetConnection} {Gen : UUID} {cid : UUID}
    {proxy : NetworkIdentity} (greeted : Greeted v h Gen node next) (apart : cid ≠ Gen)
    (assigned : ClientManifest.Assigned cid proxy node.db) : ClientManifest.Assigned cid proxy next.db := by
  cases greeted with
  | known => exact assigned
  | assigned middle registered stored external unnamed valid sent register assign =>
    exact ClientManifest.AssignProxyClient_keeps apart assign (ClientManifest.RegisterClient_keeps register assigned)

theorem Greeted.assigned_new {v : Connection} {h : HSteamNetConnection} {Gen : UUID}
    (greeted : Greeted v h Gen node next) (external : v.IsInternal = false) (unnamed : v.target.ID.is_nil = true) :
    ClientManifest.Assigned Gen node.ID next.db := by
  cases greeted with
  | known identified =>
    rcases identified with internal | named
    · exact absurd (external.symm.trans internal) Bool.false_ne_true
    · exact absurd (named.symm.trans unnamed) Bool.false_ne_true
  | assigned middle registered stored _ _ valid sent register assign =>
    exact ClientManifest.AssignProxyClient_assigns (ClientManifest.RegisterClient_registers register) assign

theorem Greeted.db_known {v : Connection} {h : HSteamNetConnection} {Gen : UUID}
    (greeted : Greeted v h Gen node next) (named : ¬ v.target.ID.is_nil = true) : next.db = node.db := by
  cases greeted with
  | known => rfl
  | assigned middle registered stored external unnamed => exact absurd unnamed named

theorem welcomed_assigned {info : CallbackInfo} {Gen : UUID} {outcome : Option Fault} {v : Connection}
    (found : node.findHandle info.m_hConn = some v) (introduced : Introduced node (.connected info Gen outcome))
    (greeted : Greeted (v.SetNewState .eConnected) info.m_hConn Gen
      (node.modifyHandle info.m_hConn (·.SetNewState .eConnected)) next)
    (client : ConnectedClient (welcomed v Gen v)) :
    ClientManifest.Assigned (welcomed v Gen v).target.ID node.ID next.db := by
  have external : v.IsInternal = false := by
    rw [← IsInternal_welcomed v Gen]
    exact (NetworkIdentity.external_iff _).mpr client.2
  by_cases unnamed : v.target.ID.is_nil = true
  · rw [welcomed,if_pos ⟨external,unnamed⟩]
    exact greeted.assigned_new external unnamed
  · rw [welcomed,if_neg (fun both => unnamed both.2),greeted.db_known unnamed]
    exact ((introduced v found external).resolve_left unnamed).1

theorem connected_assigned {info : CallbackInfo} {Gen : UUID} {outcome : Option Fault} (sound : Sound node)
    (unseen : FreshUUID node (.connected info Gen outcome))
    (introduced : Introduced node (.connected info Gen outcome)) (assigned : AllAssigned node)
    (ran : exec (CallbackOnConnected info Gen outcome) node = (.ok (),next)) : AllAssigned next := by
  obtain ⟨v,greeted,found,greeting,_,same,kept⟩ := connected_changes sound ran
  intro c member client
  have ID : greeted.ID = node.ID := greeting.fields.1
  rw [kept.ID,ID,kept.db]
  rw [same,greeting.table] at member
  rcases Table.mem_modify member with old | ⟨entry,chosen,rfl⟩
  · exact greeting.assigned_kept (unseen c old) (assigned c old client)
  · obtain rfl : v = entry := Option.some.inj (found.symm.trans chosen)
    exact welcomed_assigned found introduced greeting client

theorem step_assigned (sound : Sound node) (unseen : FreshUUID node event) (introduced : Introduced node event)
    (assigned : AllAssigned node) (ran : exec (act event) node = (.ok (),next)) : AllAssigned next := by
  by_cases connects : ∃ info Gen outcome, event = .connected info Gen outcome
  · obtain ⟨info,Gen,outcome,rfl⟩ := connects
    exact connected_assigned sound unseen introduced assigned ran
  · have other : ∀ info Gen outcome, event ≠ .connected info Gen outcome :=
      fun info Gen outcome same => connects ⟨info,Gen,outcome,same⟩
    obtain ⟨changed,_,_,ID⟩ := step_changes sound ran
    intro c member client
    obtain ⟨old,inside,same,target⟩ := changed.client other member client
    rw [ID,← target]
    exact step_keeps_assigned ran other (assigned old inside same)

theorem clientsKnown (sound : Sound node) (routed : Routed node.Connections) (assigned : AllAssigned node) :
    ClientsKnown node := by
  refine ⟨routed.imp ?_,assigned,?_⟩
  · intro a b apart left right same
    have types : a.target.type = b.target.type := left.2.trans right.2.symm
    have equal : (a.target == b.target) = true := (NetworkIdentity.beq_iff _ _).mpr ⟨by rw [types],same⟩
    exact Bool.false_ne_true ((apart right).symm.trans equal)
  · intro c member client packet sendFlag valid
    exact exec_SendMessage_connected sound.initialised valid (client_found routed member client) client.1

/-- As long as clients connect without an ID, or come back under one that is theirs,
every connected client has its own identity, is registered, and is reached. -/
theorem clients_known {run : Run} (reached : interlink.ReachableWhile
    (fun run event => FreshUUID run.node event ∧ Introduced run.node event) run) : ClientsKnown run.node := by
  have invariant : Sound run.node ∧ Routed run.node.Connections ∧ AllAssigned run.node := by
    apply reached.invariant (fun run => Sound run.node ∧ Routed run.node.Connections ∧ AllAssigned run.node)
    · intro state start
      have none := start.1.disconnected
      refine ⟨start.1.sound,?_,fun c member => ?_⟩
      · rw [none]
        exact List.Pairwise.nil
      · rw [none] at member
        cases member
    · intro state event next before meets taken
      obtain ⟨sound,routed,assigned⟩ := before
      have changed := (step_changes sound taken.2.1).1
      exact ⟨step_sound sound taken.1 taken.2.1,changed.routed meets.1 meets.2 routed,
        step_assigned sound meets.1 meets.2 assigned taken.2.1⟩
  exact clientsKnown invariant.1 invariant.2.1 invariant.2.2

end Steps

def playerAddress : IPAddress := {m_ipv6 := List.replicate 10 0 ++ [255,255,10,0,0,7],m_port := 25565}

def uuid (byte : UInt8) : UUID := ⟨List.replicate 16 byte,List.length_replicate⟩

/-- What a client that presents the ID calls back with. -/
def visit (h : HSteamNetConnection) (ID : UUID) : CallbackInfo :=
  contact h (.MakeIDGameClient ID) playerAddress

def arriving (h : HSteamNetConnection) (ID : UUID) (node : Interlink) : Interlink :=
  node.insert (incoming (visit h ID) (.MakeIDGameClient ID))

def lobby : Interlink := arriving 1 .nil (started ⟨.eProxy,.nil⟩).node

def welcome : Program Interlink Unit := @CallbackOnConnected fnvPlatform (visit 1 .nil) (uuid 1) none

def player : Interlink := (exec welcome lobby).2

theorem welcome_returns : exec welcome lobby = (.ok (),player) := by
  have returns : (exec welcome lobby).1.toBool = true := by decide +kernel
  refine Prod.ext ?_ rfl
  cases ended : (exec welcome lobby).1 with
  | ok => rfl
  | error fault =>
    rw [ended] at returns
    cases returns

theorem clients_known_player : (∃ c ∈ player.Connections, ConnectedClient c) ∧ @ClientsKnown fnvPlatform player := by
  let _ := fnvPlatform
  constructor
  · have client : player.Connections.any (fun c => c.state = .eConnected ∧ c.target.type = .eGameClient) = true := by
      decide +kernel
    obtain ⟨c,member,connected⟩ := List.any_eq_true.mp client
    exact ⟨c,member,by simpa [ConnectedClient] using connected⟩
  · refine @clients_known fnvPlatform {node := player} ?_
    refine .step _ (Event.connected (visit 1 .nil) (uuid 1) none) _ (.step _ (Event.connecting (visit 1 .nil) true) _
      (.initial _ (started_initial ⟨.eProxy,.nil⟩)) ⟨trivial,trivial⟩ (step_contact rfl)) ⟨?_,?_⟩ ?_
    · intro c member same
      rw [List.mem_singleton.mp member] at same
      exact absurd same (by decide)
    · intro v found _
      have first : v = incoming (visit 1 .nil) (.MakeIDGameClient .nil) := (Option.some.inj found).symm
      rw [first]
      exact .inl rfl
    · exact step_of trivial welcome_returns

def joined (h : HSteamNetConnection) (ID : UUID) (node : Interlink) : Interlink :=
  (arriving h ID node).modifyHandle h (·.SetNewState .eConnected)

theorem exec_CallbackOnConnected_joined [Platform] {node : Interlink} {h : HSteamNetConnection} {ID : UUID}
    (unknown : node.findHandle h = none) (named : ID.is_nil = false) (unqueued : node.QueuedPacketsOnConnect = {})
    (Gen : UUID) :
    exec (CallbackOnConnected (visit h ID) Gen none) (arriving h ID node) = (.ok (),joined h ID node) := by
  let c := incoming (visit h ID) (.MakeIDGameClient ID)
  have same : c.isHandle h = true := (Connection.isHandle_iff h c).mpr rfl
  have found : (arriving h ID node).findHandle h = some c := by
    rw [findHandle,arriving,insert,Table.find,List.find?_append,← Table.find,← findHandle,unknown,Option.none_or]
    exact List.find?_cons_of_pos same
  have silent : greet (c.SetNewState .eConnected) h Gen none = pure () := by
    have external : ¬ (c.SetNewState .eConnected).IsInternal = true :=
      fun internal => not_client_of_internal internal ⟨rfl,rfl⟩
    have identified : ¬ (c.SetNewState .eConnected).target.ID.is_nil = true :=
      fun nil => Bool.false_ne_true (named.symm.trans nil)
    rw [greet,if_neg external,OnClientConnected,if_neg identified]
    rfl
  have after : (joined h ID node).findHandle h = some (c.SetNewState .eConnected) := by
    rw [findHandle,joined,modifyHandle,Table.find_modify]
    · exact congrArg (Option.map _) found
    · intro entry chosen
      exact (Connection.isHandle_iff h _).mpr ((Connection.isHandle_iff h entry).mp (Table.find_chosen chosen))
  have empty : (joined h ID node).queueOf (c.SetNewState .eConnected).target = [] := by
    have none : (joined h ID node).QueuedPacketsOnConnect = {} := unqueued
    rw [queueOf,none]
    rfl
  have flushes : exec (CallbackOnConnected (visit h ID) Gen none) (arriving h ID node) =
      exec (FlushQueue h) (joined h ID node) := exec_CallbackOnConnected_silent found silent
  exact flushes.trans (exec_FlushQueue_empty after empty)

def twins : Interlink := joined 2 (uuid 7) (joined 1 (uuid 7) (started ⟨.eProxy,.nil⟩).node)

theorem presented_ID_clashes :
    (@interlink fnvPlatform).ReachableWhile (fun run event => FreshUUID run.node event) {node := twins} ∧
      ¬ @ClientsKnown fnvPlatform twins := by
  let _ := fnvPlatform
  constructor
  · have joins {node : Interlink} {h : HSteamNetConnection} (Gen : UUID)
        (reached : interlink.ReachableWhile (fun run event => FreshUUID run.node event) {node})
        (unknown : node.findHandle h = none) (unqueued : node.QueuedPacketsOnConnect = {})
        (unseen : ∀ c ∈ (arriving h (uuid 7) node).Connections, c.target.ID ≠ Gen) :
        interlink.ReachableWhile (fun run event => FreshUUID run.node event) {node := joined h (uuid 7) node} := by
      refine .step _ (Event.connected (visit h (uuid 7)) Gen none) _
        (.step _ (Event.connecting (visit h (uuid 7)) true) _ reached trivial (step_contact unknown)) unseen ?_
      exact step_of trivial (exec_CallbackOnConnected_joined unknown rfl unqueued Gen)
    have first := joins (uuid 8) (.initial _ (started_initial ⟨.eProxy,.nil⟩)) (h := 1) rfl rfl (by decide +kernel)
    exact joins (uuid 9) first rfl rfl (by decide +kernel)
  · intro known
    have distinct := List.pairwise_cons.mp known.distinct
    exact distinct.1 _ List.mem_cons_self ⟨rfl,rfl⟩ ⟨rfl,rfl⟩ rfl

end AtlasNet.Interlink
