import AtlasNet.Interlink

/-! What the functions of Interlink can have done when they return. -/
namespace AtlasNet
open Foundation Foundation.Program

namespace NetworkIdentity

theorem name_eGameClient (type : NetworkIdentityType) :
    type.enum_to_string = NetworkIdentityType.eGameClient.enum_to_string ↔ type = .eGameClient := by
  constructor
  · intro same
    by_contra different
    revert same
    change type.enum_to_string ≠ ['e','G','a','m','e','C','l','i','e','n','t']
    unfold NetworkIdentityType.enum_to_string
    rw [if_neg different]
    split_ifs <;> decide
  · rintro rfl
    rfl

theorem external_iff (id : NetworkIdentity) : id.IsInternal = false ↔ id.type = .eGameClient := by
  rw [IsInternal,decide_eq_false_iff_not,not_not]

theorem IsInternal_congr {a b : NetworkIdentity} (same : (a == b) = true) : a.IsInternal = b.IsInternal := by
  have names := ((beq_iff a b).mp same).1
  have types : a.type = .eGameClient ↔ b.type = .eGameClient := by
    rw [← name_eGameClient,← name_eGameClient,names]
  simp [IsInternal,types]

end NetworkIdentity

namespace Interlink

section Fields
variable (node : Interlink)

@[simp] theorem insert_Connections (c : Connection) : (node.insert c).Connections = node.Connections ++ [c] := rfl

@[simp] theorem modifyHandle_Connections (h : HSteamNetConnection) (f : Connection → Connection) :
    (node.modifyHandle h f).Connections = Table.modify (Connection.isHandle h) f node.Connections := rfl

end Fields

variable {node next : Interlink}

/-- The node with which an attempt to connect returns. -/
inductive Dialled (id : NetworkIdentity) (node : Interlink) : Interlink → Prop
  | left : Dialled id node node
  | inserted (address : IPAddress) (internal : id.IsInternal = true)
      (unsettled : (node.findTarget id).any settled = false) :
      Dialled id node (node.insert (outgoing id address .eInternal))

theorem exec_InternalDB {α : Type} {command : Redis.Command α} (reads : Reads command) (node : Interlink) :
    exec (InternalDB command) node = ((exec command node.db).1,node) := by
  rw [InternalDB,exec_zoom,reads node.db]

theorem Dialled.walked {id : NetworkIdentity} (dialled : Dialled id node next) : next.walked = node.walked := by
  cases dialled <;> rfl

theorem EstablishConnectionAtIP_returned {id : NetworkIdentity} {address : IPAddress} {result : Bool}
    (ran : exec (EstablishConnectionAtIP id address) node = (.ok result,next)) :
    next = node ∨ ((node.findTarget id).any settled = false ∧
      next = node.insert (outgoing id address .eExternal)) := by
  rw [EstablishConnectionAtIP,exec_get_bind] at ran
  split at ran
  · exact .inl (Prod.mk.inj ran).2.symm
  · rename_i unsettled
    exact .inr ⟨by simpa using unsettled,(Prod.mk.inj ran).2.symm⟩

theorem InternalDB_returned {α : Type} {command : Redis.Command α} {value : α}
    (ran : exec (InternalDB command) node = (.ok value,next)) :
    ∃ db, exec command node.db = (.ok value,db) ∧ next = {node with db := db} := by
  rw [InternalDB,exec_zoom] at ran
  obtain ⟨answered,rfl⟩ := Prod.mk.inj ran
  exact ⟨_,Prod.ext answered rfl,rfl⟩

def identityOf (remote : SteamNetworkingIdentity) : Except Fault NetworkIdentity :=
  match remote.GetGenericBytes with
  | some identityByteStream => (exec NetworkIdentity.Deserialize {p := identityByteStream}).1
  | none => .ok {}

theorem exec_presented {σ : Type} (remote : SteamNetworkingIdentity) (state : σ) :
    exec (presented remote) state = (identityOf remote,state) := by
  unfold presented identityOf
  cases remote.GetGenericBytes with
  | none => rfl
  | some identityByteStream => exact exec_within ..

/-- The identity that a process sets for its own connections, `SetGenericBytes`. -/
def ownIdentity (ID : NetworkIdentity) : SteamNetworkingIdentity :=
  .genericBytes (ID.Serialize {}).buf (by rw [NetworkIdentity.Serialize_length]; decide)

theorem identityOf_ownIdentity (ID : NetworkIdentity) : identityOf (ownIdentity ID) = .ok ID := by
  have read := NetworkIdentity.Deserialize_written ID [] (by decide)
  rw [List.append_nil] at read
  exact read

theorem exec_knownServer (ID : NetworkIdentity) (node : Interlink) :
    exec (knownServer ID) node =
      (.ok (decide (ID.IsInternal = true ∧ ServerRegistry.Registered ID node.db)),node) := by
  unfold knownServer
  have reads : Reads (ServerRegistry.ExistsInRegistry ID) := fun db => by rw [ServerRegistry.exec_ExistsInRegistry]
  split
  · rename_i internal
    rw [exec_InternalDB reads,ServerRegistry.exec_ExistsInRegistry]
    simp only [internal,true_and]
  · rename_i external
    simp [external]

theorem exec_CallbackOnConnecting_new {info : CallbackInfo} (accepted : Bool) {ID : NetworkIdentity}
    (unknown : node.findHandle info.m_hConn = none) (decodes : identityOf info.m_identityRemote = .ok ID) :
    exec (CallbackOnConnecting info accepted) node =
      (.ok (),if accepted then node.insert (incoming info ID) else node.closing (some info.m_hConn)) := by
  rw [CallbackOnConnecting,exec_get_bind]
  simp only [unknown]
  rw [exec_bind_ok _ _ _ _ _ ((exec_presented info.m_identityRemote node).trans (by rw [decodes]))]
  rw [exec_bind_ok _ _ _ _ _ (exec_knownServer ID node)]
  cases accepted <;> rfl

theorem exec_CallbackOnConnecting_error {info : CallbackInfo} {accepted : Bool} {fault : Fault}
    (unknown : node.findHandle info.m_hConn = none) (broken : identityOf info.m_identityRemote = .error fault) :
    exec (CallbackOnConnecting info accepted) node = (.error fault,node) := by
  rw [CallbackOnConnecting,exec_get_bind]
  simp only [unknown]
  exact exec_bind_error _ _ _ _ _ ((exec_presented info.m_identityRemote node).trans (by rw [broken]))

theorem exec_CallbackOnConnecting_known {info : CallbackInfo} {accepted : Bool} {v : Connection}
    (found : node.findHandle info.m_hConn = some v) :
    exec (CallbackOnConnecting info accepted) node =
      (.ok (),node.modifyHandle info.m_hConn (·.SetNewState .eConnecting)) := by
  rw [CallbackOnConnecting,exec_get_bind]
  simp only [found]
  rfl

/-- A callback that returns has changed the state of the entry, refused a new connection,
or stored it. -/
theorem CallbackOnConnecting_returned {info : CallbackInfo} {accepted : Bool}
    (ran : exec (CallbackOnConnecting info accepted) node = (.ok (),next)) :
    (node.findHandle info.m_hConn = none ∧ accepted = false ∧ next = node.closing (some info.m_hConn)) ∨
      ((node.findHandle info.m_hConn).isSome ∧ next = node.modifyHandle info.m_hConn (·.SetNewState .eConnecting)) ∨
      ∃ ID, node.findHandle info.m_hConn = none ∧ identityOf info.m_identityRemote = .ok ID ∧
        accepted = true ∧ next = node.insert (incoming info ID) := by
  cases found : node.findHandle info.m_hConn with
  | some v =>
    rw [exec_CallbackOnConnecting_known found] at ran
    exact .inr (.inl ⟨rfl,(Prod.mk.inj ran).2.symm⟩)
  | none =>
    cases decodes : identityOf info.m_identityRemote with
    | error fault =>
      rw [exec_CallbackOnConnecting_error found decodes] at ran
      cases (Prod.mk.inj ran).1
    | ok ID =>
      rw [exec_CallbackOnConnecting_new _ found decodes] at ran
      cases accepted with
      | false => exact .inl ⟨rfl,rfl,(Prod.mk.inj ran).2.symm⟩
      | true => exact .inr (.inr ⟨ID,rfl,rfl,rfl,(Prod.mk.inj ran).2.symm⟩)

theorem exec_CallbackOnClosedByPear (h : HSteamNetConnection) (node : Interlink) :
    exec (CallbackOnClosedByPear h) node =
      (.ok (),if (node.findHandle h).isSome then (node.closing (some h)).eraseHandle h else node) := by
  rw [CallbackOnClosedByPear,exec_get_bind]
  cases node.findHandle h <;> rfl

theorem exec_CloseConnectionTo (id : NetworkIdentity) (node : Interlink) :
    exec (CloseConnectionTo id) node =
      (.ok (),((node.findTarget id).map (fun it => (node.closing it.SteamConnection).eraseTarget id)).getD node) := by
  rw [CloseConnectionTo,exec_get_bind]
  cases node.findTarget id <;> rfl

theorem CloseConnectionTo_returned {id : NetworkIdentity} (ran : exec (CloseConnectionTo id) node = (.ok (),next)) :
    next = {node with Connections := next.Connections,closed := next.closed} := by
  obtain rfl := (Prod.mk.inj ((exec_CloseConnectionTo id node).symm.trans ran)).2
  cases node.findTarget id <;> rfl

theorem CallbackOnClosedByPear_returned {h : HSteamNetConnection}
    (ran : exec (CallbackOnClosedByPear h) node = (.ok (),next)) :
    next = {node with Connections := next.Connections,closed := next.closed} := by
  obtain rfl := (Prod.mk.inj ((exec_CallbackOnClosedByPear h node).symm.trans ran)).2
  split <;> rfl

/-- What sending leaves as it is. -/
structure Kept (node next : Interlink) : Prop where
  ID : next.ID = node.ID
  IsInit : next.IsInit = node.IsInit
  walked : next.walked = node.walked
  db : next.db = node.db
  closed : next.closed = node.closed

theorem Kept.trans {middle : Interlink} (before : Kept node middle) (after : Kept middle next) : Kept node next :=
  ⟨after.ID.trans before.ID,after.IsInit.trans before.IsInit,after.walked.trans before.walked,
    after.db.trans before.db,after.closed.trans before.closed⟩

theorem target_present {v : Connection} (allSettled : ∀ c ∈ node.Connections, settled c = true)
    (member : v ∈ node.Connections) : (node.findTarget v.target).any settled = true := by
  cases found : node.findTarget v.target with
  | none =>
    have absent := Table.find_none.mp found v member
    simp [Connection.isTarget] at absent
  | some c => exact allSettled c (Table.find_member found)

def welcomed (v : Connection) (Gen : UUID) (c : Connection) : Connection :=
  if v.IsInternal = false ∧ v.target.ID.is_nil = true then
    {c.SetNewState .eConnected with target := ⟨v.target.type,Gen⟩}
  else c.SetNewState .eConnected

theorem SteamConnection_welcomed (v : Connection) (Gen : UUID) (c : Connection) :
    (welcomed v Gen c).SteamConnection = c.SteamConnection := by
  unfold welcomed
  split <;> rfl

theorem IsInternal_welcomed (v : Connection) (Gen : UUID) : (welcomed v Gen v).IsInternal = v.IsInternal := by
  unfold welcomed
  split
  · rename_i unnamed
    rw [unnamed.1]
    exact (NetworkIdentity.external_iff _).mpr ((NetworkIdentity.external_iff _).mp unnamed.1)
  · rfl

variable [Platform]

/-- The node with which a call of `SendMessage` returns. -/
inductive Sent (who : NetworkIdentity) (message : Outgoing) (node : Interlink) : Interlink → Prop
  | handed (c : Connection) (found : node.findTarget who = some c) (connected : c.state = .eConnected) :
      Sent who message node (node.handOver c who message)
  | queued (middle : Interlink) (waiting : ∀ c, node.findTarget who = some c → c.state ≠ .eConnected)
      (dialled : Dialled who node middle) (unwalked : node.walked.any (· == ⟨who⟩) = false) :
      Sent who message node (middle.enqueue who message)

theorem reads_GetIPOfID_retry (id : NetworkIdentity) (tries : Nat) (IP : Option IPAddress) :
    Reads (GetIPOfID_retry id tries IP) := by
  induction tries generalizing IP with
  | zero => exact fun _ => rfl
  | succ tries ih =>
    cases IP with
    | some IP => exact fun _ => rfl
    | none =>
      refine reads_bind (fun node => ?_) (fun IP => ih IP)
      rw [exec_InternalDB (ServerRegistry.reads_GetIPOfID id)]

theorem EstablishConnectionTo_new_returned {id : NetworkIdentity} {result : Bool}
    (unsettled : (node.findTarget id).any settled = false)
    (ran : exec (EstablishConnectionTo_new id) node = (.ok result,next)) : Dialled id node next := by
  unfold EstablishConnectionTo_new at ran
  split at ran
  · rename_i internal
    obtain ⟨first,middle,asked,ran⟩ := bind_returned _ _ _ _ _ ran
    obtain rfl : node = middle := by
      rw [exec_InternalDB (ServerRegistry.reads_GetIPOfID id)] at asked
      exact (Prod.mk.inj asked).2
    obtain ⟨IP,middle,retried,ran⟩ := bind_returned _ _ _ _ _ ran
    obtain rfl : node = middle := by
      have reads := reads_GetIPOfID_retry id 5 first node
      rw [retried] at reads
      exact reads.symm
    cases IP with
    | none =>
      obtain ⟨entries,middle,listed,ran⟩ := bind_returned _ _ _ _ _ ran
      rw [exec_InternalDB ServerRegistry.reads_GetServers] at listed
      obtain rfl := (Prod.mk.inj listed).2
      obtain rfl := (Prod.mk.inj ran).2
      exact .left
    | some address =>
      obtain rfl := (Prod.mk.inj ran).2
      exact .inserted address internal unsettled
  · split at ran <;> obtain rfl := (Prod.mk.inj ran).2 <;> exact .left

theorem EstablishConnectionTo_returned {id : NetworkIdentity} {result : Bool}
    (ran : exec (EstablishConnectionTo id) node = (.ok result,next)) : Dialled id node next := by
  rw [EstablishConnectionTo,exec_get_bind,exec_assert_bind] at ran
  split at ran
  · split at ran
    · obtain rfl := (Prod.mk.inj ran).2
      exact .left
    · rename_i unsettled
      exact EstablishConnectionTo_new_returned (by simpa using unsettled) ran
  · cases (Prod.mk.inj ran).1

theorem QueueMessageOnConnect_returned {who : NetworkIdentity} {message : Outgoing}
    (ran : exec (QueueMessageOnConnect who message) node = (.ok (),next)) :
    node.walked.any (· == ⟨who⟩) = false ∧ next = node.enqueue who message := by
  rw [QueueMessageOnConnect,exec_get_bind,exec_throwIf] at ran
  split at ran
  · cases (Prod.mk.inj ran).1
  · rename_i unwalked
    exact ⟨by simpa using unwalked,(Prod.mk.inj ran).2.symm⟩

theorem SendMessage_returned {who : NetworkIdentity} {packet : IPacket} {sendFlag : NetworkMessageSendFlag}
    (ran : exec (SendMessage who packet sendFlag) node = (.ok (),next)) :
    packet.Validate = true ∧ Sent who (packet,sendFlag) node next := by
  rw [SendMessage,exec_get_bind,exec_assert_bind] at ran
  split at ran
  · rw [exec_assert_bind] at ran
    split at ran
    · rename_i valid
      refine ⟨valid,?_⟩
      have establishes (waiting : ∀ c, node.findTarget who = some c → c.state ≠ .eConnected)
          (ran : exec (EstablishConnectionTo who >>= fun _ => QueueMessageOnConnect who (packet,sendFlag)) node =
            (.ok (),next)) : Sent who (packet,sendFlag) node next := by
        obtain ⟨_,middle,established,queued⟩ := bind_returned _ _ _ _ _ ran
        have dialled := EstablishConnectionTo_returned established
        obtain ⟨unwalked,rfl⟩ := QueueMessageOnConnect_returned queued
        exact .queued middle waiting dialled (dialled.walked ▸ unwalked)
      cases found : node.findTarget who with
      | none =>
        rw [found] at ran
        exact establishes (fun c same => by rw [found] at same; cases same) ran
      | some find =>
        simp only [found] at ran
        split at ran
        · rename_i connected
          obtain rfl := (Prod.mk.inj ran).2
          exact .handed find found connected
        · rename_i waits
          have waiting : ∀ c, node.findTarget who = some c → c.state ≠ .eConnected := by
            intro c same
            rw [found] at same
            cases same
            exact waits
          split at ran
          · obtain ⟨unwalked,rfl⟩ := QueueMessageOnConnect_returned ran
            exact .queued node waiting .left unwalked
          · exact establishes waiting ran
    · cases (Prod.mk.inj ran).1
  · cases (Prod.mk.inj ran).1

theorem Sent.kept {who : NetworkIdentity} {message : Outgoing} (sent : Sent who message node next) :
    Kept node next := by
  cases sent with
  | handed => exact ⟨rfl,rfl,rfl,rfl,rfl⟩
  | queued middle waiting dialled => cases dialled <;> exact ⟨rfl,rfl,rfl,rfl,rfl⟩

theorem Sent.table {who : NetworkIdentity} {message : Outgoing} (sent : Sent who message node next)
    (present : (node.findTarget who).any settled = true ∨ who.IsInternal = false) :
    next.Connections = node.Connections := by
  cases sent with
  | handed => rfl
  | queued middle waiting dialled =>
    cases dialled with
    | left => rfl
    | inserted address internal unsettled => simp_all

theorem exec_SendMessage_checked {who : NetworkIdentity} {packet : IPacket} {sendFlag : NetworkMessageSendFlag}
    {c : Connection} (initialised : node.IsInit = true) (valid : packet.Validate = true)
    (found : node.findTarget who = some c) :
    exec (SendMessage who packet sendFlag) node =
      exec (if c.state = .eConnected then modify (handOver c who (packet,sendFlag))
        else if c.state = .ePreConnecting ∨ c.state = .eConnecting then QueueMessageOnConnect who (packet,sendFlag)
        else do
          let _ ← EstablishConnectionTo who
          QueueMessageOnConnect who (packet,sendFlag)) node := by
  rw [SendMessage,exec_get_bind,exec_assert_bind,if_pos initialised,exec_assert_bind,if_pos valid]
  simp only [found]

theorem exec_SendMessage_connected {who : NetworkIdentity} {packet : IPacket} {sendFlag : NetworkMessageSendFlag}
    {c : Connection} (initialised : node.IsInit = true) (valid : packet.Validate = true)
    (found : node.findTarget who = some c) (connected : c.state = .eConnected) :
    exec (SendMessage who packet sendFlag) node = (.ok (),node.handOver c who (packet,sendFlag)) := by
  rw [exec_SendMessage_checked initialised valid found,if_pos connected]
  rfl

theorem exec_SendMessage_waiting {who : NetworkIdentity} {packet : IPacket} {sendFlag : NetworkMessageSendFlag}
    {c : Connection} (initialised : node.IsInit = true) (valid : packet.Validate = true) (unwalked : node.walked = none)
    (found : node.findTarget who = some c) (waiting : c.state = .ePreConnecting ∨ c.state = .eConnecting) :
    exec (SendMessage who packet sendFlag) node = (.ok (),node.enqueue who (packet,sendFlag)) := by
  have unconnected : ¬ c.state = .eConnected := by
    rcases waiting with same | same <;> rw [same] <;> decide
  rw [exec_SendMessage_checked initialised valid found,if_neg unconnected,if_pos waiting,QueueMessageOnConnect,
    exec_get_bind,exec_throwIf,unwalked,if_neg (by simp)]
  rfl

/-- The greeting of a client that has no ID, or of any other peer. -/
inductive Greeted (v : Connection) (h : HSteamNetConnection) (Gen : UUID) (node : Interlink) : Interlink → Prop
  | known (identified : v.IsInternal = true ∨ v.target.ID.is_nil = false) : Greeted v h Gen node node
  | assigned (middle : Interlink) (registered stored : Redis.Database) (external : v.IsInternal = false)
      (unnamed : v.target.ID.is_nil = true) (valid : (IDAssignPacket ⟨v.target.type,Gen⟩).Validate = true)
      (sent : Sent ⟨v.target.type,Gen⟩ (IDAssignPacket ⟨v.target.type,Gen⟩,.eReliableNow)
        (node.modifyHandle h ({· with target := ⟨v.target.type,Gen⟩})) middle)
      (register : exec (ClientManifest.RegisterClient {ip := v.address,ID := Gen}) node.db = (.ok (),registered))
      (assign : exec (ClientManifest.AssignProxyClient Gen node.ID) registered = (.ok (),stored)) :
      Greeted v h Gen node {middle with db := stored}

theorem AssignID_returned {v : Connection} {h : HSteamNetConnection} {Gen : UUID} {outcome : Option Fault}
    (external : v.IsInternal = false) (unnamed : v.target.ID.is_nil = true)
    (ran : exec (AssignID v h Gen outcome) node = (.ok (),next)) : Greeted v h Gen node next := by
  rw [AssignID,exec_modify_bind] at ran
  obtain ⟨_,middle,sending,ran⟩ := bind_returned _ _ _ _ _ ran
  obtain ⟨valid,sent⟩ := SendMessage_returned sending
  obtain ⟨_,_,registering,ran⟩ := bind_returned _ _ _ _ _ ran
  obtain ⟨registered,register,rfl⟩ := InternalDB_returned registering
  rw [exec_get_bind] at ran
  obtain ⟨_,_,assigning,ran⟩ := bind_returned _ _ _ _ _ ran
  obtain ⟨stored,assign,rfl⟩ := InternalDB_returned assigning
  have ended : next = {middle with db := stored} := by
    unfold served at ran
    cases outcome with
    | none => exact (Prod.mk.inj ran).2.symm
    | some fault => cases (Prod.mk.inj ran).1
  subst ended
  rw [sent.kept.db] at register
  have ID : middle.ID = node.ID := sent.kept.ID
  simp only [ID] at assign
  exact .assigned middle registered stored external unnamed valid sent register assign

theorem greet_returned {v : Connection} {h : HSteamNetConnection} {Gen : UUID} {outcome : Option Fault}
    (ran : exec (greet v h Gen outcome) node = (.ok (),next)) : Greeted v h Gen node next := by
  unfold greet at ran
  split at ran
  · rename_i internal
    obtain rfl := (Prod.mk.inj ran).2
    exact .known (.inl internal)
  · rename_i external
    rw [OnClientConnected,exec_assert_bind] at ran
    split at ran
    · split at ran
      · rename_i unnamed
        exact AssignID_returned (by simpa using external) unnamed ran
      · rename_i named
        obtain rfl := (Prod.mk.inj ran).2
        exact .known (.inr (by simpa using named))
    · cases (Prod.mk.inj ran).1

theorem CallbackOnConnected_returned {info : CallbackInfo} {Gen : UUID} {outcome : Option Fault}
    (ran : exec (CallbackOnConnected info Gen outcome) node = (.ok (),next)) :
    ∃ v greeted, node.findHandle info.m_hConn = some v ∧
      Greeted (v.SetNewState .eConnected) info.m_hConn Gen
        (node.modifyHandle info.m_hConn (·.SetNewState .eConnected)) greeted ∧
      exec (FlushQueue info.m_hConn) greeted = (.ok (),next) := by
  rw [CallbackOnConnected,exec_get_bind] at ran
  cases found : node.findHandle info.m_hConn with
  | some v =>
    simp only [found] at ran
    rw [exec_modify_bind] at ran
    obtain ⟨_,greeted,greeting,flushed⟩ := bind_returned _ _ _ _ _ ran
    exact ⟨v,greeted,rfl,greet_returned greeting,flushed⟩
  | none =>
    simp only [found] at ran
    obtain ⟨_,_,_,ran⟩ := bind_returned _ _ _ _ _ ran
    cases (Prod.mk.inj ran).1

theorem exec_FlushQueue_empty {h : HSteamNetConnection} {v : Connection} (found : node.findHandle h = some v)
    (empty : node.queueOf v.target = []) : exec (FlushQueue h) node = (.ok (),node) := by
  rw [FlushQueue,exec_get_bind]
  simp only [found]
  rw [if_pos (List.isEmpty_iff.mpr empty)]
  rfl

theorem exec_FlushQueue_waiting {h : HSteamNetConnection} {v : Connection} (found : node.findHandle h = some v)
    (waiting : node.queueOf v.target ≠ []) : exec (FlushQueue h) node = exec (SendQueued v.target) node := by
  rw [FlushQueue,exec_get_bind]
  simp only [found]
  rw [if_neg (fun none => waiting (List.isEmpty_iff.mp none))]

theorem exec_CallbackOnConnected_silent {info : CallbackInfo} {Gen : UUID} {outcome : Option Fault} {v : Connection}
    (found : node.findHandle info.m_hConn = some v)
    (silent : greet (v.SetNewState .eConnected) info.m_hConn Gen outcome = pure ()) :
    exec (CallbackOnConnected info Gen outcome) node =
      exec (FlushQueue info.m_hConn) (node.modifyHandle info.m_hConn (·.SetNewState .eConnected)) := by
  rw [CallbackOnConnected,exec_get_bind]
  simp only [found]
  rw [exec_modify_bind,silent,exec_pure_bind]

theorem exec_CallbackOnConnected_internal {info : CallbackInfo} {Gen : UUID} {outcome : Option Fault} {v : Connection}
    (found : node.findHandle info.m_hConn = some v) (internal : v.IsInternal = true) :
    exec (CallbackOnConnected info Gen outcome) node =
      exec (FlushQueue info.m_hConn) (node.modifyHandle info.m_hConn (·.SetNewState .eConnected)) :=
  exec_CallbackOnConnected_silent found (if_pos internal)

theorem SendQueued_loops {target : NetworkIdentity} (ran : exec (SendQueued target) node = (.ok (),next)) :
    ∃ middle, exec (forM (node.queueOf target) fun message => SendMessage target message.1 message.2)
        {node with walked := some ⟨target⟩} = (.ok (),middle) ∧
      next = {middle with walked := none,QueuedPacketsOnConnect := middle.QueuedPacketsOnConnect.erase ⟨target⟩} := by
  rw [SendQueued,exec_get_bind,exec_modify_bind] at ran
  obtain ⟨_,middle,looped,ended⟩ := bind_returned _ _ _ _ _ ran
  exact ⟨middle,looped,(Prod.mk.inj ended).2.symm⟩

theorem SendQueued_returned {target : NetworkIdentity} (present : (node.findTarget target).any settled = true)
    (ran : exec (SendQueued target) node = (.ok (),next)) :
    next.Connections = node.Connections ∧ Kept {node with walked := none} next := by
  obtain ⟨middle,looped,rfl⟩ := SendQueued_loops ran
  have kept := forM_returned (fun reached =>
      reached.Connections = node.Connections ∧ Kept {node with walked := some ⟨target⟩} reached)
    _ (fun message _ state reached before sending => by
      have sent := (SendMessage_returned sending).2
      have here : (state.findTarget target).any settled = true := by
        rw [findTarget,before.1]
        exact present
      exact ⟨(sent.table (.inl here)).trans before.1,before.2.trans sent.kept⟩)
    ⟨rfl,rfl,rfl,rfl,rfl,rfl⟩ looped
  exact ⟨kept.1,kept.2.ID,kept.2.IsInit,rfl,kept.2.db,kept.2.closed⟩

theorem FlushQueue_returned {h : HSteamNetConnection} (allSettled : ∀ c ∈ node.Connections, settled c = true)
    (unwalked : node.walked = none) (ran : exec (FlushQueue h) node = (.ok (),next)) :
    next.Connections = node.Connections ∧ Kept node next := by
  rw [FlushQueue,exec_get_bind] at ran
  cases found : node.findHandle h with
  | none =>
    rw [found] at ran
    cases (Prod.mk.inj ran).1
  | some v =>
    simp only [found] at ran
    split at ran
    · obtain rfl := (Prod.mk.inj ran).2
      exact ⟨rfl,rfl,rfl,rfl,rfl,rfl⟩
    · obtain ⟨table,kept⟩ := SendQueued_returned (target_present allSettled (Table.find_member found)) ran
      exact ⟨table,kept.ID,kept.IsInit,kept.walked.trans unwalked.symm,kept.db,kept.closed⟩

theorem Greeted.table {v : Connection} {h : HSteamNetConnection} {Gen : UUID}
    (greeted : Greeted (v.SetNewState .eConnected) h Gen (node.modifyHandle h (·.SetNewState .eConnected)) next) :
    next.Connections = Table.modify (Connection.isHandle h) (welcomed v Gen) node.Connections := by
  cases greeted with
  | known identified =>
    have same : welcomed v Gen = (·.SetNewState .eConnected) := by
      funext c
      rw [welcomed,if_neg]
      rintro ⟨external,unnamed⟩
      rcases identified with internal | named
      · exact Bool.false_ne_true (external.symm.trans internal)
      · exact Bool.false_ne_true (named.symm.trans unnamed)
    rw [same]
    rfl
  | assigned middle registered stored external unnamed valid sent =>
    have same : welcomed v Gen =
        ({· with target := ⟨v.target.type,Gen⟩}) ∘ (·.SetNewState .eConnected) := by
      funext c
      rw [welcomed,if_pos ⟨external,unnamed⟩]
      rfl
    have client : v.target.type = .eGameClient := (NetworkIdentity.external_iff _).mp external
    have kept := sent.table (.inr ((NetworkIdentity.external_iff _).mpr client))
    rw [same,← Table.modify_modify]
    · exact kept
    · intro entry found
      exact (Connection.isHandle_iff _ _).mpr ((Connection.isHandle_iff h entry).mp (Table.find_chosen found))

theorem Greeted.findHandle {v : Connection} {h : HSteamNetConnection} {Gen : UUID} (found : node.findHandle h = some v)
    (greeted : Greeted (v.SetNewState .eConnected) h Gen (node.modifyHandle h (·.SetNewState .eConnected)) next) :
    next.findHandle h = some (welcomed v Gen v) := by
  rw [Interlink.findHandle,greeted.table,Table.find_modify]
  · exact congrArg (Option.map _) found
  · intro entry chosen
    rw [Connection.isHandle_iff,SteamConnection_welcomed]
    exact (Connection.isHandle_iff h entry).mp (Table.find_chosen chosen)

theorem Greeted.fields {v : Connection} {h : HSteamNetConnection} {Gen : UUID}
    (greeted : Greeted v h Gen node next) :
    next.ID = node.ID ∧ next.IsInit = node.IsInit ∧ next.walked = node.walked ∧ next.closed = node.closed := by
  cases greeted with
  | known => exact ⟨rfl,rfl,rfl,rfl⟩
  | assigned middle registered stored external unnamed valid sent =>
    exact ⟨sent.kept.ID,sent.kept.IsInit,sent.kept.walked,sent.kept.closed⟩

theorem reads_CreateFromBytes {σ : Type} (factories : PacketRegistry) (bytes : Bytes) :
    Reads (factories.CreateFromBytes bytes : Program σ IPacket) := by
  refine reads_bind (fun _ => by rw [exec_within]) (fun type => ?_)
  refine reads_bind ?_ (fun factory => ?_)
  · intro state
    unfold PacketRegistry.Create
    split <;> rfl
  · refine reads_bind (fun _ => by rw [exec_within]) (fun packet => ?_)
    exact reads_bind (fun _ => by rw [exec_assert]) (fun _ _ => rfl)

theorem ReceiveMessage_dispatches {msg : Message} (ran : exec (ReceiveMessage msg) node = (.ok (),next)) :
    ∃ sender packet, node.findHandle msg.m_conn = some sender ∧
      exec (node.factories.CreateFromBytes msg.data) node = (.ok packet,node) ∧
      next = {node with dispatched := node.dispatched ++ [(sender.target,packet)],released := node.released+1} := by
  rw [ReceiveMessage,exec_get_bind] at ran
  cases found : node.findHandle msg.m_conn with
  | none =>
    rw [found] at ran
    cases (Prod.mk.inj ran).1
  | some sender =>
    simp only [found] at ran
    obtain ⟨packet,middle,created,finished⟩ := bind_returned _ _ _ _ _ ran
    have reads := reads_CreateFromBytes node.factories msg.data node
    rw [created] at reads
    change middle = node at reads
    subst reads
    exact ⟨sender,packet,rfl,created,(Prod.mk.inj finished).2.symm⟩

theorem ReceiveMessages_returned {messages : List Message}
    (ran : exec (ReceiveMessages messages) node = (.ok (),next)) :
    next = {node with dispatched := next.dispatched,released := next.released} := by
  refine forM_returned (fun reached =>
    reached = {node with dispatched := reached.dispatched,released := reached.released}) messages ?_ rfl ran
  intro msg _ state reached before ran
  obtain ⟨sender,packet,_,_,rfl⟩ := ReceiveMessage_dispatches ran
  rw [before]

end Interlink

end AtlasNet
