import AtlasNet.InterlinkEffects
import AtlasNet.Foundation.System

/-! The runs of Interlink: any order of calls, ticks and callbacks, for any peers. A
step is one that returns; a fault ends the process. -/
namespace AtlasNet.Interlink
open Foundation Foundation.Program

inductive Event
  | send (who : NetworkIdentity) (packet : IPacket) (sendFlag : NetworkMessageSendFlag)
  | establishTo (id : NetworkIdentity)
  | establishAtIP (id : NetworkIdentity) (address : IPAddress)
  | close (id : NetworkIdentity)
  | generate (results : List (Option HSteamNetConnection))
  | connecting (info : CallbackInfo) (accepted : Bool)
  | connected (info : CallbackInfo) (Gen : UUID) (outcome : Option Fault)
  | closedByPeer (h : HSteamNetConnection)
  | problem (h : HSteamNetConnection)
  | receive (messages : List Message)
  /-- Other servers register and deregister. -/
  | servers (entries : Redis.Hash)

def act [Platform] : Event → Program Interlink Unit
  | .send who packet sendFlag => SendMessage who packet sendFlag
  | .establishTo id => do let _ ← EstablishConnectionTo id
  | .establishAtIP id address => do let _ ← EstablishConnectionAtIP id address
  | .close id => CloseConnectionTo id
  | .generate results => GenerateNewConnections results
  | .connecting info accepted => CallbackOnConnecting info accepted
  | .connected info Gen outcome => CallbackOnConnected info Gen outcome
  | .closedByPeer h => CallbackOnClosedByPear h
  | .problem h => CallbackOnProblemDetectedLocally h
  | .receive messages => ReceiveMessages messages
  | .servers entries => InternalDB (modify (·.withHash ServerRegistry.HashTableNameID_IP entries))

def handles (table : List Connection) : List HSteamNetConnection := table.filterMap (·.SteamConnection)

/-- A new handle is the handle of no other connection. -/
def Possible (node : Interlink) : Event → Prop
  | .generate results => (results.filterMap id).Nodup ∧ ∀ h ∈ results.filterMap id, h ∉ handles node.Connections
  | _ => True

structure Run where
  node : Interlink
  /-- the messages that were passed to `SendMessage` -/
  sent : List (MapKey × Outgoing) := []

def sentBy : Event → List (MapKey × Outgoing)
  | .send who packet sendFlag => [(⟨who⟩,(packet,sendFlag))]
  | _ => []

structure Fresh (node : Interlink) : Prop where
  initialised : node.IsInit = true
  disconnected : node.Connections = []
  unqueued : node.QueuedPacketsOnConnect = {}
  unhanded : node.handed = []
  unwalked : node.walked = none

def interlink [Platform] : System Run Event where
  Initial run := Fresh run.node ∧ run.sent = []
  Step run event next := Possible run.node event ∧
    exec (act event) run.node = (.ok (),next.node) ∧ next.sent = run.sent ++ sentBy event

/-- What holds of the node between any two steps. -/
structure Sound (node : Interlink) : Prop where
  initialised : node.IsInit = true
  unwalked : node.walked = none
  settled : ∀ c ∈ node.Connections, settled c = true
  handles : (handles node.Connections).Nodup

section Handles
variable {table : List Connection} {h : HSteamNetConnection}

theorem mem_handles : h ∈ handles table ↔ ∃ c ∈ table, c.SteamConnection = some h :=
  List.mem_filterMap

theorem handles_append (table more : List Connection) : handles (table ++ more) = handles table ++ handles more :=
  List.filterMap_append

theorem handles_absent (absent : Table.find (Connection.isHandle h) table = none) : h ∉ handles table := by
  intro member
  obtain ⟨c,inside,same⟩ := mem_handles.mp member
  have unlike := Table.find_none.mp absent c inside
  rw [(Connection.isHandle_iff h c).mpr same] at unlike
  cases unlike

theorem handles_modify (chosen : Connection → Bool) (f : Connection → Connection)
    (kept : ∀ c, (f c).SteamConnection = c.SteamConnection) (table : List Connection) :
    handles (Table.modify chosen f table) = handles table := by
  have column := Table.modify_column chosen f (·.SteamConnection) table kept
  have through (l : List Connection) : handles l = (l.map (·.SteamConnection)).filterMap id := by
    rw [List.filterMap_map]
    rfl
  rw [through,through,column]

theorem handles_erase (chosen : Connection → Bool) (distinct : (handles table).Nodup) :
    (handles (Table.erase chosen table)).Nodup :=
  ((Table.erase_sublist chosen table).filterMap _).nodup distinct

theorem handles_cons (c : Connection) (rest : List Connection) :
    handles (c::rest) = c.SteamConnection.toList ++ handles rest := by
  unfold handles
  cases held : c.SteamConnection <;> simp [held]

theorem loop_column {κ : Type} (key : Connection → κ)
    (kept : ∀ (c : Connection) (conn : HSteamNetConnection), key {c with SteamConnection := some conn} = key c)
    (table : List Connection) (results : List (Option HSteamNetConnection)) :
    (GenerateNewConnections_loop table results).map key = table.map key := by
  induction table generalizing results with
  | nil => rfl
  | cons c rest ih =>
    have same (result : Option HSteamNetConnection) : key (generated result c) = key c := by
      cases result with
      | none => rfl
      | some conn => exact kept c conn
    rw [GenerateNewConnections_loop]
    split
    · exact List.cons_eq_cons.mpr ⟨same _,ih _⟩
    · exact List.cons_eq_cons.mpr ⟨rfl,ih _⟩

theorem handles_loop (table : List Connection) (results : List (Option HSteamNetConnection)) :
    ∀ h ∈ handles (GenerateNewConnections_loop table results), h ∈ handles table ∨ h ∈ results.filterMap id := by
  induction table generalizing results with
  | nil => exact fun h member => absurd member (List.not_mem_nil)
  | cons c rest ih =>
    intro h member
    rw [GenerateNewConnections_loop] at member
    simp only [handles_cons,List.mem_append]
    split at member
    · rw [handles_cons,List.mem_append] at member
      rcases member with mine | other
      · rcases results with _ | ⟨_ | conn,results⟩
        · exact .inl (.inl mine)
        · exact .inl (.inl mine)
        · exact .inr (by simpa using Or.inl (List.mem_singleton.mp mine))
      · rcases ih results.tail h other with old | new
        · exact .inl (.inr old)
        · exact .inr (((List.tail_sublist results).filterMap id).subset new)
    · rw [handles_cons,List.mem_append] at member
      rcases member with mine | other
      · exact .inl (.inl mine)
      · rcases ih results h other with old | new
        · exact .inl (.inr old)
        · exact .inr new

theorem handles_loop_nodup (table : List Connection) (results : List (Option HSteamNetConnection))
    (distinct : (handles table).Nodup) (fresh : (results.filterMap id).Nodup)
    (apart : ∀ h ∈ results.filterMap id, h ∉ handles table) :
    (handles (GenerateNewConnections_loop table results)).Nodup := by
  induction table generalizing results with
  | nil => exact List.nodup_nil
  | cons c rest ih =>
    rw [handles_cons,List.nodup_append] at distinct
    obtain ⟨alone,others,separate⟩ := distinct
    simp only [handles_cons,List.mem_append,not_or] at apart
    -- the entry keeps its handle, and the loop goes on with some of the results
    have keeping (left : List (Option HSteamNetConnection)) (some : left.Sublist results) :
        (handles (c::GenerateNewConnections_loop rest left)).Nodup := by
      have inside := (some.filterMap id).subset
      rw [handles_cons,List.nodup_append]
      refine ⟨alone,ih left others ((some.filterMap id).nodup fresh) (fun h new => (apart h (inside new)).2),?_⟩
      intro h mine g other
      rcases handles_loop rest left g other with old | new
      · exact separate h mine g old
      · rintro rfl
        exact (apart h (inside new)).1 mine
    rw [GenerateNewConnections_loop]
    split
    · rcases results with _ | ⟨_ | conn,results⟩
      · exact keeping [] (List.Sublist.refl _)
      · exact keeping results (List.sublist_cons_self _ _)
      · have new : conn ∉ results.filterMap id ∧ (results.filterMap id).Nodup := by
          simpa only [List.filterMap_cons,id,List.nodup_cons] using fresh
        have away (h : HSteamNetConnection) (member : h ∈ conn::results.filterMap id) : h ∉ handles rest :=
          (apart h (by simpa only [List.filterMap_cons,id] using member)).2
        change (handles (generated (some conn) c::GenerateNewConnections_loop rest results)).Nodup
        rw [handles_cons,List.nodup_append]
        refine ⟨List.pairwise_singleton _ _,
          ih results others new.2 (fun h member => away h (List.mem_cons_of_mem _ member)),?_⟩
        intro h mine g other
        obtain rfl := List.mem_singleton.mp mine
        rintro rfl
        rcases handles_loop rest results _ other with old | later
        · exact away h List.mem_cons_self old
        · exact new.1 later
    · exact keeping results (List.Sublist.refl _)

end Handles

/-- The tables that a step can leave. -/
inductive Changed (node : Interlink) : Event → List Connection → Prop
  | same (event : Event) : Changed node event node.Connections
  | dialled (event : Event) (id : NetworkIdentity) (address : IPAddress) (kind : ConnectionKind)
      (unsettled : (node.findTarget id).any settled = false)
      (asked : id.IsInternal = true ∨ event = .establishAtIP id address) :
      Changed node event (node.Connections ++ [outgoing id address kind])
  | erased (event : Event) (chosen : Connection → Bool) : Changed node event (Table.erase chosen node.Connections)
  | generated (results : List (Option HSteamNetConnection)) :
      Changed node (.generate results) (GenerateNewConnections_loop node.Connections results)
  | contacted (info : CallbackInfo) (accepted : Bool) :
      Changed node (.connecting info accepted)
        (Table.modify (Connection.isHandle info.m_hConn) (·.SetNewState .eConnecting) node.Connections)
  | accepted (info : CallbackInfo) (ID : NetworkIdentity) (unknown : node.findHandle info.m_hConn = none)
      (decodes : identityOf info.m_identityRemote = .ok ID) :
      Changed node (.connecting info true) (node.Connections ++ [incoming info ID])
  | connected (info : CallbackInfo) (Gen : UUID) (outcome : Option Fault) (v : Connection)
      (found : node.findHandle info.m_hConn = some v) :
      Changed node (.connected info Gen outcome)
        (Table.modify (Connection.isHandle info.m_hConn) (welcomed v Gen) node.Connections)

theorem settled_welcomed (v : Connection) (Gen : UUID) (c : Connection) : settled (welcomed v Gen c) = true := by
  unfold welcomed
  split <;> rfl

section Steps
variable {node next : Interlink} {event : Event} {table : List Connection}

theorem Dialled.changed {id : NetworkIdentity} (dialled : Dialled id node next) :
    Changed node event next.Connections := by
  cases dialled with
  | left => exact .same event
  | inserted address internal unsettled => exact .dialled event id address .eInternal unsettled (.inl internal)

theorem mem_loop (table : List Connection) (results : List (Option HSteamNetConnection)) :
    ∀ c ∈ GenerateNewConnections_loop table results, ∃ old ∈ table, ∃ result, c = generated result old := by
  induction table generalizing results with
  | nil => exact fun c member => absurd member (List.not_mem_nil)
  | cons first rest ih =>
    intro c member
    rw [GenerateNewConnections_loop] at member
    split at member
    · rcases List.mem_cons.mp member with mine | other
      · exact ⟨first,List.mem_cons_self,_,mine⟩
      · obtain ⟨old,inside,same⟩ := ih _ c other
        exact ⟨old,List.mem_cons_of_mem _ inside,same⟩
    · rcases List.mem_cons.mp member with mine | other
      · exact ⟨first,List.mem_cons_self,none,mine⟩
      · obtain ⟨old,inside,same⟩ := ih _ c other
        exact ⟨old,List.mem_cons_of_mem _ inside,same⟩

theorem settled_generated (result : Option HSteamNetConnection) (c : Connection) :
    settled (generated result c) = settled c := by
  cases result <;> rfl

theorem Changed.settled (changed : Changed node event table)
    (before : ∀ c ∈ node.Connections, settled c = true) : ∀ c ∈ table, Interlink.settled c = true := by
  intro c member
  cases changed with
  | same => exact before c member
  | dialled _ id address kind =>
    rcases List.mem_append.mp member with old | new
    · exact before c old
    · obtain rfl := List.mem_singleton.mp new
      rfl
  | erased _ chosen => exact before c ((Table.erase_sublist _ _).subset member)
  | generated results =>
    obtain ⟨old,inside,result,rfl⟩ := mem_loop _ _ c member
    exact (settled_generated result old).trans (before old inside)
  | contacted info accepted =>
    rcases Table.mem_modify member with old | ⟨old,_,rfl⟩
    · exact before c old
    · rfl
  | accepted info ID =>
    rcases List.mem_append.mp member with old | new
    · exact before c old
    · obtain rfl := List.mem_singleton.mp new
      rfl
  | connected info Gen outcome v =>
    rcases Table.mem_modify member with old | ⟨old,_,rfl⟩
    · exact before c old
    · exact settled_welcomed v Gen old

theorem Changed.handles (changed : Changed node event table) (possible : Possible node event)
    (before : (handles node.Connections).Nodup) : (Interlink.handles table).Nodup := by
  cases changed with
  | same => exact before
  | dialled _ id address kind =>
    rw [handles_append]
    exact (List.append_nil _).symm ▸ before
  | erased _ chosen => exact handles_erase _ before
  | generated results => exact handles_loop_nodup _ _ before possible.1 possible.2
  | contacted info accepted =>
    rw [handles_modify _ (·.SetNewState .eConnecting) (fun _ => rfl)]
    exact before
  | accepted info ID unknown =>
    rw [handles_append,List.nodup_append]
    refine ⟨before,List.pairwise_singleton _ _,?_⟩
    rintro h old g new rfl
    obtain rfl : h = info.m_hConn := List.mem_singleton.mp new
    exact handles_absent unknown old
  | connected info Gen outcome v =>
    rw [handles_modify _ _ (SteamConnection_welcomed v Gen)]
    exact before

theorem Sound.handle_once (sound : Sound node) (h : HSteamNetConnection) :
    node.Connections.countP (Connection.isHandle h) ≤ 1 := by
  refine Table.countP_le_one _ (List.pairwise_filterMap.mp sound.handles) ?_
  intro a b same other different
  exact different h ((Connection.isHandle_iff h a).mp same) h ((Connection.isHandle_iff h b).mp other) rfl

theorem Fresh.sound (fresh : Fresh node) : Sound node := by
  refine ⟨fresh.initialised,fresh.unwalked,?_,?_⟩
  · simp [fresh.disconnected]
  · simp [fresh.disconnected,handles]

variable [Platform]

theorem connected_changes {info : CallbackInfo} {Gen : UUID} {outcome : Option Fault} (sound : Sound node)
    (ran : exec (CallbackOnConnected info Gen outcome) node = (.ok (),next)) :
    ∃ v greeted, node.findHandle info.m_hConn = some v ∧
      Greeted (v.SetNewState .eConnected) info.m_hConn Gen
        (node.modifyHandle info.m_hConn (·.SetNewState .eConnected)) greeted ∧
      Changed node (.connected info Gen outcome) greeted.Connections ∧
      next.Connections = greeted.Connections ∧ Kept greeted next := by
  obtain ⟨v,greeted,found,greeting,flushed⟩ := CallbackOnConnected_returned ran
  have changed : Changed node (.connected info Gen outcome) greeted.Connections :=
    greeting.table ▸ .connected info Gen outcome v found
  have unwalked := greeting.fields.2.2.1.trans sound.unwalked
  obtain ⟨same,kept⟩ := FlushQueue_returned (changed.settled sound.settled) unwalked flushed
  exact ⟨v,greeted,found,greeting,changed,same,kept⟩

/-- Every step changes the table in one of these ways, and leaves the other fields
that callers rely on. -/
theorem step_changes (sound : Sound node) (ran : exec (act event) node = (.ok (),next)) :
    Changed node event next.Connections ∧ next.IsInit = node.IsInit ∧ next.walked = node.walked ∧
      next.ID = node.ID := by
  cases event with
  | send who packet sendFlag =>
    have sent := (SendMessage_returned ran).2
    refine ⟨?_,sent.kept.IsInit,sent.kept.walked,sent.kept.ID⟩
    cases sent with
    | handed => exact .same _
    | queued middle waiting dialled => exact dialled.changed
  | establishTo id =>
    obtain ⟨_,established⟩ := discard_returned ran
    have dialled := EstablishConnectionTo_returned established
    refine ⟨dialled.changed,?_⟩
    cases dialled <;> exact ⟨rfl,rfl,rfl⟩
  | establishAtIP id address =>
    obtain ⟨_,established⟩ := discard_returned ran
    rcases EstablishConnectionAtIP_returned established with rfl | ⟨unsettled,rfl⟩
    · exact ⟨.same _,rfl,rfl,rfl⟩
    · exact ⟨.dialled _ id address .eExternal unsettled (.inr rfl),rfl,rfl,rfl⟩
  | close id =>
    obtain rfl := (Prod.mk.inj ((exec_CloseConnectionTo id node).symm.trans ran)).2
    cases node.findTarget id with
    | none => exact ⟨.same _,rfl,rfl,rfl⟩
    | some it => exact ⟨.erased _ _,rfl,rfl,rfl⟩
  | generate results =>
    obtain rfl := (Prod.mk.inj ran).2
    exact ⟨.generated results,rfl,rfl,rfl⟩
  | connecting info accepted =>
    rcases CallbackOnConnecting_returned ran with ⟨_,_,rfl⟩ | ⟨_,rfl⟩ | ⟨ID,unknown,decodes,rfl,rfl⟩
    · exact ⟨.same _,rfl,rfl,rfl⟩
    · exact ⟨.contacted info accepted,rfl,rfl,rfl⟩
    · exact ⟨.accepted info ID unknown decodes,rfl,rfl,rfl⟩
  | connected info Gen outcome =>
    obtain ⟨v,greeted,found,greeting,changed,same,kept⟩ := connected_changes sound ran
    obtain ⟨ID,initialised,walked,_⟩ := greeting.fields
    exact ⟨same ▸ changed,kept.IsInit.trans initialised,kept.walked.trans walked,kept.ID.trans ID⟩
  | closedByPeer h =>
    obtain rfl := (Prod.mk.inj ((exec_CallbackOnClosedByPear h node).symm.trans ran)).2
    split
    · exact ⟨.erased _ _,rfl,rfl,rfl⟩
    · exact ⟨.same _,rfl,rfl,rfl⟩
  | problem h =>
    obtain rfl := (Prod.mk.inj ran).2
    exact ⟨.erased _ _,rfl,rfl,rfl⟩
  | receive messages =>
    rw [ReceiveMessages_returned ran]
    exact ⟨.same _,rfl,rfl,rfl⟩
  | servers entries =>
    obtain rfl := (Prod.mk.inj ran).2
    exact ⟨.same _,rfl,rfl,rfl⟩

theorem step_sound (sound : Sound node) (possible : Possible node event)
    (ran : exec (act event) node = (.ok (),next)) : Sound next := by
  obtain ⟨changed,initialised,walked,_⟩ := step_changes sound ran
  exact ⟨initialised.trans sound.initialised,walked.trans sound.unwalked,changed.settled sound.settled,
    changed.handles possible sound.handles⟩

end Steps

section Incoming
variable [Platform]

/-- The callback for a peer that presents the identity of its process. -/
def contact (h : HSteamNetConnection) (ID : NetworkIdentity) (address : IPAddress) : CallbackInfo :=
  {m_hConn := h,m_addrRemote := address,m_identityRemote := ownIdentity ID}

theorem step_contact {run : Run} {h : HSteamNetConnection} {ID : NetworkIdentity} {address : IPAddress}
    (unknown : run.node.findHandle h = none) :
    interlink.Step run (.connecting (contact h ID address) true)
      {run with node := run.node.insert (incoming (contact h ID address) ID)} :=
  ⟨trivial,exec_CallbackOnConnecting_new true unknown (identityOf_ownIdentity ID),(List.append_nil _).symm⟩

theorem step_of {run : Run} {event : Event} {node : Interlink} (possible : Possible run.node event)
    (ran : exec (act event) run.node = (.ok (),node)) :
    interlink.Step run event {node,sent := run.sent ++ sentBy event} :=
  ⟨possible,ran,rfl⟩

omit [Platform] in
theorem possible_generated {node : Interlink} {h : HSteamNetConnection} (new : h ∉ handles node.Connections) :
    Possible node (.generate [some h]) := by
  refine ⟨List.pairwise_singleton _ _,fun g member => ?_⟩
  rw [List.mem_singleton.mp member]
  exact new

omit [Platform] in
theorem findTarget_head {node : Interlink} {c : Connection} {rest : List Connection} {who : NetworkIdentity}
    (table : node.Connections = c::rest) (same : c.target = who) : node.findTarget who = some c := by
  rw [findTarget,table,← same]
  exact List.find?_cons_of_pos BEq.rfl

end Incoming

def started (ID : NetworkIdentity) : Run where
  node := {ID,IsInit := true,factories := .registered,db := {json := fun _ => none,hash := fun _ => [],members := fun _ => []}}

theorem started_initial [Platform] (ID : NetworkIdentity) : interlink.Initial (started ID) :=
  ⟨⟨rfl,rfl,rfl,rfl,rfl⟩,rfl⟩

end AtlasNet.Interlink
