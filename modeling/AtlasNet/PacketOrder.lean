import AtlasNet.InterlinkRuns

/-! Whether a packet that is sent to an internal target is handed over once and in its
turn: what was handed over for the target and what waits for it is what was sent. -/
namespace AtlasNet.Interlink
open Foundation Foundation.Program

/-- The messages handed to the transport, with the keys of their targets. -/
def handedTo (node : Interlink) : List (MapKey × Outgoing) :=
  node.handed.map (fun call => (⟨call.who⟩,call.message))

/-- The queues hold messages that were checked when they were sent. -/
def Valid (node : Interlink) : Prop :=
  ∀ element ∈ node.QueuedPacketsOnConnect.elements, element.2.1.Validate = true

theorem handedTo_handOver (c : Connection) (who : NetworkIdentity) (message : Outgoing) (node : Interlink) :
    (node.handOver c who message).handedTo = node.handedTo ++ [(⟨who⟩,message)] :=
  List.map_append

theorem Dialled.mail {node next : Interlink} {id : NetworkIdentity} (dialled : Dialled id node next) :
    next.handed = node.handed ∧ next.QueuedPacketsOnConnect = node.QueuedPacketsOnConnect := by
  cases dialled <;> exact ⟨rfl,rfl⟩

theorem fresh_valid {node : Interlink} (fresh : Fresh node) : Valid node := by
  intro element member
  rw [fresh.unqueued] at member
  cases member

section Order
variable [Platform]

def InOrder (run : Run) : Prop := ∀ target : NetworkIdentity, target.IsInternal = true →
  KeyedQueue.of ⟨target⟩ run.node.handedTo ++ run.node.queueOf target = KeyedQueue.of ⟨target⟩ run.sent

/-- A message is not sent past a queue, and a queue is not flushed while the lookup of
its target yields an entry that is not connected. -/
def Orderly (node : Interlink) : Event → Prop
  | .send who _ _ => who.IsInternal = true → ∀ c, node.findTarget who = some c → c.state = .eConnected →
    node.queueOf who = []
  | .connected info _ _ => ∀ v, node.findHandle info.m_hConn = some v → v.IsInternal = true →
    node.queueOf v.target ≠ [] → ∃ c, node.findTarget v.target = some c ∧
      (c.state = .eConnected ∨ c.isHandle info.m_hConn = true)
  | _ => True

/-- A change that concerns no internal target. -/
def Beside (node next : Interlink) : Prop := ∀ target : NetworkIdentity, target.IsInternal = true →
  KeyedQueue.of ⟨target⟩ next.handedTo = KeyedQueue.of ⟨target⟩ node.handedTo ∧ next.queueOf target = node.queueOf target

section Steps
variable {node next : Interlink} {event : Event}

theorem Beside.trans {middle : Interlink} (before : Beside node middle) (after : Beside middle next) :
    Beside node next :=
  fun target internal => ⟨(after target internal).1.trans (before target internal).1,
    (after target internal).2.trans (before target internal).2⟩

theorem queueOf_enqueue (who target : NetworkIdentity) (message : Outgoing) (node : Interlink) :
    (node.enqueue who message).queueOf target =
      node.queueOf target ++ KeyedQueue.of ⟨target⟩ [((⟨who⟩ : MapKey),message)] :=
  KeyedQueue.queue_push ..

theorem Sent.mail {who : NetworkIdentity} {message : Outgoing} (sent : Sent who message node next) :
    (next.handedTo = node.handedTo ++ [(⟨who⟩,message)] ∧
        next.QueuedPacketsOnConnect = node.QueuedPacketsOnConnect) ∨
      (next.handedTo = node.handedTo ∧
        next.QueuedPacketsOnConnect = node.QueuedPacketsOnConnect.push ⟨who⟩ message) := by
  cases sent with
  | handed c => exact .inl ⟨handedTo_handOver c who message node,rfl⟩
  | queued middle waiting dialled =>
    obtain ⟨handed,queued⟩ := dialled.mail
    refine .inr ⟨congrArg (List.map _) handed,?_⟩
    rw [enqueue,queued]

theorem Sent.valid {who : NetworkIdentity} {message : Outgoing} (sent : Sent who message node next)
    (checked : message.1.Validate = true) (before : Valid node) : Valid next := by
  intro element member
  rcases sent.mail with ⟨_,queued⟩ | ⟨_,queued⟩
  · rw [queued] at member
    exact before element member
  · rw [queued,KeyedQueue.push] at member
    rcases List.mem_append.mp member with old | new
    · exact before element old
    · rw [List.mem_singleton.mp new]
      exact checked

theorem key_apart {who target : NetworkIdentity} (external : who.IsInternal = false)
    (internal : target.IsInternal = true) : ((⟨who⟩ : MapKey) == ⟨target⟩) = false := by
  by_contra same
  rw [Bool.not_eq_false,MapKey.beq_iff] at same
  have both := NetworkIdentity.IsInternal_congr same.2
  rw [external,internal] at both
  cases both

theorem Sent.beside {who : NetworkIdentity} {message : Outgoing} (sent : Sent who message node next)
    (external : who.IsInternal = false) : Beside node next := by
  intro target internal
  have other := KeyedQueue.of_single_other _ _ message (key_apart external internal)
  rcases sent.mail with ⟨handed,queued⟩ | ⟨handed,queued⟩
  · rw [handed,KeyedQueue.of_append,other,List.append_nil]
    exact ⟨rfl,by rw [queueOf,queued,queueOf]⟩
  · rw [handed,queueOf,queued,KeyedQueue.queue_push,other,List.append_nil]
    exact ⟨rfl,rfl⟩

theorem Greeted.beside {v : Connection} {h : HSteamNetConnection} {Gen : UUID}
    (greeted : Greeted v h Gen node next) : Beside node next := by
  cases greeted with
  | known => exact fun _ _ => ⟨rfl,rfl⟩
  | assigned middle registered stored external unnamed valid sent =>
    exact sent.beside ((NetworkIdentity.external_iff _).mpr ((NetworkIdentity.external_iff _).mp external))

theorem Greeted.valid {v : Connection} {h : HSteamNetConnection} {Gen : UUID}
    (greeted : Greeted v h Gen node next) (before : Valid node) : Valid next := by
  cases greeted with
  | known => exact before
  | assigned middle registered stored external unnamed valid sent => exact sent.valid valid before

theorem valid_erase {key : MapKey} (before : Valid node) :
    ∀ element ∈ (node.QueuedPacketsOnConnect.erase key).elements, element.2.1.Validate = true :=
  fun element member => before element (List.mem_of_mem_filter member)

theorem SendQueued_valid {target : NetworkIdentity} (before : Valid node)
    (ran : exec (SendQueued target) node = (.ok (),next)) : Valid next := by
  obtain ⟨middle,looped,rfl⟩ := SendQueued_loops ran
  have kept := forM_returned Valid _ (fun message _ state reached holds sending => by
    obtain ⟨checked,sent⟩ := SendMessage_returned sending
    exact sent.valid checked holds) (show Valid {node with walked := some ⟨target⟩} from before) looped
  exact valid_erase kept

theorem SendQueued_beside {target : NetworkIdentity} (external : target.IsInternal = false)
    (ran : exec (SendQueued target) node = (.ok (),next)) : Beside node next := by
  obtain ⟨middle,looped,rfl⟩ := SendQueued_loops ran
  have kept := forM_returned (Beside node) _ (fun message _ state reached holds sending =>
    holds.trans ((SendMessage_returned sending).2.beside external))
    (show Beside node {node with walked := some ⟨target⟩} from fun _ _ => ⟨rfl,rfl⟩) looped
  intro other internal
  refine ⟨(kept other internal).1,Eq.trans ?_ (kept other internal).2⟩
  exact KeyedQueue.queue_erase_other _ _ _ (key_apart external internal)

theorem exec_forM_handed (node : Interlink) {target : NetworkIdentity} {c : Connection} (messages : List Outgoing)
    (initialised : node.IsInit = true) (found : node.findTarget target = some c) (connected : c.state = .eConnected)
    (checked : ∀ message ∈ messages, message.1.Validate = true) :
    exec (forM messages (fun message => SendMessage target message.1 message.2)) node =
      (.ok ⟨⟩,{node with handed := node.handed ++ messages.map (handover c target)}) := by
  induction messages generalizing node with
  | nil => simp
  | cons message rest ih =>
    rw [exec_forM_cons,exec_bind_ok _ _ _ _ _
      (exec_SendMessage_connected initialised (checked message (by simp)) found connected)]
    rw [ih (node.handOver c target message) initialised found (fun m member => checked m (by simp [member]))]
    simp [handOver]

theorem exec_SendQueued_connected {target : NetworkIdentity} {c : Connection} (initialised : node.IsInit = true)
    (found : node.findTarget target = some c) (connected : c.state = .eConnected) (valid : Valid node) :
    exec (SendQueued target) node = (.ok (),{node with
      walked := none
      handed := node.handed ++ (node.queueOf target).map (handover c target)
      QueuedPacketsOnConnect := node.QueuedPacketsOnConnect.erase ⟨target⟩}) := by
  have checked : ∀ message ∈ node.queueOf target, message.1.Validate = true := by
    intro message member
    obtain ⟨element,inside,rfl⟩ := List.mem_map.mp member
    exact valid element (List.mem_of_mem_filter inside)
  rw [SendQueued,exec_get_bind,exec_modify_bind]
  rw [exec_bind_ok _ _ _ _ _
    (exec_forM_handed {node with walked := some ⟨target⟩} _ initialised found connected checked)]
  rfl

theorem queue_handed {target : NetworkIdentity} (c : Connection) (who : NetworkIdentity) (node : Interlink) :
    KeyedQueue.of ⟨target⟩ ((node.handed ++ (node.queueOf who).map (handover c who)).map
        (fun call => ((⟨call.who⟩ : MapKey),call.message))) ++
        (node.QueuedPacketsOnConnect.erase ⟨who⟩).queue ⟨target⟩ =
      KeyedQueue.of ⟨target⟩ node.handedTo ++ node.queueOf target := by
  have keyed : ((node.queueOf who).map (handover c who)).map (fun call => ((⟨call.who⟩ : MapKey),call.message)) =
      (node.queueOf who).map (fun message => ((⟨who⟩ : MapKey),message)) := List.map_map
  rw [List.map_append,KeyedQueue.of_append,keyed]
  by_cases same : ((⟨who⟩ : MapKey) == ⟨target⟩) = true
  · rw [KeyedQueue.of_map_same _ _ _ same,KeyedQueue.queue_erase_same _ _ _ same,List.append_nil]
    rw [queueOf,queueOf,KeyedQueue.queue,KeyedQueue.of_congr _ _ _ same]
    rfl
  · rw [Bool.not_eq_true] at same
    rw [KeyedQueue.of_map_other _ _ _ same,KeyedQueue.queue_erase_other _ _ _ same,List.append_nil]
    rfl

/-- The callback of an internal peer, under the condition on its queue. -/
theorem exec_CallbackOnConnected_orderly {info : CallbackInfo} {Gen : UUID} {outcome : Option Fault} {v : Connection}
    (sound : Sound node) (valid : Valid node) (found : node.findHandle info.m_hConn = some v)
    (internal : v.IsInternal = true) (orderly : Orderly node (.connected info Gen outcome)) :
    ∃ next, exec (CallbackOnConnected info Gen outcome) node = (.ok (),next) ∧ Valid next ∧
      ∀ target, KeyedQueue.of ⟨target⟩ next.handedTo ++ next.queueOf target =
        KeyedQueue.of ⟨target⟩ node.handedTo ++ node.queueOf target := by
  have here : (node.modifyHandle info.m_hConn (·.SetNewState .eConnected)).findHandle info.m_hConn =
      some (v.SetNewState .eConnected) := by
    rw [findHandle,modifyHandle_Connections,Table.find_modify]
    · exact congrArg (Option.map _) found
    · exact fun entry chosen => (Connection.isHandle_iff _ _).mpr
        ((Connection.isHandle_iff _ entry).mp (Table.find_chosen chosen))
  rw [exec_CallbackOnConnected_internal found internal]
  by_cases empty : node.queueOf v.target = []
  · exact ⟨node.modifyHandle info.m_hConn (·.SetNewState .eConnected),exec_FlushQueue_empty here empty,valid,
      fun _ => rfl⟩
  · obtain ⟨c,looked,state⟩ := orderly v found internal empty
    have after : (node.modifyHandle info.m_hConn (·.SetNewState .eConnected)).findTarget v.target =
        some (if c.isHandle info.m_hConn then c.SetNewState .eConnected else c) :=
      Table.find_modify_other (fun _ => rfl) (sound.handle_once info.m_hConn) looked
    have connected : (if c.isHandle info.m_hConn then c.SetNewState .eConnected else c).state = .eConnected := by
      split
      · rfl
      · rename_i other
        exact state.resolve_right other
    rw [exec_FlushQueue_waiting here empty]
    refine ⟨_,exec_SendQueued_connected sound.initialised after connected valid,valid_erase valid,?_⟩
    exact fun target => queue_handed _ v.target (node.modifyHandle info.m_hConn (·.SetNewState .eConnected))

theorem FlushQueue_sends {h : HSteamNetConnection} {v : Connection} (found : node.findHandle h = some v)
    (ran : exec (FlushQueue h) node = (.ok (),next)) : next = node ∨ exec (SendQueued v.target) node = (.ok (),next) := by
  by_cases empty : node.queueOf v.target = []
  · rw [exec_FlushQueue_empty found empty] at ran
    exact .inl (Prod.mk.inj ran).2.symm
  · rw [exec_FlushQueue_waiting found empty] at ran
    exact .inr ran

theorem FlushQueue_beside {h : HSteamNetConnection} {v : Connection} (found : node.findHandle h = some v)
    (external : v.IsInternal = false) (ran : exec (FlushQueue h) node = (.ok (),next)) : Beside node next := by
  rcases FlushQueue_sends found ran with rfl | sent
  · exact fun _ _ => ⟨rfl,rfl⟩
  · exact SendQueued_beside external sent

theorem FlushQueue_valid {h : HSteamNetConnection} {v : Connection} (found : node.findHandle h = some v)
    (before : Valid node) (ran : exec (FlushQueue h) node = (.ok (),next)) : Valid next := by
  rcases FlushQueue_sends found ran with rfl | sent
  · exact before
  · exact SendQueued_valid before sent

theorem connected_beside {info : CallbackInfo} {Gen : UUID} {outcome : Option Fault} {v : Connection}
    (valid : Valid node) (found : node.findHandle info.m_hConn = some v) (external : v.IsInternal = false)
    (ran : exec (CallbackOnConnected info Gen outcome) node = (.ok (),next)) : Beside node next ∧ Valid next := by
  obtain ⟨same,greeted,known,greeting,flushed⟩ := CallbackOnConnected_returned ran
  rw [found] at known
  cases known
  have there := greeting.findHandle found
  have outside := (IsInternal_welcomed v Gen).trans external
  have changed : Beside node (node.modifyHandle info.m_hConn (·.SetNewState .eConnected)) := fun _ _ => ⟨rfl,rfl⟩
  exact ⟨(changed.trans greeting.beside).trans (FlushQueue_beside there outside flushed),
    FlushQueue_valid there (greeting.valid valid) flushed⟩

theorem quiet_mail (ran : exec (act event) node = (.ok (),next))
    (unsent : ∀ who packet sendFlag, event ≠ .send who packet sendFlag)
    (unflushed : ∀ info Gen outcome, event ≠ .connected info Gen outcome) :
    next.handed = node.handed ∧ next.QueuedPacketsOnConnect = node.QueuedPacketsOnConnect := by
  cases event with
  | send who packet sendFlag => exact absurd rfl (unsent who packet sendFlag)
  | connected info Gen outcome => exact absurd rfl (unflushed info Gen outcome)
  | establishTo id =>
    obtain ⟨_,established⟩ := discard_returned ran
    exact (EstablishConnectionTo_returned established).mail
  | establishAtIP id address =>
    obtain ⟨_,established⟩ := discard_returned ran
    rcases EstablishConnectionAtIP_returned established with rfl | ⟨_,rfl⟩ <;> exact ⟨rfl,rfl⟩
  | connecting info accepted =>
    rcases CallbackOnConnecting_returned ran with ⟨_,_,rfl⟩ | ⟨_,rfl⟩ | ⟨_,_,_,_,rfl⟩ <;> exact ⟨rfl,rfl⟩
  | receive messages =>
    rw [ReceiveMessages_returned ran]
    exact ⟨rfl,rfl⟩
  | close id =>
    rw [CloseConnectionTo_returned ran]
    exact ⟨rfl,rfl⟩
  | closedByPeer h =>
    rw [CallbackOnClosedByPear_returned ran]
    exact ⟨rfl,rfl⟩
  | _ =>
    obtain rfl := (Prod.mk.inj ran).2
    exact ⟨rfl,rfl⟩

theorem Sent.in_order {who : NetworkIdentity} {packet : IPacket} {sendFlag : NetworkMessageSendFlag}
    (sent : Sent who (packet,sendFlag) node next) (orderly : Orderly node (.send who packet sendFlag))
    (target : NetworkIdentity) (internal : target.IsInternal = true) :
    KeyedQueue.of ⟨target⟩ next.handedTo ++ next.queueOf target =
      KeyedQueue.of ⟨target⟩ node.handedTo ++ node.queueOf target ++
        KeyedQueue.of ⟨target⟩ [((⟨who⟩ : MapKey),(packet,sendFlag))] := by
  cases sent with
  | handed c found connected =>
    rw [handedTo_handOver,KeyedQueue.of_append]
    by_cases same : ((⟨who⟩ : MapKey) == ⟨target⟩) = true
    · have inside : who.IsInternal = true :=
        (NetworkIdentity.IsInternal_congr ((MapKey.beq_iff _ _).mp same).2).trans internal
      have none : node.queueOf target = [] :=
        (KeyedQueue.of_congr _ _ _ (BEq.symm same)).trans (orderly inside c found connected)
      have kept : (node.handOver c who (packet,sendFlag)).queueOf target = node.queueOf target := rfl
      rw [kept,none,List.append_nil,List.append_nil]
    · rw [Bool.not_eq_true] at same
      rw [KeyedQueue.of_single_other _ _ _ same,List.append_nil,List.append_nil]
      rfl
  | queued middle waiting dialled =>
    obtain ⟨handed,queued⟩ := dialled.mail
    have kept : (middle.enqueue who (packet,sendFlag)).handedTo = node.handedTo := congrArg (List.map _) handed
    rw [kept,queueOf_enqueue,queueOf,queued,List.append_assoc]
    rfl

/-- What an orderly step adds to the messages of an internal target is what it was
asked to send. -/
theorem step_in_order (sound : Sound node) (valid : Valid node) (orderly : Orderly node event)
    (ran : exec (act event) node = (.ok (),next)) :
    Valid next ∧ ∀ target : NetworkIdentity, target.IsInternal = true →
      KeyedQueue.of ⟨target⟩ next.handedTo ++ next.queueOf target =
        KeyedQueue.of ⟨target⟩ node.handedTo ++ node.queueOf target ++ KeyedQueue.of ⟨target⟩ (sentBy event) := by
  by_cases sending : ∃ who packet sendFlag, event = .send who packet sendFlag
  · obtain ⟨who,packet,sendFlag,rfl⟩ := sending
    obtain ⟨checked,sent⟩ := SendMessage_returned ran
    exact ⟨sent.valid checked valid,fun target internal => sent.in_order orderly target internal⟩
  · by_cases flushing : ∃ info Gen outcome, event = .connected info Gen outcome
    · obtain ⟨info,Gen,outcome,rfl⟩ := flushing
      obtain ⟨v,_,found,_⟩ := CallbackOnConnected_returned ran
      simp only [sentBy,KeyedQueue.of_nil,List.append_nil]
      cases which : v.IsInternal with
      | true =>
        obtain ⟨reached,done,kept,same⟩ := exec_CallbackOnConnected_orderly sound valid found which orderly
        change exec (CallbackOnConnected info Gen outcome) node = _ at ran
        obtain rfl := (Prod.mk.inj (done.symm.trans ran)).2
        exact ⟨kept,fun target _ => same target⟩
      | false =>
        obtain ⟨beside,kept⟩ := connected_beside valid found which ran
        refine ⟨kept,fun target internal => ?_⟩
        rw [(beside target internal).1,(beside target internal).2]
    · obtain ⟨handed,queued⟩ := quiet_mail ran (fun who packet sendFlag same => sending ⟨who,packet,sendFlag,same⟩)
        (fun info Gen outcome same => flushing ⟨info,Gen,outcome,same⟩)
      have unsent : sentBy event = [] := by
        cases event with
        | send who packet sendFlag => exact absurd ⟨who,packet,sendFlag,rfl⟩ sending
        | _ => rfl
      refine ⟨?_,fun target _ => ?_⟩
      · rw [Valid,queued]
        exact valid
      · rw [unsent,KeyedQueue.of_nil,List.append_nil,handedTo,handed,queueOf,queued]
        rfl

end Steps

/-- Along an orderly run nothing is lost, doubled or overtaken, and no callback of an
internal peer runs into a queue that changes under it. -/
theorem delivery_in_order {run : Run}
    (reached : interlink.ReachableWhile (fun run event => Orderly run.node event) run) :
    InOrder run ∧ ∀ info Gen outcome v, run.node.findHandle info.m_hConn = some v → v.IsInternal = true →
      Orderly run.node (.connected info Gen outcome) →
        ∃ next, exec (CallbackOnConnected info Gen outcome) run.node = (.ok (),next) := by
  have invariant : (Sound run.node ∧ Valid run.node) ∧ InOrder run := by
    apply reached.invariant (fun run => (Sound run.node ∧ Valid run.node) ∧ InOrder run)
    · intro state start
      refine ⟨⟨start.1.sound,fresh_valid start.1⟩,fun target _ => ?_⟩
      rw [handedTo,start.1.unhanded,queueOf,start.1.unqueued,start.2]
      rfl
    · intro state event next before orderly taken
      obtain ⟨⟨sound,valid⟩,inOrder⟩ := before
      obtain ⟨possible,ran,sent⟩ := taken
      obtain ⟨kept,moved⟩ := step_in_order sound valid orderly ran
      refine ⟨⟨step_sound sound possible ran,kept⟩,fun target internal => ?_⟩
      rw [moved target internal,inOrder target internal,sent,KeyedQueue.of_append]
  refine ⟨invariant.2,fun info Gen outcome v found internal orderly => ?_⟩
  obtain ⟨next,ran,_⟩ := exec_CallbackOnConnected_orderly invariant.1.1 invariant.1.2 found internal orderly
  exact ⟨next,ran⟩

end Order

def query : IPacket :=
  {packet_type := PacketClass.LocalEntityListRequestPacket.TypeID,data := .localEntityList ⟨0,false,.minimal []⟩}

theorem query_valid : query.Validate = true := by decide +kernel

def proxy : Run := started ⟨.eProxy,.nil⟩

def dialling : Connection := outgoing .MakeIDWatchDog {} .eExternal

def dialled : Interlink := proxy.node.insert dialling

theorem dialled_reachable [Platform] {allowed : Run → Event → Prop}
    (meets : allowed proxy (.establishAtIP .MakeIDWatchDog {})) :
    interlink.ReachableWhile allowed {node := dialled} := by
  refine .step proxy (Event.establishAtIP .MakeIDWatchDog {}) {node := dialled} ?_ meets ?_
  · exact .initial proxy (started_initial _)
  · exact step_of trivial rfl

theorem dialled_target : dialled.findTarget .MakeIDWatchDog = some dialling := findTarget_head rfl rfl

def waiting : Run where
  node := {dialled.enqueue .MakeIDWatchDog (query,.eReliableNow) with Connections := [generated (some 1) dialling]}
  sent := [(⟨.MakeIDWatchDog⟩,(query,.eReliableNow))]

theorem delivery_in_order_waiting : @InOrder fnvPlatform waiting ∧ ∀ info Gen outcome v,
    waiting.node.findHandle info.m_hConn = some v → v.IsInternal = true →
      @Orderly fnvPlatform waiting.node (.connected info Gen outcome) →
        ∃ next, exec (@CallbackOnConnected fnvPlatform info Gen outcome) waiting.node = (.ok (),next) := by
  refine @delivery_in_order fnvPlatform waiting ?_
  let _ := fnvPlatform
  have queued : interlink.ReachableWhile (fun run event => Orderly run.node event)
      {node := dialled.enqueue .MakeIDWatchDog (query,.eReliableNow)
       sent := [(⟨.MakeIDWatchDog⟩,(query,.eReliableNow))]} := by
    refine .step {node := dialled} (Event.send .MakeIDWatchDog query .eReliableNow) _ (dialled_reachable trivial) ?_ ?_
    · intro _ c same connected
      rw [dialled_target] at same
      cases same
      cases connected
    · exact step_of trivial (exec_SendMessage_waiting rfl query_valid rfl dialled_target (.inl rfl))
  refine .step _ (Event.generate [some 1]) waiting queued trivial ?_
  exact step_of (possible_generated List.not_mem_nil) rfl

/-- Both sides connect at once: the connection of this side is under way, and the one
of the other side is accepted. -/
def answered : Interlink :=
  ({dialled with Connections := [generated (some 1) dialling]} : Interlink).insert
    (incoming (contact 2 .MakeIDWatchDog {}) .MakeIDWatchDog)

def crossed : Interlink := answered.modifyHandle 2 (·.SetNewState .eConnected)

theorem crossed_reachable : (@interlink fnvPlatform).Reachable {node := crossed} := by
  let _ := fnvPlatform
  have called : interlink.Reachable {node := {dialled with Connections := [generated (some 1) dialling]}} := by
    refine .step _ (Event.generate [some 1]) _ (dialled_reachable trivial) trivial ?_
    exact step_of (possible_generated List.not_mem_nil) rfl
  have accepted : interlink.Reachable {node := answered} := called.step _ _ _ trivial (step_contact rfl)
  have ran : exec (CallbackOnConnected (contact 2 .MakeIDWatchDog {}) .nil none) answered = (.ok (),crossed) :=
    (exec_CallbackOnConnected_internal rfl rfl).trans (exec_FlushQueue_empty rfl rfl)
  refine accepted.step _ (Event.connected (contact 2 .MakeIDWatchDog {}) .nil none) _ trivial ?_
  exact step_of trivial ran

/-- The connection of this side has failed, and a query waits for it. -/
def failed : Interlink := (crossed.enqueue .MakeIDWatchDog (query,.eReliableNow)).eraseHandle 1

def standing : Connection := (incoming (contact 2 .MakeIDWatchDog {}) .MakeIDWatchDog).SetNewState .eConnected

theorem failed_target : failed.findTarget .MakeIDWatchDog = some standing :=
  findTarget_head (show failed.Connections = [standing] from rfl) rfl

/-- The next query is handed over on the connection of the other side. -/
def overtaken : Run where
  node := failed.handOver standing .MakeIDWatchDog (query,.eReliableBatched)
  sent := [(⟨.MakeIDWatchDog⟩,(query,.eReliableNow)),(⟨.MakeIDWatchDog⟩,(query,.eReliableBatched))]

theorem crossing_connections_reorder :
    (@interlink fnvPlatform).Reachable overtaken ∧ ¬ @InOrder fnvPlatform overtaken := by
  let _ := fnvPlatform
  have queued : interlink.Reachable {node := crossed.enqueue .MakeIDWatchDog (query,.eReliableNow)
                                     sent := [(⟨.MakeIDWatchDog⟩,(query,.eReliableNow))]} := by
    refine crossed_reachable.step _ (Event.send .MakeIDWatchDog query .eReliableNow) _ trivial ?_
    exact step_of trivial (exec_SendMessage_waiting rfl query_valid rfl (findTarget_head rfl rfl) (.inl rfl))
  have lost : interlink.Reachable {node := failed,sent := [(⟨.MakeIDWatchDog⟩,(query,.eReliableNow))]} := by
    refine queued.step _ (Event.problem 1) _ trivial ?_
    exact step_of trivial rfl
  refine ⟨?_,fun inOrder => ?_⟩
  · refine lost.step _ (Event.send .MakeIDWatchDog query .eReliableBatched) _ trivial ?_
    exact step_of trivial (exec_SendMessage_connected rfl query_valid failed_target rfl)
  · have messages := inOrder .MakeIDWatchDog rfl
    have handed : KeyedQueue.of ⟨.MakeIDWatchDog⟩ overtaken.node.handedTo = [(query,.eReliableBatched)] :=
      KeyedQueue.of_single_same _ _ _ BEq.rfl
    have passed : KeyedQueue.of ⟨.MakeIDWatchDog⟩ overtaken.sent =
        [(query,.eReliableNow),(query,.eReliableBatched)] := by
      have tagged : overtaken.sent = [(query,NetworkMessageSendFlag.eReliableNow),(query,.eReliableBatched)].map
        (fun message => ((⟨.MakeIDWatchDog⟩ : MapKey),message)) := rfl
      rw [tagged]
      exact KeyedQueue.of_map_same _ _ _ BEq.rfl
    rw [handed,passed] at messages
    have flags := congrArg Prod.snd (List.cons.inj messages).1
    cases flags

end AtlasNet.Interlink
