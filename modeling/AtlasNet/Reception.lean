import AtlasNet.InterlinkRuns
import AtlasNet.PacketFormat

/-! Which batches of received messages the tick gets through. -/
namespace AtlasNet.Interlink
open Foundation Foundation.Program

section Received
variable [Platform]

/-- The message begins with the bytes of a packet of a registered class that validates. -/
def WellFormed (factories : PacketRegistry) (msg : Message) : Prop := ∃ packet, factories.format.Begins msg.data packet

/-- The packets are those of the well-formed messages, in their order. -/
inductive Delivered (factories : PacketRegistry) : List Message → List IPacket → Prop
  | nil : Delivered factories [] []
  | wellFormed (msg : Message) (rest : List Message) (packet : IPacket) (packets : List IPacket)
      (stands : factories.format.Begins msg.data packet) (later : Delivered factories rest packets) :
      Delivered factories (msg::rest) (packet::packets)
  | malformed (msg : Message) (rest : List Message) (packets : List IPacket)
      (none : ¬ WellFormed factories msg) (later : Delivered factories rest packets) :
      Delivered factories (msg::rest) packets

/-- The batch is received to its end: every message is released, and the well-formed
ones are dispatched, each once. -/
def Receives (node : Interlink) (messages : List Message) : Prop :=
  ∃ next packets, exec (ReceiveMessages messages) node = (.ok (),next) ∧
    next.released = node.released+messages.length ∧
    next.dispatched.map (·.2) = node.dispatched.map (·.2) ++ packets ∧ Delivered node.factories messages packets

def Expected (node : Interlink) (msg : Message) : Prop :=
  (node.findHandle msg.m_conn).isSome ∧ WellFormed node.factories msg

section Batches
variable {node next : Interlink}

theorem exec_ReceiveMessage {msg : Message} {sender : Connection} {packet : IPacket}
    (found : node.findHandle msg.m_conn = some sender) (stands : node.factories.format.Begins msg.data packet) :
    exec (ReceiveMessage msg) node =
      (.ok (),{node with dispatched := node.dispatched ++ [(sender.target,packet)],released := node.released+1}) := by
  rw [ReceiveMessage,exec_get_bind]
  simp only [found]
  rw [exec_bind_ok _ _ _ _ _ ((PacketRegistry.CreateFromBytes_iff ..).mpr stands)]
  rfl

theorem ReceiveMessage_returned {msg : Message} (ran : exec (ReceiveMessage msg) node = (.ok (),next)) :
    ∃ sender packet, node.findHandle msg.m_conn = some sender ∧ node.factories.format.Begins msg.data packet ∧
      next = {node with dispatched := node.dispatched ++ [(sender.target,packet)],released := node.released+1} := by
  obtain ⟨sender,packet,found,created,rfl⟩ := ReceiveMessage_dispatches ran
  exact ⟨sender,packet,found,(PacketRegistry.CreateFromBytes_iff ..).mp created,rfl⟩

theorem ReceiveMessages_expected (messages : List Message)
    (ran : exec (ReceiveMessages messages) node = (.ok (),next)) : ∀ msg ∈ messages, Expected node msg := by
  induction messages generalizing node with
  | nil => exact fun msg member => absurd member (List.not_mem_nil)
  | cons first rest ih =>
    rw [ReceiveMessages,exec_forM_cons] at ran
    obtain ⟨_,middle,started,finished⟩ := bind_returned _ _ _ _ _ ran
    obtain ⟨sender,packet,found,stands,rfl⟩ := ReceiveMessage_returned started
    intro msg member
    rcases List.mem_cons.mp member with rfl | later
    · exact ⟨by rw [found]; rfl,packet,stands⟩
    · exact ih finished msg later

theorem receives_expected (messages : List Message) (expected : ∀ msg ∈ messages, Expected node msg) :
    Receives node messages := by
  induction messages generalizing node with
  | nil => exact ⟨node,[],rfl,rfl,(List.append_nil _).symm,.nil⟩
  | cons first rest ih =>
    obtain ⟨known,packet,stands⟩ := expected first (by simp)
    obtain ⟨sender,found⟩ := Option.isSome_iff_exists.mp known
    have later : ∀ msg ∈ rest, Expected {node with
        dispatched := node.dispatched ++ [(sender.target,packet)],released := node.released+1} msg :=
      fun msg member => expected msg (List.mem_cons_of_mem _ member)
    obtain ⟨next,packets,ran,released,dispatched,delivered⟩ := ih later
    refine ⟨next,packet::packets,?_,?_,?_,.wellFormed first rest packet packets stands delivered⟩
    · rw [ReceiveMessages,exec_forM_cons,exec_bind_ok _ _ _ _ _ (exec_ReceiveMessage found stands)]
      exact ran
    · rw [released,List.length_cons]
      change node.released+1+rest.length = node.released+(rest.length+1)
      omega
    · rw [dispatched]
      simp

/-- A batch is received as it should be exactly when every message comes from a
connection of the table and is well formed. -/
theorem receives_exactly (node : Interlink) (messages : List Message) :
    Receives node messages ↔ ∀ msg ∈ messages, Expected node msg := by
  constructor
  · rintro ⟨next,packets,ran,_⟩
    exact ReceiveMessages_expected messages ran
  · exact receives_expected messages

end Batches

end Received

/-- An empty message of a connected peer ends the tick. -/
theorem empty_message_escapes : ¬ @Receives fnvPlatform
    ((started ⟨.eProxy,.nil⟩).node.insert (incoming (contact 1 .MakeIDWatchDog {}) .MakeIDWatchDog))
    [{m_conn := 1,data := []}] := by
  let _ := fnvPlatform
  rintro ⟨next,packets,ran,_⟩
  obtain ⟨_,packet,stands⟩ := ReceiveMessages_expected _ ran _ List.mem_cons_self
  have created := (PacketRegistry.CreateFromBytes_iff _ _ _ ()).mpr stands
  cases (Prod.mk.inj created).1

end AtlasNet.Interlink
