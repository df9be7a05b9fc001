import AtlasNet.Packet
import AtlasNet.Registries
import AtlasNet.Foundation.KeyedQueue
import AtlasNet.Foundation.Table

/-! Interlink: the table of connections, the packets that wait for a connection, and
the functions and callbacks that change them. What the transport answers to a call
is an argument of the function that makes the call. -/
namespace AtlasNet
open Foundation Foundation.Program

inductive NetworkMessageSendFlag
  | eImmidiateOrDrop | eUnreliableNow | eUnreliableBatched | eReliableNow | eReliableBatched
deriving DecidableEq

/-- A packet with its flag, as it is sent or queued. -/
abbrev Outgoing := IPacket × NetworkMessageSendFlag

/-- A call of `SendMessageToConnection`, with the identity it was made for. -/
structure Handover where
  SteamConnection : Option HSteamNetConnection
  who : NetworkIdentity
  message : Outgoing
  data_span : Bytes

structure Message where
  m_conn : HSteamNetConnection
  data : Bytes

/-- `SteamNetConnectionStatusChangedCallback_t`. -/
structure CallbackInfo where
  m_hConn : HSteamNetConnection
  m_addrRemote : IPAddress
  m_identityRemote : SteamNetworkingIdentity

structure Interlink where
  /-- the identity of the process, `NetworkCredentials::Get().GetID()` -/
  ID : NetworkIdentity
  IsInit : Bool := false
  Connections : List Connection := []
  QueuedPacketsOnConnect : KeyedQueue MapKey Outgoing := {}
  /-- the queue that a loop holds an iterator into -/
  walked : Option MapKey := none
  handed : List Handover := []
  factories : PacketRegistry
  dispatched : List (NetworkIdentity × IPacket) := []
  released : Nat := 0
  /-- what was passed to `CloseConnection`; an entry that was given no handle has none to pass -/
  closed : List (Option HSteamNetConnection) := []
  db : Redis.Database

namespace Interlink

def InternalDB {α : Type} (command : Redis.Command α) : Program Interlink α :=
  zoom Interlink.db (fun db node => {node with db := db}) command

def findTarget (node : Interlink) (who : NetworkIdentity) : Option Connection :=
  Table.find (Connection.isTarget who) node.Connections

def findHandle (node : Interlink) (h : HSteamNetConnection) : Option Connection :=
  Table.find (Connection.isHandle h) node.Connections

def insert (c : Connection) (node : Interlink) : Interlink :=
  {node with Connections := node.Connections ++ [c]}

def modifyHandle (h : HSteamNetConnection) (f : Connection → Connection) (node : Interlink) : Interlink :=
  {node with Connections := Table.modify (Connection.isHandle h) f node.Connections}

def eraseHandle (h : HSteamNetConnection) (node : Interlink) : Interlink :=
  {node with Connections := Table.erase (Connection.isHandle h) node.Connections}

def eraseTarget (who : NetworkIdentity) (node : Interlink) : Interlink :=
  {node with Connections := Table.erase (Connection.isTarget who) node.Connections}

def closing (conn : Option HSteamNetConnection) (node : Interlink) : Interlink :=
  {node with closed := node.closed ++ [conn]}

def enqueue (who : NetworkIdentity) (message : Outgoing) (node : Interlink) : Interlink :=
  {node with QueuedPacketsOnConnect := node.QueuedPacketsOnConnect.push ⟨who⟩ message}

def handover (c : Connection) (who : NetworkIdentity) (message : Outgoing) : Handover :=
  {SteamConnection := c.SteamConnection,who,message,data_span := (message.1.Serialize {}).buf}

def handOver (c : Connection) (who : NetworkIdentity) (message : Outgoing) (node : Interlink) : Interlink :=
  {node with handed := node.handed ++ [handover c who message]}

section Functions
variable [Platform]

def queueOf (node : Interlink) (who : NetworkIdentity) : List Outgoing :=
  node.QueuedPacketsOnConnect.queue ⟨who⟩

/-- The states of an entry that an attempt to connect leaves as it is. -/
def settled (c : Connection) : Bool :=
  c.state = .eConnected ∨ c.state = .eConnecting ∨ c.state = .ePreConnecting

def outgoing (target : NetworkIdentity) (address : IPAddress) (kind : ConnectionKind) : Connection :=
  ({address,target,kind} : Connection).SetNewState .ePreConnecting

/-- The retries of `EstablishConnectionTo`. -/
def GetIPOfID_retry (id : NetworkIdentity) : Nat → Option IPAddress → Program Interlink (Option IPAddress)
  | 0,IP => pure IP
  | _+1,some IP => pure (some IP)
  | tries+1,none => do
    let IP ← InternalDB (ServerRegistry.GetIPOfID id)
    GetIPOfID_retry id tries IP

/-- The branch of `EstablishConnectionTo` for an identity that has no live entry. -/
def EstablishConnectionTo_new (id : NetworkIdentity) : Program Interlink Bool := do
  if id.IsInternal then
    let IP ← InternalDB (ServerRegistry.GetIPOfID id)
    match ← GetIPOfID_retry id 5 IP with
    | none =>
      -- the entries of the registry are read to be logged
      let _ ← InternalDB ServerRegistry.GetServers
      pure false
    | some address =>
      modify (insert (outgoing id address .eInternal))
      pure true
  else if id.type = .eGameClient then pure true
  else pure false

def EstablishConnectionTo (id : NetworkIdentity) : Program Interlink Bool := do
  let node ← get
  assert (node.ID.type ≠ .eGameClient) "Game client must use the ip one"
  if (node.findTarget id).any settled then pure true else EstablishConnectionTo_new id

def EstablishConnectionAtIP (id : NetworkIdentity) (address : IPAddress) : Program Interlink Bool := do
  let node ← get
  if (node.findTarget id).any settled then pure true
  else
    modify (insert (outgoing id address .eExternal))
    pure true

/-- A push onto the queue that is being walked may move its elements away. -/
def QueueMessageOnConnect (who : NetworkIdentity) (message : Outgoing) : Program Interlink Unit := do
  let node ← get
  throwIf (node.walked.any (· == ⟨who⟩)) (.undefined "push_back onto the walked vector")
  modify (enqueue who message)

def SendMessage (who : NetworkIdentity) (packet : IPacket) (sendFlag : NetworkMessageSendFlag) :
    Program Interlink Unit := do
  let node ← get
  assert (node.IsInit = true) "Interlink was not initialized"
  assert (packet.Validate = true) "Packet did not valite"
  match node.findTarget who with
  | none =>
    let _ ← EstablishConnectionTo who
    QueueMessageOnConnect who (packet,sendFlag)
  | some find =>
    if find.state = .eConnected then modify (handOver find who (packet,sendFlag))
    else if find.state = .ePreConnecting ∨ find.state = .eConnecting then
      QueueMessageOnConnect who (packet,sendFlag)
    else
      let _ ← EstablishConnectionTo who
      QueueMessageOnConnect who (packet,sendFlag)

/-- An entry after `ConnectByIPAddress`, which yields no handle when it fails. -/
def generated (result : Option HSteamNetConnection) (c : Connection) : Connection :=
  match result with
  | some conn => {c with SteamConnection := some conn}
  | none => c

/-- The loop of `GenerateNewConnections`, over the results of `ConnectByIPAddress`. -/
def GenerateNewConnections_loop : List Connection → List (Option HSteamNetConnection) → List Connection
  | [],_ => []
  | c::rest,results =>
    if c.state = .ePreConnecting then
      generated results.head?.join c::GenerateNewConnections_loop rest results.tail
    else c::GenerateNewConnections_loop rest results

def GenerateNewConnections (results : List (Option HSteamNetConnection)) : Program Interlink Unit :=
  modify fun node => {node with Connections := GenerateNewConnections_loop node.Connections results}

def presented {σ : Type} (remote : SteamNetworkingIdentity) : Program σ NetworkIdentity :=
  match remote.GetGenericBytes with
  | some identityByteStream => within NetworkIdentity.Deserialize {p := identityByteStream}
  | none => pure {}

def incoming (info : CallbackInfo) (ID : NetworkIdentity) : Connection :=
  {({SteamConnection := some info.m_hConn} : Connection).SetNewState .eConnecting with
    address := info.m_addrRemote,target := ID,
    kind := if ID.IsInternal then .eInternal else .eExternal}

/-- The registry is asked about an internal identity, and its answer is logged. -/
def knownServer (ID : NetworkIdentity) : Program Interlink Bool :=
  if ID.IsInternal then InternalDB (ServerRegistry.ExistsInRegistry ID) else pure false

/-- `networkInterface->CloseConnection`, as the call it is. -/
def CloseConnection (conn : Option HSteamNetConnection) : Program Interlink Unit := modify (closing conn)

/-- `accepted` is the result of `AcceptConnection`. -/
def CallbackOnConnecting (info : CallbackInfo) (accepted : Bool) : Program Interlink Unit := do
  let node ← get
  match node.findHandle info.m_hConn with
  | some _ => modify (modifyHandle info.m_hConn (·.SetNewState .eConnecting))
  | none =>
    let ID ← presented info.m_identityRemote
    let _ ← knownServer ID
    if accepted then modify (insert (incoming info ID)) else CloseConnection (some info.m_hConn)

def CallbackOnClosedByPear (h : HSteamNetConnection) : Program Interlink Unit := do
  let node ← get
  match node.findHandle h with
  | none => pure ()
  | some _ =>
    CloseConnection (some h)
    modify (eraseHandle h)

def CallbackOnProblemDetectedLocally (h : HSteamNetConnection) : Program Interlink Unit :=
  modify (eraseHandle h)

def CloseConnectionTo (id : NetworkIdentity) : Program Interlink Unit := do
  let node ← get
  match node.findTarget id with
  | none => pure ()
  | some it =>
    CloseConnection it.SteamConnection
    modify (eraseTarget id)

/-- The body is empty. -/
def CloseAllConnections : Program Interlink Unit := pure ()

/-- The tick thread ends, and no step follows. -/
def Shutdown : Program Interlink Unit := CloseAllConnections

/-- The end of the handlers of an event and of the handshake with a client. -/
def served {σ : Type} (outcome : Option Fault) : Program σ Unit :=
  match outcome with
  | none => pure ()
  | some fault => throw fault

def IDAssignPacket (newIdentity : NetworkIdentity) : IPacket :=
  {packet_type := PacketClass.ClientIDAssignPacket.TypeID,data := .clientIDAssign newIdentity}

/-- The branch of `OnClientConnected` for a client without an ID. -/
def AssignID (c : Connection) (h : HSteamNetConnection) (Gen : UUID) (outcome : Option Fault) :
    Program Interlink Unit := do
  let newIdentity : NetworkIdentity := ⟨c.target.type,Gen⟩
  modify (modifyHandle h ({· with target := newIdentity}))
  SendMessage newIdentity (IDAssignPacket newIdentity) .eReliableNow
  let client : Client := {ip := c.address,ID := Gen}
  InternalDB (ClientManifest.RegisterClient client)
  let node ← get
  InternalDB (ClientManifest.AssignProxyClient client.ID node.ID)
  served outcome

/-- `Gen` is the UUID that `UUIDGen::Gen` yields. -/
def OnClientConnected (c : Connection) (h : HSteamNetConnection) (Gen : UUID) (outcome : Option Fault) :
    Program Interlink Unit := do
  assert (c.target.type = .eGameClient) "Invalid Target"
  if c.target.ID.is_nil then AssignID c h Gen outcome else pure ()

/-- The loop over the queue, and the removal of the queue behind it. -/
def SendQueued (target : NetworkIdentity) : Program Interlink Unit := do
  let node ← get
  let queue := node.queueOf target
  modify ({· with walked := some ⟨target⟩})
  forM queue (fun message => SendMessage target message.1 message.2)
  modify fun node => {node with walked := none,QueuedPacketsOnConnect := node.QueuedPacketsOnConnect.erase ⟨target⟩}

def greet (c : Connection) (h : HSteamNetConnection) (Gen : UUID) (outcome : Option Fault) :
    Program Interlink Unit :=
  if c.IsInternal then pure () else OnClientConnected c h Gen outcome

/-- What follows the greeting reads the entry again. -/
def FlushQueue (h : HSteamNetConnection) : Program Interlink Unit := do
  let node ← get
  match node.findHandle h with
  | none => throw (.undefined "the entry is gone")
  | some v => if (node.queueOf v.target).isEmpty then pure () else SendQueued v.target

def CallbackOnConnected (info : CallbackInfo) (Gen : UUID) (outcome : Option Fault) :
    Program Interlink Unit := do
  let node ← get
  match node.findHandle info.m_hConn with
  | some v =>
    modify (modifyHandle info.m_hConn (·.SetNewState .eConnected))
    greet (v.SetNewState .eConnected) info.m_hConn Gen outcome
    FlushQueue info.m_hConn
  | none =>
    let _ ← presented info.m_identityRemote
    throw (.assertion "Connected? to non existent connection?, HSteamNetConnection was not found")

/-- `packet_manager.Dispatch`, as the call it is: none of its subscribers throws. -/
def Dispatch (sender : NetworkIdentity) (packet : IPacket) : Program Interlink Unit :=
  modify fun node => {node with dispatched := node.dispatched ++ [(sender,packet)]}

def Release : Program Interlink Unit := modify fun node => {node with released := node.released+1}

def ReceiveMessage (msg : Message) : Program Interlink Unit := do
  let node ← get
  match node.findHandle msg.m_conn with
  | none => throw (.undefined "dereference of end()")
  | some sender =>
    let packet ← node.factories.CreateFromBytes msg.data
    Dispatch sender.target packet
    Release

/-- The messages are those of `ReceiveMessagesOnPollGroup`. -/
def ReceiveMessages (pIncomingMessages : List Message) : Program Interlink Unit :=
  forM pIncomingMessages ReceiveMessage

end Functions

end Interlink

end AtlasNet
