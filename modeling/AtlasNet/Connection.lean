import AtlasNet.NetworkIdentity

/-! Addresses, identities and connections of the transport, and the keys of a map
from network identities. -/
namespace AtlasNet
open Foundation Foundation.Program

structure IPAddress where
  m_ipv6 : Bytes := List.replicate 16 0
  m_port : UInt16 := 0
deriving DecidableEq

namespace IPAddress

/-- An IPv4 address stands in the last four bytes. -/
def IsIPv4 (address : IPAddress) : Bool := address.m_ipv6.take 12 = List.replicate 10 0 ++ [255,255]

def GetIPv4 (address : IPAddress) : UInt32 := UInt32.ofNat (BigEndian.decode (address.m_ipv6.drop 12))

def Serialize {σ : Type} (address : IPAddress) (bw : ByteWriter) : Program σ ByteWriter :=
  if address.IsIPv4 then pure (((bw.u8 1).u16 address.m_port).u32 address.GetIPv4)
  else throw (.assertion "not implemented")

end IPAddress

/-- What the standard library and the transport library decide. -/
class Platform where
  /-- `std::hash<std::string_view>` -/
  stringHash : Bytes → UInt64
  /-- `SteamNetworkingIPAddr::ParseString` -/
  ParseString : Bytes → IPAddress
  /-- the number of elements a vector can hold, a `size_t` -/
  capacity : Nat
  capacity_size : capacity < 2^64

/-- Strings are hashed by FNV-1a, and no text is an address. -/
@[reducible] def fnvPlatform : Platform where
  stringHash bytes := bytes.foldl (fun hash byte => (hash ^^^ byte.toUInt64)*1099511628211) 14695981039346656037
  ParseString _ := {}
  capacity := 2^32
  capacity_size := by decide

structure MapKey where
  identity : NetworkIdentity

section Keys
variable [Platform]

/-- `std::hash<NetworkIdentity>`, of the type code and the bytes of the UUID. -/
def NetworkIdentity.stdHash (key : NetworkIdentity) : UInt64 :=
  let h1 : UInt64 := key.type.code.toInt64.toUInt64
  let h2 := Platform.stringHash key.ID.data
  h1 ^^^ (h2+(0x9e3779b97f4a7c15 : UInt64)+(h1 <<< 6)+(h1 >>> 2))

/-- Keys meet when their hashes and their texts are equal. -/
instance : BEq MapKey :=
  ⟨fun a b => a.identity.stdHash == b.identity.stdHash && a.identity == b.identity⟩

theorem MapKey.beq_iff (a b : MapKey) :
    (a == b) = true ↔ a.identity.stdHash = b.identity.stdHash ∧ (a.identity == b.identity) = true := by
  change (a.identity.stdHash == b.identity.stdHash && a.identity == b.identity) = true ↔ _
  rw [Bool.and_eq_true,beq_iff_eq]

instance : EquivBEq MapKey where
  rfl := (MapKey.beq_iff _ _).mpr ⟨rfl,BEq.rfl⟩
  symm same := (MapKey.beq_iff _ _).mpr
    ⟨((MapKey.beq_iff _ _).mp same).1.symm,BEq.symm ((MapKey.beq_iff _ _).mp same).2⟩
  trans first second := (MapKey.beq_iff _ _).mpr
    ⟨((MapKey.beq_iff _ _).mp first).1.trans ((MapKey.beq_iff _ _).mp second).1,
      BEq.trans ((MapKey.beq_iff _ _).mp first).2 ((MapKey.beq_iff _ _).mp second).2⟩

end Keys

/-- `SteamNetworkingIdentity`; its generic bytes are at most 32. -/
inductive SteamNetworkingIdentity
  | invalid
  | genericBytes (bytes : Bytes) (short : bytes.length ≤ 32)
  | other

def SteamNetworkingIdentity.GetGenericBytes : SteamNetworkingIdentity → Option Bytes
  | .genericBytes bytes _ => some bytes
  | _ => none

theorem SteamNetworkingIdentity.GetGenericBytes_short {remote : SteamNetworkingIdentity} {bytes : Bytes}
    (presents : remote.GetGenericBytes = some bytes) : bytes.length ≤ 32 := by
  cases remote with
  | genericBytes own short =>
    cases presents
    exact short
  | invalid => cases presents
  | other => cases presents

abbrev HSteamNetConnection := UInt32

inductive ConnectionState
  | eInvalid | ePreConnecting | eConnecting | eConnected | eDisconnecting | eClosed | eError
deriving DecidableEq

inductive ConnectionKind
  | eInternal | eExternal
deriving DecidableEq

/-- A connection has no handle before the transport has given it one; until then `SteamConnection`
is uninitialised in the source. -/
structure Connection where
  address : IPAddress := {}
  oldState : ConnectionState := .eInvalid
  state : ConnectionState := .eInvalid
  target : NetworkIdentity := {}
  SteamConnection : Option HSteamNetConnection := none
  kind : ConnectionKind := .eInternal

namespace Connection

def IsInternal (c : Connection) : Bool := c.target.IsInternal

def SetNewState (newState : ConnectionState) (c : Connection) : Connection :=
  {c with oldState := c.state,state := newState}

def isTarget (who : NetworkIdentity) (c : Connection) : Bool := c.target == who

def isHandle (h : HSteamNetConnection) (c : Connection) : Bool := c.SteamConnection = some h

@[simp] theorem SetNewState_state (newState : ConnectionState) (c : Connection) :
    (c.SetNewState newState).state = newState := rfl

@[simp] theorem SetNewState_target (newState : ConnectionState) (c : Connection) :
    (c.SetNewState newState).target = c.target := rfl

@[simp] theorem SetNewState_SteamConnection (newState : ConnectionState) (c : Connection) :
    (c.SetNewState newState).SteamConnection = c.SteamConnection := rfl

theorem isHandle_iff (h : HSteamNetConnection) (c : Connection) :
    c.isHandle h = true ↔ c.SteamConnection = some h := by
  simp [isHandle]

end Connection

end AtlasNet
