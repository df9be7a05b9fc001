import AtlasNet.Packet
import AtlasNet.Foundation.System
import Mathlib.Logic.Function.Basic

/-! The packet manager: entries that it owns, subscriptions that deactivate theirs, and
dispatches over a snapshot of pointers, between whose callbacks anything else may run. -/
namespace AtlasNet
open Foundation

/-- An entry with a callback for the packets of a type. -/
structure CallbackEntry where
  alive : Bool := true
  id : UInt64
  type : PacketTypeID

/-- A pointer to an entry is the number of its allocation, and `entries` is what it points to. -/
structure PacketManager where
  m_callbacks : PacketTypeID → List Nat := fun _ => []
  m_nextId : UInt64 := 1
  allocated : Nat := 0
  entries : Nat → Option CallbackEntry := fun _ => none

/-- A subscription; `entry` is the entry that was made for it. -/
structure Subscription where
  owner : Bool := false
  type : PacketTypeID := 0
  id : UInt64 := 0
  entry : Nat := 0

namespace PacketManager

def Subscribe (type : PacketTypeID) (m : PacketManager) : Subscription × PacketManager :=
  ({owner := true,type,id := m.m_nextId,entry := m.allocated},
    {m_callbacks := Function.update m.m_callbacks type (m.m_callbacks type ++ [m.allocated])
     m_nextId := m.m_nextId+1
     allocated := m.allocated+1
     entries := Function.update m.entries m.allocated (some {id := m.m_nextId,type})})

def identified (m : PacketManager) (id : UInt64) (e : Nat) : Bool := (m.entries e).any (·.id == id)

def alive (m : PacketManager) (e : Nat) : Bool := (m.entries e).any (·.alive)

def kill (e : Nat) (m : PacketManager) : PacketManager :=
  {m with entries := Function.update m.entries e ((m.entries e).map ({· with alive := false}))}

def Deactivate (type : PacketTypeID) (id : UInt64) (m : PacketManager) : PacketManager :=
  match (m.m_callbacks type).find? (m.identified id) with
  | some e => m.kill e
  | none => m

/-- An entry that leaves its table is freed. -/
def Cleanup (m : PacketManager) : PacketManager :=
  {m with
    m_callbacks := fun type => (m.m_callbacks type).filter m.alive
    entries := fun e => (m.entries e).filter (·.alive)}

end PacketManager

namespace Subscriptions

/-- A turn of a dispatch: the entry that was looked at, the type its callback is for, whether it
was invoked, and whether its subscription had been reset. -/
structure Turn where
  entry : Nat
  type : PacketTypeID
  invoked : Bool
  reset : Bool

/-- A running `Dispatch`: what was registered when it took its snapshot, what is ahead of it in
the snapshot, and the entry whose callback is running. -/
structure Dispatch where
  type : PacketTypeID
  registered : List Nat
  ahead : List Nat
  turns : List Turn := []
  calling : Option Nat := none

/-- The manager and all subscriptions and dispatches, with the types subscribed to so far, the
entries whose subscriptions were reset, and whether a freed entry was ever used. -/
structure State where
  manager : PacketManager := {}
  subscriptions : List Subscription := []
  subscribed : List PacketTypeID := []
  reset : List Nat := []
  dispatches : List Dispatch := []
  usedFreed : Bool := false

namespace State

/-- The subscriptions to a type that have not been reset, in their order. -/
def registered (s : State) (type : PacketTypeID) : List Nat :=
  (List.range s.subscribed.length).filter fun e => s.subscribed[e]? = some type ∧ e ∉ s.reset

def Subscribe (type : PacketTypeID) (s : State) : State :=
  {s with
    manager := (s.manager.Subscribe type).2
    subscriptions := s.subscriptions ++ [(s.manager.Subscribe type).1]
    subscribed := s.subscribed ++ [type]}

/-- `Reset` of a subscription, which its destruction is too. -/
def Reset (k : Nat) (s : State) : Option State := do
  let sub ← s.subscriptions[k]?
  if sub.owner then
    some {s with
      manager := s.manager.Deactivate sub.type sub.id
      subscriptions := s.subscriptions.set k {sub with owner := false}
      reset := sub.entry::s.reset}
  else some s

/-- The subscription `source` is assigned to `target`, which is reset before. -/
def Move (target source : Nat) (s : State) : Option State :=
  if target = source then some s
  else do
    let s ← s.Reset target
    let other ← s.subscriptions[source]?
    some {s with subscriptions := (s.subscriptions.set target other).set source {other with owner := false}}

/-- A subscription without an owner is made, and `source` is assigned to it. -/
def MoveNew (source : Nat) (s : State) : Option State :=
  Move s.subscriptions.length source {s with subscriptions := s.subscriptions ++ [{}]}

def Dispatch (type : PacketTypeID) (s : State) : State :=
  {s with dispatches := s.dispatches ++ [{type,registered := s.registered type,ahead := s.manager.m_callbacks type}]}

def turn (d : Subscriptions.Dispatch) (s : State) : Option (Subscriptions.Dispatch × Bool) :=
  match d.calling,d.ahead with
  | none,e::ahead =>
    match s.manager.entries e with
    | some entry => some ({d with
        ahead
        turns := d.turns ++ [{entry := e,type := entry.type,invoked := entry.alive,reset := e ∈ s.reset}]
        calling := if entry.alive then some e else none},false)
    | none => some ({d with ahead},true)
  | _,_ => none

/-- The callback that is running returns, through the entry that holds it. -/
def returns (d : Subscriptions.Dispatch) (s : State) : Option (Subscriptions.Dispatch × Bool) :=
  d.calling.map fun e => ({d with calling := none},(s.manager.entries e).isNone)

/-- A step of one of the dispatches. -/
def advance (k : Nat) (step : Subscriptions.Dispatch → State → Option (Subscriptions.Dispatch × Bool)) (s : State) :
    Option State := do
  let d ← s.dispatches[k]?
  let (after,freed) ← step d s
  some {s with dispatches := s.dispatches.set k after,usedFreed := s.usedFreed || freed}

end State

inductive Event
  | Subscribe (type : PacketTypeID)
  | Move (target source : Nat)
  | MoveNew (source : Nat)
  | Reset (k : Nat)
  | Dispatch (type : PacketTypeID)
  | turn (k : Nat)
  | returns (k : Nat)
  | Cleanup

def next : Event → State → Option State
  | .Subscribe type,s => some (s.Subscribe type)
  | .Move target source,s => s.Move target source
  | .MoveNew source,s => s.MoveNew source
  | .Reset k,s => s.Reset k
  | .Dispatch type,s => some (s.Dispatch type)
  | .turn k,s => s.advance k fun d s => s.turn d
  | .returns k,s => s.advance k fun d s => s.returns d
  | .Cleanup,s => some {s with manager := s.manager.Cleanup}

def subscribing : System State Event := .stepping {} next

namespace Dispatch

def invoked (d : Dispatch) : List Nat := (d.turns.filter (·.invoked)).map (·.entry)

/-- The entries whose subscriptions had been reset before their turns. -/
def resetInTime (d : Dispatch) : List Nat := (d.turns.filter (·.reset)).map (·.entry)

/-- The callbacks that were registered when the snapshot was taken and are not reset in time. -/
def due (d : Dispatch) : List Nat := d.registered.filter (· ∉ d.resetInTime)

end Dispatch

/-- Every dispatch invokes the callbacks that are due, each once and in the order of their
subscriptions, and none of another type; no freed entry is used. -/
structure Behaves (s : State) : Prop where
  unfreed : s.usedFreed = false
  inOrder : ∀ d ∈ s.dispatches, d.invoked <+: d.due
  complete : ∀ d ∈ s.dispatches, d.ahead = [] → d.invoked = d.due
  once : ∀ d ∈ s.dispatches, d.invoked.Nodup
  typed : ∀ d ∈ s.dispatches, ∀ turn ∈ d.turns, turn.invoked = true → turn.type = d.type

/-- No entry is freed that a dispatch has yet to look at or whose callback it is running, and a
new ID is not that of an entry of the same type. -/
def Sparing (s : State) : Event → Prop
  | .Subscribe type => ∀ e ∈ s.manager.m_callbacks type, s.manager.identified s.manager.m_nextId e = false
  | .Cleanup => ∀ d ∈ s.dispatches, ∀ e ∈ d.calling.toList ++ d.ahead, s.manager.alive e = true
  | _ => True

instance (s : State) : (event : Event) → Decidable (Sparing s event)
  | .Subscribe type => inferInstanceAs (Decidable (∀ e ∈ s.manager.m_callbacks type, s.manager.identified s.manager.m_nextId e = false))
  | .Cleanup => inferInstanceAs (Decidable (∀ d ∈ s.dispatches, ∀ e ∈ d.calling.toList ++ d.ahead, s.manager.alive e = true))
  | .Move _ _ | .MoveNew _ | .Reset _ | .Dispatch _ | .turn _ | .returns _ => .isTrue trivial

end Subscriptions

end AtlasNet
