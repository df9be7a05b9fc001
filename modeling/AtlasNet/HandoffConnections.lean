import AtlasNet.NetworkIdentity
import AtlasNet.Foundation.Dictionary
import AtlasNet.Foundation.Expiring
import AtlasNet.Foundation.Scripts
import AtlasNet.Foundation.System
import Mathlib.Data.String.Basic
import Mathlib.Data.Sym.Sym2.Order

/-! The connections of shards that hand entities over, and their leases in the store: one for
each pair of shards, that names the one that has taken it. -/
namespace AtlasNet.HandoffConnections
open Foundation Foundation.Program Script

abbrev Leases := Expiring String String

/-- Times are in seconds. -/
structure Options where
  leaseEnabled : Bool := true
  inactivityTimeout : Int := 2
  leaseTtl : Nat := 25
  leaseKeyPrefix : String := "EntityHandoff:ConnLease:"

/-- The points in time of the steady clock are in nanoseconds. The loops over the peers go from
the one inserted last to the first, where the `unordered_map` of the source has an order of its own. -/
structure LeaseCoordinator where
  selfIdentity : NetworkIdentity
  options : Options := {}
  lastActivityByPeer : Dictionary NetworkIdentity Int := ∅

namespace LeaseCoordinator

def SetLeaseEnabled (enabled : Bool) (c : LeaseCoordinator) : LeaseCoordinator :=
  {c with options := {c.options with leaseEnabled := enabled}}

def BuildLeaseKey (peer : NetworkIdentity) (c : LeaseCoordinator) : String :=
  let selfKey := c.selfIdentity.ToString
  let peerKey := peer.ToString
  if selfKey < peerKey then c.options.leaseKeyPrefix ++ selfKey ++ "|" ++ peerKey
  else c.options.leaseKeyPrefix ++ peerKey ++ "|" ++ selfKey

def TryAcquireOrRefreshLease (peer : NetworkIdentity) (c : LeaseCoordinator) : Script Leases Bool :=
  if c.options.leaseEnabled then do
    let leaseKey := c.BuildLeaseKey peer
    let ownerValue := c.selfIdentity.ToString
    let currentOwner ← query (Expiring.get leaseKey)
    if currentOwner.any (· ≠ ownerValue) then pure false else do
      query (Expiring.set leaseKey ownerValue)
      let _ ← query (Expiring.expire leaseKey c.options.leaseTtl)
      pure true
  else pure true

def ReleaseLeaseIfOwned (peer : NetworkIdentity) (c : LeaseCoordinator) : Script Leases Unit :=
  if c.options.leaseEnabled then do
    let leaseKey := c.BuildLeaseKey peer
    let currentOwner ← query (Expiring.get leaseKey)
    if currentOwner = some c.selfIdentity.ToString then query (Expiring.del leaseKey) else pure ()
  else pure ()

/-- `now` is what the clock shows. -/
def MarkConnectionActivity (peer : NetworkIdentity) (now : Int) (c : LeaseCoordinator) : Script Leases LeaseCoordinator := do
  let c := {c with lastActivityByPeer := c.lastActivityByPeer.insert peer now}
  let _ ← c.TryAcquireOrRefreshLease peer
  pure c

def inactiveFor (now lastActivity : Int) : Int := (now-lastActivity).tdiv (10^9)

abbrev Inactive (now lastActivity : Int) (c : LeaseCoordinator) : Prop := c.options.inactivityTimeout ≤ inactiveFor now lastActivity

/-- The loop over the peers; `m` is what the callback changes. -/
def reap {M : Type} (now : Int) (onInactive : NetworkIdentity → M → M) (c : LeaseCoordinator) :
    List (Sigma fun _ : NetworkIdentity => Int) → M × List NetworkIdentity → Script Leases (M × List NetworkIdentity)
  | [],done => pure done
  | entry::entries,(m,toRemove) =>
    if c.Inactive now entry.2 then do
      c.ReleaseLeaseIfOwned entry.1
      c.reap now onInactive entries (onInactive entry.1 m,toRemove ++ [entry.1])
    else c.reap now onInactive entries (m,toRemove)

def ReapInactiveConnections {M : Type} (now : Int) (onInactive : NetworkIdentity → M → M) (m : M) (c : LeaseCoordinator) :
    Script Leases (M × LeaseCoordinator) := do
  let (m,toRemove) ← c.reap now onInactive c.lastActivityByPeer.entries (m,[])
  pure (m,{c with lastActivityByPeer := c.lastActivityByPeer.eraseAll toRemove})

def Clear (c : LeaseCoordinator) : Script Leases LeaseCoordinator := do
  c.lastActivityByPeer.entries.forM fun entry => c.ReleaseLeaseIfOwned entry.1
  pure {c with lastActivityByPeer := ∅}

end LeaseCoordinator

/-- The peers in `closed` are those that `Interlink::CloseConnectionTo` has been called for. -/
structure Manager where
  selfIdentity : NetworkIdentity := ⟨.eInvalid,.nil⟩
  initialized : Bool := false
  activeConnections : Dictionary NetworkIdentity Unit := ∅
  leaseModeEnabled : Bool := true
  leaseCoordinator : Option LeaseCoordinator := none
  closed : List NetworkIdentity := []

namespace Manager

def CloseConnectionTo (peer : NetworkIdentity) (m : Manager) : Manager := {m with closed := m.closed ++ [peer]}

def Init (self : NetworkIdentity) (m : Manager) : Manager :=
  {m with
    selfIdentity := self
    activeConnections := ∅
    leaseCoordinator := some (({selfIdentity := self} : LeaseCoordinator).SetLeaseEnabled m.leaseModeEnabled)
    initialized := true}

def onInactive (peer : NetworkIdentity) (m : Manager) : Manager :=
  {m.CloseConnectionTo peer with activeConnections := m.activeConnections.erase peer}

def Tick (now : Int) (m : Manager) : Script Leases Manager :=
  match m.initialized,m.leaseCoordinator with
  | true,some leaseCoordinator => do
    let (m,leaseCoordinator) ← leaseCoordinator.ReapInactiveConnections now onInactive m
    pure {m with leaseCoordinator := some leaseCoordinator}
  | _,_ => pure m

def Shutdown (m : Manager) : Script Leases Manager :=
  if m.initialized then do
    let m := {m.activeConnections.keys.foldl (fun m peer => m.CloseConnectionTo peer) m with activeConnections := ∅}
    match m.leaseCoordinator with
    | some leaseCoordinator =>
      let _ ← leaseCoordinator.Clear
      pure {m with leaseCoordinator := none,initialized := false}
    | none => pure {m with initialized := false}
  else pure m

def MarkConnectionActivity (peer : NetworkIdentity) (now : Int) (m : Manager) : Script Leases Manager :=
  if m.initialized then do
    let m := {m with activeConnections := m.activeConnections.insert peer ()}
    match m.leaseCoordinator with
    | some leaseCoordinator => do
      let leaseCoordinator ← leaseCoordinator.MarkConnectionActivity peer now
      pure {m with leaseCoordinator := some leaseCoordinator}
    | none => pure m
  else pure m

def SetLeaseModeEnabled (enabled : Bool) (m : Manager) : Manager :=
  {m with leaseModeEnabled := enabled,leaseCoordinator := m.leaseCoordinator.map (·.SetLeaseEnabled enabled)}

end Manager

inductive Operation
  | init
  | mark (peer : NetworkIdentity) (now : Int)
  | tick (now : Int)
  | shutdown
  | setLeaseMode (enabled : Bool)

/-- What one shard does. -/
def perform (self : NetworkIdentity) (m : Manager) : Operation → Script Leases Manager
  | .init => pure (m.Init self)
  | .mark peer now => m.MarkConnectionActivity peer now
  | .tick now => m.Tick now
  | .shutdown => m.Shutdown
  | .setLeaseMode enabled => pure (m.SetLeaseModeEnabled enabled)

/-- The threads of the shards, and that of the clock. -/
def program {ι : Type} (name : ι → NetworkIdentity) (operations : ι → List Operation) (time : List Nat) :
    Option ι → Script Leases Manager
  | some i => (operations i).foldlM (perform (name i)) {}
  | none => do
    time.forM fun passed => query (Expiring.pass passed)
    pure {}

section Keys
variable {self peer other : NetworkIdentity}

def leaseKey (self peer : NetworkIdentity) : String := ({selfIdentity := self} : LeaseCoordinator).BuildLeaseKey peer

theorem bar_not_hex (byte : UInt8) : '|' ∉ hex byte := by
  have digit : ∀ n < 16, Nat.digitChar n ≠ '|' := by decide
  have bound := byte.toNat_lt
  simp [hex,(digit (byte.toNat/16) (by omega)).symm,(digit (byte.toNat%16) (by omega)).symm]

theorem bar_not_to_chars (i : Nat) (bytes : Bytes) : '|' ∉ to_chars i bytes := by
  induction bytes generalizing i with
  | nil => exact List.not_mem_nil
  | cons byte rest ih =>
    simp only [to_chars,List.mem_append,bar_not_hex,ih,false_or,or_false]
    split <;> decide

theorem bar_not_toChars (id : NetworkIdentity) : '|' ∉ id.toChars := by
  have name : '|' ∉ id.type.enum_to_string := by
    unfold NetworkIdentityType.enum_to_string
    split_ifs <;> decide
  rw [NetworkIdentity.toChars_eq]
  split
  · exact name
  · rw [List.mem_append,List.mem_cons]
    rintro (inside | same | inside)
    · exact name inside
    · cases same
    · exact bar_not_to_chars 0 _ inside

def texts (self peer : NetworkIdentity) : Sym2 String := s(self.ToString,peer.ToString)

theorem leaseKey_eq (self peer : NetworkIdentity) :
    leaseKey self peer = "EntityHandoff:ConnLease:" ++ (texts self peer).inf ++ "|" ++ (texts self peer).sup := by
  rw [leaseKey,LeaseCoordinator.BuildLeaseKey,texts,Sym2.inf_mk,Sym2.sup_mk]
  split
  · rename_i below
    rw [inf_of_le_left below.le,sup_of_le_right below.le]
  · rename_i above
    rw [inf_of_le_right (not_lt.mp above),sup_of_le_left (not_lt.mp above)]

theorem bar_not_texts {text : String} (one : text ∈ texts self peer) : '|' ∉ text.toList := by
  rcases Sym2.mem_iff.mp one with rfl | rfl
  · rw [NetworkIdentity.ToString,String.toList_ofList]
    exact bar_not_toChars self
  · rw [NetworkIdentity.ToString,String.toList_ofList]
    exact bar_not_toChars peer

/-- A pair of shards has one key, whichever of the two asks, and it is no other pair's. -/
theorem leaseKey_eq_iff {a b c d : NetworkIdentity} : leaseKey a b = leaseKey c d ↔ texts a b = texts c d := by
  constructor
  · intro same
    have characters := congrArg String.toList same
    have bar : "|".toList = ['|'] := rfl
    simp only [leaseKey_eq,String.toList_append,List.append_assoc,List.append_cancel_left_eq,bar,List.singleton_append] at characters
    have least : '|' ∉ (texts a b).inf.toList := bar_not_texts (Sym2.mem_iff.mpr (min_choice _ _))
    have greatest : '|' ∉ (texts a b).sup.toList := bar_not_texts (Sym2.mem_iff.mpr (max_choice _ _))
    obtain ⟨first,_,second⟩ := (List.append_cons_inj_of_notMem least greatest).mp characters
    exact Sym2.inf_eq_inf_and_sup_eq_sup.mp ⟨String.toList_injective first,String.toList_injective second⟩
  · intro same
    rw [leaseKey_eq,leaseKey_eq,same]

structure Made (owner : NetworkIdentity) (enabled : Bool) (c : LeaseCoordinator) : Prop where
  selfIdentity : c.selfIdentity = owner
  options : c.options = {leaseEnabled := enabled}

theorem Made.key {owner : NetworkIdentity} {enabled : Bool} {c : LeaseCoordinator} (made : Made owner enabled c) (peer : NetworkIdentity) : c.BuildLeaseKey peer = leaseKey owner peer := by
  rw [leaseKey,LeaseCoordinator.BuildLeaseKey,LeaseCoordinator.BuildLeaseKey,made.selfIdentity,made.options]

end Keys

section Held
/-- The keys under which a shard may have a lease, and the one it has set without a deadline so far. -/
structure Holding where
  leased : Set String := ∅
  setting : Option String := none

variable {ι : Type} {name : ι → NetworkIdentity} {i : ι} {held : Option ι → Holding} {s after : Leases}
  {key : String} {entry : Entry String}

structure Leased (name : ι → NetworkIdentity) (held : Option ι → Holding) (s : Leases) : Prop where
  named : ∀ i, ∀ key ∈ (held (some i)).leased, ∃ peer, key = leaseKey (name i) peer
  owned : ∀ key entry, s.live key = some entry → ∃ i, entry.value = (name i).ToString ∧ key ∈ (held (some i)).leased
  ending : ∀ key entry, s.live key = some entry → entry.deadline = none → ∃ i, (held (some i)).setting = some key
  bounded : ∀ key entry deadline, s.live key = some entry → entry.deadline = some deadline →
    deadline ≤ s.clock+({} : Options).leaseTtl

theorem Leased.fresh (empty : ∀ key, s.live key = none) : Leased name (fun _ => {}) s where
  named _ _ inside := inside.elim
  owned key _ found := by simp [empty key] at found
  ending key _ found := by simp [empty key] at found
  bounded key _ _ found := by simp [empty key] at found

/-- Leases go, and time passes. -/
theorem Leased.fewer (leased : Leased name held s) (fewer : ∀ key entry, after.live key = some entry → s.live key = some entry)
    (later : s.clock ≤ after.clock) : Leased name held after where
  named := leased.named
  owned key entry found := leased.owned key entry (fewer key entry found)
  ending key entry found := leased.ending key entry (fewer key entry found)
  bounded key entry deadline found bound := (leased.bounded key entry deadline (fewer key entry found) bound).trans
    (Nat.add_le_add_right later _)

variable [DecidableEq ι] {here : Holding}

theorem Leased.drops (leased : Leased name held s) (same : held (some i) = here)
    (others : ∀ entry, s.live key = some entry → entry.value ≠ (name i).ToString) :
    Leased name (Function.update held (some i) {here with leased := here.leased \ {key}}) s := by
  subst same
  obtain ⟨named,owned,ending,bounded⟩ := leased
  refine ⟨?_,?_,?_,bounded⟩
  · grind [Function.update_apply]
  · grind [Function.update_apply]
  · grind [Function.update_apply]

theorem Leased.deletes (leased : Leased name held s) (same : held (some i) = here) (key : String) :
    Leased name (Function.update held (some i) {here with leased := here.leased \ {key}}) (s.put key none) := by
  have gone : (s.put key none).live key = none := by rw [Expiring.live_put_self]; rfl
  refine Leased.drops (leased.fewer (fun other entry found => ?_) (Nat.le_refl _)) same ?_
  · by_cases mine : other = key
    · rw [mine,gone] at found
      cases found
    · rwa [Expiring.live_put_other _ mine] at found
  · simp [gone]

theorem Leased.sets (leased : Leased name held s) (same : held (some i) = here) (idle : here.setting = none) (peer : NetworkIdentity) :
    Leased name (Function.update held (some i) {leased := insert (leaseKey (name i) peer) here.leased,setting := some (leaseKey (name i) peer)})
      (s.put (leaseKey (name i) peer) (some {value := (name i).ToString})) := by
  subst same
  obtain ⟨named,owned,ending,bounded⟩ := leased
  have either (key : String) (entry : Entry String)
      (found : (s.put (leaseKey (name i) peer) (some {value := (name i).ToString})).live key = some entry) :
      key = leaseKey (name i) peer ∧ entry = {value := (name i).ToString} ∨ key ≠ leaseKey (name i) peer ∧ s.live key = some entry := by
    by_cases mine : key = leaseKey (name i) peer
    · rw [mine,Expiring.live_set_self] at found
      exact .inl ⟨mine,(Option.some.inj found).symm⟩
    · rw [Expiring.live_put_other _ mine] at found
      exact .inr ⟨mine,found⟩
  constructor
  · grind [Function.update_apply]
  · grind [Function.update_apply]
  · grind [Function.update_apply]
  · intro key entry deadline found bound
    rw [Expiring.put_clock]
    rcases either key entry found with ⟨_,rfl⟩ | ⟨_,before⟩
    · cases bound
    · exact bounded key entry deadline before bound

theorem Leased.expires (leased : Leased name held s) (same : held (some i) = here) (setting : here.setting = some key) :
    Leased name (Function.update held (some i) {here with setting := none}) (s.expired key ({} : Options).leaseTtl) := by
  subst same
  obtain ⟨named,owned,ending,bounded⟩ := leased
  have either (other : String) (entry : Entry String) (found : (s.expired key ({} : Options).leaseTtl).live other = some entry) :
      other = key ∧ entry.deadline = some (s.clock+({} : Options).leaseTtl) ∧
        (∃ before, s.live other = some before ∧ before.value = entry.value) ∨ other ≠ key ∧ s.live other = some entry := by
    by_cases mine : other = key
    · subst mine
      exact .inl ⟨rfl,Expiring.live_expired_self found⟩
    · rw [Expiring.live_expired_other mine] at found
      exact .inr ⟨mine,found⟩
  constructor
  · grind [Function.update_apply]
  · intro other entry found
    rcases either other entry found with ⟨_,_,before,there,same⟩ | ⟨_,there⟩
    · obtain ⟨j,mine,inside⟩ := owned other before there
      exact ⟨j,same.symm.trans mine,by grind [Function.update_apply]⟩
    · obtain ⟨j,mine,inside⟩ := owned other entry there
      exact ⟨j,mine,by grind [Function.update_apply]⟩
  · grind [Function.update_apply]
  · intro other entry deadline found bound
    rw [Expiring.expired_clock]
    rcases either other entry found with ⟨_,set,_⟩ | ⟨_,there⟩
    · exact (Option.some.inj (bound.symm.trans set)).le
    · exact bounded other entry deadline there bound

end Held

section Commands
variable {ι : Type} [DecidableEq ι] {name : ι → NetworkIdentity} {i : ι} {here : Holding} {c : LeaseCoordinator} {m : Manager}
  {peer : NetworkIdentity} {enabled : Bool}

theorem upholds_acquire {outcome : Except Fault Bool → Holding → Prop} (made : Made (name i) enabled c) (idle : here.setting = none)
    (ends : ∀ acquired leased, leased ⊆ insert (leaseKey (name i) peer) here.leased → outcome (.ok acquired) {leased}) :
    Upholds (Leased name) (some i) outcome (c.TryAcquireOrRefreshLease peer) here := by
  have unchanged : here = {leased := here.leased} := by
    cases here
    cases idle
    rfl
  have stays (acquired : Bool) : outcome (.ok acquired) here := unchanged ▸ ends acquired _ (Set.subset_insert _ _)
  rw [LeaseCoordinator.TryAcquireOrRefreshLease,made.key,made.selfIdentity,made.options]
  split
  swap
  · exact stays true
  refine upholds_bind (upholds_query fun held s same leased => ⟨here,?_,?_⟩)
  · rwa [← same,Function.update_eq_self]
  rw [Expiring.exec_get]
  dsimp only
  split
  · exact stays false
  refine upholds_bind (upholds_query fun held s same leased => ⟨_,leased.sets same idle peer,?_⟩)
  refine upholds_bind (upholds_query fun held s same leased => ⟨_,leased.expires same rfl,?_⟩)
  exact ends true _ subset_rfl

theorem upholds_release {outcome : Except Fault Unit → Holding → Prop} (made : Made (name i) enabled c)
    (ends : ∀ leased ⊆ here.leased, (enabled = true → leaseKey (name i) peer ∉ leased) → outcome (.ok ()) {here with leased}) :
    Upholds (Leased name) (some i) outcome (c.ReleaseLeaseIfOwned peer) here := by
  have fewer : outcome (.ok ()) {here with leased := here.leased \ {leaseKey (name i) peer}} :=
    ends _ Set.sdiff_subset fun _ inside => inside.2 rfl
  rw [LeaseCoordinator.ReleaseLeaseIfOwned,made.key,made.selfIdentity,made.options]
  split
  swap
  · rename_i disabled
    exact ends _ subset_rfl fun on => absurd on disabled
  refine upholds_bind (upholds_query fun held s same leased => ?_)
  rw [Expiring.exec_get]
  dsimp only
  split
  · refine ⟨here,by rwa [← same,Function.update_eq_self],?_⟩
    exact upholds_query fun held s same leased => ⟨_,leased.deletes same _,fewer⟩
  · rename_i notMine
    refine ⟨_,leased.drops same fun entry found mine => notMine ?_,fewer⟩
    rw [found,Option.map_some,mine]

theorem upholds_reap (made : Made (name i) enabled c) (now : Int) (entries : List (Sigma fun _ : NetworkIdentity => Int))
    {done : Manager × List NetworkIdentity} {outcome : Except Fault (Manager × List NetworkIdentity) → Holding → Prop}
    (ends : ∀ (m : Manager) toRemove, ∀ leased ⊆ here.leased,
      (enabled = true → ∀ peer ∈ toRemove, peer ∉ done.2 → leaseKey (name i) peer ∉ leased) →
      m.initialized = done.1.initialized → m.leaseModeEnabled = done.1.leaseModeEnabled → outcome (.ok (m,toRemove)) {here with leased}) :
    Upholds (Leased name) (some i) outcome (c.reap now Manager.onInactive entries done) here := by
  induction entries generalizing here done with
  | nil => exact ends done.1 done.2 here.leased subset_rfl (fun _ peer inside outside => absurd inside outside) rfl rfl
  | cons entry entries ih =>
    rw [LeaseCoordinator.reap]
    split
    · refine upholds_bind (upholds_release made fun leased fewer released => ih fun m toRemove rest less gone first second => ?_)
      refine ends m toRemove rest (less.trans fewer) (fun on peer inside outside => ?_) first second
      by_cases mine : peer = entry.1
      · exact fun still => released on (mine ▸ less still)
      · exact gone on peer inside (by simp [outside,mine])
    · exact ih ends

theorem upholds_clear (made : Made (name i) enabled c) (entries : List (Sigma fun _ : NetworkIdentity => Int))
    {outcome : Except Fault Unit → Holding → Prop}
    (ends : ∀ leased ⊆ here.leased, (enabled = true → ∀ entry ∈ entries, leaseKey (name i) entry.1 ∉ leased) →
      outcome (.ok ()) {here with leased}) :
    Upholds (Leased name) (some i) outcome (entries.forM fun entry => c.ReleaseLeaseIfOwned entry.1) here := by
  induction entries generalizing here with
  | nil => exact ends here.leased subset_rfl fun _ _ inside => absurd inside List.not_mem_nil
  | cons entry entries ih =>
    change Upholds _ _ _ (c.ReleaseLeaseIfOwned entry.1 >>= fun _ => entries.forM fun entry => c.ReleaseLeaseIfOwned entry.1) _
    refine upholds_bind (upholds_release made fun leased fewer released => ih fun rest less gone => ?_)
    refine ends rest (less.trans fewer) fun on other inside => ?_
    rcases List.mem_cons.mp inside with rfl | later
    · exact fun still => released on (less still)
    · exact gone on other later

end Commands

section Operations
variable {ι : Type} [DecidableEq ι] {name : ι → NetworkIdentity} {i : ι} {here : Holding} {m : Manager}
  {operation : Operation} {operations : List Operation} {whole : Prop} {last : Bool}

/-- Lease mode stays on, and a manager that runs is not started again. -/
def Orderly : Bool → List Operation → Prop
  | _,[] => True
  | running,.init::operations => running = false ∧ Orderly true operations
  | _,.shutdown::operations => Orderly false operations
  | running,.setLeaseMode enabled::operations => enabled = true ∧ Orderly running operations
  | running,.mark _ _::operations | running,.tick _::operations => Orderly running operations

/-- Whether a manager runs behind its operations. -/
def runs : Bool → List Operation → Bool
  | running,[] => running
  | _,.init::operations => runs true operations
  | _,.shutdown::operations => runs false operations
  | running,.mark _ _::operations | running,.tick _::operations | running,.setLeaseMode _::operations => runs running operations

theorem runs_append (running : Bool) (operations more : List Operation) : runs running (operations ++ more) = runs (runs running operations) more := by
  induction operations generalizing running with
  | nil => rfl
  | cons operation operations ih => cases operation <;> exact ih _

def Manager.peers (m : Manager) : List NetworkIdentity :=
  match m.leaseCoordinator with
  | some leaseCoordinator => leaseCoordinator.lastActivityByPeer.keys
  | none => []

/-- The leases of a shard are for the peers that its manager knows, unless its operations are not orderly. -/
structure Fits (owner : NetworkIdentity) (whole : Prop) (last : Bool) (operations : List Operation) (m : Manager) (here : Holding) : Prop where
  idle : here.setting = none
  made : ∀ c, m.leaseCoordinator = some c → Made owner m.leaseModeEnabled c
  running : m.leaseCoordinator.isSome = m.initialized
  enabled : whole → m.leaseModeEnabled = true
  orderly : whole → Orderly m.initialized operations
  leased : whole → ∀ key ∈ here.leased, ∃ peer ∈ m.peers, key = leaseKey owner peer
  ends : runs m.initialized operations = last

theorem Fits.init {owner : NetworkIdentity} (fits : Fits owner whole last (.init::operations) m here) :
    Fits owner whole last operations (m.Init owner) here where
  idle := fits.idle
  made c here := by
    obtain rfl := Option.some.inj here
    exact ⟨rfl,rfl⟩
  running := rfl
  enabled := fits.enabled
  orderly all := (fits.orderly all).2
  leased all key inside := by
    have stopped := (fits.orderly all).1
    have running := fits.running
    obtain ⟨peer,known,_⟩ := fits.leased all key inside
    rw [stopped,Option.isSome_eq_false_iff,Option.isNone_iff_eq_none] at running
    rw [Manager.peers,running] at known
    cases known
  ends := fits.ends

theorem Fits.setLeaseMode {owner : NetworkIdentity} {enabled : Bool} (fits : Fits owner whole last (.setLeaseMode enabled::operations) m here) :
    Fits owner whole last operations (m.SetLeaseModeEnabled enabled) here where
  idle := fits.idle
  made c here := by
    obtain ⟨before,there,rfl⟩ := Option.map_eq_some_iff.mp here
    have made := fits.made before there
    exact ⟨made.selfIdentity,by rw [LeaseCoordinator.SetLeaseEnabled,made.options]; rfl⟩
  running := by
    rw [Manager.SetLeaseModeEnabled,Option.isSome_map]
    exact fits.running
  enabled all := (fits.orderly all).1
  orderly all := (fits.orderly all).2
  leased all key inside := by
    obtain ⟨peer,known,same⟩ := fits.leased all key inside
    refine ⟨peer,?_,same⟩
    rw [Manager.peers,Manager.SetLeaseModeEnabled]
    rw [Manager.peers] at known
    cases coordinator : m.leaseCoordinator with
    | none => rwa [coordinator] at known
    | some c => rwa [coordinator] at known
  ends := fits.ends

/-- A manager that does not run knows no peers. -/
theorem Fits.stopped {owner : NetworkIdentity} (fits : Fits owner whole false [] m here) : m.peers = [] := by
  have absent := fits.running.trans fits.ends
  rw [Option.isSome_eq_false_iff,Option.isNone_iff_eq_none] at absent
  rw [Manager.peers,absent]

theorem upholds_mark {outcome : Except Fault Manager → Holding → Prop} {peer : NetworkIdentity} {now : Int}
    (fits : Fits (name i) whole last (.mark peer now::operations) m here)
    (ends : ∀ after later, Fits (name i) whole last operations after later → outcome (.ok after) later) :
    Upholds (Leased name) (some i) outcome (m.MarkConnectionActivity peer now) here := by
  obtain ⟨idle,made,running,enabled,orderly,leased,last⟩ := fits
  rw [Manager.MarkConnectionActivity]
  split
  swap
  · exact ends _ _ ⟨idle,made,running,enabled,orderly,leased,last⟩
  rename_i started
  cases coordinator : m.leaseCoordinator with
  | none =>
    rw [coordinator,started] at running
    cases running
  | some c =>
    have mine := made c coordinator
    refine upholds_bind (upholds_bind (upholds_acquire ⟨mine.selfIdentity,mine.options⟩ idle fun acquired rest more => ?_))
    refine ends _ _ ⟨rfl,?_,?_,enabled,orderly,fun all key inside => ?_,last⟩
    · intro other here
      obtain rfl := Option.some.inj here
      exact ⟨mine.selfIdentity,mine.options⟩
    · rw [← running,coordinator]
      rfl
    · change ∃ known ∈ (c.lastActivityByPeer.insert peer now).keys,_
      rcases Set.mem_insert_iff.mp (more inside) with rfl | before
      · exact ⟨peer,AList.mem_keys.mp ((AList.mem_insert _).mpr (.inl rfl)),rfl⟩
      · obtain ⟨known,member,same⟩ := leased all key before
        rw [Manager.peers,coordinator] at member
        exact ⟨known,AList.mem_keys.mp ((AList.mem_insert _).mpr (.inr (AList.mem_keys.mpr member))),same⟩

theorem upholds_tick {outcome : Except Fault Manager → Holding → Prop} {now : Int}
    (fits : Fits (name i) whole last (.tick now::operations) m here)
    (ends : ∀ after later, Fits (name i) whole last operations after later → outcome (.ok after) later) :
    Upholds (Leased name) (some i) outcome (m.Tick now) here := by
  obtain ⟨idle,made,running,enabled,orderly,leased,last⟩ := fits
  rw [Manager.Tick]
  split
  swap
  · exact ends _ _ ⟨idle,made,running,enabled,orderly,leased,last⟩
  rename_i c started coordinator
  have mine := made c coordinator
  refine upholds_bind (upholds_bind (upholds_reap mine now _ fun after toRemove rest less gone first second => ?_))
  refine ends _ _ ⟨idle,?_,?_,?_,?_,fun all key inside => ?_,first.symm ▸ last⟩
  · intro other here
    obtain rfl := Option.some.inj here
    exact ⟨mine.selfIdentity,mine.options.trans (by rw [← second])⟩
  · exact (first.trans started).symm
  · exact fun all => second.trans (enabled all)
  · exact fun all => first.symm ▸ orderly all
  · obtain ⟨known,member,rfl⟩ := leased all key (less inside)
    rw [Manager.peers,coordinator] at member
    refine ⟨known,?_,rfl⟩
    change known ∈ (c.lastActivityByPeer.eraseAll toRemove).keys
    obtain ⟨value,looked⟩ := Dictionary.mem_keys.mp member
    have stays : known ∉ toRemove := fun removed => gone (enabled all) known removed List.not_mem_nil inside
    exact Dictionary.mem_keys.mpr ⟨value,by rw [Dictionary.lookup_eraseAll,if_neg stays,looked]⟩

theorem closing_foldl (peers : List NetworkIdentity) (m : Manager) :
    ∃ closed, peers.foldl (fun m peer => m.CloseConnectionTo peer) m = {m with closed} := by
  induction peers generalizing m with
  | nil => exact ⟨m.closed,rfl⟩
  | cons peer peers ih =>
    obtain ⟨closed,same⟩ := ih (m.CloseConnectionTo peer)
    exact ⟨closed,same⟩

theorem upholds_shutdown {outcome : Except Fault Manager → Holding → Prop}
    (fits : Fits (name i) whole last (.shutdown::operations) m here)
    (ends : ∀ after later, Fits (name i) whole last operations after later → outcome (.ok after) later) :
    Upholds (Leased name) (some i) outcome m.Shutdown here := by
  obtain ⟨idle,made,running,enabled,orderly,leased,last⟩ := fits
  obtain ⟨closed,closes⟩ := closing_foldl m.activeConnections.keys m
  rw [Manager.Shutdown,closes]
  split
  swap
  · rename_i stopped
    have halted : m.initialized = false := Bool.eq_false_iff.mpr stopped
    exact ends _ _ ⟨idle,made,running,enabled,fun all => by rw [halted]; exact orderly all,leased,halted.symm ▸ last⟩
  rename_i started
  cases coordinator : m.leaseCoordinator with
  | none =>
    rw [coordinator,started] at running
    cases running
  | some c =>
    have mine := made c coordinator
    refine upholds_bind (upholds_bind (upholds_clear mine _ fun rest less gone => ?_))
    refine ends _ _ ⟨idle,?_,rfl,enabled,orderly,fun all key inside => ?_,last⟩
    · intro other here
      cases here
    · obtain ⟨known,member,rfl⟩ := leased all key (less inside)
      rw [Manager.peers,coordinator] at member
      obtain ⟨value,looked⟩ := Dictionary.mem_keys.mp member
      exact absurd inside (gone (enabled all) ⟨known,value⟩ (Dictionary.mem_entries.mpr looked))

theorem upholds_perform {outcome : Except Fault Manager → Holding → Prop} (fits : Fits (name i) whole last (operation::operations) m here)
    (ends : ∀ after later, Fits (name i) whole last operations after later → outcome (.ok after) later) :
    Upholds (Leased name) (some i) outcome (perform (name i) m operation) here := by
  cases operation with
  | init => exact ends _ _ fits.init
  | mark peer now => exact upholds_mark fits ends
  | tick now => exact upholds_tick fits ends
  | shutdown => exact upholds_shutdown fits ends
  | setLeaseMode enabled => exact ends _ _ fits.setLeaseMode

theorem upholds_operations (fits : Fits (name i) whole last operations m here) :
    Upholds (Leased name) (some i) (fun result later => ∃ after, result = .ok after ∧ Fits (name i) whole last [] after later)
      (operations.foldlM (perform (name i)) m) here := by
  induction operations generalizing m here with
  | nil => exact ⟨m,rfl,fits⟩
  | cons operation operations ih =>
    rw [List.foldlM_cons]
    exact upholds_bind (upholds_perform fits fun after later fits => ih fits)

theorem upholds_passes (time : List Nat) {outcome : Except Fault Manager → Holding → Prop} (ends : outcome (.ok {}) here) :
    Upholds (Leased name) none outcome (time.forM (fun passed => query (Expiring.pass passed)) >>= fun _ => pure {}) here := by
  refine upholds_bind ?_
  induction time with
  | nil => exact ends
  | cons passed time ih =>
    change Upholds _ _ _ (query (Expiring.pass passed) >>= fun _ => time.forM fun passed => query (Expiring.pass passed)) _
    refine upholds_bind (upholds_query fun held s same leased => ⟨here,?_,ih⟩)
    rw [← same,Function.update_eq_self]
    exact leased.fewer (fun _ _ => Expiring.live_pass) (Nat.le_add_right _ _)

end Operations

section Runs
variable {ι : Type} [DecidableEq ι] {name : ι → NetworkIdentity} {operations : ι → List Operation} {time : List Nat}
  {store : Leases} {threads : Threads (Option ι) Leases Manager}

def outcome (name : ι → NetworkIdentity) (operations : ι → List Operation) :
    Option ι → Except Fault Manager → Holding → Prop
  | some i,result,here => ∃ m, result = .ok m ∧ Fits (name i) (Orderly false (operations i)) (runs false (operations i)) [] m here
  | none,result,_ => result = .ok {}

theorem leases_covered (empty : ∀ key, store.live key = none)
    (reached : (System.stepping {store} (Threads.move (program name operations time))).Reachable threads) :
    ∃ held, Threads.Covers (Leased name) {} (outcome name operations) threads held := by
  refine Threads.covered _ _ _ (Leased.fresh empty) (fun threads held i covers _ unbegun => ⟨{},?_,?_⟩) reached
  · rw [← covers.idle i unbegun,Function.update_eq_self]
    exact covers.holds
  · cases i with
    | none => exact upholds_passes time rfl
    | some i => exact upholds_operations ⟨rfl,nofun,rfl,fun _ => rfl,id,fun _ _ inside => inside.elim,rfl⟩

/-- Whatever shards mark, reap, start and shut down at the same time, a lease names one of the
two shards of its key; it lapses within its time unless a shard is setting it; and a shard
whose operations were orderly has leases only for the peers that its manager knows, and, when
they end with a shutdown, neither a peer nor a lease. -/
theorem leases_released (apart : Function.Injective fun i => (name i).ToString) (empty : ∀ key, store.live key = none)
    (reached : (System.stepping {store} (Threads.move (program name operations time))).Reachable threads) :
    (∀ a b entry, threads.store.live (leaseKey a b) = some entry → entry.value = a.ToString ∨ entry.value = b.ToString) ∧
    ((∀ i, threads.script i ≠ none → threads.Ended i) → ∀ key entry, threads.store.live key = some entry →
      ∃ deadline, entry.deadline = some deadline ∧ threads.store.clock < deadline ∧
        deadline ≤ threads.store.clock+({} : Options).leaseTtl) ∧
    ∀ i, threads.Ended (some i) → ∃ m, threads.script (some i) = some (ended (.ok m)) ∧
      (Orderly false (operations i) → ∀ key entry, threads.store.live key = some entry → entry.value = (name i).ToString →
        ∃ peer ∈ m.peers, key = leaseKey (name i) peer) ∧
      (Orderly false (operations i) → (operations i).getLast? = some .shutdown →
        m.peers = [] ∧ ∀ key entry, threads.store.live key = some entry → entry.value ≠ (name i).ToString) := by
  obtain ⟨held,covers⟩ := leases_covered empty reached
  have leased := covers.holds
  refine ⟨fun a b entry found => ?_,fun stopped key entry found => ?_,fun i stopped => ?_⟩
  · obtain ⟨i,mine,inside⟩ := leased.owned _ entry found
    obtain ⟨peer,same⟩ := leased.named i _ inside
    have one : (name i).ToString ∈ texts a b := leaseKey_eq_iff.mp same ▸ Sym2.mem_mk_left _ _
    rw [mine]
    exact Sym2.mem_iff.mp one
  · cases bound : entry.deadline with
    | some deadline => exact ⟨deadline,rfl,Expiring.live_deadline found bound,leased.bounded key entry deadline found bound⟩
    | none =>
      obtain ⟨i,setting⟩ := leased.ending key entry found bound
      have begun : threads.script (some i) ≠ none := by
        intro unbegun
        rw [covers.idle _ unbegun] at setting
        cases setting
      obtain ⟨_,_,m,_,fits⟩ := covers.finished (stopped _ begun)
      exact absurd (setting.symm.trans fits.idle) (by simp)
  · obtain ⟨_,script,m,rfl,fits⟩ := covers.finished stopped
    have known (all : Orderly false (operations i)) (key : String) (entry : Entry String)
        (found : threads.store.live key = some entry) (mine : entry.value = (name i).ToString) :
        ∃ peer ∈ m.peers, key = leaseKey (name i) peer := by
      obtain ⟨j,owner,inside⟩ := leased.owned key entry found
      obtain rfl := apart (owner.symm.trans mine)
      exact fits.leased all key inside
    refine ⟨m,script,known,fun all final => ?_⟩
    obtain ⟨before,split⟩ := List.getLast?_eq_some_iff.mp final
    have halts : runs false (operations i) = false := by rw [split,runs_append]; rfl
    have peers := Fits.stopped (halts ▸ fits)
    refine ⟨peers,fun key entry found mine => ?_⟩
    obtain ⟨peer,inside,_⟩ := known all key entry found mine
    rw [peers] at inside
    cases inside

section Raced

def shard (second : Bool) : NetworkIdentity := .MakeIDShard ⟨(if second then 2 else 1)::0::List.replicate 14 0,rfl⟩

def both (second : Bool) : List Operation := .init::.mark (shard !second) 0::if second then [] else [.shutdown]

def racing : Move (Option Bool) → Threads (Option Bool) Leases Manager → Option (Threads (Option Bool) Leases Manager) :=
  Threads.move (program shard both [])

/-- Both find no lease and set it; the first one to do so shuts down and leaves the other's. -/
def raced : Threads (Option Bool) Leases Manager :=
  (System.replay racing ([.begin (some false),.begin (some true)] ++
    (List.replicate 3 [.command (some false),.command (some true)]).flatten ++ [.command (some false)]) {store := {}}).get rfl

theorem leases_released_raced : ∃ entry, raced.store.live (leaseKey (shard false) (shard true)) = some entry ∧
    entry.value = (shard true).ToString ∧ (∃ deadline, entry.deadline = some deadline ∧ deadline ≤ 25) ∧
    ∀ key other, raced.store.live key = some other → other.value ≠ (shard false).ToString := by
  have reached : (System.stepping {store := {}} racing).Reachable raced :=
    System.stepping_replay (fun _ _ _ => trivial) System.stepping_start (Option.some_get _).symm
  have apart : Function.Injective fun second => (shard second).ToString := by decide +kernel
  obtain ⟨_,lapses,each⟩ := leases_released apart (fun _ => rfl) reached
  have unbegun : (raced.script none).isNone = true := by decide +kernel
  have stopped (i : Option Bool) (begun : raced.script i ≠ none) : raced.Ended i := by
    rcases i with _ | _ | _
    · exact absurd (Option.isNone_iff_eq_none.mp unbegun) begun
    · decide +kernel
    · decide +kernel
  have there : (raced.store.live (leaseKey (shard false) (shard true))).map (·.value) = some (shard true).ToString := by decide +kernel
  obtain ⟨entry,found,value⟩ := Option.map_eq_some_iff.mp there
  obtain ⟨deadline,bound,_,soon⟩ := lapses stopped _ entry found
  have clock : raced.store.clock = 0 := by decide +kernel
  rw [clock] at soon
  have closed : raced.Ended (some false) := by decide +kernel
  obtain ⟨_,_,_,gone⟩ := each false closed
  exact ⟨entry,found,value,⟨deadline,bound,soon⟩,(gone ⟨rfl,trivial⟩ rfl).2⟩

end Raced

end Runs

end AtlasNet.HandoffConnections
