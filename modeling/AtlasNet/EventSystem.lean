import AtlasNet.ByteStream
import AtlasNet.Foundation.System
import AtlasNet.Foundation.Table
import Mathlib.Data.List.Nodup
import Mathlib.Logic.Function.Basic

/-! The event system: calls of `Subscribe` step by step, and the messages that the consume
thread hands to the handler meanwhile. A message is one that `Dispatch` published, so that its
event can be read. -/
namespace AtlasNet
open Foundation

abbrev EventTypeID := UInt32

/-- An entry of the registry, with the index of its class. -/
structure EventTypeEntry where
  type_index : Nat
  Name : Bytes
  ID : EventTypeID

namespace EventRegistry

def HashName (str : Bytes) : EventTypeID :=
  (str.takeWhile (· ≠ 0)).foldl (fun hash c => (hash ^^^ c.toUInt32)*16777619) 2166136261

/-- An entry is not inserted when another one has its ID, its class or its name. -/
def RegisterEvent (type_index : Nat) (EventName : Bytes) (EventFactories : List EventTypeEntry) : List EventTypeEntry :=
  let entry : EventTypeEntry := {type_index,Name := EventName,ID := HashName EventName}
  if EventFactories.any (fun other =>
      other.ID = entry.ID || other.type_index = entry.type_index || other.Name = entry.Name) then EventFactories
  else EventFactories ++ [entry]

/-- The registry of the classes that the program registers, in turn. -/
def ofClasses (classes : List (Nat × Bytes)) : List EventTypeEntry :=
  classes.foldl (fun EventFactories c => RegisterEvent c.1 c.2 EventFactories) []

/-- The entry of a class, from which its name and its ID are taken. -/
def entryOf (T : Nat) (EventFactories : List EventTypeEntry) : Option EventTypeEntry :=
  EventFactories.find? (·.type_index = T)

def GetEventTypeID (name : Bytes) (EventFactories : List EventTypeEntry) : Option EventTypeID :=
  (EventFactories.find? (·.Name = name)).map (·.ID)

def Distinct (EventFactories : List EventTypeEntry) : Prop := (EventFactories.map (·.Name)).Nodup

theorem distinct_RegisterEvent (type_index : Nat) (EventName : Bytes) {EventFactories : List EventTypeEntry}
    (distinct : Distinct EventFactories) : Distinct (RegisterEvent type_index EventName EventFactories) := by
  dsimp only [RegisterEvent]
  split
  · exact distinct
  · rename_i free
    rw [Distinct,List.map_append,List.nodup_append]
    refine ⟨distinct,List.nodup_singleton _,fun name known other own same => free ?_⟩
    obtain ⟨entry,member,rfl⟩ := List.mem_map.mp known
    rw [List.map_singleton,List.mem_singleton] at own
    rw [List.any_eq_true]
    exact ⟨entry,member,by simp [same.trans own]⟩

theorem distinct_ofClasses (classes : List (Nat × Bytes)) : Distinct (ofClasses classes) := by
  unfold ofClasses
  apply List.foldlRecOn classes _ (show Distinct [] from List.nodup_nil)
  exact fun EventFactories distinct c _ => distinct_RegisterEvent c.1 c.2 distinct

theorem GetEventTypeID_entry {EventFactories : List EventTypeEntry} (distinct : Distinct EventFactories)
    {entry : EventTypeEntry} (member : entry ∈ EventFactories) :
    GetEventTypeID entry.Name EventFactories = some entry.ID := by
  rw [GetEventTypeID]
  cases found : EventFactories.find? (·.Name = entry.Name) with
  | none => exact absurd (decide_eq_true rfl) (List.find?_eq_none.mp found entry member)
  | some other =>
    have same : other.Name = entry.Name := by simpa using List.find?_some found
    rw [List.inj_on_of_nodup_map distinct (List.mem_of_find?_eq_some found) member same]
    rfl

end EventRegistry

namespace EventSystem
open EventRegistry

/-- How far a call of `Subscribe` has come: behind the lookups in the registry, behind the
subscription of the channel, behind the registration of the callback, and returned. -/
inductive Stage
  | begun | issued | registered | completed
deriving DecidableEq

def Stage.pushed : Stage → Bool
  | begun => false
  | issued => false
  | registered => true
  | completed => true

structure Call where
  event : EventTypeEntry
  stage : Stage := .begun

/-- A message handled: the callbacks it was given to, unless the lookup threw, and those that it
was to reach. -/
structure Delivery where
  channel : Bytes
  callbacks : Option (List Nat)
  owed : List Nat

/-- A callback is the number of the call that registers it. For each channel `earlier` keeps the
calls that had begun when its subscription took effect. -/
structure State where
  calls : List Call := []
  channels : List Bytes := []
  earlier : Bytes → List Nat := fun _ => []
  event_subscriptions : EventTypeID → Option (List Nat) := fun _ => none
  HasSubscription : Bool := false
  deliveries : List Delivery := []

inductive Event
  | begin (T : Nat)
  | subscribe (k : Nat)
  | push_back (k : Nat)
  | store (k : Nat)
  | message (channel : Bytes)

/-- The calls for a channel. -/
def State.concerning (s : State) (channel : Bytes) : List Nat :=
  (List.range s.calls.length).filter fun k => (s.calls[k]?).any (·.event.Name = channel)

def State.completed (s : State) (k : Nat) : Bool := (s.calls[k]?).any (·.stage = .completed)

def State.move (k : Nat) (call : Call) (stage : Stage) (s : State) : State :=
  {s with calls := s.calls.set k {call with stage}}

/-- The handler of a message of the channel. -/
def State.handle (EventFactories : List EventTypeEntry) (channel : Bytes) (s : State) : Delivery where
  channel
  callbacks := (GetEventTypeID channel EventFactories).bind s.event_subscriptions
  owed := (s.concerning channel).filter fun k => k ∈ s.earlier channel || s.completed k

def next (EventFactories : List EventTypeEntry) : Event → State → Option State
  | .begin T,s => do
    let event ← entryOf T EventFactories
    some {s with calls := s.calls ++ [{event}]}
  | .subscribe k,s => do
    let call ← s.calls[k]?
    if call.stage = .begun then
      if s.channels.contains call.event.Name then some (s.move k call .issued)
      else some {s with
        calls := (s.move k call .issued).calls
        channels := s.channels ++ [call.event.Name]
        earlier := Function.update s.earlier call.event.Name (s.concerning call.event.Name)}
    else none
  | .push_back k,s => do
    let call ← s.calls[k]?
    if call.stage = .issued then
      some {s with
        calls := (s.move k call .registered).calls
        event_subscriptions := Function.update s.event_subscriptions call.event.ID
          (some ((s.event_subscriptions call.event.ID).getD [] ++ [k]))}
    else none
  | .store k,s => do
    let call ← s.calls[k]?
    if call.stage = .registered then some {s with calls := (s.move k call .completed).calls,HasSubscription := true}
    else none
  -- the consume thread waits for the first subscription, and a channel for its own
  | .message channel,s =>
    if s.HasSubscription ∧ s.channels.contains channel then
      some {s with deliveries := s.deliveries ++ [s.handle EventFactories channel]}
    else none

def listening (EventFactories : List EventTypeEntry) : System State Event := .stepping {} (next EventFactories)

/-- The lookup finds callbacks, and those that the message was to reach are among them. -/
def Delivery.Reaches (d : Delivery) : Prop := ∃ callbacks, d.callbacks = some callbacks ∧ ∀ k ∈ d.owed, k ∈ callbacks

/-- No call that had begun when the channel's subscription took effect has yet to register its
callback. -/
def Registered (s : State) : Event → Prop
  | .message channel => ∀ k ∈ s.earlier channel, ∀ call, s.calls[k]? = some call → call.stage.pushed = true
  | _ => True

/-- Callbacks are registered by the calls that have come so far, under the IDs of their
channels, and a channel is subscribed to by a call. -/
structure Invariant (EventFactories : List EventTypeEntry) (s : State) : Prop where
  entries : ∀ (k : Nat) call, s.calls[k]? = some call → call.event ∈ EventFactories
  pushed : ∀ (k : Nat) call, s.calls[k]? = some call → call.stage.pushed = true →
    ∃ callbacks, s.event_subscriptions call.event.ID = some callbacks ∧ k ∈ callbacks
  pushers : ∀ ID callbacks, s.event_subscriptions ID = some callbacks → ∀ k ∈ callbacks,
    ∃ call, s.calls[k]? = some call ∧ call.stage.pushed = true
  earlier : ∀ channel ∈ s.channels, s.earlier channel ≠ [] ∧ ∀ k ∈ s.earlier channel,
    ∃ call, s.calls[k]? = some call ∧ call.event.Name = channel

section Calls
variable {EventFactories : List EventTypeEntry} {s after : State} {k : Nat} {call : Call} {stage : Stage}

theorem calls_move (here : s.calls[k]? = some call) (j : Nat) :
    (s.move k call stage).calls[j]? = if k = j then some {call with stage} else s.calls[j]? := by
  by_cases same : k = j
  · subst same
    rw [if_pos rfl]
    exact List.getElem?_set_self (List.getElem?_eq_some_iff.mp here).1
  · rw [if_neg same]
    exact List.getElem?_set_ne same

/-- A call that moves keeps its event, and the other calls stay. -/
theorem moved (here : s.calls[k]? = some call) {j : Nat} {other : Call} (before : s.calls[j]? = some other) :
    ∃ later, (s.move k call stage).calls[j]? = some later ∧ later.event = other.event ∧
      (j ≠ k → later = other) ∧ (j = k → later.stage = stage) := by
  rw [calls_move here]
  by_cases same : k = j
  · subst same
    obtain rfl := Option.some.inj (here.symm.trans before)
    exact ⟨_,if_pos rfl,rfl,fun different => absurd rfl different,fun _ => rfl⟩
  · exact ⟨other,(if_neg same).trans before,rfl,fun _ => rfl,fun at_k => absurd at_k.symm same⟩

theorem unmoved (here : s.calls[k]? = some call) {j : Nat} {later : Call}
    (there : (s.move k call stage).calls[j]? = some later) :
    ∃ other, s.calls[j]? = some other ∧ later.event = other.event ∧ (j ≠ k → later = other) ∧ (j = k → later.stage = stage) := by
  rw [calls_move here] at there
  split at there
  · rename_i same
    obtain rfl := Option.some.inj there
    exact ⟨call,same ▸ here,rfl,fun different => absurd same.symm different,fun _ => rfl⟩
  · rename_i different
    exact ⟨later,there,rfl,fun _ => rfl,fun at_k => absurd at_k.symm different⟩

theorem named_move (here : s.calls[k]? = some call) {channel : Bytes} {j : Nat}
    (named : ∃ other, s.calls[j]? = some other ∧ other.event.Name = channel) :
    ∃ later, (s.move k call stage).calls[j]? = some later ∧ later.event.Name = channel := by
  obtain ⟨other,before,same⟩ := named
  obtain ⟨later,there,event,_⟩ := moved here before
  exact ⟨later,there,event ▸ same⟩

theorem mem_registered {event_subscriptions : EventTypeID → Option (List Nat)} {ID other : EventTypeID} {j : Nat} :
    (∃ callbacks, Function.update event_subscriptions ID (some ((event_subscriptions ID).getD [] ++ [k])) other = some callbacks ∧
      j ∈ callbacks) ↔ (∃ callbacks, event_subscriptions other = some callbacks ∧ j ∈ callbacks) ∨ other = ID ∧ j = k := by
  by_cases own : other = ID
  · subst own
    have before : j ∈ (event_subscriptions other).getD [] ↔ ∃ callbacks, event_subscriptions other = some callbacks ∧ j ∈ callbacks := by
      cases event_subscriptions other <;> simp
    rw [Function.update_self,← before]
    simp
  · rw [Function.update_of_ne own]
    exact (or_iff_left fun new => own new.1).symm

theorem mem_concerning {channel : Bytes} : k ∈ s.concerning channel ↔ ∃ call, s.calls[k]? = some call ∧ call.event.Name = channel := by
  rw [State.concerning,List.mem_filter,List.mem_range]
  constructor
  · rintro ⟨_,named⟩
    cases here : s.calls[k]? with
    | none => simp [here] at named
    | some call => exact ⟨call,rfl,by simpa [here] using named⟩
  · rintro ⟨call,here,rfl⟩
    exact ⟨(List.getElem?_eq_some_iff.mp here).1,by simp [here]⟩

/-- A move that registers nothing keeps the callbacks in order. -/
theorem invariant_move (holds : Invariant EventFactories s) (here : s.calls[k]? = some call)
    (same : stage.pushed = call.stage.pushed) : Invariant EventFactories (s.move k call stage) := by
  have registers {j : Nat} {other later : Call} (before : s.calls[j]? = some other)
      (different : j ≠ k → later = other) (at_k : j = k → later.stage = stage) : later.stage.pushed = other.stage.pushed := by
    by_cases own : j = k
    · subst own
      obtain rfl := Option.some.inj (here.symm.trans before)
      rw [at_k rfl,same]
    · rw [different own]
  constructor
  · intro j later there
    obtain ⟨other,before,event,_⟩ := unmoved here there
    exact event ▸ holds.entries j other before
  · intro j later there pushed
    obtain ⟨other,before,event,different,at_k⟩ := unmoved here there
    rw [event]
    exact holds.pushed j other before (registers before different at_k ▸ pushed)
  · intro ID callbacks listed j member
    obtain ⟨other,before,pushed⟩ := holds.pushers ID callbacks listed j member
    obtain ⟨later,there,_,different,at_k⟩ := moved here before
    exact ⟨later,there,registers before different at_k ▸ pushed⟩
  · intro channel subscribed
    obtain ⟨nonempty,calls⟩ := holds.earlier channel subscribed
    exact ⟨nonempty,fun j member => named_move here (calls j member)⟩

theorem invariant_begin (holds : Invariant EventFactories s) {T : Nat} {event : EventTypeEntry}
    (found : entryOf T EventFactories = some event) : Invariant EventFactories {s with calls := s.calls ++ [({event} : Call)]} := by
  constructor
  · intro j later there
    rcases Table.getElem?_snoc.mp there with before | ⟨_,rfl⟩
    · exact holds.entries j later before
    · exact List.mem_of_find?_eq_some found
  · intro j later there pushed
    rcases Table.getElem?_snoc.mp there with before | ⟨_,rfl⟩
    · exact holds.pushed j later before pushed
    · cases pushed
  · intro ID callbacks listed j member
    obtain ⟨other,before,pushed⟩ := holds.pushers ID callbacks listed j member
    exact ⟨other,Table.getElem?_snoc.mpr (.inl before),pushed⟩
  · intro channel subscribed
    obtain ⟨nonempty,calls⟩ := holds.earlier channel subscribed
    refine ⟨nonempty,fun j member => ?_⟩
    obtain ⟨other,before,named⟩ := calls j member
    exact ⟨other,Table.getElem?_snoc.mpr (.inl before),named⟩

theorem invariant_subscribe (holds : Invariant EventFactories s) (here : s.calls[k]? = some call)
    (begun : call.stage = .begun) : Invariant EventFactories {s with
      calls := (s.move k call .issued).calls
      channels := s.channels ++ [call.event.Name]
      earlier := Function.update s.earlier call.event.Name (s.concerning call.event.Name)} := by
  have issued := invariant_move holds here (show Stage.issued.pushed = call.stage.pushed by rw [begun]; rfl)
  refine {issued with earlier := fun channel subscribed => ?_}
  by_cases own : channel = call.event.Name
  · subst own
    dsimp only
    rw [Function.update_self]
    refine ⟨List.ne_nil_of_mem (mem_concerning.mpr ⟨call,here,rfl⟩),fun j member => ?_⟩
    exact named_move here (mem_concerning.mp member)
  · dsimp only
    rw [Function.update_of_ne own]
    refine issued.earlier channel ((List.mem_append.mp subscribed).resolve_right fun last => ?_)
    exact own (List.mem_singleton.mp last)

theorem invariant_push_back (holds : Invariant EventFactories s) (here : s.calls[k]? = some call) :
    Invariant EventFactories {s with
      calls := (s.move k call .registered).calls
      event_subscriptions := Function.update s.event_subscriptions call.event.ID
        (some ((s.event_subscriptions call.event.ID).getD [] ++ [k]))} := by
  constructor
  · intro j later there
    obtain ⟨other,before,event,_⟩ := unmoved here there
    exact event ▸ holds.entries j other before
  · intro j later there pushed
    obtain ⟨other,before,event,different,_⟩ := unmoved here there
    rw [event]
    apply mem_registered.mpr
    by_cases own : j = k
    · subst own
      obtain rfl := Option.some.inj (here.symm.trans before)
      exact .inr ⟨rfl,rfl⟩
    · exact .inl (holds.pushed j other before (different own ▸ pushed))
  · intro ID callbacks listed j member
    by_cases last : j = k
    · subst last
      obtain ⟨later,there,_,_,at_k⟩ := @moved s j call .registered here j call here
      exact ⟨later,there,by rw [at_k rfl]; rfl⟩
    · have earlier := (mem_registered.mp ⟨callbacks,listed,member⟩).resolve_right fun new => last new.2
      obtain ⟨before,found,old⟩ := earlier
      obtain ⟨other,present,pushed⟩ := holds.pushers ID before found j old
      obtain ⟨later,there,_,different,_⟩ := moved here present
      exact ⟨later,there,different last ▸ pushed⟩
  · intro channel subscribed
    obtain ⟨nonempty,calls⟩ := holds.earlier channel subscribed
    exact ⟨nonempty,fun j member => named_move here (calls j member)⟩

/-- The lookup for a message finds every callback that has been registered for its channel. -/
theorem handled (holds : Invariant EventFactories s) (distinct : Distinct EventFactories) (here : s.calls[k]? = some call)
    (pushed : call.stage.pushed = true) : ∃ callbacks,
      (GetEventTypeID call.event.Name EventFactories).bind s.event_subscriptions = some callbacks ∧ k ∈ callbacks := by
  obtain ⟨callbacks,listed,member⟩ := holds.pushed k call here pushed
  have known := GetEventTypeID_entry distinct (holds.entries k call here)
  exact ⟨callbacks,by rw [known]; exact listed,member⟩

theorem invariant_step {event : Event} (holds : Invariant EventFactories s)
    (taken : next EventFactories event s = some after) : Invariant EventFactories after := by
  cases event with
  | begin T =>
    obtain ⟨entry,found,rfl⟩ := Option.map_eq_some_iff.mp ((Option.map_eq_bind ..).trans taken)
    exact invariant_begin holds found
  | subscribe k =>
    obtain ⟨call,here,taken⟩ := Option.bind_eq_some_iff.mp taken
    split at taken
    · rename_i begun
      split at taken
      · obtain rfl := Option.some.inj taken
        exact invariant_move holds here (by rw [begun]; rfl)
      · obtain rfl := Option.some.inj taken
        exact invariant_subscribe holds here begun
    · cases taken
  | push_back k =>
    obtain ⟨call,here,taken⟩ := Option.bind_eq_some_iff.mp taken
    split at taken
    · obtain rfl := Option.some.inj taken
      exact invariant_push_back holds here
    · cases taken
  | store k =>
    obtain ⟨call,here,taken⟩ := Option.bind_eq_some_iff.mp taken
    split at taken
    · rename_i registered
      obtain rfl := Option.some.inj taken
      exact {invariant_move holds here (show Stage.completed.pushed = call.stage.pushed by rw [registered]; rfl) with}
    · cases taken
  | message channel =>
    simp only [next,List.contains_iff_mem] at taken
    split at taken
    · obtain rfl := Option.some.inj taken
      exact {holds with}
    · cases taken

theorem invariant_initial : Invariant EventFactories {} := by
  constructor <;> simp

theorem invariant_reached {allowed : State → Event → Prop} (reached : (listening EventFactories).ReachableWhile allowed s) :
    Invariant EventFactories s := by
  exact System.stepping_invariant (Invariant EventFactories) invariant_initial (fun _ _ _ holds _ => invariant_step holds) reached

theorem completed_pushed (completed : s.completed k = true) (here : s.calls[k]? = some call) : call.stage.pushed = true := by
  simp only [State.completed,here,Option.any_some,decide_eq_true_eq] at completed
  rw [completed]
  rfl

/-- A message reaches the callbacks that it is to reach when those of the calls from before its
subscription have been registered, and only then. -/
theorem reaches_iff (holds : Invariant EventFactories s) (distinct : Distinct EventFactories) {channel : Bytes}
    (subscribed : channel ∈ s.channels) :
    (s.handle EventFactories channel).Reaches ↔ Registered s (.message channel) := by
  obtain ⟨nonempty,calls⟩ := holds.earlier channel subscribed
  constructor
  · rintro ⟨callbacks,found,covered⟩ k early call here
    obtain ⟨same,present,named⟩ := calls k early
    obtain rfl := Option.some.inj (here.symm.trans present)
    have owed : k ∈ (s.handle EventFactories channel).owed :=
      List.mem_filter.mpr ⟨mem_concerning.mpr ⟨call,here,named⟩,by simp [early]⟩
    obtain ⟨ID,_,listed⟩ := Option.bind_eq_some_iff.mp found
    obtain ⟨other,there,pushed⟩ := holds.pushers ID callbacks listed k (covered k owed)
    exact Option.some.inj (here.symm.trans there) ▸ pushed
  · intro registered
    obtain ⟨first,early⟩ := List.exists_mem_of_ne_nil _ nonempty
    obtain ⟨call,here,named⟩ := calls first early
    obtain ⟨callbacks,found,_⟩ := handled holds distinct here (registered first early call here)
    rw [named] at found
    refine ⟨callbacks,found,fun k owed => ?_⟩
    obtain ⟨concerning,reason⟩ := List.mem_filter.mp owed
    obtain ⟨other,there,same⟩ := mem_concerning.mp concerning
    have pushed : other.stage.pushed = true := by
      rcases Bool.or_eq_true_iff.mp reason with early | completed
      · exact registered k (of_decide_eq_true early) other there
      · exact completed_pushed completed there
    obtain ⟨list,again,member⟩ := handled holds distinct there pushed
    rw [same] at again
    exact Option.some.inj (again.symm.trans found) ▸ member

theorem deliveries_message {channel : Bytes} (taken : next EventFactories (.message channel) s = some after) :
    channel ∈ s.channels ∧ after.deliveries = s.deliveries ++ [s.handle EventFactories channel] := by
  simp only [next,List.contains_iff_mem] at taken
  split at taken
  · rename_i handling
    obtain rfl := Option.some.inj taken
    exact ⟨handling.2,rfl⟩
  · cases taken

theorem deliveries_step {event : Event} (taken : next EventFactories event s = some after) :
    after.deliveries = s.deliveries ∨ ∃ channel, event = .message channel := by
  cases event with
  | begin T =>
    obtain ⟨_,_,rfl⟩ := Option.map_eq_some_iff.mp ((Option.map_eq_bind ..).trans taken)
    exact .inl rfl
  | subscribe k =>
    obtain ⟨_,_,taken⟩ := Option.bind_eq_some_iff.mp taken
    repeat' split at taken
    all_goals cases taken
    all_goals exact .inl rfl
  | push_back k =>
    obtain ⟨_,_,taken⟩ := Option.bind_eq_some_iff.mp taken
    split at taken <;> cases taken
    exact .inl rfl
  | store k =>
    obtain ⟨_,_,taken⟩ := Option.bind_eq_some_iff.mp taken
    split at taken <;> cases taken
    exact .inl rfl
  | message channel => exact .inr ⟨channel,rfl⟩

end Calls

/-- Along a run in which no message is handled while a call from before its subscription has yet
to register its callback, every message reaches the callbacks that it is to reach; and a message
that is handled in any run reaches them just then. -/
theorem deliveries_reach (classes : List (Nat × Bytes)) :
    (∀ s, (listening (ofClasses classes)).ReachableWhile Registered s → ∀ d ∈ s.deliveries, d.Reaches) ∧
      ∀ s channel after, (listening (ofClasses classes)).Reachable s → next (ofClasses classes) (.message channel) s = some after →
        ∃ d, after.deliveries = s.deliveries ++ [d] ∧ (d.Reaches ↔ Registered s (.message channel)) := by
  have distinct := distinct_ofClasses classes
  constructor
  · intro s reached
    have along : Invariant (ofClasses classes) s ∧ ∀ d ∈ s.deliveries, d.Reaches := by
      apply System.stepping_invariant (fun s => Invariant (ofClasses classes) s ∧ ∀ d ∈ s.deliveries, d.Reaches) _ _ reached
      · exact ⟨invariant_initial,nofun⟩
      · rintro s event after ⟨holds,reach⟩ registered taken
        refine ⟨invariant_step holds taken,fun d member => ?_⟩
        rcases deliveries_step taken with same | ⟨channel,rfl⟩
        · exact reach d (same ▸ member)
        · obtain ⟨subscribed,deliveries⟩ := deliveries_message taken
          rw [deliveries] at member
          rcases List.mem_append.mp member with earlier | last
          · exact reach d earlier
          · rw [List.mem_singleton.mp last]
            exact (reaches_iff holds distinct subscribed).mpr registered
    exact along.2
  · intro s channel after reached taken
    obtain ⟨subscribed,deliveries⟩ := deliveries_message taken
    exact ⟨_,deliveries,reaches_iff (invariant_reached reached) distinct subscribed⟩

/-- One class, and a message after its subscription. -/
theorem deliveries_reach_one : ∃ s, (listening (ofClasses [(1,[65])])).ReachableWhile Registered s ∧
    s.deliveries ≠ [] ∧ ∀ d ∈ s.deliveries, d.Reaches := by
  have ran : ∃ s, System.replay (next (ofClasses [(1,[65])])) [.begin 1,.subscribe 0,.push_back 0,.store 0] {} = some s ∧
      s.calls.all (·.stage.pushed) = true ∧
      ∃ after, next (ofClasses [(1,[65])]) (.message [65]) s = some after ∧ after.deliveries ≠ [] := by
    exact ⟨_,rfl,by decide +kernel,_,rfl,by simp⟩
  obtain ⟨s,ran,pushed,after,taken,nonempty⟩ := ran
  have subscribed : (listening (ofClasses [(1,[65])])).ReachableWhile Registered s := by
    refine System.stepping_replay (fun state event member => ?_) System.stepping_start ran
    simp only [List.mem_cons,List.not_mem_nil,or_false] at member
    rcases member with rfl | rfl | rfl | rfl <;> trivial
  have registered : Registered s (.message [65]) := fun k _ call here =>
    List.all_eq_true.mp pushed call (List.mem_of_getElem? here)
  have reached := subscribed.step s _ after registered taken
  exact ⟨after,reached,nonempty,(deliveries_reach [(1,[65])]).1 after reached⟩

/-- The second class is subscribed to while messages are consumed already. -/
theorem lookup_throws : ∃ s, (listening (ofClasses [(1,[65]),(2,[66])])).Reachable s ∧
    ∃ d ∈ s.deliveries, d.callbacks = none ∧ ¬ d.Reaches := by
  have ran : ∃ s, System.replay (next (ofClasses [(1,[65]),(2,[66])]))
      [.begin 1,.subscribe 0,.push_back 0,.store 0,.begin 2,.subscribe 1,.message [66]] {} = some s ∧
      ∃ d ∈ s.deliveries, d.callbacks = none := by
    exact ⟨_,rfl,_,List.mem_cons_self,by decide +kernel⟩
  obtain ⟨s,ran,d,handled,thrown⟩ := ran
  refine ⟨s,System.stepping_replay (fun _ _ _ => trivial) System.stepping_start ran,d,handled,thrown,?_⟩
  rintro ⟨callbacks,found,_⟩
  rw [thrown] at found
  cases found

end EventSystem

end AtlasNet
