import AtlasNet.PacketManager
import AtlasNet.Foundation.Table
import Mathlib.Data.List.Nodup

/-! Subscriptions over whole runs: which entries are alive, who owns them, and what the
running dispatches still have ahead of them. -/
namespace AtlasNet.Subscriptions
open Foundation

/-- An entry is alive until its one subscription is reset, and stays in the table of its type. -/
structure Sound (s : State) : Prop where
  size : s.manager.allocated = s.subscribed.length
  entry : ∀ e entry, s.manager.entries e = some entry → s.subscribed[e]? = some entry.type ∧
    e ∈ s.manager.m_callbacks entry.type ∧ (entry.alive = true ↔ e ∉ s.reset)
  sorted : ∀ type, (s.manager.m_callbacks type).Pairwise (· < ·)
  tabled : ∀ type, ∀ e ∈ s.manager.m_callbacks type, ∃ entry, s.manager.entries e = some entry ∧ entry.type = type
  kept : ∀ e type, s.subscribed[e]? = some type → e ∉ s.reset → ∃ entry, s.manager.entries e = some entry
  ids : ∀ type, ∀ a ∈ s.manager.m_callbacks type, ∀ b ∈ s.manager.m_callbacks type, ∀ id,
    s.manager.identified id a = true → s.manager.identified id b = true → a = b
  past : ∀ e ∈ s.reset, e < s.subscribed.length
  owns : ∀ (k : Nat) sub, s.subscriptions[k]? = some sub → sub.owner = true → sub.entry ∉ s.reset ∧
    ∃ entry, s.manager.entries sub.entry = some entry ∧ entry.type = sub.type ∧ entry.id = sub.id
  single : ∀ (i j : Nat) a b, s.subscriptions[i]? = some a → s.subscriptions[j]? = some b → a.owner = true →
    b.owner = true → a.entry = b.entry → i = j

section Tables
variable {s : State}

theorem identified_iff {m : PacketManager} {id : UInt64} {e : Nat} :
    m.identified id e = true ↔ ∃ entry, m.entries e = some entry ∧ entry.id = id := by
  rw [PacketManager.identified]
  cases m.entries e <;> simp

theorem alive_iff (sound : Sound s) {e : Nat} {entry : CallbackEntry} (here : s.manager.entries e = some entry) :
    s.manager.alive e = true ↔ e ∉ s.reset := by
  rw [PacketManager.alive,here,Option.any_some]
  exact (sound.entry e entry here).2.2

theorem allocated_lt (sound : Sound s) {e : Nat} {entry : CallbackEntry} (here : s.manager.entries e = some entry) :
    e < s.subscribed.length :=
  (List.getElem?_eq_some_iff.mp (sound.entry e entry here).1).1

/-- The registered subscriptions of a type are the entries of its table that are not reset. -/
theorem registered_eq (sound : Sound s) (type : PacketTypeID) :
    s.registered type = (s.manager.m_callbacks type).filter (· ∉ s.reset) := by
  have first : (s.registered type).Pairwise (· < ·) := List.pairwise_lt_range.filter _
  have second : ((s.manager.m_callbacks type).filter (· ∉ s.reset)).Pairwise (· < ·) := (sound.sorted type).filter _
  apply List.Perm.eq_of_pairwise (fun a b _ _ less more => absurd less (Nat.lt_asymm more)) first second
  apply (List.perm_ext_iff_of_nodup first.nodup second.nodup).mpr
  intro e
  simp only [State.registered,List.mem_filter,List.mem_range,decide_eq_true_eq]
  constructor
  · rintro ⟨_,known,unreset⟩
    obtain ⟨entry,here⟩ := sound.kept e type known unreset
    obtain ⟨same,member,_⟩ := sound.entry e entry here
    obtain rfl := Option.some.inj (same.symm.trans known)
    exact ⟨member,unreset⟩
  · rintro ⟨member,unreset⟩
    obtain ⟨entry,here,rfl⟩ := sound.tabled type e member
    exact ⟨allocated_lt sound here,(sound.entry e entry here).1,unreset⟩

/-- An owner's ID leads to its own entry. -/
theorem deactivate_owned (sound : Sound s) {k : Nat} {sub : Subscription} (here : s.subscriptions[k]? = some sub)
    (owner : sub.owner = true) : s.manager.Deactivate sub.type sub.id = s.manager.kill sub.entry := by
  obtain ⟨_,entry,points,same,id⟩ := sound.owns k sub here owner
  have member := same ▸ (sound.entry _ entry points).2.1
  have own : s.manager.identified sub.id sub.entry = true := identified_iff.mpr ⟨entry,points,id⟩
  have found : (s.manager.m_callbacks sub.type).find? (s.manager.identified sub.id) = some sub.entry := by
    cases first : (s.manager.m_callbacks sub.type).find? (s.manager.identified sub.id) with
    | none => exact absurd own (List.find?_eq_none.mp first _ member)
    | some e =>
      have both := sound.ids sub.type e (List.mem_of_find?_eq_some first) _ member sub.id (List.find?_some first) own
      rw [both]
  rw [PacketManager.Deactivate,found]

end Tables

section Subscribing
variable {s : State} {type : PacketTypeID}

theorem table_lt (sound : Sound s) {other : PacketTypeID} {e : Nat} (member : e ∈ s.manager.m_callbacks other) :
    e < s.subscribed.length := by
  obtain ⟨entry,here,_⟩ := sound.tabled other e member
  exact allocated_lt sound here

theorem subscribed_Subscribe {e : Nat} {known : PacketTypeID} : (s.Subscribe type).subscribed[e]? = some known ↔
    s.subscribed[e]? = some known ∨ e = s.subscribed.length ∧ known = type :=
  Table.getElem?_snoc

theorem subscriptions_Subscribe {k : Nat} {sub : Subscription} : (s.Subscribe type).subscriptions[k]? = some sub ↔
    s.subscriptions[k]? = some sub ∨ k = s.subscriptions.length ∧ sub = (s.manager.Subscribe type).1 :=
  Table.getElem?_snoc

theorem entries_Subscribe (sound : Sound s) {e : Nat} {entry : CallbackEntry} :
    (s.Subscribe type).manager.entries e = some entry ↔
      s.manager.entries e = some entry ∨ e = s.subscribed.length ∧ entry = {id := s.manager.m_nextId,type} := by
  have points : (s.Subscribe type).manager.entries = Function.update s.manager.entries s.subscribed.length
      (some {id := s.manager.m_nextId,type}) := by
    rw [← sound.size]
    rfl
  rw [points]
  by_cases own : e = s.subscribed.length
  · rw [own,Function.update_self]
    constructor
    · exact fun here => .inr ⟨rfl,(Option.some.inj here).symm⟩
    · rintro (before | ⟨_,rfl⟩)
      · exact absurd (allocated_lt sound before) (lt_irrefl _)
      · rfl
  · rw [Function.update_of_ne own]
    constructor
    · exact .inl
    · rintro (before | ⟨new,_⟩)
      · exact before
      · exact absurd new own

theorem m_callbacks_Subscribe (sound : Sound s) (other : PacketTypeID) : (s.Subscribe type).manager.m_callbacks other =
    if other = type then s.manager.m_callbacks type ++ [s.subscribed.length] else s.manager.m_callbacks other := by
  rw [← sound.size]
  exact Function.update_apply ..

theorem mem_table_Subscribe (sound : Sound s) {other : PacketTypeID} {e : Nat} :
    e ∈ (s.Subscribe type).manager.m_callbacks other ↔
      e ∈ s.manager.m_callbacks other ∨ e = s.subscribed.length ∧ other = type := by
  rw [m_callbacks_Subscribe sound]
  split
  · rename_i same
    rw [List.mem_append,List.mem_singleton,same]
    exact or_congr_right (and_iff_left rfl).symm
  · rename_i different
    exact (or_iff_left fun new => different new.2).symm

theorem identified_Subscribe (sound : Sound s) {id : UInt64} {e : Nat} : (s.Subscribe type).manager.identified id e = true ↔
    s.manager.identified id e = true ∨ e = s.subscribed.length ∧ id = s.manager.m_nextId := by
  rw [identified_iff,identified_iff]
  constructor
  · rintro ⟨entry,here,rfl⟩
    rcases (entries_Subscribe sound).mp here with before | ⟨new,rfl⟩
    · exact .inl ⟨entry,before,rfl⟩
    · exact .inr ⟨new,rfl⟩
  · rintro (⟨entry,before,same⟩ | ⟨new,rfl⟩)
    · exact ⟨entry,(entries_Subscribe sound).mpr (.inl before),same⟩
    · exact ⟨_,(entries_Subscribe sound).mpr (.inr ⟨new,rfl⟩),rfl⟩

theorem ids_Subscribe (sound : Sound s) (fresh : Sparing s (.Subscribe type)) (other : PacketTypeID) :
    ∀ a ∈ (s.Subscribe type).manager.m_callbacks other, ∀ b ∈ (s.Subscribe type).manager.m_callbacks other, ∀ id,
      (s.Subscribe type).manager.identified id a = true → (s.Subscribe type).manager.identified id b = true → a = b := by
  have before {e : Nat} {id : UInt64} (member : e ∈ s.manager.m_callbacks other)
      (here : (s.Subscribe type).manager.identified id e = true) : s.manager.identified id e = true :=
    ((identified_Subscribe sound).mp here).resolve_right fun new => (table_lt sound member).ne new.1
  have own {id : UInt64} (here : (s.Subscribe type).manager.identified id s.subscribed.length = true) : id = s.manager.m_nextId := by
    rcases (identified_Subscribe sound).mp here with old | ⟨_,new⟩
    · obtain ⟨entry,points,_⟩ := identified_iff.mp old
      exact absurd (allocated_lt sound points) (lt_irrefl _)
    · exact new
  have apart {e : Nat} {id : UInt64} (same : other = type) (member : e ∈ s.manager.m_callbacks other)
      (here : (s.Subscribe type).manager.identified id e = true)
      (new : (s.Subscribe type).manager.identified id s.subscribed.length = true) : False := by
    have taken := before member here
    rw [own new,fresh e (same ▸ member)] at taken
    cases taken
  intro a first b second id isA isB
  rcases (mem_table_Subscribe sound).mp first with oldA | ⟨rfl,same⟩ <;>
    rcases (mem_table_Subscribe sound).mp second with oldB | ⟨rfl,also⟩
  · exact sound.ids other a oldA b oldB id (before oldA isA) (before oldB isB)
  · exact (apart also oldA isA isB).elim
  · exact (apart same oldB isB isA).elim
  · rfl

theorem owner_lt (sound : Sound s) {k : Nat} {sub : Subscription} (here : s.subscriptions[k]? = some sub)
    (owner : sub.owner = true) : sub.entry < s.subscribed.length := by
  obtain ⟨_,entry,points,_⟩ := sound.owns k sub here owner
  exact allocated_lt sound points

theorem single_Subscribe (sound : Sound s) (i j : Nat) (a b : Subscription)
    (hereA : (s.Subscribe type).subscriptions[i]? = some a) (hereB : (s.Subscribe type).subscriptions[j]? = some b)
    (ownsA : a.owner = true) (ownsB : b.owner = true) (same : a.entry = b.entry) : i = j := by
  have made : (s.manager.Subscribe type).1.entry = s.subscribed.length := sound.size
  rcases subscriptions_Subscribe.mp hereA with oldA | ⟨rfl,rfl⟩ <;> rcases subscriptions_Subscribe.mp hereB with oldB | ⟨rfl,rfl⟩
  · exact sound.single i j a b oldA oldB ownsA ownsB same
  · exact absurd (same.trans made) (owner_lt sound oldA ownsA).ne
  · exact absurd (same.symm.trans made) (owner_lt sound oldB ownsB).ne
  · rfl

theorem sound_Subscribe (sound : Sound s) (fresh : Sparing s (.Subscribe type)) : Sound (s.Subscribe type) := by
  have unreset : s.subscribed.length ∉ s.reset := fun member => absurd (sound.past _ member) (lt_irrefl _)
  refine ⟨?_,?_,?_,?_,?_,ids_Subscribe sound fresh,?_,?_,single_Subscribe sound⟩
  · simp [State.Subscribe,PacketManager.Subscribe,sound.size]
  · intro e entry here
    rcases (entries_Subscribe sound).mp here with before | ⟨rfl,rfl⟩
    · obtain ⟨known,member,alive⟩ := sound.entry e entry before
      exact ⟨subscribed_Subscribe.mpr (.inl known),(mem_table_Subscribe sound).mpr (.inl member),alive⟩
    · exact ⟨subscribed_Subscribe.mpr (.inr ⟨rfl,rfl⟩),(mem_table_Subscribe sound).mpr (.inr ⟨rfl,rfl⟩),
        fun _ => unreset,fun _ => rfl⟩
  · intro other
    rw [m_callbacks_Subscribe sound]
    split
    · rw [List.pairwise_append]
      refine ⟨sound.sorted type,List.pairwise_singleton _ _,fun e member n own => ?_⟩
      rw [List.mem_singleton.mp own]
      exact table_lt sound member
    · exact sound.sorted other
  · intro other e member
    rcases (mem_table_Subscribe sound).mp member with before | ⟨rfl,rfl⟩
    · obtain ⟨entry,here,same⟩ := sound.tabled other e before
      exact ⟨entry,(entries_Subscribe sound).mpr (.inl here),same⟩
    · exact ⟨_,(entries_Subscribe sound).mpr (.inr ⟨rfl,rfl⟩),rfl⟩
  · intro e other here absent
    rcases subscribed_Subscribe.mp here with before | ⟨rfl,_⟩
    · obtain ⟨entry,points⟩ := sound.kept e other before absent
      exact ⟨entry,(entries_Subscribe sound).mpr (.inl points)⟩
    · exact ⟨_,(entries_Subscribe sound).mpr (.inr ⟨rfl,rfl⟩)⟩
  · intro e member
    exact (sound.past e member).trans_le (by simp [State.Subscribe])
  · intro k sub here owner
    rcases subscriptions_Subscribe.mp here with before | ⟨_,rfl⟩
    · obtain ⟨absent,entry,points,same⟩ := sound.owns k sub before owner
      exact ⟨absent,entry,(entries_Subscribe sound).mpr (.inl points),same⟩
    · exact ⟨fun member => unreset (sound.size ▸ member),_,(entries_Subscribe sound).mpr (.inr ⟨sound.size,rfl⟩),rfl,rfl⟩

end Subscribing

section Operations
variable {s after : State}

theorem entries_kill (m : PacketManager) (killed e : Nat) : (m.kill killed).entries e =
    (m.entries e).map fun entry => if e = killed then {entry with alive := false} else entry := by
  by_cases own : e = killed
  · simp [PacketManager.kill,own]
  · simp [PacketManager.kill,own]

theorem points_kill {m : PacketManager} {killed e : Nat} {entry : CallbackEntry} (here : m.entries e = some entry) :
    (m.kill killed).entries e = some (if e = killed then {entry with alive := false} else entry) := by
  rw [entries_kill,here,Option.map_some]

theorem pointed_kill {m : PacketManager} {killed e : Nat} {entry : CallbackEntry}
    (here : (m.kill killed).entries e = some entry) :
    ∃ before, m.entries e = some before ∧ (if e = killed then {before with alive := false} else before) = entry := by
  rw [entries_kill] at here
  exact Option.map_eq_some_iff.mp here

theorem identified_kill {m : PacketManager} {killed e : Nat} {id : UInt64} :
    (m.kill killed).identified id e = true ↔ m.identified id e = true := by
  rw [identified_iff,identified_iff]
  constructor
  · rintro ⟨entry,here,rfl⟩
    obtain ⟨before,points,rfl⟩ := pointed_kill here
    exact ⟨before,points,by split <;> rfl⟩
  · rintro ⟨entry,here,rfl⟩
    exact ⟨_,points_kill here,by split <;> rfl⟩

/-- A subscription that loses its owner takes the entry with it. -/
theorem sound_released (sound : Sound s) {k : Nat} {sub : Subscription} (here : s.subscriptions[k]? = some sub)
    (owner : sub.owner = true) : Sound {s with
      manager := s.manager.kill sub.entry
      subscriptions := s.subscriptions.set k {sub with owner := false}
      reset := sub.entry::s.reset} := by
  obtain ⟨unreset,own,points,_⟩ := sound.owns k sub here owner
  have others {j : Nat} {other : Subscription} (there : (s.subscriptions.set k {sub with owner := false})[j]? = some other)
      (owns : other.owner = true) : j ≠ k ∧ s.subscriptions[j]? = some other := by
    by_cases at_k : k = j
    · subst at_k
      rw [List.getElem?_set_self (List.getElem?_eq_some_iff.mp here).1] at there
      obtain rfl := Option.some.inj there
      cases owns
    · exact ⟨Ne.symm at_k,(List.getElem?_set_ne at_k).symm.trans there⟩
  refine ⟨sound.size,?_,sound.sorted,?_,?_,?_,?_,?_,?_⟩
  · intro e entry there
    obtain ⟨before,points,rfl⟩ := pointed_kill there
    obtain ⟨type,member,alive⟩ := sound.entry e before points
    split
    · rename_i same
      exact ⟨type,member,nofun,fun absent => absurd (same ▸ List.mem_cons_self) absent⟩
    · rename_i different
      exact ⟨type,member,alive.trans (by simp [different])⟩
  · intro type e member
    obtain ⟨entry,points,same⟩ := sound.tabled type e member
    exact ⟨_,points_kill points,by split <;> exact same⟩
  · intro e type known absent
    obtain ⟨entry,points⟩ := sound.kept e type known (fun member => absent (List.mem_cons_of_mem _ member))
    exact ⟨_,points_kill points⟩
  · intro type a first b second id isA isB
    exact sound.ids type a first b second id (identified_kill.mp isA) (identified_kill.mp isB)
  · intro e member
    rcases List.mem_cons.mp member with rfl | before
    · exact allocated_lt sound points
    · exact sound.past e before
  · intro j other there owns
    obtain ⟨different,before⟩ := others there owns
    obtain ⟨absent,entry,points,type,id⟩ := sound.owns j other before owns
    have apart : other.entry ≠ sub.entry := fun same => different (sound.single j k other sub before here owns owner same)
    refine ⟨fun member => (List.mem_cons.mp member).elim apart absent,_,points_kill points,?_,?_⟩
    · rw [if_neg apart]
      exact type
    · rw [if_neg apart]
      exact id
  · intro i j a b hereA hereB ownsA ownsB same
    exact sound.single i j a b (others hereA ownsA).2 (others hereB ownsB).2 ownsA ownsB same

theorem sound_Reset (sound : Sound s) {k : Nat} (ran : s.Reset k = some after) : Sound after := by
  obtain ⟨sub,here,ran⟩ := Option.bind_eq_some_iff.mp ran
  split at ran
  · rename_i owner
    obtain rfl := Option.some.inj ran
    rw [deactivate_owned sound here owner]
    exact sound_released sound here owner
  · exact Option.some.inj ran ▸ sound

theorem sound_moved (sound : Sound s) (subscriptions : List Subscription) (origin : Nat → Nat)
    (from_origin : ∀ (k : Nat) sub, subscriptions[k]? = some sub → sub.owner = true → s.subscriptions[origin k]? = some sub)
    (apart : ∀ (i j : Nat) a b, subscriptions[i]? = some a → subscriptions[j]? = some b → a.owner = true →
      b.owner = true → origin i = origin j → i = j) : Sound {s with subscriptions} :=
  {sound with
    owns := fun k sub here owner => sound.owns (origin k) sub (from_origin k sub here owner) owner
    single := fun i j a b hereA hereB ownsA ownsB same => apart i j a b hereA hereB ownsA ownsB
      (sound.single _ _ a b (from_origin i a hereA ownsA) (from_origin j b hereB ownsB) ownsA ownsB same)}

theorem sound_Move (sound : Sound s) {target source : Nat} (ran : s.Move target source = some after) : Sound after := by
  unfold State.Move at ran
  split at ran
  · exact Option.some.inj ran ▸ sound
  · rename_i different
    obtain ⟨middle,reset,ran⟩ := Option.bind_eq_some_iff.mp ran
    obtain ⟨other,here,ran⟩ := Option.bind_eq_some_iff.mp ran
    obtain rfl := Option.some.inj ran
    have places (k : Nat) (sub : Subscription)
        (there : ((middle.subscriptions.set target other).set source {other with owner := false})[k]? = some sub)
        (owner : sub.owner = true) : k ≠ source ∧ middle.subscriptions[if k = target then source else k]? = some sub := by
      by_cases at_source : source = k
      · subst at_source
        have inside : source < (middle.subscriptions.set target other).length := by
          rw [List.length_set]
          exact (List.getElem?_eq_some_iff.mp here).1
        rw [List.getElem?_set_self inside] at there
        obtain rfl := Option.some.inj there
        cases owner
      · rw [List.getElem?_set_ne at_source] at there
        refine ⟨Ne.symm at_source,?_⟩
        by_cases at_target : target = k
        · subst at_target
          rw [if_pos rfl]
          have inside : target < middle.subscriptions.length := by
            rw [← List.length_set]
            exact (List.getElem?_eq_some_iff.mp there).1
          rw [List.getElem?_set_self inside] at there
          exact Option.some.inj there ▸ here
        · rw [if_neg (Ne.symm at_target)]
          exact (List.getElem?_set_ne at_target).symm.trans there
    apply sound_moved (sound_Reset sound reset) _ (fun k => if k = target then source else k)
    · exact fun k sub there owner => (places k sub there owner).2
    · intro i j a b hereA hereB ownsA ownsB same
      have awayA := (places i a hereA ownsA).1
      have awayB := (places j b hereB ownsB).1
      split at same <;> split at same <;> omega

theorem sound_placed (sound : Sound s) : Sound {s with subscriptions := s.subscriptions ++ [({} : Subscription)]} := by
  have placed (k : Nat) (sub : Subscription) (there : (s.subscriptions ++ [({} : Subscription)])[k]? = some sub)
      (owner : sub.owner = true) : s.subscriptions[k]? = some sub := by
    rcases Table.getElem?_snoc.mp there with before | ⟨_,rfl⟩
    · exact before
    · cases owner
  exact sound_moved sound _ id placed fun _ _ _ _ _ _ _ _ same => same

theorem sound_Cleanup (sound : Sound s) : Sound {s with manager := s.manager.Cleanup} := by
  have pointed {e : Nat} {entry : CallbackEntry} (here : s.manager.Cleanup.entries e = some entry) :
      s.manager.entries e = some entry ∧ entry.alive = true := Option.filter_eq_some_iff.mp here
  have points {e : Nat} {entry : CallbackEntry} (here : s.manager.entries e = some entry) (unreset : e ∉ s.reset) :
      s.manager.Cleanup.entries e = some entry :=
    Option.filter_eq_some_iff.mpr ⟨here,(sound.entry e entry here).2.2.mpr unreset⟩
  refine ⟨sound.size,?_,fun type => (sound.sorted type).filter _,?_,?_,?_,sound.past,?_,sound.single⟩
  · intro e entry here
    obtain ⟨before,alive⟩ := pointed here
    obtain ⟨type,member,living⟩ := sound.entry e entry before
    exact ⟨type,List.mem_filter.mpr ⟨member,(alive_iff sound before).mpr (living.mp alive)⟩,living⟩
  · intro type e member
    obtain ⟨inside,alive⟩ := List.mem_filter.mp member
    obtain ⟨entry,here,same⟩ := sound.tabled type e inside
    exact ⟨entry,points here ((alive_iff sound here).mp alive),same⟩
  · intro e type known unreset
    obtain ⟨entry,here⟩ := sound.kept e type known unreset
    exact ⟨entry,points here unreset⟩
  · have before {id : UInt64} {e : Nat} (here : s.manager.Cleanup.identified id e = true) : s.manager.identified id e = true := by
      obtain ⟨entry,found,same⟩ := identified_iff.mp here
      exact identified_iff.mpr ⟨entry,(pointed found).1,same⟩
    intro type a first b second id isA isB
    exact sound.ids type a (List.mem_filter.mp first).1 b (List.mem_filter.mp second).1 id (before isA) (before isB)
  · intro k sub here owner
    obtain ⟨unreset,entry,found,same⟩ := sound.owns k sub here owner
    exact ⟨unreset,entry,points found unreset,same⟩

end Operations

/-- What a dispatch has looked at and has ahead is its snapshot, of which no entry that it still
needs is freed; an entry is passed over when its subscription was reset. -/
structure Runs (s : State) (d : Dispatch) : Prop where
  distinct : (d.turns.map (·.entry) ++ d.ahead).Nodup
  registered : d.registered = (d.turns.map (·.entry) ++ d.ahead).filter (· ∈ d.registered)
  needed : ∀ e ∈ d.calling.toList ++ d.ahead, ∃ entry, s.manager.entries e = some entry ∧ entry.type = d.type
  passed : ∀ e ∈ d.ahead, e ∉ d.registered → e ∈ s.reset
  looked : ∀ turn ∈ d.turns, turn.type = d.type ∧ turn.invoked = !turn.reset ∧ (turn.entry ∉ d.registered → turn.reset = true)

section Dispatches
variable {s after : State} {d : Dispatch}

theorem runs_congr (runs : Runs s d) (points : ∀ e ∈ d.calling.toList ++ d.ahead, ∀ entry, s.manager.entries e = some entry →
    ∃ later, after.manager.entries e = some later ∧ later.type = entry.type) (reset : ∀ e ∈ s.reset, e ∈ after.reset) :
    Runs after d := by
  refine {runs with needed := fun e member => ?_,passed := fun e member absent => reset e (runs.passed e member absent)}
  obtain ⟨entry,here,type⟩ := runs.needed e member
  obtain ⟨later,there,same⟩ := points e member entry here
  exact ⟨later,there,same.trans type⟩

theorem runs_Dispatch (sound : Sound s) (type : PacketTypeID) :
    Runs s {type,registered := s.registered type,ahead := s.manager.m_callbacks type} := by
  have registered (e : Nat) (member : e ∈ s.manager.m_callbacks type) : e ∈ s.registered type ↔ e ∉ s.reset := by
    rw [registered_eq sound,List.mem_filter,decide_eq_true_eq]
    exact and_iff_right member
  refine ⟨(sound.sorted type).nodup,?_,fun e member => sound.tabled type e member,fun e member absent => ?_,nofun⟩
  · rw [List.map_nil,List.nil_append,registered_eq sound]
    apply List.filter_congr
    intro e member
    rw [← registered_eq sound]
    simp only [registered e member]
  · exact not_not.mp (mt (registered e member).mpr absent)

theorem runs_turn (sound : Sound s) (runs : Runs s d) {step : Dispatch × Bool} (taken : s.turn d = some step) :
    Runs s step.1 ∧ step.2 = false := by
  unfold State.turn at taken
  split at taken
  · rename_i e ahead idle front
    obtain ⟨entry,here,type⟩ := runs.needed e (by rw [front,idle]; exact List.mem_cons_self)
    rw [here] at taken
    obtain rfl := Option.some.inj taken
    have living := (sound.entry e entry here).2.2
    have needed := runs.needed
    rw [idle,front] at needed
    have snapshot (turn : Turn) (own : turn.entry = e) :
        (d.turns ++ [turn]).map (·.entry) ++ ahead = d.turns.map (·.entry) ++ d.ahead := by
      rw [front,List.map_append,List.map_singleton,own,List.append_assoc]
      rfl
    refine ⟨⟨?_,?_,?_,?_,?_⟩,rfl⟩
    · rw [snapshot _ rfl]
      exact runs.distinct
    · rw [snapshot _ rfl]
      exact runs.registered
    · intro other member
      rcases List.mem_append.mp member with running | later
      · split at running
        · rw [Option.mem_toList.mp running |> Option.some.inj |>.symm]
          exact ⟨entry,here,type⟩
        · cases running
      · exact needed other (List.mem_cons_of_mem _ later)
    · exact fun other member absent => runs.passed other (front ▸ List.mem_cons_of_mem _ member) absent
    · intro turn member
      rcases List.mem_append.mp member with before | last
      · exact runs.looked turn before
      · obtain rfl := List.mem_singleton.mp last
        refine ⟨type,?_,fun absent => ?_⟩
        · rw [Bool.eq_iff_iff,living]
          simp
        · exact decide_eq_true (runs.passed e (front ▸ List.mem_cons_self) absent)
  · cases taken

theorem runs_returns (runs : Runs s d) {step : Dispatch × Bool} (taken : s.returns d = some step) :
    Runs s step.1 ∧ step.2 = false := by
  obtain ⟨e,running,rfl⟩ := Option.map_eq_some_iff.mp taken
  obtain ⟨entry,here,_⟩ := runs.needed e (by rw [running]; exact List.mem_cons_self)
  refine ⟨{runs with needed := fun other member => ?_},?_⟩
  · exact runs.needed other (List.mem_append_right _ member)
  · rw [here]
    rfl

/-- The callbacks invoked so far are a first part of the ones that are due. -/
theorem due_eq (runs : Runs s d) : d.due = d.invoked ++ d.ahead.filter (· ∈ d.due) := by
  have turns := (List.nodup_append.mp runs.distinct).1
  have looked : (d.turns.map (·.entry)).filter (· ∈ d.due) = d.invoked := by
    rw [Dispatch.invoked,List.filter_map]
    congr 1
    apply List.filter_congr
    intro turn member
    obtain ⟨_,invoked,unregistered⟩ := runs.looked turn member
    have reset : turn.entry ∈ d.resetInTime ↔ turn.reset = true := by
      constructor
      · intro inside
        obtain ⟨other,found,same⟩ := List.mem_map.mp inside
        obtain ⟨listed,late⟩ := List.mem_filter.mp found
        exact List.inj_on_of_nodup_map turns listed member same ▸ late
      · exact fun late => List.mem_map.mpr ⟨turn,List.mem_filter.mpr ⟨member,late⟩,rfl⟩
    have due : turn.entry ∈ d.due ↔ turn.invoked = true := by
      rw [Dispatch.due,List.mem_filter,decide_eq_true_eq,reset,invoked,Bool.not_eq_true']
      rw [Bool.not_eq_true]
      refine and_iff_right_of_imp fun intime => ?_
      by_contra absent
      rw [unregistered absent] at intime
      cases intime
    rw [Function.comp_apply,Bool.eq_iff_iff,decide_eq_true_eq]
    exact due
  calc d.due = ((d.turns.map (·.entry) ++ d.ahead).filter (· ∈ d.registered)).filter (· ∉ d.resetInTime) := by
        rw [← runs.registered,Dispatch.due]
    _ = (d.turns.map (·.entry) ++ d.ahead).filter (· ∈ d.due) := by
        rw [List.filter_filter]
        apply List.filter_congr
        intro e _
        rw [Bool.eq_iff_iff,decide_eq_true_eq,Dispatch.due,List.mem_filter]
        simp [and_comm]
    _ = d.invoked ++ d.ahead.filter (· ∈ d.due) := by rw [List.filter_append,looked]

end Dispatches

structure Invariant (s : State) : Prop extends Sound s where
  runs : ∀ d ∈ s.dispatches, Runs s d
  unfreed : s.usedFreed = false

/-- A step of the subscriptions leaves the dispatches and the allocated entries in their places. -/
structure Keeps (s after : State) : Prop where
  dispatches : after.dispatches = s.dispatches
  usedFreed : after.usedFreed = s.usedFreed
  points : ∀ e entry, s.manager.entries e = some entry → ∃ later, after.manager.entries e = some later ∧ later.type = entry.type
  reset : ∀ e ∈ s.reset, e ∈ after.reset

section Steps
variable {s after : State} {event : Event}

theorem keeps_Subscribe (sound : Sound s) (type : PacketTypeID) : Keeps s (s.Subscribe type) := by
  refine ⟨rfl,rfl,fun e entry here => ⟨entry,?_,rfl⟩,fun _ => id⟩
  exact (Function.update_of_ne (ne_of_lt (sound.size ▸ allocated_lt sound here)) _ _).trans here

theorem keeps_Reset (sound : Sound s) {k : Nat} (ran : s.Reset k = some after) : Keeps s after := by
  obtain ⟨sub,here,ran⟩ := Option.bind_eq_some_iff.mp ran
  split at ran
  · rename_i owner
    obtain rfl := Option.some.inj ran
    rw [deactivate_owned sound here owner]
    exact ⟨rfl,rfl,fun e entry here => ⟨_,points_kill here,by split <;> rfl⟩,fun e => List.mem_cons_of_mem _⟩
  · obtain rfl := Option.some.inj ran
    exact ⟨rfl,rfl,fun e entry here => ⟨entry,here,rfl⟩,fun _ => id⟩

theorem keeps_Move (sound : Sound s) {target source : Nat} (ran : s.Move target source = some after) : Keeps s after := by
  unfold State.Move at ran
  split at ran
  · obtain rfl := Option.some.inj ran
    exact ⟨rfl,rfl,fun e entry here => ⟨entry,here,rfl⟩,fun _ => id⟩
  · obtain ⟨middle,reset,ran⟩ := Option.bind_eq_some_iff.mp ran
    obtain ⟨other,_,ran⟩ := Option.bind_eq_some_iff.mp ran
    obtain rfl := Option.some.inj ran
    exact {keeps_Reset sound reset with}

theorem invariant_keeps (holds : Invariant s) (keeps : Keeps s after) (sound : Sound after) : Invariant after := by
  refine {sound with runs := fun d member => ?_,unfreed := keeps.usedFreed.trans holds.unfreed}
  rw [keeps.dispatches] at member
  exact runs_congr (holds.runs d member) (fun e _ => keeps.points e) keeps.reset

theorem invariant_advance (holds : Invariant s) {k : Nat} {step : Dispatch → State → Option (Dispatch × Bool)}
    (runs : ∀ d reached, Runs s d → step d s = some reached → Runs s reached.1 ∧ reached.2 = false)
    (ran : s.advance k step = some after) : Invariant after := by
  obtain ⟨d,here,ran⟩ := Option.bind_eq_some_iff.mp ran
  obtain ⟨reached,taken,ran⟩ := Option.bind_eq_some_iff.mp ran
  obtain rfl := Option.some.inj ran
  obtain ⟨goes,unfreed⟩ := runs d reached (holds.runs d (List.mem_of_getElem? here)) taken
  refine {holds.toSound with runs := fun other member => ?_,unfreed := ?_}
  · rcases List.mem_or_eq_of_mem_set member with before | rfl
    · exact {holds.runs other before with}
    · exact {goes with}
  · rw [holds.unfreed,unfreed]
    rfl

theorem invariant_Cleanup (holds : Invariant s) (sparing : Sparing s .Cleanup) :
    Invariant {s with manager := s.manager.Cleanup} := by
  refine {sound_Cleanup holds.toSound with runs := fun d member => ?_,unfreed := holds.unfreed}
  refine runs_congr (holds.runs d member) (fun e needed entry here => ⟨entry,?_,rfl⟩) fun _ => id
  have alive := sparing d member e needed
  rw [PacketManager.alive,here] at alive
  exact Option.filter_eq_some_iff.mpr ⟨here,alive⟩

theorem invariant_step (holds : Invariant s) (sparing : Sparing s event) (taken : next event s = some after) :
    Invariant after := by
  have sound := holds.toSound
  cases event with
  | Subscribe type =>
    obtain rfl := Option.some.inj taken
    exact invariant_keeps holds (keeps_Subscribe sound type) (sound_Subscribe sound sparing)
  | Move target source => exact invariant_keeps holds (keeps_Move sound taken) (sound_Move sound taken)
  | MoveNew source =>
    have made := sound_placed sound
    exact invariant_keeps holds {keeps_Move made taken with} (sound_Move made taken)
  | Reset k => exact invariant_keeps holds (keeps_Reset sound taken) (sound_Reset sound taken)
  | Dispatch type =>
    obtain rfl := Option.some.inj taken
    refine {sound with runs := fun d member => ?_,unfreed := holds.unfreed}
    rcases List.mem_append.mp member with before | new
    · exact {holds.runs d before with}
    · obtain rfl := List.mem_singleton.mp new
      exact {runs_Dispatch sound type with}
  | turn k => exact invariant_advance holds (fun _ _ runs => runs_turn sound runs) taken
  | returns k => exact invariant_advance holds (fun _ _ runs => runs_returns runs) taken
  | Cleanup =>
    obtain rfl := Option.some.inj taken
    exact invariant_Cleanup holds sparing

end Steps

theorem invariant_initial : Invariant {} :=
  ⟨⟨rfl,nofun,fun _ => List.Pairwise.nil,nofun,nofun,nofun,nofun,nofun,nofun⟩,nofun,rfl⟩

theorem behaves_of_invariant {s : State} (holds : Invariant s) : Behaves s := by
  refine ⟨holds.unfreed,fun d member => ?_,fun d member finished => ?_,fun d member => ?_,fun d member turn listed _ => ?_⟩
  · rw [due_eq (holds.runs d member)]
    exact List.prefix_append _ _
  · have due := due_eq (holds.runs d member)
    rw [finished,List.filter_nil,List.append_nil] at due
    exact due.symm
  · have turns := (List.nodup_append.mp (holds.runs d member).distinct).1
    exact turns.sublist (List.filter_sublist.map _)
  · exact ((holds.runs d member).looked turn listed).1

/-- In every run whose cleanups free no entry that a running dispatch still needs, every
dispatch invokes exactly the callbacks that are due. -/
theorem dispatches_behave {s : State} (reached : subscribing.ReachableWhile Sparing s) : Behaves s := by
  apply behaves_of_invariant
  exact System.stepping_invariant Invariant invariant_initial (fun _ _ _ => invariant_step) reached

/-- The first of three callbacks resets the second subscription and dispatches a packet of the
type in turn; the entry is freed when both dispatches are over. -/
def nested : Option State :=
  System.replay (System.checked Sparing next) [.Subscribe 7,.Subscribe 7,.Subscribe 7,.Dispatch 7,.turn 0,.Reset 1,.Dispatch 7,
    .turn 1,.returns 1,.turn 1,.turn 1,.returns 1,.returns 0,.turn 0,.turn 0,.returns 0,.Cleanup] {}

theorem dispatches_behave_once : ∃ s, nested = some s ∧ s.dispatches.map (·.invoked) = [[0,2],[0,2]] ∧ Behaves s := by
  have invoked : nested.map (·.dispatches.map (·.invoked)) = some [[0,2],[0,2]] := by decide +kernel
  obtain ⟨s,ran,invoked⟩ := Option.map_eq_some_iff.mp invoked
  exact ⟨s,ran,invoked,dispatches_behave (System.stepping_checked System.stepping_start ran)⟩

/-- The first of two callbacks resets the other subscription and cleans up, and the dispatch
goes on with the entry that was freed. -/
theorem cleanup_frees_needed : ∃ s, subscribing.Reachable s ∧ s.usedFreed = true ∧ ¬ Behaves s := by
  have ran : ∃ s, System.replay next [.Subscribe 7,.Subscribe 7,.Dispatch 7,.turn 0,.Reset 1,.Cleanup,.returns 0,.turn 0] {} = some s ∧
      s.usedFreed = true := ⟨_,rfl,rfl⟩
  obtain ⟨s,ran,used⟩ := ran
  refine ⟨s,System.stepping_replay (fun _ _ _ => trivial) System.stepping_start ran,used,fun behaves => ?_⟩
  exact Bool.false_ne_true (behaves.unfreed.symm.trans used)

end AtlasNet.Subscriptions
