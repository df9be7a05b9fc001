import AtlasNet.Foundation.Program
import Mathlib.Logic.Function.Basic

/-! Values under keys for which a deadline may be set. Nobody finds a value whose deadline the
clock has reached. -/
namespace AtlasNet.Foundation
open Program
variable {K V : Type}

structure Entry (V : Type) where
  value : V
  deadline : Option Nat := none

structure Expiring (K V : Type) where
  clock : Nat := 0
  entries : K → Option (Entry V) := fun _ => none

namespace Expiring
variable {s : Expiring K V} {key other : K} {entry : Entry V} {time : Nat}

def Fresh (clock : Nat) (entry : Entry V) : Bool := entry.deadline.all (clock < ·)

def live (key : K) (s : Expiring K V) : Option (Entry V) := (s.entries key).filter (Fresh s.clock)

/-- The value that is found under a key. -/
def seen (key : K) (s : Expiring K V) : Option V := (s.live key).map (·.value)

def get (key : K) : Program (Expiring K V) (Option V) := do
  let s ← MonadState.get
  return (s.live key).map (·.value)

def pass (time : Nat) : Program (Expiring K V) Unit := modify fun s => {s with clock := s.clock+time}

theorem live_deadline (found : s.live key = some entry) {deadline : Nat} (bound : entry.deadline = some deadline) :
    s.clock < deadline := by
  have fresh := (Option.filter_eq_some_iff.mp found).2
  rw [Fresh,bound] at fresh
  exact of_decide_eq_true fresh

theorem live_pass (found : live key {s with clock := s.clock+time} = some entry) : s.live key = some entry := by
  obtain ⟨there,fresh⟩ := Option.filter_eq_some_iff.mp found
  refine Option.filter_eq_some_iff.mpr ⟨there,?_⟩
  cases bound : entry.deadline with
  | none => rw [Fresh,bound]; rfl
  | some deadline =>
    rw [Fresh,bound] at fresh ⊢
    exact decide_eq_true (Nat.lt_of_le_of_lt (Nat.le_add_right _ _) (of_decide_eq_true fresh))

/-- Time that does not come to a deadline changes nothing that is found. -/
theorem seen_pass (before : ∀ entry ∈ s.live key, ∀ deadline ∈ entry.deadline, s.clock+time < deadline) :
    seen key {s with clock := s.clock+time} = s.seen key := by
  rw [seen,seen,live,live] at *
  cases there : s.entries key with
  | none => rfl
  | some entry =>
    rw [there] at before
    have later : Fresh (s.clock+time) entry = Fresh s.clock entry := by
      cases bound : entry.deadline with
      | none => rw [Fresh,Fresh,bound]; rfl
      | some deadline =>
        by_cases fresh : Fresh s.clock entry = true
        · rw [fresh,Fresh,bound]
          exact decide_eq_true (before entry (by rw [Option.filter_some,if_pos fresh]; rfl) deadline bound)
        · rw [Bool.eq_false_iff.mpr fresh]
          rw [Fresh,bound] at fresh ⊢
          exact decide_eq_false fun early => fresh (decide_eq_true (Nat.lt_of_le_of_lt (Nat.le_add_right _ _) early))
    rw [Option.filter_some,Option.filter_some,later]

@[simp] theorem exec_get (key : K) (s : Expiring K V) : exec (get key) s = (.ok ((s.live key).map (·.value)),s) := rfl

variable [DecidableEq K]

def put (key : K) (entry : Option (Entry V)) (s : Expiring K V) : Expiring K V :=
  {s with entries := Function.update s.entries key entry}

/-- A value that is set has no deadline, whatever the one before it had. -/
def set (key : K) (value : V) : Program (Expiring K V) Unit := modify (put key (some {value}))

def expired (key : K) (time : Nat) (s : Expiring K V) : Expiring K V :=
  match s.live key with
  | none => s
  | some entry => s.put key (some {entry with deadline := some (s.clock+time)})

def expire (key : K) (time : Nat) : Program (Expiring K V) Bool := do
  let s ← MonadState.get
  MonadState.set (s.expired key time)
  return (s.live key).isSome

def del (key : K) : Program (Expiring K V) Unit := modify (put key none)

@[simp] theorem exec_set (key : K) (value : V) (s : Expiring K V) : exec (set key value) s = (.ok (),s.put key (some {value})) := rfl

@[simp] theorem put_clock (next : Option (Entry V)) : (s.put key next).clock = s.clock := rfl

@[simp] theorem live_put_self (next : Option (Entry V)) : (s.put key next).live key = next.filter (Fresh s.clock) := by
  simp only [live,put,Function.update_self]

theorem live_put_other (next : Option (Entry V)) (apart : other ≠ key) : (s.put key next).live other = s.live other := by
  simp only [live,put,Function.update_of_ne apart]

theorem live_set_self (value : V) : (s.put key (some {value})).live key = some {value} := by
  rw [live_put_self]
  rfl

@[simp] theorem expired_clock : (s.expired key time).clock = s.clock := by
  rw [expired]
  split <;> rfl

theorem live_expired_other (apart : other ≠ key) : (s.expired key time).live other = s.live other := by
  rw [expired]
  split
  · rfl
  · exact live_put_other _ apart

/-- A value that is still there gets its deadline. -/
theorem live_expired_self (found : (s.expired key time).live key = some entry) :
    entry.deadline = some (s.clock+time) ∧ ∃ before, s.live key = some before ∧ before.value = entry.value := by
  rw [expired] at found
  split at found
  · rename_i nothing
    exact absurd (nothing.symm.trans found) (by simp)
  · rename_i before there
    rw [live_put_self] at found
    obtain rfl := Option.some.inj (Option.filter_eq_some_iff.mp found).1
    exact ⟨rfl,before,there,rfl⟩

/-- A value that is changed keeps its deadline, and one that is new has none. -/
def changed (key : K) (f : Option V → Option V) (s : Expiring K V) : Expiring K V :=
  s.put key ((f (s.seen key)).map fun value => ⟨value,(s.live key).bind (·.deadline)⟩)

def change (key : K) (f : Option V → Option V) : Program (Expiring K V) Unit := modify (changed key f)

@[simp] theorem exec_change (key : K) (f : Option V → Option V) (s : Expiring K V) :
    exec (change key f) s = (.ok (),s.changed key f) := rfl

theorem seen_put_other (next : Option (Entry V)) (apart : other ≠ key) : (s.put key next).seen other = s.seen other := by
  rw [seen,live_put_other next apart,seen]

theorem seen_changed_self (f : Option V → Option V) : (s.changed key f).seen key = f (s.seen key) := by
  have fresh : ∀ value : V, Fresh s.clock ⟨value,(s.live key).bind (·.deadline)⟩ = true := by
    intro value
    cases found : s.live key with
    | none => rfl
    | some entry => exact (Option.filter_eq_some_iff.mp found).2
  rw [seen,changed,live_put_self]
  cases f (s.seen key) with
  | none => rfl
  | some value => rw [Option.map_some,Option.filter_some,if_pos (fresh value),Option.map_some]

theorem seen_changed_other (f : Option V → Option V) (apart : other ≠ key) : (s.changed key f).seen other = s.seen other :=
  seen_put_other _ apart

/-- A deadline that is still to come changes nothing that is found. -/
theorem seen_expired (positive : 0 < time) : (s.expired key time).seen other = s.seen other := by
  by_cases apart : other = key
  · subst apart
    rw [expired]
    split
    · rfl
    · rename_i entry found
      have fresh : Fresh s.clock {entry with deadline := some (s.clock+time)} = true :=
        decide_eq_true (Nat.lt_add_of_pos_right positive)
      rw [seen,seen,found,live_put_self,Option.filter_some,if_pos fresh]
      rfl
  · rw [seen,live_expired_other apart,seen]

end Expiring

end AtlasNet.Foundation
