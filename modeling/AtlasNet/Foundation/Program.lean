import Mathlib.Tactic.Common

/-! Stateful computations that may stop with a fault. A fault keeps the state
reached when it was raised, as an exception or an abort leaves a database or an
object behind. -/
namespace AtlasNet.Foundation

/-- What ends a computation before its result: a thrown exception, a failed
assertion (the process aborts), or a step the language leaves undefined. -/
inductive Fault
  | byteError (what : String)
  | runtimeError (what : String)
  | lengthError
  | typeError (what : String)
  | replyError (what : String)
  | assertion (message : String)
  | undefined (what : String)
deriving DecidableEq,Repr

abbrev Program (σ α : Type) := ExceptT Fault (StateM σ) α

namespace Program
variable {σ τ α β : Type}

def exec (program : Program σ α) (state : σ) : Except Fault α × σ := program.run.run state

/-- `ASSERT(check,message)`. -/
def assert (check : Prop) [Decidable check] (message : String) : Program σ Unit :=
  if check then pure () else throw (.assertion message)

def throwIf (bad : Prop) [Decidable bad] (fault : Fault) : Program σ Unit :=
  if bad then throw fault else pure ()

/-- A computation over its own private state inside another one. -/
def within (program : Program τ α) (start : τ) : Program σ α :=
  match (program.exec start).1 with
  | .ok value => pure value
  | .error fault => throw fault

def zoom (part : σ → τ) (put : τ → σ → σ) (program : Program τ α) : Program σ α :=
  ExceptT.mk fun state => ((program.exec (part state)).1,put (program.exec (part state)).2 state)

@[simp] theorem exec_pure (value : α) (state : σ) :
    exec (pure value : Program σ α) state = (.ok value,state) := rfl

@[simp] theorem exec_throw (fault : Fault) (state : σ) :
    exec (throw fault : Program σ α) state = (.error fault,state) := rfl

@[simp] theorem exec_get (state : σ) : exec (get : Program σ σ) state = (.ok state,state) := rfl

@[simp] theorem exec_set (next state : σ) :
    exec (set next : Program σ PUnit) state = (.ok ⟨⟩,next) := rfl

@[simp] theorem exec_modify (change : σ → σ) (state : σ) :
    exec (modify change : Program σ PUnit) state = (.ok ⟨⟩,change state) := rfl

theorem exec_bind (first : Program σ α) (next : α → Program σ β) (state : σ) :
    exec (first >>= next) state = match exec first state with
      | (.ok value,middle) => exec (next value) middle
      | (.error fault,middle) => (.error fault,middle) := by
  have unfolded : exec (first >>= next) state =
      (ExceptT.bindCont next (exec first state).1).run (exec first state).2 := rfl
  rw [unfolded]
  rcases exec first state with ⟨_ | _,_⟩ <;> rfl

theorem exec_bind_ok (first : Program σ α) (next : α → Program σ β) (state middle : σ) (value : α)
    (ran : exec first state = (.ok value,middle)) :
    exec (first >>= next) state = exec (next value) middle := by
  rw [exec_bind,ran]

theorem exec_bind_error (first : Program σ α) (next : α → Program σ β) (state middle : σ)
    (fault : Fault) (ran : exec first state = (.error fault,middle)) :
    exec (first >>= next) state = (.error fault,middle) := by
  rw [exec_bind,ran]

/-- A sequence that returns has returned from its first part. -/
theorem bind_returned (first : Program σ α) (next : α → Program σ β) (state final : σ) (result : β)
    (ran : exec (first >>= next) state = (.ok result,final)) :
    ∃ value middle, exec first state = (.ok value,middle) ∧
      exec (next value) middle = (.ok result,final) := by
  rw [exec_bind] at ran
  rcases started : exec first state with ⟨_ | value,middle⟩
  · rw [started] at ran
    cases ran
  · rw [started] at ran
    exact ⟨value,middle,rfl,ran⟩

theorem discard_returned {first : Program σ α} {state final : σ} (ran : exec (do let _ ← first) state = (.ok ⟨⟩,final)) :
    ∃ value, exec first state = (.ok value,final) := by
  obtain ⟨value,middle,returned,ended⟩ := bind_returned _ _ _ _ _ ran
  obtain rfl := (Prod.mk.inj ended).2
  exact ⟨value,returned⟩

theorem exec_map (f : α → β) (program : Program σ α) (state : σ) :
    exec (f <$> program) state = ((exec program state).1.map f,(exec program state).2) := by
  rw [← bind_pure_comp,exec_bind]
  rcases exec program state with ⟨_ | _,_⟩ <;> rfl

@[simp] theorem exec_pure_bind (value : α) (next : α → Program σ β) (state : σ) :
    exec (pure value >>= next) state = exec (next value) state := rfl

@[simp] theorem exec_throw_bind (fault : Fault) (next : α → Program σ β) (state : σ) :
    exec (throw fault >>= next) state = (.error fault,state) := rfl

@[simp] theorem exec_get_bind (next : σ → Program σ β) (state : σ) :
    exec (get >>= next) state = exec (next state) state := rfl

@[simp] theorem exec_set_bind (value : σ) (next : PUnit → Program σ β) (state : σ) :
    exec (set value >>= next) state = exec (next ⟨⟩) value := rfl

@[simp] theorem exec_modify_bind (change : σ → σ) (next : PUnit → Program σ β) (state : σ) :
    exec (modify change >>= next) state = exec (next ⟨⟩) (change state) := rfl

theorem exec_throwIf (bad : Prop) [Decidable bad] (fault : Fault) (next : Unit → Program σ α) (state : σ) :
    exec (throwIf bad fault >>= next) state =
      if bad then (.error fault,state) else exec (next ()) state := by
  unfold throwIf
  split <;> rfl

theorem exec_assert_bind (check : Prop) [Decidable check] (message : String)
    (next : Unit → Program σ α) (state : σ) :
    exec (assert check message >>= next) state =
      if check then exec (next ()) state else (.error (.assertion message),state) := by
  unfold assert
  split <;> rfl

@[simp] theorem exec_assert (check : Prop) [Decidable check] (message : String) (state : σ) :
    exec (assert check message) state =
      (if check then .ok () else .error (.assertion message),state) := by
  unfold assert
  split <;> rfl

@[simp] theorem exec_within (program : Program τ α) (start : τ) (state : σ) :
    exec (within program start : Program σ α) state = ((program.exec start).1,state) := by
  unfold within
  split <;> rename_i same <;> simp [same]

@[simp] theorem exec_zoom (part : σ → τ) (put : τ → σ → σ) (program : Program τ α) (state : σ) :
    exec (zoom part put program) state =
      ((program.exec (part state)).1,put (program.exec (part state)).2 state) := rfl

theorem exec_forM_cons (item : α) (items : List α) (body : α → Program σ PUnit) (state : σ) :
    exec (forM (item::items) body) state = exec (body item >>= fun _ => forM items body) state := rfl

/-- Every end of the computation, faults included, keeps the invariant. -/
def Keeps (invariant : σ → Prop) (program : Program σ α) : Prop :=
  ∀ state, invariant state → invariant (program.exec state).2

theorem keeps_bind (invariant : σ → Prop) {first : Program σ α} {next : α → Program σ β}
    (before : Keeps invariant first) (after : ∀ value, Keeps invariant (next value)) :
    Keeps invariant (first >>= next) := by
  intro state holds
  have middle := before state holds
  rw [exec_bind]
  rcases ran : exec first state with ⟨_ | value,reached⟩
  · simpa only [ran] using middle
  · exact after value reached (by simpa only [ran] using middle)

/-- What every body that returns preserves holds when the loop returns. -/
theorem forM_returned (property : σ → Prop) {body : α → Program σ PUnit} (items : List α)
    (each : ∀ item ∈ items, ∀ state next, property state → exec (body item) state = (.ok ⟨⟩,next) → property next)
    {state final : σ} (holds : property state) (ran : exec (forM items body) state = (.ok ⟨⟩,final)) :
    property final := by
  induction items generalizing state with
  | nil =>
    obtain rfl := (Prod.mk.inj ran).2
    exact holds
  | cons item items ih =>
    rw [exec_forM_cons] at ran
    obtain ⟨_,middle,first,rest⟩ := bind_returned _ _ _ _ _ ran
    exact ih (fun i member => each i (by simp [member])) (each item (by simp) _ _ holds first) rest

/-- A loop over computations that each return and change nothing. -/
theorem exec_mapM {f : α → Program σ β} {g : α → β} {state : σ} (items : List α)
    (each : ∀ item ∈ items, exec (f item) state = (.ok (g item),state)) : exec (items.mapM f) state = (.ok (items.map g),state) := by
  induction items with
  | nil => rfl
  | cons item items ih =>
    have rest := ih fun other member => each other (List.mem_cons_of_mem _ member)
    rw [List.mapM_cons,exec_bind_ok _ _ _ _ _ (each item List.mem_cons_self),exec_bind_ok _ _ _ _ _ rest]
    rfl

/-- Every end of the computation leaves the state as it was. -/
def Reads (program : Program σ α) : Prop := ∀ state, (program.exec state).2 = state

theorem reads_bind {first : Program σ α} {next : α → Program σ β} (before : Reads first)
    (after : ∀ value, Reads (next value)) : Reads (first >>= next) := by
  intro state
  apply keeps_bind (· = state) _ _ state rfl
  · intro reached same
    exact (before reached).trans same
  · intro value reached same
    exact (after value reached).trans same

end Program

end AtlasNet.Foundation
