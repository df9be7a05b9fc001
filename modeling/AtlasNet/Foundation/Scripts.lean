import AtlasNet.Foundation.Program
import AtlasNet.Foundation.System
import Mathlib.Logic.Function.Basic

/-! Programs that give way to others between any two of their commands to a shared store, and
what each thread answers for so that an invariant holds in every interleaving. -/
namespace AtlasNet.Foundation

/-- A program by its commands: what one does to the store, and how the program goes on from
what the store was. -/
inductive Script (σ α : Type)
  | ended (result : Except Fault α)
  | command (run : σ → σ) (next : σ → Script σ α)

namespace Script
variable {σ α β : Type}

protected def bind : Script σ α → (α → Script σ β) → Script σ β
  | ended (.ok value),rest => rest value
  | ended (.error fault),_ => ended (.error fault)
  | command run next,rest => command run fun s => (next s).bind rest

instance : Monad (Script σ) where
  pure value := ended (.ok value)
  bind := Script.bind

def query (program : Program σ α) : Script σ α :=
  command (fun s => (program.exec s).2) fun s => ended (program.exec s).1

/-- The result, and the store behind it, when nobody else has a command between. -/
def alone : Script σ α → σ → Except Fault α × σ
  | ended result,s => (result,s)
  | command run next,s => (next s).alone (run s)

@[simp] theorem alone_pure (value : α) (s : σ) : alone (pure value) s = (.ok value,s) := rfl

@[simp] theorem alone_query (program : Program σ α) (s : σ) : alone (query program) s = program.exec s := rfl

theorem alone_bind (script : Script σ α) (rest : α → Script σ β) (s : σ) :
    alone (script >>= rest) s = match alone script s with
      | (.ok value,after) => alone (rest value) after
      | (.error fault,after) => (.error fault,after) := by
  induction script generalizing s with
  | ended result => cases result <;> rfl
  | command run next ih => exact ih s (run s)

/-- A script that goes on from each result of a program as the program's own rest does. -/
theorem alone_query_bind {program : Program σ α} {rest : α → Script σ β} {next : α → Program σ β}
    (same : ∀ value s, alone (rest value) s = (next value).exec s) (s : σ) :
    alone (query program >>= rest) s = (program >>= next).exec s := by
  rw [alone_bind,alone_query,Program.exec_bind]
  cases ran : program.exec s with
  | mk result after =>
    cases result with
    | ok value => exact same value after
    | error fault => rfl

/-- The script that also notes what the store is behind each command. -/
def recorded : Script σ α → Script (List σ × σ) α
  | ended result => ended result
  | command run next => command (fun s => (run s.2::s.1,run s.2)) fun s => (next s.2).recorded

theorem recorded_bind (script : Script σ α) (rest : α → Script σ β) :
    (script >>= rest).recorded = script.recorded >>= fun value => (rest value).recorded := by
  induction script with
  | ended result => cases result <;> rfl
  | command run next ih => exact congrArg (command _) (funext fun s => ih s.2)

section Threads
variable {ι Local : Type} [DecidableEq ι] {invariant : (ι → Local) → σ → Prop} {i : ι}
  {outcome : Except Fault α → Local → Prop} {here : Local}

/-- Thread `i` keeps the invariant with each of its commands, where it may change its own local
state and no other, and ends as stated. -/
def Upholds (invariant : (ι → Local) → σ → Prop) (i : ι) (outcome : Except Fault α → Local → Prop) :
    Script σ α → Local → Prop
  | ended result,here => outcome result here
  | command run next,here => ∀ locals s, locals i = here → invariant locals s →
      ∃ after, invariant (Function.update locals i after) (run s) ∧ Upholds invariant i outcome (next s) after

theorem upholds_bind {script : Script σ α} {rest : α → Script σ β} {outcome : Except Fault β → Local → Prop}
    (first : Upholds invariant i (fun result here => match result with
      | .ok value => Upholds invariant i outcome (rest value) here
      | .error fault => outcome (.error fault) here) script here) :
    Upholds invariant i outcome (script >>= rest) here := by
  induction script generalizing here with
  | ended result => cases result <;> exact first
  | command run next ih =>
    intro locals s same holds
    obtain ⟨after,kept,later⟩ := first locals s same holds
    exact ⟨after,kept,ih s later⟩

theorem upholds_query {program : Program σ α}
    (each : ∀ locals s, locals i = here → invariant locals s →
      ∃ after, invariant (Function.update locals i after) (program.exec s).2 ∧ outcome (program.exec s).1 after) :
    Upholds invariant i outcome (query program) here := each

theorem upholds_recorded {invariant : (ι → Local) → List σ × σ → Prop} {program : Program σ α}
    (each : ∀ locals past s, locals i = here → invariant locals (past,s) →
      ∃ after, invariant (Function.update locals i after) ((program.exec s).2::past,(program.exec s).2) ∧ outcome (program.exec s).1 after) :
    Upholds invariant i outcome (query program).recorded here := fun locals s => each locals s.1 s.2

theorem upholds_recorded_bind {invariant : (ι → Local) → List σ × σ → Prop} {program : Program σ α} {rest : α → Script σ β}
    {outcome : Except Fault β → Local → Prop}
    (each : ∀ locals past s, locals i = here → invariant locals (past,s) → ∃ value after, (program.exec s).1 = .ok value ∧
      invariant (Function.update locals i after) ((program.exec s).2::past,(program.exec s).2) ∧
      Upholds invariant i outcome (rest value).recorded after) :
    Upholds invariant i outcome (query program >>= rest).recorded here := by
  rw [recorded_bind]
  refine upholds_bind (upholds_recorded fun locals past s same holds => ?_)
  obtain ⟨value,after,result,kept,later⟩ := each locals past s same holds
  exact ⟨after,kept,by rwa [result]⟩

/-- The threads that have begun, with what each has left to do. -/
structure Threads (ι σ α : Type) where
  store : σ
  script : ι → Option (Script σ α) := fun _ => none

inductive Move (ι : Type)
  | begin (i : ι)
  | command (i : ι)

namespace Threads

def Ended (threads : Threads ι σ α) (i : ι) : Prop := ∃ result, threads.script i = some (ended result)

def ends : Option (Script σ α) → Bool
  | some (ended _) => true
  | _ => false

omit [DecidableEq ι] in
theorem ends_iff {threads : Threads ι σ α} {i : ι} : ends (threads.script i) = true ↔ threads.Ended i := by
  rw [Ended]
  cases threads.script i with
  | none => simp [ends]
  | some script => cases script <;> simp [ends]

instance (threads : Threads ι σ α) (i : ι) : Decidable (threads.Ended i) := decidable_of_iff _ ends_iff

def move (program : ι → Script σ α) : Move ι → Threads ι σ α → Option (Threads ι σ α)
  | .begin i,threads => match threads.script i with
    | none => some {threads with script := Function.update threads.script i (some (program i))}
    | some _ => none
  | .command i,threads => match threads.script i with
    | some (command run next) =>
      some {store := run threads.store,script := Function.update threads.script i (some (next threads.store))}
    | _ => none

/-- Local states under which the invariant holds and every thread upholds it to its end. -/
structure Covers (invariant : (ι → Local) → σ → Prop) (idle : Local) (outcome : ι → Except Fault α → Local → Prop)
    (threads : Threads ι σ α) (locals : ι → Local) : Prop where
  holds : invariant locals threads.store
  idle : ∀ i, threads.script i = none → locals i = idle
  upheld : ∀ i script, threads.script i = some script → Upholds invariant i (outcome i) script (locals i)

variable {program : ι → Script σ α} {allowed : Threads ι σ α → Move ι → Prop} {idle : Local}
  {outcome : ι → Except Fault α → Local → Prop} {threads : Threads ι σ α} {store : σ}

/-- A move replaces the script of one thread and its local state. -/
theorem Covers.replaced {locals : ι → Local} {after : Local} {s : σ} {script : Script σ α}
    (covers : Covers invariant idle outcome threads locals) (kept : invariant (Function.update locals i after) s)
    (later : Upholds invariant i (outcome i) script after) :
    Covers invariant idle outcome {store := s,script := Function.update threads.script i (some script)}
      (Function.update locals i after) := by
  refine ⟨kept,fun j unbegun => ?_,fun j other begun => ?_⟩
  · by_cases mine : j = i
    · subst mine
      simp at unbegun
    · simp only [Function.update_of_ne mine] at unbegun ⊢
      exact covers.idle j unbegun
  · by_cases mine : j = i
    · subst mine
      simp only [Function.update_self,Option.some.injEq] at begun ⊢
      exact begun ▸ later
    · simp only [Function.update_of_ne mine] at begun ⊢
      exact covers.upheld j other begun

/-- A move leads from covered threads to covered threads when the one that begins upholds the invariant. -/
theorem Covers.moved {locals : ι → Local} {next : Threads ι σ α} {event : Move ι} (covers : Covers invariant idle outcome threads locals)
    (begins : ∀ i, event = .begin i → threads.script i = none → ∃ here, invariant (Function.update locals i here) threads.store ∧
      Upholds invariant i (outcome i) (program i) here)
    (taken : move program event threads = some next) : ∃ after, Covers invariant idle outcome next after := by
  cases event with
  | begin i =>
    simp only [move] at taken
    split at taken
    · rename_i unbegun
      obtain ⟨here,kept,later⟩ := begins i rfl unbegun
      obtain rfl := Option.some.inj taken
      exact ⟨_,covers.replaced kept later⟩
    · cases taken
  | command i =>
    simp only [move] at taken
    split at taken
    · rename_i run rest begun
      obtain ⟨after,kept,later⟩ := covers.upheld i _ begun locals threads.store rfl covers.holds
      obtain rfl := Option.some.inj taken
      exact ⟨_,covers.replaced kept later⟩
    · cases taken

theorem Covers.unbegun (first : invariant (fun _ => idle) store) :
    Covers invariant idle outcome ({store} : Threads ι σ α) fun _ => idle :=
  ⟨first,fun _ _ => rfl,fun _ _ begun => by cases begun⟩

variable (invariant idle outcome) in
/-- When every thread that begins upholds the invariant, the invariant holds in every
interleaving, and the threads that have ended have ended as stated. -/
theorem covered (first : invariant (fun _ => idle) store)
    (begins : ∀ threads locals i, Covers invariant idle outcome threads locals → allowed threads (.begin i) →
      threads.script i = none → ∃ here, invariant (Function.update locals i here) threads.store ∧
        Upholds invariant i (outcome i) (program i) here)
    (reached : (System.stepping {store} (move program)).ReachableWhile allowed threads) :
    ∃ locals, Covers invariant idle outcome threads locals := by
  refine System.stepping_invariant (fun threads => ∃ locals, Covers invariant idle outcome threads locals) ?_ ?_ reached
  · exact ⟨_,.unbegun first⟩
  · rintro threads event next ⟨locals,covers⟩ meets taken
    exact covers.moved (fun i same unbegun => begins threads locals i covers (same ▸ meets) unbegun) taken

/-- The moves of threads and what befalls the store between them. -/
def moveOr {ε : Type} (program : ι → Script σ α) (befalls : ε → σ → σ) :
    Move ι ⊕ ε → Threads ι σ α → Option (Threads ι σ α)
  | .inl event,threads => move program event threads
  | .inr event,threads => some {threads with store := befalls event threads.store}

variable (invariant idle outcome) in
/-- The same when what befalls the store keeps the invariant. -/
theorem covered_or {ε : Type} {befalls : ε → σ → σ} {allowed : Threads ι σ α → Move ι ⊕ ε → Prop}
    (first : invariant (fun _ => idle) store)
    (begins : ∀ threads locals i, Covers invariant idle outcome threads locals → allowed threads (.inl (.begin i)) →
      threads.script i = none → ∃ here, invariant (Function.update locals i here) threads.store ∧
        Upholds invariant i (outcome i) (program i) here)
    (keeps : ∀ threads locals event, Covers invariant idle outcome threads locals → allowed threads (.inr event) →
      invariant locals (befalls event threads.store))
    (reached : (System.stepping {store} (moveOr program befalls)).ReachableWhile allowed threads) :
    ∃ locals, Covers invariant idle outcome threads locals := by
  refine System.stepping_invariant (fun threads => ∃ locals, Covers invariant idle outcome threads locals) ?_ ?_ reached
  · exact ⟨_,.unbegun first⟩
  · rintro threads (event | event) next ⟨locals,covers⟩ meets taken
    · exact covers.moved (fun i same unbegun => begins threads locals i covers (same ▸ meets) unbegun) taken
    · obtain rfl := Option.some.inj taken
      exact ⟨locals,keeps threads locals event covers meets,covers.idle,covers.upheld⟩

/-- The threads, with what the store has been. -/
def recorded (past : List σ) (threads : Threads ι σ α) : Threads ι (List σ × σ) α where
  store := (past,threads.store)
  script i := (threads.script i).map Script.recorded

theorem recorded_update (past : List σ) (s : σ) (i : ι) (script : Script σ α) :
    recorded past {store := s,script := Function.update threads.script i (some script)} =
      {store := (past,s),script := Function.update (recorded past threads).script i (some script.recorded)} := by
  refine congrArg (Threads.mk _) (funext fun j => ?_)
  by_cases same : j = i
  · simp [same]
  · simp [same,recorded]

/-- A step is one of the scripts that note what the store is, and what it notes is the store
behind it. -/
theorem recorded_move {event : Move ι} {next : Threads ι σ α} (past : List σ) (taken : move program event threads = some next) :
    ∃ after, move (fun i => (program i).recorded) event (recorded past threads) = some (recorded after next) ∧
      ∀ s ∈ after, s ∈ past ∨ s = next.store := by
  cases event with
  | begin i =>
    cases there : threads.script i with
    | some script => simp [move,there] at taken
    | none =>
      have same : {threads with script := Function.update threads.script i (some (program i))} = next := by
        simpa [move,there] using taken
      subst same
      refine ⟨past,?_,fun s inside => .inl inside⟩
      rw [recorded_update]
      simp [move,recorded,there]
  | command i =>
    cases there : threads.script i with
    | none => simp [move,there] at taken
    | some script =>
      cases script with
      | ended result => simp [move,there] at taken
      | command run rest =>
        have same : {store := run threads.store,script := Function.update threads.script i (some (rest threads.store))} = next := by
          simpa [move,there] using taken
        subst same
        refine ⟨run threads.store::past,?_,fun s inside => (List.mem_cons.mp inside).symm⟩
        rw [recorded_update]
        simp [move,recorded,there,Script.recorded]

/-- Every run is one of the scripts that note what the store is, and all that they have noted
has been there. -/
theorem recorded_reached (reached : (System.stepping {store} (move program)).Reachable threads) : ∃ past,
    (System.stepping {store := ([store],store)} (move fun i => (program i).recorded)).Reachable (recorded past threads) ∧
    ∀ s ∈ past, ∃ moment, (System.stepping {store} (move program)).Reachable moment ∧
      ((System.stepping {store} (move program)).behind moment).Reachable threads ∧ moment.store = s := by
  induction reached with
  | initial threads start =>
    obtain rfl := start
    refine ⟨[store],.initial _ rfl,fun s inside => ⟨{store},.initial _ rfl,.initial _ rfl,?_⟩⟩
    exact (List.mem_singleton.mp inside).symm
  | step threads event next before meets taken ih =>
    obtain ⟨past,reached,passed⟩ := ih
    obtain ⟨after,moved,noted⟩ := recorded_move past taken
    refine ⟨after,.step _ event _ reached trivial moved,fun s inside => ?_⟩
    rcases noted s inside with earlier | rfl
    · obtain ⟨moment,there,rest,same⟩ := passed s earlier
      exact ⟨moment,there,.step _ event _ rest trivial taken,same⟩
    · exact ⟨next,.step _ event _ before trivial taken,.initial _ rfl,rfl⟩

theorem Covers.finished {locals : ι → Local} (covers : Covers invariant idle outcome threads locals) (stopped : threads.Ended i) :
    ∃ result, threads.script i = some (ended result) ∧ outcome i result (locals i) := by
  obtain ⟨result,script⟩ := stopped
  exact ⟨result,script,covers.upheld i _ script⟩

end Threads

end Threads

end Script

end AtlasNet.Foundation
