import AtlasNet.BoundClaims

/-! The leaser of a shard, and the watchdog's pass, one database command at a time.
What is left behind a command is the rest of the source function. -/
namespace AtlasNet
open Foundation Foundation.Program Foundation.Redis HeuristicManifest

/-- `ClaimedBoundID` has no value before its first assignment. -/
structure BoundLeaser where
  ClaimedBound : Option GridShape := none
  ClaimedBoundID : Option BoundsID := none

namespace BoundLeaser

abbrev Method := Program (Database × BoundLeaser)

def HasBound (leaser : BoundLeaser) : Bool := leaser.ClaimedBound.isSome

def GetBound (leaser : BoundLeaser) : Except Fault GridShape :=
  match leaser.ClaimedBound with
  | some bound => .ok bound
  | none => .error (.undefined "dereference of a null bound")

def query {α : Type} (command : Command α) : Method α := zoom Prod.fst (fun db state => (db,state.2)) command

/-- `ClaimedBound` and behind it `ClaimedBoundID`. -/
def assign (bound : Option GridShape) : Method Unit := do
  modify fun (db,leaser) => (db,{leaser with ClaimedBound := bound})
  match bound with
  | none => throw (.assertion "ClaimNextPendingBound returned null")
  | some bound => modify fun (db,leaser) => (db,{leaser with ClaimedBoundID := some bound.ID})

def confirm (SelfID : NetworkIdentity) : Method Unit := do
  match ← query (BoundIDFromShard SelfID) with
  | none => throw (.runtimeError "bad optional access")
  | some id => assert ((← get).2.ClaimedBoundID = some id) "Internal Error"

def ClaimBound (SelfID : NetworkIdentity) : Method Unit := do
  assign (← query (ClaimNextPendingBound SelfID))
  confirm SelfID

/-- The body of the loop of `LoopEntry`. -/
def tick (SelfID : NetworkIdentity) : Method Unit := do
  if (← get).2.HasBound then pure () else ClaimBound SelfID

/-- Where the thread of a leaser stands: between two ticks, behind the script of a
claim, behind the lookup of the claimed bound, behind the assignments, or stopped. -/
inductive Stage
  | waiting
  | scripted (id : BoundsID)
  | fetched (BoundData : Option ClaimedBoundStruct)
  | assigned
  | failed (fault : Fault)
deriving DecidableEq

namespace Stage

def work (SelfID : NetworkIdentity) : Stage → Method Stage
  | waiting => do
    if (← get).2.HasBound then pure waiting
    else match ← query (claim SelfID) with
      | none => do
        assign none
        pure assigned
      | some id => pure (scripted id)
  | scripted id => do return fetched (← query (GetClaimedBound id))
  | fetched BoundData => do
    assign (some (← query (decodeClaimed BoundData)))
    pure assigned
  | assigned => do
    confirm SelfID
    pure waiting
  | failed fault => throw fault

/-- What is left of a tick. -/
def rest (SelfID : NetworkIdentity) : Stage → Method Unit
  | waiting => pure ()
  | scripted id => do
    assign (some (← query (GetClaimedBound id >>= decodeClaimed)))
    confirm SelfID
  | fetched BoundData => do
    assign (some (← query (decodeClaimed BoundData)))
    confirm SelfID
  | assigned => confirm SelfID
  | failed fault => throw fault

end Stage

theorem query_bind {α β : Type} (first : Command α) (next : α → Command β) :
    query (first >>= next) = query first >>= fun value => query (next value) := by
  apply ExceptT.ext
  funext state
  change exec (query (first >>= next)) state = exec (query first >>= fun value => query (next value)) state
  rw [exec_bind]
  simp only [query,exec_zoom]
  rw [exec_bind]
  rcases exec first state.1 with ⟨_ | _,_⟩ <;> rfl

theorem query_pure {α : Type} (value : α) : query (pure value : Command α) = pure value := rfl

/-- Without the commands of others between its own, a tick is its stages in turn. -/
theorem tick_stages (SelfID : NetworkIdentity) :
    tick SelfID = Stage.work SelfID .waiting >>= Stage.rest SelfID := by
  simp only [tick,Stage.work,bind_assoc]
  congr 1
  funext state
  split
  · rfl
  · simp only [ClaimBound,ClaimNextPendingBound,query_bind,bind_assoc]
    congr 1
    funext reply
    cases reply with
    | none => rfl
    | some id => simp only [map_eq_pure_bind,query_bind,query_pure,bind_assoc,pure_bind,Stage.rest]

theorem rest_stages (SelfID : NetworkIdentity) (stage : Stage) (begun : stage ≠ .waiting) :
    stage.rest SelfID = stage.work SelfID >>= Stage.rest SelfID := by
  cases stage with
  | waiting => exact absurd rfl begun
  | scripted id => simp [Stage.rest,Stage.work,query_bind]
  | fetched BoundData => simp [Stage.rest,Stage.work]
  | assigned => simp [Stage.rest,Stage.work]
  | failed fault => rfl

end BoundLeaser

namespace WatchDog

/-- Where the watchdog stands in a pass, by the command that comes next. -/
inductive Pass
  | idle
  | ensureTable (Heuristic : GridHeuristic) (iteration : Writers)
  | setType (Heuristic : GridHeuristic) (iteration : Writers)
  | setData (Heuristic : GridHeuristic) (iteration : Writers)
  | countPending (expected : Int) (iteration : Writers)
  | countClaimed (pending_count expected : Int) (iteration : Writers)
  | ensure (writers : Writers)
  | check (p : PendingBoundStruct) (writers : Writers)
  | append (p : PendingBoundStruct) (existing : Option Json) (writers : Writers)

namespace Pass

/-- The last command of `Internal_InsertPendingBound`, behind the reply to its query. -/
def appendAbsent (p : PendingBoundStruct) (existing : Option Json) : Command Unit :=
  if (existing.map (fun reply => reply.text.length)).getD 0 ≤ 2 then
    jsonArrAppend JSONDataTable [.field JSONPendingEntry] p.to_json
  else assert False "This should never happen"

def work : Pass → Command Pass
  | idle => pure idle
  | ensureTable Heuristic iteration => do
    Internal_EnsureJsonTable
    pure (setType Heuristic iteration)
  | setType Heuristic iteration => do
    jsonSet JSONDataTable [.field JSONHeuristicTypeEntry] (.str Heuristic.GetType.TypeToString) false
    pure (setData Heuristic iteration)
  | setData Heuristic iteration => do
    let data ← (Heuristic.Serialize {}).as_string_base_64
    jsonSet JSONDataTable [.field JSONHeuristicData64Entry] (.str data) false
    pure (countPending Heuristic.SerializeBounds.length iteration)
  | countPending expected iteration => do
    return countClaimed (← GetPendingBoundsCount) expected iteration
  | countClaimed pending_count expected iteration => do
    let claimed_count ← GetClaimedBoundsCount
    pure (ensure (if pending_count+claimed_count < expected then iteration else []))
  | ensure [] => do
    retrievePending
    pure idle
  | ensure ((ID,writer)::writers) => do
    let BoundsDataBase64 ← writer.as_string_base_64
    jsonSet JSONDataTable [.field JSONPendingEntry] (.arr []) true
    pure (check ⟨ID,BoundsDataBase64⟩ writers)
  | check p writers => do
    return append p (← jsonGetWhere JSONDataTable [.field JSONPendingEntry] "ID" p.ID.toNat) writers
  | append p existing writers => do
    appendAbsent p existing
    pure (ensure writers)

def refresh (expected : Int) (iteration : Writers) : Command Unit := do
  let pending_count ← GetPendingBoundsCount
  let claimed_count ← GetClaimedBoundsCount
  refreshPending (pending_count+claimed_count) expected iteration
  retrievePending

def store (writers : Writers) : Command Unit := do
  StorePendingBoundsFromByteWriters writers
  retrievePending

/-- What is left of a pass. -/
def rest : Pass → Command Unit
  | idle => pure ()
  | ensureTable Heuristic iteration => ComputeHeuristic Heuristic iteration
  | setType Heuristic iteration => do
    jsonSet JSONDataTable [.field JSONHeuristicTypeEntry] (.str Heuristic.GetType.TypeToString) false
    let data ← (Heuristic.Serialize {}).as_string_base_64
    jsonSet JSONDataTable [.field JSONHeuristicData64Entry] (.str data) false
    refresh Heuristic.SerializeBounds.length iteration
  | setData Heuristic iteration => do
    let data ← (Heuristic.Serialize {}).as_string_base_64
    jsonSet JSONDataTable [.field JSONHeuristicData64Entry] (.str data) false
    refresh Heuristic.SerializeBounds.length iteration
  | countPending expected iteration => refresh expected iteration
  | countClaimed pending_count expected iteration => do
    let claimed_count ← GetClaimedBoundsCount
    refreshPending (pending_count+claimed_count) expected iteration
    retrievePending
  | ensure writers => store writers
  | check p writers => do
    let existing ← jsonGetWhere JSONDataTable [.field JSONPendingEntry] "ID" p.ID.toNat
    appendAbsent p existing
    store writers
  | append p existing writers => do
    appendAbsent p existing
    store writers

theorem insertPending_commands (p : PendingBoundStruct) :
    Internal_InsertPendingBound p = (do
      jsonSet JSONDataTable [.field JSONPendingEntry] (.arr []) true
      let existing ← jsonGetWhere JSONDataTable [.field JSONPendingEntry] "ID" p.ID.toNat
      appendAbsent p existing) := rfl

/-- Without the commands of others between its own, a pass is its commands in turn. -/
theorem rest_work (pass : Pass) : pass.rest = pass.work >>= rest := by
  cases pass with
  | idle => rfl
  | ensureTable Heuristic iteration =>
    simp [rest,work,ComputeHeuristic,PushHeuristic,Internal_SetActiveHeuristicType,refresh]
  | setType Heuristic iteration => simp [rest,work]
  | setData Heuristic iteration => simp [rest,work]
  | countPending expected iteration => simp [rest,work,refresh]
  | countClaimed pending_count expected iteration =>
    simp only [rest,work,bind_assoc,pure_bind,store,refreshPending]
    congr 1
    funext claimed_count
    split <;> rfl
  | ensure writers =>
    cases writers with
    | nil => simp [rest,work,store,StorePendingBoundsFromByteWriters]
    | cons w writers =>
      simp [rest,work,store,StorePendingBoundsFromByteWriters,insertPending_commands]
  | check p writers => simp [rest,work]
  | append p existing writers => simp [rest,work]

end Pass

end WatchDog

end AtlasNet
