import AtlasNet.BoundOwnership

/-! Claims of any number of shards at once. The script of a claim is one step; the
lookup of the claimed bound and its decoding are later steps, between which the
scripts and lookups of other shards may run. -/
namespace AtlasNet.BoundClaims
open Foundation Foundation.Program Foundation.Redis HeuristicManifest

/-- A call of `ClaimNextPendingBound` and how far it has come. -/
structure Call where
  shard : NetworkIdentity
  reply : Except Fault (Option BoundsID)
  BoundData : Option (Except Fault (Option ClaimedBoundStruct)) := none
  result : Option (Except Fault (Option GridShape)) := none

structure State where
  db : Database
  calls : List Call := []

inductive Event
  | script (shard : NetworkIdentity)
  | lookup (k : Nat)
  | finish (k : Nat)

namespace Call

def lookup (db : Database) (call : Call) : Option Call :=
  match call.reply,call.BoundData with
  | .ok (some id),none => some {call with BoundData := some (exec (GetClaimedBound id) db).1}
  | _,_ => none

def finish (db : Database) (call : Call) : Option Call :=
  match call.result,call.reply,call.BoundData with
  | none,.ok none,_ => some {call with result := some (.ok none)}
  | none,.error fault,_ => some {call with result := some (.error fault)}
  | none,.ok (some _),some (.ok data) =>
    some {call with result := some ((exec (decodeClaimed data) db).1.map some)}
  | none,.ok (some _),some (.error fault) => some {call with result := some (.error fault)}
  | _,_,_ => none

end Call

/-- Only the script writes. -/
def next : Event → State → Option State
  | .script shard,s =>
    some ⟨(exec (claim shard) s.db).2,s.calls ++ [{shard,reply := (exec (claim shard) s.db).1}]⟩
  | .lookup k,s => do
    let call ← s.calls[k]?
    return {s with calls := s.calls.set k (← call.lookup s.db)}
  | .finish k,s => do
    let call ← s.calls[k]?
    return {s with calls := s.calls.set k (← call.finish s.db)}

/-- The three steps of a call with nothing between them are `ClaimNextPendingBound`. -/
theorem claimNext_steps (shard : NetworkIdentity) (db : Database) :
    let after := (exec (claim shard) db).2
    let scripted : Call := {shard,reply := (exec (claim shard) db).1}
    (((scripted.lookup after).getD scripted).finish after).bind (·.result) =
      some (exec (ClaimNextPendingBound shard) db).1 := by
  simp only [ClaimNextPendingBound]
  rw [exec_bind]
  rcases exec (claim shard) db with ⟨fault | reply,after⟩
  · rfl
  · cases reply with
    | none => rfl
    | some id =>
      have kept := reads_GetClaimedBound id after
      simp only [exec_map,exec_bind]
      rcases found : exec (GetClaimedBound id) after with ⟨fault | data,reached⟩
      · simp [Call.lookup,Call.finish,found,Except.map]
      · rw [found] at kept
        subst kept
        simp [Call.lookup,Call.finish,found]

def claiming (db : Database) : System State Event where
  Initial state := state = {db}
  Step state event after := next event state = some after

/-- The text of a row is what `SerializeBounds` wrote for its ID, from the shape. -/
def Written (row : BoundsID × String) (shape : GridShape) : Prop :=
  ∃ (Heuristic : GridHeuristic) (writer : ByteWriter), (row.1,writer) ∈ Heuristic.SerializeBounds ∧
    Heuristic.quads.find? (fun quad => quad.ID = row.1) = some shape ∧ writer.buf.length < 2^64 ∧
    row.2 = String.ofList (Base64.encode writer.buf)

/-- A store with an array of pending bounds under the grid heuristic. -/
structure Served (db : Database) (ledger : Bounds) : Prop where
  stored : Stored db ledger
  present : (entry db JSONPendingEntry).isSome
  type : entry db JSONHeuristicTypeEntry = some (.str "GridCell")

/-- The pending bounds were written by `SerializeBounds`, have distinct IDs, and are
not claimed. -/
structure Ready (db : Database) (ledger : Bounds) : Prop extends Served db ledger where
  claimable : ledger.Claimable
  written : ∀ row ∈ ledger.waiting, ∃ shape, Written row shape

section Commands
variable {db : Database} {ledger : Bounds}

theorem exec_deserialize_owner64 {σ : Type} (identity : NetworkIdentity) (state : σ) :
    exec (within NetworkIdentity.Deserialize (.ofBase64 (owner64 identity))) state = (.ok identity,state) := by
  have decoded := exec_ofBase64 identity.roundTrips [] (by
    simp [NetworkIdentity.Serialize,ByteWriter.uuid,ByteWriter.write,ByteWriter.i32,ByteWriter.u32,
      ByteWriter.push_be,BigEndian.encode_length,UUID.size]) state
  rw [List.append_nil] at decoded
  exact decoded

theorem exec_getBoundsID {σ : Type} (ID : BoundsID) (state : σ) :
    exec (Json.getBoundsID (.num ID.toNat)) state = (.ok ID,state) := by
  have bound := ID.toNat_lt
  have small : ((ID.toNat : Int) % 2^32).toNat = ID.toNat := by omega
  rw [Json.getBoundsID,small,UInt32.ofNat_toNat,exec_pure]

theorem from_json_claimed {σ : Type} (held : (BoundsID × String) × NetworkIdentity) (state : σ) :
    exec (ClaimedBoundStruct.from_json (claimedJson held)) state =
      (.ok (⟨held.1.1,held.2,held.1.2⟩ : ClaimedBoundStruct),state) := by
  have identity := exec_deserialize_owner64 held.2 state
  have number := exec_getBoundsID held.1.1 state
  have id : exec (Json.at "ID" (claimedJson held)) state = (.ok (.num held.1.1.toNat),state) := rfl
  have owner : exec (Json.at "Owner64" (claimedJson held)) state = (.ok (.str (owner64 held.2)),state) := rfl
  have data : exec (Json.at "BoundsData64" (claimedJson held)) state = (.ok (.str held.1.2),state) := rfl
  have text (value : String) : exec (Json.getString (.str value)) state = (.ok value,state) := rfl
  unfold ClaimedBoundStruct.from_json
  rw [exec_bind_ok _ _ _ _ _ id,exec_bind_ok _ _ _ _ _ number,exec_bind_ok _ _ _ _ _ owner,
    exec_bind_ok _ _ _ _ _ (text _),exec_bind_ok _ _ _ _ _ identity,exec_bind_ok _ _ _ _ _ data,
    exec_bind_ok _ _ _ _ _ (text _),exec_pure]

theorem claimed_present (stored : Stored db ledger) {held : (BoundsID × String) × NetworkIdentity}
    (member : held ∈ ledger.held) : ∃ fields, db.json JSONDataTable = some (.obj fields) ∧
      Entries.get JSONClaimedEntry fields = some (.arr (ledger.held.map claimedJson)) := by
  obtain ⟨fields,here,_,claimed⟩ := stored.opened
  rcases claimed with present | ⟨_,none⟩
  · exact ⟨fields,here,present⟩
  · rw [List.map_eq_nil_iff.mp none] at member
    cases member

theorem claimed_selected {held : (BoundsID × String) × NetworkIdentity}
    (once : ledger.held.filter (fun other => decide (other.1.1 = held.1.1)) = [held]) :
    (ledger.held.map claimedJson).filter (Json.hasNumber "ID" held.1.1.toNat) = [claimedJson held] := by
  have same : (Json.hasNumber "ID" held.1.1.toNat ∘ claimedJson) = fun other => decide (other.1.1 = held.1.1) :=
    funext fun other => claimedJson_id other held.1.1
  rw [List.filter_map,same,once]
  rfl

theorem getClaimedBound_spec (held : (BoundsID × String) × NetworkIdentity) (stored : Stored db ledger)
    (once : ledger.held.filter (fun other => decide (other.1.1 = held.1.1)) = [held]) :
    exec (GetClaimedBound held.1.1) db = (.ok (some ⟨held.1.1,held.2,held.1.2⟩),db) := by
  have member : held ∈ ledger.held := (List.mem_filter.mp (once ▸ List.mem_singleton.mpr rfl)).1
  obtain ⟨fields,here,present⟩ := claimed_present stored member
  have query := jsonGetWhere_array _ "ID" held.1.1.toNat here present
  rw [claimed_selected once] at query
  rw [GetClaimedBound,exec_bind_ok _ _ _ _ _ query]
  simp only [exec_map,from_json_claimed held db]
  rfl

theorem getActiveHeuristicType_spec (type : HeuristicType)
    (shown : entry db JSONHeuristicTypeEntry = some (.str type.TypeToString))
    (document : ∃ fields, db.json JSONDataTable = some (.obj fields)) :
    exec GetActiveHeuristicType db = (.ok type,db) := by
  obtain ⟨fields,here⟩ := document
  rw [entry_fields here] at shown
  rw [GetActiveHeuristicType,exec_bind_ok _ _ _ _ _ (jsonGet_field _ here shown)]
  cases type <;> rfl

/-- The data that `SerializeBounds` wrote for an ID decodes to the shape of that ID. -/
theorem decodeClaimed_spec (row : BoundsID × String) (shape : GridShape) (shard : NetworkIdentity)
    (written : Written row shape) (stored : Stored db ledger)
    (type : entry db JSONHeuristicTypeEntry = some (.str "GridCell")) :
    exec (decodeClaimed (some ⟨row.1,shard,row.2⟩)) db = (.ok shape,db) := by
  obtain ⟨Heuristic,writer,member,first,bound,text⟩ := written
  obtain ⟨other,rest,found,bytes⟩ := Heuristic.SerializeBounds_begins _ member
  have same : other = shape := Option.some.inj (found.symm.trans first)
  rw [same] at bytes
  have created : exec Internal_CreateIBoundInst db = (.ok (),db) := by
    rw [Internal_CreateIBoundInst,
      exec_bind_ok _ _ _ _ _ (getActiveHeuristicType_spec .eGridCell type stored.document)]
    rfl
  have data : row.2 = String.ofList (Base64.encode ((shape.Serialize {}).buf ++ rest)) := by rw [text,← bytes]
  have small : ((shape.Serialize {}).buf ++ rest).length < 2^64 := bytes ▸ bound
  have decoded := exec_ofBase64 shape.roundTrips rest small db
  rw [← data] at decoded
  rw [decodeClaimed,exec_bind_ok _ _ _ _ _ created]
  exact decoded

theorem claim_served (shard : NetworkIdentity) (served : Served db ledger) :
    ∃ after, exec (claim shard) db = (.ok (ledger.waiting.head?.map (·.1)),after) ∧
      Served after (ledger.claim shard) := by
  obtain ⟨after,ran,stored,frame,kept⟩ := claim_spec shard served.stored
  refine ⟨after,?_,stored,kept served.present,(frame.entries _ (by decide) (by decide)).trans served.type⟩
  rw [ran]
  cases ledger.waiting with
  | nil => simp [served.present]
  | cons row rest => rfl

end Commands

section Runs
variable {ledger : Bounds}

/-- Call number `k` has taken row number `k`, and gets its bound back. -/
def Takes (ledger : Bounds) (k : Nat) (call : Call) : Prop :=
  match ledger.waiting[k]? with
  | none => call.reply = .ok none ∧ call.BoundData = none ∧ (call.result = none ∨ call.result = some (.ok none))
  | some row => call.reply = .ok (some row.1) ∧
    (call.BoundData = none ∨ call.BoundData = some (.ok (some ⟨row.1,call.shard,row.2⟩))) ∧
    (call.result = none ∨ ∃ shape, Written row shape ∧ call.result = some (.ok (some shape)))

structure Invariant (ledger : Bounds) (s : State) : Prop where
  served : Served s.db (ledger.claimAll (s.calls.map (·.shard)))
  takes : ∀ k call, s.calls[k]? = some call → Takes ledger k call

theorem takes_lookup {s : State} (holds : Invariant ledger s) (claimable : ledger.Claimable) {k : Nat}
    {call after : Call} (here : s.calls[k]? = some call) (looked : call.lookup s.db = some after) :
    Takes ledger k after ∧ after.shard = call.shard := by
  have takes := holds.takes k call here
  unfold Takes at takes ⊢
  cases taken : ledger.waiting[k]? with
  | none =>
    rw [taken] at takes
    simp [Call.lookup,takes.1] at looked
  | some row =>
    rw [taken] at takes
    obtain ⟨reply,fetched,result⟩ := takes
    have owner : (s.calls.map (·.shard))[k]? = some call.shard := by
      rw [List.getElem?_map,here]
      rfl
    have once := ledger.taken_unique claimable _ k row call.shard taken owner
    have found := getClaimedBound_spec (row,call.shard) holds.served.stored once
    rcases fetched with none | fetched
    · simp only [Call.lookup,reply,none,found,Option.some.injEq] at looked
      subst looked
      exact ⟨⟨rfl,.inr rfl,result⟩,rfl⟩
    · simp [Call.lookup,reply,fetched] at looked

theorem takes_finish {s : State} (holds : Invariant ledger s)
    (written : ∀ row ∈ ledger.waiting, ∃ shape, Written row shape) {k : Nat} {call after : Call}
    (here : s.calls[k]? = some call) (finished : call.finish s.db = some after) :
    Takes ledger k after ∧ after.shard = call.shard := by
  have takes := holds.takes k call here
  unfold Takes at takes ⊢
  cases taken : ledger.waiting[k]? with
  | none =>
    rw [taken] at takes
    obtain ⟨reply,fetched,pending | result⟩ := takes
    · simp only [Call.finish,reply,pending,Option.some.injEq] at finished
      subst finished
      exact ⟨⟨rfl,fetched,.inr rfl⟩,rfl⟩
    · simp [Call.finish,result] at finished
  | some row =>
    rw [taken] at takes
    obtain ⟨reply,fetched,pending | ⟨shape,_,result⟩⟩ := takes
    · rcases fetched with none | fetched
      · simp [Call.finish,reply,pending,none] at finished
      · obtain ⟨shape,wrote⟩ := written row (List.mem_of_getElem? taken)
        have decoded := decodeClaimed_spec row shape call.shard wrote holds.served.stored holds.served.type
        simp only [Call.finish,reply,pending,fetched,decoded,Option.some.injEq] at finished
        subst finished
        exact ⟨⟨rfl,.inr rfl,.inr ⟨shape,wrote,rfl⟩⟩,rfl⟩
    · simp [Call.finish,result] at finished

theorem takes_script {s : State} (holds : Invariant ledger s) (shard : NetworkIdentity) :
    Invariant ledger ⟨(exec (claim shard) s.db).2,s.calls ++ [{shard,reply := (exec (claim shard) s.db).1}]⟩ := by
  obtain ⟨after,ran,served⟩ := claim_served shard holds.served
  refine ⟨?_,fun k call here => ?_⟩
  · rw [ran,List.map_append,Ledger.claimAll_append]
    exact served
  · rcases Nat.lt_trichotomy k s.calls.length with before | same | beyond
    · rw [List.getElem?_append_left before] at here
      exact holds.takes k call here
    · subst same
      rw [List.getElem?_append_right (le_refl _),Nat.sub_self] at here
      obtain rfl := Option.some.inj here
      rw [ran]
      have head : (ledger.claimAll (s.calls.map (·.shard))).waiting.head? = ledger.waiting[s.calls.length]? := by
        rw [Ledger.claimAll_eq,List.head?_drop,List.length_map]
      unfold Takes
      rw [head]
      cases ledger.waiting[s.calls.length]? with
      | none => exact ⟨rfl,rfl,.inl rfl⟩
      | some row => exact ⟨rfl,.inl rfl,.inl rfl⟩
    · rw [List.getElem?_eq_none (by simp; omega)] at here
      cases here

theorem invariant_set {s : State} (holds : Invariant ledger s) {k : Nat} {call after : Call}
    (here : s.calls[k]? = some call) (takes : Takes ledger k after) (same : after.shard = call.shard) :
    Invariant ledger {s with calls := s.calls.set k after} := by
  have shards : (s.calls.set k after).map (·.shard) = s.calls.map (·.shard) := by
    have there : (s.calls.map (·.shard))[k]? = some call.shard := by
      rw [List.getElem?_map,here]
      rfl
    obtain ⟨_,element⟩ := List.getElem?_eq_some_iff.mp there
    rw [List.map_set,same,← element,List.set_getElem_self]
  refine ⟨shards ▸ holds.served,fun j other there => ?_⟩
  by_cases at_k : k = j
  · subst at_k
    rw [List.getElem?_set_self (List.getElem?_eq_some_iff.mp here).1] at there
    exact Option.some.inj there ▸ takes
  · rw [List.getElem?_set_ne at_k] at there
    exact holds.takes j other there

theorem invariant_step {db : Database} (ready : Ready db ledger) {s after : State} {event : Event}
    (holds : Invariant ledger s) (taken : next event s = some after) : Invariant ledger after := by
  cases event with
  | script shard =>
    obtain rfl := Option.some.inj taken
    exact takes_script holds shard
  | lookup k =>
    obtain ⟨call,here,rest⟩ := Option.bind_eq_some_iff.mp taken
    obtain ⟨looked,ran,done⟩ := Option.bind_eq_some_iff.mp rest
    obtain rfl := Option.some.inj done
    obtain ⟨takes,same⟩ := takes_lookup holds ready.claimable here ran
    exact invariant_set holds here takes same
  | finish k =>
    obtain ⟨call,here,rest⟩ := Option.bind_eq_some_iff.mp taken
    obtain ⟨finished,ran,done⟩ := Option.bind_eq_some_iff.mp rest
    obtain rfl := Option.some.inj done
    obtain ⟨takes,same⟩ := takes_finish holds ready.written here ran
    exact invariant_set holds here takes same

theorem reachable_invariant {db : Database} (ready : Ready db ledger) {s : State}
    (reached : (claiming db).Reachable s) : Invariant ledger s := by
  apply reached.invariant (Invariant ledger)
  · rintro _ rfl
    exact ⟨ready.toServed,fun k call here => by simp at here⟩
  · exact fun _ _ _ holds _ taken => invariant_step ready holds taken

end Runs

section Conservation
variable {db : Database} {ledger : Bounds}

def bounds (db : Database) : List (BoundsID × String) :=
  (elements db JSONPendingEntry ++ elements db JSONClaimedEntry).filterMap boundOf

theorem written_id {row : BoundsID × String} {shape : GridShape} (written : Written row shape) : shape.ID = row.1 := by
  obtain ⟨_,_,_,first,_⟩ := written
  simpa using List.find?_some first

def passed : Database := BoundOwnership.after [BoundOwnership.gridPass] BoundOwnership.nothing

theorem written_row (Heuristic : GridHeuristic) (w : BoundsID × ByteWriter) (member : w ∈ Heuristic.SerializeBounds)
    (small : w.2.buf.length < 2^64) : ∃ shape, Written (row w) shape := by
  obtain ⟨shape,_,first,_⟩ := Heuristic.SerializeBounds_begins w member
  exact ⟨shape,Heuristic,w.2,member,first,small,rfl⟩

end Conservation

end AtlasNet.BoundClaims
