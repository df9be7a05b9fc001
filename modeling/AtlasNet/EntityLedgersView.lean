import AtlasNet.EntityLedger
import Mathlib.Data.List.Perm.Subperm

/-! The view of the entities of all shards: a call queries each registered shard and waits
until a shared counter is back at zero, which every response decrements. Responses arrive at
any time, between any two steps of a call and between calls. -/
namespace AtlasNet
open Foundation Foundation.Program Foundation.Redis HeuristicManifest

structure EntityLedgerEntry where
  EntityID : List Char
  ClientID : List Char
  ISClient : Bool
  positionx : UInt32
  positiony : UInt32
  positionz : UInt32
  WorldID : Int32
  BoundID : Int32

def EntityLedgerEntry.of (BoundID : BoundsID) (ae : AtlasEntityMinimal) : EntityLedgerEntry where
  EntityID := ae.Entity_ID.to_string
  ClientID := ae.Client_ID.to_string
  ISClient := ae.IsClient
  positionx := ae.transform.position.1
  positiony := ae.transform.position.2.1
  positionz := ae.transform.position.2.2
  WorldID := 0
  BoundID := BoundID.toInt32

namespace LocalEntityListRequestPacket

/-- The entities of either alternative. -/
def entities (p : LocalEntityListRequestPacket) : List AtlasEntityMinimal :=
  match p.Response_Entities with
  | .full entities => entities.map (·.toAtlasEntityMinimal)
  | .minimal entities => entities

end LocalEntityListRequestPacket

/-- The response of a shard to a query. -/
def EntityLedger.OnLocalEntityListRequest (p : LocalEntityListRequestPacket) (ledger : EntityLedger) :
    LocalEntityListRequestPacket where
  status := LocalEntityListRequestPacket.eResponse
  Request_IncludeMetadata := p.Request_IncludeMetadata
  Response_Entities :=
    if p.Request_IncludeMetadata then .full (ledger.entities.map (·.2))
    else .minimal (ledger.entities.map (·.2.toAtlasEntityMinimal))

structure EntityLedgersView where
  RequestsUnanswered : UInt32 := 0
  EntityListResponses : List EntityLedgerEntry := []

namespace EntityLedgersView

def OnLocalEntityListRequestPacket (p : LocalEntityListRequestPacket) (sender : NetworkIdentity) (db : Database)
    (view : EntityLedgersView) : Except Fault EntityLedgersView :=
  if p.status ≠ LocalEntityListRequestPacket.eResponse then .ok view
  else do
    match ← (exec (BoundIDFromShard sender) db).1 with
    | some BoundID =>
      match p.Response_Entities with
      | .minimal entities => .ok {RequestsUnanswered := view.RequestsUnanswered-1
                                  EntityListResponses := view.EntityListResponses ++ entities.map (.of BoundID)}
      | .full _ => .error (.runtimeError "bad variant access")
    | none => .ok {view with RequestsUnanswered := view.RequestsUnanswered-1}

/-- Where a call of `GetEntityLists` stands: before the next query of its loop (behind the last
one it waits), behind a query and before the increment for it, behind the wait, and behind the
reset of the counter. -/
inductive Stage
  | idle
  | sending (ahead : List NetworkIdentity)
  | sent (ahead : List NetworkIdentity)
  | left
  | reset
deriving DecidableEq

/-- A response that was handled, and the entries of its entities when its sender owns a bound. -/
structure Answer where
  sender : NetworkIdentity
  entries : List EntityLedgerEntry

structure Return where
  queried : List NetworkIdentity
  answers : List Answer
  entities : List EntityLedgerEntry

/-- The view and the call that runs, with the shards it queries and the responses handled since
it began. -/
structure State where
  view : EntityLedgersView := {}
  stage : Stage := .idle
  queried : List NetworkIdentity := []
  answers : List Answer := []
  returned : List Return := []

/-- A response arrives while the database is in a state of its own. -/
inductive Event
  | begin (servers : List NetworkIdentity)
  | send
  | increment
  | load
  | reset
  | move
  | response (p : LocalEntityListRequestPacket) (sender : NetworkIdentity) (db : Database)

def shards (servers : List NetworkIdentity) : List NetworkIdentity := servers.filter (·.type = .eShard)

def Answer.of (p : LocalEntityListRequestPacket) (sender : NetworkIdentity) (db : Database) : Answer where
  sender
  entries :=
    match (exec (BoundIDFromShard sender) db).1 with
    | .ok (some BoundID) => p.entities.map (.of BoundID)
    | _ => []

/-- A handler that throws leaves the view as it is. -/
def State.handle (p : LocalEntityListRequestPacket) (sender : NetworkIdentity) (db : Database) (s : State) : State :=
  if p.status = LocalEntityListRequestPacket.eResponse then
    {s with
      view := (OnLocalEntityListRequestPacket p sender db s.view).toOption.getD s.view
      answers := s.answers ++ [.of p sender db]}
  else s

def next : Event → State → Option State
  | .begin servers,s =>
    if s.stage = .idle ∧ servers.Nodup then
      some {s with
        view := {s.view with EntityListResponses := []}
        stage := .sending (shards servers)
        queried := shards servers
        answers := []}
    else none
  | .send,s =>
    match s.stage with
    | .sending (_::ahead) => some {s with stage := .sent ahead}
    | _ => none
  | .increment,s =>
    match s.stage with
    | .sent ahead => some {s with
        view := {s.view with RequestsUnanswered := s.view.RequestsUnanswered+1}
        stage := .sending ahead}
    | _ => none
  | .load,s =>
    match s.stage with
    | .sending [] => some (if s.view.RequestsUnanswered > 0 then s else {s with stage := .left})
    | _ => none
  | .reset,s =>
    match s.stage with
    | .left => some {s with view := {s.view with RequestsUnanswered := 0},stage := .reset}
    | _ => none
  | .move,s =>
    match s.stage with
    | .reset => some {s with
        view := {s.view with EntityListResponses := []}
        stage := .idle
        returned := s.returned ++ [{queried := s.queried
                                    answers := s.answers
                                    entities := s.view.EntityListResponses}]}
    | _ => none
  | .response p sender db,s => some (s.handle p sender db)

def viewing : System State Event := .stepping {} next

/-- The entities returned are those of one response from each queried shard. -/
def Return.Complete (r : Return) : Prop :=
  ∃ chosen : List Answer, chosen.Sublist r.answers ∧ (chosen.map (·.sender)).Perm r.queried ∧
    r.entities = chosen.flatMap (·.entries)

/-- What is returned is complete, and a wait ends when every queried shard has answered and not
before. -/
structure Behaves (s : State) : Prop where
  complete : ∀ r ∈ s.returned, r.Complete
  waits : s.stage = .sending [] →
    (s.view.RequestsUnanswered = 0 ↔ ∀ shard ∈ s.queried, ∃ answer ∈ s.answers, answer.sender = shard)

/-- The lookup of the sender's bound returns, and a sender that owns a bound sends the minimal
entities. -/
def Acceptable (p : LocalEntityListRequestPacket) (sender : NetworkIdentity) (db : Database) : Prop :=
  match (exec (BoundIDFromShard sender) db).1 with
  | .ok (some _) => ∃ entities, p.Response_Entities = .minimal entities
  | .ok none => True
  | .error _ => False

/-- A response is acceptable and the first of a queried shard to the call that runs, or it brings
nothing between the end of the wait and the reset; and fewer shards are queried than the counter
has values. -/
def Answered (s : State) : Event → Prop
  | .begin servers => (shards servers).length < 2^32
  | .response p sender db => p.status = LocalEntityListRequestPacket.eResponse →
    (Acceptable p sender db ∧ (∃ ahead, s.stage = .sending ahead ∨ s.stage = .sent ahead) ∧ sender ∈ s.queried ∧
      ∀ answer ∈ s.answers, answer.sender ≠ sender) ∨
    s.stage = .left ∧ (Answer.of p sender db).entries = []
  | _ => True

/-- A call that has yet to increment the counter `pending` times. -/
structure Asking (pending : Nat) (s : State) : Prop where
  distinct : s.queried.Nodup
  few : s.queried.length < 2^32
  once : (s.answers.map (·.sender)).Nodup
  asked : s.answers.map (·.sender) ⊆ s.queried
  listed : s.view.EntityListResponses = s.answers.flatMap (·.entries)
  counted : s.view.RequestsUnanswered + UInt32.ofNat s.answers.length + UInt32.ofNat pending = UInt32.ofNat s.queried.length

/-- The list holds the entities of one response from each queried shard. -/
def Chosen (s : State) : Prop :=
  Return.Complete {queried := s.queried,answers := s.answers,entities := s.view.EntityListResponses}

def AtStage (s : State) : Prop :=
  match s.stage with
  | .idle => s.view.RequestsUnanswered = 0
  | .sending ahead => Asking ahead.length s
  | .sent ahead => Asking (ahead.length+1) s
  | .left => Chosen s
  | .reset => s.view.RequestsUnanswered = 0 ∧ Chosen s

structure Invariant (s : State) : Prop where
  returned : ∀ r ∈ s.returned, r.Complete
  stage : AtStage s

section Asking
variable {pending : Nat} {s : State}

theorem Asking.subperm (asking : Asking pending s) : (s.answers.map (·.sender)).Subperm s.queried :=
  asking.once.subperm asking.asked

theorem Asking.answered (asking : Asking pending s) : s.answers.length ≤ s.queried.length := by
  simpa using asking.subperm.length_le

theorem Asking.all_iff (asking : Asking pending s) :
    (∀ shard ∈ s.queried, ∃ answer ∈ s.answers, answer.sender = shard) ↔ s.answers.length = s.queried.length := by
  constructor
  · intro all
    have covered : s.queried ⊆ s.answers.map (·.sender) := fun shard member => List.mem_map.mpr (all shard member)
    have longer := (asking.distinct.subperm covered).length_le
    rw [List.length_map] at longer
    exact le_antisymm asking.answered longer
  · intro equal shard member
    have perm := asking.subperm.perm_of_length_le (by rw [List.length_map,equal])
    exact List.mem_map.mp (perm.mem_iff.mpr member)

/-- Behind the last increment the counter tells whether shards have yet to answer. -/
theorem Asking.zero_iff (asking : Asking 0 s) : s.view.RequestsUnanswered = 0 ↔ s.answers.length = s.queried.length := by
  have counted := asking.counted
  have answered := asking.answered
  have few := asking.few
  constructor
  · intro zero
    rw [zero] at counted
    have numbers := congrArg UInt32.toNat counted
    simp at numbers
    omega
  · intro equal
    rw [equal] at counted
    simpa using counted

theorem Asking.chosen (asking : Asking pending s) (equal : s.answers.length = s.queried.length) : Chosen s :=
  ⟨s.answers,List.Sublist.refl _,asking.subperm.perm_of_length_le (by rw [List.length_map,equal]),asking.listed⟩

end Asking

section Handling
variable {p : LocalEntityListRequestPacket} {sender : NetworkIdentity} {db : Database} {view : EntityLedgersView}

/-- An acceptable response adds its entries and counts. -/
theorem handles (response : p.status = LocalEntityListRequestPacket.eResponse) (acceptable : Acceptable p sender db) :
    OnLocalEntityListRequestPacket p sender db view =
      .ok {RequestsUnanswered := view.RequestsUnanswered-1
           EntityListResponses := view.EntityListResponses ++ (Answer.of p sender db).entries} := by
  rw [OnLocalEntityListRequestPacket,if_neg (not_not.mpr response),Answer.of]
  rw [Acceptable] at acceptable
  cases looked : (exec (BoundIDFromShard sender) db).1 with
  | error fault =>
    rw [looked] at acceptable
    exact absurd acceptable id
  | ok bound =>
    rw [looked] at acceptable
    cases bound with
    | none => exact congrArg Except.ok (congrArg (EntityLedgersView.mk _) (List.append_nil _).symm)
    | some BoundID =>
      obtain ⟨entities,minimal⟩ := acceptable
      simp only [LocalEntityListRequestPacket.entities,minimal]
      rfl

theorem handles_empty (empty : (Answer.of p sender db).entries = []) :
    ((OnLocalEntityListRequestPacket p sender db view).toOption.getD view).EntityListResponses = view.EntityListResponses := by
  rw [OnLocalEntityListRequestPacket]
  split
  · rfl
  · rw [Answer.of] at empty
    cases looked : (exec (BoundIDFromShard sender) db).1 with
    | error fault => rfl
    | ok bound =>
      rw [looked] at empty
      cases bound with
      | none => rfl
      | some BoundID =>
        cases alternative : p.Response_Entities with
        | full entities => rfl
        | minimal entities =>
          simp only [LocalEntityListRequestPacket.entities,alternative] at empty
          change view.EntityListResponses ++ entities.map (.of BoundID) = _
          rw [empty,List.append_nil]

end Handling

section Steps
variable {s after : State}

theorem invariant_initial : Invariant {} := ⟨nofun,rfl⟩

theorem invariant_begin {servers : List NetworkIdentity} (holds : Invariant s) (few : (shards servers).length < 2^32)
    (taken : next (.begin servers) s = some after) : Invariant after := by
  simp only [next] at taken
  split at taken
  · rename_i ready
    obtain rfl := Option.some.inj taken
    have zero : s.view.RequestsUnanswered = 0 := by
      have stage := holds.stage
      rw [AtStage,ready.1] at stage
      exact stage
    refine ⟨holds.returned,?_⟩
    change Asking (shards servers).length _
    constructor
    · exact ready.2.filter _
    · exact few
    · exact List.nodup_nil
    · exact List.nil_subset _
    · rfl
    · change s.view.RequestsUnanswered + 0 + _ = _
      rw [zero]
      simp
  · cases taken

theorem invariant_increment {ahead : List NetworkIdentity} (asking : Asking (ahead.length+1) s) : Asking ahead.length
    {s with view := {s.view with RequestsUnanswered := s.view.RequestsUnanswered+1},stage := .sending ahead} := by
  refine {asking with counted := Eq.trans ?_ asking.counted}
  rw [UInt32.ofNat_add]
  change s.view.RequestsUnanswered+1+_+_ = _+_+(_+1)
  grind

theorem asking_answered {pending : Nat} {stage : Stage} (answer : Answer) (asking : Asking pending s)
    (queried : answer.sender ∈ s.queried) (first : ∀ other ∈ s.answers, other.sender ≠ answer.sender) :
    Asking pending {s with
      view := {RequestsUnanswered := s.view.RequestsUnanswered-1
               EntityListResponses := s.view.EntityListResponses ++ answer.entries}
      stage
      answers := s.answers ++ [answer]} := by
  constructor
  · exact asking.distinct
  · exact asking.few
  · rw [List.map_append,List.nodup_append]
    refine ⟨asking.once,List.nodup_singleton _,fun sender earlier other own same => ?_⟩
    obtain ⟨previous,member,rfl⟩ := List.mem_map.mp earlier
    exact first previous member (same.trans (List.mem_singleton.mp own))
  · rw [List.map_append]
    exact List.append_subset.mpr ⟨asking.asked,List.cons_subset.mpr ⟨queried,List.nil_subset _⟩⟩
  · rw [List.flatMap_append,List.flatMap_singleton,← asking.listed]
  · refine Eq.trans ?_ asking.counted
    rw [List.length_append,List.length_singleton,UInt32.ofNat_add]
    change s.view.RequestsUnanswered-1+(_+1)+_ = _+_+_
    grind

theorem invariant_response {p : LocalEntityListRequestPacket} {sender : NetworkIdentity} {db : Database} (holds : Invariant s)
    (meets : Answered s (.response p sender db)) : Invariant (s.handle p sender db) := by
  rw [State.handle]
  split
  · rename_i response
    refine ⟨holds.returned,?_⟩
    have stage := holds.stage
    rw [AtStage] at stage ⊢
    rcases meets response with ⟨acceptable,⟨ahead,asking | asking⟩,queried,first⟩ | ⟨left,empty⟩
    · rw [asking] at stage
      rw [handles response acceptable]
      simp only [asking]
      exact asking_answered (.of p sender db) stage queried first
    · rw [asking] at stage
      rw [handles response acceptable]
      simp only [asking]
      exact asking_answered (.of p sender db) stage queried first
    · rw [left] at stage
      simp only [left]
      obtain ⟨chosen,sub,perm,listed⟩ := stage
      exact ⟨chosen,sub.trans (List.sublist_append_left _ _),perm,(handles_empty empty).trans listed⟩
  · exact holds

theorem invariant_step {event : Event} (holds : Invariant s) (meets : Answered s event) (taken : next event s = some after) :
    Invariant after := by
  have stage := holds.stage
  rw [AtStage] at stage
  cases event with
  | begin servers => exact invariant_begin holds meets taken
  | response p sender db =>
    obtain rfl := Option.some.inj taken
    exact invariant_response holds meets
  | send =>
    simp only [next] at taken
    split at taken
    · rename_i shard ahead sending
      obtain rfl := Option.some.inj taken
      rw [sending] at stage
      exact ⟨holds.returned,{stage with}⟩
    · cases taken
  | increment =>
    simp only [next] at taken
    split at taken
    · rename_i ahead sent
      obtain rfl := Option.some.inj taken
      rw [sent] at stage
      exact ⟨holds.returned,invariant_increment stage⟩
    · cases taken
  | load =>
    simp only [next] at taken
    split at taken
    · rename_i waiting
      obtain rfl := Option.some.inj taken
      split
      · exact holds
      · rename_i zero
        rw [waiting] at stage
        have none : s.view.RequestsUnanswered = 0 := by simpa using zero
        exact ⟨holds.returned,stage.chosen ((Asking.zero_iff stage).mp none)⟩
    · cases taken
  | reset =>
    simp only [next] at taken
    split at taken
    · rename_i left
      obtain rfl := Option.some.inj taken
      rw [left] at stage
      exact ⟨holds.returned,rfl,stage⟩
    · cases taken
  | move =>
    simp only [next] at taken
    split at taken
    · rename_i reset
      obtain rfl := Option.some.inj taken
      rw [reset] at stage
      refine ⟨fun r member => ?_,stage.1⟩
      rcases List.mem_append.mp member with earlier | last
      · exact holds.returned r earlier
      · rw [List.mem_singleton.mp last]
        exact stage.2
    · cases taken

end Steps

/-- What a shard responds to a query of a call is acceptable, if the lookup of its bound returns. -/
theorem acceptable_OnLocalEntityListRequest {p : LocalEntityListRequestPacket} {ledger : EntityLedger} {sender : NetworkIdentity}
    {db : Database} {bound : Option BoundsID} (query : p.Request_IncludeMetadata = false)
    (looked : (exec (BoundIDFromShard sender) db).1 = .ok bound) : Acceptable (ledger.OnLocalEntityListRequest p) sender db := by
  rw [Acceptable,looked]
  cases bound with
  | none => trivial
  | some BoundID => exact ⟨_,if_neg (ne_true_of_eq_false query)⟩

/-- Along a run in which each queried shard answers each call at most once, acceptably and while
the call asks, and nothing else brings entries or counts, the view behaves. -/
theorem view_behaves {s : State} (reached : viewing.ReachableWhile Answered s) : Behaves s := by
  have holds := System.stepping_invariant Invariant invariant_initial (fun _ _ _ => invariant_step) reached
  refine ⟨holds.returned,fun waiting => ?_⟩
  have asking := holds.stage
  rw [AtStage,waiting] at asking
  exact (Asking.zero_iff asking).trans asking.all_iff.symm

section Runs

/-- A shard with a claimed bound and one entity, and its response. -/
def shard (id : UInt8) : NetworkIdentity := .MakeIDShard ⟨id::List.replicate 15 0,rfl⟩

def claimedStore : Database :=
  Database.empty.withJson JSONDataTable (.obj [(JSONClaimedEntry,.arr [claimedJson ((4,""),shard 1)])])

def query : LocalEntityListRequestPacket where
  status := LocalEntityListRequestPacket.eQuery
  Request_IncludeMetadata := false
  Response_Entities := .minimal []

def ledger : EntityLedger := {entities := [(.nil,{})]}

def response : LocalEntityListRequestPacket := ledger.OnLocalEntityListRequest query

/-- A call that queries the shard and gets its response. -/
theorem view_behaves_once : ∃ s, viewing.ReachableWhile Answered s ∧ Behaves s ∧ s.returned.any (·.entities.length = 1) = true := by
  let asked : State := {stage := .sending [],queried := [shard 1],view := {RequestsUnanswered := 1}}
  have asking : viewing.ReachableWhile Answered asked := by
    have begun : viewing.ReachableWhile Answered {stage := .sending [shard 1],queried := [shard 1]} := by
      refine .step _ (Event.begin [shard 1]) _ System.stepping_start ?_ rfl
      exact (by decide : (shards [shard 1]).length < 2^32)
    exact .step _ Event.increment _ (.step _ Event.send _ begun trivial rfl) trivial rfl
  have looked : (exec (BoundIDFromShard (shard 1)) claimedStore).1 = .ok (some 4) := by decide +kernel
  have acceptable : Acceptable response (shard 1) claimedStore :=
    @acceptable_OnLocalEntityListRequest query ledger (shard 1) claimedStore (some 4) rfl looked
  have meets : Answered asked (.response response (shard 1) claimedStore) :=
    fun _ => .inl ⟨acceptable,⟨[],.inl rfl⟩,List.mem_cons_self,nofun⟩
  have takes (s : State) (p sender db) : viewing.Step s (.response p sender db) (s.handle p sender db) := rfl
  have answered := asking.step asked _ _ meets (takes asked response (shard 1) claimedStore)
  have returns : (System.replay next [.load,.reset,.move] (asked.handle response (shard 1) claimedStore)).any
      (fun s => s.returned.any (·.entities.length = 1)) = true := by decide +kernel
  obtain ⟨s,ran,returned⟩ := (Option.any_eq_true ..).mp returns
  have reached : viewing.ReachableWhile Answered s := by
    refine System.stepping_replay (fun state event member => ?_) answered ran
    simp only [List.mem_cons,List.not_mem_nil,or_false] at member
    rcases member with rfl | rfl | rfl <;> trivial
  exact ⟨s,reached,view_behaves reached,returned⟩

/-- One of two shards responds twice, and the wait ends without the other. -/
theorem duplicate_ends_wait : ∃ s, viewing.Reachable s ∧ (∃ r ∈ s.returned, r.queried = [shard 1,shard 2] ∧
    r.answers.map (·.sender) = [shard 1,shard 1] ∧ r.entities.length = 2) ∧ ¬ Behaves s := by
  have runs : (System.replay next [.begin [shard 1,shard 2],.send,.increment,.send,.increment,
      .response response (shard 1) claimedStore,.response response (shard 1) claimedStore,.load,.reset,.move] {}).any
      (fun s => s.returned.any (fun r => r.queried = [shard 1,shard 2] ∧ r.answers.map (·.sender) = [shard 1,shard 1] ∧
        r.entities.length = 2)) = true := by decide +kernel
  obtain ⟨s,ran,returned⟩ := (Option.any_eq_true ..).mp runs
  obtain ⟨r,member,found⟩ := List.any_eq_true.mp returned
  have found := of_decide_eq_true found
  refine ⟨s,System.stepping_replay (fun _ _ _ => trivial) System.stepping_start ran,⟨r,member,found⟩,fun behaves => ?_⟩
  obtain ⟨chosen,sub,perm,_⟩ := behaves.complete r member
  rw [found.1] at perm
  have other : shard 2 ∈ r.answers.map (·.sender) := (sub.map _).subset (perm.mem_iff.mpr (by simp))
  rw [found.2.1] at other
  have different : shard 2 ≠ shard 1 := by decide
  simp [different] at other

end Runs

end EntityLedgersView

end AtlasNet
