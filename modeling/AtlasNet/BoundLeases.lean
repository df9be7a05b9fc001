import AtlasNet.BoundLeaser

/-! The leasers of any number of shards beside the passes of the watchdog, with every
command to the database as a step of its own. -/
namespace AtlasNet.BoundLeases
open Foundation Foundation.Program Foundation.Redis HeuristicManifest WatchDog BoundLeaser
open BoundOwnership (EmptyStore pendingIDs claimedIDs)

structure Thread where
  leaser : BoundLeaser := {}
  stage : Stage := .waiting

/-- The threads stand by the identities of their shards. -/
structure State where
  db : Database
  watchdog : Pass := .idle
  threads : NetworkIdentity → Thread := fun _ => {}

inductive Event
  | compute (Heuristic : GridHeuristic) (iteration : Writers)
  | watchdog
  | shard (SelfID : NetworkIdentity)

/-- A fault ends the watchdog; the next pass is that of its successor. -/
def nextPass (pass : Pass) (db : Database) : Pass × Database :=
  match exec pass.work db with
  | (.ok next,after) => (next,after)
  | (.error _,after) => (.idle,after)

def nextThread (SelfID : NetworkIdentity) (thread : Thread) (db : Database) : Thread × Database :=
  match exec (thread.stage.work SelfID) (db,thread.leaser) with
  | (.ok stage,after) => (⟨after.2,stage⟩,after.1)
  | (.error fault,after) => (⟨after.2,.failed fault⟩,after.1)

def next : Event → State → State
  | .compute Heuristic iteration,s => {s with watchdog := .ensureTable Heuristic iteration}
  | .watchdog,s => {s with watchdog := (nextPass s.watchdog s.db).1,db := (nextPass s.watchdog s.db).2}
  | .shard SelfID,s =>
    let reached := nextThread SelfID (s.threads SelfID) s.db
    {s with db := reached.2,threads := Function.update s.threads SelfID reached.1}

/-- One pass runs at a time, over writers iterated in any order; a leaser runs in a shard. -/
def Possible (s : State) : Event → Prop
  | .compute Heuristic iteration =>
    s.watchdog = .idle ∧ iteration.Perm Heuristic.SerializeBounds ∧ ∀ w ∈ iteration, w.2.buf.length < 2^64
  | .watchdog => True
  | .shard SelfID => SelfID.type = .eShard

def leasing : System State Event where
  Initial s := EmptyStore s.db ∧ s.watchdog = .idle ∧ s.threads = fun _ => {}
  Step s event after := Possible s event ∧ after = next event s

/-- No tick has failed, and what a shard leases is its own in the document and nobody else's. -/
structure Agrees (s : State) : Prop where
  running : ∀ shard fault, (s.threads shard).stage ≠ .failed fault
  leased : ∀ shard, (s.threads shard).leaser.HasBound → ∃ bound,
    (s.threads shard).leaser.GetBound = .ok bound ∧
    (s.threads shard).leaser.ClaimedBoundID = some bound.ID ∧
    (exec (BoundIDFromShard shard) s.db).1 = .ok (some bound.ID) ∧
    (exec (ShardFromBoundID bound.ID) s.db).1 = .ok (some shard) ∧
    ∀ other, other ≠ shard → ∀ held, (s.threads other).leaser.GetBound = .ok held → held.ID ≠ bound.ID

/-- The script of a shard without a bound finds one pending, and a pass starts while
none of its bounds is pending or claimed. -/
def Supplied (s : State) : Event → Prop
  | .compute _ iteration =>
    ∀ w ∈ iteration, (w.1.toNat : Int) ∉ pendingIDs s.db ∧ (w.1.toNat : Int) ∉ claimedIDs s.db
  | .watchdog => True
  | .shard SelfID => (s.threads SelfID).stage = .waiting → (s.threads SelfID).leaser.HasBound = false →
    elements s.db JSONPendingEntry ≠ []

instance (s : State) : (event : Event) → Decidable (Supplied s event)
  | .compute _ iteration => inferInstanceAs (Decidable (∀ w ∈ iteration,
    (w.1.toNat : Int) ∉ pendingIDs s.db ∧ (w.1.toNat : Int) ∉ claimedIDs s.db))
  | .watchdog => inferInstanceAs (Decidable True)
  | .shard SelfID => inferInstanceAs (Decidable ((s.threads SelfID).stage = .waiting →
    (s.threads SelfID).leaser.HasBound = false → elements s.db JSONPendingEntry ≠ []))

section Lookups
variable {db : Database} {ledger : Bounds}

theorem owner64_injective : Function.Injective owner64 := by
  intro a b same
  have first := BoundClaims.exec_deserialize_owner64 a ()
  rw [same,BoundClaims.exec_deserialize_owner64 b ()] at first
  exact (Except.ok.inj (Prod.mk.inj first).1).symm

theorem claimedJson_owner (held : (BoundsID × String) × NetworkIdentity) (shard : NetworkIdentity) :
    Json.hasText "Owner64" (owner64 shard) (claimedJson held) = decide (held.2 = shard) := by
  have same : owner64 held.2 = owner64 shard ↔ held.2 = shard := owner64_injective.eq_iff
  simp [claimedJson,ClaimedBoundStruct.to_json,Json.hasText,Entries.get,beq_eq_decide,same]

theorem held_once {held : (BoundsID × String) × NetworkIdentity} (distinct : ledger.heldIds.Nodup)
    (member : held ∈ ledger.held) : ledger.held.filter (fun other => decide (other.1.1 = held.1.1)) = [held] :=
  Ledger.filter_unique (fun other : (BoundsID × String) × NetworkIdentity => other.1.1) _ distinct held member

theorem selection_claimed (held : (BoundsID × String) × NetworkIdentity) :
    selection (some (.arr [claimedJson held])) = some (claimedJson held,[]) := rfl

theorem claimed_ID {σ : Type} (held : (BoundsID × String) × NetworkIdentity) (state : σ) :
    exec (Json.at "ID" (claimedJson held) >>= Json.getBoundsID) state = (.ok held.1.1,state) := by
  have found : exec (Json.at "ID" (claimedJson held)) state = (.ok (.num held.1.1.toNat),state) := rfl
  rw [exec_bind_ok _ _ _ _ _ found,BoundClaims.exec_getBoundsID]

theorem boundIDFromShard_spec (held : (BoundsID × String) × NetworkIdentity) (stored : Stored db ledger)
    (member : held ∈ ledger.held) (owners : (ledger.held.map (·.2)).Nodup) (shard : held.2.type = .eShard) :
    exec (BoundIDFromShard held.2) db = (.ok (some held.1.1),db) := by
  obtain ⟨fields,here,present⟩ := BoundClaims.claimed_present stored member
  have query := jsonGetWhereText_array _ "Owner64" (owner64 held.2) here present
  have selected : (ledger.held.map claimedJson).filter (Json.hasText "Owner64" (owner64 held.2)) =
      [claimedJson held] := by
    have same : (Json.hasText "Owner64" (owner64 held.2) ∘ claimedJson) = fun other => decide (other.2 = held.2) := by
      funext other
      rw [Function.comp_apply,claimedJson_owner]
    rw [List.filter_map,same,Ledger.filter_unique (·.2) _ owners held member]
    rfl
  rw [selected] at query
  unfold BoundIDFromShard
  rw [exec_assert_bind,if_pos shard,exec_bind_ok _ _ _ _ _ (exec_owner64 held.2 db),exec_bind_ok _ _ _ _ _ query,
    selection_claimed]
  have states : (Json.member "ID" (claimedJson held)).isSome = true := rfl
  rw [exec_assert_bind,if_pos (by simp),exec_assert_bind,if_pos states,exec_map,claimed_ID]
  rfl

theorem shardFromBoundID_spec (held : (BoundsID × String) × NetworkIdentity) (stored : Stored db ledger)
    (member : held ∈ ledger.held) (distinct : ledger.heldIds.Nodup) :
    exec (ShardFromBoundID held.1.1) db = (.ok (some held.2),db) := by
  obtain ⟨fields,here,present⟩ := BoundClaims.claimed_present stored member
  have query := jsonGetWhere_array _ "ID" held.1.1.toNat here present
  rw [BoundClaims.claimed_selected (held_once distinct member)] at query
  have pulled : exec (Internal_PullClaimedBound held.1.1) db = (.ok (some ⟨held.1.1,held.2,held.1.2⟩),db) := by
    rw [Internal_PullClaimedBound,exec_bind_ok _ _ _ _ _ query,selection_claimed]
    rw [exec_assert_bind,if_pos (by simp),exec_map,BoundClaims.from_json_claimed]
    rfl
  rw [ShardFromBoundID,exec_bind_ok _ _ _ _ _ pulled]
  rfl

end Lookups

section Passes
variable {db : Database} {ledger : Bounds}

def unstored : Pass → List (BoundsID × String)
  | .idle => []
  | .ensureTable _ writers => writers.map row
  | .setType _ writers => writers.map row
  | .setData _ writers => writers.map row
  | .countPending _ writers => writers.map row
  | .countClaimed _ _ writers => writers.map row
  | .ensure writers => writers.map row
  | .check p writers => (p.ID,p.BoundsDataBase64)::writers.map row
  | .append p _ writers => (p.ID,p.BoundsDataBase64)::writers.map row

/-- Whether a pass is behind the command that names the type of its heuristic. -/
def Named : Pass → Prop
  | .idle => False
  | .ensureTable _ _ => False
  | .setType _ _ => False
  | _ => True

def TypeStored (db : Database) : Prop := entry db JSONHeuristicTypeEntry = some (.str "GridCell")

structure Reaches (pass : Pass) (db : Database) (ledger : Bounds) : Prop where
  holds : Holds db ledger
  typed : Named pass ∨ ledger.rows ≠ [] → TypeStored db

/-- One command of a pass stores at most what was to be stored. -/
structure Moves (pass : Pass) (ledger : Bounds) (reached : Pass × Database) (after : Bounds) : Prop where
  reaches : Reaches reached.1 reached.2 after
  held : after.held = ledger.held
  rows : (unstored reached.1 ++ after.rows).Subperm (unstored pass ++ ledger.rows)

theorem moves_same {pass next : Pass} (holds : Holds db ledger)
    (typed : Named next ∨ ledger.rows ≠ [] → TypeStored db) (kept : (unstored next).Sublist (unstored pass)) :
    Moves pass ledger (next,db) ledger :=
  ⟨⟨holds,typed⟩,rfl,(kept.append_right _).subperm⟩

theorem nextPass_ok {pass next : Pass} {after : Database} (ran : exec pass.work db = (.ok next,after)) :
    nextPass pass db = (next,after) := by
  rw [nextPass,ran]

theorem moves_stopped {pass : Pass} {fault : Fault} (before : Reaches pass db ledger)
    (ran : exec pass.work db = (.error fault,db)) : Moves pass ledger (nextPass pass db) ledger := by
  rw [nextPass,ran]
  refine moves_same before.holds (fun some => before.typed (.inr ?_)) (List.nil_sublist _)
  exact some.resolve_left id

theorem setOther_spec (name : String) (value : Json) (notPending : name ≠ JSONPendingEntry)
    (notClaimed : name ≠ JSONClaimedEntry) (holds : Holds db ledger) :
    exec (jsonSet JSONDataTable [.field name] value false) db = (.error newAtRoot,db) ∨
    ∃ next, exec (jsonSet JSONDataTable [.field name] value false) db = (.ok (),next) ∧ Stored next ledger ∧
      entry next name = some value ∧ ∀ other, other ≠ name → entry next other = entry db other := by
  rcases holds with stored | ⟨absent,_⟩
  · obtain ⟨fields,here⟩ := stored.document
    obtain ⟨after,ran,present,others⟩ := setField_spec name value here
    have kept (other : String) (different : other ≠ name) :
        entry (db.withJson JSONDataTable (.obj after)) other = entry db other := by
      rw [entry_withJson,others other different,entry_fields here]
    refine .inr ⟨_,ran,⟨⟨after,withJson_json _ _ _⟩,?_,?_⟩,(entry_withJson _ _ _).trans present,kept⟩
    · rw [kept _ notPending.symm]
      exact stored.pending
    · rw [kept _ notClaimed.symm]
      exact stored.claimed
  · left
    simp [jsonSet,absent]

theorem moves_ensure (w : BoundsID × ByteWriter) (writers : Writers)
    (before : Reaches (.ensure (w::writers)) db ledger) :
    Moves (.ensure (w::writers)) ledger (nextPass (.ensure (w::writers)) db) ledger := by
  by_cases written : w.2.buf = []
  · have empty : exec (w.2.as_string_base_64 : Command String) db =
        (.error (.assertion "BASE64 encode did not write"),db) := by
      simp only [ByteWriter.as_string_base_64]
      rw [exec_assert_bind,written,if_neg (by decide)]
    exact moves_stopped before (exec_bind_error _ _ _ _ _ empty)
  have text := exec_base64 w.2 written db
  rcases before.holds with stored | ⟨absent,_⟩
  · obtain ⟨fields,here,pending,_⟩ := stored.opened
    obtain ⟨after,ran,present,others⟩ := ensure_spec here pending
    have kept (other : String) (different : other ≠ JSONPendingEntry) :
        entry (db.withJson JSONDataTable (.obj after)) other = entry db other := by
      rw [entry_withJson,others other different,entry_fields here]
    rw [nextPass_ok ((exec_bind_ok _ _ _ _ _ text).trans (exec_bind_ok _ _ _ _ _ ran))]
    refine ⟨⟨.inl ⟨⟨after,withJson_json _ _ _⟩,?_,?_⟩,fun _ => ?_⟩,rfl,List.Subperm.refl _⟩
    · rw [entry_withJson,present]
      exact .inl rfl
    · rw [kept _ pending_ne_claimed.symm]
      exact stored.claimed
    · exact (kept _ (by decide)).trans (before.typed (.inl trivial))
  · have missing : exec (jsonSet JSONDataTable [.field JSONPendingEntry] (.arr []) true) db = (.error newAtRoot,db) := by
      simp [jsonSet,absent]
    exact moves_stopped before ((exec_bind_ok _ _ _ _ _ text).trans (exec_bind_error _ _ _ _ _ missing))

theorem moves_append (p : PendingBoundStruct) (existing : Option Json) (writers : Writers)
    (before : Reaches (.append p existing writers) db ledger) :
    ∃ after, Moves (.append p existing writers) ledger (nextPass (.append p existing writers) db) after := by
  have stops (fault : Fault) (ran : exec (Pass.appendAbsent p existing) db = (.error fault,db)) :
      ∃ after, Moves (.append p existing writers) ledger (nextPass (.append p existing writers) db) after :=
    ⟨ledger,moves_stopped before (exec_bind_error _ _ _ _ _ ran)⟩
  by_cases short : (existing.map (fun reply => reply.text.length)).getD 0 ≤ 2
  · have append : Pass.appendAbsent p existing = jsonArrAppend JSONDataTable [.field JSONPendingEntry] p.to_json :=
      if_pos short
    rcases before.holds with stored | ⟨absent,_⟩
    · obtain ⟨fields,here,pending,_⟩ := stored.opened
      rcases pending with present | ⟨missing,_⟩
      · have ran := jsonArrAppend_array _ p.to_json here present
        rw [← append] at ran
        refine ⟨ledger.offer (p.ID,p.BoundsDataBase64),?_⟩
        rw [nextPass_ok (exec_bind_ok _ _ _ _ _ ran)]
        have kept (other : String) (different : other ≠ JSONPendingEntry) :
            entry (db.withJson JSONDataTable
              (.obj (Entries.put JSONPendingEntry (.arr (ledger.waiting.map pendingJson ++ [p.to_json])) fields))) other =
            entry db other := by
          rw [entry_withJson,Entries.get_put_other _ _ _ _ different,entry_fields here]
        refine ⟨⟨.inl ⟨⟨_,withJson_json _ _ _⟩,?_,?_⟩,fun _ => ?_⟩,rfl,?_⟩
        · rw [entry_withJson,Entries.get_put_self]
          exact .inl (by simp [Ledger.offer,pendingJson])
        · rw [kept _ pending_ne_claimed.symm]
          exact stored.claimed
        · exact (kept _ (by decide)).trans (before.typed (.inl trivial))
        · have moved : (unstored (.ensure writers) ++ (ledger.offer (p.ID,p.BoundsDataBase64)).rows).Perm
              (unstored (.append p existing writers) ++ ledger.rows) := by
            simp only [unstored,Ledger.rows,Ledger.offer,List.append_assoc,List.cons_append]
            rw [← List.append_assoc]
            exact List.perm_middle.trans (by simp)
          exact moved.subperm
      · apply stops noSuchPath
        rw [append]
        simp [jsonArrAppend,onArray,here,Json.get,missing,exec_bind]
    · apply stops noSuchKey
      rw [append]
      simp [jsonArrAppend,onArray,absent,exec_bind]
  · apply stops (.assertion "This should never happen")
    rw [Pass.appendAbsent,if_neg short]
    rfl

theorem moves_ensureTable (Heuristic : GridHeuristic) (iteration : Writers)
    (before : Reaches (.ensureTable Heuristic iteration) db ledger) :
    Moves (.ensureTable Heuristic iteration) ledger (nextPass (.ensureTable Heuristic iteration) db) ledger := by
  obtain ⟨fields,ran,same⟩ := ensureTable_spec (holds_tabled before.holds)
  have kept (name : String) : entry (db.withJson JSONDataTable (.obj fields)) name = entry db name :=
    (entry_withJson _ _ _).trans (same name)
  obtain ⟨pending,claimed⟩ := holds_shown before.holds
  rw [← kept] at pending claimed
  rw [nextPass_ok (exec_bind_ok _ _ _ _ _ ran)]
  refine moves_same (.inl ⟨⟨fields,withJson_json _ _ _⟩,pending,claimed⟩) (fun some => ?_) (List.Sublist.refl _)
  exact (kept _).trans (before.typed some)

theorem moves_setType (Heuristic : GridHeuristic) (iteration : Writers) (before : Reaches (.setType Heuristic iteration) db ledger) :
    Moves (.setType Heuristic iteration) ledger (nextPass (.setType Heuristic iteration) db) ledger := by
  rcases setOther_spec JSONHeuristicTypeEntry (.str Heuristic.GetType.TypeToString) (by decide) (by decide)
    before.holds with failed | ⟨after,ran,stored,type,_⟩
  · exact moves_stopped before (exec_bind_error _ _ _ _ _ failed)
  · rw [nextPass_ok (exec_bind_ok _ _ _ _ _ ran)]
    exact moves_same (.inl stored) (fun _ => type) (List.Sublist.refl _)

theorem moves_setData (Heuristic : GridHeuristic) (iteration : Writers) (before : Reaches (.setData Heuristic iteration) db ledger) :
    Moves (.setData Heuristic iteration) ledger (nextPass (.setData Heuristic iteration) db) ledger := by
  have text := exec_base64 _ Heuristic.Serialize_nonempty db
  rcases setOther_spec JSONHeuristicData64Entry (.str (String.ofList (Base64.encode (Heuristic.Serialize {}).buf)))
    (by decide) (by decide) before.holds with failed | ⟨after,ran,stored,_,others⟩
  · have stopped : exec (Pass.work (.setData Heuristic iteration)) db = (.error newAtRoot,db) :=
      (exec_bind_ok _ _ _ _ _ text).trans (exec_bind_error _ _ _ _ _ failed)
    exact moves_stopped before stopped
  · rw [nextPass_ok ((exec_bind_ok _ _ _ _ _ text).trans (exec_bind_ok _ _ _ _ _ ran))]
    have type : TypeStored after := (others _ (by decide)).trans (before.typed (.inl trivial))
    exact moves_same (.inl stored) (fun _ => type) (List.Sublist.refl _)

theorem moves_check (p : PendingBoundStruct) (writers : Writers) (before : Reaches (.check p writers) db ledger) :
    Moves (.check p writers) ledger (nextPass (.check p writers) db) ledger := by
  have kept := reads_jsonGetWhere JSONDataTable [.field JSONPendingEntry] "ID" p.ID.toNat db
  rcases ran : exec (jsonGetWhere JSONDataTable [.field JSONPendingEntry] "ID" p.ID.toNat) db with
    ⟨fault | existing,after⟩
  · rw [ran] at kept
    subst kept
    exact moves_stopped before (exec_bind_error _ _ _ _ _ ran)
  · rw [ran] at kept
    subst kept
    rw [nextPass_ok (exec_bind_ok _ _ _ _ _ ran)]
    exact moves_same before.holds (fun _ => before.typed (.inl trivial)) (List.Sublist.refl _)

/-- Every command of a pass moves at most a bound that was to be stored into the ledger. -/
theorem moves_work (pass : Pass) (before : Reaches pass db ledger) :
    ∃ after, Moves pass ledger (nextPass pass db) after := by
  cases pass with
  | idle => exact ⟨ledger,moves_same before.holds before.typed (List.Sublist.refl _)⟩
  | ensureTable Heuristic iteration => exact ⟨ledger,moves_ensureTable Heuristic iteration before⟩
  | setType Heuristic iteration => exact ⟨ledger,moves_setType Heuristic iteration before⟩
  | setData Heuristic iteration => exact ⟨ledger,moves_setData Heuristic iteration before⟩
  | countPending expected iteration =>
    refine ⟨ledger,?_⟩
    rw [nextPass_ok (exec_bind_ok _ _ _ _ _ (pendingCount_zero before.holds))]
    exact moves_same before.holds (fun _ => before.typed (.inl trivial)) (List.Sublist.refl _)
  | countClaimed pending_count expected iteration =>
    refine ⟨ledger,?_⟩
    rw [nextPass_ok (exec_bind_ok _ _ _ _ _ (claimedCount_zero before.holds))]
    refine moves_same before.holds (fun _ => before.typed (.inl trivial)) ?_
    split
    · exact List.Sublist.refl _
    · exact List.nil_sublist _
  | ensure writers =>
    cases writers with
    | nil =>
      have retrieved : exec retrievePending db = (.ok (),db) := by
        rw [retrievePending,exec_bind_ok _ _ _ _ _ (pendingReaders_none before.holds)]
        rfl
      refine ⟨ledger,?_⟩
      rw [nextPass_ok (exec_bind_ok _ _ _ _ _ retrieved)]
      exact moves_same before.holds (fun _ => before.typed (.inl trivial)) (List.Sublist.refl _)
    | cons w writers => exact ⟨ledger,moves_ensure w writers before⟩
  | check p writers => exact ⟨ledger,moves_check p writers before⟩
  | append p existing writers => exact moves_append p existing writers before

end Passes

section Runs
variable {ledger : Bounds}

def Leased (ledger : Bounds) (shard : NetworkIdentity) (leaser : BoundLeaser) : Prop :=
  ∃ row shape, (row,shard) ∈ ledger.held ∧ BoundClaims.Written row shape ∧ leaser = ⟨some shape,some row.1⟩

/-- How far a thread has come with the row that the ledger has for its shard. -/
def Backed (ledger : Bounds) (shard : NetworkIdentity) (thread : Thread) : Prop :=
  match thread.stage with
  | .waiting => thread.leaser.ClaimedBound = none ∧ shard ∉ ledger.held.map (·.2) ∨ Leased ledger shard thread.leaser
  | .scripted id => thread.leaser.ClaimedBound = none ∧ ∃ data, ((id,data),shard) ∈ ledger.held
  | .fetched BoundData => thread.leaser.ClaimedBound = none ∧
    ∃ row, (row,shard) ∈ ledger.held ∧ BoundData = some ⟨row.1,shard,row.2⟩
  | .assigned => Leased ledger shard thread.leaser
  | .failed _ => False

structure Invariant (ledger : Bounds) (s : State) : Prop where
  reaches : Reaches s.watchdog s.db ledger
  distinct : ((unstored s.watchdog ++ ledger.rows).map (·.1)).Nodup
  written : ∀ row ∈ unstored s.watchdog ++ ledger.rows, ∃ shape, BoundClaims.Written row shape
  owners : (ledger.held.map (·.2)).Nodup
  shards : ∀ held ∈ ledger.held, held.2.type = .eShard
  backed : ∀ shard, Backed ledger shard (s.threads shard)

theorem Invariant.heldIds {s : State} (holds : Invariant ledger s) : ledger.heldIds.Nodup := by
  have distinct := holds.distinct
  rw [List.map_append,Ledger.rows_ids] at distinct
  exact (List.nodup_append.mp (List.nodup_append.mp distinct).2.1).2.1

theorem Invariant.held_row {s : State} (holds : Invariant ledger s) {held : (BoundsID × String) × NetworkIdentity}
    (member : held ∈ ledger.held) : ∃ shape, BoundClaims.Written held.1 shape :=
  holds.written held.1 (List.mem_append_right _ (List.mem_append_right _ (List.mem_map_of_mem member)))

theorem Invariant.stored {s : State} (holds : Invariant ledger s) {held : (BoundsID × String) × NetworkIdentity}
    (member : held ∈ ledger.held) : Stored s.db ledger ∧ TypeStored s.db := by
  constructor
  · rcases holds.reaches.holds with stored | ⟨_,rfl⟩
    · exact stored
    · cases member
  · apply holds.reaches.typed
    right
    intro none
    have inside : held.1 ∈ ledger.rows := List.mem_append_right _ (List.mem_map_of_mem member)
    rw [none] at inside
    cases inside

/-- A thread stays backed while the ledger gives its shard nothing and takes nothing from it. -/
theorem backed_mono {after : Bounds} {shard : NetworkIdentity} {thread : Thread} (kept : ledger.held ⊆ after.held)
    (owner : shard ∈ after.held.map (·.2) → shard ∈ ledger.held.map (·.2)) (before : Backed ledger shard thread) :
    Backed after shard thread := by
  have leased : Leased ledger shard thread.leaser → Leased after shard thread.leaser :=
    fun ⟨row,shape,member,rest⟩ => ⟨row,shape,kept member,rest⟩
  unfold Backed at before ⊢
  split at before
  · exact before.imp (fun ⟨unset,absent⟩ => ⟨unset,fun there => absent (owner there)⟩) leased
  · obtain ⟨unset,data,member⟩ := before
    exact ⟨unset,data,kept member⟩
  · obtain ⟨unset,row,member,found⟩ := before
    exact ⟨unset,row,kept member,found⟩
  · exact leased before
  · exact before

theorem invariant_watchdog {s : State} (holds : Invariant ledger s) :
    ∃ after, Invariant after (next .watchdog s) := by
  obtain ⟨after,moves⟩ := moves_work s.watchdog holds.reaches
  refine ⟨after,moves.reaches,?_,?_,?_,?_,fun shard => ?_⟩
  · obtain ⟨stays,perm,inside⟩ := moves.rows
    exact (perm.map (·.1)).nodup_iff.mp (holds.distinct.sublist (inside.map (·.1)))
  · exact fun row member => holds.written row (moves.rows.subset member)
  · exact moves.held ▸ holds.owners
  · exact moves.held ▸ holds.shards
  · exact backed_mono (by rw [moves.held]; exact List.Subset.refl _) (by rw [moves.held]; exact id) (holds.backed shard)

theorem exec_query {α : Type} {command : Command α} {db after : Database} {value : α} {leaser : BoundLeaser}
    (ran : exec command db = (.ok value,after)) : exec (query command) (db,leaser) = (.ok value,(after,leaser)) := by
  rw [query,exec_zoom,ran]

theorem nextThread_ok {SelfID : NetworkIdentity} {thread : Thread} {stage : Stage} {db after : Database}
    {leaser : BoundLeaser} (ran : exec (thread.stage.work SelfID) (db,thread.leaser) = (.ok stage,(after,leaser))) :
    nextThread SelfID thread db = (⟨leaser,stage⟩,after) := by
  rw [nextThread,ran]

/-- A step of a thread that reads only leaves the other threads backed as they were. -/
theorem invariant_thread {s : State} (holds : Invariant ledger s) (SelfID : NetworkIdentity) {thread : Thread}
    (ran : nextThread SelfID (s.threads SelfID) s.db = (thread,s.db)) (backed : Backed ledger SelfID thread) :
    Invariant ledger (next (.shard SelfID) s) := by
  simp only [next,ran]
  refine ⟨holds.reaches,holds.distinct,holds.written,holds.owners,holds.shards,fun shard => ?_⟩
  by_cases same : shard = SelfID
  · subst same
    simpa using backed
  · simpa [Function.update_of_ne same] using holds.backed shard

theorem invariant_script {s : State} (holds : Invariant ledger s) (SelfID : NetworkIdentity)
    (shard : SelfID.type = .eShard) (stage : (s.threads SelfID).stage = .waiting)
    (unset : (s.threads SelfID).leaser.ClaimedBound = none) (absent : SelfID ∉ ledger.held.map (·.2))
    (supplied : elements s.db JSONPendingEntry ≠ []) : Invariant (ledger.claim SelfID) (next (.shard SelfID) s) := by
  have stored : Stored s.db ledger := by
    rcases holds.reaches.holds with stored | ⟨absent,_⟩
    · exact stored
    · simp [elements,entry,absent] at supplied
  rw [elements_pending stored] at supplied
  obtain ⟨row,waiting,first⟩ := List.exists_cons_of_ne_nil (fun none => supplied (List.map_eq_nil_iff.mpr none))
  obtain ⟨after,replied,passed,frame,_⟩ := claim_spec SelfID stored
  simp only [first] at replied
  have ran : exec (Stage.work SelfID .waiting) (s.db,(s.threads SelfID).leaser) =
      (.ok (.scripted row.1),(after,(s.threads SelfID).leaser)) := by
    rw [Stage.work,exec_get_bind,if_neg (by simp [HasBound,unset]),exec_bind_ok _ _ _ _ _ (exec_query replied)]
    rfl
  rw [← stage] at ran
  have moved := ledger.claim_rows SelfID
  have type : TypeStored after := by
    refine (frame.entries _ (by decide) (by decide)).trans (holds.reaches.typed (.inr ?_))
    simp [Ledger.rows,first]
  rw [Ledger.claim_cons SelfID ledger row waiting first] at passed moved ⊢
  simp only [next,nextThread_ok ran]
  have kept := moved.append_left (unstored s.watchdog)
  refine ⟨⟨.inl passed,fun _ => type⟩,?_,?_,?_,?_,fun shard => ?_⟩
  · exact (kept.map (·.1)).nodup_iff.mpr holds.distinct
  · exact fun row member => holds.written row (kept.subset member)
  · rw [List.map_append]
    exact holds.owners.append (List.nodup_singleton SelfID) (List.disjoint_singleton.mpr absent)
  · intro held member
    rcases List.mem_append.mp member with before | last
    · exact holds.shards held before
    · rw [List.mem_singleton.mp last]
      exact shard
  · by_cases same : shard = SelfID
    · subst same
      simp only [Function.update_self]
      exact ⟨unset,row.2,List.mem_append_right _ (List.mem_singleton.mpr rfl)⟩
    · simp only [Function.update_of_ne same]
      refine backed_mono (List.subset_append_left _ _) (fun there => ?_) (holds.backed shard)
      rw [List.map_append] at there
      exact (List.mem_append.mp there).resolve_right (fun last => same (List.mem_singleton.mp last))

section Threads
variable {s : State} {SelfID : NetworkIdentity}

theorem thread_leased (stage : (s.threads SelfID).stage = .waiting)
    (leased : Leased ledger SelfID (s.threads SelfID).leaser) :
    ∃ thread, nextThread SelfID (s.threads SelfID) s.db = (thread,s.db) ∧ Backed ledger SelfID thread := by
  have bound : (s.threads SelfID).leaser.HasBound = true := by
    obtain ⟨_,_,_,_,held⟩ := leased
    rw [held]
    rfl
  have ran : exec (Stage.work SelfID .waiting) (s.db,(s.threads SelfID).leaser) =
      (.ok .waiting,(s.db,(s.threads SelfID).leaser)) := by
    rw [Stage.work,exec_get_bind,if_pos bound]
    rfl
  rw [← stage] at ran
  refine ⟨_,nextThread_ok ran,?_⟩
  simp only [Backed,stage]
  exact .inr leased

theorem thread_scripted (holds : Invariant ledger s) {id : UInt32} (stage : (s.threads SelfID).stage = .scripted id) :
    ∃ thread, nextThread SelfID (s.threads SelfID) s.db = (thread,s.db) ∧ Backed ledger SelfID thread := by
  have backed := holds.backed SelfID
  simp only [Backed,stage] at backed
  obtain ⟨unset,data,member⟩ := backed
  obtain ⟨stored,_⟩ := holds.stored member
  have once := held_once holds.heldIds member
  have found := BoundClaims.getClaimedBound_spec _ stored once
  have ran : exec (Stage.work SelfID (.scripted id)) (s.db,(s.threads SelfID).leaser) =
      (.ok (.fetched (some ⟨id,SelfID,data⟩)),(s.db,(s.threads SelfID).leaser)) :=
    exec_bind_ok _ _ _ _ _ (exec_query found)
  rw [← stage] at ran
  exact ⟨_,nextThread_ok ran,unset,(id,data),member,rfl⟩

theorem thread_fetched (holds : Invariant ledger s) {BoundData : Option ClaimedBoundStruct}
    (stage : (s.threads SelfID).stage = .fetched BoundData) :
    ∃ thread, nextThread SelfID (s.threads SelfID) s.db = (thread,s.db) ∧ Backed ledger SelfID thread := by
  have backed := holds.backed SelfID
  simp only [Backed,stage] at backed
  obtain ⟨_,row,member,rfl⟩ := backed
  obtain ⟨stored,type⟩ := holds.stored member
  obtain ⟨shape,written⟩ := holds.held_row member
  have decoded := BoundClaims.decodeClaimed_spec row shape SelfID written stored type
  have ran : exec (Stage.work SelfID (.fetched (some ⟨row.1,SelfID,row.2⟩))) (s.db,(s.threads SelfID).leaser) =
      (.ok .assigned,(s.db,⟨some shape,some shape.ID⟩)) :=
    exec_bind_ok _ _ _ _ _ (exec_query decoded)
  rw [← stage] at ran
  refine ⟨_,nextThread_ok ran,row,shape,member,written,?_⟩
  rw [BoundClaims.written_id written]

theorem thread_assigned (holds : Invariant ledger s) (shard : SelfID.type = .eShard)
    (stage : (s.threads SelfID).stage = .assigned) :
    ∃ thread, nextThread SelfID (s.threads SelfID) s.db = (thread,s.db) ∧ Backed ledger SelfID thread := by
  have backed := holds.backed SelfID
  simp only [Backed,stage] at backed
  obtain ⟨row,shape,member,written,held⟩ := backed
  have looked := boundIDFromShard_spec (row,SelfID) (holds.stored member).1 member holds.owners shard
  have ran : exec (Stage.work SelfID .assigned) (s.db,(s.threads SelfID).leaser) =
      (.ok .waiting,(s.db,(s.threads SelfID).leaser)) := by
    rw [Stage.work,confirm,bind_assoc,exec_bind_ok _ _ _ _ _ (exec_query looked),held]
    simp only [bind_assoc,exec_get_bind]
    rw [exec_assert_bind,if_pos rfl]
    rfl
  rw [← stage] at ran
  exact ⟨_,nextThread_ok ran,.inr ⟨row,shape,member,written,held⟩⟩

end Threads

/-- A shard without a bound claims one; each other command of a tick only reads. -/
theorem invariant_shard {s : State} (holds : Invariant ledger s) (SelfID : NetworkIdentity)
    (shard : SelfID.type = .eShard) (supplied : Supplied s (.shard SelfID)) :
    ∃ after, Invariant after (next (.shard SelfID) s) := by
  have reads : (∃ thread, nextThread SelfID (s.threads SelfID) s.db = (thread,s.db) ∧ Backed ledger SelfID thread) →
      ∃ after, Invariant after (next (.shard SelfID) s) :=
    fun ⟨_,ran,backed⟩ => ⟨ledger,invariant_thread holds SelfID ran backed⟩
  have backed := holds.backed SelfID
  cases stage : (s.threads SelfID).stage with
  | waiting =>
    simp only [Backed,stage] at backed
    rcases backed with ⟨unset,absent⟩ | leased
    · have none : (s.threads SelfID).leaser.HasBound = false := by rw [HasBound,unset]; rfl
      exact ⟨_,invariant_script holds SelfID shard stage unset absent (supplied stage none)⟩
    · exact reads (thread_leased stage leased)
  | scripted id => exact reads (thread_scripted holds stage)
  | fetched BoundData => exact reads (thread_fetched holds stage)
  | assigned => exact reads (thread_assigned holds shard stage)
  | failed fault => simp only [Backed,stage] at backed

theorem invariant_compute {s : State} (holds : Invariant ledger s) (Heuristic : GridHeuristic) (iteration : Writers)
    (possible : Possible s (.compute Heuristic iteration)) (supplied : Supplied s (.compute Heuristic iteration)) :
    Invariant ledger (next (.compute Heuristic iteration) s) := by
  obtain ⟨idle,order,small⟩ := possible
  have before := holds.distinct
  have written := holds.written
  have typed := holds.reaches.typed
  rw [idle] at before written typed
  refine ⟨⟨holds.reaches.holds,fun some => typed (.inr (some.resolve_left id))⟩,?_,?_,holds.owners,holds.shards,
    holds.backed⟩
  · have ids : (iteration.map row).map (·.1) = iteration.map (·.1) := by
      rw [List.map_map]
      rfl
    have fresh : (iteration.map (·.1)).Nodup := (order.map _).nodup_iff.mpr Heuristic.SerializeBounds_distinct
    rw [unstored,List.nil_append] at before
    rw [List.map_append]
    change ((iteration.map row).map (·.1) ++ ledger.rows.map (·.1)).Nodup
    rw [ids]
    refine fresh.append before (fun id inside there => ?_)
    obtain ⟨w,member,rfl⟩ := List.mem_map.mp inside
    obtain ⟨notPending,notClaimed⟩ := supplied w member
    rw [BoundOwnership.mem_pendingIDs holds.reaches.holds] at notPending
    rw [BoundOwnership.mem_claimedIDs holds.reaches.holds] at notClaimed
    rw [Ledger.rows_ids] at there
    exact (List.mem_append.mp there).elim notPending notClaimed
  · intro r member
    rcases List.mem_append.mp member with fresh | there
    · obtain ⟨w,inside,rfl⟩ := List.mem_map.mp fresh
      exact BoundClaims.written_row Heuristic w (order.mem_iff.mp inside) (small w inside)
    · exact written r there

theorem reachable_invariant {s : State} (reached : leasing.ReachableWhile Supplied s) : ∃ ledger, Invariant ledger s := by
  apply reached.invariant (fun s => ∃ ledger, Invariant ledger s)
  · rintro ⟨db,_,_⟩ ⟨start,rfl,rfl⟩
    refine ⟨Ledger.empty,⟨BoundOwnership.holds_empty start,?_⟩,List.nodup_nil,?_,List.nodup_nil,?_,fun shard => ?_⟩
    · rintro (named | some)
      · exact named.elim
      · exact absurd rfl some
    · exact fun _ member => absurd member List.not_mem_nil
    · exact fun _ member => absurd member List.not_mem_nil
    · exact .inl ⟨rfl,List.not_mem_nil⟩
  · rintro s event _ ⟨ledger,holds⟩ supplied ⟨possible,rfl⟩
    cases event with
    | compute Heuristic iteration => exact ⟨ledger,invariant_compute holds Heuristic iteration possible supplied⟩
    | watchdog => exact invariant_watchdog holds
    | shard SelfID => exact invariant_shard holds SelfID possible supplied

theorem leased_of_hasBound {s : State} (holds : Invariant ledger s) {shard : NetworkIdentity}
    (has : (s.threads shard).leaser.HasBound) : Leased ledger shard (s.threads shard).leaser := by
  have backed := holds.backed shard
  unfold Backed at backed
  split at backed
  · rcases backed with ⟨unset,_⟩ | leased
    · simp [HasBound,unset] at has
    · exact leased
  · simp [HasBound,backed.1] at has
  · simp [HasBound,backed.1] at has
  · exact backed
  · exact backed.elim

theorem agrees_of_invariant {s : State} (holds : Invariant ledger s) : Agrees s := by
  refine ⟨fun shard fault stopped => ?_,fun shard has => ?_⟩
  · have backed := holds.backed shard
    simp only [Backed,stopped] at backed
  · obtain ⟨row,shape,member,written,held⟩ := leased_of_hasBound holds has
    have id := BoundClaims.written_id written
    have stored := (holds.stored member).1
    refine ⟨shape,?_,?_,?_,?_,?_⟩
    · rw [held]
      rfl
    · rw [held,id]
    · rw [boundIDFromShard_spec (row,shard) stored member holds.owners (holds.shards _ member),id]
    · rw [id,shardFromBoundID_spec (row,shard) stored member holds.heldIds]
    · intro other different bound got same
      have otherHas : (s.threads other).leaser.HasBound := by
        unfold GetBound at got
        split at got
        · rename_i some
          rw [HasBound,some]
          rfl
        · cases got
      obtain ⟨row',shape',member',written',held'⟩ := leased_of_hasBound holds otherHas
      rw [held'] at got
      obtain rfl : shape' = bound := Except.ok.inj got
      rw [id,BoundClaims.written_id written'] at same
      have one := List.inj_on_of_nodup_map holds.heldIds member' member same
      exact different (congrArg Prod.snd one)

end Runs

section Shortage

/-- A script that finds nothing pending ends its thread. -/
theorem script_stops {s : State} {ledger : Bounds} (holds : Holds s.db ledger) (SelfID : NetworkIdentity)
    (stage : (s.threads SelfID).stage = .waiting) (unset : (s.threads SelfID).leaser.HasBound = false)
    (none : elements s.db JSONPendingEntry = []) :
    ∃ fault, ((next (.shard SelfID) s).threads SelfID).stage = .failed fault := by
  have stops (fault : Fault) (reached : Database × BoundLeaser)
      (ran : exec (Stage.work SelfID .waiting) (s.db,(s.threads SelfID).leaser) = (.error fault,reached)) :
      ∃ fault, ((next (.shard SelfID) s).threads SelfID).stage = .failed fault := by
    rw [← stage] at ran
    exact ⟨fault,by simp only [next,nextThread,ran,Function.update_self]⟩
  have begins (reply : Except Fault (Option BoundsID)) (db : Database) (ran : exec (claim SelfID) s.db = (reply,db))
      (missing : ∀ id, reply ≠ .ok (some id)) :
      ∃ fault, ((next (.shard SelfID) s).threads SelfID).stage = .failed fault := by
    have asked : exec (query (claim SelfID)) (s.db,(s.threads SelfID).leaser) =
        (reply,(db,(s.threads SelfID).leaser)) := by
      rw [query,exec_zoom,ran]
    have free : ¬ (s.threads SelfID).leaser.HasBound = true := by simp [unset]
    rcases reply with fault | (_ | id)
    · apply stops fault (db,(s.threads SelfID).leaser)
      rw [Stage.work,exec_get_bind,if_neg free,exec_bind_error _ _ _ _ _ asked]
    · apply stops (.assertion "ClaimNextPendingBound returned null")
        (db,{(s.threads SelfID).leaser with ClaimedBound := .none})
      rw [Stage.work,exec_get_bind,if_neg free,exec_bind_ok _ _ _ _ _ asked]
      rfl
    · exact absurd rfl (missing id)
  rcases holds with stored | ⟨absent,_⟩
  · obtain ⟨after,ran,_⟩ := claim_spec SelfID stored
    rw [elements_pending stored] at none
    simp only [List.map_eq_nil_iff.mp none] at ran
    refine begins _ after ran (fun id same => ?_)
    split at same <;> cases same
  · exact begins _ _ (BoundOwnership.claim_absent SelfID absent) (fun id same => by cases same)

/-- The leasers and the ledger agree in every run that is supplied, and from there the
next step of a shard keeps them so exactly when it is supplied. -/
theorem leasers_agree (s : State) (reached : leasing.ReachableWhile Supplied s) :
    Agrees s ∧ ∀ SelfID, SelfID.type = .eShard → (Agrees (next (.shard SelfID) s) ↔ Supplied s (.shard SelfID)) := by
  obtain ⟨ledger,holds⟩ := reachable_invariant reached
  refine ⟨agrees_of_invariant holds,fun SelfID shard => ⟨fun agrees stage unset none => ?_,fun supplied => ?_⟩⟩
  · obtain ⟨fault,stopped⟩ := script_stops holds.reaches.holds SelfID stage unset none
    exact agrees.running SelfID fault stopped
  · obtain ⟨after,kept⟩ := invariant_shard holds SelfID shard supplied
    exact agrees_of_invariant kept

def after (events : List Event) (s : State) : State := events.foldl (fun s event => next event s) s

def SuppliedAll (s : State) : List Event → Prop
  | [] => True
  | event::events => Supplied s event ∧ SuppliedAll (next event s) events

instance decidableSuppliedAll (s : State) : (events : List Event) → Decidable (SuppliedAll s events)
  | [] => inferInstanceAs (Decidable True)
  | event::events => @instDecidableAnd _ _ _ (decidableSuppliedAll (next event s) events)

theorem reachable_after (events : List Event) {s : State} (reached : leasing.ReachableWhile Supplied s)
    (possible : ∀ event ∈ events, ∀ s, Possible s event) (supplied : SuppliedAll s events) :
    leasing.ReachableWhile Supplied (after events s) := by
  induction events generalizing s with
  | nil => exact reached
  | cons event events ih =>
    have taken := reached.step s event (next event s) supplied.1 ⟨possible event (by simp) s,rfl⟩
    exact ih taken (fun e member => possible e (by simp [member])) supplied.2

def shard : NetworkIdentity := .MakeIDShard .nil

def nobody : State := {db := BoundOwnership.nothing}

def gridPass : Event := .compute (GridHeuristic.Compute {}) (GridHeuristic.Compute {}).SerializeBounds

def computing : State := next gridPass nobody

theorem reachable_computing : leasing.ReachableWhile Supplied computing := by
  have start : leasing.ReachableWhile Supplied nobody := .initial _ ⟨BoundOwnership.nothing_empty,rfl,rfl⟩
  exact start.step nobody gridPass computing (by decide +kernel) ⟨⟨rfl,List.Perm.refl _,by decide +kernel⟩,rfl⟩

def leasingEvents : List Event := List.replicate 8 .watchdog ++ List.replicate 4 (.shard shard)

/-- The watchdog stores a first bound, and a shard leases it. -/
theorem leasers_agree_leased :
    ((after leasingEvents computing).threads shard).leaser.HasBound ∧ Agrees (after leasingEvents computing) := by
  have possible : ∀ event ∈ leasingEvents, ∀ s, Possible s event := by
    simp [leasingEvents,Possible,shard,NetworkIdentity.MakeIDShard]
  have supplied : SuppliedAll computing leasingEvents := by decide +kernel
  exact ⟨by decide +kernel,(leasers_agree _ (reachable_after leasingEvents reachable_computing possible supplied)).1⟩

/-- A tick between the making of the pending array and the first bound in it fails an assertion. -/
theorem early_tick_fails : ¬ ∀ s, leasing.Reachable s → Agrees s := by
  intro always
  let ensured := after (List.replicate 6 .watchdog) computing
  have reached : leasing.ReachableWhile Supplied ensured :=
    reachable_after _ reachable_computing (by simp [Possible]) (by decide +kernel)
  have ticked : leasing.Reachable (next (.shard shard) ensured) :=
    .step ensured (Event.shard shard) _ reached.reachable trivial ⟨rfl,rfl⟩
  have failed : ((next (.shard shard) ensured).threads shard).stage =
      .failed (.assertion "ClaimNextPendingBound returned null") := by decide +kernel
  exact (always _ ticked).running shard _ failed

end Shortage

end AtlasNet.BoundLeases
