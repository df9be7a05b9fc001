import AtlasNet.WatchDog
import AtlasNet.Foundation.System

/-! Ownership of bounds over whole runs of passes, claims and failovers. Every step
of a run is a step of the ledger behind the document. -/
namespace AtlasNet.BoundOwnership
open Foundation Foundation.Program Foundation.Redis HeuristicManifest WatchDog

inductive Event
  | compute (Heuristic : GridHeuristic) (iteration : Writers)
  | claim (shard : NetworkIdentity)
  | failed (shard : NetworkIdentity) (key : Bytes)

def run : Event → Database → Database
  | .compute Heuristic iteration,db => (exec (ComputeHeuristic Heuristic iteration) db).2
  | .claim shard,db => (exec (ClaimNextPendingBound shard) db).2
  | .failed shard key,db => (exec (onHealthCheckFail shard key) db).2

/-- The writers of a pass may be iterated in any order. -/
def Possible : Event → Prop
  | .compute Heuristic iteration => iteration.Perm Heuristic.SerializeBounds
  | _ => True

structure EmptyStore (db : Database) : Prop where
  document : db.json JSONDataTable = none ∨ db.json JSONDataTable = some (.obj [])
  claims : db.hash ClaimedHashTableNID2BoundData = []

def ownership : System Database Event where
  Initial := EmptyStore
  Step db event next := Possible event ∧ next = run event db

def boundID (json : Json) : Option Int :=
  match json.member "ID" with
  | some (.num n) => some n
  | _ => none

def pendingIDs (db : Database) : List Int := (elements db JSONPendingEntry).filterMap boundID
def claimedIDs (db : Database) : List Int := (elements db JSONClaimedEntry).filterMap boundID

def ExclusiveOwnership (db : Database) : Prop := (pendingIDs db ++ claimedIDs db).Nodup

/-- What a pass stores is not claimed: the writers before the first one whose ID is
already pending have IDs that no shard holds. -/
def Unclaimed (db : Database) : Event → Prop
  | .compute _ iteration =>
    ∀ w ∈ iteration.takeWhile (fun w => decide ((w.1.toNat : Int) ∉ pendingIDs db)),
      (w.1.toNat : Int) ∉ claimedIDs db
  | _ => True

/-- The step of the ledger behind the document. -/
def advance : Event → Bounds → Bounds
  | .compute _ iteration,ledger => ledger.offerUntil (iteration.map row)
  | .claim shard,ledger => ledger.claim shard
  | .failed _ _,ledger => ledger

/-- Between two steps the document shows a ledger, and no hash table records a claim. -/
structure Consistent (db : Database) (ledger : Bounds) : Prop where
  holds : Holds db ledger
  claims : db.hash ClaimedHashTableNID2BoundData = []

section Ledgers
variable {db : Database} {ledger : Bounds}

theorem holds_empty (start : EmptyStore db) : Holds db Ledger.empty := by
  rcases start.document with absent | fresh
  · exact .inr ⟨absent,rfl⟩
  · refine .inl ⟨⟨[],fresh⟩,.inr ?_,.inr ?_⟩ <;> simp [entry,fresh,Ledger.empty,Entries.get]

theorem consistent_empty (start : EmptyStore db) : Consistent db Ledger.empty :=
  ⟨holds_empty start,start.claims⟩

theorem pendingIDs_holds (holds : Holds db ledger) :
    pendingIDs db = ledger.waitingIds.map (fun id => (id.toNat : Int)) := by
  rw [pendingIDs,(elements_held holds).1,List.filterMap_map,Ledger.waitingIds,List.map_map]
  exact congrFun List.filterMap_eq_map' _

theorem claimedIDs_holds (holds : Holds db ledger) :
    claimedIDs db = ledger.heldIds.map (fun id => (id.toNat : Int)) := by
  rw [claimedIDs,(elements_held holds).2,List.filterMap_map,Ledger.heldIds,List.map_map]
  exact congrFun List.filterMap_eq_map' _

theorem id_injective : Function.Injective (fun id : BoundsID => (id.toNat : Int)) :=
  fun _ _ same => UInt32.toNat_inj.mp (Int.natCast_inj.mp same)

theorem mem_pendingIDs (holds : Holds db ledger) (id : BoundsID) :
    (id.toNat : Int) ∈ pendingIDs db ↔ id ∈ ledger.waitingIds := by
  rw [pendingIDs_holds holds,List.mem_map_of_injective id_injective]

theorem mem_claimedIDs (holds : Holds db ledger) (id : BoundsID) :
    (id.toNat : Int) ∈ claimedIDs db ↔ id ∈ ledger.heldIds := by
  rw [claimedIDs_holds holds,List.mem_map_of_injective id_injective]

theorem exclusive_iff (holds : Holds db ledger) : ExclusiveOwnership db ↔ ledger.Exclusive := by
  rw [ExclusiveOwnership,pendingIDs_holds holds,claimedIDs_holds holds,← List.map_append,
    List.nodup_map_iff id_injective]
  rfl

theorem claim_absent (shard : NetworkIdentity) (absent : db.json JSONDataTable = none) :
    exec (HeuristicManifest.claim shard) db = (.error newAtRoot,db) := by
  have typed : exec (jsonTyped JSONDataTable [.field JSONClaimedEntry]) db = (.ok false,db) := by
    simp [jsonTyped,absent]
  have failed : exec (jsonSet JSONDataTable [.field JSONClaimedEntry] (.arr []) true) db =
      (.error newAtRoot,db) := by
    simp [jsonSet,absent]
  simp only [HeuristicManifest.claim]
  rw [exec_bind_ok _ _ _ _ _ (exec_owner64 shard db),claimScript,exec_bind_error _ _ db db newAtRoot]
  rw [exec_bind_ok _ _ _ _ _ typed,exec_bind_error _ _ _ _ _ failed]

theorem failed_spec (shard : NetworkIdentity) (key : Bytes)
    (unwritten : db.hash ClaimedHashTableNID2BoundData = []) :
    exec (onHealthCheckFail shard key) db = (.ok false,(exec (hdel HealthPingTable key) db).2) := by
  rw [onHealthCheckFail,exec_bind_ok _ _ _ _ _ (requeue_spec shard.ToString unwritten)]
  rfl

/-- Every step of a run is a step of the ledger. -/
theorem step_refines {event : Event} {next : Database} (before : Consistent db ledger)
    (taken : ownership.Step db event next) : Consistent next (advance event ledger) := by
  obtain ⟨possible,rfl⟩ := taken
  cases event with
  | compute Heuristic iteration =>
    obtain ⟨after,ran,stored,_,hash⟩ := computeHeuristic_spec Heuristic iteration possible before.holds
    simp only [run,ran]
    exact ⟨.inl stored,(congrFun hash _).trans before.claims⟩
  | claim shard =>
    simp only [run,claimNext_state]
    rcases before.holds with stored | ⟨absent,rfl⟩
    · obtain ⟨after,ran,moved,frame,_⟩ := claim_spec shard stored
      rw [ran]
      exact ⟨.inl moved,(congrFun frame.hash _).trans before.claims⟩
    · rw [claim_absent shard absent]
      exact ⟨.inr ⟨absent,rfl⟩,before.claims⟩
  | failed shard key =>
    simp only [run,failed_spec shard key before.claims]
    have same : (exec (hdel HealthPingTable key) db).2.json = db.json := rfl
    have different : ClaimedHashTableNID2BoundData ≠ HealthPingTable := by decide
    refine ⟨holds_congr same before.holds,?_⟩
    exact (withHash_other _ _ _ _ different).trans before.claims

theorem reachable_consistent {allowed : Database → Event → Prop} (reached : ownership.ReachableWhile allowed db) :
    ∃ ledger, Consistent db ledger :=
  reached.invariant (fun db => ∃ ledger, Consistent db ledger)
    (fun _ start => ⟨Ledger.empty,consistent_empty start⟩)
    (fun _ event _ ⟨ledger,before⟩ _ taken => ⟨advance event ledger,step_refines before taken⟩)

theorem unblocked_map (iteration : Writers) (holds : Holds db ledger) :
    Ledger.unblocked (iteration.map row) ledger =
      (iteration.takeWhile (fun w => decide ((w.1.toNat : Int) ∉ pendingIDs db))).map row := by
  rw [Ledger.unblocked,List.takeWhile_map]
  congr 2
  funext w
  simp only [Function.comp_apply,mem_pendingIDs holds]
  rfl

theorem step_exclusive {event : Event} {next : Database} (before : Consistent db ledger)
    (exclusive : ExclusiveOwnership db) (taken : ownership.Step db event next) :
    ExclusiveOwnership next ↔ Unclaimed db event := by
  rw [exclusive_iff (step_refines before taken).holds]
  have owned := (exclusive_iff before.holds).mp exclusive
  cases event with
  | compute Heuristic iteration =>
    have distinct : ((iteration.map row).map (·.1)).Nodup := by
      rw [List.map_map]
      exact (taken.1.map _).nodup_iff.mpr Heuristic.SerializeBounds_distinct
    simp only [advance,Unclaimed]
    rw [Ledger.offerUntil_exclusive _ distinct _ owned,unblocked_map iteration before.holds]
    simp only [List.forall_mem_map,mem_claimedIDs before.holds]
    rfl
  | claim shard => exact iff_of_true ((Ledger.claim_exclusive shard ledger).mpr owned) trivial
  | failed shard key => exact iff_of_true owned trivial

end Ledgers

section Runs

def after (events : List Event) (db : Database) : Database := events.foldl (fun db event => run event db) db

theorem reachable_after (events : List Event) (possible : ∀ event ∈ events, Possible event) {db : Database}
    (reached : ownership.Reachable db) : ownership.Reachable (after events db) := by
  induction events generalizing db with
  | nil => exact reached
  | cons event events ih =>
    have here := possible event (by simp)
    exact ih (fun e member => possible e (by simp [member])) (.step db event _ reached trivial ⟨here,rfl⟩)

theorem consistent_after (events : List Event) (possible : ∀ event ∈ events, Possible event) {db : Database}
    {ledger : Bounds} (before : Consistent db ledger) :
    Consistent (after events db) (events.foldl (fun ledger event => advance event ledger) ledger) := by
  induction events generalizing db ledger with
  | nil => exact before
  | cons event events ih =>
    have here := possible event (by simp)
    exact ih (fun e member => possible e (by simp [member])) (step_refines before ⟨here,rfl⟩)

def nothing : Database := ⟨fun _ => none,fun _ => [],fun _ => []⟩

theorem nothing_empty : EmptyStore nothing := ⟨.inl rfl,rfl⟩

def gridPass : Event := .compute (GridHeuristic.Compute {}) (GridHeuristic.Compute {}).SerializeBounds

def shard : NetworkIdentity := .MakeIDShard .nil

end Runs

section Exclusive

/-- In every run whose passes store nothing that is claimed, ownership is exclusive,
and the next step keeps it so exactly when it stores nothing that is claimed. -/
theorem exclusive_exactly (db : Database) (reached : ownership.ReachableWhile Unclaimed db) :
    ExclusiveOwnership db ∧
      ∀ event next, ownership.Step db event next → (ExclusiveOwnership next ↔ Unclaimed db event) := by
  have both : (∃ ledger, Consistent db ledger) ∧ ExclusiveOwnership db := by
    apply reached.invariant (fun db => (∃ ledger, Consistent db ledger) ∧ ExclusiveOwnership db)
    · intro db start
      have before := consistent_empty start
      exact ⟨⟨_,before⟩,(exclusive_iff before.holds).mpr List.nodup_nil⟩
    · rintro db event next ⟨⟨ledger,before⟩,exclusive⟩ unclaimed taken
      exact ⟨⟨_,step_refines before taken⟩,(step_exclusive before exclusive taken).mpr unclaimed⟩
  obtain ⟨⟨ledger,before⟩,exclusive⟩ := both
  exact ⟨exclusive,fun event next taken => step_exclusive before exclusive taken⟩

theorem exclusive_exactly_claimed :
    ExclusiveOwnership (after [gridPass,.claim shard,.failed shard []] nothing) := by
  have start : ownership.ReachableWhile Unclaimed nothing := .initial nothing nothing_empty
  have passed := start.step _ gridPass _ (by simp [gridPass,Unclaimed,claimedIDs,elements,entry,nothing])
    ⟨List.Perm.refl _,rfl⟩
  have claimed := passed.step _ (Event.claim shard) _ trivial ⟨trivial,rfl⟩
  have failed := claimed.step _ (Event.failed shard []) _ trivial ⟨trivial,rfl⟩
  exact (exclusive_exactly _ failed).1

/-- A pass behind four claims makes every claimed bound pending again. -/
theorem recompute_duplicates : ¬ ∀ db, ownership.Reachable db → ExclusiveOwnership db := by
  intro always
  let events := [gridPass,.claim shard,.claim shard,.claim shard,.claim shard,gridPass]
  have possible : ∀ event ∈ events, Possible event := by
    simp [events,Possible,gridPass]
  have reached := reachable_after events possible (.initial nothing nothing_empty)
  have shown := consistent_after events possible (consistent_empty nothing_empty)
  have twice : ¬ (events.foldl (fun ledger event => advance event ledger) Ledger.empty).Exclusive := by decide
  exact twice ((exclusive_iff shown.holds).mp (always _ reached))

end Exclusive

section Failover

def ownedBy (shard : NetworkIdentity) (json : Json) : Bool :=
  match json.member "Owner64" with
  | some (.str text) => text == owner64 shard
  | _ => false

def SameBound (a b : Json) : Prop :=
  a.member "ID" = b.member "ID" ∧ a.member "BoundsData64" = b.member "BoundsData64"

/-- A failover gives back what the shard owns and changes nothing else. -/
def FailoverReturns (db : Database) (shard : NetworkIdentity) (key : Bytes) : Prop :=
  let result := exec (onHealthCheckFail shard key) db
  let owned := (elements db JSONClaimedEntry).filter (ownedBy shard)
  (owned ≠ [] →
    result.1 = .ok true ∧
    elements result.2 JSONClaimedEntry = (elements db JSONClaimedEntry).filter (fun json => !ownedBy shard json) ∧
    ∃ returned, List.Forall₂ SameBound returned owned ∧
      (elements result.2 JSONPendingEntry).Perm (elements db JSONPendingEntry ++ returned)) ∧
  (owned = [] →
    result.1 = .ok false ∧ result.2.json = db.json ∧
    ∀ table, table ≠ HealthPingTable → result.2.hash table = db.hash table)

theorem failover_iff {db : Database} {ledger : Bounds} (before : Consistent db ledger) (shard : NetworkIdentity)
    (key : Bytes) :
    FailoverReturns db shard key ↔ ∀ json ∈ elements db JSONClaimedEntry, ownedBy shard json = false := by
  have owned : (elements db JSONClaimedEntry).filter (ownedBy shard) = [] ↔
      ∀ json ∈ elements db JSONClaimedEntry, ownedBy shard json = false := by
    simp
  rw [FailoverReturns,failed_spec shard key before.claims,← owned]
  constructor
  · rintro ⟨moves,_⟩
    by_contra owns
    cases (moves owns).1
  · intro none
    refine ⟨fun owns => absurd none owns,fun _ => ⟨rfl,rfl,fun table other => ?_⟩⟩
    exact Function.update_of_ne other _ _

/-- A failover does what it is for exactly when the failed shard owns nothing. -/
theorem failover_exactly (db : Database) (reached : ownership.Reachable db) (shard : NetworkIdentity) (key : Bytes) :
    FailoverReturns db shard key ↔ ∀ json ∈ elements db JSONClaimedEntry, ownedBy shard json = false := by
  obtain ⟨ledger,before⟩ := reachable_consistent reached
  exact failover_iff before shard key

theorem failover_exactly_unclaimed : FailoverReturns (after [gridPass] nothing) shard [] := by
  have possible : ∀ event ∈ [gridPass], Possible event := by simp [Possible,gridPass]
  have reached := reachable_after [gridPass] possible (.initial nothing nothing_empty)
  have shown := consistent_after [gridPass] possible (consistent_empty nothing_empty)
  apply (failover_exactly _ reached shard []).mpr
  have free : ([gridPass].foldl (fun ledger event => advance event ledger) Ledger.empty).held = [] := rfl
  rw [(elements_held shown.holds).2,free]
  exact fun _ member => absurd member List.not_mem_nil

/-- The shard that claimed the first bound fails, and the bound stays claimed. -/
theorem failover_keeps_bound : ¬ ∀ db, ownership.Reachable db → ∀ shard key, FailoverReturns db shard key := by
  intro always
  let events := [gridPass,.claim shard]
  have possible : ∀ event ∈ events, Possible event := by simp [events,Possible,gridPass]
  have reached := reachable_after events possible (.initial nothing nothing_empty)
  have shown := consistent_after events possible (consistent_empty nothing_empty)
  have returns := (failover_iff shown shard []).mp (always _ reached shard [])
  rw [(elements_held shown.holds).2] at returns
  have owner : (events.foldl (fun ledger event => advance event ledger) Ledger.empty).held.map (·.2) = [shard] := rfl
  obtain ⟨held,member,same⟩ := List.mem_map.mp (owner ▸ List.mem_singleton_self shard)
  have owned := returns _ (List.mem_map_of_mem member)
  simp [ownedBy,claimedJson,ClaimedBoundStruct.to_json,Entries.get,same] at owned

end Failover

section Refresh

/-- A pass returns, every bound of the heuristic is stored behind it, and what was
stored is still there. -/
def RefreshCompletes (db : Database) (Heuristic : GridHeuristic) (iteration : Writers) : Prop :=
  let result := exec (ComputeHeuristic Heuristic iteration) db
  result.1 = .ok () ∧
  (∀ w ∈ Heuristic.SerializeBounds, (w.1.toNat : Int) ∈ pendingIDs result.2 ++ claimedIDs result.2) ∧
  elements db JSONPendingEntry <+: elements result.2 JSONPendingEntry ∧
  elements db JSONClaimedEntry <+: elements result.2 JSONClaimedEntry

theorem refresh_iff {db : Database} {ledger : Bounds} {Heuristic : GridHeuristic} {iteration : Writers}
    (holds : Holds db ledger) (order : iteration.Perm Heuristic.SerializeBounds) :
    RefreshCompletes db Heuristic iteration ↔
      ∀ w ∈ Heuristic.SerializeBounds, (w.1.toNat : Int) ∉ pendingIDs db := by
  obtain ⟨next,ran,stored,_⟩ := computeHeuristic_spec Heuristic iteration order holds
  simp only [RefreshCompletes,ran,mem_pendingIDs holds]
  constructor
  · rintro ⟨returned,_⟩
    by_contra blocked
    rw [if_neg blocked] at returned
    cases returned
  · intro free
    have distinct : ((iteration.map row).map (·.1)).Nodup := by
      rw [List.map_map]
      exact (order.map _).nodup_iff.mpr Heuristic.SerializeBounds_distinct
    have all : Ledger.unblocked (iteration.map row) ledger = iteration.map row := by
      apply List.takeWhile_eq_self_iff.mpr
      intro r member
      obtain ⟨w,inside,rfl⟩ := List.mem_map.mp member
      exact decide_eq_true (free w (order.mem_iff.mp inside))
    rw [Ledger.offerUntil_waiting _ distinct,all] at stored
    refine ⟨if_pos free,fun w member => ?_,?_,?_⟩
    · apply List.mem_append_left
      rw [mem_pendingIDs (.inl stored)]
      have offered : (row w).1 ∈ (iteration.map row).map (·.1) :=
        List.mem_map_of_mem (List.mem_map_of_mem (order.mem_iff.mpr member))
      simp only [Ledger.waitingIds,List.map_append]
      exact List.mem_append_right _ offered
    · rw [(elements_held holds).1,elements_pending stored,List.map_append]
      exact List.prefix_append _ _
    · rw [(elements_held holds).2,elements_claimed stored]

/-- A pass completes any partial store exactly when none of its bounds is pending. -/
theorem refresh_exactly (db : Database) (ledger : Bounds) (holds : Holds db ledger) (Heuristic : GridHeuristic)
    (iteration : Writers) (order : iteration.Perm Heuristic.SerializeBounds) :
    RefreshCompletes db Heuristic iteration ↔
      ∀ w ∈ Heuristic.SerializeBounds, (w.1.toNat : Int) ∉ pendingIDs db :=
  refresh_iff holds order

theorem refresh_exactly_claimed :
    RefreshCompletes (after [gridPass,.claim shard,.claim shard,.claim shard,.claim shard] nothing)
      (GridHeuristic.Compute {}) (GridHeuristic.Compute {}).SerializeBounds := by
  have shown := consistent_after [gridPass,.claim shard,.claim shard,.claim shard,.claim shard]
    (by simp [Possible,gridPass]) (consistent_empty nothing_empty)
  apply (refresh_exactly _ _ shown.holds _ _ (List.Perm.refl _)).mpr
  intro w _
  have none : ([gridPass,.claim shard,.claim shard,.claim shard,.claim shard].foldl
    (fun ledger event => advance event ledger) Ledger.empty).waitingIds = [] := by decide
  rw [pendingIDs_holds shown.holds,none]
  exact List.not_mem_nil

/-- A second pass over the complete store ends in the assertion. -/
theorem refresh_stops : ¬ ∀ db ledger, Holds db ledger → ∀ (Heuristic : GridHeuristic) (iteration : Writers),
    iteration.Perm Heuristic.SerializeBounds → RefreshCompletes db Heuristic iteration := by
  intro always
  have shown := consistent_after [gridPass] (by simp [Possible,gridPass]) (consistent_empty nothing_empty)
  have order := List.Perm.refl (GridHeuristic.Compute {}).SerializeBounds
  have free := (refresh_iff shown.holds order).mp (always _ _ shown.holds _ _ order)
  have waits : ∃ w ∈ (GridHeuristic.Compute {}).SerializeBounds, w.1 ∈
      ([gridPass].foldl (fun ledger event => advance event ledger) Ledger.empty).waitingIds := by decide
  obtain ⟨w,member,waiting⟩ := waits
  exact free w member ((mem_pendingIDs shown.holds w.1).mpr waiting)

end Refresh

end AtlasNet.BoundOwnership
