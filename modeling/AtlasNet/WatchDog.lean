import AtlasNet.ManifestStore

/-! The watchdog's pass over the manifest and its reaction to a failed shard. -/
namespace AtlasNet
open Foundation Foundation.Program Foundation.Redis HeuristicManifest

namespace WatchDog

/-- The guard of the refresh, with the order in which the map of writers is iterated. -/
def refreshPending (total_known expected : Int) (iteration : Writers) : Command Unit :=
  if total_known < expected then StorePendingBoundsFromByteWriters iteration else pure ()

def retrievePending : Command Unit := do
  let brs ← GetPendingBoundsAsByteReaders
  forM brs fun (_,bound_reader) => do
    let _ ← within GridShape.Deserialize bound_reader
    pure ()

/-- `ComputeHeuristic` behind `Heuristic->Compute`, for the quads that left. -/
def ComputeHeuristic (Heuristic : GridHeuristic) (iteration : Writers) : Command Unit := do
  PushHeuristic Heuristic
  let pending_count ← GetPendingBoundsCount
  let claimed_count ← GetClaimedBoundsCount
  refreshPending (pending_count+claimed_count) Heuristic.SerializeBounds.length iteration
  retrievePending

def HealthPingTable : String := "Health_Ping"

/-- The handler `Init` gives to `ScheduleHealthChecks`. -/
def onHealthCheckFail (ID_fail : NetworkIdentity) (key : Bytes) : Command Bool := do
  let requeued ← RequeueClaimedBound ID_fail.ToString
  hdel HealthPingTable key
  pure requeued

end WatchDog

namespace HeuristicManifest
variable {db : Database} {ledger : Bounds}

/-- The ledger of a store whose document may not have been made yet. -/
def Holds (db : Database) (ledger : Bounds) : Prop :=
  Stored db ledger ∨ db.json JSONDataTable = none ∧ ledger = Ledger.empty

theorem holds_congr {next : Database} (same : next.json = db.json) (holds : Holds db ledger) : Holds next ledger := by
  have entries (name : String) : entry next name = entry db name := by rw [entry,entry,same]
  rcases holds with stored | ⟨absent,none⟩
  · refine .inl ⟨same ▸ stored.document,?_,?_⟩
    · rw [entries]
      exact stored.pending
    · rw [entries]
      exact stored.claimed
  · exact .inr ⟨same ▸ absent,none⟩

theorem elements_held (holds : Holds db ledger) :
    elements db JSONPendingEntry = ledger.waiting.map pendingJson ∧
      elements db JSONClaimedEntry = ledger.held.map claimedJson := by
  rcases holds with stored | ⟨absent,rfl⟩
  · exact ⟨elements_pending stored,elements_claimed stored⟩
  · simp [elements,entry,absent,Ledger.empty]

section Readers

theorem objectEntry_shown {fields : Json.Fields} {name : String} {items : List Json}
    (shown : Shown (Entries.get name fields) items) : objectEntry name (some (.obj fields)) = none := by
  rcases shown with present | ⟨absent,_⟩
  · simp [objectEntry,present]
  · simp [objectEntry,absent]

/-- The readers look for objects where the writers keep arrays. -/
theorem readManifest_none (holds : Holds db ledger) :
    ∃ payload, exec readManifest db = (.ok payload,db) ∧ objectEntry JSONPendingEntry payload = none ∧
      objectEntry JSONClaimedEntry payload = none := by
  rcases holds with stored | ⟨absent,_⟩
  · obtain ⟨fields,here,pending,claimed⟩ := stored.opened
    refine ⟨some (.obj fields),?_,objectEntry_shown pending,objectEntry_shown claimed⟩
    simp [readManifest,jsonGet,here,Json.get,ParseRedisJsonPayload]
  · refine ⟨none,?_,rfl,rfl⟩
    simp [readManifest,jsonGet,absent,ParseRedisJsonPayload]

theorem pendingCount_zero (holds : Holds db ledger) : exec GetPendingBoundsCount db = (.ok 0,db) := by
  obtain ⟨payload,ran,pending,_⟩ := readManifest_none holds
  rw [GetPendingBoundsCount,boundsCount,exec_bind_ok _ _ _ _ _ ran,pending]
  rfl

theorem claimedCount_zero (holds : Holds db ledger) : exec GetClaimedBoundsCount db = (.ok 0,db) := by
  obtain ⟨payload,ran,_,claimed⟩ := readManifest_none holds
  rw [GetClaimedBoundsCount,boundsCount,exec_bind_ok _ _ _ _ _ ran,claimed]
  rfl

theorem pendingReaders_none (holds : Holds db ledger) : exec GetPendingBoundsAsByteReaders db = (.ok [],db) := by
  obtain ⟨payload,ran,pending,_⟩ := readManifest_none holds
  rw [GetPendingBoundsAsByteReaders,exec_bind_ok _ _ _ _ _ ran,pending]
  rfl

theorem claimedReaders_none (holds : Holds db ledger) : exec GetClaimedBoundsAsByteReaders db = (.ok [],db) := by
  obtain ⟨payload,ran,_,claimed⟩ := readManifest_none holds
  rw [GetClaimedBoundsAsByteReaders,exec_bind_ok _ _ _ _ _ ran,claimed]
  rfl

end Readers

section Passes

def row (written : BoundsID × ByteWriter) : BoundsID × String :=
  (written.1,String.ofList (Base64.encode written.2.buf))

theorem exec_base64 {σ : Type} (bw : ByteWriter) (some : bw.buf ≠ []) (state : σ) :
    exec (bw.as_string_base_64 : Program σ String) state = (.ok (String.ofList (Base64.encode bw.buf)),state) := by
  have written := List.length_pos_iff.mpr (Base64.encode_nonempty _ some)
  simp only [ByteWriter.as_string_base_64]
  rw [exec_assert_bind,if_pos written,exec_pure]

/-- The stores go on up to the first ID that already waits, and fail there. -/
theorem storePending_spec (writers : Writers) (written : ∀ w ∈ writers, w.2.buf ≠ [])
    (distinct : (writers.map (·.1)).Nodup) (stored : Stored db ledger) :
    ∃ next, exec (StorePendingBoundsFromByteWriters writers) db =
        ((if ∀ w ∈ writers, w.1 ∉ ledger.waitingIds then .ok ()
          else .error (.assertion "This should never happen")),next) ∧
      Stored next (Ledger.offerUntil (writers.map row) ledger) ∧ Frame db next := by
  induction writers generalizing db ledger with
  | nil => exact ⟨db,by simp [StorePendingBoundsFromByteWriters],stored,Frame.refl db⟩
  | cons w rest ih =>
    have apart := List.nodup_cons.mp distinct
    obtain ⟨middle,ran,after,frame⟩ := insertPending_spec ⟨w.1,(row w).2⟩ stored
    have body : exec ((fun w : BoundsID × ByteWriter => do
        let BoundsDataBase64 ← w.2.as_string_base_64
        Internal_InsertPendingBound ⟨w.1,BoundsDataBase64⟩) w) db =
        ((if w.1 ∈ ledger.waitingIds then .error (.assertion "This should never happen") else .ok ()),middle) := by
      rw [exec_bind_ok _ _ _ _ _ (exec_base64 w.2 (written w (by simp)) db)]
      exact ran
    unfold StorePendingBoundsFromByteWriters
    rw [exec_forM_cons,List.map_cons]
    by_cases waits : w.1 ∈ ledger.waitingIds
    · rw [if_pos waits] at body after
      rw [Ledger.offerUntil_blocked _ _ _ waits]
      refine ⟨middle,?_,after,frame⟩
      rw [exec_bind_error _ _ _ _ _ body,if_neg (fun free => free w (by simp) waits)]
    · rw [if_neg waits] at body after
      rw [Ledger.offerUntil_next _ _ _ waits]
      obtain ⟨next,rested,offered,frames⟩ := ih (fun o member => written o (by simp [member])) apart.2 after
      refine ⟨next,?_,offered,frame.trans frames⟩
      have same : (∀ o ∈ rest, o.1 ∉ (ledger.offer (w.1,(row w).2)).waitingIds) ↔
          ∀ o ∈ w::rest, o.1 ∉ ledger.waitingIds := by
        have different : ∀ o ∈ rest, o.1 ≠ w.1 :=
          fun o member equal => apart.1 (List.mem_map.mpr ⟨o,member,equal⟩)
        simp only [Ledger.offer,Ledger.waitingIds,List.map_append,List.mem_append,List.map_cons,List.map_nil,
          List.mem_cons,List.not_mem_nil,or_false,not_or,forall_eq_or_imp]
        constructor
        · exact fun free => ⟨waits,fun o member => (free o member).1⟩
        · exact fun free o member => ⟨free.2 o member,different o member⟩
      rw [exec_bind_ok _ _ _ _ _ body]
      simp only [← same]
      exact rested

theorem holds_tabled (holds : Holds db ledger) : Tabled db := by
  rcases holds with stored | ⟨absent,_⟩
  · exact stored.tabled
  · exact .inl absent

theorem ensureTable_spec (tabled : Tabled db) :
    ∃ fields, exec Internal_EnsureJsonTable db = (.ok (),db.withJson JSONDataTable (.obj fields)) ∧
      ∀ name, Entries.get name fields = entry db name := by
  rcases tabled with absent | ⟨fields,here⟩
  · refine ⟨[],?_,fun name => by simp [entry,absent,Entries.get]⟩
    simp [Internal_EnsureJsonTable,jsonSet,absent]
  · refine ⟨fields,?_,fun name => (entry_fields here name).symm⟩
    rw [withJson_self here]
    simp [Internal_EnsureJsonTable,jsonSet,here,Json.get]

theorem holds_shown (holds : Holds db ledger) :
    Shown (entry db JSONPendingEntry) (ledger.waiting.map pendingJson) ∧
      Shown (entry db JSONClaimedEntry) (ledger.held.map claimedJson) := by
  rcases holds with stored | ⟨absent,rfl⟩
  · exact ⟨stored.pending,stored.claimed⟩
  · simp [Shown,entry,absent,Ledger.empty]

/-- A push writes the type and the data of the heuristic, and nothing else of the document. -/
theorem pushHeuristic_tabled (h : GridHeuristic) (tabled : Tabled db) :
    ∃ fields, exec (PushHeuristic h) db = (.ok (),db.withJson JSONDataTable (.obj fields)) ∧
      Pushed (db.withJson JSONDataTable (.obj fields)) h ∧
      ∀ name, name ≠ JSONHeuristicTypeEntry → name ≠ JSONHeuristicData64Entry → Entries.get name fields = entry db name := by
  obtain ⟨fields,ensured,same⟩ := ensureTable_spec tabled
  obtain ⟨first,typed,type,others1⟩ := setField_spec JSONHeuristicTypeEntry (.str h.GetType.TypeToString)
    (withJson_json db JSONDataTable (.obj fields))
  obtain ⟨second,pushed,data,others2⟩ := setField_spec JSONHeuristicData64Entry
    (.str (String.ofList (Base64.encode (h.Serialize {}).buf))) (withJson_json _ JSONDataTable (.obj first))
  rw [withJson_twice] at typed
  refine ⟨second,?_,⟨?_,?_⟩,fun name notType notData => by rw [others2 name notData,others1 name notType,same]⟩
  · unfold PushHeuristic Internal_SetActiveHeuristicType
    rw [exec_bind_ok _ _ _ _ _ ((exec_bind_ok _ _ _ _ _ ensured).trans typed),
      exec_bind_ok _ _ _ _ _ (exec_base64 _ h.Serialize_nonempty _),pushed,withJson_twice]
  · rw [entry_withJson,others2 _ (by decide),type]
    rfl
  · rw [entry_withJson,data]

theorem pushHeuristic_spec (h : GridHeuristic) (holds : Holds db ledger) :
    ∃ next, exec (PushHeuristic h) db = (.ok (),next) ∧ Stored next ledger ∧ Pushed next h ∧ next.hash = db.hash := by
  obtain ⟨fields,ran,pushed,kept⟩ := pushHeuristic_tabled h (holds_tabled holds)
  refine ⟨_,ran,⟨⟨fields,withJson_json _ _ _⟩,?_,?_⟩,pushed,withJson_hash _ _ _⟩
  · rw [entry_withJson,kept _ (by decide) (by decide)]
    exact (holds_shown holds).1
  · rw [entry_withJson,kept _ (by decide) (by decide)]
    exact (holds_shown holds).2

/-- A pass offers every bound of the heuristic, whatever is stored: both counts are
zero. It fails at the first bound that already waits. -/
theorem computeHeuristic_spec (h : GridHeuristic) (iteration : Writers)
    (order : iteration.Perm h.SerializeBounds) (holds : Holds db ledger) :
    ∃ next, exec (WatchDog.ComputeHeuristic h iteration) db =
        ((if ∀ w ∈ h.SerializeBounds, w.1 ∉ ledger.waitingIds then .ok ()
          else .error (.assertion "This should never happen")),next) ∧
      Stored next (Ledger.offerUntil (iteration.map row) ledger) ∧
      entry next JSONHeuristicTypeEntry = some (.str "GridCell") ∧ next.hash = db.hash := by
  obtain ⟨pushed,ran,stored,typed,hash⟩ := pushHeuristic_spec h holds
  have written : ∀ w ∈ iteration, w.2.buf ≠ [] := fun w member =>
    h.SerializeBounds_nonempty w (order.mem_iff.mp member)
  have distinct : (iteration.map (·.1)).Nodup := (order.map _).nodup_iff.mpr h.SerializeBounds_distinct
  obtain ⟨next,offered,after,frame⟩ := storePending_spec iteration written distinct stored
  have free : (∀ w ∈ h.SerializeBounds, w.1 ∉ ledger.waitingIds) ↔ ∀ w ∈ iteration, w.1 ∉ ledger.waitingIds := by
    simp only [order.mem_iff]
  have refreshed : exec (WatchDog.refreshPending (0+0) h.SerializeBounds.length iteration) pushed =
      ((if ∀ w ∈ h.SerializeBounds, w.1 ∉ ledger.waitingIds then .ok ()
        else .error (.assertion "This should never happen")),next) := by
    rw [WatchDog.refreshPending]
    by_cases some : (0+0 : Int) < h.SerializeBounds.length
    · rw [if_pos some,offered]
      simp only [free]
    · have none : iteration = [] := List.length_eq_zero_iff.mp (by have := order.length_eq; omega)
      subst none
      rw [if_neg some,if_pos (free.mpr (fun _ member => absurd member List.not_mem_nil)),exec_pure]
      exact congrArg _ (congrArg Prod.snd offered)
  refine ⟨next,?_,after,(frame.entries _ (by decide) (by decide)).trans typed.type,frame.hash.trans hash⟩
  unfold WatchDog.ComputeHeuristic
  rw [exec_bind_ok _ _ _ _ _ ran,exec_bind_ok _ _ _ _ _ (pendingCount_zero (.inl stored)),
    exec_bind_ok _ _ _ _ _ (claimedCount_zero (.inl stored)),exec_bind,refreshed]
  by_cases fresh : ∀ w ∈ h.SerializeBounds, w.1 ∉ ledger.waitingIds
  · simp only [if_pos fresh]
    rw [WatchDog.retrievePending,exec_bind_ok _ _ _ _ _ (pendingReaders_none (.inl after))]
    rfl
  · simp only [if_neg fresh]

/-- The hash that a requeue looks into is written by nobody. -/
theorem requeue_spec (claim_key : String)
    (unwritten : db.hash ClaimedHashTableNID2BoundData = []) :
    exec (RequeueClaimedBound claim_key) db = (.ok false,db) := by
  have missing : exec (hget ClaimedHashTableNID2BoundData (keyBytes claim_key)) db = (.ok none,db) := by
    simp [hget,exec_map,Except.map,unwritten,Entries.get]
  rw [RequeueClaimedBound,exec_bind_ok _ _ _ _ _ missing]
  rfl

end Passes

end HeuristicManifest

end AtlasNet
