import AtlasNet.BoundOwnership

/-! What the manifest's readers return over every document its writers produce. -/
namespace AtlasNet.ManifestReaders
open Foundation Foundation.Program Foundation.Redis HeuristicManifest BoundOwnership

inductive Write
  | insertPending (p : PendingBoundStruct)
  | insertClaimed (c : ClaimedBoundStruct)
  | claim (shard : NetworkIdentity)

def apply : Write → Database → Database
  | .insertPending p,db => (exec (Internal_InsertPendingBound p) db).2
  | .insertClaimed c,db => (exec (Internal_InsertClaimedBound c) db).2
  | .claim shard,db => (exec (ClaimNextPendingBound shard) db).2

def writing : System Database Write where
  Initial db := Holds db Ledger.empty
  Step db write next := next = apply write db

def ownerText (json : Json) : Option String :=
  match json.member "Owner64" with
  | some (.str text) => some text
  | _ => none

def bytesOf (data : String) : Bytes := Base64.decode data.toList

/-- The readers return the entries of the two arrays: their numbers, a reader over
the data of each pending bound, and each owner's bound with a reader over its data. -/
structure ReadersAgree (db : Database) : Prop where
  pendingCount : (exec GetPendingBoundsCount db).1 = .ok (elements db JSONPendingEntry).length
  claimedCount : (exec GetClaimedBoundsCount db).1 = .ok (elements db JSONClaimedEntry).length
  pending : ∃ brs, (exec GetPendingBoundsAsByteReaders db).1 = .ok brs ∧
    (brs.map (fun br => some (br.1,br.2.p))).Perm
      ((elements db JSONPendingEntry).map fun json => (boundOf json).map fun s => (s.1,bytesOf s.2))
  claimed : ∃ brs, (exec GetClaimedBoundsAsByteReaders db).1 = .ok brs ∧
    (brs.map (fun br => some (owner64 br.1,br.2.1,br.2.2.p))).Perm
      ((elements db JSONClaimedEntry).map fun json =>
        (ownerText json).bind fun owner => (boundOf json).map fun s => (owner,s.1,bytesOf s.2))

section Runs
variable {db : Database} {ledger : Bounds}

theorem insertBound_absent (name : String) (ID : BoundsID) (j : Json) (absent : db.json JSONDataTable = none) :
    exec (insertBound name ID j) db = (.error newAtRoot,db) := by
  have failed : exec (jsonSet JSONDataTable [.field name] (.arr []) true) db = (.error newAtRoot,db) := by
    simp [jsonSet,absent]
  rw [insertBound,exec_bind_error _ _ _ _ _ failed]

theorem apply_holds (write : Write) (holds : Holds db ledger) : ∃ after, Holds (apply write db) after := by
  rcases holds with here | ⟨absent,none⟩
  · cases write with
    | insertPending p =>
      obtain ⟨next,ran,after,_⟩ := insertPending_spec p here
      exact ⟨_,.inl (by simpa only [apply,ran] using after)⟩
    | insertClaimed c =>
      obtain ⟨next,ran,after,_⟩ := insertClaimed_spec c here
      exact ⟨_,.inl (by simpa only [apply,ran] using after)⟩
    | claim shard =>
      obtain ⟨next,ran,after,_⟩ := claim_spec shard here
      exact ⟨_,.inl (by simpa only [apply,claimNext_state,ran] using after)⟩
  · have kept : apply write db = db := by
      cases write with
      | insertPending p =>
        simp only [apply,Internal_InsertPendingBound,insertBound_absent _ _ _ absent]
      | insertClaimed c =>
        simp only [apply,Internal_InsertClaimedBound,insertBound_absent _ _ _ absent]
      | claim shard => simp only [apply,claimNext_state,claim_absent shard absent]
    rw [kept]
    exact ⟨ledger,.inr ⟨absent,none⟩⟩

theorem reachable_holds (reached : writing.Reachable db) : ∃ ledger, Holds db ledger := by
  apply reached.invariant (fun db => ∃ ledger, Holds db ledger)
  · exact fun _ start => ⟨_,start⟩
  · rintro db write _ ⟨ledger,before⟩ _ rfl
    exact apply_holds write before

theorem readers_iff (holds : Holds db ledger) :
    ReadersAgree db ↔ elements db JSONPendingEntry = [] ∧ elements db JSONClaimedEntry = [] := by
  constructor
  · intro agree
    have pending := agree.pendingCount
    have claimed := agree.claimedCount
    rw [pendingCount_zero holds,Except.ok.injEq] at pending
    rw [claimedCount_zero holds,Except.ok.injEq] at claimed
    exact ⟨List.length_eq_zero_iff.mp (by omega),List.length_eq_zero_iff.mp (by omega)⟩
  · rintro ⟨pending,claimed⟩
    refine ⟨?_,?_,⟨[],?_,?_⟩,⟨[],?_,?_⟩⟩
    · rw [pendingCount_zero holds,pending]
      rfl
    · rw [claimedCount_zero holds,claimed]
      rfl
    · rw [pendingReaders_none holds]
    · rw [pending]
      exact List.Perm.nil
    · rw [claimedReaders_none holds]
    · rw [claimed]
      exact List.Perm.nil

end Runs

/-- The readers agree with the writers exactly on the documents without bounds. -/
theorem readers_exactly (db : Database) (reached : writing.Reachable db) :
    ReadersAgree db ↔ elements db JSONPendingEntry = [] ∧ elements db JSONClaimedEntry = [] := by
  obtain ⟨ledger,holds⟩ := reachable_holds reached
  exact readers_iff holds

theorem readers_exactly_fresh : ReadersAgree (apply (.claim shard) nothing) := by
  have start : writing.Reachable nothing := .initial _ (.inr ⟨rfl,rfl⟩)
  have claimed := start.step _ (Write.claim shard) _ trivial rfl
  apply (readers_exactly _ claimed).mpr
  have kept : apply (.claim shard) nothing = nothing := (claimNext_state shard nothing).trans (congrArg Prod.snd (claim_absent shard rfl))
  rw [kept]
  exact ⟨rfl,rfl⟩

/-- One pending bound is stored, and the count is zero. -/
theorem readers_miss_pending : ¬ ∀ db, writing.Reachable db → ReadersAgree db := by
  intro always
  have fresh : Stored (nothing.withJson JSONDataTable (.obj [])) Ledger.empty := by
    refine ⟨⟨[],withJson_json _ _ _⟩,.inr ?_,.inr ?_⟩ <;> simp [entry_withJson,Entries.get,Ledger.empty]
  have start : writing.Reachable (nothing.withJson JSONDataTable (.obj [])) := .initial _ (.inl fresh)
  have inserted := start.step _ (Write.insertPending ⟨0,""⟩) _ trivial rfl
  obtain ⟨next,ran,after,_⟩ := insertPending_spec ⟨0,""⟩ fresh
  have moved : apply (.insertPending ⟨0,""⟩) (nothing.withJson JSONDataTable (.obj [])) = next := by
    simp only [apply,ran]
  have reached : writing.Reachable next := moved ▸ inserted
  have none := ((readers_iff (.inl after)).mp (always next reached)).1
  rw [elements_pending after] at none
  simp [Ledger.empty,Ledger.waitingIds,Ledger.offer] at none

end AtlasNet.ManifestReaders
