import AtlasNet.HeuristicManifest
import AtlasNet.Foundation.Ledger

/-! The ledger of bounds behind the manifest document, and what each writer of the
document does to it. The rest of the document and of the database stays. -/
namespace AtlasNet.HeuristicManifest
open Foundation Foundation.Program Foundation.Redis

/-- Bounds that wait for a shard, and bounds with the shard that claimed them. -/
abbrev Bounds := Ledger BoundsID String NetworkIdentity

def entry (db : Database) (name : String) : Option Json := (db.json JSONDataTable).bind (Json.member name)

/-- The elements of an array of the document; none when there is no such array. -/
def elements (db : Database) (name : String) : List Json :=
  match entry db name with
  | some (.arr items) => items
  | _ => []

def pendingJson (row : BoundsID × String) : Json := PendingBoundStruct.to_json ⟨row.1,row.2⟩

def claimedJson (held : (BoundsID × String) × NetworkIdentity) : Json :=
  ClaimedBoundStruct.to_json ⟨held.1.1,held.2,held.1.2⟩

def boundOf (json : Json) : Option (BoundsID × String) :=
  match json.member "ID",json.member "BoundsData64" with
  | some (.num n),some (.str data) => some (UInt32.ofNat n.toNat,data)
  | _,_ => none

/-- An array of the document, made when it is first written. -/
def Shown (found : Option Json) (items : List Json) : Prop :=
  found = some (.arr items) ∨ found = none ∧ items = []

structure Stored (db : Database) (ledger : Bounds) : Prop where
  document : ∃ fields, db.json JSONDataTable = some (.obj fields)
  pending : Shown (entry db JSONPendingEntry) (ledger.waiting.map pendingJson)
  claimed : Shown (entry db JSONClaimedEntry) (ledger.held.map claimedJson)

/-- The document, once there is one, is an object. -/
def Tabled (db : Database) : Prop :=
  db.json JSONDataTable = none ∨ ∃ fields, db.json JSONDataTable = some (.obj fields)

theorem Stored.tabled {db : Database} {ledger : Bounds} (stored : Stored db ledger) : Tabled db := .inr stored.document

/-- The type and the data of the heuristic that was pushed last. -/
structure Pushed (db : Database) (h : GridHeuristic) : Prop where
  type : entry db JSONHeuristicTypeEntry = some (.str "GridCell")
  data : entry db JSONHeuristicData64Entry = some (.str (String.ofList (Base64.encode (h.Serialize {}).buf)))

/-- Nothing but the two arrays has changed. -/
structure Frame (db next : Database) : Prop where
  entries : ∀ name, name ≠ JSONPendingEntry → name ≠ JSONClaimedEntry → entry next name = entry db name
  hash : next.hash = db.hash

theorem Frame.refl (db : Database) : Frame db db := ⟨fun _ _ _ => rfl,rfl⟩

theorem Frame.trans {first second third : Database} (before : Frame first second)
    (after : Frame second third) : Frame first third :=
  ⟨fun name pending claimed => (after.entries name pending claimed).trans (before.entries name pending claimed),
    after.hash.trans before.hash⟩

theorem entry_withJson (db : Database) (fields : Json.Fields) (name : String) :
    entry (db.withJson JSONDataTable (.obj fields)) name = Entries.get name fields := by
  simp [entry]

theorem entry_fields {db : Database} {fields : Json.Fields} (here : db.json JSONDataTable = some (.obj fields))
    (name : String) : entry db name = Entries.get name fields := by
  simp [entry,here]

/-- The two arrays as members of the document. -/
theorem Stored.opened {db : Database} {ledger : Bounds} (stored : Stored db ledger) :
    ∃ fields, db.json JSONDataTable = some (.obj fields) ∧
      Shown (Entries.get JSONPendingEntry fields) (ledger.waiting.map pendingJson) ∧
      Shown (Entries.get JSONClaimedEntry fields) (ledger.held.map claimedJson) := by
  obtain ⟨fields,here⟩ := stored.document
  have pending := stored.pending
  have claimed := stored.claimed
  rw [entry_fields here] at pending claimed
  exact ⟨fields,here,pending,claimed⟩

theorem frame_withJson {db : Database} {fields after : Json.Fields}
    (here : db.json JSONDataTable = some (.obj fields))
    (others : ∀ name, name ≠ JSONPendingEntry → name ≠ JSONClaimedEntry →
      Entries.get name after = Entries.get name fields) :
    Frame db (db.withJson JSONDataTable (.obj after)) :=
  ⟨fun name pending claimed => by
    rw [entry_withJson,entry_fields here,others name pending claimed],rfl⟩

theorem elements_shown {db : Database} {name : String} {items : List Json} (shown : Shown (entry db name) items) :
    elements db name = items := by
  rcases shown with present | ⟨absent,none⟩
  · rw [elements,present]
  · rw [elements,absent,none]

theorem elements_pending {db : Database} {ledger : Bounds} (stored : Stored db ledger) :
    elements db JSONPendingEntry = ledger.waiting.map pendingJson := elements_shown stored.pending

theorem elements_claimed {db : Database} {ledger : Bounds} (stored : Stored db ledger) :
    elements db JSONClaimedEntry = ledger.held.map claimedJson := elements_shown stored.claimed

theorem pending_ne_claimed : JSONPendingEntry ≠ JSONClaimedEntry := by decide

theorem pendingJson_id (row : BoundsID × String) (id : BoundsID) :
    Json.hasNumber "ID" id.toNat (pendingJson row) = decide (row.1 = id) := by
  have same : ((row.1.toNat : Int) = id.toNat) ↔ row.1 = id := by
    rw [Int.natCast_inj]
    exact UInt32.toNat_inj
  simp [pendingJson,PendingBoundStruct.to_json,Json.hasNumber,Entries.get,beq_eq_decide,same]

theorem claimedJson_id (held : (BoundsID × String) × NetworkIdentity) (id : BoundsID) :
    Json.hasNumber "ID" id.toNat (claimedJson held) = decide (held.1.1 = id) := by
  have same : ((held.1.1.toNat : Int) = id.toNat) ↔ held.1.1 = id := by
    rw [Int.natCast_inj]
    exact UInt32.toNat_inj
  simp [claimedJson,ClaimedBoundStruct.to_json,Json.hasNumber,Entries.get,beq_eq_decide,same]

section Arrays
variable {db : Database} {fields : Json.Fields} {name : String} {items : List Json}

theorem withJson_self (here : db.json JSONDataTable = some (.obj fields)) :
    db.withJson JSONDataTable (.obj fields) = db := by
  unfold Database.withJson
  rw [← here,Function.update_eq_self]

theorem withJson_twice (first second : Json) :
    (db.withJson JSONDataTable first).withJson JSONDataTable second = db.withJson JSONDataTable second := by
  simp [Database.withJson]

theorem ensure_spec (here : db.json JSONDataTable = some (.obj fields))
    (shown : Shown (Entries.get name fields) items) :
    ∃ after, exec (jsonSet JSONDataTable [.field name] (.arr []) true) db =
        (.ok (),db.withJson JSONDataTable (.obj after)) ∧
      Entries.get name after = some (.arr items) ∧
      ∀ other, other ≠ name → Entries.get other after = Entries.get other fields := by
  rcases shown with present | ⟨absent,none⟩
  · exact ⟨fields,by rw [jsonSet_nx_present _ _ here present,withJson_self here],present,fun _ _ => rfl⟩
  · subst none
    exact ⟨Entries.put name (.arr []) fields,jsonSet_nx_absent _ here absent,Entries.get_put_self _ _ _,
      fun other different => Entries.get_put_other _ _ _ _ different⟩

theorem setField_spec (name : String) (value : Json) (here : db.json JSONDataTable = some (.obj fields)) :
    ∃ after, exec (jsonSet JSONDataTable [.field name] value false) db =
        (.ok (),db.withJson JSONDataTable (.obj after)) ∧
      Entries.get name after = some value ∧
      ∀ other, other ≠ name → Entries.get other after = Entries.get other fields :=
  ⟨Entries.put name value fields,jsonSet_field value here,Entries.get_put_self _ _ _,
    fun _ different => Entries.get_put_other _ _ _ _ different⟩

/-- A query's reply has more than two characters exactly when it selects an object. -/
theorem selected_text (items : List Json) (test : Json → Bool) (objects : ∀ item ∈ items, ∃ inner, item = .obj inner) :
    (Json.arr (items.filter test)).text.length ≤ 2 ↔ items.any test = false := by
  cases selected : items.filter test with
  | nil =>
    rw [List.any_eq_false]
    exact ⟨fun _ => List.filter_eq_nil_iff.mp selected,fun _ => le_of_eq Json.text_empty⟩
  | cons first rest =>
    have member : first ∈ items.filter test := selected ▸ List.mem_cons_self
    obtain ⟨inside,holds⟩ := List.mem_filter.mp member
    obtain ⟨inner,object⟩ := objects first inside
    subst object
    have long := Json.text_selected inner rest
    have found : items.any test = true := List.any_eq_true.mpr ⟨_,inside,holds⟩
    rw [found]
    constructor
    · intro short
      omega
    · intro never
      cases never

/-- An insertion appends to its own array, unless the ID is there. -/
theorem insertBound_spec (ID : BoundsID) (j : Json) (here : db.json JSONDataTable = some (.obj fields))
    (shown : Shown (Entries.get name fields) items) (objects : ∀ item ∈ items, ∃ inner, item = .obj inner) :
    ∃ after, exec (insertBound name ID j) db =
        ((if items.any (Json.hasNumber "ID" ID.toNat) then .error (.assertion "This should never happen") else .ok ()),
          db.withJson JSONDataTable (.obj after)) ∧
      Entries.get name after =
        some (.arr (if items.any (Json.hasNumber "ID" ID.toNat) then items else items ++ [j])) ∧
      ∀ other, other ≠ name → Entries.get other after = Entries.get other fields := by
  obtain ⟨middle,ensured,present,others⟩ := ensure_spec here shown
  have there := withJson_json db JSONDataTable (.obj middle)
  have query := jsonGetWhere_array items "ID" ID.toNat there present
  have short := selected_text items (Json.hasNumber "ID" ID.toNat) objects
  unfold insertBound
  rw [exec_bind_ok _ _ _ _ _ ensured,exec_bind_ok _ _ _ _ _ query]
  simp only [Option.map_some,Option.getD_some,short]
  cases found : items.any (Json.hasNumber "ID" ID.toNat) with
  | true =>
    refine ⟨middle,?_,by simpa using present,others⟩
    simp
  | false =>
    refine ⟨Entries.put name (.arr (items ++ [j])) middle,?_,by simp,fun other different => ?_⟩
    · rw [if_pos rfl,jsonArrAppend_array items j there present,withJson_twice]
      simp
    · rw [Entries.get_put_other _ _ _ _ different,others other different]

end Arrays

section Writers
variable {db : Database} {ledger : Bounds}

theorem pending_objects (rows : List (BoundsID × String)) :
    ∀ item ∈ rows.map pendingJson, ∃ inner, item = .obj inner := by
  intro item member
  obtain ⟨row,_,rfl⟩ := List.mem_map.mp member
  exact ⟨_,rfl⟩

theorem claimed_objects (held : List ((BoundsID × String) × NetworkIdentity)) :
    ∀ item ∈ held.map claimedJson, ∃ inner, item = .obj inner := by
  intro item member
  obtain ⟨row,_,rfl⟩ := List.mem_map.mp member
  exact ⟨_,rfl⟩

theorem pending_hit (id : BoundsID) : (ledger.waiting.map pendingJson).any (Json.hasNumber "ID" id.toNat) =
    decide (id ∈ ledger.waitingIds) := by
  rw [List.any_map,Bool.eq_iff_iff,decide_eq_true_iff]
  simp [pendingJson_id,Ledger.waitingIds]

theorem claimed_hit (id : BoundsID) : (ledger.held.map claimedJson).any (Json.hasNumber "ID" id.toNat) =
    decide (id ∈ ledger.heldIds) := by
  rw [List.any_map,Bool.eq_iff_iff,decide_eq_true_iff]
  simp [claimedJson_id,Ledger.heldIds]

theorem insertPending_spec (p : PendingBoundStruct) (stored : Stored db ledger) :
    ∃ next, exec (Internal_InsertPendingBound p) db =
        ((if p.ID ∈ ledger.waitingIds then .error (.assertion "This should never happen") else .ok ()),next) ∧
      Stored next (if p.ID ∈ ledger.waitingIds then ledger else ledger.offer (p.ID,p.BoundsDataBase64)) ∧
      Frame db next := by
  obtain ⟨fields,here,shown,claimed⟩ := stored.opened
  obtain ⟨after,ran,present,others⟩ := insertBound_spec p.ID p.to_json here shown (pending_objects ledger.waiting)
  rw [← others JSONClaimedEntry pending_ne_claimed.symm] at claimed
  rw [pending_hit] at ran present
  simp only [decide_eq_true_eq] at ran present
  refine ⟨_,ran,?_,?_⟩
  · refine ⟨⟨after,withJson_json _ _ _⟩,?_,?_⟩
    · rw [entry_withJson,present]
      left
      by_cases waits : p.ID ∈ ledger.waitingIds
      · rw [if_pos waits,if_pos waits]
      · rw [if_neg waits,if_neg waits]
        simp [Ledger.offer,pendingJson]
    · rw [entry_withJson]
      split <;> exact claimed
  · exact frame_withJson here (fun name pending _ => others name pending)

theorem insertClaimed_spec (c : ClaimedBoundStruct) (stored : Stored db ledger) :
    ∃ next, exec (Internal_InsertClaimedBound c) db =
        ((if c.ID ∈ ledger.heldIds then .error (.assertion "This should never happen") else .ok ()),next) ∧
      Stored next (if c.ID ∈ ledger.heldIds then ledger
        else {ledger with held := ledger.held ++ [((c.ID,c.BoundsDataBase64),c.identity)]}) ∧
      Frame db next := by
  obtain ⟨fields,here,pending,shown⟩ := stored.opened
  obtain ⟨after,ran,present,others⟩ := insertBound_spec c.ID c.to_json here shown (claimed_objects ledger.held)
  rw [← others JSONPendingEntry pending_ne_claimed] at pending
  rw [claimed_hit] at ran present
  simp only [decide_eq_true_eq] at ran present
  refine ⟨_,ran,?_,?_⟩
  · refine ⟨⟨after,withJson_json _ _ _⟩,?_,?_⟩
    · rw [entry_withJson]
      split <;> exact pending
    · rw [entry_withJson,present]
      left
      by_cases taken : c.ID ∈ ledger.heldIds
      · rw [if_pos taken,if_pos taken]
      · rw [if_neg taken,if_neg taken]
        simp [claimedJson]
  · exact frame_withJson here (fun name _ claimed => others name claimed)

theorem setLast_spec {fields : Json.Fields} (entries : List ((BoundsID × String) × NetworkIdentity))
    (inner : Json.Fields) (name : String) (value : Json) (here : db.json JSONDataTable = some (.obj fields))
    (claimed : Entries.get JSONClaimedEntry fields = some (.arr (entries.map claimedJson ++ [.obj inner]))) :
    ∃ after, exec (jsonSet JSONDataTable [.field JSONClaimedEntry,.index entries.length,.field name] value false) db =
        (.ok (),db.withJson JSONDataTable (.obj after)) ∧
      Entries.get JSONClaimedEntry after = some (.arr (entries.map claimedJson ++ [.obj (Entries.put name value inner)])) ∧
      ∀ other, other ≠ JSONClaimedEntry → Entries.get other after = Entries.get other fields := by
  have last : (entries.map claimedJson ++ [.obj inner])[entries.length]? = some (.obj inner) := by
    rw [List.getElem?_append_right (by simp)]
    simp
  refine ⟨_,jsonSet_element value _ entries.length inner name here claimed last,?_,
    fun other different => Entries.get_put_other _ _ _ _ different⟩
  rw [Entries.get_put_self,List.set_append_right _ _ (by simp)]
  simp

/-- The script moves the first pending entry behind the claimed ones and adds its owner. -/
theorem claimScript_first (identity : NetworkIdentity) {fields : Json.Fields} (row : BoundsID × String)
    (rest : List (BoundsID × String)) (held : List ((BoundsID × String) × NetworkIdentity))
    (here : db.json JSONDataTable = some (.obj fields))
    (pending : Entries.get JSONPendingEntry fields = some (.arr ((row::rest).map pendingJson)))
    (claimed : Shown (Entries.get JSONClaimedEntry fields) (held.map claimedJson)) :
    ∃ after, exec (claimScript (owner64 identity) identity.ToString) db =
        (.ok (some row.1.toNat),db.withJson JSONDataTable (.obj after)) ∧
      Entries.get JSONPendingEntry after = some (.arr (rest.map pendingJson)) ∧
      Entries.get JSONClaimedEntry after = some (.arr ((held ++ [(row,identity)]).map claimedJson)) ∧
      ∀ other, other ≠ JSONPendingEntry → other ≠ JSONClaimedEntry →
        Entries.get other after = Entries.get other fields := by
  obtain ⟨first,ensured,claimed1,others1⟩ := ensure_spec here claimed
  have here1 := withJson_json db JSONDataTable (.obj first)
  have pending1 := (others1 _ pending_ne_claimed).trans pending
  have appended := jsonArrAppend_array _ (pendingJson row) here1 claimed1
  rw [withJson_twice] at appended
  have here2 := withJson_json db JSONDataTable
    (.obj (Entries.put JSONClaimedEntry (.arr (held.map claimedJson ++ [pendingJson row])) first))
  have claimed2 := Entries.get_put_self JSONClaimedEntry (.arr (held.map claimedJson ++ [pendingJson row])) first
  obtain ⟨third,owned,claimed3,others3⟩ :=
    setLast_spec held _ "Owner64" (.str (owner64 identity)) here2 claimed2
  rw [withJson_twice] at owned
  have here3 := withJson_json db JSONDataTable (.obj third)
  obtain ⟨fourth,named,claimed4,others4⟩ :=
    setLast_spec held _ "OwnerName" (.str identity.ToString) here3 claimed3
  rw [withJson_twice] at named
  have here4 := withJson_json db JSONDataTable (.obj fourth)
  have kept (other : String) (different : other ≠ JSONClaimedEntry) :
      Entries.get other fourth = Entries.get other fields := by
    rw [others4 other different,others3 other different,Entries.get_put_other _ _ _ _ different,
      others1 other different]
  have pending4 := (kept _ pending_ne_claimed).trans pending
  have popped := jsonArrPop_array _ 0 here4 pending4
  rw [withJson_twice] at popped
  refine ⟨Entries.put JSONPendingEntry (.arr (rest.map pendingJson)) fourth,?_,Entries.get_put_self _ _ _,?_,?_⟩
  · have typed : exec (jsonTyped JSONDataTable [.field JSONClaimedEntry]) db =
        (.ok (Entries.get JSONClaimedEntry fields).isSome,db) := by
      simp [jsonTyped,here,Json.get]
    unfold claimScript
    rw [exec_bind_ok _ _ _ _ _ typed,exec_bind_ok _ _ _ _ _ ensured,
      exec_bind_ok _ _ _ _ _ (jsonArrLen_array _ here1 pending1)]
    rw [if_neg (by simp),exec_bind_ok _ _ _ _ _ (jsonGet_element _ 0 (pendingJson row) here1 pending1 (by simp))]
    rw [exec_bind_ok _ _ _ _ _ appended,exec_bind_ok _ _ _ _ _ (jsonArrLen_array _ here2 claimed2)]
    simp only [List.length_append,List.length_map,List.length_cons,List.length_nil,Option.getD_some,
      Nat.add_sub_cancel]
    rw [exec_bind_ok _ _ _ _ _ owned,exec_bind_ok _ _ _ _ _ named,exec_bind_ok _ _ _ _ _ popped]
    rfl
  · rw [Entries.get_put_other _ _ _ _ pending_ne_claimed.symm,claimed4,List.map_append]
    rfl
  · intro other pendingOther claimedOther
    rw [Entries.get_put_other _ _ _ _ pendingOther,kept other claimedOther]

/-- Over an empty array the script replies nil; without the array it raises an error.
The claimed array is made on the way. -/
theorem claimScript_none (owner name : String) {fields : Json.Fields} {items : List Json}
    (here : db.json JSONDataTable = some (.obj fields))
    (pending : Shown (Entries.get JSONPendingEntry fields) [])
    (claimed : Shown (Entries.get JSONClaimedEntry fields) items) :
    ∃ after, exec (claimScript owner name) db =
        ((if (Entries.get JSONPendingEntry fields).isSome then .ok none else .error noSuchPath),
          db.withJson JSONDataTable (.obj after)) ∧
      Entries.get JSONClaimedEntry after = some (.arr items) ∧
      ∀ other, other ≠ JSONClaimedEntry → Entries.get other after = Entries.get other fields := by
  obtain ⟨first,ensured,claimed1,others⟩ := ensure_spec here claimed
  have here1 := withJson_json db JSONDataTable (.obj first)
  have typed : exec (jsonTyped JSONDataTable [.field JSONClaimedEntry]) db =
      (.ok (Entries.get JSONClaimedEntry fields).isSome,db) := by
    simp [jsonTyped,here,Json.get]
  refine ⟨first,?_,claimed1,others⟩
  unfold claimScript
  rw [exec_bind_ok _ _ _ _ _ typed,exec_bind_ok _ _ _ _ _ ensured]
  rcases pending with present | ⟨absent,_⟩
  · have length := jsonArrLen_array [] here1 ((others _ pending_ne_claimed).trans present)
    rw [exec_bind_ok _ _ _ _ _ length,present]
    rfl
  · have missing : exec (jsonArrLen JSONDataTable [.field JSONPendingEntry])
        (db.withJson JSONDataTable (.obj first)) = (.error noSuchPath,db.withJson JSONDataTable (.obj first)) := by
      simp [jsonArrLen,Json.get,(others _ pending_ne_claimed).trans absent]
    rw [exec_bind_error _ _ _ _ _ missing,absent]
    rfl

theorem exec_owner64 {σ : Type} (identity : NetworkIdentity) (state : σ) :
    exec ((identity.Serialize {}).as_string_base_64 : Program σ String) state = (.ok (owner64 identity),state) := by
  have some : (identity.Serialize {}).buf ≠ [] := by
    simp [NetworkIdentity.Serialize,ByteWriter.uuid,ByteWriter.write,ByteWriter.i32,ByteWriter.u32,
      ByteWriter.push_be,BigEndian.encode]
  have written := List.length_pos_iff.mpr (Base64.encode_nonempty _ some)
  simp only [ByteWriter.as_string_base_64]
  rw [exec_assert_bind,if_pos written]
  rfl

theorem claim_none (identity : NetworkIdentity) (stored : Stored db ledger) (waiting : ledger.waiting = []) :
    ∃ next, exec (claim identity) db =
        ((if (entry db JSONPendingEntry).isSome then .ok none else .error noSuchPath),next) ∧
      Stored next (ledger.claim identity) ∧ Frame db next ∧ entry next JSONPendingEntry = entry db JSONPendingEntry := by
  obtain ⟨fields,here,pending,claimed⟩ := stored.opened
  simp only [entry_fields here]
  rw [waiting] at pending
  obtain ⟨after,ran,claimed1,others⟩ := claimScript_none (owner64 identity) identity.ToString here pending claimed
  have kept := others _ pending_ne_claimed
  refine ⟨db.withJson JSONDataTable (.obj after),?_,?_,
    frame_withJson here (fun name _ claimedOther => others name claimedOther),?_⟩
  · simp only [claim]
    rw [exec_bind_ok _ _ _ _ _ (exec_owner64 identity db)]
    rw [exec_bind,ran]
    cases (Entries.get JSONPendingEntry fields).isSome <;> rfl
  · rw [Ledger.claim_empty identity ledger waiting]
    refine ⟨⟨after,withJson_json _ _ _⟩,?_,?_⟩
    · rw [entry_withJson,kept,waiting]
      exact pending
    · rw [entry_withJson,claimed1]
      exact .inl rfl
  · rw [entry_withJson,kept]

theorem claim_first (identity : NetworkIdentity) (stored : Stored db ledger) {row : BoundsID × String}
    {rest : List (BoundsID × String)} (waiting : ledger.waiting = row::rest) :
    ∃ next, exec (claim identity) db = (.ok (some row.1),next) ∧
      Stored next (ledger.claim identity) ∧ Frame db next ∧ (entry next JSONPendingEntry).isSome := by
  obtain ⟨fields,here,pending,claimed⟩ := stored.opened
  rw [waiting] at pending
  rcases pending with present | ⟨_,none⟩
  · obtain ⟨after,ran,pending1,claimed1,others⟩ :=
      claimScript_first identity row rest ledger.held here present claimed
    refine ⟨db.withJson JSONDataTable (.obj after),?_,?_,frame_withJson here others,?_⟩
    · simp only [claim]
      rw [exec_bind_ok _ _ _ _ _ (exec_owner64 identity db),exec_bind_ok _ _ _ _ _ ran,exec_pure,
        Option.map_some]
      have small : ((row.1.toNat : Int) % 2^32).toNat = row.1.toNat := by
        have bound := row.1.toNat_lt
        omega
      rw [small,UInt32.ofNat_toNat]
    · rw [Ledger.claim_cons identity ledger row rest waiting]
      refine ⟨⟨after,withJson_json _ _ _⟩,?_,?_⟩
      · rw [entry_withJson,pending1]
        exact .inl rfl
      · rw [entry_withJson,claimed1]
        exact .inl rfl
    · rw [entry_withJson,pending1]
      rfl
  · cases none

/-- A claim passes the first waiting bound to the shard and replies with its ID. -/
theorem claim_spec (identity : NetworkIdentity) (stored : Stored db ledger) :
    ∃ next, exec (claim identity) db =
        ((match ledger.waiting with
          | row::_ => .ok (some row.1)
          | [] => if (entry db JSONPendingEntry).isSome then .ok none else .error noSuchPath),next) ∧
      Stored next (ledger.claim identity) ∧ Frame db next ∧
      ((entry db JSONPendingEntry).isSome → (entry next JSONPendingEntry).isSome) := by
  cases waiting : ledger.waiting with
  | nil =>
    obtain ⟨next,ran,passed,frame,same⟩ := claim_none identity stored waiting
    exact ⟨next,ran,passed,frame,fun some => same ▸ some⟩
  | cons row rest =>
    obtain ⟨next,ran,passed,frame,some⟩ := claim_first identity stored waiting
    exact ⟨next,ran,passed,frame,fun _ => some⟩

end Writers

section Reading

/-- The state is read only. -/
def Reads {α : Type} (command : Command α) : Prop := ∀ db, (exec command db).2 = db

theorem reads_pure {α : Type} (value : α) : Reads (pure value) := fun _ => rfl

theorem reads_throw {α : Type} (fault : Fault) : Reads (throw fault : Command α) := fun _ => rfl

theorem reads_bind {α β : Type} {first : Command α} {next : α → Command β} (before : Reads first)
    (after : ∀ value, Reads (next value)) : Reads (first >>= next) :=
  Program.reads_bind before after

theorem reads_within {τ α : Type} (program : Program τ α) (start : τ) : Reads (within program start) := by
  intro db
  rw [exec_within]

theorem reads_jsonGetWhere (key : String) (path : Json.Path) (name : String) (value : Int) :
    Reads (jsonGetWhere key path name value) := by
  intro db
  simp only [jsonGetWhere,exec_get_bind]
  split
  · rfl
  · split <;> rfl

theorem reads_jsonGet (key : String) (path : Json.Path) : Reads (jsonGet key path) := by
  intro db
  simp only [jsonGet,exec_get_bind]
  split
  · rfl
  · split <;> rfl

theorem reads_at (name : String) (json : Json) : Reads (Json.at name json) := by
  unfold Json.at
  split
  · split
    · exact reads_pure _
    · exact reads_throw _
  · exact reads_throw _

theorem reads_getString (json : Json) : Reads (Json.getString json) := by
  unfold Json.getString
  split
  · exact reads_pure _
  · exact reads_throw _

theorem reads_getBoundsID (json : Json) : Reads (Json.getBoundsID json) := by
  unfold Json.getBoundsID
  split
  · exact reads_pure _
  · exact reads_throw _

theorem reads_from_json (json : Json) : Reads (ClaimedBoundStruct.from_json json) :=
  reads_bind (reads_at _ _) fun _ => reads_bind (reads_getBoundsID _) fun _ =>
    reads_bind (reads_at _ _) fun _ => reads_bind (reads_getString _) fun _ =>
      reads_bind (reads_within _ _) fun _ => reads_bind (reads_at _ _) fun _ =>
        reads_bind (reads_getString _) fun _ => reads_pure _

theorem reads_GetClaimedBound (id : BoundsID) : Reads (GetClaimedBound id) := by
  refine reads_bind (reads_jsonGetWhere _ _ _ _) fun reply => ?_
  split
  · exact reads_pure _
  · exact reads_bind (reads_from_json _) fun _ => reads_pure _
  · exact reads_throw _

theorem reads_decodeClaimed (data : Option ClaimedBoundStruct) : Reads (decodeClaimed data) := by
  unfold decodeClaimed
  split
  · exact reads_throw _
  · refine reads_bind (reads_bind (reads_bind (reads_jsonGet _ _) fun reply => ?_) fun type => ?_)
      fun _ => reads_within _ _
    · split <;> exact reads_pure _
    · split
      · exact reads_pure _
      · exact reads_throw _

theorem claimNext_state (shard : NetworkIdentity) (db : Database) :
    (exec (ClaimNextPendingBound shard) db).2 = (exec (claim shard) db).2 := by
  rw [ClaimNextPendingBound,exec_bind]
  rcases exec (claim shard) db with ⟨_ | reply,next⟩
  · rfl
  · cases reply with
    | none => rfl
    | some id =>
      exact reads_bind (reads_bind (reads_GetClaimedBound id) reads_decodeClaimed)
        (fun _ => reads_pure _) next

end Reading

end AtlasNet.HeuristicManifest
