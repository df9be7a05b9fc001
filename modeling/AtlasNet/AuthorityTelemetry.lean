import AtlasNet.NetworkTelemetry
import AtlasNet.TransferManifest

/-! The rows of the entities that shards publish about those they are the authority of, as any
number of shards publish them at the same time, and as the addon and the page's server read them. -/
namespace AtlasNet.AuthorityManifest
open Foundation Foundation.Redis Foundation.Program Foundation.Streams Script
open ServerHandoff (AuthorityTelemetryRow EntityAuthorityTracker)
open HandoffTransferManifest (entityField tab_not_mem_ascii tab_not_mem_text)
open NetworkTelemetry (Plain plain_ascii chars_injective)

abbrev TelemetryRow := AuthorityTelemetryRow

def kAuthorityTelemetryColumnCount : Nat := 7

def kAuthorityTelemetryTable : String := "Authority_Telemetry"

def kAuthorityEntitySnapshotTable : String := "Authority_EntitySnapshots"

def kAuthorityEntityMetaTable : String := "Authority_EntityMeta"

/-- How the library prints a coordinate, and the bytes of an entity. -/
structure Rendering (vec3 : Type) where
  coordinate : vec3 → Fin 3 → List Char
  entity : ServerHandoff.AtlasEntity vec3 → Bytes
  printable : ∀ position k, (coordinate position k).all printable = true

variable {vec3 : Type} (rendering : Rendering vec3)

def columns (row : TelemetryRow vec3) : List Bytes :=
  [row.owner.text,ascii (decimal row.world.toNat),ascii (rendering.coordinate row.position 0),
    ascii (rendering.coordinate row.position 1),ascii (rendering.coordinate row.position 2),
    ascii (decimal (if row.isClient then 1 else 0)),ascii row.clientId.to_string]

def value (row : TelemetryRow vec3) : Bytes := [NetworkManifest.tab].intercalate (columns rendering row)

def snapshotValue (row : TelemetryRow vec3) : Bytes := (row.owner.Serialize {}).buf ++ rendering.entity row.entitySnapshot

/-- The owner in the row that is there already. -/
def lastAuthority (row : TelemetryRow vec3) (previousTelemetryValue : Option Bytes) : Bytes :=
  match previousTelemetryValue with
  | none => row.owner.text
  | some previous =>
    let front := previous.takeWhile (· ≠ NetworkManifest.tab)
    if NetworkManifest.tab ∈ previous ∧ front ≠ [] then front else row.owner.text

def entityMetaValue (lastAuthority : Bytes) (nowMs : Int) : Bytes := lastAuthority ++ NetworkManifest.tab::ascii (integer nowMs)

/-- `nowMs` is what the clock shows behind the row. -/
def writeRow (row : TelemetryRow vec3) (nowMs : Int) : Script Database Unit := do
  let field := entityField row.entityId
  let previousTelemetryValue ← query (hget kAuthorityTelemetryTable field)
  let lastAuthority := lastAuthority row previousTelemetryValue
  query (hset kAuthorityTelemetryTable field (value rendering row))
  query (hset kAuthorityEntitySnapshotTable field (snapshotValue rendering row))
  query (hset kAuthorityEntityMetaTable field (entityMetaValue lastAuthority nowMs))

def TelemetryUpdate (rows : List (TelemetryRow vec3)) (nowMs : TelemetryRow vec3 → Int) : Script Database Unit :=
  rows.forM fun row => writeRow rendering row (nowMs row)

/-- `PublishFromTracker`. -/
def PublishFromTracker (selfIdentity : NetworkIdentity) (tracker : EntityAuthorityTracker vec3) (nowMs : TelemetryRow vec3 → Int) :
    Script Database Unit :=
  TelemetryUpdate rendering (tracker.CollectTelemetryRows selfIdentity) nowMs

def readRow (pair : Bytes × Bytes) : Option (List Bytes) :=
  let columns := getlines NetworkManifest.tab pair.2
  if columns.length ≠ kAuthorityTelemetryColumnCount then none else some (pair.1::columns)

def GetAllTelemetry : Command (List (List Bytes)) := do
  return (← hgetall kAuthorityTelemetryTable).filterMap readRow

def GetAllEntitySnapshotsRaw : Command Hash := hgetall kAuthorityEntitySnapshotTable

def GetAllEntityMetaRaw : Command Hash := hgetall kAuthorityEntityMetaTable

/-- `readAuthorityTelemetryFromDatabase` up to the sort of its rows. -/
def databaseRead (around : Surroundings) : Command (List (List (List Char))) := do
  let all ← hgetall kAuthorityTelemetryTable
  return (around.entries all).filterMap fun pair =>
    (PureDatabaseTelemetry.parseTabSeparatedColumns (around.client pair.2) 7).map (around.client pair.1::·)

section Rows
variable {rendering} {row : TelemetryRow vec3}

theorem printed_columns (row : TelemetryRow vec3) :
    ∀ column ∈ columns rendering row, ∃ text : List Char, text.all printable = true ∧ column = ascii text := by
  simp only [columns,List.forall_mem_cons]
  exact ⟨⟨_,row.owner.printable_toChars,rfl⟩,⟨_,printable_decimal _,rfl⟩,⟨_,rendering.printable _ _,rfl⟩,
    ⟨_,rendering.printable _ _,rfl⟩,⟨_,rendering.printable _ _,rfl⟩,⟨_,printable_decimal _,rfl⟩,
    ⟨_,printable_to_chars 0 _,rfl⟩,fun _ none => absurd none List.not_mem_nil⟩

theorem tab_not_mem_columns (row : TelemetryRow vec3) : ∀ column ∈ columns rendering row, NetworkManifest.tab ∉ column := by
  intro column member
  obtain ⟨text,whole,rfl⟩ := printed_columns row column member
  exact tab_not_mem_ascii whole

def shown (rendering : Rendering vec3) (row : TelemetryRow vec3) : List Bytes := entityField row.entityId::columns rendering row

theorem readRow_value (row : TelemetryRow vec3) :
    readRow (entityField row.entityId,value rendering row) = some (shown rendering row) := by
  have last : ascii row.clientId.to_string ≠ [] :=
    fun none => NetworkIdentity.to_string_nonempty _ (List.map_eq_nil_iff.mp none)
  have pieces : getlines NetworkManifest.tab (value rendering row) = columns rendering row :=
    getlines_separated (tab_not_mem_columns row) ⟨_,rfl,last⟩
  rw [readRow,pieces]
  rfl

theorem text_nonempty (ID : NetworkIdentity) : ID.text ≠ [] := by
  intro none
  have empty := List.map_eq_nil_iff.mp none
  rw [NetworkIdentity.toChars_eq] at empty
  split at empty
  · exact name_nonempty ID.type empty
  · exact absurd empty (by simp)

theorem lastAuthority_value (row before : TelemetryRow vec3) :
    lastAuthority row (some (value rendering before)) = before.owner.text := by
  obtain ⟨rest,same⟩ : ∃ rest, value rendering before = before.owner.text ++ NetworkManifest.tab::rest :=
    ⟨_,List.intercalate_cons_cons.trans (List.append_assoc ..)⟩
  have plain : ∀ byte ∈ before.owner.text, decide (byte ≠ NetworkManifest.tab) = true := fun byte inside =>
    decide_eq_true fun tab => tab_not_mem_text before.owner (tab ▸ inside)
  have front : (value rendering before).takeWhile (fun byte => decide (byte ≠ NetworkManifest.tab)) = before.owner.text := by
    rw [same,List.takeWhile_append_of_pos plain,List.takeWhile_cons_of_neg (by simp),List.append_nil]
  have inside : NetworkManifest.tab ∈ value rendering before := same ▸ List.mem_append_right _ List.mem_cons_self
  rw [lastAuthority,front]
  exact if_pos ⟨inside,text_nonempty before.owner⟩

end Rows

section Publishing
/-- The rows that a shard has written, and the authority that it is to keep with an entity. -/
structure Progress (vec3 : Type) where
  written : List (TelemetryRow vec3) := []
  found : Option (ServerHandoff.AtlasEntityID × Bytes) := none

variable {rendering} {ι : Type} {rows : ι → List (TelemetryRow vec3)} {progress : ι → Progress vec3} {past : List Database}
  {db : Database} {i : ι}

/-- A row of the entity with that authority has stood in the table. -/
def Stood (rendering : Rendering vec3) (rows : ι → List (TelemetryRow vec3)) (past : List Database)
    (entityId : ServerHandoff.AtlasEntityID) (text : Bytes) : Prop :=
  ∃ db ∈ past, ∃ i, ∃ row ∈ rows i, row.entityId = entityId ∧ row.owner.text = text ∧
    (db.hash kAuthorityTelemetryTable).get (entityField entityId) = some (value rendering row)

theorem Stood.later {entityId : ServerHandoff.AtlasEntityID} {text : Bytes} (stood : Stood rendering rows past entityId text)
    (after : Database) : Stood rendering rows (after::past) entityId text := by
  obtain ⟨db,inside,same⟩ := stood
  exact ⟨db,List.mem_cons_of_mem _ inside,same⟩

/-- What holds of the rows that the shards have written and of what the store has been. -/
structure Published (rendering : Rendering vec3) (rows : ι → List (TelemetryRow vec3)) (progress : ι → Progress vec3)
    (s : List Database × Database) : Prop where
  current : s.2 ∈ s.1
  own : ∀ i, ∀ row ∈ (progress i).written, row ∈ rows i
  valued : ∀ field payload, (s.2.hash kAuthorityTelemetryTable).get field = some payload →
    ∃ i, ∃ row ∈ (progress i).written, field = entityField row.entityId ∧ payload = value rendering row
  distinct : ((s.2.hash kAuthorityTelemetryTable).map (·.1)).Nodup
  present : ∀ i, ∀ row ∈ (progress i).written, ((s.2.hash kAuthorityTelemetryTable).get (entityField row.entityId)).isSome
  found : ∀ i entityId text, (progress i).found = some (entityId,text) → Stood rendering rows s.1 entityId text
  metas : ∀ field payload, (s.2.hash kAuthorityEntityMetaTable).get field = some payload →
    ∃ entityId text nowMs, Stood rendering rows s.1 entityId text ∧ field = entityField entityId ∧ payload = entityMetaValue text nowMs

theorem Published.fresh (rows₀ : db.hash kAuthorityTelemetryTable = []) (metas₀ : db.hash kAuthorityEntityMetaTable = []) :
    Published rendering rows (fun _ => {}) ([db],db) where
  current := List.mem_singleton_self db
  own _ _ inside := absurd inside List.not_mem_nil
  valued field _ found := by
    rw [rows₀] at found
    cases found
  distinct := by
    rw [rows₀]
    exact List.nodup_nil
  present _ _ inside := absurd inside List.not_mem_nil
  found _ _ _ found := by cases found
  metas field _ found := by
    rw [metas₀] at found
    cases found

variable [DecidableEq ι] {here : Progress vec3} {row : TelemetryRow vec3}

theorem Published.progresses (published : Published rendering rows progress (past,db)) {after : Progress vec3}
    (written : after.written = (progress i).written)
    (found : ∀ entityId text, after.found = some (entityId,text) → Stood rendering rows past entityId text) :
    Published rendering rows (Function.update progress i after) (db::past,db) := by
  have still (j : ι) : (Function.update progress i after j).written = (progress j).written := by
    by_cases mine : j = i
    · rw [mine,Function.update_self,written]
    · rw [Function.update_of_ne mine]
  constructor
  · exact List.mem_cons_self
  · simpa only [still] using published.own
  · simpa only [still] using published.valued
  · exact published.distinct
  · simpa only [still] using published.present
  · intro j entityId text there
    by_cases mine : j = i
    · rw [mine,Function.update_self] at there
      exact (found entityId text there).later db
    · rw [Function.update_of_ne mine] at there
      exact (published.found j entityId text there).later db
  · intro field payload there
    obtain ⟨entityId,text,nowMs,stood,same⟩ := published.metas field payload there
    exact ⟨entityId,text,nowMs,stood.later db,same⟩

/-- The authority in the row that is there is that of a row that has been written. -/
theorem Published.finds (published : Published rendering rows progress (past,db)) (same : progress i = here) (row : TelemetryRow vec3) :
    ∃ found, Published rendering rows (Function.update progress i {here with found}) (db::past,db) ∧
      (lastAuthority row ((db.hash kAuthorityTelemetryTable).get (entityField row.entityId)) = row.owner.text ∨
        found = some (row.entityId,lastAuthority row ((db.hash kAuthorityTelemetryTable).get (entityField row.entityId)))) := by
  subst same
  cases there : (db.hash kAuthorityTelemetryTable).get (entityField row.entityId) with
  | none => exact ⟨none,published.progresses rfl nofun,.inl rfl⟩
  | some payload =>
    obtain ⟨j,before,written,field,rfl⟩ := published.valued _ payload there
    have entity := HandoffTransferManifest.entityField_injective field
    refine ⟨some (row.entityId,before.owner.text),published.progresses rfl fun entityId text found => ?_,
      .inr (by rw [lastAuthority_value])⟩
    obtain ⟨rfl,rfl⟩ := Prod.mk.inj (Option.some.inj found)
    exact ⟨db,published.current,j,before,published.own j before written,entity.symm,rfl,there⟩

theorem Published.writes (published : Published rendering rows progress (past,db)) (same : progress i = here) (mine : row ∈ rows i)
    {text : Bytes} (told : text = row.owner.text ∨ here.found = some (row.entityId,text)) {after : Database}
    (wrote : (exec (hset kAuthorityTelemetryTable (entityField row.entityId) (value rendering row)) db).2 = after) :
    Published rendering rows (Function.update progress i ⟨here.written ++ [row],some (row.entityId,text)⟩) (after::past,after) := by
  subst same
  have table : after.hash kAuthorityTelemetryTable =
      (db.hash kAuthorityTelemetryTable).put (entityField row.entityId) (value rendering row) := wrote ▸ withHash_self _ _ _
  have others : after.hash kAuthorityEntityMetaTable = db.hash kAuthorityEntityMetaTable := wrote ▸ withHash_other _ _ _ _ (by decide)
  have stays (j : ι) (other : TelemetryRow vec3) (inside : other ∈ (progress j).written) :
      other ∈ (Function.update progress i ⟨(progress i).written ++ [row],some (row.entityId,text)⟩ j).written := by
    grind [Function.update_apply]
  have own := published.own
  constructor
  · exact List.mem_cons_self
  · grind [Function.update_apply]
  · rw [table]
    intro field payload there
    by_cases here : field = entityField row.entityId
    · rw [here,Entries.get_put_self] at there
      exact ⟨i,row,by simp,here,(Option.some.inj there).symm⟩
    · rw [Entries.get_put_other _ _ _ _ here] at there
      obtain ⟨j,other,inside,same⟩ := published.valued field payload there
      exact ⟨j,other,stays j other inside,same⟩
  · rw [table]
    exact Entries.keys_put_nodup _ _ _ published.distinct
  · rw [table]
    intro j other inside
    by_cases here : entityField other.entityId = entityField row.entityId
    · rw [here,Entries.get_put_self]
      rfl
    · rw [Entries.get_put_other _ _ _ _ here]
      refine published.present j other ?_
      grind [Function.update_apply]
  · intro j entityId text' there
    by_cases self : j = i
    · rw [self,Function.update_self] at there
      obtain ⟨rfl,rfl⟩ := Prod.mk.inj (Option.some.inj there)
      rcases told with rfl | before
      · refine ⟨after,List.mem_cons_self,i,row,mine,rfl,rfl,?_⟩
        rw [table,Entries.get_put_self]
      · exact (published.found i _ _ before).later after
    · rw [Function.update_of_ne self] at there
      exact (published.found j entityId text' there).later after
  · rw [others]
    intro field payload there
    obtain ⟨entityId,text,nowMs,stood,same⟩ := published.metas field payload there
    exact ⟨entityId,text,nowMs,stood.later after,same⟩

omit [DecidableEq ι] in
theorem Published.snapshots (published : Published rendering rows progress (past,db)) {field payload : Bytes} {after : Database}
    (wrote : (exec (hset kAuthorityEntitySnapshotTable field payload) db).2 = after) :
    Published rendering rows progress (after::past,after) := by
  have table : after.hash kAuthorityTelemetryTable = db.hash kAuthorityTelemetryTable := wrote ▸ withHash_other _ _ _ _ (by decide)
  have metas : after.hash kAuthorityEntityMetaTable = db.hash kAuthorityEntityMetaTable := wrote ▸ withHash_other _ _ _ _ (by decide)
  refine ⟨List.mem_cons_self,published.own,by rw [table]; exact published.valued,by rw [table]; exact published.distinct,
    by rw [table]; exact published.present,fun i entityId text found => (published.found i entityId text found).later after,?_⟩
  rw [metas]
  intro field payload there
  obtain ⟨entityId,text,nowMs,stood,same⟩ := published.metas field payload there
  exact ⟨entityId,text,nowMs,stood.later after,same⟩

omit [DecidableEq ι] in
theorem Published.marks (published : Published rendering rows progress (past,db)) {text : Bytes} {nowMs : Int}
    {entityId : ServerHandoff.AtlasEntityID} (stood : Stood rendering rows past entityId text) {after : Database}
    (wrote : (exec (hset kAuthorityEntityMetaTable (entityField entityId) (entityMetaValue text nowMs)) db).2 = after) :
    Published rendering rows progress (after::past,after) := by
  have table : after.hash kAuthorityTelemetryTable = db.hash kAuthorityTelemetryTable := wrote ▸ withHash_other _ _ _ _ (by decide)
  have metas : after.hash kAuthorityEntityMetaTable =
      (db.hash kAuthorityEntityMetaTable).put (entityField entityId) (entityMetaValue text nowMs) := wrote ▸ withHash_self _ _ _
  refine ⟨List.mem_cons_self,published.own,by rw [table]; exact published.valued,by rw [table]; exact published.distinct,
    by rw [table]; exact published.present,fun i entityId text found => (published.found i entityId text found).later after,?_⟩
  rw [metas]
  intro field payload there
  by_cases here : field = entityField entityId
  · rw [here,Entries.get_put_self] at there
    exact ⟨entityId,text,nowMs,stood.later after,here,(Option.some.inj there).symm⟩
  · rw [Entries.get_put_other _ _ _ _ here] at there
    obtain ⟨entityId,text,nowMs,stood,same⟩ := published.metas field payload there
    exact ⟨entityId,text,nowMs,stood.later after,same⟩

theorem upholds_writeRow {outcome : Except Fault Unit → Progress vec3 → Prop} {nowMs : Int} (mine : row ∈ rows i)
    (ends : ∀ found, outcome (.ok ()) ⟨here.written ++ [row],found⟩) :
    Upholds (Published rendering rows) i outcome (writeRow rendering row nowMs).recorded here := by
  refine upholds_recorded_bind fun progress past db same published => ?_
  obtain ⟨found,kept,either⟩ := published.finds same row
  refine ⟨_,_,rfl,kept,upholds_recorded_bind fun progress past after same published => ?_⟩
  refine ⟨(),_,rfl,published.writes same mine either rfl,upholds_recorded_bind fun progress past after same published => ?_⟩
  refine ⟨(),progress i,rfl,?_,?_⟩
  · rw [Function.update_eq_self]
    exact published.snapshots rfl
  rw [same]
  refine upholds_recorded fun progress past after same published => ⟨progress i,?_,?_⟩
  · rw [Function.update_eq_self]
    exact published.marks (published.found i _ _ (by rw [same])) rfl
  · rw [same]
    exact ends _

theorem upholds_TelemetryUpdate {written : List (TelemetryRow vec3)} {nowMs : TelemetryRow vec3 → Int}
    {outcome : Except Fault Unit → Progress vec3 → Prop} (rest : List (TelemetryRow vec3)) (mine : ∀ row ∈ rest, row ∈ rows i)
    {found : Option (ServerHandoff.AtlasEntityID × Bytes)} (ends : ∀ found, outcome (.ok ()) ⟨written ++ rest,found⟩) :
    Upholds (Published rendering rows) i outcome (TelemetryUpdate rendering rest nowMs).recorded ⟨written,found⟩ := by
  induction rest generalizing written found with
  | nil =>
    rw [List.append_nil] at ends
    exact ends found
  | cons row rest ih =>
    change Upholds _ _ _ (writeRow rendering row (nowMs row) >>= fun _ => TelemetryUpdate rendering rest nowMs).recorded _
    rw [recorded_bind]
    refine upholds_bind (upholds_writeRow (mine row List.mem_cons_self) fun found => ih (fun other inside => ?_) fun found => ?_)
    · exact mine other (List.mem_cons_of_mem _ inside)
    · rw [List.append_assoc]
      exact ends found

end Publishing

section Reading
variable {rendering} {ι : Type} [DecidableEq ι] {name : ι → NetworkIdentity} {tracker : ι → EntityAuthorityTracker vec3}
  {nowMs : ι → TelemetryRow vec3 → Int} {store : Database} {threads : Threads ι Database Unit}

def tracked (name : ι → NetworkIdentity) (tracker : ι → EntityAuthorityTracker vec3) (i : ι) : List (TelemetryRow vec3) :=
  (tracker i).CollectTelemetryRows (name i)

def program (rendering : Rendering vec3) (name : ι → NetworkIdentity) (tracker : ι → EntityAuthorityTracker vec3)
    (nowMs : ι → TelemetryRow vec3 → Int) (i : ι) : Script Database Unit :=
  PublishFromTracker rendering (name i) (tracker i) (nowMs i)

theorem rows_covered (rows : store.hash kAuthorityTelemetryTable = []) (metas : store.hash kAuthorityEntityMetaTable = [])
    {threads : Threads ι (List Database × Database) Unit}
    (reached : (System.stepping {store := ([store],store)}
      (Threads.move fun i => (program rendering name tracker nowMs i).recorded)).Reachable threads) :
    ∃ progress, Threads.Covers (Published rendering (tracked name tracker)) {}
      (fun i result here => result = .ok () ∧ here.written = tracked name tracker i) threads progress := by
  refine Threads.covered _ _ _ (.fresh rows metas) (fun threads progress i covers _ unbegun => ⟨{},?_,?_⟩) reached
  · rw [← covers.idle i unbegun,Function.update_eq_self]
    exact covers.holds
  · exact upholds_TelemetryUpdate _ (fun _ inside => inside) fun _ => ⟨rfl,List.nil_append _⟩

/-- What the page's server makes of an entry. -/
theorem parsed_value (around : Surroundings) (row : TelemetryRow vec3) :
    (PureDatabaseTelemetry.parseTabSeparatedColumns (around.client (value rendering row)) 7).map
      (around.client (entityField row.entityId)::·) = some ((shown rendering row).map chars) := by
  have plain : Plain (value rendering row) := by
    intro byte member
    rcases mem_separated member with rfl | ⟨column,inside,here⟩
    · decide
    · obtain ⟨text,whole,rfl⟩ := printed_columns row column inside
      exact plain_ascii whole byte here
  have some : chars (value rendering row) ≠ [] := by
    intro none
    have pieces := congrArg readRow (congrArg (Prod.mk (entityField row.entityId)) (List.map_eq_nil_iff.mp none))
    rw [readRow_value] at pieces
    cases pieces
  have renamed := splitOn_map chars_injective NetworkManifest.tab (value rendering row)
  rw [value,List.splitOn_intercalate _ (tab_not_mem_columns row) (List.cons_ne_nil _ _)] at renamed
  have pieces : (chars (value rendering row)).splitOn '\t' = (columns rendering row).map chars := renamed
  have field : around.client (entityField row.entityId) = chars (entityField row.entityId) :=
    around.client_ascii _ (plain_ascii (printable_decimal _))
  rw [around.client_ascii _ plain,PureDatabaseTelemetry.parseTabSeparatedColumns,if_neg some,pieces,field]
  rfl

section Rows
variable {rows : ι → List (TelemetryRow vec3)} {progress : ι → Progress vec3} {past : List Database} {db : Database}

omit [DecidableEq ι]

theorem Published.entries (published : Published rendering rows progress (past,db)) {pair : Bytes × Bytes}
    (inside : pair ∈ db.hash kAuthorityTelemetryTable) :
    ∃ i, ∃ row ∈ (progress i).written, pair = (entityField row.entityId,value rendering row) := by
  obtain ⟨i,row,written,field,payload⟩ := published.valued pair.1 pair.2 (Entries.get_mem published.distinct inside)
  exact ⟨i,row,written,Prod.ext field payload⟩

/-- The page's server makes of every entry what the addon makes of it. -/
theorem Published.parsed (published : Published rendering rows progress (past,db)) (around : Surroundings) :
    ((db.hash kAuthorityTelemetryTable).filterMap fun pair =>
      (PureDatabaseTelemetry.parseTabSeparatedColumns (around.client pair.2) 7).map (around.client pair.1::·)) =
    ((db.hash kAuthorityTelemetryTable).filterMap readRow).map (·.map chars) := by
  rw [List.map_filterMap]
  refine List.filterMap_congr fun pair member => ?_
  obtain ⟨i,row,_,rfl⟩ := published.entries member
  rw [parsed_value,readRow_value]
  rfl

theorem Published.heads (published : Published rendering rows progress (past,db)) :
    (((db.hash kAuthorityTelemetryTable).filterMap readRow).map List.head?).Nodup := by
  have heads : ((db.hash kAuthorityTelemetryTable).filterMap readRow).map List.head? =
      ((db.hash kAuthorityTelemetryTable).map (·.1)).map some := by
    rw [List.map_filterMap,List.map_map,← List.filterMap_eq_map]
    refine List.filterMap_congr fun pair member => ?_
    obtain ⟨i,row,_,rfl⟩ := published.entries member
    rw [readRow_value]
    rfl
  rw [heads]
  exact published.distinct.map (Option.some_injective _)

theorem Published.reads (published : Published rendering rows progress (past,db)) {i : ι} {row : TelemetryRow vec3}
    (written : row ∈ (progress i).written) :
    ∃ r ∈ (db.hash kAuthorityTelemetryTable).filterMap readRow, r.head? = some (entityField row.entityId) := by
  obtain ⟨payload,there⟩ := Option.isSome_iff_exists.mp (published.present i row written)
  have member := Entries.mem_of_get there
  obtain ⟨j,other,_,same⟩ := published.entries member
  refine ⟨shown rendering other,List.mem_filterMap.mpr ⟨_,member,?_⟩,?_⟩
  · rw [same,readRow_value]
  · rw [(Prod.mk.inj same).1]
    rfl

end Rows

/-- However the commands of the shards that publish their entities come in between each other,
the two readers find the same rows, one for each entity that a shard has published, and each
row whole as one shard has written it; the authority that is kept with an entity is the owner in
a row of it that has stood in the table. -/
theorem authority_rows (around : Surroundings) (rows : store.hash kAuthorityTelemetryTable = [])
    (metas : store.hash kAuthorityEntityMetaTable = [])
    (reached : (System.stepping {store} (Threads.move (program rendering name tracker nowMs))).Reachable threads) :
    ∃ found read, exec GetAllTelemetry threads.store = (.ok found,threads.store) ∧
      exec (databaseRead around) threads.store = (.ok read,threads.store) ∧ read.Perm (found.map (·.map chars)) ∧
      (found.map List.head?).Nodup ∧
      (∀ r ∈ found, ∃ i, threads.script i ≠ none ∧ ∃ row ∈ tracked name tracker i, r = shown rendering row) ∧
      (∀ i, threads.Ended i → ∀ row ∈ tracked name tracker i, ∃ r ∈ found, r.head? = some (entityField row.entityId)) ∧
      ∀ field payload, (threads.store.hash kAuthorityEntityMetaTable).get field = some payload →
        ∃ moment, (System.stepping {store} (Threads.move (program rendering name tracker nowMs))).Reachable moment ∧
          ((System.stepping {store} (Threads.move (program rendering name tracker nowMs))).behind moment).Reachable threads ∧
          ∃ i, ∃ row ∈ tracked name tracker i, ∃ nowMs, field = entityField row.entityId ∧
            (moment.store.hash kAuthorityTelemetryTable).get field = some (value rendering row) ∧
            payload = entityMetaValue row.owner.text nowMs := by
  obtain ⟨past,noted,passed⟩ := Threads.recorded_reached reached
  obtain ⟨progress,covers⟩ := rows_covered rows metas noted
  have published := covers.holds
  have begun (i : ι) (row : TelemetryRow vec3) (written : row ∈ (progress i).written) : threads.script i ≠ none := by
    intro unbegun
    rw [covers.idle i (Option.map_eq_none_iff.mpr unbegun)] at written
    exact absurd written List.not_mem_nil
  refine ⟨_,_,rfl,rfl,?_,published.heads,fun r inside => ?_,fun i stopped row mine => ?_,fun field payload there => ?_⟩
  · exact ((around.entered _).filterMap _).trans (List.Perm.of_eq (published.parsed around))
  · obtain ⟨pair,member,read⟩ := List.mem_filterMap.mp inside
    obtain ⟨i,row,written,rfl⟩ := published.entries member
    rw [readRow_value] at read
    exact ⟨i,begun i row written,row,published.own i row written,(Option.some.inj read).symm⟩
  · obtain ⟨result,ended⟩ := stopped
    obtain ⟨_,_,_,all⟩ := covers.finished ⟨result,congrArg (Option.map Script.recorded) ended⟩
    exact published.reads (all ▸ mine)
  · obtain ⟨_,_,nowMs,⟨_,inside,i,row,mine,rfl,rfl,stood⟩,rfl,same⟩ := published.metas field payload there
    obtain ⟨moment,before,rest,rfl⟩ := passed _ inside
    exact ⟨moment,before,rest,i,row,mine,nowMs,rfl,stood,same⟩

section Crossing

def zeros : Rendering Unit where
  coordinate _ _ := ['0']
  entity _ := []
  printable _ _ := rfl

def crossed (second : Bool) : EntityAuthorityTracker Unit :=
  AList.insert 7 {entitySnapshot := {Entity_ID := 7,transform := {world := if second then 2 else 1,position := ()}}} ∅

def shard (second : Bool) : NetworkIdentity := .MakeIDShard ⟨(if second then 2 else 1)::List.replicate 15 9,rfl⟩

def crossing : Move Bool → Threads Bool Database Unit → Option (Threads Bool Database Unit) :=
  Threads.move (program zeros shard crossed fun _ _ => 60000)

/-- Two shards publish an entity command by command in turn. -/
def published : Threads Bool Database Unit :=
  (System.replay crossing ([.begin false,.begin true] ++ (List.replicate 4 [.command true,.command false]).flatten)
    {store := Database.empty}).get rfl

theorem authority_rows_crossed : ∃ found read, exec GetAllTelemetry published.store = (.ok found,published.store) ∧
    exec (databaseRead NetworkTelemetry.plainly) published.store = (.ok read,published.store) ∧ read.Perm (found.map (·.map chars)) ∧
    (∃ r ∈ found, ∃ second, ∃ row ∈ tracked shard crossed second, r = shown zeros row) ∧
    ∃ moment, (System.stepping {store := Database.empty} crossing).Reachable moment ∧
      ∃ second, ∃ row ∈ tracked shard crossed second,
        (moment.store.hash kAuthorityTelemetryTable).get (entityField 7) = some (value zeros row) := by
  have reached : (System.stepping {store := Database.empty} crossing).Reachable published :=
    System.stepping_replay (fun _ _ _ => trivial) System.stepping_start (Option.some_get _).symm
  obtain ⟨found,read,native,database,same,_,whole,all,last⟩ := authority_rows NetworkTelemetry.plainly rfl rfl reached
  obtain ⟨r,inside,_⟩ := all false (by decide +kernel) _ List.mem_cons_self
  obtain ⟨second,_,row,mine,shown⟩ := whole r inside
  refine ⟨found,read,native,database,same,⟨r,inside,second,row,mine,shown⟩,?_⟩
  have kept : ((published.store.hash kAuthorityEntityMetaTable).get (entityField 7)).isSome := by decide +kernel
  obtain ⟨payload,there⟩ := Option.isSome_iff_exists.mp kept
  obtain ⟨moment,before,_,i,row,mine,_,_,stood,_⟩ := last _ payload there
  exact ⟨moment,before,i,row,mine,stood⟩

end Crossing

end Reading

end AtlasNet.AuthorityManifest
