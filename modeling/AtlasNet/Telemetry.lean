import AtlasNet.Interlink
import AtlasNet.Foundation.Streams
import Mathlib.Data.List.Induction

/-! The telemetry of the connections of every node: the rows that a node writes as
tab-separated lines, and the rows that a reader of the table finds. -/
namespace AtlasNet
open Foundation Foundation.Redis Foundation.Program Foundation.Streams

/-- `SteamNetConnectionRealTimeStatus_t`; a `float` is its bit pattern. -/
structure RealTimeStatus where
  m_nPing : Int32 := 0
  m_flInBytesPerSec : UInt32 := 0
  m_flOutBytesPerSec : UInt32 := 0
  m_flInPacketsPerSec : UInt32 := 0
  m_cbPendingReliable : Int32 := 0
  m_cbPendingUnreliable : Int32 := 0
  m_cbSentUnackedReliable : Int32 := 0
  m_usecQueueTime : Int64 := 0
  m_flConnectionQualityLocal : UInt32 := 0
  m_flConnectionQualityRemote : UInt32 := 0
  m_eState : Int32 := 0

structure ConnectionTelemetry where
  IdentityId : Bytes
  targetId : Bytes
  pingMs : Int32
  inBytesPerSec : UInt32
  outBytesPerSec : UInt32
  inPacketsPerSec : UInt32
  pendingReliableBytes : UInt32
  pendingUnreliableBytes : UInt32
  sentUnackedReliableBytes : UInt32
  queueTimeUsec : UInt64
  qualityLocal : UInt32
  qualityRemote : UInt32
  state : Int32

/-- The text of an identity as a string of the database. -/
def NetworkIdentity.text (ID : NetworkIdentity) : Bytes := ascii ID.toChars

/-- The connected entries with what the transport says of them, if there is a transport. -/
def Interlink.GetConnectionTelemetry (node : Interlink)
    (sockets : Option (Option HSteamNetConnection → RealTimeStatus)) : List ConnectionTelemetry :=
  match sockets with
  | none => []
  | some status => (node.Connections.filter (fun conn => conn.state = .eConnected)).map (fun conn => {
      IdentityId := node.ID.text
      targetId := conn.target.text
      pingMs := (status conn.SteamConnection).m_nPing
      inBytesPerSec := (status conn.SteamConnection).m_flInBytesPerSec
      outBytesPerSec := (status conn.SteamConnection).m_flOutBytesPerSec
      inPacketsPerSec := (status conn.SteamConnection).m_flInPacketsPerSec
      pendingReliableBytes := (status conn.SteamConnection).m_cbPendingReliable.toUInt32
      pendingUnreliableBytes := (status conn.SteamConnection).m_cbPendingUnreliable.toUInt32
      sentUnackedReliableBytes := (status conn.SteamConnection).m_cbSentUnackedReliable.toUInt32
      queueTimeUsec := (status conn.SteamConnection).m_usecQueueTime.toUInt64
      qualityLocal := (status conn.SteamConnection).m_flConnectionQualityLocal
      qualityRemote := (status conn.SteamConnection).m_flConnectionQualityRemote
      state := (status conn.SteamConnection).m_eState})

namespace NetworkManifest

def NetworkTelemetryTable : String := "Network_Telemetry"

def tab : UInt8 := 9
def newline : UInt8 := 10

def columns (telemetry : ConnectionTelemetry) : List Bytes :=
  [telemetry.IdentityId,telemetry.targetId,ascii (integer telemetry.pingMs.toInt),
    ascii (float telemetry.inBytesPerSec),ascii (float telemetry.outBytesPerSec),
    ascii (float telemetry.inPacketsPerSec),ascii (decimal telemetry.pendingReliableBytes.toNat),
    ascii (decimal telemetry.pendingUnreliableBytes.toNat),
    ascii (decimal telemetry.sentUnackedReliableBytes.toNat),ascii (decimal telemetry.queueTimeUsec.toNat),
    ascii (float telemetry.qualityLocal),ascii (float telemetry.qualityRemote),
    ascii (integer telemetry.state.toInt)]

def valueSS (connections : List ConnectionTelemetry) : Bytes :=
  connections.flatMap (fun telemetry => [tab].intercalate (columns telemetry) ++ [newline])

def TelemetryUpdate (identifier : NetworkIdentity) (connections : List ConnectionTelemetry) : Command Unit :=
  if connections = [] then pure () else hset NetworkTelemetryTable identifier.text (valueSS connections)

/-- The row of a line, unless the line is skipped. -/
def readRow (shardId : Bytes) (line : Bytes) : Option (List Bytes) :=
  if line = [] then none
  else if (getlines tab line).length ≠ 13 then none
  else some (shardId::getlines tab line)

def GetAllTelemetry : Command (List (List Bytes)) := do
  let all ← hgetall NetworkTelemetryTable
  pure (all.flatMap (fun pair => (getlines newline pair.2).filterMap (readRow pair.1)))

end NetworkManifest

section Text

theorem printable_name (type : NetworkIdentityType) : type.enum_to_string.all printable = true := by
  unfold NetworkIdentityType.enum_to_string
  split_ifs <;> decide

theorem printable_digit (n : Nat) (bound : n < 16) : printable (Nat.digitChar n) = true := by
  revert n
  decide

theorem printable_to_chars (i : Nat) (bytes : Bytes) : (to_chars i bytes).all printable = true := by
  induction bytes generalizing i with
  | nil => rfl
  | cons byte rest ih =>
    have bound := byte.toNat_lt
    have digits : (hex byte).all printable = true := by
      simp [hex,printable_digit (byte.toNat/16) (by omega),printable_digit (byte.toNat%16) (by omega)]
    simp only [to_chars,List.all_append,digits,ih,Bool.and_true,Bool.true_and]
    split <;> decide

theorem NetworkIdentity.printable_toChars (ID : NetworkIdentity) : ID.toChars.all printable = true := by
  rw [toChars_eq]
  split
  · exact printable_name ID.type
  · rw [List.all_append,List.all_cons,printable_name ID.type,UUID.to_string,printable_to_chars 0 ID.ID.data]
    rfl

theorem NetworkIdentity.text_inj (a b : NetworkIdentity) : a.text = b.text ↔ (a == b) = true := by
  rw [beq_toString]
  exact ⟨ascii_injective a.printable_toChars b.printable_toChars,congrArg ascii⟩

end Text

namespace NetworkManifest

/-- A call of `TelemetryUpdate` by the process of an Interlink. -/
structure Update where
  node : Interlink
  sockets : Option (Option HSteamNetConnection → RealTimeStatus)

def Update.connections (u : Update) : List ConnectionTelemetry := u.node.GetConnectionTelemetry u.sockets

def stored (updates : List Update) : Database :=
  updates.foldl (fun db u => (exec (TelemetryUpdate u.node.ID u.connections) db).2) .empty

def ofNode (ID : NetworkIdentity) (updates : List Update) : List Update := updates.filter (fun u => u.node.ID == ID)

def lastConnections (updates : List Update) : List ConnectionTelemetry :=
  match updates.getLast? with
  | some u => u.connections
  | none => []

def row (ID : NetworkIdentity) (telemetry : ConnectionTelemetry) : List Bytes := ID.text::columns telemetry

/-- The rows of every node are those of its last update, and every row is of a node that updated. -/
structure ShowsLatest (updates : List Update) (rows : List (List Bytes)) : Prop where
  latest : ∀ ID, rows.filter (fun row => row.head? = some ID.text) = (lastConnections (ofNode ID updates)).map (row ID)
  labelled : ∀ row ∈ rows, ∃ u ∈ updates, row.head? = some u.node.ID.text

section Rows
variable {telemetry : ConnectionTelemetry}

/-- Every column is a printed text, and the last one is not empty. -/
def Printed (telemetry : ConnectionTelemetry) : Prop :=
  ∀ column ∈ columns telemetry, ∃ text : List Char, text.all printable = true ∧ column = ascii text

theorem printed_connections (u : Update) : ∀ telemetry ∈ u.connections, Printed telemetry := by
  intro telemetry member
  unfold Update.connections Interlink.GetConnectionTelemetry at member
  split at member
  · exact absurd member List.not_mem_nil
  obtain ⟨conn,_,rfl⟩ := List.mem_map.mp member
  intro column inside
  simp only [columns,List.mem_cons,List.not_mem_nil,or_false] at inside
  rcases inside with rfl | rfl | rfl | rfl | rfl | rfl | rfl | rfl | rfl | rfl | rfl | rfl | rfl
  · exact ⟨_,u.node.ID.printable_toChars,rfl⟩
  · exact ⟨_,conn.target.printable_toChars,rfl⟩
  · exact ⟨_,printable_integer _,rfl⟩
  · exact ⟨_,(printable_float _).1,rfl⟩
  · exact ⟨_,(printable_float _).1,rfl⟩
  · exact ⟨_,(printable_float _).1,rfl⟩
  · exact ⟨_,printable_decimal _,rfl⟩
  · exact ⟨_,printable_decimal _,rfl⟩
  · exact ⟨_,printable_decimal _,rfl⟩
  · exact ⟨_,printable_decimal _,rfl⟩
  · exact ⟨_,(printable_float _).1,rfl⟩
  · exact ⟨_,(printable_float _).1,rfl⟩
  · exact ⟨_,printable_integer _,rfl⟩

theorem control_not_mem_columns (printed : Printed telemetry) {control : UInt8} (low : control.toNat < 32) :
    ∀ column ∈ columns telemetry, control ∉ column := by
  intro column member
  obtain ⟨text,whole,rfl⟩ := printed column member
  exact control_not_mem_ascii whole low

theorem getlines_line (printed : Printed telemetry) :
    getlines tab ([tab].intercalate (columns telemetry)) = columns telemetry := by
  have last : ascii (integer telemetry.state.toInt) ≠ [] :=
    fun none => integer_nonempty _ (List.map_eq_nil_iff.mp none)
  exact getlines_separated (control_not_mem_columns printed (by decide)) ⟨_,rfl,last⟩

theorem line_nonempty (printed : Printed telemetry) : [tab].intercalate (columns telemetry) ≠ [] := by
  intro none
  have pieces := getlines_line printed
  rw [none] at pieces
  cases pieces

theorem readRow_line (ID : NetworkIdentity) (printed : Printed telemetry) :
    readRow ID.text ([tab].intercalate (columns telemetry)) = some (row ID telemetry) := by
  rw [readRow,if_neg (line_nonempty printed),getlines_line printed,if_neg (fun other => other rfl)]
  rfl

theorem control_not_mem_line (printed : Printed telemetry) {control : UInt8} (low : control.toNat < 32) (apart : control ≠ tab) :
    control ∉ [tab].intercalate (columns telemetry) := by
  intro inside
  rcases mem_separated inside with same | ⟨column,found,here⟩
  · exact apart same
  · exact control_not_mem_columns printed low column found here

theorem newline_not_mem_lines {connections : List ConnectionTelemetry} (printed : ∀ telemetry ∈ connections, Printed telemetry) :
    ∀ line ∈ connections.map (fun telemetry => [tab].intercalate (columns telemetry)), newline ∉ line := by
  intro line member
  obtain ⟨telemetry,given,rfl⟩ := List.mem_map.mp member
  exact control_not_mem_line (printed telemetry given) (by decide) (by decide)

theorem splitOn_valueSS {connections : List ConnectionTelemetry} (printed : ∀ telemetry ∈ connections, Printed telemetry) :
    (valueSS connections).splitOn newline = connections.map (fun telemetry => [tab].intercalate (columns telemetry)) ++ [[]] := by
  have lines := splitOn_terminated (newline_not_mem_lines printed)
  rwa [List.flatMap_map] at lines

theorem rows_valueSS (ID : NetworkIdentity) {connections : List ConnectionTelemetry}
    (printed : ∀ telemetry ∈ connections, Printed telemetry) :
    (getlines newline (valueSS connections)).filterMap (readRow ID.text) = connections.map (row ID) := by
  have lines := getlines_terminated (newline_not_mem_lines printed)
  rw [List.flatMap_map] at lines
  have reads : ∀ telemetry ∈ connections, (readRow ID.text ∘ fun telemetry => [tab].intercalate (columns telemetry)) telemetry =
      some (row ID telemetry) := fun telemetry member => readRow_line ID (printed telemetry member)
  rw [valueSS,lines,List.filterMap_map,List.filterMap_congr reads]
  exact congrFun List.filterMap_eq_map connections

end Rows

section Table

/-- The updates that write: those with a connection. -/
def filled (updates : List Update) : List Update := updates.filter (fun u => !u.connections.isEmpty)

theorem filled_snoc_empty {u : Update} (none : u.connections = []) (updates : List Update) :
    filled (updates ++ [u]) = filled updates := by
  simp [filled,List.filter_append,none]

theorem filled_snoc {u : Update} (some : u.connections ≠ []) (updates : List Update) :
    filled (updates ++ [u]) = filled updates ++ [u] := by
  simp [filled,List.filter_append,some]

theorem ofNode_snoc {u : Update} {ID : NetworkIdentity} (mine : (u.node.ID == ID) = true) (updates : List Update) :
    ofNode ID (updates ++ [u]) = ofNode ID updates ++ [u] := by
  simp [ofNode,List.filter_append,mine]

theorem ofNode_snoc_other {u : Update} {ID : NetworkIdentity} (other : ¬ (u.node.ID == ID) = true) (updates : List Update) :
    ofNode ID (updates ++ [u]) = ofNode ID updates := by
  simp [ofNode,List.filter_append,other]

/-- What the updates leave in the table: for each node the lines of its last update
with a connection. -/
structure Holds (updates : List Update) (hash : Hash) : Prop where
  distinct : (hash.map (·.1)).Nodup
  keyed : ∀ key ∈ hash.map (·.1), ∃ u ∈ updates, key = u.node.ID.text
  valued : ∀ ID : NetworkIdentity, hash.get ID.text =
    (filled (ofNode ID updates)).getLast?.map (fun u => valueSS u.connections)

theorem holds_TelemetryUpdate {updates : List Update} {db : Database} (u : Update)
    (holds : Holds updates (db.hash NetworkTelemetryTable)) :
    Holds (updates ++ [u]) ((exec (TelemetryUpdate u.node.ID u.connections) db).2.hash NetworkTelemetryTable) := by
  have keys (key : Bytes) (known : ∃ v ∈ updates, key = v.node.ID.text) : ∃ v ∈ updates ++ [u], key = v.node.ID.text := by
    obtain ⟨v,member,same⟩ := known
    exact ⟨v,List.mem_append_left _ member,same⟩
  by_cases none : u.connections = []
  · have unwritten : exec (TelemetryUpdate u.node.ID u.connections) db = (.ok (),db) := by
      rw [TelemetryUpdate,if_pos none]
      rfl
    rw [unwritten]
    refine ⟨holds.distinct,fun key member => keys key (holds.keyed key member),fun ID => ?_⟩
    rw [holds.valued]
    by_cases mine : (u.node.ID == ID) = true
    · rw [ofNode_snoc mine,filled_snoc_empty none]
    · rw [ofNode_snoc_other mine]
  · have written : exec (TelemetryUpdate u.node.ID u.connections) db = (.ok (),db.withHash NetworkTelemetryTable
        ((db.hash NetworkTelemetryTable).put u.node.ID.text (valueSS u.connections))) := by
      rw [TelemetryUpdate,if_neg none]
      rfl
    rw [written,withHash_self]
    refine ⟨Entries.keys_put_nodup _ _ _ holds.distinct,fun key member => ?_,fun ID => ?_⟩
    · rcases (Entries.mem_keys_put ..).mp member with rfl | before
      · exact ⟨u,List.mem_append_right _ List.mem_cons_self,rfl⟩
      · exact keys key (holds.keyed key before)
    · by_cases mine : (u.node.ID == ID) = true
      · rw [← (NetworkIdentity.text_inj _ _).mpr mine,Entries.get_put_self,ofNode_snoc mine,filled_snoc none,
          List.getLast?_concat]
        rfl
      · have different : ID.text ≠ u.node.ID.text := fun same => mine ((NetworkIdentity.text_inj _ _).mp same.symm)
        rw [Entries.get_put_other _ _ _ _ different,holds.valued,ofNode_snoc_other mine]

theorem holds_stored (updates : List Update) : Holds updates ((stored updates).hash NetworkTelemetryTable) := by
  induction updates using List.reverseRecOn with
  | nil => exact ⟨List.nodup_nil,nofun,fun _ => rfl⟩
  | append_singleton updates u ih =>
    have last : stored (updates ++ [u]) = (exec (TelemetryUpdate u.node.ID u.connections) (stored updates)).2 :=
      List.foldl_concat ..
    rw [last]
    exact holds_TelemetryUpdate u ih

/-- The updates leave the other tables empty. -/
theorem hash_stored {key : String} (different : key ≠ NetworkTelemetryTable) (updates : List Update) : (stored updates).hash key = [] := by
  induction updates using List.reverseRecOn with
  | nil => rfl
  | append_singleton updates u ih =>
    have last : stored (updates ++ [u]) = (exec (TelemetryUpdate u.node.ID u.connections) (stored updates)).2 :=
      List.foldl_concat ..
    rw [last,TelemetryUpdate]
    split
    · exact ih
    · exact (withHash_other _ _ _ _ different).trans ih

theorem readRow_head {label line : Bytes} {row : List Bytes} (reads : readRow label line = some row) :
    row.head? = some label := by
  unfold readRow at reads
  split at reads
  · cases reads
  split at reads
  · cases reads
  · cases reads
    rfl

theorem filter_rows {hash : Hash} (distinct : (hash.map (·.1)).Nodup) (label : Bytes) :
    (hash.flatMap (fun pair => (getlines newline pair.2).filterMap (readRow pair.1))).filter
      (fun row => row.head? = some label) =
      ((hash.get label).map (fun value => (getlines newline value).filterMap (readRow label))).getD [] := by
  induction hash with
  | nil => rfl
  | cons pair rest ih =>
    obtain ⟨absent,apart⟩ := List.nodup_cons.mp distinct
    have heads : ∀ row ∈ (getlines newline pair.2).filterMap (readRow pair.1), row.head? = some pair.1 := by
      intro row member
      obtain ⟨line,_,reads⟩ := List.mem_filterMap.mp member
      exact readRow_head reads
    rw [List.flatMap_cons,List.filter_append,ih apart]
    by_cases here : pair.1 = label
    · subst here
      have whole : ((getlines newline pair.2).filterMap (readRow pair.1)).filter (fun row => row.head? = some pair.1) =
          (getlines newline pair.2).filterMap (readRow pair.1) :=
        List.filter_eq_self.mpr (fun row member => decide_eq_true (heads row member))
      rw [whole,Entries.get_none absent,Entries.get,if_pos rfl]
      exact List.append_nil _
    · have none : ((getlines newline pair.2).filterMap (readRow pair.1)).filter (fun row => row.head? = some label) = [] := by
        refine List.filter_eq_nil_iff.mpr (fun row member same => here ?_)
        exact Option.some.inj ((heads row member).symm.trans (of_decide_eq_true same))
      rw [none,Entries.get,if_neg here]
      rfl

theorem rows_of_holds {updates : List Update} {hash : Hash} (holds : Holds updates hash) (ID : NetworkIdentity) :
    (hash.flatMap (fun pair => (getlines newline pair.2).filterMap (readRow pair.1))).filter (fun row => row.head? = some ID.text) =
      (lastConnections (filled (ofNode ID updates))).map (row ID) := by
  rw [filter_rows holds.distinct,holds.valued,lastConnections]
  cases last : (filled (ofNode ID updates)).getLast? with
  | none => rfl
  | some u => exact rows_valueSS ID (printed_connections u)

theorem rows_of_node (updates : List Update) (ID : NetworkIdentity) :
    (((stored updates).hash NetworkTelemetryTable).flatMap
      (fun pair => (getlines newline pair.2).filterMap (readRow pair.1))).filter (fun row => row.head? = some ID.text) =
      (lastConnections (filled (ofNode ID updates))).map (row ID) :=
  rows_of_holds (holds_stored updates) ID

theorem lastConnections_filled (updates : List Update) (some : lastConnections updates ≠ []) :
    lastConnections (filled updates) = lastConnections updates := by
  induction updates using List.reverseRecOn with
  | nil => rfl
  | append_singleton updates u _ =>
    have connected : u.connections ≠ [] := by
      simpa [lastConnections] using some
    rw [filled_snoc connected,lastConnections,lastConnections,List.getLast?_concat,List.getLast?_concat]

theorem filled_eq_nil (updates : List Update) : lastConnections (filled updates) = [] ↔
    ∀ u ∈ updates, u.connections = [] := by
  have empty : filled updates = [] ↔ ∀ u ∈ updates, u.connections = [] := by
    simp [filled]
  rw [← empty,lastConnections]
  constructor
  · intro nothing
    cases last : (filled updates).getLast? with
    | none => exact List.getLast?_eq_none_iff.mp last
    | some u =>
      rw [last] at nothing
      have member := List.mem_filter.mp (List.mem_of_getLast? last)
      simp [nothing] at member
  · intro nothing
    rw [nothing]
    rfl

end Table

theorem exec_GetAllTelemetry (updates : List Update) : exec GetAllTelemetry (stored updates) =
    (.ok (((stored updates).hash NetworkTelemetryTable).flatMap
      (fun pair => (getlines newline pair.2).filterMap (readRow pair.1))),stored updates) := rfl

theorem fresh_of_shows {updates : List Update} {rows : List (List Bytes)}
    (ran : exec GetAllTelemetry (stored updates) = (.ok rows,stored updates)) (shows : ShowsLatest updates rows)
    (ID : NetworkIdentity) : lastConnections (ofNode ID updates) ≠ [] ∨ ∀ u ∈ ofNode ID updates, u.connections = [] := by
  obtain rfl := Except.ok.inj (Prod.mk.inj ((exec_GetAllTelemetry updates).symm.trans ran)).1
  have latest := (rows_of_node updates ID).symm.trans (shows.latest ID)
  by_cases some : lastConnections (ofNode ID updates) = []
  · rw [some,List.map_nil,List.map_eq_nil_iff] at latest
    exact .inr ((filled_eq_nil _).mp latest)
  · exact .inl some

/-- The telemetry shows the latest connections of all nodes exactly when no node that once
had a connection has ended with an update without one. -/
theorem shows_latest_iff (updates : List Update) :
    (∃ rows, exec GetAllTelemetry (stored updates) = (.ok rows,stored updates) ∧ ShowsLatest updates rows) ↔
      ∀ ID, lastConnections (ofNode ID updates) ≠ [] ∨ ∀ u ∈ ofNode ID updates, u.connections = [] := by
  constructor
  · rintro ⟨rows,ran,shows⟩ ID
    exact fresh_of_shows ran shows ID
  · intro fresh
    refine ⟨_,exec_GetAllTelemetry updates,fun ID => ?_,fun row member => ?_⟩
    · rw [rows_of_node]
      rcases fresh ID with some | none
      · rw [lastConnections_filled _ some]
      · have last : lastConnections (ofNode ID updates) = [] := by
          by_contra some
          exact some ((lastConnections_filled _ some).symm.trans ((filled_eq_nil _).mpr none))
        rw [(filled_eq_nil _).mpr none,last]
    · obtain ⟨pair,entry,reads⟩ := List.mem_flatMap.mp member
      obtain ⟨line,_,taken⟩ := List.mem_filterMap.mp reads
      obtain ⟨u,given,same⟩ := (holds_stored updates).keyed pair.1 (List.mem_map_of_mem entry)
      exact ⟨u,given,same ▸ readRow_head taken⟩

def watchdogUpdate (Connections : List Connection) : Update where
  node := {ID := .MakeIDWatchDog,Connections,factories := [],db := .empty}
  sockets := some (fun _ => {})

/-- The row of a connection that has gone is still shown. -/
theorem stale_row : ¬ ∃ rows, exec GetAllTelemetry (stored [watchdogUpdate [{state := .eConnected}],watchdogUpdate []]) =
    (.ok rows,stored [watchdogUpdate [{state := .eConnected}],watchdogUpdate []]) ∧
      ShowsLatest [watchdogUpdate [{state := .eConnected}],watchdogUpdate []] rows := by
  rintro ⟨rows,ran,shows⟩
  have own (Connections : List Connection) : ((watchdogUpdate Connections).node.ID == NetworkIdentity.MakeIDWatchDog) = true :=
    BEq.rfl
  have both : ofNode .MakeIDWatchDog [watchdogUpdate [{state := .eConnected}],watchdogUpdate []] =
      [watchdogUpdate [{state := .eConnected}],watchdogUpdate []] := by
    refine List.filter_eq_self.mpr (fun u member => ?_)
    rcases List.mem_pair.mp member with rfl | rfl
    · exact own _
    · exact own _
  rcases fresh_of_shows ran shows .MakeIDWatchDog with some | none
  · rw [both] at some
    exact some rfl
  · rw [both] at none
    cases none _ List.mem_cons_self

end NetworkManifest

end AtlasNet
