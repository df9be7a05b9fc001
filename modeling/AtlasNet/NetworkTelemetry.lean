import AtlasNet.Telemetry
import AtlasNet.HealthManifest
import AtlasNet.HardcodedDecoders
import AtlasNet.Foundation.KeyedQueue
import Mathlib.Data.List.Lex

/-! The network telemetry of the map in its two collection modes: the live servers and the rows
of their connections, read through the addon or from the database, and grouped by server. -/
namespace AtlasNet
open Foundation Foundation.Program Foundation.Redis Foundation.Streams

/-- What is not in the repository: the strings that the addon and the Redis client make of bytes,
and the orders in which maps are iterated. -/
structure Surroundings where
  addon : Bytes → List Char
  client : Bytes → List Char
  iteration : HealthManifest.Pings → HealthManifest.Pings
  entries : Hash → Hash
  addon_ascii : ∀ bytes : Bytes, (∀ byte ∈ bytes, byte.toNat < 128) → addon bytes = chars bytes
  client_ascii : ∀ bytes : Bytes, (∀ byte ∈ bytes, byte.toNat < 128) → client bytes = chars bytes
  iterated : ∀ pings, (iteration pings).Perm pings
  entered : ∀ hash, (entries hash).Perm hash

namespace JavaScript

def whitespace (c : Char) : Bool :=
  c.toNat ∈ [9,10,11,12,13,32,160,5760,8232,8233,8239,8287,12288,65279] || (8192 ≤ c.toNat && c.toNat ≤ 8202)

def trim (text : List Char) : List Char := (text.dropWhile whitespace).rdropWhile whitespace

/-- A character beyond the first plane is a pair of surrogates. -/
def codeUnits (text : List Char) : List Nat :=
  text.flatMap fun c => if c.toNat < 0x10000 then [c.toNat]
    else [0xd800+(c.toNat-0x10000)/0x400,0xdc00+(c.toNat-0x10000)%0x400]

def sort (texts : List (List Char)) : List (List Char) := texts.mergeSort fun a b => decide (codeUnits a ≤ codeUnits b)

def withoutReturn (line : List Char) : List Char := if line.getLast? = some '\r' then line.dropLast else line

/-- `split(/\r?\n/)`: a return goes with the newline behind it. -/
def splitLines (text : List Char) : List (List Char) :=
  (text.splitOn '\n').dropLast.map withoutReturn ++ (text.splitOn '\n').getLast?.toList

end JavaScript

namespace NetworkTelemetry
open HealthManifest NetworkManifest JavaScript

def GetLivePingIDs (iteration : Pings → Pings) : Command (List Bytes × List Bytes) := do
  let all_pings ← GetAllPings
  let out ← (iteration all_pings).mapM fun pair => do
    let id ← within NetworkIdentity.Deserialize {p := pair.1}
    return (id.text,ascii (seconds pair.2))
  return (out.map (·.1),out.map (·.2))

section Rows
variable {ν : Type} [Zero ν] [Add ν] [Div ν] [NatCast ν] (toNumber : List Char → ν)

structure ConnectionRow (ν : Type) where
  shardId : Option (List Char)
  IdentityId : List Char
  targetId : List Char
  pingMs : ν
  inBytesPerSec : ν
  outBytesPerSec : ν
  inPacketsPerSec : ν
  pendingReliableBytes : ν
  pendingUnreliableBytes : ν
  sentUnackedReliableBytes : ν
  queueTimeUsec : ν
  qualityLocal : ν
  qualityRemote : ν
  state : List Char

def decodeConnectionRow (row : List (List Char)) : ConnectionRow ν :=
  let hasShardId := 14 ≤ row.length
  let offset := if hasShardId then 1 else 0
  let column (i : Nat) := row.getD (offset+i) []
  { shardId := if hasShardId then some (row.getD 0 []) else none
    IdentityId := column 0
    targetId := column 1
    pingMs := toNumber (column 2)
    inBytesPerSec := toNumber (column 3)
    outBytesPerSec := toNumber (column 4)
    inPacketsPerSec := toNumber (column 5)
    pendingReliableBytes := toNumber (column 6)
    pendingUnreliableBytes := toNumber (column 7)
    sentUnackedReliableBytes := toNumber (column 8)
    queueTimeUsec := toNumber (column 9)
    qualityLocal := toNumber (column 10)
    qualityRemote := toNumber (column 11)
    state := column 12}

def computeShardAverages (connections : List (ConnectionRow ν)) : ν × ν :=
  if connections = [] then (0,0)
  else
    ((connections.map (·.inBytesPerSec)).foldl (· + ·) 0 / (connections.length : ν),
      (connections.map (·.outBytesPerSec)).foldl (· + ·) 0 / (connections.length : ν))

structure Shard (ν : Type) where
  shardId : List Char
  downloadKbps : ν
  uploadKbps : ν
  connections : List (ConnectionRow ν)

def groupRow (rowsByShard : KeyedQueue (List Char) (ConnectionRow ν)) (row : List (List Char)) :
    KeyedQueue (List Char) (ConnectionRow ν) :=
  if row.length < 13 then rowsByShard
  else
    let decoded := decodeConnectionRow toNumber row
    let shardId := trim (decoded.shardId.getD decoded.IdentityId)
    if shardId = [] then rowsByShard else rowsByShard.push shardId decoded

def buildNetworkTelemetry (ids : List (List Char)) (rows : List (List (List Char))) : List (Shard ν) :=
  let normalizedIds := (ids.map trim).filter (· ≠ [])
  let rowsByShard := rows.foldl (groupRow toNumber) {}
  let orderedShardIds := KeyedQueue.firsts (normalizedIds ++ sort rowsByShard.keys)
  orderedShardIds.map fun id =>
    let connections := rowsByShard.queue id
    let (inAvg,outAvg) := computeShardAverages connections
    {shardId := id,downloadKbps := inAvg,uploadKbps := outAvg,connections}

end Rows

/-- `readNetworkTelemetry` up to the call that builds the answer. -/
def hybridRead (around : Surroundings) : Command (List (List Char) × List (List (List Char))) := do
  let (idsVec,healthVec) ← GetLivePingIDs around.iteration
  let telemetryVec ← GetAllTelemetry
  let count := min idsVec.length healthVec.length
  return ((idsVec.take count).map around.addon,telemetryVec.map (List.map around.addon))

end NetworkTelemetry

namespace PureDatabaseTelemetry
open WatchDog NetworkManifest JavaScript

def NETWORK_TELEMETRY_COLUMN_COUNT : Nat := 13

def parseTabSeparatedColumns (payload : List Char) (expectedColumnCount : Nat) : Option (List (List Char)) :=
  if payload = [] then none
  else
    let columns := payload.splitOn '\t'
    if columns.length ≠ expectedColumnCount then none else some columns

/-- What is too short for an identity is a string as it is. -/
def identityString (around : Surroundings) (rawId : Bytes) : List Char :=
  match decodeNetworkIdentity rawId with
  | .text decoded | .trailing decoded _ => decoded
  | .shown raw => around.client raw

def liveShardIds (around : Surroundings) (idsRaw : List Bytes) : List (List Char) :=
  (idsRaw.map fun rawId => trim (identityString around rawId)).filter (· ≠ [])

def shardRow (shardId line : List Char) : Option (List (List Char)) :=
  if line = [] then none
  else (parseTabSeparatedColumns line NETWORK_TELEMETRY_COLUMN_COUNT).map (shardId::·)

def shardRows (around : Surroundings) (pair : Bytes × Bytes) : List (List (List Char)) :=
  (splitLines (around.client pair.2)).filterMap (shardRow (around.client pair.1))

/-- `readNetworkTelemetryFromDatabase` up to the call that builds the answer. -/
def databaseRead (around : Surroundings) : Command (List (List Char) × List (List (List Char))) := do
  let idsRaw := (← hgetall HealthPingTable).map (·.1)
  let allTelemetry ← hgetall NetworkTelemetryTable
  return (liveShardIds around idsRaw,(around.entries allTelemetry).flatMap (shardRows around))

end PureDatabaseTelemetry

inductive CollectionMode
  | PURE_DATABASE | INTERLINK_HYBRID
deriving DecidableEq

namespace CollectionMode

def COLLECTION_MODE : CollectionMode := INTERLINK_HYBRID

/-- The mode of the database is the number 0, in whose place `||` puts the default. -/
def resolveCollectionMode : Option CollectionMode → CollectionMode
  | some INTERLINK_HYBRID => INTERLINK_HYBRID
  | _ => COLLECTION_MODE

/-- No request leads to the database mode. -/
theorem resolveCollectionMode_hybrid (requestedMode : Option CollectionMode) :
    resolveCollectionMode requestedMode = INTERLINK_HYBRID := by
  cases requestedMode with
  | none => rfl
  | some mode => cases mode <;> rfl

end CollectionMode

namespace NetworkTelemetry
open WatchDog HealthManifest NetworkManifest JavaScript PureDatabaseTelemetry CollectionMode
variable {ν : Type} (toNumber : List Char → ν)

def collectNetworkTelemetry [Zero ν] [Add ν] [Div ν] [NatCast ν] (around : Surroundings) (hasAddon : Bool) (requestedMode : Option CollectionMode) :
    Command (CollectionMode × List (Shard ν)) := do
  match resolveCollectionMode requestedMode with
  | PURE_DATABASE =>
    let (ids,rows) ← databaseRead around
    return (PURE_DATABASE,buildNetworkTelemetry toNumber ids rows)
  | INTERLINK_HYBRID =>
    if hasAddon then
      let (ids,rows) ← hybridRead around
      return (INTERLINK_HYBRID,buildNetworkTelemetry toNumber ids rows)
    else
      let (ids,rows) ← databaseRead around
      return (PURE_DATABASE,buildNetworkTelemetry toNumber ids rows)

/-- The connection that a row of a node describes. -/
def connection (ID : NetworkIdentity) (telemetry : ConnectionTelemetry) : ConnectionRow ν where
  shardId := some ID.toChars
  IdentityId := chars telemetry.IdentityId
  targetId := chars telemetry.targetId
  pingMs := toNumber (integer telemetry.pingMs.toInt)
  inBytesPerSec := toNumber (float telemetry.inBytesPerSec)
  outBytesPerSec := toNumber (float telemetry.outBytesPerSec)
  inPacketsPerSec := toNumber (float telemetry.inPacketsPerSec)
  pendingReliableBytes := toNumber (decimal telemetry.pendingReliableBytes.toNat)
  pendingUnreliableBytes := toNumber (decimal telemetry.pendingUnreliableBytes.toNat)
  sentUnackedReliableBytes := toNumber (decimal telemetry.sentUnackedReliableBytes.toNat)
  queueTimeUsec := toNumber (decimal telemetry.queueTimeUsec.toNat)
  qualityLocal := toNumber (float telemetry.qualityLocal)
  qualityRemote := toNumber (float telemetry.qualityRemote)
  state := integer telemetry.state.toInt

/-- Every live server and every one with rows is shown once, with the connections of its last
update that had any. -/
structure Complete (db : Database) (updates : List Update) (shards : List (Shard ν)) : Prop where
  once : (shards.map (·.shardId)).Nodup
  listed : ∀ shardId, shardId ∈ shards.map (·.shardId) ↔
    (∃ ID : NetworkIdentity, ID.key ∈ (db.hash HealthPingTable).map (·.1) ∧ ID.toChars = shardId) ∨
      ∃ u ∈ updates, u.connections ≠ [] ∧ u.node.ID.toChars = shardId
  connections : ∀ shard ∈ shards, ∀ ID : NetworkIdentity, ID.toChars = shard.shardId →
    shard.connections = (lastConnections (filled (ofNode ID updates))).map (connection toNumber ID)

section Building

/-- The row of a shard's ID under which a row is grouped. -/
def labelled (row : List (List Char)) : Option (List Char × ConnectionRow ν) :=
  if row.length < 13 then none
  else
    let decoded := decodeConnectionRow toNumber row
    let shardId := trim (decoded.shardId.getD decoded.IdentityId)
    if shardId = [] then none else some (shardId,decoded)

theorem grouped_elements (rows : List (List (List Char))) (map : KeyedQueue (List Char) (ConnectionRow ν)) :
    (rows.foldl (groupRow toNumber) map).elements = map.elements ++ rows.filterMap (labelled toNumber) := by
  induction rows generalizing map with
  | nil => exact (List.append_nil _).symm
  | cons row rows ih =>
    rw [List.foldl_cons,ih]
    simp only [groupRow,labelled,List.filterMap_cons]
    split_ifs
    · rfl
    · rfl
    · simp [KeyedQueue.push,labelled]

variable [Zero ν] [Add ν] [Div ν] [NatCast ν]

theorem build_shardIds (ids : List (List Char)) (rows : List (List (List Char))) :
    ((buildNetworkTelemetry toNumber ids rows).map (·.shardId)).Nodup ∧
    ∀ shardId, shardId ∈ (buildNetworkTelemetry toNumber ids rows).map (·.shardId) ↔
      (shardId ∈ ids.map trim ∧ shardId ≠ []) ∨ shardId ∈ (rows.filterMap (labelled toNumber)).map (·.1) := by
  have shown : (buildNetworkTelemetry toNumber ids rows).map (·.shardId) = KeyedQueue.firsts ((ids.map trim).filter (· ≠ []) ++
      sort (rows.foldl (groupRow toNumber) {}).keys) := by
    rw [buildNetworkTelemetry,List.map_map]
    exact List.map_id _
  rw [shown]
  refine ⟨KeyedQueue.firsts_nodup _,fun shardId => ?_⟩
  rw [KeyedQueue.mem_firsts,List.mem_append,List.mem_filter,decide_eq_true_eq,sort,List.mem_mergeSort,KeyedQueue.keys,
    KeyedQueue.mem_firsts,grouped_elements]
  rfl

theorem build_connections (ids : List (List Char)) (rows : List (List (List Char))) :
    ∀ shard ∈ buildNetworkTelemetry toNumber ids rows,
      shard.connections = KeyedQueue.of shard.shardId (rows.filterMap (labelled toNumber)) := by
  intro shard member
  obtain ⟨shardId,_,rfl⟩ := List.mem_map.mp member
  change KeyedQueue.queue shardId (rows.foldl (groupRow toNumber) {}) = _
  rw [KeyedQueue.queue,grouped_elements]
  rfl

end Building

section Strings

theorem chars_injective : Function.Injective (fun byte : UInt8 => Char.ofNat byte.toNat) := by
  intro a b same
  have codes := congrArg Char.toNat same
  have small (byte : UInt8) : (Char.ofNat byte.toNat).toNat = byte.toNat := by
    have bound := byte.toNat_lt
    have valid : byte.toNat.isValidChar := .inl (by omega)
    rw [Char.ofNat,dif_pos valid]
    exact UInt32.toNat_ofNatLT ..
  simp only [small] at codes
  exact UInt8.toNat_inj.mp codes

/-- Every byte is a character of ASCII. -/
def Plain (bytes : Bytes) : Prop := ∀ byte ∈ bytes, byte.toNat < 128

theorem plain_ascii {text : List Char} (whole : text.all printable = true) : Plain (ascii text) := by
  intro byte member
  obtain ⟨c,inside,rfl⟩ := List.mem_map.mp member
  have here := List.all_eq_true.mp whole c inside
  have code := (printable_code here).1
  simp only [printable,Bool.and_eq_true,decide_eq_true_eq] at here
  omega

theorem plain_text (ID : NetworkIdentity) : Plain ID.text := plain_ascii ID.printable_toChars

theorem chars_text (ID : NetworkIdentity) : chars ID.text = ID.toChars := chars_ascii ID.printable_toChars

theorem plain_columns {telemetry : ConnectionTelemetry} (printed : Printed telemetry) : ∀ column ∈ columns telemetry, Plain column := by
  intro column member
  obtain ⟨text,whole,rfl⟩ := printed column member
  exact plain_ascii whole

theorem plain_row (ID : NetworkIdentity) {telemetry : ConnectionTelemetry} (printed : Printed telemetry) :
    ∀ column ∈ row ID telemetry, Plain column := by
  intro column member
  rcases List.mem_cons.mp member with rfl | inside
  · exact plain_text ID
  · exact plain_columns printed column inside

theorem mem_valueSS {connections : List ConnectionTelemetry} {byte : UInt8} (member : byte ∈ valueSS connections) :
    byte = tab ∨ byte = newline ∨ ∃ telemetry ∈ connections, ∃ column ∈ columns telemetry, byte ∈ column := by
  obtain ⟨telemetry,given,inside⟩ := List.mem_flatMap.mp member
  rcases List.mem_append.mp inside with line | last
  · rcases mem_separated line with same | ⟨column,found,here⟩
    · exact .inl same
    · exact .inr (.inr ⟨telemetry,given,column,found,here⟩)
  · exact .inr (.inl (List.mem_singleton.mp last))

theorem plain_valueSS {connections : List ConnectionTelemetry} (printed : ∀ telemetry ∈ connections, Printed telemetry) :
    Plain (valueSS connections) := by
  intro byte member
  rcases mem_valueSS member with rfl | rfl | ⟨telemetry,given,column,found,here⟩
  · decide
  · decide
  · exact plain_columns (printed telemetry given) column found byte here

theorem whitespace_word {c : Char} (word : wordly c = true) (shown : printable c = true) : whitespace c = false := by
  simp only [wordly,Bool.and_eq_true,decide_eq_true_eq] at word
  simp only [printable,Bool.and_eq_true,decide_eq_true_eq] at shown
  have apart : c.toNat ≠ 32 := fun space => word.2 (Char.toNat_inj.mp space)
  have inner : c.toNat ∉ [9,10,11,12,13,32,160,5760,8232,8233,8239,8287,12288,65279] := by
    simp only [List.mem_cons,List.not_mem_nil,or_false]
    omega
  have below : ¬ (8192 ≤ c.toNat) := by omega
  rw [whitespace,decide_eq_false inner,decide_eq_false below]
  rfl

theorem trim_ends {text : List Char} (first : ∀ c ∈ text.head?, whitespace c = false)
    (last : ∀ c ∈ text.getLast?, whitespace c = false) : trim text = text := by
  have front : text.dropWhile whitespace = text := by
    cases text with
    | nil => rfl
    | cons c rest => rw [List.dropWhile_cons,first c rfl,if_neg Bool.false_ne_true]
  rw [trim,front]
  apply List.rdropWhile_eq_self_iff.mpr
  intro some
  rw [last _ (List.getLast?_eq_some_getLast some)]
  exact Bool.false_ne_true

theorem trim_toChars (ID : NetworkIdentity) : trim ID.toChars = ID.toChars := by
  have shown := List.all_eq_true.mp ID.printable_toChars
  have name := List.all_eq_true.mp (wordly_name ID.type)
  have digits := List.all_eq_true.mp (wordly_to_chars 0 ID.ID.data)
  apply trim_ends
  · intro c first
    refine whitespace_word (name c ?_) (shown c (List.mem_of_head? first))
    rw [NetworkIdentity.toChars_eq] at first
    split at first
    · exact List.mem_of_head? first
    · rw [List.head?_append_of_ne_nil _ (name_nonempty ID.type)] at first
      exact List.mem_of_head? first
  · intro c last
    refine whitespace_word ?_ (shown c (List.mem_of_getLast? last))
    rw [NetworkIdentity.toChars_eq] at last
    split at last
    · exact name c (List.mem_of_getLast? last)
    · rw [List.getLast?_append_of_ne_nil _ (List.cons_ne_nil _ _),
        List.getLast?_cons_of_ne_nil (NetworkIdentity.to_string_nonempty ID.ID)] at last
      exact digits c (List.mem_of_getLast? last)

end Strings

section Reading
variable (around : Surroundings) {db : Database} {updates : List Update} {hash : Hash}

theorem withoutReturn_clean {line : List Char} (clean : '\r' ∉ line) : withoutReturn line = line :=
  if_neg fun last => clean (List.mem_of_getLast? last)

theorem splitLines_valueSS {connections : List ConnectionTelemetry} (printed : ∀ telemetry ∈ connections, Printed telemetry) :
    splitLines (chars (valueSS connections)) =
      connections.map (fun telemetry => chars ([tab].intercalate (columns telemetry))) ++ [[]] := by
  have pieces : (chars (valueSS connections)).splitOn '\n' =
      connections.map (fun telemetry => chars ([tab].intercalate (columns telemetry))) ++ [[]] := by
    have renamed := splitOn_map chars_injective newline (valueSS connections)
    rw [splitOn_valueSS printed,List.map_append,List.map_map] at renamed
    exact renamed
  rw [splitLines,pieces,List.dropLast_concat,List.getLast?_concat,List.map_map]
  refine congrArg (· ++ [[]]) (List.map_congr_left fun telemetry given => ?_)
  apply withoutReturn_clean
  intro member
  have inside : (13 : UInt8) ∈ [tab].intercalate (columns telemetry) := (List.mem_map_of_injective chars_injective).mp member
  exact control_not_mem_line (printed telemetry given) (by decide) (by decide) inside

theorem splitOn_line {telemetry : ConnectionTelemetry} (printed : Printed telemetry) :
    (chars ([tab].intercalate (columns telemetry))).splitOn '\t' = (columns telemetry).map chars := by
  have renamed := splitOn_map chars_injective tab ([tab].intercalate (columns telemetry))
  rw [List.splitOn_intercalate tab (control_not_mem_columns printed (by decide)) (List.cons_ne_nil _ _)] at renamed
  exact renamed

theorem shardRows_written (ID : NetworkIdentity) {connections : List ConnectionTelemetry}
    (printed : ∀ telemetry ∈ connections, Printed telemetry) :
    shardRows around (ID.text,valueSS connections) = connections.map fun telemetry => (row ID telemetry).map chars := by
  have reads : ∀ telemetry ∈ connections, (shardRow (chars ID.text) ∘ fun telemetry => chars ([tab].intercalate (columns telemetry)))
      telemetry = some ((row ID telemetry).map chars) := by
    intro telemetry given
    have some : chars ([tab].intercalate (columns telemetry)) ≠ [] :=
      fun none => line_nonempty (printed telemetry given) (List.map_eq_nil_iff.mp none)
    rw [Function.comp_apply,shardRow,if_neg some,parseTabSeparatedColumns,if_neg some,splitOn_line (printed telemetry given)]
    rfl
  rw [shardRows,around.client_ascii _ (plain_text ID),around.client_ascii _ (plain_valueSS printed),splitLines_valueSS printed,
    List.filterMap_append,List.filterMap_map,List.filterMap_congr reads]
  exact (List.append_nil _).trans (congrFun List.filterMap_eq_map' connections)

/-- The rows of a table, with columns of bytes. -/
def tableRows (hash : Hash) : List (List Bytes) :=
  hash.flatMap (fun pair => (getlines newline pair.2).filterMap (readRow pair.1))

theorem holds_perm {other : Hash} (same : other.Perm hash) (holds : Holds updates hash) : Holds updates other where
  distinct := (same.map (·.1)).nodup_iff.mpr holds.distinct
  keyed key member := holds.keyed key ((same.map (·.1)).mem_iff.mp member)
  valued ID := (Entries.get_perm same holds.distinct _).trans (holds.valued ID)

theorem holds_pair (holds : Holds updates hash) {pair : Bytes × Bytes} (member : pair ∈ hash) :
    ∃ u ∈ updates, pair = (u.node.ID.text,valueSS u.connections) := by
  obtain ⟨v,_,label⟩ := holds.keyed pair.1 (List.mem_map_of_mem member)
  have value := Entries.get_mem holds.distinct (show (pair.1,pair.2) ∈ hash from member)
  rw [label,holds.valued,Option.map_eq_some_iff] at value
  obtain ⟨u,last,lines⟩ := value
  obtain ⟨own,_⟩ := List.mem_filter.mp (List.mem_of_getLast? last)
  obtain ⟨given,mine⟩ := List.mem_filter.mp own
  exact ⟨u,given,Prod.ext (label.trans ((NetworkIdentity.text_inj _ _).mpr mine).symm) lines.symm⟩

theorem mem_tableRows (holds : Holds updates hash) {line : List Bytes} (member : line ∈ tableRows hash) :
    ∃ u ∈ updates, ∃ telemetry ∈ u.connections, line = row u.node.ID telemetry := by
  obtain ⟨pair,inside,found⟩ := List.mem_flatMap.mp member
  obtain ⟨u,given,rfl⟩ := holds_pair holds inside
  rw [rows_valueSS u.node.ID (printed_connections u)] at found
  obtain ⟨telemetry,shown,rfl⟩ := List.mem_map.mp found
  exact ⟨u,given,telemetry,shown,rfl⟩

theorem addon_rows (holds : Holds updates hash) :
    (tableRows hash).map (List.map around.addon) = (tableRows hash).map (List.map chars) := by
  apply List.map_congr_left
  intro line member
  obtain ⟨u,_,telemetry,given,rfl⟩ := mem_tableRows holds member
  apply List.map_congr_left
  exact fun column inside => around.addon_ascii _ (plain_row u.node.ID (printed_connections u telemetry given) column inside)

theorem shardRows_table (holds : Holds updates hash) :
    hash.flatMap (shardRows around) = (tableRows hash).map (List.map chars) := by
  rw [tableRows,List.map_flatMap]
  apply List.flatMap_congr
  intro pair member
  obtain ⟨u,_,rfl⟩ := holds_pair holds member
  rw [shardRows_written around u.node.ID (printed_connections u),rows_valueSS u.node.ID (printed_connections u),List.map_map]
  rfl

theorem tableRows_perm {other : Hash} (same : other.Perm hash) : (tableRows other).Perm (tableRows hash) :=
  same.flatMap_right _

/-- The text that `GetLivePingIDs` makes of a key. -/
def textOf (key : Bytes) : Bytes :=
  match (exec NetworkIdentity.Deserialize {p := key}).1 with
  | .ok id => id.text
  | .error _ => []

theorem textOf_key (ID : NetworkIdentity) : textOf ID.key = ID.text := by
  rw [textOf,ID.Deserialize_key]

/-- Every field of the table of pings belongs to a server of a declared type. -/
def Declared (db : Database) : Prop :=
  ∀ rawId ∈ (db.hash HealthPingTable).map (·.1), ∃ ID : NetworkIdentity, ID.type ∈ HardcodedDecoders.declaredTypes ∧ rawId = ID.key

/-- Every value of the table of pings is a number without blanks, sign and exponent. -/
def Timed (db : Database) : Prop := ∀ entry ∈ db.hash HealthPingTable, (stod entry.2).isSome = true

theorem timed_kept (kept : Kept db) : Timed db := by
  intro entry member
  obtain ⟨us,text⟩ := kept.printed entry member
  rw [text,stod_seconds]
  rfl

theorem readPings_timed {table : Hash} (timed : ∀ entry ∈ table, (stod entry.2).isSome = true) :
    ∃ pings, readPings table = some pings ∧ pings.map (·.1) = table.map (·.1) := by
  induction table with
  | nil => exact ⟨[],rfl,rfl⟩
  | cons entry rest ih =>
    obtain ⟨score,read⟩ := Option.isSome_iff_exists.mp (timed entry List.mem_cons_self)
    obtain ⟨pings,found,keys⟩ := ih fun other member => timed other (List.mem_cons_of_mem _ member)
    exact ⟨(entry.1,score)::pings,by simp [readPings,read,found],congrArg _ keys⟩

theorem exec_GetLivePingIDs (timed : Timed db) (declared : Declared db) :
    ∃ pings : Pings, (pings.map (·.1)).Perm ((db.hash HealthPingTable).map (·.1)) ∧
      exec (GetLivePingIDs around.iteration) db =
        (.ok (pings.map (fun pair => textOf pair.1),pings.map (fun pair => ascii (seconds pair.2))),db) := by
  obtain ⟨all_pings,read,keys⟩ := readPings_timed timed
  have ran : exec GetAllPings db = (.ok all_pings,db) := by
    have all : exec (hgetall HealthPingTable) db = (.ok (db.hash HealthPingTable),db) := rfl
    rw [GetAllPings,exec_bind_ok _ _ _ _ _ all,read]
    rfl
  have same := (around.iterated all_pings).map (·.1)
  rw [keys] at same
  refine ⟨around.iteration all_pings,same,?_⟩
  have each : ∀ pair ∈ around.iteration all_pings, exec (do
      let id ← within NetworkIdentity.Deserialize {p := pair.1}
      return (id.text,ascii (seconds pair.2)) : Command (Bytes × Bytes)) db =
        (.ok (textOf pair.1,ascii (seconds pair.2)),db) := by
    intro pair member
    obtain ⟨ID,_,key⟩ := declared pair.1 (same.mem_iff.mp (List.mem_map_of_mem member))
    have identity : exec (within NetworkIdentity.Deserialize {p := pair.1} : Command NetworkIdentity) db = (.ok ID,db) := by
      rw [exec_within,key,ID.Deserialize_key]
    rw [exec_bind_ok _ _ _ _ _ identity,key,textOf_key]
    rfl
  rw [GetLivePingIDs,exec_bind_ok _ _ _ _ _ ran,exec_bind_ok _ _ _ _ _ (exec_mapM _ each)]
  simp only [List.map_map]
  rfl

theorem typeName_declared : ∀ type ∈ HardcodedDecoders.declaredTypes, typeName type.code.toUInt32 = type.enum_to_string := by
  decide

theorem nil_to_string : UUID.nil.to_string = "00000000-0000-0000-0000-000000000000".toList := by decide

/-- The key of a server of a declared type is the same text in both modes. -/
theorem decodeNetworkIdentity_key {ID : NetworkIdentity} (declared : ID.type ∈ HardcodedDecoders.declaredTypes) :
    decodeNetworkIdentity ID.key = .text ID.toChars := by
  have long : ID.key.length = 20 := ID.Serialize_length
  have front : ID.key.take 4 = BigEndian.encode 4 ID.type.code.toUInt32.toNat := List.take_left' (BigEndian.encode_length ..)
  have back : ID.key.drop 4 = ID.ID.data := List.drop_left' (BigEndian.encode_length ..)
  have code : readUInt32BE ID.key 0 = ID.type.code.toUInt32 := by
    have small : ID.type.code.toUInt32.toNat < 256^4 := UInt32.toNat_lt _
    rw [readUInt32BE,List.drop_zero,front,BigEndian.decode_encode,Nat.mod_eq_of_lt small,UInt32.ofNat_toNat]
  have uuid : (ID.key.drop 4).take 16 = ID.ID.data := by
    rw [back,← ID.ID.size,List.take_length]
  rw [decodeNetworkIdentity,if_neg (by omega)]
  dsimp only
  rw [code,uuid,typeName_declared ID.type declared,formatUuid_to_string,NetworkIdentity.toChars_eq,← nil_to_string]
  by_cases empty : ID.ID.is_nil = true
  · rw [if_pos empty,if_pos (congrArg UUID.to_string ((UUID.is_nil_iff _).mp empty))]
  · rw [if_neg empty,if_neg fun same => empty ((UUID.is_nil_iff _).mpr (UUID.to_string_injective _ _ same))]

theorem toChars_nonempty (ID : NetworkIdentity) : ID.toChars ≠ [] := by
  rw [NetworkIdentity.toChars_eq]
  split
  · exact name_nonempty ID.type
  · exact List.append_ne_nil_of_left_ne_nil (name_nonempty ID.type) _

theorem liveShardIds_keys {idsRaw : List Bytes}
    (declared : ∀ rawId ∈ idsRaw, ∃ ID : NetworkIdentity, ID.type ∈ HardcodedDecoders.declaredTypes ∧ rawId = ID.key) :
    liveShardIds around idsRaw = idsRaw.map fun rawId => chars (textOf rawId) := by
  have each : ∀ rawId ∈ idsRaw, trim (identityString around rawId) = chars (textOf rawId) ∧ chars (textOf rawId) ≠ [] := by
    intro rawId member
    obtain ⟨ID,type,rfl⟩ := declared rawId member
    rw [identityString,decodeNetworkIdentity_key type,textOf_key,chars_text]
    exact ⟨trim_toChars ID,toChars_nonempty ID⟩
  rw [liveShardIds,List.map_congr_left fun rawId member => (each rawId member).1,List.filter_eq_self]
  intro text member
  obtain ⟨rawId,given,rfl⟩ := List.mem_map.mp member
  exact decide_eq_true (each rawId given).2

end Reading

section Agreement
variable (around : Surroundings) {db : Database} {updates : List Update} {hash : Hash}

theorem labelled_row (ID : NetworkIdentity) (telemetry : ConnectionTelemetry) :
    labelled toNumber ((row ID telemetry).map chars) = some (ID.toChars,connection toNumber ID telemetry) := by
  have integers (n : Int) : chars (ascii (integer n)) = integer n := chars_ascii (printable_integer n)
  have decimals (n : Nat) : chars (ascii (decimal n)) = decimal n := chars_ascii (printable_decimal n)
  have floats (bits : UInt32) : chars (ascii (float bits)) = float bits := chars_ascii (printable_float bits).1
  have decoded : decodeConnectionRow toNumber ((row ID telemetry).map chars) = connection toNumber ID telemetry := by
    simp [decodeConnectionRow,connection,row,columns,chars_text,integers,decimals,floats]
  have long : ¬ ((row ID telemetry).map chars).length < 13 := by
    rw [List.length_map]
    exact (by decide : ¬ 14 < 13)
  rw [labelled,if_neg long,decoded]
  dsimp only
  rw [connection,Option.getD_some,trim_toChars]
  exact if_neg (toChars_nonempty ID)

/-- The labelled rows of a node are the connections of its last update that had any. -/
theorem labelled_of_node (holds : Holds updates hash) (ID : NetworkIdentity) :
    KeyedQueue.of ID.toChars (((tableRows hash).map (List.map chars)).filterMap (labelled toNumber)) =
      (lastConnections (filled (ofNode ID updates))).map (connection toNumber ID) := by
  have own : (((tableRows hash).map (List.map chars)).filterMap (labelled toNumber)).filter (·.1 == ID.toChars) =
      ((tableRows hash).filter (fun line => line.head? = some ID.text)).filterMap (labelled toNumber ∘ List.map chars) := by
    rw [List.filterMap_map,List.filter_filterMap,List.filterMap_filter]
    apply List.filterMap_congr
    intro line member
    obtain ⟨u,_,telemetry,_,rfl⟩ := mem_tableRows holds member
    rw [Function.comp_apply,labelled_row]
    by_cases same : u.node.ID.toChars = ID.toChars
    · have text : u.node.ID.text = ID.text := congrArg ascii same
      simp [row,same,text]
    · have apart : u.node.ID.text ≠ ID.text := fun text => same (by rw [← chars_text,← chars_text,text])
      simp [row,same,apart]
  have rows : (tableRows hash).filter (fun line => line.head? = some ID.text) =
      (lastConnections (filled (ofNode ID updates))).map (row ID) := rows_of_holds holds ID
  rw [KeyedQueue.of,own,rows,List.filterMap_map]
  simp only [Function.comp_def,labelled_row,List.filterMap_eq_map',List.map_map]

theorem mem_labels (holds : Holds updates hash) (shardId : List Char) :
    shardId ∈ (((tableRows hash).map (List.map chars)).filterMap (labelled toNumber)).map (·.1) ↔
      ∃ u ∈ updates, u.connections ≠ [] ∧ u.node.ID.toChars = shardId := by
  rw [List.filterMap_map]
  constructor
  · intro member
    obtain ⟨entry,found,rfl⟩ := List.mem_map.mp member
    obtain ⟨line,inside,label⟩ := List.mem_filterMap.mp found
    obtain ⟨u,given,telemetry,shown,rfl⟩ := mem_tableRows holds inside
    rw [Function.comp_apply,labelled_row] at label
    obtain rfl := Option.some.inj label
    exact ⟨u,given,List.ne_nil_of_mem shown,rfl⟩
  · rintro ⟨u,given,connected,rfl⟩
    have mine : u ∈ ofNode u.node.ID updates := List.mem_filter.mpr ⟨given,BEq.rfl⟩
    have last : lastConnections (filled (ofNode u.node.ID updates)) ≠ [] :=
      fun none => connected ((filled_eq_nil _).mp none u mine)
    obtain ⟨telemetry,rest,first⟩ := List.exists_cons_of_ne_nil last
    have rows := rows_of_holds holds u.node.ID
    rw [first] at rows
    have inside : row u.node.ID telemetry ∈ (tableRows hash).filter (fun line => line.head? = some u.node.ID.text) := by
      rw [tableRows,rows,List.map_cons]
      exact List.mem_cons_self
    have label : (labelled toNumber ∘ List.map chars) (row u.node.ID telemetry) =
        some (u.node.ID.toChars,connection toNumber u.node.ID telemetry) := by
      rw [Function.comp_apply,labelled_row]
    have found : (u.node.ID.toChars,connection toNumber u.node.ID telemetry) ∈
        (tableRows hash).filterMap (labelled toNumber ∘ List.map chars) :=
      List.mem_filterMap.mpr ⟨row u.node.ID telemetry,(List.mem_filter.mp inside).1,label⟩
    exact List.mem_map.mpr ⟨_,found,rfl⟩

/-- The texts of the fields of the table of pings. -/
def liveTexts (db : Database) : List (List Char) := ((db.hash HealthPingTable).map (·.1)).map fun rawId => chars (textOf rawId)

theorem exec_hybridRead (timed : Timed db) (declared : Declared db) (holds : Holds updates (db.hash NetworkTelemetryTable)) :
    ∃ ids, ids.Perm (liveTexts db) ∧ exec (hybridRead around) db =
      (.ok (ids,(tableRows (db.hash NetworkTelemetryTable)).map (List.map chars)),db) := by
  obtain ⟨pings,keys,ran⟩ := exec_GetLivePingIDs around timed declared
  have rows : exec GetAllTelemetry db = (.ok (tableRows (db.hash NetworkTelemetryTable)),db) := rfl
  have texts : (pings.map fun pair => textOf pair.1).map around.addon = (pings.map (·.1)).map fun rawId => chars (textOf rawId) := by
    rw [List.map_map,List.map_map]
    apply List.map_congr_left
    intro pair member
    obtain ⟨ID,_,key⟩ := declared pair.1 (keys.mem_iff.mp (List.mem_map_of_mem member))
    rw [Function.comp_apply,Function.comp_apply,key,textOf_key]
    exact around.addon_ascii _ (plain_text ID)
  refine ⟨_,keys.map fun rawId => chars (textOf rawId),?_⟩
  rw [hybridRead,exec_bind_ok _ _ _ _ _ ran,exec_bind_ok _ _ _ _ _ rows]
  dsimp only
  rw [List.length_map,List.length_map,Nat.min_self,List.take_of_length_le (List.length_map _).le,texts,addon_rows around holds]
  rfl

theorem exec_databaseRead (declared : Declared db) (holds : Holds updates (db.hash NetworkTelemetryTable)) :
    exec (databaseRead around) db =
      (.ok (liveTexts db,(tableRows (around.entries (db.hash NetworkTelemetryTable))).map (List.map chars)),db) := by
  rw [← shardRows_table around (holds_perm (around.entered _) holds),liveTexts,← liveShardIds_keys around declared]
  rfl

theorem mem_liveTexts (declared : Declared db) (shardId : List Char) :
    shardId ∈ liveTexts db ↔ ∃ ID : NetworkIdentity, ID.key ∈ (db.hash HealthPingTable).map (·.1) ∧ ID.toChars = shardId := by
  constructor
  · intro member
    obtain ⟨rawId,inside,rfl⟩ := List.mem_map.mp member
    obtain ⟨ID,_,rfl⟩ := declared rawId inside
    exact ⟨ID,inside,by rw [textOf_key,chars_text]⟩
  · rintro ⟨ID,inside,rfl⟩
    exact List.mem_map.mpr ⟨ID.key,inside,by rw [textOf_key,chars_text]⟩

variable [Zero ν] [Add ν] [Div ν] [NatCast ν]

theorem complete_build {ids : List (List Char)} (declared : Declared db) (live : ids.Perm (liveTexts db)) (holds : Holds updates hash) :
    Complete toNumber db updates (buildNetworkTelemetry toNumber ids ((tableRows hash).map (List.map chars))) := by
  obtain ⟨once,shown⟩ := build_shardIds toNumber ids ((tableRows hash).map (List.map chars))
  refine ⟨once,fun shardId => ?_,fun shard member ID same => ?_⟩
  · rw [shown,mem_labels toNumber holds,← mem_liveTexts declared]
    have text (other : List Char) (given : other ∈ ids) : trim other = other ∧ other ≠ [] := by
      obtain ⟨ID,_,rfl⟩ := (mem_liveTexts declared other).mp (live.mem_iff.mp given)
      exact ⟨trim_toChars ID,toChars_nonempty ID⟩
    have own : ids.map trim = ids := (List.map_congr_left fun other given => (text other given).1).trans (List.map_id _)
    rw [own,← live.mem_iff]
    constructor
    · rintro (⟨given,_⟩ | labelled)
      · exact .inl given
      · exact .inr labelled
    · rintro (given | labelled)
      · exact .inl ⟨given,(text shardId given).2⟩
      · exact .inr labelled
  · rw [build_connections toNumber ids _ shard member,← same]
    exact labelled_of_node toNumber holds ID

/-- Both modes read the same live servers and the same rows, and show all of them. The database
mode is the one without the addon. -/
theorem modes_agree (first second : Option CollectionMode) (timed : Timed db) (declared : Declared db)
    (written : db.hash NetworkTelemetryTable = (stored updates).hash NetworkTelemetryTable) :
    ∃ hybrid database, exec (hybridRead around) db = (.ok hybrid,db) ∧ exec (databaseRead around) db = (.ok database,db) ∧
      exec (collectNetworkTelemetry toNumber around true first) db =
        (.ok (INTERLINK_HYBRID,buildNetworkTelemetry toNumber hybrid.1 hybrid.2),db) ∧
      exec (collectNetworkTelemetry toNumber around false second) db =
        (.ok (PURE_DATABASE,buildNetworkTelemetry toNumber database.1 database.2),db) ∧
      hybrid.1.Perm database.1 ∧ hybrid.2.Perm database.2 ∧
      Complete toNumber db updates (buildNetworkTelemetry toNumber hybrid.1 hybrid.2) ∧
      Complete toNumber db updates (buildNetworkTelemetry toNumber database.1 database.2) := by
  have holds : Holds updates (db.hash NetworkTelemetryTable) := written ▸ holds_stored updates
  have entered := holds_perm (around.entered _) holds
  obtain ⟨ids,live,hybrid⟩ := exec_hybridRead around timed declared holds
  have database := exec_databaseRead around declared holds
  refine ⟨_,_,hybrid,database,?_,?_,live,?_,complete_build toNumber declared live holds,
    complete_build toNumber declared (List.Perm.refl _) entered⟩
  · rw [collectNetworkTelemetry,resolveCollectionMode_hybrid]
    dsimp only
    rw [if_pos rfl,exec_bind_ok _ _ _ _ _ hybrid]
    rfl
  · rw [collectNetworkTelemetry,resolveCollectionMode_hybrid]
    dsimp only
    rw [if_neg Bool.false_ne_true,exec_bind_ok _ _ _ _ _ database]
    rfl
  · exact ((tableRows_perm (around.entered _)).map _).symm

end Agreement

/-- Strings of ASCII, and the order of the database. -/
def plainly : Surroundings := ⟨chars,chars,id,id,fun _ _ => rfl,fun _ _ => rfl,.refl,.refl⟩

/-- The watchdog with a connection, and its ping. -/
def watched : Database :=
  (exec (HealthUpdate .MakeIDWatchDog (RedisConnection.TIME 0 false)) (stored [watchdogUpdate [{state := .eConnected}]])).2

theorem modes_agree_watched : ∃ hybrid database, exec (hybridRead plainly) watched = (.ok hybrid,watched) ∧
    exec (databaseRead plainly) watched = (.ok database,watched) ∧ hybrid.1.Perm database.1 ∧ hybrid.2.Perm database.2 ∧
    Complete (fun text => (Nat.ofDigitChars 10 text 0 : ℚ)) watched [watchdogUpdate [{state := .eConnected}]]
      (buildNetworkTelemetry (fun text => (Nat.ofDigitChars 10 text 0 : ℚ)) hybrid.1 hybrid.2) := by
  have unpinged : (stored [watchdogUpdate [{state := .eConnected}]]).hash HealthPingTable = [] :=
    hash_stored (by decide) _
  have fresh : Kept (stored [watchdogUpdate [{state := .eConnected}]]) := by
    constructor
    · rw [unpinged]
      exact List.nodup_nil
    · rw [unpinged]
      exact nofun
    · rw [unpinged]
      exact nofun
  have pings : watched.hash HealthPingTable = [(NetworkIdentity.MakeIDWatchDog.key,ascii (seconds 3000000))] := by
    change ((stored [watchdogUpdate [{state := .eConnected}]]).hash HealthPingTable).put _ _ = _
    rw [unpinged]
    rfl
  have declared : Declared watched := by
    intro rawId member
    rw [pings] at member
    exact ⟨.MakeIDWatchDog,by decide,List.mem_singleton.mp member⟩
  have written : watched.hash NetworkTelemetryTable = (stored [watchdogUpdate [{state := .eConnected}]]).hash NetworkTelemetryTable :=
    withHash_other _ _ _ _ (by decide)
  obtain ⟨hybrid,database,first,second,_,_,live,rows,shown,_⟩ :=
    modes_agree (fun text => (Nat.ofDigitChars 10 text 0 : ℚ)) plainly none none (timed_kept (kept_HealthUpdate _ _ fresh)) declared written
  exact ⟨hybrid,database,first,second,live,rows,shown⟩

end NetworkTelemetry

end AtlasNet
