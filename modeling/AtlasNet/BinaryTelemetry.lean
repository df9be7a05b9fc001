import AtlasNet.Telemetry
import AtlasNet.ByteWriting
import AtlasNet.PacketFormat

/-! The telemetry table of a build in binary mode, whose fields are the UUIDs of the nodes, next
to that of a build in plain mode, whose fields are their texts. -/
namespace AtlasNet
open Foundation Foundation.Redis Foundation.Program Foundation.Streams

namespace ConnectionTelemetry

def Serialize (telemetry : ConnectionTelemetry) (bw : ByteWriter) : ByteWriter :=
  (((((((((((((bw.str telemetry.IdentityId).str telemetry.targetId).i32 telemetry.pingMs).f32 telemetry.inBytesPerSec).f32
    telemetry.outBytesPerSec).f32 telemetry.inPacketsPerSec).u32 telemetry.pendingReliableBytes).u32
    telemetry.pendingUnreliableBytes).u32 telemetry.sentUnackedReliableBytes).u64 telemetry.queueTimeUsec).f32
    telemetry.qualityLocal).f32 telemetry.qualityRemote).i32 telemetry.state)

def Deserialize : Program ByteReader ConnectionTelemetry := do
  let IdentityId ← ByteReader.str
  let targetId ← ByteReader.str
  let pingMs ← ByteReader.i32
  let inBytesPerSec ← ByteReader.f32
  let outBytesPerSec ← ByteReader.f32
  let inPacketsPerSec ← ByteReader.f32
  let pendingReliableBytes ← ByteReader.u32
  let pendingUnreliableBytes ← ByteReader.u32
  let sentUnackedReliableBytes ← ByteReader.u32
  let queueTimeUsec ← ByteReader.u64
  let qualityLocal ← ByteReader.f32
  let qualityRemote ← ByteReader.f32
  let state ← ByteReader.i32
  pure ⟨IdentityId,targetId,pingMs,inBytesPerSec,outBytesPerSec,inPacketsPerSec,pendingReliableBytes,
    pendingUnreliableBytes,sentUnackedReliableBytes,queueTimeUsec,qualityLocal,qualityRemote,state⟩

def format : Format UInt8 ConnectionTelemetry := do
  let IdentityId ← ByteFormat.blob
  let targetId ← ByteFormat.blob
  let pingMs ← ByteFormat.i32
  let inBytesPerSec ← ByteFormat.u32
  let outBytesPerSec ← ByteFormat.u32
  let inPacketsPerSec ← ByteFormat.u32
  let pendingReliableBytes ← ByteFormat.u32
  let pendingUnreliableBytes ← ByteFormat.u32
  let sentUnackedReliableBytes ← ByteFormat.u32
  let queueTimeUsec ← ByteFormat.u64
  let qualityLocal ← ByteFormat.u32
  let qualityRemote ← ByteFormat.u32
  let state ← ByteFormat.i32
  pure ⟨IdentityId,targetId,pingMs,inBytesPerSec,outBytesPerSec,inPacketsPerSec,pendingReliableBytes,
    pendingUnreliableBytes,sentUnackedReliableBytes,queueTimeUsec,qualityLocal,qualityRemote,state⟩

section Format
open ByteReader Cursor ByteWriter

theorem accepts : cursor.Accepts Deserialize format :=
  accepts_bind accepts_str fun _ => accepts_bind accepts_str fun _ => accepts_bind accepts_i32 fun _ =>
  accepts_bind accepts_u32 fun _ => accepts_bind accepts_u32 fun _ => accepts_bind accepts_u32 fun _ =>
  accepts_bind accepts_u32 fun _ => accepts_bind accepts_u32 fun _ => accepts_bind accepts_u32 fun _ =>
  accepts_bind accepts_u64 fun _ => accepts_bind accepts_u32 fun _ => accepts_bind accepts_u32 fun _ =>
  accepts_map _ accepts_i32

/-- The lengths of the two texts can be counted in 32 bits. -/
structure Storable (telemetry : ConnectionTelemetry) : Prop where
  IdentityId : telemetry.IdentityId.length < 2^32
  targetId : telemetry.targetId.length < 2^32

theorem written (telemetry : ConnectionTelemetry) (storable : telemetry.Storable) :
    Written telemetry.Serialize format telemetry := by
  have wrote : Written _ format telemetry := written_bind (written_str _ storable.IdentityId)
    (written_bind (written_str _ storable.targetId) (written_bind (written_i32 telemetry.pingMs)
      (written_bind (written_u32 telemetry.inBytesPerSec) (written_bind (written_u32 telemetry.outBytesPerSec)
        (written_bind (written_u32 telemetry.inPacketsPerSec) (written_bind (written_u32 telemetry.pendingReliableBytes)
          (written_bind (written_u32 telemetry.pendingUnreliableBytes)
            (written_bind (written_u32 telemetry.sentUnackedReliableBytes) (written_bind (written_u64 telemetry.queueTimeUsec)
              (written_bind (written_u32 telemetry.qualityLocal) (written_bind (written_u32 telemetry.qualityRemote)
                (written_map (fun state => {telemetry with state}) (written_i32 telemetry.state)))))))))))))
  exact wrote

end Format

end ConnectionTelemetry

namespace NetworkManifest.Binary

def valueBW (connections : List ConnectionTelemetry) : ByteWriter :=
  connections.foldl (fun bw telemetry => telemetry.Serialize bw) (ByteWriter.u32 (UInt32.ofNat connections.length) {})

def fieldBW (identifier : NetworkIdentity) : ByteWriter := ByteWriter.uuid identifier.ID {}

def TelemetryUpdate (identifier : NetworkIdentity) (connections : List ConnectionTelemetry) : Command Unit :=
  if connections = [] then pure ()
  else hset NetworkTelemetryTable (fieldBW identifier).buf (valueBW connections).buf

/-- A field of 16 bytes is taken for the UUID of a shard, any other for a text of the legacy
format. -/
def shardLabel : Program ByteReader Bytes := do
  let fieldBR ← get
  if fieldBR.remaining = 16 then return (NetworkIdentity.MakeIDShard (← ByteReader.uuid)).text
  else ByteReader.str

def connectionRow (shardId : Bytes) (t : ConnectionTelemetry) : List Bytes :=
  [shardId,t.IdentityId,t.targetId,ascii (integer t.pingMs.toInt),ascii (fixed t.inBytesPerSec),ascii (fixed t.outBytesPerSec),
    ascii (fixed t.inPacketsPerSec),ascii (decimal t.pendingReliableBytes.toNat),
    ascii (decimal t.pendingUnreliableBytes.toNat),ascii (decimal t.sentUnackedReliableBytes.toNat),
    ascii (decimal t.queueTimeUsec.toNat),ascii (fixed t.qualityLocal),ascii (fixed t.qualityRemote),
    ascii (integer t.state.toInt)]

def connections : Program ByteReader (List ConnectionTelemetry) := do
  let count ← ByteReader.u32
  ByteReader.each ConnectionTelemetry.Deserialize count.toNat

/-- The rows of an entry. An exception in the field skips it; one in the value is not caught. -/
def readRows (pair : Bytes × Bytes) : Command (List (List Bytes)) :=
  match (exec shardLabel {p := pair.1}).1 with
  | .ok shardId => do
    let telemetry ← within connections {p := pair.2}
    pure (telemetry.map (connectionRow shardId))
  | .error (.undefined what) => throw (.undefined what)
  | .error _ => pure []

def GetAllTelemetry : Command (List (List Bytes)) := do
  let all ← hgetall NetworkTelemetryTable
  let rows ← all.mapM readRows
  pure rows.flatten

def stored (updates : List Update) : Database :=
  updates.foldl (fun db u => (exec (TelemetryUpdate u.node.ID u.connections) db).2) .empty

end NetworkManifest.Binary

section Text

theorem length_to_chars_le (i : Nat) (bytes : Bytes) : (to_chars i bytes).length ≤ 3*bytes.length := by
  induction bytes generalizing i with
  | nil => exact Nat.le_refl 0
  | cons byte rest ih =>
    have later := ih (i+1)
    simp only [to_chars,hex,List.length_append,List.length_cons,List.length_nil]
    split <;> simp only [List.length_cons,List.length_nil] <;> omega

theorem length_name_le (type : NetworkIdentityType) : type.enum_to_string.length ≤ 19 := by
  unfold NetworkIdentityType.enum_to_string
  split_ifs <;> simp

theorem NetworkIdentity.length_text_lt (ID : NetworkIdentity) : ID.text.length < 2^32 := by
  have name := length_name_le ID.type
  have id := length_to_chars_le 0 ID.ID.data
  rw [ID.ID.size] at id
  rw [text,ascii,List.length_map,toChars_eq]
  split
  · omega
  · rw [List.length_append,List.length_cons,UUID.to_string]
    omega

theorem shard_of_name {type : NetworkIdentityType} (same : type.enum_to_string = NetworkIdentityType.eShard.enum_to_string) :
    type = .eShard := by
  by_contra other
  have shard : NetworkIdentityType.eShard.enum_to_string = ['e','S','h','a','r','d'] := rfl
  rw [shard,NetworkIdentityType.enum_to_string,if_neg other] at same
  split_ifs at same <;> simp at same

theorem shard_of_text {ID : NetworkIdentity} {uuid : UUID} (same : ID.text = (NetworkIdentity.MakeIDShard uuid).text) :
    ID.type = .eShard := by
  have texts := (NetworkIdentity.beq_toString _ _).mp ((NetworkIdentity.text_inj _ _).mp same)
  exact shard_of_name (NetworkIdentity.toChars_inj _ _ texts).1

end Text

namespace NetworkManifest

section Standing
variable (key value : Update → Bytes)

/-- An update takes the place of the one before it with the same field. -/
def recorded (u : Update) : List Update → List Update
  | [] => [u]
  | v::rest => if key v = key u then u::rest else v::recorded u rest

/-- The updates whose values stand in the table. -/
def standing (updates : List Update) : List Update := (filled updates).foldl (fun standing u => recorded key u standing) []

def entry (u : Update) : Bytes × Bytes := (key u,value u)

variable {key value}

theorem put_recorded (u : Update) (updates : List Update) :
    Entries.put (key u) (value u) (updates.map (entry key value)) = (recorded key u updates).map (entry key value) := by
  induction updates with
  | nil => rfl
  | cons v rest ih =>
    rw [List.map_cons,entry,Entries.put,recorded]
    by_cases same : key v = key u
    · rw [if_pos same,if_pos same,same]
      rfl
    · rw [if_neg same,if_neg same,ih]
      rfl

theorem keys_entries (updates : List Update) : (updates.map (entry key value)).map (·.1) = updates.map key := by
  rw [List.map_map]
  rfl

theorem standing_snoc {u : Update} (some : u.connections ≠ []) (updates : List Update) :
    standing key (updates ++ [u]) = recorded key u (standing key updates) := by
  rw [standing,filled_snoc some,List.foldl_concat]
  rfl

/-- What calls that write their fields and values leave in the table. -/
theorem table_written {update : Update → Command Unit}
    (writes : ∀ u, update u = if u.connections = [] then pure () else hset NetworkTelemetryTable (key u) (value u))
    (updates : List Update) : (updates.foldl (fun db u => (exec (update u) db).2) .empty).hash NetworkTelemetryTable =
      (standing key updates).map (entry key value) := by
  induction updates using List.reverseRecOn with
  | nil => rfl
  | append_singleton updates u ih =>
    rw [List.foldl_concat,writes]
    by_cases none : u.connections = []
    · rw [if_pos none,standing,filled_snoc_empty none]
      exact ih
    · rw [if_neg none,standing_snoc none,← put_recorded,← ih]
      exact withHash_self _ _ _

theorem keys_recorded_nodup (u : Update) {updates : List Update} (distinct : (updates.map key).Nodup) :
    ((recorded key u updates).map key).Nodup := by
  have nodup := Entries.keys_put_nodup (key u) [] (updates.map (entry key fun _ => [])) (by rwa [keys_entries])
  rwa [@put_recorded key fun _ => [],keys_entries] at nodup

theorem mem_recorded (u v : Update) {updates : List Update} (distinct : (updates.map key).Nodup) :
    v ∈ recorded key u updates ↔ v = u ∨ v ∈ updates ∧ key v ≠ key u := by
  induction updates with
  | nil => simp [recorded]
  | cons w rest ih =>
    obtain ⟨absent,apart⟩ := List.nodup_cons.mp distinct
    have others : v ∈ rest → key v ≠ key w := fun member same => absent (same ▸ List.mem_map_of_mem member)
    rw [recorded]
    by_cases same : key w = key u
    · rw [if_pos same,List.mem_cons,List.mem_cons,← same]
      constructor
      · rintro (here | there)
        · exact .inl here
        · exact .inr ⟨.inr there,others there⟩
      · rintro (here | ⟨rfl | there,different⟩)
        · exact .inl here
        · exact absurd rfl different
        · exact .inr there
    · rw [if_neg same,List.mem_cons,List.mem_cons,ih apart]
      constructor
      · rintro (rfl | here | ⟨there,different⟩)
        · exact .inr ⟨.inl rfl,same⟩
        · exact .inl here
        · exact .inr ⟨.inr there,different⟩
      · rintro (here | ⟨rfl | there,different⟩)
        · exact .inr (.inl here)
        · exact .inl rfl
        · exact .inr (.inr ⟨there,different⟩)

theorem standing_nodup (updates : List Update) : ((standing key updates).map key).Nodup := by
  induction updates using List.reverseRecOn with
  | nil => exact List.nodup_nil
  | append_singleton updates u ih =>
    by_cases none : u.connections = []
    · rwa [standing,filled_snoc_empty none]
    · rw [standing_snoc none]
      exact keys_recorded_nodup u ih

theorem mem_standing (updates : List Update) (u : Update) :
    u ∈ standing key updates ↔ ((filled updates).filter (fun v => key v = key u)).getLast? = some u := by
  induction updates using List.reverseRecOn with
  | nil => simp [standing,filled]
  | append_singleton updates v ih =>
    by_cases none : v.connections = []
    · rw [standing,filled_snoc_empty none]
      exact ih
    · rw [standing_snoc none,filled_snoc none,mem_recorded v u (standing_nodup updates),List.filter_append]
      by_cases same : key v = key u
      · have kept : [v].filter (fun v => decide (key v = key u)) = [v] := by simp [same]
        rw [kept,List.getLast?_concat,Option.some.injEq,eq_comm]
        simp [same]
      · have dropped : [v].filter (fun v => decide (key v = key u)) = [] := by simp [same]
        have apart : u ≠ v := fun here => same (here ▸ rfl)
        rw [dropped,List.append_nil,← ih]
        simp [apart,Ne.symm same]

theorem exists_standing {updates : List Update} {u : Update} (wrote : u ∈ filled updates) :
    ∃ v ∈ standing key updates, key v = key u := by
  have some : (filled updates).filter (fun v => key v = key u) ≠ [] :=
    List.ne_nil_of_mem (List.mem_filter.mpr ⟨wrote,decide_eq_true rfl⟩)
  obtain ⟨v,last⟩ := Option.ne_none_iff_exists'.mp (mt List.getLast?_eq_none_iff.mp some)
  have same : key v = key u := of_decide_eq_true (List.mem_filter.mp (List.mem_of_getLast? last)).2
  refine ⟨v,(mem_standing updates v).mpr ?_,same⟩
  rw [same]
  exact last

theorem filled_of_standing {updates : List Update} {u : Update} (stands : u ∈ standing key updates) : u ∈ filled updates :=
  List.mem_of_mem_filter (List.mem_of_getLast? ((mem_standing updates u).mp stands))

theorem recorded_congr {other : Update → Bytes} (u : Update) {updates : List Update}
    (agree : ∀ v ∈ updates, key v = key u ↔ other v = other u) : recorded key u updates = recorded other u updates := by
  induction updates with
  | nil => rfl
  | cons v rest ih =>
    obtain ⟨here,others⟩ := List.forall_mem_cons.mp agree
    rw [recorded,recorded,ih others]
    simp only [here]

theorem standing_congr {other : Update → Bytes} {updates : List Update}
    (agree : ∀ u ∈ filled updates, ∀ v ∈ filled updates, key u = key v ↔ other u = other v) :
    standing key updates = standing other updates := by
  induction updates using List.reverseRecOn with
  | nil => rfl
  | append_singleton updates u ih =>
    by_cases none : u.connections = []
    · rw [standing,standing,filled_snoc_empty none]
      rw [filled_snoc_empty none] at agree
      exact ih agree
    · rw [filled_snoc none] at agree
      rw [standing_snoc none,standing_snoc none,← ih fun v first w second => agree v (by simp [first]) w (by simp [second])]
      refine recorded_congr u fun v stands => agree v ?_ u (by simp)
      exact List.mem_append_left _ (filled_of_standing stands)

end Standing

/-- The last update with a connection of its node. -/
def Last (updates : List Update) (u : Update) : Prop := (filled (ofNode u.node.ID updates)).getLast? = some u

section Plain

def text (u : Update) : Bytes := u.node.ID.text

theorem last_iff_standing (updates : List Update) (u : Update) : Last updates u ↔ u ∈ standing text updates := by
  rw [mem_standing,Last,ofNode,filled,filled,List.filter_filter,List.filter_filter]
  have same : (updates.filter fun v => !v.connections.isEmpty && v.node.ID == u.node.ID) =
      updates.filter fun v => decide (text v = text u) && !v.connections.isEmpty := by
    refine List.filter_congr fun v _ => ?_
    rw [Bool.and_comm,Bool.eq_iff_iff,Bool.and_eq_true,Bool.and_eq_true,decide_eq_true_iff,text,text,NetworkIdentity.text_inj]
  rw [← same]

theorem rows_plain (updates : List Update) : exec GetAllTelemetry (NetworkManifest.stored updates) =
    (.ok ((standing text updates).flatMap fun u => u.connections.map (row u.node.ID)),NetworkManifest.stored updates) := by
  have table : (NetworkManifest.stored updates).hash NetworkTelemetryTable =
      (standing text updates).map (entry text fun u => valueSS u.connections) := table_written (fun _ => rfl) updates
  rw [exec_GetAllTelemetry,table,List.flatMap_map]
  congr 3
  funext u
  exact rows_valueSS u.node.ID (printed_connections u)

end Plain

namespace Binary

def field (u : Update) : Bytes := u.node.ID.ID.data

theorem storable_connections (u : Update) : ∀ telemetry ∈ u.connections, telemetry.Storable := by
  intro telemetry member
  unfold Update.connections Interlink.GetConnectionTelemetry at member
  split at member
  · exact absurd member List.not_mem_nil
  obtain ⟨conn,_,rfl⟩ := List.mem_map.mp member
  exact ⟨u.node.ID.length_text_lt,conn.target.length_text_lt⟩

theorem appends_each (connections : List ConnectionTelemetry) (storable : ∀ telemetry ∈ connections, telemetry.Storable)
    (bw : ByteWriter) : ∃ bytes, (connections.foldl (fun bw telemetry => telemetry.Serialize bw) bw).buf = bw.buf ++ bytes := by
  have wrote : Written (fun bw => connections.foldl (fun bw telemetry => telemetry.Serialize bw) bw) _ connections :=
    written_times connections fun telemetry member => telemetry.written (storable telemetry member)
  obtain ⟨bytes,appends,_⟩ := wrote
  exact ⟨bytes,congrArg ByteWriter.buf (appends bw)⟩

/-- As many connections are read as the count of 32 bits says. -/
theorem exec_connections {telemetry : List ConnectionTelemetry} (storable : ∀ t ∈ telemetry, t.Storable) :
    (exec connections {p := (valueBW telemetry).buf}).1 = .ok (telemetry.take (telemetry.length % 2^32)) := by
  let counted := telemetry.take (telemetry.length % 2^32)
  have count : (UInt32.ofNat telemetry.length).toNat = telemetry.length % 2^32 := UInt32.toNat_ofNat'
  have long : counted.length = (UInt32.ofNat telemetry.length).toNat := by
    rw [count]
    exact List.length_take_of_le (Nat.mod_le _ _)
  have each : Written (fun bw => counted.foldl (fun bw t => t.Serialize bw) bw)
      (ConnectionTelemetry.format.times (UInt32.ofNat telemetry.length).toNat) counted := by
    rw [← long]
    exact written_times counted fun t member => t.written (storable t (List.mem_of_mem_take member))
  have wrote : Written _ (do ConnectionTelemetry.format.times (← ByteFormat.u32).toNat) counted :=
    written_bind (ByteWriter.written_u32 (UInt32.ofNat telemetry.length)) each
  have accepts := Cursor.accepts_bind ByteReader.accepts_u32 fun count => ByteReader.accepts_each ConnectionTelemetry.accepts count.toNat
  obtain ⟨rest,more⟩ := appends_each (telemetry.drop (telemetry.length % 2^32))
    (fun t member => storable t (List.mem_of_mem_drop member))
    (counted.foldl (fun bw t => t.Serialize bw) (ByteWriter.u32 (UInt32.ofNat telemetry.length) {}))
  have whole : (valueBW telemetry).buf =
      (counted.foldl (fun bw t => t.Serialize bw) (ByteWriter.u32 (UInt32.ofNat telemetry.length) {})).buf ++ rest := by
    rw [← more,← List.foldl_append,List.take_append_drop]
    rfl
  rw [whole]
  exact congrArg Prod.fst (exec_written accepts wrote rest)

theorem exec_shardLabel (uuid : UUID) : (exec shardLabel {p := uuid.data}).1 = .ok (NetworkIdentity.MakeIDShard uuid).text := by
  have sized : ({p := uuid.data} : ByteReader).remaining = 16 := uuid.size
  have read := exec_written ByteReader.accepts_uuid (ByteWriter.written_uuid uuid) []
  have written : (ByteWriter.uuid uuid {}).buf = uuid.data := rfl
  rw [List.append_nil,written] at read
  rw [shardLabel,exec_get_bind,if_pos sized,exec_bind_ok _ _ _ _ _ read]
  rfl

theorem readRows_entry (u : Update) (db : Database) :
    exec (readRows (entry field (fun u => (valueBW u.connections).buf) u)) db =
      (.ok ((u.connections.take (u.connections.length % 2^32)).map (connectionRow (NetworkIdentity.MakeIDShard u.node.ID.ID).text)),
        db) := by
  rw [readRows,entry,field,exec_shardLabel]
  have read : exec (within connections {p := (valueBW u.connections).buf} : Command (List ConnectionTelemetry)) db =
      (.ok (u.connections.take (u.connections.length % 2^32)),db) := by
    rw [exec_within,exec_connections (storable_connections u)]
  exact exec_bind_ok _ _ _ _ _ read

theorem rows_binary (updates : List Update) : exec GetAllTelemetry (stored updates) =
    (.ok ((standing field updates).flatMap fun u => (u.connections.take (u.connections.length % 2^32)).map
      (connectionRow (NetworkIdentity.MakeIDShard u.node.ID.ID).text)),stored updates) := by
  have table : (stored updates).hash NetworkTelemetryTable =
      (standing field updates).map (entry field fun u => (valueBW u.connections).buf) := table_written (fun _ => rfl) updates
  have rows := exec_mapM (standing field updates) fun u _ => readRows_entry u (stored updates)
  have read : exec (hgetall NetworkTelemetryTable) (stored updates) =
      (.ok ((standing field updates).map (entry field fun u => (valueBW u.connections).buf)),stored updates) := by
    rw [← table]
    rfl
  rw [GetAllTelemetry,exec_bind_ok _ _ _ _ _ read,List.mapM_map]
  exact exec_bind_ok _ _ _ _ _ rows

end Binary

/-- The label, the two texts and the integers of a row. -/
def compared (row : List Bytes) : List Bytes := row.take 4 ++ ((row.drop 7).take 4 ++ row.drop 13)

/-- Both modes return, and their rows agree up to order in all but the numbers of `float`. -/
def ModesAgree (updates : List Update) : Prop :=
  ∃ plain binary, exec GetAllTelemetry (stored updates) = (.ok plain,stored updates) ∧
    exec Binary.GetAllTelemetry (Binary.stored updates) = (.ok binary,Binary.stored updates) ∧
    (plain.map compared).Perm (binary.map compared)

section Modes
variable {updates : List Update}

theorem compared_binary (ID : NetworkIdentity) (telemetry : ConnectionTelemetry) :
    compared (Binary.connectionRow ID.text telemetry) = compared (row ID telemetry) := by
  simp only [compared,Binary.connectionRow,row,columns,List.take_succ_cons,List.take_zero,List.drop_succ_cons,List.drop_zero]

theorem modesAgree_iff_perm (updates : List Update) : ModesAgree updates ↔
    ((standing text updates).flatMap fun u => u.connections.map fun t => compared (row u.node.ID t)).Perm
      ((standing Binary.field updates).flatMap fun u => (u.connections.take (u.connections.length % 2^32)).map
        fun t => compared (row (.MakeIDShard u.node.ID.ID) t)) := by
  have shown (plain binary : List (List Bytes)) (first : plain = (standing text updates).flatMap fun u => u.connections.map (row u.node.ID))
      (second : binary = (standing Binary.field updates).flatMap fun u =>
        (u.connections.take (u.connections.length % 2^32)).map (Binary.connectionRow (NetworkIdentity.MakeIDShard u.node.ID.ID).text)) :
      (plain.map compared).Perm (binary.map compared) ↔ ((standing text updates).flatMap fun u =>
        u.connections.map fun t => compared (row u.node.ID t)).Perm ((standing Binary.field updates).flatMap fun u =>
          (u.connections.take (u.connections.length % 2^32)).map fun t => compared (row (.MakeIDShard u.node.ID.ID) t)) := by
    simp only [first,second,List.map_flatMap,List.map_map,Function.comp_def,compared_binary]
  constructor
  · rintro ⟨plain,binary,first,second,same⟩
    rw [rows_plain] at first
    rw [Binary.rows_binary] at second
    exact (shown plain binary (Except.ok.inj (Prod.mk.inj first).1).symm (Except.ok.inj (Prod.mk.inj second).1).symm).mp same
  · intro same
    exact ⟨_,_,rows_plain updates,Binary.rows_binary updates,(shown _ _ rfl rfl).mpr same⟩

theorem head_compared (ID : NetworkIdentity) (telemetry : ConnectionTelemetry) :
    (compared (row ID telemetry)).head? = some ID.text := by
  simp only [compared,row,List.take_succ_cons,List.cons_append,List.head?_cons]

theorem shard_eq {ID : NetworkIdentity} (shard : ID.type = .eShard) : NetworkIdentity.MakeIDShard ID.ID = ID := by
  rw [NetworkIdentity.MakeIDShard,← shard]

theorem connected_of_standing {key : Update → Bytes} {u : Update} (stands : u ∈ standing key updates) : u.connections ≠ [] := by
  have wrote := (List.mem_filter.mp (filled_of_standing stands)).2
  simpa using wrote

theorem shard_of_agree (agree : ModesAgree updates) {u : Update} (stands : u ∈ standing text updates) :
    u.node.ID.type = .eShard := by
  have same := (modesAgree_iff_perm updates).mp agree
  obtain ⟨t,given⟩ := List.exists_mem_of_ne_nil _ (connected_of_standing stands)
  have shown : compared (row u.node.ID t) ∈ (standing text updates).flatMap fun u =>
      u.connections.map fun t => compared (row u.node.ID t) := List.mem_flatMap.mpr ⟨u,stands,List.mem_map_of_mem given⟩
  obtain ⟨v,_,there⟩ := List.mem_flatMap.mp (same.subset shown)
  obtain ⟨other,_,rows⟩ := List.mem_map.mp there
  have labels := congrArg List.head? rows
  rw [head_compared,head_compared,Option.some.injEq] at labels
  exact shard_of_text labels.symm

theorem shards_of_standing (shards : ∀ u ∈ standing text updates, u.node.ID.type = .eShard) :
    ∀ u ∈ filled updates, u.node.ID.type = .eShard := by
  intro u wrote
  have written : ∃ v ∈ standing text updates, text v = text u := exists_standing wrote
  obtain ⟨v,stands,same⟩ := written
  have labelled : u.node.ID.text = (NetworkIdentity.MakeIDShard v.node.ID.ID).text := by
    rw [shard_eq (shards v stands)]
    exact same.symm
  exact shard_of_text labelled

theorem standing_shards (shards : ∀ u ∈ filled updates, u.node.ID.type = .eShard) :
    standing Binary.field updates = standing text updates := by
  refine standing_congr fun u first v second => ?_
  constructor
  · intro fields
    have ids := UUID.ext_data _ _ fields
    rw [text,text,← shard_eq (shards u first),← shard_eq (shards v second),ids]
  · intro texts
    have chars := (NetworkIdentity.beq_toString _ _).mp ((NetworkIdentity.text_inj _ _).mp texts)
    exact congrArg UUID.data (NetworkIdentity.toChars_inj _ _ chars).2

/-- Sequences that are never longer than others and as long as them together are as long as each. -/
theorem lengths_of_flatMap {α β : Type} {f g : α → List β} (items : List α) (shorter : ∀ a, (g a).length ≤ (f a).length)
    (same : (items.flatMap f).length = (items.flatMap g).length) : ∀ a ∈ items, (g a).length = (f a).length := by
  induction items with
  | nil => exact fun a none => absurd none List.not_mem_nil
  | cons a items ih =>
    have below (others : List α) : (others.flatMap g).length ≤ (others.flatMap f).length := by
      induction others with
      | nil => exact le_rfl
      | cons b others later =>
        rw [List.flatMap_cons,List.flatMap_cons,List.length_append,List.length_append]
        exact Nat.add_le_add (shorter b) later
    rw [List.flatMap_cons,List.flatMap_cons,List.length_append,List.length_append] at same
    have here := shorter a
    have rest := below items
    exact List.forall_mem_cons.mpr ⟨by omega,ih (by omega)⟩

/-- The two modes agree exactly when each node that wrote telemetry is a shard, and the last list it
wrote has a length that fits in 32 bits. -/
theorem modes_agree_iff (updates : List Update) :
    ModesAgree updates ↔ ∀ u, Last updates u → u.node.ID.type = .eShard ∧ u.connections.length < 2^32 := by
  simp only [last_iff_standing]
  constructor
  · intro agree
    have shards := fun u (stands : u ∈ standing text updates) => shard_of_agree agree stands
    have same := (modesAgree_iff_perm updates).mp agree
    rw [standing_shards (shards_of_standing shards)] at same
    intro u stands
    refine ⟨shards u stands,?_⟩
    have lengths := lengths_of_flatMap (standing text updates) (fun u => ?_) same.length_eq u stands
    · rw [List.length_map,List.length_map,List.length_take_of_le (Nat.mod_le _ _)] at lengths
      rw [← lengths]
      exact Nat.mod_lt _ (by decide)
    · rw [List.length_map,List.length_map,List.length_take_of_le (Nat.mod_le _ _)]
      exact Nat.mod_le _ _
  · intro shards
    rw [modesAgree_iff_perm,standing_shards (shards_of_standing fun u stands => (shards u stands).1)]
    refine List.Perm.of_eq (List.flatMap_congr fun u stands => ?_)
    obtain ⟨shard,short⟩ := shards u stands
    rw [Nat.mod_eq_of_lt short,List.take_length,shard_eq shard]

/-- The row of the watchdog is labelled with the name of a shard. -/
theorem watchdog_labelled_shard : ¬ ModesAgree [watchdogUpdate [{state := .eConnected}]] := by
  intro agree
  have stands : watchdogUpdate [{state := .eConnected}] ∈ standing text [watchdogUpdate [{state := .eConnected}]] := List.mem_singleton.mpr rfl
  have shard := shard_of_agree agree stands
  revert shard
  decide

end Modes

end NetworkManifest

end AtlasNet
