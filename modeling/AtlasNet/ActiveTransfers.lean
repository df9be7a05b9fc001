import AtlasNet.TransferManifest

/-! The handoffs of any number of entities whose two shards write the manifest at the same
time, each command of theirs between any commands of the others, while the clock goes on. -/
namespace AtlasNet.HandoffTransferManifest
open Foundation Foundation.Redis Foundation.Program Foundation.Streams Script
open ServerHandoff (AtlasEntityID Mark)

structure Transfer where
  entityId : AtlasEntityID
  source : NetworkIdentity
  target : NetworkIdentity
  transferTimeUs : UInt64
  apart : source.text ≠ target.text

inductive Role
  | start
  | adopt
  | commit
deriving DecidableEq

def Transfer.mark (t : Transfer) : Role → Mark
  | .start => .started t.entityId t.source t.target t.transferTimeUs
  | .adopt => .adopted t.entityId t.source t.target t.transferTimeUs
  | .commit => .committed t.entityId t.source t.target

/-- How far a call has come: it has written the record, it has put itself into the set of the
holders or taken itself out of it, it has found that the transfer is over and clears its
record, then its holders. -/
inductive Stage
  | idle
  | begun
  | recorded
  | marked
  | clearing
  | erasing
  | settled
deriving DecidableEq

def Stage.past (stage : Stage) : Prop := stage = marked ∨ stage = clearing ∨ stage = erasing ∨ stage = settled

/-- What the stages say of the record of a transfer and of its two holders. Behind both marks
nobody writes the record again, and one of the two calls has still to clear it. -/
structure Sound (stage : Role → Stage) (recorded sourceHolds targetHolds : Prop) : Prop where
  first : stage .start ≠ .marked → stage .adopt = .idle ∧ stage .commit = .idle
  starts : stage .start = .idle ∨ stage .start = .begun ∨ stage .start = .recorded ∨ stage .start = .marked
  unrecorded : stage .start = .idle ∨ stage .start = .begun → ¬ recorded
  kept : stage .start = .recorded ∨ stage .start = .marked → ¬ ((stage .adopt).past ∧ (stage .commit).past) → recorded
  source : sourceHolds ↔ stage .start = .marked ∧ ¬ (stage .commit).past
  target : targetHolds → (stage .adopt).past
  holding : (stage .adopt).past → ¬ (stage .commit).past → targetHolds
  clears : (stage .adopt = .clearing ∨ stage .adopt = .erasing) ∨ (stage .commit = .clearing ∨ stage .commit = .erasing) →
    (stage .adopt).past ∧ (stage .commit).past
  duty : (stage .adopt).past → (stage .commit).past → recorded →
    (stage .adopt = .clearing ∨ stage .commit = .clearing) ∨ targetHolds ∧ (stage .adopt = .marked ∨ stage .commit = .marked)
  erases : (stage .adopt).past → (stage .commit).past → targetHolds → ¬ (stage .adopt = .settled ∧ stage .commit = .settled)
  erased : stage .adopt = .erasing ∨ stage .commit = .erasing → ¬ recorded

section Stages
variable {stage : Role → Stage} {recorded sourceHolds targetHolds : Prop}

theorem Sound.began (sound : Sound stage recorded sourceHolds targetHolds) {role : Role}
    (allowed : role = .start ∨ stage .start = .marked) (here : stage role = .idle) :
    Sound (Function.update stage role .begun) recorded sourceHolds targetHolds := by
  obtain ⟨first,starts,unrecorded,kept,source,target,holding,clears,duty,erases,erased⟩ := sound
  cases role with
  | start | adopt | commit => constructor <;> simp only [Function.update_apply] <;> grind [Stage.past]

theorem Sound.start_recorded (sound : Sound stage recorded sourceHolds targetHolds) (here : stage .start = .begun) :
    Sound (Function.update stage .start .recorded) True sourceHolds targetHolds := by
  obtain ⟨first,starts,unrecorded,kept,source,target,holding,clears,duty,erases,erased⟩ := sound
  have ⟨adopt,commit⟩ := first (by simp [here])
  constructor <;> simp only [Function.update_apply] <;> grind [Stage.past]

theorem Sound.start_listed (sound : Sound stage recorded sourceHolds targetHolds) (here : stage .start = .recorded) :
    Sound (Function.update stage .start .marked) recorded True targetHolds := by
  obtain ⟨first,starts,unrecorded,kept,source,target,holding,clears,duty,erases,erased⟩ := sound
  have ⟨adopt,commit⟩ := first (by simp [here])
  constructor <;> simp only [Function.update_apply] <;> grind [Stage.past]

/-- The other shard has started, and its record is still there. -/
theorem Sound.standing (sound : Sound stage recorded sourceHolds targetHolds) {role : Role} (other : role ≠ .start)
    (here : stage role = .begun) : stage .start = .marked ∧ recorded := by
  obtain ⟨first,starts,unrecorded,kept,source,target,holding,clears,duty,erases,erased⟩ := sound
  cases role with
  | start => exact absurd rfl other
  | adopt | commit => grind [Stage.past]

theorem Sound.rewritten (sound : Sound stage recorded sourceHolds targetHolds) {role : Role} (other : role ≠ .start)
    (here : stage role = .begun) : Sound stage True sourceHolds targetHolds := by
  have still : True ↔ recorded := iff_of_true trivial (sound.standing other here).2
  rwa [propext still]

theorem Sound.adopted (sound : Sound stage recorded sourceHolds targetHolds) (here : stage .adopt = .begun) :
    Sound (Function.update stage .adopt .marked) recorded sourceHolds True := by
  have ⟨started,still⟩ := sound.standing (by decide) here
  obtain ⟨first,starts,unrecorded,kept,source,target,holding,clears,duty,erases,erased⟩ := sound
  constructor <;> simp only [Function.update_apply] <;> grind [Stage.past]

theorem Sound.committed (sound : Sound stage recorded sourceHolds targetHolds) (here : stage .commit = .begun) :
    Sound (Function.update stage .commit .marked) recorded False targetHolds := by
  have ⟨started,still⟩ := sound.standing (by decide) here
  obtain ⟨first,starts,unrecorded,kept,source,target,holding,clears,duty,erases,erased⟩ := sound
  constructor <;> simp only [Function.update_apply] <;> grind [Stage.past]

theorem Sound.finalizes (sound : Sound stage recorded sourceHolds targetHolds) {role : Role} (other : role ≠ .start)
    (here : stage role = .marked) (held : targetHolds) (released : ¬ sourceHolds) :
    Sound (Function.update stage role .clearing) recorded sourceHolds targetHolds := by
  obtain ⟨first,starts,unrecorded,kept,source,target,holding,clears,duty,erases,erased⟩ := sound
  cases role with
  | start => exact absurd rfl other
  | adopt | commit => constructor <;> simp only [Function.update_apply] <;> grind [Stage.past]

theorem Sound.left (sound : Sound stage recorded sourceHolds targetHolds) {role : Role} (other : role ≠ .start)
    (here : stage role = .marked) (going : ¬ (targetHolds ∧ ¬ sourceHolds)) :
    Sound (Function.update stage role .settled) recorded sourceHolds targetHolds := by
  obtain ⟨first,starts,unrecorded,kept,source,target,holding,clears,duty,erases,erased⟩ := sound
  cases role with
  | start => exact absurd rfl other
  | adopt | commit => constructor <;> simp only [Function.update_apply] <;> grind [Stage.past]

theorem Sound.cleared (sound : Sound stage recorded sourceHolds targetHolds) {role : Role} (other : role ≠ .start)
    (here : stage role = .clearing) : Sound (Function.update stage role .erasing) False sourceHolds targetHolds := by
  obtain ⟨first,starts,unrecorded,kept,source,target,holding,clears,duty,erases,erased⟩ := sound
  cases role with
  | start => exact absurd rfl other
  | adopt | commit => constructor <;> simp only [Function.update_apply] <;> grind [Stage.past]

theorem Sound.erasedAll (sound : Sound stage recorded sourceHolds targetHolds) {role : Role} (other : role ≠ .start)
    (here : stage role = .erasing) : Sound (Function.update stage role .settled) recorded False False := by
  obtain ⟨first,starts,unrecorded,kept,source,target,holding,clears,duty,erases,erased⟩ := sound
  cases role with
  | start => exact absurd rfl other
  | adopt | commit => constructor <;> simp only [Function.update_apply] <;> grind [Stage.past]

theorem Sound.forgotten (sound : Sound stage recorded sourceHolds targetHolds) (adopted : stage .adopt = .settled)
    (committed : stage .commit = .settled) : ¬ recorded ∧ ¬ sourceHolds ∧ ¬ targetHolds := by
  obtain ⟨first,starts,unrecorded,kept,source,target,holding,clears,duty,erases,erased⟩ := sound
  grind [Stage.past]

end Stages

def Active (db : Store) (entityId : AtlasEntityID) : Option Bytes :=
  (db.tables.hash kActiveTransferTable).get (entityField entityId)

def Holders (db : Store) (entityId : AtlasEntityID) : List Bytes := Sets.members (HoldersKey entityId) db.holders

/-- A record of the transfer, whoever wrote it last. -/
structure Transfer.Names (t : Transfer) (record : ActiveTransferRecord) : Prop where
  entityId : record.entityId = t.entityId
  source : record.source = t.source.text
  target : record.target = t.target.text
  transferTimeUs : record.transferTimeUs = t.transferTimeUs
  lastAuthority : record.lastAuthority = t.source.text ∨ record.lastAuthority = t.target.text
  state : NetworkManifest.tab ∉ record.state

/-- The store says of a transfer what its stages say, and names nobody else. -/
structure Kept (t : Transfer) (stage : Role → Stage) (db : Store) : Prop where
  sound : Sound stage ((Active db t.entityId).isSome = true) (t.source.text ∈ Holders db t.entityId)
    (t.target.text ∈ Holders db t.entityId)
  named : ∀ payload, Active db t.entityId = some payload → ∃ record, t.Names record ∧ payload = Encode record
  holders : ∀ member ∈ Holders db t.entityId, member = t.source.text ∨ member = t.target.text

/-- Nothing changes but the record and the holders of one entity. -/
structure Elsewhere (entityId : AtlasEntityID) (before after : Store) : Prop where
  active : ∀ other ≠ entityId, Active after other = Active before other
  holders : ∀ other ≠ entityId, Holders after other = Holders before other
  fields : ∀ field ∈ (after.tables.hash kActiveTransferTable).map (·.1),
    field = entityField entityId ∨ field ∈ (before.tables.hash kActiveTransferTable).map (·.1)
  distinct : ((before.tables.hash kActiveTransferTable).map (·.1)).Nodup → ((after.tables.hash kActiveTransferTable).map (·.1)).Nodup

section Commands
variable {t : Transfer} {stage next : Role → Stage} {db : Store} {entityId : AtlasEntityID} {record : ActiveTransferRecord}

theorem Transfer.Names.plain (names : t.Names record) : record.Plain where
  source := names.source ▸ tab_not_mem_text _
  target := names.target ▸ tab_not_mem_text _
  lastAuthority := by rcases names.lastAuthority with same | same <;> exact same ▸ tab_not_mem_text _
  state := names.state

theorem Transfer.Names.refilled_source (names : t.Names record) :
    t.Names (if record.source = [] then {record with source := t.source.text} else record) := by
  split
  · exact {names with source := rfl}
  · exact names

theorem Transfer.Names.refilled_target (names : t.Names record) :
    t.Names (if record.target = [] then {record with target := t.target.text} else record) := by
  split
  · exact {names with target := rfl}
  · exact names

theorem Transfer.Names.refilled_time (names : t.Names record) :
    t.Names (if record.transferTimeUs = 0 then {record with transferTimeUs := t.transferTimeUs} else record) := by
  split
  · exact {names with transferTimeUs := rfl}
  · exact names

theorem Transfer.Names.retold {state : Bytes} (names : t.Names record) (nowUs : UInt64) (plain : NetworkManifest.tab ∉ state) :
    t.Names {record with lastAuthority := t.target.text,state,updatedAtUs := nowUs} :=
  {names with lastAuthority := .inr rfl,state := plain}

theorem Elsewhere.refl (entityId : AtlasEntityID) (db : Store) : Elsewhere entityId db db where
  active _ _ := rfl
  holders _ _ := rfl
  fields _ member := .inr member
  distinct apart := apart

theorem elsewhere_hset (value : Bytes) : Elsewhere entityId db
    (exec (inTables (hset kActiveTransferTable (entityField entityId) value)) db).2 where
  active other apart := by
    simp only [Active,inTables,hset,exec_zoom,exec_modify,withHash_self]
    exact Entries.get_put_other _ _ _ _ fun same => apart (entityField_injective same)
  holders _ _ := rfl
  fields field member := by
    simp only [inTables,hset,exec_zoom,exec_modify,withHash_self] at member
    exact (Entries.mem_keys_put _ _ _ _).mp member
  distinct apart := by
    simp only [inTables,hset,exec_zoom,exec_modify,withHash_self]
    exact Entries.keys_put_nodup _ _ _ apart

theorem elsewhere_hdel : Elsewhere entityId db (exec (inTables (hdel kActiveTransferTable (entityField entityId))) db).2 where
  active other apart := by
    simp only [Active,inTables,hdel,exec_zoom,exec_modify,withHash_self]
    exact Entries.get_drop_other _ _ _ fun same => apart (entityField_injective same)
  holders _ _ := rfl
  fields field member := by
    simp only [inTables,hdel,exec_zoom,exec_modify,withHash_self] at member
    exact .inr ((List.filter_sublist.map _).subset member)
  distinct apart := by
    simp only [inTables,hdel,exec_zoom,exec_modify,withHash_self]
    exact Entries.keys_drop_nodup _ _ apart

theorem elsewhere_holders {holders : Sets} (others : ∀ key ≠ HoldersKey entityId, holders.seen key = db.holders.seen key) :
    Elsewhere entityId db {db with holders} where
  active _ _ := rfl
  holders _ apart := Sets.members_congr (others _ fun same => apart (HoldersKey_injective same))
  fields _ member := .inr member
  distinct apart := apart

theorem elsewhere_del : Elsewhere entityId db (exec (delKey (HoldersKey entityId)) db).2 where
  active _ _ := congrArg (Entries.get _) (without_other _ _ _ (HoldersKey_apart _))
  holders _ apart := Sets.members_congr (Expiring.seen_put_other _ fun same => apart (HoldersKey_injective same))
  fields _ member := .inr ((without_other db.tables _ _ (HoldersKey_apart entityId)).symm ▸ member)
  distinct apart := (without_other db.tables _ _ (HoldersKey_apart entityId)).symm ▸ apart

theorem Kept.elsewhere {other : AtlasEntityID} {after : Store} (kept : Kept t stage db) (beyond : Elsewhere other db after)
    (apart : t.entityId ≠ other) : Kept t stage after := by
  have active := beyond.active t.entityId apart
  have holders := beyond.holders t.entityId apart
  refine ⟨?_,?_,?_⟩
  · rw [active,holders]
    exact kept.sound
  · rw [active]
    exact kept.named
  · rw [holders]
    exact kept.holders

theorem Kept.written (kept : Kept t stage db) (names : t.Names record)
    (sound : Sound next True (t.source.text ∈ Holders db t.entityId) (t.target.text ∈ Holders db t.entityId)) :
    Kept t next (exec (inTables (hset kActiveTransferTable (entityField record.entityId) (Encode record))) db).2 := by
  rw [names.entityId]
  have active : Active (exec (inTables (hset kActiveTransferTable (entityField t.entityId) (Encode record))) db).2 t.entityId =
      some (Encode record) := by
    simp only [Active,inTables,hset,exec_zoom,exec_modify,withHash_self]
    exact Entries.get_put_self _ _ _
  refine ⟨?_,?_,kept.holders⟩
  · rw [active,Option.isSome_some,eq_self_iff_true]
    exact sound
  · intro payload found
    exact ⟨record,names,Option.some.inj (found.symm.trans active)⟩

theorem Kept.holding {holders : Sets} {members : List Bytes} (kept : Kept t stage db)
    (same : Sets.members (HoldersKey t.entityId) holders = members)
    (sound : Sound next ((Active db t.entityId).isSome = true) (t.source.text ∈ members) (t.target.text ∈ members))
    (named : ∀ member ∈ members, member = t.source.text ∨ member = t.target.text) : Kept t next {db with holders} := by
  subst same
  exact ⟨sound,kept.named,named⟩

/-- A deadline that is set, or time that no holders run out of, leaves the holders as they are. -/
theorem Kept.lasting {holders : Sets} (kept : Kept t stage db)
    (same : Sets.members (HoldersKey t.entityId) holders = Holders db t.entityId) : Kept t stage {db with holders} :=
  kept.holding same kept.sound kept.holders

theorem Kept.dropped (kept : Kept t stage db)
    (sound : Sound next False (t.source.text ∈ Holders db t.entityId) (t.target.text ∈ Holders db t.entityId)) :
    Kept t next (exec (inTables (hdel kActiveTransferTable (entityField t.entityId))) db).2 := by
  have active : Active (exec (inTables (hdel kActiveTransferTable (entityField t.entityId))) db).2 t.entityId = none := by
    simp only [Active,inTables,hdel,exec_zoom,exec_modify,withHash_self]
    exact Entries.get_drop_self _ _
  refine ⟨?_,?_,kept.holders⟩
  · rw [active,Option.isSome_none,Bool.false_eq_true]
    exact sound
  · intro payload found
    rw [active] at found
    cases found

theorem Kept.erased (kept : Kept t stage db) (sound : Sound next ((Active db t.entityId).isSome = true) False False) :
    Kept t next (exec (delKey (HoldersKey t.entityId)) db).2 := by
  have active : Active (exec (delKey (HoldersKey t.entityId)) db).2 t.entityId = Active db t.entityId :=
    congrArg (Entries.get _) (without_other _ _ _ (HoldersKey_apart _))
  have holders : Holders (exec (delKey (HoldersKey t.entityId)) db).2 t.entityId = [] := by
    have gone : (db.holders.put (HoldersKey t.entityId) none).seen (HoldersKey t.entityId) = none := by
      rw [Expiring.seen,Expiring.live_put_self]
      rfl
    exact congrArg (·.getD []) gone
  refine ⟨?_,?_,?_⟩
  · simpa only [active,holders,List.not_mem_nil] using sound
  · rw [active]
    exact kept.named
  · rw [holders]
    exact fun member none => absurd none List.not_mem_nil

end Commands

section Threads
variable {κ : Type} [DecidableEq κ] {transfer : κ → Transfer} {k : κ} {role : Role} {α : Type}

/-- The call of a transfer for a role, at the time that the call takes. -/
def program (transfer : κ → Transfer) (nowUs : κ × Role → UInt64) (i : κ × Role) : Script Store Unit :=
  script (nowUs i) ((transfer i.1).mark i.2)

/-- Every transfer is kept, and the table has no other records. -/
structure Invariant (transfer : κ → Transfer) (stages : κ × Role → Stage) (db : Store) : Prop where
  kept : ∀ k, Kept (transfer k) (fun role => stages (k,role)) db
  distinct : ((db.tables.hash kActiveTransferTable).map (·.1)).Nodup
  owned : ∀ field ∈ (db.tables.hash kActiveTransferTable).map (·.1), ∃ k, field = entityField (transfer k).entityId

theorem Invariant.next {stages : κ × Role → Stage} {db after : Store} {stage : Stage}
    (apart : Function.Injective fun k => (transfer k).entityId) (invariant : Invariant transfer stages db)
    (beyond : Elsewhere (transfer k).entityId db after)
    (kept : Kept (transfer k) (Function.update (fun role => stages (k,role)) role stage) after) :
    Invariant transfer (Function.update stages (k,role) stage) after where
  kept other := by
    by_cases same : other = k
    · subst same
      have own : (fun role' => Function.update stages (other,role) stage (other,role')) =
          Function.update (fun role => stages (other,role)) role stage := by
        funext role'
        simp [Function.update_apply]
      rw [own]
      exact kept
    · have others : (fun role' => Function.update stages (k,role) stage (other,role')) = fun role => stages (other,role) := by
        funext role'
        simp [same]
      rw [others]
      exact (invariant.kept other).elsewhere beyond fun together => same (apart together)
  distinct := beyond.distinct invariant.distinct
  owned field member := by
    rcases beyond.fields field member with mine | before
    · exact ⟨k,mine⟩
    · exact invariant.owned field before

/-- A command of a thread is about its own transfer. -/
theorem upholds_own (apart : Function.Injective fun k => (transfer k).entityId) {program : Program Store α} {here : Stage}
    {outcome : Except Fault α → Stage → Prop}
    (each : ∀ stage db, stage role = here → Kept (transfer k) stage db → ∃ value next,
      (exec program db).1 = .ok value ∧ Elsewhere (transfer k).entityId db (exec program db).2 ∧
      Kept (transfer k) (Function.update stage role next) (exec program db).2 ∧ outcome (.ok value) next) :
    Upholds (Invariant transfer) (k,role) outcome (query program) here := by
  apply upholds_query
  intro stages db same invariant
  obtain ⟨value,next,result,beyond,kept,ends⟩ := each _ db same (invariant.kept k)
  exact ⟨next,invariant.next apart beyond kept,result ▸ ends⟩

theorem upholds_TryGet (apart : Function.Injective fun k => (transfer k).entityId) (other : role ≠ .start)
    {out : ActiveTransferRecord} {outcome : Except Fault (Bool × ActiveTransferRecord) → Stage → Prop}
    (ends : ∀ record, (transfer k).Names record → outcome (.ok (true,record)) .begun) :
    Upholds (Invariant transfer) (k,role) outcome (TryGet (transfer k).entityId out) .begun := by
  refine upholds_bind (upholds_own apart fun stage db same kept => ?_)
  have standing := (kept.sound.standing other same).2
  obtain ⟨payload,found⟩ := Option.isSome_iff_exists.mp standing
  obtain ⟨record,names,rfl⟩ := kept.named payload found
  refine ⟨some (Encode record),.begun,congrArg Except.ok found,.refl _ _,?_,?_⟩
  · rwa [← same,Function.update_eq_self]
  · have parsed : ParseRecord (entityField record.entityId) (Encode record) out = (true,record) := ParseRecord_Encode names.plain
    rw [names.entityId] at parsed
    change outcome (.ok (ParseRecord (entityField (transfer k).entityId) (Encode record) out)) .begun
    rw [parsed]
    exact ends record names

theorem upholds_Upsert (apart : Function.Injective fun k => (transfer k).entityId) (other : role ≠ .start)
    {record : ActiveTransferRecord} (names : (transfer k).Names record) {outcome : Except Fault Unit → Stage → Prop}
    (ends : outcome (.ok ()) .begun) : Upholds (Invariant transfer) (k,role) outcome (Upsert record) .begun := by
  refine upholds_own apart fun stage db same kept => ⟨(),.begun,rfl,?_,?_,ends⟩
  · exact names.entityId ▸ elsewhere_hset _
  · rw [← same,Function.update_eq_self]
    exact kept.written names (kept.sound.rewritten other same)

theorem foldl_heldBy {source target : Bytes} (apart : source ≠ target) (holders : List Bytes) (has : Bool × Bool) :
    holders.foldl (heldBy source target) has =
      (has.1 || decide (source ∈ holders),has.2 || decide (target ∈ holders)) := by
  induction holders generalizing has with
  | nil => simp
  | cons holder holders ih =>
    rw [List.foldl_cons,ih,heldBy]
    by_cases mine : holder = source
    · simp [mine,Ne.symm apart]
    · by_cases theirs : holder = target
      · simp [theirs,apart,Ne.symm apart]
      · simp [mine,theirs,Ne.symm mine,Ne.symm theirs]

theorem upholds_ClearTransfer (apart : Function.Injective fun k => (transfer k).entityId) (other : role ≠ .start)
    {outcome : Except Fault Unit → Stage → Prop} (ends : outcome (.ok ()) .settled) :
    Upholds (Invariant transfer) (k,role) outcome (ClearTransfer (transfer k).entityId) .clearing := by
  refine upholds_bind (upholds_own apart fun stage db same kept => ?_)
  refine ⟨(),.erasing,rfl,elsewhere_hdel,kept.dropped (kept.sound.cleared other same),?_⟩
  exact upholds_own apart fun stage db same kept =>
    ⟨(),.settled,rfl,elsewhere_del,kept.erased (kept.sound.erasedAll other same),ends⟩

theorem upholds_TryFinalize (apart : Function.Injective fun k => (transfer k).entityId) (other : role ≠ .start)
    {outcome : Except Fault Unit → Stage → Prop} (ends : outcome (.ok ()) .settled) :
    Upholds (Invariant transfer) (k,role) outcome
      (TryFinalize (transfer k).entityId (transfer k).source.text (transfer k).target.text) .marked := by
  refine upholds_bind (upholds_own apart fun stage db same kept => ?_)
  have flags := foldl_heldBy (transfer k).apart (Holders db (transfer k).entityId) (false,false)
  by_cases stopped : (transfer k).target.text ∈ Holders db (transfer k).entityId ∧
      (transfer k).source.text ∉ Holders db (transfer k).entityId
  · refine ⟨Holders db (transfer k).entityId,.clearing,rfl,.refl _ _,?_,?_⟩
    · exact ⟨kept.sound.finalizes other same stopped.1 stopped.2,kept.named,kept.holders⟩
    · simp only [flags,stopped,Bool.false_or,decide_true,decide_false,Bool.not_false,Bool.and_self,if_true]
      exact upholds_ClearTransfer apart other ends
  · refine ⟨Holders db (transfer k).entityId,.settled,rfl,.refl _ _,?_,?_⟩
    · exact ⟨kept.sound.left other same stopped,kept.named,kept.holders⟩
    · have going : ¬ (decide ((transfer k).target.text ∈ Holders db (transfer k).entityId) &&
          !decide ((transfer k).source.text ∈ Holders db (transfer k).entityId)) = true := by simpa using stopped
      simp only [flags,Bool.false_or,if_neg going]
      exact ends

theorem mem_including_other {member other : Bytes} (apart : other ≠ member) (members : List Bytes) :
    (other ∈ including member members) = (other ∈ members) := by
  rw [mem_including,eq_false apart,false_or]

/-- A shard puts itself into the set of the holders and sets its deadline. -/
theorem upholds_holds (apart : Function.Injective fun k => (transfer k).entityId) {member : Bytes} {before after : Stage}
    {rest : Script Store Unit} {outcome : Except Fault Unit → Stage → Prop}
    (joins : ∀ stage db, stage role = before → Kept (transfer k) stage db →
      Sound (Function.update stage role after) ((Active db (transfer k).entityId).isSome = true)
        ((transfer k).source.text ∈ including member (Holders db (transfer k).entityId))
        ((transfer k).target.text ∈ including member (Holders db (transfer k).entityId)))
    (named : member = (transfer k).source.text ∨ member = (transfer k).target.text)
    (goes : Upholds (Invariant transfer) (k,role) outcome rest after) :
    Upholds (Invariant transfer) (k,role) outcome (do
      query (inHolders (Sets.sadd (HoldersKey (transfer k).entityId) member))
      let _ttlSet ← query (inHolders (Expiring.expire (HoldersKey (transfer k).entityId) kHolderKeyTtl))
      rest) before := by
  refine upholds_bind (upholds_own apart fun stage db same kept => ?_)
  refine ⟨(),after,rfl,elsewhere_holders fun _ => Expiring.seen_changed_other _,?_,?_⟩
  · refine kept.holding Sets.members_sadd (joins stage db same kept) fun other inside => ?_
    rcases (mem_including _ _ _).mp inside with rfl | there
    · exact named
    · exact kept.holders other there
  have lasts : 0 < kHolderKeyTtl := by decide
  refine upholds_bind (upholds_own apart fun stage db same kept => ?_)
  refine ⟨_,after,rfl,elsewhere_holders fun _ _ => Expiring.seen_expired lasts,?_,goes⟩
  rw [← same,Function.update_eq_self]
  exact kept.lasting (Sets.members_congr (Expiring.seen_expired lasts))

theorem upholds_started (apart : Function.Injective fun k => (transfer k).entityId) (nowUs : UInt64)
    {outcome : Except Fault Unit → Stage → Prop} (ends : outcome (.ok ()) .marked) :
    Upholds (Invariant transfer) (k,.start) outcome (script nowUs ((transfer k).mark .start)) .begun := by
  refine upholds_bind (upholds_own apart fun stage db same kept => ?_)
  refine ⟨(),.recorded,rfl,elsewhere_hset _,kept.written ⟨rfl,rfl,rfl,rfl,.inl rfl,?_⟩ (kept.sound.start_recorded same),?_⟩
  · exact tab_not_mem_ascii (by decide)
  have finished : Upholds (Invariant transfer) (k,.start) outcome (pure ()) .marked := ends
  refine upholds_holds apart (fun stage db same kept => ?_) (.inl rfl) finished
  rw [mem_including_other (transfer k).apart.symm,eq_true ((mem_including _ _ _).mpr (.inl rfl))]
  exact kept.sound.start_listed same

theorem upholds_adopted (apart : Function.Injective fun k => (transfer k).entityId) (nowUs : UInt64)
    {outcome : Except Fault Unit → Stage → Prop} (ends : outcome (.ok ()) .settled) :
    Upholds (Invariant transfer) (k,.adopt) outcome (script nowUs ((transfer k).mark .adopt)) .begun := by
  refine upholds_bind (upholds_TryGet apart (by decide) fun record names => ?_)
  refine upholds_bind (upholds_Upsert apart (by decide) ?_ ?_)
  · exact names.refilled_source.refilled_target.refilled_time.retold nowUs (tab_not_mem_ascii (by decide))
  refine upholds_holds apart (fun stage db same kept => ?_) (.inr rfl) (upholds_TryFinalize apart (by decide) ends)
  rw [mem_including_other (transfer k).apart,eq_true ((mem_including _ _ _).mpr (.inl rfl))]
  exact kept.sound.adopted same

theorem upholds_committed (apart : Function.Injective fun k => (transfer k).entityId) (nowUs : UInt64)
    {outcome : Except Fault Unit → Stage → Prop} (ends : outcome (.ok ()) .settled) :
    Upholds (Invariant transfer) (k,.commit) outcome (script nowUs ((transfer k).mark .commit)) .begun := by
  refine upholds_bind (upholds_TryGet apart (by decide) fun record names => ?_)
  refine upholds_bind (upholds_Upsert apart (by decide) ?_ ?_)
  · exact names.refilled_source.refilled_target.retold nowUs (tab_not_mem_ascii (by decide))
  refine upholds_bind (upholds_own apart fun stage db same kept => ?_)
  refine ⟨(),.marked,rfl,elsewhere_holders fun _ => Expiring.seen_changed_other _,?_,upholds_TryFinalize apart (by decide) ends⟩
  refine kept.holding Sets.members_srem ?_ fun member inside => kept.holders member (List.mem_filter.mp inside).1
  have gone : ((transfer k).source.text ∈ (Holders db (transfer k).entityId).filter (· ≠ (transfer k).source.text)) = False := by
    simp
  have stays : ((transfer k).target.text ∈ (Holders db (transfer k).entityId).filter (· ≠ (transfer k).source.text)) =
      ((transfer k).target.text ∈ Holders db (transfer k).entityId) := by
    simp [(transfer k).apart.symm]
  exact gone ▸ stays ▸ kept.sound.committed same

/-- No record and no holder is there yet. -/
structure Fresh (transfer : κ → Transfer) (store : Store) : Prop where
  records : store.tables.hash kActiveTransferTable = []
  holders : ∀ k, Holders store (transfer k).entityId = []

/-- What the clock does to the store. -/
def elapsed (time : Nat) (store : Store) : Store := (exec (inHolders (Expiring.pass time)) store).2

/-- The two ends of a transfer report its end when its start has been reported, and the clock
comes to no deadline of holders that are there. -/
def InTime (transfer : κ → Transfer) (threads : Threads (κ × Role) Store Unit) : Move (κ × Role) ⊕ Nat → Prop
  | .inl (.begin (k,role)) => role = .start ∨ threads.Ended (k,.start)
  | .inl (.command _) => True
  | .inr time => ∀ k, ∀ entry ∈ threads.store.holders.live (HoldersKey (transfer k).entityId), ∀ deadline ∈ entry.deadline,
    threads.store.holders.clock+time < deadline

def outcome (i : κ × Role) (result : Except Fault Unit) (stage : Stage) : Prop :=
  result = .ok () ∧ stage = if i.2 = .start then .marked else .settled

omit [DecidableEq κ] in
theorem invariant_fresh {store : Store} (fresh : Fresh transfer store) : Invariant transfer (fun _ => .idle) store where
  kept k := by
    have active : Active store (transfer k).entityId = none := by rw [Active,fresh.records]; rfl
    refine ⟨?_,fun payload found => ?_,?_⟩
    · rw [active,fresh.holders]
      constructor <;> simp [Stage.past]
    · rw [active] at found
      cases found
    · rw [fresh.holders]
      exact fun member none => absurd none List.not_mem_nil
  distinct := by rw [fresh.records]; exact List.nodup_nil
  owned field member := by
    rw [fresh.records] at member
    cases member

section Crossing

def shard (n : UInt8) : NetworkIdentity := .MakeIDShard ⟨0::n::List.replicate 14 0,rfl⟩

def crossing (_ : Unit) : Transfer where
  entityId := 7
  source := shard 1
  target := shard 2
  transferTimeUs := 60000
  apart := by decide

abbrev Crossing := Threads (Unit × Role) Store Unit

abbrev Happening := Move (Unit × Role) ⊕ Nat

def moved : Happening → Crossing → Option Crossing := Threads.moveOr (program crossing fun _ => 1000) elapsed

def empty : Store := {tables := Database.empty}

def started : Crossing :=
  (System.replay moved (.inl (.begin ((),.start))::List.replicate 3 (.inl (.command ((),.start)))) {store := empty}).get rfl

/-- Twenty of the thirty seconds are over. -/
def waited : Crossing := {started with store := elapsed 20 started.store}

def adopting : Crossing := (moved (.inl (.begin ((),.adopt))) waited).get rfl

def meeting : Crossing := (moved (.inl (.begin ((),.commit))) adopting).get rfl

/-- The commands of the two ends in turn; both find that the transfer is over. -/
def turns : List (Unit × Role) := (List.replicate 6 [((),.commit),((),.adopt)]).flatten ++ [((),.adopt)]

def crossed : Crossing := (System.replay moved (turns.map fun i => .inl (.command i)) meeting).get rfl

theorem crossing_apart : Function.Injective fun k => (crossing k).entityId := fun _ _ _ => rfl

theorem crossing_fresh : Fresh crossing empty where
  records := rfl
  holders _ := rfl

theorem started_reached : (System.stepping {store := empty} moved).ReachableWhile (InTime crossing) started := by
  refine System.stepping_replay (fun _ event member => ?_) System.stepping_start (Option.some_get _).symm
  rcases List.mem_cons.mp member with rfl | later
  · exact .inl rfl
  · rw [List.eq_of_mem_replicate later]
    trivial

theorem meeting_reached : (System.stepping {store := empty} moved).ReachableWhile (InTime crossing) meeting := by
  have early : ∀ entry ∈ started.store.holders.live (HoldersKey 7), ∀ deadline ∈ entry.deadline,
      started.store.holders.clock+20 < deadline := by decide +kernel
  have waits : InTime crossing started (.inr 20) := fun _ => early
  have adopts : InTime crossing waited (.inl (.begin ((),.adopt))) := Or.inr ⟨.ok (),rfl⟩
  have commits : InTime crossing adopting (.inl (.begin ((),.commit))) := Or.inr ⟨.ok (),rfl⟩
  have first := System.ReachableWhile.step _ _ waited started_reached waits rfl
  have before := System.ReachableWhile.step _ _ adopting first adopts (Option.some_get _).symm
  exact .step _ _ _ before commits (Option.some_get _).symm

theorem crossed_reached : (System.stepping {store := empty} moved).ReachableWhile (InTime crossing) crossed := by
  refine System.stepping_replay (fun _ event member => ?_) meeting_reached (Option.some_get _).symm
  obtain ⟨i,_,rfl⟩ := List.mem_map.mp member
  trivial

end Crossing

section Runs
variable {nowUs : κ × Role → UInt64} {store : Store} {threads : Threads (κ × Role) Store Unit}

theorem transfers_covered (apart : Function.Injective fun k => (transfer k).entityId) (fresh : Fresh transfer store)
    (reached : (System.stepping {store} (Threads.moveOr (program transfer nowUs) elapsed)).ReachableWhile (InTime transfer) threads) :
    ∃ stages, Threads.Covers (Invariant transfer) .idle outcome threads stages := by
  refine Threads.covered_or _ _ _ (invariant_fresh fresh) ?_ (fun threads stages time covers allowed => ?_) reached
  swap
  · refine ⟨fun k => ?_,covers.holds.distinct,covers.holds.owned⟩
    exact (covers.holds.kept k).lasting (Sets.members_congr (Expiring.seen_pass (allowed k)))
  rintro threads stages ⟨k,role⟩ covers allowed unbegun
  have idle := covers.idle (k,role) unbegun
  have started : role = .start ∨ stages (k,.start) = .marked := by
    refine allowed.imp_right fun stopped => ?_
    obtain ⟨_,_,_,marked⟩ := covers.finished stopped
    exact marked
  have kept := covers.holds.kept k
  refine ⟨.begun,covers.holds.next apart (.refl _ _) ⟨kept.sound.began started idle,kept.named,kept.holders⟩,?_⟩
  cases role with
  | start => exact upholds_started apart _ ⟨rfl,rfl⟩
  | adopt => exact upholds_adopted apart _ ⟨rfl,rfl⟩
  | commit => exact upholds_committed apart _ ⟨rfl,rfl⟩

/-- Once the start and both ends of a transfer have been reported, in whatever order their
commands came and unless its holders lapsed before, no record and no holder of it is left, and
at any time only its two shards hold it. -/
theorem transfer_cleared (apart : Function.Injective fun k => (transfer k).entityId) (fresh : Fresh transfer store)
    (reached : (System.stepping {store} (Threads.moveOr (program transfer nowUs) elapsed)).ReachableWhile (InTime transfer) threads) (k : κ) :
    (∀ member ∈ Holders threads.store (transfer k).entityId,
      member = (transfer k).source.text ∨ member = (transfer k).target.text) ∧
    (threads.Ended (k,.start) → threads.script (k,.commit) = none →
      (transfer k).source.text ∈ Holders threads.store (transfer k).entityId) ∧
    (threads.Ended (k,.adopt) → threads.script (k,.commit) = none →
      (transfer k).target.text ∈ Holders threads.store (transfer k).entityId) ∧
    ((∀ role, threads.Ended (k,role)) →
      Active threads.store (transfer k).entityId = none ∧ Holders threads.store (transfer k).entityId = []) := by
  obtain ⟨stages,covers⟩ := transfers_covered apart fresh reached
  have kept := covers.holds.kept k
  have sound := kept.sound
  refine ⟨kept.holders,fun stopped unbegun => ?_,fun stopped unbegun => ?_,fun stopped => ?_⟩
  · obtain ⟨_,_,_,marked⟩ := covers.finished stopped
    refine sound.source.mpr ⟨marked,?_⟩
    simp [covers.idle _ unbegun,Stage.past]
  · obtain ⟨_,_,_,settled⟩ := covers.finished stopped
    refine sound.holding ?_ ?_
    · simp [settled,Stage.past]
    · simp [covers.idle _ unbegun,Stage.past]
  · obtain ⟨_,_,_,adopted⟩ := covers.finished (stopped .adopt)
    obtain ⟨_,_,_,committed⟩ := covers.finished (stopped .commit)
    obtain ⟨unrecorded,released,dropped⟩ := sound.forgotten adopted committed
    refine ⟨Option.not_isSome_iff_eq_none.mp unrecorded,List.eq_nil_iff_forall_not_mem.mpr fun member inside => ?_⟩
    rcases kept.holders member inside with rfl | rfl
    · exact released inside
    · exact dropped inside

theorem transfer_cleared_crossed : Active crossed.store 7 = none ∧ Holders crossed.store 7 = [] :=
  (transfer_cleared crossing_apart crossing_fresh crossed_reached ()).2.2.2 fun role => by
    cases role <;> exact ⟨.ok (),rfl⟩

-- holders that lapse before the adoption: it clears the record by itself, and the commit behind it leaves one
example : (System.replay moved (.inr 31::.inl (.begin ((),.adopt))::List.replicate 7 (.inl (.command ((),.adopt))) ++
    .inl (.begin ((),.commit))::List.replicate 4 (.inl (.command ((),.commit)))) started).map
      (fun threads => ([Role.start,.adopt,.commit].all fun role => threads.Ended ((),role),(Active threads.store 7).isSome)) =
    some (true,true) := by decide +kernel

theorem activeTransfers_fields {all : Hash} (each : ∀ entry ∈ all, ∃ record : ActiveTransferRecord,
    ParseRecord entry.1 entry.2 {} = (true,record) ∧ entry.1 = entityField record.entityId) :
    (activeTransfers all).map (fun record => entityField record.entityId) = all.map (·.1) := by
  induction all with
  | nil => rfl
  | cons entry all ih =>
    obtain ⟨record,parsed,mine⟩ := each entry List.mem_cons_self
    have rest := ih fun other member => each other (List.mem_cons_of_mem _ member)
    rw [activeTransfers] at rest ⊢
    rw [List.filterMap_cons_some (b := record) (by simp only [parsed]),List.map_cons,List.map_cons,rest,mine]

omit [DecidableEq κ] in
theorem Invariant.entry {stages : κ × Role → Stage} {db : Store} (invariant : Invariant transfer stages db) {entry : Bytes × Bytes}
    (member : entry ∈ db.tables.hash kActiveTransferTable) : ∃ k record, (transfer k).Names record ∧
      Active db (transfer k).entityId = some entry.2 ∧ entry.1 = entityField record.entityId ∧
      ParseRecord entry.1 entry.2 {} = (true,record) := by
  obtain ⟨k,mine⟩ := invariant.owned entry.1 (List.mem_map_of_mem member)
  have active : Active db (transfer k).entityId = some entry.2 :=
    Entries.get_mem invariant.distinct (mine ▸ member)
  obtain ⟨record,names,written⟩ := (invariant.kept k).named _ active
  have field : entry.1 = entityField record.entityId := mine.trans (congrArg entityField names.entityId.symm)
  exact ⟨k,record,names,active,field,by rw [field,written,ParseRecord_Encode names.plain]⟩

/-- The reader of the table finds each transfer from the end of its start until both of its
ends are being reported, once, with its two shards and its time, and no transfer that has not
begun or that is over. -/
theorem transfers_listed (apart : Function.Injective fun k => (transfer k).entityId) (fresh : Fresh transfer store)
    (reached : (System.stepping {store} (Threads.moveOr (program transfer nowUs) elapsed)).ReachableWhile (InTime transfer) threads) :
    ∃ found, exec GetAllActiveTransfers threads.store = (.ok found,threads.store) ∧
      (found.map (·.entityId)).Nodup ∧
      (∀ record ∈ found, ∃ k, (transfer k).Names record ∧ threads.script (k,.start) ≠ none ∧
        ¬ ∀ role, threads.Ended (k,role)) ∧
      ∀ k, threads.Ended (k,.start) → threads.script (k,.adopt) = none ∨ threads.script (k,.commit) = none →
        ∃ record ∈ found, (transfer k).Names record := by
  obtain ⟨stages,covers⟩ := transfers_covered apart fresh reached
  have invariant := covers.holds
  refine ⟨activeTransfers (threads.store.tables.hash kActiveTransferTable),rfl,?_,fun record member => ?_,fun k stopped unbegun => ?_⟩
  · have fields := activeTransfers_fields fun entry member => by
      obtain ⟨_,record,_,_,field,parsed⟩ := invariant.entry member
      exact ⟨record,parsed,field⟩
    have distinct := invariant.distinct
    rw [← fields,← Function.comp_def entityField,← List.map_map] at distinct
    exact distinct.of_map
  · obtain ⟨entry,inside,read⟩ := List.mem_filterMap.mp member
    obtain ⟨k,named,names,active,_,parsed⟩ := invariant.entry inside
    simp only [parsed,Option.some.injEq] at read
    subst read
    have sound := (invariant.kept k).sound
    have recorded : (Active threads.store (transfer k).entityId).isSome = true := by rw [active]; rfl
    refine ⟨k,names,fun unbegun => ?_,fun stopped => ?_⟩
    · exact sound.unrecorded (.inl (covers.idle _ unbegun)) recorded
    · obtain ⟨_,_,_,adopted⟩ := covers.finished (stopped .adopt)
      obtain ⟨_,_,_,committed⟩ := covers.finished (stopped .commit)
      exact (sound.forgotten adopted committed).1 recorded
  · obtain ⟨_,_,_,started⟩ := covers.finished stopped
    have going : ¬ ((stages (k,.adopt)).past ∧ (stages (k,.commit)).past) := by
      rcases unbegun with none | none <;> simp [covers.idle _ none,Stage.past]
    obtain ⟨payload,active⟩ := Option.isSome_iff_exists.mp ((invariant.kept k).sound.kept (.inr started) going)
    have inside : (entityField (transfer k).entityId,payload) ∈ threads.store.tables.hash kActiveTransferTable := Entries.mem_of_get active
    obtain ⟨record,names,rfl⟩ := (invariant.kept k).named payload active
    refine ⟨record,List.mem_filterMap.mpr ⟨_,inside,?_⟩,names⟩
    simp only [← names.entityId,ParseRecord_Encode names.plain]

theorem transfers_listed_started : ∃ found, exec GetAllActiveTransfers started.store = (.ok found,started.store) ∧
    ∃ record ∈ found, (crossing ()).Names record := by
  obtain ⟨found,read,_,_,listed⟩ := transfers_listed crossing_apart crossing_fresh started_reached
  exact ⟨found,read,listed () ⟨.ok (),rfl⟩ (.inl rfl)⟩

end Runs

end Threads

end AtlasNet.HandoffTransferManifest
