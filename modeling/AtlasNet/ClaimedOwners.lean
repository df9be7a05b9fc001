import AtlasNet.BoundOwnership
import AtlasNet.HeuristicShapes
import AtlasNet.NetworkTelemetry
import AtlasNet.Foundation.Caching
import AtlasNet.Foundation.Dictionary

/-! The shards that have claimed the bounds, as the service of the map reads them from the
manifest and keeps them for half a second. -/
namespace AtlasNet.PureDatabaseTelemetry
open Foundation Foundation.Redis Foundation.Streams HeuristicManifest JavaScript NetworkTelemetry

mutual
/-- `String(value)`; in an array null is empty. -/
def stringOf : Json → String
  | .null => "null"
  | .bool value => if value then "true" else "false"
  | .num value => toString value
  | .str value => value
  | .arr items => joinedOf items
  | .obj _ => "[object Object]"
def joinedOf : List Json → String
  | [] => ""
  | [item] => if item.isNull then "" else stringOf item
  | item::rest => (if item.isNull then "" else stringOf item) ++ "," ++ joinedOf rest
end

/-- `value ?? other` -/
def orElse (value other : Option Json) : Option Json :=
  match value with
  | none | some .null => other
  | some json => some json

abbrev Owners := Dictionary (List Char) (List Char)

/-- The bound and the owner of a claim that has both. -/
def claimOf (around : Surroundings) (value : Json) : Option (List Char × List Char) :=
  let boundId := trim (((orElse (value.member "ID") (orElse (value.member "id") none)).map stringOf).getD "").toList
  let named := trim ((text "OwnerName" value).getD "").toList
  let ownerId :=
    if named ≠ [] then named
    else match text "Owner64" value with
      | some Owner64 => trim (identityString around (Buffer.fromBase64 Owner64.toList))
      | none => []
  if boundId = [] ∨ ownerId = [] then none else some (boundId,ownerId)

def ownerByBoundId (around : Surroundings) (values : List Json) : Owners :=
  (values.filterMap (claimOf around)).foldl (fun owners claim => owners.insert claim.1 claim.2) ∅

def CLAIMED_OWNER_MAP_CACHE_TTL_MS : Int := 500

def claimedOwners (around : Surroundings) (db : Database) : Option Owners :=
  (normalizeRedisJsonPayload (db.json JSONDataTable)).map fun manifest =>
    ownerByBoundId around (getManifestEntryValues (manifest.member JSONClaimedEntry))

/-- `readHeuristicClaimedOwnersFromDatabase` while the manifest is written. -/
def readHeuristicClaimedOwners (around : Surroundings) : Caching.Cache Database Owners BoundOwnership.Event where
  look := claimedOwners around
  lifetime := CLAIMED_OWNER_MAP_CACHE_TTL_MS
  default := ∅
  change := BoundOwnership.run

section Owners
open BoundOwnership
variable (around : Surroundings) {db next : Database} {ledger : Bounds}

def idText (id : BoundsID) : List Char := decimal id.toNat

theorem idText_injective : Function.Injective idText :=
  fun _ _ same => UInt32.toNat_inj.mp (decimal_injective same)

theorem trim_idText (id : BoundsID) : trim (idText id) = idText id := by
  have plain (c : Char) (member : c ∈ idText id) : whitespace c = false := by
    have digit := digit_decimal id.toNat c member
    simp only [Char.isDigit,ge_iff_le,Bool.and_eq_true,decide_eq_true_eq,UInt32.le_iff_toNat_le] at digit
    have low : 48 ≤ c.toNat := digit.1
    have high : c.toNat ≤ 57 := digit.2
    have inner : c.toNat ∉ [9,10,11,12,13,32,160,5760,8232,8233,8239,8287,12288,65279] := by
      simp only [List.mem_cons,List.not_mem_nil,or_false]
      omega
    have below : ¬ (8192 ≤ c.toNat) := by omega
    rw [whitespace,decide_eq_false inner,decide_eq_false below]
    rfl
  exact trim_ends (fun c first => plain c (List.mem_of_head? first)) fun c last => plain c (List.mem_of_getLast? last)

theorem stringOf_id (id : BoundsID) : (stringOf (.num id.toNat)).toList = idText id := by
  simp only [stringOf,idText,decimal]
  simp [toString,Int.repr]

theorem claimOf_claimed (held : (BoundsID × String) × NetworkIdentity) :
    claimOf around (claimedJson held) = some (idText held.1.1,held.2.toChars) := by
  have id : orElse ((claimedJson held).member "ID") (orElse ((claimedJson held).member "id") none) = some (.num held.1.1.toNat) := rfl
  have name : text "OwnerName" (claimedJson held) = some held.2.ToString := rfl
  have named : trim held.2.ToString.toList = held.2.toChars := by
    rw [NetworkIdentity.ToString,String.toList_ofList]
    exact trim_toChars held.2
  have boundId : trim (stringOf (.num held.1.1.toNat)).toList = idText held.1.1 := by rw [stringOf_id,trim_idText]
  rw [claimOf,id,name,Option.map_some,Option.getD_some,Option.getD_some,boundId,named]
  have numbered : idText held.1.1 ≠ [] := decimal_nonempty _
  have nonempty := toChars_nonempty held.2
  simp [numbered,nonempty]

/-- The owner by the last claim of the bound. -/
def claimant (ledger : Bounds) (id : BoundsID) : Option NetworkIdentity := (ledger.held.reverse.find? (·.1.1 = id)).map (·.2)

/-- The map has the claimed bounds, each with the name of its owner. -/
structure Shows (owners : Owners) (ledger : Bounds) : Prop where
  claimed : ∀ id, owners.lookup (idText id) = (claimant ledger id).map (·.toChars)
  named : ∀ key name, owners.lookup key = some name → ∃ held ∈ ledger.held, key = idText held.1.1 ∧ name = held.2.toChars

theorem shows_ownerByBoundId (ledger : Bounds) : Shows (ownerByBoundId around (ledger.held.map claimedJson)) ledger := by
  have entries : (ledger.held.map claimedJson).filterMap (claimOf around) =
      ledger.held.map fun held => (idText held.1.1,held.2.toChars) := by
    rw [List.filterMap_map,← List.filterMap_eq_map]
    exact List.filterMap_congr fun held _ => claimOf_claimed around held
  have looked (key : List Char) : (ownerByBoundId around (ledger.held.map claimedJson)).lookup key =
      ((ledger.held.reverse.find? (fun held => decide (idText held.1.1 = key))).map (·.2.toChars)) := by
    rw [ownerByBoundId,entries,Dictionary.lookup_insertAll,← List.map_reverse,List.find?_map,AList.lookup_empty,Option.or_none,Option.map_map]
    rfl
  constructor
  · intro id
    rw [looked,claimant,Option.map_map]
    simp only [idText_injective.eq_iff]
    rfl
  · intro key name found
    rw [looked] at found
    obtain ⟨held,first,rfl⟩ := Option.map_eq_some_iff.mp found
    refine ⟨held,List.mem_reverse.mp (List.mem_of_find?_eq_some first),?_,rfl⟩
    exact (by simpa using List.find?_some first : idText held.1.1 = key).symm

theorem claimedOwners_absent (absent : db.json JSONDataTable = none) : claimedOwners around db = none := by
  rw [claimedOwners,absent]
  rfl

theorem claimedOwners_stored (stored : Stored db ledger) :
    claimedOwners around db = some (ownerByBoundId around (ledger.held.map claimedJson)) := by
  obtain ⟨fields,here,_,claimed⟩ := stored.opened
  rw [claimedOwners,here]
  rcases claimed with found | ⟨missing,none⟩
  · simp [normalizeRedisJsonPayload,found,getManifestEntryValues]
  · simp [normalizeRedisJsonPayload,missing,none,getManifestEntryValues]

/-- Claims are kept, and so is the document. -/
def Later (before after : Database) : Prop :=
  (∃ ledger now, Consistent before ledger ∧ Consistent after now ∧ ledger.held <+: now.held) ∧
    (before.json JSONDataTable ≠ none → after.json JSONDataTable ≠ none)

theorem advance_held (event : BoundOwnership.Event) (ledger : Bounds) : ledger.held <+: (advance event ledger).held := by
  cases event with
  | compute Heuristic iteration =>
    rw [advance,Ledger.offerUntil_held]
  | claim shard =>
    rw [advance]
    cases waiting : ledger.waiting with
    | nil => rw [Ledger.claim_empty shard ledger waiting]
    | cons row rest =>
      rw [Ledger.claim_cons shard ledger row rest waiting]
      exact List.prefix_append _ _
  | failed shard key => exact List.prefix_rfl

theorem run_document {event : BoundOwnership.Event} (consistent : Consistent db ledger) (possible : Possible event)
    (present : db.json JSONDataTable ≠ none) : (run event db).json JSONDataTable ≠ none := by
  have stored : Stored db ledger := consistent.holds.resolve_right fun ⟨absent,_⟩ => present absent
  cases event with
  | compute Heuristic iteration =>
    obtain ⟨after,ran,stored,_⟩ := computeHeuristic_spec Heuristic iteration possible consistent.holds
    obtain ⟨fields,here⟩ := stored.document
    simp [run,ran,here]
  | claim shard =>
    obtain ⟨after,ran,stored,_⟩ := claim_spec shard stored
    obtain ⟨fields,here⟩ := stored.document
    simp [run,claimNext_state,ran,here]
  | failed shard key =>
    rw [run,failed_spec shard key consistent.claims]
    exact present

theorem Later.grows {before : Database} {event : BoundOwnership.Event} (later : Later before db) (possible : Possible event) :
    Later before (run event db) := by
  obtain ⟨⟨ledger,now,first,second,kept⟩,present⟩ := later
  refine ⟨⟨ledger,advance event now,first,step_refines second ⟨possible,rfl⟩,kept.trans (advance_held event now)⟩,fun there => ?_⟩
  exact run_document second possible (present there)

theorem later_self (consistent : Consistent db ledger) : Later db db :=
  ⟨⟨ledger,ledger,consistent,consistent,List.prefix_rfl⟩,id⟩

theorem claimedOwners_present (consistent : Consistent db ledger) : claimedOwners around db ≠ none ↔ db.json JSONDataTable ≠ none := by
  rcases consistent.holds with stored | ⟨absent,_⟩
  · obtain ⟨fields,here⟩ := stored.document
    rw [claimedOwners_stored around stored,here]
    exact iff_of_true (Option.some_ne_none _) (Option.some_ne_none _)
  · rw [claimedOwners_absent around absent]
    exact iff_of_false (fun none => none rfl) fun present => present absent

/-- The passes write in any order, and every read that returns has been answered, in no longer than the limit. -/
def InTime {ι : Type} (limit : Int) (s : Caching.Reading ι Database Owners) (event : Caching.Event ι BoundOwnership.Event) : Prop :=
  Caching.Timely limit s event ∧ match event with
    | .change what => Possible what
    | _ => True

section Runs
variable {ι : Type} [DecidableEq ι] {start : Database} {clock limit : Int} {s : Caching.Reading ι Database Owners}
  {i : ι} {time : Int} {owners : Owners}

theorem reads_sound (empty : EmptyStore start)
    (reached : (System.stepping {source := start,clock} (readHeuristicClaimedOwners around).next).ReachableWhile (InTime limit) s) :
    Caching.Sound (readHeuristicClaimedOwners around) limit Later s := by
  have lasting (before after : Database) (later : Later before after) :
      claimedOwners around before ≠ none → claimedOwners around after ≠ none := by
    obtain ⟨⟨ledger,now,first,second,_⟩,present⟩ := later
    rw [claimedOwners_present around first,claimedOwners_present around second]
    exact present
  refine Caching.reads_recent (show (0 : Int) < 500 by decide) lasting (later_self (consistent_empty empty)) ?_ (fun _ _ meets => meets.1) reached
  intro s what meets same
  obtain ⟨⟨_,now,_,second,_⟩,_⟩ := same
  exact ⟨later_self (step_refines second ⟨meets.2,rfl⟩),fun before later => later.grows meets.2⟩

omit [DecidableEq ι] in
/-- What is returned shows the claims of a database that answered not long ago. -/
theorem returned_shows (sound : Caching.Sound (readHeuristicClaimedOwners around) limit Later s)
    (returned : s.reads i = .returned time owners) :
    ∃ answer ∈ s.answers, answer.1 ≤ time ∧ time < answer.1+(CLAIMED_OWNER_MAP_CACHE_TTL_MS+limit) ∧
      ∃ ledger now, Consistent answer.2 ledger ∧ Consistent s.source now ∧ ledger.held <+: now.held ∧ Shows owners ledger := by
  obtain ⟨answer,member,before,after,shown⟩ := sound.returned i time owners returned
  obtain ⟨⟨ledger,now,first,second,kept⟩,_⟩ := (sound.answers answer member).2
  refine ⟨answer,member,before,after,ledger,now,first,second,kept,?_⟩
  rcases first.holds with stored | ⟨absent,rfl⟩
  · have look := claimedOwners_stored around stored
    rcases shown with found | ⟨nothing,_⟩
    · rw [← Option.some.inj (look.symm.trans found)]
      exact shows_ownerByBoundId around ledger
    · exact absurd (nothing.symm.trans look) (by simp)
  · have look := claimedOwners_absent around absent
    rcases shown with found | ⟨_,rfl⟩
    · exact absurd (look.symm.trans found) (by simp)
    · exact shows_ownerByBoundId around Ledger.empty

/-- Every map of owners that a read returns is that of the claims at one moment of the run,
less long ago than the map is kept and a read takes; the claims of then still stand. -/
theorem claimed_owners_recent (empty : EmptyStore start)
    (reached : (System.stepping {source := start,clock} (readHeuristicClaimedOwners around).next).ReachableWhile (InTime limit) s)
    (returned : s.reads i = .returned time owners) :
    ∃ moment ledger now,
      (System.stepping {source := start,clock} (readHeuristicClaimedOwners around).next).ReachableWhile (InTime limit) moment ∧
      ((System.stepping {source := start,clock} (readHeuristicClaimedOwners around).next).behind moment).ReachableWhile (InTime limit) s ∧
      moment.clock ≤ time ∧ time < moment.clock+CLAIMED_OWNER_MAP_CACHE_TTL_MS+limit ∧
      Consistent moment.source ledger ∧ Consistent s.source now ∧ ledger.held <+: now.held ∧ Shows owners ledger := by
  obtain ⟨answer,member,before,after,ledger,now,first,second,kept,shows⟩ := returned_shows around (reads_sound around empty reached) returned
  obtain ⟨moment,passed,rfl,rest⟩ := Caching.answers_passed rfl reached member
  exact ⟨moment,ledger,now,passed,rest,before,by omega,first,second,kept,shows⟩

section Claimed

def single : GridHeuristic := ⟨[{ID := 7}]⟩

def reading : Caching.Event Unit BoundOwnership.Event → Caching.Reading Unit Database Owners → Option (Caching.Reading Unit Database Owners) :=
  (readHeuristicClaimedOwners plainly).next

/-- A bound is offered and claimed before the database answers. -/
def answered : Caching.Reading Unit Database Owners :=
  (System.replay reading [.change (.compute single single.SerializeBounds),.change (.claim (.MakeIDShard .nil)),.ask (),.answer (),
    .pass 30] {source := Database.empty}).get rfl

def finished : Caching.Reading Unit Database Owners := (reading (.finish ()) answered).get rfl

theorem empty_store : EmptyStore Database.empty := ⟨.inl rfl,rfl⟩

theorem finished_reached : (System.stepping {source := Database.empty} reading).ReachableWhile (InTime 30) finished := by
  have before : (System.stepping {source := Database.empty} reading).ReachableWhile (InTime 30) answered := by
    refine System.stepping_replay (fun _ event member => ?_) System.stepping_start (Option.some_get _).symm
    simp only [List.mem_cons,List.not_mem_nil,or_false] at member
    rcases member with rfl | rfl | rfl | rfl | rfl
    · exact ⟨trivial,.refl _⟩
    all_goals exact ⟨trivial,trivial⟩
  have timely : Caching.Timely 30 answered (.finish () : Caching.Event Unit BoundOwnership.Event) := by
    intro since reply found
    have asked : answered.reads () = .answered 0 (claimedOwners plainly answered.source) := rfl
    obtain ⟨rfl,_⟩ := Caching.Read.answered.inj (asked.symm.trans found)
    exact (by decide : (30 : Int) ≤ 30)
  have taken : reading (.finish ()) answered = some finished := (Option.some_get _).symm
  exact before.step _ _ _ ⟨timely,trivial⟩ taken

theorem claimed_owners_recent_finished : ∃ owners, finished.reads () = .returned 30 owners ∧ owners.lookup ['7'] ≠ none ∧
    ∃ ledger now, Consistent finished.source now ∧ ledger.held <+: now.held ∧ Shows owners ledger := by
  have returned : finished.reads () = .returned 30 ((claimedOwners plainly answered.source).get rfl) := rfl
  obtain ⟨moment,ledger,now,_,_,_,_,_,still,kept,shows⟩ := claimed_owners_recent plainly empty_store finished_reached returned
  exact ⟨_,returned,nofun,ledger,now,still,kept,shows⟩

end Claimed

end Runs

end Owners

end AtlasNet.PureDatabaseTelemetry
