import AtlasNet.Foundation.Redis
import AtlasNet.Bounds
import AtlasNet.NetworkIdentity

/-! The heuristic manifest: one JSON document with the pending and the claimed
bounds. Every function sends its commands one after another; a Lua script is one
command to every other client. -/
namespace AtlasNet
open Foundation Foundation.Program Foundation.Redis

/-- `IHeuristic::Type`. -/
inductive HeuristicType
  | eNone | eGridCell | eOctree | eQuadtree | eInvalid
deriving DecidableEq

namespace HeuristicType

def TypeToString : HeuristicType → String
  | eNone => "None"
  | eGridCell => "GridCell"
  | eOctree => "Octree"
  | eQuadtree => "Quadtree"
  | eInvalid => "Invalid"

/-- `TypeFromString`; the text of no type leaves `eNone`. -/
def TypeFromString (str : String) : HeuristicType :=
  if str = "None" then eNone
  else if str = "GridCell" then eGridCell
  else if str = "Octree" then eOctree
  else if str = "Quadtree" then eQuadtree
  else if str = "Invalid" then eInvalid
  else eNone

end HeuristicType

def GridHeuristic.GetType (_ : GridHeuristic) : HeuristicType := .eGridCell

/-- `const` indexing by a member name. -/
def Json.at {σ : Type} (name : String) : Json → Program σ Json
  | .obj fields => match Entries.get name fields with
    | some value => pure value
    | none => throw (.undefined "const operator[] of a missing member")
  | _ => throw (.typeError "cannot use operator[] with a string argument")

def Json.getString {σ : Type} : Json → Program σ String
  | .str value => pure value
  | _ => throw (.typeError "type must be string")

/-- The conversion to `uint32_t`, modulo 2^32. -/
def Json.getBoundsID {σ : Type} : Json → Program σ BoundsID
  | .num n => pure (UInt32.ofNat (n % 2^32).toNat)
  | _ => throw (.typeError "type must be number")

namespace HeuristicManifest

def PendingHashTable : String := "\x7bHeuristic_Bounds\x7d:Pending"
def JSONDataTable : String := "HeuristicManifest"
def JSONPendingEntry : String := "Pending"
def JSONClaimedEntry : String := "Claimed"
def JSONHeuristicData64Entry : String := "HeuristicData64"
def JSONHeuristicTypeEntry : String := "HeuristicType"
def ClaimedHashTableNID2BoundData : String := "\x7bHeuristic_Bounds\x7d:Claimed_NID2BID"

structure PendingBoundStruct where
  ID : BoundsID
  BoundsDataBase64 : String
deriving DecidableEq

/-- The members stand in the order of their names. -/
def PendingBoundStruct.to_json (p : PendingBoundStruct) : Json :=
  .obj [("BoundsData64",.str p.BoundsDataBase64),("ID",.num p.ID.toNat)]

def PendingBoundStruct.from_json {σ : Type} (j : Json) : Program σ PendingBoundStruct := do
  let ID ← Json.getBoundsID (← Json.at "ID" j)
  let BoundsDataBase64 ← Json.getString (← Json.at "BoundsData64" j)
  pure ⟨ID,BoundsDataBase64⟩

structure ClaimedBoundStruct where
  ID : BoundsID
  identity : NetworkIdentity
  BoundsDataBase64 : String
deriving DecidableEq

/-- The base64 text of an identity's bytes, which is never empty. -/
def owner64 (identity : NetworkIdentity) : String :=
  String.ofList (Base64.encode (identity.Serialize {}).buf)

def ClaimedBoundStruct.to_json (c : ClaimedBoundStruct) : Json :=
  .obj [("BoundsData64",.str c.BoundsDataBase64),("ID",.num c.ID.toNat),
    ("Owner64",.str (owner64 c.identity)),("OwnerName",.str c.identity.ToString)]

def ClaimedBoundStruct.from_json {σ : Type} (j : Json) : Program σ ClaimedBoundStruct := do
  let ID ← Json.getBoundsID (← Json.at "ID" j)
  let base64IdentityData ← Json.getString (← Json.at "Owner64" j)
  let identity ← within NetworkIdentity.Deserialize (.ofBase64 base64IdentityData)
  let BoundsDataBase64 ← Json.getString (← Json.at "BoundsData64" j)
  pure ⟨ID,identity,BoundsDataBase64⟩

/-- The payload of `JSON.GET`, of which an array stands for its first element. -/
def ParseRedisJsonPayload : Option Json → Option Json
  | none => none
  | some .null => none
  | some (.arr items) => items.head?
  | some parsed => some parsed

/-- `find` of an entry in the manifest, when it is there and is an object. -/
def objectEntry (name : String) : Option Json → Option Json.Fields
  | some (.obj fields) => match Entries.get name fields with
    | some (.obj entries) => some entries
    | _ => none
  | _ => none

def readManifest : Command (Option Json) := do
  return ParseRedisJsonPayload (← jsonGet JSONDataTable [])

def isObject : Json → Bool
  | .obj _ => true
  | _ => false

/-- `emplace`: the element an equal key already has stays. -/
def emplace {κ α : Type} [BEq κ] (key : κ) (value : α) (map : List (κ × α)) : List (κ × α) :=
  if map.any (fun entry => entry.1 == key) then map else map ++ [(key,value)]

def pendingReaders : Json.Fields → List (BoundsID × ByteReader) → Command (List (BoundsID × ByteReader))
  | [],brs => pure brs
  | (_,pendingEntry)::rest,brs => do
    if isObject pendingEntry then
      let pendingBound ← PendingBoundStruct.from_json pendingEntry
      pendingReaders rest (emplace pendingBound.ID (.ofBase64 pendingBound.BoundsDataBase64) brs)
    else pendingReaders rest brs

def GetPendingBoundsAsByteReaders : Command (List (BoundsID × ByteReader)) := do
  match objectEntry JSONPendingEntry (← readManifest) with
  | none => pure []
  | some entries => pendingReaders entries []

abbrev ClaimedReaders := List (NetworkIdentity × BoundsID × ByteReader)

def claimedReaders : Json.Fields → ClaimedReaders → Command ClaimedReaders
  | [],brs => pure brs
  | (_,claimedEntry)::rest,brs => do
    if isObject claimedEntry then
      let claimedBound ← ClaimedBoundStruct.from_json claimedEntry
      claimedReaders rest
        (emplace claimedBound.identity (claimedBound.ID,.ofBase64 claimedBound.BoundsDataBase64) brs)
    else claimedReaders rest brs

def GetClaimedBoundsAsByteReaders : Command ClaimedReaders := do
  match objectEntry JSONClaimedEntry (← readManifest) with
  | none => pure []
  | some entries => claimedReaders entries []

def boundsCount (name : String) : Command Int := do
  match objectEntry name (← readManifest) with
  | none => pure 0
  | some entries => pure entries.length

def GetPendingBoundsCount : Command Int := boundsCount JSONPendingEntry
def GetClaimedBoundsCount : Command Int := boundsCount JSONClaimedEntry

/-- The insertions: the array is made when it is missing, and an ID it already
holds ends in an assertion. -/
def insertBound (name : String) (ID : BoundsID) (j : Json) : Command Unit := do
  jsonSet JSONDataTable [.field name] (.arr []) true
  let existing ← jsonGetWhere JSONDataTable [.field name] "ID" ID.toNat
  if (existing.map (fun reply => reply.text.length)).getD 0 ≤ 2 then
    jsonArrAppend JSONDataTable [.field name] j
  else assert False "This should never happen"

def Internal_InsertPendingBound (p : PendingBoundStruct) : Command Unit :=
  insertBound JSONPendingEntry p.ID p.to_json

def Internal_InsertClaimedBound (c : ClaimedBoundStruct) : Command Unit :=
  insertBound JSONClaimedEntry c.ID c.to_json

def StorePendingBoundsFromByteWriters (in_writers : Writers) : Command Unit :=
  forM in_writers fun (ID,writer) => do
    let BoundsDataBase64 ← writer.as_string_base_64
    Internal_InsertPendingBound ⟨ID,BoundsDataBase64⟩

/-- The text of a key as Redis takes it. -/
def keyBytes (text : String) : Bytes := text.toList.flatMap String.utf8EncodeChar

def RequeueClaimedBound (claim_key : String) : Command Bool := do
  match ← hget ClaimedHashTableNID2BoundData (keyBytes claim_key) with
  | none => pure false
  | some value =>
    if value.length < 4 then pure false
    else do
      hset PendingHashTable (value.take 4) value
      hdel ClaimedHashTableNID2BoundData (keyBytes claim_key)
      pure true

def Internal_EnsureJsonTable : Command Unit := jsonSet JSONDataTable [] (.obj []) true

def Internal_SetActiveHeuristicType (type : HeuristicType) : Command Unit := do
  Internal_EnsureJsonTable
  jsonSet JSONDataTable [.field JSONHeuristicTypeEntry] (.str type.TypeToString) false

/-- The reply's text without its quotes, for the text of a string. -/
def StripQuotes (text : List Char) : List Char :=
  let front := if text.head? = some '\x22' then text.tail else text
  if front.getLast? = some '\x22' then front.dropLast else front

def GetActiveHeuristicType : Command HeuristicType := do
  match ← jsonGet JSONDataTable [.field JSONHeuristicTypeEntry] with
  | none => pure .eInvalid
  | some HeuristicTypeString =>
    pure (.TypeFromString (String.ofList (StripQuotes HeuristicTypeString.text)))

def PushHeuristic (h : GridHeuristic) : Command Unit := do
  Internal_SetActiveHeuristicType h.GetType
  let data ← (h.Serialize {}).as_string_base_64
  jsonSet JSONDataTable [.field JSONHeuristicData64Entry] (.str data) false

/-- The Lua script of `ClaimNextPendingBound`. A length that is no number is not
zero, and a missing entry cannot be decoded. -/
def claimScript (owner_base64 owner_name : String) : Command (Option Int) := do
  -- JSON.TYPE replies with a text, whose element 1 is nil: the array is always ensured
  let _ ← jsonTyped JSONDataTable [.field JSONClaimedEntry]
  jsonSet JSONDataTable [.field JSONClaimedEntry] (.arr []) true
  let pending_len ← jsonArrLen JSONDataTable [.field JSONPendingEntry]
  if pending_len = some 0 then pure none
  else
    match ← jsonGet JSONDataTable [.field JSONPendingEntry,.index 0] with
    | none => throw (.replyError "ERR Expected value but found invalid token")
    | some pending_entry =>
      jsonArrAppend JSONDataTable [.field JSONClaimedEntry] pending_entry
      let claimed_len ← jsonArrLen JSONDataTable [.field JSONClaimedEntry]
      let last_index := claimed_len.getD 0-1
      jsonSet JSONDataTable [.field JSONClaimedEntry,.index last_index,.field "Owner64"]
        (.str owner_base64) false
      jsonSet JSONDataTable [.field JSONClaimedEntry,.index last_index,.field "OwnerName"]
        (.str owner_name) false
      let _ ← jsonArrPop JSONDataTable [.field JSONPendingEntry] 0
      match pending_entry.member "ID" with
      | some (.num id) => pure (some id)
      | _ => pure none

def Internal_CreateIBoundInst : Command Unit := do
  match ← GetActiveHeuristicType with
  | .eGridCell => pure ()
  | hType => throw (.assertion ("Unrecognized HeuristicType " ++ hType.TypeToString))

def GetClaimedBound (id : BoundsID) : Command (Option ClaimedBoundStruct) := do
  match ← jsonGetWhere JSONDataTable [.field JSONClaimedEntry] "ID" id.toNat with
  | none => pure none
  | some (.arr (front::_)) => some <$> ClaimedBoundStruct.from_json front
  | some _ => throw (.undefined "front of an empty array")

/-- The script of a claim, which is one command. -/
def claim (claim_key : NetworkIdentity) : Command (Option BoundsID) := do
  let bw : ByteWriter := claim_key.Serialize {}
  let claimedID ← claimScript (← bw.as_string_base_64) claim_key.ToString
  pure (claimedID.map (fun id => UInt32.ofNat (id % 2^32).toNat))

def decodeClaimed (BoundData : Option ClaimedBoundStruct) : Command GridShape := do
  match BoundData with
  | none => throw (.undefined "access to an empty optional")
  | some data =>
    Internal_CreateIBoundInst
    within GridShape.Deserialize (.ofBase64 data.BoundsDataBase64)

def ClaimNextPendingBound (claim_key : NetworkIdentity) : Command (Option GridShape) := do
  match ← claim claim_key with
  | none => pure none
  | some id => some <$> (GetClaimedBound id >>= decodeClaimed)

/-- `response` parsed, when it is an array with a first element that is not null. -/
def selection (response : Option Json) : Option (Json × List Json) :=
  match response with
  | some (.arr (front::rest)) => if front.isNull then none else some (front,rest)
  | _ => none

def BoundIDFromShard (id : NetworkIdentity) : Command (Option BoundsID) := do
  assert (id.type = .eShard) "Invalid Networking Identity"
  let bw : ByteWriter := id.Serialize {}
  let owner64 ← bw.as_string_base_64
  match selection (← jsonGetWhereText JSONDataTable [.field JSONClaimedEntry] "Owner64" owner64) with
  | none => pure none
  | some (front,rest) =>
    assert ((front::rest).length ≤ 1) "This should never occur"
    assert (front.member "ID").isSome "Invalid entry"
    some <$> (Json.at "ID" front >>= Json.getBoundsID)

def Internal_PullClaimedBound (id : BoundsID) : Command (Option ClaimedBoundStruct) := do
  match selection (← jsonGetWhere JSONDataTable [.field JSONClaimedEntry] "ID" id.toNat) with
  | none => pure none
  | some (front,rest) =>
    assert ((front::rest).length ≤ 1) "This should never occur"
    some <$> ClaimedBoundStruct.from_json front

def ShardFromBoundID (id : BoundsID) : Command (Option NetworkIdentity) := do
  return (← Internal_PullClaimedBound id).map (·.identity)

end HeuristicManifest

end AtlasNet
