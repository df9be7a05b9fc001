import AtlasNet.Foundation.Expiring
import AtlasNet.Foundation.Json

/-! A key-value store with JSON documents, hashes and sets, under the documented
behaviour of its commands. A command that replies with an error raises it; what
earlier commands of the same script did stays. -/
namespace AtlasNet.Foundation.Redis
open Json Program

abbrev Bytes := List UInt8

abbrev Hash := Entries Bytes Bytes

structure Database where
  json : String → Option Json
  hash : String → Hash
  members : String → List Bytes

def Database.empty : Database := {json := fun _ => none,hash := fun _ => [],members := fun _ => []}

abbrev Command (α : Type) := Program Database α

def Database.withJson (db : Database) (key : String) (document : Json) : Database :=
  {db with json := Function.update db.json key (some document)}

def Database.withHash (db : Database) (key : String) (hash : Hash) : Database :=
  {db with hash := Function.update db.hash key hash}

def Database.withMembers (db : Database) (key : String) (members : List Bytes) : Database :=
  {db with members := Function.update db.members key members}

/-- Nothing of any kind is left under the key. -/
def Database.without (db : Database) (key : String) : Database where
  json := Function.update db.json key none
  hash := Function.update db.hash key []
  members := Function.update db.members key []

def noSuchPath : Fault := .replyError "ERR Path does not exist"
def noSuchKey : Fault := .replyError "ERR could not perform this operation on a key that doesn't exist"
def newAtRoot : Fault := .replyError "ERR new objects must be created at the root"

/-- `JSON.SET key path value [NX]`. -/
def jsonSet (key : String) (path : Path) (value : Json) (nx : Bool) : Command Unit := do
  let db ← get
  match db.json key with
  | none => if path = [] then set (db.withJson key value) else throw newAtRoot
  | some document =>
    if nx && (document.get path).isSome then pure ()
    else match document.change (fun _ => some value) path with
      | some changed => set (db.withJson key changed)
      | none => pure ()

/-- `JSON.GET key path` for a legacy path, which names one place. -/
def jsonGet (key : String) (path : Path) : Command (Option Json) := do
  match (← get).json key with
  | none => pure none
  | some document => match document.get path with
    | some value => pure (some value)
    | none => throw noSuchPath

/-- `JSON.GET key $.path[?(@.name == value)]`: the matches, possibly none. -/
def jsonGetWhere (key : String) (path : Path) (name : String) (value : Int) : Command (Option Json) := do
  match (← get).json key with
  | none => pure none
  | some document => match document.get path with
    | some container => pure (some (.arr (container.children.filter (hasNumber name value))))
    | none => pure (some (.arr []))

/-- `JSON.GET key $.path[?(@.name=='value')]`. -/
def jsonGetWhereText (key : String) (path : Path) (name value : String) : Command (Option Json) := do
  match (← get).json key with
  | none => pure none
  | some document => match document.get path with
    | some container => pure (some (.arr (container.children.filter (hasText name value))))
    | none => pure (some (.arr []))

/-- `JSON.TYPE key path` for a legacy path, as the presence of the reply. -/
def jsonTyped (key : String) (path : Path) : Command Bool := do
  match (← get).json key with
  | none => pure false
  | some document => pure (document.get path).isSome

/-- `JSON.ARRLEN key path` for a legacy path. -/
def jsonArrLen (key : String) (path : Path) : Command (Option Nat) := do
  match (← get).json key with
  | none => pure none
  | some document => match document.get path with
    | some (.arr items) => pure (some items.length)
    | _ => throw noSuchPath

/-- An array command: the change to the items, and its reply. -/
def onArray (key : String) (path : Path) (f : List Json → List Json) : Command (List Json) := do
  let db ← get
  match db.json key with
  | none => throw noSuchKey
  | some document => match document.get path with
    | some (.arr items) =>
      match document.change (fun _ => some (.arr (f items))) path with
      | some changed => do
        set (db.withJson key changed)
        pure items
      | none => throw noSuchPath
    | _ => throw noSuchPath

/-- `JSON.ARRAPPEND key path value`. -/
def jsonArrAppend (key : String) (path : Path) (value : Json) : Command Unit := do
  let _ ← onArray key path (· ++ [value])

/-- `JSON.ARRPOP key path index`. -/
def jsonArrPop (key : String) (path : Path) (index : Nat) : Command (Option Json) := do
  let items ← onArray key path (·.eraseIdx index)
  pure items[index]?

def hset (key : String) (field value : Bytes) : Command Unit :=
  modify fun db => db.withHash key ((db.hash key).put field value)

def hdel (key : String) (field : Bytes) : Command Unit :=
  modify fun db => db.withHash key ((db.hash key).drop field)

def hget (key : String) (field : Bytes) : Command (Option Bytes) := do
  return ((← get).hash key).get field

def hexists (key : String) (field : Bytes) : Command Bool := do
  return (((← get).hash key).get field).isSome

def hgetall (key : String) : Command Hash := do
  return (← get).hash key

/-- `DEL key`. -/
def del (key : String) : Command Unit := modify fun db => db.without key

def including (member : Bytes) (members : List Bytes) : List Bytes :=
  if member ∈ members then members else members ++ [member]

def sadd (key : String) (member : Bytes) : Command Unit :=
  modify fun db => db.withMembers key (including member (db.members key))

def srem (key : String) (member : Bytes) : Command Unit :=
  modify fun db => db.withMembers key ((db.members key).filter (· ≠ member))

def smembers (key : String) : Command (List Bytes) := do
  return (← get).members key

theorem mem_including (member other : Bytes) (members : List Bytes) :
    other ∈ including member members ↔ other = member ∨ other ∈ members := by
  unfold including
  split
  · rename_i inside
    constructor
    · exact .inr
    · rintro (rfl | there)
      · exact inside
      · exact there
  · simp [or_comm]

section Members
variable {db : Database} {key : String} {fields : Fields} {name : String}

@[simp] theorem withJson_json (db : Database) (key : String) (document : Json) :
    (db.withJson key document).json key = some document := by
  simp [Database.withJson]

@[simp] theorem withJson_hash (db : Database) (key : String) (document : Json) :
    (db.withJson key document).hash = db.hash := rfl

@[simp] theorem withHash_self (db : Database) (key : String) (hash : Hash) : (db.withHash key hash).hash key = hash :=
  Function.update_self ..

theorem withHash_other (db : Database) (key other : String) (hash : Hash) (different : other ≠ key) :
    (db.withHash key hash).hash other = db.hash other :=
  Function.update_of_ne different ..

@[simp] theorem withMembers_self (db : Database) (key : String) (members : List Bytes) :
    (db.withMembers key members).members key = members :=
  Function.update_self ..

@[simp] theorem without_self (db : Database) (key : String) : (db.without key).hash key = [] :=
  Function.update_self ..

theorem without_other (db : Database) (key other : String) (different : other ≠ key) :
    (db.without key).hash other = db.hash other :=
  Function.update_of_ne different ..

theorem jsonSet_field (value : Json) (here : db.json key = some (.obj fields)) :
    exec (jsonSet key [.field name] value false) db =
      (.ok (),db.withJson key (.obj (Entries.put name value fields))) := by
  cases found : Entries.get name fields <;> simp [jsonSet,here,Json.change,found]

theorem jsonSet_nx_absent (value : Json) (here : db.json key = some (.obj fields))
    (absent : Entries.get name fields = none) :
    exec (jsonSet key [.field name] value true) db =
      (.ok (),db.withJson key (.obj (Entries.put name value fields))) := by
  simp [jsonSet,here,Json.change,absent,Json.get]

theorem jsonSet_nx_present (value old : Json) (here : db.json key = some (.obj fields))
    (present : Entries.get name fields = some old) :
    exec (jsonSet key [.field name] value true) db = (.ok (),db) := by
  simp [jsonSet,here,present,Json.get]

theorem jsonSet_element (value : Json) (items : List Json) (i : Nat) (inner : Fields) (member : String)
    (here : db.json key = some (.obj fields)) (present : Entries.get name fields = some (.arr items))
    (element : items[i]? = some (.obj inner)) :
    exec (jsonSet key [.field name,.index i,.field member] value false) db =
      (.ok (),db.withJson key (.obj (Entries.put name (.arr (items.set i (.obj (Entries.put member value inner)))) fields))) := by
  cases found : Entries.get member inner <;> simp [jsonSet,here,Json.change,present,element,found]

theorem jsonGet_field (value : Json) (here : db.json key = some (.obj fields))
    (present : Entries.get name fields = some value) :
    exec (jsonGet key [.field name]) db = (.ok (some value),db) := by
  simp [jsonGet,here,Json.get,present]

theorem jsonGet_element (items : List Json) (i : Nat) (value : Json)
    (here : db.json key = some (.obj fields)) (present : Entries.get name fields = some (.arr items))
    (element : items[i]? = some value) :
    exec (jsonGet key [.field name,.index i]) db = (.ok (some value),db) := by
  simp [jsonGet,here,Json.get,present,element]

theorem jsonGetWhere_array (items : List Json) (test : String) (value : Int)
    (here : db.json key = some (.obj fields)) (present : Entries.get name fields = some (.arr items)) :
    exec (jsonGetWhere key [.field name] test value) db =
      (.ok (some (.arr (items.filter (hasNumber test value)))),db) := by
  simp [jsonGetWhere,here,Json.get,present,children]

theorem jsonGetWhereText_array (items : List Json) (test value : String)
    (here : db.json key = some (.obj fields)) (present : Entries.get name fields = some (.arr items)) :
    exec (jsonGetWhereText key [.field name] test value) db =
      (.ok (some (.arr (items.filter (hasText test value)))),db) := by
  simp [jsonGetWhereText,here,Json.get,present,children]

theorem jsonArrLen_array (items : List Json)
    (here : db.json key = some (.obj fields)) (present : Entries.get name fields = some (.arr items)) :
    exec (jsonArrLen key [.field name]) db = (.ok (some items.length),db) := by
  simp [jsonArrLen,here,Json.get,present]

theorem jsonArrAppend_array (items : List Json) (value : Json)
    (here : db.json key = some (.obj fields)) (present : Entries.get name fields = some (.arr items)) :
    exec (jsonArrAppend key [.field name] value) db =
      (.ok (),db.withJson key (.obj (Entries.put name (.arr (items ++ [value])) fields))) := by
  simp [jsonArrAppend,onArray,here,Json.get,Json.change,present,exec_bind]

theorem jsonArrPop_array (items : List Json) (index : Nat)
    (here : db.json key = some (.obj fields)) (present : Entries.get name fields = some (.arr items)) :
    exec (jsonArrPop key [.field name] index) db =
      (.ok items[index]?,db.withJson key (.obj (Entries.put name (.arr (items.eraseIdx index)) fields))) := by
  simp [jsonArrPop,onArray,here,Json.get,Json.change,present,exec_map,Except.map]

end Members

/-- Sets under keys for which a deadline may be set. -/
abbrev Sets := Expiring String (List Bytes)

namespace Sets
variable {s : Sets} {key other : String} {member : Bytes}

def members (key : String) (s : Sets) : List Bytes := (s.seen key).getD []

/-- `SADD key member`: a set that is there keeps its deadline. -/
def sadd (key : String) (member : Bytes) : Program Sets Unit :=
  Expiring.change key fun members => some (including member (members.getD []))

/-- `SREM key member`: a set goes with its last member. -/
def srem (key : String) (member : Bytes) : Program Sets Unit :=
  Expiring.change key fun members => (members.map (·.filter (· ≠ member))).filter (· ≠ [])

def smembers (key : String) : Program Sets (List Bytes) := do
  return members key (← get)

theorem members_congr {after : Sets} (same : after.seen key = s.seen key) : members key after = members key s :=
  congrArg (·.getD []) same

@[simp] theorem members_sadd : members key (exec (sadd key member) s).2 = including member (members key s) := by
  rw [members,sadd,Expiring.exec_change,Expiring.seen_changed_self]
  rfl

@[simp] theorem members_srem : members key (exec (srem key member) s).2 = (members key s).filter (· ≠ member) := by
  rw [members,srem,Expiring.exec_change,Expiring.seen_changed_self,members]
  cases s.seen key with
  | none => rfl
  | some members =>
    rw [Option.map_some,Option.getD_some,Option.filter_some]
    split
    · rfl
    · rename_i empty
      exact (by simpa using empty : members.filter (· ≠ member) = []).symm

end Sets

end AtlasNet.Foundation.Redis
