import AtlasNet.Registries
import AtlasNet.IdentityOrder
import AtlasNet.HealthManifest
import AtlasNet.Foundation.Register
import Mathlib.Data.Set.List

/-! The registry of the servers under every history of its calls: two tables of addresses by
serialized identity, and the map that is read from the first. -/
namespace AtlasNet
open Foundation Foundation.Program Foundation.Redis Foundation.Streams HardcodedDecoders

/-- The text of `SteamNetworkingIPAddr::ToString`, before the NUL that ends it. -/
class AddressText extends Platform where
  addressText : IPAddress → Bool → List Char

namespace IPAddress
variable [AddressText]

def k_cchMaxString : Nat := 48

/-- The string is of the size of the buffer; behind the text it stays zero. -/
def ToString (address : IPAddress) (IncludePort : Bool) : List Char :=
  let text := (AddressText.addressText address IncludePort).take (k_cchMaxString-1)
  text ++ List.replicate (k_cchMaxString-text.length) '\x00'

end IPAddress

/-- An address of the transport has sixteen bytes. -/
structure Address where
  address : IPAddress
  sized : address.m_ipv6.length = 16

/-- Addresses are printed in visible characters that fit the buffer, and are parsed back from them. -/
structure Legible [AddressText] : Prop where
  visible : ∀ a : Address, ∀ c ∈ AddressText.addressText a.address true, 32 < c.toNat ∧ c.toNat < 127
  printed : ∀ a : Address, AddressText.addressText a.address true ≠ []
  fits : ∀ a : Address, (AddressText.addressText a.address true).length < IPAddress.k_cchMaxString
  parsed : ∀ a : Address, Platform.ParseString (ascii (AddressText.addressText a.address true)) = a.address

namespace ServerRegistry

def kPublicSuffix : String := "_public"

def HashTableNameID_IP_public : String := HashTableNameID_IP ++ kPublicSuffix

def DeRegisterSelf (ID : NetworkIdentity) : Command Unit := do
  let key := GetKeyOfIdentifier ID
  hdel HashTableNameID_IP key
  hdel HashTableNameID_IP_public key

def ClearAll : Command Unit := do
  del HashTableNameID_IP
  del HashTableNameID_IP_public

section Commands
variable [AddressText]

def stored (address : IPAddress) : Bytes := ascii (NukeString (address.ToString true))

def RegisterSelf (ID : NetworkIdentity) (address : IPAddress) : Command Unit :=
  hset HashTableNameID_IP (GetKeyOfIdentifier ID) (stored address)

def RegisterPublicAddress (ID : NetworkIdentity) (address : IPAddress) : Command Unit :=
  hset HashTableNameID_IP_public (GetKeyOfIdentifier ID) (stored address)

/-- The address of an identity in a table. -/
def addressIn (table : String) (ID : NetworkIdentity) : Command (Option IPAddress) := do
  match ← hget table (GetKeyOfIdentifier ID) with
  | none => pure none
  | some ret => pure (if ret.isEmpty then none else some (Platform.ParseString ret))

theorem GetIPOfID_eq (ID : NetworkIdentity) : GetIPOfID ID = addressIn HashTableNameID_IP ID := rfl

def GetPublicAddress (ID : NetworkIdentity) : Command (Option IPAddress) := addressIn HashTableNameID_IP_public ID

end Commands

/-- An identity whose type is declared and not the invalid one. -/
structure Server where
  ID : NetworkIdentity
  declared : ID.type ∈ declaredTypes
  valid : ID.type ≠ .eInvalid

inductive Call
  | RegisterSelf (server : Server) (address : Address)
  | RegisterPublicAddress (server : Server) (address : Address)
  | DeRegisterSelf (server : Server)
  | ClearAll

namespace Call

def run [AddressText] : Call → Command Unit
  | RegisterSelf server address => ServerRegistry.RegisterSelf server.ID address.address
  | RegisterPublicAddress server address => ServerRegistry.RegisterPublicAddress server.ID address.address
  | DeRegisterSelf server => ServerRegistry.DeRegisterSelf server.ID
  | ClearAll => ServerRegistry.ClearAll

/-- What a call does to the address under which an identity is registered. -/
def onAddress (ID : NetworkIdentity) : Call → Option (Option IPAddress)
  | RegisterSelf server address => if server.ID = ID then some (some address.address) else none
  | RegisterPublicAddress _ _ => none
  | DeRegisterSelf server => if server.ID = ID then some none else none
  | ClearAll => some none

/-- What a call does to the public address of an identity. -/
def onPublic (ID : NetworkIdentity) : Call → Option (Option IPAddress)
  | RegisterSelf _ _ => none
  | RegisterPublicAddress server address => if server.ID = ID then some (some address.address) else none
  | DeRegisterSelf server => if server.ID = ID then some none else none
  | ClearAll => some none

end Call

/-- The address that the map of `GetServers` has for an identity. -/
def mapped [Platform] (servers : List ServerRegistryEntry) (ID : NetworkIdentity) : Option IPAddress :=
  (servers.find? (fun entry => (⟨entry.identifier⟩ : MapKey) == ⟨ID⟩)).map (·.address)

/-- The servers are those with an address, each once and with its address. -/
structure Lists [Platform] (registered : NetworkIdentity → IPAddress → Prop) (servers : List ServerRegistryEntry) : Prop where
  maps : ∀ ID address, mapped servers ID = some address ↔ registered ID address
  once : (servers.map (·.identifier)).Nodup
  listed : ∀ ID, ID ∈ servers.map (·.identifier) ↔ ∃ address, registered ID address

/-- Every view of the registry shows what the last call about an identity has left. The fields
of the table are iterated in any order. -/
structure Agree [AddressText] (calls : List Call) (db : Database) : Prop where
  present : ∀ ID, ∃ known, exec (ExistsInRegistry ID) db = (.ok known,db) ∧
    (known = true ↔ ∃ address, Register.Latest (Call.onAddress ID) calls address)
  address : ∀ ID, ∃ found, exec (GetIPOfID ID) db = (.ok found,db) ∧
    ∀ address, found = some address ↔ Register.Latest (Call.onAddress ID) calls address
  servers : ∃ servers, exec GetServers db = (.ok servers,db) ∧
    Lists (fun ID => Register.Latest (Call.onAddress ID) calls) servers
  iterated : ∀ entries, entries.Perm (db.hash HashTableNameID_IP) → ∃ servers,
    exec (GetServers_loop entries []) db = (.ok servers,db) ∧ Lists (fun ID => Register.Latest (Call.onAddress ID) calls) servers
  published : ∀ ID, ∃ found, exec (GetPublicAddress ID) db = (.ok found,db) ∧
    ∀ address, found = some address ↔ Register.Latest (Call.onPublic ID) calls address

section Text

theorem NukeString_padded (text : List Char) (n : Nat) : NukeString (text ++ List.replicate n '\x00') = NukeString text := by
  have zeros : (List.replicate n '\x00').filter visible = [] := by
    apply List.filter_eq_nil_iff.mpr
    intro c member
    rw [List.eq_of_mem_replicate member]
    decide
  rw [NukeString,List.filter_append,zeros,List.append_nil]
  rfl

theorem wordly_of_visible {c : Char} (low : 32 < c.toNat) : wordly c = true := by
  have null : c ≠ '\x00' := by
    rintro rfl
    exact absurd low (by decide)
  have space : c ≠ ' ' := by
    rintro rfl
    exact absurd low (by decide)
  have high : ¬ c.toNat < 32 := by omega
  have after : ¬ c.toNat ≤ 13 := by omega
  simp [wordly,visible,trimmed,isspace,null,space,high,after]

variable [AddressText]

/-- The cleaning takes the zeros behind the text and nothing of the text. -/
theorem stored_text (legible : Legible) (a : Address) : stored a.address = ascii (AddressText.addressText a.address true) := by
  have whole : (AddressText.addressText a.address true).take (IPAddress.k_cchMaxString-1) = AddressText.addressText a.address true :=
    List.take_of_length_le (Nat.le_sub_one_of_lt (legible.fits a))
  have word : (AddressText.addressText a.address true).all wordly = true :=
    List.all_eq_true.mpr fun c member => wordly_of_visible (legible.visible a c member).1
  rw [stored,IPAddress.ToString,whole,NukeString_padded,NukeString_word _ word]

theorem stored_nonempty (legible : Legible) (a : Address) : (stored a.address).isEmpty = false := by
  rw [stored_text legible,ascii,List.isEmpty_map,List.isEmpty_eq_false_iff]
  exact legible.printed a

theorem ParseString_stored (legible : Legible) (a : Address) : Platform.ParseString (stored a.address) = a.address := by
  rw [stored_text legible,legible.parsed a]

theorem stored_injective (legible : Legible) (a b : Address) (same : stored a.address = stored b.address) : a.address = b.address := by
  rw [← ParseString_stored legible a,same,ParseString_stored legible b]

end Text

section Tables
variable [AddressText]

/-- A table has the text of each address that is registered, under the key of its server. -/
structure Shows (hash : Hash) (registered : NetworkIdentity → Option IPAddress) : Prop where
  distinct : (hash.map (·.1)).Nodup
  keyed : ∀ entry ∈ hash, ∃ server : Server, entry.1 = GetKeyOfIdentifier server.ID
  sized : ∀ ID address, registered ID = some address → address.m_ipv6.length = 16
  found : ∀ ID, hash.get (GetKeyOfIdentifier ID) = (registered ID).map stored

variable {hash : Hash} {registered : NetworkIdentity → Option IPAddress} {effect : NetworkIdentity → Option (Option IPAddress)}

omit [AddressText] in
theorem key_apart {a b : NetworkIdentity} (different : a ≠ b) : GetKeyOfIdentifier a ≠ GetKeyOfIdentifier b :=
  fun same => different (NetworkIdentity.key_injective same)

theorem shows_nil : Shows [] fun _ => none := by
  constructor
  · exact List.nodup_nil
  · exact fun entry member => absurd member List.not_mem_nil
  · exact fun _ _ registered => nomatch registered
  · exact fun _ => rfl

theorem Shows.put (shows : Shows hash registered) (server : Server) (a : Address)
    (writes : ∀ ID, effect ID = if server.ID = ID then some (some a.address) else none) :
    Shows (hash.put (GetKeyOfIdentifier server.ID) (stored a.address)) fun ID => (effect ID).getD (registered ID) := by
  constructor
  · exact Entries.keys_put_nodup _ _ _ shows.distinct
  · intro entry member
    rcases Entries.mem_put member with rfl | before
    · exact ⟨server,rfl⟩
    · exact shows.keyed entry before
  · intro ID other there
    rw [writes] at there
    split at there
    · rw [← Option.some.inj there]
      exact a.sized
    · exact shows.sized ID other there
  · intro ID
    rw [writes]
    split
    · rename_i same
      rw [← same,Entries.get_put_self]
      rfl
    · rename_i different
      rw [Entries.get_put_other _ _ _ _ (key_apart (Ne.symm different)),shows.found]
      rfl

theorem Shows.drop (shows : Shows hash registered) (server : Server)
    (clears : ∀ ID, effect ID = if server.ID = ID then some none else none) :
    Shows (hash.drop (GetKeyOfIdentifier server.ID)) fun ID => (effect ID).getD (registered ID) := by
  constructor
  · exact Entries.keys_drop_nodup _ _ shows.distinct
  · exact fun entry member => shows.keyed entry (List.mem_of_mem_filter member)
  · intro ID other there
    rw [clears] at there
    split at there
    · cases there
    · exact shows.sized ID other there
  · intro ID
    rw [clears]
    split
    · rename_i same
      rw [← same,Entries.get_drop_self]
      rfl
    · rename_i different
      rw [Entries.get_drop_other _ _ _ (key_apart (Ne.symm different)),shows.found]
      rfl

/-- Both tables show what the calls have left. -/
structure Kept (calls : List Call) (db : Database) : Prop where
  addresses : Shows (db.hash HashTableNameID_IP) fun ID => Register.behind (Call.onAddress ID) calls
  published : Shows (db.hash HashTableNameID_IP_public) fun ID => Register.behind (Call.onPublic ID) calls

variable {calls : List Call} {db : Database}

omit [AddressText] in
theorem tables_apart : HashTableNameID_IP_public ≠ HashTableNameID_IP := by decide

theorem kept_snoc {call : Call} {next : Database}
    (addresses : Shows (next.hash HashTableNameID_IP) fun ID => (call.onAddress ID).getD (Register.behind (Call.onAddress ID) calls))
    (published : Shows (next.hash HashTableNameID_IP_public) fun ID =>
      (call.onPublic ID).getD (Register.behind (Call.onPublic ID) calls)) : Kept (calls ++ [call]) next := by
  constructor
  · simp only [Register.behind_snoc]
    exact addresses
  · simp only [Register.behind_snoc]
    exact published

theorem run_keeps (call : Call) (kept : Kept calls db) :
    ∃ next, exec call.run db = (.ok (),next) ∧ Kept (calls ++ [call]) next := by
  obtain ⟨addresses,published⟩ := kept
  cases call with
  | RegisterSelf server a =>
    refine ⟨_,rfl,kept_snoc ?_ ?_⟩
    · rw [withHash_self]
      exact addresses.put server a fun _ => rfl
    · rw [withHash_other _ _ _ _ tables_apart]
      exact published
  | RegisterPublicAddress server a =>
    refine ⟨_,rfl,kept_snoc ?_ ?_⟩
    · rw [withHash_other _ _ _ _ tables_apart.symm]
      exact addresses
    · rw [withHash_self]
      exact published.put server a fun _ => rfl
  | DeRegisterSelf server =>
    refine ⟨_,rfl,kept_snoc ?_ ?_⟩
    · rw [withHash_other _ _ _ _ tables_apart.symm,withHash_self]
      exact addresses.drop server fun _ => rfl
    · rw [withHash_self,withHash_other _ _ _ _ tables_apart]
      exact published.drop server fun _ => rfl
  | ClearAll =>
    refine ⟨_,rfl,kept_snoc ?_ ?_⟩
    · rw [without_other _ _ _ tables_apart.symm,without_self]
      exact shows_nil
    · rw [without_self]
      exact shows_nil

theorem runs_keep (later : List Call) (kept : Kept calls db) :
    ∃ next, exec (forM later Call.run) db = (.ok (),next) ∧ Kept (calls ++ later) next := by
  induction later generalizing calls db with
  | nil => exact ⟨db,rfl,by rwa [List.append_nil]⟩
  | cons call later ih =>
    obtain ⟨middle,ran,kept⟩ := run_keeps call kept
    obtain ⟨next,rest,kept⟩ := ih kept
    refine ⟨next,?_,by simpa using kept⟩
    rw [exec_forM_cons,exec_bind_ok _ _ _ _ _ ran]
    exact rest

theorem kept_empty (addresses : db.hash HashTableNameID_IP = []) (published : db.hash HashTableNameID_IP_public = []) :
    Kept [] db := by
  constructor
  · rw [addresses]
    exact shows_nil
  · rw [published]
    exact shows_nil

end Tables

section Views
variable [AddressText] {hash : Hash} {registered : NetworkIdentity → Option IPAddress} {db : Database} {calls : List Call}

theorem exec_addressIn (legible : Legible) {table : String} (shows : Shows (db.hash table) registered) (ID : NetworkIdentity) :
    exec (addressIn table ID) db = (.ok (registered ID),db) := by
  have got : exec (hget table (GetKeyOfIdentifier ID)) db = (.ok ((registered ID).map stored),db) := by
    rw [← shows.found]
    rfl
  rw [addressIn,exec_bind_ok _ _ _ _ _ got]
  cases there : registered ID with
  | none => rfl
  | some address =>
    have kept := stored_nonempty legible ⟨address,shows.sized ID address there⟩
    have parsed := ParseString_stored legible ⟨address,shows.sized ID address there⟩
    simp only [Option.map_some,kept,parsed]
    rfl

theorem registered_iff (shows : Shows (db.hash HashTableNameID_IP) registered) (ID : NetworkIdentity) :
    Registered ID db ↔ ∃ address, registered ID = some address := by
  rw [Registered,shows.found,Option.isSome_map,Option.isSome_iff_exists]

omit [AddressText] in
/-- A named identity meets no other key of the map. -/
theorem Server.meets_iff [Platform] (server : Server) (ID : NetworkIdentity) :
    ((⟨server.ID⟩ : MapKey) == ⟨ID⟩) = true ↔ server.ID = ID := by
  have exactly : (server.ID == ID) = true ↔ server.ID = ID := by
    rw [NetworkIdentity.beq_iff_confused]
    exact or_iff_left fun confused => confused.2.1 server.declared
  exact (NetworkIdentity.toldApart_of_iff exactly).unordered

abbrev Row := Server × Address

def field (row : Row) : Bytes × Bytes := (GetKeyOfIdentifier row.1.ID,stored row.2.address)

omit [AddressText] in
def entryOf (row : Row) : ServerRegistryEntry := {address := row.2.address,identifier := row.1.ID}

theorem exec_GetServers_loop (legible : Legible) (rows : List Row) (servers : List ServerRegistryEntry)
    (apart : (servers.map (·.identifier) ++ rows.map (·.1.ID)).Nodup) (db : Database) :
    exec (GetServers_loop (rows.map field) servers) db = (.ok (servers ++ rows.map entryOf),db) := by
  induction rows generalizing servers with
  | nil => simp [GetServers_loop]
  | cons row rows ih =>
    have identity : exec (within NetworkIdentity.Deserialize {p := GetKeyOfIdentifier row.1.ID} : Command NetworkIdentity) db =
        (.ok row.1.ID,db) := by
      rw [exec_within]
      exact congrArg (·,db) row.1.ID.Deserialize_key
    have fresh : ¬ servers.any (fun entry => (⟨entry.identifier⟩ : MapKey) == ⟨row.1.ID⟩) := by
      intro met
      obtain ⟨entry,member,same⟩ := List.any_eq_true.mp met
      have equal : row.1.ID = entry.identifier := (row.1.meets_iff _).mp (BEq.symm same)
      have before : row.1.ID ∈ servers.map (·.identifier) := equal ▸ List.mem_map_of_mem member
      exact (List.nodup_append.mp apart).2.2 _ before _ List.mem_cons_self rfl
    rw [List.map_cons,field,GetServers_loop,exec_bind_ok _ _ _ _ _ identity,exec_assert_bind,if_pos row.1.valid,exec_assert_bind,
      if_pos fresh,ih]
    · simp [entryOf,ParseString_stored legible row.2]
    · simpa using apart

/-- The fields of a table, in any order, are those of the servers that are registered. -/
theorem rows_of_shows (legible : Legible) (shows : Shows hash registered) {entries : Hash} (order : entries.Perm hash) :
    ∃ rows : List Row, entries = rows.map field ∧ (rows.map (·.1.ID)).Nodup ∧
      ∀ ID address, registered ID = some address ↔ ∃ row ∈ rows, row.1.ID = ID ∧ row.2.address = address := by
  have each : ∀ entry ∈ entries, entry ∈ Set.range field := by
    intro entry member
    have inside := order.mem_iff.mp member
    obtain ⟨server,key⟩ := shows.keyed entry inside
    have got := Entries.get_mem shows.distinct inside
    rw [key,shows.found] at got
    obtain ⟨address,there,text⟩ := Option.map_eq_some_iff.mp got
    exact ⟨(server,⟨address,shows.sized _ _ there⟩),Prod.ext key.symm text⟩
  obtain ⟨rows,rfl⟩ : entries ∈ Set.range (List.map field) := by
    rw [Set.range_list_map]
    exact each
  have keys : ((rows.map field).map (·.1)).Nodup := (order.map _).nodup_iff.mpr shows.distinct
  refine ⟨rows,rfl,?_,fun ID address => ⟨fun there => ?_,?_⟩⟩
  · rw [List.map_map] at keys
    apply List.Nodup.of_map GetKeyOfIdentifier
    rw [List.map_map]
    exact keys
  · have got : hash.get (GetKeyOfIdentifier ID) = some (stored address) := by
      rw [shows.found,there]
      rfl
    obtain ⟨row,member,same⟩ := List.mem_map.mp (order.mem_iff.mpr (Entries.mem_of_get got))
    obtain ⟨key,text⟩ := Prod.mk.inj same
    refine ⟨row,member,NetworkIdentity.key_injective key,?_⟩
    exact stored_injective legible row.2 ⟨address,shows.sized _ _ there⟩ text
  · rintro ⟨row,member,rfl,rfl⟩
    have got := Entries.get_mem shows.distinct (order.mem_iff.mp (List.mem_map_of_mem member))
    rw [shows.found] at got
    obtain ⟨address,there,text⟩ := Option.map_eq_some_iff.mp got
    exact there.trans (congrArg some (stored_injective legible ⟨address,shows.sized _ _ there⟩ row.2 text))

omit [AddressText] in
theorem mapped_cons [Platform] (row : Row) (servers : List ServerRegistryEntry) (ID : NetworkIdentity) :
    mapped (entryOf row::servers) ID = if row.1.ID = ID then some row.2.address else mapped servers ID := by
  have meets : ((⟨(entryOf row).identifier⟩ : MapKey) == ⟨ID⟩) = decide (row.1.ID = ID) := by
    rw [Bool.eq_iff_iff,decide_eq_true_iff]
    exact row.1.meets_iff ID
  rw [mapped,List.find?_cons,meets]
  by_cases same : row.1.ID = ID
  · simp [same,entryOf]
  · simp [same,mapped]

omit [AddressText] in
theorem mapped_rows [Platform] {rows : List Row} (apart : (rows.map (·.1.ID)).Nodup) (ID : NetworkIdentity) (address : IPAddress) :
    mapped (rows.map entryOf) ID = some address ↔ ∃ row ∈ rows, row.1.ID = ID ∧ row.2.address = address := by
  induction rows with
  | nil => simp [mapped]
  | cons row rows ih =>
    obtain ⟨alone,apart⟩ := List.nodup_cons.mp apart
    rw [List.map_cons,mapped_cons,List.exists_mem_cons_iff]
    split
    · rename_i same
      have later : ¬ ∃ other ∈ rows, other.1.ID = ID ∧ other.2.address = address :=
        fun ⟨other,member,there,_⟩ => alone (List.mem_map.mpr ⟨other,member,there.trans same.symm⟩)
      rw [or_iff_left later,Option.some_inj,and_iff_right same]
    · rename_i different
      rw [ih apart]
      exact (or_iff_right fun here => different here.1).symm

theorem exec_listed (legible : Legible) (shows : Shows hash registered) {entries : Hash} (order : entries.Perm hash) (db : Database) :
    ∃ servers, exec (GetServers_loop entries []) db = (.ok servers,db) ∧
      Lists (fun ID address => registered ID = some address) servers := by
  obtain ⟨rows,rfl,apart,holds⟩ := rows_of_shows legible shows order
  have ids : (rows.map entryOf).map (·.identifier) = rows.map (·.1.ID) := by
    rw [List.map_map]
    rfl
  refine ⟨rows.map entryOf,exec_GetServers_loop legible rows [] apart db,?_,?_,fun ID => ?_⟩
  · exact fun ID address => (mapped_rows apart ID address).trans (holds ID address).symm
  · rw [ids]
    exact apart
  · simp only [ids,holds,List.mem_map]
    constructor
    · exact fun ⟨row,member,same⟩ => ⟨_,row,member,same,rfl⟩
    · exact fun ⟨_,row,member,same,_⟩ => ⟨row,member,same⟩

theorem Kept.agree (legible : Legible) (kept : Kept calls db) : Agree calls db := by
  have lists : ∀ {servers}, Lists (fun ID address => Register.behind (Call.onAddress ID) calls = some address) servers →
      Lists (fun ID => Register.Latest (Call.onAddress ID) calls) servers := by
    intro servers lists
    simpa only [Register.behind_iff] using lists
  constructor
  · intro ID
    refine ⟨_,exec_ExistsInRegistry ID db,?_⟩
    simp only [decide_eq_true_iff,registered_iff kept.addresses,Register.behind_iff]
  · intro ID
    rw [GetIPOfID_eq]
    exact ⟨_,exec_addressIn legible kept.addresses ID,fun address => Register.behind_iff⟩
  · obtain ⟨servers,ran,listed⟩ := exec_listed legible kept.addresses (.refl _) db
    exact ⟨servers,ran,lists listed⟩
  · intro entries order
    obtain ⟨servers,ran,listed⟩ := exec_listed legible kept.addresses order db
    exact ⟨servers,ran,lists listed⟩
  · exact fun ID => ⟨_,exec_addressIn legible kept.published ID,fun address => Register.behind_iff⟩

/-- Every history of calls runs to its end, and the views agree behind it. -/
theorem views_agree (legible : Legible) (addresses : db.hash HashTableNameID_IP = [])
    (published : db.hash HashTableNameID_IP_public = []) (calls : List Call) :
    ∃ next, exec (forM calls Call.run) db = (.ok (),next) ∧ Agree calls next := by
  obtain ⟨next,ran,kept⟩ := runs_keep calls (kept_empty addresses published)
  exact ⟨next,ran,kept.agree legible⟩

end Views

section Local

/-- The address 127.0.0.1 with port 8080. -/
def localAddress : Address := ⟨{m_ipv6 := List.replicate 10 0 ++ [255,255,127,0,0,1],m_port := 8080},rfl⟩

def localText : List Char := ['1','2','7','.','0','.','0','.','1',':','8','0','8','0']

/-- Two letters for every byte. -/
def letters : Bytes → List Char
  | [] => []
  | byte::rest => Char.ofNat (65+byte.toNat / 16)::Char.ofNat (65+byte.toNat % 16)::letters rest

def unlettered : Bytes → Bytes
  | high::low::rest => UInt8.ofNat ((high.toNat-65)*16+(low.toNat-65))::unlettered rest
  | _ => []

def parse (text : Bytes) : IPAddress :=
  if text = ascii localText then localAddress.address
  else match unlettered text with
    | high::low::bytes => {m_ipv6 := bytes,m_port := UInt16.ofNat (high.toNat*256+low.toNat)}
    | _ => {}

def print (address : IPAddress) : List Char :=
  if address = localAddress.address then localText
  else letters (UInt8.ofNat (address.m_port.toNat / 256)::UInt8.ofNat (address.m_port.toNat % 256)::address.m_ipv6)

/-- The address 127.0.0.1:8080 is printed as the transport does, the others in letters. -/
@[reducible] def letteredPlatform : AddressText where
  stringHash := fnvPlatform.stringHash
  ParseString := parse
  capacity := fnvPlatform.capacity
  capacity_size := fnvPlatform.capacity_size
  addressText address _ := print address

theorem letters_length (bytes : Bytes) : (letters bytes).length = 2*bytes.length := by
  induction bytes with
  | nil => rfl
  | cons byte rest ih =>
    simp only [letters,List.length_cons,ih]
    omega

theorem letter_code : ∀ n < 16, (Char.ofNat (65+n)).toNat = 65+n := by decide

theorem localText_visible : ∀ c ∈ localText, 32 < c.toNat ∧ c.toNat < 127 := by
  simp [localText]

theorem letters_visible (bytes : Bytes) : ∀ c ∈ letters bytes, 32 < c.toNat ∧ c.toNat < 127 := by
  induction bytes with
  | nil => exact fun c member => absurd member List.not_mem_nil
  | cons byte rest ih =>
    intro c member
    have bound := byte.toNat_lt
    have high := letter_code (byte.toNat / 16) (by omega)
    have low := letter_code (byte.toNat % 16) (by omega)
    rcases List.mem_cons.mp member with rfl | member
    · omega
    rcases List.mem_cons.mp member with rfl | member
    · omega
    · exact ih c member

theorem unlettered_letters (bytes : Bytes) : unlettered (ascii (letters bytes)) = bytes := by
  induction bytes with
  | nil => rfl
  | cons byte rest ih =>
    have bound := byte.toNat_lt
    have high := letter_code (byte.toNat / 16) (by omega)
    have low := letter_code (byte.toNat % 16) (by omega)
    have here : UInt8.ofNat (((UInt8.ofNat (Char.ofNat (65+byte.toNat / 16)).toNat).toNat-65)*16+
        ((UInt8.ofNat (Char.ofNat (65+byte.toNat % 16)).toNat).toNat-65)) = byte := by
      apply UInt8.toNat_inj.mp
      rw [high,low,UInt8.toNat_ofNat',UInt8.toNat_ofNat',UInt8.toNat_ofNat']
      omega
    change UInt8.ofNat _::unlettered (ascii (letters rest)) = byte::rest
    rw [ih]
    exact congrArg (·::rest) here

theorem parse_print (a : Address) : parse (ascii (print a.address)) = a.address := by
  rw [print]
  split
  · rename_i same
    rw [parse,if_pos rfl,same]
  · have apart : ascii (letters (UInt8.ofNat (a.address.m_port.toNat / 256)::UInt8.ofNat (a.address.m_port.toNat % 256)::
        a.address.m_ipv6)) ≠ ascii localText := by
      intro same
      have lengths := congrArg List.length same
      rw [ascii,List.length_map,letters_length,List.length_cons,List.length_cons,a.sized] at lengths
      exact absurd lengths (by decide)
    have bound := a.address.m_port.toNat_lt
    have port : UInt16.ofNat ((UInt8.ofNat (a.address.m_port.toNat / 256)).toNat*256+
        (UInt8.ofNat (a.address.m_port.toNat % 256)).toNat) = a.address.m_port := by
      apply UInt16.toNat_inj.mp
      rw [UInt8.toNat_ofNat',UInt8.toNat_ofNat',UInt16.toNat_ofNat']
      omega
    rw [parse,if_neg apart,unlettered_letters]
    simp only [port]

theorem legible_lettered : @Legible letteredPlatform := by
  let _ := letteredPlatform
  constructor
  · intro a c member
    change c ∈ print a.address at member
    rw [print] at member
    split at member
    · exact localText_visible c member
    · exact letters_visible _ c member
  · intro a
    change print a.address ≠ []
    rw [print]
    split <;> exact List.cons_ne_nil _ _
  · intro a
    change (print a.address).length < _
    rw [print]
    split
    · decide
    · rw [letters_length,List.length_cons,List.length_cons,a.sized]
      decide
  · exact parse_print

def shard : Server := ⟨.MakeIDShard .nil,by decide,by decide⟩
def cartograph : Server := ⟨.MakeIDCartograph,by decide,by decide⟩

theorem views_agree_local : let _ := letteredPlatform
    let calls := [.RegisterSelf shard localAddress,.RegisterPublicAddress shard localAddress,
      .RegisterSelf cartograph localAddress,.DeRegisterSelf shard]
    ∃ next, exec (forM calls Call.run) Database.empty = (.ok (),next) ∧ Agree calls next := by
  intro _ calls
  exact views_agree legible_lettered rfl rfl calls

end Local

end ServerRegistry

end AtlasNet
