import AtlasNet.ByteStream
import Mathlib.Data.List.DropRight

/-! Network identities: a type code, of which some values are declared, and a UUID.
Two identities are compared by the text that `ToString` gives them. -/
namespace AtlasNet
open Foundation Foundation.Program

/-- `enum class NetworkIdentityType`. Its underlying `int` can hold any code. -/
structure NetworkIdentityType where
  code : Int32
deriving DecidableEq

namespace NetworkIdentityType

def eInvalid : NetworkIdentityType := ⟨0⟩
def eShard : NetworkIdentityType := ⟨1⟩
def eWatchDog : NetworkIdentityType := ⟨2⟩
def eCartograph : NetworkIdentityType := ⟨3⟩
def eGameClient : NetworkIdentityType := ⟨4⟩
def eProxy : NetworkIdentityType := ⟨6⟩
def eAtlasNetInitial : NetworkIdentityType := ⟨7⟩

/-- `boost::describe::enum_to_string` over the described enumerators. -/
def enum_to_string (type : NetworkIdentityType) : List Char :=
  if type = eInvalid then ['e','I','n','v','a','l','i','d']
  else if type = eShard then ['e','S','h','a','r','d']
  else if type = eWatchDog then ['e','W','a','t','c','h','D','o','g']
  else if type = eCartograph then ['e','C','a','r','t','o','g','r','a','p','h']
  else if type = eGameClient then ['e','G','a','m','e','C','l','i','e','n','t']
  else if type = eProxy then ['e','P','r','o','x','y']
  else if type = eAtlasNetInitial then
    ['e','A','t','l','a','s','N','e','t','I','n','i','t','i','a','l']
  else ['U','n','k','n','o','w','n','U','n','k','n','o','w','n','T','y','p','e','?']

end NetworkIdentityType

/-- `std::isspace` in the default locale. -/
def isspace (c : Char) : Bool := c = ' ' ∨ (9 ≤ c.toNat ∧ c.toNat ≤ 13)

def visible (c : Char) : Bool :=
  c ≠ '\x00' ∧ ¬ (c.toNat < 32 ∧ c ≠ '\n' ∧ c ≠ '\r' ∧ c ≠ '\t')

def trimmed (c : Char) : Bool := isspace c || c = '\x00'

def NukeString (input : List Char) : List Char :=
  ((input.filter visible).dropWhile trimmed).rdropWhile trimmed

def hex (byte : UInt8) : List Char :=
  [Nat.digitChar (byte.toNat / 16),Nat.digitChar (byte.toNat % 16)]

/-- The loop of `boost::uuids::to_string`: a dash follows the bytes 3, 5, 7 and 9. -/
def to_chars : Nat → Bytes → List Char
  | _,[] => []
  | i,byte::rest =>
    hex byte ++ (if i = 3 ∨ i = 5 ∨ i = 7 ∨ i = 9 then ['-'] else []) ++ to_chars (i+1) rest

def UUID.to_string (id : UUID) : List Char := to_chars 0 id.data

structure NetworkIdentity where
  type : NetworkIdentityType := .eInvalid
  ID : UUID := .nil
deriving DecidableEq

namespace NetworkIdentity

def MakeIDWatchDog : NetworkIdentity := ⟨.eWatchDog,.nil⟩
def MakeIDShard (_ID : UUID) : NetworkIdentity := ⟨.eShard,_ID⟩
def MakeIDGameClient (_ID : UUID) : NetworkIdentity := ⟨.eGameClient,_ID⟩
def MakeIDCartograph : NetworkIdentity := ⟨.eCartograph,.nil⟩

def toChars (id : NetworkIdentity) : List Char :=
  NukeString (if id.ID.is_nil then id.type.enum_to_string
    else id.type.enum_to_string ++ ' '::id.ID.to_string)

def ToString (id : NetworkIdentity) : String := String.ofList id.toChars

instance : BEq NetworkIdentity := ⟨fun a b => a.ToString == b.ToString⟩

def Serialize (id : NetworkIdentity) (bw : ByteWriter) : ByteWriter := (bw.i32 id.type.code).uuid id.ID

def Deserialize : Program ByteReader NetworkIdentity := do
  let type ← ByteReader.i32
  let ID ← ByteReader.uuid
  pure ⟨⟨type⟩,ID⟩

def IsInternal (id : NetworkIdentity) : Bool := id.type ≠ .eGameClient

theorem beq_toString (a b : NetworkIdentity) : (a == b) = true ↔ a.toChars = b.toChars := by
  change (a.ToString == b.ToString) = true ↔ _
  rw [beq_iff_eq]
  exact String.ofList_inj

instance : EquivBEq NetworkIdentity where
  rfl := (beq_toString _ _).mpr rfl
  symm same := (beq_toString _ _).mpr ((beq_toString _ _).mp same).symm
  trans first second :=
    (beq_toString _ _).mpr (((beq_toString _ _).mp first).trans ((beq_toString _ _).mp second))

theorem roundTrips (id : NetworkIdentity) : RoundTrips id.Serialize Deserialize id := by
  have last := roundTrips_map (fun ID => (⟨id.type,ID⟩ : NetworkIdentity)) (roundTrips_uuid id.ID)
  have whole := roundTrips_bind _ (fun type => do return (⟨⟨type⟩,← ByteReader.uuid⟩ : NetworkIdentity))
    (roundTrips_i32 id.type.code) last
  exact whole

end NetworkIdentity

section Text

theorem digitChar_injective (a b : Nat) (ha : a < 16) (hb : b < 16)
    (same : Nat.digitChar a = Nat.digitChar b) : a = b := by
  revert b
  revert a
  decide

theorem hex_injective (a b : UInt8) (same : hex a = hex b) : a = b := by
  have boundA := a.toNat_lt
  have boundB := b.toNat_lt
  simp only [hex,List.cons.injEq,and_true] at same
  have high := digitChar_injective _ _ (by omega) (by omega) same.1
  have low := digitChar_injective _ _ (by omega) (by omega) same.2
  apply UInt8.toNat_inj.mp
  omega

theorem to_chars_injective (i : Nat) (a b : Bytes) (sized : a.length = b.length)
    (same : to_chars i a = to_chars i b) : a = b := by
  induction a generalizing i b with
  | nil => exact (List.length_eq_zero_iff.mp sized.symm).symm
  | cons first rest ih =>
    cases b with
    | nil => cases sized
    | cons other others =>
      simp only [to_chars] at same
      obtain ⟨here,after⟩ := List.append_inj same (by simp [hex])
      have bytes := hex_injective _ _ (List.append_inj here (by simp [hex])).1
      have tails := ih (i+1) others (by simpa using sized) after
      rw [bytes,tails]

theorem UUID.to_string_injective (a b : UUID) (same : a.to_string = b.to_string) : a = b :=
  UUID.ext_data a b (to_chars_injective 0 a.data b.data (a.size.trans b.size.symm) same)

/-- A character that stands in a word: it is kept and never trimmed. -/
def wordly (c : Char) : Bool := visible c && !trimmed c && c ≠ ' '

theorem wordly_name (type : NetworkIdentityType) : type.enum_to_string.all wordly = true := by
  unfold NetworkIdentityType.enum_to_string
  split_ifs <;> decide

theorem name_nonempty (type : NetworkIdentityType) : type.enum_to_string ≠ [] := by
  unfold NetworkIdentityType.enum_to_string
  split_ifs <;> decide

theorem wordly_digit (n : Nat) (bound : n < 16) : wordly (Nat.digitChar n) = true := by
  revert n
  decide

theorem wordly_hex (byte : UInt8) : (hex byte).all wordly = true := by
  have bound := byte.toNat_lt
  simp [hex,wordly_digit (byte.toNat/16) (by omega),wordly_digit (byte.toNat%16) (by omega)]

theorem wordly_to_chars (i : Nat) (bytes : Bytes) : (to_chars i bytes).all wordly = true := by
  induction bytes generalizing i with
  | nil => rfl
  | cons byte rest ih =>
    simp only [to_chars,List.all_append,wordly_hex,ih,Bool.and_true,Bool.true_and]
    split <;> decide

/-- Kept characters between two untrimmed ends are the whole text. -/
theorem NukeString_ends (text : List Char) (kept : text.all visible = true)
    (first : ∀ c ∈ text.head?, trimmed c = false) (last : ∀ c ∈ text.getLast?, trimmed c = false) :
    NukeString text = text := by
  have whole : text.filter visible = text := List.filter_eq_self.mpr (List.all_eq_true.mp kept)
  have front : text.dropWhile trimmed = text := by
    cases text with
    | nil => rfl
    | cons c rest => rw [List.dropWhile_cons,first c rfl,if_neg Bool.false_ne_true]
  rw [NukeString,whole,front]
  apply List.rdropWhile_eq_self_iff.mpr
  intro some
  rw [last _ (List.getLast?_eq_some_getLast some)]
  exact Bool.false_ne_true

theorem wordly_visible (text : List Char) (word : text.all wordly = true) : text.all visible = true := by
  apply List.all_eq_true.mpr
  intro c member
  have here := List.all_eq_true.mp word c member
  simp only [wordly,Bool.and_eq_true] at here
  exact here.1.1

theorem wordly_untrimmed (text : List Char) (word : text.all wordly = true) (c : Char) (member : c ∈ text) :
    trimmed c = false := by
  have here := List.all_eq_true.mp word c member
  simp only [wordly,Bool.and_eq_true,Bool.not_eq_true'] at here
  exact here.1.2

theorem wordly_not_space (text : List Char) (word : text.all wordly = true) : ' ' ∉ text := by
  intro member
  have here := List.all_eq_true.mp word ' ' member
  revert here
  decide

theorem NukeString_word (text : List Char) (word : text.all wordly = true) : NukeString text = text :=
  NukeString_ends text (wordly_visible text word)
    (fun c member => wordly_untrimmed text word c (List.mem_of_head? member))
    (fun c member => wordly_untrimmed text word c (List.mem_of_getLast? member))

theorem NukeString_words (first second : List Char) (some : first ≠ []) (more : second ≠ [])
    (word : first.all wordly = true) (last : second.all wordly = true) :
    NukeString (first ++ ' '::second) = first ++ ' '::second := by
  have space : visible ' ' = true := by decide
  apply NukeString_ends
  · rw [List.all_append,List.all_cons,wordly_visible first word,wordly_visible second last,space]
    rfl
  · intro c member
    rw [List.head?_append_of_ne_nil first some] at member
    exact wordly_untrimmed first word c (List.mem_of_head? member)
  · intro c member
    rw [List.getLast?_append_of_ne_nil first (List.cons_ne_nil _ _),List.getLast?_cons_of_ne_nil more] at member
    exact wordly_untrimmed second last c (List.mem_of_getLast? member)

end Text

namespace NetworkIdentity

theorem to_string_nonempty (id : UUID) : id.to_string ≠ [] := by
  intro none
  have lengths := congrArg List.length none
  obtain ⟨data,size⟩ := id
  cases data with
  | nil => cases size
  | cons byte rest => simp [UUID.to_string,to_chars,hex] at lengths

/-- The text of an identity is the name of its type, and its UUID unless that is nil. -/
theorem toChars_eq (id : NetworkIdentity) :
    id.toChars = if id.ID.is_nil then id.type.enum_to_string
      else id.type.enum_to_string ++ ' '::id.ID.to_string := by
  unfold toChars
  split
  · exact NukeString_word _ (wordly_name id.type)
  · exact NukeString_words _ _ (name_nonempty id.type) (to_string_nonempty id.ID) (wordly_name id.type)
      (wordly_to_chars 0 id.ID.data)

theorem space_split (first second : List Char) (before after : List Char) (left : ' ' ∉ first)
    (right : ' ' ∉ second) (same : first ++ ' '::before = second ++ ' '::after) :
    first = second ∧ before = after := by
  induction first generalizing second with
  | nil =>
    cases second with
    | nil => exact ⟨rfl,(List.cons.inj same).2⟩
    | cons c rest =>
      have head := (List.cons.inj same).1
      exact absurd (head ▸ List.mem_cons_self) right
  | cons c rest ih =>
    cases second with
    | nil =>
      have head := (List.cons.inj same).1
      exact absurd (head ▸ List.mem_cons_self) left
    | cons d others =>
      obtain ⟨head,tail⟩ := List.cons.inj same
      obtain ⟨words,ends⟩ := ih others (fun inside => left (by simp [inside]))
        (fun inside => right (by simp [inside])) tail
      exact ⟨by rw [head,words],ends⟩

theorem toChars_inj (a b : NetworkIdentity) (same : a.toChars = b.toChars) :
    a.type.enum_to_string = b.type.enum_to_string ∧ a.ID = b.ID := by
  have left := wordly_not_space _ (wordly_name a.type)
  have right := wordly_not_space _ (wordly_name b.type)
  rw [toChars_eq,toChars_eq] at same
  by_cases nilA : a.ID.is_nil = true <;> by_cases nilB : b.ID.is_nil = true
  · rw [if_pos nilA,if_pos nilB] at same
    exact ⟨same,((UUID.is_nil_iff _).mp nilA).trans ((UUID.is_nil_iff _).mp nilB).symm⟩
  · rw [if_pos nilA,if_neg nilB] at same
    exact absurd (same ▸ by simp) left
  · rw [if_neg nilA,if_pos nilB] at same
    exact absurd (same ▸ by simp) right
  · rw [if_neg nilA,if_neg nilB] at same
    obtain ⟨names,ids⟩ := space_split _ _ _ _ left right same
    exact ⟨names,UUID.to_string_injective _ _ ids⟩

theorem Serialize_buf (id : NetworkIdentity) :
    (id.Serialize {}).buf = BigEndian.encode 4 id.type.code.toUInt32.toNat ++ id.ID.data := rfl

theorem Serialize_length (id : NetworkIdentity) : (id.Serialize {}).buf.length = 20 := by
  rw [Serialize_buf,List.length_append,BigEndian.encode_length,id.ID.size]

theorem starts_with (bytes : Bytes) (long : 20 ≤ bytes.length) :
    ∃ (id : NetworkIdentity) (rest : Bytes), bytes = (id.Serialize {}).buf ++ rest := by
  have sized : ((bytes.drop 4).take 16).length = 16 := by
    rw [List.length_take,List.length_drop]
    omega
  have four : (bytes.take 4).length = 4 := by
    rw [List.length_take]
    omega
  have small : BigEndian.decode (bytes.take 4) < 2^32 := by
    have bound := BigEndian.decode_lt (bytes.take 4)
    rw [four] at bound
    exact bound
  refine ⟨⟨⟨Int32.ofUInt32 (UInt32.ofNat (BigEndian.decode (bytes.take 4)))⟩,⟨(bytes.drop 4).take 16,sized⟩⟩,
    bytes.drop 20,?_⟩
  have code : BigEndian.encode 4 (UInt32.ofNat (BigEndian.decode (bytes.take 4))).toNat = bytes.take 4 := by
    have round := BigEndian.encode_decode (bytes.take 4)
    rw [four] at round
    rw [UInt32.toNat_ofNat',Nat.mod_eq_of_lt small]
    exact round
  change bytes = BigEndian.encode 4 (UInt32.ofNat (BigEndian.decode (bytes.take 4))).toNat ++
    (bytes.drop 4).take 16 ++ bytes.drop 20
  have tail : (bytes.drop 4).take 16 ++ bytes.drop 20 = bytes.drop 4 := by
    rw [← List.drop_drop (i := 16) (j := 4)]
    exact List.take_append_drop 16 (bytes.drop 4)
  rw [code,List.append_assoc,tail,List.take_append_drop]

theorem Deserialize_written (id : NetworkIdentity) (rest : Bytes) (bound : rest.length < 2^32) :
    (exec Deserialize {p := (id.Serialize {}).buf ++ rest}).1 = .ok id := by
  obtain ⟨bytes,wrote,reads⟩ := id.roundTrips
  have written : (id.Serialize {}).buf = bytes := by
    rw [wrote]
    rfl
  have long := id.Serialize_length
  rw [written] at long ⊢
  have short : (bytes ++ rest).length < 2^64 := by
    rw [List.length_append]
    omega
  rw [reads {p := bytes ++ rest} rest (Nat.zero_le _) rfl short]

theorem Deserialize_short (bytes : Bytes) (short : bytes.length < 20) :
    ∃ what, (exec Deserialize {p := bytes}).1 = .error (.byteError what) := by
  by_cases few : bytes.length < 4
  · have stopped : exec ByteReader.i32 {p := bytes} = (.error (.byteError "read overflow"),{p := bytes}) := by
      simp [ByteReader.i32,ByteReader.u32,ByteReader.read_be,ByteReader.read,ByteReader.n,exec_bind,throwIf,few]
    refine ⟨"read overflow",?_⟩
    rw [Deserialize,exec_bind_error _ _ _ _ _ stopped]
  · have four : (bytes.take 4).length = 4 := by
      rw [List.length_take]
      omega
    have bare := decodes_read (bytes.take 4)
    rw [four] at bare
    have reads : Decodes ByteReader.i32 _ _ := decodes_map Int32.ofUInt32 (decodes_map UInt32.ofNat
      (decodes_map BigEndian.decode bare))
    have started := reads {p := bytes} (bytes.drop 4) (Nat.zero_le _) (List.take_append_drop 4 bytes).symm
      (show bytes.length < 2^64 by omega)
    rw [four] at started
    have left : ({p := bytes,i := 0+4} : ByteReader).remaining < 16 := by
      change bytes.length-4 < 16
      omega
    have stopped : exec ByteReader.uuid {p := bytes,i := 0+4} =
        (.error (.byteError "UUID overflow"),{p := bytes,i := 0+4}) := by
      rw [ByteReader.uuid,exec_get_bind,exec_throwIf,if_pos left]
    refine ⟨"UUID overflow",?_⟩
    rw [Deserialize,exec_bind_ok _ _ _ _ _ started,exec_bind_error _ _ _ _ _ stopped]

theorem beq_iff (a b : NetworkIdentity) :
    (a == b) = true ↔ a.type.enum_to_string = b.type.enum_to_string ∧ a.ID = b.ID := by
  rw [beq_toString]
  constructor
  · exact toChars_inj a b
  · rintro ⟨names,ids⟩
    rw [toChars,toChars,names,ids]

end NetworkIdentity

end AtlasNet
