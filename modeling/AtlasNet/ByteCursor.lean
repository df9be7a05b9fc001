import AtlasNet.ShardLookup

/-! The reading of bytes in JavaScript: the cursor over a buffer, numbers, and the texts of
UUIDs and of base64. -/
namespace AtlasNet
open Foundation Foundation.Program

structure ByteCursor where
  buffer : Bytes
  offset : Nat := 0

namespace ByteCursor

def remaining (c : ByteCursor) : Nat := c.buffer.length-c.offset

def readBytes (length : Nat) : Program ByteCursor Bytes := do
  let c ← get
  throwIf (c.buffer.length < c.offset+length) (.runtimeError "buffer underflow")
  set {c with offset := c.offset+length}
  pure ((c.buffer.drop c.offset).take length)

def readUInt (size : Nat) : Program ByteCursor Nat := return BigEndian.decode (← readBytes size)

def readU8 : Program ByteCursor UInt8 := return UInt8.ofNat (← readUInt 1)
def readU16 : Program ByteCursor UInt16 := return UInt16.ofNat (← readUInt 2)
def readU32 : Program ByteCursor UInt32 := return UInt32.ofNat (← readUInt 4)
def readU64 : Program ByteCursor UInt64 := return UInt64.ofNat (← readUInt 8)

def cursor : Cursor ByteCursor UInt8 where
  Inside c := c.offset ≤ c.buffer.length
  rest c := c.buffer.drop c.offset
  skip n c := {c with offset := c.offset+n}
  skip_none _ := rfl
  skip_twice m n c := by simp [Nat.add_assoc]
  inside_skip c front back inside here := by
    have long := congrArg List.length here
    rw [List.length_drop,List.length_append] at long
    exact ⟨by change c.offset+front.length ≤ c.buffer.length; omega,by rw [← List.drop_drop,here,List.drop_left]⟩

theorem accepts_readBytes (length : Nat) : cursor.Accepts (readBytes length) (bytesOf length) := by
  intro c inside value next
  rw [readBytes,exec_get_bind,exec_throwIf]
  have long : (c.buffer.drop c.offset).length = c.buffer.length-c.offset := List.length_drop
  have within : c.offset ≤ c.buffer.length := inside
  constructor
  · intro ran
    split at ran
    · cases (Prod.mk.inj ran).1
    · rename_i fits
      obtain ⟨same,rfl⟩ := Prod.mk.inj ran
      cases same
      have taken : ((c.buffer.drop c.offset).take length).length = length := by
        rw [List.length_take,long]
        omega
      exact ⟨_,(c.buffer.drop c.offset).drop length,⟨taken,rfl⟩,(List.take_append_drop length _).symm,by rw [taken]; rfl⟩
  · rintro ⟨word,back,⟨rfl,rfl⟩,here,rfl⟩
    have here : c.buffer.drop c.offset = value ++ back := here
    have front : (c.buffer.drop c.offset).take value.length = value := by rw [here,List.take_left]
    have total := congrArg List.length here
    rw [long,List.length_append] at total
    rw [if_neg (by omega),exec_set_bind,exec_pure,front]
    rfl

theorem accepts_map {α β : Type} {reader : Program ByteCursor α} {F : Format UInt8 α} (f : α → β)
    (accepts : cursor.Accepts reader F) : cursor.Accepts (do return f (← reader)) (do return f (← F)) :=
  Cursor.accepts_bind accepts (fun _ => Cursor.accepts_pure _)

theorem accepts_readUInt (size : Nat) : cursor.Accepts (readUInt size) (bigEndian size) := by
  refine Cursor.accepts_congr (accepts_map BigEndian.decode (accepts_readBytes size)) (fun word value => ?_)
  constructor
  · rintro ⟨front,back,bytes,rfl,⟨rfl,rfl⟩,rfl,rfl⟩
    rw [List.append_nil]
    exact ⟨rfl,rfl⟩
  · rintro ⟨rfl,rfl⟩
    exact ⟨word,[],word,(List.append_nil _).symm,⟨rfl,rfl⟩,rfl,rfl⟩

theorem accepts_readU8 : cursor.Accepts readU8 ByteFormat.u8 := accepts_map _ (accepts_readUInt 1)
theorem accepts_readU16 : cursor.Accepts readU16 ByteFormat.u16 := accepts_map _ (accepts_readUInt 2)
theorem accepts_readU32 : cursor.Accepts readU32 ByteFormat.u32 := accepts_map _ (accepts_readUInt 4)
theorem accepts_readU64 : cursor.Accepts readU64 ByteFormat.u64 := accepts_map _ (accepts_readUInt 8)

/-- What stands at the front of a buffer is read off it. -/
theorem exec_front {α : Type} {reader : Program ByteCursor α} {F : Format UInt8 α} {word : Bytes} {value : α}
    (accepts : cursor.Accepts reader F) (stands : F word value) (front back : Bytes) :
    exec reader {buffer := front ++ (word ++ back),offset := front.length} =
      (.ok value,{buffer := front ++ (word ++ back),offset := front.length+word.length}) := by
  refine (accepts _ ?_ value _).mpr ⟨word,back,stands,List.drop_left,rfl⟩
  change front.length ≤ (front ++ (word ++ back)).length
  rw [List.length_append]
  exact Nat.le_add_right _ _

end ByteCursor

/-- A number that was read from a `float`: every pattern but those of a NaN is a number of its
own. -/
inductive Number
  | NaN
  | float (bits : UInt32)
deriving DecidableEq

def Number.ofFloat (bits : UInt32) : Number := if AABB3f.nan bits then NaN else float bits

structure Coordinates where
  x : Number
  y : Number
  z : Number
deriving DecidableEq

def Coordinates.of (v : Vec3) : Coordinates := ⟨.ofFloat v.1,.ofFloat v.2.1,.ofFloat v.2.2⟩

def formatUuid (bytes : Bytes) : List Char :=
  let hex := bytes.flatMap hex
  if hex.length ≠ 32 then hex
  else List.intercalate ['-'] [hex.take 8,(hex.drop 8).take 4,(hex.drop 12).take 4,(hex.drop 16).take 4,hex.drop 20]

/-- Both implementations write a UUID alike. -/
theorem formatUuid_to_string : (id : UUID) → formatUuid id.data = id.to_string
  | ⟨[_,_,_,_,_,_,_,_,_,_,_,_,_,_,_,_],_⟩ => rfl

namespace Buffer

/-- The value of a character; the alphabet for URLs is taken as well, and other characters are
passed over. -/
def sextet (c : Char) : Option Nat := if c = '-' then some 62 else if c = '_' then some 63 else Base64.inverse c

/-- `Buffer.from(text, 'base64')`, which ends at the padding. -/
def fromBase64 (text : List Char) : Bytes := Base64.ungroup ((text.takeWhile (· ≠ '=')).filterMap sextet)

/-- In a text of the alphabet and the padding no character is passed over. -/
theorem sextets_eq {text : List Char} (plain : ∀ c ∈ text, c = '=' ∨ (Base64.inverse c).isSome = true) :
    (text.takeWhile (· ≠ '=')).filterMap sextet = Base64.sextets text := by
  induction text with
  | nil => rfl
  | cons c text ih =>
    have ih := ih fun other member => plain other (List.mem_cons_of_mem _ member)
    rcases plain c List.mem_cons_self with rfl | alphabetic
    · rfl
    · obtain ⟨value,found⟩ := Option.isSome_iff_exists.mp alphabetic
      have read : sextet c = some value := by
        rw [sextet]
        split
        · rename_i same
          rw [same] at found
          cases found
        · split
          · rename_i same
            rw [same] at found
            cases found
          · exact found
      have goes : c ≠ '=' := by
        rintro rfl
        cases found
      rw [List.takeWhile_cons,if_pos (decide_eq_true goes),List.filterMap_cons_some read,ih,Base64.sextets,found]

theorem fromBase64_encode (bytes : Bytes) : fromBase64 (Base64.encode bytes) = bytes := by
  have plain : ∀ c ∈ Base64.encode bytes, c = '=' ∨ (Base64.inverse c).isSome = true := by
    apply Base64.encode_forall
    · intro value
      by_cases small : value < 64
      · exact .inr (by rw [Base64.inverse_symbol value small]; rfl)
      · have last : Base64.code value = 47 := by
          unfold Base64.code
          split_ifs <;> omega
        exact .inr (by rw [Base64.inverse,Base64.symbol_code,last]; rfl)
    · exact .inl rfl
  rw [fromBase64,sextets_eq plain]
  exact Base64.decode_encode bytes

end Buffer

end AtlasNet
