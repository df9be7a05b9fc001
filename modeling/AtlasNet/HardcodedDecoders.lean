import AtlasNet.ByteCursor

/-! What the map's server decodes from the bytes of heuristics, bounds, identities and
addresses, over the formats in which the servers write them. -/
namespace AtlasNet
open Foundation Foundation.Program

structure ShapeObject where
  ID : UInt32
  min : Coordinates
  max : Coordinates
deriving DecidableEq

def ShapeObject.of (quad : GridShape) : ShapeObject := ⟨quad.ID,.of quad.aabb.min,.of quad.aabb.max⟩

namespace ByteCursor

def readF32 : Program ByteCursor Number := return .ofFloat (← readU32)

def readVec3 : Program ByteCursor Coordinates := do
  let x ← readF32
  let y ← readF32
  let z ← readF32
  pure ⟨x,y,z⟩

def readGridShape : Program ByteCursor ShapeObject := do
  let ID ← readU32
  let min ← readVec3
  let max ← readVec3
  pure ⟨ID,min,max⟩

def readBounds : Nat → Program ByteCursor (List ShapeObject)
  | 0 => pure []
  | left+1 => do
    let shape ← readGridShape
    let rest ← readBounds left
    pure (shape::rest)

end ByteCursor

namespace ByteCursor

/-- The readers of the patterns below those of the numbers. -/
def bits3 : Program ByteCursor Vec3 := do
  let x ← readU32
  let y ← readU32
  let z ← readU32
  pure (x,y,z)

def aabb : Program ByteCursor AABB3f := do
  let min ← bits3
  let max ← bits3
  pure ⟨min,max⟩

def shape : Program ByteCursor GridShape := do
  let ID ← readU32
  let aabb ← aabb
  pure ⟨ID,aabb⟩

def shapes : Nat → Program ByteCursor (List GridShape)
  | 0 => pure []
  | left+1 => do
    let first ← shape
    let rest ← shapes left
    pure (first::rest)

theorem accepts_bits3 : cursor.Accepts bits3 ByteFormat.vec3 :=
  Cursor.accepts_bind accepts_readU32 (fun _ => Cursor.accepts_bind accepts_readU32 (fun _ => accepts_map _ accepts_readU32))

theorem accepts_aabb : cursor.Accepts aabb AABB3f.format :=
  Cursor.accepts_bind accepts_bits3 (fun _ => accepts_map _ accepts_bits3)

theorem accepts_shape : cursor.Accepts shape GridShape.format :=
  Cursor.accepts_bind accepts_readU32 (fun _ => accepts_map _ accepts_aabb)

theorem accepts_shapes (count : Nat) : cursor.Accepts (shapes count) (GridShape.format.times count) := by
  induction count with
  | zero => exact Cursor.accepts_pure _
  | succ count ih => exact Cursor.accepts_bind accepts_shape (fun _ => accepts_map _ ih)

theorem readVec3_eq : readVec3 = do return .of (← bits3) := by
  simp only [readVec3,readF32,bits3,bind_assoc,pure_bind]
  rfl

theorem readGridShape_eq : readGridShape = do return .of (← shape) := by
  simp only [readGridShape,readVec3_eq,shape,aabb,bind_assoc,pure_bind]
  rfl

theorem readBounds_eq (count : Nat) : readBounds count = do return (← shapes count).map .of := by
  induction count with
  | zero => rfl
  | succ count ih =>
    simp only [readBounds,shapes,readGridShape_eq,ih,bind_assoc,pure_bind]
    rfl

theorem accepts_readGridShape : cursor.Accepts readGridShape (do return .of (← GridShape.format)) := by
  rw [readGridShape_eq]
  exact accepts_map _ accepts_shape

theorem accepts_readBounds (count : Nat) :
    cursor.Accepts (readBounds count) (do return (← GridShape.format.times count).map .of) := by
  rw [readBounds_eq]
  exact accepts_map _ (accepts_shapes count)

end ByteCursor

/-- A decoded structure, or what is shown of bytes that are none, as text or as a preview. -/
inductive Decoded
  | GridHeuristic (boundsCount : Nat) (bounds : List ShapeObject)
  | GridShape (shape : ShapeObject)
  | vec3 (value : Coordinates)
  | shown (raw : Bytes)
deriving DecidableEq

/-- A decoded text, with a warning for bytes behind it, or what is shown of other bytes. -/
inductive DecodedText
  | text (chars : List Char)
  | trailing (chars : List Char) (remaining : Nat)
  | shown (raw : Bytes)
deriving DecidableEq

namespace HardcodedDecoders
open ByteCursor

/-- As a number the count may be rounded, but not across the limit. -/
def readHeuristicData (raw : Bytes) : Program ByteCursor Decoded := do
  let count := (← readU64).toNat
  let cursor ← get
  if 100000 < count ∨ cursor.remaining < count*(4+12+12) then pure (.shown raw)
  else
    let bounds ← readBounds count
    let cursor ← get
    if cursor.remaining ≠ 0 then pure (.shown raw) else pure (.GridHeuristic count bounds)

def decodeHeuristicDataBase64 (base64Value : List Char) : Decoded :=
  if base64Value = [] then .shown []
  else
    let raw := Buffer.fromBase64 base64Value
    match (exec (readHeuristicData raw) {buffer := raw}).1 with
    | .ok decoded => decoded
    | .error _ => .shown raw

def tryDecodeGridShapeBoundsRaw (raw : Bytes) : Option ShapeObject :=
  match exec readGridShape {buffer := raw} with
  | (.ok shape,cursor) => if cursor.remaining ≠ 0 then none else some shape
  | (.error _,_) => none

def tryDecodeVec3Raw (raw : Bytes) : Option Coordinates :=
  if raw.length ≠ 12 then none else (exec readVec3 {buffer := raw}).1.toOption

def decodeBoundsDataBase64 (base64Value : List Char) : Decoded :=
  if base64Value = [] then .shown []
  else
    let raw := Buffer.fromBase64 base64Value
    match tryDecodeGridShapeBoundsRaw raw,tryDecodeVec3Raw raw with
    | some shape,_ => .GridShape shape
    | none,some value => .vec3 value
    | none,none => .shown raw

def NETWORK_IDENTITY_TYPE_NAME_BY_CODE : List (UInt32 × String) :=
  [(0,"invalid"),(1,"shard"),(2,"watchdog"),(3,"cartograph"),(4,"gameClient"),(6,"proxy"),(7,"atlasNetInitial")]

def typeName (typeCode : UInt32) : List Char :=
  match NETWORK_IDENTITY_TYPE_NAME_BY_CODE.lookup typeCode with
  | some name => name.toList
  | none => "unknown(".toList ++ Nat.toDigits 10 typeCode.toNat ++ [')']

def readNetworkIdentity : Program ByteCursor DecodedText := do
  let typeCode ← readU32
  let id := formatUuid (← readBytes 16)
  let cursor ← get
  if 0 < cursor.remaining then pure (.trailing [] cursor.remaining)
  else pure (.text (typeName typeCode ++ ':'::id))

def decodeNetworkIdentityValue (value : Bytes) : DecodedText :=
  match (exec readNetworkIdentity {buffer := value}).1 with
  | .ok decoded => decoded
  | .error _ => .shown value

def octets (ipv4 : UInt32) : List UInt32 :=
  [(ipv4 >>> 24) &&& 0xff,(ipv4 >>> 16) &&& 0xff,(ipv4 >>> 8) &&& 0xff,ipv4 &&& 0xff]

def readIpAddress : Program ByteCursor DecodedText := do
  let isIpv4 ← readU8
  let port ← readU16
  if isIpv4 = 0 then pure (.text ("ip=<non-ipv4> port=".toList ++ Nat.toDigits 10 port.toNat))
  else
    let ipv4 ← readU32
    let out := List.intercalate ['.'] ((octets ipv4).map fun octet => Nat.toDigits 10 octet.toNat) ++
      ':'::Nat.toDigits 10 port.toNat
    let cursor ← get
    if 0 < cursor.remaining then pure (.trailing out cursor.remaining) else pure (.text out)

def decodeIpAddressValue (value : Bytes) : DecodedText :=
  match (exec readIpAddress {buffer := value}).1 with
  | .ok decoded => decoded
  | .error _ => .shown value

end HardcodedDecoders

namespace PureDatabaseTelemetry

def readUInt32BE (raw : Bytes) (offset : Nat) : UInt32 := UInt32.ofNat (BigEndian.decode ((raw.drop offset).take 4))

def readFloatBE (raw : Bytes) (offset : Nat) : Number := .ofFloat (readUInt32BE raw offset)

def NETWORK_IDENTITY_TYPE_BY_CODE : List (UInt32 × String) :=
  [(0,"eInvalid"),(1,"eShard"),(2,"eWatchDog"),(3,"eCartograph"),(4,"eGameClient"),(6,"eProxy"),(7,"eAtlasNetInitial")]

def typeName (typeCode : UInt32) : List Char :=
  match NETWORK_IDENTITY_TYPE_BY_CODE.lookup typeCode with
  | some name => name.toList
  | none => "eUnknown(".toList ++ Nat.toDigits 10 typeCode.toNat ++ [')']

def decodeNetworkIdentity (buffer : Bytes) : DecodedText :=
  if buffer.length < 20 then .shown buffer
  else
    let typeName := typeName (readUInt32BE buffer 0)
    let id := formatUuid ((buffer.drop 4).take 16)
    let isNilId := id = "00000000-0000-0000-0000-000000000000".toList
    if isNilId then .text typeName else .text (typeName ++ ' '::id)

def GRID_SHAPE_SERIALIZED_SIZE_BYTES : Nat := 28

def decodeGridShapeBounds (base64Value : List Char) : Option ShapeObject :=
  if base64Value = [] then none
  else
    let raw := Buffer.fromBase64 base64Value
    if raw.length < GRID_SHAPE_SERIALIZED_SIZE_BYTES then none
    else some {
      ID := readUInt32BE raw 0
      min := ⟨readFloatBE raw 4,readFloatBE raw 8,readFloatBE raw 12⟩
      max := ⟨readFloatBE raw 16,readFloatBE raw 20,readFloatBE raw 24⟩}

end PureDatabaseTelemetry

section Formats

theorem u32_length {word : Bytes} {value : UInt32} (stands : ByteFormat.u32 word value) :
    word.length = 4 ∧ value = UInt32.ofNat (BigEndian.decode word) := by
  obtain ⟨first,_,_,rfl,⟨long,rfl⟩,rfl,rfl⟩ := stands
  rw [List.append_nil]
  exact ⟨long,rfl⟩

theorem shape_words {word : Bytes} {quad : GridShape} (stands : GridShape.format word quad) :
    ∃ ID a b c d e f : Bytes, word = ID ++ (a ++ (b ++ (c ++ (d ++ (e ++ f))))) ∧ ByteFormat.u32 ID quad.ID ∧
      ByteFormat.u32 a quad.aabb.min.1 ∧ ByteFormat.u32 b quad.aabb.min.2.1 ∧ ByteFormat.u32 c quad.aabb.min.2.2 ∧
      ByteFormat.u32 d quad.aabb.max.1 ∧ ByteFormat.u32 e quad.aabb.max.2.1 ∧ ByteFormat.u32 f quad.aabb.max.2.2 := by
  obtain ⟨ID,_,_,rfl,first,_,_,_,rfl,⟨_,_,_,rfl,⟨a,_,_,rfl,x,b,_,_,rfl,y,c,_,_,rfl,z,rfl,rfl⟩,
    _,_,_,rfl,⟨d,_,_,rfl,u,e,_,_,rfl,v,f,_,_,rfl,w,rfl,rfl⟩,rfl,rfl⟩,rfl,rfl⟩ := stands
  refine ⟨ID,a,b,c,d,e,f,?_,first,x,y,z,u,v,w⟩
  simp only [List.append_nil,List.append_assoc]

theorem shape_length {word : Bytes} {quad : GridShape} (stands : GridShape.format word quad) : word.length = 28 := by
  obtain ⟨ID,a,b,c,d,e,f,rfl,first,x,y,z,u,v,w⟩ := shape_words stands
  simp only [List.length_append,(u32_length first).1,(u32_length x).1,(u32_length y).1,(u32_length z).1,(u32_length u).1,
    (u32_length v).1,(u32_length w).1]

theorem shapes_length {count : Nat} {word : Bytes} {quads : List GridShape} (stands : GridShape.format.times count word quads) :
    word.length = count*28 := by
  induction count generalizing word quads with
  | zero =>
    obtain ⟨rfl,_⟩ := stands
    rfl
  | succ count ih =>
    obtain ⟨first,_,_,rfl,head,rest,_,_,rfl,tail,rfl,_⟩ := stands
    rw [List.append_nil,List.length_append,shape_length head,ih tail]
    omega

end Formats

namespace HardcodedDecoders
open ByteCursor

theorem remaining_eq (front back : Bytes) : ByteCursor.remaining {buffer := front ++ back,offset := front.length} = back.length := by
  rw [ByteCursor.remaining,List.length_append,Nat.add_sub_cancel_left]

theorem remaining_end (front back : Bytes) :
    ByteCursor.remaining {buffer := front ++ back,offset := front.length+back.length} = 0 := by
  rw [ByteCursor.remaining,List.length_append,Nat.sub_self]

theorem heuristic_words (h : GridHeuristic) : ∃ count words : Bytes, (h.Serialize {}).buf = count ++ words ∧
    ByteFormat.u64 count (UInt64.ofNat h.quads.length) ∧ GridShape.format.times h.quads.length words h.quads := by
  obtain ⟨words,appends,stands⟩ := written_times h.quads (fun quad _ => quad.written)
  exact ⟨_,words,congrArg ByteWriter.buf (appends _),written_buf (ByteWriter.written_u64 _),stands⟩

theorem readHeuristicData_words {raw count words : Bytes} {h : GridHeuristic} (few : h.quads.length ≤ 100000)
    (here : raw = count ++ words) (counts : ByteFormat.u64 count (UInt64.ofNat h.quads.length))
    (stands : GridShape.format.times h.quads.length words h.quads) :
    (exec (readHeuristicData raw) {buffer := raw}).1 = .ok (.GridHeuristic h.quads.length (h.quads.map .of)) := by
  have counted := exec_front accepts_readU64 counts [] words
  have number : (UInt64.ofNat h.quads.length).toNat = h.quads.length := by
    rw [UInt64.toNat_ofNat',Nat.mod_eq_of_lt (by omega)]
  have objects : (do return (← GridShape.format.times h.quads.length).map ShapeObject.of : Format UInt8 (List ShapeObject))
      words (h.quads.map .of) := ⟨words,[],h.quads,(List.append_nil _).symm,stands,rfl,rfl⟩
  have bounds := exec_front (accepts_readBounds h.quads.length) objects count []
  have long := shapes_length stands
  rw [List.append_nil] at bounds
  simp only [List.nil_append,List.length_nil,Nat.zero_add] at counted
  rw [readHeuristicData,here,exec_bind_ok _ _ _ _ _ counted,exec_get_bind,number,remaining_eq,long,
    if_neg (by omega),exec_bind_ok _ _ _ _ _ bounds,exec_get_bind]
  rw [if_neg (not_not.mpr (remaining_end count words))]
  rfl

/-- No decoded heuristic has more bounds than the limit. -/
theorem readHeuristicData_limit {raw : Bytes} {c : ByteCursor} {count : Nat} {bounds : List ShapeObject}
    (ran : (exec (readHeuristicData raw) c).1 = .ok (.GridHeuristic count bounds)) : count ≤ 100000 := by
  obtain ⟨number,middle,_,ran⟩ := bind_returned _ _ _ _ _ (Prod.ext ran rfl)
  rw [exec_get_bind] at ran
  split at ran
  · cases (Prod.mk.inj ran).1
  · rename_i within
    obtain ⟨list,last,_,ran⟩ := bind_returned _ _ _ _ _ ran
    rw [exec_get_bind] at ran
    split at ran
    · cases (Prod.mk.inj ran).1
    · cases (Prod.mk.inj ran).1
      omega

theorem decodeHeuristicDataBase64_iff (h : GridHeuristic) :
    decodeHeuristicDataBase64 (Base64.encode (h.Serialize {}).buf) = .GridHeuristic h.quads.length (h.quads.map .of) ↔
      h.quads.length ≤ 100000 := by
  have some : Base64.encode (h.Serialize {}).buf ≠ [] := Base64.encode_nonempty _ h.Serialize_nonempty
  rw [decodeHeuristicDataBase64,if_neg some,Buffer.fromBase64_encode]
  constructor
  · intro decoded
    dsimp only at decoded
    split at decoded
    · rename_i ran
      exact readHeuristicData_limit (ran.trans (congrArg Except.ok decoded))
    · cases decoded
  · intro few
    obtain ⟨count,words,here,counts,stands⟩ := heuristic_words h
    dsimp only
    rw [readHeuristicData_words few here counts stands]

theorem decodeHeuristicDataBase64_overlong {h : GridHeuristic} (many : 100000 < h.quads.length) (countable : h.quads.length < 2^64) :
    decodeHeuristicDataBase64 (Base64.encode (h.Serialize {}).buf) = .shown (h.Serialize {}).buf := by
  obtain ⟨count,words,here,counts,_⟩ := heuristic_words h
  have counted := exec_front accepts_readU64 counts [] words
  have number : (UInt64.ofNat h.quads.length).toNat = h.quads.length := by
    rw [UInt64.toNat_ofNat',Nat.mod_eq_of_lt countable]
  simp only [List.nil_append,List.length_nil,Nat.zero_add] at counted
  rw [decodeHeuristicDataBase64,if_neg (Base64.encode_nonempty _ h.Serialize_nonempty),Buffer.fromBase64_encode]
  dsimp only
  rw [here,readHeuristicData,exec_bind_ok _ _ _ _ _ counted,exec_get_bind,number,if_pos (.inl many)]
  rfl

theorem readGridShape_words (quad : GridShape) (rest : Bytes) :
    exec readGridShape {buffer := (quad.Serialize {}).buf ++ rest} =
      (.ok (.of quad),{buffer := (quad.Serialize {}).buf ++ rest,offset := (quad.Serialize {}).buf.length}) := by
  have stands : (do return ShapeObject.of (← GridShape.format) : Format UInt8 ShapeObject) (quad.Serialize {}).buf (.of quad) :=
    ⟨_,[],quad,(List.append_nil _).symm,written_buf quad.written,rfl,rfl⟩
  have ran := exec_front accepts_readGridShape stands [] rest
  simpa only [List.nil_append,List.length_nil,Nat.zero_add] using ran

theorem tryDecodeGridShapeBoundsRaw_words (quad : GridShape) (rest : Bytes) :
    tryDecodeGridShapeBoundsRaw ((quad.Serialize {}).buf ++ rest) = if rest = [] then some (.of quad) else none := by
  rw [tryDecodeGridShapeBoundsRaw,readGridShape_words]
  dsimp only
  rw [remaining_eq]
  cases rest with
  | nil => rfl
  | cons byte rest => rfl

theorem decodeBoundsDataBase64_iff (quad : GridShape) (rest : Bytes) (shape : ShapeObject) :
    decodeBoundsDataBase64 (Base64.encode ((quad.Serialize {}).buf ++ rest)) = .GridShape shape ↔
      rest = [] ∧ shape = .of quad := by
  have some : Base64.encode ((quad.Serialize {}).buf ++ rest) ≠ [] :=
    Base64.encode_nonempty _ (List.append_ne_nil_of_left_ne_nil (quad.Serialize_nonempty {}) _)
  rw [decodeBoundsDataBase64,if_neg some,Buffer.fromBase64_encode]
  dsimp only
  rw [tryDecodeGridShapeBoundsRaw_words]
  by_cases alone : rest = []
  · rw [if_pos alone]
    exact ⟨fun decoded => ⟨alone,(Decoded.GridShape.inj decoded).symm⟩,fun same => congrArg Decoded.GridShape same.2.symm⟩
  · rw [if_neg alone]
    refine ⟨fun decoded => ?_,fun none => absurd none.1 alone⟩
    cases tryDecodeVec3Raw ((quad.Serialize {}).buf ++ rest) with
    | none => cases decoded
    | some value => cases decoded

end HardcodedDecoders

namespace PureDatabaseTelemetry
open ByteCursor

theorem exec_readU32 (raw : Bytes) (offset : Nat) (fits : offset+4 ≤ raw.length) :
    exec readU32 {buffer := raw,offset} = (.ok (readUInt32BE raw offset),{buffer := raw,offset := offset+4}) := by
  have read : exec (readBytes 4) {buffer := raw,offset} = (.ok ((raw.drop offset).take 4),{buffer := raw,offset := offset+4}) := by
    rw [readBytes,exec_get_bind,exec_throwIf,if_neg (Nat.not_lt.mpr fits)]
    rfl
  have number : exec (readUInt 4) {buffer := raw,offset} =
      (.ok (BigEndian.decode ((raw.drop offset).take 4)),{buffer := raw,offset := offset+4}) := by
    rw [readUInt,exec_bind_ok _ _ _ _ _ read]
    rfl
  rw [readU32,exec_bind_ok _ _ _ _ _ number]
  rfl

theorem exec_bits3 (raw : Bytes) (offset : Nat) (fits : offset+12 ≤ raw.length) :
    exec bits3 {buffer := raw,offset} = (.ok (readUInt32BE raw offset,readUInt32BE raw (offset+4),readUInt32BE raw (offset+8)),
      {buffer := raw,offset := offset+12}) := by
  rw [bits3,exec_bind_ok _ _ _ _ _ (exec_readU32 raw offset (by omega)),
    exec_bind_ok _ _ _ _ _ (exec_readU32 raw (offset+4) (by omega)),
    exec_bind_ok _ _ _ _ _ (exec_readU32 raw (offset+8) (by omega))]
  rfl

/-- The reads at fixed offsets give what the cursor gives. -/
theorem readGridShape_offsets {raw : Bytes} (long : 28 ≤ raw.length) :
    (exec readGridShape {buffer := raw}).1 = .ok {
      ID := readUInt32BE raw 0
      min := ⟨readFloatBE raw 4,readFloatBE raw 8,readFloatBE raw 12⟩
      max := ⟨readFloatBE raw 16,readFloatBE raw 20,readFloatBE raw 24⟩} := by
  have box : exec aabb {buffer := raw,offset := 4} = (.ok ⟨(readUInt32BE raw 4,readUInt32BE raw 8,readUInt32BE raw 12),
      (readUInt32BE raw 16,readUInt32BE raw 20,readUInt32BE raw 24)⟩,{buffer := raw,offset := 28}) := by
    rw [aabb,exec_bind_ok _ _ _ _ _ (exec_bits3 raw 4 (by omega)),exec_bind_ok _ _ _ _ _ (exec_bits3 raw 16 (by omega))]
    rfl
  have whole : exec shape {buffer := raw} = (.ok ⟨readUInt32BE raw 0,(readUInt32BE raw 4,readUInt32BE raw 8,readUInt32BE raw 12),
      (readUInt32BE raw 16,readUInt32BE raw 20,readUInt32BE raw 24)⟩,{buffer := raw,offset := 28}) := by
    rw [shape,exec_bind_ok _ _ _ _ _ (exec_readU32 raw 0 (by omega)),exec_bind_ok _ _ _ _ _ box]
    rfl
  rw [readGridShape_eq,exec_bind_ok _ _ _ _ _ whole]
  rfl

theorem decodeGridShapeBounds_words (quad : GridShape) (rest : Bytes) :
    decodeGridShapeBounds (Base64.encode ((quad.Serialize {}).buf ++ rest)) = some (.of quad) := by
  have nonempty : Base64.encode ((quad.Serialize {}).buf ++ rest) ≠ [] :=
    Base64.encode_nonempty _ (List.append_ne_nil_of_left_ne_nil (quad.Serialize_nonempty {}) _)
  have long : 28 ≤ ((quad.Serialize {}).buf ++ rest).length := by
    rw [List.length_append,shape_length (written_buf quad.written)]
    exact Nat.le_add_right _ _
  have same := (readGridShape_offsets long).symm.trans (congrArg Prod.fst (HardcodedDecoders.readGridShape_words quad rest))
  rw [decodeGridShapeBounds,if_neg nonempty,Buffer.fromBase64_encode]
  dsimp only
  rw [GRID_SHAPE_SERIALIZED_SIZE_BYTES,if_neg (Nat.not_lt.mpr long)]
  exact congrArg some (Except.ok.inj same)

end PureDatabaseTelemetry

namespace HardcodedDecoders
open ByteCursor PureDatabaseTelemetry

/-- A bound of a pushed heuristic is decoded when no other has its ID. -/
theorem decodeBounds_writer {h : GridHeuristic} {w : BoundsID × ByteWriter} {quad : GridShape} (written : w ∈ h.SerializeBounds)
    (member : quad ∈ h.quads) (identified : quad.ID = w.1) :
    (decodeBoundsDataBase64 (Base64.encode w.2.buf) = .GridShape (.of quad) ↔ (h.quads.filter (·.ID = quad.ID)).length = 1) ∧
      ((h.quads.filter (·.ID = quad.ID)).length = 1 → decodeGridShapeBounds (Base64.encode w.2.buf) = some (.of quad)) := by
  have collects := GridHeuristic.SerializeBounds_collects h w written
  rw [GridHeuristic.Collects,← identified] at collects
  have own : quad ∈ h.quads.filter (·.ID = quad.ID) := List.mem_filter.mpr ⟨member,decide_eq_true rfl⟩
  cases shapes : h.quads.filter (·.ID = quad.ID) with
  | nil =>
    rw [shapes] at own
    cases own
  | cons first others =>
    rw [shapes] at own collects
    rw [collects,List.flatMap_cons]
    cases others with
    | nil =>
      obtain rfl := List.mem_singleton.mp own
      exact ⟨⟨fun _ => rfl,fun _ => (decodeBoundsDataBase64_iff quad _ _).mpr ⟨rfl,rfl⟩⟩,
        fun _ => decodeGridShapeBounds_words quad _⟩
    | cons other others =>
      have behind : (other::others).flatMap (fun quad => (quad.Serialize {}).buf) ≠ [] := by
        rw [List.flatMap_cons]
        exact List.append_ne_nil_of_left_ne_nil (other.Serialize_nonempty {}) _
      have several : ¬ (first::other::others).length = 1 := by simp
      refine ⟨⟨fun decoded => ?_,fun one => absurd one several⟩,fun one => absurd one several⟩
      exact absurd ((decodeBoundsDataBase64_iff first _ _).mp decoded).1 behind

/-- The types that have a name. -/
def declaredTypes : List NetworkIdentityType := [.eInvalid,.eShard,.eWatchDog,.eCartograph,.eGameClient,.eProxy,.eAtlasNetInitial]

theorem to_string_length : (id : UUID) → id.to_string.length = 36
  | ⟨[_,_,_,_,_,_,_,_,_,_,_,_,_,_,_,_],_⟩ => rfl

theorem decodeNetworkIdentityValue_Serialize (id : NetworkIdentity) :
    decodeNetworkIdentityValue (id.Serialize {}).buf = .text (typeName id.type.code.toUInt32 ++ ':'::id.ID.to_string) := by
  have bytes : (id.Serialize {}).buf = (ByteWriter.u32 id.type.code.toUInt32 {}).buf ++ id.ID.data := rfl
  have code := exec_front accepts_readU32 (written_buf (ByteWriter.written_u32 id.type.code.toUInt32)) [] id.ID.data
  simp only [List.nil_append,List.length_nil,Nat.zero_add] at code
  have uuid := exec_front (accepts_readBytes 16) (⟨id.ID.size,rfl⟩ : bytesOf 16 id.ID.data id.ID.data)
    (ByteWriter.u32 id.type.code.toUInt32 {}).buf []
  rw [List.append_nil] at uuid
  rw [decodeNetworkIdentityValue,bytes,readNetworkIdentity,exec_bind_ok _ _ _ _ _ code,exec_bind_ok _ _ _ _ _ uuid,exec_get_bind,
    remaining_end,if_neg (Nat.lt_irrefl 0),formatUuid_to_string]
  rfl

/-- The name of a type is its enumerator's, but for the letter before it and for capitals. -/
theorem typeName_declared : ∀ type ∈ declaredTypes,
    ('e'::typeName type.code.toUInt32).map Char.toLower = type.enum_to_string.map Char.toLower := by decide

theorem typeName_injective : ∀ a ∈ declaredTypes, ∀ b ∈ declaredTypes,
    typeName a.code.toUInt32 = typeName b.code.toUInt32 → a = b := by decide

theorem decodeNetworkIdentityValue_injective {a b : NetworkIdentity} (first : a.type ∈ declaredTypes) (second : b.type ∈ declaredTypes)
    (same : decodeNetworkIdentityValue (a.Serialize {}).buf = decodeNetworkIdentityValue (b.Serialize {}).buf) : a = b := by
  rw [decodeNetworkIdentityValue_Serialize,decodeNetworkIdentityValue_Serialize] at same
  obtain ⟨names,ids⟩ := List.append_inj' (DecodedText.text.inj same) (by simp [to_string_length])
  have ID := UUID.to_string_injective a.ID b.ID (List.cons.inj ids).2
  have type := typeName_injective a.type first b.type second names
  obtain ⟨_,_⟩ := a
  obtain ⟨_,_⟩ := b
  subst ID type
  rfl

theorem low_octet (v : UInt32) : (v &&& 0xff).toNat = v.toNat % 256 :=
  (UInt32.toNat_and v 0xff).trans (Nat.and_two_pow_sub_one_eq_mod v.toNat 8)

theorem shift_octet (v k : UInt32) (small : k.toNat < 32) : ((v >>> k) &&& 0xff).toNat = v.toNat / 2^k.toNat % 256 := by
  rw [low_octet,UInt32.toNat_shiftRight,Nat.mod_eq_of_lt small,Nat.shiftRight_eq_div_pow]

theorem octets_GetIPv4 {address : IPAddress} (size : address.m_ipv6.length = 16) :
    (octets address.GetIPv4).map (·.toNat) = (address.m_ipv6.drop 12).map (·.toNat) := by
  have four : (address.m_ipv6.drop 12).length = 4 := by rw [List.length_drop,size]
  rw [IPAddress.GetIPv4]
  obtain ⟨a,b,c,d,bytes⟩ := List.length_eq_four.mp four
  rw [bytes]
  have boundA := a.toNat_lt
  have boundB := b.toNat_lt
  have boundC := c.toNat_lt
  have boundD := d.toNat_lt
  have number : (UInt32.ofNat (BigEndian.decode [a,b,c,d])).toNat = a.toNat*2^24+b.toNat*2^16+c.toNat*2^8+d.toNat := by
    rw [UInt32.toNat_ofNat']
    simp only [BigEndian.decode,BigEndian.accumulate,List.foldl_cons,List.foldl_nil]
    omega
  have first : ((UInt32.ofNat (BigEndian.decode [a,b,c,d]) >>> 24) &&& 0xff).toNat = a.toNat := by
    rw [shift_octet _ 24 (by decide),number]
    change _ / 2^24 % 256 = _
    omega
  have second : ((UInt32.ofNat (BigEndian.decode [a,b,c,d]) >>> 16) &&& 0xff).toNat = b.toNat := by
    rw [shift_octet _ 16 (by decide),number]
    change _ / 2^16 % 256 = _
    omega
  have third : ((UInt32.ofNat (BigEndian.decode [a,b,c,d]) >>> 8) &&& 0xff).toNat = c.toNat := by
    rw [shift_octet _ 8 (by decide),number]
    change _ / 2^8 % 256 = _
    omega
  have last : (UInt32.ofNat (BigEndian.decode [a,b,c,d]) &&& 0xff).toNat = d.toNat := by
    rw [low_octet,number]
    omega
  simp only [octets,List.map_cons,List.map_nil,first,second,third,last]

theorem decodeIpAddressValue_Serialize {address : IPAddress} (size : address.m_ipv6.length = 16) (v4 : address.IsIPv4 = true) :
    ∃ bw, exec (address.Serialize {}) () = (.ok bw,()) ∧ decodeIpAddressValue bw.buf =
      .text (List.intercalate ['.'] ((address.m_ipv6.drop 12).map fun byte => Nat.toDigits 10 byte.toNat) ++
        ':'::Nat.toDigits 10 address.m_port.toNat) := by
  refine ⟨_,by rw [IPAddress.Serialize,if_pos v4]; rfl,?_⟩
  let flag := (ByteWriter.u8 1 {}).buf
  let port := (ByteWriter.u16 address.m_port {}).buf
  let ipv4 := (ByteWriter.u32 address.GetIPv4 {}).buf
  have bytes : (((ByteWriter.u8 1 {}).u16 address.m_port).u32 address.GetIPv4).buf = flag ++ (port ++ ipv4) := rfl
  have first := exec_front accepts_readU8 (written_buf (ByteWriter.written_u8 1)) [] (port ++ ipv4)
  have second := exec_front accepts_readU16 (written_buf (ByteWriter.written_u16 address.m_port)) flag ipv4
  have third := exec_front accepts_readU32 (written_buf (ByteWriter.written_u32 address.GetIPv4)) (flag ++ port) []
  simp only [List.nil_append,List.length_nil,Nat.zero_add] at first
  rw [List.append_nil,List.length_append,List.append_assoc] at third
  have ended : ByteCursor.remaining {buffer := flag ++ (port ++ ipv4),offset := flag.length+port.length+ipv4.length} = 0 := by
    rw [ByteCursor.remaining,List.length_append,List.length_append,Nat.add_assoc,Nat.sub_self]
  have digits : (octets address.GetIPv4).map (fun octet => Nat.toDigits 10 octet.toNat) =
      (address.m_ipv6.drop 12).map fun byte => Nat.toDigits 10 byte.toNat := by
    have same := congrArg (List.map (Nat.toDigits 10)) (octets_GetIPv4 size)
    rw [List.map_map,List.map_map] at same
    exact same
  rw [bytes,decodeIpAddressValue,readIpAddress,exec_bind_ok _ _ _ _ _ first,exec_bind_ok _ _ _ _ _ second,if_neg (by decide),
    exec_bind_ok _ _ _ _ _ third]
  dsimp only
  rw [exec_get_bind,ended,if_neg (Nat.lt_irrefl 0),digits]
  rfl

/-- A heuristic is decoded if and only if it is within the decoder's limit, and so is a bound that
`SerializeBounds` wrote if and only if no other has its ID; every bound that was written alone,
every identity of a declared type and every address is decoded to what it is. -/
theorem decoders_agree :
    (∀ h : GridHeuristic, decodeHeuristicDataBase64 (Base64.encode (h.Serialize {}).buf) =
      .GridHeuristic h.quads.length (h.quads.map .of) ↔ h.quads.length ≤ 100000) ∧
    (∀ (h : GridHeuristic), ∀ w ∈ h.SerializeBounds, ∀ quad ∈ h.quads, quad.ID = w.1 →
      (decodeBoundsDataBase64 (Base64.encode w.2.buf) = .GridShape (.of quad) ↔ (h.quads.filter (·.ID = quad.ID)).length = 1) ∧
      ((h.quads.filter (·.ID = quad.ID)).length = 1 → decodeGridShapeBounds (Base64.encode w.2.buf) = some (.of quad))) ∧
    (∀ quad : GridShape, decodeBoundsDataBase64 (Base64.encode (quad.Serialize {}).buf) = .GridShape (.of quad) ∧
      decodeGridShapeBounds (Base64.encode (quad.Serialize {}).buf) = some (.of quad)) ∧
    (∀ id : NetworkIdentity, id.type ∈ declaredTypes → decodeNetworkIdentityValue (id.Serialize {}).buf =
        .text (typeName id.type.code.toUInt32 ++ ':'::id.ID.to_string) ∧
      ('e'::typeName id.type.code.toUInt32).map Char.toLower = id.type.enum_to_string.map Char.toLower ∧
      ∀ other : NetworkIdentity, other.type ∈ declaredTypes →
        decodeNetworkIdentityValue (other.Serialize {}).buf = decodeNetworkIdentityValue (id.Serialize {}).buf → other = id) ∧
    ∀ address : IPAddress, address.m_ipv6.length = 16 → address.IsIPv4 = true →
      ∃ bw, exec (address.Serialize {}) () = (.ok bw,()) ∧ decodeIpAddressValue bw.buf =
        .text (List.intercalate ['.'] ((address.m_ipv6.drop 12).map fun byte => Nat.toDigits 10 byte.toNat) ++
          ':'::Nat.toDigits 10 address.m_port.toNat) := by
  refine ⟨decodeHeuristicDataBase64_iff,?_,?_,?_,?_⟩
  · exact fun h w written quad member identified => decodeBounds_writer written member identified
  · intro quad
    have bounds := (decodeBoundsDataBase64_iff quad [] (.of quad)).mpr ⟨rfl,rfl⟩
    have shapes := decodeGridShapeBounds_words quad []
    rw [List.append_nil] at bounds shapes
    exact ⟨bounds,shapes⟩
  · intro id declared
    exact ⟨decodeNetworkIdentityValue_Serialize id,typeName_declared id.type declared,
      fun other known same => decodeNetworkIdentityValue_injective known declared same⟩
  · exact fun address size v4 => decodeIpAddressValue_Serialize size v4

theorem decoders_agree_Compute :
    decodeHeuristicDataBase64 (Base64.encode ((GridHeuristic.Compute {}).Serialize {}).buf) =
      .GridHeuristic 4 ((GridHeuristic.Compute {}).quads.map .of) ∧
    decodeNetworkIdentityValue (NetworkIdentity.MakeIDWatchDog.Serialize {}).buf =
      .text "watchdog:00000000-0000-0000-0000-000000000000".toList := by
  obtain ⟨heuristics,_,_,identities,_⟩ := decoders_agree
  exact ⟨(heuristics (GridHeuristic.Compute {})).mpr (by decide),(identities .MakeIDWatchDog (by decide)).1⟩

def overlong : GridHeuristic := ⟨List.replicate 100001 (GridHeuristic.quad 0)⟩

/-- A heuristic with more quads than the limit is shown as bytes, and two quads of one ID are
not decoded as a bound. -/
theorem beyond_limits :
    decodeHeuristicDataBase64 (Base64.encode (overlong.Serialize {}).buf) = .shown (overlong.Serialize {}).buf ∧
    decodeHeuristicDataBase64 (Base64.encode (overlong.Serialize {}).buf) ≠
      .GridHeuristic overlong.quads.length (overlong.quads.map .of) ∧
    ∀ w ∈ GridHeuristic.SerializeBounds ⟨[GridHeuristic.quad 0,GridHeuristic.quad 0]⟩,
      decodeBoundsDataBase64 (Base64.encode w.2.buf) ≠ .GridShape (.of (GridHeuristic.quad 0)) := by
  have long : overlong.quads.length = 100001 := List.length_replicate
  have shown : decodeHeuristicDataBase64 (Base64.encode (overlong.Serialize {}).buf) = .shown (overlong.Serialize {}).buf :=
    decodeHeuristicDataBase64_overlong (by rw [long]; decide) (by rw [long]; decide)
  refine ⟨shown,fun decoded => ?_,fun w written decoded => ?_⟩
  · cases shown.symm.trans decoded
  · have identified : (GridHeuristic.quad 0).ID = w.1 := (List.mem_singleton.mp
      (show w.1 ∈ [(GridHeuristic.quad 0).ID] from List.mem_map.mpr ⟨w,written,rfl⟩)).symm
    have one := (decodeBounds_writer written List.mem_cons_self identified).1.mp decoded
    exact absurd one (by decide)

end HardcodedDecoders

end AtlasNet
