import AtlasNet.Foundation.Program
import AtlasNet.Foundation.BigEndian
import AtlasNet.Foundation.Base64
import Mathlib.Data.List.TakeWhile

/-! The byte writer and the byte reader. Sizes are `size_t` and wrap modulo 2^64;
floating-point values are their bit patterns. -/
namespace AtlasNet
open Foundation Foundation.Program

abbrev Bytes := List UInt8

/-- `boost::uuids::uuid`. -/
structure UUID where
  data : Bytes
  size : data.length = 16
deriving DecidableEq

def UUID.nil : UUID := ⟨List.replicate 16 0,rfl⟩

def UUID.is_nil (id : UUID) : Bool := id.data.all (· == 0)

theorem UUID.ext_data (a b : UUID) (same : a.data = b.data) : a = b := by
  cases a
  cases b
  cases same
  rfl

theorem UUID.is_nil_iff (id : UUID) : id.is_nil = true ↔ id = UUID.nil := by
  constructor
  · intro zero
    apply UUID.ext_data
    exact List.eq_replicate_iff.mpr ⟨id.size,fun byte member => by
      simpa using (List.all_eq_true.mp zero) byte member⟩
  · rintro rfl
    rfl

structure Quat where
  w : UInt32
  x : UInt32
  y : UInt32
  z : UInt32

inductive Integral
  | u8 | u16 | u32 | u64 | i8 | i16 | i32 | i64

def Integral.Value : Integral → Type
  | u8 => UInt8
  | u16 => UInt16
  | u32 => UInt32
  | u64 => UInt64
  | i8 => Int8
  | i16 => Int16
  | i32 => Int32
  | i64 => Int64

/-- The types of `write_scalar`; the value of an enumeration is its code. -/
inductive Scalar
  | integral (type : Integral)
  | enum (underlying : Integral)
  | f32
  | f64

def Scalar.Value : Scalar → Type
  | integral type => type.Value
  | enum underlying => underlying.Value
  | f32 => UInt32
  | f64 => UInt64

structure ByteWriter where
  buf : Bytes := []
  bitBuffer : UInt64 := 0
  bitPos : UInt8 := 0
deriving DecidableEq

namespace ByteWriter

def write (bytes : Bytes) (bw : ByteWriter) : ByteWriter := {bw with buf := bw.buf ++ bytes}

def push_be (size value : Nat) (bw : ByteWriter) : ByteWriter :=
  bw.write (BigEndian.encode size value)

def u8 (v : UInt8) (bw : ByteWriter) : ByteWriter := bw.write [v]
def u16 (v : UInt16) (bw : ByteWriter) : ByteWriter := bw.push_be 2 v.toNat
def u32 (v : UInt32) (bw : ByteWriter) : ByteWriter := bw.push_be 4 v.toNat
def u64 (v : UInt64) (bw : ByteWriter) : ByteWriter := bw.push_be 8 v.toNat
def i8 (v : Int8) (bw : ByteWriter) : ByteWriter := bw.u8 v.toUInt8
def i16 (v : Int16) (bw : ByteWriter) : ByteWriter := bw.u16 v.toUInt16
def i32 (v : Int32) (bw : ByteWriter) : ByteWriter := bw.u32 v.toUInt32
def i64 (v : Int64) (bw : ByteWriter) : ByteWriter := bw.u64 v.toUInt64
def f32 (v : UInt32) (bw : ByteWriter) : ByteWriter := bw.u32 v
def f64 (v : UInt64) (bw : ByteWriter) : ByteWriter := bw.u64 v

/-- `write_vector<3>`; `vec3` writes the same components. -/
def vec3 (v : UInt32 × UInt32 × UInt32) (bw : ByteWriter) : ByteWriter :=
  ((bw.f32 v.1).f32 v.2.1).f32 v.2.2

def uuid (id : UUID) (bw : ByteWriter) : ByteWriter := bw.write id.data

/-- The groups of seven bits of `var_u32`, the lowest first. -/
def varint (v : Nat) : Bytes :=
  if 0x80 ≤ v then (UInt8.ofNat v ||| 0x80)::varint (v >>> 7) else [UInt8.ofNat v]
termination_by v
decreasing_by
  simp only [Nat.shiftRight_eq_div_pow]
  omega

def var_u32 (v : UInt32) (bw : ByteWriter) : ByteWriter := bw.write (varint v.toNat)

def blob (b : Bytes) (bw : ByteWriter) : ByteWriter := (bw.var_u32 (UInt32.ofNat b.length)).write b

def write_integral : (type : Integral) → type.Value → ByteWriter → ByteWriter
  | .u8 => u8
  | .u16 => u16
  | .u32 => u32
  | .u64 => u64
  | .i8 => i8
  | .i16 => i16
  | .i32 => i32
  | .i64 => i64

def write_scalar : (type : Scalar) → type.Value → ByteWriter → ByteWriter
  | .integral type => write_integral type
  | .enum underlying => write_integral underlying
  | .f32 => f32
  | .f64 => f64

def write_vector (type : Scalar) (v : List type.Value) (bw : ByteWriter) : ByteWriter :=
  v.foldl (fun bw value => write_scalar type value bw) bw

def vec2 (v : UInt32 × UInt32) (bw : ByteWriter) : ByteWriter := (bw.f32 v.1).f32 v.2
def vec4 (v : UInt32 × UInt32 × UInt32 × UInt32) (bw : ByteWriter) : ByteWriter :=
  (((bw.f32 v.1).f32 v.2.1).f32 v.2.2.1).f32 v.2.2.2
def ivec2 (v : Int32 × Int32) (bw : ByteWriter) : ByteWriter := (bw.i32 v.1).i32 v.2
def ivec3 (v : Int32 × Int32 × Int32) (bw : ByteWriter) : ByteWriter := ((bw.i32 v.1).i32 v.2.1).i32 v.2.2
def quat (q : Quat) (bw : ByteWriter) : ByteWriter := bw.vec4 (q.x,q.y,q.z,q.w)

/-- The components in the order of `glm::value_ptr`. -/
def mat4 (m : List UInt32) (bw : ByteWriter) : ByteWriter := m.foldl (fun bw value => bw.f32 value) bw

def str (s : Bytes) (bw : ByteWriter) : ByteWriter := (bw.var_u32 (UInt32.ofNat s.length)).write s

def var_i32 (v : Int32) (bw : ByteWriter) : ByteWriter := bw.var_u32 ((v <<< 1) ^^^ (v >>> 31)).toUInt32

def flush_bits (bw : ByteWriter) : ByteWriter :=
  if 8 ≤ bw.bitPos then
    flush_bits {bw.u8 bw.bitBuffer.toUInt8 with bitBuffer := bw.bitBuffer >>> 8,bitPos := bw.bitPos-8}
  else bw
termination_by bw.bitPos.toNat
decreasing_by
  rename_i full
  have eight : 8 ≤ bw.bitPos.toNat := UInt8.le_iff_toNat_le.mp full
  rw [UInt8.toNat_sub_of_le _ _ full]
  exact Nat.sub_lt (Nat.lt_of_lt_of_le (by decide) eight) (by decide)

def bits (value : UInt32) (bitCount : UInt8) : Program ByteWriter Unit := do
  throwIf (32 < bitCount) (.byteError "bitCount > 32")
  let bw ← get
  throwIf (64 ≤ bw.bitPos) (.undefined "shift of a 64-bit value by its width or more")
  set (flush_bits {bw with bitBuffer := bw.bitBuffer ||| value.toUInt64 <<< bw.bitPos.toUInt64,bitPos := bw.bitPos+bitCount})

def finalize_bits (bw : ByteWriter) : ByteWriter :=
  if 0 < bw.bitPos then {bw.u8 bw.bitBuffer.toUInt8 with bitBuffer := 0,bitPos := 0} else bw

def tlv (tag : UInt16) (payload : ByteWriter) (bw : ByteWriter) : ByteWriter :=
  ((bw.u16 tag).var_u32 (UInt32.ofNat payload.buf.length)).write payload.buf

def as_string_base_64 {σ : Type} (bw : ByteWriter) : Program σ String := do
  let out := Base64.encode bw.buf
  assert (0 < out.length) "BASE64 encode did not write"
  pure (String.ofList out)

end ByteWriter

structure ByteReader where
  p : Bytes
  i : Nat := 0
  bitBuffer : UInt64 := 0
  bitPos : UInt8 := 0
deriving DecidableEq

namespace ByteReader

def n (br : ByteReader) : Nat := br.p.length

def remaining (br : ByteReader) : Nat := br.n - br.i

/-- The reader over the decoded text; `strlen` ends the text at a null character. -/
def ofBase64 (s : String) : ByteReader :=
  {p := Base64.decode (s.toList.takeWhile (· ≠ '\x00'))}

/-- Copies bytes from the cursor on; beyond the buffer that is undefined. -/
def advance (bytes : Nat) : Program ByteReader Bytes := do
  let br ← get
  if br.i+bytes ≤ br.n then
    set {br with i := br.i+bytes}
    pure ((br.p.drop br.i).take bytes)
  else throw (.undefined "read past the buffer")

def read (bytes : Nat) : Program ByteReader Bytes := do
  let br ← get
  throwIf (br.n < (br.i+bytes) % 2^64) (.byteError "read overflow")
  advance bytes

/-- `read_be<T>` for a type of the given size. -/
def read_be (size : Nat) : Program ByteReader Nat := do
  let bytes ← read size
  pure (BigEndian.decode bytes)

def u8 : Program ByteReader UInt8 := return UInt8.ofNat (← read_be 1)
def u16 : Program ByteReader UInt16 := return UInt16.ofNat (← read_be 2)
def u32 : Program ByteReader UInt32 := return UInt32.ofNat (← read_be 4)
def u64 : Program ByteReader UInt64 := return UInt64.ofNat (← read_be 8)
def i32 : Program ByteReader Int32 := return Int32.ofUInt32 (← u32)
def read_i8 : Program ByteReader Int8 := return Int8.ofUInt8 (← u8)
def read_i16 : Program ByteReader Int16 := return Int16.ofUInt16 (← u16)

/-- `i8` and `i16` return an `int32_t`. -/
def i8 : Program ByteReader Int32 := return Int8.toInt32 (← read_i8)
def i16 : Program ByteReader Int32 := return Int16.toInt32 (← read_i16)
def i64 : Program ByteReader Int64 := return Int64.ofUInt64 (← u64)
def f32 : Program ByteReader UInt32 := u32
def f64 : Program ByteReader UInt64 := u64

def read_integral : (type : Integral) → Program ByteReader type.Value
  | .u8 => u8
  | .u16 => u16
  | .u32 => u32
  | .u64 => u64
  | .i8 => read_i8
  | .i16 => read_i16
  | .i32 => i32
  | .i64 => i64

def read_scalar : (type : Scalar) → Program ByteReader type.Value
  | .integral type => read_integral type
  | .enum underlying => read_integral underlying
  | .f32 => f32
  | .f64 => f64

def read_vector (type : Scalar) : Nat → Program ByteReader (List type.Value)
  | 0 => pure []
  | Dim+1 => do
    let value ← read_scalar type
    let rest ← read_vector type Dim
    pure (value::rest)

def vec2 : Program ByteReader (UInt32 × UInt32) := return (← f32,← f32)
def vec4 : Program ByteReader (UInt32 × UInt32 × UInt32 × UInt32) := return (← f32,← f32,← f32,← f32)
def ivec2 : Program ByteReader (Int32 × Int32) := return (← i32,← i32)
def ivec3 : Program ByteReader (Int32 × Int32 × Int32) := return (← i32,← i32,← i32)

def quat : Program ByteReader Quat := do
  let v ← vec4
  pure {w := v.2.2.2,x := v.1,y := v.2.1,z := v.2.2.1}

/-- The loop of `mat4`, over what is left of the sixteen components. -/
def mat4_loop : Nat → Program ByteReader (List UInt32)
  | 0 => pure []
  | left+1 => do
    let value ← f32
    let rest ← mat4_loop left
    pure (value::rest)

def mat4 : Program ByteReader (List UInt32) := mat4_loop 16

def vec3 : Program ByteReader (UInt32 × UInt32 × UInt32) :=
  return (← f32,← f32,← f32)

def uuid : Program ByteReader UUID := do
  let br ← get
  throwIf (br.remaining < 16) (.byteError "UUID overflow")
  let bytes ← read 16
  if sized : bytes.length = 16 then pure ⟨bytes,sized⟩ else throw (.undefined "short copy")

/-- The loop of `var_u32`, over the values its shift takes. -/
def var_u32_loop : List Nat → UInt32 → Program ByteReader UInt32
  | [],_ => throw (.byteError "varint overflow")
  | shift::rest,v => do
    let b ← u8
    throwIf (32 ≤ shift) (.undefined "shift of a 32-bit value by its width or more")
    let v := v ||| ((b &&& 0x7F).toUInt32 <<< UInt32.ofNat shift)
    if b &&& 0x80 = 0 then pure v else var_u32_loop rest v

def var_u32 : Program ByteReader UInt32 := var_u32_loop [0,7,14,21,28,35] 0

def blob : Program ByteReader Bytes := do
  let len ← var_u32
  let br ← get
  throwIf (br.remaining < len.toNat) (.byteError "blob overflow")
  advance len.toNat

def str : Program ByteReader Bytes := do
  let len ← var_u32
  let br ← get
  throwIf (br.remaining < len.toNat) (.byteError "string overflow")
  advance len.toNat

/-- `str<N>`; a `static_string` holds at most `N` characters. -/
def static_str (N : Nat) : Program ByteReader Bytes := do
  let len ← var_u32
  let br ← get
  throwIf (br.remaining < len.toNat) (.byteError "string overflow")
  throwIf (N < len.toNat) .lengthError
  advance len.toNat

def var_i32 : Program ByteReader Int32 := do
  let v ← var_u32
  pure (Int32.ofUInt32 ((v >>> 1) ^^^ (-(Int32.ofUInt32 (v &&& 1))).toUInt32))

/-- The loop of `bits`. A pass adds eight to `bitPos`, so as many passes as there are bits to
read are enough. -/
def bits_loop (bitCount : UInt8) : Nat → Program ByteReader Unit
  | 0 => pure ()
  | passes+1 => do
    let br ← get
    if br.bitPos < bitCount then do
      let b ← u8
      modify fun br => {br with bitBuffer := br.bitBuffer ||| b.toUInt64 <<< br.bitPos.toUInt64,bitPos := br.bitPos+8}
      bits_loop bitCount passes
    else pure ()

def bits (bitCount : UInt8) : Program ByteReader UInt32 := do
  throwIf (32 < bitCount) (.byteError "bitCount > 32")
  bits_loop bitCount bitCount.toNat
  let br ← get
  set {br with bitBuffer := br.bitBuffer >>> bitCount.toUInt64,bitPos := br.bitPos-bitCount}
  pure (br.bitBuffer &&& ((1 <<< bitCount.toUInt64)-1)).toUInt32

def align_bits (br : ByteReader) : ByteReader := {br with bitBuffer := 0,bitPos := 0}

def tlv_element : Program ByteReader (UInt16 × Bytes) := do
  let tag ← u16
  let len ← var_u32
  let br ← get
  throwIf (br.remaining < len.toNat) (.byteError "TLV overflow")
  let value ← advance len.toNat
  pure (tag,value)

/-- `none` where the source returns false. -/
def next_tlv : Program ByteReader (Option (UInt16 × Bytes)) := do
  let br ← get
  if br.remaining = 0 then pure none else return some (← tlv_element)

end ByteReader

/-- A write appends the given bytes and changes nothing else. -/
def Appends (f : ByteWriter → ByteWriter) (bytes : Bytes) : Prop :=
  ∀ bw, f bw = {bw with buf := bw.buf ++ bytes}

/-- A read that finds the given bytes at the cursor returns the value and stops
behind them, whatever follows. -/
def Decodes {α : Type} (program : Program ByteReader α) (bytes : Bytes) (value : α) : Prop :=
  ∀ (br : ByteReader) (after : Bytes), br.i ≤ br.n → br.p.drop br.i = bytes ++ after → br.n < 2^64 →
    exec program br = (.ok value,{br with i := br.i+bytes.length})

/-- What is written reads back as the value. -/
def RoundTrips {α : Type} (f : ByteWriter → ByteWriter) (program : Program ByteReader α) (value : α) : Prop :=
  ∃ bytes, Appends f bytes ∧ Decodes program bytes value

section Composition
variable {α β : Type}

theorem appends_write (bytes : Bytes) : Appends (ByteWriter.write bytes) bytes := fun _ => rfl

theorem appends_comp {f g : ByteWriter → ByteWriter} {first second : Bytes}
    (before : Appends f first) (after : Appends g second) :
    Appends (fun bw => g (f bw)) (first ++ second) := by
  intro bw
  simp only [before bw,after _,List.append_assoc]

theorem decodes_pure (value : α) : Decodes (pure value) [] value := fun _ _ _ _ _ => rfl

theorem fits_of_drop {br : ByteReader} {bytes after : Bytes} (inside : br.i ≤ br.n)
    (here : br.p.drop br.i = bytes ++ after) : br.i+bytes.length ≤ br.n := by
  have lengths := congrArg List.length here
  simp only [List.length_drop,List.length_append] at lengths
  unfold ByteReader.n at *
  omega

theorem decodes_bind {first : Program ByteReader α} (next : α → Program ByteReader β)
    {before after : Bytes} {value : α} {result : β}
    (head : Decodes first before value) (tail : Decodes (next value) after result) :
    Decodes (first >>= next) (before ++ after) result := by
  intro br rest inside here bound
  rw [List.append_assoc] at here
  have there : br.p.drop (br.i+before.length) = after ++ rest := by
    rw [← List.drop_drop,here,List.drop_left]
  rw [exec_bind_ok _ _ _ _ _ (head br (after ++ rest) inside here bound)]
  rw [tail {br with i := br.i+before.length} rest (fits_of_drop inside here) there bound]
  simp [Nat.add_assoc]

theorem decodes_map {first : Program ByteReader α} (f : α → β) {bytes : Bytes} {value : α}
    (head : Decodes first bytes value) : Decodes (do return f (← first)) bytes (f value) := by
  have both := decodes_bind (fun v => pure (f v)) head (decodes_pure (f value))
  rw [List.append_nil] at both
  exact both

theorem roundTrips_bind {f : ByteWriter → ByteWriter} (g : ByteWriter → ByteWriter)
    {first : Program ByteReader α} (next : α → Program ByteReader β) {value : α} {result : β}
    (head : RoundTrips f first value) (tail : RoundTrips g (next value) result) :
    RoundTrips (fun bw => g (f bw)) (first >>= next) result := by
  obtain ⟨before,wrote,reads⟩ := head
  obtain ⟨after,wroteNext,readsNext⟩ := tail
  exact ⟨before ++ after,appends_comp wrote wroteNext,decodes_bind next reads readsNext⟩

theorem roundTrips_map {f : ByteWriter → ByteWriter} {first : Program ByteReader α} {value : α}
    (g : α → β) (head : RoundTrips f first value) :
    RoundTrips f (do return g (← first)) (g value) := by
  obtain ⟨bytes,wrote,reads⟩ := head
  exact ⟨bytes,wrote,decodes_map g reads⟩

end Composition

section Primitives
open ByteReader

theorem exec_read (bytes : Bytes) (br : ByteReader) (after : Bytes) (inside : br.i ≤ br.n)
    (here : br.p.drop br.i = bytes ++ after) (bound : br.n < 2^64) :
    exec (ByteReader.read bytes.length) br = (.ok bytes,{br with i := br.i+bytes.length}) := by
  have fits := fits_of_drop inside here
  have small : (br.i+bytes.length) % 2^64 = br.i+bytes.length := Nat.mod_eq_of_lt (by omega)
  simp only [ByteReader.read,advance,exec_get_bind]
  rw [exec_throwIf,small,if_neg (by omega),exec_get_bind,if_pos fits,exec_set_bind,exec_pure,here,
    List.take_left]

theorem decodes_read (bytes : Bytes) : Decodes (ByteReader.read bytes.length) bytes bytes :=
  fun br after inside here bound => exec_read bytes br after inside here bound

theorem decodes_read_be (size value : Nat) (bound : value < 256^size) :
    Decodes (ByteReader.read_be size) (BigEndian.encode size value) value := by
  have reads := decodes_map BigEndian.decode (decodes_read (BigEndian.encode size value))
  rw [BigEndian.encode_length,BigEndian.decode_encode,Nat.mod_eq_of_lt bound] at reads
  exact reads

theorem roundTrips_u32 (v : UInt32) : RoundTrips (ByteWriter.u32 v) u32 v := by
  refine ⟨_,appends_write _,?_⟩
  have reads := decodes_map UInt32.ofNat (decodes_read_be 4 v.toNat v.toNat_lt)
  rw [UInt32.ofNat_toNat] at reads
  exact reads

theorem roundTrips_i32 (v : Int32) : RoundTrips (ByteWriter.i32 v) i32 v := by
  have reads := roundTrips_map Int32.ofUInt32 (roundTrips_u32 v.toUInt32)
  exact reads

theorem roundTrips_f32 (v : UInt32) : RoundTrips (ByteWriter.f32 v) f32 v := roundTrips_u32 v

theorem roundTrips_vec3 (v : UInt32 × UInt32 × UInt32) : RoundTrips (ByteWriter.vec3 v) vec3 v := by
  have last := roundTrips_map (fun z => (v.1,v.2.1,z)) (roundTrips_f32 v.2.2)
  have tail := roundTrips_bind _ (fun y => do return (v.1,y,← f32)) (roundTrips_f32 v.2.1) last
  have whole := roundTrips_bind _ (fun x => do return (x,← f32,← f32)) (roundTrips_f32 v.1) tail
  exact whole

theorem roundTrips_uuid (id : UUID) : RoundTrips (ByteWriter.uuid id) uuid id := by
  refine ⟨id.data,appends_write _,?_⟩
  intro br after inside here bound
  have fits := fits_of_drop inside here
  have reads := exec_read id.data br after inside here bound
  rw [id.size] at reads fits
  have enough : ¬ br.remaining < 16 := by
    unfold remaining
    omega
  rw [uuid,exec_get_bind,exec_throwIf,if_neg enough,exec_bind_ok _ _ _ _ _ reads]
  simp [id.size]

theorem ofBase64_encode (bytes : Bytes) : ofBase64 (String.ofList (Base64.encode bytes)) = {p := bytes} := by
  have text : (Base64.encode bytes).takeWhile (· ≠ '\x00') = Base64.encode bytes :=
    List.takeWhile_eq_self_iff.mpr (fun c member => decide_eq_true (Base64.encode_terminated _ c member))
  rw [ofBase64,String.toList_ofList,text,Base64.decode_encode]

/-- A value that was written first and encoded reads back from the decoded text. -/
theorem exec_ofBase64 {α σ : Type} {f : ByteWriter → ByteWriter} {program : Program ByteReader α} {value : α}
    (trip : RoundTrips f program value) (rest : Bytes) (bound : ((f {}).buf ++ rest).length < 2^64) (state : σ) :
    exec (within program (.ofBase64 (String.ofList (Base64.encode ((f {}).buf ++ rest)))) : Program σ α) state =
      (.ok value,state) := by
  obtain ⟨bytes,wrote,reads⟩ := trip
  have written : (f {}).buf = bytes := by rw [wrote]; rfl
  rw [written] at bound ⊢
  rw [exec_within,ofBase64_encode,reads {p := bytes ++ rest} rest (Nat.zero_le _) rfl bound]

end Primitives

end AtlasNet
