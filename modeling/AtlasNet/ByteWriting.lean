import AtlasNet.ByteFormat

/-! What a writer appends is a word of the format of its value, so that the reader
that accepts the format gives the value back. -/
namespace AtlasNet
open Foundation Foundation.Program

/-- The writer appends bytes that stand for the value. -/
def Written {α : Type} (f : ByteWriter → ByteWriter) (F : Format UInt8 α) (value : α) : Prop :=
  ∃ bytes, Appends f bytes ∧ F bytes value

section Composition
variable {α β : Type} {f g : ByteWriter → ByteWriter} {F : Format UInt8 α}

theorem appends_nil : Appends id [] := fun bw => by simp

theorem written_pure (value : α) : Written id (pure value) value := ⟨[],appends_nil,rfl,rfl⟩

theorem written_bind {G : α → Format UInt8 β} {value : α} {result : β} (head : Written f F value)
    (tail : Written g (G value) result) : Written (fun bw => g (f bw)) (F >>= G) result := by
  obtain ⟨before,wrote,stands⟩ := head
  obtain ⟨after,wroteNext,goes⟩ := tail
  exact ⟨before ++ after,appends_comp wrote wroteNext,before,after,value,rfl,stands,goes⟩

theorem written_map {value : α} (h : α → β) (head : Written f F value) :
    Written f (do return h (← F)) (h value) := by
  have wrote : Written _ (do return h (← F)) (h value) := written_bind head (written_pure (h value))
  exact wrote

theorem written_guard {condition : Prop} (holds : condition) : Written id (Format.guard condition) () :=
  ⟨[],appends_nil,rfl,holds⟩

theorem written_buf {value : α} (wrote : Written f F value) : F (f {}).buf value := by
  obtain ⟨bytes,appends,stands⟩ := wrote
  rw [appends]
  exact stands

theorem exec_written {reader : Program ByteReader α} {value : α} (accepts : ByteReader.cursor.Accepts reader F)
    (wrote : Written f F value) (rest : Bytes) :
    exec reader {p := (f {}).buf ++ rest} =
      (.ok value,{p := (f {}).buf ++ rest,i := (f {}).buf.length}) := by
  refine (accepts {p := (f {}).buf ++ rest} (Nat.zero_le _) value _).mpr ⟨_,rest,written_buf wrote,rfl,?_⟩
  change _ = ({p := _,i := 0+(f {}).buf.length} : ByteReader)
  rw [Nat.zero_add]

theorem written_times {item : ByteWriter → α → ByteWriter} (values : List α)
    (each : ∀ value ∈ values, Written (fun bw => item bw value) F value) :
    Written (fun bw => values.foldl item bw) (F.times values.length) values := by
  induction values with
  | nil => exact written_pure []
  | cons value rest ih =>
    have tail := written_map (value::·) (ih (fun v member => each v (List.mem_cons_of_mem _ member)))
    have wrote : Written _ (F.times (rest.length+1)) (value::rest) := written_bind (each value List.mem_cons_self) tail
    exact wrote

end Composition

namespace ByteWriter

theorem written_be (size value : Nat) (bound : value < 256^size) : Written (push_be size value) (bigEndian size) value := by
  refine ⟨_,appends_write _,BigEndian.encode_length size value,?_⟩
  rw [BigEndian.decode_encode,Nat.mod_eq_of_lt bound]

theorem written_u8 (v : UInt8) : Written (u8 v) ByteFormat.u8 v :=
  ⟨[v],fun _ => rfl,(ByteFormat.u8_iff _ v).mpr rfl⟩

theorem written_u16 (v : UInt16) : Written (u16 v) ByteFormat.u16 v := by
  have wrote := written_map UInt16.ofNat (written_be 2 v.toNat v.toNat_lt)
  rw [UInt16.ofNat_toNat] at wrote
  exact wrote

theorem written_u32 (v : UInt32) : Written (u32 v) ByteFormat.u32 v := by
  have wrote := written_map UInt32.ofNat (written_be 4 v.toNat v.toNat_lt)
  rw [UInt32.ofNat_toNat] at wrote
  exact wrote

theorem written_u64 (v : UInt64) : Written (u64 v) ByteFormat.u64 v := by
  have wrote := written_map UInt64.ofNat (written_be 8 v.toNat v.toNat_lt)
  rw [UInt64.ofNat_toNat] at wrote
  exact wrote

theorem written_read_i8 (v : Int8) : Written (i8 v) ByteFormat.read_i8 v := written_map Int8.ofUInt8 (written_u8 v.toUInt8)
theorem written_read_i16 (v : Int16) : Written (i16 v) ByteFormat.read_i16 v :=
  written_map Int16.ofUInt16 (written_u16 v.toUInt16)
theorem written_i8 (v : Int8) : Written (i8 v) ByteFormat.i8 v.toInt32 := written_map Int8.toInt32 (written_read_i8 v)
theorem written_i16 (v : Int16) : Written (i16 v) ByteFormat.i16 v.toInt32 := written_map Int16.toInt32 (written_read_i16 v)
theorem written_i32 (v : Int32) : Written (i32 v) ByteFormat.i32 v := written_map Int32.ofUInt32 (written_u32 v.toUInt32)
theorem written_i64 (v : Int64) : Written (i64 v) ByteFormat.i64 v := written_map Int64.ofUInt64 (written_u64 v.toUInt64)

theorem written_integral (type : Integral) (v : type.Value) :
    Written (write_integral type v) (ByteFormat.integral type) v := by
  cases type with
  | u8 => exact written_u8 v
  | u16 => exact written_u16 v
  | u32 => exact written_u32 v
  | u64 => exact written_u64 v
  | i8 => exact written_read_i8 v
  | i16 => exact written_read_i16 v
  | i32 => exact written_i32 v
  | i64 => exact written_i64 v

theorem written_scalar (type : Scalar) (v : type.Value) : Written (write_scalar type v) (ByteFormat.scalar type) v := by
  cases type with
  | integral type => exact written_integral type v
  | enum underlying => exact written_integral underlying v
  | f32 => exact written_u32 v
  | f64 => exact written_u64 v

theorem written_vector (type : Scalar) (v : List type.Value) :
    Written (write_vector type v) ((ByteFormat.scalar type).times v.length) v :=
  written_times v (fun value _ => written_scalar type value)

theorem written_vec2 (v : UInt32 × UInt32) : Written (vec2 v) ByteFormat.vec2 v := by
  have wrote : Written _ ByteFormat.vec2 v := written_bind (written_u32 v.1) (written_map (fun y => (v.1,y)) (written_u32 v.2))
  exact wrote

theorem written_vec3 (v : UInt32 × UInt32 × UInt32) : Written (vec3 v) ByteFormat.vec3 v := by
  have wrote : Written _ ByteFormat.vec3 v := written_bind (written_u32 v.1) (written_bind (written_u32 v.2.1) (written_map (fun z => (v.1,v.2.1,z))
    (written_u32 v.2.2)))
  exact wrote

theorem written_vec4 (v : UInt32 × UInt32 × UInt32 × UInt32) : Written (vec4 v) ByteFormat.vec4 v := by
  have wrote : Written _ ByteFormat.vec4 v := written_bind (written_u32 v.1) (written_bind (written_u32 v.2.1) (written_bind (written_u32 v.2.2.1)
    (written_map (fun w => (v.1,v.2.1,v.2.2.1,w)) (written_u32 v.2.2.2))))
  exact wrote

theorem written_ivec2 (v : Int32 × Int32) : Written (ivec2 v) ByteFormat.ivec2 v := by
  have wrote : Written _ ByteFormat.ivec2 v := written_bind (written_i32 v.1) (written_map (fun y => (v.1,y)) (written_i32 v.2))
  exact wrote

theorem written_ivec3 (v : Int32 × Int32 × Int32) : Written (ivec3 v) ByteFormat.ivec3 v := by
  have wrote : Written _ ByteFormat.ivec3 v := written_bind (written_i32 v.1) (written_bind (written_i32 v.2.1) (written_map (fun z => (v.1,v.2.1,z))
    (written_i32 v.2.2)))
  exact wrote

theorem written_quat (q : Quat) : Written (quat q) ByteFormat.quat q :=
  written_map (fun v : UInt32 × UInt32 × UInt32 × UInt32 => Quat.mk v.2.2.2 v.1 v.2.1 v.2.2.1)
    (written_vec4 (q.x,q.y,q.z,q.w))

theorem written_mat4 (m : List UInt32) (sized : m.length = 16) : Written (mat4 m) ByteFormat.mat4 m := by
  have wrote := written_times m (fun value _ => written_u32 value)
  rw [sized] at wrote
  exact wrote

theorem written_uuid (id : UUID) : Written (uuid id) ByteFormat.uuid id := ⟨id.data,appends_write _,rfl⟩

theorem written_bytes (b : Bytes) : Written (write b) (bytesOf b.length) b := ⟨b,appends_write b,rfl,rfl⟩

theorem high_bit (b : UInt8) : (b ||| 0x80) &&& 0x80 ≠ 0 := by
  intro zero
  have bit := congrArg (fun x : UInt8 => x.toNat.testBit 7) zero
  simp [show Nat.testBit 128 7 = true from rfl] at bit

theorem low_bits (b : UInt8) : (b ||| 0x80).toNat % 128 = b.toNat % 128 := by
  rw [UInt8.toNat_or]
  have low := Nat.or_mod_two_pow (a := b.toNat) (b := 128) (n := 7)
  simpa using low

theorem no_high (b : UInt8) (small : b.toNat < 128) : b &&& 0x80 = 0 := by
  apply UInt8.toNat_inj.mp
  rw [UInt8.toNat_and]
  apply Nat.eq_of_testBit_eq
  intro i
  have clear := Nat.testBit_lt_two_pow (x := b.toNat) (i := 7) small
  rw [Nat.testBit_and,show (0x80 : UInt8).toNat = 2^7 from rfl,Nat.testBit_two_pow]
  by_cases here : 7 = i
  · subst here
    simp [clear]
  · simp [here]

theorem group_bits (n shift : Nat) (inside : shift < 32) (b : UInt8)
    (low : b.toNat % 128 = n % 128) :
    (b &&& 0x7F).toUInt32 <<< UInt32.ofNat shift = UInt32.ofNat (n % 128*2^shift) := by
  have seven : (b &&& 0x7F).toNat = n % 128 := by
    rw [UInt8.toNat_and,← low]
    exact Nat.and_two_pow_sub_one_eq_mod b.toNat 7
  apply UInt32.toNat_inj.mp
  rw [UInt32.toNat_shiftLeft,UInt8.toNat_toUInt32,seven,UInt32.toNat_ofNat',UInt32.toNat_ofNat',
    Nat.mod_eq_of_lt (show shift < 2^32 by omega),Nat.mod_eq_of_lt inside,Nat.shiftLeft_eq]

/-- The groups occupy disjoint bits, so the disjunction is the sum. -/
theorem or_groups (low value shift : Nat) (small : low < 128) :
    UInt32.ofNat (low*2^shift) ||| UInt32.ofNat (value*2^(shift+7)) = UInt32.ofNat ((low+128*value)*2^shift) := by
  have below : low*2^shift < 2^(shift+7) := by
    rw [Nat.pow_add,Nat.mul_comm (2^shift)]
    exact Nat.mul_lt_mul_of_pos_right small (Nat.two_pow_pos shift)
  have split : (low+128*value)*2^shift = 2^(shift+7)*value+low*2^shift := by
    rw [Nat.pow_add]
    ring
  rw [← UInt32.ofNat_or,split,Nat.or_comm,Nat.mul_comm value,Nat.two_pow_add_eq_or_of_lt below]

theorem varint_groups (n shift : Nat) (fits : n*2^shift < 2^32) (inside : shift < 32) :
    Varint shift (varint n) (UInt32.ofNat (n*2^shift)) := by
  induction n using Nat.strongRecOn generalizing shift with
  | ind n ih =>
    rw [varint]
    by_cases more : 0x80 ≤ n
    · have room : shift+7 < 32 := by
        by_contra full
        have large : 2^25 ≤ 2^shift := Nat.pow_le_pow_right (by decide) (by omega)
        have product : 128*2^25 ≤ n*2^shift := Nat.mul_le_mul more large
        omega
      have parts : n % 128+128*(n >>> 7) = n := by
        rw [Nat.shiftRight_eq_div_pow]
        exact Nat.mod_add_div n 128
      have sum := or_groups (n % 128) (n >>> 7) shift (Nat.mod_lt _ (by decide))
      rw [parts] at sum
      have fewer : (n >>> 7)*2^(shift+7) ≤ n*2^shift := by
        rw [Nat.pow_add,Nat.mul_comm (2^shift),← Nat.mul_assoc]
        exact Nat.mul_le_mul_right _ (by omega)
      have higher := ih (n >>> 7) (by rw [Nat.shiftRight_eq_div_pow]; omega) (shift+7) (by omega) room
      have bits := group_bits n shift inside (UInt8.ofNat n ||| 0x80) (by
        rw [low_bits,UInt8.toNat_ofNat']
        omega)
      have joined := Varint.group shift _ _ _ inside (high_bit (UInt8.ofNat n)) higher
      rw [if_pos more,← sum,← bits]
      exact joined
    · have bits := group_bits n shift inside (UInt8.ofNat n) (by
        rw [UInt8.toNat_ofNat']
        omega)
      rw [Nat.mod_eq_of_lt (by omega : n < 128)] at bits
      rw [if_neg more,← bits]
      refine Varint.last shift _ inside (no_high _ ?_)
      rw [UInt8.toNat_ofNat']
      omega

theorem written_var_u32 (v : UInt32) : Written (var_u32 v) ByteFormat.var_u32 v := by
  have groups := varint_groups v.toNat 0 (by simpa using v.toNat_lt) (by decide)
  rw [Nat.pow_zero,Nat.mul_one,UInt32.ofNat_toNat] at groups
  exact ⟨_,appends_write _,groups⟩

theorem written_blob (b : Bytes) (short : b.length < 2^32) : Written (blob b) ByteFormat.blob b := by
  have sized : (UInt32.ofNat b.length).toNat = b.length := by
    rw [UInt32.toNat_ofNat',Nat.mod_eq_of_lt short]
  have bytes := written_bytes b
  rw [← sized] at bytes
  have wrote : Written _ ByteFormat.blob b := written_bind (written_var_u32 _) bytes
  exact wrote

theorem written_str (s : Bytes) (short : s.length < 2^32) : Written (str s) ByteFormat.blob s := written_blob s short

theorem written_static_str (N : Nat) (s : Bytes) (fits : s.length ≤ N) (short : s.length < 2^32) :
    Written (str s) (ByteFormat.static_str N) s := by
  have sized : (UInt32.ofNat s.length).toNat = s.length := by
    rw [UInt32.toNat_ofNat',Nat.mod_eq_of_lt short]
  have bytes := written_bytes s
  rw [← sized] at bytes fits
  have wrote : Written _ (ByteFormat.static_str N) s :=
    written_bind (written_var_u32 _) (written_bind (written_guard fits) bytes)
  exact wrote

theorem zigzag_bit (x : BitVec 32) (i : Nat) (inside : i < 32) : ((x <<< 1) ^^^ x.sshiftRight 31)[i] =
    ((if i = 0 then false else x.getLsbD (i-1)) ^^ x.msb) := by
  rw [BitVec.getElem_xor,BitVec.getElem_sshiftRight,BitVec.getElem_shiftLeft]
  have sign : (if h : 31+i < 32 then x[31+i] else x.msb) = x.msb := by
    split
    · have first : i = 0 := by omega
      subst first
      rfl
    · rfl
  rw [sign]
  by_cases first : i = 0
  · simp [first]
  · rw [if_neg first,BitVec.getLsbD_eq_getElem (by omega)]
    simp [first]

theorem zigzag_sign (x : BitVec 32) :
    ((x <<< 1) ^^^ x.sshiftRight 31) &&& 1#32 = if x.msb then 1#32 else 0#32 := by
  ext i inside
  rw [BitVec.getElem_and,zigzag_bit x i inside]
  by_cases first : i = 0
  · subst first
    cases x.msb <;> simp
  · cases x.msb <;> simp [first]

/-- The lowest bit of the code tells whether the others are complemented. -/
theorem unzigzag (x : BitVec 32) : ((x <<< 1) ^^^ x.sshiftRight 31) >>> 1 ^^^
    -(((x <<< 1) ^^^ x.sshiftRight 31) &&& 1#32) = x := by
  rw [zigzag_sign]
  ext i inside
  have mask : (-(if x.msb then 1#32 else 0#32))[i] = x.msb := by
    cases x.msb
    · simp
    · rw [if_pos rfl,show -1#32 = BitVec.allOnes 32 from rfl,BitVec.getElem_allOnes]
  rw [BitVec.getElem_xor,mask,BitVec.getElem_ushiftRight,BitVec.getLsbD]
  by_cases below : 1+i < 32
  · have bit := zigzag_bit x (1+i) below
    rw [← BitVec.getLsbD_eq_getElem,BitVec.getLsbD] at bit
    rw [bit]
    simp [BitVec.getLsbD_eq_getElem inside]
  · have last : i = 31 := by omega
    subst last
    rw [← BitVec.getLsbD,BitVec.getLsbD_of_ge _ _ (by omega),Bool.false_xor]
    rfl

theorem decode_zigzag (v : Int32) : Int32.ofUInt32 ((((v <<< 1) ^^^ (v >>> 31)).toUInt32 >>> 1) ^^^
    (-(Int32.ofUInt32 (((v <<< 1) ^^^ (v >>> 31)).toUInt32 &&& 1))).toUInt32) = v := by
  apply Int32.toBitVec_inj.mp
  exact unzigzag v.toBitVec

theorem written_var_i32 (v : Int32) : Written (var_i32 v) ByteFormat.var_i32 v := by
  have coded := written_map (fun u : UInt32 => Int32.ofUInt32 ((u >>> 1) ^^^ (-(Int32.ofUInt32 (u &&& 1))).toUInt32))
    (written_var_u32 ((v <<< 1) ^^^ (v >>> 31)).toUInt32)
  rw [decode_zigzag] at coded
  exact coded

theorem written_tlv (tag : UInt16) (payload : ByteWriter) (short : payload.buf.length < 2^32) :
    Written (tlv tag payload) ByteFormat.tlv (tag,payload.buf) := by
  have sized : (UInt32.ofNat payload.buf.length).toNat = payload.buf.length := by
    rw [UInt32.toNat_ofNat',Nat.mod_eq_of_lt short]
  have bytes := written_map (fun value => (tag,value)) (written_bytes payload.buf)
  rw [← sized] at bytes
  have wrote : Written _ ByteFormat.tlv (tag,payload.buf) :=
    written_bind (written_u16 tag) (written_bind (written_var_u32 _) bytes)
  exact wrote

end ByteWriter

end AtlasNet
