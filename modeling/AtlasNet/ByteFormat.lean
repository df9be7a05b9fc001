import AtlasNet.ByteStream
import AtlasNet.Foundation.Format

/-! The formats of the fields: the bytes that stand for a value, given without the
reader, and that the reader takes exactly these bytes. -/
namespace AtlasNet
open Foundation Foundation.Program

def bigEndian (size : Nat) : Format UInt8 Nat := fun word value => word.length = size ∧ value = BigEndian.decode word

def bytesOf (size : Nat) : Format UInt8 Bytes := fun word value => word.length = size ∧ value = word

/-- Groups of seven bits from a shift on; all but the last have the high bit. -/
inductive Varint : Nat → Bytes → UInt32 → Prop
  | last (shift : Nat) (b : UInt8) (fits : shift < 32) (ends : b &&& 0x80 = 0) :
      Varint shift [b] ((b &&& 0x7F).toUInt32 <<< UInt32.ofNat shift)
  | group (shift : Nat) (b : UInt8) (rest : Bytes) (v : UInt32) (fits : shift < 32) (goes : b &&& 0x80 ≠ 0)
      (higher : Varint (shift+7) rest v) :
      Varint shift (b::rest) ((b &&& 0x7F).toUInt32 <<< UInt32.ofNat shift ||| v)

/-- The groups from a shift on, over the value of those before. -/
def Groups (shift : Nat) (v : UInt32) : Format UInt8 UInt32 :=
  fun word value => ∃ higher, Varint shift word higher ∧ value = v ||| higher

namespace ByteFormat

def u8 : Format UInt8 UInt8 := return UInt8.ofNat (← bigEndian 1)
def u16 : Format UInt8 UInt16 := return UInt16.ofNat (← bigEndian 2)
def u32 : Format UInt8 UInt32 := return UInt32.ofNat (← bigEndian 4)
def u64 : Format UInt8 UInt64 := return UInt64.ofNat (← bigEndian 8)
def i32 : Format UInt8 Int32 := return Int32.ofUInt32 (← u32)
def read_i8 : Format UInt8 Int8 := return Int8.ofUInt8 (← u8)
def read_i16 : Format UInt8 Int16 := return Int16.ofUInt16 (← u16)
def i8 : Format UInt8 Int32 := return Int8.toInt32 (← read_i8)
def i16 : Format UInt8 Int32 := return Int16.toInt32 (← read_i16)
def i64 : Format UInt8 Int64 := return Int64.ofUInt64 (← u64)
def vec3 : Format UInt8 (UInt32 × UInt32 × UInt32) := return (← u32,← u32,← u32)
def uuid : Format UInt8 UUID := fun word value => word = value.data
def var_u32 : Format UInt8 UInt32 := Varint 0

def blob : Format UInt8 Bytes := do
  let len ← var_u32
  bytesOf len.toNat

def integral : (type : Integral) → Format UInt8 type.Value
  | .u8 => u8
  | .u16 => u16
  | .u32 => u32
  | .u64 => u64
  | .i8 => read_i8
  | .i16 => read_i16
  | .i32 => i32
  | .i64 => i64

def scalar : (type : Scalar) → Format UInt8 type.Value
  | .integral type => integral type
  | .enum underlying => integral underlying
  | .f32 => u32
  | .f64 => u64

def vec2 : Format UInt8 (UInt32 × UInt32) := return (← u32,← u32)
def vec4 : Format UInt8 (UInt32 × UInt32 × UInt32 × UInt32) := return (← u32,← u32,← u32,← u32)
def ivec2 : Format UInt8 (Int32 × Int32) := return (← i32,← i32)
def ivec3 : Format UInt8 (Int32 × Int32 × Int32) := return (← i32,← i32,← i32)

/-- The scalar of a quaternion stands last. -/
def quat : Format UInt8 Quat := do
  let v ← vec4
  pure {w := v.2.2.2,x := v.1,y := v.2.1,z := v.2.2.1}

def mat4 : Format UInt8 (List UInt32) := u32.times 16

/-- A string of at most `N` bytes. -/
def static_str (N : Nat) : Format UInt8 Bytes := do
  let len ← var_u32
  Format.guard (len.toNat ≤ N)
  bytesOf len.toNat

/-- The number of which the varint is the zigzag code. -/
def var_i32 : Format UInt8 Int32 := do
  let v ← var_u32
  pure (Int32.ofUInt32 ((v >>> 1) ^^^ (-(Int32.ofUInt32 (v &&& 1))).toUInt32))

def tlv : Format UInt8 (UInt16 × Bytes) := do
  let tag ← u16
  let len ← var_u32
  let value ← bytesOf len.toNat
  pure (tag,value)

theorem u8_iff (word : Bytes) (b : UInt8) : u8 word b ↔ word = [b] := by
  constructor
  · rintro ⟨first,_,_,rfl,⟨long,rfl⟩,rfl,rfl⟩
    obtain ⟨byte,rfl⟩ := List.length_eq_one_iff.mp long
    simp [BigEndian.decode,BigEndian.accumulate]
  · rintro rfl
    exact ⟨[b],[],b.toNat,rfl,⟨rfl,by simp [BigEndian.decode,BigEndian.accumulate]⟩,rfl,UInt8.ofNat_toNat.symm⟩

end ByteFormat

namespace ByteReader

def cursor : Cursor ByteReader UInt8 where
  Inside br := br.i ≤ br.n
  rest br := br.p.drop br.i
  skip n br := {br with i := br.i+n}
  skip_none _ := rfl
  skip_twice m n br := by simp [Nat.add_assoc]
  inside_skip br front back inside here :=
    ⟨fits_of_drop inside here,by rw [← List.drop_drop,here,List.drop_left]⟩

theorem remaining_rest (br : ByteReader) : br.remaining = (cursor.rest br).length := List.length_drop.symm

theorem remaining_of_rest {br : ByteReader} {bytes : Bytes} (here : cursor.rest br = bytes) : br.remaining = bytes.length := by
  rw [remaining_rest,here]

theorem accepts_advance (size : Nat) : cursor.Accepts (advance size) (bytesOf size) := by
  intro br inside value next
  rw [advance,exec_get_bind]
  constructor
  · intro ran
    split at ran
    · rename_i fits
      have long : ((br.p.drop br.i).take size).length = size := by
        rw [List.length_take,List.length_drop]
        exact Nat.min_eq_left (Nat.le_sub_of_add_le' fits)
      obtain ⟨same,rfl⟩ := Prod.mk.inj ran
      cases same
      exact ⟨_,(br.p.drop br.i).drop size,⟨long,rfl⟩,(List.take_append_drop size _).symm,by rw [long]; rfl⟩
    · cases (Prod.mk.inj ran).1
  · rintro ⟨word,back,⟨rfl,rfl⟩,here,rfl⟩
    have front : (br.p.drop br.i).take value.length = value := (congrArg (List.take _) here).trans List.take_left
    rw [if_pos (fits_of_drop inside here),exec_set_bind,exec_pure,front]
    rfl

theorem accepts_read (size : Nat) : cursor.Accepts (read size) (bytesOf size) := by
  refine Cursor.accepts_checked _ (accepts_advance size) ?_
  rintro br word back value inside ⟨rfl,rfl⟩ here
  have fits := fits_of_drop inside here
  have wrapped := Nat.mod_le (br.i+value.length) (2^64)
  omega

theorem accepts_read_be (size : Nat) : cursor.Accepts (read_be size) (bigEndian size) := by
  refine Cursor.accepts_congr (Cursor.accepts_bind (accepts_read size) (fun bytes => Cursor.accepts_pure _)) ?_
  intro word value
  constructor
  · rintro ⟨front,back,bytes,rfl,⟨rfl,rfl⟩,rfl,rfl⟩
    rw [List.append_nil]
    exact ⟨rfl,rfl⟩
  · rintro ⟨rfl,rfl⟩
    exact ⟨word,[],word,(List.append_nil _).symm,⟨rfl,rfl⟩,rfl,rfl⟩

theorem accepts_map {α β : Type} {reader : Program ByteReader α} {F : Format UInt8 α} (f : α → β)
    (accepts : cursor.Accepts reader F) : cursor.Accepts (do return f (← reader)) (do return f (← F)) :=
  Cursor.accepts_bind accepts (fun _ => Cursor.accepts_pure _)

theorem accepts_u8 : cursor.Accepts u8 ByteFormat.u8 := accepts_map _ (accepts_read_be 1)
theorem accepts_u16 : cursor.Accepts u16 ByteFormat.u16 := accepts_map _ (accepts_read_be 2)
theorem accepts_u32 : cursor.Accepts u32 ByteFormat.u32 := accepts_map _ (accepts_read_be 4)
theorem accepts_u64 : cursor.Accepts u64 ByteFormat.u64 := accepts_map _ (accepts_read_be 8)
theorem accepts_i32 : cursor.Accepts i32 ByteFormat.i32 := accepts_map _ accepts_u32
theorem accepts_read_i8 : cursor.Accepts read_i8 ByteFormat.read_i8 := accepts_map _ accepts_u8
theorem accepts_read_i16 : cursor.Accepts read_i16 ByteFormat.read_i16 := accepts_map _ accepts_u16
theorem accepts_i8 : cursor.Accepts i8 ByteFormat.i8 := accepts_map _ accepts_read_i8
theorem accepts_i16 : cursor.Accepts i16 ByteFormat.i16 := accepts_map _ accepts_read_i16

theorem accepts_vec3 : cursor.Accepts vec3 ByteFormat.vec3 :=
  Cursor.accepts_bind accepts_u32 (fun _ => Cursor.accepts_bind accepts_u32 (fun _ => accepts_map _ accepts_u32))

theorem accepts_uuid : cursor.Accepts uuid ByteFormat.uuid := by
  have sized : cursor.Accepts (do
      let bytes ← read 16
      if sized : bytes.length = 16 then pure (⟨bytes,sized⟩ : UUID) else throw (.undefined "short copy"))
      ByteFormat.uuid := by
    intro br inside value next
    constructor
    · intro ran
      obtain ⟨bytes,middle,started,ended⟩ := bind_returned _ _ _ _ _ ran
      obtain ⟨word,back,⟨long,rfl⟩,here,rfl⟩ := (accepts_read 16 br inside bytes middle).mp started
      rw [dif_pos long] at ended
      obtain ⟨same,rfl⟩ := Prod.mk.inj ended
      cases same
      exact ⟨bytes,back,rfl,here,rfl⟩
    · rintro ⟨_,back,rfl,here,rfl⟩
      have started := (accepts_read 16 br inside value.data _).mpr ⟨_,back,⟨value.size,rfl⟩,here,rfl⟩
      rw [exec_bind_ok _ _ _ _ _ started,dif_pos value.size]
      rfl
  refine Cursor.accepts_checked _ sized ?_
  rintro br _ back value inside rfl here
  have fits := fits_of_drop inside here
  rw [value.size] at fits
  unfold remaining
  omega

theorem accepts_var_u32_loop (count shift : Nat) (enough : 32 ≤ shift+7*count) (v : UInt32) :
    cursor.Accepts (var_u32_loop ((List.range count).map (fun i => shift+7*i)) v) (Groups shift v) := by
  induction count generalizing shift v with
  | zero =>
    refine Cursor.accepts_congr (Cursor.accepts_throw _) (fun word value => ⟨False.elim,?_⟩)
    rintro ⟨groups,varint,_⟩
    cases varint <;> omega
  | succ count ih =>
    have shifts : (List.range (count+1)).map (fun i => shift+7*i) =
        shift::(List.range count).map (fun i => shift+7+7*i) := by
      rw [List.range_succ_eq_map,List.map_cons,List.map_map]
      congr 1
      exact List.map_congr_left (fun i _ => by simp; omega)
    rw [shifts,var_u32_loop]
    refine Cursor.accepts_congr (Cursor.accepts_bind accepts_u8 (fun b =>
      Cursor.accepts_bind (Cursor.accepts_throwIf _ _) (fun _ =>
        Cursor.accepts_ite _ (Cursor.accepts_pure _) (ih (shift+7) (by omega) _)))) ?_
    intro word value
    constructor
    · rintro ⟨first,_,b,rfl,byte,_,rest,_,rfl,⟨rfl,small⟩,goes⟩
      rw [(ByteFormat.u8_iff first b).mp byte]
      rw [Nat.not_le] at small
      rcases (Format.ite_iff ..).mp goes with ⟨ends,rfl,rfl⟩ | ⟨more,groups,higher,rfl⟩
      · exact ⟨_,.last shift b small ends,rfl⟩
      · exact ⟨_,.group shift b rest groups small more higher,UInt32.or_assoc ..⟩
    · rintro ⟨groups,varint,rfl⟩
      cases varint with
      | last _ b fits ends =>
        refine ⟨[b],[],b,rfl,(ByteFormat.u8_iff _ b).mpr rfl,[],[],(),rfl,⟨rfl,Nat.not_le.mpr fits⟩,?_⟩
        exact (Format.ite_iff ..).mpr (.inl ⟨ends,rfl,rfl⟩)
      | group _ b rest groups fits goes higher =>
        refine ⟨[b],rest,b,rfl,(ByteFormat.u8_iff _ b).mpr rfl,[],rest,(),rfl,⟨rfl,Nat.not_le.mpr fits⟩,?_⟩
        exact (Format.ite_iff ..).mpr (.inr ⟨goes,groups,higher,(UInt32.or_assoc ..).symm⟩)

theorem accepts_var_u32 : cursor.Accepts var_u32 ByteFormat.var_u32 := by
  refine Cursor.accepts_congr (accepts_var_u32_loop 6 0 (by decide) 0) (fun word value => ?_)
  constructor
  · rintro ⟨groups,varint,rfl⟩
    exact UInt32.zero_or.symm ▸ varint
  · exact fun varint => ⟨value,varint,UInt32.zero_or.symm⟩

theorem accepts_i64 : cursor.Accepts i64 ByteFormat.i64 := accepts_map _ accepts_u64

theorem accepts_integral (type : Integral) : cursor.Accepts (read_integral type) (ByteFormat.integral type) := by
  cases type with
  | u8 => exact accepts_u8
  | u16 => exact accepts_u16
  | u32 => exact accepts_u32
  | u64 => exact accepts_u64
  | i8 => exact accepts_read_i8
  | i16 => exact accepts_read_i16
  | i32 => exact accepts_i32
  | i64 => exact accepts_i64

theorem accepts_scalar (type : Scalar) : cursor.Accepts (read_scalar type) (ByteFormat.scalar type) := by
  cases type with
  | integral type => exact accepts_integral type
  | enum underlying => exact accepts_integral underlying
  | f32 => exact accepts_u32
  | f64 => exact accepts_u64

theorem accepts_vector (type : Scalar) (Dim : Nat) :
    cursor.Accepts (read_vector type Dim) ((ByteFormat.scalar type).times Dim) := by
  induction Dim with
  | zero => exact Cursor.accepts_pure _
  | succ Dim ih => exact Cursor.accepts_bind (accepts_scalar type) (fun _ => accepts_map _ ih)

theorem accepts_vec2 : cursor.Accepts vec2 ByteFormat.vec2 :=
  Cursor.accepts_bind accepts_u32 (fun _ => accepts_map _ accepts_u32)

theorem accepts_vec4 : cursor.Accepts vec4 ByteFormat.vec4 :=
  Cursor.accepts_bind accepts_u32 (fun _ => Cursor.accepts_bind accepts_u32 (fun _ =>
    Cursor.accepts_bind accepts_u32 (fun _ => accepts_map _ accepts_u32)))

theorem accepts_ivec2 : cursor.Accepts ivec2 ByteFormat.ivec2 :=
  Cursor.accepts_bind accepts_i32 (fun _ => accepts_map _ accepts_i32)

theorem accepts_ivec3 : cursor.Accepts ivec3 ByteFormat.ivec3 :=
  Cursor.accepts_bind accepts_i32 (fun _ => Cursor.accepts_bind accepts_i32 (fun _ => accepts_map _ accepts_i32))

theorem accepts_quat : cursor.Accepts quat ByteFormat.quat := accepts_map _ accepts_vec4

theorem accepts_mat4_loop (left : Nat) : cursor.Accepts (mat4_loop left) (ByteFormat.u32.times left) := by
  induction left with
  | zero => exact Cursor.accepts_pure _
  | succ left ih => exact Cursor.accepts_bind accepts_u32 (fun _ => accepts_map _ ih)

theorem accepts_counted_bytes (len : Nat) (fault : Fault) :
    cursor.Accepts (do let br ← get; throwIf (br.remaining < len) fault; advance len) (bytesOf len) := by
  refine Cursor.accepts_checked _ (accepts_advance len) ?_
  rintro br word back value inside ⟨long,rfl⟩ here
  have fits := fits_of_drop inside here
  unfold remaining
  omega

theorem accepts_blob : cursor.Accepts blob ByteFormat.blob :=
  Cursor.accepts_bind accepts_var_u32 (fun len => accepts_counted_bytes len.toNat _)

theorem accepts_str : cursor.Accepts str ByteFormat.blob :=
  Cursor.accepts_bind accepts_var_u32 (fun len => accepts_counted_bytes len.toNat _)

theorem accepts_static_str (N : Nat) : cursor.Accepts (static_str N) (ByteFormat.static_str N) := by
  refine Cursor.accepts_bind accepts_var_u32 (fun len => Cursor.accepts_checked _ (Cursor.accepts_bind
    (Cursor.accepts_congr (Cursor.accepts_throwIf _ _) (fun _ _ => by rw [Nat.not_lt]))
    (fun _ => accepts_advance len.toNat)) ?_)
  rintro br _ back value inside ⟨first,word,_,rfl,⟨rfl,_⟩,long,rfl⟩ here
  have fits : br.i+value.length ≤ br.n := fits_of_drop inside here
  unfold remaining
  omega

theorem accepts_var_i32 : cursor.Accepts var_i32 ByteFormat.var_i32 := accepts_map _ accepts_var_u32

def expect_tlv : Program ByteReader (UInt16 × Bytes) := do
  match ← next_tlv with
  | some element => pure element
  | none => throw (.runtimeError "the stream has ended")

theorem exec_expect_tlv (br : ByteReader) : exec expect_tlv br =
    exec (do let br ← get; throwIf (br.remaining = 0) (.runtimeError "the stream has ended"); tlv_element) br := by
  rw [exec_get_bind,exec_throwIf,expect_tlv,next_tlv,exec_bind,exec_get_bind]
  by_cases ended : br.remaining = 0
  · rw [if_pos ended,if_pos ended]
    rfl
  · rw [if_neg ended,if_neg ended,exec_bind]
    cases read : exec tlv_element br with
    | mk reply next => cases reply <;> rfl

theorem accepts_tlv_element : cursor.Accepts tlv_element ByteFormat.tlv := by
  refine Cursor.accepts_bind accepts_u16 (fun tag => Cursor.accepts_bind accepts_var_u32 (fun len => ?_))
  refine Cursor.accepts_checked _ (Cursor.accepts_bind (accepts_advance len.toNat) (fun _ => Cursor.accepts_pure _)) ?_
  rintro br _ back value inside ⟨bytes,_,_,rfl,⟨long,rfl⟩,rfl,rfl⟩ here
  have fits := fits_of_drop inside here
  rw [List.append_nil] at fits
  unfold remaining
  omega

theorem accepts_expect_tlv : cursor.Accepts expect_tlv ByteFormat.tlv := by
  intro br inside value next
  rw [exec_expect_tlv]
  refine Cursor.accepts_checked _ accepts_tlv_element ?_ br inside value next
  rintro br _ back value inside ⟨tag,_,_,rfl,⟨bytes,_,_,rfl,⟨two,_⟩,rfl,_⟩,_⟩ here
  have fits := fits_of_drop inside here
  simp only [List.length_append,two] at fits
  unfold remaining
  omega

end ByteReader

end AtlasNet
