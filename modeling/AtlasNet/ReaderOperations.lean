import AtlasNet.ByteFields
import AtlasNet.ContainerSizes

/-! The operations of the reader in any order: where the cursor is after each, when an
operation succeeds, and how it fails otherwise. -/
namespace AtlasNet
open Foundation Foundation.Program

namespace ByteReader

/-- The reader stays inside the buffer it was given, and raises no error of the callers. -/
def Tame {α : Type} (reader : Program ByteReader α) : Prop :=
  ∀ br, cursor.Inside br → (exec reader br).2.p = br.p ∧ cursor.Inside (exec reader br).2 ∧
    ∀ what, (exec reader br).1 ≠ .error (.runtimeError what)

section Rules
variable {α β : Type} {reader : Program ByteReader α}

theorem tame_pure (value : α) : Tame (pure value) := fun _ inside => ⟨rfl,inside,nofun⟩

theorem tame_throw {fault : Fault} (other : ∀ what, fault ≠ .runtimeError what) : Tame (throw fault : Program ByteReader α) :=
  fun _ inside => ⟨rfl,inside,fun what raised => other what (Except.error.inj raised)⟩

theorem tame_bind {next : α → Program ByteReader β} (first : Tame reader) (second : ∀ value, Tame (next value)) :
    Tame (reader >>= next) := by
  intro br inside
  obtain ⟨same,within,quiet⟩ := first br inside
  rw [exec_bind]
  rcases ran : exec reader br with ⟨fault | value,middle⟩
  · rw [ran] at same within quiet
    exact ⟨same,within,fun what raised => quiet what (congrArg Except.error (Except.error.inj raised))⟩
  · rw [ran] at same within
    obtain ⟨kept,stays,silent⟩ := second value middle within
    exact ⟨kept.trans same,stays,silent⟩

theorem tame_get {next : ByteReader → Program ByteReader β} (each : ∀ br, Tame (next br)) : Tame (get >>= next) :=
  fun br inside => each br br inside

theorem tame_throwIf (bad : Prop) [Decidable bad] {fault : Fault} (other : ∀ what, fault ≠ .runtimeError what) :
    Tame (throwIf bad fault) := by
  unfold throwIf
  split
  · exact tame_throw other
  · exact tame_pure ()

theorem tame_ite (chosen : Prop) [Decidable chosen] {left right : Program ByteReader α} (first : Tame left) (second : Tame right) :
    Tame (if chosen then left else right) := by
  split
  · exact first
  · exact second

theorem tame_map (f : α → β) (tame : Tame reader) : Tame (do return f (← reader)) :=
  tame_bind tame fun value => tame_pure (f value)

/-- A tame reader that settles fails with a `ByteError`. -/
theorem settles_iff_reported (tame : Tame reader) {br : ByteReader} (inside : cursor.Inside br) :
    Settles (exec reader br).1 ↔ ∀ fault, (exec reader br).1 = .error fault → ∃ what, fault = .byteError what := by
  have quiet := (tame br inside).2.2
  rcases ran : exec reader br with ⟨fault | value,_⟩ <;> rw [ran] at quiet
  · constructor
    · intro settles fault' raised
      obtain rfl := Except.error.inj raised
      cases fault with
      | byteError what => exact ⟨what,rfl⟩
      | runtimeError what => exact (quiet what rfl).elim
      | _ => exact settles.elim
    · intro reported
      obtain ⟨what,rfl⟩ := reported fault rfl
      trivial
  · exact ⟨nofun,fun _ => trivial⟩

end Rules

section Primitives

theorem tame_advance (bytes : Nat) : Tame (advance bytes) := by
  intro br inside
  rw [advance,exec_get_bind]
  split
  · rename_i fits
    rw [exec_set_bind,exec_pure]
    exact ⟨rfl,fits,by simp⟩
  · rw [exec_throw]
    exact ⟨rfl,inside,by simp⟩

theorem tame_read (bytes : Nat) : Tame (read bytes) :=
  tame_get fun _ => tame_bind (tame_throwIf _ nofun) fun _ => tame_advance bytes

theorem tame_read_be (size : Nat) : Tame (read_be size) := tame_map _ (tame_read size)
theorem tame_u8 : Tame u8 := tame_map _ (tame_read_be 1)
theorem tame_u16 : Tame u16 := tame_map _ (tame_read_be 2)
theorem tame_u32 : Tame u32 := tame_map _ (tame_read_be 4)
theorem tame_u64 : Tame u64 := tame_map _ (tame_read_be 8)
theorem tame_i32 : Tame i32 := tame_map _ tame_u32

theorem tame_integral (type : Integral) : Tame (read_integral type) := by
  cases type with
  | u8 => exact tame_u8
  | u16 => exact tame_u16
  | u32 => exact tame_u32
  | u64 => exact tame_u64
  | i8 => exact tame_map _ tame_u8
  | i16 => exact tame_map _ tame_u16
  | i32 => exact tame_i32
  | i64 => exact tame_map _ tame_u64

theorem tame_scalar (type : Scalar) : Tame (read_scalar type) := by
  cases type with
  | integral type => exact tame_integral type
  | enum underlying => exact tame_integral underlying
  | f32 => exact tame_u32
  | f64 => exact tame_u64

theorem tame_vector (type : Scalar) (Dim : Nat) : Tame (read_vector type Dim) := by
  induction Dim with
  | zero => exact tame_pure []
  | succ Dim ih => exact tame_bind (tame_scalar type) fun _ => tame_map _ ih

theorem tame_vec4 : Tame vec4 :=
  tame_bind tame_u32 fun _ => tame_bind tame_u32 fun _ => tame_bind tame_u32 fun _ => tame_map _ tame_u32

theorem tame_mat4_loop (left : Nat) : Tame (mat4_loop left) := by
  induction left with
  | zero => exact tame_pure []
  | succ left ih => exact tame_bind tame_u32 fun _ => tame_map _ ih

theorem tame_uuid : Tame uuid := by
  refine tame_get fun _ => tame_bind (tame_throwIf _ (by simp)) fun _ => tame_bind (tame_read 16) fun bytes => ?_
  split
  · exact tame_pure _
  · exact tame_throw (by simp)

theorem tame_var_u32_loop (shifts : List Nat) (v : UInt32) : Tame (var_u32_loop shifts v) := by
  induction shifts generalizing v with
  | nil => exact tame_throw nofun
  | cons shift shifts ih =>
    exact tame_bind tame_u8 fun _ => tame_bind (tame_throwIf _ nofun) fun _ => tame_ite _ (tame_pure _) (ih _)

theorem tame_var_u32 : Tame var_u32 := tame_var_u32_loop _ 0

theorem tame_copy (len : Nat) (what : String) : Tame (do
    let br ← get
    throwIf (br.remaining < len) (.byteError what)
    advance len) :=
  tame_get fun _ => tame_bind (tame_throwIf _ nofun) fun _ => tame_advance len

theorem tame_blob : Tame blob := tame_bind tame_var_u32 fun len => tame_copy len.toNat _
theorem tame_str : Tame str := tame_bind tame_var_u32 fun len => tame_copy len.toNat _

theorem tame_static_str (N : Nat) : Tame (static_str N) :=
  tame_bind tame_var_u32 fun len => tame_get fun _ => tame_bind (tame_throwIf _ nofun) fun _ =>
    tame_bind (tame_throwIf _ nofun) fun _ => tame_advance len.toNat

theorem tame_tlv_element : Tame tlv_element :=
  tame_bind tame_u16 fun _ => tame_bind tame_var_u32 fun len => tame_get fun _ => tame_bind (tame_throwIf _ nofun) fun _ =>
    tame_map _ (tame_advance len.toNat)

theorem tame_next_tlv : Tame next_tlv := tame_get fun _ => tame_ite _ (tame_pure none) (tame_map _ tame_tlv_element)

theorem tame_bits_loop (bitCount : UInt8) (passes : Nat) : Tame (bits_loop bitCount passes) := by
  induction passes with
  | zero => exact tame_pure ()
  | succ passes ih =>
    refine tame_get fun _ => tame_ite _ (tame_bind tame_u8 fun b => ?_) (tame_pure ())
    exact tame_bind (fun _ inside => ⟨rfl,inside,nofun⟩) fun _ => ih

theorem tame_bits (bitCount : UInt8) : Tame (bits bitCount) :=
  tame_bind (tame_throwIf _ nofun) fun _ => tame_bind (tame_bits_loop bitCount _) fun _ _ inside => ⟨rfl,inside,nofun⟩

end Primitives

section Hazards

theorem never_integral (type : Integral) : Never (read_integral type) := by
  cases type with
  | u8 => exact never_u8
  | u16 => exact never_u16
  | u32 => exact never_u32
  | u64 => exact never_u64
  | i8 => exact breaks_map _ accepts_u8 never_u8
  | i16 => exact breaks_map _ accepts_u16 never_u16
  | i32 => exact never_i32
  | i64 => exact breaks_map _ accepts_u64 never_u64

theorem never_scalar (type : Scalar) : Never (read_scalar type) := by
  cases type with
  | integral type => exact never_integral type
  | enum underlying => exact never_integral underlying
  | f32 => exact never_u32
  | f64 => exact never_u64

theorem never_vector (type : Scalar) (Dim : Nat) : Never (read_vector type Dim) := by
  induction Dim with
  | zero => exact never_pure []
  | succ Dim ih =>
    exact never_bind (accepts_scalar type) (never_scalar type) fun _ => breaks_map _ (accepts_vector type Dim) ih

theorem never_vec4 : Never vec4 :=
  never_bind accepts_u32 never_u32 fun _ => never_bind accepts_u32 never_u32 fun _ =>
    never_bind accepts_u32 never_u32 fun _ => breaks_map _ accepts_u32 never_u32

theorem never_mat4_loop (left : Nat) : Never (mat4_loop left) := by
  induction left with
  | zero => exact never_pure []
  | succ left ih => exact never_bind accepts_u32 never_u32 fun _ => breaks_map _ (accepts_mat4_loop left) ih

theorem breaks_str : Breaks str Overlong := by
  apply breaks_congr (breaks_bind accepts_var_u32 breaks_var_u32 fun len => never_copy len.toNat _)
  intro bytes
  simp [Behind]

/-- A length that is left in the buffer, and that the string cannot hold. -/
def TooLong (N : Nat) : Bytes → Prop :=
  Behind ByteFormat.var_u32 fun len back => N < len.toNat ∧ len.toNat ≤ back.length

theorem breaks_static_str (N : Nat) : Breaks (static_str N) fun bytes => Overlong bytes ∨ TooLong N bytes := by
  refine breaks_bind accepts_var_u32 breaks_var_u32 fun len => ?_
  intro br fits
  have length : (cursor.rest br).length = br.remaining := List.length_drop
  change _ ↔ N < len.toNat ∧ len.toNat ≤ (cursor.rest br).length
  rw [exec_get_bind,exec_throwIf,exec_throwIf,length]
  by_cases short : br.remaining < len.toNat
  · rw [if_pos short]
    exact ⟨fun broken => absurd trivial broken,fun ⟨_,enough⟩ => absurd enough (Nat.not_le.mpr short)⟩
  · rw [if_neg short]
    by_cases long : N < len.toNat
    · rw [if_pos long]
      exact ⟨fun _ => ⟨long,Nat.not_lt.mp short⟩,fun _ settled => settled⟩
    · have inside : br.i ≤ br.n := fits.1
      have room : br.i+len.toNat ≤ br.n := by
        unfold remaining at short
        omega
      rw [if_neg long,advance,exec_get_bind,if_pos room]
      exact ⟨fun broken => absurd trivial broken,fun ⟨beyond,_⟩ => absurd beyond long⟩

/-- The length of an element is overlong. -/
def OverlongLength : Bytes → Prop := Behind ByteFormat.u16 fun _ => Overlong

theorem breaks_tlv_element : Breaks tlv_element OverlongLength := by
  have element (tag : UInt16) : Breaks (do
      let len ← var_u32
      let br ← get
      throwIf (br.remaining < len.toNat) (.byteError "TLV overflow")
      let value ← advance len.toNat
      pure (tag,value)) Overlong := by
    have counted (len : UInt32) : Never (do
        let br ← get
        throwIf (br.remaining < len.toNat) (.byteError "TLV overflow")
        let value ← advance len.toNat
        pure (tag,value)) := by
      have copied := breaks_map (tag,·) (accepts_counted_bytes len.toNat _) (never_copy len.toNat "TLV overflow")
      simpa only [bind_assoc] using copied
    apply breaks_congr (breaks_bind accepts_var_u32 breaks_var_u32 counted)
    intro bytes
    simp [Behind]
  apply breaks_congr (breaks_bind accepts_u16 never_u16 element)
  intro bytes
  rw [false_or,OverlongLength]

theorem breaks_next_tlv : Breaks next_tlv OverlongLength := by
  intro br fits
  rw [next_tlv,exec_get_bind]
  by_cases ended : br.remaining = 0
  · have nothing : cursor.rest br = [] := List.length_eq_zero_iff.mp (List.length_drop.trans ended)
    rw [if_pos ended,nothing]
    refine ⟨fun broken => absurd trivial broken,?_⟩
    rintro ⟨front,_,_,empty,_,groups,b,rest,rfl,_⟩
    simp at empty
  · rw [if_neg ended]
    exact breaks_map some accepts_tlv_element breaks_tlv_element br fits

end Hazards

section Bits

theorem exec_u8_end {br : ByteReader} (fits : br.Addressable) (ended : br.remaining = 0) :
    exec u8 br = (.error (.byteError "read overflow"),br) := by
  obtain ⟨inside,bounded⟩ := fits
  have inside : br.i ≤ br.n := inside
  have last : br.n < (br.i+1) % 2^64 := by
    unfold remaining at ended
    omega
  have stopped : exec (read_be 1) br = (.error (.byteError "read overflow"),br) := by
    rw [read_be,exec_bind,ByteReader.read,exec_get_bind,exec_throwIf,if_pos last]
  rw [u8,exec_bind_error _ _ _ _ _ stopped]

theorem exec_u8_next {br : ByteReader} (inside : cursor.Inside br) {b : UInt8} {back : Bytes} (here : cursor.rest br = b::back) :
    exec u8 br = (.ok b,{br with i := br.i+1}) :=
  (accepts_u8 br inside b _).mpr ⟨[b],back,(ByteFormat.u8_iff _ b).mpr rfl,here,rfl⟩

theorem bitPos_advanced {bitPos : UInt8} (room : bitPos.toNat < 32) : (bitPos+8).toNat = bitPos.toNat+8 := by
  rw [UInt8.toNat_add]
  exact Nat.mod_eq_of_lt (by change bitPos.toNat+8 < 256; omega)

/-- The loop takes the bytes that are missing, or finds the end of the buffer. -/
theorem exec_bits_loop (bitCount : UInt8) (small : bitCount.toNat ≤ 32) (passes : Nat) {br : ByteReader} (fits : br.Addressable)
    (enough : bitCount.toNat ≤ br.bitPos.toNat+8*passes) :
    (exec (bits_loop bitCount passes) br).1 = if (bitCount.toNat-br.bitPos.toNat+7)/8 ≤ br.remaining then .ok ()
      else .error (.byteError "read overflow") := by
  induction passes generalizing br with
  | zero =>
    rw [if_pos (by omega)]
    rfl
  | succ passes ih =>
    rw [bits_loop,exec_get_bind]
    by_cases missing : br.bitPos < bitCount
    · have below : br.bitPos.toNat < bitCount.toNat := UInt8.lt_iff_toNat_lt.mp missing
      rw [if_pos missing]
      cases here : cursor.rest br with
      | nil =>
        have ended : br.remaining = 0 := remaining_of_rest here
        rw [exec_bind_error _ _ _ _ _ (exec_u8_end fits ended),if_neg (by omega)]
      | cons b back =>
        have long : br.remaining = back.length+1 := remaining_of_rest here
        obtain ⟨within,there⟩ := addressable_skip fits (show cursor.rest br = [b] ++ back from here)
        let next : ByteReader :=
          {br with i := br.i+1,bitBuffer := br.bitBuffer ||| b.toUInt64 <<< br.bitPos.toUInt64,bitPos := br.bitPos+8}
        have left : next.remaining = back.length := remaining_of_rest there
        have moved : next.bitPos.toNat = br.bitPos.toNat+8 := bitPos_advanced (by omega)
        rw [exec_bind_ok _ _ _ _ _ (exec_u8_next fits.1 here),exec_modify_bind]
        have reachable : next.Addressable := within
        rw [show exec (bits_loop bitCount passes) _ = exec (bits_loop bitCount passes) next from rfl,
          ih reachable (by omega),moved,left,long]
        have count : (bitCount.toNat-(br.bitPos.toNat+8)+7)/8 ≤ back.length ↔
            (bitCount.toNat-br.bitPos.toNat+7)/8 ≤ back.length+1 := by omega
        simp only [count]
    · have above : bitCount.toNat ≤ br.bitPos.toNat := UInt8.le_iff_toNat_le.mp (UInt8.not_lt.mp missing)
      rw [if_neg missing,if_pos (by omega)]
      rfl

end Bits

end ByteReader

namespace Kind

/-- What the bytes ahead must not be for the kind of field. -/
def Hazard : Kind → Bytes → Prop
  | str => ByteReader.Overlong
  | static_string N => fun bytes => ByteReader.Overlong bytes ∨ ByteReader.TooLong N bytes
  | blob => ByteReader.Overlong
  | var_u32 => ByteReader.Overlong
  | var_i32 => ByteReader.Overlong
  | tlv => ByteReader.OverlongLength
  | _ => fun _ => False

/-- The bytes that the kind needs; those of a string do not depend on the size of the variable. -/
def Needs : Kind → Bytes → Prop
  | static_string _ => fun bytes => ∃ value, ByteFormat.blob.Begins bytes value
  | kind => fun bytes => ∃ value, kind.format.Begins bytes value

end Kind

/-- An operation of the reader with its arguments. The elements of a stream are read by
`next_tlv` alone. -/
inductive Operation
  | field (kind : Kind) (plain : kind ≠ .tlv)
  | read (bytes : UInt64)
  | bits (bitCount : UInt8)
  | align_bits
  | next_tlv

namespace Operation
open ByteReader

def Value : Operation → Type
  | field kind _ => kind.Value
  | read _ => Bytes
  | bits _ => UInt32
  | align_bits => Unit
  | next_tlv => Option (UInt16 × Bytes)

def run : (op : Operation) → Program ByteReader op.Value
  | field kind _ => kind.read
  | read bytes => ByteReader.read bytes.toNat
  | bits bitCount => ByteReader.bits bitCount
  | align_bits => modify ByteReader.align_bits
  | next_tlv => ByteReader.next_tlv

/-- The bytes that the operation needs are left. No bytes are enough for more than 32 bits. -/
def Enough : Operation → ByteReader → Prop
  | field kind _,br => kind.Needs (cursor.rest br)
  | read bytes,br => bytes.toNat ≤ br.remaining
  | bits bitCount,br => bitCount ≤ 32 ∧ (bitCount.toNat-br.bitPos.toNat+7)/8 ≤ br.remaining
  | align_bits,_ => True
  | next_tlv,br => br.remaining = 0 ∨ ∃ value, ByteFormat.tlv.Begins (cursor.rest br) value

/-- What the operation must not meet. -/
def Hazard : Operation → ByteReader → Prop
  | field kind _,br => kind.Hazard (cursor.rest br)
  | read bytes,br => 2^64 ≤ br.i+bytes.toNat
  | bits _,_ => False
  | align_bits,_ => False
  | next_tlv,br => OverlongLength (cursor.rest br)

def after (op : Operation) (br : ByteReader) : ByteReader := (exec op.run br).2

/-- The operation stays in the buffer, succeeds exactly when the bytes it needs remain, and
reports a failure as a `ByteError`; a byte beyond the buffer that is read is a fault of another
kind. -/
structure Orderly (op : Operation) (br : ByteReader) : Prop where
  inside : (op.after br).p = br.p ∧ (op.after br).i ≤ (op.after br).n
  succeeds : (∃ value, (exec op.run br).1 = .ok value) ↔ op.Enough br
  reported : ∀ fault, (exec op.run br).1 = .error fault → ∃ what, fault = .byteError what

/-- The operations of a sequence, each with the reader it finds. -/
def steps : List Operation → ByteReader → List (Operation × ByteReader)
  | [],_ => []
  | op::ops,br => (op,br)::steps ops (op.after br)

theorem tame_run (op : Operation) : Tame op.run := by
  cases op with
  | field kind plain =>
    cases kind with
    | u8 => exact tame_u8
    | u16 => exact tame_u16
    | u32 => exact tame_u32
    | u64 => exact tame_u64
    | i8 => exact tame_map _ (tame_map _ tame_u8)
    | i16 => exact tame_map _ (tame_map _ tame_u16)
    | i32 => exact tame_i32
    | i64 => exact tame_map _ tame_u64
    | f32 => exact tame_u32
    | f64 => exact tame_u64
    | scalar type => exact tame_scalar type
    | vec2 => exact tame_bind tame_u32 fun _ => tame_map _ tame_u32
    | vec3 => exact tame_bind tame_u32 fun _ => tame_bind tame_u32 fun _ => tame_map _ tame_u32
    | vec4 => exact tame_vec4
    | ivec2 => exact tame_bind tame_i32 fun _ => tame_map _ tame_i32
    | ivec3 => exact tame_bind tame_i32 fun _ => tame_bind tame_i32 fun _ => tame_map _ tame_i32
    | quat => exact tame_map _ tame_vec4
    | mat4 => exact tame_mat4_loop 16
    | vector Dim type => exact tame_vector type Dim
    | uuid => exact tame_uuid
    | str => exact tame_str
    | static_string N => exact tame_static_str N
    | blob => exact tame_blob
    | var_u32 => exact tame_var_u32
    | var_i32 => exact tame_map _ tame_var_u32
    | tlv => exact absurd rfl plain
  | read bytes => exact tame_read _
  | bits bitCount => exact tame_bits bitCount
  | align_bits => exact fun _ inside => ⟨rfl,inside,nofun⟩
  | next_tlv => exact tame_next_tlv

theorem breaks_field (kind : Kind) (plain : kind ≠ .tlv) : Breaks kind.read kind.Hazard := by
  cases kind with
  | u8 => exact never_u8
  | u16 => exact never_u16
  | u32 => exact never_u32
  | u64 => exact never_u64
  | i8 => exact never_i8
  | i16 => exact breaks_map _ accepts_read_i16 (breaks_map _ accepts_u16 never_u16)
  | i32 => exact never_i32
  | i64 => exact breaks_map _ accepts_u64 never_u64
  | f32 => exact never_u32
  | f64 => exact never_u64
  | scalar type => exact never_scalar type
  | vec2 => exact never_bind accepts_u32 never_u32 fun _ => breaks_map _ accepts_u32 never_u32
  | vec3 => exact never_vec3
  | vec4 => exact never_vec4
  | ivec2 => exact never_bind accepts_i32 never_i32 fun _ => breaks_map _ accepts_i32 never_i32
  | ivec3 =>
    exact never_bind accepts_i32 never_i32 fun _ => never_bind accepts_i32 never_i32 fun _ => breaks_map _ accepts_i32 never_i32
  | quat => exact breaks_map _ accepts_vec4 never_vec4
  | mat4 => exact never_mat4_loop 16
  | vector Dim type => exact never_vector type Dim
  | uuid => exact never_uuid
  | str => exact breaks_str
  | static_string N => exact breaks_static_str N
  | blob => exact breaks_blob
  | var_u32 => exact breaks_var_u32
  | var_i32 => exact breaks_map _ accepts_var_u32 breaks_var_u32
  | tlv => exact absurd rfl plain

theorem needs_iff (kind : Kind) {bytes : Bytes} (clear : ¬ kind.Hazard bytes) :
    kind.Needs bytes ↔ ∃ value, kind.format.Begins bytes value := by
  cases kind with
  | static_string N =>
    constructor
    · rintro ⟨value,front,rest,rfl,length,_,len,rfl,counts,copied,rfl⟩
      have held : len.toNat ≤ N := by
        by_contra beyond
        refine clear (.inr ⟨length,value ++ rest,len,List.append_assoc ..,counts,Nat.not_le.mp beyond,?_⟩)
        rw [List.length_append,← copied]
        exact Nat.le_add_right _ _
      exact ⟨value,_,rest,rfl,length,_,len,rfl,counts,[],_,(),rfl,⟨rfl,held⟩,copied,rfl⟩
    · rintro ⟨value,front,rest,rfl,length,_,len,rfl,counts,_,_,_,rfl,⟨rfl,_⟩,copied⟩
      exact ⟨value,_,rest,rfl,length,_,len,rfl,counts,copied⟩
  | _ => exact Iff.rfl

theorem exec_bits_outcome (bitCount : UInt8) {br : ByteReader} (fits : br.Addressable) :
    ((∃ value, (exec (ByteReader.bits bitCount) br).1 = .ok value) ↔ (bits bitCount).Enough br) ∧
      Settles (exec (ByteReader.bits bitCount) br).1 := by
  rw [ByteReader.bits,exec_throwIf,Enough]
  by_cases wide : 32 < bitCount
  · rw [if_pos wide]
    exact ⟨⟨nofun,fun ⟨small,_⟩ => absurd wide (UInt8.not_lt.mpr small)⟩,trivial⟩
  · have small : bitCount.toNat ≤ 32 := UInt8.le_iff_toNat_le.mp (UInt8.not_lt.mp wide)
    have loop := exec_bits_loop bitCount small bitCount.toNat fits (by omega)
    rw [if_neg wide]
    rcases ran : exec (bits_loop bitCount bitCount.toNat) br with ⟨fault | ⟨⟩,middle⟩
    · rw [ran] at loop
      split at loop
      · cases loop
      · rename_i short
        obtain rfl := Except.error.inj loop
        rw [exec_bind_error _ _ _ _ _ ran]
        exact ⟨⟨nofun,fun ⟨_,enough⟩ => absurd enough short⟩,trivial⟩
    · rw [ran] at loop
      split at loop
      · rename_i enough
        rw [exec_bind_ok _ _ _ _ _ ran]
        exact ⟨⟨fun _ => ⟨UInt8.not_lt.mp wide,enough⟩,fun _ => ⟨_,rfl⟩⟩,trivial⟩
      · cases loop

/-- The sum wraps around exactly when the check lets a copy beyond the buffer pass. -/
theorem exec_read_outcome (bytes : UInt64) {br : ByteReader} (fits : br.Addressable) :
    ((∃ value, (exec (ByteReader.read bytes.toNat) br).1 = .ok value) ↔ bytes.toNat ≤ br.remaining) ∧
      (Settles (exec (ByteReader.read bytes.toNat) br).1 ↔ br.i+bytes.toNat < 2^64) := by
  obtain ⟨inside,bounded⟩ := fits
  have inside : br.i ≤ br.n := inside
  have small := bytes.toNat_lt
  rw [ByteReader.read,exec_get_bind,exec_throwIf,advance,exec_get_bind]
  unfold remaining
  by_cases wraps : br.i+bytes.toNat < 2^64
  · rw [Nat.mod_eq_of_lt wraps]
    by_cases exceeds : br.n < br.i+bytes.toNat
    · rw [if_pos exceeds]
      exact ⟨⟨by simp,fun enough => by omega⟩,fun _ => wraps,fun _ => trivial⟩
    · rw [if_neg exceeds,if_pos (Nat.not_lt.mp exceeds)]
      exact ⟨⟨fun _ => by omega,fun _ => ⟨_,rfl⟩⟩,fun _ => wraps,fun _ => trivial⟩
  · rw [if_neg (by omega),if_neg (by omega)]
    exact ⟨⟨by simp,fun enough => by omega⟩,fun settles => settles.elim,fun fits => absurd fits wraps⟩

theorem settles_run_iff (op : Operation) {br : ByteReader} (fits : br.Addressable) :
    Settles (exec op.run br).1 ↔ ¬ op.Hazard br := by
  cases op with
  | field kind plain => exact (not_iff_comm.mp (breaks_field kind plain br fits)).symm
  | read bytes => exact (exec_read_outcome bytes fits).2.trans Nat.not_le.symm
  | bits bitCount => exact iff_of_true (exec_bits_outcome bitCount fits).2 id
  | align_bits => exact iff_of_true trivial id
  | next_tlv => exact (not_iff_comm.mp (breaks_next_tlv br fits)).symm

theorem succeeds_iff (op : Operation) {br : ByteReader} (fits : br.Addressable) (clear : ¬ op.Hazard br) :
    (∃ value, (exec op.run br).1 = .ok value) ↔ op.Enough br := by
  cases op with
  | field kind plain =>
    have begins (value : kind.Value) := Cursor.accepts_within kind.accepts_read fits.1 value
    exact (exists_congr begins).trans (needs_iff kind clear).symm
  | read bytes => exact (exec_read_outcome bytes fits).1
  | bits bitCount => exact (exec_bits_outcome bitCount fits).1
  | align_bits => exact iff_of_true ⟨(),rfl⟩ trivial
  | next_tlv =>
    change (∃ value, (exec ByteReader.next_tlv br).1 = .ok value) ↔ _
    rw [ByteReader.next_tlv,exec_get_bind,Enough]
    by_cases ended : br.remaining = 0
    · rw [if_pos ended]
      exact iff_of_true ⟨none,rfl⟩ (.inl ended)
    · rw [if_neg ended,or_iff_right ended]
      have begins (value : UInt16 × Bytes) := Cursor.accepts_within accepts_tlv_element fits.1 value
      rw [← exists_congr begins]
      rcases ran : exec tlv_element br with ⟨fault | value,middle⟩
      · rw [exec_bind_error _ _ _ _ _ ran]
        exact iff_of_false (by simp) (by simp)
      · rw [exec_bind_ok _ _ _ _ _ ran]
        exact iff_of_true ⟨_,rfl⟩ ⟨_,rfl⟩

/-- One operation is orderly exactly when it does not meet what it must not meet. -/
theorem orderly_iff (op : Operation) {br : ByteReader} (fits : br.Addressable) : Orderly op br ↔ ¬ op.Hazard br := by
  have reported := settles_iff_reported op.tame_run fits.1
  constructor
  · intro orderly
    exact (op.settles_run_iff fits).mp (reported.mpr orderly.reported)
  · intro clear
    obtain ⟨same,within,_⟩ := op.tame_run br fits.1
    exact ⟨⟨same,within⟩,op.succeeds_iff fits clear,reported.mp ((op.settles_run_iff fits).mpr clear)⟩

theorem addressable_after (op : Operation) {br : ByteReader} (fits : br.Addressable) : (op.after br).Addressable := by
  obtain ⟨same,within,_⟩ := op.tame_run br fits.1
  refine ⟨within,?_⟩
  change (op.after br).p.length < 2^63
  rw [show (op.after br).p = br.p from same]
  exact fits.2

/-- A sequence of operations is orderly throughout exactly when no operation of it meets what it
must not meet. -/
theorem sequence_orderly_iff (bytes : Bytes) (object : bytes.length < 2^63) (ops : List Operation) :
    (∀ step ∈ steps ops {p := bytes}, Orderly step.1 step.2) ↔ ∀ step ∈ steps ops {p := bytes}, ¬ step.1.Hazard step.2 := by
  have run (ops : List Operation) (br : ByteReader) (fits : br.Addressable) :
      ∀ step ∈ steps ops br, step.2.Addressable := by
    induction ops generalizing br with
    | nil => exact nofun
    | cons op ops ih =>
      intro step member
      rcases List.mem_cons.mp member with rfl | later
      · exact fits
      · exact ih _ (op.addressable_after fits) step later
  have fits := run ops {p := bytes} ⟨Nat.zero_le _,object⟩
  exact forall₂_congr fun step member => step.1.orderly_iff (fits step member)

theorem sequence_orderly_three : Orderly (.read 1) ((bits 4).after ((field .u8 nofun).after {p := [1,2,3]})) := by
  have clear : ∀ step ∈ steps [.field .u8 nofun,.bits 4,.read 1] {p := [1,2,3]}, ¬ step.1.Hazard step.2 := by
    intro step member
    rcases List.mem_cons.mp member with rfl | later
    · exact id
    rcases List.mem_cons.mp later with rfl | later
    · exact id
    obtain rfl := List.mem_singleton.mp later
    have near : ((bits 4).after ((field .u8 nofun).after {p := [1,2,3]})).i+1 < 2^64 := by decide
    exact Nat.not_le.mpr near
  exact (sequence_orderly_iff [1,2,3] (by decide) _).mpr clear _ (List.mem_cons_of_mem _ (List.mem_cons_of_mem _ List.mem_cons_self))

/-- Behind the first of two bytes, a count near 2^64 passes the check of `read` and the copy leaves
the buffer; a string of three characters does not fit into a `static_string<2>`. -/
theorem sequence_disorderly :
    (∃ step ∈ steps [.field .u8 nofun,.read 0xFFFFFFFFFFFFFFFF] {p := [0,0]}, ¬ Orderly step.1 step.2) ∧
      ∃ step ∈ steps [.field (.static_string 2) nofun] {p := [3,65,66,67]}, ¬ Orderly step.1 step.2 := by
  constructor
  · refine ⟨_,List.mem_cons_of_mem _ List.mem_cons_self,fun orderly => ?_⟩
    obtain ⟨what,same⟩ := orderly.reported (.undefined "read past the buffer") rfl
    cases same
  · refine ⟨_,List.mem_cons_self,fun orderly => ?_⟩
    obtain ⟨what,same⟩ := orderly.reported .lengthError rfl
    cases same

end Operation

end AtlasNet
