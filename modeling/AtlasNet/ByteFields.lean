import AtlasNet.ByteWriting

/-! Sequences of fields of the byte-level kinds: what the writer appends for them
reads back, whatever follows. -/
namespace AtlasNet
open Foundation Foundation.Program

/-- The operations of the writer and the reader that a field goes through; a vector is a
field of `write_vector`. -/
inductive Kind
  | u8
  | u16
  | u32
  | u64
  | i8
  | i16
  | i32
  | i64
  | f32
  | f64
  | scalar (type : Scalar)
  | vec2
  | vec3
  | vec4
  | ivec2
  | ivec3
  | quat
  | mat4
  | vector (Dim : Nat) (type : Scalar)
  | uuid
  | str
  | static_string (N : Nat)
  | blob
  | var_u32
  | var_i32
  | tlv

namespace Kind

def Value : Kind → Type
  | u8 => UInt8
  | u16 => UInt16
  | u32 => UInt32
  | u64 => UInt64
  | i8 => Int32
  | i16 => Int32
  | i32 => Int32
  | i64 => Int64
  | f32 => UInt32
  | f64 => UInt64
  | scalar type => type.Value
  | vec2 => UInt32 × UInt32
  | vec3 => UInt32 × UInt32 × UInt32
  | vec4 => UInt32 × UInt32 × UInt32 × UInt32
  | ivec2 => Int32 × Int32
  | ivec3 => Int32 × Int32 × Int32
  | quat => Quat
  | mat4 => List UInt32
  | vector _ type => List type.Value
  | uuid => UUID
  | str => Bytes
  | static_string _ => Bytes
  | blob => Bytes
  | var_u32 => UInt32
  | var_i32 => Int32
  | tlv => UInt16 × Bytes

/-- What the types of the source promise, and that lengths can be counted in 32 bits. The
reader gives `i8` and `i16` as an `int32_t`. -/
def Fits : (kind : Kind) → kind.Value → Prop
  | i8,v => (Int32.toInt8 v).toInt32 = v
  | i16,v => (Int32.toInt16 v).toInt32 = v
  | mat4,v => List.length v = 16
  | vector Dim _,v => List.length v = Dim
  | str,v => List.length v < 2^32
  | static_string N,v => List.length v ≤ N ∧ List.length v < 2^32
  | blob,v => List.length v < 2^32
  | tlv,v => (Prod.snd v).length < 2^32
  | _,_ => True

def write : (kind : Kind) → kind.Value → ByteWriter → ByteWriter
  | u8 => ByteWriter.u8
  | u16 => ByteWriter.u16
  | u32 => ByteWriter.u32
  | u64 => ByteWriter.u64
  | i8 => fun v => ByteWriter.i8 (Int32.toInt8 v)
  | i16 => fun v => ByteWriter.i16 (Int32.toInt16 v)
  | i32 => ByteWriter.i32
  | i64 => ByteWriter.i64
  | f32 => ByteWriter.f32
  | f64 => ByteWriter.f64
  | scalar type => ByteWriter.write_scalar type
  | vec2 => ByteWriter.vec2
  | vec3 => ByteWriter.vec3
  | vec4 => ByteWriter.vec4
  | ivec2 => ByteWriter.ivec2
  | ivec3 => ByteWriter.ivec3
  | quat => ByteWriter.quat
  | mat4 => ByteWriter.mat4
  | vector _ type => ByteWriter.write_vector type
  | uuid => ByteWriter.uuid
  | str => ByteWriter.str
  | static_string _ => ByteWriter.str
  | blob => ByteWriter.blob
  | var_u32 => ByteWriter.var_u32
  | var_i32 => ByteWriter.var_i32
  | tlv => fun v => ByteWriter.tlv v.1 {buf := v.2}

def read : (kind : Kind) → Program ByteReader kind.Value
  | u8 => ByteReader.u8
  | u16 => ByteReader.u16
  | u32 => ByteReader.u32
  | u64 => ByteReader.u64
  | i8 => ByteReader.i8
  | i16 => ByteReader.i16
  | i32 => ByteReader.i32
  | i64 => ByteReader.i64
  | f32 => ByteReader.f32
  | f64 => ByteReader.f64
  | scalar type => ByteReader.read_scalar type
  | vec2 => ByteReader.vec2
  | vec3 => ByteReader.vec3
  | vec4 => ByteReader.vec4
  | ivec2 => ByteReader.ivec2
  | ivec3 => ByteReader.ivec3
  | quat => ByteReader.quat
  | mat4 => ByteReader.mat4
  | vector Dim type => ByteReader.read_vector type Dim
  | uuid => ByteReader.uuid
  | str => ByteReader.str
  | static_string N => ByteReader.static_str N
  | blob => ByteReader.blob
  | var_u32 => ByteReader.var_u32
  | var_i32 => ByteReader.var_i32
  | tlv => ByteReader.expect_tlv

def format : (kind : Kind) → Format UInt8 kind.Value
  | u8 => ByteFormat.u8
  | u16 => ByteFormat.u16
  | u32 => ByteFormat.u32
  | u64 => ByteFormat.u64
  | i8 => ByteFormat.i8
  | i16 => ByteFormat.i16
  | i32 => ByteFormat.i32
  | i64 => ByteFormat.i64
  | f32 => ByteFormat.u32
  | f64 => ByteFormat.u64
  | scalar type => ByteFormat.scalar type
  | vec2 => ByteFormat.vec2
  | vec3 => ByteFormat.vec3
  | vec4 => ByteFormat.vec4
  | ivec2 => ByteFormat.ivec2
  | ivec3 => ByteFormat.ivec3
  | quat => ByteFormat.quat
  | mat4 => ByteFormat.mat4
  | vector Dim type => (ByteFormat.scalar type).times Dim
  | uuid => ByteFormat.uuid
  | str => ByteFormat.blob
  | static_string N => ByteFormat.static_str N
  | blob => ByteFormat.blob
  | var_u32 => ByteFormat.var_u32
  | var_i32 => ByteFormat.var_i32
  | tlv => ByteFormat.tlv

theorem accepts_read (kind : Kind) : ByteReader.cursor.Accepts kind.read kind.format := by
  cases kind with
  | u8 => exact ByteReader.accepts_u8
  | u16 => exact ByteReader.accepts_u16
  | u32 => exact ByteReader.accepts_u32
  | u64 => exact ByteReader.accepts_u64
  | i8 => exact ByteReader.accepts_i8
  | i16 => exact ByteReader.accepts_i16
  | i32 => exact ByteReader.accepts_i32
  | i64 => exact ByteReader.accepts_i64
  | f32 => exact ByteReader.accepts_u32
  | f64 => exact ByteReader.accepts_u64
  | scalar type => exact ByteReader.accepts_scalar type
  | vec2 => exact ByteReader.accepts_vec2
  | vec3 => exact ByteReader.accepts_vec3
  | vec4 => exact ByteReader.accepts_vec4
  | ivec2 => exact ByteReader.accepts_ivec2
  | ivec3 => exact ByteReader.accepts_ivec3
  | quat => exact ByteReader.accepts_quat
  | mat4 => exact ByteReader.accepts_mat4_loop 16
  | vector Dim type => exact ByteReader.accepts_vector type Dim
  | uuid => exact ByteReader.accepts_uuid
  | str => exact ByteReader.accepts_str
  | static_string N => exact ByteReader.accepts_static_str N
  | blob => exact ByteReader.accepts_blob
  | var_u32 => exact ByteReader.accepts_var_u32
  | var_i32 => exact ByteReader.accepts_var_i32
  | tlv => exact ByteReader.accepts_expect_tlv

theorem written_write (kind : Kind) (v : kind.Value) (fits : kind.Fits v) :
    Written (kind.write v) kind.format v := by
  cases kind with
  | u8 => exact ByteWriter.written_u8 v
  | u16 => exact ByteWriter.written_u16 v
  | u32 => exact ByteWriter.written_u32 v
  | u64 => exact ByteWriter.written_u64 v
  | i8 =>
    have wrote := ByteWriter.written_i8 (Int32.toInt8 v)
    rw [show (Int32.toInt8 v).toInt32 = v from fits] at wrote
    exact wrote
  | i16 =>
    have wrote := ByteWriter.written_i16 (Int32.toInt16 v)
    rw [show (Int32.toInt16 v).toInt32 = v from fits] at wrote
    exact wrote
  | i32 => exact ByteWriter.written_i32 v
  | i64 => exact ByteWriter.written_i64 v
  | f32 => exact ByteWriter.written_u32 v
  | f64 => exact ByteWriter.written_u64 v
  | scalar type => exact ByteWriter.written_scalar type v
  | vec2 => exact ByteWriter.written_vec2 v
  | vec3 => exact ByteWriter.written_vec3 v
  | vec4 => exact ByteWriter.written_vec4 v
  | ivec2 => exact ByteWriter.written_ivec2 v
  | ivec3 => exact ByteWriter.written_ivec3 v
  | quat => exact ByteWriter.written_quat v
  | mat4 => exact ByteWriter.written_mat4 v fits
  | vector Dim type =>
    have wrote := ByteWriter.written_vector type v
    rw [show List.length v = Dim from fits] at wrote
    exact wrote
  | uuid => exact ByteWriter.written_uuid v
  | str => exact ByteWriter.written_str v fits
  | static_string N => exact ByteWriter.written_static_str N v fits.1 fits.2
  | blob => exact ByteWriter.written_blob v fits
  | var_u32 => exact ByteWriter.written_var_u32 v
  | var_i32 => exact ByteWriter.written_var_i32 v
  | tlv => exact ByteWriter.written_tlv v.1 {buf := v.2} fits

end Kind

structure Field where
  kind : Kind
  value : kind.Value
  fits : kind.Fits value

def Field.content (field : Field) : Σ kind : Kind, kind.Value := ⟨field.kind,field.value⟩

def writeFields (fields : List Field) (bw : ByteWriter) : ByteWriter :=
  fields.foldl (fun bw field => field.kind.write field.value bw) bw

def readFields : List Kind → Program ByteReader (List (Σ kind : Kind, kind.Value))
  | [] => pure []
  | kind::kinds => do
    let value ← kind.read
    let rest ← readFields kinds
    pure (⟨kind,value⟩::rest)

def formatFields : List Kind → Format UInt8 (List (Σ kind : Kind, kind.Value))
  | [] => pure []
  | kind::kinds => do
    let value ← kind.format
    let rest ← formatFields kinds
    pure (⟨kind,value⟩::rest)

theorem accepts_readFields (kinds : List Kind) :
    ByteReader.cursor.Accepts (readFields kinds) (formatFields kinds) := by
  induction kinds with
  | nil => exact Cursor.accepts_pure _
  | cons kind kinds ih =>
    exact Cursor.accepts_bind kind.accepts_read (fun _ => ByteReader.accepts_map _ ih)

theorem written_writeFields (fields : List Field) :
    Written (writeFields fields) (formatFields (fields.map Field.kind)) (fields.map Field.content) := by
  induction fields with
  | nil => exact written_pure []
  | cons field fields ih =>
    have head := field.kind.written_write field.value field.fits
    have wrote : Written _ (formatFields (field.kind::fields.map Field.kind)) (field.content::fields.map Field.content) :=
      written_bind head (written_map (field.content::·) ih)
    exact wrote

/-- The fields read back, and what follows them stays unread. -/
theorem readFields_writeFields (fields : List Field) (rest : Bytes) :
    exec (readFields (fields.map Field.kind)) {p := (writeFields fields {}).buf ++ rest} =
      (.ok (fields.map Field.content),
        {p := (writeFields fields {}).buf ++ rest,i := (writeFields fields {}).buf.length}) :=
  exec_written (accepts_readFields _) (written_writeFields fields) rest

end AtlasNet
