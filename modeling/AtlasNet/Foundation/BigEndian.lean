import Mathlib.Tactic.Common
import Mathlib.Tactic.Ring

/-! Unsigned numbers as a fixed count of bytes, most significant byte first. -/
namespace AtlasNet.Foundation.BigEndian

def encode : Nat → Nat → List UInt8
  | 0,_ => []
  | width+1,value => UInt8.ofNat (value >>> (width*8))::encode width value

def accumulate (value : Nat) (byte : UInt8) : Nat := value*256+byte.toNat

def decode (bytes : List UInt8) : Nat := bytes.foldl accumulate 0

@[simp] theorem encode_length (width value : Nat) : (encode width value).length = width := by
  induction width with
  | zero => rfl
  | succ width ih => simp [encode,ih]

theorem decode_from (bytes : List UInt8) (start : Nat) :
    bytes.foldl accumulate start = start*256^bytes.length+decode bytes := by
  induction bytes generalizing start with
  | nil => simp [decode]
  | cons byte bytes ih =>
    simp only [decode,List.foldl_cons,List.length_cons]
    rw [ih (accumulate start byte),ih (accumulate 0 byte)]
    simp only [accumulate,Nat.zero_mul,Nat.zero_add]
    ring

theorem decode_cons (byte : UInt8) (bytes : List UInt8) :
    decode (byte::bytes) = byte.toNat*256^bytes.length+decode bytes := by
  change bytes.foldl accumulate (accumulate 0 byte) = _
  rw [decode_from]
  simp only [accumulate,Nat.zero_mul,Nat.zero_add]

/-- Decoding undoes encoding up to what the width holds. -/
theorem decode_encode (width value : Nat) : decode (encode width value) = value % 256^width := by
  induction width with
  | zero => simp [encode,decode,Nat.mod_one]
  | succ width ih =>
    rw [encode,decode_cons,encode_length,ih]
    have base : (2:Nat)^(width*8) = 256^width := by rw [Nat.mul_comm,Nat.pow_mul]
    have digit : (UInt8.ofNat (value >>> (width*8))).toNat = value / 256^width % 256 := by
      simp only [UInt8.toNat_ofNat',Nat.shiftRight_eq_div_pow,base]
    rw [digit,Nat.pow_succ,Nat.mod_mul,Nat.mul_comm,Nat.add_comm]

theorem decode_lt (bytes : List UInt8) : decode bytes < 256^bytes.length := by
  induction bytes with
  | nil => simp [decode]
  | cons byte bytes ih =>
    have small : byte.toNat < 256 := byte.toNat_lt
    have bounded : byte.toNat*256^bytes.length ≤ 255*256^bytes.length :=
      Nat.mul_le_mul_right _ (by omega)
    rw [decode_cons,List.length_cons,Nat.pow_succ]
    omega

theorem encode_high (width high value : Nat) : encode width (high*256^width+value) = encode width value := by
  induction width generalizing high with
  | zero => rfl
  | succ width ih =>
    have base : (2:Nat)^(width*8) = 256^width := by rw [Nat.mul_comm,Nat.pow_mul]
    have shape : high*256^(width+1)+value = high*256*256^width+value := by ring
    have digit : (high*256*256^width+value)/256^width = high*256+value/256^width := by
      rw [Nat.add_comm,Nat.add_mul_div_right _ _ (Nat.pow_pos (by decide)),Nat.add_comm]
    rw [shape,encode,encode,ih,Nat.shiftRight_eq_div_pow,Nat.shiftRight_eq_div_pow,base,digit]
    congr 1
    apply UInt8.toNat_inj.mp
    rw [UInt8.toNat_ofNat',UInt8.toNat_ofNat']
    omega

theorem encode_decode (bytes : List UInt8) : encode bytes.length (decode bytes) = bytes := by
  induction bytes with
  | nil => rfl
  | cons byte bytes ih =>
    have base : (2:Nat)^(bytes.length*8) = 256^bytes.length := by rw [Nat.mul_comm,Nat.pow_mul]
    have digit : (byte.toNat*256^bytes.length+decode bytes)/256^bytes.length = byte.toNat := by
      rw [Nat.add_comm,Nat.add_mul_div_right _ _ (Nat.pow_pos (by decide)),Nat.div_eq_of_lt (decode_lt bytes),
        Nat.zero_add]
    rw [List.length_cons,encode,decode_cons,encode_high,ih,Nat.shiftRight_eq_div_pow,base,digit,UInt8.ofNat_toNat]

end AtlasNet.Foundation.BigEndian
