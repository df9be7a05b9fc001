import Mathlib.Tactic.Common
import Mathlib.Tactic.SplitIfs

/-! The base64 codec with padding: three bytes become four characters of the
alphabet, a shorter last group is padded with the equality sign, and a reader
stops at the first character outside the alphabet. -/
namespace AtlasNet.Foundation.Base64

/-- The alphabet by its character codes: upper case, lower case, digits, `+` and `/`. -/
def code (value : Nat) : Nat :=
  if value < 26 then value+65
  else if value < 52 then value-26+97
  else if value < 62 then value-52+48
  else if value = 62 then 43
  else 47

def symbol (value : Nat) : Char := Char.ofNat (code value)

def decodeCode (n : Nat) : Option Nat :=
  if 65 ≤ n ∧ n ≤ 90 then some (n-65)
  else if 97 ≤ n ∧ n ≤ 122 then some (n-97+26)
  else if 48 ≤ n ∧ n ≤ 57 then some (n-48+52)
  else if n = 43 then some 62
  else if n = 47 then some 63
  else none

def inverse (c : Char) : Option Nat := decodeCode c.toNat

def group (a b c : UInt8) : Nat := a.toNat*65536+b.toNat*256+c.toNat

def encode : List UInt8 → List Char
  | a::b::c::rest =>
    symbol (group a b c/262144)::symbol (group a b c/4096%64)::symbol (group a b c/64%64)::
      symbol (group a b c%64)::encode rest
  | [a,b] =>
    [symbol (group a b 0/262144),symbol (group a b 0/4096%64),symbol (group a b 0/64%64),'=']
  | [a] => [symbol (group a 0 0/262144),symbol (group a 0 0/4096%64),'=','=']
  | [] => []

/-- The values of the characters before the first one outside the alphabet. -/
def sextets : List Char → List Nat
  | [] => []
  | c::rest => match inverse c with
    | some value => value::sextets rest
    | none => []

def regroup (a b c d : Nat) : Nat := a*262144+b*4096+c*64+d

def ungroup : List Nat → List UInt8
  | a::b::c::d::rest =>
    UInt8.ofNat (regroup a b c d/65536)::UInt8.ofNat (regroup a b c d/256)::
      UInt8.ofNat (regroup a b c d)::ungroup rest
  | [a,b,c] => [UInt8.ofNat (regroup a b c 0/65536),UInt8.ofNat (regroup a b c 0/256)]
  | [a,b] => [UInt8.ofNat (regroup a b 0 0/65536)]
  | _ => []

def decode (text : List Char) : List UInt8 := ungroup (sextets text)

theorem decodeCode_code (value : Nat) (bound : value < 64) : decodeCode (code value) = some value := by
  unfold code
  split_ifs with upper lower digit plus
  · rw [decodeCode,if_pos (by omega)]
    congr 1
  · rw [decodeCode,if_neg (by omega),if_pos (by omega)]
    congr 1
    omega
  · rw [decodeCode,if_neg (by omega),if_neg (by omega),if_pos (by omega)]
    congr 1
    omega
  · rw [plus]
    rfl
  · have last : value = 63 := by omega
    rw [last]
    rfl

theorem symbol_code (value : Nat) : (symbol value).toNat = code value := by
  have valid : (code value).isValidChar := by
    left
    unfold code
    split_ifs <;> omega
  rw [symbol,Char.ofNat,dif_pos valid]
  rfl

theorem inverse_symbol (value : Nat) (bound : value < 64) : inverse (symbol value) = some value := by
  rw [inverse,symbol_code,decodeCode_code value bound]

theorem inverse_padding : inverse '=' = none := rfl

theorem group_lt (a b c : UInt8) : group a b c < 16777216 := by
  have boundA := a.toNat_lt
  have boundB := b.toNat_lt
  have boundC := c.toNat_lt
  unfold group
  omega

theorem regroup_digits (n : Nat) : regroup (n/262144) (n/4096%64) (n/64%64) (n%64) = n := by
  unfold regroup
  omega

private theorem byte_of (a : UInt8) (n : Nat) (same : n % 256 = a.toNat) : UInt8.ofNat n = a := by
  apply UInt8.toNat_inj.mp
  simpa using same

theorem group_first (a b c : UInt8) : UInt8.ofNat (group a b c/65536) = a := by
  have boundA := a.toNat_lt
  have boundB := b.toNat_lt
  have boundC := c.toNat_lt
  apply byte_of
  unfold group
  omega

theorem group_second (a b c : UInt8) : UInt8.ofNat (group a b c/256) = b := by
  have boundB := b.toNat_lt
  have boundC := c.toNat_lt
  apply byte_of
  unfold group
  omega

theorem group_third (a b c : UInt8) : UInt8.ofNat (group a b c) = c := by
  have boundC := c.toNat_lt
  apply byte_of
  unfold group
  omega

theorem sextets_symbol (value : Nat) (rest : List Char) (bound : value < 64) :
    sextets (symbol value::rest) = value::sextets rest := by
  rw [sextets,inverse_symbol value bound]

theorem sextets_padding (rest : List Char) : sextets ('='::rest) = [] := by
  rw [sextets,inverse_padding]

theorem group_high (a b c : UInt8) : group a b c/262144 < 64 := by
  have bound := group_lt a b c
  omega

/-- Decoding stops at the padding and returns the encoded bytes. -/
theorem decode_encode (bytes : List UInt8) : decode (encode bytes) = bytes := by
  unfold decode
  induction bytes using encode.induct with
  | case1 a b c rest ih =>
    rw [encode,sextets_symbol _ _ (group_high a b c),sextets_symbol _ _ (Nat.mod_lt _ (by decide)),
      sextets_symbol _ _ (Nat.mod_lt _ (by decide)),sextets_symbol _ _ (Nat.mod_lt _ (by decide)),
      ungroup,ih,regroup_digits,group_first,group_second,group_third]
  | case2 a b =>
    have low : group a b 0 % 64 = 0 := by
      simp only [group,UInt8.toNat_zero]
      omega
    have digits := regroup_digits (group a b 0)
    rw [low] at digits
    rw [encode,sextets_symbol _ _ (group_high a b 0),sextets_symbol _ _ (Nat.mod_lt _ (by decide)),
      sextets_symbol _ _ (Nat.mod_lt _ (by decide)),sextets_padding,ungroup,digits,group_first,
      group_second]
  | case3 a =>
    have low : group a 0 0 % 64 = 0 := by
      simp only [group,UInt8.toNat_zero]
      omega
    have middle : group a 0 0 / 64 % 64 = 0 := by
      simp only [group,UInt8.toNat_zero]
      omega
    have digits := regroup_digits (group a 0 0)
    rw [low,middle] at digits
    rw [encode,sextets_symbol _ _ (group_high a 0 0),sextets_symbol _ _ (Nat.mod_lt _ (by decide)),
      sextets_padding,ungroup,digits,group_first]
  | case4 => rfl

/-- A started group of three bytes is a group of four characters. -/
theorem encode_length (bytes : List UInt8) : (encode bytes).length = 4*((bytes.length+2)/3) := by
  induction bytes using encode.induct with
  | case1 a b c rest ih =>
    simp only [encode,List.length_cons,ih]
    omega
  | case2 a b => simp [encode]
  | case3 a => simp [encode]
  | case4 => rfl

theorem encode_nonempty (bytes : List UInt8) (some : bytes ≠ []) : encode bytes ≠ [] := by
  cases bytes using encode.fun_cases <;> simp_all [encode]

/-- What holds of the alphabet and of the padding holds of an encoded text. -/
theorem encode_forall {property : Char → Prop} (alphabet : ∀ value, property (symbol value)) (padding : property '=')
    (bytes : List UInt8) : ∀ c ∈ encode bytes, property c := by
  induction bytes using encode.induct with
  | case1 a b c rest ih =>
    simp only [encode,List.forall_mem_cons]
    exact ⟨alphabet _,alphabet _,alphabet _,alphabet _,ih⟩
  | case2 a b =>
    simp only [encode,List.forall_mem_cons]
    exact ⟨alphabet _,alphabet _,alphabet _,padding,fun _ member => absurd member List.not_mem_nil⟩
  | case3 a =>
    simp only [encode,List.forall_mem_cons]
    exact ⟨alphabet _,alphabet _,padding,padding,fun _ member => absurd member List.not_mem_nil⟩
  | case4 => exact fun _ member => absurd member List.not_mem_nil

theorem code_visible (value : Nat) : 43 ≤ code value ∧ code value ≠ 92 := by
  unfold code
  split_ifs <;> omega

/-- An encoded text has no control characters, quotes or backslashes. -/
theorem encode_plain (bytes : List UInt8) : ∀ c ∈ encode bytes, 43 ≤ c.toNat ∧ c.toNat ≠ 92 := by
  apply encode_forall
  · intro value
    rw [symbol_code]
    exact code_visible value
  · decide

/-- No character of an encoded text ends a C string. -/
theorem encode_terminated (bytes : List UInt8) : ∀ c ∈ encode bytes, c ≠ '\x00' := by
  rintro c member rfl
  exact absurd (encode_plain bytes _ member).1 (by decide)

end AtlasNet.Foundation.Base64
