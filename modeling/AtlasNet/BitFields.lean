import AtlasNet.ReaderOperations
import AtlasNet.Foundation.BitStream

/-! Bit fields through the accumulators of the writer and the reader. The writer does not mask a
value, so what is wider than its field is left in the accumulator for the fields behind it. -/
namespace AtlasNet
open Foundation Foundation.Program BitStream

/-- Values and bit counts, as numbers. -/
def numbers (fields : List (UInt32 × UInt8)) : List (Nat × Nat) := fields.map fun field => (field.1.toNat,field.2.toNat)

namespace ByteWriter

/-- A sequence of fields. -/
def bitFields (fields : List (UInt32 × UInt8)) : Program ByteWriter Unit := forM fields fun field => bits field.1 field.2

/-- The bits of the writer: those of the bytes, and from there on those of the accumulator. -/
def held (bw : ByteWriter) : Nat := little bw.buf+2^(8*bw.buf.length)*bw.bitBuffer.toNat

/-- The writer holds the bits of the fields, and its position is behind the last one. -/
structure Holds (bw : ByteWriter) (fields : List (Nat × Nat)) : Prop where
  held : bw.held = stream fields
  position : 8*bw.buf.length+bw.bitPos.toNat = width fields
  pending : bw.bitPos.toNat < 8

theorem held_emit (bw : ByteWriter) (bitPos : UInt8) :
    held {bw.u8 bw.bitBuffer.toUInt8 with bitBuffer := bw.bitBuffer >>> 8,bitPos := bitPos} = bw.held := by
  have low : bw.bitBuffer.toUInt8.toNat = bw.bitBuffer.toNat % 2^8 := UInt64.toNat_toUInt8 _
  have high : (bw.bitBuffer >>> 8).toNat = bw.bitBuffer.toNat / 2^8 := by
    rw [UInt64.toNat_shiftRight,Nat.shiftRight_eq_div_pow]
    rfl
  have single : little [bw.bitBuffer.toUInt8] = bw.bitBuffer.toNat % 2^8 := by simp [little,low]
  have parts := Nat.mod_add_div bw.bitBuffer.toNat (2^8)
  change little (bw.buf ++ [bw.bitBuffer.toUInt8])+2^(8*(bw.buf ++ [bw.bitBuffer.toUInt8]).length)*(bw.bitBuffer >>> 8).toNat = _
  rw [little_append,single,high,List.length_append,List.length_singleton,Nat.mul_succ,Nat.pow_add,Nat.mul_assoc,Nat.add_assoc,
    ← Nat.mul_add,parts,held]

theorem flush_holds (bw : ByteWriter) : bw.flush_bits.held = bw.held ∧
    8*bw.flush_bits.buf.length+bw.flush_bits.bitPos.toNat = 8*bw.buf.length+bw.bitPos.toNat ∧ bw.flush_bits.bitPos.toNat < 8 := by
  induction bw using flush_bits.induct with
  | case1 bw full ih =>
    have eight : 8 ≤ bw.bitPos.toNat := UInt8.le_iff_toNat_le.mp full
    have left : (bw.bitPos-8).toNat = bw.bitPos.toNat-8 := UInt8.toNat_sub_of_le _ _ full
    obtain ⟨kept,position,pending⟩ := ih
    rw [flush_bits,if_pos full]
    refine ⟨kept.trans (held_emit bw _),position.trans ?_,pending⟩
    change 8*(bw.buf ++ [bw.bitBuffer.toUInt8]).length+(bw.bitPos-8).toNat = _
    rw [left,List.length_append,List.length_singleton]
    omega
  | case2 bw empty =>
    rw [flush_bits,if_neg empty]
    exact ⟨rfl,rfl,UInt8.lt_iff_toNat_lt.mp (UInt8.not_le.mp empty)⟩

/-- Neither the shift nor the disjunction drops a bit of the value or of the accumulator. -/
theorem bits_holds {bw : ByteWriter} {before : List (Nat × Nat)} (holds : bw.Holds before) (value : UInt32) (bitCount : UInt8)
    (small : bitCount ≤ 32) :
    ∃ next, exec (bits value bitCount) bw = (.ok (),next) ∧ next.Holds (before ++ [(value.toNat,bitCount.toNat)]) := by
  obtain ⟨held,position,pending⟩ := holds
  have narrow : bitCount.toNat ≤ 32 := UInt8.le_iff_toNat_le.mp small
  have near : ¬ 64 ≤ bw.bitPos := fun far => by
    have far : 64 ≤ bw.bitPos.toNat := UInt8.le_iff_toNat_le.mp far
    omega
  let packed : ByteWriter :=
    {bw with bitBuffer := bw.bitBuffer ||| value.toUInt64 <<< bw.bitPos.toUInt64,bitPos := bw.bitPos+bitCount}
  have shifted : (value.toUInt64 <<< bw.bitPos.toUInt64).toNat = value.toNat <<< bw.bitPos.toNat := by
    have bound := value.toNat_lt
    have power : 2^bw.bitPos.toNat ≤ 2^7 := Nat.pow_le_pow_right (by decide) (by omega)
    have room : value.toNat*2^bw.bitPos.toNat < 2^64 :=
      Nat.lt_of_lt_of_le (Nat.mul_lt_mul_of_lt_of_le bound power (by decide)) (by decide)
    rw [UInt64.toNat_shiftLeft,UInt32.toNat_toUInt64,UInt8.toNat_toUInt64,Nat.mod_eq_of_lt (by omega : bw.bitPos.toNat < 64),
      Nat.shiftLeft_eq,Nat.mod_eq_of_lt room]
  have advanced : packed.bitPos.toNat = bw.bitPos.toNat+bitCount.toNat := by
    change (bw.bitPos+bitCount).toNat = _
    rw [UInt8.toNat_add,Nat.mod_eq_of_lt (by omega)]
  have joined : packed.held = stream (before ++ [(value.toNat,bitCount.toNat)]) := by
    change little bw.buf+2^(8*bw.buf.length)*(bw.bitBuffer ||| value.toUInt64 <<< bw.bitPos.toUInt64).toNat = _
    rw [UInt64.toNat_or,shifted,emitted_or_pending,Nat.shiftLeft_or_distrib,← Nat.or_assoc,← emitted_or_pending,
      ← Nat.shiftLeft_add,Nat.add_comm bw.bitPos.toNat,position,stream_append,← held]
    simp [stream,ByteWriter.held]
  obtain ⟨kept,moved,flushed⟩ := flush_holds packed
  refine ⟨packed.flush_bits,?_,kept.trans joined,?_,flushed⟩
  · rw [bits,exec_throwIf,if_neg (UInt8.not_lt.mpr small),exec_get_bind,exec_throwIf,if_neg near]
    rfl
  · rw [moved,advanced,width_append,← position]
    change 8*bw.buf.length+(bw.bitPos.toNat+bitCount.toNat) = _
    simp [Nat.add_assoc]

theorem bitFields_holds (fields : List (UInt32 × UInt8)) (small : ∀ field ∈ fields, field.2 ≤ 32) :
    ∃ bw, exec (bitFields fields) {} = (.ok (),bw) ∧ bw.Holds (numbers fields) := by
  have run (fields : List (UInt32 × UInt8)) (bw : ByteWriter) (before : List (Nat × Nat)) (holds : bw.Holds before)
      (small : ∀ field ∈ fields, field.2 ≤ 32) :
      ∃ next, exec (bitFields fields) bw = (.ok (),next) ∧ next.Holds (before ++ numbers fields) := by
    induction fields generalizing bw before with
    | nil =>
      refine ⟨bw,rfl,?_⟩
      rw [numbers,List.map_nil,List.append_nil]
      exact holds
    | cons field fields ih =>
      obtain ⟨here,others⟩ := List.forall_mem_cons.mp small
      obtain ⟨middle,wrote,between⟩ := bits_holds holds field.1 field.2 here
      obtain ⟨next,rest,after⟩ := ih middle _ between others
      refine ⟨next,?_,?_⟩
      · rw [bitFields,exec_forM_cons,exec_bind_ok _ _ _ _ _ wrote]
        exact rest
      · rw [List.append_assoc] at after
        exact after
  exact run fields {} [] ⟨rfl,rfl,by decide⟩ small

/-- The bytes of a finished writer cover its fields, and are the bits it held so far. -/
theorem finalize_holds {bw : ByteWriter} {fields : List (Nat × Nat)} (holds : bw.Holds fields) :
    little bw.finalize_bits.buf = stream fields % 2^(8*bw.finalize_bits.buf.length) ∧
      width fields ≤ 8*bw.finalize_bits.buf.length := by
  obtain ⟨held,position,pending⟩ := holds
  by_cases some : 0 < bw.bitPos
  · have low : bw.bitBuffer.toUInt8.toNat = bw.bitBuffer.toNat % 2^8 := UInt64.toNat_toUInt8 _
    have single : little [bw.bitBuffer.toUInt8] = bw.bitBuffer.toNat % 2^8 := by simp [little,low]
    rw [finalize_bits,if_pos some]
    change little (bw.buf ++ [bw.bitBuffer.toUInt8]) = _ % 2^(8*(bw.buf ++ [bw.bitBuffer.toUInt8]).length) ∧
      _ ≤ 8*(bw.buf ++ [bw.bitBuffer.toUInt8]).length
    rw [little_append,single,List.length_append,List.length_singleton,Nat.mul_succ,← held,ByteWriter.held,Nat.pow_add,
      Nat.mod_mul,Nat.add_mul_mod_self_left,Nat.mod_eq_of_lt (little_lt _),Nat.add_mul_div_left _ _ (Nat.two_pow_pos _),
      Nat.div_eq_of_lt (little_lt _),Nat.zero_add]
    exact ⟨rfl,by omega⟩
  · have none : bw.bitPos.toNat ≤ 0 := UInt8.le_iff_toNat_le.mp (UInt8.not_lt.mp some)
    rw [finalize_bits,if_neg some,← held,ByteWriter.held,Nat.add_mul_mod_self_left,Nat.mod_eq_of_lt (little_lt _)]
    exact ⟨rfl,by omega⟩

end ByteWriter

namespace ByteReader

def bitFields (bitCounts : List UInt8) : Program ByteReader (List UInt32) := bitCounts.mapM bits

/-- The accumulator holds the bits of the bytes read so far that are not consumed. -/
structure Pends (br : ByteReader) (consumed : Nat) : Prop where
  inside : br.i ≤ br.n
  buffer : br.bitBuffer.toNat = little (br.p.take br.i) >>> consumed
  position : 8*br.i = consumed+br.bitPos.toNat

/-- The accumulator with one byte more, above the bits it has. -/
theorem Pends.next {br : ByteReader} {consumed : Nat} (pends : br.Pends consumed) (narrow : br.bitPos.toNat < 32) {b : UInt8}
    {back : Bytes} (here : br.p.drop br.i = b::back) : Pends
      {br with i := br.i+1,bitBuffer := br.bitBuffer ||| b.toUInt64 <<< br.bitPos.toUInt64,bitPos := br.bitPos+8} consumed := by
  obtain ⟨inside,buffer,position⟩ := pends
  have length : (br.p.take br.i).length = br.i := List.length_take_of_le inside
  have room : br.i+1 ≤ br.n := by
    have left : br.n-br.i = back.length+1 := remaining_of_rest here
    omega
  have shifted : (b.toUInt64 <<< br.bitPos.toUInt64).toNat = b.toNat <<< br.bitPos.toNat := by
    have power : 2^br.bitPos.toNat ≤ 2^32 := Nat.pow_le_pow_right (by decide) (by omega)
    have room : b.toNat*2^br.bitPos.toNat < 2^64 :=
      Nat.lt_of_lt_of_le (Nat.mul_lt_mul_of_lt_of_le b.toNat_lt power (by decide)) (by decide)
    rw [UInt64.toNat_shiftLeft,UInt8.toNat_toUInt64,UInt8.toNat_toUInt64,
      Nat.mod_eq_of_lt (by omega : br.bitPos.toNat < 64),Nat.shiftLeft_eq,Nat.mod_eq_of_lt room]
  have front : br.p.take (br.i+1) = br.p.take br.i ++ [b] := by
    rw [List.take_add,here]
    rfl
  refine ⟨room,?_,?_⟩
  · change (br.bitBuffer ||| b.toUInt64 <<< br.bitPos.toUInt64).toNat = little (br.p.take (br.i+1)) >>> consumed
    have joined := emitted_or_pending (br.p.take br.i) b.toNat
    have single : little [b] = b.toNat := by simp [little]
    rw [length] at joined
    rw [UInt64.toNat_or,buffer,shifted,front,little_append,single,length,joined,position,Nat.shiftRight_or_distrib,
      Nat.add_comm consumed,Nat.shiftLeft_add,Nat.shiftLeft_shiftRight]
  · change 8*(br.i+1) = consumed+(br.bitPos+8).toNat
    rw [bitPos_advanced narrow]
    omega

/-- The loop drops no bit of a byte it reads, and ends with enough of them. -/
theorem bits_loop_pends {bitCount : UInt8} (small : bitCount.toNat ≤ 32) {passes consumed : Nat} {br : ByteReader}
    (pends : br.Pends consumed) (few : br.bitPos.toNat < bitCount.toNat+8) (enough : bitCount.toNat ≤ br.bitPos.toNat+8*passes)
    (left : consumed+bitCount.toNat ≤ 8*br.n) :
    ∃ next, exec (bits_loop bitCount passes) br = (.ok (),next) ∧ next.Pends consumed ∧ next.p = br.p ∧
      bitCount.toNat ≤ next.bitPos.toNat ∧ next.bitPos.toNat < bitCount.toNat+8 := by
  induction passes generalizing br with
  | zero => exact ⟨br,rfl,pends,rfl,by omega,few⟩
  | succ passes ih =>
    have inside := pends.inside
    have position := pends.position
    rw [bits_loop,exec_get_bind]
    by_cases missing : br.bitPos < bitCount
    · have below : br.bitPos.toNat < bitCount.toNat := UInt8.lt_iff_toNat_lt.mp missing
      have more : br.p.drop br.i ≠ [] := fun empty => by
        have none : br.n-br.i = 0 := remaining_of_rest empty
        omega
      obtain ⟨b,back,here⟩ := List.exists_cons_of_ne_nil more
      have moved := bitPos_advanced (show br.bitPos.toNat < 32 by omega)
      obtain ⟨next,ran,rest⟩ := ih (pends.next (by omega) here) (moved ▸ by omega) (moved ▸ by omega) left
      refine ⟨next,?_,rest⟩
      rw [if_pos missing,exec_bind_ok _ _ _ _ _ (exec_u8_next inside here)]
      exact ran
    · rw [if_neg missing]
      exact ⟨br,rfl,pends,rfl,UInt8.le_iff_toNat_le.mp (UInt8.not_lt.mp missing),few⟩

theorem bits_pends {br : ByteReader} {consumed : Nat} (pends : br.Pends consumed) (few : br.bitPos.toNat < 8) {bitCount : UInt8}
    (small : bitCount ≤ 32) (left : consumed+bitCount.toNat ≤ 8*br.n) :
    ∃ next, exec (bits bitCount) br = (.ok (UInt32.ofNat ((little br.p >>> consumed) % 2^bitCount.toNat)),next) ∧
      next.Pends (consumed+bitCount.toNat) ∧ next.p = br.p ∧ next.bitPos.toNat < 8 := by
  have narrow : bitCount.toNat ≤ 32 := UInt8.le_iff_toNat_le.mp small
  obtain ⟨filled,ran,⟨inside,buffer,position⟩,same,full,near⟩ :=
    bits_loop_pends narrow pends (by omega) (show bitCount.toNat ≤ br.bitPos.toNat+8*bitCount.toNat by omega) left
  have mask : (((1 : UInt64) <<< bitCount.toUInt64)-1).toNat = 2^bitCount.toNat-1 := by
    have power : 2^bitCount.toNat ≤ 2^32 := Nat.pow_le_pow_right (by decide) narrow
    have one : ((1 : UInt64) <<< bitCount.toUInt64).toNat = 2^bitCount.toNat := by
      rw [UInt64.toNat_shiftLeft,UInt8.toNat_toUInt64,Nat.mod_eq_of_lt (by omega : bitCount.toNat < 64),Nat.shiftLeft_eq]
      exact (Nat.mod_eq_of_lt (by change 1*2^bitCount.toNat < 2^64; omega)).trans (Nat.one_mul _)
    have least : (1 : UInt64) ≤ 1 <<< bitCount.toUInt64 := by
      rw [UInt64.le_iff_toNat_le,one]
      exact Nat.one_le_two_pow
    rw [UInt64.toNat_sub_of_le _ _ least,one]
    rfl
  have value : (filled.bitBuffer &&& ((1 <<< bitCount.toUInt64)-1)).toUInt32 =
      UInt32.ofNat ((little br.p >>> consumed) % 2^bitCount.toNat) := by
    apply UInt32.toNat_inj.mp
    rw [UInt64.toNat_toUInt32,UInt64.toNat_and,mask,Nat.and_two_pow_sub_one_eq_mod,UInt32.toNat_ofNat',buffer,
      little_take _ _ inside,field_mod _ _ _ _ (by omega),same]
  refine ⟨{filled with bitBuffer := filled.bitBuffer >>> bitCount.toUInt64,bitPos := filled.bitPos-bitCount},?_,⟨inside,?_,?_⟩,same,?_⟩
  · rw [bits,exec_throwIf,if_neg (UInt8.not_lt.mpr small),exec_bind_ok _ _ _ _ _ ran,exec_get_bind,exec_set_bind,exec_pure,value]
  · change (filled.bitBuffer >>> bitCount.toUInt64).toNat = little (filled.p.take filled.i) >>> (consumed+bitCount.toNat)
    rw [UInt64.toNat_shiftRight,UInt8.toNat_toUInt64,Nat.mod_eq_of_lt (by omega : bitCount.toNat < 64),buffer,Nat.shiftRight_add]
  · change 8*filled.i = _+(filled.bitPos-bitCount).toNat
    rw [UInt8.toNat_sub_of_le _ _ (UInt8.le_iff_toNat_le.mpr full)]
    omega
  · change (filled.bitPos-bitCount).toNat < 8
    rw [UInt8.toNat_sub_of_le _ _ (UInt8.le_iff_toNat_le.mpr full)]
    omega

theorem bitFields_pends {bitCounts : List UInt8} {br : ByteReader} {consumed : Nat} (pends : br.Pends consumed)
    (few : br.bitPos.toNat < 8) (small : ∀ bitCount ∈ bitCounts, bitCount ≤ 32)
    (left : consumed+(bitCounts.map UInt8.toNat).sum ≤ 8*br.n) :
    ∃ next, exec (bitFields bitCounts) br =
        (.ok ((unpack (bitCounts.map UInt8.toNat) (little br.p >>> consumed)).map UInt32.ofNat),next) ∧
      next.Pends (consumed+(bitCounts.map UInt8.toNat).sum) := by
  induction bitCounts generalizing br consumed with
  | nil => exact ⟨br,rfl,pends⟩
  | cons bitCount bitCounts ih =>
    obtain ⟨here,others⟩ := List.forall_mem_cons.mp small
    rw [List.map_cons,List.sum_cons,← Nat.add_assoc] at left
    obtain ⟨middle,ran,between,same,near⟩ := bits_pends pends few here (by omega)
    have there : middle.n = br.n := congrArg List.length same
    obtain ⟨next,rest,after⟩ := ih between near others (there ▸ left)
    have mapped : exec (bitCounts.mapM bits) middle = _ := rest
    refine ⟨next,?_,?_⟩
    · rw [bitFields,List.mapM_cons,exec_bind_ok _ _ _ _ _ ran,exec_bind_ok _ _ _ _ _ mapped,same,List.map_cons,unpack,
        List.map_cons,Nat.shiftRight_add]
      rfl
    · rw [List.map_cons,List.sum_cons,← Nat.add_assoc]
      exact after

end ByteReader

/-- Every field reads back modulo its width, and at every point of the sequence the writer holds all
the bits it was given and the reader those it has read and not consumed. -/
structure FieldsReadBack (fields : List (UInt32 × UInt8)) : Prop where
  values : ∃ bw br, exec (ByteWriter.bitFields fields) {} = (.ok (),bw) ∧
    exec (ByteReader.bitFields (fields.map Prod.snd)) {p := bw.finalize_bits.buf} =
      (.ok (fields.map fun field => UInt32.ofNat (field.1.toNat % 2^field.2.toNat)),br)
  written : ∀ done todo, fields = done ++ todo → ∃ bw, exec (ByteWriter.bitFields done) {} = (.ok (),bw) ∧
    bw.held = stream (numbers done)
  read : ∀ done todo, fields = done ++ todo → ∃ bw values br, exec (ByteWriter.bitFields fields) {} = (.ok (),bw) ∧
    exec (ByteReader.bitFields (done.map Prod.snd)) {p := bw.finalize_bits.buf} = (.ok values,br) ∧
      br.Pends (width (numbers done))

section Fields
variable {fields : List (UInt32 × UInt8)}

theorem width_numbers (fields : List (UInt32 × UInt8)) :
    width (numbers fields) = ((fields.map Prod.snd).map UInt8.toNat).sum := by
  rw [width,numbers,List.map_map,List.map_map]
  rfl

/-- What the reader finds for the first fields, whatever the later ones are. -/
theorem bitFields_read (small : ∀ field ∈ fields, field.2 ≤ 32) {done todo : List (UInt32 × UInt8)} (split : fields = done ++ todo) :
    ∃ bw br, exec (ByteWriter.bitFields fields) {} = (.ok (),bw) ∧
      exec (ByteReader.bitFields (done.map Prod.snd)) {p := bw.finalize_bits.buf} =
        (.ok ((unpack ((done.map Prod.snd).map UInt8.toNat) (stream (numbers fields))).map UInt32.ofNat),br) ∧
      br.Pends (width (numbers done)) := by
  obtain ⟨bw,wrote,holds⟩ := ByteWriter.bitFields_holds fields small
  obtain ⟨bytes,covers⟩ := ByteWriter.finalize_holds holds
  have parts : width (numbers fields) = width (numbers done)+width (numbers todo) := by
    rw [split,numbers,List.map_append,width_append]
    rfl
  have start : ({p := bw.finalize_bits.buf} : ByteReader).Pends 0 := ⟨Nat.zero_le _,rfl,rfl⟩
  have narrow : ∀ bitCount ∈ done.map Prod.snd, bitCount ≤ 32 := by
    intro bitCount member
    obtain ⟨field,here,rfl⟩ := List.mem_map.mp member
    exact small field (split ▸ List.mem_append_left todo here)
  have enough : 0+((done.map Prod.snd).map UInt8.toNat).sum ≤ 8*bw.finalize_bits.buf.length := by
    rw [← width_numbers]
    omega
  obtain ⟨br,ran,pends⟩ := ByteReader.bitFields_pends start (Nat.succ_pos 7) narrow enough
  refine ⟨bw,br,wrote,?_,by rw [width_numbers,← Nat.zero_add (List.sum _)]; exact pends⟩
  rw [ran]
  change (Except.ok (List.map _ (unpack _ (little bw.finalize_bits.buf >>> 0))),br) = _
  rw [bytes,unpack_mod _ _ _ 0 enough,Nat.shiftRight_zero]

theorem ofNat_map_inj {first second : List Nat} (left : ∀ n ∈ first, n < 2^32) (right : ∀ n ∈ second, n < 2^32) :
    first.map UInt32.ofNat = second.map UInt32.ofNat ↔ first = second := by
  have back {numbers : List Nat} (small : ∀ n ∈ numbers, n < 2^32) : (numbers.map UInt32.ofNat).map UInt32.toNat = numbers := by
    rw [List.map_map]
    exact (List.map_congr_left fun n member => UInt32.toNat_ofNat_of_lt' (small n member)).trans (List.map_id _)
  constructor
  · intro same
    have numbers := congrArg (List.map UInt32.toNat) same
    rw [back left,back right] at numbers
    exact numbers
  · exact congrArg _

/-- The values that are read back, against those that were written. -/
theorem bitFields_values_iff (small : ∀ field ∈ fields, field.2 ≤ 32) :
    (unpack ((fields.map Prod.snd).map UInt8.toNat) (stream (numbers fields))).map UInt32.ofNat =
        fields.map (fun field => UInt32.ofNat (field.1.toNat % 2^field.2.toNat)) ↔
      Undisturbed (numbers fields) := by
  have narrow : ∀ w ∈ (fields.map Prod.snd).map UInt8.toNat, w ≤ 32 := by
    intro w member
    rw [List.map_map] at member
    obtain ⟨field,here,rfl⟩ := List.mem_map.mp member
    exact UInt8.le_iff_toNat_le.mp (small field here)
  have low : ∀ n ∈ (numbers fields).map (fun field => field.1 % 2^field.2), n < 2^32 := by
    intro n member
    rw [numbers,List.map_map] at member
    obtain ⟨field,here,rfl⟩ := List.mem_map.mp member
    exact Nat.lt_of_le_of_lt (Nat.mod_le _ _) field.1.toNat_lt
  have widths : (fields.map Prod.snd).map UInt8.toNat = (numbers fields).map Prod.snd := by
    rw [numbers,List.map_map,List.map_map]
    rfl
  have values : fields.map (fun field => UInt32.ofNat (field.1.toNat % 2^field.2.toNat)) =
      ((numbers fields).map (fun field => field.1 % 2^field.2)).map UInt32.ofNat := by
    rw [numbers,List.map_map,List.map_map]
    rfl
  rw [values,ofNat_map_inj (unpack_small narrow _) low,widths]
  exact unpack_stream_iff _

theorem fieldsReadBack_iff (fields : List (UInt32 × UInt8)) (small : ∀ field ∈ fields, field.2 ≤ 32) :
    FieldsReadBack fields ↔ Undisturbed (numbers fields) := by
  obtain ⟨bw,br,wrote,ran,_⟩ := bitFields_read small (List.append_nil fields).symm
  rw [← bitFields_values_iff small]
  constructor
  · rintro ⟨⟨other,_,same,back⟩,_⟩
    obtain rfl := (Prod.mk.inj (same.symm.trans wrote)).2
    exact Except.ok.inj (Prod.mk.inj (ran.symm.trans back)).1
  · intro values
    rw [values] at ran
    refine ⟨⟨bw,br,wrote,ran⟩,fun done todo split => ?_,fun done todo split => ?_⟩
    · obtain ⟨part,writes,holds⟩ := ByteWriter.bitFields_holds done fun field member =>
        small field (split ▸ List.mem_append_left todo member)
      exact ⟨part,writes,holds.held⟩
    · obtain ⟨bw,br,writes,reads,pends⟩ := bitFields_read small split
      exact ⟨bw,_,br,writes,reads,pends⟩

end Fields

/-- A value of eight bits in a field of four is read back from the next field, too. -/
theorem wide_value_disturbs : ¬ FieldsReadBack [(0xFF,4),(0,4)] := by
  rintro ⟨⟨bw,br,wrote,back⟩,_⟩
  have small : ∀ field ∈ [((0xFF : UInt32),(4 : UInt8)),(0,4)], field.2 ≤ 32 := by simp
  obtain ⟨_,_,writes,ran,_⟩ := bitFields_read small (List.append_nil _).symm
  obtain rfl := (Prod.mk.inj (wrote.symm.trans writes)).2
  have values := Except.ok.inj (Prod.mk.inj (ran.symm.trans back)).1
  revert values
  decide

theorem fieldsReadBack_mixed : FieldsReadBack [(5,3),(0,0),(0xFFFFFFFF,32),(1,2)] := by
  refine (fieldsReadBack_iff _ (by simp)).mpr ((unpack_stream_iff _).mp ?_)
  decide

end AtlasNet
