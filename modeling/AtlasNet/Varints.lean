import AtlasNet.ReaderOperations

/-! Varints as numbers: which bytes stand for a number below 2^32, and when the loop of
`var_u32` takes exactly these. -/
namespace AtlasNet
open Foundation Foundation.Program

/-- The number of base-128 groups, the lowest first. -/
def groupsValue (word : Bytes) : Nat := word.foldr (fun b value => b.toNat % 128+128*value) 0

/-- A byte below 0x80 ends the groups, and no other one is below. -/
def Terminated : Bytes → Prop
  | [] => False
  | b::rest => rest = [] ∧ b.toNat < 0x80 ∨ 0x80 ≤ b.toNat ∧ Terminated rest

/-- At most five groups, the last of which is the first byte below 0x80, of a number below 2^32. -/
structure Varint32 (word : Bytes) (v : UInt32) : Prop where
  short : word.length ≤ 5
  terminated : Terminated word
  small : groupsValue word < 2^32
  value : v.toNat = groupsValue word

theorem groupsValue_append (first second : Bytes) :
    groupsValue (first ++ second) = groupsValue first+128^first.length*groupsValue second := by
  induction first with
  | nil => simp [groupsValue]
  | cons b first ih =>
    have head (rest : Bytes) : groupsValue (b::rest) = b.toNat % 128+128*groupsValue rest := rfl
    rw [List.cons_append,head,head,ih,List.length_cons,Nat.pow_succ]
    ring

theorem groupsValue_lt (word : Bytes) : groupsValue word < 128^word.length := by
  induction word with
  | nil => exact Nat.one_pos
  | cons b word ih =>
    have head : groupsValue (b::word) = b.toNat % 128+128*groupsValue word := rfl
    have low := Nat.mod_lt b.toNat (show 0 < 128 by decide)
    rw [head,List.length_cons,Nat.pow_succ]
    omega

theorem goes_iff (b : UInt8) : b &&& 0x80 ≠ 0 ↔ 0x80 ≤ b.toNat := by
  constructor
  · intro goes
    by_contra small
    exact goes (ByteWriter.no_high b (Nat.not_le.mp small))
  · intro large zero
    have bound := b.toNat_lt
    have bit := congrArg (fun x : UInt8 => x.toNat.testBit 7) zero
    simp only [UInt8.toNat_and,Nat.testBit_and] at bit
    have set : b.toNat.testBit 7 = true := by
      rw [Nat.testBit_eq_decide_div_mod_eq]
      exact decide_eq_true (by omega)
    rw [set] at bit
    revert bit
    decide

theorem terminated_of_varint {shift : Nat} {word : Bytes} {v : UInt32} (groups : Varint shift word v) :
    Terminated word ∧ shift+7*(word.length-1) < 32 ∧ v = UInt32.ofNat (groupsValue word*2^shift) := by
  induction groups with
  | last shift b fits ends =>
    have low : b.toNat < 0x80 := Nat.not_le.mp fun large => (goes_iff b).mpr large ends
    have bits := ByteWriter.group_bits b.toNat shift fits b rfl
    exact ⟨.inl ⟨rfl,low⟩,fits,bits⟩
  | group shift b rest v fits goes _ ih =>
    obtain ⟨ended,inside,rfl⟩ := ih
    have some : rest ≠ [] := by
      rintro rfl
      exact ended
    have long := List.length_pos_of_ne_nil some
    refine ⟨.inr ⟨(goes_iff b).mp goes,ended⟩,by rw [List.length_cons]; omega,?_⟩
    rw [ByteWriter.group_bits b.toNat shift fits b rfl]
    exact ByteWriter.or_groups _ _ _ (Nat.mod_lt _ (by decide))

theorem varint_of_terminated {word : Bytes} (ended : Terminated word) (shift : Nat) (inside : shift+7*(word.length-1) < 32) :
    Varint shift word (UInt32.ofNat (groupsValue word*2^shift)) := by
  induction word generalizing shift with
  | nil => exact ended.elim
  | cons b rest ih =>
    have here : shift < 32 := by omega
    have bits := ByteWriter.group_bits b.toNat shift here b rfl
    rcases ended with ⟨rfl,low⟩ | ⟨high,ended⟩
    · have last := Varint.last shift b here (ByteWriter.no_high b low)
      rw [bits] at last
      exact last
    · have some : rest ≠ [] := by
        rintro rfl
        exact ended
      have long := List.length_pos_of_ne_nil some
      rw [List.length_cons] at inside
      have higher := ih ended (shift+7) (by omega)
      have group := Varint.group shift b rest _ here ((goes_iff b).mpr high) higher
      rw [bits,ByteWriter.or_groups _ _ _ (Nat.mod_lt _ (by decide))] at group
      exact group

/-- The loop takes up to five groups and returns their number modulo 2^32. -/
theorem var_u32_iff (word : Bytes) (v : UInt32) :
    ByteFormat.var_u32 word v ↔ Terminated word ∧ word.length ≤ 5 ∧ v = UInt32.ofNat (groupsValue word) := by
  constructor
  · intro groups
    obtain ⟨ended,inside,value⟩ := terminated_of_varint groups
    rw [Nat.pow_zero,Nat.mul_one] at value
    exact ⟨ended,by omega,value⟩
  · rintro ⟨ended,short,rfl⟩
    have groups := varint_of_terminated ended 0 (by omega)
    rw [Nat.pow_zero,Nat.mul_one] at groups
    exact groups

/-- Four groups that go on, and a fifth with a bit beyond the lowest four that ends them or goes on
to a sixth. -/
def Misread (bytes : Bytes) : Prop :=
  ∃ groups fifth rest, bytes = groups ++ fifth::rest ∧ groups.length = 4 ∧ (∀ group ∈ groups, 0x80 ≤ group.toNat) ∧
    (0x10 ≤ fifth.toNat ∧ fifth.toNat < 0x80 ∨ 0x80 ≤ fifth.toNat ∧ rest ≠ [])

theorem terminated_append {groups rest : Bytes} (high : ∀ group ∈ groups, 0x80 ≤ group.toNat) :
    Terminated (groups ++ rest) ↔ Terminated rest := by
  induction groups with
  | nil => rfl
  | cons b groups ih =>
    obtain ⟨here,others⟩ := List.forall_mem_cons.mp high
    rw [← ih others]
    constructor
    · rintro (⟨_,low⟩ | ⟨_,ended⟩)
      · exact absurd here (Nat.not_le.mpr low)
      · exact ended
    · exact fun ended => .inr ⟨here,ended⟩

theorem terminated_parts {word : Bytes} (ended : Terminated word) :
    ∃ groups last, word = groups ++ [last] ∧ (∀ group ∈ groups, 0x80 ≤ group.toNat) ∧ last.toNat < 0x80 := by
  induction word with
  | nil => exact ended.elim
  | cons b rest ih =>
    rcases ended with ⟨rfl,low⟩ | ⟨high,ended⟩
    · exact ⟨[],b,rfl,nofun,low⟩
    · obtain ⟨groups,last,rfl,others,low⟩ := ih ended
      exact ⟨b::groups,last,rfl,List.forall_mem_cons.mpr ⟨high,others⟩,low⟩

/-- The number of a varint that is not misread is below 2^32. -/
theorem groupsValue_small {word back : Bytes} (ended : Terminated word) (short : word.length ≤ 5)
    (clear : ¬ Misread (word ++ back)) : groupsValue word < 2^32 := by
  obtain ⟨groups,last,rfl,high,low⟩ := terminated_parts ended
  rw [List.length_append,List.length_singleton] at short
  have front := groupsValue_lt groups
  have single : groupsValue [last] = last.toNat % 128 := rfl
  rw [groupsValue_append,single,Nat.mod_eq_of_lt low]
  by_cases four : groups.length = 4
  · have tiny : last.toNat < 0x10 := by
      by_contra large
      exact clear ⟨groups,last,back,List.append_assoc ..,four,high,.inl ⟨Nat.not_lt.mp large,low⟩⟩
    rw [four] at front ⊢
    omega
  · have power : 128^groups.length ≤ 128^3 := Nat.pow_le_pow_right (by decide) (by omega)
    have product : 128^groups.length*last.toNat ≤ 128^3*127 := Nat.mul_le_mul power (by omega)
    omega

namespace ByteReader

theorem overlong_misread {bytes : Bytes} (overlong : Overlong bytes) : Misread bytes := by
  obtain ⟨groups,b,rest,rfl,five,high⟩ := overlong
  obtain ⟨front,fifth,rfl⟩ := (List.eq_nil_or_concat' groups).resolve_left (by rintro rfl; cases five)
  rw [List.length_append,List.length_singleton] at five
  simp only [List.forall_mem_append,List.forall_mem_singleton] at high
  exact ⟨front,fifth,b::rest,by simp,by omega,fun group member => (goes_iff group).mp (high.1 group member),
    .inr ⟨(goes_iff fifth).mp high.2,List.cons_ne_nil _ _⟩⟩

/-- `var_u32` takes a number below 2^32 in at most five groups, and reports everything else; a
shift by 32 or more is a fault of another kind. -/
structure DecodesExactly (br : ByteReader) : Prop where
  accepted : ∀ v next, exec var_u32 br = (.ok v,next) ↔
    ∃ word back, Varint32 word v ∧ cursor.rest br = word ++ back ∧ next = {br with i := br.i+word.length}
  reported : ∀ fault, (exec var_u32 br).1 = .error fault → ∃ what, fault = .byteError what

theorem decodesExactly_iff (br : ByteReader) (fits : br.Addressable) : DecodesExactly br ↔ ¬ Misread (cursor.rest br) := by
  have reported := settles_iff_reported tame_var_u32 fits.1
  have breaks := breaks_var_u32 br fits
  constructor
  · rintro decodes ⟨groups,fifth,rest,here,four,high,⟨large,ends⟩ | ⟨goes,more⟩⟩
    · -- the fifth group ends the varint, and its number is not below 2^32
      have ended : Terminated (groups ++ [fifth]) := (terminated_append high).mpr (.inl ⟨rfl,ends⟩)
      have stands := (var_u32_iff (groups ++ [fifth]) _).mpr ⟨ended,by simp [four],rfl⟩
      have ran := (accepts_var_u32 br fits.1 _ _).mpr ⟨groups ++ [fifth],rest,stands,by rw [here]; simp,rfl⟩
      obtain ⟨word,back,exactly,same,next⟩ := (decodes.accepted _ _).mp ran
      have length : word.length = (groups ++ [fifth]).length := Nat.add_left_cancel (congrArg ByteReader.i next).symm
      have split : groups ++ [fifth] ++ rest = word ++ back := by rw [← same,here]; simp
      have word_eq := (List.append_inj split length.symm).1
      have small := exactly.small
      have single : groupsValue [fifth] = fifth.toNat % 128 := rfl
      rw [← word_eq,groupsValue_append,single,four,Nat.mod_eq_of_lt ends] at small
      omega
    · -- a sixth byte is shifted by 35
      obtain ⟨b,others,rfl⟩ := List.exists_cons_of_ne_nil more
      have overlong : Overlong (cursor.rest br) := by
        refine ⟨groups ++ [fifth],b,others,by rw [here]; simp,by simp [four],fun group member => (goes_iff group).mpr ?_⟩
        rcases List.mem_append.mp member with front | last
        · exact high group front
        · exact List.mem_singleton.mp last ▸ goes
      exact breaks.mpr overlong (reported.mpr decodes.reported)
  · intro clear
    have settles : Settles (exec var_u32 br).1 := by
      by_contra broken
      exact clear (overlong_misread (breaks.mp broken))
    refine ⟨fun v next => ?_,reported.mp settles⟩
    rw [accepts_var_u32 br fits.1 v next]
    constructor
    · rintro ⟨word,back,stands,here,rfl⟩
      obtain ⟨ended,short,rfl⟩ := (var_u32_iff word v).mp stands
      have small := groupsValue_small ended short (here ▸ clear)
      exact ⟨word,back,⟨short,ended,small,UInt32.toNat_ofNat_of_lt' small⟩,here,rfl⟩
    · rintro ⟨word,back,exactly,here,rfl⟩
      refine ⟨word,back,(var_u32_iff word v).mpr ⟨exactly.terminated,exactly.short,?_⟩,here,rfl⟩
      rw [← exactly.value,UInt32.ofNat_toNat]

theorem decodesExactly_largest : DecodesExactly {p := [0xFF,0xFF,0xFF,0xFF,0x0F]} := by
  refine (decodesExactly_iff _ ⟨Nat.zero_le _,by decide⟩).mpr ?_
  rintro ⟨groups,fifth,rest,here,four,_,beyond⟩
  have split : [0xFF,0xFF,0xFF,0xFF] ++ [0x0F] = groups ++ fifth::rest := here
  obtain ⟨_,tail⟩ := List.append_inj split four.symm
  obtain ⟨rfl,rfl⟩ := List.cons.inj tail
  revert beyond
  decide

/-- Five groups of the number 2^32 are taken for zero, and a sixth group is shifted by 35. -/
theorem overflows_decoded :
    ((exec var_u32 {p := [0x80,0x80,0x80,0x80,0x10]}).1 = .ok 0 ∧ ¬ DecodesExactly {p := [0x80,0x80,0x80,0x80,0x10]}) ∧
      ¬ DecodesExactly {p := [0x80,0x80,0x80,0x80,0x80,0x00]} := by
  refine ⟨⟨rfl,fun decodes => ?_⟩,fun decodes => ?_⟩
  · obtain ⟨word,back,exactly,here,next⟩ := (decodes.accepted 0 _).mp rfl
    have length : word.length = 5 := Nat.add_left_cancel (congrArg ByteReader.i next).symm
    have split : [0x80,0x80,0x80,0x80,0x10] ++ [] = word ++ back := here
    have word_eq := (List.append_inj split length.symm).1
    have small := exactly.small
    rw [← word_eq] at small
    revert small
    decide
  · obtain ⟨what,same⟩ := decodes.reported (.undefined "shift of a 32-bit value by its width or more") rfl
    cases same

end ByteReader

end AtlasNet
