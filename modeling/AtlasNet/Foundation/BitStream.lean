import Mathlib.Tactic.Common
import Mathlib.Tactic.Ring
import Mathlib.Algebra.BigOperators.Group.List.Basic

/-! Fields of bits one behind the other in a number, the first one lowest. A value that is wider
than its field runs into the fields behind it. -/
namespace AtlasNet.Foundation.BitStream

/-- Bytes as a number, the first one lowest. -/
def little (bytes : List UInt8) : Nat := bytes.foldr (fun b n => b.toNat+2^8*n) 0

theorem little_append (first second : List UInt8) :
    little (first ++ second) = little first+2^(8*first.length)*little second := by
  induction first with
  | nil => simp [little]
  | cons b first ih =>
    have head (rest : List UInt8) : little (b::rest) = b.toNat+2^8*little rest := rfl
    rw [List.cons_append,head,head,ih,List.length_cons,Nat.mul_succ,Nat.pow_add]
    ring

theorem little_lt (bytes : List UInt8) : little bytes < 2^(8*bytes.length) := by
  induction bytes with
  | nil => exact Nat.one_pos
  | cons b bytes ih =>
    have head : little (b::bytes) = b.toNat+2^8*little bytes := rfl
    have low := b.toNat_lt
    rw [head,List.length_cons,Nat.mul_succ,Nat.pow_add]
    omega

theorem little_take (bytes : List UInt8) (count : Nat) (inside : count ≤ bytes.length) :
    little (bytes.take count) = little bytes % 2^(8*count) := by
  have front : (bytes.take count).length = count := List.length_take_of_le inside
  have bound := little_lt (bytes.take count)
  have parts := little_append (bytes.take count) (bytes.drop count)
  rw [List.take_append_drop,front] at parts
  rw [front] at bound
  rw [parts,Nat.add_mul_mod_self_left,Nat.mod_eq_of_lt bound]

/-- What is emitted and what is pending occupy disjoint bits. -/
theorem emitted_or_pending (bytes : List UInt8) (pending : Nat) :
    little bytes+2^(8*bytes.length)*pending = little bytes ||| pending <<< (8*bytes.length) := by
  rw [Nat.add_comm,Nat.two_pow_add_eq_or_of_lt (little_lt bytes),Nat.or_comm,Nat.shiftLeft_eq,Nat.mul_comm pending]

def width (fields : List (Nat × Nat)) : Nat := (fields.map Prod.snd).sum

def stream : List (Nat × Nat) → Nat
  | [] => 0
  | field::fields => field.1 ||| stream fields <<< field.2

def unpack : List Nat → Nat → List Nat
  | [],_ => []
  | w::ws,n => n % 2^w::unpack ws (n >>> w)

@[simp] theorem width_nil : width [] = 0 := rfl

@[simp] theorem width_cons (field : Nat × Nat) (fields : List (Nat × Nat)) : width (field::fields) = field.2+width fields :=
  List.sum_cons

theorem width_append (first second : List (Nat × Nat)) : width (first ++ second) = width first+width second := by
  simp [width]

theorem stream_append (first second : List (Nat × Nat)) :
    stream (first ++ second) = stream first ||| stream second <<< width first := by
  induction first with
  | nil => simp [stream]
  | cons field first ih =>
    rw [List.cons_append,stream,stream,ih,width_cons,Nat.shiftLeft_or_distrib,← Nat.shiftLeft_add,Nat.or_assoc,
      Nat.add_comm (width first)]

theorem unpack_small {ws : List Nat} {k : Nat} (narrow : ∀ w ∈ ws, w ≤ k) (n : Nat) : ∀ value ∈ unpack ws n, value < 2^k := by
  induction ws generalizing n with
  | nil => exact nofun
  | cons w ws ih =>
    obtain ⟨here,others⟩ := List.forall_mem_cons.mp narrow
    refine List.forall_mem_cons.mpr ⟨?_,ih others _⟩
    exact Nat.lt_of_lt_of_le (Nat.mod_lt _ (Nat.two_pow_pos w)) (Nat.pow_le_pow_right (by decide) here)

/-- A field depends on the bits that it occupies. -/
theorem field_mod (n k offset w : Nat) (enough : offset+w ≤ k) : ((n % 2^k) >>> offset) % 2^w = (n >>> offset) % 2^w := by
  apply Nat.eq_of_testBit_eq
  intro i
  simp only [Nat.testBit_mod_two_pow,Nat.testBit_shiftRight]
  by_cases inside : i < w
  · have below : offset+i < k := by omega
    simp [inside,below]
  · simp [inside]

/-- The fields depend on the bits that they occupy. -/
theorem unpack_mod (ws : List Nat) (n k offset : Nat) (enough : offset+ws.sum ≤ k) :
    unpack ws ((n % 2^k) >>> offset) = unpack ws (n >>> offset) := by
  induction ws generalizing offset with
  | nil => rfl
  | cons w ws ih =>
    rw [List.sum_cons,← Nat.add_assoc] at enough
    rw [unpack,unpack,field_mod n k offset w (by omega),← Nat.shiftRight_add,← Nat.shiftRight_add,ih (offset+w) enough]

/-- The bits of a number from an offset on fall on set bits of the fields. -/
def Covered (n offset : Nat) (fields : List (Nat × Nat)) : Prop :=
  ∀ front later back, fields = front ++ later::back → ∀ i < later.2,
    n.testBit (offset+width front+i) = true → later.1.testBit i = true

/-- A bit of a value beyond its width falls, in each later field, on a set bit of the value there. -/
def Undisturbed (fields : List (Nat × Nat)) : Prop :=
  ∀ front field behind, fields = front ++ field::behind → Covered field.1 field.2 behind

theorem covered_cons (n offset : Nat) (field : Nat × Nat) (fields : List (Nat × Nat)) :
    Covered n offset (field::fields) ↔
      (∀ i < field.2, n.testBit (offset+i) = true → field.1.testBit i = true) ∧ Covered n (offset+field.2) fields := by
  constructor
  · intro covered
    refine ⟨covered [] field fields rfl,fun front later back split i inside set => ?_⟩
    refine covered (field::front) later back (by rw [split]; rfl) i inside ?_
    rw [width_cons,← Nat.add_assoc]
    exact set
  · rintro ⟨here,behind⟩ front later back split i inside set
    cases front with
    | nil =>
      obtain ⟨rfl,rfl⟩ := List.cons.inj split
      exact here i inside set
    | cons first front =>
      obtain ⟨rfl,rfl⟩ := List.cons.inj split
      refine behind front later back rfl i inside ?_
      rw [width_cons,← Nat.add_assoc] at set
      exact set

theorem covered_or (a b offset : Nat) (fields : List (Nat × Nat)) :
    Covered (a ||| b) offset fields ↔ Covered a offset fields ∧ Covered b offset fields := by
  simp only [Covered,Nat.testBit_or,Bool.or_eq_true]
  constructor
  · intro covered
    exact ⟨fun front later back split i inside set => covered front later back split i inside (.inl set),
      fun front later back split i inside set => covered front later back split i inside (.inr set)⟩
  · rintro ⟨first,second⟩ front later back split i inside (set | set)
    · exact first front later back split i inside set
    · exact second front later back split i inside set

theorem covered_shift (n w offset : Nat) (fields : List (Nat × Nat)) :
    Covered (n >>> w) offset fields ↔ Covered n (w+offset) fields := by
  simp only [Covered,Nat.testBit_shiftRight,Nat.add_assoc]

theorem undisturbed_cons (field : Nat × Nat) (fields : List (Nat × Nat)) :
    Undisturbed (field::fields) ↔ Covered field.1 field.2 fields ∧ Undisturbed fields := by
  constructor
  · intro calm
    exact ⟨calm [] field fields rfl,fun front later behind split => calm (field::front) later behind (by rw [split]; rfl)⟩
  · rintro ⟨here,calm⟩ front later behind split
    cases front with
    | nil =>
      obtain ⟨rfl,rfl⟩ := List.cons.inj split
      exact here
    | cons first front =>
      obtain ⟨rfl,rfl⟩ := List.cons.inj split
      exact calm front later behind rfl

theorem or_mod_eq_iff (c v w : Nat) : (c ||| v) % 2^w = v % 2^w ↔ ∀ i < w, c.testBit i = true → v.testBit i = true := by
  constructor
  · intro same i inside set
    have bit := congrArg (Nat.testBit · i) same
    simp only [Nat.testBit_mod_two_pow,Nat.testBit_or,inside,decide_true,Bool.true_and,set,Bool.true_or] at bit
    exact bit.symm
  · intro within
    apply Nat.eq_of_testBit_eq
    intro i
    simp only [Nat.testBit_mod_two_pow,Nat.testBit_or]
    by_cases inside : i < w
    · cases set : c.testBit i with
      | false => rw [Bool.false_or]
      | true => rw [within i inside set,Bool.true_or]
    · simp [inside]

/-- The induction carries what earlier values leave for the fields behind them. -/
theorem unpack_carried (carry : Nat) (fields : List (Nat × Nat)) :
    unpack (fields.map Prod.snd) (carry ||| stream fields) = fields.map (fun field => field.1 % 2^field.2) ↔
      Covered carry 0 fields ∧ Undisturbed fields := by
  induction fields generalizing carry with
  | nil =>
    refine iff_of_true rfl ⟨?_,?_⟩
    · intro front later back split
      simp at split
    · intro front field behind split
      simp at split
  | cons field fields ih =>
    have low : (carry ||| stream (field::fields)) % 2^field.2 = (carry ||| field.1) % 2^field.2 := by
      rw [stream,← Nat.or_assoc,Nat.or_mod_two_pow,Nat.shiftLeft_eq,Nat.mul_mod_left,Nat.or_zero]
    have high : (carry ||| stream (field::fields)) >>> field.2 = (carry ||| field.1) >>> field.2 ||| stream fields := by
      rw [stream,← Nat.or_assoc,Nat.shiftRight_or_distrib,Nat.shiftLeft_shiftRight]
    rw [List.map_cons,List.map_cons,unpack,low,high,List.cons.injEq,ih,or_mod_eq_iff,covered_shift,covered_or,covered_cons,
      undisturbed_cons]
    simp only [Nat.add_zero,Nat.zero_add]
    tauto

theorem unpack_stream_iff (fields : List (Nat × Nat)) :
    unpack (fields.map Prod.snd) (stream fields) = fields.map (fun field => field.1 % 2^field.2) ↔ Undisturbed fields := by
  have carried := unpack_carried 0 fields
  rw [Nat.zero_or] at carried
  rw [carried]
  refine and_iff_right fun front later back split i inside set => ?_
  rw [Nat.zero_testBit] at set
  cases set

end AtlasNet.Foundation.BitStream
