import AtlasNet.HardcodedDecoders
import Mathlib.Data.String.Basic

/-! The equality, the order and the hash of network identities. Equality and order are those
of the texts, in which all the types without a name look alike; the hash is that of the
fields. -/
namespace AtlasNet
open Foundation Foundation.Program HardcodedDecoders

namespace NetworkIdentity

/-- `operator<`. The texts are in ASCII, so the order of the characters is that of the bytes. -/
instance : LT NetworkIdentity := ⟨fun a b => a.ToString < b.ToString⟩

instance : IsStrictOrder NetworkIdentity (· < ·) where
  irrefl a := lt_irrefl a.ToString
  trans _ _ _ first second := lt_trans (α := String) first second

theorem equivalent_iff (a b : NetworkIdentity) : ¬ a < b ∧ ¬ b < a ↔ (a == b) = true := by
  change ¬ a.ToString < b.ToString ∧ ¬ b.ToString < a.ToString ↔ (a.ToString == b.ToString) = true
  rw [beq_iff_eq]
  constructor
  · rintro ⟨below,above⟩
    exact le_antisymm (not_lt.mp above) (not_lt.mp below)
  · intro same
    rw [same]
    exact ⟨lt_irrefl _,lt_irrefl _⟩

theorem name_unknown {type : NetworkIdentityType} (undeclared : type ∉ declaredTypes) :
    type.enum_to_string = ['U','n','k','n','o','w','n','U','n','k','n','o','w','n','T','y','p','e','?'] := by
  simp only [declaredTypes,List.mem_cons,List.not_mem_nil,or_false,not_or] at undeclared
  simp only [NetworkIdentityType.enum_to_string,undeclared,if_false]

theorem name_known : ∀ type ∈ declaredTypes,
    type.enum_to_string ≠ ['U','n','k','n','o','w','n','U','n','k','n','o','w','n','T','y','p','e','?'] := by decide

theorem name_injective : ∀ a ∈ declaredTypes, ∀ b ∈ declaredTypes, a.enum_to_string = b.enum_to_string → a = b := by decide

theorem name_eq_iff (a b : NetworkIdentityType) :
    a.enum_to_string = b.enum_to_string ↔ a = b ∨ a ∉ declaredTypes ∧ b ∉ declaredTypes := by
  constructor
  · intro same
    by_cases first : a ∈ declaredTypes
    · by_cases second : b ∈ declaredTypes
      · exact .inl (name_injective a first b second same)
      · exact absurd (same.trans (name_unknown second)) (name_known a first)
    · by_cases second : b ∈ declaredTypes
      · exact absurd (same.symm.trans (name_unknown first)) (name_known b second)
      · exact .inr ⟨first,second⟩
  · rintro (rfl | ⟨first,second⟩)
    · rfl
    · rw [name_unknown first,name_unknown second]

/-- Two codes without a name, with the same UUID. -/
def Confused (a b : NetworkIdentity) : Prop :=
  a.type ≠ b.type ∧ a.type ∉ declaredTypes ∧ b.type ∉ declaredTypes ∧ a.ID = b.ID

theorem eq_of_parts {a b : NetworkIdentity} (type : a.type = b.type) (ID : a.ID = b.ID) : a = b := by
  cases a
  cases b
  simp_all

theorem beq_iff_confused (a b : NetworkIdentity) : (a == b) = true ↔ a = b ∨ Confused a b := by
  rw [beq_iff,name_eq_iff]
  constructor
  · rintro ⟨same | ⟨first,second⟩,ID⟩
    · exact .inl (eq_of_parts same ID)
    · by_cases same : a.type = b.type
      · exact .inl (eq_of_parts same ID)
      · exact .inr ⟨same,first,second,ID⟩
  · rintro (rfl | ⟨_,first,second,ID⟩)
    · exact ⟨.inl rfl,rfl⟩
    · exact ⟨.inr ⟨first,second⟩,ID⟩

section Keys
variable [Platform]

/-- Equality, hash and order of a pair tell the two identities apart, and so do the keys of an
unordered map and of an ordered index. -/
structure ToldApart (a b : NetworkIdentity) : Prop where
  equal : (a == b) = true ↔ a.type = b.type ∧ a.ID = b.ID
  hashed : (a == b) = true → a.stdHash = b.stdHash
  total : a < b ∨ a = b ∨ b < a
  equivalence : ¬ a < b ∧ ¬ b < a ↔ (a == b) = true
  unordered : ((⟨a⟩ : MapKey) == ⟨b⟩) = true ↔ a = b
  ordered : ¬ a < b ∧ ¬ b < a ↔ a = b

theorem toldApart_of_iff {a b : NetworkIdentity} (exactly : (a == b) = true ↔ a = b) : ToldApart a b where
  equal := exactly.trans ⟨fun same => by subst same; exact ⟨rfl,rfl⟩,fun ⟨type,ID⟩ => eq_of_parts type ID⟩
  hashed same := by rw [exactly.mp same]
  total := by
    by_cases below : a < b
    · exact .inl below
    · by_cases above : b < a
      · exact .inr (.inr above)
      · exact .inr (.inl (exactly.mp ((equivalent_iff a b).mp ⟨below,above⟩)))
  equivalence := equivalent_iff a b
  unordered := by
    rw [MapKey.beq_iff,exactly]
    exact ⟨And.right,fun same => ⟨congrArg stdHash same,same⟩⟩
  ordered := (equivalent_iff a b).trans exactly

/-- The order is a strict one on all identities, and a pair is told apart unless it is two
different codes without a name under one UUID. -/
theorem toldApart_iff : IsStrictOrder NetworkIdentity (· < ·) ∧ ∀ a b : NetworkIdentity, ToldApart a b ↔ ¬ Confused a b := by
  refine ⟨inferInstance,fun a b => ⟨fun apart confused => ?_,fun clear => ?_⟩⟩
  · have same := apart.equal.mp ((beq_iff_confused a b).mpr (.inr confused))
    exact confused.1 same.1
  · apply toldApart_of_iff
    rw [beq_iff_confused]
    exact or_iff_left clear

end Keys

/-- What is read from two buffers is one peer to every comparison, and has two hashes. -/
theorem unnamed_types_confused : let _ := fnvPlatform
    let bytes (code : UInt8) : Bytes := [0,0,0,code] ++ List.replicate 16 7
    ∃ a b : NetworkIdentity, (exec Deserialize {p := bytes 5}).1 = .ok a ∧ (exec Deserialize {p := bytes 8}).1 = .ok b ∧
      (a == b) = true ∧ a.type ≠ b.type ∧ a.stdHash ≠ b.stdHash ∧ ¬ a < b ∧ ¬ b < a := by
  intro _ bytes
  let a : NetworkIdentity := ⟨⟨5⟩,⟨List.replicate 16 7,rfl⟩⟩
  let b : NetworkIdentity := ⟨⟨8⟩,⟨List.replicate 16 7,rfl⟩⟩
  have confused : Confused a b := ⟨by decide,by decide,by decide,rfl⟩
  have same := (beq_iff_confused a b).mpr (.inr confused)
  refine ⟨a,b,rfl,rfl,same,confused.1,?_,(equivalent_iff a b).mpr same⟩
  decide +kernel

end NetworkIdentity

end AtlasNet
