import AtlasNet.ShardLookup

/-! How large a container a decoder asks for before it reads the elements, against what
is left of the bytes, and how a decoder ends. -/
namespace AtlasNet
open Foundation Foundation.Program

namespace ByteReader

/-- A decoder ends with a value, a `ByteError` or the error for a stage that does not exist. -/
def Settles {α : Type} : Except Fault α → Prop
  | .ok _ => True
  | .error (.byteError _) => True
  | .error (.runtimeError what) => what = "Invalid ClientTransferPacket stage"
  | .error _ => False

/-- A buffer is an object, and no object has 2^63 bytes. -/
def Addressable (br : ByteReader) : Prop := cursor.Inside br ∧ br.n < 2^63

/-- What is behind the bytes of a format. -/
def Behind {α : Type} (F : Format UInt8 α) (bad : α → Bytes → Prop) (bytes : Bytes) : Prop :=
  ∃ front back value, bytes = front ++ back ∧ F front value ∧ bad value back

/-- The bytes in front of which a reader ends in another way. -/
def Breaks {α : Type} (reader : Program ByteReader α) (bad : Bytes → Prop) : Prop :=
  ∀ br, br.Addressable → (¬ Settles (exec reader br).1 ↔ bad (cursor.rest br))

abbrev Never {α : Type} (reader : Program ByteReader α) : Prop := Breaks reader fun _ => False

section Rules
variable {α β : Type} {reader : Program ByteReader α} {bad other : Bytes → Prop} {F : Format UInt8 α}

theorem breaks_congr (breaks : Breaks reader bad) (same : ∀ bytes, bad bytes ↔ other bytes) : Breaks reader other :=
  fun br fits => (breaks br fits).trans (same _)

theorem settles_error (fault : Fault) : Settles (.error fault : Except Fault α) ↔ Settles (.error fault : Except Fault β) := by
  cases fault <;> rfl

theorem never_of_settles (settles : ∀ br, br.Addressable → Settles (exec reader br).1) : Never reader :=
  fun br fits => ⟨fun broken => broken (settles br fits),False.elim⟩

theorem settles_of_never (never : Never reader) {br : ByteReader} (fits : br.Addressable) : Settles (exec reader br).1 := by
  by_contra broken
  exact (never br fits).mp broken

theorem never_pure (value : α) : Never (pure value) := never_of_settles fun _ _ => trivial

theorem addressable_skip {br : ByteReader} {front back : Bytes} (fits : br.Addressable)
    (here : cursor.rest br = front ++ back) :
    (cursor.skip front.length br).Addressable ∧ cursor.rest (cursor.skip front.length br) = back := by
  obtain ⟨inside,there⟩ := cursor.inside_skip br front back fits.1 here
  exact ⟨⟨inside,fits.2⟩,there⟩

/-- The second part is read behind the bytes that the first part takes. -/
theorem breaks_bind {next : α → Program ByteReader β} {worse : α → Bytes → Prop} (accepts : cursor.Accepts reader F)
    (first : Breaks reader bad) (second : ∀ value, Breaks (next value) (worse value)) :
    Breaks (reader >>= next) fun bytes => bad bytes ∨ Behind F worse bytes := by
  intro br fits
  have ends := first br fits
  have unique (value : α) (front back : Bytes) (stands : F front value) (here : cursor.rest br = front ++ back) :
      exec reader br = (.ok value,cursor.skip front.length br) :=
    (accepts br fits.1 value _).mpr ⟨front,back,stands,here,rfl⟩
  rw [exec_bind]
  rcases ran : exec reader br with ⟨fault | value,middle⟩
  · rw [ran,@settles_error α β] at ends
    refine ⟨fun broken => .inl (ends.mp broken),fun broken => ?_⟩
    rcases broken with broken | ⟨front,back,value,here,stands,_⟩
    · exact ends.mpr broken
    · cases (Prod.mk.inj ((unique value front back stands here).symm.trans ran)).1
  · rw [ran] at ends
    have sound : ¬ bad (cursor.rest br) := fun broken => ends.mpr broken trivial
    obtain ⟨front,back,stands,here,rfl⟩ := (accepts br fits.1 value middle).mp ran
    obtain ⟨within,there⟩ := addressable_skip fits here
    have after := second value _ within
    rw [there] at after
    refine ⟨fun broken => .inr ⟨front,back,value,here,stands,after.mp broken⟩,fun broken => ?_⟩
    rcases broken with broken | ⟨front',back',value',here',stands',broken⟩
    · exact absurd broken sound
    · obtain ⟨same,skipped⟩ := Prod.mk.inj ((unique value' front' back' stands' here').symm.trans ran)
      obtain rfl := Except.ok.inj same
      have at_same := (addressable_skip fits here').2
      rw [skipped,there] at at_same
      exact after.mpr (at_same ▸ broken)

theorem never_bind {next : α → Program ByteReader β} (accepts : cursor.Accepts reader F) (first : Never reader)
    (second : ∀ value, Never (next value)) : Never (reader >>= next) := by
  apply breaks_congr (breaks_bind accepts first second)
  intro bytes
  simp [Behind]

theorem breaks_map (f : α → β) (accepts : cursor.Accepts reader F) (breaks : Breaks reader bad) :
    Breaks (do return f (← reader)) bad := by
  apply breaks_congr (breaks_bind accepts breaks (fun value => never_pure (f value)))
  intro bytes
  simp [Behind]

end Rules

section Fields

theorem never_read (size : Nat) (small : size ≤ 16) : Never (read size) := by
  apply never_of_settles
  intro br ⟨inside,bounded⟩
  have exact_sum : (br.i+size) % 2^64 = br.i+size := by
    apply Nat.mod_eq_of_lt
    have inside : br.i ≤ br.n := inside
    omega
  rw [read,exec_get_bind,exec_throwIf,exact_sum]
  split
  · trivial
  · rename_i fits
    rw [advance,exec_get_bind,if_pos (not_lt.mp fits)]
    trivial

theorem never_read_be (size : Nat) (small : size ≤ 16) : Never (read_be size) :=
  breaks_map _ (accepts_read size) (never_read size small)

theorem never_u8 : Never u8 := breaks_map _ (accepts_read_be 1) (never_read_be 1 (by decide))
theorem never_u16 : Never u16 := breaks_map _ (accepts_read_be 2) (never_read_be 2 (by decide))
theorem never_u32 : Never u32 := breaks_map _ (accepts_read_be 4) (never_read_be 4 (by decide))
theorem never_u64 : Never u64 := breaks_map _ (accepts_read_be 8) (never_read_be 8 (by decide))
theorem never_i32 : Never i32 := breaks_map _ accepts_u32 never_u32
theorem never_i8 : Never i8 := breaks_map _ accepts_read_i8 (breaks_map _ accepts_u8 never_u8)

theorem never_vec3 : Never vec3 :=
  never_bind accepts_u32 never_u32 fun _ => never_bind accepts_u32 never_u32 fun _ => breaks_map _ accepts_u32 never_u32

theorem never_uuid : Never uuid := by
  apply never_of_settles
  intro br fits
  rw [uuid,exec_get_bind,exec_throwIf]
  split
  · trivial
  have settles := settles_of_never (never_read 16 (by decide)) fits
  rw [exec_bind]
  rcases ran : exec (read 16) br with ⟨fault | bytes,middle⟩
  · rw [ran,@settles_error _ UUID] at settles
    exact settles
  · obtain ⟨word,back,⟨long,rfl⟩,_⟩ := (accepts_read 16 br fits.1 bytes middle).mp ran
    simp only [long,dif_pos]
    trivial

/-- Five groups that go on and a byte behind them, which is shifted out of 32 bits. -/
def Overlong (bytes : Bytes) : Prop :=
  ∃ groups b rest, bytes = groups ++ b::rest ∧ groups.length = 5 ∧ ∀ group ∈ groups, group &&& 0x80 ≠ 0

/-- The groups go on up to a shift that is not below 32. -/
def GoesOn : List Nat → Bytes → Prop
  | [],_ => False
  | shift::shifts,bytes => ∃ b rest, bytes = b::rest ∧ (32 ≤ shift ∨ b &&& 0x80 ≠ 0 ∧ GoesOn shifts rest)

theorem goesOn_iff (bytes : Bytes) : GoesOn [0,7,14,21,28,35] bytes ↔ Overlong bytes := by
  constructor
  · rintro ⟨a,_,rfl,_ | ⟨first,b,_,rfl,_ | ⟨second,c,_,rfl,_ | ⟨third,d,_,rfl,_ | ⟨fourth,e,_,rfl,_ | ⟨fifth,f,rest,rfl,_⟩⟩⟩⟩⟩⟩
    all_goals first
      | omega
      | exact ⟨[a,b,c,d,e],f,rest,rfl,rfl,by simp [first,second,third,fourth,fifth]⟩
  · rintro ⟨groups,f,rest,rfl,long,high⟩
    obtain ⟨a,b,c,d,e,rfl⟩ : ∃ a b c d e, groups = [a,b,c,d,e] := by
      match groups,long with
      | [a,b,c,d,e],_ => exact ⟨a,b,c,d,e,rfl⟩
    simp only [List.forall_mem_cons] at high
    obtain ⟨first,second,third,fourth,fifth,_⟩ := high
    exact ⟨a,_,rfl,.inr ⟨first,b,_,rfl,.inr ⟨second,c,_,rfl,.inr ⟨third,d,_,rfl,.inr ⟨fourth,e,_,rfl,.inr
      ⟨fifth,f,rest,rfl,.inl (by decide)⟩⟩⟩⟩⟩⟩

theorem breaks_var_u32_loop (shifts : List Nat) (v : UInt32) : Breaks (var_u32_loop shifts v) (GoesOn shifts) := by
  induction shifts generalizing v with
  | nil => exact never_of_settles fun _ _ => trivial
  | cons shift shifts ih =>
    have group (b : UInt8) : Breaks (do
        throwIf (32 ≤ shift) (.undefined "shift of a 32-bit value by its width or more")
        let v := v ||| ((b &&& 0x7F).toUInt32 <<< UInt32.ofNat shift)
        if b &&& 0x80 = 0 then pure v else var_u32_loop shifts v)
        (fun rest => 32 ≤ shift ∨ b &&& 0x80 ≠ 0 ∧ GoesOn shifts rest) := by
      intro br fits
      rw [exec_throwIf]
      by_cases wide : 32 ≤ shift
      · rw [if_pos wide]
        exact ⟨fun _ => .inl wide,fun _ settled => settled⟩
      · rw [if_neg wide]
        by_cases last : b &&& 0x80 = 0
        · rw [if_pos last]
          exact ⟨fun broken => absurd trivial broken,fun broken => absurd broken (by simp [wide,last])⟩
        · rw [if_neg last,ih _ br fits]
          simp [wide,last]
    apply breaks_congr (breaks_bind accepts_u8 never_u8 group)
    intro bytes
    constructor
    · rintro (none | ⟨front,back,b,rfl,stands,worse⟩)
      · exact none.elim
      · exact ⟨b,back,by rw [(ByteFormat.u8_iff _ _).mp stands]; rfl,worse⟩
    · rintro ⟨b,back,rfl,worse⟩
      exact .inr ⟨[b],back,b,rfl,(ByteFormat.u8_iff _ _).mpr rfl,worse⟩

theorem breaks_var_u32 : Breaks var_u32 Overlong := breaks_congr (breaks_var_u32_loop _ 0) goesOn_iff

/-- The copy of counted bytes that are checked first. -/
theorem never_copy (len : Nat) (what : String) : Never (do
    let br ← get
    throwIf (br.remaining < len) (.byteError what)
    advance len) := by
  apply never_of_settles
  intro br ⟨inside,_⟩
  rw [exec_get_bind,exec_throwIf]
  split
  · trivial
  · rename_i enough
    have fits : br.i+len ≤ br.n := by
      have inside : br.i ≤ br.n := inside
      unfold remaining at enough
      omega
    rw [advance,exec_get_bind,if_pos fits]
    trivial

theorem breaks_blob : Breaks blob Overlong := by
  apply breaks_congr (breaks_bind accepts_var_u32 breaks_var_u32 fun len => never_copy len.toNat _)
  intro bytes
  simp [Behind]

end Fields

section Entities

theorem never_AABB3f : Never AABB3f.Deserialize := never_bind accepts_vec3 never_vec3 fun _ => breaks_map _ accepts_vec3 never_vec3

theorem never_Transform : Never Transform.Deserialize :=
  never_bind accepts_u16 never_u16 fun _ => never_bind accepts_vec3 never_vec3 fun _ =>
    breaks_map _ AABB3f.accepts never_AABB3f

theorem never_AtlasEntityMinimal : Never AtlasEntityMinimal.Deserialize :=
  never_bind accepts_uuid never_uuid fun _ => never_bind accepts_u8 never_u8 fun _ => never_bind accepts_uuid never_uuid fun _ =>
    never_bind accepts_u64 never_u64 fun _ => never_bind accepts_u64 never_u64 fun _ =>
      breaks_map _ Transform.accepts never_Transform

/-- The length of the metadata is overlong. -/
def OverlongMetadata : Bytes → Prop := Behind AtlasEntityMinimal.format fun _ => Overlong

theorem breaks_AtlasEntity : Breaks AtlasEntity.Deserialize OverlongMetadata := by
  have metadata (minimal : AtlasEntityMinimal) := breaks_map (AtlasEntity.mk minimal) accepts_blob breaks_blob
  apply breaks_congr (breaks_bind AtlasEntityMinimal.accepts never_AtlasEntityMinimal metadata)
  intro bytes
  rw [false_or,OverlongMetadata]

theorem never_Sequenced : Never Sequenced.Deserialize :=
  never_bind accepts_uuid never_uuid fun _ => breaks_map _ accepts_u64 never_u64

theorem never_NetworkIdentity : Never NetworkIdentity.Deserialize :=
  never_bind accepts_i32 never_i32 fun _ => breaks_map _ accepts_uuid never_uuid

theorem never_GridShape : Never GridShape.Deserialize :=
  never_bind accepts_u32 never_u32 fun _ => breaks_map _ AABB3f.accepts never_AABB3f

theorem breaks_numbered {α : Type} {item : Program ByteReader α} {F : Format UInt8 α} {bad : Bytes → Prop}
    (accepts : cursor.Accepts item F) (breaks : Breaks item bad) : Breaks (do return (← item,← u64)) bad := by
  apply breaks_congr (breaks_bind accepts breaks (fun value => breaks_map (value,·) accepts_u64 never_u64))
  intro bytes
  simp [Behind]

end Entities

section Containers
variable {α β : Type} {item : Program ByteReader α} {F : Format UInt8 α} {bad : Bytes → Prop}

/-- One of the first elements breaks the reader, behind elements that do not. -/
def BreaksWithin (F : Format UInt8 α) (bad : Bytes → Prop) (n : Nat) (bytes : Bytes) : Prop :=
  ∃ k < n, Behind (F.times k) (fun _ => bad) bytes

theorem breaksWithin_succ (n : Nat) (bytes : Bytes) :
    BreaksWithin F bad (n+1) bytes ↔ bad bytes ∨ Behind F (fun _ => BreaksWithin F bad n) bytes := by
  constructor
  · rintro ⟨k,less,front,back,values,rfl,stands,worse⟩
    cases k with
    | zero =>
      obtain ⟨rfl,_⟩ := stands
      exact .inl worse
    | succ k =>
      obtain ⟨head,_,value,rfl,first,tail,_,rest,rfl,others,rfl,_⟩ := stands
      exact .inr ⟨head,tail ++ back,value,by simp,first,k,Nat.succ_lt_succ_iff.mp less,tail,back,rest,rfl,others,worse⟩
  · rintro (worse | ⟨head,_,value,rfl,first,k,less,tail,back,rest,rfl,others,worse⟩)
    · exact ⟨0,Nat.succ_pos n,[],bytes,[],rfl,⟨rfl,rfl⟩,worse⟩
    · refine ⟨k+1,Nat.succ_lt_succ less,head ++ tail,back,value::rest,by simp,?_,worse⟩
      exact ⟨head,tail,value,rfl,first,tail,[],rest,(List.append_nil _).symm,others,rfl,rfl⟩

theorem breaks_each (accepts : cursor.Accepts item F) (breaks : Breaks item bad) (n : Nat) :
    Breaks (each item n) (BreaksWithin F bad n) := by
  induction n with
  | zero =>
    apply breaks_congr (never_pure [])
    rintro bytes
    exact ⟨False.elim,fun ⟨_,less,_⟩ => absurd less (Nat.not_lt_zero _)⟩
  | succ n ih =>
    have others (value : α) := breaks_map (value::·) (accepts_each accepts n) ih
    apply breaks_congr (breaks_bind accepts breaks others)
    intro bytes
    rw [breaksWithin_succ]

variable [Platform]

/-- The size of a container, up to the point where the container is sized. -/
def sized : Program ByteReader (Option Nat) := return some (← u64).toNat

/-- No container is sized beyond the bytes that are left, and the decoder settles. -/
def Contained (sizing : Program ByteReader (Option Nat)) (decode : Program ByteReader β) (br : ByteReader) : Prop :=
  (∀ count after, exec sizing br = (.ok (some count),after) → count ≤ after.remaining) ∧ Settles (exec decode br).1

/-- The bytes of which a decoder is not contained, and that a container that cannot hold the
size ends the decoder where the size was read. -/
structure Sizes (sizing : Program ByteReader (Option Nat)) (decode : Program ByteReader β) (bad : Bytes → Prop) : Prop where
  contained : ∀ br, br.Addressable → (¬ Contained sizing decode br ↔ bad (cursor.rest br))
  passed : ∀ br count after, exec sizing br = (.ok (some count),after) → Platform.capacity < count →
    exec decode br = (.error .lengthError,after)

/-- A count beyond the bytes behind it or beyond what a container can hold, or elements that
break the reader. -/
def Oversized (F : Format UInt8 α) (bad : Bytes → Prop) : Bytes → Prop :=
  Behind ByteFormat.u64 fun count rest =>
    rest.length < count.toNat ∨ Platform.capacity < count.toNat ∨ BreaksWithin F bad count.toNat rest

/-- The same for a loop over an `int`, which is not to read 2^31 elements. -/
def OversizedInt (F : Format UInt8 α) (bad : Bytes → Prop) : Bytes → Prop :=
  Behind ByteFormat.u64 fun count rest =>
    rest.length < count.toNat ∨ Platform.capacity < count.toNat ∨ BreaksWithin F bad (min count.toNat (2^31)) rest ∨
      2^31 ≤ count.toNat ∧ Behind (F.times (2^31)) (fun _ _ => True) rest

theorem sizes_none {decode : Program ByteReader β} (never : Never decode) : Sizes (pure none) decode fun _ => False := by
  constructor
  · intro br fits
    refine ⟨fun loose => loose ⟨fun count after ran => ?_,settles_of_never never fits⟩,False.elim⟩
    cases (Prod.mk.inj ran).1
  · intro br count after ran
    cases (Prod.mk.inj ran).1

theorem sizes_header {header : Program ByteReader α} {sizing : α → Program ByteReader (Option Nat)}
    {decode : α → Program ByteReader β} {worse : α → Bytes → Prop} (accepts : cursor.Accepts header F)
    (never : Never header) (behind : ∀ value, Sizes (sizing value) (decode value) (worse value)) :
    Sizes (header >>= sizing) (header >>= decode) (Behind F worse) := by
  have unique {br : ByteReader} (fits : br.Addressable) {value : α} {front back : Bytes} (stands : F front value)
      (here : cursor.rest br = front ++ back) : exec header br = (.ok value,cursor.skip front.length br) :=
    (accepts br fits.1 value _).mpr ⟨front,back,stands,here,rfl⟩
  constructor
  · intro br fits
    have settles := settles_of_never never fits
    rcases ran : exec header br with ⟨fault | value,middle⟩
    · rw [ran,@settles_error _ β] at settles
      have contained : Contained (header >>= sizing) (header >>= decode) br := by
        rw [Contained,exec_bind_error _ _ _ _ _ ran,exec_bind_error _ _ _ _ _ ran]
        refine ⟨fun count after ran => ?_,settles⟩
        cases (Prod.mk.inj ran).1
      refine ⟨fun loose => absurd contained loose,fun ⟨front,back,value,here,stands,_⟩ => ?_⟩
      cases (Prod.mk.inj ((unique fits stands here).symm.trans ran)).1
    · have moved : Contained (header >>= sizing) (header >>= decode) br ↔ Contained (sizing value) (decode value) middle := by
        rw [Contained,Contained,exec_bind_ok _ _ _ _ _ ran,exec_bind_ok _ _ _ _ _ ran]
      obtain ⟨front,back,stands,here,rfl⟩ := (accepts br fits.1 value middle).mp ran
      obtain ⟨within,there⟩ := addressable_skip fits here
      have after := (behind value).contained _ within
      rw [there] at after
      rw [moved]
      refine ⟨fun loose => ⟨front,back,value,here,stands,after.mp loose⟩,fun ⟨front',back',value',here',stands',worse⟩ => ?_⟩
      obtain ⟨same,skipped⟩ := Prod.mk.inj ((unique fits stands' here').symm.trans ran)
      obtain rfl := Except.ok.inj same
      have at_same := (addressable_skip fits here').2
      rw [skipped,there] at at_same
      exact after.mpr (at_same ▸ worse)
  · intro br count after ran beyond
    obtain ⟨value,middle,started,ran⟩ := bind_returned _ _ _ _ _ ran
    rw [exec_bind_ok _ _ _ _ _ started]
    exact (behind value).passed middle count after ran beyond

theorem sizes_then {sizing : Program ByteReader (Option Nat)} {decode : Program ByteReader α} {next : α → Program ByteReader β}
    (accepts : cursor.Accepts decode F) (sizes : Sizes sizing decode bad) (never : ∀ value, Never (next value)) :
    Sizes sizing (decode >>= next) bad := by
  constructor
  · intro br fits
    rw [← sizes.contained br fits,Contained,Contained]
    have same : Settles (exec (decode >>= next) br).1 ↔ Settles (exec decode br).1 := by
      rcases ran : exec decode br with ⟨fault | value,middle⟩
      · rw [exec_bind_error _ _ _ _ _ ran]
        exact settles_error fault
      · obtain ⟨front,back,stands,here,rfl⟩ := (accepts br fits.1 value middle).mp ran
        rw [exec_bind_ok _ _ _ _ _ ran]
        exact ⟨fun _ => trivial,fun _ => settles_of_never (never value) (addressable_skip fits here).1⟩
    rw [same]
  · intro br count after ran beyond
    exact exec_bind_error _ _ _ _ _ (sizes.passed br count after ran beyond)

theorem sizes_map {sizing : Program ByteReader (Option Nat)} {decode : Program ByteReader α} (f : α → β)
    (accepts : cursor.Accepts decode F) (sizes : Sizes sizing decode bad) : Sizes sizing (do return f (← decode)) bad :=
  sizes_then accepts sizes fun value => never_pure (f value)

/-- The container is sized by the count, and the elements follow. -/
theorem sizes_count {count : UInt64} {elements : Program ByteReader β} (breaks : Breaks elements bad) :
    Sizes (pure (some count.toNat)) (do throwIf (Platform.capacity < count.toNat) .lengthError; elements) fun rest =>
      rest.length < count.toNat ∨ Platform.capacity < count.toNat ∨ bad rest := by
  constructor
  · intro br fits
    have length : (cursor.rest br).length = br.remaining := List.length_drop
    have bounded : (∀ n after, exec (pure (some count.toNat) : Program ByteReader (Option Nat)) br = (.ok (some n),after) →
        n ≤ after.remaining) ↔ count.toNat ≤ br.remaining := by
      constructor
      · exact fun all => all _ _ rfl
      · rintro enough n after ran
        cases ran
        exact enough
    rw [Contained,bounded,exec_throwIf,length]
    by_cases beyond : Platform.capacity < count.toNat
    · rw [if_pos beyond]
      exact ⟨fun _ => .inr (.inl beyond),fun _ contained => contained.2⟩
    · rw [if_neg beyond,← breaks br fits]
      simp only [beyond,false_or,not_and_or,not_le]
  · intro br n after ran beyond
    cases ran
    rw [exec_throwIf,if_pos beyond]

theorem sizes_counted (accepts : cursor.Accepts item F) (breaks : Breaks item bad) :
    Sizes sized (counted item) (Oversized F bad) :=
  sizes_header accepts_u64 never_u64 fun _ => sizes_count (breaks_each accepts breaks _)

theorem sizes_counted_int (accepts : cursor.Accepts item F) (breaks : Breaks item bad) :
    Sizes sized (counted_int item) (OversizedInt F bad) := by
  refine sizes_header accepts_u64 never_u64 fun count => sizes_count ?_
  have overflow (values : List α) : Breaks (do
      throwIf (2^31 ≤ count.toNat) (.undefined "signed overflow of the loop counter")
      pure values) fun _ => 2^31 ≤ count.toNat := by
    intro br fits
    rw [exec_throwIf]
    split
    · rename_i many
      exact ⟨fun _ => many,fun _ settled => settled⟩
    · rename_i few
      exact ⟨fun broken => absurd trivial broken,fun many => absurd many few⟩
  apply breaks_congr (breaks_bind (accepts_each accepts _) (breaks_each accepts breaks _) overflow)
  intro rest
  apply or_congr Iff.rfl
  constructor
  · rintro ⟨front,back,values,here,stands,many⟩
    rw [Nat.min_eq_right many] at stands
    exact ⟨many,front,back,values,here,stands,trivial⟩
  · rintro ⟨many,front,back,values,here,stands,_⟩
    rw [← Nat.min_eq_right many] at stands
    exact ⟨front,back,values,here,stands,many⟩

end Containers

end ByteReader

open ByteReader

section Stages
variable [Platform]

def ClientTransferPacket.stageSizing (stage : Int32) : Program ByteReader (Option Nat) :=
  if stage = 0 ∨ stage = 1 ∨ stage = 2 ∨ stage = 3 ∨ stage = 4 ∨ stage = 5 then sized else pure none

def ClientTransferPacket.stageOversized (stage : Int32) : Bytes → Prop :=
  if stage = 0 then Oversized (numbered AtlasEntity.format) OverlongMetadata
  else if stage = 1 ∨ stage = 4 then Oversized Sequenced.format fun _ => False
  else if stage = 2 ∨ stage = 3 then Oversized ByteFormat.uuid fun _ => False
  else if stage = 5 then Oversized (numbered Sequenced.format) fun _ => False
  else fun _ => False

/-- The fields in front of the container, and the size it is given. -/
def ClientTransferPacket.sizing : Program ByteReader (Option Nat) := do
  let _ ← uuid
  let stage ← i32
  stageSizing stage

def ClientTransferPacket.oversized : Bytes → Prop :=
  Behind ByteFormat.uuid fun _ => Behind ByteFormat.i32 stageOversized

theorem ClientTransferPacket.sizes_stage (stage : Int32) :
    Sizes (stageSizing stage) (StageData.Deserialize stage) (stageOversized stage) := by
  have ids := sizes_counted accepts_uuid never_uuid
  have sequenced := sizes_counted Sequenced.accepts never_Sequenced
  by_cases prepare : stage = 0
  · subst prepare
    have entities := sizes_counted (accepts_numbered AtlasEntity.accepts) (breaks_numbered AtlasEntity.accepts breaks_AtlasEntity)
    exact sizes_map StageData.Prepare (accepts_counted (accepts_numbered AtlasEntity.accepts)) entities
  by_cases ready : stage = 1
  · subst ready
    exact sizes_map StageData.Ready (accepts_counted Sequenced.accepts) sequenced
  by_cases requestSwitch : stage = 2
  · subst requestSwitch
    exact sizes_then (accepts_counted accepts_uuid) ids fun _ => breaks_map _ NetworkIdentity.accepts never_NetworkIdentity
  by_cases freeze : stage = 3
  · subst freeze
    exact sizes_map StageData.Freeze (accepts_counted accepts_uuid) ids
  by_cases drained : stage = 4
  · subst drained
    exact sizes_map StageData.Drained (accepts_counted Sequenced.accepts) sequenced
  by_cases activate : stage = 5
  · subst activate
    have numbers := sizes_counted (accepts_numbered Sequenced.accepts) (breaks_numbered Sequenced.accepts never_Sequenced)
    exact sizes_map StageData.TransferActivate (accepts_counted (accepts_numbered Sequenced.accepts)) numbers
  · have invalid : Never (throw (.runtimeError "Invalid ClientTransferPacket stage") : Program ByteReader StageData) :=
      never_of_settles fun _ _ => rfl
    simp only [stageSizing,StageData.Deserialize,stageOversized,prepare,ready,requestSwitch,freeze,drained,activate,or_self,
      if_false]
    exact sizes_none invalid

def EntityTransferPacket.stageSizing (stage : Int32) : Program ByteReader (Option Nat) :=
  if stage = 0 ∨ stage = 2 then sized else pure none

def EntityTransferPacket.stageOversized (stage : Int32) : Bytes → Prop :=
  if stage = 0 then Oversized ByteFormat.uuid fun _ => False
  else if stage = 2 then Oversized (numbered AtlasEntity.format) OverlongMetadata
  else fun _ => False

def EntityTransferPacket.sizing : Program ByteReader (Option Nat) := do
  let _ ← uuid
  let stage ← i32
  stageSizing stage

def EntityTransferPacket.oversized : Bytes → Prop :=
  Behind ByteFormat.uuid fun _ => Behind ByteFormat.i32 stageOversized

theorem EntityTransferPacket.sizes_stage (stage : Int32) :
    Sizes (stageSizing stage) (StageData.Deserialize stage) (stageOversized stage) := by
  by_cases prepare : stage = 0
  · subst prepare
    exact sizes_map StageData.Prepare (accepts_counted accepts_uuid) (sizes_counted accepts_uuid never_uuid)
  by_cases commit : stage = 2
  · subst commit
    have entities := sizes_counted (accepts_numbered AtlasEntity.accepts) (breaks_numbered AtlasEntity.accepts breaks_AtlasEntity)
    exact sizes_map StageData.Commit (accepts_counted (accepts_numbered AtlasEntity.accepts)) entities
  have rest : Never (StageData.Deserialize stage) := by
    apply never_of_settles
    intro br fits
    simp only [StageData.Deserialize,prepare,commit,if_false]
    split
    · trivial
    split
    · trivial
    · rfl
  simp only [stageSizing,stageOversized,prepare,commit,or_self,if_false]
  exact sizes_none rest

theorem ClientTransferPacket.sizes : Sizes sizing DeserializeData oversized :=
  sizes_header accepts_uuid never_uuid fun _ => sizes_header accepts_i32 never_i32 fun stage =>
    sizes_map _ (accepts_stage stage) (sizes_stage stage)

theorem EntityTransferPacket.sizes : Sizes sizing DeserializeData oversized :=
  sizes_header accepts_uuid never_uuid fun _ => sizes_header accepts_i32 never_i32 fun stage =>
    sizes_map _ (accepts_stage stage) (sizes_stage stage)

def LocalEntityListRequestPacket.sizing : Program ByteReader (Option Nat) := do
  let _ ← u32
  let _ ← i8
  sized

def LocalEntityListRequestPacket.oversized : Bytes → Prop :=
  Behind ByteFormat.u32 fun _ => Behind ByteFormat.i8 fun metadata =>
    if metadata ≠ 0 then OversizedInt AtlasEntity.format OverlongMetadata
    else OversizedInt AtlasEntityMinimal.format fun _ => False

theorem LocalEntityListRequestPacket.sizes : Sizes sizing DeserializeData oversized := by
  refine sizes_header accepts_u32 never_u32 fun status => sizes_header accepts_i8 never_i8 fun metadata => ?_
  by_cases full : metadata ≠ 0
  · simp only [if_pos full]
    exact sizes_map _ (accepts_counted_int AtlasEntity.accepts) (sizes_counted_int AtlasEntity.accepts breaks_AtlasEntity)
  · simp only [if_neg full]
    exact sizes_map _ (accepts_counted_int AtlasEntityMinimal.accepts)
      (sizes_counted_int AtlasEntityMinimal.accepts never_AtlasEntityMinimal)

def PacketData.sizing : PacketClass → Program ByteReader (Option Nat)
  | .ClientTransferPacket => AtlasNet.ClientTransferPacket.sizing
  | .EntityTransferPacket => AtlasNet.EntityTransferPacket.sizing
  | .LocalEntityListRequestPacket => AtlasNet.LocalEntityListRequestPacket.sizing
  | .ClientIDAssignPacket => pure none

def PacketData.oversized : PacketClass → Bytes → Prop
  | .ClientTransferPacket => AtlasNet.ClientTransferPacket.oversized
  | .EntityTransferPacket => AtlasNet.EntityTransferPacket.oversized
  | .LocalEntityListRequestPacket => AtlasNet.LocalEntityListRequestPacket.oversized
  | .ClientIDAssignPacket => fun _ => False

theorem PacketData.sizes (factory : PacketClass) : Sizes (sizing factory) (DeserializeData factory) (oversized factory) := by
  cases factory with
  | ClientTransferPacket => exact sizes_map _ ClientTransferPacket.accepts ClientTransferPacket.sizes
  | EntityTransferPacket => exact sizes_map _ EntityTransferPacket.accepts EntityTransferPacket.sizes
  | LocalEntityListRequestPacket =>
    exact sizes_map _ LocalEntityListRequestPacket.accepts LocalEntityListRequestPacket.sizes
  | ClientIDAssignPacket => exact sizes_none (breaks_map _ NetworkIdentity.accepts never_NetworkIdentity)

end Stages

/-- The decoders of the packets, of the data of their stages and of the heuristic. -/
inductive Decoder
  | clientStage (stage : Int32)
  | entityStage (stage : Int32)
  | clientTransfer
  | entityTransfer
  | localEntityList
  | packet (factory : PacketClass)
  | gridHeuristic

namespace Decoder
variable [Platform]

def Result : Decoder → Type
  | clientStage _ => ClientTransferPacket.StageData
  | entityStage _ => EntityTransferPacket.StageData
  | clientTransfer => ClientTransferPacket
  | entityTransfer => EntityTransferPacket
  | localEntityList => LocalEntityListRequestPacket
  | packet _ => IPacket
  | gridHeuristic => GridHeuristic

def decode : (d : Decoder) → Program ByteReader d.Result
  | clientStage stage => ClientTransferPacket.StageData.Deserialize stage
  | entityStage stage => EntityTransferPacket.StageData.Deserialize stage
  | clientTransfer => ClientTransferPacket.DeserializeData
  | entityTransfer => EntityTransferPacket.DeserializeData
  | localEntityList => LocalEntityListRequestPacket.DeserializeData
  | packet factory => IPacket.Deserialize factory
  | gridHeuristic => GridHeuristic.Deserialize

def sizing : Decoder → Program ByteReader (Option Nat)
  | clientStage stage => ClientTransferPacket.stageSizing stage
  | entityStage stage => EntityTransferPacket.stageSizing stage
  | clientTransfer => ClientTransferPacket.sizing
  | entityTransfer => EntityTransferPacket.sizing
  | localEntityList => LocalEntityListRequestPacket.sizing
  | packet factory => do
    let _ ← u32
    PacketData.sizing factory
  | gridHeuristic => sized

/-- The bytes whose count is too large for the decoder, or whose elements break it. -/
def Oversized : Decoder → Bytes → Prop
  | clientStage stage => ClientTransferPacket.stageOversized stage
  | entityStage stage => EntityTransferPacket.stageOversized stage
  | clientTransfer => ClientTransferPacket.oversized
  | entityTransfer => EntityTransferPacket.oversized
  | localEntityList => LocalEntityListRequestPacket.oversized
  | packet factory => Behind ByteFormat.u32 fun _ => PacketData.oversized factory
  | gridHeuristic => OversizedInt GridShape.format fun _ => False

theorem sizes (d : Decoder) : Sizes d.sizing d.decode d.Oversized := by
  cases d with
  | clientStage stage => exact ClientTransferPacket.sizes_stage stage
  | entityStage stage => exact EntityTransferPacket.sizes_stage stage
  | clientTransfer => exact ClientTransferPacket.sizes
  | entityTransfer => exact EntityTransferPacket.sizes
  | localEntityList => exact LocalEntityListRequestPacket.sizes
  | packet factory =>
    exact sizes_header accepts_u32 never_u32 fun type => sizes_map _ (PacketData.accepts factory) (PacketData.sizes factory)
  | gridHeuristic => exact sizes_map _ (accepts_counted_int GridShape.accepts) (sizes_counted_int GridShape.accepts never_GridShape)

/-- A decoder is contained by the bytes exactly when their count is not too large for them and
their elements do not break it. -/
theorem contained_iff (d : Decoder) (bytes : Bytes) (object : bytes.length < 2^63) :
    Contained d.sizing d.decode {p := bytes} ↔ ¬ d.Oversized bytes := by
  have fits : ByteReader.Addressable {p := bytes} := ⟨Nat.zero_le _,object⟩
  exact not_iff_comm.mp (d.sizes.contained _ fits) |>.symm

/-- A count of 2^64-1 identifiers, none of which follows. -/
def manyFrozen : Bytes := List.replicate 8 255

omit [Platform] in
theorem contained_iff_manyFrozen : ¬ Contained (sizing (clientStage 3)) (@decode fnvPlatform (clientStage 3))
    {p := manyFrozen} := by
  let _ := fnvPlatform
  intro contained
  apply (contained_iff (clientStage 3) manyFrozen (by decide)).mp contained
  refine ⟨manyFrozen,[],0xFFFFFFFFFFFFFFFF,rfl,⟨manyFrozen,[],_,rfl,⟨rfl,rfl⟩,rfl,by decide⟩,.inl (by decide)⟩

omit [Platform] in
/-- The container is sized by the count although nothing follows, and cannot be allocated. -/
theorem manyFrozen_exhausts :
    exec (sizing (clientStage 3)) {p := manyFrozen} = (.ok (some 0xFFFFFFFFFFFFFFFF),{p := manyFrozen,i := 8}) ∧
    (exec (@decode fnvPlatform (clientStage 3)) {p := manyFrozen}).1 = .error .lengthError ∧
    ¬ ∀ (d : Decoder) (bytes : Bytes), bytes.length < 2^63 →
      Contained d.sizing (@decode fnvPlatform d) {p := bytes} := by
  let _ := fnvPlatform
  have size : exec (sizing (clientStage 3)) {p := manyFrozen} = (.ok (some 0xFFFFFFFFFFFFFFFF),{p := manyFrozen,i := 8}) := by
    rfl
  have ends := (sizes (clientStage 3)).passed _ _ _ size (by decide)
  refine ⟨size,congrArg Prod.fst ends,fun all => ?_⟩
  exact absurd ((all (clientStage 3) manyFrozen (by decide)).1 _ _ size) (by decide)

end Decoder

end AtlasNet
