import AtlasNet.ByteStream
import Mathlib.Logic.Function.Basic

/-! Readers of base64 texts as objects in memory: the buffer that each of them owns, the pointer
through which it reads, and what is left of both when readers are copied, moved, assigned to and
destroyed. -/
namespace AtlasNet
open Foundation Foundation.Program

/-- A `std::vector<uint8_t>` that has allocated: its block of the heap and the bytes there is
room for. -/
structure Storage where
  block : Nat
  capacity : Nat

/-- A `ByteReader` in memory. `p` is null or points to the start of a block. -/
structure ReaderObject where
  DecodedBase64Data : Option Storage
  p : Option Nat
  n : Nat
  i : Nat := 0
  bitBuffer : UInt64 := 0
  bitPos : UInt8 := 0

/-- The elements in the allocated blocks, and the readers by their number; those that are
destroyed leave nothing. -/
structure Memory where
  heap : Nat → Option Bytes
  next : Nat
  readers : Nat → Option ReaderObject
  count : Nat

namespace Memory

def empty : Memory := {heap := fun _ => none,next := 0,readers := fun _ => none,count := 0}

section Text

def encoded_size (n : Nat) : Nat := 4*((n+2)/3)
def decoded_size (n : Nat) : Nat := n/4*3

/-- The encoder writes over the front of a string of `encoded_size` null characters. -/
def as_string_base_64 (buf : Bytes) : Except Fault (List Char) :=
  let encoded_len := encoded_size buf.length
  let written := Base64.encode buf
  if encoded_len < written.length then .error (.undefined "write past the string")
  else if 0 < written.length then .ok (written ++ List.replicate (encoded_len-written.length) '\x00')
  else .error (.assertion "BASE64 encode did not write")

end Text

section Buffers

def elements (m : Memory) (data : Option Storage) : Bytes := (data.bind fun storage => m.heap storage.block).getD []

def store (elements : Bytes) (capacity : Nat) (m : Memory) : Option Storage × Memory :=
  if capacity = 0 then (none,m)
  else (some ⟨m.next,capacity⟩,{m with heap := Function.update m.heap m.next (some elements),next := m.next+1})

def release (m : Memory) : Option Storage → Memory
  | none => m
  | some storage => {m with heap := Function.update m.heap storage.block none}

/-- The copy assignment of a vector, which keeps its block where there is room. -/
def replace (old : Option Storage) (elements : Bytes) (m : Memory) : Option Storage × Memory :=
  match old with
  | none => m.store elements elements.length
  | some storage =>
    if elements.length ≤ storage.capacity then
      (some storage,{m with heap := Function.update m.heap storage.block (some elements)})
    else
      let (data,m) := m.store elements elements.length
      (data,m.release (some storage))

end Buffers

section Readers

def construct (reader : ReaderObject) (m : Memory) : Memory :=
  {m with readers := Function.update m.readers m.count (some reader),count := m.count+1}

def place (x : Nat) (reader : Option ReaderObject) (m : Memory) : Memory :=
  {m with readers := Function.update m.readers x reader}

/-- `ByteReader(s,true)`: the vector is made for `decoded_size` bytes and cut to those decoded. -/
def DecodeBase64 (s : List Char) (m : Memory) : Except Fault Memory :=
  let text := s.takeWhile (· ≠ '\x00')
  let decoded := Base64.decode text
  let room := decoded_size text.length
  if room < decoded.length then .error (.undefined "write past the vector")
  else
    let (data,m) := m.store decoded room
    .ok (m.construct {DecodedBase64Data := data,p := data.map (·.block),n := decoded.length})

/-- The copy has the elements of the vector in a block of its own, and the pointer. -/
def copy (source : Nat) (m : Memory) : Memory :=
  match m.readers source with
  | none => m
  | some reader =>
    let elements := m.elements reader.DecodedBase64Data
    let (data,m) := m.store elements elements.length
    m.construct {reader with DecodedBase64Data := data}

def move (source : Nat) (m : Memory) : Memory :=
  match m.readers source with
  | none => m
  | some reader => (m.place source (some {reader with DecodedBase64Data := none})).construct reader

def assign (target source : Nat) (m : Memory) : Memory :=
  if target = source then m
  else match m.readers target,m.readers source with
    | some reader,some other =>
      let (data,m) := m.replace reader.DecodedBase64Data (m.elements other.DecodedBase64Data)
      m.place target (some {other with DecodedBase64Data := data})
    | _,_ => m

def moveAssign (target source : Nat) (m : Memory) : Memory :=
  match m.readers target,m.readers source with
  | some reader,some other =>
    ((m.release reader.DecodedBase64Data).place target (some other)).place source (some {other with DecodedBase64Data := none})
  | _,_ => m

def destroy (target : Nat) (m : Memory) : Memory :=
  match m.readers target with
  | none => m
  | some reader => (m.release reader.DecodedBase64Data).place target none

/-- What the span shows; `none` where reading it is undefined. -/
def GetReadSource (m : Memory) (reader : ReaderObject) : Option Bytes :=
  match reader.p with
  | none => if reader.n = 0 then some [] else none
  | some block => (m.heap block).bind fun elements => if reader.n ≤ elements.length then some (elements.take reader.n) else none

end Readers

/-- What a program does with the readers of payloads: a new one is made from the text of a writer
that holds the bytes, or from another reader. -/
inductive Event
  | carry (bytes : Bytes)
  | copy (source : Nat)
  | move (source : Nat)
  | assign (target source : Nat)
  | moveAssign (target source : Nat)
  | destroy (target : Nat)

def perform (event : Event) (m : Memory) : Except Fault Memory :=
  match event with
  | .carry bytes => do m.DecodeBase64 (← as_string_base_64 bytes)
  | .copy source => .ok (m.copy source)
  | .move source => .ok (m.move source)
  | .assign target source => .ok (m.assign target source)
  | .moveAssign target source => .ok (m.moveAssign target source)
  | .destroy target => .ok (m.destroy target)

/-- The bytes that each reader stands for when readers are taken for values; one that has been
moved from stands for nothing. -/
abbrev Payloads := Nat → Option Bytes

def carried (event : Event) (m : Memory) (payloads : Payloads) : Payloads :=
  match event with
  | .carry bytes => Function.update payloads m.count (some bytes)
  | .copy source => if (m.readers source).isSome then Function.update payloads m.count (payloads source) else payloads
  | .move source =>
    if (m.readers source).isSome then Function.update (Function.update payloads source none) m.count (payloads source)
    else payloads
  | .assign target source =>
    if (m.readers target).isSome ∧ (m.readers source).isSome then Function.update payloads target (payloads source)
    else payloads
  | .moveAssign target source =>
    if (m.readers target).isSome ∧ (m.readers source).isSome then
      Function.update (Function.update payloads target (payloads source)) source none
    else payloads
  | .destroy target => Function.update payloads target none

/-- Every reader in use exposes its payload. -/
def Exposes (m : Memory) (payloads : Payloads) : Prop :=
  ∀ x bytes, payloads x = some bytes → ∃ reader, m.readers x = some reader ∧ m.GetReadSource reader = some bytes

/-- No step fails, and after each one all readers in use expose their payloads. -/
def Lossless : List Event → Memory → Payloads → Prop
  | [],_,_ => True
  | event::events,m,payloads => ∃ next, m.perform event = .ok next ∧ next.Exposes (carried event m payloads) ∧
      Lossless events next (carried event m payloads)

/-- A reader other than `target` is in use for the bytes and reads them from the block. -/
def Borrows (m : Memory) (payloads : Payloads) (target block : Nat) (bytes : Bytes) : Prop :=
  ∃ x reader, x ≠ target ∧ m.readers x = some reader ∧ payloads x = some bytes ∧ reader.p = some block

/-- Nothing empty is carried, and no buffer that another reader in use reads is freed, or written
over with bytes that do not begin with those. -/
def Kept (event : Event) (m : Memory) (payloads : Payloads) : Prop :=
  match event with
  | .carry bytes => bytes ≠ []
  | .copy _ => True
  | .move _ => True
  | .assign target source => ∀ reader other storage bytes, target ≠ source → m.readers target = some reader →
      m.readers source = some other → reader.DecodedBase64Data = some storage → m.Borrows payloads target storage.block bytes →
      (m.elements other.DecodedBase64Data).length ≤ storage.capacity ∧ bytes <+: m.elements other.DecodedBase64Data
  | .moveAssign target source => ∀ reader other storage bytes, m.readers target = some reader →
      m.readers source = some other → reader.DecodedBase64Data = some storage → ¬ m.Borrows payloads target storage.block bytes
  | .destroy target => ∀ reader storage bytes, m.readers target = some reader →
      reader.DecodedBase64Data = some storage → ¬ m.Borrows payloads target storage.block bytes

def AllKept : List Event → Memory → Payloads → Prop
  | [],_,_ => True
  | event::events,m,payloads => Kept event m payloads ∧
      ∀ next, m.perform event = .ok next → AllKept events next (carried event m payloads)

section Readers
variable (m : Memory)

@[simp] theorem place_self (x : Nat) (reader : Option ReaderObject) : (m.place x reader).readers x = reader := Function.update_self ..

theorem place_other {x y : Nat} (apart : y ≠ x) (reader : Option ReaderObject) : (m.place x reader).readers y = m.readers y :=
  Function.update_of_ne apart ..

@[simp] theorem construct_self (reader : ReaderObject) : (m.construct reader).readers m.count = some reader := Function.update_self ..

theorem construct_other {y : Nat} (apart : y ≠ m.count) (reader : ReaderObject) : (m.construct reader).readers y = m.readers y :=
  Function.update_of_ne apart ..

@[simp] theorem store_readers (elements : Bytes) (capacity : Nat) : (m.store elements capacity).2.readers = m.readers := by
  unfold store
  split <;> rfl

@[simp] theorem store_count (elements : Bytes) (capacity : Nat) : (m.store elements capacity).2.count = m.count := by
  unfold store
  split <;> rfl

@[simp] theorem release_readers (data : Option Storage) : (m.release data).readers = m.readers := by cases data <;> rfl

@[simp] theorem release_next (data : Option Storage) : (m.release data).next = m.next := by cases data <;> rfl

@[simp] theorem replace_readers (old : Option Storage) (elements : Bytes) : (m.replace old elements).2.readers = m.readers := by
  cases old with
  | none => exact store_readers m elements elements.length
  | some storage =>
    rw [replace]
    split
    · rfl
    · exact store_readers m elements elements.length

end Readers

section Sizes

theorem decoded_size_encode (bytes : Bytes) : bytes.length ≤ decoded_size (Base64.encode bytes).length := by
  rw [decoded_size,Base64.encode_length]
  omega

theorem as_string_base_64_eq (bytes : Bytes) : as_string_base_64 bytes =
    if bytes = [] then .error (.assertion "BASE64 encode did not write") else .ok (Base64.encode bytes) := by
  have exact_size : encoded_size bytes.length-(Base64.encode bytes).length = 0 := by
    rw [Base64.encode_length]
    exact Nat.sub_self _
  have fits : ¬ encoded_size bytes.length < (Base64.encode bytes).length := by
    rw [Base64.encode_length]
    exact lt_irrefl _
  simp only [as_string_base_64,if_neg fits,exact_size,List.replicate_zero,List.append_nil]
  by_cases none : bytes = []
  · rw [none]
    rfl
  · rw [if_pos (List.length_pos_iff.mpr (Base64.encode_nonempty bytes none)),if_neg none]

theorem exec_as_string_base_64 {σ : Type} (bw : ByteWriter) (state : σ) :
    exec (bw.as_string_base_64 : Program σ String) state = ((as_string_base_64 bw.buf).map String.ofList,state) := by
  rw [as_string_base_64_eq,ByteWriter.as_string_base_64]
  by_cases none : bw.buf = []
  · rw [if_pos none,none]
    rfl
  · have written : 0 < (Base64.encode bw.buf).length := List.length_pos_iff.mpr (Base64.encode_nonempty bw.buf none)
    simp only [if_neg none,assert,if_pos written]
    rfl

end Sizes

section Spans
variable {m : Memory} {reader : ReaderObject} {bytes elements : Bytes} {storage : Storage}

theorem GetReadSource_iff : m.GetReadSource reader = some bytes ↔ (reader.p = none ∧ reader.n = 0 ∧ bytes = []) ∨
    ∃ block elements, reader.p = some block ∧ m.heap block = some elements ∧ reader.n = bytes.length ∧ bytes <+: elements := by
  unfold GetReadSource
  cases target : reader.p with
  | none =>
    by_cases zero : reader.n = 0
    · simp [zero,eq_comm]
    · simp [zero]
  | some block =>
    cases found : m.heap block with
    | none => simp [found]
    | some elements =>
      simp only [found,Option.bind_some,Option.ite_none_right_eq_some,Option.some.injEq,reduceCtorEq,false_and,false_or]
      constructor
      · rintro ⟨fits,rfl⟩
        exact ⟨block,elements,rfl,found,(List.length_take_of_le fits).symm,List.take_prefix _ _⟩
      · rintro ⟨_,_,rfl,here,long,front⟩
        obtain rfl := Option.some.inj (found.symm.trans here)
        rw [long]
        exact ⟨front.length_le,(List.prefix_iff_eq_take.mp front).symm⟩

theorem GetReadSource_congr {other : Memory} {copied : ReaderObject} (same : copied.p = reader.p) (long : copied.n = reader.n)
    (kept : ∀ block, reader.p = some block → other.heap block = m.heap block) :
    other.GetReadSource copied = m.GetReadSource reader := by
  unfold GetReadSource
  rw [same,long]
  cases target : reader.p with
  | none => rfl
  | some block => simp only [kept block target]

theorem heap_of_exposed (exposed : m.GetReadSource reader = some bytes) {block : Nat} (target : reader.p = some block) :
    m.heap block ≠ none := by
  rcases GetReadSource_iff.mp exposed with ⟨null,_⟩ | ⟨_,_,here,found,_⟩
  · rw [null] at target
    cases target
  · rw [here] at target
    rw [← Option.some.inj target,found]
    exact Option.some_ne_none _

theorem exposed_release (exposed : m.GetReadSource reader = some bytes) :
    (m.release (some storage)).GetReadSource reader = some bytes ↔ reader.p ≠ some storage.block := by
  constructor
  · intro still target
    exact heap_of_exposed still target (Function.update_self ..)
  · intro apart
    rw [← exposed]
    refine GetReadSource_congr rfl rfl fun block target => Function.update_of_ne ?_ _ _
    rintro rfl
    exact apart target

theorem exposed_release_iff (exposed : m.GetReadSource reader = some bytes) (data : Option Storage) :
    (m.release data).GetReadSource reader = some bytes ↔ ∀ storage, data = some storage → reader.p ≠ some storage.block := by
  cases data with
  | none => exact iff_of_true exposed fun _ none => by cases none
  | some storage =>
    rw [exposed_release exposed]
    simp only [Option.some.injEq,forall_eq']

theorem exposed_overwrite (exposed : m.GetReadSource reader = some bytes) :
    ({m with heap := Function.update m.heap storage.block (some elements)} : Memory).GetReadSource reader = some bytes ↔
      (reader.p = some storage.block → bytes <+: elements) := by
  by_cases target : reader.p = some storage.block
  · have long : reader.n = bytes.length := by
      rcases GetReadSource_iff.mp exposed with ⟨null,_⟩ | ⟨_,_,_,_,long,_⟩
      · rw [null] at target
        cases target
      · exact long
    simp only [GetReadSource_iff,target,reduceCtorEq,false_and,false_or,forall_const,Option.some.injEq]
    constructor
    · rintro ⟨_,_,rfl,found,_,front⟩
      rw [Function.update_self] at found
      rwa [Option.some.inj found]
    · intro front
      exact ⟨_,elements,rfl,Function.update_self ..,long,front⟩
  · refine ⟨fun _ here => absurd here target,fun _ => ?_⟩
    rw [← exposed]
    refine GetReadSource_congr rfl rfl fun block here => Function.update_of_ne ?_ _ _
    rintro rfl
    exact target here

end Spans

/-- The block of a vector is one of those that have been given out. -/
def Given (m : Memory) (data : Option Storage) : Prop := ∀ storage, data = some storage → storage.block < m.next

/-- The blocks from the next one on are not allocated, and no reader owns one of them. -/
structure Tidy (m : Memory) : Prop where
  fresh : ∀ block, m.next ≤ block → m.heap block = none
  owned : ∀ x reader, m.readers x = some reader → m.Given reader.DecodedBase64Data

section Heap
variable {m : Memory} {reader : ReaderObject} {bytes : Bytes}

theorem exposed_store (tidy : Tidy m) (exposed : m.GetReadSource reader = some bytes) (elements : Bytes) (capacity : Nat) :
    (m.store elements capacity).2.GetReadSource reader = some bytes := by
  unfold store
  split
  · exact exposed
  · rw [← exposed]
    refine GetReadSource_congr rfl rfl fun block target => Function.update_of_ne ?_ _ _
    rintro rfl
    exact heap_of_exposed exposed target (tidy.fresh _ le_rfl)

theorem exposed_replace (tidy : Tidy m) (exposed : m.GetReadSource reader = some bytes) (old : Option Storage) (elements : Bytes) :
    (m.replace old elements).2.GetReadSource reader = some bytes ↔
      ∀ storage, old = some storage → reader.p = some storage.block → elements.length ≤ storage.capacity ∧ bytes <+: elements := by
  cases old with
  | none =>
    refine iff_of_true (exposed_store tidy exposed elements elements.length) fun storage none => ?_
    cases none
  | some storage =>
    simp only [Option.some.injEq,forall_eq']
    by_cases room : elements.length ≤ storage.capacity
    · rw [replace,if_pos room,exposed_overwrite exposed]
      simp only [room,true_and]
    · rw [replace,if_neg room]
      change ((m.store elements elements.length).2.release (some storage)).GetReadSource reader = some bytes ↔ _
      rw [exposed_release (exposed_store tidy exposed elements elements.length)]
      simp only [room,false_and,ne_eq]

theorem tidy_empty : Tidy empty where
  fresh _ _ := rfl
  owned _ _ none := by cases none

theorem tidy_store (tidy : Tidy m) (elements : Bytes) (capacity : Nat) :
    Tidy (m.store elements capacity).2 ∧ (m.store elements capacity).2.Given (m.store elements capacity).1 := by
  unfold store
  split
  · exact ⟨tidy,fun _ none => by cases none⟩
  · refine ⟨⟨fun block high => ?_,fun x reader here storage data => ?_⟩,fun storage same => ?_⟩
    · have apart : block ≠ m.next := Nat.ne_of_gt high
      exact (Function.update_of_ne apart _ _).trans (tidy.fresh block (Nat.le_of_succ_le high))
    · exact (tidy.owned x reader here storage data).trans (Nat.lt_succ_self _)
    · cases same
      exact Nat.lt_succ_self _

theorem tidy_release (tidy : Tidy m) (data : Option Storage) : Tidy (m.release data) := by
  cases data with
  | none => exact tidy
  | some storage =>
    refine ⟨fun block high => ?_,tidy.owned⟩
    by_cases same : block = storage.block
    · subst same
      exact Function.update_self ..
    · exact (Function.update_of_ne same _ _).trans (tidy.fresh block high)

theorem tidy_replace (tidy : Tidy m) {old : Option Storage} (given : m.Given old) (elements : Bytes) :
    Tidy (m.replace old elements).2 ∧ (m.replace old elements).2.Given (m.replace old elements).1 := by
  cases old with
  | none => exact tidy_store tidy elements elements.length
  | some storage =>
    by_cases room : elements.length ≤ storage.capacity
    · rw [replace,if_pos room]
      refine ⟨⟨fun block high => ?_,tidy.owned⟩,given⟩
      have apart : block ≠ storage.block := Nat.ne_of_gt ((given storage rfl).trans_le high)
      exact (Function.update_of_ne apart _ _).trans (tidy.fresh block high)
    · rw [replace,if_neg room]
      obtain ⟨stored,data⟩ := tidy_store tidy elements elements.length
      exact ⟨tidy_release stored (some storage),data⟩

theorem tidy_place (x : Nat) (placed : Option ReaderObject) (tidy : Tidy m)
    (given : ∀ reader, placed = some reader → m.Given reader.DecodedBase64Data) : Tidy (m.place x placed) where
  fresh := tidy.fresh
  owned y reader here := by
    by_cases same : y = x
    · subst same
      rw [place_self] at here
      exact given reader here
    · rw [place_other m same] at here
      exact tidy.owned y reader here

theorem tidy_construct (tidy : Tidy m) (given : m.Given reader.DecodedBase64Data) : Tidy (m.construct reader) where
  fresh := tidy.fresh
  owned := (tidy_place m.count (some reader) tidy fun _ same => by cases same; exact given).owned

theorem given_none (m : Memory) : m.Given none := fun _ none => by cases none

theorem tidy_copy (tidy : Tidy m) (source : Nat) : Tidy (m.copy source) := by
  unfold copy
  split
  · exact tidy
  · rename_i reader _
    obtain ⟨stored,data⟩ := tidy_store tidy (m.elements reader.DecodedBase64Data) (m.elements reader.DecodedBase64Data).length
    exact tidy_construct stored data

theorem tidy_move (tidy : Tidy m) (source : Nat) : Tidy (m.move source) := by
  unfold move
  split
  · exact tidy
  · rename_i reader here
    have emptied : Tidy (m.place source (some {reader with DecodedBase64Data := none})) :=
      tidy_place _ _ tidy fun _ same => Option.some.inj same ▸ given_none m
    exact tidy_construct emptied (tidy.owned source reader here)

theorem tidy_assign (tidy : Tidy m) (target source : Nat) : Tidy (m.assign target source) := by
  unfold assign
  split
  · exact tidy
  split
  · rename_i reader other here _
    obtain ⟨replaced,data⟩ := tidy_replace tidy (tidy.owned target reader here) (m.elements other.DecodedBase64Data)
    exact tidy_place _ _ replaced fun _ same => Option.some.inj same ▸ data
  · exact tidy

theorem tidy_moveAssign (tidy : Tidy m) (target source : Nat) : Tidy (m.moveAssign target source) := by
  unfold moveAssign
  split
  · rename_i reader other _ there
    have released := tidy_release tidy reader.DecodedBase64Data
    have given : (m.release reader.DecodedBase64Data).Given other.DecodedBase64Data := by
      rw [Given,release_next]
      exact tidy.owned source other there
    have placed := tidy_place target (some other) released fun _ same => Option.some.inj same ▸ given
    exact tidy_place _ _ placed fun _ same => Option.some.inj same ▸ given_none _
  · exact tidy

theorem tidy_destroy (tidy : Tidy m) (target : Nat) : Tidy (m.destroy target) := by
  unfold destroy
  split
  · exact tidy
  · exact tidy_place _ _ (tidy_release tidy _) fun _ none => by cases none

end Heap

section Events
variable {m next : Memory} {payloads after : Payloads} {stays : Nat → Prop}

/-- The readers in use later show the spans of readers in use before. -/
def Inherits (m next : Memory) (payloads after : Payloads) (stays : Nat → Prop) : Prop :=
  ∀ x bytes, after x = some bytes → ∃ y reader heir, stays y ∧ m.readers y = some reader ∧ payloads y = some bytes ∧
    next.readers x = some heir ∧ heir.p = reader.p ∧ heir.n = reader.n

/-- The spans of readers in use before are shown by readers in use later. -/
def Bequeaths (m next : Memory) (payloads after : Payloads) (stays : Nat → Prop) : Prop :=
  ∀ y reader bytes, stays y → m.readers y = some reader → payloads y = some bytes →
    ∃ x heir, after x = some bytes ∧ next.readers x = some heir ∧ heir.p = reader.p ∧ heir.n = reader.n

theorem exposes_of_still (inherits : Inherits m next payloads after stays)
    (still : ∀ y reader bytes, stays y → m.readers y = some reader → payloads y = some bytes →
      next.GetReadSource reader = some bytes) : next.Exposes after := by
  intro x bytes inUse
  obtain ⟨y,reader,heir,remains,here,stands,there,span,long⟩ := inherits x bytes inUse
  refine ⟨heir,there,?_⟩
  rw [GetReadSource_congr span long fun _ _ => rfl]
  exact still y reader bytes remains here stands

theorem exposes_iff_still (inherits : Inherits m next payloads after stays) (bequeaths : Bequeaths m next payloads after stays) :
    next.Exposes after ↔ ∀ y reader bytes, stays y → m.readers y = some reader → payloads y = some bytes →
      next.GetReadSource reader = some bytes := by
  refine ⟨fun exposes y reader bytes remains here stands => ?_,exposes_of_still inherits⟩
  obtain ⟨x,heir,inUse,there,span,long⟩ := bequeaths y reader bytes remains here stands
  obtain ⟨found,same,shown⟩ := exposes x bytes inUse
  obtain rfl := Option.some.inj (there.symm.trans same)
  rw [← GetReadSource_congr span long fun _ _ => rfl]
  exact shown

theorem exposed_of (exposes : m.Exposes payloads) {y : Nat} {reader : ReaderObject} {bytes : Bytes}
    (here : m.readers y = some reader) (stands : payloads y = some bytes) : m.GetReadSource reader = some bytes := by
  obtain ⟨found,same,shown⟩ := exposes y bytes stands
  obtain rfl := Option.some.inj (here.symm.trans same)
  exact shown

theorem inherits_construct (heir : ReaderObject) {reader : ReaderObject} {source : Nat} {bytes : Option Bytes}
    (inherits : Inherits m next payloads after stays) (remains : stays source) (here : m.readers source = some reader)
    (same : bytes = payloads source) (span : heir.p = reader.p) (long : heir.n = reader.n) :
    Inherits m (next.construct heir) payloads (Function.update after next.count bytes) stays := by
  intro x shown inUse
  by_cases made : x = next.count
  · subst made
    rw [Function.update_self,same] at inUse
    exact ⟨source,reader,heir,remains,here,inUse,construct_self ..,span,long⟩
  · rw [Function.update_of_ne made] at inUse
    rw [construct_other next made]
    exact inherits x shown inUse

theorem inherits_self (exposes : m.Exposes payloads) (readers : next.readers = m.readers) :
    Inherits m next payloads payloads fun _ => True := by
  intro x bytes inUse
  obtain ⟨reader,here,_⟩ := exposes x bytes inUse
  exact ⟨x,reader,reader,trivial,here,inUse,readers ▸ here,rfl,rfl⟩

theorem exposes_copy (tidy : Tidy m) (exposes : m.Exposes payloads) (source : Nat) :
    (m.copy source).Exposes (carried (.copy source) m payloads) := by
  rw [copy,carried]
  cases here : m.readers source with
  | none => exact exposes
  | some reader =>
    let elements := m.elements reader.DecodedBase64Data
    have kept := inherits_self exposes (store_readers m elements elements.length)
    have made := inherits_construct {reader with DecodedBase64Data := (m.store elements elements.length).1}
      kept trivial here rfl rfl rfl
    rw [store_count] at made
    refine exposes_of_still made fun y other bytes _ there stands => ?_
    exact exposed_store tidy (exposed_of exposes there stands) elements elements.length

theorem inherits_without (target : Nat) (exposes : m.Exposes payloads) (readers : ∀ y, y ≠ target → next.readers y = m.readers y) :
    Inherits m next payloads (Function.update payloads target none) (· ≠ target) := by
  intro x bytes inUse
  have other : x ≠ target := by
    rintro rfl
    rw [Function.update_self] at inUse
    cases inUse
  rw [Function.update_of_ne other] at inUse
  obtain ⟨reader,here,_⟩ := exposes x bytes inUse
  exact ⟨x,reader,reader,other,here,inUse,(readers x other).trans here,rfl,rfl⟩

theorem bequeaths_without {target : Nat} (readers : ∀ y, y ≠ target → next.readers y = m.readers y) :
    Bequeaths m next payloads (Function.update payloads target none) (· ≠ target) :=
  fun y reader _ other here stands => ⟨y,reader,(Function.update_of_ne other ..).trans stands,(readers y other).trans here,rfl,rfl⟩

theorem exposes_move (exposes : m.Exposes payloads) (source : Nat) :
    (m.move source).Exposes (carried (.move source) m payloads) := by
  rw [move,carried]
  cases here : m.readers source with
  | none => exact exposes
  | some reader =>
    have kept : Inherits m (m.place source (some {reader with DecodedBase64Data := none})) payloads
        (Function.update payloads source none) fun _ => True := by
      intro x bytes inUse
      obtain ⟨y,owner,heir,_,shown⟩ := inherits_without source exposes (fun y other => place_other m other _) x bytes inUse
      exact ⟨y,owner,heir,trivial,shown⟩
    have made := inherits_construct reader kept trivial here rfl rfl rfl
    exact exposes_of_still made fun y other bytes _ there stands => exposed_of exposes there stands

/-- The reader that is assigned to shows the span of the other one; those besides it stay. -/
theorem inherits_place (heir : ReaderObject) {reader : ReaderObject} {target source : Nat} (exposes : m.Exposes payloads)
    (readers : next.readers = m.readers) (apart : source ≠ target) (here : m.readers source = some reader)
    (span : heir.p = reader.p) (long : heir.n = reader.n) :
    Inherits m (next.place target (some heir)) payloads (Function.update payloads target (payloads source)) (· ≠ target) := by
  intro x bytes inUse
  by_cases assigned : x = target
  · subst assigned
    rw [Function.update_self] at inUse
    exact ⟨source,reader,heir,apart,here,inUse,place_self ..,span,long⟩
  · rw [Function.update_of_ne assigned] at inUse
    obtain ⟨reader,there,_⟩ := exposes x bytes inUse
    refine ⟨x,reader,reader,assigned,there,inUse,?_,rfl,rfl⟩
    rw [place_other next assigned,readers,there]

theorem bequeaths_place {heir : ReaderObject} {target source : Nat} (readers : next.readers = m.readers) :
    Bequeaths m (next.place target (some heir)) payloads (Function.update payloads target (payloads source)) (· ≠ target) := by
  intro y reader bytes other here stands
  refine ⟨y,reader,?_,?_,rfl,rfl⟩
  · rw [Function.update_of_ne other,stands]
  · rw [place_other next other,readers,here]

theorem exposes_assign_iff (tidy : Tidy m) (exposes : m.Exposes payloads) (target source : Nat) :
    (m.assign target source).Exposes (carried (.assign target source) m payloads) ↔ Kept (.assign target source) m payloads := by
  rw [assign,carried,Kept]
  by_cases self : target = source
  · subst self
    rw [if_pos rfl,Function.update_eq_self,ite_self]
    exact iff_of_true exposes fun _ _ _ _ other => absurd rfl other
  rw [if_neg self]
  cases here : m.readers target with
  | none => exact iff_of_true exposes fun _ _ _ _ _ none => by cases none
  | some reader =>
    cases there : m.readers source with
    | none => exact iff_of_true exposes fun _ _ _ _ _ _ none => by cases none
    | some other =>
      let elements := m.elements other.DecodedBase64Data
      have readers := replace_readers m reader.DecodedBase64Data elements
      have inherits := inherits_place {other with DecodedBase64Data := (m.replace reader.DecodedBase64Data elements).1}
        exposes readers (Ne.symm self) there rfl rfl
      refine (exposes_iff_still inherits (bequeaths_place readers)).trans ?_
      constructor
      · rintro still _ _ storage bytes _ ⟨⟩ ⟨⟩ data ⟨y,borrower,apart,found,stands,reads⟩
        exact (exposed_replace tidy (exposed_of exposes found stands) _ elements).mp (still y borrower bytes apart found stands)
          storage data reads
      · intro kept y borrower bytes apart found stands
        refine (exposed_replace tidy (exposed_of exposes found stands) _ elements).mpr fun storage data reads => ?_
        exact kept reader other storage bytes self rfl rfl data ⟨y,borrower,apart,found,stands,reads⟩

theorem inherits_moveAssign {other : ReaderObject} {target source : Nat} (exposes : m.Exposes payloads)
    (readers : next.readers = m.readers) (there : m.readers source = some other) :
    Inherits m ((next.place target (some other)).place source (some {other with DecodedBase64Data := none})) payloads
      (Function.update (Function.update payloads target (payloads source)) source none) (· ≠ target) := by
  intro x bytes inUse
  have moved : x ≠ source := by
    rintro rfl
    rw [Function.update_self] at inUse
    cases inUse
  rw [Function.update_of_ne moved] at inUse
  rw [place_other _ moved]
  by_cases assigned : x = target
  · subst assigned
    rw [Function.update_self] at inUse
    exact ⟨source,other,other,Ne.symm moved,there,inUse,place_self ..,rfl,rfl⟩
  · rw [Function.update_of_ne assigned] at inUse
    obtain ⟨reader,here,_⟩ := exposes x bytes inUse
    refine ⟨x,reader,reader,assigned,here,inUse,?_,rfl,rfl⟩
    rw [place_other next assigned,readers,here]

theorem bequeaths_moveAssign {other : ReaderObject} {target source : Nat} (readers : next.readers = m.readers)
    (there : m.readers source = some other) :
    Bequeaths m ((next.place target (some other)).place source (some {other with DecodedBase64Data := none})) payloads
      (Function.update (Function.update payloads target (payloads source)) source none) (· ≠ target) := by
  intro y reader bytes apart here stands
  by_cases moved : y = source
  · subst moved
    obtain rfl := Option.some.inj (there.symm.trans here)
    refine ⟨target,other,?_,?_,rfl,rfl⟩
    · rw [Function.update_of_ne (Ne.symm apart),Function.update_self,stands]
    · rw [place_other _ (Ne.symm apart),place_self]
  · refine ⟨y,reader,?_,?_,rfl,rfl⟩
    · rw [Function.update_of_ne moved,Function.update_of_ne apart,stands]
    · rw [place_other _ moved,place_other next apart,readers,here]

theorem exposes_moveAssign_iff (exposes : m.Exposes payloads) (target source : Nat) :
    (m.moveAssign target source).Exposes (carried (.moveAssign target source) m payloads) ↔
      Kept (.moveAssign target source) m payloads := by
  rw [moveAssign,carried,Kept]
  cases here : m.readers target with
  | none => exact iff_of_true exposes fun _ _ _ _ none => by cases none
  | some reader =>
    cases there : m.readers source with
    | none => exact iff_of_true exposes fun _ _ _ _ _ none => by cases none
    | some other =>
      have readers := release_readers m reader.DecodedBase64Data
      refine (exposes_iff_still (inherits_moveAssign exposes readers there) (bequeaths_moveAssign readers there)).trans ?_
      constructor
      · rintro still _ _ storage bytes ⟨⟩ ⟨⟩ data ⟨y,borrower,apart,found,stands,reads⟩
        exact (exposed_release_iff (exposed_of exposes found stands) _).mp (still y borrower bytes apart found stands)
          storage data reads
      · intro kept y borrower bytes apart found stands
        refine (exposed_release_iff (exposed_of exposes found stands) _).mpr fun storage data reads => ?_
        exact kept reader other storage bytes rfl rfl data ⟨y,borrower,apart,found,stands,reads⟩

theorem exposes_destroy_iff (exposes : m.Exposes payloads) (target : Nat) :
    (m.destroy target).Exposes (carried (.destroy target) m payloads) ↔ Kept (.destroy target) m payloads := by
  rw [destroy,carried,Kept]
  cases here : m.readers target with
  | none =>
    refine iff_of_true ?_ fun _ _ _ none => by cases none
    have inherits := inherits_without target exposes fun _ _ => rfl
    exact exposes_of_still inherits fun y reader bytes _ found stands => exposed_of exposes found stands
  | some reader =>
    have readers (y : Nat) (other : y ≠ target) : ((m.release reader.DecodedBase64Data).place target none).readers y = m.readers y := by
      rw [place_other _ other,release_readers]
    refine (exposes_iff_still (inherits_without target exposes readers) (bequeaths_without readers)).trans ?_
    constructor
    · rintro still _ storage bytes ⟨⟩ data ⟨y,borrower,apart,found,stands,reads⟩
      exact (exposed_release_iff (exposed_of exposes found stands) _).mp (still y borrower bytes apart found stands)
        storage data reads
    · intro kept y borrower bytes apart found stands
      refine (exposed_release_iff (exposed_of exposes found stands) _).mpr fun storage data reads => ?_
      exact kept reader storage bytes rfl data ⟨y,borrower,apart,found,stands,reads⟩

theorem DecodeBase64_encode (m : Memory) (bytes : Bytes) (some : bytes ≠ []) :
    let room := decoded_size (Base64.encode bytes).length
    m.DecodeBase64 (Base64.encode bytes) = .ok ((m.store bytes room).2.construct
      {DecodedBase64Data := Option.some ⟨m.next,room⟩,p := Option.some m.next,n := bytes.length}) := by
  intro room
  have text : (Base64.encode bytes).takeWhile (· ≠ '\x00') = Base64.encode bytes :=
    List.takeWhile_eq_self_iff.mpr fun c member => decide_eq_true (Base64.encode_terminated _ c member)
  have fits : bytes.length ≤ room := decoded_size_encode bytes
  have large : room ≠ 0 := Nat.ne_of_gt ((List.length_pos_iff.mpr some).trans_le fits)
  simp only [DecodeBase64,text,Base64.decode_encode]
  rw [if_neg (not_lt.mpr fits),store,if_neg large]
  rfl

theorem exposed_stored (m : Memory) (bytes : Bytes) {room : Nat} (large : room ≠ 0) :
    (m.store bytes room).2.GetReadSource {DecodedBase64Data := some ⟨m.next,room⟩,p := some m.next,n := bytes.length} =
      some bytes := by
  have stored : (m.store bytes room).2.heap m.next = some bytes := by
    rw [store,if_neg large]
    exact Function.update_self ..
  exact GetReadSource_iff.mpr (.inr ⟨m.next,bytes,rfl,stored,rfl,List.prefix_refl _⟩)

theorem exposes_carry (tidy : Tidy m) (exposes : m.Exposes payloads) (bytes : Bytes) {room : Nat} (large : room ≠ 0) :
    ((m.store bytes room).2.construct {DecodedBase64Data := some ⟨m.next,room⟩,p := some m.next,n := bytes.length}).Exposes
      (carried (.carry bytes) m payloads) := by
  intro x shown inUse
  rw [carried] at inUse
  by_cases made : x = m.count
  · subst made
    rw [Function.update_self] at inUse
    obtain rfl := Option.some.inj inUse
    rw [← store_count m bytes room,construct_self]
    exact ⟨_,rfl,exposed_stored m bytes large⟩
  · rw [Function.update_of_ne made] at inUse
    obtain ⟨reader,here,exposed⟩ := exposes x shown inUse
    rw [← store_count m bytes room] at made
    rw [construct_other _ made,store_readers]
    exact ⟨reader,here,exposed_store tidy exposed bytes room⟩

/-- The reader as the other operations see it. -/
def view (m : Memory) (reader : ReaderObject) : Option ByteReader :=
  (m.GetReadSource reader).map fun p => {p,i := reader.i,bitBuffer := reader.bitBuffer,bitPos := reader.bitPos}

theorem view_carried (m : Memory) (bytes : Bytes) {room : Nat} (large : room ≠ 0) :
    (m.store bytes room).2.view {DecodedBase64Data := some ⟨m.next,room⟩,p := some m.next,n := bytes.length} =
      some (.ofBase64 (String.ofList (Base64.encode bytes))) := by
  have exposed := exposed_stored m bytes large
  rw [view,exposed,ofBase64_encode]
  rfl

theorem perform_carry_empty (m : Memory) : m.perform (.carry []) = .error (.assertion "BASE64 encode did not write") := by
  rw [perform,as_string_base_64_eq]
  rfl

theorem perform_carry (m : Memory) {bytes : Bytes} (some : bytes ≠ []) : ∃ room, room ≠ 0 ∧
    m.perform (.carry bytes) = .ok ((m.store bytes room).2.construct
      {DecodedBase64Data := Option.some ⟨m.next,room⟩,p := Option.some m.next,n := bytes.length}) := by
  refine ⟨decoded_size (Base64.encode bytes).length,?_,?_⟩
  · exact Nat.ne_of_gt ((List.length_pos_iff.mpr some).trans_le (decoded_size_encode bytes))
  · rw [perform,as_string_base_64_eq,if_neg some,← DecodeBase64_encode m bytes some]
    rfl

theorem tidy_perform (tidy : Tidy m) {event : Event} (ran : m.perform event = .ok next) : Tidy next := by
  cases event with
  | carry bytes =>
    by_cases none : bytes = []
    · rw [none,perform_carry_empty] at ran
      cases ran
    · obtain ⟨room,large,made⟩ := perform_carry m none
      obtain rfl := Except.ok.inj (made.symm.trans ran)
      obtain ⟨stored,data⟩ := tidy_store tidy bytes room
      rw [store,if_neg large] at data
      refine tidy_construct stored ?_
      rwa [store,if_neg large]
  | copy source => exact Except.ok.inj ran ▸ tidy_copy tidy source
  | move source => exact Except.ok.inj ran ▸ tidy_move tidy source
  | assign target source => exact Except.ok.inj ran ▸ tidy_assign tidy target source
  | moveAssign target source => exact Except.ok.inj ran ▸ tidy_moveAssign tidy target source
  | destroy target => exact Except.ok.inj ran ▸ tidy_destroy tidy target

/-- One step keeps what the readers expose exactly when it is one that is kept. -/
theorem perform_iff (tidy : Tidy m) (exposes : m.Exposes payloads) (event : Event) :
    (∃ next, m.perform event = .ok next ∧ next.Exposes (carried event m payloads)) ↔ Kept event m payloads := by
  have returned (after : Memory) (kept : Prop) (same : after.Exposes (carried event m payloads) ↔ kept)
      (ran : m.perform event = .ok after) :
      (∃ next, m.perform event = .ok next ∧ next.Exposes (carried event m payloads)) ↔ kept := by
    simp only [ran,Except.ok.injEq,exists_eq_left',same]
  cases event with
  | carry bytes =>
    by_cases none : bytes = []
    · subst none
      refine iff_of_false ?_ fun some => some rfl
      rintro ⟨next,ran,_⟩
      rw [perform_carry_empty] at ran
      cases ran
    · obtain ⟨room,large,made⟩ := perform_carry m none
      exact iff_of_true ⟨_,made,exposes_carry tidy exposes bytes large⟩ none
  | copy source => exact iff_of_true ⟨_,rfl,exposes_copy tidy exposes source⟩ trivial
  | move source => exact iff_of_true ⟨_,rfl,exposes_move exposes source⟩ trivial
  | assign target source => exact returned _ _ (exposes_assign_iff tidy exposes target source) rfl
  | moveAssign target source => exact returned _ _ (exposes_moveAssign_iff exposes target source) rfl
  | destroy target => exact returned _ _ (exposes_destroy_iff exposes target) rfl

theorem lossless_of_exposes (events : List Event) (tidy : Tidy m) (exposes : m.Exposes payloads) :
    Lossless events m payloads ↔ AllKept events m payloads := by
  induction events generalizing m payloads with
  | nil => exact Iff.rfl
  | cons event events ih =>
    rw [Lossless,AllKept]
    constructor
    · rintro ⟨next,ran,shown,rest⟩
      refine ⟨(perform_iff tidy exposes event).mp ⟨next,ran,shown⟩,fun other same => ?_⟩
      obtain rfl := Except.ok.inj (ran.symm.trans same)
      exact (ih (tidy_perform tidy ran) shown).mp rest
    · rintro ⟨kept,rest⟩
      obtain ⟨next,ran,shown⟩ := (perform_iff tidy exposes event).mpr kept
      exact ⟨next,ran,shown,(ih (tidy_perform tidy ran) shown).mpr (rest next ran)⟩

end Events

def unused : Payloads := fun _ => none

/-- A program with readers of payloads loses no byte exactly when it carries nothing empty and
never frees or writes over what another reader in use reads. -/
theorem lossless_iff (events : List Event) : Lossless events empty unused ↔ AllKept events empty unused := by
  apply lossless_of_exposes events tidy_empty
  intro x bytes none
  cases none

/-- The empty payload fails the assertion, and a copy loses its bytes with the reader it was
copied from. -/
theorem lossy_programs : ¬ Lossless [.carry []] empty unused ∧ ¬ Lossless [.carry [1],.copy 0,.destroy 0] empty unused := by
  constructor
  · rintro ⟨next,ran,_⟩
    rw [perform_carry_empty] at ran
    cases ran
  · rw [lossless_of_exposes _ tidy_empty fun _ _ none => by cases none]
    rintro ⟨_,kept⟩
    obtain ⟨room,large,made⟩ := perform_carry empty (List.cons_ne_nil 1 [])
    rw [store,if_neg large] at made
    have freed := ((kept _ made).2 _ rfl).1
    exact freed _ ⟨0,room⟩ [1] rfl rfl ⟨1,_,one_ne_zero,rfl,rfl,rfl⟩

end Memory

end AtlasNet
