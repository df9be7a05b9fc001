import AtlasNet.ReaderOperations
import AtlasNet.ByteWriting

/-! Streams of tagged elements: what is written comes back, and on any bytes the calls of
`next_tlv` come to an end. -/
namespace AtlasNet
open Foundation Foundation.Program

/-- The elements of a stream, one `tlv` after the other. -/
def ByteWriter.tlvs (elements : List (UInt16 × ByteWriter)) (bw : ByteWriter) : ByteWriter :=
  elements.foldl (fun bw element => tlv element.1 element.2 bw) bw

namespace ByteReader

/-- The elements that up to so many calls of `next_tlv` yield, and how the last call ended: with
false, with a fault, or not yet. -/
def drain : Nat → ByteReader → List (UInt16 × Bytes) × Option (Except Fault Unit)
  | 0,_ => ([],none)
  | calls+1,br => match exec next_tlv br with
    | (.ok none,_) => ([],some (.ok ()))
    | (.error fault,_) => ([],some (.error fault))
    | (.ok (some element),next) => (element::(drain calls next).1,(drain calls next).2)

/-- Values that stand in the bytes one behind the other. -/
inductive InOrder : List Bytes → Bytes → Prop
  | done (rest : Bytes) : InOrder [] rest
  | next (gap value : Bytes) {values : List Bytes} {rest : Bytes} (others : InOrder values rest) :
      InOrder (value::values) (gap ++ (value ++ rest))

/-- Behind some elements stands one with an overlong length. -/
def MeetsOverlong (bytes : Bytes) : Prop := ∃ n, BreaksWithin ByteFormat.tlv OverlongLength n bytes

/-- The calls end with false or a `ByteError`, and have yielded parts of the bytes in their order. -/
def EndsOrderly (bytes : Bytes) : Prop :=
  ∃ elements outcome, drain (bytes.length/3+1) {p := bytes} = (elements,some outcome) ∧
    (outcome = .ok () ∨ ∃ what, outcome = .error (.byteError what)) ∧ InOrder (elements.map Prod.snd) bytes

section Calls

theorem exec_next_tlv_end {br : ByteReader} (ended : br.remaining = 0) : exec next_tlv br = (.ok none,br) := by
  rw [next_tlv,exec_get_bind,if_pos ended]
  rfl

theorem exec_next_tlv {br : ByteReader} (more : br.remaining ≠ 0) : exec next_tlv br = exec (do return some (← tlv_element)) br := by
  rw [next_tlv,exec_get_bind,if_neg more]

/-- An element has a tag of two bytes and a length of at least one, and ends with its value. -/
theorem tlv_parts {word : Bytes} {element : UInt16 × Bytes} (stands : ByteFormat.tlv word element) :
    ∃ gap, word = gap ++ element.2 ∧ 3 ≤ gap.length := by
  obtain ⟨tag,_,_,rfl,⟨two,_,_,rfl,⟨sized,_⟩,rfl,_⟩,length,_,len,rfl,groups,value,_,_,rfl,⟨_,rfl⟩,rfl,rfl⟩ := stands
  have some : 1 ≤ length.length := by cases groups <;> simp
  exact ⟨two ++ [] ++ length,by simp,by simp; omega⟩

theorem exec_next_tlv_element {br : ByteReader} (inside : cursor.Inside br) {word back : Bytes} {element : UInt16 × Bytes}
    (stands : ByteFormat.tlv word element) (here : cursor.rest br = word ++ back) :
    exec next_tlv br = (.ok (some element),cursor.skip word.length br) := by
  obtain ⟨gap,rfl,long⟩ := tlv_parts stands
  have total := remaining_of_rest here
  rw [List.length_append,List.length_append] at total
  have ran := (accepts_tlv_element br inside element _).mpr ⟨_,back,stands,here,rfl⟩
  rw [exec_next_tlv (by omega),exec_bind_ok _ _ _ _ _ ran]
  rfl

/-- What a stream of elements and nothing else yields. -/
theorem drain_times {n : Nat} {br : ByteReader} {values : List (UInt16 × Bytes)} (inside : cursor.Inside br)
    (stands : ByteFormat.tlv.times n (cursor.rest br) values) : drain (n+1) br = (values,some (.ok ())) := by
  induction n generalizing br values with
  | zero =>
    obtain ⟨empty,rfl⟩ := stands
    have ended : br.remaining = 0 := remaining_of_rest empty
    rw [drain,exec_next_tlv_end ended]
  | succ n ih =>
    obtain ⟨word,_,element,here,head,tail,_,others,rfl,rest,rfl,rfl⟩ := stands
    rw [List.append_nil] at here
    obtain ⟨within,there⟩ := cursor.inside_skip br word tail inside here
    rw [drain,exec_next_tlv_element inside head here]
    dsimp only
    rw [ih within (there.symm ▸ rest)]

theorem drain_tlvs (elements : List (UInt16 × ByteWriter)) (short : ∀ element ∈ elements, element.2.buf.length < 2^32) :
    drain (elements.length+1) {p := (ByteWriter.tlvs elements {}).buf} =
      (elements.map fun element => (element.1,element.2.buf),some (.ok ())) := by
  let content (element : UInt16 × ByteWriter) : UInt16 × Bytes := (element.1,element.2.buf)
  have wrote : Written (ByteWriter.tlvs elements) (ByteFormat.tlv.times (elements.map content).length) (elements.map content) := by
    have each := @written_times _ ByteFormat.tlv (fun bw element => ByteWriter.tlv element.1 {buf := element.2} bw)
      (elements.map content) (fun value member => by
        obtain ⟨element,here,rfl⟩ := List.mem_map.mp member
        exact ByteWriter.written_tlv element.1 {buf := element.2.buf} (short element here))
    simp only [List.foldl_map] at each
    exact each
  have stands := written_buf wrote
  rw [List.length_map] at stands
  have inside : cursor.Inside {p := (ByteWriter.tlvs elements {}).buf} := Nat.zero_le _
  exact drain_times inside stands

end Calls

section Ends

theorem meetsOverlong_iff (bytes : Bytes) :
    MeetsOverlong bytes ↔ OverlongLength bytes ∨ Behind ByteFormat.tlv (fun _ => MeetsOverlong) bytes := by
  constructor
  · rintro ⟨n,k,less,met⟩
    have within : BreaksWithin ByteFormat.tlv OverlongLength (k+1) bytes := ⟨k,Nat.lt_succ_self k,met⟩
    rcases (breaksWithin_succ k bytes).mp within with here | ⟨front,back,element,split,stands,later⟩
    · exact .inl here
    · exact .inr ⟨front,back,element,split,stands,k,later⟩
  · rintro (here | ⟨front,back,element,split,stands,n,later⟩)
    · exact ⟨1,(breaksWithin_succ 0 bytes).mpr (.inl here)⟩
    · exact ⟨n+1,(breaksWithin_succ n bytes).mpr (.inr ⟨front,back,element,split,stands,later⟩)⟩

/-- What is behind an element depends on the bytes alone. -/
theorem behind_element {br : ByteReader} (inside : cursor.Inside br) {word back : Bytes} {element : UInt16 × Bytes}
    (stands : ByteFormat.tlv word element) (here : cursor.rest br = word ++ back) (bad : Bytes → Prop) :
    Behind ByteFormat.tlv (fun _ => bad) (cursor.rest br) ↔ bad back := by
  constructor
  · rintro ⟨front,after,other,split,goes,holds⟩
    have same := (exec_next_tlv_element inside stands here).symm.trans (exec_next_tlv_element inside goes split)
    have there := (cursor.inside_skip br word back inside here).2
    rw [(Prod.mk.inj same).2,(cursor.inside_skip br front after inside split).2] at there
    exact there ▸ holds
  · exact fun holds => ⟨word,back,element,here,stands,holds⟩

theorem element_of_behind {br : ByteReader} (inside : cursor.Inside br) {bad : Bytes → Prop}
    (behind : Behind ByteFormat.tlv (fun _ => bad) (cursor.rest br)) : ∃ element next, exec next_tlv br = (.ok (some element),next) := by
  obtain ⟨front,back,element,here,stands,_⟩ := behind
  exact ⟨element,_,exec_next_tlv_element inside stands here⟩

theorem not_behind {br : ByteReader} (inside : cursor.Inside br)
    (none : ∀ element next, exec next_tlv br ≠ (.ok (some element),next)) (bad : Bytes → Prop) :
    ¬ Behind ByteFormat.tlv (fun _ => bad) (cursor.rest br) := fun behind => by
  obtain ⟨element,next,found⟩ := element_of_behind inside behind
  exact none element next found

/-- A call that raises a fault raises a `ByteError` unless it meets an overlong length. -/
theorem overlong_of_fault {br next : ByteReader} {fault : Fault} (fits : br.Addressable)
    (ran : exec next_tlv br = (.error fault,next)) :
    (∃ what, fault = .byteError what) ↔ ¬ MeetsOverlong (cursor.rest br) := by
  have breaks := breaks_next_tlv br fits
  have reported := settles_iff_reported tame_next_tlv fits.1
  rw [ran] at breaks reported
  have alone := not_behind fits.1 (fun element after found => by cases (Prod.mk.inj (ran.symm.trans found)).1) MeetsOverlong
  rw [meetsOverlong_iff,or_iff_left alone,← breaks,not_not,reported]
  constructor
  · rintro ⟨what,raised⟩ other same
    exact ⟨what,(Except.error.inj same).symm.trans raised⟩
  · exact fun each => each fault rfl

/-- Every call takes three bytes at least or is the last. -/
theorem drain_ends {calls : Nat} {br : ByteReader} (fits : br.Addressable) (enough : br.remaining < 3*calls) :
    ∃ elements outcome, drain calls br = (elements,some outcome) ∧ InOrder (elements.map Prod.snd) (cursor.rest br) ∧
      ((outcome = .ok () ∨ ∃ what, outcome = .error (.byteError what)) ↔ ¬ MeetsOverlong (cursor.rest br)) := by
  induction calls generalizing br with
  | zero => exact absurd enough (Nat.not_lt_zero _)
  | succ calls ih =>
    rcases ran : exec next_tlv br with ⟨fault | found,next⟩
    · refine ⟨[],.error fault,by rw [drain,ran],.done _,?_⟩
      rw [← overlong_of_fault fits ran]
      simp
    · have sound : ¬ OverlongLength (cursor.rest br) := fun overlong => by
        have breaks := breaks_next_tlv br fits
        rw [ran] at breaks
        exact breaks.mpr overlong trivial
      by_cases ended : br.remaining = 0
      · have alone := not_behind fits.1
          (fun element after found => by cases (Prod.mk.inj ((exec_next_tlv_end ended).symm.trans found)).1) MeetsOverlong
        refine ⟨[],.ok (),by rw [drain,exec_next_tlv_end ended],.done _,iff_of_true (.inl rfl) ?_⟩
        rw [meetsOverlong_iff,or_iff_left alone]
        exact sound
      · rw [exec_next_tlv ended] at ran
        obtain ⟨element,_,read,_⟩ := bind_returned _ _ _ _ _ ran
        obtain ⟨word,back,stands,here,rfl⟩ := (accepts_tlv_element br fits.1 element _).mp read
        obtain ⟨within,there⟩ := addressable_skip fits here
        obtain ⟨gap,rfl,long⟩ := tlv_parts stands
        have total := congrArg List.length here
        have left := remaining_of_rest there
        rw [← remaining_rest,List.length_append,List.length_append] at total
        obtain ⟨others,outcome,drained,ordered,ends⟩ := ih within (by omega)
        rw [there] at ordered ends
        have alike := behind_element fits.1 stands here MeetsOverlong
        refine ⟨element::others,outcome,?_,?_,?_⟩
        · rw [drain,exec_next_tlv_element fits.1 stands here]
          dsimp only
          rw [drained]
        · rw [here,List.append_assoc]
          exact .next gap element.2 ordered
        · rw [ends,meetsOverlong_iff (cursor.rest br),or_iff_right sound,alike]

/-- Streams come back, and on any bytes the calls end orderly unless they meet an element with an
overlong length. -/
theorem tlv_streams (elements : List (UInt16 × ByteWriter)) (short : ∀ element ∈ elements, element.2.buf.length < 2^32)
    (bytes : Bytes) (object : bytes.length < 2^63) :
    drain (elements.length+1) {p := (ByteWriter.tlvs elements {}).buf} =
        (elements.map fun element => (element.1,element.2.buf),some (.ok ())) ∧
      (EndsOrderly bytes ↔ ¬ MeetsOverlong bytes) := by
  refine ⟨drain_tlvs elements short,?_⟩
  have enough : ({p := bytes} : ByteReader).remaining < 3*(bytes.length/3+1) := by
    change bytes.length-0 < _
    omega
  have fits : ({p := bytes} : ByteReader).Addressable := ⟨Nat.zero_le _,object⟩
  obtain ⟨elements,outcome,drained,ordered,ends⟩ := drain_ends fits enough
  constructor
  · rintro ⟨_,_,same,settled,_⟩
    rw [drained] at same
    cases same
    exact ends.mp settled
  · exact fun clear => ⟨elements,outcome,drained,ends.mpr clear,ordered⟩

theorem tlv_streams_nested : let inner := ByteWriter.tlvs [(1,{buf := [2]})] {}
    drain 3 {p := (ByteWriter.tlvs [(7,inner),(8,{})] {}).buf} = ([(7,inner.buf),(8,[])],some (.ok ())) ∧
      EndsOrderly [0,7,1,9,5] := by
  obtain ⟨back,ends⟩ := tlv_streams [(7,ByteWriter.tlvs [(1,{buf := [2]})] {}),(8,{})] (by decide +kernel) [0,7,1,9,5] (by decide)
  refine ⟨back,ends.mpr ?_⟩
  rintro ⟨_,_,_,_,_,_,here,_,_,_,_,rfl,_,_,_,_,rfl,five,_⟩
  have total := congrArg List.length here
  simp only [List.length_cons,List.length_nil,List.length_append] at total
  omega

/-- A length of five groups that go on, and a sixth that is shifted by 35. -/
theorem overlong_stream : ¬ EndsOrderly [0,7,0x80,0x80,0x80,0x80,0x80,0] := by
  rintro ⟨_,_,drained,settled,_⟩
  cases drained
  rcases settled with ended | ⟨what,raised⟩
  · cases ended
  · cases raised

end Ends

end ByteReader

end AtlasNet
