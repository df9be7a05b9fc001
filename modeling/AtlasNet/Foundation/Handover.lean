import Mathlib.Algebra.Order.BigOperators.Group.Finset
import Mathlib.Data.Fintype.Basic
import Mathlib.Tactic.Common

/-! A token that parties hand over to each other at an agreed time. The one that hands it over
sends it at once and keeps on using it until its own clock shows that time; the one that gets
it uses it from when its own clock shows that time. Messages take as long as they take, and
the clocks of different parties need not agree. -/
namespace AtlasNet.Foundation.Handover

/-- A party has no token, is its only authority, or keeps one that it has sent on. -/
inductive Held (Name : Type)
  | absent
  | authoritative
  | passing (target : Name) (time : Nat)

/-- What a party keeps of a message until its time. -/
structure Arriving (Name : Type) where
  sender : Name
  time : Nat

structure Transit (Name : Type) extends Arriving Name where
  target : Name

/-- Where one token is. -/
@[ext] structure Custody (ι Name : Type) where
  held : ι → Held Name
  incoming : ι → Option (Arriving Name)
  clock : ι → Nat
  flying : List (Transit Name)

variable {ι Name : Type}

/-- What is left when the handovers that are due are completed. -/
def Held.settled (now : Nat) : Held Name → Held Name
  | passing target time => if time ≤ now then absent else passing target time
  | held => held

/-- What arrives when a party looks at what it was sent, or what it is granted. -/
inductive Arrives (now : Nat) : Bool → Held Name → Option (Arriving Name) → Held Name → Option (Arriving Name) → Prop
  | waits (held incoming) (early : ∀ t, incoming = some t → now < t.time) : Arrives now false held incoming held incoming
  | takes (t) (due : t.time ≤ now) : Arrives now false .absent (some t) .authoritative none
  | merges (held) (t) (due : t.time ≤ now) (has : held ≠ .absent) : Arrives now false held (some t) held none
  | granted : Arrives now true .absent none .authoritative none

/-- A party keeps what it has, or sends a token of its own to another party. -/
inductive Hands [BEq Name] (name : Name) (time : Nat) : Held Name → Held Name → List (Transit Name) → Prop
  | keeps (held) : Hands name time held held []
  | passes (target) (apart : (target == name) = false) :
      Hands name time .authoritative (.passing target time) [⟨⟨name,time⟩,target⟩]

variable [DecidableEq ι]

namespace Custody

def arrived (s : Custody ι Name) (i : ι) (now : Nat) (held : Held Name) (incoming : Option (Arriving Name)) : Custody ι Name where
  held := Function.update s.held i held
  incoming := Function.update s.incoming i incoming
  clock := Function.update s.clock i now
  flying := s.flying

def handed (s : Custody ι Name) (i : ι) (held : Held Name) (sent : List (Transit Name)) : Custody ι Name :=
  {s with held := Function.update s.held i held,flying := s.flying ++ sent}

def settled (s : Custody ι Name) (i : ι) : Custody ι Name :=
  {s with held := Function.update s.held i ((s.held i).settled (s.clock i))}

/-- Nobody has the token. -/
structure Vacant (s : Custody ι Name) : Prop where
  held : ∀ i, s.held i = .absent
  incoming : ∀ i, s.incoming i = none
  flying : s.flying = []

end Custody

section Tokens
variable [Fintype ι]

def Held.load : Held Name → Nat
  | authoritative => 1
  | _ => 0

theorem Arrives.load {now : Nat} {granted : Bool} {before held : Held Name} {pending incoming : Option (Arriving Name)}
    [Decidable (before ≠ .absent ∧ ∃ t, pending = some t ∧ t.time ≤ now)] (arrives : Arrives now granted before pending held incoming) :
    held.load+incoming.toList.length+(if before ≠ .absent ∧ ∃ t, pending = some t ∧ t.time ≤ now then 1 else 0) =
      before.load+pending.toList.length+granted.toNat := by
  cases arrives with
  | waits _ _ early =>
    refine congrArg _ (if_neg ?_)
    rintro ⟨_,t,same,due⟩
    exact absurd due (Nat.not_le_of_lt (early t same))
  | takes => exact congrArg _ (if_neg fun has => has.1 rfl)
  | merges _ t due has =>
    rw [if_pos ⟨has,t,rfl,due⟩]
    rfl
  | granted => exact congrArg _ (if_neg fun has => has.1 rfl)

namespace Custody

def load (s : Custody ι Name) (i : ι) : Nat := (s.held i).load+(s.incoming i).toList.length

/-- The number of tokens: those owned, those that wait for their time, and those in flight. -/
def tokens (s : Custody ι Name) : Nat := ∑ i, s.load i+s.flying.length

def others (s : Custody ι Name) (i : ι) : Nat := ∑ j ∈ Finset.univ.erase i, s.load j

theorem tokens_eq (s : Custody ι Name) (i : ι) : s.tokens = s.load i+s.others i+s.flying.length := by
  rw [tokens,others,Finset.add_sum_erase _ _ (Finset.mem_univ i)]

theorem others_congr {s s' : Custody ι Name} {i : ι} (held : ∀ j, j ≠ i → s'.held j = s.held j)
    (incoming : ∀ j, j ≠ i → s'.incoming j = s.incoming j) : s'.others i = s.others i := by
  apply Finset.sum_congr rfl
  intro j other
  have apart := Finset.ne_of_mem_erase other
  rw [load,load,held j apart,incoming j apart]

theorem load_others {s : Custody ι Name} {i j : ι} (apart : j ≠ i) : s.load j ≤ s.others i :=
  Finset.single_le_sum (fun _ _ => Nat.zero_le _) (Finset.mem_erase.mpr ⟨apart,Finset.mem_univ j⟩)

omit [DecidableEq ι] [Fintype ι] in
theorem load_eq_zero {s : Custody ι Name} {i : ι} : s.load i = 0 ↔ s.held i ≠ .authoritative ∧ s.incoming i = none := by
  unfold load Held.load
  cases s.held i <;> cases s.incoming i <;> simp

/-- One token that a party has, or that waits for its time there, is nowhere else. -/
theorem alone {s : Custody ι Name} (once : s.tokens ≤ 1) {i : ι} (here : 1 ≤ s.load i) :
    s.flying = [] ∧ ∀ j, j ≠ i → s.held j ≠ .authoritative ∧ s.incoming j = none := by
  have counted := s.tokens_eq i
  constructor
  · exact List.length_eq_zero_iff.mp (by omega)
  · intro j apart
    have least := load_others (s := s) apart
    exact load_eq_zero.mp (by omega)

/-- One token that is in flight is with nobody. -/
theorem flown {s : Custody ι Name} (once : s.tokens ≤ 1) (before after : List (Transit Name)) {t : Transit Name}
    (split : s.flying = before ++ t::after) : before = [] ∧ after = [] ∧ ∀ i, s.held i ≠ .authoritative ∧ s.incoming i = none := by
  have length : s.flying.length = before.length+after.length+1 := by simp [split,Nat.add_assoc]
  refine ⟨List.length_eq_zero_iff.mp ?_,List.length_eq_zero_iff.mp ?_,fun i => load_eq_zero.mp ?_⟩
  · rw [tokens] at once
    omega
  · rw [tokens] at once
    omega
  · have counted := s.tokens_eq i
    omega

/-- A party gets a token back that it has not given up yet. -/
abbrev Overtaken (s : Custody ι Name) (i : ι) (now : Nat) : Prop := s.held i ≠ .absent ∧ ∃ t, s.incoming i = some t ∧ t.time ≤ now

theorem tokens_arrived {s : Custody ι Name} {i : ι} {now : Nat} {granted : Bool} {held : Held Name} {incoming : Option (Arriving Name)}
    [Decidable (s.Overtaken i now)] (arrives : Arrives now granted (s.held i) (s.incoming i) held incoming) :
    (s.arrived i now held incoming).tokens+(if s.Overtaken i now then 1 else 0) = s.tokens+granted.toNat := by
  have same : (s.arrived i now held incoming).others i = s.others i :=
    others_congr (fun j apart => Function.update_of_ne apart _ _) fun j apart => Function.update_of_ne apart _ _
  have load : (s.arrived i now held incoming).load i+(if s.Overtaken i now then 1 else 0) = s.load i+granted.toNat := by
    simp only [load,arrived,Function.update_self]
    exact arrives.load
  have length : (s.arrived i now held incoming).flying.length = s.flying.length := rfl
  rw [tokens_eq _ i,tokens_eq s i,same,length]
  omega

omit [DecidableEq ι] in
theorem tokens_vacant {s : Custody ι Name} (vacant : s.Vacant) : s.tokens = 0 := by
  simp [tokens,load,vacant.held,vacant.incoming,vacant.flying,Held.load]

theorem tokens_handed [BEq Name] {s : Custody ι Name} {i : ι} {name : Name} {time : Nat} {held : Held Name} {sent : List (Transit Name)}
    (hands : Hands name time (s.held i) held sent) : (s.handed i held sent).tokens = s.tokens := by
  have same : (s.handed i held sent).others i = s.others i :=
    others_congr (fun j apart => Function.update_of_ne apart _ _) fun _ _ => rfl
  have load : (s.handed i held sent).load i+sent.length = s.load i := by
    simp only [load,handed,Function.update_self]
    generalize s.held i = before at hands ⊢
    cases hands with
    | keeps => rfl
    | passes => exact (congrArg (·+1) (Nat.zero_add _)).trans (Nat.add_comm _ _)
  have length : (s.handed i held sent).flying.length = s.flying.length+sent.length := List.length_append
  rw [tokens_eq _ i,tokens_eq s i,same,length]
  omega

theorem tokens_settled (s : Custody ι Name) (i : ι) : (s.settled i).tokens = s.tokens := by
  have same : (s.settled i).others i = s.others i := others_congr (fun j apart => Function.update_of_ne apart _ _) fun _ _ => rfl
  have load : (s.settled i).load i = s.load i := by
    simp only [load,settled,Function.update_self]
    congr 1
    cases s.held i <;> simp only [Held.settled]
    split <;> rfl
  rw [tokens_eq _ i,tokens_eq s i,same,load]
  rfl

end Custody

end Tokens

section Order
variable [BEq Name] [EquivBEq Name] {name : ι → Name} {delay : Nat} {s : Custody ι Name} {i : ι}

/-- Who still keeps the token is the one that sent it here, or was to give it up long ago. -/
def Follows (name : ι → Name) (delay : Nat) (s : Custody ι Name) (t : Arriving Name) : Prop :=
  ∀ j target time, s.held j = .passing target time → (name j == t.sender) = true ∧ time = t.time ∨ time+delay ≤ t.time

/-- The sender keeps the token until the time of the transit. -/
def Backed (name : ι → Name) (s : Custody ι Name) (t : Arriving Name) : Prop :=
  ∃ j, (name j == t.sender) = true ∧ ((∃ target, s.held j = .passing target t.time) ∨ t.time ≤ s.clock j)

structure Ordered (name : ι → Name) (delay : Nat) (s : Custody ι Name) : Prop where
  flying : ∀ t ∈ s.flying, Follows name delay s t.toArriving ∧ Backed name s t.toArriving ∧ (t.target == t.sender) = false
  incoming : ∀ i t, s.incoming i = some t → Follows name delay s t ∧ Backed name s t ∧ (name i == t.sender) = false
  authority : ∀ i, s.held i = .authoritative → ∀ j target time, s.held j = .passing target time → time ≤ s.clock i
  keepers : ∀ i j, i ≠ j → ∀ target time other due, s.held i = .passing target time → s.held j = .passing other due →
    due ≤ s.clock i ∨ time ≤ s.clock j

/-- What a party still keeps is not due yet. -/
def Waiting (s : Custody ι Name) : Prop := ∀ j target time, s.held j = .passing target time → s.clock j < time

structure Timely (delay : Nat) (s : Custody ι Name) (i : ι) (now : Nat) : Prop where
  later : s.clock i ≤ now
  often : ∀ target time, s.held i = .passing target time → now ≤ s.clock i+delay

variable [Fintype ι]

omit [EquivBEq Name] in
/-- No token comes back before its last handover is completed. -/
theorem clear_of_timely (once : s.tokens ≤ 1) (ordered : Ordered name delay s) (waiting : Waiting s) {now : Nat}
    (timely : Timely delay s i now) (t : Arriving Name) (arriving : s.incoming i = some t) (due : t.time ≤ now) : s.held i = .absent := by
  cases here : s.held i with
  | absent => rfl
  | authoritative =>
    have counted := s.tokens_eq i
    simp only [Custody.load,here,arriving,Held.load,Option.toList_some,List.length_singleton] at counted
    omega
  | passing target time =>
    obtain ⟨follows,_,apart⟩ := ordered.incoming i t arriving
    have early := waiting i target time here
    have soon := timely.often target time here
    rcases follows i target time here with ⟨mine,_⟩ | before
    · rw [apart] at mine
      cases mine
    · omega

omit [EquivBEq Name] [Fintype ι] in
theorem arrived_waits {now : Nat} (later : s.clock i ≤ now) (ordered : Ordered name delay s) :
    Ordered name delay (s.arrived i now (s.held i) (s.incoming i)) := by
  have held : (s.arrived i now (s.held i) (s.incoming i)).held = s.held := Function.update_eq_self _ _
  have incoming : (s.arrived i now (s.held i) (s.incoming i)).incoming = s.incoming := Function.update_eq_self _ _
  have clock : ∀ j, s.clock j ≤ (s.arrived i now (s.held i) (s.incoming i)).clock j := by
    intro j
    by_cases same : j = i
    · subst same
      simpa [Custody.arrived] using later
    · simp [Custody.arrived,same]
  have backed : ∀ t, Backed name s t → Backed name (s.arrived i now (s.held i) (s.incoming i)) t := by
    rintro t ⟨j,mine,kept⟩
    exact ⟨j,mine,kept.imp (fun kept => by rwa [held]) fun past => past.trans (clock j)⟩
  constructor
  · intro t inside
    obtain ⟨follows,kept,apart⟩ := ordered.flying t inside
    exact ⟨by rwa [Follows,held],backed _ kept,apart⟩
  · intro k t arriving
    rw [incoming] at arriving
    obtain ⟨follows,kept,apart⟩ := ordered.incoming k t arriving
    exact ⟨by rwa [Follows,held],backed _ kept,apart⟩
  · intro k mine j target time passing
    rw [held] at mine passing
    exact (ordered.authority k mine j target time passing).trans (clock k)
  · intro k j apart target time other due first second
    rw [held] at first second
    exact (ordered.keepers k j apart target time other due first second).imp (fun past => past.trans (clock k))
      fun past => past.trans (clock j)

omit [EquivBEq Name] in
/-- A token that a party gets has been given up by all others, or will be before its time. -/
theorem arrived_owned {now : Nat} (once : (s.arrived i now .authoritative none).tokens ≤ 1) (ordered : Ordered name delay s)
    (past : ∀ j target time, j ≠ i → s.held j = .passing target time → time ≤ now) :
    Ordered name delay (s.arrived i now .authoritative none) := by
  have here : 1 ≤ (s.arrived i now .authoritative none).load i := by
    simp [Custody.load,Custody.arrived,Held.load]
  obtain ⟨flying,others⟩ := Custody.alone once here
  constructor
  · intro t inside
    rw [flying] at inside
    cases inside
  · intro k t arriving
    by_cases same : k = i
    · subst same
      simp [Custody.arrived] at arriving
    · rw [(others k same).2] at arriving
      cases arriving
  · intro k mine j target time passing
    by_cases same : k = i
    · subst same
      have apart : j ≠ k := by
        rintro rfl
        rw [mine] at passing
        cases passing
      have before : s.held j = .passing target time := by simpa [Custody.arrived,apart] using passing
      simpa [Custody.arrived] using past j target time apart before
    · exact absurd mine (others k same).1
  · intro k j apart target time other due first second
    have elsewhere : ∀ l at' when', (s.arrived i now .authoritative none).held l = .passing at' when' → l ≠ i := by
      rintro l at' when' passing rfl
      simp [Custody.arrived] at passing
    have notFirst := elsewhere k _ _ first
    have notSecond := elsewhere j _ _ second
    simp only [Custody.arrived,Function.update_of_ne notFirst,Function.update_of_ne notSecond] at first second ⊢
    exact ordered.keepers k j apart target time other due first second

omit [EquivBEq Name] in
theorem arrived_ordered (once : s.tokens ≤ 1) (ordered : Ordered name delay s) (waiting : Waiting s) {now : Nat}
    (timely : Timely delay s i now) {granted : Bool} (first : granted = true → s.Vacant) {held : Held Name}
    {incoming : Option (Arriving Name)} (arrives : Arrives now granted (s.held i) (s.incoming i) held incoming) :
    (s.arrived i now held incoming).tokens = s.tokens+granted.toNat ∧ (s.arrived i now held incoming).tokens ≤ 1 ∧
      Ordered name delay (s.arrived i now held incoming) := by
  have clear := clear_of_timely once ordered waiting timely
  have kept : ¬ s.Overtaken i now := fun ⟨has,t,arriving,due⟩ => has (clear t arriving due)
  have counted : (s.arrived i now held incoming).tokens = s.tokens+granted.toNat := by
    classical
    have counted := Custody.tokens_arrived arrives
    rwa [if_neg kept,Nat.add_zero] at counted
  have still : (s.arrived i now held incoming).tokens ≤ 1 := by
    cases granted with
    | false => simpa [counted] using once
    | true =>
      rw [counted,Custody.tokens_vacant (first rfl)]
      rfl
  refine ⟨counted,still,?_⟩
  generalize before : s.held i = was at arrives clear
  generalize pending : s.incoming i = t at arrives clear
  cases arrives with
  | waits => exact before ▸ pending ▸ arrived_waits timely.later ordered
  | takes t due =>
    apply arrived_owned still ordered
    intro j target time apart passing
    obtain ⟨follows,_,_⟩ := ordered.incoming i t pending
    rcases follows j target time passing with ⟨_,same⟩ | earlier
    · omega
    · omega
  | merges _ t due has => exact absurd (clear t rfl due) has
  | granted =>
    apply arrived_owned still ordered
    intro j target time apart passing
    rw [(first rfl).held j] at passing
    cases passing

theorem handed_ordered (once : s.tokens ≤ 1) (ordered : Ordered name delay s) {held : Held Name} {sent : List (Transit Name)}
    (hands : Hands (name i) (s.clock i+delay) (s.held i) held sent) : Ordered name delay (s.handed i held sent) := by
  have still := (Custody.tokens_handed hands).trans_le once
  generalize before : s.held i = was at hands
  cases hands with
  | keeps =>
    have same : s.handed i (s.held i) [] = s := by simp [Custody.handed]
    rwa [← before,same]
  | passes target apart =>
    obtain ⟨none,_,others⟩ := Custody.flown still s.flying [] rfl
    constructor
    · intro t inside
      obtain rfl : t = ⟨⟨name i,s.clock i+delay⟩,target⟩ := by simpa [Custody.handed,none] using inside
      refine ⟨?_,⟨i,BEq.rfl,.inl ⟨target,by simp [Custody.handed]⟩⟩,apart⟩
      intro j other time passing
      by_cases same : j = i
      · subst same
        simp only [Custody.handed,Function.update_self,Held.passing.injEq] at passing
        exact .inl ⟨BEq.rfl,passing.2.symm⟩
      · have kept : s.held j = .passing other time := by simpa [Custody.handed,same] using passing
        have past := ordered.authority i before j other time kept
        exact .inr (Nat.add_le_add_right past delay)
    · intro k t arriving
      rw [(others k).2] at arriving
      cases arriving
    · intro k mine
      exact absurd mine (others k).1
    · intro k j differ target time other due first second
      by_cases mine : k = i
      · subst mine
        have kept : s.held j = .passing other due := by simpa [Custody.handed,Ne.symm differ] using second
        exact .inl (ordered.authority k before j other due kept)
      by_cases mine' : j = i
      · subst mine'
        have kept : s.held k = .passing target time := by simpa [Custody.handed,differ] using first
        exact .inr (ordered.authority j before k target time kept)
      · simp only [Custody.handed,Function.update_of_ne mine,Function.update_of_ne mine'] at first second
        exact ordered.keepers k j differ target time other due first second

omit [BEq Name] [EquivBEq Name] [Fintype ι] in
theorem settled_passing {j : ι} {target : Name} {time : Nat} : (s.settled i).held j = .passing target time ↔
    s.held j = .passing target time ∧ (j = i → s.clock i < time) := by
  by_cases same : j = i
  · subst same
    simp only [Custody.settled,Function.update_self,true_implies]
    cases s.held j with
    | passing other due =>
      simp only [Held.settled]
      split
      · simp only [reduceCtorEq,Held.passing.injEq,false_iff,not_and,not_lt]
        omega
      · simp only [Held.passing.injEq,iff_self_and,and_imp]
        omega
    | absent => simp [Held.settled]
    | authoritative => simp [Held.settled]
  · simp [Custody.settled,same]

omit [BEq Name] [EquivBEq Name] [Fintype ι] in
theorem settled_authoritative {j : ι} : (s.settled i).held j = .authoritative ↔ s.held j = .authoritative := by
  by_cases same : j = i
  · subst same
    simp only [Custody.settled,Function.update_self]
    cases s.held j <;> simp only [Held.settled]
    split <;> simp
  · simp [Custody.settled,same]

omit [EquivBEq Name] [Fintype ι] in
theorem settled_ordered (ordered : Ordered name delay s) : Ordered name delay (s.settled i) := by
  have follows : ∀ t, Follows name delay s t → Follows name delay (s.settled i) t := fun t follows j target time passing =>
    follows j target time (settled_passing.mp passing).1
  have backed : ∀ t, Backed name s t → Backed name (s.settled i) t := by
    rintro t ⟨j,mine,⟨target,kept⟩ | past⟩
    · refine ⟨j,mine,?_⟩
      by_cases due : j = i → s.clock i < t.time
      · exact .inl ⟨target,settled_passing.mpr ⟨kept,due⟩⟩
      · obtain ⟨rfl,past⟩ := Classical.not_imp.mp due
        exact .inr (Nat.le_of_not_lt past)
    · exact ⟨j,mine,.inr past⟩
  constructor
  · intro t inside
    obtain ⟨before,kept,apart⟩ := ordered.flying t inside
    exact ⟨follows _ before,backed _ kept,apart⟩
  · intro k t arriving
    obtain ⟨before,kept,apart⟩ := ordered.incoming k t arriving
    exact ⟨follows _ before,backed _ kept,apart⟩
  · intro k mine j target time passing
    exact ordered.authority k (settled_authoritative.mp mine) j target time (settled_passing.mp passing).1
  · intro k j apart target time other due first second
    exact ordered.keepers k j apart target time other due (settled_passing.mp first).1 (settled_passing.mp second).1

omit [EquivBEq Name] in
/-- A turn loses a token exactly when it overtakes the one that the party still keeps. -/
theorem turn_tokens {now time : Nat} [Decidable (s.Overtaken i now)] {granted : Bool} {held handed : Held Name}
    {incoming : Option (Arriving Name)} {sent : List (Transit Name)}
    (arrives : Arrives now granted (s.held i) (s.incoming i) held incoming) (hands : Hands (name i) time held handed sent) :
    (((s.arrived i now held incoming).handed i handed sent).settled i).tokens+(if s.Overtaken i now then 1 else 0) =
      s.tokens+granted.toNat := by
  have mine : (s.arrived i now held incoming).held i = held := Function.update_self _ _ _
  rw [Custody.tokens_settled,Custody.tokens_handed (mine.symm ▸ hands)]
  exact Custody.tokens_arrived arrives

omit [EquivBEq Name] in
/-- A turn makes no second token, whatever the clocks show. -/
theorem turn_once (once : s.tokens ≤ 1) {now time : Nat} {granted : Bool} (first : granted = true → s.Vacant)
    {held handed : Held Name} {incoming : Option (Arriving Name)} {sent : List (Transit Name)}
    (arrives : Arrives now granted (s.held i) (s.incoming i) held incoming) (hands : Hands (name i) time held handed sent) :
    (((s.arrived i now held incoming).handed i handed sent).settled i).tokens ≤ 1 := by
  classical
  have counted := turn_tokens arrives hands
  cases granted with
  | false =>
    have same : s.tokens+false.toNat = s.tokens := rfl
    omega
  | true =>
    have none := Custody.tokens_vacant (first rfl)
    have one : true.toNat = 1 := rfl
    omega

/-- What holds of a token before and after every step. -/
structure Safe (name : ι → Name) (delay : Nat) (s : Custody ι Name) : Prop where
  once : s.tokens ≤ 1
  ordered : Ordered name delay s
  waiting : Waiting s

/-- A party keeps the token until a time that the clock of another one shows already. -/
def Custody.Outlives (s : Custody ι Name) (j i : ι) : Prop :=
  ∃ target time, s.held j = .passing target time ∧ s.clock j < time ∧ time ≤ s.clock i

omit [EquivBEq Name] in
/-- Of two parties that have the token, one was to use it only from when the other one gives it up. -/
theorem Safe.outlives (safe : Safe name delay s) {i j : ι} (apart : i ≠ j) (first : s.held i ≠ .absent) (second : s.held j ≠ .absent) :
    s.Outlives j i ∨ s.held i ≠ .authoritative ∧ s.Outlives i j := by
  have waits := safe.waiting
  cases mine : s.held i with
  | absent => exact absurd mine first
  | authoritative =>
    cases theirs : s.held j with
    | absent => exact absurd theirs second
    | authoritative =>
      have here : 1 ≤ s.load i := by simp [Custody.load,mine,Held.load]
      exact absurd theirs ((Custody.alone safe.once here).2 j (Ne.symm apart)).1
    | passing target time =>
      exact .inl ⟨target,time,theirs,waits j target time theirs,safe.ordered.authority i mine j target time theirs⟩
  | passing target time =>
    have unowned : Held.passing target time ≠ .authoritative := by simp
    cases theirs : s.held j with
    | absent => exact absurd theirs second
    | authoritative =>
      exact .inr ⟨unowned,target,time,mine,waits i target time mine,safe.ordered.authority j theirs i target time mine⟩
    | passing other due =>
      rcases safe.ordered.keepers i j apart target time other due mine theirs with past | past
      · exact .inl ⟨other,due,theirs,waits j other due theirs,past⟩
      · exact .inr ⟨unowned,target,time,mine,waits i target time mine,past⟩

omit [EquivBEq Name] [DecidableEq ι] in
theorem vacant_safe (vacant : s.Vacant) : Safe name delay s := by
  refine ⟨(Custody.tokens_vacant vacant).trans_le (Nat.zero_le _),⟨?_,?_,?_,?_⟩,?_⟩
  · intro t inside
    rw [vacant.flying] at inside
    cases inside
  · intro k t arriving
    rw [vacant.incoming k] at arriving
    cases arriving
  · intro k mine
    rw [vacant.held k] at mine
    cases mine
  · intro k j apart target time other due first
    rw [vacant.held k] at first
    cases first
  · intro j target time passing
    rw [vacant.held j] at passing
    cases passing

theorem turn_safe (safe : Safe name delay s) {now : Nat} (timely : Timely delay s i now) {granted : Bool}
    (first : granted = true → s.Vacant) {held handed : Held Name} {incoming : Option (Arriving Name)} {sent : List (Transit Name)}
    (arrives : Arrives now granted (s.held i) (s.incoming i) held incoming) (hands : Hands (name i) (now+delay) held handed sent) :
    Safe name delay (((s.arrived i now held incoming).handed i handed sent).settled i) ∧
      (((s.arrived i now held incoming).handed i handed sent).settled i).tokens = s.tokens+granted.toNat := by
  obtain ⟨counted,once,ordered⟩ := arrived_ordered safe.once safe.ordered safe.waiting timely first arrives
  have clock : (s.arrived i now held incoming).clock i = now := Function.update_self _ _ _
  have mine : (s.arrived i now held incoming).held i = held := Function.update_self _ _ _
  have hands : Hands (name i) ((s.arrived i now held incoming).clock i+delay) ((s.arrived i now held incoming).held i) handed sent := by
    rwa [clock,mine]
  have passed := handed_ordered once ordered hands
  have total := (Custody.tokens_settled _ i).trans ((Custody.tokens_handed hands).trans counted)
  refine ⟨⟨total ▸ counted ▸ once,settled_ordered passed,?_⟩,total⟩
  intro j target time passing
  obtain ⟨kept,early⟩ := settled_passing.mp passing
  by_cases same : j = i
  · subst same
    exact early rfl
  · have before : s.held j = .passing target time := by simpa [Custody.handed,Custody.arrived,same] using kept
    have still := safe.waiting j target time before
    simpa [Custody.settled,Custody.handed,Custody.arrived,same] using still

omit [BEq Name] [EquivBEq Name] in
theorem tokens_delivered {before after : List (Transit Name)} {t : Transit Name} (split : s.flying = before ++ t::after)
    (awaits : s.incoming i = none) :
    ({s with incoming := Function.update s.incoming i (some t.toArriving),flying := before ++ after} : Custody ι Name).tokens =
      s.tokens := by
  have same : ({s with incoming := Function.update s.incoming i (some t.toArriving),flying := before ++ after} :
      Custody ι Name).others i = s.others i :=
    Custody.others_congr (fun _ _ => rfl) fun j other => Function.update_of_ne other _ _
  rw [Custody.tokens_eq _ i,Custody.tokens_eq s i,same,split]
  simp [Custody.load,awaits]
  omega

theorem deliver_safe (safe : Safe name delay s) {before after : List (Transit Name)} {t : Transit Name}
    (split : s.flying = before ++ t::after) (here : (name i == t.target) = true) :
    Safe name delay {s with incoming := Function.update s.incoming i (some t.toArriving),flying := before ++ after} := by
  obtain ⟨rfl,rfl,others⟩ := Custody.flown safe.once _ _ split
  obtain ⟨follows,backed,apart⟩ := safe.ordered.flying t (by simp [split])
  refine ⟨(tokens_delivered split (others i).2).trans_le safe.once,⟨?_,?_,safe.ordered.authority,safe.ordered.keepers⟩,safe.waiting⟩
  · intro t inside
    cases inside
  · intro k u arriving
    by_cases same : k = i
    · subst same
      obtain rfl : t.toArriving = u := by simpa using arriving
      exact ⟨follows,backed,(BEq.congr_left here).trans apart⟩
    · exact safe.ordered.incoming k u (by simpa [same] using arriving)

end Order

end AtlasNet.Foundation.Handover
