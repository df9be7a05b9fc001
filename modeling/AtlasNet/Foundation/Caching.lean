import AtlasNet.Foundation.System
import Mathlib.Data.List.Pairwise
import Mathlib.Logic.Function.Basic

/-! Reads of a source that changes, through a cache that is used for a time. A read asks, is
answered with what the source shows at that moment, and hands the answer on later. -/
namespace AtlasNet.Foundation.Caching
variable {ι σ ν Change : Type}

inductive Read (ν : Type)
  | idle
  | asked (since : Int)
  | answered (since : Int) (reply : Option ν)
  | returned (time : Int) (value : ν)

/-- The answers are the sources that were looked at, and when. -/
structure Reading (ι σ ν : Type) where
  source : σ
  clock : Int := 0
  cache : Option ν := none
  cachedAt : Int := 0
  reads : ι → Read ν := fun _ => .idle
  answers : List (Int × σ) := []

inductive Event (ι Change : Type)
  | change (what : Change)
  | pass (time : Nat)
  | ask (i : ι)
  | answer (i : ι)
  | finish (i : ι)
  | fail (i : ι)
  | miss (i : ι)

/-- A source may show nothing, or a read may miss it; then what is cached is returned, however old. -/
structure Cache (σ ν Change : Type) where
  look : σ → Option ν
  lifetime : Int
  default : ν
  change : Change → σ → σ

namespace Cache
variable [DecidableEq ι]

def asking (cache : Cache σ ν Change) (s : Reading ι σ ν) : Read ν :=
  match s.cache with
  | some value => if s.clock-s.cachedAt < cache.lifetime then .returned s.clock value else .asked s.clock
  | none => .asked s.clock

def next (cache : Cache σ ν Change) : Event ι Change → Reading ι σ ν → Option (Reading ι σ ν)
  | .change what,s => some {s with source := cache.change what s.source}
  | .pass time,s => some {s with clock := s.clock+time}
  | .ask i,s => match s.reads i with
    | .idle | .returned _ _ => some {s with reads := Function.update s.reads i (cache.asking s)}
    | _ => none
  | .answer i,s => match s.reads i with
    | .asked since => some {s with
        reads := Function.update s.reads i (.answered since (cache.look s.source))
        answers := s.answers ++ [(s.clock,s.source)]}
    | _ => none
  | .finish i,s => match s.reads i with
    | .answered _ (some value) => some {s with
        cache := some value
        cachedAt := s.clock
        reads := Function.update s.reads i (.returned s.clock value)}
    | .answered _ none => some {s with reads := Function.update s.reads i (.returned s.clock (s.cache.getD cache.default))}
    | _ => none
  | .fail i,s => match s.reads i with
    | .asked _ | .answered _ _ => some {s with reads := Function.update s.reads i .idle}
    | _ => none
  | .miss i,s => match s.reads i with
    | .asked _ => some {s with reads := Function.update s.reads i (.returned s.clock (s.cache.getD cache.default))}
    | _ => none

end Cache

/-- The reads that finish have taken no longer than the limit, and none misses the source. -/
def Timely (limit : Int) (s : Reading ι σ ν) : Event ι Change → Prop
  | .finish i => ∀ since reply, s.reads i = .answered since reply → s.clock-since ≤ limit
  | .miss _ => False
  | _ => True

section Recency
variable {cache : Cache σ ν Change} {limit : Int} {later : σ → σ → Prop} {s : Reading ι σ ν}

/-- A value was shown by a source that had answered by then, and not too long before. -/
def Recent (cache : Cache σ ν Change) (s : Reading ι σ ν) (age time : Int) (value : ν) : Prop :=
  ∃ answer ∈ s.answers, answer.1 ≤ time ∧ time < answer.1+age ∧
    (cache.look answer.2 = some value ∨ cache.look answer.2 = none ∧ value = cache.default)

structure Sound (cache : Cache σ ν Change) (limit : Int) (later : σ → σ → Prop) (s : Reading ι σ ν) : Prop where
  source : later s.source s.source
  answers : ∀ answer ∈ s.answers, answer.1 ≤ s.clock ∧ later answer.2 s.source
  ordered : s.answers.Pairwise fun first second => first.1 ≤ second.1 ∧ later first.2 second.2
  asked : ∀ i since, s.reads i = .asked since → since ≤ s.clock
  answered : ∀ i since reply, s.reads i = .answered since reply →
    ∃ answer ∈ s.answers, since ≤ answer.1 ∧ cache.look answer.2 = reply
  cached : ∀ value, s.cache = some value → s.cachedAt ≤ s.clock ∧
    ∃ answer ∈ s.answers, cache.look answer.2 = some value ∧ answer.1 ≤ s.cachedAt ∧ s.cachedAt ≤ answer.1+limit
  returned : ∀ i time value, s.reads i = .returned time value → Recent cache s (cache.lifetime+limit) time value

theorem Recent.more {after : Reading ι σ ν} {age time : Int} {value : ν} (recent : Recent cache s age time value)
    (answers : ∀ answer ∈ s.answers, answer ∈ after.answers) : Recent cache after age time value := by
  obtain ⟨answer,member,shown⟩ := recent
  exact ⟨answer,answers answer member,shown⟩

theorem Sound.initial {source : σ} {clock : Int} (same : later source source) :
    Sound cache limit later ({source,clock} : Reading ι σ ν) where
  source := same
  answers _ member := absurd member List.not_mem_nil
  ordered := .nil
  asked _ _ reading := by cases reading
  answered _ _ _ reading := by cases reading
  cached _ found := by cases found
  returned _ _ _ reading := by cases reading

theorem Sound.changes (sound : Sound cache limit later s) {source : σ} (same : later source source)
    (grows : ∀ before, later before s.source → later before source) : Sound cache limit later {s with source} where
  source := same
  answers answer member := ⟨(sound.answers answer member).1,grows _ (sound.answers answer member).2⟩
  ordered := sound.ordered
  asked := sound.asked
  answered := sound.answered
  cached := sound.cached
  returned := sound.returned

theorem Sound.passes (sound : Sound cache limit later s) (time : Nat) : Sound cache limit later {s with clock := s.clock+time} where
  source := sound.source
  answers answer member := ⟨by have := (sound.answers answer member).1; dsimp only; omega,(sound.answers answer member).2⟩
  ordered := sound.ordered
  asked i since reading := by have := sound.asked i since reading; dsimp only; omega
  answered := sound.answered
  cached value found := ⟨by have := (sound.cached value found).1; dsimp only; omega,(sound.cached value found).2⟩
  returned := sound.returned

/-- The source answers. -/
theorem Sound.answering (sound : Sound cache limit later s) :
    Sound cache limit later {s with answers := s.answers ++ [(s.clock,s.source)]} where
  source := sound.source
  answers answer member := by
    rcases List.mem_append.mp member with before | here
    · exact sound.answers answer before
    · rw [List.mem_singleton.mp here]
      exact ⟨Int.le_refl _,sound.source⟩
  ordered := by
    refine List.pairwise_append.mpr ⟨sound.ordered,List.pairwise_singleton _ _,fun first before second here => ?_⟩
    rw [List.mem_singleton.mp here]
    exact sound.answers first before
  asked := sound.asked
  answered j since reply reading := by
    obtain ⟨answer,member,shown⟩ := sound.answered j since reply reading
    exact ⟨answer,List.mem_append_left _ member,shown⟩
  cached value found := by
    obtain ⟨earlier,answer,member,shown⟩ := sound.cached value found
    exact ⟨earlier,answer,List.mem_append_left _ member,shown⟩
  returned j time value reading := (sound.returned j time value reading).more fun _ => List.mem_append_left _

/-- A value is cached. -/
theorem Sound.caches (sound : Sound cache limit later s) {value : ν}
    (shown : ∃ answer ∈ s.answers, cache.look answer.2 = some value ∧ s.clock ≤ answer.1+limit) :
    Sound cache limit later {s with cache := some value,cachedAt := s.clock} where
  source := sound.source
  answers := sound.answers
  ordered := sound.ordered
  asked := sound.asked
  answered := sound.answered
  returned := sound.returned
  cached other found := by
    obtain rfl := Option.some.inj found
    obtain ⟨answer,member,look,close⟩ := shown
    exact ⟨Int.le_refl _,answer,member,look,(sound.answers answer member).1,close⟩

theorem Sound.either (sound : Sound cache limit later s) {first second : Int × σ} (here : first ∈ s.answers) (there : second ∈ s.answers) :
    first = second ∨ (first.1 ≤ second.1 ∧ later first.2 second.2) ∨ (second.1 ≤ first.1 ∧ later second.2 first.2) := by
  have symmetric : Std.Symm fun a b : Int × σ => (a.1 ≤ b.1 ∧ later a.2 b.2) ∨ (b.1 ≤ a.1 ∧ later b.2 a.2) := ⟨fun _ _ => Or.symm⟩
  have ordered : s.answers.Pairwise fun a b => (a.1 ≤ b.1 ∧ later a.2 b.2) ∨ (b.1 ≤ a.1 ∧ later b.2 a.2) := sound.ordered.imp .inl
  exact or_iff_not_imp_left.mpr fun apart => ordered.forall here there apart

/-- What a read returns that finishes in time: its own answer, or what is cached or nothing where
the source showed nothing. The cached value was shown later then. -/
theorem Sound.finishes (sound : Sound cache limit later s) (lives : 0 < cache.lifetime)
    (lasting : ∀ before after, later before after → cache.look before ≠ none → cache.look after ≠ none)
    {i : ι} {since : Int} {reply : Option ν} (reading : s.reads i = .answered since reply) (close : s.clock-since ≤ limit) :
    Recent cache s (cache.lifetime+limit) s.clock (reply.getD (s.cache.getD cache.default)) := by
  obtain ⟨answer,member,after,shown⟩ := sound.answered i since reply reading
  have now := (sound.answers answer member).1
  cases reply with
  | some value => exact ⟨answer,member,now,by omega,.inl shown⟩
  | none =>
    cases found : s.cache with
    | none => exact ⟨answer,member,now,by omega,.inr ⟨shown,rfl⟩⟩
    | some value =>
      obtain ⟨earlier,other,inside,look,_,_⟩ := sound.cached value found
      have second : answer.1 ≤ other.1 := by
        rcases sound.either member inside with rfl | ⟨before,_⟩ | ⟨_,before⟩
        · exact Int.le_refl _
        · exact before
        · exact absurd shown (lasting _ _ before (by simp [look]))
      exact ⟨other,inside,(sound.answers other inside).1,by omega,.inl look⟩

variable [DecidableEq ι] {i : ι}

/-- One read goes on. -/
theorem Sound.reads (sound : Sound cache limit later s) {read : Read ν} (asked : ∀ since, read = .asked since → since ≤ s.clock)
    (answered : ∀ since reply, read = .answered since reply → ∃ answer ∈ s.answers, since ≤ answer.1 ∧ cache.look answer.2 = reply)
    (returned : ∀ time value, read = .returned time value → Recent cache s (cache.lifetime+limit) time value) :
    Sound cache limit later {s with reads := Function.update s.reads i read} := by
  have either (j : ι) : Function.update s.reads i read j = read ∨ Function.update s.reads i read j = s.reads j := by
    by_cases mine : j = i
    · exact .inl (by rw [mine,Function.update_self])
    · exact .inr (Function.update_of_ne mine _ _)
  constructor
  · exact sound.source
  · exact sound.answers
  · exact sound.ordered
  · intro j since reading
    rcases either j with same | same
    · exact asked since (same.symm.trans reading)
    · exact sound.asked j since (same.symm.trans reading)
  · intro j since reply reading
    rcases either j with same | same
    · exact answered since reply (same.symm.trans reading)
    · exact sound.answered j since reply (same.symm.trans reading)
  · exact sound.cached
  · intro j time value reading
    rcases either j with same | same
    · exact returned time value (same.symm.trans reading)
    · exact sound.returned j time value (same.symm.trans reading)

omit [DecidableEq ι] in
theorem asking_cases (cache : Cache σ ν Change) (s : Reading ι σ ν) : cache.asking s = .asked s.clock ∨
    ∃ value, s.cache = some value ∧ s.clock-s.cachedAt < cache.lifetime ∧ cache.asking s = .returned s.clock value := by
  rw [Cache.asking]
  cases kept : s.cache with
  | none => exact .inl rfl
  | some value =>
    dsimp only
    split
    · rename_i young
      exact .inr ⟨value,rfl,young,rfl⟩
    · exact .inl rfl

theorem Sound.asks (sound : Sound cache limit later s) (i : ι) :
    Sound cache limit later {s with reads := Function.update s.reads i (cache.asking s)} := by
  rcases asking_cases cache s with asked | ⟨value,kept,young,returned⟩
  · rw [asked]
    refine sound.reads (fun since same => ?_) (fun _ _ same => by cases same) fun _ _ same => by cases same
    exact (Read.asked.inj same) ▸ Int.le_refl _
  · rw [returned]
    refine sound.reads (fun _ same => by cases same) (fun _ _ same => by cases same) fun time other same => ?_
    obtain ⟨rfl,rfl⟩ := Read.returned.inj same
    obtain ⟨earlier,answer,member,look,_,close⟩ := sound.cached value kept
    exact ⟨answer,member,(sound.answers answer member).1,by omega,.inl look⟩

theorem Sound.answers_read (sound : Sound cache limit later s) {since : Int} (reading : s.reads i = .asked since) :
    Sound cache limit later {s with
      reads := Function.update s.reads i (.answered since (cache.look s.source)),answers := s.answers ++ [(s.clock,s.source)]} := by
  refine sound.answering.reads (fun _ same => by cases same) (fun other reply same => ?_) fun _ _ same => by cases same
  obtain ⟨rfl,rfl⟩ := Read.answered.inj same
  exact ⟨_,List.mem_append_right _ List.mem_cons_self,sound.asked i since reading,rfl⟩

/-- What a read has returned was shown by the source no longer ago than the cache keeps it and
a read takes. -/
theorem reads_recent {allowed : Reading ι σ ν → Event ι Change → Prop} {source : σ} {clock : Int} (lives : 0 < cache.lifetime)
    (lasting : ∀ before after, later before after → cache.look before ≠ none → cache.look after ≠ none)
    (first : later source source)
    (grows : ∀ s what, allowed s (.change what) → later s.source s.source → later (cache.change what s.source) (cache.change what s.source) ∧
      ∀ before, later before s.source → later before (cache.change what s.source))
    (timely : ∀ s event, allowed s event → Timely limit s event)
    (reached : (System.stepping {source,clock} cache.next).ReachableWhile allowed s) : Sound cache limit later s := by
  refine System.stepping_invariant (Sound cache limit later) (.initial first) ?_ reached
  rintro s (what | time | i | i | i | i | i) after sound meets taken
  · obtain rfl := Option.some.inj taken
    obtain ⟨same,later⟩ := grows s what meets sound.source
    exact sound.changes same later
  · obtain rfl := Option.some.inj taken
    exact sound.passes time
  · cases reading : s.reads i with
    | idle | returned time value =>
      simp only [Cache.next,reading,Option.some.injEq] at taken
      exact taken ▸ sound.asks i
    | asked since | answered since reply => simp [Cache.next,reading] at taken
  · cases reading : s.reads i with
    | asked since =>
      simp only [Cache.next,reading,Option.some.injEq] at taken
      exact taken ▸ sound.answers_read reading
    | idle | returned time value | answered since reply => simp [Cache.next,reading] at taken
  · cases reading : s.reads i with
    | answered since reply =>
      have close := timely s (.finish i) meets since reply reading
      have recent := sound.finishes lives lasting reading close
      cases reply with
      | some value =>
        simp only [Cache.next,reading,Option.some.injEq] at taken
        obtain ⟨answer,member,after,shown⟩ := sound.answered i since (some value) reading
        have caches := sound.caches ⟨answer,member,shown,by omega⟩
        subst taken
        refine caches.reads (fun _ same => by cases same) (fun _ _ same => by cases same) fun time other same => ?_
        obtain ⟨rfl,rfl⟩ := Read.returned.inj same
        exact recent
      | none =>
        simp only [Cache.next,reading,Option.some.injEq] at taken
        subst taken
        refine sound.reads (fun _ same => by cases same) (fun _ _ same => by cases same) fun time other same => ?_
        obtain ⟨rfl,rfl⟩ := Read.returned.inj same
        exact recent
    | idle | asked since | returned time value => simp [Cache.next,reading] at taken
  · cases reading : s.reads i with
    | asked since | answered since reply =>
      simp only [Cache.next,reading,Option.some.injEq] at taken
      exact taken ▸ sound.reads (fun _ same => by cases same) (fun _ _ same => by cases same) fun _ _ same => by cases same
    | idle | returned time value => simp [Cache.next,reading] at taken
  · exact absurd (timely s (.miss i) meets) not_false

/-- What has answered was the source at that time. -/
theorem answers_passed {allowed : Reading ι σ ν → Event ι Change → Prop} {start : Reading ι σ ν} (fresh : start.answers = [])
    (reached : (System.stepping start cache.next).ReachableWhile allowed s) {answer : Int × σ} (member : answer ∈ s.answers) :
    ∃ moment, (System.stepping start cache.next).ReachableWhile allowed moment ∧ (moment.clock,moment.source) = answer ∧
      ((System.stepping start cache.next).behind moment).ReachableWhile allowed s := by
  induction reached with
  | initial state same =>
    rw [show state = start from same,fresh] at member
    exact absurd member List.not_mem_nil
  | step state event next before meets taken ih =>
    have either : answer ∈ state.answers ∨ answer = (state.clock,state.source) := by
      have step : cache.next event state = some next := taken
      cases event with
      | change | pass =>
        obtain rfl := Option.some.inj step
        exact .inl member
      | ask i | finish i | fail i | miss i =>
        simp only [Cache.next] at step
        split at step
        all_goals first | (obtain rfl := Option.some.inj step; exact .inl member) | cases step
      | answer i =>
        simp only [Cache.next] at step
        split at step
        · obtain rfl := Option.some.inj step
          exact (List.mem_append.mp member).imp_right List.mem_singleton.mp
        · cases step
    rcases either with earlier | rfl
    · obtain ⟨moment,reached,same,rest⟩ := ih earlier
      exact ⟨moment,reached,same,.step state event next rest meets taken⟩
    · exact ⟨state,before,rfl,.step state event next (.initial state rfl) meets taken⟩

end Recency

end AtlasNet.Foundation.Caching
