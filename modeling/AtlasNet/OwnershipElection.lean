import AtlasNet.IdentityOrder
import AtlasNet.HeuristicShapes
import AtlasNet.Foundation.Scripts
import Mathlib.Order.Bounds.Basic

/-! The shard that owns the test entities: the one that the store names, or else the least
of the registered ones, as any number of shards find it at the same time. -/
namespace AtlasNet.OwnershipElection
open Foundation Foundation.Program Script

/-- The plain string values of a store. -/
abbrev Strings := String → Option String

def getText (key : String) : Program Strings (Option String) := do
  return (← get) key

def setText (key value : String) : Program Strings Unit := modify fun texts => Function.update texts key (some value)

/-- Times are in nanoseconds of the steady clock. -/
structure Options where
  evalInterval : Int := 2*10^9
  ownerKey : String := "EntityHandoff:TestOwnerShard"

structure Election where
  selfIdentity : NetworkIdentity
  options : Options := {}
  isOwner : Bool := false
  ownershipEvaluated : Bool := false
  lastOwnerEvalTime : Int := 0

def lesser (selectedOwner : Option String) (candidate : String) : Option String :=
  match selectedOwner with
  | none => some candidate
  | some owner => if candidate < owner then some candidate else some owner

/-- The servers come in the order of an unordered map. -/
def SelectBootstrapOwner (servers : List NetworkIdentity) : Option String :=
  servers.foldl (fun selectedOwner id => if id.type ≠ .eShard then selectedOwner else lesser selectedOwner id.ToString) none

namespace Election

def Reset (now : Int) (e : Election) : Election :=
  {e with isOwner := false,ownershipEvaluated := false,lastOwnerEvalTime := now-e.options.evalInterval}

def Invalidate (e : Election) : Election := {e with ownershipEvaluated := false}

def ForceNotOwner (e : Election) : Election := {e with isOwner := false}

/-- The choice that is written where the stored owner does not do. -/
def select (servers : List NetworkIdentity) (e : Election) : Script Strings (Option String) :=
  match SelectBootstrapOwner servers with
  | none => pure none
  | some owner => do
    query (setText e.options.ownerKey owner)
    pure (some owner)

def ownerStillValid (servers : List NetworkIdentity) (owner : String) : Bool :=
  servers.any fun id => id.type = .eShard ∧ id.ToString = owner

/-- The last evaluation still counts. -/
abbrev Current (now : Int) (e : Election) : Prop :=
  e.ownershipEvaluated = true ∧ now-e.lastOwnerEvalTime < e.options.evalInterval

/-- The owner that was found or chosen, or another where it is no longer registered. -/
def confirm (servers : List NetworkIdentity) (e : Election) : Option String → Script Strings (Option String)
  | none => pure none
  | some owner => if ownerStillValid servers owner then pure (some owner) else e.select servers

def conclude (selectedOwner : Option String) (e : Election) : Bool × Election :=
  let isOwner := match selectedOwner with
    | none => false
    | some owner => owner = e.selfIdentity.ToString
  (isOwner,{e with isOwner})

/-- `servers` is what `GetServers` gives. -/
def Evaluate (servers : List NetworkIdentity) (now : Int) (e : Election) : Script Strings (Bool × Election) :=
  if e.Current now then pure (e.isOwner,e) else do
    let e := {e with lastOwnerEvalTime := now,ownershipEvaluated := true}
    let selectedOwner ← query (getText e.options.ownerKey)
    let selectedOwner ← if selectedOwner.all (· = "") then e.select servers else pure selectedOwner
    let selectedOwner ← e.confirm servers selectedOwner
    pure (e.conclude selectedOwner)

end Election

section Selection
variable {named : Set String} {servers registry : List NetworkIdentity} {stored selected : Option String}

def Selects (named : Set String) : Option String → Prop
  | none => named = ∅
  | some owner => IsLeast named owner

def shardNames (servers : List NetworkIdentity) : Set String := {text | ∃ id ∈ servers, id.type = .eShard ∧ id.ToString = text}

theorem Selects.unique {other : Option String} (first : Selects named selected) (second : Selects named other) : selected = other := by
  cases selected with
  | none =>
    cases other with
    | none => rfl
    | some owner => exact absurd second.1 (by rw [show named = ∅ from first]; exact Set.notMem_empty _)
  | some owner =>
    cases other with
    | none => exact absurd first.1 (by rw [show named = ∅ from second]; exact Set.notMem_empty _)
    | some next => exact congrArg some (IsLeast.unique first second)

theorem Selects.lesser (selects : Selects named selected) (candidate : String) :
    Selects (insert candidate named) (lesser selected candidate) := by
  cases selected with
  | none =>
    rw [show named = ∅ from selects,insert_empty_eq]
    exact isLeast_singleton
  | some owner =>
    have least : IsLeast (insert candidate named) (min candidate owner) := IsLeast.insert candidate selects
    rw [OwnershipElection.lesser]
    split
    · rename_i below
      rwa [min_eq_left below.le] at least
    · rename_i above
      rwa [min_eq_right (not_lt.mp above)] at least

/-- The least name of a shard, in whatever order the servers come. -/
theorem SelectBootstrapOwner_selects (servers : List NetworkIdentity) : Selects (shardNames servers) (SelectBootstrapOwner servers) := by
  have general (servers : List NetworkIdentity) (named : Set String) (selected : Option String) (selects : Selects named selected) :
      Selects (named ∪ shardNames servers) (servers.foldl (fun selectedOwner id =>
        if id.type ≠ .eShard then selectedOwner else OwnershipElection.lesser selectedOwner id.ToString) selected) := by
    induction servers generalizing named selected with
    | nil =>
      have none : shardNames [] = ∅ := by simp [shardNames]
      rwa [none,Set.union_empty]
    | cons id servers ih =>
      rw [List.foldl_cons]
      by_cases shard : id.type = .eShard
      · have more : named ∪ shardNames (id::servers) = insert id.ToString named ∪ shardNames servers := by
          ext text
          simp [shardNames,shard,or_assoc,or_left_comm,eq_comm]
        rw [more,if_neg (not_not.mpr shard)]
        exact ih _ _ (selects.lesser _)
      · have same : shardNames (id::servers) = shardNames servers := by
          ext text
          simp [shardNames,shard]
        rw [same,if_pos shard]
        exact ih _ _ selects
  have whole := general servers ∅ none rfl
  rwa [Set.empty_union] at whole

theorem SelectBootstrapOwner_eq (same : ∀ id, id ∈ servers ↔ id ∈ registry) :
    SelectBootstrapOwner servers = SelectBootstrapOwner registry := by
  refine (SelectBootstrapOwner_selects servers).unique ?_
  have names : shardNames servers = shardNames registry := by simp [shardNames,same]
  rw [names]
  exact SelectBootstrapOwner_selects registry

theorem ownerStillValid_iff {owner : String} : Election.ownerStillValid servers owner = true ↔ owner ∈ shardNames servers := by
  simp [Election.ownerStillValid,shardNames]

theorem ownerStillValid_selected {owner : String} (selected : SelectBootstrapOwner servers = some owner) :
    Election.ownerStillValid servers owner = true := by
  have selects := SelectBootstrapOwner_selects servers
  rw [selected] at selects
  exact ownerStillValid_iff.mpr selects.1

theorem not_ownerStillValid_empty (servers : List NetworkIdentity) : Election.ownerStillValid servers "" = false := by
  rw [Bool.eq_false_iff]
  intro valid
  obtain ⟨id,_,_,empty⟩ := ownerStillValid_iff.mp valid
  exact ToString_nonempty id empty

/-- The stored owner as long as it is registered, or else the least shard. -/
def agreed (registry : List NetworkIdentity) (stored : Option String) : Option String :=
  match stored with
  | none => SelectBootstrapOwner registry
  | some owner => if Election.ownerStillValid registry owner then some owner else SelectBootstrapOwner registry

theorem agreed_valid {text : String} (chosen : agreed registry stored = some text) :
    Election.ownerStillValid registry text = true := by
  cases stored with
  | none => exact ownerStillValid_selected chosen
  | some owner =>
    rw [agreed] at chosen
    split at chosen
    · rename_i valid
      exact Option.some.inj chosen ▸ valid
    · exact ownerStillValid_selected chosen

theorem SelectBootstrapOwner_none (nobody : SelectBootstrapOwner registry = none) : shardNames registry = ∅ := by
  have selects := SelectBootstrapOwner_selects registry
  rwa [nobody] at selects

theorem agreed_none : agreed registry stored = none ↔ shardNames registry = ∅ := by
  constructor
  · intro nobody
    apply SelectBootstrapOwner_none
    cases stored with
    | none => exact nobody
    | some owner =>
      rw [agreed] at nobody
      split at nobody
      · cases nobody
      · exact nobody
  · intro empty
    cases chosen : agreed registry stored with
    | none => rfl
    | some text =>
      have named := ownerStillValid_iff.mp (agreed_valid chosen)
      rw [empty] at named
      exact absurd named (Set.notMem_empty _)

end Selection

section Runs
variable {ι : Type} {registry servers : List NetworkIdentity} {key : String} {first store : Strings}
  {known : ι → Bool} {i : ι} {e : Election} {outcome : Except Fault (Bool × Election) → Bool → Prop}

/-- The key holds what it held first or the agreed owner, and the agreed owner once a shard knows it. -/
structure Agrees (registry : List NetworkIdentity) (key : String) (first : Strings) (known : ι → Bool) (store : Strings) : Prop where
  either : store key = first key ∨ ∃ text, agreed registry (first key) = some text ∧ store key = some text
  settled : ∀ i, known i = true → ∀ text, agreed registry (first key) = some text → store key = some text
  others : ∀ other ≠ key, store other = first other

/-- What the key can hold leads to the agreed owner. -/
theorem Agrees.resolved (agrees : Agrees registry key first known store) : agreed registry (store key) = agreed registry (first key) := by
  rcases agrees.either with same | ⟨text,chosen,written⟩
  · rw [same]
  · rw [chosen,written,agreed,if_pos (agreed_valid chosen)]

theorem Agrees.fresh : Agrees registry key first (fun _ : ι => false) first where
  either := .inl rfl
  settled i learnt := by cases learnt
  others _ _ := rfl

variable [DecidableEq ι]

theorem Agrees.learns (agrees : Agrees registry key first known store) (i : ι) {text : String}
    (chosen : agreed registry (first key) = some text) (holds : store key = some text) :
    Agrees registry key first (Function.update known i true) store where
  either := agrees.either
  settled _ _ other same := by rwa [same.symm.trans chosen] at *
  others := agrees.others

theorem Agrees.writes (agrees : Agrees registry key first known store) (i : ι) {text : String}
    (chosen : agreed registry (first key) = some text) :
    Agrees registry key first (Function.update known i true) (Function.update store key (some text)) where
  either := .inr ⟨text,chosen,Function.update_self ..⟩
  settled _ _ other same := by
    rw [Function.update_self,← chosen,same]
  others other apart := by
    rw [Function.update_of_ne apart]
    exact agrees.others other apart

variable {now : Int} {here : Bool}

theorem upholds_select {outcome : Except Fault (Option String) → Bool → Prop} (ownerKey : e.options.ownerKey = key)
    (chosen : SelectBootstrapOwner servers = agreed registry (first key))
    (ends : outcome (.ok (agreed registry (first key))) (agreed registry (first key)).isSome) :
    Upholds (Agrees registry key first) i outcome (e.select servers) false := by
  rw [Election.select,chosen]
  cases owner : agreed registry (first key) with
  | none =>
    rw [owner] at ends
    exact ends
  | some text =>
    rw [owner] at ends
    refine upholds_bind (upholds_query fun known store _ agrees => ⟨true,?_,ends⟩)
    exact ownerKey ▸ agrees.writes i owner

/-- The agreed owner is confirmed as it is. -/
theorem upholds_confirm {outcome : Except Fault (Option String) → Bool → Prop}
    (same : ∀ text, Election.ownerStillValid registry text = true → Election.ownerStillValid servers text = true)
    (ends : outcome (.ok (agreed registry (first key))) here) :
    Upholds (Agrees registry key first) i outcome (e.confirm servers (agreed registry (first key))) here := by
  cases owner : agreed registry (first key) with
  | none =>
    rw [owner] at ends
    exact ends
  | some text =>
    rw [owner] at ends
    rw [Election.confirm,if_pos (same text (agreed_valid owner))]
    exact ends

/-- A shard that looks the owner up ends with the agreed one, and then knows that the key holds it. -/
def decides (registry : List NetworkIdentity) (stored : Option String) (now : Int) (e : Election)
    (result : Except Fault (Bool × Election)) (knows : Bool) : Prop :=
  ¬ e.Current now → knows = (agreed registry stored).isSome ∧
    result = .ok (Election.conclude (agreed registry stored) {e with lastOwnerEvalTime := now,ownershipEvaluated := true})

theorem upholds_Evaluate (ownerKey : e.options.ownerKey = key) (same : ∀ id, id ∈ servers ↔ id ∈ registry) :
    Upholds (Agrees registry key first) i (decides registry (first key) now e) (e.Evaluate servers now) false := by
  rw [Election.Evaluate]
  split
  · rename_i current
    exact fun late => absurd current late
  have names : shardNames servers = shardNames registry := by simp [shardNames,same]
  have valid (text : String) : Election.ownerStillValid servers text = Election.ownerStillValid registry text := by
    rw [Bool.eq_iff_iff,ownerStillValid_iff,ownerStillValid_iff,names]
  have least := SelectBootstrapOwner_eq same
  -- the rest once an owner has been found or chosen, and once it is to be chosen
  have confirmed (here : Bool) (knows : here = (agreed registry (first key)).isSome) :
      Upholds (Agrees registry key first) i (decides registry (first key) now e)
        (Election.confirm servers {e with lastOwnerEvalTime := now,ownershipEvaluated := true} (agreed registry (first key)) >>=
          fun selectedOwner => pure (Election.conclude selectedOwner {e with lastOwnerEvalTime := now,ownershipEvaluated := true}))
        here := by
    refine upholds_bind (upholds_confirm (fun text registered => (valid text).trans registered) ?_)
    exact fun _ => ⟨knows,rfl⟩
  refine upholds_bind (upholds_query fun known store ignorant agrees => ?_)
  have resolved := agrees.resolved
  have value : (getText e.options.ownerKey).exec store = (.ok (store key),store) := by rw [← ownerKey]; rfl
  have unchanged : Agrees registry key first (Function.update known i false) store := by
    rwa [← ignorant,Function.update_eq_self]
  rw [value]
  cases held : store key with
  | none =>
    rw [held] at resolved
    exact ⟨false,unchanged,upholds_bind (upholds_select ownerKey (least.trans resolved) (confirmed _ rfl))⟩
  | some text =>
    rw [held] at resolved
    by_cases empty : text = ""
    · subst empty
      rw [agreed,if_neg (by simp [not_ownerStillValid_empty])] at resolved
      exact ⟨false,unchanged,upholds_bind (upholds_select ownerKey (least.trans resolved) (confirmed _ rfl))⟩
    have found : ¬ (some text).all (· = "") = true := by simpa using empty
    by_cases registered : Election.ownerStillValid registry text = true
    · rw [agreed,if_pos registered] at resolved
      refine ⟨true,agrees.learns i resolved.symm held,?_⟩
      simp only [if_neg found]
      rw [resolved]
      exact confirmed true (by rw [← resolved]; rfl)
    · rw [agreed,if_neg registered] at resolved
      refine ⟨false,unchanged,?_⟩
      simp only [if_neg found]
      have gone : ¬ Election.ownerStillValid servers text = true := by rwa [valid]
      refine upholds_bind (upholds_bind ?_)
      simp only [Election.confirm,if_neg gone]
      exact upholds_select ownerKey (least.trans resolved) fun _ => ⟨rfl,rfl⟩

/-- As long as the registry names the same shards to all of them, there is one owner for all
shards that evaluate at the same time, each command of theirs between any commands of the
others: a stored owner that is registered, or else a registered shard. Each of them finds
whether it is that owner, and the store names it from then on. -/
theorem one_owner (elections : ι → Election) (now : ι → Int) {servers : ι → List NetworkIdentity}
    (ownerKey : ∀ i, (elections i).options.ownerKey = key) (same : ∀ i id, id ∈ servers i ↔ id ∈ registry) (first : Strings) :
    ∃ owner : Option String, (owner = none ↔ shardNames registry = ∅) ∧ (∀ text, owner = some text → text ∈ shardNames registry) ∧
      (∀ text ∈ shardNames registry, first key = some text → owner = some text) ∧
      ∀ threads : Threads ι Strings (Bool × Election),
        (System.stepping {store := first} (Threads.move fun i => (elections i).Evaluate (servers i) (now i))).Reachable threads →
        (∀ other ≠ key, threads.store other = first other) ∧
        ∀ i, threads.Ended i → ¬ (elections i).Current (now i) →
          (∃ e, e.isOwner = decide (owner = some (elections i).selfIdentity.ToString) ∧
            threads.script i = some (ended (.ok (e.isOwner,e)))) ∧
          ∀ text, owner = some text → threads.store key = some text := by
  refine ⟨agreed registry (first key),agreed_none,?_,?_,fun threads reached => ?_⟩
  · exact fun text chosen => ownerStillValid_iff.mp (agreed_valid chosen)
  · intro text named held
    rw [held,agreed,if_pos (ownerStillValid_iff.mpr named)]
  obtain ⟨known,covers⟩ := Threads.covered (Agrees registry key first) false
    (fun i => decides registry (first key) (now i) (elections i)) .fresh
    (fun threads known i covers _ unbegun => ⟨false,by
      rw [← covers.idle i unbegun,Function.update_eq_self]
      exact covers.holds,upholds_Evaluate (ownerKey i) (same i)⟩) reached
  refine ⟨covers.holds.others,fun i stopped late => ?_⟩
  obtain ⟨result,script,decided⟩ := covers.finished stopped
  obtain ⟨knows,rfl⟩ := decided late
  refine ⟨⟨(Election.conclude _ _).2,?_,script⟩,fun text chosen => ?_⟩
  · cases agreed registry (first key) with
    | none => rfl
    | some owner => exact decide_eq_decide.mpr Option.some_inj.symm
  · exact covers.holds.settled i (by rw [knows,chosen]; rfl) text chosen

section Both

def shard (n : UInt8) : NetworkIdentity := .MakeIDShard ⟨List.replicate 15 0 ++ [n],rfl⟩

def both (second : Bool) : Election where
  selfIdentity := shard (if second then 2 else 1)

def listed (second : Bool) : List NetworkIdentity := if second then [shard 2,shard 1] else [shard 1,shard 2]

def evaluating : Move Bool → Threads Bool Strings (Bool × Election) → Option (Threads Bool Strings (Bool × Election)) :=
  Threads.move fun second => (both second).Evaluate (listed second) 0

/-- Both read before either writes. -/
def evaluated : Threads Bool Strings (Bool × Election) :=
  (System.replay evaluating [.begin false,.begin true,.command true,.command false,.command false,.command true]
    {store := fun _ => none}).get rfl

theorem one_owner_evaluated : ∃ owner ∈ shardNames [shard 1,shard 2],
    evaluated.store "EntityHandoff:TestOwnerShard" = some owner ∧
    ∀ second, ∃ e, e.isOwner = decide (some owner = some (both second).selfIdentity.ToString) ∧
      evaluated.script second = some (ended (.ok (e.isOwner,e))) := by
  have same (second : Bool) (id : NetworkIdentity) : id ∈ listed second ↔ id ∈ [shard 1,shard 2] := by
    cases second <;> simp [listed,or_comm]
  obtain ⟨owner,nobody,registered,_,runs⟩ := one_owner both (fun _ => 0) (fun _ => rfl) same fun _ => none
  have reached : (System.stepping {store := fun _ => none} evaluating).Reachable evaluated :=
    System.stepping_replay (fun _ _ _ => trivial) System.stepping_start (Option.some_get _).symm
  obtain ⟨_,found⟩ := runs evaluated reached
  have stopped (second : Bool) : evaluated.Ended second := by cases second <;> exact ⟨_,rfl⟩
  have late (second : Bool) : ¬ (both second).Current 0 := fun current => Bool.false_ne_true current.1
  cases owner with
  | none =>
    have empty := nobody.mp rfl
    exact absurd (empty ▸ ⟨shard 1,by simp,rfl,rfl⟩ : (shard 1).ToString ∈ (∅ : Set String)) (Set.notMem_empty _)
  | some text =>
    exact ⟨text,registered text rfl,(found false (stopped false) (late false)).2 text rfl,
      fun second => (found second (stopped second) (late second)).1⟩

end Both

end Runs

end AtlasNet.OwnershipElection
