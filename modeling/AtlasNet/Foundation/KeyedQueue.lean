import Mathlib.Tactic.Common
import Mathlib.Data.List.Basic

/-! A map from keys to queues, as the list of its elements with their keys in the
order they were pushed. The queue of a key is what that list holds for it. -/
namespace AtlasNet.Foundation
variable {κ α : Type}

structure KeyedQueue (κ α : Type) where
  elements : List (κ × α) := []

namespace KeyedQueue

/-- The elements of a keyed list that belong to one key. -/
def of [BEq κ] (key : κ) (elements : List (κ × α)) : List α :=
  (elements.filter (fun element => element.1 == key)).map (·.2)

def queue [BEq κ] (key : κ) (map : KeyedQueue κ α) : List α := of key map.elements

def push (key : κ) (value : α) (map : KeyedQueue κ α) : KeyedQueue κ α :=
  ⟨map.elements ++ [(key,value)]⟩

def erase [BEq κ] (key : κ) (map : KeyedQueue κ α) : KeyedQueue κ α :=
  ⟨map.elements.filter (fun element => !(element.1 == key))⟩

section Laws
variable [BEq κ]

@[simp] theorem of_nil (key : κ) : of key ([] : List (κ × α)) = [] := rfl

theorem of_append (key : κ) (first second : List (κ × α)) :
    of key (first ++ second) = of key first ++ of key second := by
  simp [of]

theorem of_single_same (key other : κ) (value : α) (same : (other == key) = true) :
    of key [(other,value)] = [value] := by
  simp [of,same]

theorem of_single_other (key other : κ) (value : α) (different : (other == key) = false) :
    of key [(other,value)] = [] := by
  simp [of,different]

theorem of_map_same (key other : κ) (values : List α) (same : (other == key) = true) :
    of key (values.map (fun value => (other,value))) = values := by
  induction values with
  | nil => rfl
  | cons value rest ih =>
    rw [List.map_cons,← List.singleton_append,of_append,of_single_same _ _ _ same,ih]
    rfl

theorem of_map_other (key other : κ) (values : List α) (different : (other == key) = false) :
    of key (values.map (fun value => (other,value))) = [] := by
  induction values with
  | nil => rfl
  | cons value rest ih =>
    rw [List.map_cons,← List.singleton_append,of_append,of_single_other _ _ _ different,ih]
    rfl

theorem queue_push (key other : κ) (value : α) (map : KeyedQueue κ α) :
    (map.push other value).queue key = map.queue key ++ of key [(other,value)] :=
  of_append key map.elements [(other,value)]

variable [EquivBEq κ]

theorem of_congr (key other : κ) (elements : List (κ × α)) (same : (key == other) = true) :
    of key elements = of other elements := by
  unfold of
  congr 1
  apply List.filter_congr
  intro element _
  exact BEq.congr_right same

theorem queue_erase_same (key other : κ) (map : KeyedQueue κ α) (same : (other == key) = true) :
    (map.erase other).queue key = [] := by
  simp only [queue,of,erase,List.filter_filter]
  rw [List.filter_eq_nil_iff.mpr]
  · rfl
  · intro element _
    rw [BEq.congr_right same]
    cases element.1 == key <;> simp

theorem queue_erase_other (key other : κ) (map : KeyedQueue κ α) (different : (other == key) = false) :
    (map.erase other).queue key = map.queue key := by
  simp only [queue,of,erase,List.filter_filter]
  congr 1
  apply List.filter_congr
  intro element _
  by_cases mine : (element.1 == key) = true
  · have apart : (element.1 == other) = false := by
      rw [BEq.congr_left mine,BEq.comm]
      exact different
    simp [mine,apart]
  · simp [mine]

end Laws

section Keys
variable [DecidableEq κ]

/-- A key goes behind those seen before it, unless it is one of them. -/
def seeing (seen : List κ) (key : κ) : List κ := if key ∈ seen then seen else seen ++ [key]

/-- The keys in the order of their first occurrences. -/
def firsts (keys : List κ) : List κ := keys.foldl seeing []

def keys (map : KeyedQueue κ α) : List κ := firsts (map.elements.map (·.1))

theorem seeing_nodup {seen : List κ} (distinct : seen.Nodup) (key : κ) : (seeing seen key).Nodup := by
  unfold seeing
  split
  · exact distinct
  · rename_i absent
    rw [List.nodup_append]
    refine ⟨distinct,List.pairwise_singleton _ key,fun other member last single same => absent ?_⟩
    rw [← List.mem_singleton.mp single,← same]
    exact member

theorem mem_seeing {seen : List κ} {key other : κ} : other ∈ seeing seen key ↔ other ∈ seen ∨ other = key := by
  unfold seeing
  split
  · rename_i present
    constructor
    · exact .inl
    · rintro (member | rfl)
      · exact member
      · exact present
  · rw [List.mem_append,List.mem_singleton]

theorem firsts_nodup (keys : List κ) : (firsts keys).Nodup := by
  suffices general : ∀ seen : List κ, seen.Nodup → (keys.foldl seeing seen).Nodup from general [] List.nodup_nil
  induction keys with
  | nil => exact fun _ distinct => distinct
  | cons key keys ih => exact fun seen distinct => ih _ (seeing_nodup distinct key)

@[simp] theorem mem_firsts {keys : List κ} {key : κ} : key ∈ firsts keys ↔ key ∈ keys := by
  suffices general : ∀ seen : List κ, key ∈ keys.foldl seeing seen ↔ key ∈ seen ∨ key ∈ keys by
    simpa [firsts] using general []
  induction keys with
  | nil => simp
  | cons other keys ih =>
    intro seen
    rw [List.foldl_cons,ih,mem_seeing,List.mem_cons,or_assoc]

end Keys

end KeyedQueue

end AtlasNet.Foundation
