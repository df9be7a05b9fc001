import Mathlib.Data.List.AList
import Mathlib.Tactic.Common

/-! Maps with one value for each key, in the order of their entries or in none, and loops whose
turns each change what is seen of one key only. -/
namespace AtlasNet.Foundation
variable {κ α β σ ι V : Type}

/-- A map whose entries stand in the order in which their keys came. -/
abbrev Entries (κ α : Type) := List (κ × α)

namespace Entries
variable [DecidableEq κ]

def get (key : κ) : Entries κ α → Option α
  | [] => none
  | (other,value)::rest => if other = key then some value else get key rest

/-- A key that is there keeps its place, a new one goes to the end. -/
def put (key : κ) (value : α) : Entries κ α → Entries κ α
  | [] => [(key,value)]
  | (other,old)::rest => if other = key then (other,value)::rest else (other,old)::put key value rest

def drop (key : κ) (map : Entries κ α) : Entries κ α := map.filter (·.1 ≠ key)

@[simp] theorem get_put_self (key : κ) (value : α) (map : Entries κ α) : get key (put key value map) = some value := by
  induction map with
  | nil => simp [put,get]
  | cons entry rest ih =>
    by_cases same : entry.1 = key
    · simp [put,get,same]
    · simp [put,get,same,ih]

theorem get_put_other (key other : κ) (value : α) (map : Entries κ α) (different : other ≠ key) :
    get other (put key value map) = get other map := by
  induction map with
  | nil => simp [put,get,Ne.symm different]
  | cons entry rest ih =>
    by_cases same : entry.1 = key
    · simp [put,get,same,Ne.symm different]
    · by_cases found : entry.1 = other
      · simp [put,get,found,different]
      · simp [put,get,same,found,ih]

theorem mem_keys_put (key other : κ) (value : α) (map : Entries κ α) :
    other ∈ (put key value map).map (·.1) ↔ other = key ∨ other ∈ map.map (·.1) := by
  induction map with
  | nil => simp [put]
  | cons entry rest ih =>
    by_cases same : entry.1 = key
    · simp [put,same]
    · simp only [put,same,if_false,List.map_cons,List.mem_cons,ih]
      exact or_left_comm

theorem keys_put_nodup (key : κ) (value : α) (map : Entries κ α) (distinct : (map.map (·.1)).Nodup) :
    ((put key value map).map (·.1)).Nodup := by
  induction map with
  | nil => simp [put]
  | cons entry rest ih =>
    obtain ⟨absent,apart⟩ := List.nodup_cons.mp distinct
    by_cases same : entry.1 = key
    · simpa [put,same] using distinct
    · simp only [put,same,if_false,List.map_cons]
      refine List.nodup_cons.mpr ⟨fun member => ?_,ih apart⟩
      rcases (mem_keys_put key entry.1 value rest).mp member with here | there
      · exact same here
      · exact absent there

theorem get_none {key : κ} {map : Entries κ α} (absent : key ∉ map.map (·.1)) : get key map = none := by
  induction map with
  | nil => rfl
  | cons entry rest ih =>
    obtain ⟨here,there⟩ := List.ne_and_not_mem_of_not_mem_cons absent
    rw [get,if_neg (Ne.symm here),ih there]

theorem mem_of_get {key : κ} {value : α} {map : Entries κ α} (found : get key map = some value) : (key,value) ∈ map := by
  induction map with
  | nil => cases found
  | cons entry rest ih =>
    by_cases same : entry.1 = key
    · rw [get,if_pos same] at found
      rw [← same,← Option.some.inj found]
      exact List.mem_cons_self
    · rw [get,if_neg same] at found
      exact List.mem_cons_of_mem _ (ih found)

theorem get_mem {key : κ} {value : α} {map : Entries κ α} (distinct : (map.map (·.1)).Nodup) (member : (key,value) ∈ map) :
    get key map = some value := by
  induction map with
  | nil => cases member
  | cons entry rest ih =>
    obtain ⟨absent,apart⟩ := List.nodup_cons.mp distinct
    rcases List.mem_cons.mp member with rfl | there
    · rw [get,if_pos rfl]
    · have different : entry.1 ≠ key := by
        rintro rfl
        exact absent (List.mem_map.mpr ⟨_,there,rfl⟩)
      rw [get,if_neg different,ih apart there]

/-- In another order the keys have the same values. -/
theorem get_perm {first second : Entries κ α} (same : first.Perm second) (distinct : (second.map (·.1)).Nodup) (key : κ) :
    get key first = get key second := by
  have apart : (first.map (·.1)).Nodup := (same.map (·.1)).nodup_iff.mpr distinct
  by_cases present : key ∈ second.map (·.1)
  · obtain ⟨⟨_,value⟩,member,rfl⟩ := List.mem_map.mp present
    rw [get_mem distinct member,get_mem apart (same.mem_iff.mpr member)]
  · rw [get_none present,get_none fun member => present ((same.map (·.1)).mem_iff.mp member)]

@[simp] theorem get_drop_self (key : κ) (map : Entries κ α) : get key (drop key map) = none := by
  apply get_none
  simp [drop]

theorem get_drop_other (key other : κ) (map : Entries κ α) (different : other ≠ key) : get other (drop key map) = get other map := by
  induction map with
  | nil => rfl
  | cons entry rest ih =>
    unfold drop at ih ⊢
    by_cases same : entry.1 = key
    · have distinct : entry.1 ≠ other := fun here => different (here.symm.trans same)
      rw [List.filter_cons_of_neg (by simpa using same),ih,get,if_neg distinct]
    · rw [List.filter_cons_of_pos (by simpa using same),get,get,ih]

theorem keys_drop_nodup (key : κ) (map : Entries κ α) (distinct : (map.map (·.1)).Nodup) : ((drop key map).map (·.1)).Nodup :=
  (List.filter_sublist.map _).nodup distinct

theorem mem_put {key : κ} {value : α} {map : Entries κ α} {entry : κ × α} (member : entry ∈ put key value map) :
    entry = (key,value) ∨ entry ∈ map := by
  induction map with
  | nil => exact .inl (List.mem_singleton.mp member)
  | cons first rest ih =>
    by_cases same : first.1 = key
    · rw [put,if_pos same,same] at member
      rcases List.mem_cons.mp member with here | there
      · exact .inl here
      · exact .inr (List.mem_cons_of_mem _ there)
    · rw [put,if_neg same] at member
      rcases List.mem_cons.mp member with here | there
      · exact .inr (here ▸ List.mem_cons_self)
      · exact (ih there).imp_right (List.mem_cons_of_mem _)

end Entries

abbrev Dictionary (κ α : Type) := AList (fun _ : κ => α)

namespace Dictionary

def mapValues (f : α → β) (map : Dictionary κ α) : Dictionary κ β where
  entries := map.entries.map fun entry => ⟨entry.1,f entry.2⟩
  nodupKeys := map.nodupKeys.map₂ (fun _ => f) _

def values (map : Dictionary κ α) : List α := map.entries.map (·.2)

def size (map : Dictionary κ α) : Nat := map.entries.length

variable [DecidableEq κ]

def eraseAll (keys : List κ) (map : Dictionary κ α) : Dictionary κ α := keys.foldl (fun map key => map.erase key) map

@[simp] theorem lookup_mapValues (f : α → β) (map : Dictionary κ α) (key : κ) :
    (map.mapValues f).lookup key = (map.lookup key).map f :=
  List.dlookup_map₂ (f := fun _ => f) key

theorem mem_entries {map : Dictionary κ α} {key : κ} {value : α} :
    (⟨key,value⟩ : Sigma fun _ : κ => α) ∈ map.entries ↔ map.lookup key = some value :=
  AList.mem_lookup_iff.symm

theorem mem_values {map : Dictionary κ α} {value : α} : value ∈ map.values ↔ ∃ key, map.lookup key = some value := by
  simp only [values,List.mem_map]
  constructor
  · rintro ⟨entry,inside,rfl⟩
    exact ⟨entry.1,mem_entries.mp inside⟩
  · rintro ⟨key,found⟩
    exact ⟨⟨key,value⟩,mem_entries.mpr found,rfl⟩

theorem mem_keys {map : Dictionary κ α} {key : κ} : key ∈ map.keys ↔ ∃ value, map.lookup key = some value := by
  rw [← AList.mem_keys,← AList.lookup_isSome,Option.isSome_iff_exists]

theorem lookup_of_erase {map : Dictionary κ α} {key other : κ} {value : α}
    (looked : AList.lookup key (AList.erase other map) = some value) : map.lookup key = some value := by
  by_cases same : key = other
  · rw [same,AList.lookup_erase] at looked
    cases looked
  · rwa [AList.lookup_erase_ne same] at looked

theorem lookup_eraseAll (keys : List κ) (map : Dictionary κ α) (key : κ) :
    (map.eraseAll keys).lookup key = if key ∈ keys then none else map.lookup key := by
  induction keys generalizing map with
  | nil => simp [eraseAll]
  | cons first keys ih =>
    rw [eraseAll,List.foldl_cons,← eraseAll,ih]
    by_cases later : key ∈ keys
    · simp [later]
    · by_cases same : key = first
      · subst same
        simp [later]
      · simp [later,same,AList.lookup_erase_ne same]

/-- The last entry of a key counts. -/
theorem lookup_insertAll (entries : List (κ × α)) (map : Dictionary κ α) (key : κ) :
    AList.lookup key (entries.foldl (fun map entry => map.insert entry.1 entry.2) map) =
      ((entries.reverse.find? (·.1 = key)).map (·.2)).or (map.lookup key) := by
  induction entries generalizing map with
  | nil => rfl
  | cons entry entries ih =>
    rw [List.foldl_cons,ih,List.reverse_cons,List.find?_append]
    cases entries.reverse.find? (·.1 = key) with
    | some later => rfl
    | none =>
      by_cases same : entry.1 = key
      · subst same
        simp
      · simp [same,AList.lookup_insert_ne (Ne.symm same)]

theorem size_eq_zero {map : Dictionary κ α} : map.size = 0 ↔ ∀ key, map.lookup key = none := by
  rw [size,List.length_eq_zero_iff]
  constructor
  · intro none key
    exact AList.lookup_eq_none.mpr (by simp [AList.mem_keys,AList.keys,none])
  · intro none
    apply List.eq_nil_iff_forall_not_mem.mpr
    intro entry inside
    exact absurd (mem_entries.mp inside) (by simp [none])

end Dictionary

section Loops
variable {step : σ → ι → σ} {key : ι → κ} {view : σ → V} {chosen : κ}

variable (view) in
/-- A loop that has no turn for a key leaves what is seen of it. -/
theorem foldl_absent (items : List ι) (others : ∀ s, ∀ item ∈ items, key item ≠ chosen → view (step s item) = view s)
    (absent : chosen ∉ items.map key) (s : σ) : view (items.foldl step s) = view s := by
  induction items generalizing s with
  | nil => rfl
  | cons item items ih =>
    obtain ⟨apart,later⟩ := List.ne_and_not_mem_of_not_mem_cons absent
    rw [List.foldl_cons,ih (fun s item member => others s item (List.mem_cons_of_mem _ member)) later]
    exact others s item List.mem_cons_self (Ne.symm apart)

variable (view) in
/-- A loop with one turn for a key does to what is seen of it what that turn does. -/
theorem foldl_present (items : List ι) (distinct : (items.map key).Nodup)
    (others : ∀ s, ∀ item ∈ items, key item ≠ chosen → view (step s item) = view s) {item : ι} (member : item ∈ items)
    (mine : key item = chosen) (s : σ) :
    ∃ before, view before = view s ∧ view (items.foldl step s) = view (step before item) := by
  induction items generalizing s with
  | nil => exact absurd member List.not_mem_nil
  | cons first items ih =>
    obtain ⟨alone,distinct⟩ := List.nodup_cons.mp distinct
    have after := fun s item member => others s item (List.mem_cons_of_mem first member)
    rcases List.mem_cons.mp member with rfl | later
    · exact ⟨s,rfl,foldl_absent view items after (mine ▸ alone) (step s item)⟩
    · have apart : key first ≠ chosen := fun same => alone (same.trans mine.symm ▸ List.mem_map_of_mem later)
      obtain ⟨before,unchanged,turned⟩ := ih distinct after later (step s first)
      exact ⟨before,unchanged.trans (others s first List.mem_cons_self apart),turned⟩

end Loops

end AtlasNet.Foundation
