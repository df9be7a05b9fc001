import Mathlib.Tactic.Common
import Mathlib.Data.List.Perm.Basic
import Mathlib.Data.List.Nodup
import Mathlib.Data.List.TakeWhile
import Mathlib.Data.List.Infix

/-! A ledger of rows that wait for an owner or are held by one. Each row has an
identifier, and ownership is exclusive when no identifier occurs twice. -/
namespace AtlasNet.Foundation

structure Ledger (Id Data Owner : Type) where
  waiting : List (Id × Data)
  held : List ((Id × Data) × Owner)

namespace Ledger
variable {Id Data Owner : Type}

def empty : Ledger Id Data Owner := ⟨[],[]⟩

def rows (ledger : Ledger Id Data Owner) : List (Id × Data) :=
  ledger.waiting ++ ledger.held.map (·.1)

def waitingIds (ledger : Ledger Id Data Owner) : List Id := ledger.waiting.map (·.1)

def heldIds (ledger : Ledger Id Data Owner) : List Id := ledger.held.map (·.1.1)

/-- Every identifier waits once or is held once, never both. -/
def Exclusive (ledger : Ledger Id Data Owner) : Prop :=
  (ledger.waitingIds ++ ledger.heldIds).Nodup

instance [DecidableEq Id] (ledger : Ledger Id Data Owner) : Decidable ledger.Exclusive :=
  inferInstanceAs (Decidable (List.Nodup _))

def offer (row : Id × Data) (ledger : Ledger Id Data Owner) : Ledger Id Data Owner :=
  {ledger with waiting := ledger.waiting ++ [row]}

def claim (owner : Owner) (ledger : Ledger Id Data Owner) : Ledger Id Data Owner :=
  match ledger.waiting with
  | [] => ledger
  | row::rest => ⟨rest,ledger.held ++ [(row,owner)]⟩

def claimAll (owners : List Owner) (ledger : Ledger Id Data Owner) : Ledger Id Data Owner :=
  owners.foldl (fun before owner => claim owner before) ledger

/-- Offers the rows in turn up to the first one whose identifier already waits. -/
def offerUntil [DecidableEq Id] : List (Id × Data) → Ledger Id Data Owner → Ledger Id Data Owner
  | [],ledger => ledger
  | row::rest,ledger => if row.1 ∈ ledger.waitingIds then ledger else offerUntil rest (ledger.offer row)

theorem rows_ids (ledger : Ledger Id Data Owner) :
    ledger.rows.map (·.1) = ledger.waitingIds ++ ledger.heldIds := by
  simp [rows,waitingIds,heldIds]

theorem claim_empty (owner : Owner) (ledger : Ledger Id Data Owner) (none : ledger.waiting = []) :
    ledger.claim owner = ledger := by
  rw [claim,none]

theorem claim_cons (owner : Owner) (ledger : Ledger Id Data Owner) (row : Id × Data)
    (rest : List (Id × Data)) (first : ledger.waiting = row::rest) :
    ledger.claim owner = ⟨rest,ledger.held ++ [(row,owner)]⟩ := by
  rw [claim,first]

/-- A claim moves a row and neither makes nor loses one. -/
theorem claim_rows (owner : Owner) (ledger : Ledger Id Data Owner) :
    (ledger.claim owner).rows.Perm ledger.rows := by
  cases first : ledger.waiting with
  | nil => rw [claim_empty owner ledger first]
  | cons row rest =>
    rw [claim_cons owner ledger row rest first]
    simp only [rows,first,List.map_append,List.map_cons,List.map_nil,List.cons_append]
    rw [← List.append_assoc]
    exact List.perm_append_singleton row (rest ++ ledger.held.map (·.1))

theorem claim_exclusive (owner : Owner) (ledger : Ledger Id Data Owner) :
    (ledger.claim owner).Exclusive ↔ ledger.Exclusive := by
  unfold Exclusive
  rw [← rows_ids,← rows_ids]
  exact ((claim_rows owner ledger).map (·.1)).nodup_iff

theorem claimAll_append (first second : List Owner) (ledger : Ledger Id Data Owner) :
    ledger.claimAll (first ++ second) = (ledger.claimAll first).claimAll second :=
  List.foldl_append

/-- A sequence of claims takes the waiting rows from the front, one for each claim. -/
theorem claimAll_eq (owners : List Owner) (ledger : Ledger Id Data Owner) :
    ledger.claimAll owners =
      ⟨ledger.waiting.drop owners.length,ledger.held ++ ledger.waiting.zip owners⟩ := by
  induction owners generalizing ledger with
  | nil => simp [claimAll]
  | cons owner owners ih =>
    have unfolded : ledger.claimAll (owner::owners) = (ledger.claim owner).claimAll owners := rfl
    rw [unfolded,ih]
    cases first : ledger.waiting with
    | nil =>
      rw [claim_empty owner ledger first]
      simp [first]
    | cons row rest =>
      rw [claim_cons owner ledger row rest first]
      simp

theorem filter_unique {α κ : Type} [DecidableEq κ] (key : α → κ) (items : List α)
    (distinct : (items.map key).Nodup) (item : α) (member : item ∈ items) :
    items.filter (fun other => decide (key other = key item)) = [item] := by
  induction items with
  | nil => cases member
  | cons first rest ih =>
    have apart := List.nodup_cons.mp distinct
    rcases List.mem_cons.mp member with same | inside
    · subst same
      have none : rest.filter (fun other => decide (key other = key item)) = [] := by
        apply List.filter_eq_nil_iff.mpr
        intro other present equal
        exact apart.1 (List.mem_map.mpr ⟨other,present,of_decide_eq_true equal⟩)
      rw [List.filter_cons_of_pos (by simp),none]
    · have different : key first ≠ key item :=
        fun equal => apart.1 (List.mem_map.mpr ⟨item,inside,equal.symm⟩)
      rw [List.filter_cons_of_neg (by simpa using different),ih apart.2 inside]

/-- The waiting identifiers are distinct, and none of them is held. -/
def Claimable (ledger : Ledger Id Data Owner) : Prop :=
  ledger.waitingIds.Nodup ∧ ∀ id ∈ ledger.waitingIds, id ∉ ledger.heldIds

instance [DecidableEq Id] (ledger : Ledger Id Data Owner) : Decidable ledger.Claimable :=
  inferInstanceAs (Decidable (_ ∧ _))

theorem zip_ids (rows : List (Id × Data)) (owners : List Owner) :
    (rows.zip owners).map (·.1.1) <+: rows.map (·.1) := by
  induction rows generalizing owners with
  | nil => simp
  | cons row rows ih =>
    cases owners with
    | nil => simp
    | cons owner owners => simpa using ih owners

/-- However many claims follow, looking up a row that a claim has taken finds that
row with the owner of that claim and nothing else. -/
theorem taken_unique [DecidableEq Id] (ledger : Ledger Id Data Owner) (before : ledger.Claimable)
    (owners : List Owner) (k : Nat) (row : Id × Data) (owner : Owner)
    (first : ledger.waiting[k]? = some row) (claimed : owners[k]? = some owner) :
    (ledger.claimAll owners).held.filter (fun other => decide (other.1.1 = row.1)) = [(row,owner)] := by
  have waits : row.1 ∈ ledger.waitingIds := List.mem_map_of_mem (List.mem_of_getElem? first)
  have absent : ledger.held.filter (fun other => decide (other.1.1 = row.1)) = [] := by
    apply List.filter_eq_nil_iff.mpr
    intro other member same
    have held : other.1.1 ∈ ledger.heldIds := List.mem_map_of_mem member
    exact before.2 row.1 waits (of_decide_eq_true same ▸ held)
  have member : (row,owner) ∈ ledger.waiting.zip owners :=
    List.mem_of_getElem? (List.getElem?_zip_eq_some.mpr ⟨first,claimed⟩)
  have distinct : ((ledger.waiting.zip owners).map (·.1.1)).Nodup :=
    before.1.sublist (zip_ids _ _).sublist
  rw [claimAll_eq,List.filter_append,absent,List.nil_append]
  exact filter_unique (fun other : (Id × Data) × Owner => other.1.1) _ distinct (row,owner) member

@[simp] theorem offerUntil_held [DecidableEq Id] (rows : List (Id × Data)) (ledger : Ledger Id Data Owner) :
    (offerUntil rows ledger).held = ledger.held := by
  induction rows generalizing ledger with
  | nil => rfl
  | cons row rest ih =>
    rw [offerUntil]
    split
    · rfl
    · exact ih (ledger.offer row)

theorem offerUntil_blocked [DecidableEq Id] (row : Id × Data) (rest : List (Id × Data))
    (ledger : Ledger Id Data Owner) (waits : row.1 ∈ ledger.waitingIds) :
    offerUntil (row::rest) ledger = ledger := by
  rw [offerUntil,if_pos waits]

theorem offerUntil_next [DecidableEq Id] (row : Id × Data) (rest : List (Id × Data))
    (ledger : Ledger Id Data Owner) (free : row.1 ∉ ledger.waitingIds) :
    offerUntil (row::rest) ledger = offerUntil rest (ledger.offer row) := by
  rw [offerUntil,if_neg free]

/-- The rows before the first one whose identifier already waits. -/
def unblocked [DecidableEq Id] (rows : List (Id × Data)) (ledger : Ledger Id Data Owner) :
    List (Id × Data) :=
  rows.takeWhile (fun row => decide (row.1 ∉ ledger.waitingIds))

private theorem takeWhile_congr {α : Type} (p q : α → Bool) (items : List α)
    (same : ∀ item ∈ items, p item = q item) : items.takeWhile p = items.takeWhile q := by
  induction items with
  | nil => rfl
  | cons item items ih =>
    rw [List.takeWhile_cons,List.takeWhile_cons,same item (by simp),
      ih (fun i member => same i (by simp [member]))]

/-- Distinct rows do not block one another: what is offered is settled at the start. -/
theorem offerUntil_waiting [DecidableEq Id] (rows : List (Id × Data))
    (distinct : (rows.map (·.1)).Nodup) (ledger : Ledger Id Data Owner) :
    offerUntil rows ledger = {ledger with waiting := ledger.waiting ++ unblocked rows ledger} := by
  induction rows generalizing ledger with
  | nil => simp [offerUntil,unblocked]
  | cons row rest ih =>
    have apart := List.nodup_cons.mp distinct
    by_cases waits : row.1 ∈ ledger.waitingIds
    · rw [offerUntil_blocked row rest ledger waits]
      simp [unblocked,waits]
    · have same : unblocked rest (ledger.offer row) = unblocked rest ledger := by
        unfold unblocked
        apply takeWhile_congr
        intro other member
        have different : other.1 ≠ row.1 := by
          intro equal
          exact apart.1 (List.mem_map.mpr ⟨other,member,equal⟩)
        apply decide_eq_decide.mpr
        simp only [waitingIds,offer,List.map_append,List.mem_append,List.map_cons,List.map_nil,
          List.mem_singleton,different,or_false]
      rw [offerUntil_next row rest ledger waits,ih apart.2 (ledger.offer row),same]
      simp [unblocked,waits,offer]

theorem offerUntil_exclusive [DecidableEq Id] (rows : List (Id × Data))
    (distinct : (rows.map (·.1)).Nodup) (ledger : Ledger Id Data Owner) (before : ledger.Exclusive) :
    (offerUntil rows ledger).Exclusive ↔ ∀ row ∈ unblocked rows ledger, row.1 ∉ ledger.heldIds := by
  have fresh : ∀ row ∈ unblocked rows ledger, row.1 ∉ ledger.waitingIds := by
    intro row member
    simpa using List.mem_takeWhile_imp member
  have offered : ((unblocked rows ledger).map (·.1)).Nodup :=
    distinct.sublist ((List.takeWhile_sublist _).map _)
  have apart := List.nodup_append.mp before
  rw [offerUntil_waiting rows distinct]
  simp only [Exclusive,waitingIds,heldIds,List.map_append,List.append_assoc]
  rw [List.nodup_append,List.nodup_append]
  constructor
  · rintro ⟨_,⟨_,_,disjoint⟩,_⟩ row member held
    exact disjoint _ (List.mem_map_of_mem member) _ held rfl
  · intro free
    refine ⟨apart.1,⟨offered,apart.2.1,?_⟩,?_⟩
    · intro id member other held same
      obtain ⟨row,inside,rfl⟩ := List.mem_map.mp member
      exact free row inside (same ▸ held)
    · intro id waits other member same
      rcases List.mem_append.mp member with inside | held
      · obtain ⟨row,present,equal⟩ := List.mem_map.mp inside
        exact fresh row present (equal.trans same.symm ▸ waits)
      · exact apart.2.2 id waits other held same

end Ledger

end AtlasNet.Foundation
