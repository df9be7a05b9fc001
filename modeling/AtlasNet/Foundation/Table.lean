import Mathlib.Tactic.Common
import Mathlib.Data.List.Basic
import Mathlib.Order.Lattice

/-! A table with non-unique indices. The elements stand in the order of their
insertion, which is the order an index keeps among equivalent keys; a lookup
yields the first element of the range, and the node it yields is the one that
is changed or erased. -/
namespace AtlasNet.Foundation.Table
variable {α κ : Type}

def find (chosen : α → Bool) (table : List α) : Option α := table.find? chosen

def modify (chosen : α → Bool) (f : α → α) : List α → List α
  | [] => []
  | entry::rest => if chosen entry then f entry::rest else entry::modify chosen f rest

def erase (chosen : α → Bool) (table : List α) : List α := table.eraseP chosen

/-- A found node splits the table, and the changes act at the split. -/
theorem find_split {chosen : α → Bool} {table : List α} {entry : α}
    (found : find chosen table = some entry) :
    ∃ before after, table = before ++ entry::after ∧ chosen entry = true ∧
      (∀ other ∈ before, chosen other = false) := by
  obtain ⟨holds,before,after,split,none⟩ := List.find?_eq_some_iff_append.mp found
  exact ⟨before,after,split,holds,fun other member => by simpa using none other member⟩

theorem modify_split {chosen : α → Bool} {before after : List α} {entry : α} (f : α → α)
    (holds : chosen entry = true) (none : ∀ other ∈ before, chosen other = false) :
    modify chosen f (before ++ entry::after) = before ++ f entry::after := by
  induction before with
  | nil => simp [modify,holds]
  | cons other before ih =>
    have skipped := none other (by simp)
    simp only [List.cons_append,modify,skipped,Bool.false_eq_true,if_false]
    rw [ih (fun o member => none o (by simp [member]))]

theorem erase_split {chosen : α → Bool} {before after : List α} {entry : α}
    (holds : chosen entry = true) (none : ∀ other ∈ before, chosen other = false) :
    erase chosen (before ++ entry::after) = before ++ after := by
  rw [erase,List.eraseP_append_right _ (fun b member => by simp [none b member]),
    List.eraseP_cons_of_pos holds]

theorem find_none {chosen : α → Bool} {table : List α} :
    find chosen table = none ↔ ∀ entry ∈ table, chosen entry = false := by
  simp [find]

theorem find_member {chosen : α → Bool} {table : List α} {entry : α}
    (found : find chosen table = some entry) : entry ∈ table :=
  List.mem_of_find?_eq_some found

theorem find_chosen {chosen : α → Bool} {table : List α} {entry : α}
    (found : find chosen table = some entry) : chosen entry = true :=
  List.find?_some found

theorem modify_absent {chosen : α → Bool} {table : List α} (f : α → α)
    (absent : find chosen table = none) : modify chosen f table = table := by
  induction table with
  | nil => rfl
  | cons entry rest ih =>
    rw [find_none] at absent
    rw [modify,absent entry (by simp)]
    simp only [Bool.false_eq_true,if_false]
    rw [ih (find_none.mpr (fun other member => absent other (by simp [member])))]

theorem erase_sublist (chosen : α → Bool) (table : List α) : (erase chosen table).Sublist table :=
  List.eraseP_sublist

theorem erase_absent {chosen : α → Bool} {table : List α} (absent : find chosen table = none) :
    erase chosen table = table :=
  List.eraseP_of_forall_not (fun entry member => by simp [find_none.mp absent entry member])

theorem modify_column (chosen : α → Bool) (f : α → α) (key : α → κ) (table : List α)
    (kept : ∀ entry, key (f entry) = key entry) : (modify chosen f table).map key = table.map key := by
  induction table with
  | nil => rfl
  | cons entry rest ih =>
    rw [modify]
    split
    · simp [kept]
    · simp [ih]

theorem length_modify (chosen : α → Bool) (f : α → α) (table : List α) :
    (modify chosen f table).length = table.length := by
  induction table with
  | nil => rfl
  | cons entry rest ih =>
    rw [modify]
    split
    · rfl
    · exact congrArg (· + 1) ih

theorem find_modify {chosen : α → Bool} {f : α → α} {table : List α}
    (still : ∀ entry, find chosen table = some entry → chosen (f entry) = true) :
    find chosen (modify chosen f table) = (find chosen table).map f := by
  cases found : find chosen table with
  | none => rw [modify_absent f found,found,Option.map_none]
  | some entry =>
    obtain ⟨before,after,split,holds,none⟩ := find_split found
    subst split
    rw [modify_split f holds none,find,List.find?_append,
      List.find?_eq_none.mpr (fun other member => by simp [none other member]),List.find?_cons_of_pos (still entry found)]
    rfl

theorem modify_modify {chosen : α → Bool} {f g : α → α} {table : List α}
    (still : ∀ entry, find chosen table = some entry → chosen (f entry) = true) :
    modify chosen g (modify chosen f table) = modify chosen (g ∘ f) table := by
  cases found : find chosen table with
  | none => rw [modify_absent f found,modify_absent g found,modify_absent _ found]
  | some entry =>
    obtain ⟨before,after,split,holds,none⟩ := find_split found
    subst split
    rw [modify_split f holds none,modify_split g (still entry found) none,modify_split _ holds none]
    rfl

theorem mem_modify {chosen : α → Bool} {f : α → α} {table : List α} {entry : α}
    (member : entry ∈ modify chosen f table) :
    entry ∈ table ∨ ∃ old, find chosen table = some old ∧ entry = f old := by
  cases found : find chosen table with
  | none => exact .inl (modify_absent f found ▸ member)
  | some old =>
    obtain ⟨before,after,split,holds,none⟩ := find_split found
    subst split
    rw [modify_split f holds none] at member
    rcases List.mem_append.mp member with inside | inside
    · exact .inl (by simp [inside])
    · rcases List.mem_cons.mp inside with same | inside
      · exact .inr ⟨old,rfl,same⟩
      · exact .inl (by simp [inside])

/-- A lookup by another test finds the same node, changed if it is the changed one. -/
theorem find_modify_other {chosen other : α → Bool} {f : α → α} {table : List α} {entry : α}
    (kept : ∀ a, other (f a) = other a) (once : table.countP chosen ≤ 1) (found : find other table = some entry) :
    find other (modify chosen f table) = some (if chosen entry then f entry else entry) := by
  induction table with
  | nil => cases found
  | cons first rest ih =>
    by_cases mine : chosen first = true
    · have counted := List.countP_cons_of_pos (l := rest) mine
      have none : rest.countP chosen = 0 := by omega
      rw [modify,if_pos mine]
      by_cases here : other first = true
      · obtain rfl : first = entry := by simpa [find,here] using found
        rw [if_pos mine,find,List.find?_cons_of_pos ((kept first).trans here)]
      · have later : find other rest = some entry := by simpa [find,here] using found
        have apart : chosen entry = false := by simpa using List.countP_eq_zero.mp none entry (find_member later)
        rw [find,List.find?_cons_of_neg (fun now => here ((kept first).symm.trans now)),apart]
        exact later
    · rw [List.countP_cons_of_neg mine] at once
      rw [modify,if_neg mine]
      by_cases here : other first = true
      · obtain rfl : first = entry := by simpa [find,here] using found
        rw [if_neg mine,find,List.find?_cons_of_pos here]
      · have later : find other rest = some entry := by simpa [find,here] using found
        rw [find,List.find?_cons_of_neg here]
        exact ih once later

theorem pairwise_replace {R : α → α → Prop} {before after : List α} {old new : α}
    (related : (before ++ old::after).Pairwise R) (left : ∀ a ∈ before, R a old → R a new)
    (right : ∀ b ∈ after, R old b → R new b) : (before ++ new::after).Pairwise R := by
  rw [List.pairwise_append,List.pairwise_cons] at related ⊢
  obtain ⟨first,⟨second,rest⟩,across⟩ := related
  refine ⟨first,⟨fun b member => right b member (second b member),rest⟩,?_⟩
  intro a inside b member
  rcases List.mem_cons.mp member with same | later
  · rw [same]
    exact left a inside (across a inside old List.mem_cons_self)
  · exact across a inside b (List.mem_cons_of_mem _ later)

theorem countP_le_one {R : α → α → Prop} {table : List α} (chosen : α → Bool) (related : table.Pairwise R)
    (alone : ∀ a b, chosen a = true → chosen b = true → ¬ R a b) : table.countP chosen ≤ 1 := by
  induction table with
  | nil => exact Nat.zero_le _
  | cons entry rest ih =>
    rw [List.pairwise_cons] at related
    by_cases mine : chosen entry = true
    · have others : rest.countP chosen = 0 := by
        rw [List.countP_eq_zero]
        intro b member other
        exact alone entry b mine other (related.1 b member)
      have counted := List.countP_cons_of_pos (l := rest) mine
      omega
    · rw [List.countP_cons_of_neg mine]
      exact ih related.2

section Scan
variable {β : Type} [LinearOrder β] (key : α → β) (holds : α → Bool)

/-- A scan of a list in the order of its keys meets the element with the least key first. -/
theorem find_iff_least {list : List α} (sorted : list.Pairwise (fun a b => key a < key b)) (a : α) :
    find holds list = some a ↔ a ∈ list ∧ holds a = true ∧ ∀ b ∈ list, holds b = true → key a ≤ key b := by
  induction list with
  | nil => exact ⟨nofun,fun inside => absurd inside.1 List.not_mem_nil⟩
  | cons first rest ih =>
    obtain ⟨before,sorted⟩ := List.pairwise_cons.mp sorted
    by_cases met : holds first = true
    · rw [find,List.find?_cons_of_pos met,Option.some.injEq]
      constructor
      · rintro rfl
        refine ⟨List.mem_cons_self,met,fun b member _ => ?_⟩
        rcases List.mem_cons.mp member with rfl | later
        · exact le_rfl
        · exact (before b later).le
      · rintro ⟨member,_,least⟩
        rcases List.mem_cons.mp member with rfl | later
        · rfl
        · exact absurd (before a later) (not_lt.mpr (least first List.mem_cons_self met))
    · rw [find,List.find?_cons_of_neg met,← find,ih sorted]
      constructor
      · rintro ⟨member,found,least⟩
        refine ⟨List.mem_cons_of_mem _ member,found,fun b inside other => ?_⟩
        rcases List.mem_cons.mp inside with rfl | later
        · exact absurd other met
        · exact least b later other
      · rintro ⟨member,found,least⟩
        refine ⟨(List.mem_cons.mp member).resolve_left ?_,found,fun b later => least b (List.mem_cons_of_mem _ later)⟩
        rintro rfl
        exact met found

/-- The scan finds each element that the test holds of exactly when there is at most one. -/
theorem find_agrees_iff (list : List α) : (∀ a ∈ list, holds a = true ↔ find holds list = some a) ↔
    ∀ a ∈ list, ∀ b ∈ list, holds a = true → holds b = true → a = b := by
  constructor
  · intro agrees a inList b inListToo first second
    exact Option.some.inj (((agrees a inList).mp first).symm.trans ((agrees b inListToo).mp second))
  · intro unique a member
    constructor
    · intro held
      cases found : find holds list with
      | none => exact absurd held (by simp [find_none.mp found a member])
      | some b => rw [unique a member b (find_member found) held (find_chosen found)]
    · exact find_chosen

end Scan

section Snoc
variable {list : List α} {last item : α} {k : Nat}

theorem getElem?_snoc : (list ++ [last])[k]? = some item ↔ list[k]? = some item ∨ k = list.length ∧ item = last := by
  by_cases inside : k < list.length
  · rw [List.getElem?_append_left inside]
    constructor
    · exact .inl
    · rintro (here | ⟨rfl,_⟩)
      · exact here
      · exact absurd inside (lt_irrefl _)
  · have beyond : list[k]? = none := List.getElem?_eq_none (not_lt.mp inside)
    rw [List.getElem?_append_right (not_lt.mp inside),List.getElem?_singleton,beyond]
    constructor
    · intro here
      split at here
      · exact .inr ⟨by omega,(Option.some.inj here).symm⟩
      · cases here
    · rintro (here | ⟨rfl,rfl⟩)
      · cases here
      · rw [Nat.sub_self,if_pos rfl]

end Snoc

end AtlasNet.Foundation.Table
