import Mathlib.Data.Finite.Prod
import Mathlib.Data.Fintype.Card
import Mathlib.Data.List.Chain
import Mathlib.Logic.Function.Iterate
import Mathlib.Logic.Relation
import Mathlib.Tactic.Common

/-! Parallel rewriting of sequences: in one pass every item that unfolds is replaced by the items it
unfolds to. Whether the passes come to an end is decided item by item. -/
namespace AtlasNet.Foundation.Rewriting
variable {α : Type} (unfold : α → Option (List α))

def expand (items : List α) : List α := items.flatMap fun a => (unfold a).getD [a]

/-- The items into which an item unfolds in the end exist, and are allowed to stay. -/
inductive Ends (stays : α → Prop) : α → Prop
  | stop (a : α) (none : unfold a = none) (allowed : stays a) : Ends stays a
  | unfolds (a : α) (items : List α) (some : unfold a = some items) (each : ∀ b ∈ items, Ends stays b) : Ends stays a

/-- No item unfolds, and all are allowed to stay. -/
def Finished (stays : α → Prop) (items : List α) : Prop := ∀ a ∈ items, unfold a = none ∧ stays a

variable {unfold} {stays : α → Prop}

@[simp] theorem expand_nil : expand unfold [] = [] := rfl

theorem expand_cons (a : α) (items : List α) : expand unfold (a::items) = (unfold a).getD [a] ++ expand unfold items := rfl

theorem expand_append (first second : List α) : expand unfold (first ++ second) = expand unfold first ++ expand unfold second :=
  List.flatMap_append

theorem iterate_append (n : Nat) (first second : List α) :
    (expand unfold)^[n] (first ++ second) = (expand unfold)^[n] first ++ (expand unfold)^[n] second := by
  induction n generalizing first second with
  | zero => rfl
  | succ n ih =>
    simp only [Function.iterate_succ_apply]
    rw [expand_append,ih]

theorem iterate_nil (n : Nat) : (expand unfold)^[n] [] = [] := by
  induction n with
  | zero => rfl
  | succ n ih => exact ih

theorem expand_stopped {a : α} (none : unfold a = none) : expand unfold [a] = [a] := by
  rw [expand_cons,none]
  rfl

theorem iterate_stopped {a : α} (none : unfold a = none) (n : Nat) : (expand unfold)^[n] [a] = [a] :=
  Function.iterate_fixed (expand_stopped none) n

theorem expand_finished {items : List α} (finished : ∀ a ∈ items, unfold a = none) : expand unfold items = items := by
  induction items with
  | nil => rfl
  | cons a items ih =>
    obtain ⟨here,others⟩ := List.forall_mem_cons.mp finished
    rw [expand_cons,here,ih others]
    rfl

theorem expand_unfolds {a : α} {items : List α} (some : unfold a = some items) : expand unfold [a] = items := by
  rw [expand_cons,some]
  exact List.append_nil items

/-- What holds of all items and goes over to what they unfold to holds after any number of passes. -/
theorem forall_iterate {property : α → Prop} (closed : ∀ a items, property a → unfold a = some items → ∀ b ∈ items, property b)
    (n : Nat) {items : List α} (start : ∀ a ∈ items, property a) : ∀ a ∈ (expand unfold)^[n] items, property a := by
  induction n generalizing items with
  | zero => exact start
  | succ n ih =>
    rw [Function.iterate_succ_apply]
    refine ih fun b member => ?_
    obtain ⟨a,inside,there⟩ := List.mem_flatMap.mp member
    cases found : unfold a with
    | none =>
      rw [found] at there
      exact List.mem_singleton.mp there ▸ start a inside
    | some unfolded =>
      rw [found] at there
      exact closed a unfolded (start a inside) found b there

theorem ends_of_finished (n : Nat) {items : List α} (finished : Finished unfold stays ((expand unfold)^[n] items)) :
    ∀ a ∈ items, Ends unfold stays a := by
  induction n generalizing items with
  | zero => exact fun a member => .stop a (finished a member).1 (finished a member).2
  | succ n ih =>
    rw [Function.iterate_succ_apply] at finished
    have ends := ih finished
    intro a member
    cases found : unfold a with
    | none =>
      apply ends a
      exact List.mem_flatMap.mpr ⟨a,member,by rw [found]; exact List.mem_singleton_self a⟩
    | some unfolded =>
      refine .unfolds a unfolded found fun b inside => ends b ?_
      exact List.mem_flatMap.mpr ⟨a,member,by rwa [found]⟩

theorem finished_later {n m : Nat} (later : n ≤ m) {items : List α} (finished : Finished unfold stays ((expand unfold)^[n] items)) :
    Finished unfold stays ((expand unfold)^[m] items) := by
  obtain ⟨more,rfl⟩ := Nat.exists_eq_add_of_le' later
  rw [Function.iterate_add_apply,Function.iterate_fixed (expand_finished fun a member => (finished a member).1)]
  exact finished

theorem finished_each {items : List α} (each : ∀ a ∈ items, ∃ n, Finished unfold stays ((expand unfold)^[n] [a])) :
    ∃ n, Finished unfold stays ((expand unfold)^[n] items) := by
  induction items with
  | nil => exact ⟨0,fun a none => absurd none List.not_mem_nil⟩
  | cons a items ih =>
    obtain ⟨here,others⟩ := List.forall_mem_cons.mp each
    obtain ⟨first,ended⟩ := here
    obtain ⟨second,rest⟩ := ih others
    refine ⟨max first second,?_⟩
    rw [← List.singleton_append,iterate_append]
    intro b member
    rcases List.mem_append.mp member with inside | inside
    · exact finished_later (Nat.le_max_left ..) ended b inside
    · exact finished_later (Nat.le_max_right ..) rest b inside

theorem finished_of_ends {a : α} (ends : Ends unfold stays a) : ∃ n, Finished unfold stays ((expand unfold)^[n] [a]) := by
  induction ends with
  | stop a none allowed => exact ⟨0,fun b member => List.mem_singleton.mp member ▸ ⟨none,allowed⟩⟩
  | unfolds a items some _ ih =>
    obtain ⟨n,finished⟩ := finished_each ih
    refine ⟨n+1,?_⟩
    rwa [Function.iterate_succ_apply,expand_unfolds some]

/-- The passes over a sequence come to an end exactly when each of its items ends. -/
theorem finished_iff (items : List α) :
    (∃ n, Finished unfold stays ((expand unfold)^[n] items)) ↔ ∀ a ∈ items, Ends unfold stays a :=
  ⟨fun ⟨n,finished⟩ => ends_of_finished n finished,fun ends => finished_each fun a member => finished_of_ends (ends a member)⟩

section Circles
variable (unfold)

/-- The sequences that occur: the first one, and what the items of those unfold to. -/
inductive Source (items : List α) : List α → Prop
  | whole : Source items items
  | inner {source items' : List α} {a : α} (outer : Source items source) (member : a ∈ source) (some : unfold a = some items') :
      Source items items'

def Met (items : List α) (a : α) : Prop := ∃ source, Source unfold items source ∧ a ∈ source

def Mentions (a b : α) : Prop := ∃ items, unfold b = some items ∧ a ∈ items

variable {unfold}

theorem met_of_mem {items : List α} {a : α} (member : a ∈ items) : Met unfold items a := ⟨items,.whole,member⟩

theorem met_mentioned {items : List α} {a b : α} (met : Met unfold items b) (mentions : Mentions unfold a b) : Met unfold items a := by
  obtain ⟨source,outer,member⟩ := met
  obtain ⟨unfolded,found,inside⟩ := mentions
  exact ⟨unfolded,.inner outer member found,inside⟩

theorem ends_of_met {items : List α} (ends : ∀ a ∈ items, Ends unfold stays a) {a : α} (met : Met unfold items a) :
    Ends unfold stays a := by
  obtain ⟨source,occurs,member⟩ := met
  induction occurs generalizing a with
  | whole => exact ends a member
  | inner _ inside some ih =>
    cases ih inside with
    | stop _ none _ =>
      rw [none] at some
      cases some
    | unfolds _ other found each =>
      obtain rfl := Option.some.inj (found.symm.trans some)
      exact each a member

theorem acc_of_ends {a : α} (ends : Ends unfold stays a) : Acc (Mentions unfold) a := by
  induction ends with
  | stop a none _ =>
    refine ⟨a,fun b mentions => ?_⟩
    obtain ⟨items,some,_⟩ := mentions
    rw [none] at some
    cases some
  | unfolds a items some _ ih =>
    refine ⟨a,fun b mentions => ?_⟩
    obtain ⟨other,found,inside⟩ := mentions
    obtain rfl := Option.some.inj (some.symm.trans found)
    exact ih b inside

theorem not_circular_of_acc {a : α} (acc : Acc (Mentions unfold) a) : ¬ Relation.TransGen (Mentions unfold) a a := by
  have all := acc.transGen
  clear acc
  induction all with
  | intro a _ ih => exact fun circle => ih a circle circle

theorem not_ends_of_mem {a : α} {items : List α} (some : unfold a = some items) (inside : a ∈ items) : ¬ Ends unfold stays a :=
  fun ends => not_circular_of_acc (acc_of_ends ends) (.single ⟨items,some,inside⟩)

/-- Where finitely many items unfold and none that is met leads back to itself, each ends. -/
theorem ends_of_not_circular (finite : {a | unfold a ≠ none}.Finite) {items : List α}
    (circles : ∀ a, Met unfold items a → ¬ Relation.TransGen (Mentions unfold) a a)
    (allowed : ∀ a, Met unfold items a → unfold a = none → stays a) : ∀ a, Met unfold items a → Ends unfold stays a := by
  let Inner := {a // unfold a ≠ none ∧ Met unfold items a}
  have : Finite Inner := (finite.subset fun a both => both.1).to_subtype
  let below (a b : Inner) : Prop := Relation.TransGen (Mentions unfold) a.1 b.1
  have : IsTrans Inner below := ⟨fun _ _ _ first second => first.trans second⟩
  have : Std.Irrefl below := ⟨fun a => circles a.1 a.2.2⟩
  have each : ∀ a : Inner, Ends unfold stays a.1 := by
    intro a
    induction a using (Finite.wellFounded_of_trans_of_irrefl below).induction with
    | _ a ih =>
      obtain ⟨unfolded,found⟩ := Option.ne_none_iff_exists'.mp a.2.1
      refine .unfolds a.1 unfolded found fun b inside => ?_
      have met := met_mentioned a.2.2 ⟨unfolded,found,inside⟩
      by_cases none : unfold b = none
      · exact .stop b none (allowed b met none)
      · exact ih ⟨b,none,met⟩ (.single ⟨unfolded,found,inside⟩)
  intro a met
  by_cases none : unfold a = none
  · exact .stop a none (allowed a met none)
  · exact each ⟨a,none,met⟩

theorem ends_iff (finite : {a | unfold a ≠ none}.Finite) (items : List α) :
    (∀ a ∈ items, Ends unfold stays a) ↔
      (∀ a, Met unfold items a → ¬ Relation.TransGen (Mentions unfold) a a) ∧
        ∀ a, Met unfold items a → unfold a = none → stays a := by
  constructor
  · intro ends
    refine ⟨fun a met => not_circular_of_acc (acc_of_ends (ends_of_met ends met)),fun a met none => ?_⟩
    cases ends_of_met ends met with
    | stop _ _ allowed => exact allowed
    | unfolds _ _ some _ =>
      rw [none] at some
      cases some
  · rintro ⟨circles,allowed⟩ a member
    exact ends_of_not_circular finite circles allowed a (met_of_mem member)

end Circles

section Neighbours
variable (unfold)

/-- Nothing is left of the item in the end. -/
inductive Vanishes : α → Prop
  | intro {a : α} {items : List α} (some : unfold a = some items) (each : ∀ b ∈ items, Vanishes b) : Vanishes a

/-- The item comes to begin with the item `b`. -/
inductive Begins (b : α) : α → Prop
  | here : Begins b b
  | unfolds {a c : α} {before after : List α} (some : unfold a = some (before ++ c::after)) (gone : ∀ d ∈ before, Vanishes unfold d)
      (begins : Begins b c) : Begins b a

/-- The item comes to end with the item `b`. -/
inductive Closes (b : α) : α → Prop
  | here : Closes b b
  | unfolds {a c : α} {before after : List α} (some : unfold a = some (before ++ c::after)) (gone : ∀ d ∈ after, Vanishes unfold d)
      (closes : Closes b c) : Closes b a

/-- Two items of the sequence come to bring `a` and `b` next to each other. -/
def Joins (a b : α) (items : List α) : Prop := ∃ before p between q after, items = before ++ p::(between ++ q::after) ∧
  Closes unfold a p ∧ (∀ d ∈ between, Vanishes unfold d) ∧ Begins unfold b q

def Meet (items : List α) (a b : α) : Prop := ∃ source, Source unfold items source ∧ Joins unfold a b source

variable {unfold}

theorem met_of_begins {items : List α} {a b : α} (met : Met unfold items a) (begins : Begins unfold b a) : Met unfold items b := by
  induction begins with
  | here => exact met
  | unfolds some _ _ ih => exact ih (met_mentioned met ⟨_,some,List.mem_append_right _ List.mem_cons_self⟩)

theorem vanishes_of_unfolded {a : α} (each : ∀ b ∈ (unfold a).getD [a], Vanishes unfold b) : Vanishes unfold a := by
  cases found : unfold a with
  | none =>
    rw [found] at each
    exact each a (List.mem_singleton_self a)
  | some items =>
    rw [found] at each
    exact .intro found each

theorem begins_of_unfolded {a b c : α} {before after : List α} (unfolded : (unfold a).getD [a] = before ++ c::after)
    (gone : ∀ d ∈ before, Vanishes unfold d) (begins : Begins unfold b c) : Begins unfold b a := by
  cases found : unfold a with
  | none =>
    rw [found,Option.getD_none] at unfolded
    have member : c ∈ [a] := unfolded ▸ List.mem_append_right before List.mem_cons_self
    exact List.mem_singleton.mp member ▸ begins
  | some items =>
    rw [found] at unfolded
    exact .unfolds (found.trans (congrArg some unfolded)) gone begins

theorem closes_of_unfolded {a b c : α} {before after : List α} (unfolded : (unfold a).getD [a] = before ++ c::after)
    (gone : ∀ d ∈ after, Vanishes unfold d) (closes : Closes unfold b c) : Closes unfold b a := by
  cases found : unfold a with
  | none =>
    rw [found,Option.getD_none] at unfolded
    have member : c ∈ [a] := unfolded ▸ List.mem_append_right before List.mem_cons_self
    exact List.mem_singleton.mp member ▸ closes
  | some items =>
    rw [found] at unfolded
    exact .unfolds (found.trans (congrArg some unfolded)) gone closes

theorem append_eq_append_cons {first second before after : List α} {b : α} (whole : first ++ second = before ++ b::after) :
    (∃ right, first = before ++ b::right ∧ after = right ++ second) ∨ ∃ left, before = first ++ left ∧ second = left ++ b::after := by
  rcases List.append_eq_append_iff.mp whole with ⟨left,there,rest⟩ | ⟨right,here,rest⟩
  · exact .inr ⟨left,there,rest⟩
  · cases right with
    | nil => exact .inr ⟨[],by rw [here,List.append_nil,List.append_nil],rest.symm⟩
    | cons c right =>
      rw [List.cons_append,List.cons.injEq] at rest
      obtain ⟨rfl,rfl⟩ := rest
      exact .inl ⟨right,here,rfl⟩

theorem expand_eq_append_cons {items before after : List α} {b : α} (whole : expand unfold items = before ++ b::after) :
    ∃ first a last left right, items = first ++ a::last ∧ (unfold a).getD [a] = left ++ b::right ∧
      before = expand unfold first ++ left ∧ after = right ++ expand unfold last := by
  induction items generalizing before with
  | nil => exact absurd whole.symm (List.append_ne_nil_of_right_ne_nil before (List.cons_ne_nil b after))
  | cons a items ih =>
    rw [expand_cons] at whole
    rcases append_eq_append_cons whole with ⟨right,here,rfl⟩ | ⟨more,rfl,rest⟩
    · exact ⟨[],a,items,before,right,rfl,here,rfl,rfl⟩
    · obtain ⟨first,c,last,left,right,rfl,there,rfl,rfl⟩ := ih rest
      refine ⟨a::first,c,last,left,right,rfl,there,?_,rfl⟩
      rw [expand_cons,List.append_assoc]

/-- Items that come together after a pass come together before it, or in what one item unfolds to. -/
theorem joins_expand {items : List α} {a b : α} (joins : Joins unfold a b (expand unfold items)) :
    Joins unfold a b items ∨ ∃ c ∈ items, ∃ unfolded, unfold c = some unfolded ∧ Joins unfold a b unfolded := by
  obtain ⟨before,p,between,q,after,whole,closes,gone,begins⟩ := joins
  obtain ⟨first,c,last,left,right,rfl,here,rfl,rest⟩ := expand_eq_append_cons whole
  rcases append_eq_append_cons rest.symm with ⟨later,rfl,rfl⟩ | ⟨middle,rfl,there⟩
  · cases found : unfold c with
    | none =>
      rw [found] at here
      have long := congrArg List.length here
      simp only [Option.getD_none,List.length_append,List.length_cons,List.length_nil] at long
      omega
    | some unfolded =>
      rw [found] at here
      exact .inr ⟨c,by simp,unfolded,found,left,p,between,q,later,here,closes,gone,begins⟩
  · obtain ⟨others,d,remaining,beyond,later,rfl,found,rfl,rfl⟩ := expand_eq_append_cons there
    refine .inl ⟨first,c,others,d,remaining,rfl,?_,?_,?_⟩
    · exact closes_of_unfolded here (fun e member => gone e (List.mem_append_left _ member)) closes
    · intro e member
      refine vanishes_of_unfolded fun f inside => gone f ?_
      exact List.mem_append_right _ (List.mem_append_left _ (List.mem_flatMap.mpr ⟨e,member,inside⟩))
    · exact begins_of_unfolded found (fun e member => gone e (List.mem_append_right _ (List.mem_append_right _ member))) begins

theorem source_expand {items source : List α} (occurs : Source unfold (expand unfold items) source) :
    source = expand unfold items ∨ Source unfold items source := by
  induction occurs with
  | whole => exact .inl rfl
  | inner _ member found ih =>
    rename_i a _
    right
    rcases ih with rfl | earlier
    · obtain ⟨c,inside,there⟩ := List.mem_flatMap.mp member
      cases above : unfold c with
      | none =>
        rw [above] at there
        obtain rfl := List.mem_singleton.mp there
        exact .inner .whole inside found
      | some unfolded =>
        rw [above] at there
        exact .inner (.inner .whole inside above) there found
    · exact .inner earlier member found

theorem meet_expand {items : List α} {a b : α} (meet : Meet unfold (expand unfold items) a b) : Meet unfold items a b := by
  obtain ⟨source,occurs,joins⟩ := meet
  rcases source_expand occurs with rfl | earlier
  · rcases joins_expand joins with here | ⟨c,member,unfolded,found,inside⟩
    · exact ⟨items,.whole,here⟩
    · exact ⟨unfolded,.inner .whole member found,inside⟩
  · exact ⟨source,earlier,joins⟩

/-- Items that never meet do not stand next to each other after any number of passes. -/
theorem isChain_iterate {a b : α} (n : Nat) {items : List α} (never : ¬ Meet unfold items a b) :
    ((expand unfold)^[n] items).IsChain fun c d => ¬ (c = a ∧ d = b) := by
  induction n generalizing items with
  | zero =>
    apply List.isChain_iff_forall_rel_of_append_cons_cons.mpr
    rintro _ _ before after whole ⟨rfl,rfl⟩
    exact never ⟨items,.whole,before,_,[],_,after,whole,.here,fun d none => absurd none List.not_mem_nil,.here⟩
  | succ n ih =>
    rw [Function.iterate_succ_apply]
    exact ih fun meet => never (meet_expand meet)

end Neighbours

end AtlasNet.Foundation.Rewriting
