import AtlasNet.Foundation.Program

/-! Formats, which say what words stand for a value, and the readers that take
exactly the words of a format off the front of what is left to them. -/
namespace AtlasNet.Foundation
open Program

def Format (τ α : Type) : Type := List τ → α → Prop

namespace Format
variable {τ α β : Type}

/-- The words of a sequence are those of its parts, one after the other. -/
instance : Monad (Format τ) where
  pure a := fun word value => word = [] ∧ value = a
  bind F G := fun word value => ∃ first second a, word = first ++ second ∧ F first a ∧ G a second value

def guard (condition : Prop) : Format τ Unit := fun word _ => word = [] ∧ condition

def fail : Format τ α := fun _ _ => False

def times (F : Format τ α) : Nat → Format τ (List α)
  | 0 => pure []
  | n+1 => do
    let value ← F
    let rest ← F.times n
    pure (value::rest)

def Begins (F : Format τ α) (word : List τ) (value : α) : Prop :=
  ∃ front rest, word = front ++ rest ∧ F front value

theorem ite_iff (chosen : Prop) [Decidable chosen] (F G : Format τ α) (word : List τ) (value : α) :
    (if chosen then F else G) word value ↔ (chosen ∧ F word value) ∨ (¬ chosen ∧ G word value) := by
  split <;> simp [*]

theorem times_parts {F : Format τ α} {n : Nat} {word : List τ} {values : List α} (stands : F.times n word values) :
    values.length = n ∧ ∀ value ∈ values, ∃ part, F part value := by
  induction n generalizing word values with
  | zero =>
    obtain ⟨_,rfl⟩ := stands
    exact ⟨rfl,fun _ member => absurd member List.not_mem_nil⟩
  | succ n ih =>
    obtain ⟨first,_,head,_,heads,_,_,tail,_,tails,_,rfl⟩ := stands
    obtain ⟨long,parts⟩ := ih tails
    refine ⟨congrArg (·+1) long,fun value member => ?_⟩
    rcases List.mem_cons.mp member with rfl | later
    · exact ⟨first,heads⟩
    · exact parts value later

end Format

/-- A position in a word, by what is left of the word. -/
structure Cursor (σ τ : Type) where
  Inside : σ → Prop
  rest : σ → List τ
  skip : Nat → σ → σ
  skip_none (s : σ) : skip 0 s = s
  skip_twice (m n : Nat) (s : σ) : skip m (skip n s) = skip (n+m) s
  inside_skip (s : σ) (front back : List τ) (inside : Inside s) (here : rest s = front ++ back) :
    Inside (skip front.length s) ∧ rest (skip front.length s) = back

namespace Cursor
variable {σ τ α β : Type} (cursor : Cursor σ τ)

/-- The reader returns a value exactly when what is left begins with a word for the
value, and it stops behind that word. -/
def Accepts (reader : Program σ α) (F : Format τ α) : Prop :=
  ∀ s, cursor.Inside s → ∀ value next, exec reader s = (.ok value,next) ↔
    ∃ word back, F word value ∧ cursor.rest s = word ++ back ∧ next = cursor.skip word.length s

variable {cursor}

theorem accepts_congr {reader : Program σ α} {F G : Format τ α} (accepts : cursor.Accepts reader F)
    (same : ∀ word value, F word value ↔ G word value) : cursor.Accepts reader G := by
  intro s inside value next
  simp only [accepts s inside value next,same]

theorem accepts_pure (a : α) : cursor.Accepts (pure a) (pure a) := by
  intro s inside value next
  rw [exec_pure,Prod.mk.injEq,Except.ok.injEq]
  constructor
  · rintro ⟨rfl,rfl⟩
    exact ⟨[],cursor.rest s,⟨rfl,rfl⟩,rfl,(cursor.skip_none s).symm⟩
  · rintro ⟨word,back,⟨rfl,rfl⟩,_,rfl⟩
    exact ⟨rfl,(cursor.skip_none s).symm⟩

theorem accepts_throw (fault : Fault) : cursor.Accepts (throw fault : Program σ α) Format.fail := by
  intro s inside value next
  constructor
  · intro ran
    cases (Prod.mk.inj ran).1
  · rintro ⟨word,back,none,_⟩
    exact none.elim

theorem accepts_bind {first : Program σ α} {after : α → Program σ β} {F : Format τ α} {G : α → Format τ β}
    (head : cursor.Accepts first F) (tail : ∀ a, cursor.Accepts (after a) (G a)) :
    cursor.Accepts (first >>= after) (F >>= G) := by
  intro s inside value next
  constructor
  · intro ran
    obtain ⟨a,middle,started,finished⟩ := bind_returned _ _ _ _ _ ran
    obtain ⟨front,rest,stands,here,rfl⟩ := (head s inside a middle).mp started
    obtain ⟨within,there⟩ := cursor.inside_skip s front rest inside here
    obtain ⟨word,back,goes,split,rfl⟩ := (tail a _ within value next).mp finished
    refine ⟨front ++ word,back,⟨front,word,a,rfl,stands,goes⟩,?_,?_⟩
    · rw [here,← there,split,List.append_assoc]
    · rw [cursor.skip_twice,List.length_append]
  · rintro ⟨_,back,⟨front,word,a,rfl,stands,goes⟩,here,rfl⟩
    rw [List.append_assoc] at here
    obtain ⟨within,there⟩ := cursor.inside_skip s front (word ++ back) inside here
    have started := (head s inside a _).mpr ⟨front,word ++ back,stands,here,rfl⟩
    rw [exec_bind_ok _ _ _ _ _ started,(tail a _ within value _).mpr ⟨word,back,goes,there,rfl⟩,
      cursor.skip_twice,List.length_append]

theorem accepts_throwIf (bad : Prop) [Decidable bad] (fault : Fault) :
    cursor.Accepts (throwIf bad fault) (Format.guard (¬ bad)) := by
  intro s inside value next
  unfold throwIf
  split
  · rename_i holds
    constructor
    · intro ran
      cases (Prod.mk.inj ran).1
    · rintro ⟨word,back,⟨_,none⟩,_⟩
      exact absurd holds none
  · rename_i fails
    rw [exec_pure,Prod.mk.injEq]
    constructor
    · rintro ⟨_,rfl⟩
      exact ⟨[],cursor.rest s,⟨rfl,fails⟩,rfl,(cursor.skip_none s).symm⟩
    · rintro ⟨word,back,⟨rfl,_⟩,_,rfl⟩
      exact ⟨rfl,(cursor.skip_none s).symm⟩

theorem accepts_ite (chosen : Prop) [Decidable chosen] {left right : Program σ α} {F G : Format τ α}
    (first : cursor.Accepts left F) (second : cursor.Accepts right G) :
    cursor.Accepts (if chosen then left else right) (if chosen then F else G) := by
  split
  · exact first
  · exact second

/-- A check that only stops what would fail anyway changes nothing. -/
theorem accepts_checked {reader : Program σ α} {F : Format τ α} {bad : σ → Prop} [∀ s, Decidable (bad s)]
    (fault : Fault) (accepts : cursor.Accepts reader F)
    (doomed : ∀ s word back value, cursor.Inside s → F word value → cursor.rest s = word ++ back → ¬ bad s) :
    cursor.Accepts (do let s ← get; throwIf (bad s) fault; reader) F := by
  intro s inside value next
  rw [← accepts s inside value next,exec_get_bind,exec_throwIf]
  by_cases stops : bad s
  · rw [if_pos stops]
    constructor
    · intro ran
      cases (Prod.mk.inj ran).1
    · intro ran
      obtain ⟨word,back,stands,here,_⟩ := (accepts s inside value next).mp ran
      exact absurd stops (doomed s word back value inside stands here)
  · rw [if_neg stops]

/-- A reader over a state of its own returns what the word begins with. -/
theorem accepts_within {reader : Program σ α} {F : Format τ α} (accepts : cursor.Accepts reader F) {s : σ}
    (inside : cursor.Inside s) (value : α) :
    (exec reader s).1 = .ok value ↔ F.Begins (cursor.rest s) value := by
  constructor
  · intro ran
    obtain ⟨word,back,stands,here,_⟩ := (accepts s inside value (exec reader s).2).mp (Prod.ext ran rfl)
    exact ⟨word,back,here,stands⟩
  · rintro ⟨word,back,here,stands⟩
    rw [(accepts s inside value _).mpr ⟨word,back,stands,here,rfl⟩]

end Cursor

end AtlasNet.Foundation
