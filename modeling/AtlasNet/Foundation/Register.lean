import Mathlib.Data.List.Induction
import Mathlib.Tactic.Common

/-! A register under a history of events. An event writes a value, clears the register or leaves
it; the register holds what the last event that concerned it has written. -/
namespace AtlasNet.Foundation.Register
variable {Event Value : Type} {effect : Event → Option (Option Value)} {events : List Event} {event : Event} {value : Value}

def apply (effect : Event → Option (Option Value)) (held : Option Value) (event : Event) : Option Value :=
  (effect event).getD held

/-- What the register holds behind the events, when nothing was written before them. -/
def behind (effect : Event → Option (Option Value)) (events : List Event) : Option Value :=
  events.foldl (apply effect) none

/-- The last event that concerns the register has written the value. -/
def Latest (effect : Event → Option (Option Value)) (events : List Event) (value : Value) : Prop :=
  ∃ before event later, events = before ++ event::later ∧ effect event = some (some value) ∧
    ∀ other ∈ later, effect other = none

theorem behind_snoc : behind effect (events ++ [event]) = (effect event).getD (behind effect events) := by
  rw [behind,List.foldl_append]
  rfl

theorem latest_nil : ¬ Latest effect [] value := by
  rintro ⟨before,event,later,split,_⟩
  simp at split

theorem latest_snoc : Latest effect (events ++ [event]) value ↔
    effect event = some (some value) ∨ effect event = none ∧ Latest effect events value := by
  constructor
  · rintro ⟨before,writer,later,split,wrote,quiet⟩
    rcases List.eq_nil_or_concat later with rfl | ⟨rest,last,rfl⟩
    · obtain rfl := (List.cons.inj (List.append_inj_right' split rfl)).1
      exact .inl wrote
    · have parts : events ++ [event] = (before ++ writer::rest) ++ [last] := by simpa using split
      obtain ⟨rfl,same⟩ := List.append_inj' parts rfl
      obtain rfl := (List.cons.inj same).1
      exact .inr ⟨quiet _ (by simp),before,writer,rest,rfl,wrote,fun other member => quiet other (by simp [member])⟩
  · rintro (wrote | ⟨quiet,before,writer,later,rfl,wrote,silent⟩)
    · exact ⟨events,event,[],rfl,wrote,nofun⟩
    · refine ⟨before,writer,later ++ [event],by simp,wrote,fun other member => ?_⟩
      rcases List.mem_append.mp member with inside | last
      · exact silent other inside
      · rw [List.mem_singleton.mp last,quiet]

theorem behind_iff : behind effect events = some value ↔ Latest effect events value := by
  induction events using List.reverseRecOn with
  | nil => exact ⟨nofun,fun latest => absurd latest latest_nil⟩
  | append_singleton events event ih =>
    rw [behind_snoc,latest_snoc,← ih]
    cases effect event <;> simp

end AtlasNet.Foundation.Register
