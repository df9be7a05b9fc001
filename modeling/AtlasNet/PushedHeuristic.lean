import AtlasNet.HeuristicShapes

/-! A heuristic that was pushed is pulled back from the manifest, and its bounds are decoded
from the writers that `SerializeBounds` gives them. -/
namespace AtlasNet
open Foundation Foundation.Program Foundation.Redis HeuristicManifest

namespace GridHeuristic

/-- Whatever the manifest holds, what is pulled after the push has the quads that were pushed. -/
def ReturnsAsPushed [Platform] (h : GridHeuristic) : Prop :=
  ∀ db, Tabled db → ∃ next, exec (PushHeuristic h) db = (.ok (),next) ∧ ∃ pulled, exec PullHeuristic next = (.ok pulled,next) ∧
    pulled.quads = h.quads

/-- The entries of `SerializeBounds` stand for the quads, each under its ID. -/
structure BoundsDecode (h : GridHeuristic) : Prop where
  entered : ∀ quad ∈ h.quads, ∃ entry ∈ h.SerializeBounds, entry.1 = quad.ID
  decoded : ∀ entry ∈ h.SerializeBounds, ∃ quad ∈ h.quads, quad.ID = entry.1 ∧
    (exec GridShape.Deserialize {p := entry.2.buf}).1 = .ok quad

theorem exec_Deserialize_shape (quad : GridShape) : (exec GridShape.Deserialize {p := (quad.Serialize {}).buf}).1 = .ok quad := by
  have read := exec_written GridShape.accepts quad.written []
  rw [List.append_nil] at read
  rw [read]

theorem boundsDecode {h : GridHeuristic} (distinct : (h.quads.map (·.ID)).Nodup) : BoundsDecode h := by
  have alone := SerializeBounds_alone distinct
  constructor
  · intro quad member
    refine ⟨(quad.ID,quad.Serialize {}),?_,rfl⟩
    rw [alone]
    exact List.mem_map_of_mem member
  · intro entry member
    rw [alone] at member
    obtain ⟨quad,inside,rfl⟩ := List.mem_map.mp member
    exact ⟨quad,inside,rfl,exec_Deserialize_shape quad⟩

variable [Platform]

theorem returnsAsPushed_of_countable {h : GridHeuristic} (storable : Storable h.quads) (countable : h.quads.length < 2^31) :
    ReturnsAsPushed h := by
  intro db tabled
  obtain ⟨fields,ran,pushed,_⟩ := pushHeuristic_tabled h tabled
  have pulled := exec_PullHeuristic pushed ⟨fields,withJson_json _ _ _⟩
  rw [h.exec_Deserialize storable countable] at pulled
  exact ⟨_,ran,h,pulled,rfl⟩

theorem countable_of_returnsAsPushed {h : GridHeuristic} (storable : Storable h.quads) (returns : ReturnsAsPushed h) :
    h.quads.length < 2^31 := by
  by_contra many
  have tabled : Tabled Database.empty := .inl rfl
  obtain ⟨next,ran,heuristic,pulled,_⟩ := returns _ tabled
  obtain ⟨fields,done,pushed,_⟩ := pushHeuristic_tabled h tabled
  obtain rfl : next = _ := (Prod.mk.inj (ran.symm.trans done)).2
  rw [exec_PullHeuristic pushed ⟨fields,withJson_json _ _ _⟩] at pulled
  exact h.Deserialize_overflows storable (not_lt.mp many) heuristic (Prod.mk.inj pulled).1

/-- The bounds are decoded in any case, and the heuristic comes back where its quads can be
counted by an `int`. -/
theorem returned_as_pushed_iff {h : GridHeuristic} (storable : Storable h.quads) :
    ReturnsAsPushed h ∧ ((h.quads.map (·.ID)).Nodup → BoundsDecode h) ↔ h.quads.length < 2^31 := by
  constructor
  · exact fun ⟨returns,_⟩ => countable_of_returnsAsPushed storable returns
  · exact fun countable => ⟨returnsAsPushed_of_countable storable countable,boundsDecode⟩

omit [Platform]

theorem returned_as_pushed_Compute : let _ := fnvPlatform
    ReturnsAsPushed (Compute {}) ∧ (((Compute {}).quads.map (·.ID)).Nodup → BoundsDecode (Compute {})) := by
  intro _
  exact (returned_as_pushed_iff storable_Compute).mpr (by decide)

end GridHeuristic

end AtlasNet
