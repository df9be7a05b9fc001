import AtlasNet.InterlinkRuns

/-! Whether the lookups in the table of connections are unambiguous: at most one entry
for an internal target and at most one for a handle. -/
namespace AtlasNet.Interlink
open Foundation Foundation.Program

structure Unambiguous (node : Interlink) : Prop where
  targets : ∀ target : NetworkIdentity, target.IsInternal = true →
    node.Connections.countP (Connection.isTarget target) ≤ 1
  handles : ∀ h : HSteamNetConnection, node.Connections.countP (Connection.isHandle h) ≤ 1

/-- An incoming connection that is accepted presents no internal identity that the
table already holds. -/
def FirstContact (node : Interlink) : Event → Prop
  | .connecting info true => node.findHandle info.m_hConn = none →
    ∀ ID, identityOf info.m_identityRemote = .ok ID → ID.IsInternal = true → node.findTarget ID = none
  | _ => True

def Apart (targets : List NetworkIdentity) : Prop :=
  targets.Pairwise (fun a b => a.IsInternal = true → (a == b) = false)

def targets (table : List Connection) : List NetworkIdentity := table.map (·.target)

section Targets
variable {node : Interlink} {event : Event} {table : List Connection}

theorem absent_target {id : NetworkIdentity} (absent : node.findTarget id = none) :
    ∀ a ∈ targets node.Connections, (a == id) = false := by
  intro a member
  obtain ⟨c,inside,rfl⟩ := List.mem_map.mp member
  exact Table.find_none.mp absent c inside

theorem unsettled_absent {id : NetworkIdentity} (allSettled : ∀ c ∈ node.Connections, settled c = true)
    (unsettled : (node.findTarget id).any settled = false) : node.findTarget id = none := by
  cases found : node.findTarget id with
  | none => rfl
  | some c =>
    rw [found,Option.any_some,allSettled c (Table.find_member found)] at unsettled
    cases unsettled

theorem apart_append {targets : List NetworkIdentity} {id : NetworkIdentity} (apart : Apart targets)
    (new : ∀ a ∈ targets, a.IsInternal = true → (a == id) = false) : Apart (targets ++ [id]) := by
  refine List.pairwise_append.mpr ⟨apart,List.pairwise_singleton _ _,?_⟩
  intro a member b last
  rw [List.mem_singleton.mp last]
  exact new a member

theorem internal_external {a b : NetworkIdentity} (internal : a.IsInternal = true) (external : b.IsInternal = false) :
    (a == b) = false := by
  by_contra same
  rw [Bool.not_eq_false] at same
  rw [NetworkIdentity.IsInternal_congr same,external] at internal
  cases internal

theorem apart_welcomed {h : HSteamNetConnection} {v : Connection} {Gen : UUID}
    (found : Table.find (Connection.isHandle h) table = some v) (apart : Apart (targets table)) :
    Apart (targets (Table.modify (Connection.isHandle h) (welcomed v Gen) table)) := by
  obtain ⟨before,after,rfl,chosen,none⟩ := Table.find_split found
  rw [Table.modify_split _ chosen none]
  simp only [targets,List.map_append,List.map_cons] at apart ⊢
  by_cases unnamed : v.IsInternal = false ∧ v.target.ID.is_nil = true
  · have client : (welcomed v Gen v).target.IsInternal = false := (IsInternal_welcomed v Gen).trans unnamed.1
    refine Table.pairwise_replace apart ?_ ?_
    · exact fun a _ _ internal => internal_external internal client
    · exact fun b _ _ internal => absurd (internal.symm.trans client) (by decide)
  · have same : (welcomed v Gen v).target = v.target := by
      rw [welcomed,if_neg unnamed]
      rfl
    rw [same]
    exact apart

theorem Changed.apart (changed : Changed node event table) (sound : Sound node) (first : FirstContact node event)
    (apart : Apart (targets node.Connections)) : Apart (targets table) := by
  cases changed with
  | same => exact apart
  | dialled _ id address kind unsettled =>
    have absent := absent_target (unsettled_absent sound.settled unsettled)
    rw [targets,List.map_append]
    exact apart_append apart (fun a member _ => absent a member)
  | erased _ chosen => exact apart.sublist ((Table.erase_sublist _ _).map _)
  | generated results =>
    rw [targets,loop_column (·.target) (fun _ _ => rfl)]
    exact apart
  | contacted info accepted =>
    have column := Table.modify_column (Connection.isHandle info.m_hConn) (Connection.SetNewState .eConnecting)
      (·.target) node.Connections (fun _ => rfl)
    rw [targets,column]
    exact apart
  | accepted info ID unknown decodes =>
    rw [targets,List.map_append]
    refine apart_append apart (fun a member internal => ?_)
    cases which : ID.IsInternal with
    | true => exact absent_target (first unknown ID decodes which) a member
    | false => exact internal_external internal which
  | connected info Gen outcome v found => exact apart_welcomed found apart

end Targets

theorem unambiguous {node : Interlink} (sound : Sound node) (apart : Apart (targets node.Connections)) :
    Unambiguous node := by
  constructor
  · intro target internal
    refine Table.countP_le_one _ (List.pairwise_map.mp apart) ?_
    intro a b same other distinct
    have together : (a.target == b.target) = true := BEq.trans same (BEq.symm other)
    have inside : a.target.IsInternal = true := (NetworkIdentity.IsInternal_congr same).trans internal
    rw [distinct inside] at together
    cases together
  · exact sound.handle_once

section Runs
variable [Platform]

/-- As long as nobody who is in the table presents his identity again, the lookups
stay unambiguous. -/
theorem lookups_unambiguous {run : Run}
    (reached : interlink.ReachableWhile (fun run event => FirstContact run.node event) run) :
    Unambiguous run.node := by
  have invariant : Sound run.node ∧ Apart (targets run.node.Connections) := by
    apply reached.invariant (fun run => Sound run.node ∧ Apart (targets run.node.Connections))
    · intro state start
      refine ⟨start.1.sound,?_⟩
      rw [start.1.disconnected]
      exact List.Pairwise.nil
    · intro state event next before first taken
      obtain ⟨sound,apart⟩ := before
      have changed := (step_changes sound taken.2.1).1
      exact ⟨step_sound sound taken.1 taken.2.1,changed.apart sound first apart⟩
  exact unambiguous invariant.1 invariant.2

end Runs

def twoPeers : Interlink :=
  ((started ⟨.eProxy,.nil⟩).node.insert (incoming (contact 1 .MakeIDWatchDog {}) .MakeIDWatchDog)).insert
    (incoming (contact 2 .MakeIDCartograph {}) .MakeIDCartograph)

theorem lookups_unambiguous_twoPeers : Unambiguous twoPeers := by
  refine @lookups_unambiguous fnvPlatform {node := twoPeers} ?_
  let _ := fnvPlatform
  refine .step _ _ _ (.step _ _ _ (.initial _ (started_initial ⟨.eProxy,.nil⟩)) ?_ (step_contact rfl)) ?_
    (step_contact rfl)
  · intro _ ID decodes _
    rfl
  · intro _ ID decodes _
    rw [contact,identityOf_ownIdentity] at decodes
    cases decodes
    decide +kernel

/-- A server that connects twice has two entries. -/
theorem repeated_contact_ambiguous : ∃ run, (@interlink fnvPlatform).Reachable run ∧ ¬ Unambiguous run.node := by
  let _ := fnvPlatform
  refine ⟨_,.step _ (Event.connecting (contact 2 .MakeIDWatchDog {}) true) _
    (.step _ (Event.connecting (contact 1 .MakeIDWatchDog {}) true) _
      (.initial _ (started_initial ⟨.eProxy,.nil⟩)) trivial (step_contact rfl)) trivial (step_contact rfl),?_⟩
  intro unambiguous
  have once := unambiguous.targets .MakeIDWatchDog rfl
  simp [started,incoming,contact,Connection.isTarget] at once

end AtlasNet.Interlink
