import AtlasNet.InterlinkRuns

/-! Which peers an incoming connection is stored as internal for. -/
namespace AtlasNet.Interlink
open Foundation Foundation.Program

def serverTypes : List NetworkIdentityType := [.eShard,.eWatchDog,.eCartograph,.eProxy]

def KnownServer (node : Interlink) (ID : NetworkIdentity) : Prop :=
  ID.type ∈ serverTypes ∧ ServerRegistry.Registered ID node.db

/-- The presented bytes decode to a server that the registry contains. -/
def Vouched (node : Interlink) (remote : SteamNetworkingIdentity) : Prop :=
  ∃ bytes ID, remote.GetGenericBytes = some bytes ∧
    (exec NetworkIdentity.Deserialize {p := bytes}).1 = .ok ID ∧ KnownServer node ID

/-- The callback returns, and what it stores is internal for known servers only. -/
def AdmitsServersOnly (node : Interlink) (info : CallbackInfo) (accepted : Bool) : Prop :=
  ∃ next, exec (CallbackOnConnecting info accepted) node = (.ok (),next) ∧
    ∀ c, next.Connections = node.Connections ++ [c] →
      (c.kind = .eInternal ∨ c.IsInternal = true → Vouched node info.m_identityRemote) ∧
      (¬ Vouched node info.m_identityRemote → c.kind = .eExternal ∧ c.IsInternal = false)

/-- The connection has an entry, or is not accepted, or its peer presents a client or
a known server; bytes that are presented begin with an identity. -/
def Admissible (node : Interlink) (info : CallbackInfo) (accepted : Bool) : Prop :=
  (node.findHandle info.m_hConn).isSome ∨
    match info.m_identityRemote.GetGenericBytes with
    | none => accepted = false
    | some bytes => ∃ (ID : NetworkIdentity) (rest : Bytes), bytes = (ID.Serialize {}).buf ++ rest ∧
      (accepted = false ∨ ID.type = .eGameClient ∨ KnownServer node ID)

section Decisions
variable {node : Interlink} {info : CallbackInfo} {accepted : Bool}

theorem append_single_inj {α : Type} {l : List α} {a b : α} (same : l ++ [a] = l ++ [b]) : a = b :=
  (List.cons.inj (List.append_cancel_left same)).1

theorem append_single_ne {α : Type} {l : List α} {a : α} : l ≠ l ++ [a] := by
  intro same
  have lengths := congrArg List.length same
  simp at lengths

theorem incoming_kind (ID : NetworkIdentity) :
    (incoming info ID).kind = if ID.IsInternal then .eInternal else .eExternal := rfl

theorem incoming_IsInternal (ID : NetworkIdentity) : (incoming info ID).IsInternal = ID.IsInternal := rfl

/-- The two halves of what is asked of a stored connection are one. -/
theorem stored_internal (ID : NetworkIdentity) :
    ((incoming info ID).kind = .eInternal ∨ (incoming info ID).IsInternal = true) ↔ ID.IsInternal = true := by
  rw [incoming_kind,incoming_IsInternal]
  cases ID.IsInternal <;> simp

theorem stored_external (ID : NetworkIdentity) :
    ((incoming info ID).kind = .eExternal ∧ (incoming info ID).IsInternal = false) ↔ ID.IsInternal = false := by
  rw [incoming_kind,incoming_IsInternal]
  cases ID.IsInternal <;> simp

theorem admits_known {v : Connection} (found : node.findHandle info.m_hConn = some v) :
    AdmitsServersOnly node info accepted := by
  refine ⟨_,exec_CallbackOnConnecting_known found,fun c stored => ?_⟩
  have lengths := congrArg List.length stored
  rw [modifyHandle_Connections,Table.length_modify,List.length_append,List.length_singleton] at lengths
  omega

theorem admits_new {ID : NetworkIdentity} (unknown : node.findHandle info.m_hConn = none)
    (decodes : identityOf info.m_identityRemote = .ok ID) :
    AdmitsServersOnly node info accepted ↔
      accepted = false ∨ ID.type = .eGameClient ∨ Vouched node info.m_identityRemote := by
  have ran := exec_CallbackOnConnecting_new accepted unknown decodes
  cases accepted with
  | false =>
    exact ⟨fun _ => .inl rfl,fun _ => ⟨_,ran,fun c stored => absurd stored append_single_ne⟩⟩
  | true =>
    rw [if_pos rfl] at ran
    constructor
    · rintro ⟨next,same,stored⟩
      obtain rfl := (Prod.mk.inj (ran.symm.trans same)).2
      by_cases client : ID.type = .eGameClient
      · exact .inr (.inl client)
      · have internal : ID.IsInternal = true := decide_eq_true client
        exact .inr (.inr ((stored (incoming info ID) rfl).1 ((stored_internal ID).mpr internal)))
    · intro rightly
      refine ⟨_,ran,fun c stored => ?_⟩
      obtain rfl : incoming info ID = c := append_single_inj stored
      rcases rightly with never | client | vouched
      · cases never
      · have external := (NetworkIdentity.external_iff ID).mpr client
        refine ⟨fun internal => ?_,fun _ => (stored_external ID).mpr external⟩
        rw [stored_internal,external] at internal
        cases internal
      · exact ⟨fun _ => vouched,fun unvouched => absurd vouched unvouched⟩

theorem vouched_iff {remote : SteamNetworkingIdentity} {bytes : Bytes} {ID : NetworkIdentity}
    (presents : remote.GetGenericBytes = some bytes)
    (decodes : (exec NetworkIdentity.Deserialize {p := bytes}).1 = .ok ID) :
    Vouched node remote ↔ KnownServer node ID := by
  constructor
  · rintro ⟨own,other,some,decoded,known⟩
    rw [presents] at some
    cases some
    rw [decodes] at decoded
    cases decoded
    exact known
  · exact fun known => ⟨bytes,ID,presents,decodes,known⟩

theorem admits_anonymous (unknown : node.findHandle info.m_hConn = none) (presents : info.m_identityRemote.GetGenericBytes = none) :
    AdmitsServersOnly node info accepted ↔ accepted = false := by
  have decodes : identityOf info.m_identityRemote = .ok {} := by rw [identityOf,presents]
  have unvouched : ¬ Vouched node info.m_identityRemote := by
    rintro ⟨bytes,ID,some,_⟩
    rw [presents] at some
    cases some
  have type : ¬ ({} : NetworkIdentity).type = .eGameClient := by decide
  rw [admits_new unknown decodes]
  simp only [unvouched,type,or_false]

/-- Bytes that begin with an identity are judged by it, and shorter ones end the callback. -/
theorem admits_presented {bytes : Bytes} (unknown : node.findHandle info.m_hConn = none)
    (presents : info.m_identityRemote.GetGenericBytes = some bytes) :
    AdmitsServersOnly node info accepted ↔ ∃ (ID : NetworkIdentity) (rest : Bytes), bytes = (ID.Serialize {}).buf ++ rest ∧
      (accepted = false ∨ ID.type = .eGameClient ∨ KnownServer node ID) := by
  by_cases long : 20 ≤ bytes.length
  · obtain ⟨ID,rest,rfl⟩ := NetworkIdentity.starts_with bytes long
    have short := SteamNetworkingIdentity.GetGenericBytes_short presents
    rw [List.length_append,NetworkIdentity.Serialize_length] at short
    have written := NetworkIdentity.Deserialize_written ID rest (by omega)
    have decodes : identityOf info.m_identityRemote = .ok ID := by
      rw [identityOf,presents]
      exact written
    rw [admits_new unknown decodes,vouched_iff presents written]
    constructor
    · exact fun rightly => ⟨ID,rest,rfl,rightly⟩
    · rintro ⟨other,more,same,rightly⟩
      have lengths := congrArg List.length same
      simp only [List.length_append,NetworkIdentity.Serialize_length] at lengths
      have again := NetworkIdentity.Deserialize_written other more (by omega)
      rw [← same,written] at again
      cases again
      exact rightly
  · obtain ⟨what,broken⟩ := NetworkIdentity.Deserialize_short bytes (by omega)
    have fails : identityOf info.m_identityRemote = .error (.byteError what) := by
      rw [identityOf,presents]
      exact broken
    constructor
    · rintro ⟨next,ran,_⟩
      rw [exec_CallbackOnConnecting_error unknown fails] at ran
      cases (Prod.mk.inj ran).1
    · rintro ⟨ID,rest,rfl,_⟩
      rw [List.length_append,NetworkIdentity.Serialize_length] at long
      omega

/-- An incoming connection is admitted rightly in exactly these cases. -/
theorem admits_exactly (node : Interlink) (info : CallbackInfo) (accepted : Bool) :
    AdmitsServersOnly node info accepted ↔ Admissible node info accepted := by
  cases found : node.findHandle info.m_hConn with
  | some v => exact ⟨fun _ => .inl (by rw [found]; rfl),fun _ => admits_known found⟩
  | none =>
    unfold Admissible
    rw [found]
    simp only [Option.isSome_none,Bool.false_eq_true,false_or]
    cases presents : info.m_identityRemote.GetGenericBytes with
    | none => exact admits_anonymous found presents
    | some bytes => exact admits_presented found presents

/-- A peer without an identity is stored as internal. -/
theorem anonymous_admitted : ¬ AdmitsServersOnly (started ⟨.eProxy,.nil⟩).node
    {m_hConn := 1,m_addrRemote := {},m_identityRemote := .invalid} true := by
  rw [admits_anonymous rfl rfl]
  exact Bool.noConfusion

end Decisions

end AtlasNet.Interlink
