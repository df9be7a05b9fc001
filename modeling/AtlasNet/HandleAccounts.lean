import AtlasNet.InterlinkRuns

/-! The handles of the transport over the runs of Interlink: those it has given out, those
that Interlink records, and those that Interlink closes. -/
namespace AtlasNet.Interlink
open Foundation Foundation.Program

/-- A node with the handles that the transport has given out and was not told to close since. -/
structure Account where
  node : Interlink
  live : List HSteamNetConnection := []

inductive Operation
  | run (event : Event)
  | shutdown

def operate [Platform] : Operation → Program Interlink Unit
  | .run event => act event
  | .shutdown => Shutdown

def preConnecting (node : Interlink) : List Connection :=
  node.Connections.filter (fun c => c.state = .ePreConnecting)

/-- The handles that `ConnectByIPAddress` yields, or that an incoming connection presents. -/
def obtained (node : Interlink) : Operation → List HSteamNetConnection
  | .run (.generate results) => results.filterMap id
  | .run (.connecting info _) => if (node.findHandle info.m_hConn).isSome then [] else [info.m_hConn]
  | _ => []

/-- Each attempt to connect is answered, with no handle that is in use. -/
def Answered (s : Account) : Operation → Prop
  | .run (.generate results) => results.length = (preConnecting s.node).length ∧ (results.filterMap id).Nodup ∧
      ∀ h ∈ results.filterMap id, h ∉ s.live
  | _ => True

/-- What calls of `CloseConnection` close; where no handle was set the argument is whatever
stood in the entry. -/
def closedBy (indeterminate : HSteamNetConnection) (calls : List (Option HSteamNetConnection)) : List HSteamNetConnection :=
  calls.map (·.getD indeterminate)

def handling [Platform] : System Account Operation where
  Initial s := Fresh s.node ∧ s.node.closed = [] ∧ s.live = []
  Step s operation next := Answered s operation ∧ exec (operate operation) s.node = (.ok (),next.node) ∧
    ∃ calls indeterminate, next.node.closed = s.node.closed ++ calls ∧
      next.live = (s.live ++ obtained s.node operation).filter (· ∉ closedBy indeterminate calls)

/-- Every handle in use is recorded, and every handle that is recorded is in use. -/
structure Accounted (s : Account) : Prop where
  undropped : ∀ h ∈ s.live, h ∈ handles s.node.Connections
  unclosed : ∀ h ∈ handles s.node.Connections, h ∈ s.live

/-- No handle is overwritten: an entry that still waits with a handle is given no other. No
local problem concerns an entry. An entry that is closed has a handle. -/
def Careful (s : Account) : Operation → Prop
  | .run (.generate results) =>
    ∀ attempt ∈ (preConnecting s.node).zip results, attempt.1.SteamConnection = none ∨ attempt.2 = none
  | .run (.problem h) => s.node.findHandle h = none
  | .run (.close id) => ∀ it, s.node.findTarget id = some it → it.SteamConnection ≠ none
  | _ => True

section Tables
variable {table : List Connection} {h : HSteamNetConnection}

theorem mem_handles_erase {chosen : Connection → Bool} {c : Connection} (distinct : (handles table).Nodup)
    (found : Table.find chosen table = some c) :
    h ∈ handles (Table.erase chosen table) ↔ h ∈ handles table ∧ c.SteamConnection ≠ some h := by
  obtain ⟨before,after,rfl,holds,none⟩ := Table.find_split found
  have whole : handles (before ++ c::after) = handles before ++ (c.SteamConnection.toList ++ handles after) := by
    rw [handles_append,handles_cons]
  rw [Table.erase_split holds none,handles_append,whole]
  rw [whole] at distinct
  obtain ⟨_,tail,apart⟩ := List.nodup_append.mp distinct
  obtain ⟨_,_,separate⟩ := List.nodup_append.mp tail
  simp only [List.mem_append,Option.mem_toList]
  constructor
  · rintro (first | last)
    · exact ⟨.inl first,fun mine => apart h first h (by simp [mine]) rfl⟩
    · exact ⟨.inr (.inr last),fun mine => separate h (by simp [mine]) h last rfl⟩
  · rintro ⟨first | mine | last,other⟩
    · exact .inl first
    · exact absurd mine other
    · exact .inr last

/-- Where no handle is overwritten the loop keeps all handles and adds those of the results. -/
theorem mem_handles_loop (table : List Connection) (results : List (Option HSteamNetConnection))
    (answered : results.length = (table.filter (fun c => c.state = .ePreConnecting)).length)
    (careful : ∀ attempt ∈ (table.filter (fun c => c.state = .ePreConnecting)).zip results,
      attempt.1.SteamConnection = none ∨ attempt.2 = none) :
    h ∈ handles (GenerateNewConnections_loop table results) ↔ h ∈ handles table ∨ h ∈ results.filterMap id := by
  induction table generalizing results with
  | nil =>
    obtain rfl := List.length_eq_zero_iff.mp answered
    simp [GenerateNewConnections_loop,handles]
  | cons c rest ih =>
    by_cases waits : c.state = .ePreConnecting
    · rw [List.filter_cons_of_pos (by simpa using waits)] at answered careful
      obtain ⟨result,others,rfl⟩ := List.exists_cons_of_length_pos (l := results) (by simp [answered])
      have rest := ih others (Nat.succ.inj answered) (fun attempt member => careful attempt (List.mem_cons_of_mem _ member))
      have mine : c.SteamConnection = none ∨ result = none := careful (c,result) List.mem_cons_self
      rw [GenerateNewConnections_loop,if_pos waits,List.head?_cons,List.tail_cons,handles_cons,handles_cons]
      simp only [List.mem_append,rest,Option.mem_toList]
      cases result with
      | none => simp [generated,or_assoc]
      | some conn =>
        rcases mine with unset | never
        · simp [generated,unset,or_left_comm,eq_comm]
        · cases never
    · rw [List.filter_cons_of_neg (by simpa using waits)] at answered careful
      rw [GenerateNewConnections_loop,if_neg waits,handles_cons,handles_cons]
      simp only [List.mem_append,ih results answered careful,or_assoc]

end Tables

section Steps
variable [Platform] {node next : Interlink}

/-- What a step that returns has closed, and what it has done to the recorded handles. -/
def Accounts (node next : Interlink) (operation : Operation) (calls : List (Option HSteamNetConnection)) : Prop :=
  next.closed = node.closed ++ calls ∧ none ∉ calls ∧
    ∀ h, h ∈ handles next.Connections ↔ (h ∈ handles node.Connections ∨ h ∈ obtained node operation) ∧ some h ∉ calls

omit [Platform] in
theorem accounts_quiet {operation : Operation} (unclosed : next.closed = node.closed)
    (same : handles next.Connections = handles node.Connections) (none : obtained node operation = []) :
    Accounts node next operation [] := by
  refine ⟨by rw [unclosed,List.append_nil],List.not_mem_nil,fun h => ?_⟩
  rw [same,none]
  simp

omit [Platform] in
theorem Dialled.accounts {id : NetworkIdentity} (dialled : Dialled id node next) :
    next.closed = node.closed ∧ handles next.Connections = handles node.Connections := by
  cases dialled with
  | left => exact ⟨rfl,rfl⟩
  | inserted address internal unsettled => exact ⟨rfl,(handles_append _ _).trans (List.append_nil _)⟩

theorem Sent.accounts {who : NetworkIdentity} {message : Outgoing} (sent : Sent who message node next) :
    next.closed = node.closed ∧ handles next.Connections = handles node.Connections := by
  refine ⟨sent.kept.closed,?_⟩
  cases sent with
  | handed => rfl
  | queued middle waiting dialled => exact dialled.accounts.2

omit [Platform] in
theorem connecting_accounts {info : CallbackInfo} {accepted : Bool}
    (ran : exec (CallbackOnConnecting info accepted) node = (.ok (),next)) :
    ∃ calls, Accounts node next (.run (.connecting info accepted)) calls := by
  rcases CallbackOnConnecting_returned ran with ⟨unknown,_,rfl⟩ | ⟨known,rfl⟩ | ⟨ID,unknown,_,rfl,rfl⟩
  · have absent := handles_absent unknown
    refine ⟨[some info.m_hConn],rfl,by simp,fun h => ?_⟩
    simp only [obtained,unknown,closing]
    by_cases same : h = info.m_hConn
    · subst same
      simp [absent]
    · simp [same]
  · refine ⟨[],accounts_quiet rfl (handles_modify _ (·.SetNewState .eConnecting) (fun _ => rfl) _) ?_⟩
    simp [obtained,known]
  · refine ⟨[],(List.append_nil _).symm,List.not_mem_nil,fun h => ?_⟩
    simp [obtained,unknown,handles,incoming]

theorem run_accounts (sound : Sound node) {live : List HSteamNetConnection} {event : Event}
    (answered : Answered ⟨node,live⟩ (.run event)) (careful : Careful ⟨node,live⟩ (.run event))
    (ran : exec (act event) node = (.ok (),next)) : ∃ calls, Accounts node next (.run event) calls := by
  cases event with
  | send who packet sendFlag =>
    obtain ⟨unclosed,same⟩ := (SendMessage_returned ran).2.accounts
    exact ⟨[],accounts_quiet unclosed same rfl⟩
  | establishTo id =>
    obtain ⟨_,established⟩ := discard_returned ran
    obtain ⟨unclosed,same⟩ := (EstablishConnectionTo_returned established).accounts
    exact ⟨[],accounts_quiet unclosed same rfl⟩
  | establishAtIP id address =>
    obtain ⟨_,established⟩ := discard_returned ran
    rcases EstablishConnectionAtIP_returned established with rfl | ⟨_,rfl⟩
    · exact ⟨[],accounts_quiet rfl rfl rfl⟩
    · exact ⟨[],accounts_quiet rfl ((handles_append _ _).trans (List.append_nil _)) rfl⟩
  | close id =>
    obtain rfl := (Prod.mk.inj ((exec_CloseConnectionTo id node).symm.trans ran)).2
    cases found : node.findTarget id with
    | none => exact ⟨[],accounts_quiet rfl rfl rfl⟩
    | some it =>
      have held := careful it found
      refine ⟨[it.SteamConnection],rfl,fun member => held (List.mem_singleton.mp member).symm,fun h => ?_⟩
      refine (mem_handles_erase sound.handles found).trans ?_
      simp [obtained,eq_comm]
  | generate results =>
    obtain rfl := (Prod.mk.inj ran).2
    refine ⟨[],(List.append_nil _).symm,List.not_mem_nil,fun h => ?_⟩
    refine (mem_handles_loop _ results answered.1 careful).trans ?_
    simp [obtained]
  | connecting info accepted => exact connecting_accounts ran
  | connected info Gen outcome =>
    obtain ⟨v,greeted,found,greeting,changed,same,kept⟩ := connected_changes sound ran
    have unclosed := kept.closed.trans greeting.fields.2.2.2
    refine ⟨[],accounts_quiet unclosed ?_ rfl⟩
    rw [same,greeting.table]
    exact handles_modify _ _ (SteamConnection_welcomed v Gen) _
  | closedByPeer h =>
    obtain rfl := (Prod.mk.inj ((exec_CallbackOnClosedByPear h node).symm.trans ran)).2
    cases found : node.findHandle h with
    | none => exact ⟨[],accounts_quiet rfl rfl rfl⟩
    | some it =>
      have held := (Connection.isHandle_iff h it).mp (Table.find_chosen found)
      refine ⟨[some h],rfl,by simp,fun g => ?_⟩
      refine (mem_handles_erase sound.handles found).trans ?_
      simp [obtained,held,eq_comm]
  | problem h =>
    obtain rfl := (Prod.mk.inj ran).2
    have same : Table.erase (Connection.isHandle h) node.Connections = node.Connections := Table.erase_absent careful
    exact ⟨[],accounts_quiet rfl (congrArg handles same) rfl⟩
  | receive messages =>
    rw [ReceiveMessages_returned ran]
    exact ⟨[],accounts_quiet rfl rfl rfl⟩
  | servers entries =>
    obtain rfl := (Prod.mk.inj ran).2
    exact ⟨[],accounts_quiet rfl rfl rfl⟩

theorem operation_accounts {s : Account} {operation : Operation} (sound : Sound s.node)
    (answered : Answered s operation) (careful : Careful s operation)
    (ran : exec (operate operation) s.node = (.ok (),next)) : ∃ calls, Accounts s.node next operation calls := by
  cases operation with
  | run event => exact run_accounts sound answered careful ran
  | shutdown =>
    obtain rfl := (Prod.mk.inj ran).2
    exact ⟨[],accounts_quiet rfl rfl rfl⟩

theorem operation_sound {s : Account} {operation : Operation} (sound : Sound s.node) (accounted : Accounted s)
    (answered : Answered s operation) (ran : exec (operate operation) s.node = (.ok (),next)) : Sound next := by
  cases operation with
  | shutdown =>
    obtain rfl := (Prod.mk.inj ran).2
    exact sound
  | run event =>
    refine step_sound sound ?_ ran
    cases event with
    | generate results => exact ⟨answered.2.1,fun h new recorded => answered.2.2 h new (accounted.unclosed h recorded)⟩
    | _ => trivial

omit [Platform] in
theorem mem_closedBy {indeterminate h : HSteamNetConnection} {calls : List (Option HSteamNetConnection)}
    (set : none ∉ calls) : h ∈ closedBy indeterminate calls ↔ some h ∈ calls := by
  rw [closedBy,List.mem_map]
  constructor
  · rintro ⟨_ | conn,member,rfl⟩
    · exact absurd member set
    · exact member
  · exact fun member => ⟨some h,member,rfl⟩

theorem accounted_step {s after : Account} {operation : Operation} (sound : Sound s.node) (accounted : Accounted s)
    (careful : Careful s operation) (taken : handling.Step s operation after) : Accounted after := by
  obtain ⟨answered,ran,calls,indeterminate,closed,live⟩ := taken
  obtain ⟨made,same,set,recorded⟩ := operation_accounts sound answered careful ran
  obtain rfl := List.append_cancel_left (same.symm.trans closed)
  have used (h : HSteamNetConnection) : h ∈ after.live ↔ (h ∈ s.live ∨ h ∈ obtained s.node operation) ∧ some h ∉ made := by
    rw [live,List.mem_filter,List.mem_append,decide_eq_true_eq,mem_closedBy set]
  refine ⟨fun h member => ?_,fun h member => ?_⟩
  · obtain ⟨before,unclosed⟩ := (used h).mp member
    exact (recorded h).mpr ⟨before.imp_left (accounted.undropped h),unclosed⟩
  · obtain ⟨before,unclosed⟩ := (recorded h).mp member
    exact (used h).mpr ⟨before.imp_left (accounted.unclosed h),unclosed⟩

/-- In every careful run each handle that the transport gave out is recorded or was closed,
and none was closed while it is recorded. -/
theorem handles_accounted {s : Account} (reached : handling.ReachableWhile Careful s) : Accounted s := by
  have both : Sound s.node ∧ Accounted s := by
    apply reached.invariant (fun s => Sound s.node ∧ Accounted s)
    · rintro s ⟨fresh,_,none⟩
      refine ⟨fresh.sound,?_,?_⟩
      · simp [none]
      · simp [fresh.disconnected,handles]
    · rintro s operation after ⟨sound,accounted⟩ careful taken
      exact ⟨operation_sound sound accounted taken.1 taken.2.1,accounted_step sound accounted careful taken⟩
  exact both.2

def accepting : Account where
  node := (started (.MakeIDShard .nil)).node.insert (incoming (contact 1 .MakeIDWatchDog {}) .MakeIDWatchDog)
  live := [1]

theorem reachable_accepting : handling.ReachableWhile Careful accepting := by
  have start : handling.ReachableWhile Careful ⟨(started (.MakeIDShard .nil)).node,[]⟩ :=
    .initial _ ⟨(started_initial (.MakeIDShard .nil)).1,rfl,rfl⟩
  refine .step _ (Operation.run (.connecting (contact 1 .MakeIDWatchDog {}) true)) _ start trivial ⟨trivial,?_,[],0,rfl,rfl⟩
  exact exec_CallbackOnConnecting_new true rfl (identityOf_ownIdentity .MakeIDWatchDog)

omit [Platform] in
/-- The watchdog closes the connection, and so does the shard. -/
theorem handles_accounted_closed : ∃ s : Account, s.node.closed = [some 1] ∧ Accounted s := by
  let _ := fnvPlatform
  refine ⟨⟨(accepting.node.closing (some 1)).eraseHandle 1,[]⟩,rfl,handles_accounted ?_⟩
  refine .step _ (Operation.run (.closedByPeer 1)) _ reachable_accepting trivial ⟨trivial,?_,[some 1],0,rfl,rfl⟩
  exact exec_CallbackOnClosedByPear 1 accepting.node

omit [Platform] in
/-- A problem that is detected locally drops the handle, and it is never closed. -/
theorem problem_drops_handle : ∃ s, (@handling fnvPlatform).Reachable s ∧ ¬ Accounted s := by
  let _ := fnvPlatform
  refine ⟨⟨accepting.node.eraseHandle 1,[1]⟩,?_,fun accounted => ?_⟩
  · exact .step _ (Operation.run (.problem 1)) _ reachable_accepting.reachable trivial ⟨trivial,rfl,[],0,rfl,rfl⟩
  · cases accounted.undropped 1 List.mem_cons_self

end Steps

end AtlasNet.Interlink
