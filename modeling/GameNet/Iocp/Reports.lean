import GameNet.Iocp.Drain

/- What the user of a connection of the Windows build is told.

   The calls of the connection callback and of the message callback drive a small automaton
   (`Phase.next`): nothing, the connected report, messages, the disconnected report. The phase is tied to
   the state of the connection: it is silent until `connectEstablished` has submitted the first read,
   and open while the connection is up.

   The tie breaks in one place. If the first read is refused, `connectEstablished` closes the connection
   before it has reported it. Nothing is with the kernel then, so that the close runs to its end
   (`Refused`): the disconnected report is the only one, and no message is called. -/
namespace GameNet.IocpConnection

open Machine (Reach Any)
open TcpConnection (StateE CloseInfo CloseKind ReadSide Options)
open IocpTcpTransport (Submission Transport)

/-! ## The calls -/

/-- What a call of the connection callback reports: whether the connection is connected. -/
def CallbackSource.report : CallbackSource → Option Bool
  | .established => some true
  | .disconnected | .destroyed => some false
  | _ => none

/-- What the connection callback has seen. -/
def reports (calls : List CallbackSource) : List Bool := calls.filterMap CallbackSource.report

inductive Phase where
  | silent
  | opened
  | concluded
  deriving DecidableEq, Repr

def Phase.next : Phase → CallbackSource → Option Phase
  | .silent, .established => some .opened
  | .opened, .message _ => some .opened
  | .opened, .disconnected | .opened, .destroyed => some .concluded
  | _, .established | _, .message _ | _, .disconnected | _, .destroyed => none
  | p, _ => some p

/-- The phase after some calls, if they are in order. -/
def phase (calls : List CallbackSource) : Option Phase := calls.foldlM Phase.next .silent

def Phase.reports : Phase → List Bool
  | .silent => []
  | .opened => [true]
  | .concluded => [true, false]

theorem phase_append (calls news : List CallbackSource) :
    phase (calls ++ news) = (phase calls).bind (fun p => news.foldlM Phase.next p) :=
  List.foldlM_append

theorem reports_of_foldlM : ∀ (calls : List CallbackSource) (p q : Phase),
    calls.foldlM Phase.next p = some q → p.reports ++ reports calls = q.reports
  | [], p, q, h => by
    cases h
    exact List.append_nil _
  | x :: calls, p, q, h => by
    obtain ⟨r, hr, hcalls⟩ := Option.bind_eq_some_iff.mp h
    have ih := reports_of_foldlM calls r q hcalls
    rw [← ih]
    cases p <;> cases x <;> cases hr <;> rfl

theorem reports_of_phase {calls : List CallbackSource} {p : Phase} (h : phase calls = some p) :
    reports calls = p.reports := reports_of_foldlM calls .silent p h

theorem Phase.reports_prefix (p : Phase) : p.reports <+: [true, false] := by
  cases p <;> decide

/-- A message is called in the open phase only. -/
theorem opened_of_message {before after : List CallbackSource} {b : Bool} {p : Phase}
    (h : phase (before ++ .message b :: after) = some p) : phase before = some .opened := by
  rw [phase_append] at h
  obtain ⟨q, hq, hmessage⟩ := Option.bind_eq_some_iff.mp h
  obtain ⟨r, hr, -⟩ := Option.bind_eq_some_iff.mp hmessage
  cases q <;> cases hr
  exact hq

/-- Nothing was called in the silent phase. -/
theorem messages_of_silent {calls : List CallbackSource} (h : phase calls = some .silent) (b : Bool) :
    .message b ∉ calls := fun hm => by
  obtain ⟨before, after, rfl⟩ := List.append_of_mem hm
  have hall := reports_of_phase h
  rw [reports, List.filterMap_append, ← reports, reports_of_phase (opened_of_message h)] at hall
  cases hall

/-! ## What an operation tells -/

/-- The operations that tell the user something, or are about to. -/
def Op.tells : Op → Bool
  | .establishRead | .user .established | .user (.message _) | .user .disconnected
  | .user .destroyed => true
  | _ => false

inductive Tells (c : Conn) (op : Op) (env : Env) (c' : Conn) (news : List Op) : Prop where
  | quiet (hop : op ≠ .establishRead) (hnews : news.all (fun q => !q.tells) = true)
      (hup : c'.up = true → c.up = true)
  | message (hop : op ≠ .establishRead) (hup : c.up = true) (b : Bool)
      (hnews : news = [.user (.message b)])
  | registered (hstate : c.state = .kConnecting) (hnews : news = [.establishRead])
  | established (hop : op = .establishRead) (hstate : c'.state = .kConnected)
      (hnews : news = [.user .established])
  | refused (hop : op = .establishRead) {s : Submission} (henv : env = .submit s) (hs : s ≠ .taken)
      (hread : c.input.readingEnabled = true) (e : Nat) (hnews : news = [.handleError e])
  | down (hop : op ≠ .establishRead) (hup : c.up = true) (hstate : c'.state = .kDisconnected)
      (hnews : news = [.user .disconnected, .user .closeInfo, .user .close] ∨
        news = [.user .destroyed, .destroyDetach])

section
variable {o : Options} {c c' : Conn} {op : Op} {env : Env} {news : List Op}

theorem calls_quiet (h : news.all (fun q => !q.tells) = true) :
    ∀ x ∈ callbacks news, x.report = none ∧ ∀ b, x ≠ .message b := fun x hx => by
  obtain ⟨q, hq, hsource⟩ := List.mem_filterMap.mp hx
  have hplain := List.all_eq_true.mp h q hq
  cases q <;> cases hsource
  cases x <;> simp_all [CallbackSource.report, Op.tells]

theorem callbacks_quiet : ∀ (news : List Op), news.all (fun q => !q.tells) = true → ∀ p : Phase,
    (callbacks news).foldlM Phase.next p = some p
  | [], _, _ => rfl
  | q :: news, h, p => by
    obtain ⟨hq, hnews⟩ := Bool.and_eq_true_iff.mp h
    have ih := callbacks_quiet news hnews p
    cases q with
    | user source =>
      show (callbacks (.user source :: news)).foldlM Phase.next p = some p
      have hnext : Phase.next p source = some p := by
        cases source <;> cases p <;> first | rfl | cases hq
      show (source :: callbacks news).foldlM Phase.next p = some p
      rw [List.foldlM_cons, hnext]
      exact ih
    | _ => exact ih

/-- An operation of a connection that has been connected does not connect it again. -/
theorem Result.up (hr : Result o c op c' news) (hc : c.state ≠ .kConnecting) (hup : c'.up = true) :
    c.up = true :=
  up_of_ne hc (fun hd => ne_down_of_up hup (hr.concluded hd))

/-- A first read that the kernel takes does not fail. -/
theorem startRead_taken {r : Conn × Nat} (hroom : c.remainingInputCapacity o ≠ 0)
    (h : c.startRead o .taken = some r) : r.2 = 0 := by
  unfold Conn.startRead at h
  split at h
  · cases h
  · obtain ⟨t, ht, rfl⟩ := Option.map_eq_some_iff.mp h
    unfold IocpTcpTransport.ReadHalf.startRead at ht
    split at ht
    · cases ht
      rfl
    · cases ht
      rfl

theorem inputLimit_quiet {next : Op} (hnext : next.tells = false) (he : c.inputLimit o next = (c', news)) :
    news.all (fun q => !q.tells) = true := by
  unfold Conn.inputLimit at he
  split at he <;> cases he
  · rfl
  · simp [hnext]

theorem highWaterMarkOps_quiet (m n : Nat) :
    (highWaterMarkOps o m n).all (fun q => !q.tells) = true := by
  unfold highWaterMarkOps
  split <;> rfl

theorem backpressureOps_quiet (c : Conn) (op : Op) (hop : op.tells = false) :
    ((c.applyBackpressureInLoop o).2 ++ [op]).all (fun q => !q.tells) = true := by
  unfold Conn.applyBackpressureInLoop
  dsimp only
  split
  · show ((!Op.tells .resumeRead) && ((!op.tells) && true)) = true
    rw [hop]
    rfl
  · show ((!op.tells) && true) = true
    rw [hop]
    rfl

theorem execTransfer_tells (hr : Result o c op c' news) (hop : op.onceUp = true → c.state ≠ .kConnecting)
    (hg : c.Guard o (some op)) (he : execTransfer o c op env = some (c', news)) :
    Tells c op env c' news := by
  have hne : op ≠ .establishRead := by
    rintro rfl
    cases env <;> cases he
  have quiet : op.onceUp = true → news.all (fun q => !q.tells) = true → Tells c op env c' news :=
    fun hu hnews => .quiet hne hnews (hr.up (hop hu))
  revert c' news
  fun_cases execTransfer o c op env
  all_goals intro c' news hr he quiet
  all_goals first
    | (cases he; done)
    | (cases he; exact .quiet hne rfl id)
    | (cases he; exact quiet rfl rfl)
    | (cases he; exact quiet rfl (backpressureOps_quiet _ _ rfl))
    | (cases he; exact quiet rfl (by split <;> rfl))
    | exact quiet rfl (inputLimit_quiet rfl (Option.some.inj he))
    | (obtain ⟨r, -, hres⟩ := Option.map_eq_some_iff.mp he
       cases hres
       exact quiet rfl (by split <;> rfl))
    | skip
  -- `sendStart`
  · cases he
    exact quiet rfl (highWaterMarkOps_quiet _ _)
  · obtain ⟨r, -, hres⟩ := Option.map_eq_some_iff.mp he
    split at hres <;> cases hres
    · exact quiet rfl rfl
    · exact quiet rfl (highWaterMarkOps_quiet _ _)
  -- the messages of `resumeRead` and `handleRead`
  · rename_i hready _
    cases he
    exact .message hne (eq_true_of_ne_false (not_or.mp hready).1) true rfl
  · cases he
    exact .message hne hg.1 false rfl

theorem disableAll_state (c : Conn) : c.disableAll.state = c.state := by
  unfold Conn.disableAll Conn.updateChannel
  repeat' split
  all_goals rfl

theorem finishClose_state (h : c.finishClose.fatal = none) : c.finishClose.state = .kDisconnected := by
  unfold Conn.finishClose at h ⊢
  split
  case h_1 hr => rw [hr] at h; cases h
  case h_2 => exact (disableAll_state _).trans (clearBufferedOutput_cleared _).state

theorem execLifecycle_tells (hr : Result o c op c' news) (hop : op.onceUp = true → c.state ≠ .kConnecting)
    (hg : c.Guard o (some op)) (he : execLifecycle o c op env = some (c', news)) (hfatal : c'.fatal = none) :
    Tells c op env c' news := by
  rcases eq_or_ne op .establishRead with rfl | hne
  · cases env <;> try cases he
    simp only [execLifecycle] at he
    split at he
    · rename_i sub henabled
      obtain ⟨r, hread, hres⟩ := Option.map_eq_some_iff.mp he
      by_cases herr : r.2 = 0
      · rw [if_neg (not_not.mpr herr)] at hres
        cases hres
        exact .established rfl ((startRead_same (o := o) hread).1.state.trans hg.1) rfl
      · rw [if_pos herr] at hres
        cases hres
        refine .refused rfl rfl (fun hs => ?_) henabled _ rfl
        subst hs
        exact herr (startRead_taken hg.2 hread)
    · cases he
      exact .established rfl hg.1 rfl
  have quiet : op.onceUp = true → news.all (fun q => !q.tells) = true → Tells c op env c' news :=
    fun hu hnews => .quiet hne hnews (hr.up (hop hu))
  revert c' news
  fun_cases execLifecycle o c op env
  all_goals intro c' news hr he hfatal quiet
  all_goals first
    | (cases he; done)
    | exact absurd rfl hne
    | (cases he; exact .quiet hne rfl id)
    | (cases he; exact quiet rfl rfl)
    | (cases he; exact quiet rfl (by split <;> rfl))
    | skip
  -- `establish`
  · rename_i hready
    cases he
    exact .registered (not_not.mp (not_or.mp hready).1) rfl
  -- `driveGraceful`
  · rename_i hready
    cases he
    exact .quiet hne rfl (fun _ => up_iff.mpr (.inl hready.2))
  -- closing
  · have hnews : c.closeSocket.2 = news := by rw [Option.some.inj he]
    refine quiet rfl ?_
    rw [← hnews, Conn.closeSocket]
    split <;> rfl
  · cases he
    exact .down hne (up_iff.mpr (.inr hg.1)) (finishClose_state hfatal) (.inl rfl)
  -- `destroy`
  · cases he
    have hstate := (clearBufferedOutput_cleared { c with input := c.input.onClosed }).state
    split
    case isTrue hup =>
      replace hup : c.up = true := by rwa [Conn.up, hstate] at hup
      exact .down hne hup rfl (.inr rfl)
    case isFalse => exact .quiet hne rfl (fun hh => by cases hh)

theorem exec_tells {rest : List Op} (hcore : Core o c) (hstack : Stack o c (op :: rest))
    (he : exec o c op env = some (c', news)) (hfatal : c'.fatal = none) :
    Result o c op c' news ∧ Tells c op env c' news :=
  have hr := exec_result hcore hstack he hfatal
  have hop := hstack.onceUp op (.head _)
  ⟨hr, (exec_cases he).elim (execTransfer_tells hr hop hstack.guard)
    (execLifecycle_tells hr hop hstack.guard · hfatal)⟩

/-- What runs before the connection is up submits nothing. -/
theorem exec_connecting (hop : op.onceUp = true → c.state ≠ .kConnecting) (hc : c.state = .kConnecting)
    (he : exec o c op env = some (c', news)) :
    c'.state = .kDisconnected ∨ c'.transport = c.transport ∧ c'.notices = c.notices := by
  have hearly : op.onceUp = false := eq_false_of_ne_true (fun hu => hop hu hc)
  replace he := exec_cases he
  rcases he with he | he
  · cases op <;> cases hearly <;> cases env <;> try cases he
    simp only [execTransfer] at he
    split at he <;> cases he <;> exact .inr ⟨rfl, rfl⟩
  · revert c' news
    fun_cases execLifecycle o c op env
    all_goals intro c' news he
    all_goals first
      | (cases hearly; done)
      | (cases he; done)
      | (cases he; exact .inr ⟨rfl, rfl⟩)
      | (cases he; exact .inl rfl)
      | skip
    -- `establish`
    cases he
    refine .inr ?_
    unfold Conn.establish Conn.updateChannel
    dsimp only
    split
    · exact ⟨rfl, rfl⟩
    · split <;> exact ⟨rfl, rfl⟩

end

/-! ## Runs -/

/-- The read that `connectEstablished` submits is not taken. -/
def RefusesFirstRead (s : State) : Label → Prop
  | .own (.submit submission) =>
    s.owner.head? = some .establishRead ∧ s.conn.input.readingEnabled = true ∧ submission ≠ .taken
  | _ => False

instance (s : State) : (l : Label) → Decidable (RefusesFirstRead s l)
  | .own (.submit _) => inferInstanceAs (Decidable (_ ∧ _ ∧ _))
  | .own .nothing | .own (.post _) | .post _ | .request _ | .dequeue _ _ | .event _ | .ownSend _
  | .ownClose _ | .ownDestroy | .retrieve _ | .ret _ => .isFalse id

/-- The phase of a connection by its state. Before the first read, nothing was submitted. -/
structure Conn.InPhase (c : Conn) (l : List Op) (p : Phase) : Prop where
  early : c.state = .kConnecting ∨ l.head? = some .establishRead →
    p = .silent ∧ c.transport = {} ∧ c.notices = []
  up : c.up = true → l.head? ≠ some .establishRead → p = .opened

/-- The calls are in order, and a process that runs is in their phase. -/
def Story (s : State) : Prop :=
  ∃ p, phase s.calls = some p ∧ (s.conn.fatal = none → s.conn.InPhase s.owner p)

section
variable {o : Options} {s s' : State} {l : Label}

theorem story_init : Story {} := ⟨.silent, rfl, fun _ => ⟨fun _ => ⟨rfl, rfl, rfl⟩, nofun⟩⟩

/-- The calls after operations were put on the stack. -/
theorem push_calls {c : Conn} {news rest : List Op} (h : (s.push c news rest).conn.fatal = none) :
    (s.push c news rest).calls = s.calls ++ callbacks news := by
  have hc : c.fatal = none := h
  simp [State.push, hc]

theorem push_dead {c : Conn} {news rest : List Op} (h : (s.push c news rest).conn.fatal ≠ none) :
    (s.push c news rest).calls = s.calls := by
  have hc : c.fatal.isSome = true := Option.isSome_iff_ne_none.mpr h
  simp [State.push, hc, callbacks]

/-- Operations that tell nothing, put on a stack that is not about to. -/
theorem story_quiet {c : Conn} {news rest : List Op} {p : Phase} (hp : phase s.calls = some p)
    (hnews : news.all (fun q => !q.tells) = true) (hrest : rest.head? ≠ some .establishRead)
    (hearly : c.state = .kConnecting → p = .silent ∧ c.transport = {} ∧ c.notices = [])
    (hup : c.up = true → p = .opened) : Story (s.push c news rest) := by
  by_cases hfatal : (s.push c news rest).conn.fatal = none
  · refine ⟨p, ?_, fun _ => ⟨fun hh => hearly (hh.resolve_right fun hh => ?_), fun hu _ => hup hu⟩⟩
    · rw [push_calls hfatal, phase_append, hp]
      exact callbacks_quiet news hnews p
    · rw [push_owner hfatal] at hh
      cases news with
      | nil => exact absurd hh hrest
      | cons q tail =>
        cases hh
        cases hnews
  · exact ⟨p, by rw [push_dead hfatal]; exact hp, fun hh => absurd hh hfatal⟩

/-- An operation that the owner runs. -/
theorem story_own {env : Env} {op : Op} {rest : List Op} {r : Conn × List Op} (hsound : Sound o s)
    (hstory : Story s) (hfirst : ¬RefusesFirstRead s (.own env)) (hrun : s.conn.fatal = none)
    (hl : s.owner = op :: rest) (he : exec o s.conn op env = some r) : Story (s.push r.1 r.2 rest) := by
  obtain ⟨p, hp, hin⟩ := hstory
  have hin := hin hrun
  by_cases hfatal : (s.push r.1 r.2 rest).conn.fatal = none
  case neg => exact ⟨p, by rw [push_dead hfatal]; exact hp, fun hh => absurd hh hfatal⟩
  have hstack := hsound.stack
  rw [hl] at hstack hin
  have hop := hstack.onceUp op (.head _)
  obtain ⟨hr, htells⟩ := exec_tells hsound.core hstack he hfatal
  -- nothing below is about to report
  have hrest : rest.head? ≠ some .establishRead := fun hh => by
    have := hstack.below _ (List.mem_of_mem_head? hh) rfl
    cases this
  have hopened : op ≠ .establishRead → s.conn.up = true → p = .opened := fun hne hup =>
    hin.up hup (fun hh => hne (Option.some.inj hh))
  -- a connection that has been connected is not connecting, and has no first read to submit
  have later : ∀ {q : Phase}, r.1.state ≠ .kConnecting → r.2.head? ≠ some .establishRead → r.2 ≠ [] →
      (r.1.up = true → q = .opened) → (s.push r.1 r.2 rest).conn.InPhase (s.push r.1 r.2 rest).owner q :=
    fun hc hhead hne hup => ⟨fun hh => (hh.elim (absurd · hc) (fun hh => by
      rw [push_owner hfatal, List.head?_append_of_ne_nil _ hne] at hh
      exact absurd hh hhead)), fun hu _ => hup hu⟩
  cases htells with
  | quiet hne hnews hup =>
    refine story_quiet hp hnews hrest (fun hc => ?_) (fun hu => hopened hne (hup hu))
    have hold : s.conn.state = .kConnecting := not_not.mp (fun hh => hr.onward hh hc)
    obtain ⟨hsilent, ht, hn⟩ := hin.early (.inl hold)
    rcases exec_connecting hop hold he with hdown | ⟨ht', hn'⟩
    · rw [hdown] at hc
      cases hc
    · exact ⟨hsilent, ht'.trans ht, hn'.trans hn⟩
  | message hne hup b hnews =>
    cases hopened hne hup
    refine ⟨.opened, ?_, fun _ => later (hr.onward (fun hh => ?_)) (by simp [hnews]) (by simp [hnews])
      (fun _ => rfl)⟩
    · rw [push_calls hfatal, phase_append, hp, hnews]
      rfl
    · rw [Conn.up, hh] at hup
      cases hup
  | registered hstate hnews =>
    obtain ⟨rfl, ht, hn⟩ := hin.early (.inl hstate)
    have hguard : r.1.state = .kConnected := by
      have hg := hr.guard
      rw [hnews] at hg
      exact hg.1
    refine ⟨.silent, ?_, fun _ => ⟨fun _ => ?_, fun _ hh => ?_⟩⟩
    · rw [push_calls hfatal, phase_append, hp, hnews]
      rfl
    · rcases exec_connecting hop hstate he with hdown | ⟨ht', hn'⟩
      · rw [hguard] at hdown
        cases hdown
      · exact ⟨rfl, ht'.trans ht, hn'.trans hn⟩
    · rw [push_owner hfatal, hnews] at hh
      exact absurd rfl hh
  | established hne hstate hnews =>
    cases hne
    obtain ⟨rfl, -⟩ := hin.early (.inr rfl)
    refine ⟨.opened, ?_, fun _ => later (hr.onward (hop rfl)) (by simp [hnews]) (by simp [hnews])
      (fun _ => rfl)⟩
    rw [push_calls hfatal, phase_append, hp, hnews]
    rfl
  | refused hne henv hsub hread =>
    subst henv
    exact absurd ⟨by rw [hl, hne]; rfl, hread, hsub⟩ hfirst
  | down hne hup hstate hnews =>
    cases hopened hne hup
    refine ⟨.concluded, ?_, fun _ => later (fun hc => ?_) ?_ ?_ (fun hu => absurd hstate (ne_down_of_up hu))⟩
    · rw [push_calls hfatal, phase_append, hp]
      rcases hnews with hnews | hnews <;> rw [hnews] <;> rfl
    · rw [hstate] at hc
      cases hc
    · rcases hnews with hnews | hnews <;> simp [hnews]
    · rcases hnews with hnews | hnews <;> simp [hnews]

/-- An event starts with no report. -/
theorem start_quiet {c : Conn} {e : Event} {r : Conn × List Op} (h : c.start e = some r) :
    r.2.all (fun q => !q.tells) = true := by
  cases start_started h with
  | consume =>
    unfold Conn.consume
    split <;> dsimp only <;> split <;> rfl
  | @functor f => cases f <;> rfl
  | _ => rfl

theorem next_quiet (threw : Bool) (source : CallbackSource) :
    (source.next threw).all (fun q => !q.tells) = true := by
  cases source with
  | message b => cases threw <;> cases b <;> rfl
  | _ => cases threw <;> rfl

/-- The start of an event leaves a connection that connects without notices. -/
theorem start_connecting {c : Conn} {e : Event} {r : Conn × List Op} (hn : c.notices = [])
    (h : c.start e = some r) : r.1.transport = c.transport ∧ r.1.notices = c.notices := by
  cases start_started h with
  | consume hcons =>
    rw [hn] at hcons
    cases hcons
  | _ => exact ⟨rfl, rfl⟩

theorem step_story (hsound : s.conn.fatal = none → Sound o s) (hstory : Story s)
    (hfirst : ¬RefusesFirstRead s l) (hs : step o s l = some s') : Story s' := by
  obtain ⟨hrun, hmove⟩ := step_move hs
  have hsound := hsound hrun
  obtain ⟨p, hp, hin⟩ := hstory
  -- a step that leaves the state, the stack and the transport as they are
  have same : ∀ c : Conn, c.state = s.conn.state → c.transport = s.conn.transport →
      c.notices = s.conn.notices → Story { s with conn := c } := fun c hstate ht hn =>
    ⟨p, hp, fun _ => ⟨fun hh => by
      rw [show _ = _ from hstate, show _ = _ from ht, show _ = _ from hn] at *
      exact (hin hrun).early hh, fun hu => (hin hrun).up (by rw [Conn.up, ← hstate]; exact hu)⟩⟩
  have quiet : ∀ (c : Conn) (news rest : List Op), c.state = s.conn.state →
      (s.conn.notices = [] → c.transport = s.conn.transport ∧ c.notices = s.conn.notices) →
      news.all (fun q => !q.tells) = true → s.owner.head? ≠ some .establishRead →
      rest.head? ≠ some .establishRead → Story (s.push c news rest) :=
    fun c news rest hstate hsame hnews howner hrest => story_quiet hp hnews hrest
      (fun hc => by
        obtain ⟨hsilent, ht, hn⟩ := (hin hrun).early (.inl (hstate ▸ hc))
        obtain ⟨ht', hn'⟩ := hsame hn
        exact ⟨hsilent, ht'.trans ht, hn'.trans hn⟩)
      (fun hu => (hin hrun).up (by rw [Conn.up, ← hstate]; exact hu) howner)
  cases hmove with
  | post data => exact same _ rfl rfl rfl
  | request kind => exact same _ rfl rfl rfl
  | @dequeue kind result c hrest hd =>
    have hstate := (dequeue_same (o := o) hd).1.state
    refine ⟨p, hp, fun _ => ⟨fun hh => ?_, fun hu => (hin hrun).up (by rw [Conn.up, ← hstate]; exact hu)⟩⟩
    -- nothing is with the kernel while the connection connects
    rw [show _ = _ from hstate, hrest] at hh
    have ht := ((hin hrun).early (.inl (hh.resolve_right (by simp)))).2.1
    cases kind <;> simp only [Conn.dequeue] at hd <;> rw [ht] at hd <;> cases hd
  | event hrest he =>
    exact quiet _ _ [] (start_same (o := o) he).1.state (start_connecting · he) (start_quiet he)
      (by rw [hrest]; simp) (by simp)
  | own hl he => exact story_own hsound ⟨p, hp, hin⟩ hfirst hrun hl he
  | ownSend hu =>
    exact quiet _ _ _ rfl (fun _ => ⟨rfl, rfl⟩) rfl (userRuns_head hu (by simp)) (userRuns_head hu (by simp))
  | ownClose hu =>
    exact quiet _ _ _ rfl (fun _ => ⟨rfl, rfl⟩) rfl (userRuns_head hu (by simp)) (userRuns_head hu (by simp))
  | ownDestroy hu =>
    exact quiet _ _ _ rfl (fun _ => ⟨rfl, rfl⟩) rfl (userRuns_head hu (by simp)) (userRuns_head hu (by simp))
  | retrieve hl => exact same _ rfl rfl rfl
  | ret hl =>
    refine quiet _ _ _ rfl (fun _ => ⟨rfl, rfl⟩) (next_quiet _ _) (by rw [hl]; simp) (fun hh => ?_)
    have hstack := hsound.stack
    rw [hl] at hstack
    have := hstack.below _ (List.mem_of_mem_head? hh) rfl
    cases this

theorem reach_story (h : Reach (· = {}) (step o) (fun s l => ¬RefusesFirstRead s l) s) : Story s := by
  refine Reach.invariant_with (K := fun s => s.conn.fatal = none → Sound o s) (P := Story)
    (fun h => reach_sound h) ?_ ?_ h
  · rintro _ rfl
    exact story_init
  · intro s l s' hsound hstory hfirst hstep
    exact step_story hsound hstory hfirst hstep

/-- **The reports are paired**, if the first read is not refused. The connection callback sees nothing, a
    connected connection, or a connected and then a disconnected one; and when a message callback is
    called, it has seen the connected one only. -/
theorem reports_paired (h : Reach (· = {}) (step o) (fun s l => ¬RefusesFirstRead s l) s) :
    reports s.calls <+: [true, false] ∧
      ∀ before b after, s.calls = before ++ .message b :: after → reports before = [true] := by
  obtain ⟨p, hp, -⟩ := reach_story h
  refine ⟨?_, fun before b after hcalls => ?_⟩
  · rw [reports_of_phase hp]
    exact p.reports_prefix
  · rw [hcalls] at hp
    exact reports_of_phase (opened_of_message hp)

end

/-! ## A first read that is refused -/

/-- The stages of a close that finds nothing pending. -/
def Op.ends : Op → Bool
  | .handleError _ | .handleClose | .beginClose | .closeChannel | .closeSocket | .finishClose => true
  | _ => false

section
variable {o : Options} {c c' : Conn} {op : Op} {env : Env} {news : List Op}

theorem disableAll_transport (c : Conn) : c.disableAll.transport = c.transport := by
  unfold Conn.disableAll Conn.updateChannel
  repeat' split
  all_goals rfl

/-- Such a close goes on from stage to stage, and ends with the report. -/
theorem exec_ends (hop : op.ends = true) (hup : c.up = true)
    (hidle : c.transport.hasPendingOperations = false) (he : exec o c op env = some (c', news))
    (hfatal : c'.fatal = none) :
    (∃ q, q.ends = true ∧ news = [q] ∧ c'.up = true ∧ c'.transport.hasPendingOperations = false) ∨
      news = [.user .disconnected, .user .closeInfo, .user .close] ∧ c'.state = .kDisconnected := by
  have hopen := ne_down_of_up hup
  have onward : ∀ {d : Conn} {q : Op}, q.ends = true → d.state = c.state ∨ d.state = .kDisconnecting →
      d.transport = c.transport → (∃ q', q'.ends = true ∧ [q] = [q'] ∧ d.up = true ∧
        d.transport.hasPendingOperations = false) := fun hq hstate ht =>
    ⟨_, hq, rfl, hstate.elim (fun hs => by rw [Conn.up, hs]; exact hup) (fun hs => up_iff.mpr (.inr hs)),
      by rw [ht]; exact hidle⟩
  replace he := exec_cases he
  rcases he with he | he
  · cases op <;> cases hop <;> cases env <;> cases he
  cases op with
  | handleError e =>
    cases env <;> cases he
    exact .inl (onward rfl (.inl rfl) rfl)
  | handleClose =>
    cases env <;> try cases he
    simp only [execLifecycle, if_neg hopen] at he
    cases he
    exact .inl (onward rfl (.inl rfl) rfl)
  | beginClose =>
    cases env <;> try cases he
    simp only [execLifecycle, if_neg hopen] at he
    cases he
    refine .inl (onward rfl (.inr rfl) ?_)
    unfold Conn.beginClose
    split <;> rfl
  | closeChannel =>
    cases env <;> cases he
    have hr : Removal _ c.closeChannel := removeChannel_removal _
    exact .inl (onward rfl (.inl hr.state) hr.transport)
  | closeSocket =>
    cases env <;> try cases he
    simp only [execLifecycle, Conn.closeSocket, hidle, Bool.false_eq_true, if_false] at he
    cases he
    exact .inl (onward rfl (.inl (disableAll_state c)) (disableAll_transport c))
  | finishClose =>
    cases env <;> try cases he
    simp only [execLifecycle, if_neg hopen] at he
    cases he
    exact .inr ⟨rfl, finishClose_state hfatal⟩
  | _ => cases hop

/-- A first read that is not taken is answered with an error, and nothing is pending after it. -/
theorem startRead_refused {sub : Submission} {r : Conn × Nat} (ht : c.transport = {}) (hsub : sub ≠ .taken)
    (h : c.startRead o sub = some r) : r.2 ≠ 0 ∧ r.1.transport.hasPendingOperations = false := by
  unfold Conn.startRead at h
  rw [if_neg (fun hh => hsub hh.1), ht] at h
  obtain ⟨t, hread, rfl⟩ := Option.map_eq_some_iff.mp h
  obtain ⟨hcompleted, hpending⟩ := startRead_flags hread
  refine ⟨fun hzero => ?_, ?_⟩
  · unfold IocpTcpTransport.ReadHalf.startRead at hread
    rw [if_neg (by simp)] at hread
    split at hread
    · cases hread
      cases hzero
    · cases sub with
      | taken => exact hsub rfl
      | noBuffers =>
        dsimp only at hread
        split at hread <;> cases hread
        cases hzero
      | rejected e =>
        dsimp only at hread
        split at hread <;> cases hread
        rename_i hne
        exact hne hzero
  · show (t.1.readPending || _ || t.1.readCompletionPending || _) = false
    rw [hpending hsub, hcompleted]
    rfl

end

/-- The connection is closed before it was reported, or was closed so. -/
structure Refused (s : State) : Prop where
  reports : reports s.calls <+: [false]
  messages : ∀ b, .message b ∉ s.calls
  closing : s.conn.fatal = none → s.conn.state = .kDisconnected ∨
    GameNet.IocpConnection.reports s.calls = [] ∧ s.conn.up = true ∧
      s.conn.transport.hasPendingOperations = false ∧ ∃ q, q.ends = true ∧ s.owner.head? = some q

section
variable {o : Options} {s s' : State} {l : Label}

/-- Calls that report nothing. -/
theorem reports_quiet {calls more : List CallbackSource} (h : ∀ x ∈ more, x.report = none) :
    reports (calls ++ more) = reports calls := by
  rw [reports, List.filterMap_append, List.filterMap_eq_nil_iff.mpr h, List.append_nil, reports]

theorem refused_push {c : Conn} {news rest : List Op} (hreports : reports s.calls <+: [false])
    (hmessages : ∀ b, .message b ∉ s.calls) (hnews : news.all (fun q => !q.tells) = true)
    (hclosing : c.fatal = none → c.state = .kDisconnected ∨ reports s.calls = [] ∧ c.up = true ∧
      c.transport.hasPendingOperations = false ∧ ∃ q, q.ends = true ∧ (news ++ rest).head? = some q) :
    Refused (s.push c news rest) := by
  by_cases hfatal : (s.push c news rest).conn.fatal = none
  case neg => exact ⟨by rw [push_dead hfatal]; exact hreports, by rw [push_dead hfatal]; exact hmessages,
    fun hh => absurd hh hfatal⟩
  have hquiet := calls_quiet hnews
  have hsame : reports (s.push c news rest).calls = reports s.calls := by
    rw [push_calls hfatal]
    exact reports_quiet (fun x hx => (hquiet x hx).1)
  refine ⟨by rw [hsame]; exact hreports, fun b hm => ?_, fun _ => ?_⟩
  · rw [push_calls hfatal] at hm
    rcases List.mem_append.mp hm with hm | hm
    · exact hmessages b hm
    · exact (hquiet _ hm).2 b rfl
  · rw [hsame, push_owner hfatal]
    exact hclosing hfatal

/-- The refusal itself. -/
theorem refused_first (hsound : s.conn.fatal = none → Sound o s) (hstory : Story s)
    (hrefuses : RefusesFirstRead s l) (hs : step o s l = some s') : Refused s' := by
  obtain ⟨hrun, hmove⟩ := step_move hs
  obtain ⟨p, hp, hin⟩ := hstory
  cases hmove <;> try exact hrefuses.elim
  case own env op rest r hl he =>
    cases env with
    | nothing => exact hrefuses.elim
    | post b => exact hrefuses.elim
    | submit sub =>
      obtain ⟨hhead, henabled, hsub⟩ := hrefuses
      obtain ⟨rfl, ht, -⟩ := (hin hrun).early (.inr hhead)
      have hstack := (hsound hrun).stack
      rw [hl] at hhead hstack
      cases hhead
      have hguard : s.conn.state = .kConnected := hstack.guard.1
      rw [show exec o s.conn .establishRead (.submit sub) = _ from if_pos henabled] at he
      obtain ⟨t, hread, rfl⟩ := Option.map_eq_some_iff.mp he
      obtain ⟨herr, hidle⟩ := startRead_refused ht hsub hread
      have hnone := reports_of_phase hp
      rw [if_pos herr]
      refine refused_push (by rw [hnone]; exact List.nil_prefix) (messages_of_silent hp) rfl (fun _ => .inr
        ⟨hnone, up_iff.mpr (.inl ((startRead_same (o := o) hread).1.state.trans hguard)), hidle, _, rfl, rfl⟩)

theorem step_refused (hsound : s.conn.fatal = none → Sound o s) (h : Refused s) (hs : step o s l = some s') :
    Refused s' := by
  obtain ⟨hrun, hmove⟩ := step_move hs
  have hsound := hsound hrun
  have hclosing := h.closing hrun
  -- user code does not run inside the close
  have hdown : userRuns s.owner = true → s.conn.state = .kDisconnected := fun hu =>
    hclosing.resolve_right (fun ⟨_, _, _, q, hq, hhead⟩ =>
      userRuns_head hu (by rintro source rfl; cases hq) hhead)
  have quiet : ∀ {news rest : List Op} (c : Conn), c.state = s.conn.state → userRuns s.owner = true →
      news.all (fun q => !q.tells) = true → Refused (s.push c news rest) := fun c hstate hu hnews =>
    refused_push h.reports h.messages hnews (fun _ => .inl (hstate.trans (hdown hu)))
  cases hmove with
  | post data => exact { h with }
  | request kind => exact { h with }
  | retrieve hl => exact { h with }
  | dequeue hrest hd =>
    exact ⟨h.reports, h.messages, fun _ => .inl
      ((dequeue_same (o := o) hd).1.state.trans (hdown (by rw [hrest]; rfl)))⟩
  | event hrest he => exact quiet _ (start_same (o := o) he).1.state (by rw [hrest]; rfl) (start_quiet he)
  | ownSend hu hstate =>
    rw [hdown hu] at hstate
    cases hstate
  | ownClose hu hstate => exact absurd (hdown hu) hstate
  | ownDestroy hu => exact quiet _ rfl hu rfl
  | ret hl => exact quiet _ rfl (by rw [hl]; rfl) (next_quiet _ _)
  | own hl he =>
    rename_i env op rest r
    by_cases hfatal : (s.push r.1 r.2 rest).conn.fatal = none
    case neg => exact ⟨by rw [push_dead hfatal]; exact h.reports, by rw [push_dead hfatal]; exact h.messages,
      fun hh => absurd hh hfatal⟩
    rcases hclosing with hstate | ⟨hnone, hup, hidle, q, hq, hhead⟩
    · -- a connection that is down tells nothing
      have hstack := hsound.stack
      rw [hl] at hstack
      obtain ⟨hr, htells⟩ := exec_tells hsound.core hstack he hfatal
      have hnot : s.conn.up = true → False := fun hup => ne_down_of_up hup hstate
      have hread : op ≠ .establishRead := fun hh => by
        subst hh
        have hg : s.conn.state = .kConnected := hstack.guard.1
        rw [hstate] at hg
        cases hg
      cases htells with
      | quiet _ hnews => exact refused_push h.reports h.messages hnews (fun _ => .inl (hr.concluded hstate))
      | message _ hup => exact (hnot hup).elim
      | registered hc =>
        rw [hstate] at hc
        cases hc
      | established hh => exact absurd hh hread
      | refused hh => exact absurd hh hread
      | down _ hup => exact (hnot hup).elim
    · rw [hl] at hhead
      cases hhead
      rcases exec_ends hq hup hidle he hfatal with ⟨q', hq', hnews, hup', hidle'⟩ | ⟨hnews, hstate⟩
      · rw [hnews]
        refine refused_push h.reports h.messages ?_ (fun _ => .inr ⟨hnone, hup', hidle', q', hq', rfl⟩)
        cases q' <;> first | rfl | cases hq'
      · rw [hnews] at hfatal ⊢
        refine ⟨?_, fun b hm => ?_, fun _ => .inl hstate⟩
        · rw [push_calls hfatal, reports, List.filterMap_append, ← reports, hnone]
          exact List.prefix_refl _
        · rw [push_calls hfatal] at hm
          rcases List.mem_append.mp hm with hm | hm
          · exact h.messages b hm
          · revert hm
            cases b <;> decide

/-- A report is made by the callback that is called, in the state that it reports. -/
theorem step_reports (hsound : s.conn.fatal = none → Sound o s) (hs : step o s l = some s') :
    ∃ news, s'.calls = s.calls ++ news ∧ ∀ x ∈ news, ∀ b, x.report = some b →
      s'.owner.head? = some (.user x) ∧ s'.conn.state = if b then .kConnected else .kDisconnected := by
  obtain ⟨hrun, hmove⟩ := step_move hs
  have hsound := hsound hrun
  have quiet : ∀ {c : Conn} {news rest : List Op}, news.all (fun q => !q.tells) = true →
      ∃ more, (s.push c news rest).calls = s.calls ++ more ∧ ∀ x ∈ more, ∀ b, x.report = some b →
        (s.push c news rest).owner.head? = some (.user x) ∧
          (s.push c news rest).conn.state = if b then .kConnected else .kDisconnected := by
    intro c news rest hnews
    refine ⟨_, rfl, fun x hx b hb => ?_⟩
    have hnone : x.report = none := by
      split at hx
      · cases hx
      · exact (calls_quiet hnews x hx).1
    rw [hnone] at hb
    cases hb
  have same : ∀ c : Conn, ∃ more, ({ s with conn := c } : State).calls = s.calls ++ more ∧
      ∀ x ∈ more, ∀ b, x.report = some b → s.owner.head? = some (.user x) ∧
        c.state = if b then .kConnected else .kDisconnected := fun c => ⟨[], (List.append_nil _).symm, nofun⟩
  cases hmove with
  | post data => exact same _
  | request kind => exact same _
  | retrieve hl => exact same _
  | dequeue hrest hd => exact same _
  | event hrest he => exact quiet (start_quiet he)
  | ownSend hu => exact quiet rfl
  | ownClose hu => exact quiet rfl
  | ownDestroy hu => exact quiet rfl
  | ret hl => exact quiet (next_quiet _ _)
  | own hl he =>
    rename_i env op rest r
    by_cases hfatal : (s.push r.1 r.2 rest).conn.fatal = none
    case neg => exact ⟨[], by rw [push_dead hfatal, List.append_nil], nofun⟩
    have hstack := hsound.stack
    rw [hl] at hstack
    refine ⟨_, push_calls hfatal, fun x hx b hb => ?_⟩
    rw [push_owner hfatal]
    show _ ∧ r.1.state = _
    cases (exec_tells hsound.core hstack he hfatal).2 with
    | quiet _ hnews =>
      rw [(calls_quiet hnews x hx).1] at hb
      cases hb
    | message _ _ _ hnews =>
      rw [hnews] at hx
      cases List.mem_singleton.mp hx
      cases hb
    | registered _ hnews =>
      rw [hnews] at hx
      cases hx
    | established _ hstate hnews =>
      rw [hnews] at hx ⊢
      cases List.mem_singleton.mp hx
      cases hb
      exact ⟨rfl, hstate⟩
    | refused _ _ _ _ _ hnews =>
      rw [hnews] at hx
      cases hx
    | down _ _ hstate hnews =>
      rcases hnews with hnews | hnews <;> rw [hnews] at hx ⊢
      · have hx : x = .disconnected ∨ x = .closeInfo ∨ x = .close := by simpa [callbacks] using hx
        rcases hx with rfl | rfl | rfl <;> cases hb
        exact ⟨rfl, hstate⟩
      · cases List.mem_singleton.mp hx
        cases hb
        exact ⟨rfl, hstate⟩

end

/-- The first read was refused in a run to the state. -/
def FirstReadRefused (o : Options) (s : State) : Prop :=
  ∃ s₀ l s₁, Reach (· = {}) (step o) (fun s l => ¬RefusesFirstRead s l) s₀ ∧ RefusesFirstRead s₀ l ∧
    step o s₀ l = some s₁ ∧ Reach (· = s₁) (step o) Any s

/-- **The reports are in order.** Every run either submits the first read or has it refused. In the first
    case the connection callback sees a prefix of connected, disconnected, and exactly the connected
    report before every message callback. In the second it sees a disconnected connection at most, and
    no message callback is called. In both, a call of the connection callback finds the connection in
    the state that it reports. -/
theorem reports_in_order (o : Options) (s : State) (h : Reach (· = {}) (step o) Any s) :
    (Reach (· = {}) (step o) (fun s l => ¬RefusesFirstRead s l) s ∧
        reports s.calls <+: [true, false] ∧
        (∀ before b after, s.calls = before ++ .message b :: after → reports before = [true]) ∨
      FirstReadRefused o s) ∧
    (FirstReadRefused o s → reports s.calls <+: [false] ∧ ∀ b, .message b ∉ s.calls) ∧
    (∀ l s', step o s l = some s' → ∃ news, s'.calls = s.calls ++ news ∧ ∀ x ∈ news, ∀ b,
      x.report = some b → s'.owner.head? = some (.user x) ∧
        s'.conn.state = if b then .kConnected else .kDisconnected) := by
  refine ⟨?_, fun ⟨s₀, l, s₁, h₀, hrefuses, hstep, hrest⟩ => ?_,
    fun l s' hstep => step_reports (reach_sound h) hstep⟩
  · exact (h.split RefusesFirstRead).imp (fun hkept => ⟨hkept, reports_paired hkept⟩) id
  · have hreach : Reach (· = {}) (step o) Any s₁ :=
      .next (h₀.weaken (fun _ _ _ => trivial)) trivial hstep
    have hrefused : Refused s := Reach.invariant_with
      (K := fun s => s.conn.fatal = none → Sound o s) (P := Refused)
      (fun hr => reach_sound (hreach.trans hr)) (by
        rintro _ rfl
        exact refused_first (reach_sound h₀) (reach_story h₀) hrefuses hstep)
      (fun _ _ _ hsound hr _ hs => step_refused hsound hr hs) hrest
    exact ⟨hrefused.reports, hrefused.messages⟩

/-- A connection that is established, gets two bytes and is closed by its peer; and one whose first read
    is rejected. -/
theorem reports_in_order_both :
    (∃ s, Reach (· = {}) (step TcpConnection.smallConnection) Any s ∧
      .message false ∈ s.calls ∧ reports s.calls = [true, false] ∧
      (FirstReadRefused TcpConnection.smallConnection s → False)) ∧
    ∃ s, Reach (· = {}) (step TcpConnection.smallConnection) Any s ∧
      reports s.calls = [false] ∧ FirstReadRefused TcpConnection.smallConnection s := by
  constructor
  · obtain ⟨s, hr, hmessage, hreports⟩ := Reach.of_run (· = {})
      (step TcpConnection.smallConnection) Any
      (fun s => .message false ∈ s.calls ∧ reports s.calls = [true, false]) {} rfl
      [.event (.connectEstablished true), .own .nothing, .own (.submit .taken), .ret false,
        .dequeue .read (.bytes 2), .event .consume, .own .nothing, .ret false, .own .nothing,
        .own (.submit .taken), .dequeue .read (.bytes 0), .event .consume, .own .nothing, .own .nothing,
        .own .nothing, .own .nothing, .own .nothing, .own .nothing] (by decide +kernel)
    exact ⟨s, hr, hmessage, hreports, fun hrefused =>
      ((reports_in_order TcpConnection.smallConnection s hr).2.1 hrefused).2 false hmessage⟩
  · obtain ⟨s, hr, hreports⟩ := Reach.of_run (· = {})
      (step TcpConnection.smallConnection) Any (fun s => reports s.calls = [false]) {} rfl
      [.event (.connectEstablished true), .own .nothing, .own (.submit (.rejected 5)), .own .nothing,
        .own .nothing, .own .nothing, .own .nothing, .own .nothing, .own .nothing] (by decide +kernel)
    refine ⟨s, hr, hreports, ?_⟩
    -- a run that is not refused does not start with the disconnected report
    rcases (reports_in_order TcpConnection.smallConnection s hr).1 with ⟨-, hprefix, -⟩ | hrefused
    · rw [hreports] at hprefix
      exact absurd hprefix (by decide)
    · exact hrefused

/-- The first read is rejected inside `connectEstablished`: the connection is closed and reported as
    disconnected, without a connected report. -/
theorem disconnected_unannounced :
    ∃ s, Reach (· = {}) (step TcpConnection.smallConnection) Any s ∧
      reports s.calls = [false] :=
  Reach.of_run _ _ _ _ {} rfl
    [.event (.connectEstablished true), .own .nothing, .own (.submit (.rejected 5)), .own .nothing,
      .own .nothing, .own .nothing, .own .nothing, .own .nothing, .own .nothing] (by decide +kernel)

end GameNet.IocpConnection
