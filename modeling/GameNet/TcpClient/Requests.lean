import GameNet.Connector.Attempt
import GameNet.TcpClient.Model

/- A client that has an active request does something for it. `Inv` says who does: a functor in the
   queue, the frame on the top of the stack, the connection, or the connector. Only three kinds of
   frames ever lie below the top, so a frame that was begun runs to its end, apart from the steps of
   other threads, which change nothing but the active request, the generations and the queue. The same
   invariant says that after a stop or a disconnect the connector carries no attempt. -/
namespace GameNet.TcpClient

open Connector (Core Carried)

/-! ## The invariant -/

/-- The frames that may lie below another one. -/
def Frame.resting : Frame → Bool
  | .user | .removeConnection _ | .connector (.settle _) => true
  | _ => false

/-- The frames of the connector. -/
def attempts (stack : List Frame) : List Connector.Frame :=
  stack.filterMap fun
    | .connector frame => some frame
    | _ => none

namespace State

/-- The request is in the queue. -/
def Queued (s : State) : Prop :=
  .connect s.activeConnectRequestId s.latestAcceptedOperationGeneration ∈ s.queue

/-- The latest stop or disconnect is in the queue. -/
def HaltQueued (s : State) : Prop :=
  .disconnect s.latestAcceptedOperationGeneration ∈ s.queue ∨
    .stop s.latestAcceptedOperationGeneration ∈ s.queue

/-- The connector carries an attempt. -/
def Carries (s : State) : Prop := Carried s.connector (attempts s.stack)

/-- The connection has the request, or will pass it on when it is removed. -/
def Kept (s : State) : Prop :=
  s.connection ≠ none ∧ (s.connectionRequestId = s.activeConnectRequestId ∨
    s.pendingReconnectRequestId = s.activeConnectRequestId ∧ s.connect = true)

/-- The frame has the request. -/
def Owes (s : State) : Frame → Prop
  | .connectInLoop requestId generation =>
    requestId = s.activeConnectRequestId ∧ generation = s.latestAcceptedOperationGeneration
  | .connectRequest requestId | .establish requestId | .reestablish requestId
  | .release requestId => requestId = s.activeConnectRequestId
  | .reconnect requestId pendingReconnectRequestId =>
    requestId = s.activeConnectRequestId ∨
      pendingReconnectRequestId = s.activeConnectRequestId ∧ s.connect = true
  | .newConnection => s.connectorRequestId = s.activeConnectRequestId
  | .finishTerminalConnectFailure requestId =>
    requestId = s.activeConnectRequestId ∧ s.pendingTerminalConnectRequestId = requestId
  | _ => False

/-- The frame is the latest stop or disconnect. -/
def Halts (s : State) : Frame → Prop
  | .disconnectInLoop generation | .stopInLoop generation =>
    generation = s.latestAcceptedOperationGeneration
  | .disconnectLatest | .stopLatest => True
  | _ => False

/-- What a frame on the top relies on. -/
def Ready (s : State) (below : List Frame) : Frame → Prop
  | .connector (.retry _ g) | .connector (.refused _ g) | .connector (.timedOut g) =>
    g = s.connector.requestGeneration → s.connectorRequestId ≠ 0 →
      s.pendingTerminalConnectRequestId = s.connectorRequestId
  | .connector (.schedule g) => g = s.connector.requestGeneration → s.connector.retryEnabled = true
  | .newConnection | .establish _ =>
    s.connection = none ∧ .connector (.settle s.connector.requestGeneration) ∈ below
  | .connectInLoop requestId generation =>
    requestId ≠ 0 ∧ generation < s.nextOperationGeneration
  | .connectRequest requestId => requestId ≠ 0
  | .disconnectInLoop generation | .stopInLoop generation =>
    generation < s.nextOperationGeneration ∧
      (generation = s.latestAcceptedOperationGeneration → s.activeConnectRequestId = 0)
  | .disconnectLatest | .stopLatest => s.activeConnectRequestId = 0 ∨ s.Queued
  | .reconnect _ _ | .reestablish _ => s.connection = none
  | _ => True

end State

/-- The numbers given out and the tasks of the queue: a connect has a request, and the latest
    operation is a stop or a disconnect only when no request is active. -/
structure Admission (latest nextGeneration nextRequest active : Nat) (queue : List Task) : Prop where
  next : latest < nextGeneration
  request : nextRequest ≠ 0
  connects : ∀ r g, .connect r g ∈ queue → r ≠ 0 ∧ g < nextGeneration
  halts : ∀ g, (.disconnect g ∈ queue ∨ .stop g ∈ queue) → g < nextGeneration ∧
    (g = latest → active = 0)

/-- The latest accepted operation is a stop or a disconnect. -/
def State.Halted (s : State) : Prop := s.latest = some .disconnect ∨ s.latest = some .stop

/-- What has to be done, and who does it: `carried` if the connector carries an attempt, `owed` if the
    frame on the top has the request, `halting` if it is the latest stop or disconnect. -/
structure Duties (s : State) (carried owed halting : Prop) : Prop where
  callback : s.connector.newConnectionCallback = true
  quiet : s.connection ≠ none → ¬carried
  admission : Admission s.latestAcceptedOperationGeneration s.nextOperationGeneration
    s.nextConnectRequestId s.activeConnectRequestId s.queue
  served : s.activeConnectRequestId ≠ 0 →
    s.Queued ∨ s.Kept ∨ (s.connectorRequestId = s.activeConnectRequestId ∧ carried) ∨ owed
  halted : s.Halted → s.activeConnectRequestId = 0 ∧
    (s.HaltQueued ∨ (s.connect = false ∧ ¬carried) ∨ halting)

structure Inv (s : State) : Prop where
  shape : ∀ f ∈ s.stack.tail, f.resting = true
  ready : ∀ f, s.stack.head? = some f → s.Ready s.stack.tail f
  good : Connector.Good s.connector (attempts s.stack)
  ended : ∀ conn, s.connection = some conn → conn.state = .disconnected →
    ∃ id, .removeConnection id ∈ s.stack
  duties : Duties s s.Carries (∃ f, s.stack.head? = some f ∧ s.Owes f)
    (∃ f, s.stack.head? = some f ∧ s.Halts f)

/-- A connection that was closed is being removed by a frame of the stack. -/
def State.Removing (s : State) (stack : List Frame) : Prop :=
  ∀ conn, s.connection = some conn → conn.state = .disconnected → ∃ id, .removeConnection id ∈ stack

section
variable {s s' : State} {f : Frame} {rest : List Frame} {carried owed halting : Prop}

@[simp]
theorem attempts_nil : attempts [] = [] := rfl

theorem attempts_append (stack stack' : List Frame) :
    attempts (stack ++ stack') = attempts stack ++ attempts stack' :=
  List.filterMap_append

theorem ready_of_resting (below : List Frame) (h : f.resting = true) : s.Ready below f := by
  cases f with
  | connector k =>
    cases k with
    | settle g => trivial
    | _ => cases h
  | user => trivial
  | removeConnection id => trivial
  | _ => cases h

theorem not_owes_of_resting (h : f.resting = true) : ¬s.Owes f := by
  cases f with
  | connector k => exact id
  | user => exact id
  | removeConnection id => exact fun h => h
  | _ => cases h

theorem not_halts_of_resting (h : f.resting = true) : ¬s.Halts f := by
  cases f with
  | connector k => exact id
  | user => exact id
  | removeConnection id => exact fun h => h
  | _ => cases h

/-! ## Taking the frame from the top, and putting one there -/

/-- The duties of other parties may be redistributed. -/
theorem Duties.pass {carried' owed' halting' : Prop} (h : Duties s carried owed halting)
    (hcarried : carried ↔ carried') (howed : s.activeConnectRequestId ≠ 0 → owed → owed')
    (hhalting : halting → halting') : Duties s carried' owed' halting' where
  callback := h.callback
  quiet := fun hne hc => h.quiet hne (hcarried.mpr hc)
  admission := h.admission
  served := fun hne => (h.served hne).imp_right (.imp_right (.imp (.imp_right hcarried.mp) (howed hne)))
  halted := fun hh => (h.halted hh).imp_right
    (.imp_right (.imp (.imp_right fun hn hc => hn (hcarried.mpr hc)) hhalting))

theorem Inv.take (h : Inv s) (hs : s.stack = f :: rest) :
    Duties s s.Carries (s.Owes f) (s.Halts f) := by
  refine h.duties.pass Iff.rfl ?_ ?_
  · rintro - ⟨x, hx, howes⟩
    rw [hs] at hx
    cases hx
    exact howes
  · rintro ⟨x, hx, hhalts⟩
    rw [hs] at hx
    cases hx
    exact hhalts

theorem Inv.rest_resting (h : Inv s) (hs : s.stack = f :: rest) : ∀ x ∈ rest, x.resting = true := by
  have hshape := h.shape
  rw [hs] at hshape
  exact hshape

theorem Inv.ready_top (h : Inv s) (hs : s.stack = f :: rest) : s.Ready rest f := by
  have hready := h.ready f (by rw [hs]; rfl)
  rw [hs] at hready
  exact hready

/-- A state whose stack only waits. -/
theorem Inv.of_resting (hshape : ∀ x ∈ s.stack, x.resting = true)
    (hgood : Connector.Good s.connector (attempts s.stack))
    (hended : s.Removing s.stack)
    (hduties : Duties s s.Carries False False) : Inv s where
  shape x hx := hshape x (List.mem_of_mem_tail hx)
  ready x hx := ready_of_resting _ (hshape x (List.mem_of_mem_head? hx))
  good := hgood
  ended := hended
  duties := hduties.pass Iff.rfl (fun _ => False.elim) False.elim

/-- A state with a frame on the top of frames that wait. -/
theorem Inv.of_top (hs : s.stack = f :: rest) (hshape : ∀ x ∈ rest, x.resting = true)
    (hready : s.Ready rest f) (hgood : Connector.Good s.connector (attempts s.stack))
    (hended : s.Removing s.stack)
    (hduties : Duties s s.Carries (s.Owes f) (s.Halts f)) : Inv s where
  shape := by
    rw [hs]
    exact hshape
  ready := by
    rw [hs]
    rintro x hx
    cases hx
    exact hready
  good := hgood
  ended := hended
  duties := hduties.pass Iff.rfl (fun _ howes => ⟨f, by rw [hs]; rfl, howes⟩)
    fun hhalts => ⟨f, by rw [hs]; rfl, hhalts⟩

theorem Inv.ended_rest (h : Inv s) (hs : s.stack = f :: rest) (hf : ∀ id, f ≠ .removeConnection id) :
    s.Removing rest := by
  intro conn hconn hstate
  obtain ⟨id, hid⟩ := h.ended conn hconn hstate
  rw [hs] at hid
  rcases List.mem_cons.mp hid with heq | hid
  · exact absurd heq.symm (hf id)
  · exact ⟨id, hid⟩

theorem Inv.good_rest (h : Inv s) (hs : s.stack = f :: rest) (hf : attempts [f] = []) :
    Connector.Good s.connector (attempts rest) := by
  have hgood := h.good
  rw [hs, ← List.singleton_append, attempts_append, hf] at hgood
  exact hgood

theorem carries_rest (hs : s.stack = f :: rest) (hf : attempts [f] = []) :
    s.Carries ↔ Carried s.connector (attempts rest) := by
  rw [State.Carries, hs, ← List.singleton_append, attempts_append, hf, List.nil_append]

/-- What is left when the frame is taken from the top. -/
theorem Inv.pop (h : Inv s) (hs : s.stack = f :: rest) (hattempts : attempts [f] = [])
    (hf : ∀ id, f ≠ .removeConnection id) :
    (∀ x ∈ rest, x.resting = true) ∧ Connector.Good s.connector (attempts rest) ∧ s.Removing rest ∧
      Duties s (Carried s.connector (attempts rest)) (s.Owes f) (s.Halts f) :=
  ⟨h.rest_resting hs, h.good_rest hs hattempts, h.ended_rest hs hf,
    (h.take hs).pass (carries_rest hs hattempts) (fun _ howes => howes) fun hhalts => hhalts⟩

/-- The frame returns. -/
theorem Inv.done (h : Inv s) (hs : s.stack = f :: rest) (hattempts : attempts [f] = [])
    (hf : ∀ id, f ≠ .removeConnection id) (howes : s.activeConnectRequestId ≠ 0 → ¬s.Owes f)
    (hhalts : ¬s.Halts f) : Inv { s with stack := rest } := by
  refine Inv.of_resting (h.rest_resting hs) (h.good_rest hs hattempts) (h.ended_rest hs hf) ?_
  have hduties := (h.take hs).pass (carries_rest hs hattempts) howes hhalts
  exact { hduties with }

/-- The frame goes on as another one. -/
theorem Inv.hand_on {f' : Frame} (h : Inv s) (hs : s.stack = f :: rest)
    (hattempts : attempts [f] = []) (hattempts' : attempts [f'] = [])
    (hf : ∀ id, f ≠ .removeConnection id) (hready : s.Ready rest f')
    (howes : s.activeConnectRequestId ≠ 0 → s.Owes f → s.Owes f') (hhalts : s.Halts f → s.Halts f') :
    Inv { s with stack := f' :: rest } := by
  have heq : attempts (f' :: rest) = attempts rest := by
    rw [← List.singleton_append, attempts_append, hattempts', List.nil_append]
  refine Inv.of_top rfl (h.rest_resting hs) hready ?_ (fun conn hconn hstate => ?_) ?_
  · show Connector.Good s.connector (attempts (f' :: rest))
    rw [heq]
    exact h.good_rest hs hattempts
  · obtain ⟨id, hid⟩ := h.ended_rest hs hf conn hconn hstate
    exact ⟨id, .tail _ hid⟩
  · have hcarries : s.Carries ↔ Carried s.connector (attempts (f' :: rest)) := by
      rw [heq]
      exact carries_rest hs hattempts
    have hduties := (h.take hs).pass hcarries howes hhalts
    exact { hduties with }

/-! ## The connector -/

section
variable (hshape : ∀ x ∈ s.stack, x.resting = true) (hnone : s.connection = none)
  (hadmission : Admission s.latestAcceptedOperationGeneration s.nextOperationGeneration
    s.nextConnectRequestId s.activeConnectRequestId s.queue)
  (hserved : s.activeConnectRequestId ≠ 0 →
    s.Queued ∨ s.connectorRequestId = s.activeConnectRequestId)
  (hhalted : s.Halted → s.activeConnectRequestId = 0 ∧ s.HaltQueued)
include hshape hnone hadmission hserved hhalted

/-- A frame of the connector carries the attempt, for the request of the connector. -/
theorem Inv.carry {c : Core} {k : Connector.Frame} {pending : Nat}
    (hgood : Connector.Good c (k :: attempts s.stack)) (hcallback : c.newConnectionCallback = true)
    (hpending : k.pending = true) (hcurrent : k.generation = some c.requestGeneration)
    (hready : { s with
      connector := c, pendingTerminalConnectRequestId := pending }.Ready s.stack (.connector k)) :
    Inv { s with
      connector := c
      pendingTerminalConnectRequestId := pending
      stack := .connector k :: s.stack } := by
  have hcarried : Carried c (k :: attempts s.stack) := .head hpending hcurrent
  refine Inv.of_top rfl hshape hready hgood (fun conn hconn => ?_) ?_
  · exact absurd (hnone.symm.trans hconn) nofun
  · refine ⟨hcallback, fun hne => absurd hnone hne, hadmission, fun hne => ?_, fun hh => ?_⟩
    · rcases hserved hne with hq | heq
      · exact .inl hq
      · exact .inr (.inr (.inl ⟨heq, hcarried⟩))
    · exact (hhalted hh).imp_right .inl

/-- The client asks the connector for an attempt. -/
theorem Inv.restart (hgood : Connector.Good s.connector (attempts s.stack))
    (hcallback : s.connector.newConnectionCallback = true) :
    Inv (s.drive s.connector.restart) := by
  have hgood := hgood.restart
  obtain ⟨c, heq, -, hcallback'⟩ := Connector.restart_eq s.connector
  rw [heq] at hgood ⊢
  exact .carry hshape hnone hadmission hserved hhalted (hgood.pop rfl) (hcallback'.trans hcallback)
    rfl rfl trivial

theorem Inv.start (hstate : s.connector.state ≠ .connected)
    (hgood : Connector.Good s.connector (attempts s.stack))
    (hcallback : s.connector.newConnectionCallback = true) :
    Inv (s.drive s.connector.start) := by
  have hgood := hgood.start
  obtain ⟨c, heq, -, hcallback'⟩ := Connector.start_eq hstate
  rw [heq] at hgood ⊢
  exact .carry hshape hnone hadmission hserved hhalted (hgood.pop rfl) (hcallback'.trans hcallback)
    rfl rfl trivial

end

/-- While an attempt is carried there is no connection, and only the queue may supersede it. -/
theorem Duties.of_carried (h : Duties s carried False False) (hc : carried) :
    s.connection = none ∧
      (s.activeConnectRequestId ≠ 0 →
        s.Queued ∨ s.connectorRequestId = s.activeConnectRequestId) ∧
      (s.Halted → s.activeConnectRequestId = 0 ∧ s.HaltQueued) := by
  have hnone : s.connection = none := by
    by_contra hne
    exact h.quiet hne hc
  refine ⟨hnone, fun hne => ?_, fun hh => ?_⟩
  · rcases h.served hne with hq | ⟨hconn, -⟩ | ⟨heq, -⟩ | hfalse
    · exact .inl hq
    · exact absurd hnone hconn
    · exact .inr heq
    · exact hfalse.elim
  · obtain ⟨hactive, hq | ⟨-, hnot⟩ | hfalse⟩ := h.halted hh
    · exact ⟨hactive, hq⟩
    · exact absurd hc hnot
    · exact hfalse.elim

/-- A terminal failure goes on with the end of the request it belongs to. -/
theorem Inv.failed {c : Core} (hshape : ∀ x ∈ s.stack, x.resting = true)
    (hgood : Connector.Good c (attempts s.stack)) (hcallback : c.newConnectionCallback = true)
    (hduties : Duties s carried False False) (hc : carried)
    (hterminal : s.connectorRequestId ≠ 0 →
      s.pendingTerminalConnectRequestId = s.connectorRequestId) :
    Inv (s.drive (c, [.emit .terminalFailure])) := by
  obtain ⟨hnone, hserved, hhalted⟩ := hduties.of_carried hc
  have hended : ∀ {P : Prop} conn, s.connection = some conn → P :=
    fun conn hconn => absurd (hnone.symm.trans hconn) nofun
  show Inv (State.handleConnectorEvent { s with connector := c, stack := s.stack } .terminalFailure)
  unfold State.handleConnectorEvent
  dsimp only
  split
  case isTrue hpending =>
    refine Inv.of_top rfl hshape trivial hgood (fun conn hconn => hended conn hconn) ?_
    refine ⟨hcallback, fun hne => absurd hnone hne, hduties.admission, fun hne => ?_, fun hh => ?_⟩
    · rcases hserved hne with hq | heq
      · exact .inl hq
      · refine .inr (.inr (.inr ⟨?_, rfl⟩))
        exact (hterminal (heq ▸ hne)).trans heq
    · exact (hhalted hh).imp_right .inl
  case isFalse hpending =>
    refine Inv.of_resting hshape hgood (fun conn hconn => hended conn hconn) ?_
    refine ⟨hcallback, fun hne => absurd hnone hne, hduties.admission, fun hne => ?_, fun hh => ?_⟩
    · rcases hserved hne with hq | heq
      · exact .inl hq
      · -- The failure was noted, so a request that is still active is pending.
        refine absurd ?_ hpending
        rw [hterminal (heq ▸ hne)]
        exact heq ▸ hne
    · exact (hhalted hh).imp_right .inl

/-- The connector hands its descriptor to `newConnection`. -/
theorem Inv.delivered {c : Core} {fd : Nat} (hshape : ∀ x ∈ s.stack, x.resting = true)
    (hgood : Connector.Good c (.newConnection fd :: .settle c.requestGeneration :: attempts s.stack))
    (hcallback : c.newConnectionCallback = true) (hduties : Duties s carried False False)
    (hc : carried) :
    Inv (s.drive (c, [.newConnection fd, .settle c.requestGeneration])) := by
  obtain ⟨hnone, hserved, hhalted⟩ := hduties.of_carried hc
  have hshape' : ∀ x ∈ Frame.connector (.settle c.requestGeneration) :: s.stack, x.resting = true := by
    intro x hx
    rcases List.mem_cons.mp hx with rfl | hx
    · rfl
    · exact hshape x hx
  refine Inv.of_top rfl hshape' ⟨hnone, .head _⟩ (hgood.pop rfl) (fun conn hconn => ?_) ?_
  · exact absurd (hnone.symm.trans hconn) nofun
  · refine ⟨hcallback, fun hne => absurd hnone hne, hduties.admission, fun hne => ?_, fun hh => ?_⟩
    · exact (hserved hne).imp_right fun heq => .inr (.inr heq)
    · exact (hhalted hh).imp_right .inl

/-- A step of the connector. -/
theorem Inv.drive {result : Core × List Connector.Frame} {fails : Prop}
    (hshape : ∀ x ∈ s.stack, x.resting = true)
    (hgood : Connector.Good result.1 (result.2 ++ attempts s.stack))
    (hended : s.Removing s.stack)
    (hduties : Duties s carried False False)
    (houtcome : Connector.Outcome s.connector carried fails (attempts s.stack) result)
    (hterminal : fails → s.connectorRequestId ≠ 0 →
      s.pendingTerminalConnectRequestId = s.connectorRequestId) :
    Inv (s.drive result) := by
  cases houtcome with
  | kept c hsame hkept =>
    refine Inv.of_resting hshape hgood hended ?_
    have hduties := hduties.pass hkept.symm (fun _ => id) id
    exact { hduties with callback := hsame.newConnectionCallback.trans hduties.callback }
  | emitted c event k hsame hfollows hcurrent hretry hbefore =>
    have hcallback := hsame.newConnectionCallback.trans hduties.callback
    have hpending := Connector.follows_pending hfollows
    rw [← hsame.generation] at hcurrent
    obtain ⟨hnone, hserved, hhalted⟩ := hduties.of_carried hbefore
    have hemitted : ∀ pending : Nat, _ → Inv { s with
        connector := c, pendingTerminalConnectRequestId := pending, stack := .connector k :: s.stack } :=
      fun _ => .carry hshape hnone hduties.admission hserved hhalted (hgood.pop rfl) hcallback hpending
        hcurrent
    -- The three events that may be followed by a terminal failure.
    have hnoted : (∀ pending : Nat, (s.connectorRequestId ≠ 0 → pending = s.connectorRequestId) →
        { s with connector := c, pendingTerminalConnectRequestId := pending }.Ready s.stack
          (.connector k)) →
        Inv (State.handleConnectorEvent
          { s with connector := c, stack := .connector k :: s.stack } .connectFailed) := by
      intro hready
      unfold State.handleConnectorEvent
      dsimp only
      split
      case isTrue hzero =>
        exact hemitted s.pendingTerminalConnectRequestId (hready _ fun hne => absurd hzero hne)
      case isFalse => exact hemitted s.connectorRequestId (hready _ fun _ => rfl)
    cases event with
    | connectAttempt =>
      cases k with
      | attempt g => exact hemitted s.pendingTerminalConnectRequestId trivial
      | _ => cases hfollows
    | connectFailed =>
      cases k with
      | retry fd g => exact hnoted fun _ hp _ => hp
      | refused fd g => exact hnoted fun _ hp _ => hp
      | _ => cases hfollows
    | selfConnectDetected =>
      cases k with
      | retry fd g => exact hnoted fun _ hp _ => hp
      | _ => cases hfollows
    | connectTimeout =>
      cases k with
      | timedOut g => exact hnoted fun _ hp _ => hp
      | _ => cases hfollows
    | retryScheduled =>
      cases k with
      | schedule g => exact hemitted 0 fun _ => hretry rfl
      | _ => cases hfollows
    | connectSuccess =>
      cases k with
      | deliver fd g => exact hemitted 0 trivial
      | _ => cases hfollows
    | terminalFailure => cases k <;> cases hfollows
  | failed c hsame hfails hbefore =>
    exact .failed hshape (hgood.pop rfl) (hsame.newConnectionCallback.trans hduties.callback) hduties
      hbefore (hterminal hfails)
  | delivered c fd hsame hbefore =>
    rw [← hsame.generation] at hgood ⊢
    exact .delivered hshape hgood (hsame.newConnectionCallback.trans hduties.callback) hduties hbefore

theorem Inv.resume_connector {k : Connector.Frame} (h : Inv s) (hs : s.stack = .connector k :: rest)
    (answer : Connector.Answer) :
    Inv ({ s with stack := rest }.drive (s.connector.resume answer k)) := by
  have hready := h.ready_top hs
  have hgood : Connector.Good s.connector (k :: attempts rest) := by
    have hgood := h.good
    rw [hs] at hgood
    exact hgood
  have hduties : Duties s (Carried s.connector (k :: attempts rest)) False False :=
    (h.take hs).pass (by rw [State.Carries, hs]; rfl) (fun _ => id) id
  refine Inv.drive (h.rest_resting hs) (hgood.resume answer) (h.ended_rest hs nofun)
    { hduties with }
    (Connector.resume_outcome hgood answer ?_ hduties.callback) ?_
  · rintro g rfl hcurrent
    exact hready hcurrent
  · rintro ⟨hfails, hcurrent⟩
    cases k with
    | refused fd g => exact hready (Option.some.inj hcurrent)
    | retry fd g => exact hready (Option.some.inj hcurrent)
    | timedOut g => exact hready (Option.some.inj hcurrent)
    | _ => cases hfails

/-! ## Frames of the client -/

theorem Inv.resume_connectInLoop {r g : Nat} (h : Inv s) (hs : s.stack = .connectInLoop r g :: rest)
    (answer : Answer) : Inv ({ s with stack := rest }.resume answer (.connectInLoop r g)) := by
  rw [State.resume]
  split
  case isTrue hne => exact h.done hs rfl nofun (fun _ howes => hne howes.2.symm) id
  case isFalse => exact h.hand_on hs rfl rfl nofun (h.ready_top hs).1 (fun _ howes => howes.1) id

theorem Inv.resume_disconnectInLoop {g : Nat} (h : Inv s)
    (hs : s.stack = .disconnectInLoop g :: rest) (answer : Answer) :
    Inv ({ s with stack := rest }.resume answer (.disconnectInLoop g)) := by
  rw [State.resume]
  split
  case isTrue hne => exact h.done hs rfl nofun (fun _ => id) fun heq => hne heq.symm
  case isFalse heq =>
    rw [not_not] at heq
    have hready := (h.ready_top hs).2 heq.symm
    exact h.hand_on hs rfl rfl nofun (.inl hready) (fun _ => False.elim) fun _ => trivial

theorem Inv.resume_stopInLoop {g : Nat} (h : Inv s) (hs : s.stack = .stopInLoop g :: rest)
    (answer : Answer) : Inv ({ s with stack := rest }.resume answer (.stopInLoop g)) := by
  rw [State.resume]
  split
  case isTrue hne => exact h.done hs rfl nofun (fun _ => id) fun heq => hne heq.symm
  case isFalse heq =>
    rw [not_not] at heq
    have hready := (h.ready_top hs).2 heq.symm
    exact h.hand_on hs rfl rfl nofun (.inl hready) (fun _ => False.elim) fun _ => trivial

theorem Inv.resume_connectRequest (h : Inv s) (hs : s.stack = .connectRequest r :: rest)
    (answer : Answer) : Inv ({ s with stack := rest }.resume answer (.connectRequest r)) := by
  rw [State.resume]
  split
  case isTrue hne => exact h.done hs rfl nofun (fun _ howes => hne howes.symm) id
  case isFalse heq =>
    rw [not_not] at heq
    have hactive : s.activeConnectRequestId = r := heq
    have hne : s.activeConnectRequestId ≠ 0 := hactive ▸ h.ready_top hs
    obtain ⟨hshape, hgood, hended, hduties⟩ := h.pop hs rfl nofun
    have hhalted : ∀ {P : Prop}, s.Halted → P := fun hh => absurd (h.duties.halted hh).1 hne
    rw [State.connectRequest]
    dsimp only
    split
    case h_1 conn hconn =>
      have hsome : s.connection ≠ none := by rw [hconn]; exact nofun
      split
      · exact Inv.of_resting hshape hgood hended
          { hduties with served := fun _ => .inr (.inl ⟨hsome, .inl hactive.symm⟩), halted := hhalted }
      · exact Inv.of_resting hshape hgood hended
          { hduties with served := fun _ => .inr (.inl ⟨hsome, .inr ⟨hactive.symm, rfl⟩⟩), halted := hhalted }
    case h_2 hnone =>
      split
      · exact Inv.restart hshape hnone hduties.admission (fun _ => .inr hactive.symm) hhalted hgood
          hduties.callback
      case isFalse hstate =>
        exact Inv.start hshape hnone hduties.admission (fun _ => .inr hactive.symm) hhalted hstate hgood
          hduties.callback

/-- The connector is stopped, and carries nothing. -/
theorem Inv.halt (hshape : ∀ x ∈ s.stack, x.resting = true)
    (hgood : Connector.Good s.connector (attempts s.stack))
    (hended : s.Removing s.stack)
    (hduties : Duties s carried owed halting) (hready : s.activeConnectRequestId = 0 ∨ s.Queued) :
    Inv { s with connect := false, connector := s.connector.stop } := by
  have hnot := hgood.stop.not_carried
  refine Inv.of_resting hshape hgood.stop.good hended
    ⟨(Connector.stop_silent s.connector).2.trans hduties.callback, fun _ => hnot, hduties.admission,
      fun hne => .inl (hready.resolve_left hne), fun hh => ?_⟩
  exact ⟨(hduties.halted hh).1, .inr (.inl ⟨rfl, hnot⟩)⟩

theorem Inv.resume_stopLatest (h : Inv s) (hs : s.stack = .stopLatest :: rest) (answer : Answer) :
    Inv ({ s with stack := rest }.resume answer .stopLatest) := by
  obtain ⟨hshape, hgood, hended, hduties⟩ := h.pop hs rfl nofun
  exact Inv.halt (s := { s with stack := rest }) hshape hgood hended { hduties with } (h.ready_top hs)

theorem Inv.resume_disconnectLatest (h : Inv s) (hs : s.stack = .disconnectLatest :: rest)
    (answer : Answer) : Inv ({ s with stack := rest }.resume answer .disconnectLatest) := by
  have hready := h.ready_top hs
  obtain ⟨hshape, hgood, hended, hduties⟩ := h.pop hs rfl nofun
  have hserved : s.activeConnectRequestId ≠ 0 → s.Queued := hready.resolve_left
  rw [State.resume, State.disconnectLatest]
  dsimp only
  split
  case h_1 conn hconn =>
    have hquiet := hduties.quiet (by rw [hconn]; exact nofun)
    have hhalted := fun hh => (⟨(hduties.halted hh).1, .inr (.inl ⟨rfl, hquiet⟩)⟩ :
      s.activeConnectRequestId = 0 ∧
        (s.HaltQueued ∨ (false = false ∧ ¬Carried s.connector (attempts rest)) ∨ False))
    split
    · exact Inv.of_resting hshape hgood hended ⟨hduties.callback, fun _ => hquiet, hduties.admission,
        fun hne => .inl (hserved hne), hhalted⟩
    case isFalse hstate =>
      split
      · exact Inv.of_resting hshape hgood hended ⟨hduties.callback, fun _ => hquiet,
          hduties.admission, fun hne => .inl (hserved hne), hhalted⟩
      · refine Inv.of_resting hshape hgood (fun conn' hconn' hstate' => ?_) ⟨hduties.callback,
          fun _ => hquiet, hduties.admission, fun hne => .inl (hserved hne), hhalted⟩
        cases hconn'
        cases hstate'
      · refine Inv.of_resting (fun x hx => ?_) hgood (fun _ _ _ => ⟨conn.id, .tail _ (.tail _ (.head _))⟩)
          ⟨hduties.callback, fun _ => hquiet, hduties.admission, fun hne => .inl (hserved hne), hhalted⟩
        rcases hx with _ | ⟨_, _ | ⟨_, _ | ⟨_, hx⟩⟩⟩
        · rfl
        · rfl
        · rfl
        · exact hshape x hx
  case h_2 hnone =>
    exact Inv.halt (s := { s with stack := rest }) hshape hgood hended
      { hduties with } hready

variable {queue : List Task} {latest next request active : Nat}

/-- No request is active any more. -/
theorem Admission.clear
    (h : Admission latest next request active queue) : Admission latest next request 0 queue :=
  { h with halts := fun g hg => ⟨(h.halts g hg).1, fun _ => rfl⟩ }

theorem Inv.resume_finishTerminalConnectFailure (h : Inv s)
    (hs : s.stack = .finishTerminalConnectFailure r :: rest) (answer : Answer) :
    Inv ({ s with stack := rest }.resume answer (.finishTerminalConnectFailure r)) := by
  rw [State.resume, State.finishTerminalConnectFailure]
  split
  case isTrue hne => exact h.done hs rfl nofun (fun _ howes => hne howes.2) id
  case isFalse =>
    obtain ⟨hshape, hgood, hended, hduties⟩ := h.pop hs rfl nofun
    dsimp only
    split
    · refine Inv.of_resting (fun x hx => ?_) hgood (fun conn hconn hstate => ?_)
        ⟨hduties.callback, hduties.quiet, hduties.admission.clear, fun hne => absurd rfl hne,
          fun hh => ⟨rfl, (hduties.halted hh).2⟩⟩
      · rcases List.mem_cons.mp hx with rfl | hx
        · rfl
        · exact hshape x hx
      · obtain ⟨id, hid⟩ := hended conn hconn hstate
        exact ⟨id, .tail _ hid⟩
    case isFalse hother =>
      refine Inv.of_resting hshape hgood hended
        { hduties with served := fun hne => ?_ }
      rcases hduties.served hne with hq | hk | ⟨heq, hc⟩ | howes
      · exact .inl hq
      · exact .inr (.inl hk)
      · refine .inr (.inr (.inl ⟨?_, hc⟩))
        show (if s.connectorRequestId = r then 0 else s.connectorRequestId) = _
        rw [if_neg fun hr => hother (heq.symm.trans hr)]
        exact heq
      · exact absurd howes.1.symm hother

theorem Inv.resume_newConnection (h : Inv s) (hs : s.stack = .newConnection :: rest)
    (answer : Answer) : Inv ({ s with stack := rest }.resume answer .newConnection) := by
  rw [State.resume, State.newConnection]
  dsimp only
  split
  case isTrue hother =>
    have hdone := h.done hs rfl nofun (fun hne howes => ?_) id
    · exact { hdone with duties := { hdone.duties with } }
    · rcases hother with hzero | hactive
      · exact hne (howes.symm.trans hzero)
      · exact hactive howes.symm
  case isFalse =>
    have hready := h.ready_top hs
    exact h.hand_on hs rfl rfl nofun (by exact hready) (fun _ howes => howes) id

/-- The hand-over ends while the attempt that was delivered is not carried. -/
theorem Inv.not_carries_of_establish (h : Inv s) (hs : s.stack = .establish r :: rest) :
    ¬Carried s.connector (attempts rest) := by
  obtain ⟨-, hmem⟩ := h.ready_top hs
  refine (h.good_rest hs rfl).not_carried_of_settle ?_ rfl
  exact List.mem_filterMap.mpr ⟨_, hmem, rfl⟩

theorem Inv.resume_establish (h : Inv s) (hs : s.stack = .establish r :: rest)
    (answer : Answer) : Inv ({ s with stack := rest }.resume answer (.establish r)) := by
  obtain ⟨hnone, -⟩ := h.ready_top hs
  have hnot := h.not_carries_of_establish hs
  obtain ⟨hshape, hgood, -, hduties⟩ := h.pop hs rfl nofun
  have hended : ∀ {P : Prop} conn, s.connection = some conn → P :=
    fun conn hconn => absurd (hnone.symm.trans hconn) nofun
  -- Without a connection and an attempt, only this frame can have the request.
  have hserved : s.activeConnectRequestId ≠ 0 → s.Queued ∨ r = s.activeConnectRequestId := by
    intro hne
    rcases hduties.served hne with hq | ⟨hconn, -⟩ | ⟨-, hc⟩ | howes
    · exact .inl hq
    · exact absurd hnone hconn
    · exact absurd hc hnot
    · exact .inr howes
  have hpush : ∀ (threw : Bool) (request reconnect : Nat), Inv { s with
      threw := threw
      connectionRequestId := request
      pendingReconnectRequestId := reconnect
      pendingTerminalConnectRequestId := r
      stack := .finishTerminalConnectFailure r :: rest } := by
    intro threw request reconnect
    refine Inv.of_top rfl hshape trivial hgood (fun conn hconn => hended conn hconn)
      ⟨hduties.callback, fun hne => absurd hnone hne, hduties.admission, fun hne => ?_,
        fun hh => ⟨(hduties.halted hh).1, ?_⟩⟩
    · exact (hserved hne).imp_right fun heq => .inr (.inr ⟨heq, rfl⟩)
    · exact (hduties.halted hh).2
  rw [State.resume]
  cases answer.handover with
  | addressFailed =>
    rw [State.establish]
    dsimp only
    split
    case isTrue hretry =>
      refine Inv.restart hshape hnone hduties.admission hserved (fun hh => ?_) hgood hduties.callback
      -- A stop that was executed has cleared `connect`.
      obtain ⟨hactive, hq | ⟨hconnect, -⟩ | hfalse⟩ := hduties.halted hh
      · exact ⟨hactive, hq⟩
      · have hconnect' : s.connect = true := hretry.2
        rw [hconnect] at hconnect'
        cases hconnect'
      · exact hfalse.elim
    case isFalse => exact hpush false s.connectionRequestId s.pendingReconnectRequestId
  | threw published => exact hpush true _ _
  | established =>
    rw [State.establish]
    refine Inv.of_resting (fun x hx => ?_) hgood (fun conn hconn hstate => ?_)
      { hduties with quiet := fun _ => hnot, served := fun hne => ?_ }
    · rcases List.mem_cons.mp hx with rfl | hx
      · rfl
      · exact hshape x hx
    · cases hconn
      cases hstate
    · exact (hserved hne).imp_right fun heq => .inl ⟨nofun, .inl heq⟩

theorem Inv.resume_removeConnection {id : Nat} (h : Inv s)
    (hs : s.stack = .removeConnection id :: rest) (answer : Answer) :
    Inv ({ s with stack := rest }.resume answer (.removeConnection id)) := by
  have hduties := (h.take hs).pass (carries_rest hs rfl) (fun _ => fun x => x) fun x => x
  have hgood := h.good_rest hs rfl
  refine Inv.of_top rfl (h.rest_resting hs) rfl hgood nofun
    { hduties with quiet := fun hne => absurd rfl hne, served := fun hne => ?_ }
  rcases hduties.served hne with hq | ⟨-, hk⟩ | hc | hfalse
  · exact .inl hq
  · exact .inr (.inr (.inr hk))
  · exact .inr (.inr (.inl hc))
  · exact hfalse.elim

/-- The connector is restarted for the active request. -/
theorem Inv.restart_request (h : Inv s) (hs : s.stack = f :: rest) (hnone : s.connection = none)
    (hne : r ≠ 0) (hactive : s.activeConnectRequestId = r) (hattempts : attempts [f] = []) :
    Inv ({ s with connectorRequestId := r, stack := rest }.drive s.connector.restart) := by
  refine Inv.restart (h.rest_resting hs) hnone h.duties.admission (fun _ => .inr hactive.symm)
    (fun hh => ?_) (h.good_rest hs hattempts) h.duties.callback
  exact absurd (hactive.symm.trans (h.duties.halted hh).1) hne

theorem Inv.resume_reconnect {q p : Nat} (h : Inv s) (hs : s.stack = .reconnect q p :: rest)
    (answer : Answer) : Inv ({ s with stack := rest }.resume answer (.reconnect q p)) := by
  have hnone : s.connection = none := h.ready_top hs
  rw [State.resume, State.reconnect]
  split
  case isTrue hpending =>
    exact h.restart_request hs hnone hpending.1 hpending.2.1 rfl
  case isFalse hpending =>
    refine h.hand_on hs rfl rfl nofun hnone (fun hne howes => ?_) id
    rcases howes with heq | ⟨heq, hconnect⟩
    · exact heq
    · exact absurd ⟨heq ▸ hne, heq.symm, hconnect⟩ hpending

theorem Inv.resume_reestablish {q : Nat} (h : Inv s) (hs : s.stack = .reestablish q :: rest)
    (answer : Answer) : Inv ({ s with stack := rest }.resume answer (.reestablish q)) := by
  have hnone : s.connection = none := h.ready_top hs
  rw [State.resume, State.reestablish]
  split
  case isTrue hretry =>
    exact h.restart_request hs hnone hretry.1 hretry.2.1 rfl
  case isFalse => exact h.hand_on hs rfl rfl nofun trivial (fun _ howes => howes) id

theorem Inv.resume_release {q : Nat} (h : Inv s) (hs : s.stack = .release q :: rest)
    (answer : Answer) : Inv ({ s with stack := rest }.resume answer (.release q)) := by
  rw [State.resume, State.release]
  split
  case isTrue =>
    obtain ⟨hshape, hgood, hended, hduties⟩ := h.pop hs rfl nofun
    exact Inv.of_resting hshape hgood hended ⟨hduties.callback, hduties.quiet,
      hduties.admission.clear, fun hne => absurd rfl hne, fun hh => ⟨rfl, (hduties.halted hh).2⟩⟩
  case isFalse hne => exact h.done hs rfl nofun (fun _ howes => hne howes.symm) id

theorem Inv.resume_driveControl (h : Inv s) (hs : s.stack = .driveControl :: rest)
    (answer : Answer) : Inv ({ s with stack := rest }.resume answer .driveControl) := by
  unfold State.resume
  dsimp only
  split
  case h_1 op _ =>
    have hnext : Inv { s with stack := .control op :: rest } :=
      h.hand_on hs rfl rfl nofun trivial (fun _ howes => howes) id
    exact { hnext with duties := { hnext.duties with } }
  case h_2 => exact h.done hs rfl nofun (fun _ => id) id

/-! ## Admission -/

theorem Admission.accept {latest next request active active' request' : Nat}
    (h : Admission latest next request active queue) (hrequest : request' ≠ 0) :
    Admission next (next + 1) request' active' queue where
  next := Nat.lt_succ_self next
  request := hrequest
  connects r g hmem := (h.connects r g hmem).imp_right Nat.lt_succ_of_lt
  halts g hmem := by
    have hlt := (h.halts g hmem).1
    exact ⟨Nat.lt_succ_of_lt hlt, fun heq => absurd heq hlt.ne⟩

variable {op : Op}

/-- An operation is accepted, and runs inline. -/
theorem Inv.accept_inline {r n : Nat} (h : Inv s)
    (hshape : ∀ x ∈ s.stack, x.resting = true) (hattempts : attempts (f :: s.stack) = attempts s.stack)
    (hn : n ≠ 0)
    (hready : { s.accept op r with nextConnectRequestId := n }.Ready s.stack f)
    (howes : r ≠ 0 → { s.accept op r with nextConnectRequestId := n }.Owes f)
    (hhalts : op ≠ .connect → r = 0 ∧ { s.accept op r with nextConnectRequestId := n }.Halts f) :
    Inv { { s with stack := f :: s.stack }.accept op r with nextConnectRequestId := n } := by
  have hcarries : s.Carries ↔ Carried s.connector (attempts (f :: s.stack)) := by
    rw [hattempts]
    exact Iff.rfl
  have hgood := h.good
  rw [← hattempts] at hgood
  refine Inv.of_top rfl hshape hready hgood (fun conn hconn hstate => ?_)
    ⟨h.duties.callback, fun hne hc => h.duties.quiet hne (hcarries.mpr hc), h.duties.admission.accept hn,
      fun hne => .inr (.inr (.inr (howes hne))), fun hh => ?_⟩
  · obtain ⟨id, hid⟩ := h.ended conn hconn hstate
    exact ⟨id, .tail _ hid⟩
  · have hop : op ≠ .connect := by
      rintro rfl
      rcases hh with hh | hh <;> cases hh
    exact ⟨(hhalts hop).1, .inr (.inr (hhalts hop).2)⟩

theorem Inv.call (h : Inv s) (hshape : ∀ x ∈ s.stack, x.resting = true) (op : Op) :
    Inv (s.call op) := by
  have hrequest := h.duties.admission.request
  cases op with
  | connect =>
    unfold State.call State.tryOperation
    dsimp only
    split
    · exact { h with duties := { h.duties with } }
    · exact h.accept_inline (f := .connectInLoop _ _) hshape rfl (Nat.succ_ne_zero _)
        ⟨hrequest, Nat.lt_succ_self _⟩ (fun _ => ⟨rfl, rfl⟩) fun hne => absurd rfl hne
  | disconnect =>
    exact h.accept_inline (f := .disconnectInLoop _) hshape rfl hrequest
      ⟨Nat.lt_succ_self _, fun _ => rfl⟩ (fun hne => absurd rfl hne) fun _ => ⟨rfl, rfl⟩
  | stop =>
    exact h.accept_inline (f := .stopInLoop _) hshape rfl hrequest
      ⟨Nat.lt_succ_self _, fun _ => rfl⟩ (fun hne => absurd rfl hne) fun _ => ⟨rfl, rfl⟩

theorem Inv.resume_control (h : Inv s) (hs : s.stack = .control op :: rest)
    (answer : Answer) : Inv ({ s with stack := rest }.resume answer (.control op)) := by
  have hdone : Inv { s with stack := rest } := h.done hs rfl nofun (fun _ => id) id
  have hcall := hdone.call (h.rest_resting hs) op
  exact { hcall with duties := { hcall.duties with } }

variable {task : Task}

theorem Admission.snoc
    (h : Admission latest next request active queue)
    (hconnect : ∀ r g, task = .connect r g → r ≠ 0 ∧ g < next)
    (hhalt : ∀ g, (task = .disconnect g ∨ task = .stop g) → g < next ∧ (g = latest → active = 0)) :
    Admission latest next request active (queue ++ [task]) where
  next := h.next
  request := h.request
  connects r g hmem := by
    rcases List.mem_append.mp hmem with hmem | hmem
    · exact h.connects r g hmem
    · exact hconnect r g (List.mem_singleton.mp hmem).symm
  halts g hmem := by
    rw [List.mem_append, List.mem_append, List.mem_singleton, List.mem_singleton] at hmem
    rcases hmem with (hmem | hmem) | (hmem | hmem)
    · exact h.halts g (.inl hmem)
    · exact hhalt g (.inl hmem.symm)
    · exact h.halts g (.inr hmem)
    · exact hhalt g (.inr hmem.symm)

/-- Another thread has an operation accepted. -/
theorem ready_accept {r n : Nat} {below : List Frame} (h : s.Ready below f)
    (hrequest : r = 0 ∨ task = .connect r s.nextOperationGeneration) :
    { { s with queue := s.queue ++ [task] }.accept op r with
      nextConnectRequestId := n }.Ready below f := by
  have hlatest : r = 0 ∨ Task.connect r s.nextOperationGeneration ∈ s.queue ++ [task] :=
    hrequest.imp_right fun heq : task = _ => by rw [heq]; exact List.mem_concat_self
  have hhalt : ∀ g : Nat, g < s.nextOperationGeneration → g < s.nextOperationGeneration + 1 ∧
      (g = s.nextOperationGeneration → r = 0) :=
    fun g hlt => ⟨Nat.lt_succ_of_lt hlt, fun heq => absurd heq hlt.ne⟩
  cases f with
  | connectInLoop q g => exact h.imp_right Nat.lt_succ_of_lt
  | disconnectInLoop g => exact hhalt g h.1
  | stopInLoop g => exact hhalt g h.1
  | disconnectLatest => exact hlatest
  | stopLatest => exact hlatest
  | connector k => cases k <;> exact h
  | _ => exact h

theorem Inv.post_connect {r n : Nat} (h : Inv s) (hr : r ≠ 0) (hn : n ≠ 0) :
    Inv { { s with queue := s.queue ++ [Task.connect r s.nextOperationGeneration] }.accept .connect r with
      nextConnectRequestId := n } where
  shape := h.shape
  ready x hx := ready_accept (h.ready x hx) (.inr rfl)
  good := h.good
  ended := h.ended
  duties := by
    refine ⟨h.duties.callback, h.duties.quiet, (h.duties.admission.accept hn).snoc ?_ ?_,
      fun _ => .inl List.mem_concat_self, fun hh => ?_⟩
    · rintro q g heq
      cases heq
      exact ⟨hr, Nat.lt_succ_self _⟩
    · rintro g (hg | hg) <;> cases hg
    · rcases hh with hh | hh <;> cases hh

theorem Inv.post_halt (h : Inv s)
    (htask : task = .disconnect s.nextOperationGeneration ∨ task = .stop s.nextOperationGeneration) :
    Inv ({ s with queue := s.queue ++ [task] }.accept op 0) where
  shape := h.shape
  ready x hx := ready_accept (h.ready x hx) (.inl rfl)
  good := h.good
  ended := h.ended
  duties := by
    refine ⟨h.duties.callback, h.duties.quiet,
      (h.duties.admission.accept h.duties.admission.request).snoc ?_ ?_, fun hne => absurd rfl hne,
      fun _ => ⟨rfl, .inl ?_⟩⟩
    · rintro q g rfl
      rcases htask with htask | htask <;> cases htask
    · rintro g hg
      have heq : g = s.nextOperationGeneration := by
        rcases htask with rfl | rfl <;> rcases hg with hg | hg <;> cases hg <;> rfl
      exact ⟨heq ▸ Nat.lt_succ_self _, fun _ => rfl⟩
    · rcases htask with rfl | rfl
      · exact .inl List.mem_concat_self
      · exact .inr List.mem_concat_self

/-- Another thread has an operation refused. -/
theorem Inv.refuse {n : Nat} (h : Inv s) (hn : n ≠ 0) :
    Inv { s with
      nextOperationGeneration := s.nextOperationGeneration + 1, nextConnectRequestId := n } where
  shape := h.shape
  ready x hx := by
    have hready := h.ready x hx
    cases x with
    | connectInLoop q g => exact hready.imp_right Nat.lt_succ_of_lt
    | disconnectInLoop g => exact hready.imp_left Nat.lt_succ_of_lt
    | stopInLoop g => exact hready.imp_left Nat.lt_succ_of_lt
    | connector k => cases k <;> exact hready
    | _ => exact hready
  good := h.good
  ended := h.ended
  duties := by
    have hadmission := h.duties.admission
    exact { h.duties with admission := ⟨Nat.lt_succ_of_lt hadmission.next, hn,
      fun r g hmem => (hadmission.connects r g hmem).imp_right Nat.lt_succ_of_lt,
      fun g hmem => (hadmission.halts g hmem).imp_left Nat.lt_succ_of_lt⟩ }

theorem Inv.post (h : Inv s) (op : Op) (refuse : Bool) : Inv (s.post op refuse) := by
  have hrequest := h.duties.admission.request
  cases op with
  | connect =>
    unfold State.post State.tryOperation
    dsimp only
    split
    · exact { h with duties := { h.duties with } }
    · cases refuse with
      | false => exact h.post_connect hrequest (Nat.succ_ne_zero _)
      | true => exact h.refuse (Nat.succ_ne_zero _)
  | disconnect =>
    cases refuse with
    | false => exact h.post_halt (.inl rfl)
    | true => exact h.refuse hrequest
  | stop =>
    cases refuse with
    | false => exact h.post_halt (.inr rfl)
    | true => exact h.refuse hrequest

/-! ## Steps -/

theorem Inv.resume (h : Inv s) (hs : s.stack = f :: rest) (answer : Answer) :
    Inv ({ s with stack := rest }.resume answer f) := by
  cases f with
  | connector k => exact h.resume_connector hs _
  | user => exact h.done hs rfl nofun (fun _ => id) id
  | driveControl => exact h.resume_driveControl hs answer
  | control op => exact h.resume_control hs answer
  | connectInLoop r g => exact h.resume_connectInLoop hs answer
  | connectRequest r => exact h.resume_connectRequest hs answer
  | disconnectInLoop g => exact h.resume_disconnectInLoop hs answer
  | disconnectLatest => exact h.resume_disconnectLatest hs answer
  | stopInLoop g => exact h.resume_stopInLoop hs answer
  | stopLatest => exact h.resume_stopLatest hs answer
  | finishTerminalConnectFailure r => exact h.resume_finishTerminalConnectFailure hs answer
  | newConnection => exact h.resume_newConnection hs answer
  | establish r => exact h.resume_establish hs answer
  | removeConnection id => exact h.resume_removeConnection hs answer
  | reconnect q p => exact h.resume_reconnect hs answer
  | reestablish q => exact h.resume_reestablish hs answer
  | release q => exact h.resume_release hs answer

theorem Inv.resting_of_idle (h : Inv s) (hidle : idle s.stack = true) :
    ∀ x ∈ s.stack, x.resting = true := by
  have hshape := h.shape
  intro x hx
  cases hs : s.stack with
  | nil =>
    rw [hs] at hx
    cases hx
  | cons f rest =>
    rw [hs] at hidle hshape hx
    rcases List.mem_cons.mp hx with rfl | hx
    · cases x with
      | user => rfl
      | _ => cases hidle
    · exact hshape x hx

/-- Nobody but the queue, the connection and the connector has a duty while the stack waits. -/
theorem Inv.duties_of_resting (h : Inv s) (hshape : ∀ x ∈ s.stack, x.resting = true) :
    Duties s s.Carries False False := by
  refine h.duties.pass Iff.rfl ?_ ?_
  · rintro - ⟨x, hx, howes⟩
    exact not_owes_of_resting (hshape x (List.mem_of_mem_head? hx)) howes
  · rintro ⟨x, hx, hhalts⟩
    exact not_halts_of_resting (hshape x (List.mem_of_mem_head? hx)) hhalts

theorem Inv.setRetryInLoop (h : Inv s) (hshape : ∀ x ∈ s.stack, x.resting = true) (enabled : Bool) :
    Inv (s.setRetryInLoop enabled) := by
  have hduties := h.duties_of_resting hshape
  have hgood := h.good
  have hcarries : s.Carries ↔
      Carried { s.connector with retryEnabled := enabled } (attempts s.stack) :=
    ⟨fun hc => ⟨hc.any⟩, fun hc => ⟨hc.any⟩⟩
  have hduties := hduties.pass hcarries (fun _ => id) id
  exact Inv.of_resting hshape
    ⟨{ hgood.channels with }, { hgood.ranked with },
      hgood.owned, hgood.settled⟩ h.ended
    { hduties with }

/-- The user closes the connection, or the peer does. -/
theorem Inv.close {conn : Conn} (h : Inv s) (hshape : ∀ x ∈ s.stack, x.resting = true)
    (hconn : s.connection = some conn) : Inv (s.close conn) := by
  have hduties := h.duties_of_resting hshape
  have hsome : s.connection ≠ none := by rw [hconn]; exact nofun
  refine Inv.of_resting (fun x hx => ?_) h.good (fun _ _ _ => ⟨conn.id, .tail _ (.tail _ (.head _))⟩)
    { hduties with quiet := fun _ => hduties.quiet hsome, served := fun hne => ?_ }
  · rcases hx with _ | ⟨_, _ | ⟨_, _ | ⟨_, hx⟩⟩⟩
    · rfl
    · rfl
    · rfl
    · exact hshape x hx
  · exact (hduties.served hne).imp_right (.imp_left fun hk => ⟨nofun, hk.2⟩)

theorem Inv.shutdown {conn : Conn} (h : Inv s) (hshape : ∀ x ∈ s.stack, x.resting = true)
    (hconn : s.connection = some conn) :
    Inv { s with connection := some { conn with state := .disconnecting } } := by
  have hduties := h.duties_of_resting hshape
  have hsome : s.connection ≠ none := by rw [hconn]; exact nofun
  refine Inv.of_resting hshape h.good (fun conn' hconn' hstate => ?_)
    { hduties with quiet := fun _ => hduties.quiet hsome, served := fun hne => ?_ }
  · cases hconn'
    cases hstate
  · exact (hduties.served hne).imp_right (.imp_left fun hk => ⟨nofun, hk.2⟩)

theorem Admission.tail
    (h : Admission latest next request active (task :: queue)) :
    Admission latest next request active queue where
  next := h.next
  request := h.request
  connects r g hmem := h.connects r g (.tail _ hmem)
  halts g hmem := h.halts g (hmem.imp (.tail _) (.tail _))

/-- The functor at the head of the queue is taken: its duties are those of what runs it. -/
theorem Inv.dequeue (h : Inv s) (hs : s.stack = [])
    (hq : s.queue = task :: queue) :
    Duties { s with queue := queue } s.Carries
      (task = .connect s.activeConnectRequestId s.latestAcceptedOperationGeneration)
      (task = .disconnect s.latestAcceptedOperationGeneration ∨
        task = .stop s.latestAcceptedOperationGeneration) := by
  have hduties := h.duties_of_resting (by rw [hs]; exact nofun)
  have hadmission := hduties.admission
  rw [hq] at hadmission
  have hmem : ∀ {x : Task}, x ∈ s.queue → x ∈ queue ∨ task = x := by
    intro x hx
    rw [hq] at hx
    exact (List.mem_cons.mp hx).symm.imp_right Eq.symm
  refine ⟨hduties.callback, hduties.quiet, hadmission.tail, fun hne => ?_, fun hh => ?_⟩
  · rcases hduties.served hne with hqueued | hk | hc | hfalse
    · exact (hmem hqueued).imp_right fun heq => .inr (.inr heq)
    · exact .inr (.inl hk)
    · exact .inr (.inr (.inl hc))
    · exact hfalse.elim
  · obtain ⟨hactive, (hqueued | hqueued) | hc | hfalse⟩ := hduties.halted hh
    · exact ⟨hactive, (hmem hqueued).imp .inl fun heq => .inr (.inl heq)⟩
    · exact ⟨hactive, (hmem hqueued).imp .inr fun heq => .inr (.inr heq)⟩
    · exact ⟨hactive, .inr (.inl hc)⟩
    · exact hfalse.elim

theorem Inv.run (h : Inv s) (hs : s.stack = [])
    (hq : s.queue = task :: queue) : Inv ({ s with queue := queue }.run task) := by
  have hadmission := h.duties.admission
  rw [hq] at hadmission
  have hduties := h.dequeue hs hq
  have hended : ∀ conn, s.connection = some conn → conn.state ≠ .disconnected := by
    intro conn hconn hstate
    obtain ⟨id, hid⟩ := h.ended conn hconn hstate
    rw [hs] at hid
    cases hid
  have hgood := h.good
  have hcarries : s.Carries ↔ Carried s.connector [] := by rw [State.Carries, hs]; rfl
  rw [hs, attempts_nil] at hgood
  -- A functor of an operation becomes the only frame.
  have htop : ∀ f : Frame, attempts [f] = [] → { s with queue := queue }.Ready [] f →
      (task = .connect s.activeConnectRequestId s.latestAcceptedOperationGeneration →
        { s with queue := queue }.Owes f) →
      ((task = .disconnect s.latestAcceptedOperationGeneration ∨
        task = .stop s.latestAcceptedOperationGeneration) → { s with queue := queue }.Halts f) →
      Inv { s with queue := queue, stack := [f] } := by
    intro f hattempts hready howes hhalts
    have hduties := hduties.pass hcarries (fun _ => howes) hhalts
    rw [← hattempts] at hgood hduties
    exact Inv.of_top rfl nofun hready hgood (fun conn hconn hstate => absurd hstate (hended conn hconn))
      { hduties with }
  cases task with
  | setRetry enabled =>
    have hshape : ∀ x ∈ s.stack, x.resting = true := by rw [hs]; exact nofun
    have hinv : Inv { s with queue := queue } := by
      refine Inv.of_resting hshape h.good h.ended (hduties.pass Iff.rfl (fun _ => nofun) ?_)
      rintro (heq | heq) <;> cases heq
    exact hinv.setRetryInLoop hshape enabled
  | connect r g =>
    rw [State.run, hs]
    refine htop (.connectInLoop r g) rfl (hadmission.connects r g (.head _)) ?_ ?_
    · rintro heq
      cases heq
      exact ⟨rfl, rfl⟩
    · rintro (heq | heq) <;> cases heq
  | disconnect g =>
    rw [State.run, hs]
    refine htop (.disconnectInLoop g) rfl (hadmission.halts g (.inl (.head _))) nofun ?_
    rintro (heq | heq) <;> cases heq
    rfl
  | stop g =>
    rw [State.run, hs]
    refine htop (.stopInLoop g) rfl (hadmission.halts g (.inr (.head _))) nofun ?_
    rintro (heq | heq) <;> cases heq
    rfl

/-- An event of the connector, between two functors. -/
theorem Inv.event {result : Core × List Connector.Frame} (h : Inv s) (hs : s.stack = [])
    (hgood : Connector.Good s.connector [] → Connector.Good result.1 (result.2 ++ []))
    (houtcome : Connector.Good s.connector [] →
      Connector.Outcome s.connector (Carried s.connector []) False [] result) :
    Inv (s.drive result) := by
  have hshape : ∀ x ∈ s.stack, x.resting = true := by rw [hs]; exact nofun
  have hduties := h.duties_of_resting hshape
  have hgood' := h.good
  rw [State.Carries, hs, attempts_nil] at hduties
  rw [hs, attempts_nil] at hgood'
  have hcarried : Connector.Outcome s.connector (Carried s.connector []) False (attempts s.stack) result := by
    rw [hs]
    exact houtcome hgood'
  refine Inv.drive hshape ?_ h.ended hduties hcarried False.elim
  rw [hs]
  exact hgood hgood'

theorem step_inv {lab : Label} (h : Inv s) (hs : step s lab = some s') : Inv s' := by
  cases lab with
  | call op =>
    simp only [step, Option.ite_none_right_eq_some] at hs
    obtain ⟨hidle, hs⟩ := hs
    cases hs
    exact h.call (h.resting_of_idle hidle) op
  | setRetry enabled =>
    simp only [step, Option.ite_none_right_eq_some] at hs
    obtain ⟨hidle, hs⟩ := hs
    cases hs
    exact h.setRetryInLoop (h.resting_of_idle hidle) enabled
  | post op refuse =>
    cases hs
    exact h.post op refuse
  | postSetRetry enabled =>
    cases hs
    refine ⟨h.shape, fun x hx => ?_, h.good, h.ended, ?_⟩
    · have hready := h.ready x hx
      cases x with
      | disconnectLatest => exact hready.imp_right (List.mem_append_left _)
      | stopLatest => exact hready.imp_right (List.mem_append_left _)
      | connector k => cases k <;> exact hready
      | _ => exact hready
    · exact ⟨h.duties.callback, h.duties.quiet,
        h.duties.admission.snoc nofun (by rintro g (hg | hg) <;> cases hg),
        fun hne => (h.duties.served hne).imp_left (List.mem_append_left _),
        fun hh => (h.duties.halted hh).imp_right
          (.imp_left (.imp (List.mem_append_left _) (List.mem_append_left _)))⟩
  | control op =>
    cases hs
    exact { h with duties := { h.duties with } }
  | shutdownConnection =>
    obtain ⟨conn, hconn, hs⟩ := Option.bind_eq_some_iff.mp hs
    rw [Option.ite_none_right_eq_some] at hs
    obtain ⟨⟨hidle, -⟩, hs⟩ := hs
    cases hs
    exact h.shutdown (h.resting_of_idle hidle) hconn
  | closeConnection =>
    obtain ⟨conn, hconn, hs⟩ := Option.bind_eq_some_iff.mp hs
    rw [Option.ite_none_right_eq_some] at hs
    obtain ⟨⟨hidle, -⟩, hs⟩ := hs
    cases hs
    exact h.close (h.resting_of_idle hidle) hconn
  | driveControl =>
    simp only [step, Option.ite_none_right_eq_some] at hs
    obtain ⟨⟨hnil, -⟩, hs⟩ := hs
    cases hs
    have hduties := h.duties_of_resting (by rw [hnil]; exact nofun)
    have hgood := h.good
    have hended := h.ended
    rw [State.Carries, hnil, attempts_nil] at hduties
    rw [hnil] at hgood hended
    refine Inv.of_top rfl nofun trivial hgood (fun conn hconn hstate => ?_)
      { hduties with }
    obtain ⟨id, hid⟩ := hended conn hconn hstate
    cases hid
  | run =>
    simp only [step] at hs
    split at hs
    case h_1 hnil hq =>
      cases hs
      exact h.run hnil hq
    case h_2 => cases hs
  | writable channel probe =>
    simp only [step, Option.ite_none_right_eq_some] at hs
    obtain ⟨⟨hnil, hmem⟩, hs⟩ := hs
    cases hs
    exact h.event hnil (fun hgood => hgood.handleWrite hmem probe) fun hgood =>
      Connector.handleWrite_outcome hgood hmem probe
  | error channel =>
    simp only [step, Option.ite_none_right_eq_some] at hs
    obtain ⟨⟨hnil, hmem⟩, hs⟩ := hs
    cases hs
    exact h.event hnil (fun hgood => hgood.handleError hmem) fun hgood =>
      Connector.handleError_outcome hgood hmem
  | fire timer =>
    simp only [step, Option.ite_none_right_eq_some] at hs
    obtain ⟨⟨hnil, hmem⟩, hs⟩ := hs
    cases hs
    exact h.event hnil (fun hgood => hgood.fire hmem) fun hgood =>
      Connector.fire_outcome hgood hmem
  | resume answer =>
    simp only [step] at hs
    split at hs
    case h_1 => cases hs
    case h_2 frame rest hstack =>
      cases hs
      exact h.resume hstack answer

theorem inv_init (h : Init s) : Inv s := by
  obtain ⟨retry, connectTimeout, rfl⟩ := h
  refine Inv.of_resting nofun (Connector.good_init ⟨retry, connectTimeout, rfl⟩) nofun ⟨rfl,
    fun hne => absurd rfl hne, ⟨Nat.zero_lt_one, Nat.one_ne_zero, nofun, ?_⟩, fun hne => absurd rfl hne, ?_⟩
  · rintro g (hg | hg) <;> cases hg
  · rintro (hh | hh) <;> cases hh

theorem reach_inv {C : State → Label → Prop} (h : Machine.Reach Init step C s) : Inv s :=
  Machine.Reach.invariant (P := Inv) (fun _ hi => inv_init hi)
    (fun _ _ _ hi _ hs => step_inv hi hs) h

end

end GameNet.TcpClient
