import GameNet.Types

/- Connector (`Connector.cc`, the build for other systems than Windows): one attempt to connect at
   a time, retries by a timer, and the connected descriptor handed to the new-connection callback.

   Everything runs on the owner loop, but the callbacks run in the middle of the transitions and
   may call `start`, `stop` and `restart` again. So the rest of an interrupted function is a frame on
   a stack: `emit` and `newConnection` are callbacks that run, the other frames continue below
   them. Between two callbacks a function is one step. What the operating system answers is in the
   labels; the timers are those of the loop, and a timer that was cancelled does not fire.
   Descriptors are numbered in the order of their creation. The backoff of the retries, logs and
   allocation failures are left out. -/
namespace GameNet.Connector

inductive StateE where
  | disconnected
  | connecting
  | connected
  deriving DecidableEq, Repr

inductive ConnectorEvent where
  | connectAttempt
  | connectSuccess
  | connectFailed
  | retryScheduled
  | selfConnectDetected
  | connectTimeout
  | terminalFailure
  deriving DecidableEq, Repr

/-- A registered channel; its callbacks carry the generation of its attempt. -/
structure Channel where
  fd : Nat
  generation : Nat
  deriving DecidableEq, Repr

inductive TimerKind where
  | retry
  | connectTimeout
  deriving DecidableEq, Repr

structure Timer where
  id : Nat
  kind : TimerKind
  generation : Nat
  deriving DecidableEq, Repr

structure Core where
  retryEnabled : Bool
  /-- `connectTimeout_ > 0` -/
  connectTimeout : Bool
  newConnectionCallback : Bool := true
  connect : Bool := false
  state : StateE := .disconnected
  requestGeneration : Nat := 0
  channel : Option Channel := none
  retryTimerId : Option Nat := none
  connectTimeoutTimerId : Option Nat := none
  /-- The channels and the timers that the loop has of this connector. -/
  registered : List Channel := []
  timers : List Timer := []
  nextTimer : Nat := 0
  /-- How many descriptors were created, and where they went. -/
  created : Nat := 0
  closed : List Nat := []
  delivered : List Nat := []
  /-- The events that were emitted, the newest first. -/
  events : List ConnectorEvent := []
  /-- An assertion failed, or a channel was used that is not there. -/
  fatal : Bool := false
  deriving DecidableEq, Repr

/-- A function that was interrupted by a callback. -/
inductive Frame where
  /-- The event callback runs. -/
  | emit (event : ConnectorEvent)
  /-- The new-connection callback runs. -/
  | newConnection (fd : Nat)
  /-- `connect` after `ConnectAttempt` -/
  | attempt (generation : Nat)
  /-- `connect` after an error that is not retried -/
  | refused (fd : Nat) (generation : Nat)
  | retry (fd : Option Nat) (generation : Nat)
  /-- `retry` after `RetryScheduled` -/
  | schedule (generation : Nat)
  /-- `handleWrite` after `ConnectSuccess` -/
  | deliver (fd : Nat) (generation : Nat)
  /-- `handleWrite` after the new-connection callback -/
  | settle (generation : Nat)
  /-- `handleConnectTimeout` after `ConnectTimeout` -/
  | timedOut (generation : Nat)
  deriving DecidableEq, Repr

namespace Core

def cancelRetryTimer (c : Core) : Core :=
  match c.retryTimerId with
  | some id => { c with retryTimerId := none, timers := c.timers.filter (·.id ≠ id) }
  | none => c

def cancelConnectTimeout (c : Core) : Core :=
  match c.connectTimeoutTimerId with
  | some id => { c with connectTimeoutTimerId := none, timers := c.timers.filter (·.id ≠ id) }
  | none => c

/-- `EventLoop::runAfter` -/
def runAfter (c : Core) (kind : TimerKind) (generation : Nat) : Core :=
  { c with timers := ⟨c.nextTimer, kind, generation⟩ :: c.timers, nextTimer := c.nextTimer + 1 }

/-- `sockets::close` -/
def close (c : Core) (fd : Nat) : Core := { c with closed := fd :: c.closed }

/-- `removeAndReleaseChannel`, then what is done with the descriptor. -/
def releaseChannel (c : Core) (use : Core → Nat → Core × List Frame) : Core × List Frame :=
  match c.channel with
  | some channel =>
    use { c with channel := none, registered := c.registered.erase channel } channel.fd
  | none => ({ c with fatal := true }, [])

/-- `releaseChannel`, and the descriptor is closed. -/
def closeChannel (c : Core) : Core := (c.releaseChannel fun c fd => (c.close fd, [])).1

/-- `emitEvent`: the callback runs, the frames continue after it. -/
def emitEvent (c : Core) (event : ConnectorEvent) (frames : List Frame) : Core × List Frame :=
  ({ c with events := event :: c.events }, .emit event :: frames)

/-- `startInLoop`, and `connect` up to its first event. -/
def startInLoop (c : Core) (generation : Nat) : Core × List Frame :=
  if c.connect = false ∨ generation ≠ c.requestGeneration then (c, [])
  else
    emitEvent (if c.state = .disconnected then c else { c with fatal := true })
      .connectAttempt [.attempt generation]

def start (c : Core) : Core × List Frame :=
  let c := { c with connect := true }
  if c.state = .connected then (c, [])
  else
    let generation := c.requestGeneration + 1
    let c := { c with requestGeneration := generation }
    let c :=
      if c.state = .connecting then
        let c := c.cancelConnectTimeout
        if c.channel = none then c else { c with state := .disconnected }.closeChannel
      else c
    c.startInLoop generation

def stop (c : Core) : Core :=
  let c := { c with connect := false, requestGeneration := c.requestGeneration + 1 }
  let c := c.cancelRetryTimer.cancelConnectTimeout
  match c.state with
  | .connecting => { c with state := .disconnected }.closeChannel
  | .connected => { c with state := .disconnected }
  | .disconnected => c

def restart (c : Core) : Core × List Frame :=
  let c := c.cancelRetryTimer.cancelConnectTimeout
  start (if c.state = .connected then { c with state := .disconnected } else c)

def connecting (c : Core) (fd generation : Nat) : Core :=
  if generation ≠ c.requestGeneration ∨ c.connect = false then c.close fd
  else
    let c := if c.channel = none then c else { c with fatal := true }
    let c := { c with
      state := .connecting
      channel := some ⟨fd, generation⟩
      registered := ⟨fd, generation⟩ :: c.registered }
    if c.connectTimeout then
      { c.runAfter .connectTimeout generation with connectTimeoutTimerId := some c.nextTimer }
    else c

/-- `retry` up to its event. -/
def retry (c : Core) (fd : Option Nat) (generation : Nat) : Core × List Frame :=
  let c := match fd with
    | some fd => c.close fd
    | none => c
  if generation ≠ c.requestGeneration then (c, [])
  else
    let c := { c with state := .disconnected }
    if c.connect ∧ c.retryEnabled then c.emitEvent .retryScheduled [.schedule generation]
    else if c.connect then c.emitEvent .terminalFailure []
    else (c, [])

def settleCompletedAttempt (c : Core) : Core :=
  if c.state = .connected then { c with state := .disconnected } else c

end Core

/-- What the socket calls of `connect` answer. -/
inductive Dial where
  | noSocket
  | inProgress
  | retryable
  | refused
  deriving DecidableEq, Repr

/-- What the checks of `handleWrite` find. -/
inductive Probe where
  | failed
  | selfConnect
  | connected
  deriving DecidableEq, Repr

structure Answer where
  dial : Dial := .inProgress
  /-- The new-connection callback throws. -/
  threw : Bool := false
  deriving DecidableEq, Repr

namespace Core

/-- `connect` after `ConnectAttempt` -/
def attempt (c : Core) (generation : Nat) (dial : Dial) : Core × List Frame :=
  if generation ≠ c.requestGeneration ∨ c.connect = false then (c, [])
  else
    let fd := c.created
    let opened := { c with created := c.created + 1 }
    match dial with
    | .noSocket => c.emitEvent .connectFailed [.retry none generation]
    | .inProgress => (opened.connecting fd generation, [])
    | .retryable => opened.emitEvent .connectFailed [.retry (some fd) generation]
    | .refused => opened.emitEvent .connectFailed [.refused fd generation]

def handleWrite (c : Core) (generation : Nat) (probe : Probe) : Core × List Frame :=
  if c.state ≠ .connecting then (c, [])
  else if generation ≠ c.requestGeneration ∨ c.connect = false then
    ({ c.closeChannel with state := .disconnected }, [])
  else
    c.cancelConnectTimeout.releaseChannel fun c fd =>
      let c := { c with state := .disconnected }
      match probe with
      | .failed => c.emitEvent .connectFailed [.retry (some fd) generation]
      | .selfConnect => c.emitEvent .selfConnectDetected [.retry (some fd) generation]
      | .connected =>
        { c with state := .connected }.emitEvent .connectSuccess [.deliver fd generation]

def handleError (c : Core) (generation : Nat) : Core × List Frame :=
  if c.state ≠ .connecting then (c, [])
  else
    c.cancelConnectTimeout.releaseChannel fun c fd =>
      { c with state := .disconnected }.emitEvent .connectFailed [.retry (some fd) generation]

def handleConnectTimeout (c : Core) (generation : Nat) : Core × List Frame :=
  if generation ≠ c.requestGeneration then (c, [])
  else
    let c := { c with connectTimeoutTimerId := none }
    if c.state ≠ .connecting then (c, [])
    else c.emitEvent .connectTimeout [.timedOut generation]

/-- The timer of a retry. -/
def handleRetry (c : Core) (generation : Nat) : Core × List Frame :=
  if generation ≠ c.requestGeneration ∨ c.connect = false then (c, [])
  else { c with retryTimerId := none }.startInLoop generation

def fire (c : Core) (timer : Timer) : Core × List Frame :=
  let c := { c with timers := c.timers.erase timer }
  match timer.kind with
  | .retry => c.handleRetry timer.generation
  | .connectTimeout => c.handleConnectTimeout timer.generation

/-- A frame goes on. A callback that is on the top returns. -/
def resume (c : Core) (answer : Answer) : Frame → Core × List Frame
  | .emit _ | .newConnection _ => (c, [])
  | .attempt generation => c.attempt generation answer.dial
  | .refused fd generation =>
    let c := c.close fd
    if generation = c.requestGeneration ∧ c.connect then c.emitEvent .terminalFailure [] else (c, [])
  | .retry fd generation => c.retry fd generation
  | .schedule generation =>
    if generation ≠ c.requestGeneration ∨ c.connect = false ∨ c.retryEnabled = false then (c, [])
    else ({ c.runAfter .retry generation with retryTimerId := some c.nextTimer }, [])
  | .deliver fd generation =>
    if generation = c.requestGeneration ∧ c.connect ∧ c.newConnectionCallback then
      ({ c with delivered := fd :: c.delivered }, [.newConnection fd, .settle generation])
    else (c.settleCompletedAttempt.close fd, [])
  | .settle generation =>
    if answer.threw ∨ generation ≠ c.requestGeneration ∨ c.connect = false then
      (c.settleCompletedAttempt, [])
    else (c, [])
  | .timedOut generation =>
    if generation ≠ c.requestGeneration ∨ c.connect = false then (c, [])
    else
      c.releaseChannel fun c fd =>
        { c.close fd with state := .disconnected }.retry none generation

end Core

/-! ## The machine -/

structure State where
  core : Core
  stack : List Frame := []
  deriving DecidableEq, Repr

/-- A callback runs, or nothing does: the interface may be called. -/
def callable : List Frame → Bool
  | [] | .emit _ :: _ | .newConnection _ :: _ => true
  | _ => false

inductive Label where
  | start
  | stop
  | restart
  | setRetryEnabled (enabled : Bool)
  | setNewConnectionCallback (set : Bool)
  | writable (channel : Channel) (probe : Probe)
  | error (channel : Channel)
  | fire (timer : Timer)
  | resume (answer : Answer)
  deriving DecidableEq, Repr

def push (stack : List Frame) (result : Core × List Frame) : State :=
  ⟨result.1, result.2 ++ stack⟩

def step (s : State) : Label → Option State
  | .start => if callable s.stack then some (push s.stack s.core.start) else none
  | .stop => if callable s.stack then some { s with core := s.core.stop } else none
  | .restart => if callable s.stack then some (push s.stack s.core.restart) else none
  | .setRetryEnabled enabled =>
    if callable s.stack then some { s with core := { s.core with retryEnabled := enabled } } else none
  | .setNewConnectionCallback set =>
    if callable s.stack then
      some { s with core := { s.core with newConnectionCallback := set } }
    else none
  | .writable channel probe =>
    if s.stack = [] ∧ channel ∈ s.core.registered then
      some (push [] (s.core.handleWrite channel.generation probe))
    else none
  | .error channel =>
    if s.stack = [] ∧ channel ∈ s.core.registered then
      some (push [] (s.core.handleError channel.generation))
    else none
  | .fire timer =>
    if s.stack = [] ∧ timer ∈ s.core.timers then some (push [] (s.core.fire timer)) else none
  | .resume answer =>
    match s.stack with
    | [] => none
    | frame :: rest => some (push rest (s.core.resume answer frame))

/-- A connector that was just made. -/
def Init (s : State) : Prop :=
  ∃ retryEnabled connectTimeout, s = { core := { retryEnabled, connectTimeout } }

end GameNet.Connector
