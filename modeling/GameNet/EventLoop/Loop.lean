import GameNet.Machine
import GameNet.EventLoop.Channels

/- EventLoop::loop() as a machine: the three admission planes and the Channels of the
   loop, the position of the owner thread in `loop()`, and the wakeup descriptor
   (non-Windows build).

   The owner thread takes one step for each critical section and each read of the
   shared state; between them, calls of other threads may come. Where the loop calls
   user code (a channel, timer, control, lifecycle, functor, metric or exception
   callback) it stays at that position while the user code's own calls happen, until
   `leave`. The exception handler runs at the position of the callback it follows;
   after a control or lifecycle callback, whose plane has been updated by then, it
   has a position of its own.

   `wakeup()` of the owner thread happens with its step. A call of another thread
   commits its work first and writes the wakeup later; `owedWakeups` counts the calls
   in between. A wait consumes the tokens written so far when the kernel reports the
   wakeup descriptor among the events. -/
namespace GameNet.EventLoop

/-! ## Positions -/

/-- The three loops inside `loop()`. A quiescing iteration carries the value of `hasPending`. -/
inductive Stage where
  | running
  | quiescing (hasPending : Bool)
  | finalDraining
  deriving DecidableEq, Repr

inductive Pc where
  | outside
  | top (st : Stage)
  | pollControl
  | pollLifecycle
  | pollTimers
  | wait (st : Stage) (timeout : Nat)
  | waitMetric (st : Stage)
  | dispatch (st : Stage)
  | dispatchLoop (st : Stage) (drained : Nat)
  | handling (st : Stage) (drained id : Nat)
  | dispatchMetric (st : Stage) (remaining : Nat)
  | timers
  | readPending
  | condControl (st : Stage)
  | controlStart (st : Stage)
  | controlNext (st : Stage) (words : List Nat)
  | controlCall (st : Stage) (slot : Nat) (words : List Nat)
  | controlHandler (st : Stage) (words : List Nat)
  | controlMetric (st : Stage) (remaining : Nat)
  | condLifecycle (st : Stage)
  | lifecycleStart (st : Stage)
  | lifecycleNext (st : Stage) (left drained : Nat)
  | lifecycleCall (st : Stage) (left drained id : Nat)
  | lifecycleHandler (st : Stage) (left drained : Nat)
  | lifecycleMetric (st : Stage) (remaining : Nat)
  | condFunctors (st : Stage)
  | functorStart (st : Stage)
  | functorMetric (st : Stage) (batch : List Nat)
  | functorNext (st : Stage) (batch : List Nat)
  | functorCall (st : Stage) (batch : List Nat)
  | functorEnd (st : Stage)
  | checkFunctors (st : Stage)
  | checkControl (st : Stage)
  | checkLifecycle (st : Stage)
  | checkActive (st : Stage)
  | publish (st : Stage)
  | finished
  deriving DecidableEq, Repr

/-- Whether the owner thread is in user code. -/
def Pc.userCode : Pc → Bool
  | .outside | .finished => true
  | .waitMetric _ | .handling _ _ _ | .dispatchMetric _ _ | .timers => true
  | .controlCall _ _ _ | .controlHandler _ _ | .controlMetric _ _ => true
  | .lifecycleCall _ _ _ _ | .lifecycleHandler _ _ _ | .lifecycleMetric _ _ => true
  | .functorMetric _ _ | .functorCall _ _ => true
  | _ => false

/-- What follows the dispatch in each loop. -/
def Stage.afterDispatch : Stage → Pc
  | .running => .timers
  | .quiescing _ => .readPending
  | .finalDraining => .condControl .finalDraining

def Stage.afterControl : Stage → Pc
  | .running => .lifecycleStart .running
  | st => .condLifecycle st

def Stage.afterLifecycle : Stage → Pc
  | .running => .functorStart .running
  | st => .condFunctors st

def Stage.afterFunctors : Stage → Pc
  | .running => .top .running
  | st => .checkFunctors st

/-! ## State and labels -/

inductive Event where
  | notified (source : ControlSource)
  | controlRan (source : ControlSource)
  | signaled (id : Nat)
  | lifecycleRan (id : Nat)
  deriving DecidableEq, Repr

structure State where
  executor : Executor
  control : Control
  lifecycle : Lifecycle
  channels : Channels
  phase : EventLoopPhase
  quit : Bool
  looping : Bool
  callingPendingFunctors : Bool
  /-- The wakeups written and not yet consumed. -/
  tokens : Nat
  /-- The calls of other threads that have committed their work and not yet written their
      wakeup. -/
  owedWakeups : Nat
  /-- `quiescent()` of the I/O engine; always true in the epoll adapter. -/
  quiescent : Bool
  pc : Pc
  /-- The functors admitted so far, oldest first. -/
  admitted : List Nat
  /-- The functors whose run has started, oldest first. -/
  started : List Nat
  log : List Event

inductive Label where
  | start
  | advance
  | timeout (milliseconds : Nat)
  | wait (native : List Native) (drainsWakeup : Bool)
  | leave (threw : Bool)
  | post (caller : Caller) (kind : Admission) (cb : Option Nat)
  | notify (caller : Caller) (source : ControlSource)
  | signal (caller : Caller) (source : LifecycleSource)
  | quit (caller : Caller)
  | writeWakeup
  | registerControl
  | unregisterControl (source : ControlSource)
  | attach (notifyOnQuiesce : Bool)
  | detach (source : LifecycleSource)
  | newChannel (fd : SocketFd)
  | setInterest (id : Nat) (setter : Setter)
  | removeChannel (id : Nat)
  | destroyChannel (id : Nat)
  | retireChannel (id : Nat)
  | engineQuiescent (b : Bool)
  deriving DecidableEq, Repr

/-- The steps that the owner thread takes in `loop()`. -/
def Label.ofLoop : Label → Bool
  | .start | .advance | .timeout _ | .wait _ _ | .leave _ => true
  | _ => false

/-- A constructed loop. -/
def initial (o : Options) : State where
  executor := {}
  control := { slots := List.replicate o.toEventLoopOptions.maxControlSources {} }
  lifecycle := { maxNodes := o.toEventLoopOptions.maxLifecycleNodes }
  channels := {}
  phase := .running
  quit := false
  looping := false
  callingPendingFunctors := false
  tokens := 0
  owedWakeups := 0
  quiescent := true
  pc := .outside
  admitted := []
  started := []
  log := []

/-- A loop with room for one control source. -/
def smallLoop : Options where
  toEventLoopOptions := { maxControlSources := 1 }
  valid := by decide

/-! ## Calls -/

/-- A wakeup at the end of a call: written at once by the owner, owed by another thread. -/
def State.wake (s : State) (caller : Caller) (needed : Bool) : State :=
  if needed = false then s
  else match caller with
    | .owner => { s with tokens := s.tokens + 1 }
    | .remote => { s with owedWakeups := s.owedWakeups + 1 }

section
variable {s : State} {caller : Caller} {needed : Bool}

/-- A wakeup changes nothing but the wakeup counters. -/
theorem wake_eq : s.wake caller needed = { s with tokens := (s.wake caller needed).tokens
                                                  owedWakeups := (s.wake caller needed).owedWakeups } := by
  cases needed <;> cases caller <;> rfl

@[simp] theorem wake_executor : (s.wake caller needed).executor = s.executor := by
  rw [wake_eq]

@[simp] theorem wake_control : (s.wake caller needed).control = s.control := by
  rw [wake_eq]

@[simp] theorem wake_lifecycle : (s.wake caller needed).lifecycle = s.lifecycle := by
  rw [wake_eq]

@[simp] theorem wake_channels : (s.wake caller needed).channels = s.channels := by
  rw [wake_eq]

@[simp] theorem wake_phase : (s.wake caller needed).phase = s.phase := by
  rw [wake_eq]

@[simp] theorem wake_quit : (s.wake caller needed).quit = s.quit := by
  rw [wake_eq]

@[simp] theorem wake_looping : (s.wake caller needed).looping = s.looping := by
  rw [wake_eq]

@[simp] theorem wake_callingPendingFunctors :
    (s.wake caller needed).callingPendingFunctors = s.callingPendingFunctors := by
  rw [wake_eq]

@[simp] theorem wake_quiescent : (s.wake caller needed).quiescent = s.quiescent := by
  rw [wake_eq]

@[simp] theorem wake_pc : (s.wake caller needed).pc = s.pc := by
  rw [wake_eq]

@[simp] theorem wake_admitted : (s.wake caller needed).admitted = s.admitted := by
  rw [wake_eq]

@[simp] theorem wake_started : (s.wake caller needed).started = s.started := by
  rw [wake_eq]

@[simp] theorem wake_log : (s.wake caller needed).log = s.log := by
  rw [wake_eq]

end

def State.postFunctor (o : EventLoopOptions) (s : State) (caller : Caller) (kind : Admission)
    (cb : Option Nat) : PostResult × State :=
  let (result, e) := s.executor.postFunctor o kind cb
  if result = .accepted then
    let s := { s with executor := e, admitted := s.admitted ++ cb.toList }
    (result, s.wake caller (decide (caller = .remote) || s.callingPendingFunctors))
  else (result, s)

def State.notify (s : State) (caller : Caller) (source : ControlSource) : PostResult × State :=
  let (result, wakes, c) := s.control.notify caller source
  if result = .accepted then
    let s := { s with control := c, log := .notified source :: s.log }
    (result, s.wake caller wakes)
  else (result, s)

def State.signal (s : State) (caller : Caller) (source : LifecycleSource) : PostResult × State :=
  let (result, wakes, l) := s.lifecycle.signal caller source
  if result = .accepted then
    let s := { s with lifecycle := l, log := .signaled source.id :: s.log }
    (result, s.wake caller wakes)
  else (result, s)

/-- `EventLoop::quit`. -/
def State.quitLoop (s : State) (caller : Caller) : State :=
  let e := { s.executor with accepting := false }
  if s.control.phase = .shutdown ∨ s.lifecycle.phase = .shutdown then
    { s with executor := { e with drainingAccepted := false }, quit := true }
  else if s.lifecycle.phase ≠ .running then { s with executor := e, quit := true }
  else
    let s := { s with
      executor := { e with drainingAccepted := true }
      control := { s.control with phase := .draining }
      lifecycle := { s.lifecycle.markQuiesce with phase := .quiescing }
      phase := .quiescing
      quit := true }
    s.wake caller (decide (caller = .remote))

/-- Whether the caller's thread can be making a call now. -/
def State.canCall (s : State) : Caller → Bool
  | .owner => s.pc.userCode
  | .remote => true

/-! ## Steps of the loop -/

/-- The entries of the active batch that are left. -/
def Channels.remaining (c : Channels) : Nat := c.rest.countP Option.isSome

/-- The owner thread writes a wakeup if work remains. -/
def State.wakeIf (s : State) (remaining : Nat) : State :=
  s.wake .owner (decide (remaining ≠ 0))

/-- The head of one of the three loops. -/
def State.advanceTop (s : State) : Stage → State
  | .running =>
    if s.quit then
      { s with executor := { s.executor with accepting := false, drainingAccepted := true }
               pc := .top (.quiescing false) }
    else if s.channels.hasPending then { s with pc := .dispatch .running }
    else { s with channels := s.channels.clear, pc := .pollControl }
  | .quiescing b =>
    if s.channels.hasPending then { s with pc := .dispatch (.quiescing b) }
    else { s with channels := s.channels.clear, pc := .wait (.quiescing b) 0 }
  | .finalDraining =>
    if s.channels.hasPending then { s with pc := .dispatch .finalDraining }
    else if s.quiescent = false then
      { s with channels := s.channels.clear, pc := .wait .finalDraining 0 }
    else { s with pc := .condControl .finalDraining }

/-- `dispatchActiveChannels` up to its loop. -/
def State.advanceDispatch (s : State) (st : Stage) : Option State :=
  if s.channels.hasPending = false then
    some { s with channels := s.channels.clear, pc := st.afterDispatch }
  else
    let stamped := if s.channels.activeChannelCursor = 0 then s.channels.stamp else some s.channels
    stamped.map (fun c => { s with channels := { c with eventHandling := true }
                                   pc := .dispatchLoop st 0 })

/-- One turn of the dispatch loop, or its end. -/
def State.advanceDispatchLoop (o : EventLoopOptions) (s : State) (st : Stage) (drained : Nat) : State :=
  let concluded := { s with channels := { s.channels with eventHandling := false }
                            pc := .dispatchMetric st s.channels.remaining }
  if drained < o.maxActiveChannelsPerIteration then
    match s.channels.rest with
    | [] => concluded
    | none :: _ =>
      { s with channels := { s.channels with
          activeChannelCursor := s.channels.activeChannelCursor + 1 } }
    | some id :: _ =>
      { s with channels := s.channels.enter id, pc := .handling st (drained + 1) id }
  else concluded

/-- One slot of the drain words of `doControlSources`. -/
def State.advanceControl (s : State) (st : Stage) (slot : Nat) (words : List Nat) : State :=
  match s.control.slots[slot]? with
  | some sl =>
    if sl.active then
      { s with control := { s.control with activeCallbackSlot := some slot }
               pc := .controlCall st slot words
               log := .controlRan ⟨slot, sl.generation⟩ :: s.log }
    else { s with pc := .controlNext st words }
  | none => { s with pc := .controlNext st words }

/-- One turn of `doLifecycleNodes`, or its end. -/
def State.advanceLifecycle (s : State) (st : Stage) (left drained : Nat) : Option State :=
  let concluded :=
    if drained ≠ 0 then { s with pc := .lifecycleMetric st s.lifecycle.pendingCount }
    else { s.wakeIf s.lifecycle.pendingCount with pc := st.afterLifecycle }
  match left, s.lifecycle.dirty with
  | 0, _ => some concluded
  | _, [] => some concluded
  | left + 1, id :: rest =>
    (s.lifecycle.pop id rest).map (fun l =>
      { s with lifecycle := l, pc := .lifecycleCall st left drained id
               log := .lifecycleRan id :: s.log })

/-- The start of `doPendingFunctors`. -/
def State.advanceFunctors (o : EventLoopOptions) (s : State) (st : Stage) : State :=
  let batch := s.executor.pendingFunctors.take o.maxFunctorsPerIteration
  { s with
    executor := { s.executor with
      pendingFunctors := s.executor.pendingFunctors.drop o.maxFunctorsPerIteration }
    callingPendingFunctors := true
    pc := if batch = [] then .functorNext st [] else .functorMetric st batch }

/-- The end of a drain loop: `FinalDraining` or `Shutdown` is published. -/
def State.publishPhase (s : State) : Stage → State
  | .finalDraining =>
    { s with
      executor := { s.executor with drainingAccepted := false }
      control := { s.control with phase := .shutdown }
      lifecycle := { s.lifecycle with phase := .shutdown }
      phase := .shutdown
      looping := false
      pc := .finished }
  | _ =>
    { s with
      lifecycle := { s.lifecycle with phase := .finalDraining }
      phase := .finalDraining
      pc := .top .finalDraining }

/-- The steps of the loop that depend on the state alone. -/
def State.advance (o : EventLoopOptions) (s : State) : Option State :=
  match s.pc with
  | .top st => some (s.advanceTop st)
  | .pollControl =>
    some { s with pc := if s.control.pendingCount ≠ 0 then .wait .running 0 else .pollLifecycle }
  | .pollLifecycle =>
    some { s with pc := if s.lifecycle.pendingCount ≠ 0 then .wait .running 0 else .pollTimers }
  | .dispatch st => s.advanceDispatch st
  | .dispatchLoop st drained => some (s.advanceDispatchLoop o st drained)
  | .readPending =>
    some { s with pc := .condControl (.quiescing (decide (s.executor.pendingFunctors ≠ []))) }
  | .condControl st =>
    some { s with pc := if s.control.pendingCount ≠ 0 then .controlStart st else .condLifecycle st }
  | .controlStart st =>
    let (words, c) := s.control.select o.maxControlCallbacksPerIteration
    if words = [] then some { s with control := c, pc := st.afterControl }
    else some { s with control := c, pc := .controlNext st words }
  | .controlNext st [] => some { s with pc := .controlMetric st s.control.pendingCount }
  | .controlNext st (slot :: words) => some (s.advanceControl st slot words)
  | .condLifecycle st =>
    some { s with pc := if s.lifecycle.pendingCount ≠ 0 then .lifecycleStart st else .condFunctors st }
  | .lifecycleStart st =>
    let roundCount := min o.maxLifecycleCallbacksPerIteration s.lifecycle.pendingCount
    some { s with pc := .lifecycleNext st roundCount 0 }
  | .lifecycleNext st left drained => s.advanceLifecycle st left drained
  | .condFunctors (.quiescing b) =>
    some { s with pc := if b then .functorStart (.quiescing b) else .checkFunctors (.quiescing b) }
  | .condFunctors st =>
    some { s with pc := if s.executor.pendingFunctors ≠ [] then .functorStart st
                        else .checkFunctors st }
  | .functorStart st => some (s.advanceFunctors o st)
  | .functorNext st [] => some { s with callingPendingFunctors := false, pc := .functorEnd st }
  | .functorNext st (f :: batch) =>
    some { s with started := s.started ++ [f], pc := .functorCall st batch }
  | .functorEnd st =>
    some { s.wakeIf s.executor.pendingFunctors.length with pc := st.afterFunctors }
  | .checkFunctors st =>
    some { s with pc := if s.executor.pendingFunctors ≠ [] then .top st else .checkControl st }
  | .checkControl st =>
    some { s with pc := if s.control.pendingCount ≠ 0 then .top st else .checkLifecycle st }
  | .checkLifecycle st =>
    some { s with pc := if s.lifecycle.pendingCount ≠ 0 then .top st else .checkActive st }
  | .checkActive st =>
    some { s with pc := if s.channels.hasPending ∨ s.quiescent = false then .top st else .publish st }
  | .publish st => some (s.publishPhase st)
  | _ => none

/-- User code returns to the loop. -/
def State.leave (s : State) (threw : Bool) : Option State :=
  match s.pc with
  | .waitMetric st => some { s with pc := .dispatch st }
  | .handling st drained id =>
    (s.channels.leave id).map (fun c => { s with channels := c, pc := .dispatchLoop st drained })
  | .dispatchMetric st remaining =>
    some { s with channels := if remaining = 0 then s.channels.clear else s.channels
                  pc := st.afterDispatch }
  | .timers => some { s with pc := .controlStart .running }
  | .controlCall st slot words =>
    let c := if s.control.activeCallbackSlot = some slot then
        { s.control with activeCallbackSlot := none } else s.control
    some { s with control := c
                  pc := if threw then .controlHandler st words else .controlNext st words }
  | .controlHandler st words => some { s with pc := .controlNext st words }
  | .controlMetric st remaining => some { s.wakeIf remaining with pc := st.afterControl }
  | .lifecycleCall st left drained id =>
    some { s with lifecycle := s.lifecycle.finish id
                  pc := if threw then .lifecycleHandler st left drained
                        else .lifecycleNext st left (drained + 1) }
  | .lifecycleHandler st left drained => some { s with pc := .lifecycleNext st left (drained + 1) }
  | .lifecycleMetric st remaining => some { s.wakeIf remaining with pc := st.afterLifecycle }
  | .functorMetric st batch => some { s with pc := .functorNext st batch }
  | .functorCall st batch => some { s with pc := .functorNext st batch }
  | _ => none

/-- A change of the Channels by user code of the owner thread. -/
def State.channelCall (s : State) (f : Channels → Option Channels) : Option State :=
  if s.pc.userCode then (f s.channels).map (fun c => { s with channels := c }) else none

def step (o : Options) (maxNotices : Nat) (s : State) : Label → Option State
  | .start => if s.pc = .outside then some { s with looping := true, pc := .top .running } else none
  | .advance => s.advance o.toEventLoopOptions
  | .timeout t =>
    if s.pc = .pollTimers ∧ t ≤ 10000 then some { s with pc := .wait .running t } else none
  | .wait native drains =>
    match s.pc with
    | .wait st _ =>
      let s := { s with channels := s.channels.wait maxNotices native }
      if drains then
        if 0 < s.tokens then some { s with tokens := 0, pc := .waitMetric st } else none
      else some { s with pc := .dispatch st }
    | _ => none
  | .leave threw => s.leave threw
  | .post caller kind cb =>
    if s.canCall caller then some (s.postFunctor o.toEventLoopOptions caller kind cb).2 else none
  | .notify caller source => if s.canCall caller then some (s.notify caller source).2 else none
  | .signal caller source => if s.canCall caller then some (s.signal caller source).2 else none
  | .quit caller => if s.canCall caller then some (s.quitLoop caller) else none
  | .writeWakeup =>
    if 0 < s.owedWakeups then
      some { s with owedWakeups := s.owedWakeups - 1, tokens := s.tokens + 1 }
    else none
  | .registerControl =>
    if s.pc.userCode then
      if s.looping then some s
      else match s.control.register with
        | .error _ => some s
        | .ok (_, c) => some { s with control := c }
    else none
  | .unregisterControl source =>
    if s.pc.userCode then some { s with control := s.control.unregister source } else none
  | .attach notifyOnQuiesce =>
    if s.pc.userCode then
      match s.lifecycle.attach notifyOnQuiesce with
      | .error _ => some s
      | .ok (_, l) => some { s with lifecycle := l }
    else none
  | .detach source =>
    if s.pc.userCode then some { s with lifecycle := s.lifecycle.detach source } else none
  | .newChannel fd => s.channelCall (fun c => some (c.new fd))
  | .setInterest id setter => s.channelCall (fun c => some (setter.call c id))
  | .removeChannel id => s.channelCall (fun c => c.remove id)
  | .destroyChannel id => s.channelCall (fun c => c.destroy id)
  | .retireChannel id => s.channelCall (fun c => c.retire id)
  | .engineQuiescent b => some { s with quiescent := b }

/-! ## What a step can do -/

/-- What a call of user code can do to the Channels. -/
inductive ChannelsCall (c : Channels) (l : Label) (c' : Channels) : Prop
  | new (fd : SocketFd) (label : l = .newChannel fd) (eq : c' = c.new fd)
  | set (id : Nat) (setter : Setter) (label : l = .setInterest id setter) (eq : c' = setter.call c id)
  | remove (id : Nat) (label : l = .removeChannel id) (eq : c.remove id = some c')
  | destroy (id : Nat) (label : l = .destroyChannel id) (eq : c.destroy id = some c')
  | retire (id : Nat) (label : l = .retireChannel id) (eq : c.retire id = some c')

/-- What a step can do. -/
inductive Took (o : Options) (maxNotices : Nat) (s : State) : Label → State → Prop
  | start (hpc : s.pc = .outside) : Took o maxNotices s .start { s with looping := true, pc := .top .running }
  | advance {s' : State} (hs : s.advance o.toEventLoopOptions = some s') : Took o maxNotices s .advance s'
  | timeout (t : Nat) (hpc : s.pc = .pollTimers) :
      Took o maxNotices s (.timeout t) { s with pc := .wait .running t }
  | wait {st : Stage} {t : Nat} (native : List Native) (hpc : s.pc = .wait st t) :
      Took o maxNotices s (.wait native false)
        { s with channels := s.channels.wait maxNotices native, pc := .dispatch st }
  | wake {st : Stage} {t : Nat} (native : List Native) (hpc : s.pc = .wait st t) :
      Took o maxNotices s (.wait native true)
        { s with channels := s.channels.wait maxNotices native, tokens := 0, pc := .waitMetric st }
  | leave {threw : Bool} {s' : State} (hs : s.leave threw = some s') : Took o maxNotices s (.leave threw) s'
  | post (caller : Caller) (kind : Admission) (cb : Option Nat) (hcan : s.canCall caller = true) :
      Took o maxNotices s (.post caller kind cb) (s.postFunctor o.toEventLoopOptions caller kind cb).2
  | notify (caller : Caller) (source : ControlSource) :
      Took o maxNotices s (.notify caller source) (s.notify caller source).2
  | signal (caller : Caller) (source : LifecycleSource) :
      Took o maxNotices s (.signal caller source) (s.signal caller source).2
  | quit (caller : Caller) (hcan : s.canCall caller = true) :
      Took o maxNotices s (.quit caller) (s.quitLoop caller)
  | writeWakeup (howed : 0 < s.owedWakeups) :
      Took o maxNotices s .writeWakeup
        { s with owedWakeups := s.owedWakeups - 1, tokens := s.tokens + 1 }
  | refused {l : Label} (hl : l.ofLoop = false) : Took o maxNotices s l s
  | register {source : ControlSource} {c : Control} (huser : s.pc.userCode = true)
      (hr : s.control.register = .ok (source, c)) :
      Took o maxNotices s .registerControl { s with control := c }
  | unregister (source : ControlSource) (huser : s.pc.userCode = true) :
      Took o maxNotices s (.unregisterControl source) { s with control := s.control.unregister source }
  | attach {b : Bool} {source : LifecycleSource} {lc : Lifecycle} (huser : s.pc.userCode = true)
      (ha : s.lifecycle.attach b = .ok (source, lc)) :
      Took o maxNotices s (.attach b) { s with lifecycle := lc }
  | detach (source : LifecycleSource) (huser : s.pc.userCode = true) :
      Took o maxNotices s (.detach source) { s with lifecycle := s.lifecycle.detach source }
  | channels {l : Label} {c : Channels} (huser : s.pc.userCode = true)
      (hc : ChannelsCall s.channels l c) : Took o maxNotices s l { s with channels := c }
  | engineQuiescent (b : Bool) : Took o maxNotices s (.engineQuiescent b) { s with quiescent := b }

/-- What a call leaves alone. -/
structure Frame (s : State) (l : Label) (s' : State) : Prop where
  pc : s'.pc = s.pc
  quit : s.quit = true → s'.quit = true
  channels : s'.channels = s.channels ∨
    s.pc.userCode = true ∧ ChannelsCall s.channels l s'.channels

section
variable {o : Options} {maxNotices : Nat} {s s' : State} {l : Label}

theorem ChannelsCall.ofLoop {c c' : Channels} (h : ChannelsCall c l c') : l.ofLoop = false := by
  cases h <;> subst l <;> rfl

theorem channelCall_took (f : Channels → Option Channels) (hs : s.channelCall f = some s')
    (hf : ∀ c, f s.channels = some c → ChannelsCall s.channels l c) : Took o maxNotices s l s' := by
  unfold State.channelCall at hs
  split at hs
  · rename_i huser
    obtain ⟨c, hc, rfl⟩ := Option.map_eq_some_iff.mp hs
    exact .channels huser (hf c hc)
  · cases hs

theorem step_took (hs : step o maxNotices s l = some s') : Took o maxNotices s l s' := by
  cases l with
  | advance => exact .advance hs
  | leave threw => exact .leave hs
  | engineQuiescent b => cases hs; exact .engineQuiescent b
  | newChannel fd =>
    exact channelCall_took (fun c => some (c.new fd)) hs fun _ hc => .new fd rfl (Option.some.inj hc).symm
  | setInterest id setter =>
    exact channelCall_took (fun c => some (setter.call c id)) hs fun _ hc =>
      .set id setter rfl (Option.some.inj hc).symm
  | removeChannel id => exact channelCall_took (fun c => c.remove id) hs fun _ hc => .remove id rfl hc
  | destroyChannel id => exact channelCall_took (fun c => c.destroy id) hs fun _ hc => .destroy id rfl hc
  | retireChannel id => exact channelCall_took (fun c => c.retire id) hs fun _ hc => .retire id rfl hc
  | wait native drains =>
    simp only [step] at hs
    split at hs
    · rename_i st t hpc
      cases drains with
      | false => cases hs; exact .wait native hpc
      | true =>
        obtain ⟨-, rfl⟩ : _ ∧ _ := by simpa using hs
        exact .wake native hpc
    · cases hs
  | registerControl =>
    simp only [step, Option.ite_none_right_eq_some] at hs
    obtain ⟨huser, hs⟩ := hs
    split at hs
    · cases hs; exact .refused rfl
    · split at hs <;> cases hs
      · exact .refused rfl
      · rename_i hr
        exact .register huser hr
  | attach b =>
    simp only [step, Option.ite_none_right_eq_some] at hs
    obtain ⟨huser, hs⟩ := hs
    split at hs <;> cases hs
    · exact .refused rfl
    · rename_i ha
      exact .attach huser ha
  | _ =>
    simp only [step, Option.ite_none_right_eq_some, Option.some.injEq] at hs
    obtain ⟨hguard, rfl⟩ := hs
    first
    | exact .start hguard
    | exact .timeout _ hguard.1
    | exact .post _ _ _ hguard
    | exact .notify _ _
    | exact .signal _ _
    | exact .quit _ hguard
    | exact .writeWakeup hguard
    | exact .unregister _ hguard
    | exact .detach _ hguard

/-- A call leaves the position of the owner thread alone. -/
theorem call_frame (hl : l.ofLoop = false) (hs : step o maxNotices s l = some s') : Frame s l s' := by
  cases step_took hs with
  | post caller kind cb =>
    unfold State.postFunctor
    dsimp only
    split <;> exact ⟨by simp, by simp, .inl (by simp)⟩
  | notify caller source =>
    unfold State.notify
    dsimp only
    split <;> exact ⟨by simp, by simp, .inl (by simp)⟩
  | signal caller source =>
    unfold State.signal
    dsimp only
    split <;> exact ⟨by simp, by simp, .inl (by simp)⟩
  | quit caller =>
    unfold State.quitLoop
    dsimp only
    split
    · exact ⟨rfl, fun _ => rfl, .inl rfl⟩
    · split <;> exact ⟨by simp, by simp, .inl (by simp)⟩
  | channels huser hc => exact ⟨rfl, id, .inr ⟨huser, hc⟩⟩
  | writeWakeup | refused | register | unregister | attach | detach | engineQuiescent =>
    exact ⟨rfl, id, .inl rfl⟩
  | _ => cases hl

end

end GameNet.EventLoop
