import GameNet.Types

/- BroadcastDispatcher (`BroadcastDispatcher.cc`): a plan is cut into chunks, each chunk reserves
   room in four shared counters, is posted to the loop of its owner, and gives the room back when
   its task is finished or its post was refused.

   One step is one atomic operation on the shared counters or one critical section of a progress
   state. A chunk is a `Job`; its stage says which operation comes next, whoever makes it: the
   dispatching thread up to the post, then the task on the owner loop. What endpoints and posts
   answer is in the labels. A compare-exchange loop is one step, as only its last round counts.
   Peaks, rejection counts and metrics are left out, so are allocation failures. -/
namespace GameNet.Broadcast

/-! ## Plans and limits -/

inductive BroadcastPriority where
  | low
  | normal
  | high
  deriving DecidableEq, Repr

inductive BroadcastReason where
  | none
  | offlineSession
  | duplicateEndpoint
  | fanoutHardLimit
  | byteHardLimit
  | lowPrioritySoftLimit
  | dispatchTaskByteLimit
  | endpointClosed
  | endpointOverloaded
  | ownerUnavailable
  | ownerShutdown
  | dispatchQueueFull
  | ownerOutstandingTaskLimit
  | ownerOutstandingByteLimit
  | globalOutstandingByteLimit
  | invalidPlan
  | sendRejected
  deriving DecidableEq, Repr

inductive EndpointResult where
  | accepted
  | closed
  | wrongThread
  | ownerUnavailable
  | overloaded
  deriving DecidableEq, Repr

/-- `DispatchLimits` as the constructor accepts them. -/
structure DispatchLimits where
  maxEndpointsPerTask : Nat
  maxBytesPerTask : Nat
  maxOutstandingTasksPerOwner : Nat
  maxOutstandingBytesPerOwner : Nat
  maxGlobalOutstandingBytes : Nat
  lowPriorityOutstandingBytes : Nat
  endpoints_pos : maxEndpointsPerTask ≠ 0
  taskBytes_pos : maxBytesPerTask ≠ 0
  ownerTasks_pos : maxOutstandingTasksPerOwner ≠ 0
  ownerBytes_pos : maxOutstandingBytesPerOwner ≠ 0
  globalBytes_pos : maxGlobalOutstandingBytes ≠ 0
  low_le : lowPriorityOutstandingBytes ≤ maxGlobalOutstandingBytes

/-- `LoopBatch`; an endpoint is a name, or `none` for a null pointer. -/
structure LoopBatch where
  ownerExecutor : Nat
  endpoints : List (Option Nat)

def BroadcastReason.all : List BroadcastReason :=
  [.none, .offlineSession, .duplicateEndpoint, .fanoutHardLimit, .byteHardLimit,
    .lowPrioritySoftLimit, .dispatchTaskByteLimit, .endpointClosed, .endpointOverloaded,
    .ownerUnavailable, .ownerShutdown, .dispatchQueueFull, .ownerOutstandingTaskLimit,
    .ownerOutstandingByteLimit, .globalOutstandingByteLimit, .invalidPlan, .sendRejected]

/-- How often each reason was counted. -/
abbrev Counts := BroadcastReason → Nat

def Counts.total (c : Counts) : Nat := (BroadcastReason.all.map c).sum

/-- `++reasonCounts[reasonIndex(reason)]`, `n` times. -/
def Counts.add (c : Counts) (reason : BroadcastReason) (n : Nat) : Counts :=
  Function.update c reason (c reason + n)

/-- `BroadcastPlan`; of the payload only the size matters. A plan from which another was moved
    has no payload. Only the router makes plans: it counts a reason for each endpoint that it
    drops, and has no endpoint twice. -/
structure BroadcastPlan where
  payload : Option Nat
  batches : List LoopBatch
  dropped : Nat
  priority : BroadcastPriority
  reasonCounts : Counts
  counted : reasonCounts.total = dropped
  distinct : ∀ e, (batches.flatMap LoopBatch.endpoints).count (some e) ≤ 1

def BroadcastPlan.endpoints (plan : BroadcastPlan) : List (Option Nat) :=
  plan.batches.flatMap LoopBatch.endpoints

theorem Counts.sum_add (c : Counts) (reason : BroadcastReason) (n : Nat) {l : List BroadcastReason}
    (hnodup : l.Nodup) :
    (l.map (c.add reason n)).sum = (l.map c).sum + if reason ∈ l then n else 0 := by
  induction l with
  | nil => rfl
  | cons r l ih =>
    rw [List.nodup_cons] at hnodup
    rw [List.map_cons, List.sum_cons, ih hnodup.2, List.map_cons, List.sum_cons]
    by_cases hr : r = reason
    · subst hr
      rw [Counts.add, Function.update_self, if_neg hnodup.1, if_pos (.head _)]
      omega
    · rw [Counts.add, Function.update_of_ne hr]
      simp only [List.mem_cons, Ne.symm hr, false_or]
      omega

theorem Counts.total_zero : Counts.total (fun _ => 0) = 0 := by decide

theorem Counts.total_add (c : Counts) (reason : BroadcastReason) (n : Nat) :
    (c.add reason n).total = c.total + n := by
  have hmem : reason ∈ BroadcastReason.all := by cases reason <;> decide
  rw [Counts.total, Counts.sum_add c reason n (by decide), if_pos hmem]
  rfl

/-! ## The shared counters -/

structure Shared where
  accepting : Bool := true
  globalTasks : Nat := 0
  globalBytes : Nat := 0
  ownerTasks : Nat → Nat := fun _ => 0
  ownerBytes : Nat → Nat := fun _ => 0
  /-- `LOG_FATAL` of an underflow. -/
  fatal : Bool := false

def fitsWithin (current amount limit : Nat) : Bool := current ≤ limit && amount ≤ limit - current

/-- `AtomicLimit::tryReserve` -/
def tryReserve (current amount limit : Nat) : Option Nat :=
  if amount = 0 then some current
  else if fitsWithin current amount limit then some (current + amount) else none

/-- The operations of `State::release`, the `released` flag first, the progress last. -/
inductive Release where
  | flag
  | globalBytes
  | ownerBytes
  | ownerTasks
  | globalTasks
  | progress
  deriving DecidableEq, Repr

/-- What comes next for a chunk. -/
inductive Stage where
  /-- The first load of `accepting` in `State::tryReserve`, and the operations that follow. -/
  | check
  | ownerTask
  | ownerBytes
  | globalBytes
  | recheck
  | globalTask
  | undoGlobal (reason : BroadcastReason)
  | undoBytes (reason : BroadcastReason)
  | undoTask (reason : BroadcastReason)
  /-- No reservation was made. -/
  | failed (reason : BroadcastReason)
  /-- The progress counts the task, and it is posted. -/
  | count
  | post
  /-- The task is in the queue of its owner loop, or runs there. -/
  | queued
  | running
  /-- The reservation is released, by the task, or after a refused post. -/
  | releasing (op : Release) (postFailure : Option BroadcastReason)
  | refused (reason : BroadcastReason)
  | finished
  /-- The endpoints of a failed reservation are dropped. -/
  | abandoned
  deriving DecidableEq, Repr

structure Job where
  dispatch : Nat
  owner : Nat
  bytes : Nat
  endpoints : List Nat
  stage : Stage := .check
  released : Bool := false
  /-- How often `State::release` was entered for it. -/
  releases : Nat := 0

namespace Shared

/-- `AtomicLimit::release` -/
def sub (g : Shared) (current amount : Nat) (set : Nat → Shared) : Shared :=
  if current < amount then { g with fatal := true } else set (current - amount)

def releaseGlobalBytes (g : Shared) (bytes : Nat) : Shared :=
  g.sub g.globalBytes bytes fun n => { g with globalBytes := n }

def releaseOwnerBytes (g : Shared) (owner bytes : Nat) : Shared :=
  g.sub (g.ownerBytes owner) bytes fun n =>
    { g with ownerBytes := Function.update g.ownerBytes owner n }

def releaseOwnerTasks (g : Shared) (owner : Nat) : Shared :=
  g.sub (g.ownerTasks owner) 1 fun n =>
    { g with ownerTasks := Function.update g.ownerTasks owner n }

def releaseGlobalTasks (g : Shared) : Shared :=
  g.sub g.globalTasks 1 fun n => { g with globalTasks := n }

/-- The operations of `State::tryReserve`. The limit of the last counter is the range of its
    type. -/
def reserve (l : DispatchLimits) (priority : BroadcastPriority) (g : Shared) (owner bytes : Nat) :
    Stage → Option (Shared × Stage)
  | .check => some (g, if g.accepting then .ownerTask else .failed .ownerShutdown)
  | .ownerTask =>
    match tryReserve (g.ownerTasks owner) 1 l.maxOutstandingTasksPerOwner with
    | some n => some ({ g with ownerTasks := Function.update g.ownerTasks owner n }, .ownerBytes)
    | none => some (g, .failed .ownerOutstandingTaskLimit)
  | .ownerBytes =>
    match tryReserve (g.ownerBytes owner) bytes l.maxOutstandingBytesPerOwner with
    | some n => some ({ g with ownerBytes := Function.update g.ownerBytes owner n }, .globalBytes)
    | none => some (g, .undoTask .ownerOutstandingByteLimit)
  | .globalBytes =>
    let effectiveGlobalLimit :=
      if priority = .low then l.lowPriorityOutstandingBytes else l.maxGlobalOutstandingBytes
    match tryReserve g.globalBytes bytes effectiveGlobalLimit with
    | some n => some ({ g with globalBytes := n }, .recheck)
    | none =>
      some (g, .undoBytes
        (if priority = .low ∧ fitsWithin g.globalBytes bytes l.maxGlobalOutstandingBytes then
          .lowPrioritySoftLimit
        else .globalOutstandingByteLimit))
  | .recheck => some (g, if g.accepting then .globalTask else .undoGlobal .ownerShutdown)
  | .undoGlobal r => some (g.releaseGlobalBytes bytes, .undoBytes r)
  | .undoBytes r => some (g.releaseOwnerBytes owner bytes, .undoTask r)
  | .undoTask r => some (g.releaseOwnerTasks owner, .failed r)
  | .globalTask => some ({ g with globalTasks := g.globalTasks + 1 }, .count)
  | _ => none

/-- The counter operations of `State::release`. -/
def release (g : Shared) (owner bytes : Nat) : Release → Shared × Release
  | .globalBytes => (g.releaseGlobalBytes bytes, .ownerBytes)
  | .ownerBytes => (g.releaseOwnerBytes owner bytes, .ownerTasks)
  | .ownerTasks => (g.releaseOwnerTasks owner, .globalTasks)
  | .globalTasks => (g.releaseGlobalTasks, .progress)
  | .flag => (g, .globalBytes)
  | .progress => (g, .progress)

end Shared

/-! ## Dispatches -/

structure DispatchSummary where
  scheduledEndpoints : Nat := 0
  scheduledTasks : Nat := 0
  acceptedEndpoints : Nat := 0
  droppedEndpoints : Nat := 0
  reasonCounts : Counts := fun _ => 0

/-- `DispatchProgress::State` -/
structure DispatchProgress where
  scheduledEndpoints : Nat := 0
  acceptedEndpoints : Nat := 0
  droppedEndpoints : Nat := 0
  outstandingTasks : Nat := 0
  outstandingBytes : Nat := 0
  complete : Bool := false
  reasonCounts : Counts := fun _ => 0
  isSealed : Bool := false

/-- What a dispatch has left to do: the valid endpoints of the current batch, and the batches
    after it. -/
structure Todo where
  owner : Nat
  valid : List Nat
  rest : List LoopBatch

/-- Where a dispatch is. -/
inductive Pc where
  | batches (rest : List LoopBatch)
  | chunks (todo : Todo)
  /-- The reservation and the post of a chunk. -/
  | busy (job : Nat) (chunk : List Nat) (todo : Todo)
  /-- The post of `n` endpoints was accepted. -/
  | admitted (n : Nat) (todo : Todo)
  | returned

structure Dispatch where
  plan : BroadcastPlan
  pc : Pc
  summary : DispatchSummary := {}
  progress : DispatchProgress := {}
  /-- The endpoints that were sent the payload. -/
  sends : List Nat := []

namespace Dispatch

/-- `recordImmediateDrop`, `n` times. -/
def drop (d : Dispatch) (reason : BroadcastReason) (n : Nat) : Dispatch :=
  { d with
    summary := { d.summary with
      droppedEndpoints := d.summary.droppedEndpoints + n
      reasonCounts := d.summary.reasonCounts.add reason n }
    progress := { d.progress with
      droppedEndpoints := d.progress.droppedEndpoints + n
      reasonCounts := d.progress.reasonCounts.add reason n } }

/-- `sealed = true` -/
def finish (d : Dispatch) : Dispatch :=
  { d with
    pc := .returned
    progress := { d.progress with isSealed := true, complete := d.progress.outstandingTasks = 0 } }

/-- The counts of an accepted post. -/
def schedule (d : Dispatch) (n : Nat) (todo : Todo) : Dispatch :=
  { d with
    pc := .chunks todo
    summary := { d.summary with
      scheduledEndpoints := d.summary.scheduledEndpoints + n
      acceptedEndpoints := d.summary.acceptedEndpoints + n
      scheduledTasks := d.summary.scheduledTasks + 1 }
    progress := { d.progress with
      scheduledEndpoints := d.progress.scheduledEndpoints + n } }

/-- The beginning of `dispatch`, up to the loop over the batches. -/
def start (l : DispatchLimits) (plan : BroadcastPlan) : Dispatch :=
  match plan.payload with
  | none => (drop { plan := plan, pc := .batches [] } .invalidPlan 1).finish
  | some size =>
    let d : Dispatch :=
      { plan := plan
        pc := .batches plan.batches
        summary := { droppedEndpoints := plan.dropped, reasonCounts := plan.reasonCounts }
        progress := { droppedEndpoints := plan.dropped, reasonCounts := plan.reasonCounts } }
    if size > l.maxBytesPerTask then
      (d.drop .dispatchTaskByteLimit plan.endpoints.length).finish
    else d

end Dispatch

/-- What a dispatch sees of the world in one step. -/
structure DispatchEnv where
  /-- `endpoint->ownerExecutor().id()` -/
  executor : Nat → Nat := fun _ => 0
  /-- `endpoint->isOpen()` -/
  isOpen : Nat → Bool := fun _ => true
  posted : PostResult := .accepted

/-- Why an endpoint of a batch is not dispatched. -/
def screen (env : DispatchEnv) (batch : LoopBatch) : Option Nat → Option BroadcastReason
  | none => some .invalidPlan
  | some endpoint =>
    if env.executor endpoint ≠ batch.ownerExecutor then some .invalidPlan
    else if env.isOpen endpoint = false then some .endpointClosed
    else none

/-- The first loop over the endpoints of a batch. -/
def validate (env : DispatchEnv) (batch : LoopBatch) :
    List (Option Nat) → Dispatch → Dispatch × List Nat
  | [], d => (d, [])
  | endpoint :: rest, d =>
    match screen env batch endpoint, endpoint with
    | some reason, _ => validate env batch rest (d.drop reason 1)
    | none, some endpoint =>
      let (d, valid) := validate env batch rest d
      (d, endpoint :: valid)
    | none, none => validate env batch rest d

def chunkSize (l : DispatchLimits) (payload : Nat) : Nat :=
  let byBytes := if payload = 0 then l.maxEndpointsPerTask else max 1 (l.maxBytesPerTask / payload)
  min l.maxEndpointsPerTask byBytes

/-- `logicalBytes`: a product that saturates at the largest `size_t`. -/
def logicalBytes (payloadBytes endpoints : Nat) : Nat :=
  if payloadBytes ≠ 0 ∧ endpoints > (2 ^ 64 - 1) / payloadBytes then 2 ^ 64 - 1
  else payloadBytes * endpoints

def postFailureReason : PostResult → BroadcastReason
  | .queueFull => .dispatchQueueFull
  | .shutdown => .ownerShutdown
  | .ownerUnavailable => .ownerUnavailable
  | .accepted => .none

def endpointFailureReason : EndpointResult → BroadcastReason
  | .accepted => .none
  | .closed => .endpointClosed
  | .ownerUnavailable => .ownerUnavailable
  | .overloaded => .endpointOverloaded
  | .wrongThread => .sendRejected

/-! ## The machine -/

structure State where
  shared : Shared := {}
  jobs : List Job := []
  dispatches : List Dispatch := []

def State.put (s : State) (i : Nat) (d : Dispatch) : State :=
  { s with dispatches := s.dispatches.set i d }

/-- What an endpoint answers to a task: whether it is open, and the result of `send`, `none` for
    an exception. -/
structure TaskEnv where
  isOpen : Bool := true
  send : Option EndpointResult := some .accepted

/-- The task of one endpoint. -/
def Dispatch.deliver (d : Dispatch) (endpoint : Nat) (env : TaskEnv) : Dispatch :=
  let reason :=
    if env.isOpen = false then .endpointClosed
    else match env.send with
      | some result => endpointFailureReason result
      | none => .sendRejected
  let progress :=
    if reason = .none then
      { d.progress with acceptedEndpoints := d.progress.acceptedEndpoints + 1 }
    else
      { d.progress with
        droppedEndpoints := d.progress.droppedEndpoints + 1
        reasonCounts := d.progress.reasonCounts.add reason 1 }
  { d with progress := progress, sends := if env.isOpen then endpoint :: d.sends else d.sends }

/-- The progress of a dispatch without one of its tasks. -/
def DispatchProgress.leave (p : DispatchProgress) (bytes : Nat) : DispatchProgress :=
  { p with
    outstandingTasks := p.outstandingTasks - 1
    outstandingBytes := p.outstandingBytes - bytes
    complete := p.isSealed && decide (p.outstandingTasks - 1 = 0) }

/-- One operation of `releaseReservation`. -/
def release (g : Shared) (job : Job) (d : Dispatch) (op : Release)
    (postFailure : Option BroadcastReason) : Shared × Job × Dispatch :=
  let finish : Stage := match postFailure with
    | some reason => .refused reason
    | none => .finished
  match op with
  | .flag =>
    if job.released then (g, { job with stage := finish }, d)
    else (g, { job with
      stage := .releasing .globalBytes postFailure
      released := true
      releases := job.releases + 1 }, d)
  | .progress =>
    (g, { job with stage := finish }, { d with progress := d.progress.leave job.bytes })
  | op =>
    let (g, next) := g.release job.owner job.bytes op
    (g, { job with stage := .releasing next postFailure }, d)

/-- A step of a dispatch on its current chunk. -/
def attempt (l : DispatchLimits) (g : Shared) (job : Job) (d : Dispatch) (chunk : List Nat)
    (todo : Todo) (env : DispatchEnv) : Option (Shared × Job × Dispatch) :=
  match job.stage with
  | .count =>
    some (g, { job with stage := .post },
      { d with progress := { d.progress with
          outstandingTasks := d.progress.outstandingTasks + 1
          outstandingBytes := d.progress.outstandingBytes + job.bytes } })
  | .post =>
    if env.posted = .accepted then
      some (g, { job with stage := .queued }, { d with pc := .admitted chunk.length todo })
    else some (g, { job with stage := .releasing .flag (some (postFailureReason env.posted)) }, d)
  | .failed reason =>
    some (g, { job with stage := .abandoned },
      { d.drop reason chunk.length with pc := .chunks todo })
  | .refused reason =>
    some (g, { job with stage := .finished },
      { d.drop reason chunk.length with pc := .chunks todo })
  | .releasing op (some reason) => some (release g job d op (some reason))
  | .queued | .running | .releasing _ none | .finished | .abandoned => none
  | stage =>
    (g.reserve l d.plan.priority job.owner job.bytes stage).map fun (g, stage) =>
      (g, { job with stage := stage }, d)

/-- A step of the task of a chunk. -/
def runTask (g : Shared) (job : Job) (d : Dispatch) (env : TaskEnv) :
    Option (Shared × Job × Dispatch) :=
  match job.stage with
  | .queued => some (g, { job with stage := .running }, d)
  | .running =>
    match job.endpoints with
    | [] => some (g, { job with stage := .releasing .flag none }, d)
    | endpoint :: rest => some (g, { job with endpoints := rest }, d.deliver endpoint env)
  | .releasing op none => some (release g job d op none)
  | _ => none

inductive Label where
  | dispatch (plan : BroadcastPlan)
  | step (dispatch : Nat) (env : DispatchEnv)
  | task (job : Nat) (env : TaskEnv)
  | shutdown

/-- A chunk begins. -/
def newJob (l : DispatchLimits) (i : Nat) (d : Dispatch) (todo : Todo) : Job :=
  let size := d.plan.payload.getD 0
  let chunk := todo.valid.take (chunkSize l size)
  { dispatch := i, owner := todo.owner, bytes := logicalBytes size chunk.length, endpoints := chunk }

def step (l : DispatchLimits) (s : State) : Label → Option State
  | .dispatch plan => some { s with dispatches := s.dispatches ++ [Dispatch.start l plan] }
  | .shutdown => some { s with shared := { s.shared with accepting := false } }
  | .task j env =>
    s.jobs[j]?.bind fun job =>
      s.dispatches[job.dispatch]?.bind fun d =>
        (runTask s.shared job d env).map fun (g, job', d') =>
          ⟨g, s.jobs.set j job', s.dispatches.set job.dispatch d'⟩
  | .step i env =>
    s.dispatches[i]?.bind fun d =>
      match d.pc with
      | .batches [] => some (s.put i d.finish)
      | .batches (batch :: rest) =>
        let (d, valid) := validate env batch batch.endpoints d
        some (s.put i { d with pc := .chunks ⟨batch.ownerExecutor, valid, rest⟩ })
      | .chunks todo =>
        if todo.valid = [] then some (s.put i { d with pc := .batches todo.rest })
        else
          let job := newJob l i d todo
          let todo := { todo with valid := todo.valid.drop job.endpoints.length }
          some ({ s with jobs := s.jobs ++ [job] }.put i
            { d with pc := .busy s.jobs.length job.endpoints todo })
      | .busy j chunk todo =>
        s.jobs[j]?.bind fun job =>
          (attempt l s.shared job d chunk todo env).map fun (g, job', d') =>
            ⟨g, s.jobs.set j job', s.dispatches.set i d'⟩
      | .admitted n todo => some (s.put i (d.schedule n todo))
      | .returned => none

end GameNet.Broadcast
