import GameNet.Broadcast.Accounting

/- No endpoint of a dispatched plan is lost or counted twice. An endpoint is, at every moment, in
   the part of the plan that the dispatch has not settled, in a chunk whose task has not come to
   it, or counted; `Account` says so for the summary and for the progress of a dispatch, given what
   its chunks have left. Every step of a chunk moves endpoints between these places. -/
namespace GameNet.Broadcast

open Stacks (weight weight_set le_weight_get getElem?_set_cases getElem?_append_of)
open Machine (Reach Any)

/-! ## What is where -/

def Todo.endpoints (todo : Todo) : List (Option Nat) :=
  todo.valid.map some ++ todo.rest.flatMap LoopBatch.endpoints

/-- The endpoints that the dispatch has neither dropped nor posted. -/
def Pc.endpoints : Pc → List (Option Nat)
  | .batches rest => rest.flatMap LoopBatch.endpoints
  | .chunks todo => todo.endpoints
  | .busy _ chunk todo => chunk.map some ++ todo.endpoints
  | .admitted _ todo => todo.endpoints
  | .returned => []

/-- The endpoints that were posted but not yet added to the summary. -/
def Pc.posted : Pc → Nat
  | .admitted n _ => n
  | _ => 0

/-- The progress counts the task of the chunk. -/
def Stage.counted : Stage → Bool
  | .post | .queued | .running | .releasing _ _ => true
  | _ => false

/-- The chunk was posted, and its task is not over. -/
def Stage.posted : Stage → Bool
  | .queued | .running => true
  | _ => false

/-- What the books of a dispatch expect from its chunks: endpoints, copies of one endpoint, and the
    tasks and bytes that are outstanding. -/
inductive Owed
  | endpoints
  | copies (endpoint : Nat)
  | tasks
  | bytes

/-- The endpoints of dispatch `i` that a task has left. -/
def Job.left (i : Nat) (job : Job) : List Nat :=
  if job.dispatch = i ∧ job.stage.posted then job.endpoints else []

def Job.owed (i : Nat) (job : Job) : Owed → Nat
  | .endpoints => (job.left i).length
  | .copies e => (job.left i).count e
  | .tasks => if job.dispatch = i ∧ job.stage.counted then 1 else 0
  | .bytes => if job.dispatch = i ∧ job.stage.counted then job.bytes else 0

/-- The total of a dispatch: the endpoints of the plan and those that the router dropped. A plan
    without a payload counts as one. -/
def BroadcastPlan.total (plan : BroadcastPlan) : Nat :=
  if plan.payload = none then 1 else plan.endpoints.length + plan.dropped

/-- The books of a dispatch that is `owed` so much by its chunks. -/
structure Account (d : Dispatch) (owed : Owed → Nat) : Prop where
  summary : d.summary.scheduledEndpoints + d.summary.droppedEndpoints + d.pc.posted +
    d.pc.endpoints.length = d.plan.total
  reasons : d.summary.reasonCounts.total = d.summary.droppedEndpoints
  progress : d.progress.acceptedEndpoints + d.progress.droppedEndpoints + owed .endpoints +
    d.pc.endpoints.length = d.plan.total
  sends : ∀ e, d.sends.count e + owed (.copies e) + d.pc.endpoints.count (some e) ≤
    d.plan.endpoints.count (some e)
  tasks_eq : d.progress.outstandingTasks = owed .tasks
  bytes_eq : d.progress.outstandingBytes = owed .bytes
  returned : d.progress.isSealed = true → d.pc = .returned
  complete : d.progress.complete = (d.progress.isSealed && decide (d.progress.outstandingTasks = 0))

def Accounted (jobs : List Job) (i : Nat) (d : Dispatch) : Prop :=
  Account d fun k => weight (fun job => job.owed i k) jobs

/-- A chunk and its dispatch go on together. -/
structure Moved (i : Nat) (d d' : Dispatch) (job job' : Job) : Prop where
  plan : d'.plan = d.plan
  summary : d'.summary.scheduledEndpoints + d'.summary.droppedEndpoints + d'.pc.posted +
      d'.pc.endpoints.length =
    d.summary.scheduledEndpoints + d.summary.droppedEndpoints + d.pc.posted + d.pc.endpoints.length
  reasons : d.summary.reasonCounts.total = d.summary.droppedEndpoints →
    d'.summary.reasonCounts.total = d'.summary.droppedEndpoints
  progress : d'.progress.acceptedEndpoints + d'.progress.droppedEndpoints + job'.owed i .endpoints +
      d'.pc.endpoints.length =
    d.progress.acceptedEndpoints + d.progress.droppedEndpoints + job.owed i .endpoints +
      d.pc.endpoints.length
  sends : ∀ e, d'.sends.count e + job'.owed i (.copies e) + d'.pc.endpoints.count (some e) ≤
    d.sends.count e + job.owed i (.copies e) + d.pc.endpoints.count (some e)
  tasks : d'.progress.outstandingTasks + job.owed i .tasks =
    d.progress.outstandingTasks + job'.owed i .tasks
  bytes : d'.progress.outstandingBytes + job.owed i .bytes =
    d.progress.outstandingBytes + job'.owed i .bytes
  returned : (d.progress.isSealed = true → d.pc = .returned) →
    d'.progress.isSealed = true → d'.pc = .returned
  complete : d.progress.complete =
      (d.progress.isSealed && decide (d.progress.outstandingTasks = 0)) →
    d'.progress.complete = (d'.progress.isSealed && decide (d'.progress.outstandingTasks = 0))

section
variable {jobs : List Job} {i : Nat} {d d' : Dispatch} {job job' : Job}

theorem Account.moved {owed owed' : Owed → Nat} (h : Account d owed) (hm : Moved i d d' job job')
    (howed : ∀ k, owed' k + job.owed i k = owed k + job'.owed i k) : Account d' owed' := by
  refine ⟨?_, hm.reasons h.reasons, ?_, fun e => ?_, ?_, ?_, hm.returned h.returned,
    hm.complete h.complete⟩
  · rw [hm.plan, ← h.summary, hm.summary]
  · have hbefore := h.progress
    have hmoved := hm.progress
    have hleft := howed .endpoints
    rw [hm.plan]
    omega
  · have hbefore := h.sends e
    have hmoved := hm.sends e
    have hcopy := howed (.copies e)
    rw [hm.plan]
    omega
  · have hbefore := h.tasks_eq
    have hmoved := hm.tasks
    have htasks := howed .tasks
    omega
  · have hbefore := h.bytes_eq
    have hmoved := hm.bytes
    have hbytes := howed .bytes
    omega

variable {j : Nat}

theorem Accounted.moved (h : Accounted jobs i d) (hj : jobs[j]? = some job)
    (hm : Moved i d d' job job') : Accounted (jobs.set j job') i d' :=
  Account.moved h hm fun k => weight_set (fun job => job.owed i k) hj job'

/-- The dispatch goes on alone. -/
theorem Accounted.alone (h : Accounted jobs i d) (hm : Moved i d d' job job) :
    Accounted jobs i d' :=
  Account.moved h hm fun _ => rfl

theorem Job.not_posted (h : job.stage.posted = false) : job.left i = [] :=
  if_neg fun hc => Bool.false_ne_true (h ▸ hc.2)

theorem Job.owed_eq_zero (hposted : ¬(job.dispatch = i ∧ job.stage.posted = true))
    (hcounted : ¬(job.dispatch = i ∧ job.stage.counted = true)) (k : Owed) : job.owed i k = 0 := by
  cases k <;> simp [Job.owed, Job.left, hposted, hcounted]

theorem Job.owed_other (h : job.dispatch ≠ i) (k : Owed) : job.owed i k = 0 :=
  Job.owed_eq_zero (fun hc => h hc.1) (fun hc => h hc.1) k

/-- A chunk begins. -/
theorem Accounted.append (h : Accounted jobs i d) (hposted : job.stage.posted = false)
    (hcounted : job.stage.counted = false) : Accounted (jobs ++ [job]) i d := by
  have hzero : ∀ k, job.owed i k = 0 := Job.owed_eq_zero (by simp [hposted]) (by simp [hcounted])
  simpa [Accounted, hzero] using h

/-! ## The steps of a dispatch -/

/-- What a dispatch is owed by a chunk stays the same. -/
def Level (i : Nat) (job job' : Job) : Prop := ∀ k, job'.owed i k = job.owed i k

theorem Level.refl (i : Nat) (job : Job) : Level i job job := fun _ => rfl

theorem Level.stage {stage stage' : Stage} (hs : job.stage = stage)
    (hposted : stage'.posted = stage.posted) (hcounted : stage'.counted = stage.counted)
    {released : Bool} {releases : Nat} :
    Level i job { job with stage := stage', released := released, releases := releases } := by
  subst hs
  intro k
  cases k <;> simp only [Job.owed, Job.left, hposted, hcounted]

theorem Moved.level (h : Level i job job') : Moved i d d job job' := by
  refine ⟨rfl, rfl, id, ?_, fun e => ?_, ?_, ?_, id, id⟩
  all_goals rw [h]

/-- A chunk of another dispatch does not matter. -/
theorem Accounted.frame (h : Accounted jobs i d) (hj : jobs[j]? = some job)
    (hother : job.dispatch ≠ i) (hsame : job'.dispatch = job.dispatch) :
    Accounted (jobs.set j job') i d :=
  h.moved hj (.level fun k =>
    (Job.owed_other (hsame ▸ hother) k).trans (Job.owed_other hother k).symm)

/-- `n` endpoints were dropped, and nothing else happened. -/
structure Dropped (n : Nat) (d d' : Dispatch) : Prop where
  plan : d'.plan = d.plan
  pc : d'.pc = d.pc
  sends : d'.sends = d.sends
  scheduled : d'.summary.scheduledEndpoints = d.summary.scheduledEndpoints
  summary : d'.summary.droppedEndpoints = d.summary.droppedEndpoints + n
  reasons : d'.summary.reasonCounts.total = d.summary.reasonCounts.total + n
  accepted : d'.progress.acceptedEndpoints = d.progress.acceptedEndpoints
  progress : d'.progress.droppedEndpoints = d.progress.droppedEndpoints + n
  tasks : d'.progress.outstandingTasks = d.progress.outstandingTasks
  bytes : d'.progress.outstandingBytes = d.progress.outstandingBytes
  isSealed : d'.progress.isSealed = d.progress.isSealed
  complete : d'.progress.complete = d.progress.complete

theorem Dropped.refl (d : Dispatch) : Dropped 0 d d :=
  ⟨rfl, rfl, rfl, rfl, rfl, (Nat.add_zero _).symm, rfl, rfl, rfl, rfl, rfl, rfl⟩

theorem Dropped.drop (d : Dispatch) (reason : BroadcastReason) (n : Nat) :
    Dropped n d (d.drop reason n) :=
  ⟨rfl, rfl, rfl, rfl, rfl, Counts.total_add _ _ _, rfl, rfl, rfl, rfl, rfl, rfl⟩

theorem Dropped.trans {n m : Nat} {d'' : Dispatch} (h : Dropped n d d') (h' : Dropped m d' d'') :
    Dropped (n + m) d d'' where
  plan := h'.plan.trans h.plan
  pc := h'.pc.trans h.pc
  sends := h'.sends.trans h.sends
  scheduled := h'.scheduled.trans h.scheduled
  summary := by rw [h'.summary, h.summary, Nat.add_assoc]
  reasons := by rw [h'.reasons, h.reasons, Nat.add_assoc]
  accepted := h'.accepted.trans h.accepted
  progress := by rw [h'.progress, h.progress, Nat.add_assoc]
  tasks := h'.tasks.trans h.tasks
  bytes := h'.bytes.trans h.bytes
  isSealed := h'.isSealed.trans h.isSealed
  complete := h'.complete.trans h.complete

/-- The dispatch drops `n` endpoints and goes on. -/
theorem Moved.dropped {n : Nat} (h : Dropped n d d') {pc : Pc} (hsealed : d.progress.isSealed = false)
    (hposted : pc.posted = d.pc.posted)
    (hlength : n + pc.endpoints.length = d.pc.endpoints.length)
    (hcount : ∀ e, pc.endpoints.count (some e) ≤ d.pc.endpoints.count (some e))
    (hlevel : Level i job job') : Moved i d { d' with pc := pc } job job' where
  plan := h.plan
  summary := by
    show d'.summary.scheduledEndpoints + d'.summary.droppedEndpoints + pc.posted +
      pc.endpoints.length = _
    rw [h.scheduled, h.summary, hposted]
    omega
  reasons hbefore := by
    show d'.summary.reasonCounts.total = d'.summary.droppedEndpoints
    rw [h.reasons, h.summary, hbefore]
  progress := by
    show d'.progress.acceptedEndpoints + d'.progress.droppedEndpoints + job'.owed i .endpoints +
      pc.endpoints.length = _
    rw [h.accepted, h.progress, hlevel]
    omega
  sends e := by
    have hle := hcount e
    show d'.sends.count e + job'.owed i (.copies e) + pc.endpoints.count (some e) ≤ _
    rw [h.sends, hlevel]
    omega
  tasks := by
    show d'.progress.outstandingTasks + _ = _
    rw [h.tasks, hlevel]
  bytes := by
    show d'.progress.outstandingBytes + _ = _
    rw [h.bytes, hlevel]
  returned _ hs := by
    rw [← h.isSealed] at hsealed
    exact absurd hs (hsealed ▸ Bool.false_ne_true)
  complete hbefore := by
    show d'.progress.complete =
      (d'.progress.isSealed && decide (d'.progress.outstandingTasks = 0))
    rw [h.complete, h.isSealed, h.tasks, hbefore]

/-- The endpoints that do not pass the first loop are dropped. -/
theorem validate_dropped (env : DispatchEnv) (batch : LoopBatch) (endpoints : List (Option Nat))
    (d : Dispatch) :
    ∃ n, Dropped n d (validate env batch endpoints d).1 ∧
      n + (validate env batch endpoints d).2.length = endpoints.length ∧
      ∀ e, (validate env batch endpoints d).2.count e ≤ endpoints.count (some e) := by
  induction endpoints generalizing d with
  | nil => exact ⟨0, .refl d, rfl, fun _ => Nat.le_refl _⟩
  | cons endpoint rest ih =>
    unfold validate
    split
    case h_1 reason _ =>
      obtain ⟨n, hdropped, hlength, hcount⟩ := ih (d.drop reason 1)
      refine ⟨1 + n, (Dropped.drop d reason 1).trans hdropped, ?_, fun e => ?_⟩
      · rw [List.length_cons]
        omega
      · exact (hcount e).trans (List.count_le_count_cons ..)
    case h_2 endpoint _ =>
      obtain ⟨n, hdropped, hlength, hcount⟩ := ih d
      refine ⟨n, hdropped, ?_, fun e => ?_⟩
      · simp only [List.length_cons]
        omega
      · have hle := hcount e
        simp only [List.count_cons, beq_iff_eq, Option.some.injEq]
        omega
    case h_3 h =>
      -- A null endpoint does not pass the screen.
      cases h

theorem Moved.finish (hpc : d.pc = .batches []) : Moved i d d.finish job job := by
  refine ⟨rfl, ?_, id, ?_, fun e => ?_, rfl, rfl, fun _ _ => rfl, fun _ => rfl⟩
  · rw [hpc]
    rfl
  · rw [hpc]
    rfl
  · rw [hpc]
    exact Nat.le_refl _

variable {todo : Todo}

theorem Moved.schedule {n : Nat} (hpc : d.pc = .admitted n todo)
    (hsealed : d.progress.isSealed = false) : Moved i d (d.schedule n todo) job job := by
  refine ⟨rfl, ?_, id, ?_, fun e => ?_, rfl, rfl, fun _ hs => ?_, id⟩
  · rw [hpc]
    show d.summary.scheduledEndpoints + n + d.summary.droppedEndpoints + 0 + todo.endpoints.length =
      d.summary.scheduledEndpoints + d.summary.droppedEndpoints + n + todo.endpoints.length
    omega
  · rw [hpc]
    rfl
  · rw [hpc]
    exact Nat.le_refl _
  · exact absurd hs (hsealed ▸ Bool.false_ne_true)

/-- The dispatch passes on without settling an endpoint. -/
theorem Moved.pass {pc : Pc} (hsealed : d.progress.isSealed = false)
    (hposted : pc.posted = d.pc.posted) (hendpoints : pc.endpoints = d.pc.endpoints) :
    Moved i d { d with pc := pc } job job :=
  .dropped (.refl d) hsealed hposted (by rw [hendpoints, Nat.zero_add])
    (fun e => by rw [hendpoints]) (.refl i job)

/-- The task is not counted any more. -/
theorem Moved.leave {stage : Stage} (hi : job.dispatch = i) (hcounted : job.stage.counted = true)
    (hposted : job.stage.posted = false) (hposted' : stage.posted = false)
    (hcounted' : stage.counted = false) (htask : job.owed i .tasks ≤ d.progress.outstandingTasks)
    (hbytes : job.owed i .bytes ≤ d.progress.outstandingBytes) :
    Moved i d { d with progress := d.progress.leave job.bytes } job { job with stage := stage } := by
  have hnone : ∀ k, Job.owed i { job with stage := stage } k = 0 :=
    Job.owed_eq_zero (by simp [hposted']) (by simp [hcounted'])
  have hone : job.owed i .tasks = 1 := if_pos ⟨hi, hcounted⟩
  have hall : job.owed i .bytes = job.bytes := if_pos ⟨hi, hcounted⟩
  have hleft : job.left i = [] := Job.not_posted hposted
  refine ⟨rfl, rfl, id, ?_, fun e => ?_, ?_, ?_, id, fun _ => rfl⟩
  · rw [hnone, Job.owed, hleft]
    rfl
  · rw [hnone, Job.owed, hleft]
    rfl
  · rw [hnone]
    show d.progress.outstandingTasks - 1 + _ = _
    omega
  · rw [hnone]
    show d.progress.outstandingBytes - job.bytes + _ = _
    omega

/-- An endpoint of a task is accepted or dropped. -/
theorem deliver_progress (d : Dispatch) (endpoint : Nat) (env : TaskEnv) :
    ∃ accepted dropped counts, (d.deliver endpoint env).progress = { d.progress with
        acceptedEndpoints := accepted, droppedEndpoints := dropped, reasonCounts := counts } ∧
      accepted + dropped = d.progress.acceptedEndpoints + d.progress.droppedEndpoints + 1 := by
  unfold Dispatch.deliver
  generalize (if env.isOpen = false then BroadcastReason.endpointClosed else _) = reason
  by_cases hreason : reason = .none
  · exact ⟨_, _, _, if_pos hreason, by omega⟩
  · exact ⟨_, _, _, if_neg hreason, by omega⟩

theorem deliver_sends (d : Dispatch) (endpoint e : Nat) (env : TaskEnv) :
    (d.deliver endpoint env).sends.count e ≤
      d.sends.count e + if endpoint == e then 1 else 0 := by
  show (if env.isOpen then endpoint :: d.sends else d.sends).count e ≤ _
  split
  · rw [List.count_cons]
  · exact Nat.le_add_right _ _

/-- One endpoint of a running task. -/
theorem Moved.deliver {endpoint : Nat} {rest : List Nat} (env : TaskEnv) (hi : job.dispatch = i)
    (hs : job.stage = .running) (hendpoints : job.endpoints = endpoint :: rest) :
    Moved i d (d.deliver endpoint env) job { job with endpoints := rest } := by
  have hposted : job.dispatch = i ∧ job.stage.posted = true := ⟨hi, by rw [hs]; rfl⟩
  have hleft : job.left i = endpoint :: rest := (if_pos hposted).trans hendpoints
  have hleft' : Job.left i { job with endpoints := rest } = rest := if_pos hposted
  have hpc : (d.deliver endpoint env).pc = d.pc := rfl
  obtain ⟨accepted, dropped, counts, hprogress, hone⟩ := deliver_progress d endpoint env
  refine ⟨rfl, rfl, id, ?_, fun e => ?_, ?_, ?_, ?_, ?_⟩
  · rw [Job.owed, Job.owed, hleft, hleft', hprogress, hpc, List.length_cons]
    show accepted + dropped + _ + _ = _
    omega
  · have hsent := deliver_sends d endpoint e env
    rw [Job.owed, Job.owed, hleft, hleft', hpc, List.count_cons]
    omega
  · rw [hprogress]
    rfl
  · rw [hprogress]
    rfl
  · rw [hprogress]
    exact id
  · rw [hprogress]
    exact id

/-! ## The steps of a chunk -/

/-- The dispatch makes the next operation of the chunk. -/
def Stage.dispatching : Stage → Bool
  | .queued | .running | .releasing _ none | .finished | .abandoned => false
  | _ => true

/-- The dispatch that is at a chunk stays there with it, or leaves it. -/
def Stays (d d' : Dispatch) (job job' : Job) : Prop :=
  ∀ j chunk todo, d'.pc = .busy j chunk todo →
    d'.pc = d.pc ∧ job'.stage.dispatching = true ∧ job'.endpoints = job.endpoints

variable {g g' : Shared}

/-- The progress counts the task of the chunk if it says so. -/
def Progressed (i : Nat) (d : Dispatch) (job : Job) : Prop :=
  job.owed i .tasks ≤ d.progress.outstandingTasks ∧ job.owed i .bytes ≤ d.progress.outstandingBytes

theorem release_moved {op : Release} {postFailure : Option BroadcastReason} (honce : job.Once)
    (hi : job.dispatch = i) (hprogressed : Progressed i d job)
    (hs : job.stage = .releasing op postFailure) :
    Moved i d (release g job d op postFailure).2.2 job (release g job d op postFailure).2.1 := by
  cases op with
  | flag =>
    have hfresh : job.released = false := by rw [honce.1, hs]; rfl
    simp only [release, hfresh, Bool.false_eq_true, if_false]
    exact .level (.stage hs (by rfl) (by rfl))
  | progress =>
    have hposted : job.stage.posted = false := by rw [hs]; rfl
    have hcounted : job.stage.counted = true := by rw [hs]; rfl
    cases postFailure
    all_goals exact .leave hi hcounted hposted rfl rfl hprogressed.1 hprogressed.2
  | _ => exact .level (.stage hs (by rfl) (by rfl))

theorem release_stays (g : Shared) (job : Job) (d : Dispatch) (op : Release) (reason : BroadcastReason) :
    Stays d (release g job d op (some reason)).2.2 job (release g job d op (some reason)).2.1 := by
  cases op with
  | flag =>
    simp only [release]
    split <;> exact fun _ _ _ _ => ⟨rfl, rfl, rfl⟩
  | _ => exact fun _ _ _ _ => ⟨rfl, rfl, rfl⟩

variable {l : DispatchLimits}

theorem reserve_level {priority : BroadcastPriority} {stage : Stage}
    (h : g.reserve l priority job.owner job.bytes job.stage = some (g', stage)) :
    Level i job { job with stage := stage } ∧ stage.dispatching = true := by
  suffices hsuff : stage.posted = job.stage.posted ∧ stage.counted = job.stage.counted ∧
      stage.dispatching = true from ⟨.stage rfl hsuff.1 hsuff.2.1, hsuff.2.2⟩
  cases hs : job.stage <;> rw [hs] at h <;> simp only [Shared.reserve] at h
  case check | recheck =>
    cases h
    split <;> exact ⟨rfl, rfl, rfl⟩
  case ownerTask | ownerBytes | globalBytes =>
    split at h <;> cases h <;> exact ⟨rfl, rfl, rfl⟩
  all_goals first | (cases h; exact ⟨rfl, rfl, rfl⟩) | cases h

/-- The chunk is posted: its endpoints wait for the task. -/
theorem Moved.post (hi : job.dispatch = i)
    (hpc : d.pc = .busy j job.endpoints todo) (hsealed : d.progress.isSealed = false)
    (hs : job.stage = .post) :
    Moved i d { d with pc := .admitted job.endpoints.length todo } job
      { job with stage := .queued } := by
  have hleft : job.left i = [] := Job.not_posted (by rw [hs]; rfl)
  have hleft' : Job.left i { job with stage := .queued } = job.endpoints := if_pos ⟨hi, rfl⟩
  have hlength : d.pc.endpoints.length = job.endpoints.length + todo.endpoints.length := by
    rw [hpc, Pc.endpoints, List.length_append, List.length_map]
  have hcount (e : Nat) : d.pc.endpoints.count (some e) =
      job.endpoints.count e + todo.endpoints.count (some e) := by
    rw [hpc, Pc.endpoints, List.count_append,
      List.count_map_of_injective _ _ (Option.some_injective _)]
  have hnone : d.pc.posted = 0 := by rw [hpc]; rfl
  refine ⟨rfl, ?_, id, ?_, fun e => ?_, ?_, ?_, fun _ hs => ?_, id⟩
  · rw [hlength, hnone]
    show d.summary.scheduledEndpoints + d.summary.droppedEndpoints + job.endpoints.length +
      todo.endpoints.length = _
    omega
  · rw [Job.owed, Job.owed, hleft, hleft', hlength]
    show d.progress.acceptedEndpoints + d.progress.droppedEndpoints + _ + todo.endpoints.length = _
    simp only [List.length_nil]
    omega
  · rw [Job.owed, Job.owed, hleft, hleft', hcount e]
    show d.sends.count e + _ + todo.endpoints.count (some e) ≤ _
    simp only [List.count_nil]
    omega
  · rw [Job.owed, Job.owed, hs]
    rfl
  · rw [Job.owed, Job.owed, hs]
    rfl
  · exact absurd hs (hsealed ▸ Bool.false_ne_true)

/-- The progress begins to count the task. -/
theorem Moved.count (hi : job.dispatch = i) (hsealed : d.progress.isSealed = false)
    (hs : job.stage = .count) :
    Moved i d { d with progress := { d.progress with
        outstandingTasks := d.progress.outstandingTasks + 1
        outstandingBytes := d.progress.outstandingBytes + job.bytes } } job
      { job with stage := .post } := by
  have hnone : ∀ k, job.owed i k = 0 := Job.owed_eq_zero (by simp [hs, Stage.posted])
    (by simp [hs, Stage.counted])
  have htask : Job.owed i { job with stage := .post } .tasks = 1 := if_pos ⟨hi, rfl⟩
  have hbytes : Job.owed i { job with stage := .post } .bytes = job.bytes := if_pos ⟨hi, rfl⟩
  have hleft : Job.left i { job with stage := .post } = [] := Job.not_posted rfl
  refine ⟨rfl, rfl, id, ?_, fun e => ?_, ?_, ?_, id, fun hbefore => ?_⟩
  · rw [hnone, Job.owed, hleft]
    rfl
  · rw [hnone, Job.owed, hleft]
    rfl
  · rw [hnone, htask]
  · rw [hnone, hbytes]
    rfl
  · rw [hsealed] at hbefore
    show d.progress.complete = (d.progress.isSealed && _)
    rw [hbefore, hsealed]
    rfl

/-- The chunk is dropped as a whole. -/
theorem Moved.refuse {stage stage' : Stage} (reason : BroadcastReason)
    (hpc : d.pc = .busy j job.endpoints todo) (hsealed : d.progress.isSealed = false)
    (hs : job.stage = stage) (hposted : stage'.posted = stage.posted)
    (hcounted : stage'.counted = stage.counted) :
    Moved i d { d.drop reason job.endpoints.length with pc := .chunks todo } job
      { job with stage := stage' } := by
  refine .dropped (.drop d reason _) hsealed ?_ ?_ (fun e => ?_) (.stage hs hposted hcounted)
  · rw [hpc]
    rfl
  · rw [hpc, Pc.endpoints, Pc.endpoints, List.length_append, List.length_map]
  · rw [hpc, Pc.endpoints, Pc.endpoints, List.count_append]
    exact Nat.le_add_left _ _

variable {env : DispatchEnv}

theorem attempt_moved
    (honce : job.Once) (hi : job.dispatch = i) (hprogressed : Progressed i d job)
    (hpc : d.pc = .busy j job.endpoints todo) (hsealed : d.progress.isSealed = false)
    (h : attempt l g job d job.endpoints todo env = some (g', job', d')) :
    Moved i d d' job job' ∧ Stays d d' job job' := by
  unfold attempt at h
  split at h
  case h_1 hs =>
    cases h
    exact ⟨.count hi hsealed hs, fun _ _ _ _ => ⟨rfl, rfl, rfl⟩⟩
  case h_2 hs =>
    split at h
    · cases h
      exact ⟨.post hi hpc hsealed hs, nofun⟩
    · cases h
      exact ⟨.level (.stage hs (by rfl) (by rfl)), fun _ _ _ _ => ⟨rfl, rfl, rfl⟩⟩
  case h_3 reason hs =>
    cases h
    exact ⟨.refuse reason hpc hsealed hs (by rfl) (by rfl), nofun⟩
  case h_4 reason hs =>
    cases h
    exact ⟨.refuse reason hpc hsealed hs (by rfl) (by rfl), nofun⟩
  case h_5 op reason hs =>
    have hmoved := release_moved (g := g) honce hi hprogressed hs
    have hstays := release_stays g job d op reason
    rw [Option.some.inj h] at hmoved hstays
    exact ⟨hmoved, hstays⟩
  case h_11 =>
    obtain ⟨⟨g₁, stage⟩, hreserve, heq⟩ := Option.map_eq_some_iff.mp h
    cases heq
    obtain ⟨hlevel, hdispatching⟩ := reserve_level hreserve
    exact ⟨.level hlevel, fun _ _ _ _ => ⟨rfl, hdispatching, rfl⟩⟩
  all_goals cases h

theorem runTask_moved {env : TaskEnv} (honce : job.Once) (hi : job.dispatch = i)
    (hprogressed : Progressed i d job) (h : runTask g job d env = some (g', job', d')) :
    Moved i d d' job job' := by
  unfold runTask at h
  split at h
  case h_1 hs =>
    cases h
    exact .level (.stage hs (by rfl) (by rfl))
  case h_2 hs =>
    split at h
    case h_1 hnil =>
      cases h
      refine .level fun k => ?_
      cases k <;> simp [Job.owed, Job.left, Stage.posted, Stage.counted, hnil, hs]
    case h_2 endpoint rest hcons =>
      cases h
      exact .deliver env hi hs hcons
  case h_3 op hs =>
    have hmoved := release_moved (g := g) honce hi hprogressed hs
    rw [Option.some.inj h] at hmoved
    exact hmoved
  case h_4 => cases h

theorem runTask_stage {env : TaskEnv} (h : runTask g job d env = some (g', job', d')) :
    job.stage.dispatching = false ∧ job.stage.counted = true ∧ d'.pc = d.pc := by
  unfold runTask at h
  split at h
  case h_1 hs =>
    rw [hs]
    cases h
    exact ⟨rfl, rfl, rfl⟩
  case h_2 hs =>
    rw [hs]
    split at h <;> cases h <;> exact ⟨rfl, rfl, rfl⟩
  case h_3 op hs =>
    rw [hs]
    refine ⟨rfl, rfl, ?_⟩
    cases op with
    | flag =>
      simp only [release] at h
      split at h <;> cases h <;> rfl
    | _ =>
      cases h
      rfl
  case h_4 => cases h

/-! ## The invariant -/

/-- The chunk that a dispatch is at. -/
def Linked (jobs : List Job) (i : Nat) (d : Dispatch) : Prop :=
  ∀ j chunk todo, d.pc = .busy j chunk todo →
    ∃ job, jobs[j]? = some job ∧ job.dispatch = i ∧ job.endpoints = chunk ∧
      job.stage.dispatching = true

/-- Every dispatch is at its own chunk, and its books are right. -/
structure Inv (s : State) : Prop where
  owned : ∀ job ∈ s.jobs, job.dispatch < s.dispatches.length
  linked : ∀ i d, s.dispatches[i]? = some d → Linked s.jobs i d
  accounted : ∀ i d, s.dispatches[i]? = some d → Accounted s.jobs i d

variable {s s' : State}

/-- The chunk of a dispatch makes a step; the other dispatches do not see it. -/
theorem Inv.advance (h : Inv s) (hj : s.jobs[j]? = some job)
    (hd : s.dispatches[job.dispatch]? = some d) (hsame : job'.dispatch = job.dispatch)
    (hlinked : Linked (s.jobs.set j job') job.dispatch d')
    (hmoved : Accounted s.jobs job.dispatch d → Moved job.dispatch d d' job job') :
    Inv ⟨g', s.jobs.set j job', s.dispatches.set job.dispatch d'⟩ where
  owned x hx := by
    rw [List.length_set]
    rcases List.mem_or_eq_of_mem_set hx with hx | rfl
    · exact h.owned x hx
    · rw [hsame]
      exact h.owned job (List.mem_of_getElem? hj)
  linked i d₁ hd₁ := by
    rcases getElem?_set_cases hd₁ with ⟨rfl, rfl⟩ | ⟨hi, hd₁⟩
    · exact hlinked
    · intro k chunk todo hpc
      obtain ⟨x, hx, hdispatch, hrest⟩ := h.linked i d₁ hd₁ k chunk todo hpc
      refine ⟨x, ?_, hdispatch, hrest⟩
      -- The chunk of the other dispatch is another chunk.
      rw [List.getElem?_set_ne, hx]
      rintro rfl
      rw [hj] at hx
      cases hx
      exact hi hdispatch
  accounted i d₁ hd₁ := by
    rcases getElem?_set_cases hd₁ with ⟨rfl, rfl⟩ | ⟨hi, hd₁⟩
    · have hbefore := h.accounted _ d hd
      exact hbefore.moved hj (hmoved hbefore)
    · exact (h.accounted i d₁ hd₁).frame hj hi hsame

/-- A dispatch makes a step without a chunk. -/
theorem Inv.put (h : Inv s) (hd : s.dispatches[i]? = some d)
    (hlinked : ∀ j chunk todo, d'.pc ≠ .busy j chunk todo)
    (hmoved : Accounted s.jobs i d → Moved i d d' job job) : Inv (s.put i d') where
  owned x hx := by
    show _ < (s.dispatches.set i d').length
    rw [List.length_set]
    exact h.owned x hx
  linked k d₁ hd₁ := by
    rcases getElem?_set_cases hd₁ with ⟨rfl, rfl⟩ | ⟨-, hd₁⟩
    · exact fun j chunk todo hpc => absurd hpc (hlinked j chunk todo)
    · exact h.linked k d₁ hd₁
  accounted k d₁ hd₁ := by
    rcases getElem?_set_cases hd₁ with ⟨rfl, rfl⟩ | ⟨-, hd₁⟩
    · have hbefore := h.accounted i d hd
      exact hbefore.alone (hmoved hbefore)
    · exact h.accounted k d₁ hd₁

theorem Accounted.unsealed (h : Accounted jobs i d) (hpc : d.pc ≠ .returned) :
    d.progress.isSealed = false :=
  Bool.eq_false_of_not_eq_true fun hs => hpc (h.returned hs)

theorem Accounted.progressed (h : Accounted jobs i d) (hj : jobs[j]? = some job) :
    Progressed i d job :=
  have hle (k : Owed) := le_weight_get (fun job => job.owed i k) hj
  ⟨h.tasks_eq ▸ hle .tasks, h.bytes_eq ▸ hle .bytes⟩

/-- A dispatch begins with the whole plan before it. -/
theorem Account.start (l : DispatchLimits) (plan : BroadcastPlan) :
    Account (Dispatch.start l plan) fun _ => 0 := by
  unfold Dispatch.start
  split
  case h_1 hnone =>
    have htotal : plan.total = 1 := if_pos hnone
    have hone : (Counts.add (fun _ => 0) .invalidPlan 1).total = 1 := by
      rw [Counts.total_add, Counts.total_zero]
    exact ⟨htotal.symm, hone, htotal.symm, fun e => Nat.zero_le _, rfl, rfl, fun _ => rfl, rfl⟩
  case h_2 size hsize =>
  have htotal : plan.total = plan.endpoints.length + plan.dropped := by
    rw [BroadcastPlan.total, if_neg (by rw [hsize]; exact nofun)]
  dsimp only
  generalize hd : Dispatch.mk plan (.batches plan.batches) _ _ _ = d
  have hopen : Account d fun _ => 0 := by
    subst hd
    refine ⟨?_, plan.counted, ?_, fun e => ?_, rfl, rfl, nofun, rfl⟩
    · show 0 + plan.dropped + 0 + plan.endpoints.length = plan.total
      omega
    · show 0 + plan.dropped + 0 + plan.endpoints.length = plan.total
      omega
    · show 0 + 0 + plan.endpoints.count (some e) ≤ plan.endpoints.count (some e)
      omega
  split
  · -- The payload is too large for a task: the batches are dropped before the end.
    let job : Job := { dispatch := 0, owner := 0, bytes := 0, endpoints := [] }
    have hdrop : Moved 0 d { d.drop .dispatchTaskByteLimit plan.endpoints.length with
        pc := .batches [] } job job := by
      subst hd
      exact .dropped (.drop ..) rfl rfl rfl (fun e => Nat.zero_le _) (.refl 0 job)
    have hdropped := hopen.moved hdrop fun _ => rfl
    exact hdropped.moved (show Moved 0 _ _ job job from .finish rfl) fun _ => rfl
  · exact hopen

theorem Accounted.start (l : DispatchLimits) (plan : BroadcastPlan)
    (hnone : ∀ job ∈ jobs, job.dispatch ≠ i) : Accounted jobs i (Dispatch.start l plan) := by
  have hzero : (fun k => weight (fun job => job.owed i k) jobs) = fun _ => 0 :=
    funext fun k => Stacks.weight_eq_zero fun job hjob => Job.owed_other (hnone job hjob) k
  rw [Accounted, hzero]
  exact .start l plan

theorem start_not_busy (l : DispatchLimits) (plan : BroadcastPlan) (j : Nat) (chunk : List Nat)
    (todo : Todo) : (Dispatch.start l plan).pc ≠ .busy j chunk todo := by
  unfold Dispatch.start
  split
  · exact nofun
  · dsimp only
    split <;> exact nofun

theorem getElem?_snoc {α : Type} {l : List α} {a b : α} {i : Nat} (h : (l ++ [a])[i]? = some b) :
    l[i]? = some b ∨ i = l.length ∧ b = a := by
  rcases Nat.lt_or_ge i l.length with hi | hi
  · rw [List.getElem?_append_left hi] at h
    exact .inl h
  · rw [List.getElem?_append_right hi, List.getElem?_singleton] at h
    split at h
    · cases h
      exact .inr ⟨by omega, rfl⟩
    · cases h

theorem Inv.dispatch (h : Inv s) (l : DispatchLimits) (plan : BroadcastPlan) :
    Inv { s with dispatches := s.dispatches ++ [Dispatch.start l plan] } where
  owned x hx := by
    show _ < (s.dispatches ++ [_]).length
    rw [List.length_append]
    exact Nat.lt_add_right _ (h.owned x hx)
  linked i d hd := by
    rcases getElem?_snoc hd with hd | ⟨-, rfl⟩
    · exact h.linked i d hd
    · exact fun j chunk todo hpc => absurd hpc (start_not_busy l plan j chunk todo)
  accounted i d hd := by
    rcases getElem?_snoc hd with hd | ⟨rfl, rfl⟩
    · exact h.accounted i d hd
    · exact .start l plan fun job hjob => Nat.ne_of_lt (h.owned job hjob)

/-- A dispatch begins a chunk. -/
theorem Inv.begin (h : Inv s) (hd : s.dispatches[i]? = some d) (hdispatch : job.dispatch = i)
    (hstage : job.stage = .check) {todo todo' : Todo} (hpc : d.pc = .chunks todo)
    (hchunk : todo.endpoints = job.endpoints.map some ++ todo'.endpoints) :
    Inv ({ s with jobs := s.jobs ++ [job] }.put i
      { d with pc := .busy s.jobs.length job.endpoints todo' }) where
  owned x hx := by
    show _ < (s.dispatches.set i _).length
    rw [List.length_set]
    rcases List.mem_append.mp hx with hx | hx
    · exact h.owned x hx
    · rw [List.mem_singleton.mp hx, hdispatch]
      exact (List.getElem?_eq_some_iff.mp hd).1
  linked k d₁ hd₁ := by
    intro j chunk todo hpc₁
    show ∃ x, (s.jobs ++ [job])[j]? = some x ∧ _
    rcases getElem?_set_cases hd₁ with ⟨rfl, rfl⟩ | ⟨-, hd₁⟩
    · cases hpc₁
      exact ⟨job, List.getElem?_concat_length, hdispatch, rfl, by rw [hstage]; rfl⟩
    · obtain ⟨x, hx, hrest⟩ := h.linked k d₁ hd₁ j chunk todo hpc₁
      exact ⟨x, getElem?_append_of hx _, hrest⟩
  accounted k d₁ hd₁ := by
    have hposted : job.stage.posted = false := by rw [hstage]; rfl
    have hcounted : job.stage.counted = false := by rw [hstage]; rfl
    refine Accounted.append ?_ hposted hcounted
    rcases getElem?_set_cases hd₁ with ⟨rfl, rfl⟩ | ⟨-, hd₁⟩
    · have hbefore := h.accounted i d hd
      have hsealed := hbefore.unsealed (by rw [hpc]; exact nofun)
      refine hbefore.alone (show Moved i d _ job job from .pass hsealed ?_ ?_)
      · rw [hpc]
        rfl
      · rw [hpc, Pc.endpoints, Pc.endpoints, hchunk]
    · exact h.accounted k d₁ hd₁

theorem newJob_split (l : DispatchLimits) (d : Dispatch) (todo : Todo) :
    todo.endpoints = (newJob l i d todo).endpoints.map some ++
      Todo.endpoints { todo with valid := todo.valid.drop (newJob l i d todo).endpoints.length } := by
  show todo.valid.map some ++ _ =
    (todo.valid.take _).map some ++ ((todo.valid.drop (todo.valid.take _).length).map some ++ _)
  rw [← List.append_assoc, ← List.map_append, List.length_take]
  congr 2
  rcases Nat.le_total (chunkSize l (d.plan.payload.getD 0)) todo.valid.length with hle | hle
  · rw [Nat.min_eq_left hle, List.take_append_drop]
  · rw [Nat.min_eq_right hle, List.take_of_length_le hle, List.drop_length, List.append_nil]

theorem Inv.task (h : Inv s) (hb : Books l s) {env : TaskEnv}
    (hj : s.jobs[j]? = some job) (hd : s.dispatches[job.dispatch]? = some d)
    (hrun : runTask s.shared job d env = some (g', job', d')) :
    Inv ⟨g', s.jobs.set j job', s.dispatches.set job.dispatch d'⟩ := by
  have honce := hb.once job (List.mem_of_getElem? hj)
  have hstep := runTask_step (l := l) (hb.ledger.covers hj) honce hrun
  obtain ⟨hdispatching, -, hpc⟩ := runTask_stage hrun
  refine h.advance hj hd hstep.dispatch ?_ fun hbefore =>
    runTask_moved honce rfl (hbefore.progressed hj) hrun
  intro k chunk todo hbusy
  rw [hpc] at hbusy
  obtain ⟨x, hx, hdispatch, hchunk, hx'⟩ := h.linked _ d hd k chunk todo hbusy
  refine ⟨x, ?_, hdispatch, hchunk, hx'⟩
  -- The dispatch is at a chunk that is not posted.
  rw [List.getElem?_set_ne, hx]
  rintro rfl
  rw [hj] at hx
  cases hx
  rw [hdispatching] at hx'
  cases hx'

theorem Inv.attempt (h : Inv s) (hb : Books l s) {chunk : List Nat}
    (hj : s.jobs[j]? = some job)
    (hd : s.dispatches[i]? = some d) (hpc : d.pc = .busy j chunk todo)
    (hattempt : Broadcast.attempt l s.shared job d chunk todo env = some (g', job', d')) :
    Inv ⟨g', s.jobs.set j job', s.dispatches.set i d'⟩ := by
  have honce := hb.once job (List.mem_of_getElem? hj)
  have hstep := attempt_step (hb.ledger.covers hj) honce hattempt
  obtain ⟨x, hx, rfl, rfl, -⟩ := h.linked i d hd j chunk todo hpc
  rw [hj] at hx
  cases hx
  have hbefore := h.accounted _ d hd
  obtain ⟨hmoved, hstays⟩ := attempt_moved honce rfl (hbefore.progressed hj) hpc
    (hbefore.unsealed (by rw [hpc]; exact nofun)) hattempt
  refine h.advance hj hd hstep.dispatch ?_ fun _ => hmoved
  intro k chunk todo hbusy
  obtain ⟨hsame, hdispatching, hendpoints⟩ := hstays k chunk todo hbusy
  rw [hsame, hpc] at hbusy
  cases hbusy
  exact ⟨job', List.getElem?_set_self (List.getElem?_eq_some_iff.mp hj).1, hstep.dispatch, hendpoints,
    hdispatching⟩

theorem Inv.step {lab : Label} (h : Inv s) (hb : Books l s)
    (hs : step l s lab = some s') : Inv s' := by
  cases lab with
  | dispatch plan =>
    cases hs
    exact h.dispatch l plan
  | shutdown =>
    cases hs
    exact ⟨h.owned, h.linked, h.accounted⟩
  | task j env =>
    obtain ⟨job, hj, hs⟩ := Option.bind_eq_some_iff.mp hs
    obtain ⟨d, hd, hs⟩ := Option.bind_eq_some_iff.mp hs
    obtain ⟨⟨g, job', d'⟩, hrun, heq⟩ := Option.map_eq_some_iff.mp hs
    cases heq
    exact h.task hb hj hd hrun
  | step i env =>
    obtain ⟨d, hd, hs⟩ := Option.bind_eq_some_iff.mp hs
    let idle : Job := { dispatch := i, owner := 0, bytes := 0, endpoints := [] }
    split at hs
    case h_1 hpc =>
      cases hs
      exact h.put hd nofun fun _ => show Moved i d _ idle idle from .finish hpc
    case h_2 batch rest hpc =>
      obtain ⟨n, hdropped, hlength, hcount⟩ := validate_dropped env batch batch.endpoints d
      cases hs
      refine h.put hd nofun fun hbefore =>
        show Moved i d _ idle idle from .dropped hdropped
          (hbefore.unsealed (by rw [hpc]; exact nofun)) ?_ ?_ (fun e => ?_) (.refl i idle)
      · rw [hpc]
        rfl
      · rw [hpc]
        simp only [Pc.endpoints, Todo.endpoints, List.flatMap_cons, List.length_append,
          List.length_map]
        omega
      · have hle := hcount e
        rw [hpc]
        simp only [Pc.endpoints, Todo.endpoints, List.flatMap_cons, List.count_append,
          List.count_map_of_injective _ _ (Option.some_injective _)]
        omega
    case h_3 todo hpc =>
      split at hs
      case isTrue hnil =>
        cases hs
        refine h.put hd nofun fun hbefore => show Moved i d _ idle idle from
          .pass (hbefore.unsealed (by rw [hpc]; exact nofun)) ?_ ?_
        · rw [hpc]
          rfl
        · rw [hpc, Pc.endpoints, Pc.endpoints, Todo.endpoints, hnil]
          rfl
      case isFalse =>
        cases hs
        exact h.begin hd rfl rfl hpc (newJob_split l d todo)
    case h_4 j chunk todo hpc =>
      obtain ⟨job, hj, hs⟩ := Option.bind_eq_some_iff.mp hs
      obtain ⟨⟨g, job', d'⟩, hattempt, heq⟩ := Option.map_eq_some_iff.mp hs
      cases heq
      exact h.attempt hb hj hd hpc hattempt
    case h_5 n todo hpc =>
      cases hs
      exact h.put hd nofun fun hbefore => show Moved i d _ idle idle from
        .schedule hpc (hbefore.unsealed (by rw [hpc]; exact nofun))
    case h_6 => cases hs

theorem reach_inv {C : State → Label → Prop}
    (h : Reach (· = {}) (Broadcast.step l) C s) : Inv s :=
  Reach.invariant_with (fun h => reach_books h)
    (by rintro s rfl; exact ⟨nofun, nofun, nofun⟩) (fun _ _ _ hb hi _ hs => hi.step hb hs) h

/-! ## Completion -/

/-- A complete progress stays as it is: none of its tasks is left to change it. -/
theorem Inv.complete_step {lab : Label} (h : Inv s)
    (hd : s.dispatches[i]? = some d)
    (hcomplete : d.progress.complete = true) (hs : Broadcast.step l s lab = some s') :
    s'.dispatches[i]? = some d := by
  have hbefore := h.accounted i d hd
  have hboth := hbefore.complete
  rw [hcomplete, eq_comm, Bool.and_eq_true, decide_eq_true_iff] at hboth
  cases lab with
  | dispatch plan =>
    cases hs
    show (s.dispatches ++ [_])[i]? = some d
    exact getElem?_append_of hd _
  | shutdown =>
    cases hs
    exact hd
  | task j env =>
    obtain ⟨job, hj, hs⟩ := Option.bind_eq_some_iff.mp hs
    obtain ⟨d₁, -, hs⟩ := Option.bind_eq_some_iff.mp hs
    obtain ⟨⟨g, job', d'⟩, hrun, heq⟩ := Option.map_eq_some_iff.mp hs
    cases heq
    show (s.dispatches.set job.dispatch d')[i]? = some d
    rw [List.getElem?_set_ne, hd]
    intro hi
    obtain ⟨-, hcounted, -⟩ := runTask_stage hrun
    have hone : job.owed i .tasks = 1 := if_pos ⟨hi, hcounted⟩
    have hle := (hbefore.progressed hj).1
    omega
  | step k env =>
    obtain ⟨d₁, hd₁, hs⟩ := Option.bind_eq_some_iff.mp hs
    have hne : k ≠ i := by
      rintro rfl
      rw [hd] at hd₁
      cases hd₁
      rw [hbefore.returned hboth.1] at hs
      cases hs
    have hset (d' : Dispatch) : (s.dispatches.set k d')[i]? = some d := by
      rw [List.getElem?_set_ne hne, hd]
    split at hs
    case h_3 =>
      split at hs
      · cases hs
        exact hset _
      · cases hs
        exact hset _
    case h_4 =>
      obtain ⟨job, hj, hs⟩ := Option.bind_eq_some_iff.mp hs
      obtain ⟨⟨g, job', d'⟩, -, heq⟩ := Option.map_eq_some_iff.mp hs
      cases heq
      exact hset _
    case h_6 => cases hs
    all_goals
      cases hs
      exact hset _

/-- Whatever posts, endpoints and other dispatches do, the counters stay within their limits and
    every reservation is released once. The summary of a dispatch counts every endpoint of its plan
    once, only endpoints of the plan are sent the payload and each at most once, and a complete
    progress counts every endpoint once and stays as it is. A plan without a payload counts as one
    dropped endpoint. -/
theorem dispatch_loses_no_endpoint
    (h : Reach (· = {}) (Broadcast.step l) Any s) :
    (s.shared.fatal = false ∧ Within l s.shared) ∧
    (∀ job ∈ s.jobs, job.releases ≤ 1 ∧ (job.stage = .finished → job.releases = 1)) ∧
    ∀ (i : Nat) (d : Dispatch), s.dispatches[i]? = some d →
      (d.pc = .returned →
        d.summary.scheduledEndpoints + d.summary.droppedEndpoints =
            (if d.plan.payload = none then 1 else d.plan.endpoints.length + d.plan.dropped) ∧
          d.summary.reasonCounts.total = d.summary.droppedEndpoints) ∧
      (d.sends.Nodup ∧ ∀ e ∈ d.sends, some e ∈ d.plan.endpoints) ∧
      (d.progress.complete = true →
        d.progress.acceptedEndpoints + d.progress.droppedEndpoints =
            (if d.plan.payload = none then 1 else d.plan.endpoints.length + d.plan.dropped) ∧
          d.progress.outstandingTasks = 0 ∧ d.progress.outstandingBytes = 0 ∧
          ∀ s', Reach (· = s) (Broadcast.step l) Any s' →
            s'.dispatches[i]? = some d) := by
  have hb := reach_books h
  have hinv := reach_inv h
  refine ⟨⟨hb.ledger.fatal, hb.within⟩, fun job hjob => ?_, fun i d hd => ?_⟩
  · obtain ⟨-, hreleases⟩ := hb.once job hjob
    rw [hreleases]
    refine ⟨by split <;> omega, fun hs => ?_⟩
    rw [hs]
    rfl
  have haccount := hinv.accounted i d hd
  have hsends (e : Nat) : d.sends.count e ≤ d.plan.endpoints.count (some e) :=
    Nat.le_trans (Nat.le_add_right_of_le (Nat.le_add_right _ _)) (haccount.sends e)
  refine ⟨fun hreturned => ⟨?_, haccount.reasons⟩, ⟨?_, fun e he => ?_⟩, fun hcomplete => ?_⟩
  · have hsum := haccount.summary
    rw [hreturned] at hsum
    exact hsum
  · exact List.nodup_iff_count_le_one.mpr fun e => (hsends e).trans (d.plan.distinct e)
  · exact List.count_pos_iff.mp ((List.count_pos_iff.mpr he).trans_le (hsends e))
  have hboth := haccount.complete
  rw [hcomplete, eq_comm, Bool.and_eq_true, decide_eq_true_iff] at hboth
  -- No task is counted, so none has an endpoint left.
  have hnone (job : Job) (hjob : job ∈ s.jobs) : ¬(job.dispatch = i ∧ job.stage.counted = true) := by
    intro hc
    have hone : job.owed i .tasks = 1 := if_pos hc
    have hle := Stacks.le_weight (fun job => job.owed i .tasks) hjob
    have hzero := haccount.tasks_eq
    omega
  have hleft (k : Owed) : weight (fun job => job.owed i k) s.jobs = 0 := by
    refine Stacks.weight_eq_zero fun job hjob => Job.owed_eq_zero ?_ (hnone job hjob) k
    rintro ⟨hi, hposted⟩
    refine hnone job hjob ⟨hi, ?_⟩
    cases hs : job.stage <;> rw [hs] at hposted <;> first | rfl | cases hposted
  refine ⟨?_, hboth.2, ?_, fun s' h' => ?_⟩
  · have hsum := haccount.progress
    rw [haccount.returned hboth.1, hleft] at hsum
    exact hsum
  · exact haccount.bytes_eq.trans (hleft .bytes)
  · have hlater : (Books l s' ∧ Inv s') ∧ s'.dispatches[i]? = some d :=
      Reach.invariant (P := fun s => (Books l s ∧ Inv s) ∧ s.dispatches[i]? = some d)
        (by rintro s rfl; exact ⟨⟨hb, hinv⟩, hd⟩)
        (fun _ _ _ hi _ hs => ⟨⟨hi.1.1.change (step_change hs), hi.1.2.step hi.1.1 hs⟩,
          hi.1.2.complete_step hi.2 hcomplete hs⟩) h'
    exact hlater.2

end

/-- The plan is dispatched, and its task runs to the end. -/
theorem dispatch_loses_no_endpoint_single :
    ∃ (s : State) (d : Dispatch), s.dispatches[0]? = some d ∧ d.plan.payload ≠ none ∧
      d.progress.complete = true ∧ d.sends = [5] ∧
      d.progress.acceptedEndpoints + d.progress.droppedEndpoints =
        d.plan.endpoints.length + d.plan.dropped := by
  obtain ⟨s, hreach, hdone⟩ := Reach.of_run (· = {}) (step small) Any
    (fun s : State => (s.dispatches[0]?.any fun d : Dispatch =>
      decide (d.plan.payload ≠ none ∧ d.progress.complete = true ∧ d.sends = [5])) = true) {} rfl
    (upToRecheck ++ List.replicate 6 (.step 0 {}) ++ List.replicate 9 (.task 0 {}))
    (by decide +kernel)
  obtain ⟨d, hd, hdone⟩ := (Option.any_eq_true _ _).mp hdone
  obtain ⟨hpayload, hcomplete, hsent⟩ := of_decide_eq_true hdone
  obtain ⟨-, -, hall⟩ := dispatch_loses_no_endpoint hreach
  refine ⟨s, d, hd, hpayload, hcomplete, hsent, ?_⟩
  rw [((hall 0 d hd).2.2 hcomplete).1, if_neg hpayload]

/-- A plan from which another was moved. -/
def movedFrom : BroadcastPlan := ⟨none, [], 0, .normal, fun _ => 0, Counts.total_zero, fun _ => Nat.zero_le _⟩

/-- A plan without a payload: the dispatch counts one endpoint that neither the batches nor the
    plan have, in the summary and in a complete progress. -/
theorem moved_plan_counts_endpoint :
    ∃ s : State, Reach (· = {}) (step small) Any s ∧
      ∃ d, s.dispatches[0]? = some d ∧ d.pc = .returned ∧ d.progress.complete = true ∧
        d.plan.endpoints.length + d.plan.dropped = 0 ∧
        d.summary.scheduledEndpoints + d.summary.droppedEndpoints = 1 ∧
        d.progress.acceptedEndpoints + d.progress.droppedEndpoints = 1 := by
  refine ⟨_, .next (.start rfl) (l := .dispatch movedFrom) trivial rfl, Dispatch.start small movedFrom,
    rfl, rfl, rfl, rfl, rfl, rfl⟩

end GameNet.Broadcast
