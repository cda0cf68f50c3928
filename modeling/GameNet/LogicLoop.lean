import GameNet.TimerLoop
import GameNet.GameCommandQueue

/- LogicLoop: a fixed-interval tick over a bounded command queue (`LogicLoop.cc`),
   on the timers of its owner loop.

   The owner loop's timers are the machine of `TimerLoop`; the LogicLoop adds its
   command queue, its state and the tick that runs when its timer's callback is
   entered. `submit` is two steps, the binding check and the queue's mutex; a tick
   drains a batch and then hands it out one command at a time, with user code in
   the handler, in the output callback and in the metric callback, each of which
   may call back into the loop, return or throw. The object stays alive, so the
   lifetime checks of `tick` never fire.

   `accepted_accounted` is the balance between ticks: every accepted command was
   handed to the handler, dropped as stale before it, is still queued, or was
   dropped by `stop`; the handler saw its commands in submission order; and while
   the loop is Running its timer is armed. It holds in every run whose ticks throw
   only behind their last command and after `stop`. In `throwing_handler` the
   handler throws on the first of two commands: the second is lost, and the loop
   stays Running without a timer, because `handleExpired` cancels the timer of a
   callback that throws. -/
namespace GameNet.LogicLoop

open GameNet.GameLogic
open Machine (Reach Any)

/-! ## The machine -/

inductive LogicLoopState where
  | created
  | running
  | stopping
  | stopped
  deriving DecidableEq, Repr

/-- `LogicLoopOptions`, with what the constructor checks. -/
structure LogicLoopOptions where
  tickInterval : Int
  maxCommandsPerTick : Nat
  tickInterval_pos : 0 < tickInterval
  maxCommandsPerTick_pos : 0 < maxCommandsPerTick

/-- `LogicTickMetric`, without the queue snapshot, which is the queue itself. -/
structure LogicTickMetric where
  tick : Nat
  drained : Nat
  produced : Nat
  deriving DecidableEq, Repr

/-- Where `tick` is: not running, just entered, at the head of its loop, or in one of the
    three callbacks. `outputSet` is the output callback copied before the handler ran. -/
inductive Tick where
  | idle
  | entered
  | commands (rest : List GameCommand) (drained produced : Nat)
  | inHandler (outputSet : Bool) (rest : List GameCommand) (drained produced : Nat)
  | inOutput (rest : List GameCommand) (drained produced : Nat)
  | inMetric (metric : LogicTickMetric)
  deriving DecidableEq, Repr

structure State where
  timers : TimerLoop.State
  /-- The `currentGeneration` of every binding state. -/
  generations : Nat → Nat
  queue : GameCommandQueue
  state : LogicLoopState
  /-- `timer_`, 0 for the invalid id. -/
  timer : Nat
  handlerSet : Bool
  outputSet : Bool
  metricSet : Bool
  tickCount : Nat
  rejectedStale : Nat
  droppedStale : Nat
  tick : Tick
  /-- The owner thread is inside `stop`, before `closeAndDiscard`. -/
  inStop : Bool
  /-- `submit` calls that have passed the binding check. -/
  submitting : List GameCommand
  /-- The commands accepted, in the order of their acceptance. -/
  entered : List GameCommand
  /-- The commands handed to the handler, in the order of the calls. -/
  handed : List GameCommand
  /-- The commands counted in `droppedStale_` before they reached the handler. -/
  staleFirst : Nat

inductive Label where
  | timers (l : TimerLoop.Label)
  | setGeneration (state generation : Nat)
  | setHandler (nonEmpty : Bool)
  | setOutputCallback (nonEmpty : Bool)
  | setMetricCallback (nonEmpty : Bool)
  | start (now : Int)
  | stopBegin
  | stopEnd
  | submitCheck (command : GameCommand)
  | submitCommit (command : GameCommand) (now : Int)
  | tickBegin
  | takeNext
  | handlerReturn (output : Option GameCommand)
  | outputReturn
  | metricReturn
  | callbackThrow
  deriving DecidableEq, Repr

/-- The queue and the loop as constructed, on an owner loop that runs. -/
def initial (queue : GameCommandQueue) : State where
  timers := TimerLoop.start
  generations := fun _ => 0
  queue := queue
  state := .created
  timer := 0
  handlerSet := false
  outputSet := false
  metricSet := false
  tickCount := 0
  rejectedStale := 0
  droppedStale := 0
  tick := .idle
  inStop := false
  submitting := []
  entered := []
  handed := []
  staleFirst := 0

/-- Whether user code of the owner thread can run here. -/
def State.userCode (s : State) : Bool :=
  s.timers.userCode && !s.inStop && match s.tick with
    | .entered => false
    | .commands _ _ _ => false
    | _ => true

/-- The owner thread is inside the callback that is running, not in the tick. -/
def State.outsideTick (s : State) : Bool := decide (s.tick = .idle) && !s.inStop

/-- The end of the tick's timer callback. -/
def State.leaveTick (cap : Nat) (s : State) (threw : Bool) : Option State :=
  (TimerLoop.step cap s.timers (.callbackEnd threw)).map
    (fun timers => { s with timers := timers, tick := .idle })

/-- Which steps of the owner loop's timers are free to happen: calls of user code, steps
    of the loop outside the tick, and everything other threads do. -/
def State.allows (s : State) : TimerLoop.Label → Bool
  | .ownerAdd _ => s.userCode
  | .ownerCancel _ => s.userCode
  | .remoteAlloc _ => true
  | .remotePost _ => true
  | .remoteCancel _ => true
  | .otherPost => true
  | .quit => true
  | _ => s.outsideTick

/-- `LogicLoop::start` past its state checks: `runEvery` on the owner thread. -/
def startTimer (opts : LogicLoopOptions) (s : State) (now : Int) : State :=
  let id := s.timers.queue.nextSequence
  let (result, timers) := TimerLoop.ownerAddTimer s.timers
    { expiration := now + opts.tickInterval, interval := opts.tickInterval, options := {} }
  if result = .accepted then { s with timers := timers, timer := id, state := .running }
  else { s with timers := timers }

/-- The end of the loop over the batch. -/
def finishBatch (cap : Nat) (s : State) (drained produced : Nat) : Option State :=
  let s := { s with tickCount := s.tickCount + 1 }
  if s.metricSet then some { s with tick := .inMetric ⟨s.tickCount, drained, produced⟩ }
  else s.leaveTick cap false

def step (opts : LogicLoopOptions) (cap : Nat) (s : State) : Label → Option State
  | .timers l =>
    if s.allows l then
      (TimerLoop.step cap s.timers l).map (fun timers =>
        -- the LogicLoop's own timer has just been started: its callback is the tick
        if l = .startNext ∧ timers.running = some s.timer then
          { s with timers := timers, tick := .entered }
        else { s with timers := timers })
    else none
  | .setGeneration state generation =>
    some { s with generations := Function.update s.generations state generation }
  | .setHandler b => if s.userCode then some { s with handlerSet := b } else none
  | .setOutputCallback b => if s.userCode then some { s with outputSet := b } else none
  | .setMetricCallback b => if s.userCode then some { s with metricSet := b } else none
  | .start now =>
    if s.userCode then
      match s.state with
      | .running => some s
      | .created => if s.handlerSet then some (startTimer opts s now) else some s
      | _ => some s
    else none
  | .stopBegin =>
    if s.userCode then
      match s.state with
      | .stopped => some s
      | .stopping => some s
      | .running => some { s with state := .stopping, inStop := true
                                  timers := (TimerLoop.ownerCancelTimer s.timers s.timer).2 }
      | .created => some { s with state := .stopping, inStop := true }
    else none
  | .stopEnd =>
    if s.inStop then
      some { s with queue := s.queue.closeAndDiscard.2, state := .stopped, inStop := false }
    else none
  | .submitCheck command =>
    if command.binding.stale s.generations then
      some { s with rejectedStale := s.rejectedStale + 1 }
    else some { s with submitting := command :: s.submitting }
  | .submitCommit command now =>
    if command ∈ s.submitting then
      let (result, queue) := s.queue.submit now command
      let s := { s with submitting := s.submitting.erase command, queue := queue }
      if result = .accepted then
        some { s with entered := s.entered ++ [GameCommandQueue.stamp now command] }
      else some s
    else none
  | .tickBegin =>
    match s.tick with
    | .entered =>
      if s.state = .running then
        let (commands, queue) := s.queue.drain opts.maxCommandsPerTick
        some { s with queue := queue, tick := .commands commands commands.length 0 }
      else s.leaveTick cap false
    | _ => none
  | .takeNext =>
    match s.tick with
    | .commands [] drained produced => finishBatch cap s drained produced
    | .commands (c :: rest) drained produced =>
      if c.binding.stale s.generations then
        some { s with droppedStale := s.droppedStale + 1, staleFirst := s.staleFirst + 1
                      tick := .commands rest drained produced }
      else if s.handlerSet then
        some { s with handed := s.handed ++ [c]
                      tick := .inHandler s.outputSet rest drained produced }
      -- an empty std::function throws when it is called
      else s.leaveTick cap true
    | _ => none
  | .handlerReturn output =>
    match s.tick with
    | .inHandler outputSet rest drained produced =>
      if s.inStop then none
      else match output with
        | none => some { s with tick := .commands rest drained produced }
        | some out =>
          if outputSet then
            if out.binding.stale s.generations then
              some { s with droppedStale := s.droppedStale + 1
                            tick := .commands rest drained produced }
            else some { s with tick := .inOutput rest drained (produced + 1) }
          else some { s with tick := .commands rest drained produced }
    | _ => none
  | .outputReturn =>
    match s.tick with
    | .inOutput rest drained produced =>
      if s.inStop then none else some { s with tick := .commands rest drained produced }
    | _ => none
  | .metricReturn =>
    match s.tick with
    | .inMetric _ => if s.inStop then none else s.leaveTick cap false
    | _ => none
  | .callbackThrow =>
    if s.inStop then none
    else match s.tick with
      | .inHandler _ _ _ _ => s.leaveTick cap true
      | .inOutput _ _ _ => s.leaveTick cap true
      | .inMetric _ => s.leaveTick cap true
      | _ => none

/-! ## The books balance -/

/-- The commands of the current batch that the tick has not taken up yet. -/
def Tick.rest : Tick → List GameCommand
  | .commands rest _ _ => rest
  | .inHandler _ rest _ _ => rest
  | .inOutput rest _ _ => rest
  | _ => []

/-- The timer is armed: the identity map holds it, nothing has canceled it, and it has its
    key in `timers_` or stands in the batch that `handleExpired` is about to give back. -/
structure Armed (t : TimerLoop.State) (timer : Nat) : Prop where
  byId : timer ∈ t.queue.timersById
  uncanceled : (t.queue.heap timer).canceled = false
  placed : ((t.queue.heap timer).expiration, timer) ∈ t.queue.timers ∨ timer ∈ t.batch

/-- The condition on a step: a callback of a tick throws only behind the last command of the
    batch and when the loop is no longer Running, and no command is taken up without a
    handler. -/
def ThrowsLast (s : State) : Label → Prop
  | .callbackThrow => s.tick.rest = [] ∧ s.state ≠ .running
  | .takeNext => s.handlerSet = true ∨ s.tick.rest = []
  | _ => True

instance (s : State) (l : Label) : Decidable (ThrowsLast s l) := by
  cases l <;> unfold ThrowsLast <;> infer_instance

structure Inv (s : State) : Prop where
  timers : TimerLoop.Inv s.timers
  /-- `gone` lists what the ticks have taken up: the handed commands and the stale ones. -/
  books : ∃ gone, GameCommandQueue.Accounted s.queue s.entered (gone ++ s.tick.rest) ∧
    List.Sublist s.handed gone ∧ gone.length = s.handed.length + s.staleFirst
  armed : s.state = .running → TimerLoop.Held s.timers s.timer
  own : s.timers.running = some s.timer → s.tick ≠ .idle

section
variable {opts : LogicLoopOptions} {cap : Nat} {s s' : State} {l : Label}

theorem leaveTick_eq {threw : Bool} (h : s.leaveTick cap threw = some s') :
    ∃ timers, TimerLoop.step cap s.timers (.callbackEnd threw) = some timers ∧
      timers.running = none ∧ s' = { s with timers := timers, tick := .idle } := by
  obtain ⟨timers, hstep, rfl⟩ := Option.map_eq_some_iff.mp h
  refine ⟨timers, hstep, ?_, rfl⟩
  simp only [TimerLoop.step] at hstep
  split at hstep <;> cases hstep
  rfl

/-- A tick that ends behind its last command: without a throw, or after `stop`. -/
theorem Inv.leaveTick {threw : Bool} (h : Inv s) (hrest : s.tick.rest = [])
    (hthrow : threw = true → s.state ≠ .running) (hs : s.leaveTick cap threw = some s') :
    Inv s' := by
  obtain ⟨timers, hstep, hidle, rfl⟩ := leaveTick_eq hs
  obtain ⟨gone, hacc, hsub, hlen⟩ := h.books
  refine ⟨TimerLoop.step_inv h.timers hstep, ⟨gone, ?_, hsub, hlen⟩, ?_, ?_⟩
  · rwa [hrest] at hacc
  · intro hrun
    refine (h.armed hrun).step h.timers hstep ?_
    intro heq
    cases heq
    exact absurd hrun (hthrow rfl)
  · intro hown
    rw [hidle] at hown
    cases hown

/-- A step that leaves the timers, the batch and the timer's id alone. -/
theorem Inv.frame (h : Inv s) (ht : s'.timers = s.timers) (hq : s'.queue = s.queue)
    (he : s'.entered = s.entered) (hh : s'.handed = s.handed) (hf : s'.staleFirst = s.staleFirst)
    (hid : s'.timer = s.timer) (hst : s'.state = .running → s.state = .running)
    (hrest : s'.tick.rest = s.tick.rest) (hidle : s'.tick = .idle → s.tick = .idle) : Inv s' := by
  refine ⟨ht ▸ h.timers, ?_, ?_, ?_⟩
  · rw [hq, he, hh, hf, hrest]
    exact h.books
  · intro hrun
    rw [ht, hid]
    exact h.armed (hst hrun)
  · rw [ht, hid]
    exact fun hown hi => h.own hown (hidle hi)

theorem Inv.timersStep {tl : TimerLoop.Label} (h : Inv s)
    (hs : step opts cap s (.timers tl) = some s') : Inv s' := by
  simp only [step] at hs
  split at hs
  case isFalse => cases hs
  case isTrue hallow =>
    obtain ⟨timers, hstep, heq⟩ := Option.map_eq_some_iff.mp hs
    have hinv := TimerLoop.step_inv h.timers hstep
    -- a throw out of another timer's callback: the tick's own callback is not running
    have hheld : s.state = .running → TimerLoop.Held timers s.timer := by
      intro hrun
      refine (h.armed hrun).step h.timers hstep ?_
      rintro rfl batch rest ho
      have hout : s.tick = .idle := by
        simp only [State.allows, State.outsideTick, Bool.and_eq_true, decide_eq_true_eq] at hallow
        exact hallow.1
      exact h.own (by simp [TimerLoop.State.running, ho]) hout
    split at heq
    · rename_i hcond
      obtain ⟨rfl, hown⟩ := hcond
      have hout : s.tick = .idle := by
        simp only [State.allows, State.outsideTick, Bool.and_eq_true, decide_eq_true_eq] at hallow
        exact hallow.1
      subst heq
      refine ⟨hinv, ?_, hheld, by simp⟩
      have hbooks := h.books
      rw [hout] at hbooks
      exact hbooks
    · rename_i hcond
      subst heq
      refine ⟨hinv, h.books, hheld, ?_⟩
      intro hown
      refine h.own (TimerLoop.running_of_step hstep ?_ hown)
      rintro rfl
      exact hcond ⟨rfl, hown⟩

/-- `start` leaves the loop Running with a timer of its own, or as it was. -/
theorem Inv.startTimer (h : Inv s) (now : Int) : Inv (startTimer opts s now) := by
  have hinv := h.timers.ownerAddTimer
    { expiration := now + opts.tickInterval, interval := opts.tickInterval, options := {} }
  have howner := TimerLoop.running_congr (TimerLoop.ownerAddTimer_owner (s := s.timers)
    { expiration := now + opts.tickInterval, interval := opts.tickInterval, options := {} })
  unfold LogicLoop.startTimer
  dsimp only
  split
  · rename_i hacc
    refine ⟨hinv, h.books, ?_, ?_⟩
    · intro _
      unfold TimerLoop.ownerAddTimer at hacc ⊢
      dsimp only at hacc ⊢
      split at hacc
      · cases hacc
      · rename_i hphase
        rw [if_neg hphase]
        refine ⟨⟨TimerQueue.mem_addTimerInLoop.mpr (Or.inl rfl), ?_, ?_⟩, ?_⟩
        · simp [TimerQueue.addTimerInLoop, TimerQueue.insert]
        · simpa [TimerQueue.addTimerInLoop, TimerQueue.insert, TimerQueue.Queue.alloc]
            using opts.tickInterval_pos
        · exact fun hr => Nat.lt_irrefl _ (h.timers.returned_used _ hr)
    · intro hown
      rw [howner] at hown
      exact absurd (h.timers.running_used hown) (Nat.lt_irrefl _)
  · refine ⟨hinv, h.books, fun hrun => (h.armed hrun).ownerAddTimer h.timers _, ?_⟩
    intro hown
    rw [howner] at hown
    exact h.own hown

/-- `stop` before its queue is closed. -/
theorem Inv.stopBegin (h : Inv s) (hs : step opts cap s .stopBegin = some s') : Inv s' := by
  simp only [step] at hs
  split at hs
  case isFalse => cases hs
  case isTrue =>
    split at hs <;> cases hs
    · exact h
    · exact h
    · have hcancel : TimerLoop.Inv (TimerLoop.ownerCancelTimer s.timers s.timer).2 ∧
          (TimerLoop.ownerCancelTimer s.timers s.timer).2.owner = s.timers.owner := by
        unfold TimerLoop.ownerCancelTimer
        split
        · exact ⟨h.timers, rfl⟩
        · split
          · exact ⟨h.timers, rfl⟩
          · exact ⟨h.timers.cancel, rfl⟩
      refine ⟨hcancel.1, h.books, by simp, ?_⟩
      intro hown
      rw [TimerLoop.running_congr hcancel.2] at hown
      exact h.own hown
    · exact h.frame rfl rfl rfl rfl rfl rfl (by simp) rfl id

theorem Inv.submitCommit {c : GameCommand} {now : Int} (h : Inv s)
    (hs : step opts cap s (.submitCommit c now) = some s') : Inv s' := by
  obtain ⟨gone, hacc, hsub, hlen⟩ := h.books
  simp only [step] at hs
  split at hs
  case isFalse => cases hs
  case isTrue =>
    obtain ⟨hrej, hacc'⟩ | ⟨hok, hacc'⟩ := GameCommandQueue.submit_accounted hacc now c
    · rw [if_neg hrej] at hs
      cases hs
      exact ⟨h.timers, ⟨gone, hacc', hsub, hlen⟩, h.armed, h.own⟩
    · rw [if_pos hok] at hs
      cases hs
      exact ⟨h.timers, ⟨gone, hacc', hsub, hlen⟩, h.armed, h.own⟩

/-- The head of the loop over the batch: its end, a stale command, or a call of the handler. -/
theorem Inv.takeNext (h : Inv s) (hc : ThrowsLast s .takeNext)
    (hs : step opts cap s .takeNext = some s') : Inv s' := by
  obtain ⟨gone, hacc, hsub, hlen⟩ := h.books
  simp only [step] at hs
  split at hs
  · rename_i drained produced htick
    simp only [finishBatch] at hs
    split at hs
    · cases hs
      exact h.frame rfl rfl rfl rfl rfl rfl id (by rw [htick]; rfl) (by simp)
    · have hcount : Inv { s with tickCount := s.tickCount + 1 } :=
        h.frame rfl rfl rfl rfl rfl rfl id rfl id
      exact hcount.leaveTick (by simp [htick, Tick.rest]) (by simp) hs
  · rename_i c rest drained produced htick
    have hmove : gone ++ s.tick.rest = gone ++ [c] ++ rest := by simp [htick, Tick.rest]
    rw [hmove] at hacc
    split at hs
    · cases hs
      refine ⟨h.timers, ⟨gone ++ [c], hacc, hsub.trans (List.sublist_append_left _ _), ?_⟩,
        h.armed, by simp⟩
      simp only [List.length_append, List.length_singleton]
      omega
    · split at hs
      · cases hs
        refine ⟨h.timers, ⟨gone ++ [c], hacc, hsub.append (List.Sublist.refl _), ?_⟩, h.armed, by simp⟩
        simp only [List.length_append, List.length_singleton]
        omega
      · rename_i hno
        simp [ThrowsLast, hno, htick, Tick.rest] at hc
  · cases hs

/-- One step keeps the balance. -/
theorem step_inv (h : Inv s) (hc : ThrowsLast s l) (hs : step opts cap s l = some s') : Inv s' := by
  cases l with
  | timers tl => exact h.timersStep hs
  | setGeneration state generation =>
    cases hs
    exact h.frame rfl rfl rfl rfl rfl rfl id rfl id
  | setHandler b | setOutputCallback b | setMetricCallback b =>
    simp only [step] at hs
    split at hs <;> cases hs
    exact h.frame rfl rfl rfl rfl rfl rfl id rfl id
  | start now =>
    simp only [step] at hs
    split at hs
    case isFalse => cases hs
    case isTrue =>
      split at hs
      · cases hs; exact h
      · split at hs <;> cases hs
        · exact h.startTimer now
        · exact h
      · cases hs; exact h
  | stopBegin => exact h.stopBegin hs
  | stopEnd =>
    simp only [step] at hs
    split at hs <;> cases hs
    obtain ⟨gone, hacc, hsub, hlen⟩ := h.books
    exact ⟨h.timers, ⟨gone, GameCommandQueue.closeAndDiscard_accounted hacc, hsub, hlen⟩, by simp,
      h.own⟩
  | submitCheck command =>
    simp only [step] at hs
    split at hs <;> cases hs <;> exact h.frame rfl rfl rfl rfl rfl rfl id rfl id
  | submitCommit command now => exact h.submitCommit hs
  | tickBegin =>
    simp only [step] at hs
    split at hs
    case h_2 => cases hs
    case h_1 htick =>
      split at hs
      · cases hs
        obtain ⟨gone, hacc, hsub, hlen⟩ := h.books
        rw [htick] at hacc
        refine ⟨h.timers, ⟨gone, ?_, hsub, hlen⟩, h.armed, by simp⟩
        simpa [Tick.rest] using GameCommandQueue.drain_accounted hacc opts.maxCommandsPerTick
      · exact h.leaveTick (by simp [htick, Tick.rest]) (by simp) hs
  | takeNext => exact h.takeNext hc hs
  | handlerReturn output =>
    simp only [step] at hs
    split at hs
    case h_2 => cases hs
    case h_1 htick =>
      split at hs
      · cases hs
      · split at hs
        · cases hs
          exact h.frame rfl rfl rfl rfl rfl rfl id (by rw [htick]; rfl) (by simp)
        · split at hs
          · split at hs <;> cases hs <;>
              exact h.frame rfl rfl rfl rfl rfl rfl id (by rw [htick]; rfl) (by simp)
          · cases hs
            exact h.frame rfl rfl rfl rfl rfl rfl id (by rw [htick]; rfl) (by simp)
  | outputReturn =>
    simp only [step] at hs
    split at hs
    case h_2 => cases hs
    case h_1 htick =>
      split at hs <;> cases hs
      exact h.frame rfl rfl rfl rfl rfl rfl id (by rw [htick]; rfl) (by simp)
  | metricReturn =>
    simp only [step] at hs
    split at hs
    case h_2 => cases hs
    case h_1 htick =>
      split at hs
      · cases hs
      · exact h.leaveTick (by simp [htick, Tick.rest]) (by simp) hs
  | callbackThrow =>
    simp only [step] at hs
    split at hs
    · cases hs
    · split at hs
      · exact h.leaveTick hc.1 (fun _ => hc.2) hs
      · exact h.leaveTick hc.1 (fun _ => hc.2) hs
      · exact h.leaveTick hc.1 (fun _ => hc.2) hs
      · cases hs

theorem initial_inv {limits : QueueLimits} {q : GameCommandQueue}
    (hq : GameCommandQueue.make limits = .ok q) : Inv (initial q) :=
  ⟨TimerLoop.start_inv, ⟨[], GameCommandQueue.make_accounted hq, List.Sublist.refl _, rfl⟩,
    by simp [initial], by simp [initial, TimerLoop.start, TimerLoop.State.running]⟩

/-- A queue the constructor accepts, and the loop over it. -/
def Initial (s : State) : Prop := ∃ limits q, GameCommandQueue.make limits = .ok q ∧ s = initial q

/-- **No accepted command disappears.** In every run whose ticks throw only behind their last
    command and after `stop`: between ticks every accepted command is accounted for, the
    handler saw its commands in the order of acceptance, and a Running loop has its timer
    armed. -/
theorem accepted_accounted (h : Reach Initial (step opts cap) ThrowsLast s)
    (hidle : s.tick = .idle) :
    s.queue.accepted =
        s.handed.length + s.staleFirst + s.queue.queue.length + s.queue.droppedOnStop ∧
      (s.entered.length = s.queue.accepted ∧ List.Sublist s.handed s.entered) ∧
      (s.state = .running → Armed s.timers s.timer) := by
  have hinv : Inv s := by
    refine Reach.invariant (P := Inv) ?_ (fun _ _ _ hP hc hs => step_inv hP hc hs) h
    rintro s ⟨limits, q, hq, rfl⟩
    exact initial_inv hq
  obtain ⟨gone, hacc, hsub, hlen⟩ := hinv.books
  rw [hidle] at hacc
  refine ⟨?_, ⟨hacc.accepted.symm, ?_⟩, ?_⟩
  · rw [hacc.total]
    simp [Tick.rest, hlen]
  · obtain ⟨dropped, hsplit, _, _⟩ := hacc.split
    rw [hsplit]
    refine hsub.trans ?_
    simp [Tick.rest, List.append_assoc]
  · intro hrun
    have hheld := hinv.armed hrun
    exact ⟨hheld.live.byId, hheld.live.uncanceled, hinv.timers.good.byId_placed _ hheld.live.byId⟩

end

/-- A tick every 20 and at most 8 commands in each. -/
def smallOptions : LogicLoopOptions := ⟨20, 8, by decide, by decide⟩

/-- A loop over a queue with the default limits. -/
def freshLoop : State := initial { limits := {} }

theorem freshLoop_initial : Initial freshLoop := ⟨{}, _, rfl, rfl⟩

/-- A tick over two commands whose handler stops the loop on the first and throws on the
    second: both were handed over, and a third one, queued meanwhile, is dropped by `stop`. -/
theorem accepted_accounted_stop :
    ∃ s, Reach Initial (step smallOptions 4) ThrowsLast s ∧ s.tick = .idle ∧
      s.handed.length = 2 ∧ s.queue.droppedOnStop = 1 ∧
      s.queue.accepted =
        s.handed.length + s.staleFirst + s.queue.queue.length + s.queue.droppedOnStop := by
  obtain ⟨s, hr, hidle, hhanded, hdropped⟩ := Reach.of_run Initial (step smallOptions 4)
    ThrowsLast (fun s => s.tick = .idle ∧ s.handed.length = 2 ∧ s.queue.droppedOnStop = 1)
    freshLoop freshLoop_initial
    [.setHandler true, .start 0, .submitCheck ⟨1, {}, [], 0⟩, .submitCommit ⟨1, {}, [], 0⟩ 1,
      .submitCheck ⟨2, {}, [], 0⟩, .submitCommit ⟨2, {}, [], 0⟩ 2, .timers (.expire 21 8),
      .timers .startNext, .tickBegin, .submitCheck ⟨3, {}, [], 0⟩, .submitCommit ⟨3, {}, [], 0⟩ 3,
      .takeNext, .stopBegin, .stopEnd, .handlerReturn none, .takeNext, .callbackThrow] (by decide)
  exact ⟨s, hr, hidle, hhanded, hdropped, (accepted_accounted hr hidle).1⟩

/-- **A throwing handler.** Two commands are accepted and drained by one tick; the handler
    throws on the first. The second is neither handed over, nor stale, nor queued, nor
    dropped by `stop`, and the loop is Running with its timer canceled. -/
theorem throwing_handler :
    ∃ s, Reach Initial (step smallOptions 4) Any s ∧ s.tick = .idle ∧
      s.queue.accepted ≠
        s.handed.length + s.staleFirst + s.queue.queue.length + s.queue.droppedOnStop ∧
      s.state = .running ∧ ¬ Armed s.timers s.timer := by
  obtain ⟨s, hr, hidle, hlost, hrun, hcanceled⟩ := Reach.of_run Initial (step smallOptions 4)
    Any
    (fun s => s.tick = .idle ∧
      s.queue.accepted ≠
        s.handed.length + s.staleFirst + s.queue.queue.length + s.queue.droppedOnStop ∧
      s.state = .running ∧ (s.timers.queue.heap s.timer).canceled = true)
    freshLoop freshLoop_initial
    [.setHandler true, .start 0, .submitCheck ⟨1, {}, [], 0⟩, .submitCommit ⟨1, {}, [], 0⟩ 1,
      .submitCheck ⟨2, {}, [], 0⟩, .submitCommit ⟨2, {}, [], 0⟩ 2, .timers (.expire 21 8),
      .timers .startNext, .tickBegin, .takeNext, .callbackThrow] (by decide)
  refine ⟨s, hr, hidle, hlost, hrun, fun harmed => ?_⟩
  rw [harmed.uncanceled] at hcanceled
  cases hcanceled

end GameNet.LogicLoop
