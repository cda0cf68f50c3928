import GameNet.Machine
import GameNet.Types

/- GameCommandQueue: the bounded command queue in front of a LogicLoop
   (`GameCommandQueue.cc`), with the session bindings its commands carry
   (`PlayerSession.cc`). Every operation runs under the queue's mutex, so each is
   one step; `Accounted` ties the counters to the commands themselves: the byte
   count is that of the queued payloads, and `accepted_` counts the commands
   that went in. -/
namespace GameNet.GameLogic

open Machine (Reach Any)

/-! ## Commands -/

/-- `SessionBinding`: `state` names the shared binding state, `none` for a null pointer. -/
structure SessionBinding where
  state : Option Nat := none
  generation : Nat := 0
  deriving DecidableEq, Repr

/-- `SessionBinding::tracked`. -/
def SessionBinding.tracked (b : SessionBinding) : Bool :=
  b.state.isSome && decide (b.generation ≠ 0)

/-- `SessionBinding::isCurrent`, where `current` gives each state's `currentGeneration`. -/
def SessionBinding.isCurrent (current : Nat → Nat) (b : SessionBinding) : Bool :=
  !b.tracked || match b.state with
    | some st => current st == b.generation
    | none => false

/-- The test that `submit` and `tick` make of a binding. -/
def SessionBinding.stale (current : Nat → Nat) (b : SessionBinding) : Bool :=
  b.tracked && !b.isCurrent current

structure GameCommand where
  requestId : Nat
  binding : SessionBinding := {}
  payload : List UInt8 := []
  enqueuedAt : Int := 0
  deriving DecidableEq, Repr

inductive SubmitResult where
  | accepted
  | queueFull
  | payloadTooLarge
  | stopped
  | staleBinding
  deriving DecidableEq, Repr

/-! ## The queue -/

structure QueueLimits where
  maxCommands : Nat := 4096
  maxQueuedBytes : Nat := 4 * 1024 * 1024
  maxPayloadBytes : Nat := 1024 * 1024
  deriving DecidableEq, Repr

structure GameCommandQueue where
  limits : QueueLimits
  queue : List GameCommand := []
  queuedBytes : Nat := 0
  depthHighWatermark : Nat := 0
  bytesHighWatermark : Nat := 0
  accepted : Nat := 0
  rejectedFull : Nat := 0
  rejectedPayload : Nat := 0
  rejectedStopped : Nat := 0
  droppedOnStop : Nat := 0
  droppedBytesOnStop : Nat := 0
  accepting : Bool := true
  deriving DecidableEq, Repr

structure QueueDiscardSummary where
  droppedCommands : Nat
  droppedBytes : Nat
  deriving DecidableEq, Repr

namespace GameCommandQueue

/-- The constructor. -/
def make (limits : QueueLimits) : Except String GameCommandQueue :=
  if limits.maxCommands = 0 ∨ limits.maxQueuedBytes = 0 ∨ limits.maxPayloadBytes = 0 ∨
      limits.maxPayloadBytes > limits.maxQueuedBytes then
    .error "GameCommandQueue requires coherent non-zero limits"
  else .ok { limits := limits }

/-- A command without a submission time gets the clock reading. -/
def stamp (now : Int) (command : GameCommand) : GameCommand :=
  if command.enqueuedAt = 0 then { command with enqueuedAt := now } else command

/-- `GameCommandQueue::submit` at the clock reading `now`. -/
def submit (q : GameCommandQueue) (now : Int) (command : GameCommand) :
    SubmitResult × GameCommandQueue :=
  let bytes := command.payload.length
  if q.accepting = false then (.stopped, { q with rejectedStopped := q.rejectedStopped + 1 })
  else if bytes > q.limits.maxPayloadBytes then
    (.payloadTooLarge, { q with rejectedPayload := q.rejectedPayload + 1 })
  else if q.queue.length ≥ q.limits.maxCommands ∨
      bytes > q.limits.maxQueuedBytes - q.queuedBytes then
    (.queueFull, { q with rejectedFull := q.rejectedFull + 1 })
  else
    let queue := q.queue ++ [stamp now command]
    let queuedBytes := q.queuedBytes + bytes
    (.accepted,
      { q with
        queue := queue
        queuedBytes := queuedBytes
        accepted := q.accepted + 1
        depthHighWatermark := max q.depthHighWatermark queue.length
        bytesHighWatermark := max q.bytesHighWatermark queuedBytes })

/-- The payload bytes of a list of commands. -/
def payloadBytes (commands : List GameCommand) : Nat := (commands.map (·.payload.length)).sum

/-- `GameCommandQueue::drain`. -/
def drain (q : GameCommandQueue) (maxCommands : Nat) : List GameCommand × GameCommandQueue :=
  let result := q.queue.take maxCommands
  (result, { q with queue := q.queue.drop maxCommands
                    queuedBytes := q.queuedBytes - payloadBytes result })

/-- `GameCommandQueue::closeAndDiscard`. -/
def closeAndDiscard (q : GameCommandQueue) : QueueDiscardSummary × GameCommandQueue :=
  let summary := { droppedCommands := q.queue.length, droppedBytes := q.queuedBytes }
  (summary,
    { q with
      accepting := false
      droppedOnStop := q.droppedOnStop + summary.droppedCommands
      droppedBytesOnStop := q.droppedBytesOnStop + summary.droppedBytes
      queue := []
      queuedBytes := 0 })

/-! ## The counters tell the truth -/

/-- `entered` is the list of the commands accepted so far, oldest first, and `gone` of those
    that `drain` has handed out. -/
structure Accounted (q : GameCommandQueue) (entered gone : List GameCommand) : Prop where
  bytes : q.queuedBytes = payloadBytes q.queue
  bytes_le : q.queuedBytes ≤ q.limits.maxQueuedBytes
  accepted : q.accepted = entered.length
  split : ∃ dropped, entered = gone ++ q.queue ++ dropped ∧ dropped.length = q.droppedOnStop ∧
    (q.accepting = true → dropped = [])

section
variable {q : GameCommandQueue} {entered gone : List GameCommand}

theorem make_accounted {limits : QueueLimits} (h : make limits = .ok q) : Accounted q [] [] := by
  unfold make at h
  split at h
  · cases h
  · cases h
    exact ⟨rfl, Nat.zero_le _, rfl, [], rfl, rfl, fun _ => rfl⟩

theorem stamp_payload (now : Int) (c : GameCommand) : (stamp now c).payload = c.payload := by
  unfold stamp
  split <;> rfl

/-- A submission appends the command it accepts and is otherwise only counted. -/
theorem submit_accounted (h : Accounted q entered gone) (now : Int) (c : GameCommand) :
    ((submit q now c).1 ≠ .accepted ∧ Accounted (submit q now c).2 entered gone) ∨
      ((submit q now c).1 = .accepted ∧
        Accounted (submit q now c).2 (entered ++ [stamp now c]) gone) := by
  obtain ⟨hbytes, hle, hacc, dropped, hsplit, hdrop, hopen⟩ := h
  unfold submit
  dsimp only
  split
  · exact Or.inl ⟨by simp, hbytes, hle, hacc, dropped, hsplit, hdrop, hopen⟩
  · rename_i haccepting
    split
    · exact Or.inl ⟨by simp, hbytes, hle, hacc, dropped, hsplit, hdrop, hopen⟩
    · split
      · exact Or.inl ⟨by simp, hbytes, hle, hacc, dropped, hsplit, hdrop, hopen⟩
      · have hnil : dropped = [] := hopen (by simpa using haccepting)
        subst hnil
        refine Or.inr ⟨rfl, ?_, ?_, ?_, [], ?_, hdrop, fun _ => rfl⟩
        · simp only [payloadBytes, List.map_append, List.sum_append, List.map_cons, List.map_nil,
            List.sum_cons, List.sum_nil, stamp_payload, hbytes, Nat.add_zero]
        · dsimp only
          omega
        · simp [hacc]
        · simp [hsplit]

theorem drain_accounted (h : Accounted q entered gone) (maxCommands : Nat) :
    Accounted (drain q maxCommands).2 entered (gone ++ (drain q maxCommands).1) := by
  obtain ⟨hbytes, hle, hacc, dropped, hsplit, hdrop, hopen⟩ := h
  have htotal : payloadBytes q.queue =
      payloadBytes (q.queue.take maxCommands) + payloadBytes (q.queue.drop maxCommands) := by
    unfold payloadBytes
    rw [← List.sum_append, ← List.map_append, List.take_append_drop]
  refine ⟨?_, ?_, hacc, dropped, ?_, hdrop, hopen⟩
  · simp only [drain]
    omega
  · simp only [drain]
    omega
  · simp only [drain, List.append_assoc]
    rw [← List.append_assoc (List.take _ _), List.take_append_drop, ← List.append_assoc]
    exact hsplit

theorem closeAndDiscard_accounted (h : Accounted q entered gone) :
    Accounted (closeAndDiscard q).2 entered gone := by
  obtain ⟨_, _, hacc, dropped, hsplit, hdrop, _⟩ := h
  refine ⟨rfl, Nat.zero_le _, hacc, q.queue ++ dropped, ?_, ?_, by simp [closeAndDiscard]⟩
  · simp [closeAndDiscard, hsplit]
  · simp [closeAndDiscard, hdrop, Nat.add_comm]

/-- Every accepted command was handed out, is queued or was dropped when the queue closed. -/
theorem Accounted.total (h : Accounted q entered gone) :
    q.accepted = gone.length + q.queue.length + q.droppedOnStop := by
  obtain ⟨dropped, hsplit, hdrop, _⟩ := h.split
  rw [h.accepted, hsplit, ← hdrop]
  simp [Nat.add_assoc]

/-! ## The limits hold -/

inductive Label where
  | submit (now : Int) (command : GameCommand)
  | drain (maxCommands : Nat)
  | close
  | closeAndDiscard

def step (q : GameCommandQueue) : Label → Option GameCommandQueue
  | .submit now command => some (submit q now command).2
  | .drain maxCommands => some (drain q maxCommands).2
  | .close => some { q with accepting := false }
  | .closeAndDiscard => some (closeAndDiscard q).2

structure Within (limits : QueueLimits) (q : GameCommandQueue) : Prop where
  fixed : q.limits = limits
  depth : q.queue.length ≤ q.depthHighWatermark
  depth_le : q.depthHighWatermark ≤ limits.maxCommands
  bytes : q.queuedBytes ≤ q.bytesHighWatermark
  bytes_le : q.bytesHighWatermark ≤ limits.maxQueuedBytes
  payload : ∀ c ∈ q.queue, c.payload.length ≤ limits.maxPayloadBytes

variable {limits : QueueLimits}

theorem within_make (h : make limits = .ok q) : Within limits q := by
  unfold make at h
  split at h
  · cases h
  · cases h
    exact ⟨rfl, le_rfl, Nat.zero_le _, le_rfl, Nat.zero_le _, nofun⟩

theorem Within.submit (h : Within limits q) (now : Int) (c : GameCommand) :
    Within limits (submit q now c).2 := by
  unfold GameCommandQueue.submit
  dsimp only
  split
  · exact { h with }
  split
  · exact { h with }
  rename_i hpayload
  split
  · exact { h with }
  rename_i hroom
  -- the command is accepted, so that one more is within both limits
  rw [h.fixed] at hpayload hroom
  have hbytes := h.bytes.trans h.bytes_le
  refine ⟨h.fixed, le_max_right .., max_le h.depth_le ?_, le_max_right .., max_le h.bytes_le ?_,
    fun x hx => ?_⟩
  · rw [List.length_append, List.length_singleton]
    omega
  · omega
  · rcases List.mem_append.mp hx with hx | hx
    · exact h.payload x hx
    · rw [List.mem_singleton.mp hx, stamp_payload]
      exact Nat.le_of_not_gt hpayload

theorem Within.drain (h : Within limits q) (n : Nat) : Within limits (drain q n).2 := by
  refine { h with depth := ?_, bytes := ?_, payload := fun x hx => ?_ }
  · exact (List.drop_sublist ..).length_le.trans h.depth
  · exact (Nat.sub_le ..).trans h.bytes
  · exact h.payload x (List.mem_of_mem_drop hx)

theorem Within.closeAndDiscard (h : Within limits q) : Within limits (closeAndDiscard q).2 :=
  { h with depth := Nat.zero_le _, bytes := Nat.zero_le _, payload := nofun }

/-- No calls take the queue past its limits, and the byte counter is exact. -/
theorem within_limits (h : Reach (make limits = .ok ·) step Any q) :
    q.queuedBytes = payloadBytes q.queue ∧ Within limits q := by
  refine And.imp_left (fun ⟨_, _, hacc⟩ => hacc.bytes) (Reach.invariant
    (P := fun q => (∃ entered gone, Accounted q entered gone) ∧ Within limits q) ?_ ?_ h)
  · exact fun q hq => ⟨⟨_, _, make_accounted hq⟩, within_make hq⟩
  · rintro q l _ ⟨⟨_, _, hacc⟩, hwithin⟩ - hs
    cases l with
    | submit now c =>
      cases hs
      refine ⟨?_, hwithin.submit now c⟩
      rcases submit_accounted hacc now c with ⟨-, hacc⟩ | ⟨-, hacc⟩
      · exact ⟨_, _, hacc⟩
      · exact ⟨_, _, hacc⟩
    | drain n =>
      cases hs
      exact ⟨⟨_, _, drain_accounted hacc n⟩, hwithin.drain n⟩
    | close =>
      cases hs
      obtain ⟨dropped, hsplit, hdropped, -⟩ := hacc.split
      exact ⟨⟨_, _, { hacc with split := ⟨dropped, hsplit, hdropped, by simp⟩ }⟩, { hwithin with }⟩
    | closeAndDiscard =>
      cases hs
      exact ⟨⟨_, _, closeAndDiscard_accounted hacc⟩, hwithin.closeAndDiscard⟩

end

/-- Two commands of three bytes for a queue with room for five. -/
theorem within_limits_full : ∃ q : GameCommandQueue, q.rejectedFull = 1 ∧ q.queuedBytes = 3 ∧
    q.queuedBytes = payloadBytes q.queue ∧ q.queue.length ≤ 2 := by
  let c : GameCommand := ⟨1, {}, [1, 2, 3], 0⟩
  obtain ⟨q, hr, hfull, hbytes⟩ := Reach.of_run (make ⟨2, 5, 4⟩ = .ok ·) step Any
    (fun q => q.rejectedFull = 1 ∧ q.queuedBytes = 3) { limits := ⟨2, 5, 4⟩ } rfl
    [.submit 1 c, .submit 2 c] (by decide)
  obtain ⟨hexact, hwithin⟩ := within_limits hr
  exact ⟨q, hfull, hbytes, hexact, hwithin.depth.trans hwithin.depth_le⟩

end GameCommandQueue

end GameNet.GameLogic
