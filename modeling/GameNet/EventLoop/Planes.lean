import Mathlib.Data.List.Nodup
import GameNet.Types

/- The three admission planes of an EventLoop (`EventLoop.cc`), each behind its own
   mutex: the executor's bounded functor queue, the control sources with their
   pending bits, and the lifecycle nodes with their intrusive dirty list. Every
   function here is one critical section; where the code writes a wakeup, the
   function says so and the loop's machine decides when the write happens.

   A functor is named by the number its caller gives it. A control source is a slot
   with a generation, a lifecycle source a node id with a generation, so a stale
   source is one whose generation has passed. Generations and ids are not modelled
   to wrap around. -/
namespace GameNet.EventLoop

open Function (update update_idem update_of_ne update_eq_self)

/-! ## Options -/

structure EventLoopOptions where
  maxPendingFunctors : Nat := 65536
  reservedPendingFunctors : Nat := 1024
  maxFunctorsPerIteration : Nat := 1024
  maxControlSources : Nat := 64
  maxLifecycleNodes : Nat := 262144
  maxLifecycleCallbacksPerIteration : Nat := 1024
  maxActiveChannelsPerIteration : Nat := 64
  maxTimersPerIteration : Nat := 1024
  maxControlCallbacksPerIteration : Nat := 64
  maxIocpCompletionsPerPoll : Nat := 64
  deriving DecidableEq, Repr

def kMaxControlSources : Nat := 65536
def kMaxIocpCompletionBatchSize : Nat := 64
def sizeMax : Nat := 2 ^ 64 - 1

/-- `EventLoopOptions::validate`. -/
def EventLoopOptions.validate (o : EventLoopOptions) : Except String Unit :=
  if o.maxPendingFunctors = 0 then
    .error "EventLoop max pending functors must be positive"
  else if o.reservedPendingFunctors > sizeMax - o.maxPendingFunctors then
    .error "EventLoop pending functor capacity overflows size_t"
  else if o.maxFunctorsPerIteration = 0 ∨ o.maxFunctorsPerIteration > o.maxPendingFunctors then
    .error "EventLoop per-iteration functor budget must be within queue capacity"
  else if o.maxControlSources > kMaxControlSources then
    .error "EventLoop control-source capacity exceeds the supported bound"
  else if o.maxLifecycleCallbacksPerIteration = 0 then
    .error "EventLoop lifecycle callback budget must be positive"
  else if o.maxActiveChannelsPerIteration = 0 then
    .error "EventLoop active Channel budget must be positive"
  else if o.maxTimersPerIteration = 0 then
    .error "EventLoop expired timer budget must be positive"
  else if o.maxControlCallbacksPerIteration = 0 ∨
      o.maxControlCallbacksPerIteration > kMaxControlSources then
    .error "EventLoop control callback budget must be within the supported bound"
  else if o.maxIocpCompletionsPerPoll = 0 ∨
      o.maxIocpCompletionsPerPoll > kMaxIocpCompletionBatchSize then
    .error "EventLoop IOCP completion budget must be within [1, 64]"
  else .ok ()

/-- The options of a constructed loop. -/
structure Options where
  toEventLoopOptions : EventLoopOptions
  valid : toEventLoopOptions.validate = .ok ()

/-- Every drain budget of a constructed loop is positive. -/
theorem Options.budgets_pos (o : Options) :
    0 < o.toEventLoopOptions.maxFunctorsPerIteration ∧
      0 < o.toEventLoopOptions.maxLifecycleCallbacksPerIteration ∧
      0 < o.toEventLoopOptions.maxActiveChannelsPerIteration ∧
      0 < o.toEventLoopOptions.maxControlCallbacksPerIteration := by
  have h := o.valid
  unfold EventLoopOptions.validate at h
  repeat (split at h; · cases h)
  omega

/-! ## The executor's functor queue -/

/-- How a functor is admitted: `EventLoopExecutor::post`, `tryQueueInLoop`, or
    `queueInLoop`, which may use the reserve and throws where the others refuse. -/
inductive Admission where
  | post
  | tryQueueInLoop
  | queueInLoop
  deriving DecidableEq, Repr

structure Executor where
  accepting : Bool := true
  drainingAccepted : Bool := false
  pendingFunctors : List Nat := []
  deriving DecidableEq, Repr

/-- The queue length at which an admission is refused. -/
def Admission.capacity (o : EventLoopOptions) : Admission → Nat
  | .queueInLoop => o.maxPendingFunctors + o.reservedPendingFunctors
  | _ => o.maxPendingFunctors

/-- `postFunctor`, `tryQueueInLoop` and `queueInLoop` over `tryQueueInLoopImpl`, up to the
    wakeup. For `tryQueueInLoop` anything but `accepted` is false, for `queueInLoop` it is
    an exception. `none` is an empty callback, which `post` refuses before it looks at the
    phase. -/
def Executor.postFunctor (o : EventLoopOptions) (e : Executor) (kind : Admission) (cb : Option Nat) :
    PostResult × Executor :=
  match cb with
  | none => (if e.accepting = false ∧ kind ≠ .post then .shutdown else .queueFull, e)
  | some f =>
    if e.accepting = false then (.shutdown, e)
    else if kind.capacity o ≤ e.pendingFunctors.length then (.queueFull, e)
    else (.accepted, { e with pendingFunctors := e.pendingFunctors ++ [f] })

/-- An admission appends the functor or leaves the queue as it is. -/
theorem Executor.postFunctor_cases (o : EventLoopOptions) (e : Executor) (kind : Admission)
    (cb : Option Nat) : (e.postFunctor o kind cb).1 ≠ .accepted ∨
      ∃ f, cb = some f ∧ e.accepting = true ∧
        e.postFunctor o kind cb = (.accepted, { e with pendingFunctors := e.pendingFunctors ++ [f] }) := by
  unfold Executor.postFunctor
  cases cb with
  | none => exact Or.inl (by dsimp only; split <;> simp)
  | some f =>
    dsimp only
    split
    · exact Or.inl (by simp)
    · rename_i hacc
      split
      · exact Or.inl (by simp)
      · exact Or.inr ⟨f, rfl, by simpa using hacc, rfl⟩

/-! ## Control sources -/

inductive ControlPhase where
  | accepting
  | draining
  | shutdown
  deriving DecidableEq, Repr

structure Slot where
  active : Bool := false
  generation : Nat := 0
  deriving DecidableEq, Repr

structure Control where
  phase : ControlPhase := .accepting
  slots : List Slot
  /-- `pendingWords`, bit by bit. -/
  pending : Nat → Bool := fun _ => false
  pendingCount : Nat := 0
  activeCallbackSlot : Option Nat := none

structure ControlSource where
  slot : Nat
  generation : Nat
  deriving DecidableEq, Repr

/-- `source` names the registration that its slot holds now. -/
def Control.registered (c : Control) (source : ControlSource) : Bool :=
  match c.slots[source.slot]? with
  | some slot => slot.active && slot.generation == source.generation
  | none => false

/-- `EventLoopControlSource::notify` on a live loop; the middle component tells whether the
    critical section ends with a wakeup. -/
def Control.notify (c : Control) (caller : Caller) (source : ControlSource) :
    PostResult × Bool × Control :=
  if c.registered source = false then (.ownerUnavailable, false, c)
  else
    let isDrainingSelfRearm := decide (c.phase = .draining) && decide (caller = .owner) &&
      decide (c.activeCallbackSlot = some source.slot)
    if c.phase = .shutdown ∨ (c.phase = .draining ∧ isDrainingSelfRearm = false) then
      (.shutdown, false, c)
    else if c.pending source.slot then (.accepted, false, c)
    else (.accepted, true,
      { c with pending := update c.pending source.slot true
               pendingCount := c.pendingCount + 1 })

/-- The first slot that is not active, with its index. -/
def Control.freeSlot (c : Control) : Option Nat := c.slots.findIdx? (fun slot => !slot.active)

/-- `EventLoop::registerControlSource`, whose caller has checked `looping_`. -/
def Control.register (c : Control) : Except String (ControlSource × Control) :=
  if c.phase ≠ .accepting then .error "EventLoop control-source registration is closed"
  else match c.freeSlot with
    | none => .error "EventLoop control-source registration capacity is exhausted"
    | some i =>
      let generation := (c.slots[i]?.map (·.generation)).getD 0 + 1
      .ok (⟨i, generation⟩, { c with slots := c.slots.set i ⟨true, generation⟩ })

/-- `EventLoop::unregisterControlSource`. -/
def Control.unregister (c : Control) (source : ControlSource) : Control :=
  if c.registered source = false then c
  else
    let c₁ := if c.pending source.slot then
        { c with pending := update c.pending source.slot false
                 pendingCount := c.pendingCount - 1 }
      else c
    { c₁ with slots := c.slots.set source.slot ⟨false, source.generation + 1⟩ }

/-- The slots whose pending bit is set, in ascending order. -/
def Control.pendingSlots (c : Control) : List Nat := (List.range c.slots.length).filter c.pending

/-- The selection of `doControlSources`: the first `budget` pending slots lose their bit. -/
def Control.select (c : Control) (budget : Nat) : List Nat × Control :=
  let selected := c.pendingSlots.take budget
  (selected,
    { c with pending := fun i => c.pending i && !decide (i ∈ selected)
             pendingCount := c.pendingCount - selected.length })

/-! ## Lifecycle nodes -/

structure Node where
  attached : Bool := true
  dirty : Bool := false
  active : Bool := false
  generation : Nat := 1
  pendingGeneration : Nat := 0
  notifyOnQuiesce : Bool := false
  deriving DecidableEq, Repr

structure Lifecycle where
  phase : EventLoopPhase := .running
  maxNodes : Nat
  nextNodeId : Nat := 1
  /-- The registry `nodes`; its size is counted apart. -/
  node : Nat → Option Node := fun _ => none
  nodeCount : Nat := 0
  attachedCount : Nat := 0
  /-- The dirty list, from `dirtyHead`. -/
  dirty : List Nat := []
  pendingCount : Nat := 0
  activeNode : Option Nat := none
  activeGeneration : Nat := 0
  /-- The quiesce participants, from `quiesceHead`. -/
  quiesce : List Nat := []

structure LifecycleSource where
  id : Nat
  generation : Nat
  deriving DecidableEq, Repr

def Lifecycle.setNode (l : Lifecycle) (id : Nat) (n : Option Node) : Lifecycle :=
  { l with node := update l.node id n }

/-- A node of the registry joins the end of the dirty list. -/
def Lifecycle.enqueue (l : Lifecycle) (id : Nat) (n : Node) : Lifecycle :=
  { l.setNode id (some { n with dirty := true, pendingGeneration := n.generation }) with
    dirty := l.dirty ++ [id]
    pendingCount := l.pendingCount + 1 }

/-- `EventLoopLifecycleSource::signal` on a live loop. A node that left the registry can no
    longer be locked. -/
def Lifecycle.signal (l : Lifecycle) (caller : Caller) (source : LifecycleSource) :
    PostResult × Bool × Lifecycle :=
  match l.node source.id with
  | none => (.ownerUnavailable, false, l)
  | some n =>
    if n.attached = false ∨ n.generation ≠ source.generation then (.ownerUnavailable, false, l)
    else
      let isDrainingSelfSignal := (decide (l.phase = .quiescing) || decide (l.phase = .finalDraining)) &&
        decide (caller = .owner) && decide (l.activeNode = some source.id) &&
        decide (l.activeGeneration = source.generation)
      if l.phase = .shutdown ∨ (l.phase ≠ .running ∧ isDrainingSelfSignal = false) then
        (.shutdown, false, l)
      else if n.dirty then (.accepted, false, l)
      else (.accepted, true, l.enqueue source.id n)

/-- `EventLoop::attachLifecycleNode`; `attachQuiesceParticipant` passes `true`. -/
def Lifecycle.attach (l : Lifecycle) (notifyOnQuiesce : Bool) :
    Except String (LifecycleSource × Lifecycle) :=
  if l.phase ≠ .running then .error "EventLoop lifecycle-node attachment is closed"
  else if l.nodeCount ≥ l.maxNodes then .error "EventLoop lifecycle-node capacity is exhausted"
  else
    let id := l.nextNodeId
    .ok (⟨id, 1⟩,
      { l.setNode id (some { notifyOnQuiesce := notifyOnQuiesce }) with
        nextNodeId := id + 1
        nodeCount := l.nodeCount + 1
        attachedCount := l.attachedCount + 1
        quiesce := if notifyOnQuiesce then l.quiesce ++ [id] else l.quiesce })

/-- `EventLoop::detachLifecycleNode`: a dirty or active node stays in the registry. -/
def Lifecycle.detach (l : Lifecycle) (source : LifecycleSource) : Lifecycle :=
  match l.node source.id with
  | none => l
  | some n =>
    if n.attached = false ∨ n.generation ≠ source.generation then l
    else
      let l₁ := { l with
        attachedCount := l.attachedCount - 1
        quiesce := if n.notifyOnQuiesce then l.quiesce.filter (· ≠ source.id) else l.quiesce }
      if n.dirty = false ∧ n.active = false then
        { l₁.setNode source.id none with nodeCount := l.nodeCount - 1 }
      else l₁.setNode source.id (some { n with attached := false, generation := n.generation + 1 })

/-- One participant of the loop in `quit` that marks the quiesce participants. -/
def Lifecycle.markOne (l : Lifecycle) (id : Nat) : Lifecycle :=
  match l.node id with
  | none => l
  | some n => if n.attached = false ∨ n.dirty then l else l.enqueue id n

/-- The marking of the quiesce participants in `quit`. -/
def Lifecycle.markQuiesce (l : Lifecycle) : Lifecycle := l.quiesce.foldl Lifecycle.markOne l

/-- One turn of `doLifecycleNodes` up to the callback: the head of the dirty list, `none` for
    the fatal branch of a node that is not in the registry. -/
def Lifecycle.pop (l : Lifecycle) (id : Nat) (rest : List Nat) : Option Lifecycle :=
  match l.node id with
  | none => none
  | some n => some
    { l.setNode id (some { n with dirty := false, active := true, pendingGeneration := 0 }) with
      dirty := rest
      pendingCount := l.pendingCount - 1
      activeNode := some id
      activeGeneration := n.pendingGeneration }

/-- The critical section after the callback of `id` has run. -/
def Lifecycle.finish (l : Lifecycle) (id : Nat) : Lifecycle :=
  let l₁ := if l.activeNode = some id then { l with activeNode := none, activeGeneration := 0 } else l
  match l.node id with
  | none => l₁
  | some n =>
    if n.attached = false ∧ n.dirty = false then
      { l₁.setNode id none with nodeCount := l.nodeCount - 1 }
    else l₁.setNode id (some { n with active := false })

/-! ## The pending set and its counter -/

theorem length_filter_update {p : Nat → Bool} {i : Nat} (hp : p i = false) (n : Nat) :
    ((List.range n).filter (update p i true)).length =
      ((List.range n).filter p).length + if i < n then 1 else 0 := by
  induction n with
  | zero => simp
  | succ n ih =>
    rw [List.range_succ, List.filter_append, List.filter_append, List.length_append,
      List.length_append, ih]
    by_cases heq : n = i
    · subst heq
      simp [hp]
    · have hlt : (i < n + 1) ↔ (i < n) := by omega
      simp only [List.filter_cons, List.filter_nil, update_of_ne heq, hlt]
      omega

/-- What is left of a duplicate-free list without its first `k` elements. -/
theorem filter_not_mem_take {l : List Nat} (h : l.Nodup) (k : Nat) :
    l.filter (fun i => !decide (i ∈ l.take k)) = l.drop k := by
  have hdisj : ∀ i ∈ l.drop k, i ∉ l.take k := by
    intro i hi ht
    rw [← List.take_append_drop k l] at h
    exact List.disjoint_of_nodup_append h ht hi
  calc l.filter (fun i => !decide (i ∈ l.take k))
      = (l.take k ++ l.drop k).filter (fun i => !decide (i ∈ l.take k)) := by
        rw [List.take_append_drop]
    _ = l.drop k := by
        rw [List.filter_append, List.filter_eq_nil_iff.mpr (by simp), List.nil_append,
          List.filter_eq_self.mpr (by simpa using hdisj)]

/-- The pending counter counts the pending bits, and only active slots have one. -/
structure Control.Good (c : Control) : Prop where
  count : c.pendingCount = c.pendingSlots.length
  active : ∀ i, c.pending i = true → ∃ slot, c.slots[i]? = some slot ∧ slot.active = true

section
variable {c : Control} {source : ControlSource}

theorem Control.registered_iff :
    c.registered source = true ↔ c.slots[source.slot]? = some ⟨true, source.generation⟩ := by
  unfold Control.registered
  cases h : c.slots[source.slot]? with
  | none => simp
  | some slot =>
    obtain ⟨active, generation⟩ := slot
    simp

theorem Control.Good.bound (h : c.Good) {i : Nat} (hp : c.pending i = true) : i < c.slots.length := by
  obtain ⟨slot, hs, _⟩ := h.active i hp
  exact (List.getElem?_eq_some_iff.mp hs).1

theorem Control.mem_pendingSlots (h : c.Good) {i : Nat} : i ∈ c.pendingSlots ↔ c.pending i = true := by
  simp only [Control.pendingSlots, List.mem_filter, List.mem_range]
  exact ⟨fun hi => hi.2, fun hi => ⟨h.bound hi, hi⟩⟩

theorem Control.pendingSlots_nodup : c.pendingSlots.Nodup := List.nodup_range.filter _

/-- What an Accepted notification does: its slot is registered and pending afterwards, and
    a bit that was clear costs a wakeup. -/
theorem Control.notify_cases (c : Control) (caller : Caller) (source : ControlSource) :
    (c.notify caller source).1 ≠ .accepted ∨
      (c.registered source = true ∧ c.phase ≠ .shutdown ∧
        (c.phase = .draining → caller = .owner ∧ c.activeCallbackSlot = some source.slot) ∧
        ((c.pending source.slot = true ∧ c.notify caller source = (.accepted, false, c)) ∨
          (c.pending source.slot = false ∧ c.notify caller source = (.accepted, true,
            { c with pending := update c.pending source.slot true
                     pendingCount := c.pendingCount + 1 })))) := by
  unfold Control.notify
  by_cases hreg : c.registered source = false
  · exact Or.inl (by simp [hreg])
  · have hreg' : c.registered source = true := by simpa using hreg
    simp only [hreg', Bool.true_eq_false, if_false]
    split
    · exact Or.inl (by simp)
    · rename_i hphase
      refine Or.inr ⟨trivial, fun hp => hphase (Or.inl hp), ?_, ?_⟩
      · intro hd
        by_contra hno
        refine hphase (Or.inr ⟨hd, ?_⟩)
        simp only [Bool.and_eq_false_iff, decide_eq_false_iff_not]
        by_cases ho : caller = .owner
        · exact Or.inr (fun ha => hno ⟨ho, ha⟩)
        · exact Or.inl (Or.inr ho)
      · cases hp : c.pending source.slot with
        | true => exact Or.inl ⟨rfl, by simp⟩
        | false => exact Or.inr ⟨rfl, by simp⟩

theorem Control.Good.notify (h : c.Good) (caller : Caller) : (c.notify caller source).1 = .accepted →
    ((c.notify caller source).2.2).Good := by
  intro hacc
  rcases c.notify_cases caller source with hno | ⟨hreg, _, _, ⟨_, heq⟩ | ⟨hclear, heq⟩⟩
  · exact absurd hacc hno
  · rw [heq]; exact h
  · rw [heq]
    have hslot := Control.registered_iff.mp hreg
    have hlt : source.slot < c.slots.length := (List.getElem?_eq_some_iff.mp hslot).1
    constructor
    · simp only [Control.pendingSlots]
      rw [length_filter_update hclear, if_pos hlt, h.count]
      rfl
    · intro i hi
      by_cases heq : i = source.slot
      · subst heq
        exact ⟨_, hslot, rfl⟩
      · simp only [update_of_ne heq] at hi
        exact h.active i hi

theorem Control.Good.unregister (h : c.Good) : (c.unregister source).Good := by
  unfold Control.unregister
  split
  · exact h
  · rename_i hreg
    have hslot := Control.registered_iff.mp (by simpa using hreg)
    have hlt : source.slot < c.slots.length := (List.getElem?_eq_some_iff.mp hslot).1
    have hother : ∀ i, i ≠ source.slot → c.pending i = true →
        ∃ slot, (c.slots.set source.slot ⟨false, source.generation + 1⟩)[i]? = some slot ∧
          slot.active = true := by
      intro i hne hi
      rw [List.getElem?_set_ne (Ne.symm hne)]
      exact h.active i hi
    cases hp : c.pending source.slot with
    | false =>
      constructor
      · simpa [Control.pendingSlots] using h.count
      · intro i hi
        exact hother i (fun heq => by simp [heq, hp] at hi) (by simpa using hi)
    | true =>
      have hback : c.pending = update (update c.pending source.slot false)
          source.slot true := by
        rw [update_idem, ← hp, update_eq_self]
      have hlen := length_filter_update (p := update c.pending source.slot false)
        (i := source.slot) (by simp) c.slots.length
      rw [← hback, if_pos hlt] at hlen
      have hcount := h.count
      simp only [Control.pendingSlots] at hcount
      constructor
      · simp only [if_true, Control.pendingSlots, List.length_set]
        omega
      · intro i hi
        simp only [if_true] at hi ⊢
        by_cases heq : i = source.slot
        · simp [heq] at hi
        · rw [update_of_ne heq] at hi
          exact hother i heq hi

/-- A registration takes an inactive slot and raises its generation. -/
theorem Control.register_eq {c' : Control} (hr : c.register = .ok (source, c')) :
    ∃ slot, c.slots[source.slot]? = some slot ∧ slot.active = false ∧
      source.generation = slot.generation + 1 ∧
      c' = { c with slots := c.slots.set source.slot ⟨true, source.generation⟩ } := by
  unfold Control.register at hr
  split at hr
  · cases hr
  · split at hr
    · cases hr
    · rename_i i hfree
      obtain ⟨hlt, hidle, _⟩ := List.findIdx?_eq_some_iff_getElem.mp hfree
      have hget : c.slots[i]? = some c.slots[i] := List.getElem?_eq_getElem hlt
      cases hr
      exact ⟨c.slots[i], hget, by simpa using hidle, by simp [hget], rfl⟩

theorem Control.Good.register (h : c.Good) {c' : Control} (hr : c.register = .ok (source, c')) :
    c'.Good := by
  obtain ⟨slot, hslot, hidle, _, rfl⟩ := Control.register_eq hr
  have hne : ∀ j, c.pending j = true → source.slot ≠ j := by
    rintro j hj rfl
    obtain ⟨slot', hs, hact⟩ := h.active _ hj
    rw [hslot, Option.some.injEq] at hs
    rw [← hs, hidle] at hact
    cases hact
  constructor
  · simpa [Control.pendingSlots] using h.count
  · intro j hj
    rw [List.getElem?_set_ne (hne j hj)]
    exact h.active j hj

/-- What unregistering a current source changes: its slot and its pending bit. -/
theorem Control.unregister_eq (c : Control) (source : ControlSource) :
    c.unregister source = c ∨
      (c.registered source = true ∧
        (c.unregister source).slots = c.slots.set source.slot ⟨false, source.generation + 1⟩ ∧
        (∀ i, i ≠ source.slot → (c.unregister source).pending i = c.pending i) ∧
        (c.unregister source).pendingCount ≤ c.pendingCount ∧
        (c.unregister source).activeCallbackSlot = c.activeCallbackSlot ∧
        (c.unregister source).phase = c.phase) := by
  unfold Control.unregister
  split
  · exact Or.inl rfl
  · rename_i hreg
    refine Or.inr ⟨by simpa using hreg, rfl, ?_, ?_, ?_, ?_⟩
    · intro i hi
      dsimp only
      split
      · exact update_of_ne hi _ _
      · rfl
    · dsimp only
      split
      · exact Nat.sub_le _ _
      · exact Nat.le_refl _
    · dsimp only
      split <;> rfl
    · dsimp only
      split <;> rfl

theorem Control.select_pendingSlots (c : Control) (budget : Nat) :
    (c.select budget).2.pendingSlots = c.pendingSlots.drop budget := by
  have hnd : c.pendingSlots.Nodup := Control.pendingSlots_nodup
  rw [← filter_not_mem_take hnd]
  simp only [Control.select, Control.pendingSlots, List.filter_filter]
  exact List.filter_congr (fun i _ => Bool.and_comm _ _)

theorem Control.Good.select (h : c.Good) (budget : Nat) : (c.select budget).2.Good := by
  constructor
  · rw [Control.select_pendingSlots, List.length_drop]
    simp only [Control.select, h.count, List.length_take]
    omega
  · intro i hi
    refine h.active i ?_
    simp only [Control.select, Bool.and_eq_true] at hi
    exact hi.1

end

/-! ## The dirty list and its counter -/

/-- The dirty list holds the dirty nodes of the registry, each once, and the counter its
    length. -/
structure Lifecycle.Good (l : Lifecycle) : Prop where
  count : l.pendingCount = l.dirty.length
  nodup : l.dirty.Nodup
  mem : ∀ id, id ∈ l.dirty ↔ ∃ n, l.node id = some n ∧ n.dirty = true
  used : ∀ id n, l.node id = some n → id < l.nextNodeId

section
variable {l : Lifecycle} {id : Nat} {n : Node} {source : LifecycleSource}

@[simp] theorem Lifecycle.setNode_self {n : Option Node} : (l.setNode id n).node id = n := by
  simp [Lifecycle.setNode]

theorem Lifecycle.setNode_ne {n : Option Node} {i : Nat} (h : i ≠ id) :
    (l.setNode id n).node i = l.node i := by
  simp [Lifecycle.setNode, update_of_ne h]

/-- A change of one node that keeps its dirty bit. -/
theorem Lifecycle.Good.setNode {l' : Lifecycle} (h : l.Good) (n' : Option Node)
    (hn : l.node id = some n) (hd : (∃ m, n' = some m ∧ m.dirty = true) ↔ n.dirty = true)
    (hnode : l'.node = (l.setNode id n').node) (hdirty : l'.dirty = l.dirty)
    (hcount : l'.pendingCount = l.pendingCount) (hnext : l'.nextNodeId = l.nextNodeId) : l'.Good := by
  constructor
  case count => rw [hcount, hdirty]; exact h.count
  case nodup => rw [hdirty]; exact h.nodup
  case mem =>
    intro i
    rw [hdirty, h.mem i, hnode]
    by_cases heq : i = id
    · subst heq
      rw [Lifecycle.setNode_self, hn]
      simp only [Option.some.injEq, exists_eq_left']
      exact hd.symm
    · rw [Lifecycle.setNode_ne heq]
  case used =>
    intro i m hi
    rw [hnext]
    by_cases heq : i = id
    · subst heq
      exact h.used i n hn
    · rw [hnode, Lifecycle.setNode_ne heq] at hi
      exact h.used i m hi

theorem Lifecycle.Good.enqueue (h : l.Good) (hn : l.node id = some n) (hd : n.dirty = false) :
    (l.enqueue id n).Good := by
  have hnot : id ∉ l.dirty := by
    intro hi
    obtain ⟨m, hm, hdirty⟩ := (h.mem id).mp hi
    rw [hn, Option.some.injEq] at hm
    subst hm
    rw [hd] at hdirty
    cases hdirty
  constructor
  case count => simp [Lifecycle.enqueue, h.count]
  case nodup =>
    simp only [Lifecycle.enqueue]
    exact List.nodup_append.mpr ⟨h.nodup, List.nodup_singleton _, by
      intro a ha b hb heq
      rw [List.mem_singleton.mp hb] at heq
      exact hnot (heq ▸ ha)⟩
  case mem =>
    intro i
    simp only [Lifecycle.enqueue, List.mem_append, List.mem_singleton]
    by_cases heq : i = id
    · subst heq
      simp
    · rw [Lifecycle.setNode_ne heq, ← h.mem i]
      simp [heq]
  case used =>
    intro i m hi
    by_cases heq : i = id
    · subst heq
      exact h.used i n hn
    · simp only [Lifecycle.enqueue] at hi
      rw [Lifecycle.setNode_ne heq] at hi
      exact h.used i m hi

/-- What an Accepted signal does: its node is attached with that generation, the phase lets
    it in, and a node that was not dirty joins the list at the cost of a wakeup. -/
theorem Lifecycle.signal_cases (l : Lifecycle) (caller : Caller) (source : LifecycleSource) :
    (l.signal caller source).1 ≠ .accepted ∨
      ∃ n, l.node source.id = some n ∧ n.attached = true ∧ n.generation = source.generation ∧
        l.phase ≠ .shutdown ∧
        (l.phase ≠ .running → caller = .owner ∧ l.activeNode = some source.id) ∧
        ((n.dirty = true ∧ l.signal caller source = (.accepted, false, l)) ∨
          (n.dirty = false ∧ l.signal caller source = (.accepted, true, l.enqueue source.id n))) := by
  unfold Lifecycle.signal
  cases hn : l.node source.id with
  | none => exact Or.inl (by simp)
  | some n =>
    dsimp only
    split
    · exact Or.inl (by simp)
    · rename_i hcur
      split
      · exact Or.inl (by simp)
      · rename_i hphase
        have hatt : n.attached = true := by
          by_contra hno
          exact hcur (Or.inl (by simpa using hno))
        have hgen : n.generation = source.generation := by
          by_contra hno
          exact hcur (Or.inr hno)
        refine Or.inr ⟨n, rfl, hatt, hgen, fun hp => hphase (Or.inl hp), ?_, ?_⟩
        · intro hrun
          have hself := mt (fun hno => hphase (Or.inr ⟨hrun, hno⟩)) (fun h => h)
          simp only [Bool.not_eq_false, Bool.and_eq_true, decide_eq_true_eq] at hself
          exact ⟨hself.1.1.2, hself.1.2⟩
        · cases hd : n.dirty with
          | true => exact Or.inl ⟨rfl, by simp⟩
          | false => exact Or.inr ⟨rfl, by simp⟩

theorem Lifecycle.Good.signal (h : l.Good) (caller : Caller) :
    (l.signal caller source).1 = .accepted → ((l.signal caller source).2.2).Good := by
  intro hacc
  rcases l.signal_cases caller source with hno | ⟨n, hn, _, _, _, _, ⟨_, heq⟩ | ⟨hd, heq⟩⟩
  · exact absurd hacc hno
  · rw [heq]; exact h
  · rw [heq]; exact h.enqueue hn hd

theorem Lifecycle.Good.attach (h : l.Good) {notifyOnQuiesce : Bool} {l' : Lifecycle}
    (ha : l.attach notifyOnQuiesce = .ok (source, l')) : l'.Good := by
  unfold Lifecycle.attach at ha
  split at ha
  · cases ha
  · split at ha
    · cases ha
    · cases ha
      have hnew : l.node l.nextNodeId = none := by
        cases hn : l.node l.nextNodeId with
        | none => rfl
        | some n => exact absurd (h.used _ n hn) (Nat.lt_irrefl _)
      constructor
      case count => exact h.count
      case nodup => exact h.nodup
      case mem =>
        intro i
        refine (h.mem i).trans ?_
        dsimp only
        by_cases heq : i = l.nextNodeId
        · subst heq
          simp [hnew]
        · rw [Lifecycle.setNode_ne heq]
      case used =>
        intro i m hi
        by_cases heq : i = l.nextNodeId
        · exact heq ▸ Nat.lt_succ_self _
        · rw [Lifecycle.setNode_ne heq] at hi
          exact Nat.lt_succ_of_lt (h.used i m hi)

theorem Lifecycle.detach_dirty (l : Lifecycle) (source : LifecycleSource) :
    (l.detach source).dirty = l.dirty := by
  unfold Lifecycle.detach
  split
  · rfl
  · split
    · rfl
    · dsimp only
      split <;> rfl

theorem Lifecycle.Good.detach (h : l.Good) : (l.detach source).Good := by
  unfold Lifecycle.detach
  split
  · exact h
  · rename_i n hn
    split
    · exact h
    · dsimp only
      split
      · rename_i hidle
        exact h.setNode none hn (by simp [hidle.1]) rfl rfl rfl rfl
      · exact h.setNode (some _) hn (by simp) rfl rfl rfl rfl

/-- Marking a node loses no dirty node. -/
theorem Lifecycle.Good.markOne (h : l.Good) (id : Nat) : (l.markOne id).Good ∧
    (∀ i ∈ l.dirty, i ∈ (l.markOne id).dirty) ∧ (l.markOne id).activeNode = l.activeNode := by
  unfold Lifecycle.markOne
  split
  · exact ⟨h, fun _ hi => hi, rfl⟩
  · rename_i n hn
    split
    · exact ⟨h, fun _ hi => hi, rfl⟩
    · rename_i hno
      exact ⟨h.enqueue hn (by simpa using fun hd => hno (Or.inr hd)),
        fun _ hi => List.mem_append_left _ hi, rfl⟩

theorem Lifecycle.Good.markQuiesce (h : l.Good) : l.markQuiesce.Good ∧
    (∀ i ∈ l.dirty, i ∈ l.markQuiesce.dirty) ∧ l.markQuiesce.activeNode = l.activeNode := by
  unfold Lifecycle.markQuiesce
  generalize l.quiesce = ids
  induction ids generalizing l with
  | nil => exact ⟨h, fun i hi => hi, rfl⟩
  | cons id rest ih =>
    obtain ⟨hgood, hmem, hact⟩ := h.markOne id
    obtain ⟨hgood', hmem', hact'⟩ := ih hgood
    exact ⟨hgood', fun i hi => hmem' i (hmem i hi), hact'.trans hact⟩

/-- The head of the dirty list is in the registry, and the rest stays dirty. -/
theorem Lifecycle.Good.pop {rest : List Nat} (h : l.Good) (hd : l.dirty = id :: rest) :
    ∃ l', l.pop id rest = some l' ∧ l'.Good ∧ l'.dirty = rest ∧ l'.activeNode = some id ∧
      l'.phase = l.phase := by
  obtain ⟨n, hn, hdirty⟩ := (h.mem id).mp (by rw [hd]; exact .head _)
  have hnd := h.nodup
  rw [hd] at hnd
  obtain ⟨hnot, hrest⟩ := List.nodup_cons.mp hnd
  obtain ⟨l', hp⟩ : ∃ l', l.pop id rest = some l' := by
    unfold Lifecycle.pop
    rw [hn]
    exact ⟨_, rfl⟩
  refine ⟨l', hp, ?_⟩
  unfold Lifecycle.pop at hp
  rw [hn] at hp
  cases hp
  refine ⟨?_, rfl, rfl, rfl⟩
  constructor
  case count =>
    have hc := h.count
    rw [hd, List.length_cons] at hc
    dsimp only
    omega
  case nodup => exact hrest
  case mem =>
    intro i
    by_cases heq : i = id
    · subst heq
      simp [hnot]
    · rw [Lifecycle.setNode_ne heq, ← h.mem i, hd]
      simp [heq]
  case used =>
    intro i m hi
    by_cases heq : i = id
    · subst heq
      exact h.used i n hn
    · rw [Lifecycle.setNode_ne heq] at hi
      exact h.used i m hi

theorem Lifecycle.finish_eq (l : Lifecycle) (id : Nat) : (l.finish id).dirty = l.dirty ∧
    (l.finish id).phase = l.phase ∧ (l.finish id).pendingCount = l.pendingCount ∧
    ∀ i, (l.finish id).activeNode = some i → l.activeNode = some i ∧ i ≠ id := by
  unfold Lifecycle.finish
  by_cases hact : l.activeNode = some id
  · simp only [if_pos hact]
    split
    · exact ⟨rfl, rfl, rfl, fun i hi => by cases hi⟩
    · split <;> exact ⟨rfl, rfl, rfl, fun i hi => by cases hi⟩
  · have hne : ∀ i, l.activeNode = some i → l.activeNode = some i ∧ i ≠ id :=
      fun i hi => ⟨hi, fun heq => hact (heq ▸ hi)⟩
    simp only [if_neg hact]
    split
    · exact ⟨rfl, rfl, rfl, hne⟩
    · split <;> exact ⟨rfl, rfl, rfl, hne⟩

theorem Lifecycle.Good.finish (h : l.Good) : (l.finish id).Good := by
  unfold Lifecycle.finish
  dsimp only
  split
  · split
    · exact ⟨h.count, h.nodup, h.mem, h.used⟩
    · exact h
  · rename_i n hn
    split
    · rename_i hidle
      split <;> exact h.setNode none hn (by simp [hidle.2]) rfl rfl rfl rfl
    · split <;> exact h.setNode (some _) hn (by simp) rfl rfl rfl rfl

end

end GameNet.EventLoop
