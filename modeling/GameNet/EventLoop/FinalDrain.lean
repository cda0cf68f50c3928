import GameNet.EventLoop.Loop

/- The final drain of an EventLoop: what was admitted is run before Shutdown is
   published, and nothing is admitted afterwards.

   Each position of `loop()` carries what has been checked on the way to it
   (`Checked`), the batch and the words it still holds, and the callback whose
   source may re-arm itself while the planes drain. `Inv` ties these to the planes;
   `move` is the case of a step that changes the position alone. -/
namespace GameNet.EventLoop

/-! ## What a position holds -/

/-- The functors taken from the queue and not yet started. -/
def Pc.batch : Pc → List Nat
  | .functorMetric _ batch | .functorNext _ batch | .functorCall _ batch => batch
  | _ => []

/-- The selected control slots that have not been called yet. -/
def Pc.words : Pc → List Nat
  | .controlNext _ words | .controlCall _ _ words | .controlHandler _ words => words
  | _ => []

/-- The control slot whose callback is running. -/
def Pc.controlSlot : Pc → Option Nat
  | .controlCall _ slot _ => some slot
  | _ => none

/-- The lifecycle node whose callback is running. -/
def Pc.lifecycleNode : Pc → Option Nat
  | .lifecycleCall _ _ _ id => some id
  | _ => none

/-- The loop a position belongs to. -/
def Pc.stage : Pc → Stage
  | .top st | .wait st _ | .waitMetric st | .dispatch st | .dispatchLoop st _ | .handling st _ _
  | .dispatchMetric st _ | .condControl st | .controlStart st | .controlNext st _
  | .controlCall st _ _ | .controlHandler st _ | .controlMetric st _ | .condLifecycle st
  | .lifecycleStart st | .lifecycleNext st _ _ | .lifecycleCall st _ _ _ | .lifecycleHandler st _ _
  | .lifecycleMetric st _ | .condFunctors st | .functorStart st | .functorMetric st _
  | .functorNext st _ | .functorCall st _ | .functorEnd st | .checkFunctors st | .checkControl st
  | .checkLifecycle st | .checkActive st | .publish st => st
  | .readPending => .quiescing false
  | .finished => .finalDraining
  | .outside | .pollControl | .pollLifecycle | .pollTimers | .timers => .running

/-- The positions that only a draining loop reaches. -/
def Pc.late : Pc → Bool
  | .readPending | .condControl _ | .condLifecycle _ | .condFunctors _ | .checkFunctors _
  | .checkControl _ | .checkLifecycle _ | .checkActive _ | .publish _ | .finished => true
  | pc => decide (pc.stage ≠ .running)

/-- What the checks on the way to a position have found. -/
def Checked (s : State) : Pc → Prop
  | .checkControl _ => s.executor.pendingFunctors = []
  | .checkLifecycle _ => s.executor.pendingFunctors = [] ∧ s.control.pendingCount = 0
  | .checkActive _ | .publish _ | .finished =>
    s.executor.pendingFunctors = [] ∧ s.control.pendingCount = 0 ∧ s.lifecycle.pendingCount = 0
  | _ => True

structure Inv (s : State) : Prop where
  control : s.control.Good
  lifecycle : s.lifecycle.Good
  fifo : s.admitted = s.started ++ s.pc.batch ++ s.executor.pendingFunctors
  notified : ∀ source, Machine.Owed (· = .notified source) (· = .controlRan source) s.log →
    s.control.registered source = true → s.control.pending source.slot = true ∨ source.slot ∈ s.pc.words
  signaled : ∀ id, Machine.Owed (· = .signaled id) (· = .lifecycleRan id) s.log → id ∈ s.lifecycle.dirty
  known : ∀ source, .notified source ∈ s.log →
    ∃ slot, s.control.slots[source.slot]? = some slot ∧ source.generation ≤ slot.generation
  rearm : ∀ slot, s.control.activeCallbackSlot = some slot → s.pc.controlSlot = some slot
  resignal : ∀ id, s.lifecycle.activeNode = some id → s.pc.lifecycleNode = some id
  late : s.pc.late = true → s.quit = true
  closed : s.quit = true → s.executor.accepting = false ∧ s.control.phase ≠ .accepting ∧
    s.lifecycle.phase ≠ .running
  planes : s.control.phase = .accepting ↔ s.lifecycle.phase = .running
  checked : Checked s s.pc
  shut : s.phase = .shutdown → s.pc = .finished ∧ s.control.phase = .shutdown ∧
    s.lifecycle.phase = .shutdown

theorem initial_inv (o : Options) : Inv (initial o) := by
  constructor
  case control =>
    constructor
    · simp [initial, Control.pendingSlots]
    · simp [initial]
  case lifecycle => constructor <;> simp [initial]
  all_goals simp [initial, Pc.batch, Pc.late, Pc.stage, Machine.Owed, Checked]

section
variable {o : Options} {maxNotices : Nat} {s s' : State} {l : Label}

/-- The planes and the logs of `s'` are those of `s`. -/
structure SamePlanes (s s' : State) : Prop where
  control : s'.control = s.control
  lifecycle : s'.lifecycle = s.lifecycle
  pendingFunctors : s'.executor.pendingFunctors = s.executor.pendingFunctors
  accepting : s.executor.accepting = false → s'.executor.accepting = false
  admitted : s'.admitted = s.admitted
  started : s'.started = s.started
  log : s'.log = s.log
  quit : s'.quit = s.quit
  phase : s'.phase = s.phase

variable {pc : Pc}

/-- A plane that changes nothing `Checked` looks at. -/
theorem Checked.congr (h : Checked s pc)
    (he : s'.executor.pendingFunctors = s.executor.pendingFunctors)
    (hc : s'.control.pendingCount = s.control.pendingCount)
    (hl : s'.lifecycle.pendingCount = s.lifecycle.pendingCount) : Checked s' pc := by
  cases pc <;> simp only [Checked, he, hc, hl] at h ⊢ <;> exact h

variable {pc₀ pc' : Pc}

/-- A step from position `pc₀` to `pc'` that leaves the planes alone. -/
theorem Inv.move (h : Inv s) (h₀ : s.pc = pc₀) (hp : SamePlanes s s')
    (hpc : s'.pc = pc') (hbatch : pc'.batch = pc₀.batch) (hwords : ∀ i ∈ pc₀.words, i ∈ pc'.words)
    (hslot : pc₀.controlSlot = none ∨ pc'.controlSlot = pc₀.controlSlot)
    (hnode : pc₀.lifecycleNode = none ∨ pc'.lifecycleNode = pc₀.lifecycleNode)
    (hlate : pc'.late = true → pc₀.late = true ∨ s.quit = true) (hchk : Checked s pc')
    (hfin : pc₀ = .finished → pc' = .finished) : Inv s' := by
  subst h₀ hpc
  constructor
  case control => rw [hp.control]; exact h.control
  case lifecycle => rw [hp.lifecycle]; exact h.lifecycle
  case fifo => rw [hp.admitted, hp.started, hp.pendingFunctors, hbatch]; exact h.fifo
  case notified =>
    intro source howed hreg
    rw [hp.log] at howed
    rw [hp.control] at hreg ⊢
    exact (h.notified source howed hreg).imp id (hwords _)
  case signaled => intro id howed; rw [hp.log] at howed; rw [hp.lifecycle]; exact h.signaled id howed
  case known => rw [hp.log, hp.control]; exact h.known
  case rearm =>
    intro slot hs
    rw [hp.control] at hs
    have hslot' := h.rearm slot hs
    rcases hslot with hno | heq
    · rw [hno] at hslot'; cases hslot'
    · rw [heq]; exact hslot'
  case resignal =>
    intro id hs
    rw [hp.lifecycle] at hs
    have hnode' := h.resignal id hs
    rcases hnode with hno | heq
    · rw [hno] at hnode'; cases hnode'
    · rw [heq]; exact hnode'
  case late => rw [hp.quit]; exact fun hl => (hlate hl).elim h.late id
  case closed =>
    rw [hp.quit, hp.control, hp.lifecycle]
    exact fun hq => ⟨hp.accepting (h.closed hq).1, (h.closed hq).2⟩
  case planes => rw [hp.control, hp.lifecycle]; exact h.planes
  case checked =>
    exact hchk.congr hp.pendingFunctors (by rw [hp.control]) (by rw [hp.lifecycle])
  case shut =>
    rw [hp.phase, hp.control, hp.lifecycle]
    intro hs
    exact ⟨hfin (h.shut hs).1, (h.shut hs).2⟩

/-- A position that holds neither a batch nor a running callback. -/
def Pc.Plain (pc : Pc) : Prop :=
  pc.batch = [] ∧ pc.words = [] ∧ pc.controlSlot = none ∧ pc.lifecycleNode = none ∧ pc ≠ .finished

/-- A step that leaves the position and the planes alone. -/
theorem Inv.same (h : Inv s) (hp : SamePlanes s s') (hpc : s'.pc = s.pc) : Inv s' :=
  h.move rfl hp hpc rfl (fun _ hi => hi) (Or.inr rfl) (Or.inr rfl) Or.inl h.checked id

theorem samePlanes_refl : SamePlanes s s := ⟨rfl, rfl, rfl, id, rfl, rfl, rfl, rfl, rfl⟩

/-- The test for a plain position. -/
def Pc.clear : Pc → Bool
  | .finished => false
  | pc => pc.batch.isEmpty && pc.words.isEmpty && pc.controlSlot.isNone && pc.lifecycleNode.isNone

theorem Pc.plain_of_clear {pc : Pc} (h : pc.clear = true) : pc.Plain := by
  cases pc <;> simp_all [Pc.clear, Pc.Plain]

/-- A step from a plain position that leaves the planes alone. -/
theorem Inv.next {pc₀ : Pc} (h : Inv s) (h₀ : s.pc = pc₀) (hclear : pc₀.clear = true)
    (hp : SamePlanes s s') (hbatch : s'.pc.batch = [])
    (hlate : s'.pc.late = true → pc₀.late = true ∨ s.quit = true) (hchk : Checked s s'.pc) : Inv s' := by
  obtain ⟨hb, hw, hs, hn, hf⟩ := Pc.plain_of_clear hclear
  exact h.move h₀ hp rfl (hbatch.trans hb.symm) (by simp [hw]) (Or.inl hs) (Or.inl hn) hlate hchk
    (fun hfin => absurd hfin hf)

/-- Such a step that changes the position and the Channels alone. -/
theorem Inv.goto {c : Channels} (h : Inv s) (h₀ : s.pc = pc₀)
    (hclear : pc₀.clear = true) (hbatch : pc'.batch = []) (hlate : pc'.late = true → pc₀.late = true)
    (hchk : Checked s pc') : Inv { s with channels := c, pc := pc' } :=
  h.next h₀ hclear { samePlanes_refl with } hbatch (fun hl => Or.inl (hlate hl)) hchk

/-- A test of a draining loop decides where it goes on. -/
theorem Inv.test {P : Prop} [Decidable P] {pc₀ pc₁ pc₂ : Pc} (h : Inv s) (h₀ : s.pc = pc₀)
    (hclear : pc₀.clear = true) (hlate : pc₀.late = true) (hbatch : pc₁.batch = [] ∧ pc₂.batch = [])
    (h₁ : Checked s pc₁) (h₂ : ¬P → Checked s pc₂) : Inv { s with pc := if P then pc₁ else pc₂ } := by
  by_cases hP : P
  · rw [if_pos hP]
    exact h.goto h₀ hclear hbatch.1 (fun _ => hlate) h₁
  · rw [if_neg hP]
    exact h.goto h₀ hclear hbatch.2 (fun _ => hlate) (h₂ hP)

theorem samePlanes_wake {needed : Bool} : SamePlanes s (s.wake caller needed) := by
  constructor <;> simp

theorem samePlanes_wakeIf {n : Nat} : SamePlanes s { s.wakeIf n with pc := pc } := by
  constructor <;> simp [State.wakeIf]

theorem Inv.wake {needed : Bool} (h : Inv s) : Inv (s.wake caller needed) :=
  h.same samePlanes_wake (by simp)

/-! ## Calls -/

theorem checked_of_not_late (h : pc.late ≠ true) : Checked s pc := by
  cases pc <;> trivial

theorem checked_of_controlSlot {slot : Nat} (h : pc.controlSlot = some slot) :
    Checked s pc := by
  cases pc <;> trivial

theorem checked_of_lifecycleNode {id : Nat} (h : pc.lifecycleNode = some id) :
    Checked s pc := by
  cases pc <;> trivial

theorem Inv.postFunctor {kind : Admission} {cb : Option Nat} (h : Inv s) :
    Inv (s.postFunctor o.toEventLoopOptions caller kind cb).2 := by
  unfold State.postFunctor
  rcases s.executor.postFunctor_cases o.toEventLoopOptions kind cb with hno | ⟨f, rfl, hacc, heq⟩
  · simp only [if_neg hno]
    exact h
  · simp only [heq, if_true]
    have hopen : s.quit ≠ true := fun hq => by
      rw [(h.closed hq).1] at hacc
      cases hacc
    refine Inv.wake ?_
    exact
      { h with
        fifo := by simp [h.fifo]
        closed := fun hq => absurd hq hopen
        checked := checked_of_not_late (fun hl => hopen (h.late hl)) }

variable {source : ControlSource}

theorem Inv.notify (h : Inv s) :
    Inv (s.notify caller source).2 := by
  unfold State.notify
  by_cases hacc : (s.control.notify caller source).1 = .accepted
  · have hgood := h.control.notify caller hacc
    rcases s.control.notify_cases caller source with hno | ⟨hreg, hshut, hdrain, hcase⟩
    · exact absurd hacc hno
    simp only [if_pos hacc]
    refine Inv.wake ?_
    have hslot := Control.registered_iff.mp hreg
    -- the plane after the call: the slot is pending, and nothing else has changed
    obtain ⟨hpend, hmono, hslots, hact, hphase⟩ :
        (s.control.notify caller source).2.2.pending source.slot = true ∧
        (∀ i, s.control.pending i = true → (s.control.notify caller source).2.2.pending i = true) ∧
        (s.control.notify caller source).2.2.slots = s.control.slots ∧
        (s.control.notify caller source).2.2.activeCallbackSlot = s.control.activeCallbackSlot ∧
        (s.control.notify caller source).2.2.phase = s.control.phase := by
      rcases hcase with ⟨hset, heq⟩ | ⟨_, heq⟩ <;> rw [heq]
      · exact ⟨hset, fun _ hi => hi, rfl, rfl, rfl⟩
      · refine ⟨by simp, fun i hi => ?_, rfl, rfl, rfl⟩
        by_cases hi' : i = source.slot
        · simp [hi']
        · simpa [Function.update_of_ne hi'] using hi
    refine
      { h with
        control := hgood
        notified := ?_
        signaled := fun id howed => h.signaled id ?_
        known := ?_
        rearm := fun slot hs => h.rearm slot (hact ▸ hs)
        closed := fun hq => ⟨(h.closed hq).1, hphase ▸ (h.closed hq).2.1, (h.closed hq).2.2⟩
        planes := hphase ▸ h.planes
        checked := ?_
        shut := fun hs => absurd (h.shut hs).2.1 hshut }
    · rintro src ⟨_, hreq | howed⟩ hreg'
      · cases hreq
        exact Or.inl hpend
      · refine (h.notified src howed ?_).imp (hmono _) id
        rw [Control.registered_iff] at hreg' ⊢
        exact hslots ▸ hreg'
    · obtain ⟨_, hreq | howed⟩ := howed
      · cases hreq
      · exact howed
    · intro src hsrc
      rw [hslots]
      rcases List.mem_cons.mp hsrc with heq | hsrc
      · cases heq
        exact ⟨_, hslot, Nat.le_refl _⟩
      · exact h.known src hsrc
    · by_cases hl : s.pc.late = true
      · -- while the planes drain only the source whose callback runs is let in
        have hd : s.control.phase = .draining := by
          have hne := (h.closed (h.late hl)).2.1
          cases hp : s.control.phase with
          | accepting => exact absurd hp hne
          | draining => rfl
          | shutdown => exact absurd hp hshut
        exact checked_of_controlSlot (h.rearm _ (hdrain hd).2)
      · exact checked_of_not_late hl
  · simp only [if_neg hacc]
    exact h

theorem Inv.signal {source : LifecycleSource} (h : Inv s) :
    Inv (s.signal caller source).2 := by
  unfold State.signal
  by_cases hacc : (s.lifecycle.signal caller source).1 = .accepted
  · have hgood := h.lifecycle.signal caller hacc
    rcases s.lifecycle.signal_cases caller source with hno | ⟨n, hn, _, _, hshut, hdrain, hcase⟩
    · exact absurd hacc hno
    simp only [if_pos hacc]
    refine Inv.wake ?_
    obtain ⟨hmem, hmono, hact, hphase⟩ :
        source.id ∈ (s.lifecycle.signal caller source).2.2.dirty ∧
        (∀ i ∈ s.lifecycle.dirty, i ∈ (s.lifecycle.signal caller source).2.2.dirty) ∧
        (s.lifecycle.signal caller source).2.2.activeNode = s.lifecycle.activeNode ∧
        (s.lifecycle.signal caller source).2.2.phase = s.lifecycle.phase := by
      rcases hcase with ⟨hset, heq⟩ | ⟨_, heq⟩ <;> rw [heq]
      · exact ⟨(h.lifecycle.mem _).mpr ⟨n, hn, hset⟩, fun _ hi => hi, rfl, rfl⟩
      · exact ⟨List.mem_append_right _ (List.mem_singleton_self _),
          fun i hi => List.mem_append_left _ hi, rfl, rfl⟩
    refine
      { h with
        lifecycle := hgood
        notified := fun src howed hreg => h.notified src ?_ hreg
        signaled := ?_
        known := fun src hsrc => h.known src (by simpa using hsrc)
        resignal := fun id hs => h.resignal id (hact ▸ hs)
        closed := fun hq => ⟨(h.closed hq).1, (h.closed hq).2.1, hphase ▸ (h.closed hq).2.2⟩
        planes := hphase ▸ h.planes
        checked := ?_
        shut := fun hs => absurd (h.shut hs).2.2 hshut }
    · obtain ⟨_, hreq | howed⟩ := howed
      · cases hreq
      · exact howed
    · rintro id ⟨_, hreq | howed⟩
      · cases hreq
        exact hmem
      · exact hmono id (h.signaled id howed)
    · by_cases hl : s.pc.late = true
      · exact checked_of_lifecycleNode (h.resignal _ (hdrain (h.closed (h.late hl)).2.2).2)
      · exact checked_of_not_late hl
  · simp only [if_neg hacc]
    exact h

theorem Inv.quitLoop (h : Inv s) : Inv (s.quitLoop caller) := by
  unfold State.quitLoop
  dsimp only
  split
  · rename_i hshut
    have hclosed : s.control.phase ≠ .accepting ∧ s.lifecycle.phase ≠ .running := by
      rcases hshut with hc | hl
      · exact ⟨by rw [hc]; simp, fun hl => by simp [h.planes.mpr hl] at hc⟩
      · exact ⟨fun hc => by simp [h.planes.mp hc] at hl, by rw [hl]; simp⟩
    exact
      { h with
        late := fun _ => rfl
        closed := fun _ => ⟨rfl, hclosed⟩
        checked := h.checked.congr rfl rfl rfl }
  · split
    · rename_i hrun
      exact
        { h with
          late := fun _ => rfl
          closed := fun _ => ⟨rfl, fun hc => hrun (h.planes.mp hc), hrun⟩
          checked := h.checked.congr rfl rfl rfl }
    · rename_i hrun
      have hopen : s.quit ≠ true := fun hq => (h.closed hq).2.2 (by simpa using hrun)
      obtain ⟨hgood, hmem, hact⟩ := h.lifecycle.markQuiesce
      refine Inv.wake ?_
      exact
        { h with
          control := ⟨h.control.count, h.control.active⟩
          lifecycle := { hgood with }
          signaled := fun id howed => hmem id (h.signaled id howed)
          resignal := fun id hs => h.resignal id (hact ▸ hs)
          late := fun _ => rfl
          closed := fun _ => ⟨rfl, by simp, by simp⟩
          planes := by simp
          checked := checked_of_not_late (fun hl => hopen (h.late hl))
          shut := by simp }

theorem Inv.register {c : Control} (h : Inv s)
    (hr : s.control.register = .ok (source, c)) : Inv { s with control := c } := by
  have hgood := h.control.register hr
  obtain ⟨slot, hslot, _, hgen, rfl⟩ := Control.register_eq hr
  refine { h with control := hgood, notified := ?_, known := ?_, checked := h.checked.congr rfl rfl rfl }
  · intro src howed hreg
    by_cases heq : source.slot = src.slot
    · -- nothing in the log carries the generation that has just been issued
      obtain ⟨e, he, rfl⟩ := howed.requested
      obtain ⟨slot', hs, hle⟩ := h.known src he
      rw [← heq, hslot, Option.some.injEq] at hs
      subst hs
      have hlt : src.slot < s.control.slots.length := heq ▸ (List.getElem?_eq_some_iff.mp hslot).1
      rw [Control.registered_iff] at hreg
      simp only [heq, List.getElem?_set_self hlt, Option.some.injEq, Slot.mk.injEq, true_and] at hreg
      omega
    · refine h.notified src howed ?_
      rw [Control.registered_iff] at hreg ⊢
      rwa [List.getElem?_set_ne heq] at hreg
  · intro src hsrc
    obtain ⟨slot', hs, hle⟩ := h.known src hsrc
    by_cases heq : source.slot = src.slot
    · rw [← heq, hslot, Option.some.injEq] at hs
      subst hs
      have hlt : source.slot < s.control.slots.length := (List.getElem?_eq_some_iff.mp hslot).1
      refine ⟨_, by rw [← heq, List.getElem?_set_self hlt], ?_⟩
      dsimp only
      omega
    · exact ⟨slot', by rw [List.getElem?_set_ne heq]; exact hs, hle⟩

theorem Inv.unregister (h : Inv s) :
    Inv { s with control := s.control.unregister source } := by
  rcases s.control.unregister_eq source with heq | ⟨hreg, hslots, hpend, hcount, hact, hphase⟩
  · exact h.same { samePlanes_refl with control := heq } rfl
  · have hslot := Control.registered_iff.mp hreg
    have hlt : source.slot < s.control.slots.length := (List.getElem?_eq_some_iff.mp hslot).1
    refine
      { h with
        control := h.control.unregister
        notified := ?_
        known := ?_
        rearm := fun slot hs => h.rearm slot (hact ▸ hs)
        closed := fun hq => ⟨(h.closed hq).1, hphase ▸ (h.closed hq).2.1, (h.closed hq).2.2⟩
        planes := hphase ▸ h.planes
        checked := ?_
        shut := fun hs => ⟨(h.shut hs).1, hphase.trans (h.shut hs).2.1, (h.shut hs).2.2⟩ }
    · intro src howed hreg'
      have hne : source.slot ≠ src.slot := by
        intro heq
        rw [Control.registered_iff] at hreg'
        simp only [hslots, heq, List.getElem?_set_self (heq ▸ hlt)] at hreg'
        simp at hreg'
      have hold : s.control.registered src = true := by
        rw [Control.registered_iff] at hreg' ⊢
        rwa [hslots, List.getElem?_set_ne hne] at hreg'
      exact (h.notified src howed hold).imp (fun hp => (hpend _ (Ne.symm hne)).trans hp) id
    · intro src hsrc
      obtain ⟨slot', hs, hle⟩ := h.known src hsrc
      rw [hslots]
      by_cases heq : source.slot = src.slot
      · rw [← heq, hslot, Option.some.injEq] at hs
        subst hs
        exact ⟨_, by rw [← heq, List.getElem?_set_self hlt], Nat.le_succ_of_le hle⟩
      · exact ⟨slot', by rw [List.getElem?_set_ne heq]; exact hs, hle⟩
    · have hchk := h.checked
      have hzero : s.control.pendingCount = 0 → (s.control.unregister source).pendingCount = 0 :=
        fun h0 => by omega
      cases hp : s.pc <;> simp only [hp, Checked] at hchk ⊢
      case checkControl => exact hchk
      case checkLifecycle => exact ⟨hchk.1, hzero hchk.2⟩
      case checkActive | publish | finished => exact ⟨hchk.1, hzero hchk.2.1, hchk.2.2⟩

theorem Inv.attach {b : Bool} {source : LifecycleSource} {lc : Lifecycle} (h : Inv s)
    (ha : s.lifecycle.attach b = .ok (source, lc)) : Inv { s with lifecycle := lc } := by
  have hgood := h.lifecycle.attach ha
  unfold Lifecycle.attach at ha
  split at ha
  · cases ha
  · split at ha
    · cases ha
    · cases ha
      exact
        { h with
          lifecycle := hgood
          checked := h.checked.congr rfl rfl rfl }

theorem Inv.detach {source : LifecycleSource} (h : Inv s) :
    Inv { s with lifecycle := s.lifecycle.detach source } := by
  have hd := s.lifecycle.detach_dirty source
  obtain ⟨hact, hphase⟩ : (s.lifecycle.detach source).activeNode = s.lifecycle.activeNode ∧
      (s.lifecycle.detach source).phase = s.lifecycle.phase := by
    unfold Lifecycle.detach
    split
    · exact ⟨rfl, rfl⟩
    · split
      · exact ⟨rfl, rfl⟩
      · dsimp only
        split <;> exact ⟨rfl, rfl⟩
  have hcount : (s.lifecycle.detach source).pendingCount = s.lifecycle.pendingCount := by
    rw [h.lifecycle.detach.count, hd, h.lifecycle.count]
  exact
    { h with
      lifecycle := h.lifecycle.detach
      signaled := fun id howed => hd ▸ h.signaled id howed
      resignal := fun id hs => h.resignal id (hact ▸ hs)
      closed := fun hq => ⟨(h.closed hq).1, (h.closed hq).2.1, hphase ▸ (h.closed hq).2.2⟩
      planes := hphase ▸ h.planes
      checked := h.checked.congr rfl rfl hcount
      shut := fun hs => ⟨(h.shut hs).1, (h.shut hs).2.1, hphase.trans (h.shut hs).2.2⟩ }

/-! ## Steps of the loop -/

variable {st : Stage}

theorem Inv.advanceTop (h : Inv s) (hpc : s.pc = .top st) : Inv (s.advanceTop st) := by
  cases st with
  | running =>
    simp only [State.advanceTop]
    split
    · rename_i hq
      exact h.next hpc rfl { samePlanes_refl with accepting := fun _ => rfl } rfl (fun _ => Or.inr hq) trivial
    · split
      · exact h.goto hpc rfl rfl id trivial
      · exact h.goto hpc rfl rfl id trivial
  | quiescing b =>
    simp only [State.advanceTop]
    split
    · exact h.goto hpc rfl rfl id trivial
    · exact h.goto hpc rfl rfl id trivial
  | finalDraining =>
    simp only [State.advanceTop]
    split
    · exact h.goto hpc rfl rfl id trivial
    · split
      · exact h.goto hpc rfl rfl id trivial
      · exact h.goto hpc rfl rfl id trivial

/-- The dispatch and its end touch the Channels alone. -/
theorem afterDispatch_spec (st : Stage) : st.afterDispatch.batch = [] ∧
    (st.afterDispatch.late = true → decide (st ≠ .running) = true) ∧ Checked s st.afterDispatch := by
  cases st <;> simp [Stage.afterDispatch, Pc.batch, Pc.late, Pc.stage, Checked]

theorem Inv.advanceDispatch (h : Inv s) (hpc : s.pc = .dispatch st)
    (hs : s.advanceDispatch st = some s') : Inv s' := by
  obtain ⟨hbatch, hlate, hchk⟩ := afterDispatch_spec (s := s) st
  unfold State.advanceDispatch at hs
  split at hs
  · cases hs
    exact h.goto hpc rfl hbatch hlate hchk
  · obtain ⟨c, _, rfl⟩ := Option.map_eq_some_iff.mp hs
    exact h.goto hpc rfl rfl id trivial

theorem Inv.advanceDispatchLoop {drained : Nat} (h : Inv s)
    (hpc : s.pc = .dispatchLoop st drained) :
    Inv (s.advanceDispatchLoop o.toEventLoopOptions st drained) := by
  unfold State.advanceDispatchLoop
  dsimp only
  split
  · split
    · exact h.goto hpc rfl rfl id trivial
    · exact h.same { samePlanes_refl with } rfl
    · exact h.goto hpc rfl rfl id trivial
  · exact h.goto hpc rfl rfl id trivial

/-- The selection moves pending bits into the drain words. -/
theorem Inv.select (h : Inv s) (hpc : s.pc = .controlStart st) (budget : Nat) {pc' : Pc}
    (hwords : ∀ i ∈ (s.control.select budget).1, i ∈ pc'.words) (hbatch : pc'.batch = [])
    (hlate : pc'.late = true → s.pc.late = true) (hchk : ∀ s, Checked s pc') :
    Inv { s with control := (s.control.select budget).2, pc := pc' } := by
  have hslot : s.control.activeCallbackSlot = none := by
    cases hs : s.control.activeCallbackSlot with
    | none => rfl
    | some slot => simpa [hpc, Pc.controlSlot] using h.rearm slot hs
  have hnode : s.lifecycle.activeNode = none := by
    cases hs : s.lifecycle.activeNode with
    | none => rfl
    | some id => simpa [hpc, Pc.lifecycleNode] using h.resignal id hs
  constructor
  case control => exact h.control.select budget
  case lifecycle => exact h.lifecycle
  case fifo =>
    have hf := h.fifo
    rw [hpc] at hf
    rw [hbatch]
    exact hf
  case notified =>
    intro source howed hreg
    have hp : s.control.pending source.slot = true := by
      simpa [hpc, Pc.words] using h.notified source howed hreg
    by_cases hsel : source.slot ∈ (s.control.select budget).1
    · exact Or.inr (hwords _ hsel)
    · left
      simp only [Control.select] at hsel ⊢
      simp [hp, hsel]
  case signaled => exact h.signaled
  case known => exact h.known
  case rearm => simp [Control.select, hslot]
  case resignal => simp [hnode]
  case late => exact fun hl => h.late (hlate hl)
  case closed => exact h.closed
  case planes => exact h.planes
  case checked => exact hchk _
  case shut =>
    intro hs
    have hfin := (h.shut hs).1
    rw [hpc] at hfin
    cases hfin

/-- One slot of the drain words is called, or passed over because it was unregistered. -/
theorem Inv.advanceControl {slot : Nat} {words : List Nat} (h : Inv s)
    (hpc : s.pc = .controlNext st (slot :: words)) : Inv (s.advanceControl st slot words) := by
  have hfin : s.phase ≠ .shutdown := fun hs => by simpa [hpc] using (h.shut hs).1
  have hlate : decide (st ≠ .running) = true → s.quit = true := fun hl => h.late (by rw [hpc]; exact hl)
  have hnode : ∀ id, s.lifecycle.activeNode = some id → False := by
    intro id hs
    simpa [hpc, Pc.lifecycleNode] using h.resignal id hs
  have hskip : (∀ g, s.control.registered ⟨slot, g⟩ = false) →
      Inv { s with pc := .controlNext st words } := by
    intro hno
    refine
      { h with
        fifo := by simpa [hpc, Pc.batch] using h.fifo
        notified := ?_
        rearm := fun i hs => by simpa [hpc, Pc.controlSlot] using h.rearm i hs
        resignal := fun id hs => (hnode id hs).elim
        late := hlate
        checked := trivial
        shut := fun hs => absurd hs hfin }
    intro source howed hreg
    refine (h.notified source howed hreg).imp id (fun hw => ?_)
    rw [hpc] at hw
    rcases List.mem_cons.mp hw with heq | hw
    · obtain ⟨i, g⟩ := source
      simp only at heq
      rw [heq, hno g] at hreg
      cases hreg
    · exact hw
  unfold State.advanceControl
  split
  · rename_i sl hsl
    split
    · rename_i hact
      refine
        { h with
          control := ⟨h.control.count, h.control.active⟩
          fifo := by simpa [hpc, Pc.batch] using h.fifo
          notified := ?_
          signaled := fun id howed => h.signaled id ?_
          known := fun src hsrc => h.known src (by simpa using hsrc)
          rearm := fun i hs => hs
          resignal := fun id hs => (hnode id hs).elim
          late := hlate
          checked := trivial
          shut := fun hs => absurd hs hfin }
      · rintro source ⟨hack, hreq | howed⟩ hreg
        · cases hreq
        · refine (h.notified source howed hreg).imp id (fun hw => ?_)
          rw [hpc] at hw
          rcases List.mem_cons.mp hw with heq | hw
          · -- the slot called now: its callback has just been logged
            refine absurd ?_ hack
            have hreg' : s.control.slots[source.slot]? = some ⟨true, source.generation⟩ :=
              Control.registered_iff.mp hreg
            rw [heq, hsl, Option.some.injEq] at hreg'
            rw [hreg', ← heq]
          · exact hw
      · obtain ⟨_, hreq | howed⟩ := howed
        · cases hreq
        · exact howed
    · rename_i hact
      refine hskip (fun g => ?_)
      simp [Control.registered, hsl, hact]
  · rename_i hsl
    refine hskip (fun g => ?_)
    simp [Control.registered, hsl]

theorem afterLifecycle_spec (st : Stage) : st.afterLifecycle.batch = [] ∧
    (st.afterLifecycle.late = true → decide (st ≠ .running) = true) ∧ Checked s st.afterLifecycle := by
  cases st <;> simp [Stage.afterLifecycle, Pc.batch, Pc.late, Pc.stage, Checked]

theorem Inv.advanceLifecycle {left drained : Nat} (h : Inv s)
    (hpc : s.pc = .lifecycleNext st left drained) (hs : s.advanceLifecycle st left drained = some s') :
    Inv s' := by
  have hover : Inv (if drained ≠ 0 then { s with pc := .lifecycleMetric st s.lifecycle.pendingCount }
      else { s.wakeIf s.lifecycle.pendingCount with pc := st.afterLifecycle }) := by
    obtain ⟨hbatch, hlate, hchk⟩ := afterLifecycle_spec (s := s) st
    split
    · exact h.goto hpc rfl rfl id trivial
    · exact h.next hpc rfl samePlanes_wakeIf hbatch (fun hl => Or.inl (hlate hl)) hchk
  unfold State.advanceLifecycle at hs
  dsimp only at hs
  split at hs
  · cases hs; exact hover
  · cases hs; exact hover
  · rename_i left id rest hdirty
    obtain ⟨lc, hpop, hgood, hd, hact, hphase⟩ := h.lifecycle.pop hdirty
    rw [hpop] at hs
    cases hs
    refine
      { h with
        lifecycle := hgood
        fifo := by simpa [hpc, Pc.batch] using h.fifo
        notified := fun src howed hreg => ?_
        signaled := ?_
        known := fun src hsrc => h.known src (by simpa using hsrc)
        rearm := fun i hs => by simpa [hpc, Pc.controlSlot] using h.rearm i hs
        resignal := fun i hs => by rw [hact] at hs; exact hs
        late := fun hl => h.late (by rw [hpc]; exact hl)
        closed := fun hq => ⟨(h.closed hq).1, (h.closed hq).2.1, hphase ▸ (h.closed hq).2.2⟩
        planes := hphase ▸ h.planes
        checked := trivial
        shut := fun hs => by simpa [hpc] using (h.shut hs).1 }
    · obtain ⟨_, hreq | howed⟩ := howed
      · cases hreq
      · simpa [hpc, Pc.words] using h.notified src howed hreg
    · rintro i ⟨hack, hreq | howed⟩
      · cases hreq
      · have hmem := h.signaled i howed
        rw [hdirty] at hmem
        rw [hd]
        rcases List.mem_cons.mp hmem with rfl | hmem
        · exact absurd rfl hack
        · exact hmem

/-- Functors move on between the queue, the batch and their runs. -/
theorem Inv.moveFunctors {queue started : List Nat} {calling : Bool} (h : Inv s)
    (h₀ : s.pc = pc₀) (hlate : pc'.late = true → pc₀.late = true) (hchk : ∀ s, Checked s pc')
    (hheld : pc₀.words = [] ∧ pc₀.controlSlot = none ∧ pc₀.lifecycleNode = none ∧ pc₀ ≠ .finished)
    (hfifo : s.admitted = started ++ pc'.batch ++ queue) :
    Inv { s with
      executor := { s.executor with pendingFunctors := queue }, callingPendingFunctors := calling
      started := started, pc := pc' } := by
  obtain ⟨hwords, hslot, hnode, hfin⟩ := hheld
  exact
    { h with
      fifo := hfifo
      notified := fun src howed hreg => Or.inl (by simpa [h₀, hwords] using h.notified src howed hreg)
      rearm := fun i hs => by simpa [h₀, hslot] using h.rearm i hs
      resignal := fun i hs => by simpa [h₀, hnode] using h.resignal i hs
      late := fun hl => h.late (by rw [h₀]; exact hlate hl)
      checked := hchk _
      shut := fun hs => absurd (h₀.symm.trans (h.shut hs).1) hfin }

theorem Inv.advanceFunctors (h : Inv s) (hpc : s.pc = .functorStart st) :
    Inv (s.advanceFunctors o.toEventLoopOptions st) := by
  have hsplit := List.take_append_drop o.toEventLoopOptions.maxFunctorsPerIteration
    s.executor.pendingFunctors
  have hfifo : s.admitted = s.started ++ s.executor.pendingFunctors := by
    simpa [hpc, Pc.batch] using h.fifo
  unfold State.advanceFunctors
  dsimp only
  split
  · rename_i hnil
    rw [hnil, List.nil_append] at hsplit
    exact h.moveFunctors hpc id (fun _ => trivial) ⟨rfl, rfl, rfl, nofun⟩
      (by simpa [Pc.batch, hsplit] using hfifo)
  · exact h.moveFunctors hpc id (fun _ => trivial) ⟨rfl, rfl, rfl, nofun⟩
      (by simpa [Pc.batch, List.append_assoc, hsplit] using hfifo)

theorem Inv.publishPhase (h : Inv s) (hpc : s.pc = .publish st) :
    Inv (s.publishPhase st) := by
  have hq : s.quit = true := h.late (by rw [hpc]; rfl)
  have hchk := h.checked
  rw [hpc] at hchk
  have hfifo : s.admitted = s.started ++ s.executor.pendingFunctors := by
    simpa [hpc, Pc.batch] using h.fifo
  have hrest : ∀ (c : ControlPhase) (l p : EventLoopPhase) (d looping : Bool) (pc' : Pc),
      pc'.batch = [] → (∀ s, Checked s pc' ∨ pc' = .finished) → c ≠ .accepting → l ≠ .running →
      (p = .shutdown → pc' = .finished ∧ c = .shutdown ∧ l = .shutdown) →
      Inv { s with executor := { s.executor with drainingAccepted := d }
                   control := { s.control with phase := c }
                   lifecycle := { s.lifecycle with phase := l }
                   phase := p, looping := looping, pc := pc' } := by
    intro c l p d looping pc' hbatch hpc' hc hl hp
    exact
      { control := ⟨h.control.count, h.control.active⟩
        lifecycle := { h.lifecycle with }
        fifo := by simpa [hbatch] using hfifo
        notified := fun src howed hreg => Or.inl (by simpa [hpc, Pc.words] using h.notified src howed hreg)
        signaled := h.signaled
        known := h.known
        rearm := fun i hs => by simpa [hpc, Pc.controlSlot] using h.rearm i hs
        resignal := fun i hs => by simpa [hpc, Pc.lifecycleNode] using h.resignal i hs
        late := fun _ => hq
        closed := fun _ => ⟨(h.closed hq).1, hc, hl⟩
        planes := ⟨fun h => absurd h hc, fun h => absurd h hl⟩
        checked := by
          rcases hpc' { s with executor := { s.executor with drainingAccepted := d }
                               control := { s.control with phase := c }
                               lifecycle := { s.lifecycle with phase := l }
                               phase := p, looping := looping, pc := pc' } with hchk' | rfl
          · exact hchk'
          · exact hchk
        shut := hp }
  cases st with
  | finalDraining => exact hrest _ _ _ _ _ _ rfl (fun _ => Or.inr rfl) (by simp) (by simp) (by simp)
  | running =>
    exact hrest s.control.phase _ _ s.executor.drainingAccepted s.looping _ rfl
      (fun _ => Or.inl trivial) (h.closed hq).2.1 (by simp) (by simp)
  | quiescing b =>
    exact hrest s.control.phase _ _ s.executor.drainingAccepted s.looping _ rfl
      (fun _ => Or.inl trivial) (h.closed hq).2.1 (by simp) (by simp)

theorem afterControl_spec (st : Stage) : st.afterControl.batch = [] ∧
    (st.afterControl.late = true → decide (st ≠ .running) = true) ∧ ∀ s, Checked s st.afterControl := by
  cases st <;> simp [Stage.afterControl, Pc.batch, Pc.late, Pc.stage, Checked]

theorem afterFunctors_spec (st : Stage) : st.afterFunctors.batch = [] ∧
    (st.afterFunctors.late = true → decide (st ≠ .running) = true) ∧ Checked s st.afterFunctors := by
  cases st <;> simp [Stage.afterFunctors, Pc.batch, Pc.late, Pc.stage, Checked]

/-- A step of the loop that the state determines. -/
theorem Inv.advance (h : Inv s) (hs : s.advance o.toEventLoopOptions = some s') : Inv s' := by
  unfold State.advance at hs
  split at hs
  case h_1 st hpc => cases hs; exact h.advanceTop hpc
  case h_2 hpc | h_3 hpc =>
    cases hs
    refine h.goto hpc rfl ?_ ?_ ?_ <;> split <;> first | rfl | exact id | trivial
  case h_4 st hpc => exact h.advanceDispatch hpc hs
  case h_5 st drained hpc => cases hs; exact h.advanceDispatchLoop hpc
  case h_6 hpc =>
    cases hs
    exact h.goto hpc rfl rfl (fun _ => rfl) trivial
  case h_7 st hpc | h_11 st hpc | h_14 b hpc | h_15 st _ hpc =>
    cases hs
    exact h.test hpc rfl rfl ⟨rfl, rfl⟩ trivial fun _ => trivial
  case h_8 st hpc =>
    obtain ⟨hbatch, hlate, hchk⟩ := afterControl_spec st
    dsimp only at hs
    split at hs
    · rename_i hnil
      cases hs
      exact h.select hpc _ (by simp [hnil]) hbatch (fun hl => by rw [hpc]; exact hlate hl) hchk
    · cases hs
      exact h.select hpc _ (fun i hi => hi) rfl (fun hl => by rw [hpc]; exact hl) (fun _ => trivial)
  case h_9 st hpc | h_12 st hpc =>
    cases hs
    exact h.goto hpc rfl rfl id trivial
  case h_10 st slot words hpc => cases hs; exact h.advanceControl hpc
  case h_13 st left drained hpc => exact h.advanceLifecycle hpc hs
  case h_16 st hpc => cases hs; exact h.advanceFunctors hpc
  case h_17 st hpc =>
    cases hs
    exact h.next hpc rfl { samePlanes_refl with } rfl Or.inl trivial
  case h_18 st f batch hpc =>
    cases hs
    exact h.moveFunctors hpc id (fun _ => trivial) ⟨rfl, rfl, rfl, nofun⟩
      (by simpa [hpc, Pc.batch] using h.fifo)
  case h_19 st hpc =>
    obtain ⟨hbatch, hlate, hchk⟩ := afterFunctors_spec (s := s) st
    cases hs
    exact h.next hpc rfl samePlanes_wakeIf hbatch (fun hl => Or.inl (hlate hl)) hchk
  case h_20 st hpc =>
    cases hs
    exact h.test hpc rfl rfl ⟨rfl, rfl⟩ trivial fun hno => not_not.mp hno
  case h_21 st hpc =>
    have hchk := h.checked
    rw [hpc] at hchk
    cases hs
    exact h.test hpc rfl rfl ⟨rfl, rfl⟩ trivial fun hno => ⟨hchk, not_not.mp hno⟩
  case h_22 st hpc =>
    have hchk := h.checked
    rw [hpc] at hchk
    cases hs
    exact h.test hpc rfl rfl ⟨rfl, rfl⟩ trivial fun hno => ⟨hchk.1, hchk.2, not_not.mp hno⟩
  case h_23 st hpc =>
    have hchk := h.checked
    rw [hpc] at hchk
    cases hs
    exact h.test hpc rfl rfl ⟨rfl, rfl⟩ trivial fun _ => hchk
  case h_24 st hpc => cases hs; exact h.publishPhase hpc
  case h_25 => cases hs

/-- The callback of a control source is over. -/
theorem Inv.controlReturn {slot : Nat} {words : List Nat} {pc' : Pc} (h : Inv s)
    (hpc : s.pc = .controlCall st slot words) (hwords : pc'.words = words) (hbatch : pc'.batch = [])
    (hlate : pc'.late = true → decide (st ≠ .running) = true)
    (hchk : ∀ s, Checked s pc') :
    Inv { s with control := if s.control.activeCallbackSlot = some slot then
                   { s.control with activeCallbackSlot := none } else s.control
                 pc := pc' } := by
  have hnone : (if s.control.activeCallbackSlot = some slot then
      { s.control with activeCallbackSlot := none } else s.control) =
        { s.control with activeCallbackSlot := none } := by
    split
    · rfl
    · rename_i hne
      have hold : s.control.activeCallbackSlot = none := by
        cases hs : s.control.activeCallbackSlot with
        | none => rfl
        | some i =>
          have hi := h.rearm i hs
          rw [hpc] at hi
          exact absurd (hs.trans hi.symm) hne
      rw [← hold]
  rw [hnone]
  exact
    { h with
      control := ⟨h.control.count, h.control.active⟩
      fifo := by
        have hf := h.fifo
        rw [hpc] at hf
        rw [hbatch]
        exact hf
      notified := fun src howed hreg => by
        rw [hwords]
        simpa [hpc, Pc.words] using h.notified src howed hreg
      rearm := by simp
      resignal := fun i hs => by simpa [hpc, Pc.lifecycleNode] using h.resignal i hs
      late := fun hl => h.late (by rw [hpc]; exact hlate hl)
      checked := hchk _
      shut := fun hs => by simpa [hpc] using (h.shut hs).1 }

/-- The callback of a lifecycle node is over. -/
theorem Inv.lifecycleReturn {left drained id : Nat} {pc' : Pc} (h : Inv s)
    (hpc : s.pc = .lifecycleCall st left drained id) (hbatch : pc'.batch = [])
    (hlate : pc'.late = true → decide (st ≠ .running) = true) (hchk : ∀ s, Checked s pc') :
    Inv { s with lifecycle := s.lifecycle.finish id, pc := pc' } := by
  obtain ⟨hd, hphase, _, hact⟩ := s.lifecycle.finish_eq id
  exact
    { h with
      lifecycle := h.lifecycle.finish
      fifo := by
        have hf := h.fifo
        rw [hpc] at hf
        rw [hbatch]
        exact hf
      notified := fun src howed hreg => Or.inl (by simpa [hpc, Pc.words] using h.notified src howed hreg)
      signaled := fun i howed => hd ▸ h.signaled i howed
      rearm := fun i hs => by simpa [hpc, Pc.controlSlot] using h.rearm i hs
      resignal := fun i hs => by
        obtain ⟨hold, hne⟩ := hact i hs
        have hi := h.resignal i hold
        rw [hpc] at hi
        exact absurd (Option.some.inj hi).symm hne
      late := fun hl => h.late (by rw [hpc]; exact hlate hl)
      closed := fun hq => ⟨(h.closed hq).1, (h.closed hq).2.1, hphase ▸ (h.closed hq).2.2⟩
      planes := hphase ▸ h.planes
      checked := hchk _
      shut := fun hs => by simpa [hpc] using (h.shut hs).1 }

/-- User code returns to the loop. -/
theorem Inv.leave {threw : Bool} (h : Inv s) (hs : s.leave threw = some s') : Inv s' := by
  unfold State.leave at hs
  split at hs
  case h_1 st hpc | h_4 hpc | h_9 st left drained hpc =>
    cases hs
    exact h.goto hpc rfl rfl id trivial
  case h_2 st drained id hpc =>
    obtain ⟨c, _, rfl⟩ := Option.map_eq_some_iff.mp hs
    exact h.goto hpc rfl rfl (fun hl => hl) trivial
  case h_3 st remaining hpc =>
    obtain ⟨hbatch, hlate, hchk⟩ := afterDispatch_spec (s := s) st
    cases hs
    exact h.goto hpc rfl hbatch hlate hchk
  case h_5 st slot words hpc =>
    cases hs
    refine h.controlReturn hpc ?_ ?_ ?_ ?_
    · cases threw <;> rfl
    · cases threw <;> rfl
    · cases threw <;> exact fun hl => hl
    · cases threw <;> exact fun _ => trivial
  case h_6 st words hpc | h_11 st batch hpc | h_12 st batch hpc =>
    cases hs
    exact h.move hpc { samePlanes_refl with } rfl rfl (fun _ hi => hi) (Or.inl rfl) (Or.inl rfl) Or.inl
      trivial (by simp)
  case h_7 st remaining hpc =>
    obtain ⟨hbatch, hlate, hchk⟩ := afterControl_spec st
    cases hs
    exact h.next hpc rfl samePlanes_wakeIf hbatch (fun hl => Or.inl (hlate hl)) (hchk s)
  case h_8 st left drained id hpc =>
    cases hs
    refine h.lifecycleReturn hpc ?_ ?_ ?_
    · cases threw <;> rfl
    · cases threw <;> exact fun hl => hl
    · cases threw <;> exact fun _ => trivial
  case h_10 st remaining hpc =>
    obtain ⟨hbatch, hlate, hchk⟩ := afterLifecycle_spec (s := s) st
    cases hs
    exact h.next hpc rfl samePlanes_wakeIf hbatch (fun hl => Or.inl (hlate hl)) hchk
  case h_13 => cases hs

/-- One step keeps the invariant. -/
theorem step_inv (h : Inv s) (hs : step o maxNotices s l = some s') : Inv s' := by
  cases step_took hs with
  | start hpc => exact h.next hpc rfl { samePlanes_refl with } rfl Or.inl trivial
  | advance hs => exact h.advance hs
  | timeout t hpc => exact h.goto hpc rfl rfl id trivial
  | wait native hpc => exact h.goto hpc rfl rfl id trivial
  | wake native hpc => exact h.next hpc rfl { samePlanes_refl with } rfl Or.inl trivial
  | leave hs => exact h.leave hs
  | post => exact h.postFunctor
  | notify => exact h.notify
  | signal => exact h.signal
  | quit => exact h.quitLoop
  | refused => exact h
  | register _ hr => exact h.register hr
  | unregister => exact h.unregister
  | attach _ ha => exact h.attach ha
  | detach => exact h.detach
  | writeWakeup | channels | engineQuiescent => exact h.same { samePlanes_refl with } rfl

theorem reach_inv {C : State → Label → Prop}
    (h : Machine.Reach (· = initial o) (step o maxNotices) C s) : Inv s :=
  Machine.Reach.invariant (P := Inv) (by rintro s rfl; exact initial_inv o)
    (fun _ _ _ hP _ hs => step_inv hP hs) h

/-! ## What Shutdown finds -/

/-- A loop that has published Shutdown: everything admitted has run, in the order of its
    admission, every accepted notification and signal was followed by a run of its callback,
    the three planes are empty, and none of them admits anything or takes a new source. -/
structure Drained (o : EventLoopOptions) (s : State) : Prop where
  ran : s.started = s.admitted
  functors : s.executor.pendingFunctors = []
  controlSources : s.control.pendingSlots = []
  lifecycleNodes : s.lifecycle.dirty = []
  notified : ∀ source, s.control.registered source = true → ∀ newer older,
    s.log = newer ++ .notified source :: older → .controlRan source ∈ newer
  signaled : ∀ id newer older, s.log = newer ++ .signaled id :: older → .lifecycleRan id ∈ newer
  refusesFunctors : ∀ caller kind cb, (s.postFunctor o caller kind cb).1 ≠ .accepted
  refusesNotify : ∀ caller source, (s.notify caller source).1 ≠ .accepted
  refusesSignal : ∀ caller source, (s.signal caller source).1 ≠ .accepted
  refusesRegister : s.control.register = .error "EventLoop control-source registration is closed"
  refusesAttach : ∀ notifyOnQuiesce, s.lifecycle.attach notifyOnQuiesce =
    .error "EventLoop lifecycle-node attachment is closed"

theorem Inv.drained (h : Inv s) (hs : s.phase = .shutdown) : Drained o.toEventLoopOptions s := by
  obtain ⟨hpc, hcontrol, hlife⟩ := h.shut hs
  have hchk := h.checked
  rw [hpc] at hchk
  obtain ⟨hf, hc, hl⟩ := hchk
  have hdirty : s.lifecycle.dirty = [] := List.length_eq_zero_iff.mp (h.lifecycle.count ▸ hl)
  have hslots : s.control.pendingSlots = [] := List.length_eq_zero_iff.mp (h.control.count ▸ hc)
  have hclosed := h.closed (h.late (by rw [hpc]; rfl))
  constructor
  case ran =>
    have hfifo := h.fifo
    rw [hpc, hf] at hfifo
    simpa [Pc.batch] using hfifo.symm
  case functors => exact hf
  case controlSources => exact hslots
  case lifecycleNodes => exact hdirty
  case notified =>
    intro source hreg newer older hlog
    have hno : ¬ Machine.Owed (· = .notified source) (· = .controlRan source) s.log := by
      intro howed
      rcases h.notified source howed hreg with hp | hw
      · rw [← Control.mem_pendingSlots h.control, hslots] at hp
        cases hp
      · simp [hpc, Pc.words] at hw
    obtain ⟨a, ha, rfl⟩ := (Machine.not_owed_iff (by rintro e rfl; simp)).mp hno newer _ older hlog rfl
    exact ha
  case signaled =>
    intro id newer older hlog
    have hno : ¬ Machine.Owed (· = .signaled id) (· = .lifecycleRan id) s.log := by
      intro howed
      have hmem := h.signaled id howed
      rw [hdirty] at hmem
      cases hmem
    obtain ⟨a, ha, rfl⟩ := (Machine.not_owed_iff (by rintro e rfl; simp)).mp hno newer _ older hlog rfl
    exact ha
  case refusesFunctors =>
    intro caller kind cb
    unfold State.postFunctor
    rcases s.executor.postFunctor_cases o.toEventLoopOptions kind cb with hno | ⟨f, rfl, hacc, _⟩
    · simp only [if_neg hno]
      exact hno
    · rw [hclosed.1] at hacc
      cases hacc
  case refusesNotify =>
    intro caller source
    unfold State.notify
    rcases s.control.notify_cases caller source with hno | ⟨_, hsh, _⟩
    · simp only [if_neg hno]
      exact hno
    · exact absurd hcontrol hsh
  case refusesSignal =>
    intro caller source
    unfold State.signal
    rcases s.lifecycle.signal_cases caller source with hno | ⟨_, _, _, _, hsh, _⟩
    · simp only [if_neg hno]
      exact hno
    · exact absurd hlife hsh
  case refusesRegister => simp [Control.register, hclosed.2.1]
  case refusesAttach => simp [Lifecycle.attach, hclosed.2.2]

/-- Shutdown is never left. -/
theorem Inv.shutdown_stable (h : Inv s) (hshut : s.phase = .shutdown)
    (hs : step o maxNotices s l = some s') : s'.phase = .shutdown := by
  obtain ⟨hpc, hcontrol, -⟩ := h.shut hshut
  cases step_took hs with
  | start hpc' | timeout _ hpc' | wait _ hpc' | wake _ hpc' => cases hpc.symm.trans hpc'
  | advance hs => rw [State.advance, hpc] at hs; cases hs
  | leave hs => rw [State.leave, hpc] at hs; cases hs
  | post => unfold State.postFunctor; dsimp only; split <;> simpa using hshut
  | notify => unfold State.notify; dsimp only; split <;> simpa using hshut
  | signal => unfold State.signal; dsimp only; split <;> simpa using hshut
  | quit => simpa [State.quitLoop, hcontrol] using hshut
  | _ => exact hshut

/-- Functors start in the order of their admission, each at most once. -/
theorem Inv.started_inOrder (h : Inv s) : s.started <+: s.admitted := by
  rw [h.fifo, List.append_assoc]
  exact List.prefix_append _ _

end

end GameNet.EventLoop
