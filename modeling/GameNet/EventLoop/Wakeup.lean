import Mathlib.Logic.Basic
import GameNet.EventLoop.FinalDrain

/- Lost wakeups: the loop does not block in the I/O wait while work is admitted.

   A plane is past its last look of an iteration when the loop will not read it again
   before the wait; for the functors that is the end of `doPendingFunctors`, for the
   other two planes the computation of the poll timeout. `Awake` says that work
   admitted to such a plane comes with a wakeup that is written or is about to be.
   It holds as long as the owner thread queues no functor before `loop()` starts:
   that admission writes no wakeup, and the poll timeout does not look at functors. -/
namespace GameNet.EventLoop

open Machine (Reach Any)

/-- Whether the loop goes to the wait without another look at the functor queue. -/
def Pc.pastFunctors : Pc → Bool
  | .outside | .top .running | .pollControl | .pollLifecycle | .pollTimers | .wait .running _ => true
  | _ => false

/-- Whether the loop has looked at the control sources and goes to a blocking wait. -/
def Pc.pastControl : Pc → Bool
  | .pollLifecycle | .pollTimers => true
  | .wait .running t => decide (0 < t)
  | _ => false

/-- Whether the loop has looked at the lifecycle nodes and goes to a blocking wait. -/
def Pc.pastLifecycle : Pc → Bool
  | .pollTimers => true
  | .wait .running t => decide (0 < t)
  | _ => false

/-- A wakeup is written, or owed by a call that has committed its work; or the loop is about to
    leave its running phase. -/
def State.Wakes (s : State) : Prop :=
  0 < s.tokens + s.owedWakeups ∨ (s.pc = .top .running ∧ s.quit = true)

structure Awake (s : State) : Prop where
  functors : s.pc.pastFunctors = true → s.executor.pendingFunctors = [] ∨ s.Wakes
  control : s.pc.pastControl = true → s.control.pendingCount = 0 ∨ s.Wakes
  lifecycle : s.pc.pastLifecycle = true → s.lifecycle.pendingCount = 0 ∨ s.Wakes

/-- The owner thread admits no functor before `loop()` starts. -/
def NoEarlyFunctor (s : State) : Label → Prop
  | .post .owner _ _ => s.pc ≠ .outside
  | _ => True

instance (s : State) : (l : Label) → Decidable (NoEarlyFunctor s l)
  | .post .owner _ _ => inferInstanceAs (Decidable (_ ≠ _))
  | .start | .advance | .timeout _ | .wait _ _ | .leave _ | .post .remote _ _ | .notify _ _
  | .signal _ _ | .quit _ | .writeWakeup | .registerControl | .unregisterControl _ | .attach _
  | .detach _ | .newChannel _ | .setInterest _ _ | .removeChannel _ | .destroyChannel _
  | .retireChannel _ | .engineQuiescent _ => .isTrue trivial

section
variable {o : Options} {maxNotices : Nat} {s s' : State} {l : Label}

theorem pastFunctors_of_pastControl {pc : Pc} (h : pc.pastControl = true) : pc.pastFunctors = true := by
  cases pc with
  | pollLifecycle | pollTimers => rfl
  | wait st t =>
    cases st with
    | running => rfl
    | _ => cases h
  | _ => cases h

theorem pastControl_of_pastLifecycle {pc : Pc} (h : pc.pastLifecycle = true) : pc.pastControl = true := by
  cases pc with
  | pollTimers => rfl
  | wait st t =>
    cases st with
    | running => exact h
    | _ => cases h
  | _ => cases h

/-- A position from which the functor queue is still read. -/
theorem awake_of_ahead (h : s.pc.pastFunctors = false) : Awake s := by
  have hc : s.pc.pastControl = true → False := fun hc => by
    simp [pastFunctors_of_pastControl hc] at h
  exact ⟨fun hf => by simp [hf] at h, fun hp => (hc hp).elim,
    fun hp => (hc (pastControl_of_pastLifecycle hp)).elim⟩

theorem awake_of_wakes (h : s.Wakes) : Awake s := ⟨fun _ => Or.inr h, fun _ => Or.inr h, fun _ => Or.inr h⟩

/-- A step that drops no wakeup and goes no further than `s` in any plane it fills. -/
theorem Awake.mono (h : Awake s) (hw : s.Wakes → s'.Wakes)
    (hf : s'.pc.pastFunctors = true → s.pc.pastFunctors = true ∧
      (s.executor.pendingFunctors = [] → s'.executor.pendingFunctors = []))
    (hc : s'.pc.pastControl = true → s'.control.pendingCount = 0 ∨ s.pc.pastControl = true ∧
      (s.control.pendingCount = 0 → s'.control.pendingCount = 0))
    (hl : s'.pc.pastLifecycle = true → s'.lifecycle.pendingCount = 0 ∨ s.pc.pastLifecycle = true ∧
      (s.lifecycle.pendingCount = 0 → s'.lifecycle.pendingCount = 0)) : Awake s' := by
  constructor
  · intro hp
    obtain ⟨hp', hempty⟩ := hf hp
    exact (h.functors hp').imp hempty hw
  · intro hp
    rcases hc hp with hzero | ⟨hp', hempty⟩
    · exact Or.inl hzero
    · exact (h.control hp').imp hempty hw
  · intro hp
    rcases hl hp with hzero | ⟨hp', hempty⟩
    · exact Or.inl hzero
    · exact (h.lifecycle hp').imp hempty hw

/-- A call that changes neither the position nor what the planes hold. -/
theorem Awake.same (h : Awake s) (hpc : s'.pc = s.pc) (hw : s.Wakes → s'.Wakes)
    (hf : s'.executor.pendingFunctors = s.executor.pendingFunctors)
    (hc : s.control.pendingCount = 0 → s'.control.pendingCount = 0)
    (hl : s.lifecycle.pendingCount = 0 → s'.lifecycle.pendingCount = 0) : Awake s' :=
  h.mono hw (fun hp => ⟨hpc ▸ hp, fun h0 => hf.trans h0⟩) (fun hp => Or.inr ⟨hpc ▸ hp, hc⟩)
    (fun hp => Or.inr ⟨hpc ▸ hp, hl⟩)

/-- User code runs before the wait only in front of `loop()`. -/
theorem outside_of_userCode (hu : s.pc.userCode = true) (hp : s.pc.pastFunctors = true) :
    s.pc = .outside := by
  cases hpc : s.pc <;> simp [hpc, Pc.userCode, Pc.pastFunctors] at hu hp
  rfl

/-- User code changes the planes' registries: it stands in front of `loop()`, or the planes are
    read again. -/
theorem Awake.userCall (h : Awake s) (hu : s.pc.userCode = true) (hpc : s'.pc = s.pc)
    (hw : s.Wakes → s'.Wakes) (hf : s'.executor.pendingFunctors = s.executor.pendingFunctors) :
    Awake s' := by
  cases hp : s.pc.pastFunctors with
  | false => exact awake_of_ahead (hpc ▸ hp)
  | true =>
    have hout := outside_of_userCode hu hp
    refine h.mono hw (fun _ => ⟨hp, fun h0 => hf.trans h0⟩) ?_ ?_ <;>
      simp [hpc, hout, Pc.pastControl, Pc.pastLifecycle]

variable {caller : Caller}

theorem wakes_wake : (s.wake caller true).Wakes := by
  left
  cases caller with
  | owner =>
    show 0 < s.tokens + 1 + s.owedWakeups
    omega
  | remote =>
    show 0 < s.tokens + (s.owedWakeups + 1)
    omega

/-- A call that writes wakeups or calls `quit()`. -/
theorem Wakes.call (h : s.Wakes) (hpc : s'.pc = s.pc)
    (ht : s.tokens + s.owedWakeups ≤ s'.tokens + s'.owedWakeups)
    (hq : s.quit = true → s'.quit = true) : s'.Wakes := by
  rcases h with hw | ⟨htop, hquit⟩
  · exact Or.inl (by omega)
  · exact Or.inr ⟨hpc.trans htop, hq hquit⟩

/-! ## Calls -/

theorem Awake.postFunctor {kind : Admission} {cb : Option Nat} (h : Awake s)
    (hcall : s.canCall caller = true) (hearly : NoEarlyFunctor s (.post caller kind cb)) :
    Awake (s.postFunctor o.toEventLoopOptions caller kind cb).2 := by
  unfold State.postFunctor
  dsimp only
  split
  · cases caller with
    | remote => exact awake_of_wakes (by simpa using wakes_wake)
    | owner =>
      cases hp : s.pc.pastFunctors with
      | false => exact awake_of_ahead (by simpa using hp)
      | true => exact absurd (outside_of_userCode hcall hp) hearly
  · exact h

theorem Awake.notify {source : ControlSource} (h : Awake s) :
    Awake (s.notify caller source).2 := by
  unfold State.notify
  rcases s.control.notify_cases caller source with hno | ⟨_, _, _, ⟨_, heq⟩ | ⟨_, heq⟩⟩
  · simp only [if_neg hno]
    exact h
  · simp only [heq, if_true]
    exact h.same rfl id rfl id id
  · simp only [heq, if_true]
    exact awake_of_wakes wakes_wake

theorem Awake.signal {source : LifecycleSource} (h : Awake s) :
    Awake (s.signal caller source).2 := by
  unfold State.signal
  rcases s.lifecycle.signal_cases caller source with hno | ⟨_, _, _, _, _, _, ⟨_, heq⟩ | ⟨_, heq⟩⟩
  · simp only [if_neg hno]
    exact h
  · simp only [heq, if_true]
    exact h.same rfl id rfl id id
  · simp only [heq, if_true]
    exact awake_of_wakes wakes_wake

/-- The first `quit()` dirties participants; from another thread it comes with a wakeup. -/
theorem Awake.quitLoop (h : Awake s) (hcall : s.canCall caller = true) :
    Awake (s.quitLoop caller) := by
  unfold State.quitLoop
  dsimp only
  have hw : ∀ {s' : State}, s'.pc = s.pc → s'.tokens = s.tokens → s'.owedWakeups = s.owedWakeups →
      s'.quit = true → s.Wakes → s'.Wakes := fun hpc ht ho hq h =>
    Wakes.call h hpc (by omega) (fun _ => hq)
  split
  · exact h.same rfl (hw rfl rfl rfl rfl) rfl id id
  · split
    · exact h.same rfl (hw rfl rfl rfl rfl) rfl id id
    · cases caller with
      | remote => exact awake_of_wakes wakes_wake
      | owner => exact h.userCall hcall rfl (hw rfl rfl rfl rfl) rfl

/-! ## Steps -/

/-- `doPendingFunctors` looks at the queue a last time and writes a wakeup for what is left. -/
theorem awake_functorEnd {st : Stage} :
    Awake { s.wakeIf s.executor.pendingFunctors.length with pc := st.afterFunctors } := by
  cases st with
  | running =>
    refine ⟨fun _ => ?_, (fun hp => by cases hp), (fun hp => by cases hp)⟩
    by_cases hnil : s.executor.pendingFunctors = []
    · exact Or.inl (by simpa [State.wakeIf] using hnil)
    · right
      have hneeded : decide (s.executor.pendingFunctors.length ≠ 0) = true := by simpa using hnil
      left
      simp only [State.wakeIf, hneeded, State.wake, Bool.true_eq_false, if_false]
      omega
  | quiescing b => exact awake_of_ahead rfl
  | finalDraining => exact awake_of_ahead rfl

/-- A step of the running phase that moves the position alone. -/
theorem Awake.move {pc₀ : Pc} (h : Awake s) (hpc : s.pc = pc₀) (hpast : pc₀.pastFunctors = true)
    (htop : pc₀ = .top .running → s.quit = false) (he : s'.executor = s.executor)
    (hcontrol : s'.control = s.control) (hlife : s'.lifecycle = s.lifecycle)
    (ht : s'.tokens = s.tokens) (ho : s'.owedWakeups = s.owedWakeups)
    (hc : s'.pc.pastControl = true → s.control.pendingCount = 0 ∨ pc₀.pastControl = true)
    (hl : s'.pc.pastLifecycle = true → s.lifecycle.pendingCount = 0 ∨ pc₀.pastLifecycle = true) :
    Awake s' := by
  subst hpc
  refine h.mono ?_ (fun _ => ⟨hpast, by rw [he]; exact id⟩) ?_ ?_
  · rintro (hw | ⟨heq, hq⟩)
    · exact Or.inl (by omega)
    · rw [htop heq] at hq
      cases hq
  · intro hp
    rw [hcontrol]
    exact (hc hp).imp id (fun hp' => ⟨hp', id⟩)
  · intro hp
    rw [hlife]
    exact (hl hp).imp id (fun hp' => ⟨hp', id⟩)

/-- The head of a drain loop, or of the running loop once `quit()` was called. -/
theorem awake_head {st : Stage} (hq : s.quit = true) : Awake { s with pc := .top st } := by
  cases st with
  | running => exact awake_of_wakes (Or.inr ⟨rfl, hq⟩)
  | quiescing b => exact awake_of_ahead rfl
  | finalDraining => exact awake_of_ahead rfl

theorem Awake.advance (hinv : Inv s) (h : Awake s) (hs : s.advance o.toEventLoopOptions = some s') :
    Awake s' := by
  unfold State.advance at hs
  split at hs
  case h_1 st hpc =>
    cases hs
    cases st with
    | running =>
      simp only [State.advanceTop]
      split
      · exact awake_of_ahead rfl
      · rename_i hq
        split
        · exact awake_of_ahead rfl
        · exact h.move hpc rfl (fun _ => by simpa using hq) rfl rfl rfl rfl rfl (fun hp => by cases hp)
            (fun hp => by cases hp)
    | quiescing b => simp only [State.advanceTop]; split <;> exact awake_of_ahead rfl
    | finalDraining =>
      simp only [State.advanceTop]
      split
      · exact awake_of_ahead rfl
      · split <;> exact awake_of_ahead rfl
  case h_2 hpc =>
    cases hs
    split
    · exact h.move hpc rfl (by simp) rfl rfl rfl rfl rfl (fun hp => by cases hp) (fun hp => by cases hp)
    · rename_i hzero
      exact h.move hpc rfl (by simp) rfl rfl rfl rfl rfl (fun _ => Or.inl (not_not.mp hzero))
        (fun hp => by cases hp)
  case h_3 hpc =>
    cases hs
    split
    · exact h.move hpc rfl (by simp) rfl rfl rfl rfl rfl (fun hp => by cases hp) (fun hp => by cases hp)
    · rename_i hzero
      exact h.move hpc rfl (by simp) rfl rfl rfl rfl rfl (fun _ => Or.inr rfl)
        (fun _ => Or.inl (not_not.mp hzero))
  case h_4 st hpc =>
    unfold State.advanceDispatch at hs
    split at hs
    · cases hs
      exact awake_of_ahead (by cases st <;> rfl)
    · obtain ⟨c, _, rfl⟩ := Option.map_eq_some_iff.mp hs
      exact awake_of_ahead rfl
  case h_5 st drained hpc =>
    cases hs
    unfold State.advanceDispatchLoop
    dsimp only
    split
    · split
      · exact awake_of_ahead rfl
      · exact awake_of_ahead (by rw [hpc]; rfl)
      · exact awake_of_ahead rfl
    · exact awake_of_ahead rfl
  case h_8 st hpc =>
    dsimp only at hs
    split at hs <;> cases hs
    · exact awake_of_ahead (by cases st <;> rfl)
    · exact awake_of_ahead rfl
  case h_10 st slot words hpc =>
    cases hs
    unfold State.advanceControl
    split
    · split <;> exact awake_of_ahead rfl
    · exact awake_of_ahead rfl
  case h_13 st left drained hpc =>
    have hover : Awake (if drained ≠ 0 then { s with pc := .lifecycleMetric st s.lifecycle.pendingCount }
        else { s.wakeIf s.lifecycle.pendingCount with pc := st.afterLifecycle }) := by
      split
      · exact awake_of_ahead rfl
      · exact awake_of_ahead (by cases st <;> rfl)
    unfold State.advanceLifecycle at hs
    dsimp only at hs
    split at hs
    · cases hs
      exact hover
    · cases hs
      exact hover
    · obtain ⟨lc, _, rfl⟩ := Option.map_eq_some_iff.mp hs
      exact awake_of_ahead rfl
  case h_16 st hpc =>
    cases hs
    unfold State.advanceFunctors
    dsimp only
    split <;> exact awake_of_ahead rfl
  case h_19 st hpc => cases hs; exact awake_functorEnd
  case h_20 st hpc | h_21 st hpc | h_22 st hpc | h_23 st hpc =>
    cases hs
    split
    · exact awake_head (hinv.late (by rw [hpc]; rfl))
    · exact awake_of_ahead rfl
  case h_24 st hpc => cases hs; cases st <;> exact awake_of_ahead rfl
  case h_25 => cases hs
  all_goals cases hs; first | exact awake_of_ahead rfl | (split <;> exact awake_of_ahead rfl)

theorem Awake.leave {threw : Bool} (hs : s.leave threw = some s') : Awake s' := by
  unfold State.leave at hs
  split at hs
  case h_2 st drained id hpc =>
    obtain ⟨c, _, rfl⟩ := Option.map_eq_some_iff.mp hs
    exact awake_of_ahead rfl
  case h_3 st remaining hpc | h_7 st remaining hpc | h_10 st remaining hpc =>
    cases hs
    exact awake_of_ahead (by cases st <;> rfl)
  case h_5 st slot words hpc => cases hs; cases threw <;> exact awake_of_ahead rfl
  case h_8 st left drained id hpc => cases hs; cases threw <;> exact awake_of_ahead rfl
  case h_13 => cases hs
  all_goals cases hs; exact awake_of_ahead rfl

theorem Awake.step (hinv : Inv s) (h : Awake s) (hC : NoEarlyFunctor s l)
    (hs : EventLoop.step o maxNotices s l = some s') : Awake s' := by
  cases step_took hs with
  | start hpc =>
    exact h.move hpc rfl (by simp) rfl rfl rfl rfl rfl (fun hp => by cases hp) (fun hp => by cases hp)
  | advance hs => exact h.advance hinv hs
  | timeout t hpc =>
    exact h.move hpc rfl (by simp) rfl rfl rfl rfl rfl (fun _ => Or.inr rfl) (fun _ => Or.inr rfl)
  | wait | wake => exact awake_of_ahead rfl
  | leave hs => exact Awake.leave hs
  | post _ _ _ hcan => exact h.postFunctor hcan hC
  | notify => exact h.notify
  | signal => exact h.signal
  | quit _ hcan => exact h.quitLoop hcan
  | writeWakeup => exact awake_of_wakes (Or.inl (by dsimp only; omega))
  | refused => exact h
  | register huser | unregister _ huser | attach huser | detach _ huser =>
    exact h.userCall huser rfl id rfl
  | channels | engineQuiescent => exact h.same rfl id rfl id id

theorem reach_awake (h : Reach (· = initial o) (EventLoop.step o maxNotices) NoEarlyFunctor s) :
    Awake s :=
  Reach.invariant_with reach_inv
    (by rintro s rfl; exact ⟨fun _ => Or.inl rfl, (fun hp => by cases hp), (fun hp => by cases hp)⟩)
    (fun _ _ _ hinv hP hC hs => hP.step hinv hC hs) h

/-- **No lost wakeup.** When the running loop blocks in the I/O wait and no wakeup is written or
    about to be written, no plane holds any work, provided the owner thread queued no functor
    before `loop()`. -/
theorem no_lost_wakeup {t : Nat}
    (h : Reach (· = initial o) (EventLoop.step o maxNotices) NoEarlyFunctor s)
    (hpc : s.pc = .wait .running t) (ht : 0 < t) (htokens : s.tokens = 0) (howed : s.owedWakeups = 0) :
    s.executor.pendingFunctors = [] ∧ s.control.pendingSlots = [] ∧ s.lifecycle.dirty = [] := by
  have hinv := reach_inv h
  have hawake := reach_awake h
  have hno : ¬ s.Wakes := by
    rintro (hw | ⟨htop, _⟩)
    · omega
    · rw [hpc] at htop
      cases htop
  have hpast : decide (0 < t) = true := by simpa using ht
  have hf := (hawake.functors (by rw [hpc]; rfl)).resolve_right hno
  have hc := (hawake.control (by rw [hpc]; exact hpast)).resolve_right hno
  have hl := (hawake.lifecycle (by rw [hpc]; exact hpast)).resolve_right hno
  exact ⟨hf, List.length_eq_zero_iff.mp (hinv.control.count ▸ hc),
    List.length_eq_zero_iff.mp (hinv.lifecycle.count ▸ hl)⟩

end

/-- A loop that has run a functor of another thread blocks with empty planes. -/
theorem no_lost_wakeup_second_wait :
    ∃ s, Reach (· = initial smallLoop) (step smallLoop 16) NoEarlyFunctor s ∧
      s.pc = .wait .running 10000 ∧ s.started = [7] ∧ s.executor.pendingFunctors = [] ∧
      s.control.pendingSlots = [] ∧ s.lifecycle.dirty = [] := by
  obtain ⟨s, hr, hpc, htokens, howed, hran⟩ := Reach.of_run (· = initial smallLoop)
    (step smallLoop 16) NoEarlyFunctor
    (fun s => s.pc = .wait .running 10000 ∧ s.tokens = 0 ∧ s.owedWakeups = 0 ∧ s.started = [7])
    (initial smallLoop) rfl
    [.post .remote .post (some 7), .writeWakeup, .start, .advance, .advance, .advance, .timeout 10000,
      .wait [] true, .leave false, .advance, .leave false, .advance, .advance, .advance, .advance,
      .leave false, .advance, .leave false, .advance, .advance, .advance, .advance, .advance,
      .timeout 10000]
    (by decide)
  exact ⟨s, hr, hpc, hran, no_lost_wakeup hr hpc (by decide) htokens howed⟩

/-- A functor queued by the owner thread before `loop()` writes no wakeup, and the loop blocks
    for its full poll timeout with the functor in the queue. -/
theorem early_functor_waits :
    ∃ s, Reach (· = initial smallLoop) (step smallLoop 16) Any s ∧
      s.pc = .wait .running 10000 ∧ s.tokens = 0 ∧ s.owedWakeups = 0 ∧
      s.executor.pendingFunctors = [7] :=
  Reach.of_run _ _ _ _ (initial smallLoop) rfl
    [.post .owner .queueInLoop (some 7), .start, .advance, .advance, .advance, .timeout 10000] (by decide)

end GameNet.EventLoop
