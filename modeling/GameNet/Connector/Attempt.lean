import GameNet.Connector.Ownership

/- What becomes of an attempt. A connector carries an attempt when its channel is registered, a retry
   timer of the current generation is armed, or a frame continues it. A step of the frame that
   continues it hands it on, or ends it with a terminal failure or with a descriptor for the
   new-connection callback; a step of a stale frame or timer does not touch it. This is what a user of
   the connector may rely on. -/
namespace GameNet.Connector

/-! ## Carrying an attempt -/

/-- The frame continues an attempt that is not delivered yet. -/
def Frame.pending : Frame → Bool
  | .emit _ | .newConnection _ | .settle _ => false
  | _ => true

/-- The frame may end an attempt with a terminal failure. -/
def Frame.fails : Frame → Bool
  | .refused _ _ | .retry _ _ | .timedOut _ => true
  | _ => false

def Core.awaitsRetry (c : Core) : Prop :=
  ∃ t ∈ c.timers, t.kind = .retry ∧ t.generation = c.requestGeneration

structure Carried (c : Core) (stack : List Frame) : Prop where
  any : c.channel ≠ none ∨ c.awaitsRetry ∨
    ∃ f ∈ stack, f.pending = true ∧ f.generation = some c.requestGeneration

/-- The configuration is the same, and the generation. -/
structure Same (c c' : Core) : Prop where
  generation : c'.requestGeneration = c.requestGeneration
  retryEnabled : c'.retryEnabled = c.retryEnabled
  newConnectionCallback : c'.newConnectionCallback = c.newConnectionCallback

/-- The frame below the callback of an event. -/
def follows : ConnectorEvent → Frame → Bool
  | .connectAttempt, .attempt _ => true
  | .connectFailed, .retry _ _ | .connectFailed, .refused _ _ => true
  | .selfConnectDetected, .retry _ _ => true
  | .connectTimeout, .timedOut _ => true
  | .retryScheduled, .schedule _ => true
  | .connectSuccess, .deliver _ _ => true
  | _, _ => false

/-- What a step does with an attempt, given whether there was one, whether it may fail for good, and
    the frames that stay. -/
inductive Outcome (c : Core) (before fails : Prop) (rest : List Frame) :
    Core × List Frame → Prop where
  /-- The channel or the timer has it, or there was none. -/
  | kept (c' : Core) (hsame : Same c c') (hkept : Carried c' rest ↔ before) :
      Outcome c before fails rest (c', [])
  | emitted (c' : Core) (event : ConnectorEvent) (f : Frame) (hsame : Same c c')
      (hfollows : follows event f = true) (hcurrent : f.generation = some c.requestGeneration)
      (hretry : event = .retryScheduled → c'.retryEnabled = true) (hbefore : before) :
      Outcome c before fails rest (c', [.emit event, f])
  | failed (c' : Core) (hsame : Same c c') (hfails : fails) (hbefore : before) :
      Outcome c before fails rest (c', [.emit .terminalFailure])
  | delivered (c' : Core) (fd : Nat) (hsame : Same c c') (hbefore : before) :
      Outcome c before fails rest (c', [.newConnection fd, .settle c.requestGeneration])

section
variable {c c' : Core} {stack rest : List Frame} {f : Frame}

theorem follows_pending {event : ConnectorEvent} (h : follows event f = true) : f.pending = true := by
  cases event <;> cases f <;> first | rfl | cases h

/-- A stop or another generation leaves nothing behind. -/
theorem Stale.not_carried (h : Stale c stack) (hchannel : c.channel = none) : ¬Carried c stack := by
  rintro ⟨hch | ⟨t, ht, hkind, hcurrent⟩ | ⟨f, hf, -, hcurrent⟩⟩
  · exact hch hchannel
  · exact ((h.timers t ht).2 hkind).ne hcurrent
  · exact (h.frames f hf _ hcurrent).ne rfl

theorem Clear.not_carried (h : Clear c stack) : ¬Carried c stack := by
  exact h.stale.not_carried (h.channels.none_of (by rw [h.state]; exact nofun))

/-- An attempt that was delivered is not carried. -/
theorem Good.not_carried_of_settle (h : Good c stack) {g : Nat} (hmem : .settle g ∈ stack)
    (hg : g = c.requestGeneration) : ¬Carried c stack := by
  subst hg
  obtain ⟨-, hstate⟩ := (h.ranked.frames _ hmem _ rfl).2 rfl
  have hnone := h.channels.none_of (by rw [hstate]; exact nofun)
  rintro ⟨hch | ⟨t, ht, hkind, hcurrent⟩ | ⟨f, hf, hpending, hcurrent⟩⟩
  · exact hch hnone
  · have htimer := ((h.ranked.timers t ht).2 hkind hcurrent).2
    rw [hstate] at htimer
    cases htimer
  · -- Two frames of the current generation would be two tokens.
    have hone := h.ranked.one
    obtain ⟨before, after, hsplit⟩ := List.append_of_mem hmem
    have hsettle : Frame.isCurrent c (.settle c.requestGeneration) = 1 := if_pos rfl
    have hother : f.isCurrent c = 1 := if_pos hcurrent
    have hne : f ≠ .settle c.requestGeneration := by
      rintro rfl
      cases hpending
    rw [hsplit, Stacks.weight_append, Stacks.weight_cons, hsettle] at hone
    rw [hsplit] at hf
    rcases List.mem_append.mp hf with hf | hf
    · have hle := Stacks.le_weight (Frame.isCurrent c) hf
      omega
    · rcases List.mem_cons.mp hf with hf | hf
      · exact hne hf
      · have hle := Stacks.le_weight (Frame.isCurrent c) hf
        omega

/-! ## Calls -/

theorem startInLoop_eq {generation : Nat} (hconnect : c.connect = true)
    (hcurrent : generation = c.requestGeneration) :
    ∃ c', c.startInLoop generation = (c', [.emit .connectAttempt, .attempt generation]) ∧
      Same c c' := by
  rw [Core.startInLoop, if_neg (by rw [hconnect, hcurrent]; simp)]
  refine ⟨_, rfl, ?_⟩
  split <;> exact ⟨rfl, rfl, rfl⟩

/-- `start` begins an attempt, unless the connector is connected. -/
theorem start_eq (hstate : c.state ≠ .connected) :
    ∃ c', c.start = (c', [.emit .connectAttempt, .attempt c'.requestGeneration]) ∧
      c'.retryEnabled = c.retryEnabled ∧ c'.newConnectionCallback = c.newConnectionCallback := by
  rw [start_of_ne hstate]
  generalize hc₁ : (if c.state = .connecting then _ else _ : Core) = c₁
  have hfields : c₁.connect = true ∧ c₁.requestGeneration = c.requestGeneration + 1 ∧
      c₁.retryEnabled = c.retryEnabled ∧ c₁.newConnectionCallback = c.newConnectionCallback := by
    subst hc₁
    split
    · obtain ⟨id, timers, hcancel, -⟩ := cancelConnectTimeout_eq
        { c with connect := true, requestGeneration := c.requestGeneration + 1 }
      simp only [hcancel]
      split
      · exact ⟨rfl, rfl, rfl, rfl⟩
      · rw [Core.closeChannel, Core.releaseChannel]
        split <;> exact ⟨rfl, rfl, rfl, rfl⟩
    · exact ⟨rfl, rfl, rfl, rfl⟩
  obtain ⟨hconnect, hgeneration, hretry, hcallback⟩ := hfields
  obtain ⟨c', heq, hsame⟩ := startInLoop_eq hconnect hgeneration.symm
  refine ⟨c', ?_, hsame.retryEnabled.trans hretry, hsame.newConnectionCallback.trans hcallback⟩
  rw [heq, hsame.generation, hgeneration]

theorem restart_eq (c : Core) :
    ∃ c', c.restart = (c', [.emit .connectAttempt, .attempt c'.requestGeneration]) ∧
      c'.retryEnabled = c.retryEnabled ∧ c'.newConnectionCallback = c.newConnectionCallback := by
  obtain ⟨id, timers, hcancel, -⟩ := cancelRetryTimer_eq c
  obtain ⟨id', timers', hcancel', -⟩ := cancelConnectTimeout_eq
    { c with retryTimerId := id, timers := timers }
  rw [Core.restart]
  simp only [hcancel, hcancel']
  split
  · exact start_eq (by simp)
  · exact start_eq ‹_›

/-! ## Frames -/

/-- A frame of another generation, or of none, does not touch the attempt. -/
theorem carried_pop (hstale : f.pending = true → f.generation ≠ some c.requestGeneration)
    (hchannel : c'.channel = c.channel) (htimers : c'.timers = c.timers)
    (hgeneration : c'.requestGeneration = c.requestGeneration) :
    Carried c' rest ↔ Carried c (f :: rest) := by
  constructor
  · rintro ⟨hch | ⟨t, ht, hkind, hcurrent⟩ | ⟨x, hx, hpending, hcurrent⟩⟩
    · exact ⟨.inl (hchannel ▸ hch)⟩
    · exact ⟨.inr (.inl ⟨t, htimers ▸ ht, hkind, hgeneration ▸ hcurrent⟩)⟩
    · exact ⟨.inr (.inr ⟨x, .tail _ hx, hpending, hgeneration ▸ hcurrent⟩)⟩
  · rintro ⟨hch | ⟨t, ht, hkind, hcurrent⟩ | ⟨x, hx, hpending, hcurrent⟩⟩
    · exact ⟨.inl (hchannel.symm ▸ hch)⟩
    · exact ⟨.inr (.inl ⟨t, htimers.symm ▸ ht, hkind, hgeneration.symm ▸ hcurrent⟩)⟩
    · rcases List.mem_cons.mp hx with rfl | hx
      · exact absurd hcurrent (hstale hpending)
      · exact ⟨.inr (.inr ⟨x, hx, hpending, hgeneration.symm ▸ hcurrent⟩)⟩

/-- The frame on the top carries the attempt. -/
theorem Carried.head (hpending : f.pending = true)
    (hcurrent : f.generation = some c.requestGeneration) : Carried c (f :: rest) :=
  ⟨.inr (.inr ⟨f, .head _, hpending, hcurrent⟩)⟩

theorem attempt_outcome {fails : Prop} {g : Nat} (h : Good c (.attempt g :: rest)) (dial : Dial) :
    Outcome c (Carried c (.attempt g :: rest)) fails rest (c.attempt g dial) := by
  rw [Core.attempt]
  split
  case isTrue hstale =>
    refine .kept c ⟨rfl, rfl, rfl⟩ (carried_pop (fun _ hcurrent => ?_) rfl rfl rfl)
    rcases hstale with hne | hconnect
    · exact hne (Option.some.inj hcurrent)
    · have hconnect' := ((h.ranked.frames _ (.head _) g rfl).2 (Option.some.inj hcurrent)).1
      rw [hconnect] at hconnect'
      cases hconnect'
  case isFalse hcurrent =>
    rw [not_or, not_not, Bool.not_eq_false] at hcurrent
    obtain ⟨rfl, hconnect⟩ := hcurrent
    have hbefore : Carried c (.attempt c.requestGeneration :: rest) := .head rfl rfl
    cases dial with
    | noSocket => exact .emitted _ _ _ ⟨rfl, rfl, rfl⟩ rfl rfl (by simp) hbefore
    | inProgress =>
      have hclear := h.take rfl rfl rfl
      have hconnecting : ({ c with created := c.created + 1 }.connecting c.created
          c.requestGeneration).channel ≠ none ∧
          Same c ({ c with created := c.created + 1 }.connecting c.created c.requestGeneration) := by
        rw [Core.connecting, if_neg (by rw [hconnect]; simp)]
        dsimp only
        split
        · split <;> exact ⟨by rintro ⟨⟩, rfl, rfl, rfl⟩
        · split <;> exact ⟨by rintro ⟨⟩, rfl, rfl, rfl⟩
      exact .kept _ hconnecting.2 ⟨fun _ => hbefore, fun _ => ⟨.inl hconnecting.1⟩⟩
    | retryable => exact .emitted _ _ _ ⟨rfl, rfl, rfl⟩ rfl rfl (by simp) hbefore
    | refused => exact .emitted _ _ _ ⟨rfl, rfl, rfl⟩ rfl rfl (by simp) hbefore

/-- `retry` of the current attempt -/
theorem retry_eq (hconnect : c.connect = true) (fd : Option Nat) :
    ∃ c', Same c c' ∧ c.retry fd c.requestGeneration =
      if c.retryEnabled then c'.emitEvent .retryScheduled [.schedule c.requestGeneration]
      else c'.emitEvent .terminalFailure [] := by
  cases fd with
  | none =>
    refine ⟨{ c with state := .disconnected }, ⟨rfl, rfl, rfl⟩, ?_⟩
    rw [Core.retry]
    simp only [ne_eq, not_true_eq_false, if_false, hconnect, true_and, if_true]
  | some fd =>
    refine ⟨{ c.close fd with state := .disconnected }, ⟨rfl, rfl, rfl⟩, ?_⟩
    rw [Core.retry]
    simp only [Core.close, ne_eq, not_true_eq_false, if_false, hconnect, true_and, if_true]

theorem retry_outcome {before fails : Prop} (hsame : Same c c') (hconnect : c'.connect = true)
    (fd : Option Nat) (hfails : fails) (hbefore : before) :
    Outcome c before fails rest (c'.retry fd c.requestGeneration) := by
  obtain ⟨c₁, hsame₁, heq⟩ := retry_eq hconnect fd
  have hgeneration := hsame₁.generation.trans hsame.generation
  have henabled := hsame₁.retryEnabled.trans hsame.retryEnabled
  have hcallback := hsame₁.newConnectionCallback.trans hsame.newConnectionCallback
  rw [← hsame.generation, heq]
  split
  case isTrue hretry =>
    exact .emitted _ _ _ ⟨hgeneration, henabled, hcallback⟩ rfl (congrArg some hsame.generation)
      (fun _ => hsame₁.retryEnabled.trans hretry) hbefore
  case isFalse => exact .failed _ ⟨hgeneration, henabled, hcallback⟩ hfails hbefore

theorem settle_outcome {fails : Prop} {g : Nat} (threw : Prop) [Decidable threw] :
    Outcome c (Carried c (.settle g :: rest)) fails rest
      (if threw then (c.settleCompletedAttempt, []) else (c, [])) := by
  split
  · rw [Core.settleCompletedAttempt]
    split <;> exact .kept _ ⟨rfl, rfl, rfl⟩ (carried_pop (by rintro ⟨⟩) rfl rfl rfl)
  · exact .kept _ ⟨rfl, rfl, rfl⟩ (carried_pop (by rintro ⟨⟩) rfl rfl rfl)

/-- A step of a frame. A retry that was announced is scheduled as long as retries are enabled. -/
theorem resume_outcome (h : Good c (f :: rest)) (answer : Answer)
    (hschedule : ∀ g, f = .schedule g → g = c.requestGeneration → c.retryEnabled = true)
    (hcallback : c.newConnectionCallback = true) :
    Outcome c (Carried c (f :: rest))
      (f.fails = true ∧ f.generation = some c.requestGeneration) rest (c.resume answer f) := by
  cases f with
  | emit event => exact .kept c ⟨rfl, rfl, rfl⟩ (carried_pop nofun rfl rfl rfl)
  | newConnection fd => exact .kept c ⟨rfl, rfl, rfl⟩ (carried_pop nofun rfl rfl rfl)
  | attempt g => exact attempt_outcome h answer.dial
  | settle g => exact settle_outcome _
  | refused fd g =>
    rw [Core.resume]
    split
    case isTrue hcurrent =>
      obtain ⟨hgeneration, -⟩ := hcurrent
      exact .failed _ ⟨rfl, rfl, rfl⟩ ⟨rfl, congrArg some hgeneration⟩
        (.head rfl (congrArg some hgeneration))
    case isFalse hstale =>
      refine .kept _ ⟨rfl, rfl, rfl⟩ (carried_pop (fun _ hcurrent => hstale ?_) rfl rfl rfl)
      have hg := Option.some.inj hcurrent
      exact ⟨hg, ((h.ranked.frames _ (.head _) g rfl).2 hg).1⟩
  | retry fd g =>
    by_cases hg : g = c.requestGeneration
    · subst hg
      exact retry_outcome ⟨rfl, rfl, rfl⟩ ((h.ranked.frames _ (.head _) _ rfl).2 rfl).1 fd
        ⟨rfl, rfl⟩ (.head rfl rfl)
    · rw [Core.resume]
      unfold Core.retry
      cases fd with
      | none =>
        dsimp only
        rw [if_pos hg]
        exact .kept _ ⟨rfl, rfl, rfl⟩
          (carried_pop (fun _ hcurrent => hg (Option.some.inj hcurrent)) rfl rfl rfl)
      | some fd =>
        dsimp only
        rw [if_pos (by exact hg)]
        exact .kept _ ⟨rfl, rfl, rfl⟩
          (carried_pop (fun _ hcurrent => hg (Option.some.inj hcurrent)) rfl rfl rfl)
  | schedule g =>
    by_cases hg : g = c.requestGeneration
    · have hretry := hschedule g rfl hg
      have hconnect := ((h.ranked.frames _ (.head _) _ rfl).2 hg).1
      rw [Core.resume, if_neg (by rw [hconnect, hretry]; simp [hg])]
      exact .kept _ ⟨rfl, rfl, rfl⟩ ⟨fun _ => .head rfl (congrArg some hg),
        fun _ => ⟨.inr (.inl ⟨_, .head _, rfl, hg⟩)⟩⟩
    · rw [Core.resume, if_pos (.inl hg)]
      exact .kept _ ⟨rfl, rfl, rfl⟩
        (carried_pop (fun _ hcurrent => hg (Option.some.inj hcurrent)) rfl rfl rfl)
  | deliver fd g =>
    by_cases hg : g = c.requestGeneration
    · subst hg
      have hconnect := ((h.ranked.frames _ (.head _) _ rfl).2 rfl).1
      rw [Core.resume, if_pos ⟨rfl, hconnect, hcallback⟩]
      exact .delivered _ _ ⟨rfl, rfl, rfl⟩ (.head rfl rfl)
    · rw [Core.resume, if_neg fun hc => hg hc.1, Core.settleCompletedAttempt]
      split
      all_goals
        refine .kept _ ⟨?_, ?_, ?_⟩
          (carried_pop (fun _ hcurrent => hg (Option.some.inj hcurrent)) ?_ ?_ ?_)
        all_goals rfl
  | timedOut g =>
    by_cases hg : g = c.requestGeneration
    · subst hg
      obtain ⟨hconnect, hstate⟩ := (h.ranked.frames _ (.head _) _ rfl).2 rfl
      obtain ⟨ch, hch, -⟩ := h.channels.some_of hstate
      rw [Core.resume, if_neg (by rw [hconnect]; simp),
        releaseChannel_eq hch h.channels.registered]
      have hbefore : Carried c (.timedOut c.requestGeneration :: rest) := .head rfl rfl
      exact retry_outcome (by exact ⟨rfl, rfl, rfl⟩) (by exact hconnect) none ⟨rfl, rfl⟩ hbefore
    · rw [Core.resume, if_pos (.inl hg)]
      exact .kept _ ⟨rfl, rfl, rfl⟩
        (carried_pop (fun _ hcurrent => hg (Option.some.inj hcurrent)) rfl rfl rfl)

/-! ## Events -/

theorem handleWrite_outcome (h : Good c []) {ch : Channel} (hmem : ch ∈ c.registered)
    (probe : Probe) :
    Outcome c (Carried c []) False [] (c.handleWrite ch.generation probe) := by
  obtain ⟨hmem, hgeneration, hconnect, hstate⟩ := h.reported hmem
  have hbefore : Carried c [] := ⟨.inl (h.channels.connecting.mp hstate)⟩
  obtain ⟨id, timers, hcancel, -⟩ := cancelConnectTimeout_eq c
  rw [Core.handleWrite, if_neg (not_not.mpr hstate), if_neg (by rw [hconnect]; simp [hgeneration]),
    hcancel, releaseChannel_eq (by exact hmem) (by exact h.channels.registered), hgeneration]
  cases probe <;> exact .emitted _ _ _ ⟨rfl, rfl, rfl⟩ rfl rfl (by simp) hbefore

theorem handleError_outcome (h : Good c []) {ch : Channel} (hmem : ch ∈ c.registered) :
    Outcome c (Carried c []) False [] (c.handleError ch.generation) := by
  obtain ⟨hmem, hgeneration, -, hstate⟩ := h.reported hmem
  obtain ⟨id, timers, hcancel, -⟩ := cancelConnectTimeout_eq c
  rw [Core.handleError, if_neg (not_not.mpr hstate), hcancel,
    releaseChannel_eq (by exact hmem) (by exact h.channels.registered), hgeneration]
  exact .emitted _ _ _ ⟨rfl, rfl, rfl⟩ rfl rfl (by simp) ⟨.inl (h.channels.connecting.mp hstate)⟩

/-- A timer that is not the retry of the current generation is taken from the loop. -/
theorem carried_takeTimer {t : Timer} (hstale : t.kind = .retry → t.generation ≠ c.requestGeneration)
    (hchannel : c'.channel = c.channel) (htimers : c'.timers = c.timers.erase t)
    (hgeneration : c'.requestGeneration = c.requestGeneration) :
    Carried c' [] ↔ Carried c [] := by
  constructor
  · rintro ⟨hch | ⟨x, hx, hkind, hcurrent⟩ | ⟨x, hx, -⟩⟩
    · exact ⟨.inl (hchannel ▸ hch)⟩
    · exact ⟨.inr (.inl ⟨x, List.mem_of_mem_erase (htimers ▸ hx), hkind, hgeneration ▸ hcurrent⟩)⟩
    · cases hx
  · rintro ⟨hch | ⟨x, hx, hkind, hcurrent⟩ | ⟨x, hx, -⟩⟩
    · exact ⟨.inl (hchannel.symm ▸ hch)⟩
    · refine ⟨.inr (.inl ⟨x, ?_, hkind, hgeneration.symm ▸ hcurrent⟩)⟩
      rw [htimers, List.mem_erase_of_ne]
      · exact hx
      · rintro rfl
        exact hstale hkind hcurrent
    · cases hx

theorem fire_outcome (h : Good c []) {t : Timer} (ht : t ∈ c.timers) :
    Outcome c (Carried c []) False [] (c.fire t) := by
  unfold Core.fire
  dsimp only
  split
  case h_1 hkind =>
    by_cases hcurrent : t.generation = c.requestGeneration
    · have hconnect := ((h.ranked.timers t ht).2 hkind hcurrent).1
      obtain ⟨c', heq, hsame⟩ := startInLoop_eq
        (c := { c with timers := c.timers.erase t, retryTimerId := none }) hconnect hcurrent
      rw [Core.handleRetry, if_neg (by rw [hconnect]; simp [hcurrent]), heq, hcurrent]
      exact .emitted _ _ _ { hsame with } rfl rfl
        (by simp) ⟨.inr (.inl ⟨t, ht, hkind, hcurrent⟩)⟩
    · rw [Core.handleRetry, if_pos (.inl hcurrent)]
      exact .kept _ ⟨rfl, rfl, rfl⟩ (carried_takeTimer (fun _ => hcurrent) rfl rfl rfl)
  case h_2 hkind =>
    have hstale : t.kind = .retry → t.generation ≠ c.requestGeneration := by
      rw [hkind]
      simp
    rw [Core.handleConnectTimeout]
    split
    · exact .kept _ ⟨rfl, rfl, rfl⟩ (carried_takeTimer hstale rfl rfl rfl)
    case isFalse hcurrent =>
      rw [not_not] at hcurrent
      dsimp only
      split
      · exact .kept _ ⟨rfl, rfl, rfl⟩ (carried_takeTimer hstale rfl rfl rfl)
      case isFalse hstate =>
        rw [not_not] at hstate
        rw [hcurrent]
        exact .emitted _ _ _ ⟨rfl, rfl, rfl⟩ rfl rfl (by simp) ⟨.inl (h.channels.connecting.mp hstate)⟩

end

end GameNet.Connector
