import GameNet.EventLoop.Membership

/- The interests of a Channel against the interests that the readiness port holds for it.

   A setter writes `events_` first and asks the port second. The port refuses a
   descriptor that is registered for another Channel, and a new registration when its
   tokens are used up; the exception leaves `events_` written, and since a setter
   returns early where the bit has the wanted value already, no later call repairs it.
   As long as the port grants what is asked for, the two sides agree in every state of
   every run of the loop. -/
namespace GameNet.EventLoop

open Function (update_idem update_self update_of_ne update_eq_self)
open Machine (Reach Any)

/-! ## Both sides -/

/-- What a Channel believes: its descriptor, `events_` and `addedToLoop_`. -/
structure Belief where
  fd : SocketFd
  events : Events
  added : Bool
  deriving DecidableEq, Repr

def Channel.belief (ch : Channel) : Belief := ⟨ch.fd, ch.events, ch.addedToLoop⟩

def Channels.belief (c : Channels) (id : Nat) : Option Belief := (c.channel id).map Channel.belief

/-- The interest mask that the port holds for a Channel: zero if it holds none. -/
def Channels.held (c : Channels) (id : Nat) (fd : SocketFd) : Events :=
  match c.registrations fd with
  | none => {}
  | some r => if r.target = id then r.interests else {}

/-- Every Channel believes what the port holds. -/
def Channels.Agree (c : Channels) : Prop :=
  ∀ id b, c.belief id = some b → b.events = c.held id b.fd ∧ b.added = c.has id b.fd

/-- A change that touches neither side. -/
structure Channels.SameInterest (c c' : Channels) : Prop where
  registrations : c'.registrations = c.registrations
  belief : c'.belief = c.belief

section
variable {c c' c'' : Channels} {id : Nat} {ch ch' : Channel} {events : Events}

theorem Channels.SameInterest.refl : c.SameInterest c := ⟨rfl, rfl⟩

theorem Channels.SameInterest.trans (h : c.SameInterest c') (h' : c'.SameInterest c'') :
    c.SameInterest c'' :=
  ⟨h'.registrations.trans h.registrations, h'.belief.trans h.belief⟩

theorem belief_setChannel (c : Channels) (id : Nat) (ch : Channel) :
    (c.setChannel id ch).belief = Function.update c.belief id (some ch.belief) := by
  funext i
  by_cases hi : i = id
  · subst hi
    simp [Channels.belief, Channels.setChannel]
  · simp [Channels.belief, Channels.setChannel, update_of_ne hi]

theorem Channels.SameInterest.setChannel (h : c.channel id = some ch) (hb : ch'.belief = ch.belief) :
    c.SameInterest (c.setChannel id ch') := by
  refine ⟨rfl, ?_⟩
  rw [belief_setChannel, hb]
  have hold : c.belief id = some ch.belief := by simp [Channels.belief, h]
  rw [← hold, update_eq_self]

theorem Channels.Agree.same (h : c.Agree) (hs : c.SameInterest c') : c'.Agree := by
  intro id b hb
  rw [hs.belief] at hb
  have hheld : c'.held id b.fd = c.held id b.fd := by simp [Channels.held, hs.registrations]
  have hhas : c'.has id b.fd = c.has id b.fd := by simp [Channels.has, hs.registrations]
  rw [hheld, hhas]
  exact h id b hb

/-! ## What leaves both sides alone -/

theorem destroy_interest (h : c.destroy id = some c') : c.SameInterest c' := by
  unfold Channels.destroy at h
  split at h
  · cases h
    exact .refl
  · rename_i ch hch
    split at h <;> cases h
    exact .setChannel hch rfl

theorem retire_interest (h : c.retire id = some c') : c.SameInterest c' := by
  unfold Channels.retire at h
  split at h
  · split at h <;> cases h
    exact ⟨rfl, rfl⟩
  · exact destroy_interest h

theorem enter_interest (c : Channels) (id : Nat) : c.SameInterest (c.enter id) := by
  unfold Channels.enter
  dsimp only
  split
  · exact ⟨rfl, rfl⟩
  · rename_i ch hch
    have hset : c.SameInterest (c.setChannel id { ch with eventHandling := true }) := .setChannel hch rfl
    exact ⟨rfl, hset.belief⟩

theorem leave_interest (h : c.leave id = some c') : c.SameInterest c' := by
  unfold Channels.leave at h
  dsimp only at h
  have hset (ch : Channel) (hch : c.channel id = some ch) :
      c.SameInterest (c.setChannel id { ch with eventHandling := false }) := .setChannel hch rfl
  split at h
  · cases h
    split
    · exact ⟨rfl, rfl⟩
    · exact ⟨rfl, (hset _ ‹_›).belief⟩
  · have hd := destroy_interest h
    split at hd
    · exact ⟨hd.registrations, hd.belief⟩
    · exact ⟨hd.registrations, hd.belief.trans (hset _ ‹_›).belief⟩

theorem stamp_interest (h : c.stamp = some c') : c.SameInterest c' := by
  obtain ⟨channel, rfl, hre⟩ := stamp_spec h
  refine ⟨rfl, funext fun id => ?_⟩
  rcases hre.cases id with heq | ⟨i, -, heq⟩ <;> simp only [Channels.belief, heq, Option.map_map]
  rfl

theorem wait_interest (c : Channels) (maxNotices : Nat) (native : List Native) :
    c.SameInterest (c.wait maxNotices native) := by
  have hfold : ∀ (notices : List Notice) (c : Channels),
      c.SameInterest (notices.foldl Channels.setRevents c) := by
    intro notices
    induction notices with
    | nil => exact fun _ => .refl
    | cons n rest ih =>
      intro c
      have hset : c.SameInterest (c.setRevents n) := by
        unfold Channels.setRevents
        split
        · exact .refl
        · rename_i ch hch
          exact .setChannel hch rfl
      exact hset.trans (ih _)
  have hs := hfold ((c.notices maxNotices native).filter c.isCurrent) c
  exact ⟨hs.registrations, hs.belief⟩

/-! ## Registrations -/

/-- A change of one Channel and of the registration of its descriptor. The registration was the
    Channel's own or there was none, and so it is afterwards. -/
theorem Channels.Agree.update {b : Belief} (b' : Belief) (r : Option Registration) (h : c.Agree)
    (hb : c.belief id = some b) (hfd : b'.fd = b.fd)
    (hown : ∀ r, c.registrations b.fd = some r → r.target = id)
    (hbelief : c'.belief = Function.update c.belief id (some b'))
    (hregs : c'.registrations = Function.update c.registrations b.fd r)
    (hr : ∀ q, r = some q → q.target = id)
    (hevents : b'.events = (r.map Registration.interests).getD {}) (hadded : b'.added = r.isSome) :
    c'.Agree := by
  intro j v hv
  rw [hbelief] at hv
  by_cases hj : j = id
  · subst hj
    rw [update_self, Option.some.injEq] at hv
    subst hv
    rw [hevents, hadded, Channels.held, Channels.has, hregs, hfd, update_self]
    cases r with
    | none => exact ⟨rfl, rfl⟩
    | some q => simp [hr q rfl]
  · rw [update_of_ne hj] at hv
    have hold := h j v hv
    by_cases hsame : v.fd = b.fd
    · -- another Channel of the descriptor has nothing registered, before and after
      have hnone : v.events = {} ∧ v.added = false := by
        rw [hold.1, hold.2, Channels.held, Channels.has, hsame]
        cases hr₀ : c.registrations b.fd with
        | none => exact ⟨rfl, rfl⟩
        | some q => simp [hown q hr₀, Ne.symm hj]
      rw [hnone.1, hnone.2, Channels.held, Channels.has, hregs, hsame, update_self]
      cases r with
      | none => exact ⟨rfl, rfl⟩
      | some q => simp [hr q rfl, Ne.symm hj]
    · rw [Channels.held, Channels.has, hregs, update_of_ne hsame]
      exact hold

/-- The port will do what a setter asks for. -/
def Channels.grants (c : Channels) (id : Nat) (events : Events) : Bool :=
  match c.channel id with
  | none => true
  | some ch =>
    ch.events == events || ch.fd != kInvalidSocket &&
      match c.registrations ch.fd with
      | none => c.nextGeneration != 0 && c.nextGeneration != 2 ^ 32 - 1
      | some r => r.target == id

theorem Channels.Agree.setEvents (h : c.Agree) (hg : c.grants id events = true) :
    (c.setEvents id events).Agree := by
  unfold Channels.grants at hg
  unfold Channels.setEvents
  cases hch : c.channel id with
  | none => exact h
  | some ch =>
  rw [hch] at hg
  dsimp only at hg ⊢
  split
  · exact h
  rename_i hne
  have hb : c.belief id = some ch.belief := by simp [Channels.belief, hch]
  obtain ⟨hevents, hadded⟩ := h id ch.belief hb
  have hset := belief_setChannel c id { ch with events := events }
  simp only [Bool.or_eq_true, beq_iff_eq, hne, false_or, Bool.and_eq_true, bne_iff_ne] at hg
  obtain ⟨hfd, hg⟩ := hg
  cases hr : c.registrations ch.fd with
  | none =>
    -- a first registration
    have hempty : ch.events = {} := by
      rw [show ch.events = _ from hevents, Channels.held, show ch.belief.fd = ch.fd from rfl, hr]
    have hnew : ch.addedToLoop = false := by
      rw [show ch.addedToLoop = _ from hadded, Channels.has, show ch.belief.fd = ch.fd from rfl, hr]
    have hsome : events.isNone = false := by
      rw [Bool.eq_false_iff, Ne, isNone_iff]
      exact fun he => hne (hempty.trans he.symm)
    rw [hr] at hg
    simp only [Bool.and_eq_true, bne_iff_ne, ne_eq] at hg
    have htokens : ¬ (c.nextGeneration = 0 ∨ c.nextGeneration = 2 ^ 32 - 1) := not_or.mpr hg
    have hreg : (c.setChannel id { ch with events := events }).registerOrUpdate id ch.fd events =
        some (.accepted, { c.setChannel id { ch with events := events } with
          registrations := Function.update c.registrations ch.fd
            (some ⟨c.nextGeneration, id, events, true⟩)
          nextGeneration := c.nextGeneration + 1 }) := by
      rw [Channels.registerOrUpdate, if_neg hfd, show (c.setChannel id _).registrations ch.fd = none from hr]
      simp only [hsome, Bool.false_eq_true, if_false]
      rw [if_neg (by exact htokens)]
      rfl
    rw [hreg]
    dsimp only
    rw [if_neg (by rw [hnew]; exact Bool.false_ne_true)]
    refine h.update ⟨ch.fd, events, true⟩ (some ⟨c.nextGeneration, id, events, true⟩) hb rfl ?_ ?_ rfl ?_
      rfl rfl
    · intro q hq
      rw [show c.registrations ch.belief.fd = none from hr] at hq
      cases hq
    · refine (belief_setChannel _ _ _).trans ((congrArg (Function.update · id _) hset).trans ?_)
      exact update_idem _ _ _
    · intro q hq
      cases hq
      rfl
  | some r =>
    -- a new mask for the registration there is
    rw [hr] at hg
    have htarget : r.target = id := by simpa using hg
    have hold : ch.addedToLoop = true := by
      rw [show ch.addedToLoop = _ from hadded, Channels.has, show ch.belief.fd = ch.fd from rfl, hr]
      simpa using htarget
    have hmask : r.interests ≠ events := by
      intro he
      apply hne
      rw [show ch.events = _ from hevents, Channels.held, show ch.belief.fd = ch.fd from rfl, hr]
      simp [htarget, he]
    have hreg : (c.setChannel id { ch with events := events }).registerOrUpdate id ch.fd events =
        some (.accepted, { c.setChannel id { ch with events := events } with
          registrations := Function.update c.registrations ch.fd
            (some { r with interests := events, inKernel := !events.isNone }) }) := by
      rw [Channels.registerOrUpdate, if_neg hfd, show (c.setChannel id _).registrations ch.fd = some r from hr]
      simp only [htarget, ne_eq, not_true_eq_false, if_false, hmask]
      rfl
    rw [hreg]
    dsimp only
    rw [if_pos hold]
    refine h.update ⟨ch.fd, events, true⟩ (some { r with interests := events, inKernel := !events.isNone })
      hb rfl ?_ ?_ rfl ?_ rfl rfl
    · intro q hq
      rw [show c.registrations ch.belief.fd = some r from hr] at hq
      cases hq
      exact htarget
    · refine hset.trans ?_
      rw [Channel.belief, hold]
    · intro q hq
      cases hq
      exact htarget

theorem Channels.Agree.remove (h : c.Agree) (hr : c.remove id = some c') : c'.Agree := by
  unfold Channels.remove at hr
  split at hr
  · cases hr
    exact h
  rename_i ch hch
  split at hr
  · cases hr
    exact h
  rename_i hchecks
  split at hr
  · rename_i c₁ hcancel
    obtain ⟨c₂, hentry, rfl⟩ := Option.map_eq_some_iff.mp hr
    have hb : c.belief id = some ch.belief := by simp [Channels.belief, hch]
    obtain ⟨hown, hregs⟩ : (∀ r, c.registrations ch.fd = some r → r.target = id) ∧
        c₁ = { c with registrations := Function.update c.registrations ch.fd none } := by
      unfold Channels.cancel at hcancel
      split at hcancel
      · cases hcancel
      · rename_i r hreg
        split at hcancel <;> cases hcancel
        rename_i htarget
        exact ⟨fun q hq => by rw [hreg] at hq; cases hq; exact not_not.mp htarget, rfl⟩
    subst hregs
    have hevents : ch.events = {} := by
      rw [not_or, not_or] at hchecks
      rw [← isNone_iff]
      simpa using hchecks.2.1
    refine h.update ⟨ch.fd, {}, false⟩ none hb rfl hown ?_ ?_ (fun q hq => by cases hq) rfl rfl
    · rcases Channels.clearEntry_eq hentry with ⟨_, _, rfl⟩ | ⟨_, rfl⟩
      all_goals
        refine (belief_setChannel _ _ _).trans ?_
        rw [Channel.belief, hevents]
        rfl
    · rcases Channels.clearEntry_eq hentry with ⟨_, _, rfl⟩ | ⟨_, rfl⟩ <;> rfl
  · cases hr
    exact h

/-- A new Channel has no interests, and nothing is registered for it. -/
theorem Channels.Agree.new (h : c.Agree) (hg : c.Good) (fd : SocketFd) : (c.new fd).Agree := by
  intro id b hb
  have hbelief : (c.new fd).belief = Function.update c.belief c.nextChannel (some ⟨fd, {}, false⟩) :=
    belief_setChannel c c.nextChannel { fd := fd }
  rw [hbelief] at hb
  by_cases hid : id = c.nextChannel
  · subst hid
    rw [update_self, Option.some.injEq] at hb
    subst hb
    have hfree : ∀ r, c.registrations fd = some r → r.target ≠ c.nextChannel := by
      intro r hr he
      obtain ⟨st, hst, _⟩ := hg.port fd r hr
      exact absurd (hg.used _ _ hst).1 (by rw [he]; exact Nat.lt_irrefl _)
    show _ = c.held c.nextChannel fd ∧ _ = c.has c.nextChannel fd
    rw [Channels.held, Channels.has]
    cases hr : c.registrations fd with
    | none => exact ⟨rfl, rfl⟩
    | some r => simp [hfree r hr]
  · rw [update_of_ne hid] at hb
    exact h id b hb

end

/-! ## Runs -/

/-- The port refuses no setter. -/
def Granted (s : State) : Label → Prop
  | .setInterest id setter => s.channels.grants id (setter.mask (s.channels.events id)) = true
  | _ => True

instance (s : State) : (l : Label) → Decidable (Granted s l)
  | .setInterest _ _ => inferInstanceAs (Decidable (_ = true))
  | .start | .advance | .timeout _ | .wait _ _ | .leave _ | .post _ _ _ | .notify _ _ | .signal _ _
  | .quit _ | .writeWakeup | .registerControl | .unregisterControl _ | .attach _ | .detach _
  | .newChannel _ | .removeChannel _ | .destroyChannel _ | .retireChannel _
  | .engineQuiescent _ => .isTrue trivial

section
variable {o : Options} {maxNotices : Nat} {s s' : State} {l : Label}

theorem Channels.Agree.moves (h : s.channels.Agree) (hg : s.channels.Good) (hc : Granted s l)
    (hm : Moves maxNotices s l s') : s'.channels.Agree := by
  cases hm with
  | same channels => rw [channels]; exact h
  | clear channels => rw [channels]; exact h.same ⟨rfl, rfl⟩
  | wait native channels => rw [channels]; exact h.same (wait_interest _ _ _)
  | «begin» c stamped channels =>
    rw [channels]
    split at stamped
    · have hs := stamp_interest stamped
      exact h.same ⟨hs.registrations, hs.belief⟩
    · cases stamped
      exact h.same ⟨rfl, rfl⟩
  | pass _ _ channels => rw [channels]; exact h.same ⟨rfl, rfl⟩
  | enter id _ _ channels => rw [channels]; exact h.same (enter_interest _ _)
  | concluded channels => rw [channels]; exact h.same ⟨rfl, rfl⟩
  | leave id channels => exact h.same (leave_interest channels)
  | call user pc channels =>
    cases channels with
    | new fd label eq => rw [eq]; exact h.new hg fd
    | set id setter label eq =>
      subst label
      rw [eq, setter.call_eq]
      exact h.setEvents hc
    | remove id label eq => exact h.remove eq
    | destroy id label eq => exact h.same (destroy_interest eq)
    | retire id label eq => exact h.same (retire_interest eq)

theorem reach_agree (h : Reach (· = initial o) (EventLoop.step o maxNotices) Granted s) :
    s.channels.Agree :=
  Reach.invariant_with (fun h => reach_member (h.weaken (D := Any) (fun _ _ _ => trivial)))
    (P := fun s => s.channels.Agree)
    (by rintro s rfl id b hb; cases hb)
    (fun _ _ _ hm hP hC hs => hP.moves hm.good hC (step_moves hs)) h

/-- **Interest and registration agree.** In every state of a run in which the port refuses no setter, a
    Channel's events are the interest mask that the port holds for it, zero if it holds none, and the
    Channel counts as added exactly when the port holds a registration for it. -/
theorem interest_matches_registration
    (h : Reach (· = initial o) (EventLoop.step o maxNotices) Granted s) (id : Nat) (ch : Channel)
    (hch : s.channels.channel id = some ch) :
    ch.events = s.channels.held id ch.fd ∧ ch.addedToLoop = s.channels.has id ch.fd :=
  reach_agree h id ch.belief (by rw [Channels.belief, hch]; rfl)

end

/-- Two Channels take turns on one descriptor: the first one is removed before the second one is
    enabled. -/
theorem interest_matches_registration_turns :
    ∃ s ch, Reach (· = initial smallLoop) (step smallLoop 16) Granted s ∧
      s.channels.channel 1 = some ch ∧ ch.fd = 5 ∧ ch.addedToLoop = true ∧
      ch.events = s.channels.held 1 5 ∧ ch.addedToLoop = s.channels.has 1 5 := by
  obtain ⟨s, hr, hch⟩ := Reach.of_run (· = initial smallLoop) (step smallLoop 16) Granted
    (fun s => (s.channels.channel 1).any (fun ch => ch.fd == 5 && ch.addedToLoop) = true)
    (initial smallLoop) rfl
    [.newChannel 5, .newChannel 5, .setInterest 0 .enableReading, .setInterest 0 .disableReading,
      .removeChannel 0, .setInterest 1 .enableReading, .setInterest 1 .enableWriting]
    (by decide)
  cases hsome : s.channels.channel 1 with
  | none =>
    rw [hsome] at hch
    cases hch
  | some ch =>
    rw [hsome, Option.any_some, Bool.and_eq_true, beq_iff_eq] at hch
    have hagree := interest_matches_registration hr 1 ch hsome
    rw [hch.1] at hagree
    exact ⟨s, ch, hr, hsome, hch.1, hch.2, hagree⟩

/-- The second Channel of a descriptor is enabled while the first one is registered: the call throws and
    leaves the mask set. After the first one is removed, `enableReading` finds the bit set and asks for
    nothing. -/
theorem refused_setter_diverges :
    ∃ s, Reach (· = initial smallLoop) (step smallLoop 16) Any s ∧
      (s.channels.channel 1).map Channel.events = some { read := true } ∧
      s.channels.held 1 5 = {} ∧ s.channels.registrations 5 = none ∧
      ((s.channels.enableReading 1).registrations 5) = none :=
  Reach.of_run _ _ _ _ (initial smallLoop) rfl
    [.newChannel 5, .newChannel 5, .setInterest 0 .enableReading, .setInterest 1 .enableReading,
      .setInterest 0 .disableAll, .removeChannel 0]
    (by decide)

end GameNet.EventLoop
