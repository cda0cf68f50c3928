import GameNet.EventLoop.Planes

/- The Channels of an EventLoop, the epoll readiness port they are registered with,
   and the active batch (`Channel.cc`, `EpollReadinessPort.cc`,
   `PollerIoEngineAdapter.cc`, `EventLoop.cc`; non-Windows build).

   A Channel object is named by a number, as its address is by a pointer, and the
   record stays readable after the object is destroyed. `activeChannels` is the
   vector of raw pointers that a wait captures; a Channel finds its own entry again
   only through the epoch and the index that are stamped on it when the dispatch of
   the batch starts. A fatal log line ends the process, so the step that would write
   it is not possible (`none`). The 64-bit epochs and generations that are counted up
   are natural numbers; the 32-bit epoch of a token is bounded where it is handed out. -/
namespace GameNet.EventLoop

open Function (update update_self update_of_ne)

/-! ## Channels and the readiness port -/

abbrev SocketFd := Int

def kInvalidSocket : SocketFd := -1

/-- The event bits of a Channel: `kReadEvent`, `kWriteEvent`, `kErrorEvent`, `kCloseEvent`. -/
structure Events where
  read : Bool := false
  write : Bool := false
  error : Bool := false
  close : Bool := false
  deriving DecidableEq, Repr

/-- `Channel::isNoneEvent`, and the test for an empty mask. -/
def Events.isNone (e : Events) : Bool := !e.read && !e.write && !e.error && !e.close

theorem isNone_iff {e : Events} : e.isNone = true ↔ e = {} := by
  obtain ⟨read, write, error, close⟩ := e
  cases read <;> cases write <;> cases error <;> cases close <;> decide

structure Channel where
  fd : SocketFd
  events : Events := {}
  revents : Events := {}
  eventHandling : Bool := false
  addedToLoop : Bool := false
  registrationGeneration : Nat := 0
  activeBatchEpoch : Nat := 0
  activeBatchIndex : Nat := 0
  alive : Bool := true
  deriving DecidableEq, Repr

/-- `EpollReadinessPort::Registration`; the identity's source is the descriptor it is filed
    under. -/
structure Registration where
  generation : Nat
  target : Nat
  interests : Events
  inKernel : Bool
  deriving DecidableEq, Repr

inductive PortResult where
  | accepted
  | rejectedInvalid
  | rejectedConflict
  | rejectedNotRegistered
  deriving DecidableEq, Repr

structure Channels where
  channel : Nat → Option Channel := fun _ => none
  nextChannel : Nat := 0
  /-- `registrations_`, by descriptor. -/
  registrations : SocketFd → Option Registration := fun _ => none
  /-- `nextGeneration_`, the epoch in a token's high word. -/
  nextGeneration : Nat := 1
  /-- The process-wide counter behind `advanceRegistrationGeneration`. -/
  nextRegistrationGeneration : Nat := 1
  activeChannels : List (Option Nat) := []
  activeChannelCursor : Nat := 0
  activeBatchEpoch : Nat := 0
  /-- `eventHandling_` of the loop. -/
  eventHandling : Bool := false
  currentActiveChannel : Option Nat := none
  /-- Whether `retiredCurrentChannel_` holds a Channel. -/
  retiredCurrent : Option Nat := none
  /-- The Channels the last wait captured. -/
  captured : List Nat := []
  /-- The Channels removed since then. -/
  removed : List Nat := []
  /-- The Channels dispatched since then, newest first. -/
  dispatched : List Nat := []

def Channels.setChannel (c : Channels) (id : Nat) (ch : Channel) : Channels :=
  { c with channel := update c.channel id (some ch) }

/-- `EpollReadinessPort::registerOrUpdate`, with the exception of an exhausted token space as
    `none`. The kernel calls it makes succeed. -/
def Channels.registerOrUpdate (c : Channels) (target : Nat) (fd : SocketFd) (interests : Events) :
    Option (PortResult × Channels) :=
  if fd = kInvalidSocket then some (.rejectedInvalid, c)
  else match c.registrations fd with
  | none =>
    if interests.isNone then some (.rejectedInvalid, c)
    else if c.nextGeneration = 0 ∨ c.nextGeneration = 2 ^ 32 - 1 then none
    else some (.accepted,
      { c with
        registrations := update c.registrations fd
          (some { generation := c.nextGeneration, target := target, interests := interests
                  inKernel := true })
        nextGeneration := c.nextGeneration + 1 })
  | some r =>
    if r.target ≠ target then some (.rejectedConflict, c)
    else if r.interests = interests then some (.accepted, c)
    else some (.accepted,
      { c with
        registrations := update c.registrations fd
          (some { r with interests := interests, inKernel := !interests.isNone }) })

/-- `EpollReadinessPort::cancel`. -/
def Channels.cancel (c : Channels) (target : Nat) (fd : SocketFd) : PortResult × Channels :=
  match c.registrations fd with
  | none => (.rejectedNotRegistered, c)
  | some r =>
    if r.target ≠ target then (.rejectedConflict, c)
    else (.accepted, { c with registrations := update c.registrations fd none })

/-- `EpollReadinessPort::has`. -/
def Channels.has (c : Channels) (target : Nat) (fd : SocketFd) : Bool :=
  match c.registrations fd with
  | none => false
  | some r => r.target == target

/-- `advanceRegistrationGeneration` together with the new `addedToLoop_`. -/
def Channels.setAdded (c : Channels) (id : Nat) (ch : Channel) (added : Bool) : Channels :=
  { c.setChannel id { ch with addedToLoop := added
                              registrationGeneration := c.nextRegistrationGeneration } with
    nextRegistrationGeneration := c.nextRegistrationGeneration + 1 }

/-- New interests and, where they differ, `EventLoop::updateChannel`. A rejection is an
    exception that leaves the Channel's `events_` changed. -/
def Channels.setEvents (c : Channels) (id : Nat) (events : Events) : Channels :=
  match c.channel id with
  | none => c
  | some ch =>
    if ch.events = events then c
    else
      let ch := { ch with events := events }
      let c := c.setChannel id ch
      match c.registerOrUpdate id ch.fd events with
      | some (.accepted, c') => if ch.addedToLoop then c' else c'.setAdded id ch true
      | _ => c

/-- `Channel::events`. -/
def Channels.events (c : Channels) (id : Nat) : Events := ((c.channel id).map Channel.events).getD {}

def Channels.enableReading (c : Channels) (id : Nat) : Channels :=
  c.setEvents id { c.events id with read := true }

def Channels.disableReading (c : Channels) (id : Nat) : Channels :=
  c.setEvents id { c.events id with read := false }

def Channels.enableWriting (c : Channels) (id : Nat) : Channels :=
  c.setEvents id { c.events id with write := true }

def Channels.disableWriting (c : Channels) (id : Nat) : Channels :=
  c.setEvents id { c.events id with write := false }

def Channels.disableAll (c : Channels) (id : Nat) : Channels := c.setEvents id {}

/-- The five setters of a Channel's interests. -/
inductive Setter where
  | enableReading
  | disableReading
  | enableWriting
  | disableWriting
  | disableAll
  deriving DecidableEq, Repr

def Setter.call : Setter → Channels → Nat → Channels
  | .enableReading => Channels.enableReading
  | .disableReading => Channels.disableReading
  | .enableWriting => Channels.enableWriting
  | .disableWriting => Channels.disableWriting
  | .disableAll => Channels.disableAll

/-- The interests that a setter asks for. -/
def Setter.mask : Setter → Events → Events
  | .enableReading, e => { e with read := true }
  | .disableReading, e => { e with read := false }
  | .enableWriting, e => { e with write := true }
  | .disableWriting, e => { e with write := false }
  | .disableAll, _ => {}

theorem Setter.call_eq (u : Setter) (c : Channels) (id : Nat) :
    u.call c id = c.setEvents id (u.mask (c.events id)) := by
  cases u <;> rfl

/-- The entry of a removed Channel in the active batch: `none` for the fatal branch. -/
def Channels.clearEntry (c : Channels) (id : Nat) (ch : Channel) : Option Channels :=
  if ch.activeBatchEpoch = c.activeBatchEpoch then
    if c.activeChannels[ch.activeBatchIndex]? = some (some id) then
      some { c with activeChannels := c.activeChannels.set ch.activeBatchIndex none }
    else if c.eventHandling then none
    else some c
  else some c

/-- `Channel::remove` with `EventLoop::removeChannel`; a failed check is an exception and
    changes nothing. -/
def Channels.remove (c : Channels) (id : Nat) : Option Channels :=
  match c.channel id with
  | none => some c
  | some ch =>
    if ch.addedToLoop = false ∨ ch.events.isNone = false ∨ c.has id ch.fd = false then some c
    else match c.cancel id ch.fd with
      | (.accepted, c₁) =>
        (c₁.clearEntry id ch).map (fun c₂ =>
          { c₂.setAdded id ch false with removed := id :: c₂.removed })
      | _ => some c

/-- `Channel::~Channel`: fatal while the Channel is registered or handling an event. -/
def Channels.destroy (c : Channels) (id : Nat) : Option Channels :=
  match c.channel id with
  | none => some c
  | some ch =>
    if ch.eventHandling ∨ ch.addedToLoop then none
    else some (c.setChannel id { ch with alive := false })

/-- `EventLoop::retireCurrentChannel`: the current Channel is kept until its event is over, any
    other one is destroyed at once. -/
def Channels.retire (c : Channels) (id : Nat) : Option Channels :=
  if c.eventHandling ∧ c.currentActiveChannel = some id then
    if c.retiredCurrent.isSome then none else some { c with retiredCurrent := some id }
  else c.destroy id

/-- A new Channel object. -/
def Channels.new (c : Channels) (fd : SocketFd) : Channels :=
  { c.setChannel c.nextChannel { fd := fd } with nextChannel := c.nextChannel + 1 }

/-! ## A wait -/

/-- One native event: the token's two words and the events, already translated. -/
structure Native where
  fd : SocketFd
  generation : Nat
  events : Events
  deriving DecidableEq, Repr

/-- A readiness notice: the registration's descriptor and generation, its target, the events. -/
structure Notice where
  fd : SocketFd
  generation : Nat
  target : Nat
  events : Events
  deriving DecidableEq, Repr

def Events.or (a b : Events) : Events :=
  ⟨a.read || b.read, a.write || b.write, a.error || b.error, a.close || b.close⟩

/-- The delivered part of native events: the interests, and errors and closes always. -/
def Events.deliver (native interests : Events) : Events :=
  { read := native.read && interests.read, write := native.write && interests.write
    error := native.error, close := native.close }

/-- A notice of the same registration takes further events in. -/
def Notice.absorb (fd : SocketFd) (generation : Nat) (events : Events) (n : Notice) : Notice :=
  if n.fd = fd ∧ n.generation = generation then { n with events := n.events.or events } else n

/-- `EpollReadinessPort::appendNativeNotice`. -/
def Channels.appendNotice (c : Channels) (maxNotices : Nat) (notices : List Notice) (e : Native) :
    List Notice :=
  match c.registrations e.fd with
  | none => notices
  | some r =>
    if r.generation ≠ e.generation ∨ r.inKernel = false then notices
    else
      let events := e.events.deliver r.interests
      if events.isNone then notices
      else if notices.any (fun n => n.fd = e.fd ∧ n.generation = e.generation) then
        notices.map (Notice.absorb e.fd e.generation events)
      else if maxNotices ≤ notices.length then notices
      else notices ++ [⟨e.fd, e.generation, r.target, events⟩]

/-- The notices of a wait that the kernel answers with `native`. -/
def Channels.notices (c : Channels) (maxNotices : Nat) (native : List Native) : List Notice :=
  native.foldl (c.appendNotice maxNotices) []

/-- `EpollReadinessPort::isCurrent` of a notice. -/
def Channels.isCurrent (c : Channels) (n : Notice) : Bool :=
  match c.registrations n.fd with
  | none => false
  | some r => r.target == n.target && r.generation == n.generation

/-- `setRevents` on the target of a notice. -/
def Channels.setRevents (c : Channels) (n : Notice) : Channels :=
  match c.channel n.target with
  | none => c
  | some ch => c.setChannel n.target { ch with revents := n.events }

/-- The two lines before a wait: the batch is cleared. -/
def Channels.clear (c : Channels) : Channels := { c with activeChannels := [], activeChannelCursor := 0 }

/-- `PollerIoEngineAdapter::waitForReadiness`: the current notices become the active batch. -/
def Channels.wait (c : Channels) (maxNotices : Nat) (native : List Native) : Channels :=
  let current := (c.notices maxNotices native).filter c.isCurrent
  let targets := current.map (·.target)
  { current.foldl Channels.setRevents c with
    activeChannels := c.activeChannels ++ targets.map some
    captured := targets
    removed := []
    dispatched := [] }

/-! ## The dispatch of a batch -/

/-- The entries the dispatch has not reached yet. -/
def Channels.rest (c : Channels) : List (Option Nat) := c.activeChannels.drop c.activeChannelCursor

/-- `EventLoop::hasPendingActiveChannels`. -/
def Channels.hasPending (c : Channels) : Bool := c.rest.any Option.isSome

/-- The stamping loop: `none` for a Channel that is in the batch twice. -/
def Channels.stampFrom (c : Channels) (epoch : Nat) : List (Option Nat) → Nat → Option Channels
  | [], _ => some c
  | none :: rest, index => c.stampFrom epoch rest (index + 1)
  | some id :: rest, index =>
    match c.channel id with
    | none => c.stampFrom epoch rest (index + 1)
    | some ch =>
      if ch.activeBatchEpoch = epoch then none
      else (c.setChannel id { ch with activeBatchEpoch := epoch
                                      activeBatchIndex := index }).stampFrom epoch rest (index + 1)

/-- The start of a batch's dispatch: a new epoch and the stamps. -/
def Channels.stamp (c : Channels) : Option Channels :=
  let epoch := c.activeBatchEpoch + 1
  ({ c with activeBatchEpoch := epoch }).stampFrom epoch c.activeChannels 0

/-- `Channel::handleEvent` is entered. -/
def Channels.enter (c : Channels) (id : Nat) : Channels :=
  let c := { c with currentActiveChannel := some id, dispatched := id :: c.dispatched
                    activeChannelCursor := c.activeChannelCursor + 1 }
  match c.channel id with
  | none => c
  | some ch => c.setChannel id { ch with eventHandling := true }

/-- `handleEvent` is over: a retired current Channel is destroyed, `none` where that is fatal. -/
def Channels.leave (c : Channels) (id : Nat) : Option Channels :=
  let c := match c.channel id with
    | none => c
    | some ch => c.setChannel id { ch with eventHandling := false }
  let c := { c with currentActiveChannel := none }
  match c.retiredCurrent with
  | none => some c
  | some r => ({ c with retiredCurrent := none }).destroy r

/-! ## What the calls keep -/

/-- The descriptor of a Channel and the place it was stamped with. -/
structure Stamp where
  fd : SocketFd
  epoch : Nat
  index : Nat
  deriving DecidableEq, Repr

def Channel.stamp (ch : Channel) : Stamp := ⟨ch.fd, ch.activeBatchEpoch, ch.activeBatchIndex⟩

def Channels.stampOf (c : Channels) (id : Nat) : Option Stamp := (c.channel id).map Channel.stamp

/-- The batch of `c'` is that of `c`, and so are the stamps of all Channels. -/
structure Channels.SameBatch (c c' : Channels) : Prop where
  activeChannels : c'.activeChannels = c.activeChannels
  cursor : c'.activeChannelCursor = c.activeChannelCursor
  epoch : c'.activeBatchEpoch = c.activeBatchEpoch
  captured : c'.captured = c.captured
  removed : c'.removed = c.removed
  dispatched : c'.dispatched = c.dispatched
  next : c'.nextChannel = c.nextChannel
  stampOf : c'.stampOf = c.stampOf

/-- A Channel with stamp `st` was removed: its entry is emptied if it is found through the
    stamp. -/
structure Channels.Removes (c c' : Channels) (id : Nat) (st : Stamp) : Prop where
  stamped : c.stampOf id = some st
  entry : (st.epoch = c.activeBatchEpoch ∧ c.activeChannels[st.index]? = some (some id) ∧
      c'.activeChannels = c.activeChannels.set st.index none) ∨
    (¬ (st.epoch = c.activeBatchEpoch ∧ c.activeChannels[st.index]? = some (some id)) ∧
      c'.activeChannels = c.activeChannels)
  cursor : c'.activeChannelCursor = c.activeChannelCursor
  epoch : c'.activeBatchEpoch = c.activeBatchEpoch
  captured : c'.captured = c.captured
  removed : c'.removed = id :: c.removed
  dispatched : c'.dispatched = c.dispatched
  next : c'.nextChannel = c.nextChannel
  stampOf : c'.stampOf = c.stampOf
  registrations : ∀ fd r, c'.registrations fd = some r → c.registrations fd = some r

section
variable {c c' c'' : Channels} {id : Nat} {ch ch' : Channel}

theorem Channels.SameBatch.refl : c.SameBatch c := ⟨rfl, rfl, rfl, rfl, rfl, rfl, rfl, rfl⟩

theorem Channels.SameBatch.trans (h : c.SameBatch c') (h' : c'.SameBatch c'') : c.SameBatch c'' :=
  ⟨h'.activeChannels.trans h.activeChannels, h'.cursor.trans h.cursor, h'.epoch.trans h.epoch,
    h'.captured.trans h.captured, h'.removed.trans h.removed, h'.dispatched.trans h.dispatched,
    h'.next.trans h.next, h'.stampOf.trans h.stampOf⟩

/-- A change of one Channel that keeps its stamp. -/
theorem Channels.SameBatch.setChannel (h : c.channel id = some ch) (hs : ch'.stamp = ch.stamp) :
    c.SameBatch (c.setChannel id ch') := by
  refine { SameBatch.refl with stampOf := ?_ }
  funext i
  by_cases hi : i = id
  · subst hi
    simp [Channels.stampOf, Channels.setChannel, h, hs]
  · simp [Channels.stampOf, Channels.setChannel, update_of_ne hi]

theorem Channels.SameBatch.setAdded (h : c.channel id = some ch) (added : Bool) :
    c.SameBatch (c.setAdded id ch added) := by
  have hset : c.SameBatch (c.setChannel id { ch with
      addedToLoop := added, registrationGeneration := c.nextRegistrationGeneration }) :=
    SameBatch.setChannel h rfl
  exact { hset with }

/-- What the stamping loop does to the Channels: those of the entries carry the new epoch, which
    they did not before, each with the place of its entry. -/
structure Restamps (epoch : Nat) (entries : List (Option Nat)) (index : Nat)
    (before after : Nat → Option Channel) : Prop where
  fresh : ∀ id ch, some id ∈ entries → before id = some ch → ch.activeBatchEpoch ≠ epoch
  written : ∀ i id : Nat, entries[i]? = some (some id) → after id = (before id).map fun ch =>
    { ch with activeBatchEpoch := epoch, activeBatchIndex := index + i }
  kept : ∀ id, some id ∉ entries → after id = before id

variable {epoch index : Nat} {entries : List (Option Nat)} {before after : Nat → Option Channel}

theorem Restamps.cases (h : Restamps epoch entries index before after) (id : Nat) :
    after id = before id ∨ ∃ i : Nat, entries[i]? = some (some id) ∧ after id = (before id).map fun ch =>
      { ch with activeBatchEpoch := epoch, activeBatchIndex := index + i } := by
  by_cases hid : some id ∈ entries
  · obtain ⟨i, hi⟩ := List.mem_iff_getElem?.mp hid
    exact .inr ⟨i, hi, h.written i id hi⟩
  · exact .inl (h.kept id hid)

/-- An entry in front that the loop passes by. -/
theorem Restamps.cons {entry : Option Nat} (h : Restamps epoch entries (index + 1) before after)
    (hentry : ∀ id, entry = some id → before id = none) :
    Restamps epoch (entry :: entries) index before after where
  fresh := fun id ch hid hch => by
    rcases List.mem_cons.mp hid with heq | hmem
    · rw [hentry id heq.symm] at hch
      cases hch
    · exact h.fresh id ch hmem hch
  written := fun i id hi => by
    cases i with
    | zero =>
      have hnone := hentry id (Option.some.inj hi)
      rcases h.cases id with heq | ⟨i, -, heq⟩ <;> rw [heq, hnone] <;> rfl
    | succ i =>
      rw [← Nat.add_assoc, Nat.add_right_comm]
      exact h.written i id hi
  kept := fun id hid => h.kept id fun hmem => hid (.tail _ hmem)

/-- A Channel that the loop stamps has no second entry. -/
theorem Restamps.stamp {id : Nat} {ch : Channel} (hch : before id = some ch) (hne : ch.activeBatchEpoch ≠ epoch)
    (h : Restamps epoch entries (index + 1) (update before id (some { ch with
      activeBatchEpoch := epoch, activeBatchIndex := index })) after) :
    Restamps epoch (some id :: entries) index before after := by
  have hlast : some id ∉ entries := fun hmem => h.fresh id _ hmem (update_self ..) rfl
  have hother {id' : Nat} (hmem : some id' ∈ entries) : id' ≠ id := by
    rintro rfl
    exact hlast hmem
  refine ⟨fun id' ch' hmem hch' => ?_, fun i id' hi => ?_, fun id' hmem => ?_⟩
  · rcases List.mem_cons.mp hmem with heq | hmem
    · rw [Option.some.inj heq, hch] at hch'
      exact Option.some.inj hch' ▸ hne
    · exact h.fresh id' ch' hmem (by rwa [update_of_ne (hother hmem)])
  · cases i with
    | zero =>
      cases hi
      rw [h.kept id hlast, update_self, hch]
      rfl
    | succ i =>
      have := h.written i id' hi
      rwa [update_of_ne (hother (List.mem_of_getElem? hi)), Nat.add_right_comm, Nat.add_assoc] at this
  · rw [List.mem_cons, not_or] at hmem
    rw [h.kept id' hmem.2, update_of_ne (fun heq => hmem.1 (congrArg some heq))]

theorem stampFrom_spec (entries : List (Option Nat)) : ∀ {c c' : Channels} {index : Nat},
    c.stampFrom epoch entries index = some c' →
    ∃ channel, c' = { c with channel } ∧ Restamps epoch entries index c.channel channel := by
  induction entries with
  | nil =>
    intro c c' index h
    cases h
    exact ⟨_, rfl, by simp, by simp, fun _ _ => rfl⟩
  | cons entry rest ih =>
    intro c c' index h
    cases entry with
    | none =>
      obtain ⟨channel, rfl, hre⟩ := ih h
      exact ⟨_, rfl, hre.cons nofun⟩
    | some id =>
      simp only [Channels.stampFrom] at h
      split at h
      case h_1 hnone =>
        obtain ⟨channel, rfl, hre⟩ := ih h
        exact ⟨_, rfl, hre.cons (by rintro _ ⟨⟩; exact hnone)⟩
      case h_2 ch hch =>
        split at h
        · cases h
        rename_i hne
        obtain ⟨channel, rfl, hre⟩ := ih h
        exact ⟨_, rfl, .stamp hch hne hre⟩

theorem stamp_spec (h : c.stamp = some c') :
    ∃ channel, c' = { c with channel, activeBatchEpoch := c.activeBatchEpoch + 1 } ∧
      Restamps (c.activeBatchEpoch + 1) c.activeChannels 0 c.channel channel :=
  stampFrom_spec _ h

theorem stamp_stampOf (h : c.stamp = some c') (id : Nat) :
    c'.stampOf id = c.stampOf id ∨ ∃ i : Nat, c.activeChannels[i]? = some (some id) ∧
      c'.stampOf id = (c.stampOf id).map fun st => ⟨st.fd, c.activeBatchEpoch + 1, i⟩ := by
  obtain ⟨channel, rfl, hre⟩ := stamp_spec h
  rcases hre.cases id with heq | ⟨i, hi, heq⟩
  · exact .inl (congrArg (Option.map Channel.stamp) heq)
  · refine .inr ⟨i, hi, ?_⟩
    simp [Channels.stampOf, heq, Channel.stamp, Function.comp_def]

theorem stamp_keeps {st : Stamp} (h : c.stamp = some c') (hst : c.stampOf id = some st) :
    ∃ st', c'.stampOf id = some st' ∧ st'.fd = st.fd := by
  rcases stamp_stampOf h id with heq | ⟨i, -, heq⟩ <;> rw [heq, hst] <;> exact ⟨_, rfl, rfl⟩

/-- The port files a Channel's registration under its descriptor. -/
def Channels.Port (c : Channels) : Prop :=
  ∀ fd r, c.registrations fd = some r → ∃ st, c.stampOf r.target = some st ∧ st.fd = fd

theorem Channels.Port.same (hp : c.Port) (h : c.SameBatch c')
    (hr : c'.registrations = c.registrations) : c'.Port := by
  intro fd r hfd
  rw [h.stampOf]
  exact hp fd r (hr ▸ hfd)

/-- `registerOrUpdate` writes the registrations alone, and files the Channel under its own
    descriptor. -/
theorem Channels.registerOrUpdate_same {interests : Events} {result : PortResult}
    (h : c.channel id = some ch) (hr : c.registerOrUpdate id ch.fd interests = some (result, c')) :
    c.SameBatch c' ∧ c'.channel = c.channel ∧ (c.Port → c'.Port) := by
  unfold Channels.registerOrUpdate at hr
  split at hr
  · cases hr
    exact ⟨SameBatch.refl, rfl, fun hp => hp⟩
  split at hr
  · split at hr
    · cases hr
      exact ⟨SameBatch.refl, rfl, fun hp => hp⟩
    · split at hr
      · cases hr
      · cases hr
        refine ⟨{ SameBatch.refl with }, rfl, fun hp fd r hfd => ?_⟩
        by_cases hi : fd = ch.fd
        · subst hi
          simp only [update_self, Option.some.injEq] at hfd
          subst hfd
          exact ⟨ch.stamp, by simp [Channels.stampOf, h], rfl⟩
        · exact hp fd r (by simpa [update_of_ne hi] using hfd)
  · rename_i r₀ hr₀
    split at hr
    · cases hr
      exact ⟨SameBatch.refl, rfl, fun hp => hp⟩
    · split at hr
      · cases hr
        exact ⟨SameBatch.refl, rfl, fun hp => hp⟩
      · cases hr
        refine ⟨{ SameBatch.refl with }, rfl, fun hp fd r hfd => ?_⟩
        by_cases hi : fd = ch.fd
        · subst hi
          simp only [update_self, Option.some.injEq] at hfd
          subst hfd
          exact hp ch.fd r₀ hr₀
        · exact hp fd r (by simpa [update_of_ne hi] using hfd)

theorem Channels.setEvents_same (c : Channels) (id : Nat) (events : Events) :
    c.SameBatch (c.setEvents id events) ∧ (c.Port → (c.setEvents id events).Port) := by
  unfold Channels.setEvents
  split
  · exact ⟨SameBatch.refl, fun hp => hp⟩
  · rename_i ch hch
    split
    · exact ⟨SameBatch.refl, fun hp => hp⟩
    · dsimp only
      have hset : c.SameBatch (c.setChannel id { ch with events := events }) :=
        SameBatch.setChannel hch rfl
      split
      · rename_i c' hreg
        have hself : (c.setChannel id { ch with events := events }).channel id =
            some { ch with events := events } := by simp [Channels.setChannel]
        obtain ⟨hsame, hchan, hport⟩ := Channels.registerOrUpdate_same hself hreg
        have hboth := hset.trans hsame
        have hport' : c.Port → c'.Port := fun hp => hport (hp.same hset rfl)
        split
        · exact ⟨hboth, hport'⟩
        · have hadd : c'.SameBatch (c'.setAdded id { ch with events := events } true) :=
            SameBatch.setAdded (hchan ▸ hself) true
          exact ⟨hboth.trans hadd, fun hp => (hport' hp).same hadd rfl⟩
      · exact ⟨hset, fun hp => hp.same hset rfl⟩

theorem Channels.clearEntry_eq (h : c.clearEntry id ch = some c') :
    (ch.activeBatchEpoch = c.activeBatchEpoch ∧ c.activeChannels[ch.activeBatchIndex]? = some (some id) ∧
      c' = { c with activeChannels := c.activeChannels.set ch.activeBatchIndex none }) ∨
    (¬ (ch.activeBatchEpoch = c.activeBatchEpoch ∧
      c.activeChannels[ch.activeBatchIndex]? = some (some id)) ∧ c' = c) := by
  unfold Channels.clearEntry at h
  split at h
  · rename_i hepoch
    split at h
    · rename_i hentry
      cases h
      exact Or.inl ⟨hepoch, hentry, rfl⟩
    · rename_i hentry
      split at h
      · cases h
      · cases h
        exact Or.inr ⟨fun hboth => hentry hboth.2, rfl⟩
  · rename_i hepoch
    cases h
    exact Or.inr ⟨fun hboth => hepoch hboth.1, rfl⟩

/-- A removal that fails its checks changes nothing. -/
theorem Channels.remove_cases (h : c.remove id = some c') :
    c' = c ∨ ∃ st, c.Removes c' id st := by
  unfold Channels.remove at h
  split at h
  · cases h
    exact Or.inl rfl
  · rename_i ch hch
    split at h
    · cases h
      exact Or.inl rfl
    · split at h
      · rename_i c₁ hcancel
        obtain ⟨c₂, hentry, rfl⟩ := Option.map_eq_some_iff.mp h
        have hc₁ : c₁ = { c with registrations := update c.registrations ch.fd none } := by
          unfold Channels.cancel at hcancel
          split at hcancel
          · cases hcancel
          · split at hcancel <;> cases hcancel
            rfl
        subst hc₁
        have hregs : ∀ fd r, update c.registrations ch.fd none fd = some r →
            c.registrations fd = some r := by
          intro fd r hfd
          by_cases hi : fd = ch.fd
          · subst hi
            simp at hfd
          · simpa [update_of_ne hi] using hfd
        have hst : c.stampOf id = some ch.stamp := by simp [Channels.stampOf, hch]
        right
        rcases Channels.clearEntry_eq hentry with ⟨hepoch, hat, rfl⟩ | ⟨hno, rfl⟩
        · exact ⟨ch.stamp, hst, Or.inl ⟨hepoch, hat, rfl⟩, rfl, rfl, rfl, rfl, rfl, rfl,
            (SameBatch.setAdded hch false).stampOf, hregs⟩
        · exact ⟨ch.stamp, hst, Or.inr ⟨hno, rfl⟩, rfl, rfl, rfl, rfl, rfl, rfl,
            (SameBatch.setAdded hch false).stampOf, hregs⟩
      · cases h
        exact Or.inl rfl

theorem Channels.destroy_same (h : c.destroy id = some c') :
    c.SameBatch c' ∧ c'.registrations = c.registrations := by
  unfold Channels.destroy at h
  split at h
  · cases h
    exact ⟨SameBatch.refl, rfl⟩
  · rename_i ch hch
    split at h
    · cases h
    · cases h
      exact ⟨SameBatch.setChannel hch rfl, rfl⟩

theorem Channels.retire_same (h : c.retire id = some c') :
    c.SameBatch c' ∧ c'.registrations = c.registrations := by
  unfold Channels.retire at h
  split at h
  · split at h
    · cases h
    · cases h
      exact ⟨{ SameBatch.refl with }, rfl⟩
  · exact Channels.destroy_same h

theorem Channels.leave_same (h : c.leave id = some c') :
    c.SameBatch c' ∧ c'.registrations = c.registrations := by
  unfold Channels.leave at h
  dsimp only at h
  have hset : ∀ d : Channels, d = (match c.channel id with
      | none => c
      | some ch => c.setChannel id { ch with eventHandling := false }) →
      c.SameBatch d ∧ d.registrations = c.registrations := by
    rintro d rfl
    split
    · exact ⟨SameBatch.refl, rfl⟩
    · rename_i ch hch
      exact ⟨SameBatch.setChannel hch rfl, rfl⟩
  obtain ⟨hsame, hreg⟩ := hset _ rfl
  split at h
  · cases h
    exact ⟨{ hsame with }, hreg⟩
  · obtain ⟨hd, hdreg⟩ := Channels.destroy_same h
    exact ⟨{ hsame.trans { hd with } with }, hdreg.trans hreg⟩

end

end GameNet.EventLoop
