import GameNet.Machine
import GameNet.Stacks
import GameNet.Connector.Model

/- A connector has at most one attempt. A frame or a retry timer whose generation is the current
   one is the token of that attempt: there is at most one, and the state of the connector is the
   one that the token continues from. Every call that begins a new generation makes all older
   frames and timers stale, and a step of the token hands it on. So a channel is registered only
   when there is none, and a descriptor is always in one place: the channel, a frame, or where it
   ended. -/
namespace GameNet.Connector

open Stacks (weight weight_cons)
open Machine (Reach Any)

/-! ## Tokens and descriptors -/

namespace Frame

def generation : Frame → Option Nat
  | .emit _ | .newConnection _ => none
  | .attempt g | .refused _ g | .retry _ g | .schedule g | .deliver _ g | .settle g
  | .timedOut g => some g

/-- The state in which the frame continues if its generation is still the current one. -/
def phase : Frame → StateE
  | .deliver _ _ | .settle _ => .connected
  | .timedOut _ => .connecting
  | _ => .disconnected

/-- The descriptor that the frame owns. -/
def holds : Frame → Option Nat
  | .refused fd _ | .deliver fd _ => some fd
  | .retry fd _ => fd
  | _ => none

def isCurrent (c : Core) (f : Frame) : Nat :=
  if f.generation = some c.requestGeneration then 1 else 0

def owns (fd : Nat) (f : Frame) : Nat := if f.holds = some fd then 1 else 0

end Frame

/-- A retry timer of the current generation. -/
def Timer.isCurrent (c : Core) (t : Timer) : Nat :=
  if t.kind = .retry ∧ t.generation = c.requestGeneration then 1 else 0

/-- The channel and what the state says of it. -/
structure Channels (c : Core) : Prop where
  fatal : c.fatal = false
  registered : c.registered = c.channel.toList
  connecting : c.state = .connecting ↔ c.channel ≠ none
  channel : ∀ ch, c.channel = some ch → ch.generation = c.requestGeneration ∧ c.connect = true

/-- No frame or timer is of the current generation. -/
structure Stale (c : Core) (stack : List Frame) : Prop where
  frames : ∀ f ∈ stack, ∀ g, f.generation = some g → g < c.requestGeneration
  timers : ∀ t ∈ c.timers, t.generation ≤ c.requestGeneration ∧
    (t.kind = .retry → t.generation < c.requestGeneration)

/-- At most one frame or timer is of the current generation. -/
structure Ranked (c : Core) (stack : List Frame) : Prop where
  frames : ∀ f ∈ stack, ∀ g, f.generation = some g → g ≤ c.requestGeneration ∧
    (g = c.requestGeneration → c.connect = true ∧ c.state = f.phase)
  timers : ∀ t ∈ c.timers, t.generation ≤ c.requestGeneration ∧
    (t.kind = .retry → t.generation = c.requestGeneration →
      c.connect = true ∧ c.state = .disconnected)
  one : weight (Frame.isCurrent c) stack + weight (Timer.isCurrent c) c.timers ≤ 1

/-- Whether the channel owns the descriptor. -/
def Core.owns (c : Core) (fd : Nat) : Nat := if c.channel.map Channel.fd = some fd then 1 else 0

/-- Every descriptor that was created is in one place. -/
def Owned (c : Core) (stack : List Frame) : Prop :=
  ∀ fd, c.closed.count fd + c.delivered.count fd + weight (Frame.owns fd) stack + c.owns fd =
    if fd < c.created then 1 else 0

structure Good (c : Core) (stack : List Frame) : Prop where
  channels : Channels c
  ranked : Ranked c stack
  owned : Owned c stack
  /-- A connected state is the one that the frames of its own attempt settle. -/
  settled : c.state = .connected → ∀ f ∈ stack, f.phase = .connected →
    f.generation = some c.requestGeneration

section
variable {c c' : Core} {stack rest : List Frame} {f : Frame}

/-! ## Handing the token on -/

theorem Channels.none_of (h : Channels c) (hstate : c.state ≠ .connecting) : c.channel = none := by
  by_contra hne
  exact hstate (h.connecting.mpr hne)

theorem Channels.some_of (h : Channels c) (hstate : c.state = .connecting) :
    ∃ ch, c.channel = some ch ∧ ch.generation = c.requestGeneration ∧ c.connect = true := by
  obtain ⟨ch, hch⟩ := Option.ne_none_iff_exists'.mp (h.connecting.mp hstate)
  exact ⟨ch, hch, h.channel ch hch⟩

theorem Channels.of_none (hfatal : c.fatal = false) (hregistered : c.registered = [])
    (hchannel : c.channel = none) (hstate : c.state ≠ .connecting) : Channels c := by
  refine ⟨hfatal, ?_, ?_, ?_⟩
  · rw [hregistered, hchannel]
    rfl
  · rw [hchannel]
    exact ⟨fun hc => absurd hc hstate, fun hne => absurd rfl hne⟩
  · rw [hchannel]
    exact nofun

theorem Stale.no_token (h : Stale c stack) :
    weight (Frame.isCurrent c) stack = 0 ∧ weight (Timer.isCurrent c) c.timers = 0 :=
  ⟨Stacks.weight_eq_zero fun f hf => if_neg fun hg => (h.frames f hf _ hg).ne rfl,
    Stacks.weight_eq_zero fun t ht => if_neg fun hg => ((h.timers t ht).2 hg.1).ne hg.2⟩

theorem Stale.ranked (h : Stale c stack) : Ranked c stack where
  frames f hf g hg := by
    have hlt := h.frames f hf g hg
    exact ⟨hlt.le, fun heq => absurd heq hlt.ne⟩
  timers t ht := by
    obtain ⟨hle, hretry⟩ := h.timers t ht
    exact ⟨hle, fun hkind heq => absurd heq (hretry hkind).ne⟩
  one := by
    obtain ⟨hframes, htimers⟩ := h.no_token
    omega

variable {g : Nat}

/-- A new token. -/
theorem Stale.token (h : Stale c stack) (hg : f.generation = some g)
    (hle : g = c.requestGeneration) (hconnect : c.connect = true) (hphase : c.state = f.phase) :
    Ranked c (f :: stack) where
  frames x hx k hk := by
    rcases List.mem_cons.mp hx with rfl | hx
    · rw [hg] at hk
      cases hk
      exact ⟨hle.le, fun _ => ⟨hconnect, hphase⟩⟩
    · exact h.ranked.frames x hx k hk
  timers := h.ranked.timers
  one := by
    obtain ⟨hframes, htimers⟩ := h.no_token
    have hone : f.isCurrent c ≤ 1 := by
      rw [Frame.isCurrent]
      split <;> omega
    rw [weight_cons]
    omega

/-- A callback has no generation. -/
theorem Ranked.callback (h : Ranked c stack) (hf : f.generation = none) : Ranked c (f :: stack) where
  frames x hx g hg := by
    rcases List.mem_cons.mp hx with rfl | hx
    · rw [hf] at hg
      cases hg
    · exact h.frames x hx g hg
  timers := h.timers
  one := by
    have hzero : f.isCurrent c = 0 := if_neg (by rw [hf]; exact nofun)
    have hone := h.one
    rw [weight_cons]
    omega

theorem Ranked.tail (h : Ranked c (f :: rest)) : Ranked c rest where
  frames x hx := h.frames x (.tail _ hx)
  timers := h.timers
  one := by
    have hone := h.one
    rw [weight_cons] at hone
    omega

/-- The token is taken from the top. -/
theorem Ranked.take (h : Ranked c (f :: rest)) (hg : f.generation = some c.requestGeneration) :
    Stale c rest := by
  have hone := h.one
  rw [weight_cons, Frame.isCurrent, if_pos hg] at hone
  refine ⟨fun x hx g hx' => ?_, fun t ht => ⟨(h.timers t ht).1, fun hkind => ?_⟩⟩
  · refine lt_of_le_of_ne (h.frames x (.tail _ hx) g hx').1 fun heq => ?_
    have hle := Stacks.le_weight (Frame.isCurrent c) hx
    rw [Frame.isCurrent, if_pos (heq ▸ hx')] at hle
    omega
  · refine lt_of_le_of_ne (h.timers t ht).1 fun heq => ?_
    have hle := Stacks.le_weight (Timer.isCurrent c) ht
    rw [Timer.isCurrent, if_pos ⟨hkind, heq⟩] at hle
    omega

/-- A token of another state is not there. -/
theorem Ranked.stale (h : Ranked c stack)
    (hstack : ∀ f ∈ stack, f.generation = some c.requestGeneration → c.state ≠ f.phase)
    (hstate : c.state ≠ .disconnected) : Stale c stack where
  frames f hf g hg := by
    obtain ⟨hle, hcurrent⟩ := h.frames f hf g hg
    exact lt_of_le_of_ne hle fun heq => hstack f hf (heq ▸ hg) (hcurrent heq).2
  timers t ht := by
    obtain ⟨hle, hcurrent⟩ := h.timers t ht
    exact ⟨hle, fun hkind => lt_of_le_of_ne hle fun heq => hstate (hcurrent hkind heq).2⟩

/-- Only the generation and the timers matter. -/
theorem Stale.congr (h : Stale c stack) (hgeneration : c'.requestGeneration = c.requestGeneration)
    (htimers : c'.timers ⊆ c.timers) : Stale c' stack where
  frames f hf g hg := hgeneration ▸ h.frames f hf g hg
  timers t ht := hgeneration ▸ h.timers t (htimers ht)

/-! ## Moving a descriptor -/

/-- What a step moves: the number of times that each place has a descriptor. -/
theorem Owned.move {stack' : List Frame} (h : Owned c stack) (hcreated : c'.created = c.created)
    (hmove : ∀ fd, c'.closed.count fd + c'.delivered.count fd + weight (Frame.owns fd) stack' +
        c'.owns fd =
      c.closed.count fd + c.delivered.count fd + weight (Frame.owns fd) stack + c.owns fd) :
    Owned c' stack' := by
  intro fd
  rw [hmove fd, h fd, hcreated]

/-- A descriptor that was just created goes to a frame or to the channel. -/
theorem Owned.create {stack' : List Frame} (h : Owned c stack)
    (hcreated : c'.created = c.created + 1)
    (hmove : ∀ fd, c'.closed.count fd + c'.delivered.count fd + weight (Frame.owns fd) stack' +
        c'.owns fd =
      c.closed.count fd + c.delivered.count fd + weight (Frame.owns fd) stack + c.owns fd +
        if c.created = fd then 1 else 0) :
    Owned c' stack' := by
  intro fd
  rw [hmove fd, h fd, hcreated]
  split <;> split <;> split <;> omega

theorem Core.owns_none (h : c.channel = none) (fd : Nat) : c.owns fd = 0 :=
  if_neg (by rw [h]; exact nofun)

variable {ch : Channel}

theorem Core.owns_some (h : c.channel = some ch) (fd : Nat) :
    c.owns fd = if ch.fd = fd then 1 else 0 := by
  rw [Core.owns, h, Option.map_some]
  simp only [Option.some.injEq]

theorem Frame.owns_none (h : f.holds = none) (fd : Nat) : f.owns fd = 0 :=
  if_neg (by rw [h]; exact nofun)

theorem Frame.owns_some {k : Nat} (h : f.holds = some k) (fd : Nat) :
    f.owns fd = if k = fd then 1 else 0 := by
  rw [Frame.owns, h]
  simp only [Option.some.injEq]

/-- The top frame is done, and it owned nothing. -/
theorem Owned.pop (h : Owned c (f :: rest)) (hnone : f.holds = none) : Owned c rest := by
  refine h.move rfl fun fd => ?_
  rw [weight_cons, Frame.owns_none hnone]
  omega

theorem Owned.push (h : Owned c rest) (hnone : f.holds = none) : Owned c (f :: rest) := by
  refine h.move rfl fun fd => ?_
  rw [weight_cons, Frame.owns_none hnone]
  omega

/-- The descriptor of the top frame is closed. -/
theorem Owned.close {k : Nat} (h : Owned c (f :: rest)) (hf : f.holds = some k)
    (hc : c' = c.close k) : Owned c' rest := by
  subst hc
  refine h.move rfl fun fd => ?_
  show (k :: c.closed).count fd + _ + _ + c.owns fd = _
  rw [weight_cons, Frame.owns_some hf, List.count_cons]
  simp only [beq_iff_eq, Core.close]
  omega

/-! ## The operations -/

theorem cancelRetryTimer_eq (c : Core) : ∃ id timers,
    c.cancelRetryTimer = { c with retryTimerId := id, timers := timers } ∧ timers ⊆ c.timers := by
  unfold Core.cancelRetryTimer
  split
  · exact ⟨_, _, rfl, List.filter_subset_self _⟩
  · exact ⟨_, _, rfl, List.Subset.refl _⟩

theorem cancelConnectTimeout_eq (c : Core) : ∃ id timers,
    c.cancelConnectTimeout = { c with connectTimeoutTimerId := id, timers := timers } ∧
      timers ⊆ c.timers := by
  unfold Core.cancelConnectTimeout
  split
  · exact ⟨_, _, rfl, List.filter_subset_self _⟩
  · exact ⟨_, _, rfl, List.Subset.refl _⟩

theorem Good.emitEvent {frames : List Frame} {event : ConnectorEvent} (h : Good c (frames ++ stack)) :
    Good (c.emitEvent event frames).1 ((c.emitEvent event frames).2 ++ stack) := by
  have hranked : Ranked (c.emitEvent event frames).1 (frames ++ stack) :=
    { h.ranked with }
  have howned : Owned (c.emitEvent event frames).1 (frames ++ stack) := h.owned
  refine ⟨{ h.channels with },
    hranked.callback rfl, howned.push rfl, fun hstate f hf hphase => ?_⟩
  rcases List.mem_cons.mp hf with rfl | hf
  · cases hphase
  · exact h.settled hstate f hf hphase

/-- The parts of `Good` when no token is out. -/
structure Clear (c : Core) (stack : List Frame) : Prop where
  channels : Channels c
  stale : Stale c stack
  owned : Owned c stack
  state : c.state = .disconnected

theorem Clear.good (h : Clear c stack) : Good c stack :=
  ⟨h.channels, h.stale.ranked, h.owned, by rw [h.state]; exact nofun⟩

/-- A frame is pushed that continues the attempt. -/
theorem Clear.push (h : Clear c stack) (hg : f.generation = some g)
    (hle : g = c.requestGeneration) (hconnect : c.connect = true) (hphase : f.phase = .disconnected)
    (hholds : f.holds = none) : Good c (f :: stack) :=
  ⟨h.channels, h.stale.token hg hle hconnect (h.state.trans hphase.symm), h.owned.push hholds,
    by rw [h.state]; exact nofun⟩

theorem Clear.startInLoop (h : Clear c stack) (hconnect : c.connect = true) :
    Good (c.startInLoop c.requestGeneration).1
      ((c.startInLoop c.requestGeneration).2 ++ stack) := by
  rw [Core.startInLoop, if_neg (by rw [hconnect]; simp), if_pos h.state]
  exact Good.emitEvent (h.push rfl rfl hconnect rfl rfl)

/-- What a new generation needs of the old one. -/
structure Held (c : Core) (stack : List Frame) : Prop where
  channels : Channels c
  frames : ∀ f ∈ stack, ∀ g, f.generation = some g → g ≤ c.requestGeneration
  timers : ∀ t ∈ c.timers, t.generation ≤ c.requestGeneration
  owned : Owned c stack

theorem Good.held (h : Good c stack) : Held c stack :=
  ⟨h.channels, fun f hf g hg => (h.ranked.frames f hf g hg).1, fun t ht => (h.ranked.timers t ht).1,
    h.owned⟩

/-- Another generation begins, and the channel is closed. -/
theorem Held.bump (h : Held c stack) (hgeneration : c'.requestGeneration = c.requestGeneration + 1)
    (htimers : c'.timers ⊆ c.timers) (hfatal : c'.fatal = c.fatal) (hregistered : c'.registered = [])
    (hchannel : c'.channel = none) (hstate : c'.state = .disconnected)
    (hcreated : c'.created = c.created) (hdelivered : c'.delivered = c.delivered)
    (hclosed : c'.closed = (c.channel.map Channel.fd).toList ++ c.closed) : Clear c' stack where
  channels := .of_none (hfatal.trans h.channels.fatal) hregistered hchannel (by rw [hstate]; exact nofun)
  stale := by
    refine ⟨fun f hf g hg => ?_, fun t ht => ?_⟩
    · have hle := h.frames f hf g hg
      omega
    · have hle := h.timers t (htimers ht)
      exact ⟨by omega, fun _ => by omega⟩
  owned := by
    refine h.owned.move hcreated fun fd => ?_
    rw [Core.owns_none hchannel, hdelivered, hclosed]
    cases hch : c.channel with
    | none =>
      rw [Core.owns_none hch]
      rfl
    | some ch =>
      rw [Core.owns_some hch]
      show (ch.fd :: c.closed).count fd + _ + _ + 0 = _
      rw [List.count_cons]
      simp only [beq_iff_eq]
      omega
  state := hstate

theorem releaseChannel_eq {use : Core → Nat → Core × List Frame}
    (hch : c.channel = some ch) (hregistered : c.registered = c.channel.toList) :
    c.releaseChannel use = use { c with channel := none, registered := [] } ch.fd := by
  have herase : c.registered.erase ch = [] := by
    rw [hregistered, hch, Option.toList_some, List.erase_cons_head]
  rw [Core.releaseChannel, hch]
  simp only [herase]

theorem closeChannel_eq (hch : c.channel = some ch) (hregistered : c.registered = c.channel.toList) :
    c.closeChannel = { c with channel := none, registered := [], closed := ch.fd :: c.closed } := by
  rw [Core.closeChannel, releaseChannel_eq hch hregistered]
  rfl

theorem start_of_ne (hstate : c.state ≠ .connected) : c.start = Core.startInLoop
    (if c.state = .connecting then
      (let c := Core.cancelConnectTimeout
        { c with connect := true, requestGeneration := c.requestGeneration + 1 }
      if c.channel = none then c else { c with state := .disconnected }.closeChannel)
    else { c with connect := true, requestGeneration := c.requestGeneration + 1 })
    (c.requestGeneration + 1) :=
  if_neg hstate

theorem Held.start (h : Held c stack) (hstate : c.state ≠ .connected) :
    Good c.start.1 (c.start.2 ++ stack) := by
  rw [start_of_ne hstate]
  by_cases hconnecting : c.state = .connecting
  · obtain ⟨ch, hch, -⟩ := h.channels.some_of hconnecting
    rw [if_pos hconnecting]
    obtain ⟨id, timers, hcancel, hsubset⟩ := cancelConnectTimeout_eq
      { c with connect := true, requestGeneration := c.requestGeneration + 1 }
    have hsome : ¬c.channel = none := by rw [hch]; exact nofun
    simp only [hcancel, hsome, if_false]
    rw [closeChannel_eq (by exact hch) (by exact h.channels.registered)]
    exact Clear.startInLoop (h.bump rfl hsubset rfl rfl rfl rfl rfl rfl (by rw [hch]; rfl)) rfl
  · rw [if_neg hconnecting]
    have hnone := h.channels.none_of hconnecting
    have hdisconnected : c.state = .disconnected := by
      cases hs : c.state with
      | disconnected => rfl
      | connecting => exact absurd hs hconnecting
      | connected => exact absurd hs hstate
    have hclear : Clear { c with connect := true, requestGeneration := c.requestGeneration + 1 } stack :=
      h.bump rfl (List.Subset.refl _) rfl (by rw [h.channels.registered, hnone]; rfl) hnone
        hdisconnected rfl rfl (by rw [hnone]; rfl)
    exact hclear.startInLoop rfl

theorem Good.start (h : Good c stack) : Good c.start.1 (c.start.2 ++ stack) := by
  by_cases hstate : c.state = .connected
  · have hstart : c.start = ({ c with connect := true }, []) := if_pos hstate
    rw [hstart]
    refine ⟨{ h.channels with channel := fun ch hch => ⟨(h.channels.channel ch hch).1, rfl⟩ },
      ⟨fun f hf g hg => ?_, fun t ht => ?_, h.ranked.one⟩,
      h.owned, h.settled⟩
    · obtain ⟨hle, hcurrent⟩ := h.ranked.frames f hf g hg
      exact ⟨hle, fun heq => ⟨rfl, (hcurrent heq).2⟩⟩
    · obtain ⟨hle, hcurrent⟩ := h.ranked.timers t ht
      exact ⟨hle, fun hkind heq => ⟨rfl, (hcurrent hkind heq).2⟩⟩
  · exact h.held.start hstate

/-- The timers are cancelled. -/
theorem Good.cancel (h : Good c stack) : Held c.cancelRetryTimer.cancelConnectTimeout stack ∧
    c.cancelRetryTimer.cancelConnectTimeout.state = c.state ∧
    c.cancelRetryTimer.cancelConnectTimeout.channel = c.channel := by
  obtain ⟨id, timers, hcancel, hsubset⟩ := cancelRetryTimer_eq c
  rw [hcancel]
  obtain ⟨id', timers', hcancel', hsubset'⟩ := cancelConnectTimeout_eq
    { c with retryTimerId := id, timers := timers }
  rw [hcancel']
  refine ⟨⟨{ h.channels with },
    h.held.frames, fun t ht => h.held.timers t (hsubset (hsubset' ht)), h.owned⟩, rfl, rfl⟩

theorem Good.restart (h : Good c stack) : Good c.restart.1 (c.restart.2 ++ stack) := by
  obtain ⟨hheld, hstate, hchannel⟩ := h.cancel
  rw [Core.restart]
  split
  case isTrue hconnected =>
    have hnone := hheld.channels.none_of (by rw [hconnected]; exact nofun)
    have hregistered := hheld.channels.registered
    rw [hnone] at hregistered
    exact Held.start ⟨.of_none hheld.channels.fatal hregistered hnone nofun, hheld.frames, hheld.timers,
      hheld.owned⟩ nofun
  case isFalse hconnected => exact hheld.start hconnected

theorem Good.stop (h : Good c stack) : Clear c.stop stack := by
  obtain ⟨id, timers, hcancel, hsubset⟩ := cancelRetryTimer_eq
    { c with connect := false, requestGeneration := c.requestGeneration + 1 }
  obtain ⟨id', timers', hcancel', hsubset'⟩ := cancelConnectTimeout_eq
    { c with connect := false, requestGeneration := c.requestGeneration + 1,
             retryTimerId := id, timers := timers }
  have htimers : timers' ⊆ c.timers := fun _ ht => hsubset (hsubset' ht)
  rw [Core.stop]
  simp only [hcancel, hcancel']
  split
  case h_1 hstate =>
    obtain ⟨ch, hch, -⟩ := h.channels.some_of hstate
    rw [closeChannel_eq (by exact hch) (by exact h.channels.registered)]
    exact h.held.bump rfl htimers rfl rfl rfl rfl rfl rfl (by rw [hch]; rfl)
  case h_2 hstate =>
    replace hstate : c.state = .connected := hstate
    have hchannel := h.channels.none_of (by rw [hstate]; exact nofun)
    exact h.held.bump rfl htimers rfl (by rw [h.channels.registered, hchannel]; rfl) hchannel rfl rfl
      rfl (by rw [hchannel]; rfl)
  case h_3 hstate =>
    replace hstate : c.state = .disconnected := hstate
    have hchannel := h.channels.none_of (by rw [hstate]; exact nofun)
    exact h.held.bump rfl htimers rfl (by rw [h.channels.registered, hchannel]; rfl) hchannel hstate
      rfl rfl (by rw [hchannel]; rfl)

/-! ## The events -/

/-- The channel is removed, and its descriptor goes to a frame that continues the attempt. -/
theorem Good.release (h : Good c []) (hstale : Stale c [])
    (hch : c.channel = some ch) (hgeneration : c'.requestGeneration = c.requestGeneration)
    (hconnect : c'.connect = c.connect) (htimers : c'.timers ⊆ c.timers)
    (hfatal : c'.fatal = c.fatal) (hregistered : c'.registered = []) (hchannel : c'.channel = none)
    (hstate : c'.state = f.phase) (hphase : f.phase ≠ .connecting)
    (hcreated : c'.created = c.created) (hdelivered : c'.delivered = c.delivered)
    (hclosed : c'.closed = c.closed) (hf : f.generation = some g) (hg : g = c.requestGeneration)
    (hholds : f.holds = some ch.fd) : Good c' [f] where
  channels := .of_none (hfatal.trans h.channels.fatal) hregistered hchannel (hstate ▸ hphase)
  ranked := (hstale.congr hgeneration htimers).token hf (hg.trans hgeneration.symm)
    (hconnect.trans (h.channels.channel ch hch).2) hstate
  owned := by
    refine h.owned.move hcreated fun fd => ?_
    rw [weight_cons, Frame.owns_some hholds, Core.owns_none hchannel, Core.owns_some hch, hdelivered,
      hclosed]
    omega
  settled _ x hx _ := by
    rw [List.mem_singleton.mp hx, hf, hg, hgeneration]

theorem Good.stale_of_connecting (h : Good c []) (hstate : c.state = .connecting) : Stale c [] :=
  h.ranked.stale nofun (by rw [hstate]; exact nofun)

/-- The channel that the loop reports on is the one of the attempt. -/
theorem Good.reported (h : Good c []) (hmem : ch ∈ c.registered) : c.channel = some ch ∧
    ch.generation = c.requestGeneration ∧ c.connect = true ∧ c.state = .connecting := by
  rw [h.channels.registered, Option.mem_toList] at hmem
  obtain ⟨hgeneration, hconnect⟩ := h.channels.channel ch hmem
  exact ⟨hmem, hgeneration, hconnect, h.channels.connecting.mpr (by rw [hmem]; exact nofun)⟩

theorem Good.handleWrite (h : Good c []) (hmem : ch ∈ c.registered) (probe : Probe) :
    Good (c.handleWrite ch.generation probe).1 ((c.handleWrite ch.generation probe).2 ++ []) := by
  obtain ⟨hmem, hgeneration, hconnect, hstate⟩ := h.reported hmem
  have hstale := h.stale_of_connecting hstate
  obtain ⟨id, timers, hcancel, hsubset⟩ := cancelConnectTimeout_eq c
  rw [Core.handleWrite, if_neg (not_not.mpr hstate), if_neg (by rw [hconnect]; simp [hgeneration]),
    hcancel, releaseChannel_eq (by exact hmem) (by exact h.channels.registered)]
  cases probe
  all_goals
    exact Good.emitEvent (h.release hstale hmem rfl rfl hsubset rfl rfl rfl rfl (by rintro ⟨⟩) rfl rfl
      rfl rfl hgeneration rfl)

theorem Good.handleError (h : Good c []) (hmem : ch ∈ c.registered) :
    Good (c.handleError ch.generation).1 ((c.handleError ch.generation).2 ++ []) := by
  obtain ⟨hmem, hgeneration, -, hstate⟩ := h.reported hmem
  have hstale := h.stale_of_connecting hstate
  obtain ⟨id, timers, hcancel, hsubset⟩ := cancelConnectTimeout_eq c
  rw [Core.handleError, if_neg (not_not.mpr hstate), hcancel,
    releaseChannel_eq (by exact hmem) (by exact h.channels.registered)]
  exact Good.emitEvent (h.release hstale hmem rfl rfl hsubset rfl rfl rfl rfl nofun rfl rfl rfl rfl
    hgeneration rfl)

variable {t : Timer}

/-- The timer that fires is taken from the loop. -/
theorem weight_timers_erase (ht : t ∈ c.timers) :
    weight (Timer.isCurrent c) c.timers =
      t.isCurrent c + weight (Timer.isCurrent c) (c.timers.erase t) := by
  rw [Stacks.weight_perm _ (List.perm_cons_erase ht), weight_cons]

theorem Good.takeTimer (h : Good c stack) (ht : t ∈ c.timers) :
    Good { c with timers := c.timers.erase t } stack where
  channels := { h.channels with }
  ranked := by
    refine ⟨h.ranked.frames, fun x hx => h.ranked.timers x (List.mem_of_mem_erase hx), ?_⟩
    have hone := h.ranked.one
    rw [weight_timers_erase ht] at hone
    show weight (Frame.isCurrent c) stack + weight (Timer.isCurrent c) (c.timers.erase t) ≤ 1
    omega
  owned := h.owned
  settled := h.settled

/-- The token was a timer. -/
theorem Good.takeToken (h : Good c stack) (ht : t ∈ c.timers) (hkind : t.kind = .retry)
    (hcurrent : t.generation = c.requestGeneration) (id : Option Nat) :
    Clear { c with timers := c.timers.erase t, retryTimerId := id } stack where
  channels := { h.channels with }
  stale := by
    have hone := h.ranked.one
    have htoken : t.isCurrent c = 1 := if_pos ⟨hkind, hcurrent⟩
    rw [weight_timers_erase ht, htoken] at hone
    refine ⟨fun f hf g hg => ?_, fun x hx => ?_⟩
    · refine lt_of_le_of_ne (h.ranked.frames f hf g hg).1 fun heq => ?_
      have hle := Stacks.le_weight (Frame.isCurrent c) hf
      have hf' : f.isCurrent c = 1 := if_pos (heq ▸ hg)
      omega
    · replace hx : x ∈ c.timers.erase t := hx
      have hle := (h.ranked.timers x (List.mem_of_mem_erase hx)).1
      refine ⟨hle, fun hretry => lt_of_le_of_ne hle fun heq => ?_⟩
      have hle := Stacks.le_weight (Timer.isCurrent c) hx
      have hx' : x.isCurrent c = 1 := if_pos ⟨hretry, heq⟩
      omega
  owned := h.owned
  state := ((h.ranked.timers t ht).2 hkind hcurrent).2

theorem Good.fire (h : Good c []) (ht : t ∈ c.timers) :
    Good (c.fire t).1 ((c.fire t).2 ++ []) := by
  have htaken := h.takeTimer ht
  unfold Core.fire
  dsimp only
  split
  case h_1 hkind =>
    rw [Core.handleRetry]
    split
    · exact htaken
    case isFalse hcurrent =>
      rw [not_or, not_not, Bool.not_eq_false] at hcurrent
      obtain ⟨hgeneration, hconnect⟩ := hcurrent
      have hclear := h.takeToken ht hkind hgeneration none
      rw [hgeneration]
      exact hclear.startInLoop hconnect
  case h_2 =>
    rw [Core.handleConnectTimeout]
    split
    · exact htaken
    case isFalse hcurrent =>
      dsimp only
      have hgood : Good { c with timers := c.timers.erase t, connectTimeoutTimerId := none } [] :=
        ⟨{ h.channels with },
          { htaken.ranked with }, h.owned, h.settled⟩
      split
      · exact hgood
      case isFalse hstate =>
        rw [not_not] at hstate hcurrent
        obtain ⟨-, -, -, hconnect⟩ := h.channels.some_of hstate
        refine Good.emitEvent ⟨hgood.channels, ?_, hgood.owned.push rfl, ?_⟩
        · exact (hgood.stale_of_connecting hstate).token rfl hcurrent hconnect hstate
        · intro hconnected
          rw [show c.state = _ from hstate] at hconnected
          cases hconnected

/-! ## The frames -/

theorem Good.pop (h : Good c (f :: rest)) (hholds : f.holds = none) : Good c rest :=
  ⟨h.channels, h.ranked.tail, h.owned.pop hholds, fun hs x hx => h.settled hs x (.tail _ hx)⟩

/-- The token is taken from the top, in the state where an attempt begins. -/
theorem Good.take (h : Good c (f :: rest)) (hholds : f.holds = none)
    (hg : f.generation = some c.requestGeneration) (hphase : f.phase = .disconnected) :
    Clear c rest :=
  ⟨h.channels, h.ranked.take hg, h.owned.pop hholds,
    ((h.ranked.frames f (.head _) _ hg).2 rfl).2.trans hphase⟩

/-- The frame closes its descriptor. -/
theorem Good.close {k : Nat} (h : Good c (f :: rest)) (hholds : f.holds = some k) :
    Good (c.close k) rest :=
  ⟨{ h.channels with },
    { h.ranked.tail with }, h.owned.close hholds rfl,
    fun hs x hx => h.settled hs x (.tail _ hx)⟩

/-- A descriptor is created for a frame that continues the attempt. -/
theorem Clear.create (h : Clear c stack) (hconnect : c.connect = true)
    (hf : f.generation = some g) (hg : g = c.requestGeneration) (hphase : f.phase = .disconnected)
    (hholds : f.holds = some c.created) : Good { c with created := c.created + 1 } (f :: stack) where
  channels := { h.channels with }
  ranked := by
    have hstale : Stale { c with created := c.created + 1 } stack := h.stale.congr rfl (by simp)
    exact hstale.token hf hg hconnect (h.state.trans hphase.symm)
  owned := by
    refine h.owned.create rfl fun fd => ?_
    rw [weight_cons, Frame.owns_some hholds]
    show c.closed.count fd + c.delivered.count fd + _ + c.owns fd = _
    omega
  settled hs := by
    rw [show c.state = _ from h.state] at hs
    cases hs

/-- The channel of a new attempt is registered. -/
theorem Clear.connecting (h : Clear c stack) (hconnect : c.connect = true) :
    Good ({ c with created := c.created + 1 }.connecting c.created c.requestGeneration) stack := by
  have hnone := h.channels.none_of (by rw [h.state]; exact nofun)
  have hregistered : c.registered = [] := by rw [h.channels.registered, hnone]; rfl
  have howned (c' : Core) (hcreated : c'.created = c.created + 1) (hclosed : c'.closed = c.closed)
      (hdelivered : c'.delivered = c.delivered)
      (hchannel : c'.channel = some ⟨c.created, c.requestGeneration⟩) : Owned c' stack := by
    refine h.owned.create hcreated fun fd => ?_
    rw [Core.owns_some hchannel, Core.owns_none hnone, hclosed, hdelivered]
    rfl
  rw [Core.connecting, if_neg (by rw [hconnect]; simp)]
  simp only [hnone, if_true, hregistered]
  split
  · refine ⟨⟨h.channels.fatal, rfl, ⟨fun _ => nofun, fun _ => rfl⟩, ?_⟩, ?_, howned _ rfl rfl rfl rfl,
      nofun⟩
    · rintro ch ⟨⟩
      exact ⟨rfl, hconnect⟩
    · refine Stale.ranked ⟨h.stale.frames, fun t ht => ?_⟩
      rcases List.mem_cons.mp ht with rfl | ht
      · exact ⟨Nat.le_refl _, nofun⟩
      · exact h.stale.timers t ht
  · refine ⟨⟨h.channels.fatal, rfl, ⟨fun _ => nofun, fun _ => rfl⟩, ?_⟩, ?_, howned _ rfl rfl rfl rfl,
      nofun⟩
    · rintro ch ⟨⟩
      exact ⟨rfl, hconnect⟩
    · exact Stale.ranked ⟨h.stale.frames, h.stale.timers⟩

theorem Good.attempt (h : Good c (.attempt g :: rest)) (dial : Dial) :
    Good (c.attempt g dial).1 ((c.attempt g dial).2 ++ rest) := by
  rw [Core.attempt]
  split
  · exact h.pop rfl
  case isFalse hcurrent =>
    rw [not_or, not_not, Bool.not_eq_false] at hcurrent
    obtain ⟨rfl, hconnect⟩ := hcurrent
    have hclear := h.take rfl rfl rfl
    cases dial with
    | noSocket => exact Good.emitEvent (hclear.push rfl rfl hconnect rfl rfl)
    | inProgress => exact hclear.connecting hconnect
    | retryable => exact Good.emitEvent (hclear.create hconnect rfl rfl rfl rfl)
    | refused => exact Good.emitEvent (hclear.create hconnect rfl rfl rfl rfl)

/-- The current attempt goes on with a retry, or it ends. -/
theorem Clear.retry (h : Clear c stack) (hconnect : c.connect = true) :
    Good (c.retry none c.requestGeneration).1 ((c.retry none c.requestGeneration).2 ++ stack) := by
  have hclear : Clear { c with state := .disconnected } stack := by
    rw [← h.state]
    exact h
  rw [Core.retry, if_neg (not_not.mpr rfl)]
  dsimp only
  split
  · exact Good.emitEvent (hclear.push rfl rfl hconnect rfl rfl)
  · exact Good.emitEvent hclear.good

theorem Good.retry {fd : Option Nat} (h : Good c (.retry fd g :: rest)) :
    Good (c.retry fd g).1 ((c.retry fd g).2 ++ rest) := by
  by_cases hg : g = c.requestGeneration
  · subst hg
    obtain ⟨hconnect, hstate⟩ := (h.ranked.frames _ (.head _) _ rfl).2 rfl
    have hstale := h.ranked.take rfl
    cases fd with
    | none => exact Clear.retry ⟨h.channels, hstale, h.owned.pop rfl, hstate⟩ hconnect
    | some fd =>
      have hclosed := h.close rfl
      exact Clear.retry ⟨hclosed.channels, ⟨hstale.frames, hstale.timers⟩, hclosed.owned, hstate⟩
        hconnect
  · unfold Core.retry
    cases fd with
    | none =>
      dsimp only
      rw [if_pos hg]
      exact h.pop rfl
    | some fd =>
      dsimp only
      rw [if_pos (by exact hg)]
      exact h.close rfl

theorem Good.schedule (h : Good c (.schedule g :: rest)) (answer : Answer) :
    Good (c.resume answer (.schedule g)).1 ((c.resume answer (.schedule g)).2 ++ rest) := by
  rw [Core.resume]
  split
  · exact h.pop rfl
  case isFalse hcurrent =>
    rw [not_or, not_not, not_or, Bool.not_eq_false] at hcurrent
    obtain ⟨rfl, hconnect, -⟩ := hcurrent
    have hclear := h.take rfl rfl rfl
    refine ⟨{ h.channels with },
      ⟨hclear.stale.ranked.frames, fun t ht => ?_, ?_⟩, hclear.owned, hclear.good.settled⟩
    · rcases List.mem_cons.mp ht with rfl | ht
      · exact ⟨Nat.le_refl _, fun _ _ => ⟨hconnect, hclear.state⟩⟩
      · exact hclear.stale.ranked.timers t ht
    · obtain ⟨hframes, htimers⟩ := hclear.stale.no_token
      have hone : Timer.isCurrent c ⟨c.nextTimer, .retry, c.requestGeneration⟩ ≤ 1 := by
        rw [Timer.isCurrent]
        split <;> omega
      show weight (Frame.isCurrent c) rest + weight (Timer.isCurrent c) (_ :: c.timers) ≤ 1
      rw [weight_cons]
      omega

/-- `settleCompletedAttempt` for a frame that was to settle its own attempt. -/
theorem Good.settle (h : Good c (f :: rest)) (hphase : f.phase = .connected) :
    Channels c.settleCompletedAttempt ∧
      Ranked c.settleCompletedAttempt rest ∧
      (c.settleCompletedAttempt.state = .connected → ∀ x ∈ rest, x.phase = .connected →
        x.generation = some c.requestGeneration) := by
  rw [Core.settleCompletedAttempt]
  split
  case isTrue hstate =>
    have hcurrent : f.generation = some c.requestGeneration := h.settled hstate f (.head _) hphase
    have hstale := h.ranked.take hcurrent
    have hnone := h.channels.none_of (by rw [hstate]; exact nofun)
    exact ⟨.of_none h.channels.fatal (by rw [h.channels.registered, hnone]; rfl) hnone nofun,
      Stale.ranked ⟨hstale.frames, hstale.timers⟩, nofun⟩
  case isFalse hstate =>
    exact ⟨h.channels, h.ranked.tail, fun hs => absurd hs hstate⟩

theorem settleCompletedAttempt_eq (c : Core) :
    ∃ state, c.settleCompletedAttempt = { c with state := state } := by
  rw [Core.settleCompletedAttempt]
  split
  · exact ⟨_, rfl⟩
  · exact ⟨_, rfl⟩

theorem Good.deliver {fd g : Nat} (h : Good c (.deliver fd g :: rest)) (answer : Answer) :
    Good (c.resume answer (.deliver fd g)).1 ((c.resume answer (.deliver fd g)).2 ++ rest) := by
  rw [Core.resume]
  split
  case isTrue hcurrent =>
    obtain ⟨rfl, hconnect, -⟩ := hcurrent
    obtain ⟨-, hstate⟩ := (h.ranked.frames _ (.head _) _ rfl).2 rfl
    have hstale := h.ranked.take rfl
    have hranked : Ranked { c with delivered := fd :: c.delivered } (.settle c.requestGeneration :: rest) :=
      Stale.token ⟨hstale.frames, hstale.timers⟩ rfl rfl hconnect hstate
    refine ⟨{ h.channels with },
      hranked.callback rfl, ?_, fun hs x hx hphase => ?_⟩
    · refine h.owned.move rfl fun k => ?_
      show c.closed.count k + (fd :: c.delivered).count k +
        weight (Frame.owns k) (.newConnection fd :: .settle c.requestGeneration :: rest) + c.owns k = _
      rw [weight_cons, weight_cons, weight_cons, Frame.owns_none rfl, Frame.owns_none rfl,
        Frame.owns_some rfl, List.count_cons]
      simp only [beq_iff_eq]
      omega
    · rcases List.mem_cons.mp hx with rfl | hx
      · cases hphase
      · rcases List.mem_cons.mp hx with rfl | hx
        · rfl
        · exact h.settled hs x (.tail _ hx) hphase
  case isFalse =>
    obtain ⟨hchannels, hranked, hsettled⟩ := h.settle rfl
    obtain ⟨state, hstate⟩ := settleCompletedAttempt_eq c
    rw [hstate] at hchannels hranked hsettled ⊢
    have howned : Owned { c with state := state } (.deliver fd g :: rest) := h.owned
    exact ⟨{ hchannels with },
      { hranked with }, howned.close rfl rfl, hsettled⟩

theorem Good.settleFrame (h : Good c (.settle g :: rest)) (answer : Answer) :
    Good (c.resume answer (.settle g)).1 ((c.resume answer (.settle g)).2 ++ rest) := by
  rw [Core.resume]
  split
  · obtain ⟨hchannels, hranked, hsettled⟩ := h.settle rfl
    obtain ⟨state, hstate⟩ := settleCompletedAttempt_eq c
    rw [hstate] at hchannels hranked hsettled ⊢
    exact ⟨hchannels, hranked, h.owned.pop rfl, hsettled⟩
  · exact h.pop rfl

theorem Good.refused {fd g : Nat} (h : Good c (.refused fd g :: rest)) (answer : Answer) :
    Good (c.resume answer (.refused fd g)).1 ((c.resume answer (.refused fd g)).2 ++ rest) := by
  rw [Core.resume]
  split
  · exact Good.emitEvent (h.close rfl)
  · exact h.close rfl

theorem Good.timedOut (h : Good c (.timedOut g :: rest)) (answer : Answer) :
    Good (c.resume answer (.timedOut g)).1 ((c.resume answer (.timedOut g)).2 ++ rest) := by
  rw [Core.resume]
  split
  · exact h.pop rfl
  case isFalse hcurrent =>
    rw [not_or, not_not, Bool.not_eq_false] at hcurrent
    obtain ⟨rfl, hconnect⟩ := hcurrent
    obtain ⟨-, hstate⟩ := (h.ranked.frames _ (.head _) _ rfl).2 rfl
    obtain ⟨ch, hch, -⟩ := h.channels.some_of hstate
    have hstale := h.ranked.take rfl
    rw [releaseChannel_eq hch h.channels.registered]
    refine Clear.retry ⟨.of_none h.channels.fatal rfl rfl nofun,
      ⟨hstale.frames, hstale.timers⟩, ?_, rfl⟩ hconnect
    refine (h.owned.pop rfl).move rfl fun fd => ?_
    show (ch.fd :: c.closed).count fd + c.delivered.count fd + _ + 0 = _
    rw [Core.owns_some hch, List.count_cons]
    simp only [beq_iff_eq]
    omega

theorem Good.resume (h : Good c (f :: rest)) (answer : Answer) :
    Good (c.resume answer f).1 ((c.resume answer f).2 ++ rest) := by
  cases f with
  | emit event => exact h.pop rfl
  | newConnection fd => exact h.pop rfl
  | attempt g => exact h.attempt answer.dial
  | refused fd g => exact h.refused answer
  | retry fd g => exact h.retry
  | schedule g => exact h.schedule answer
  | deliver fd g => exact h.deliver answer
  | settle g => exact h.settleFrame answer
  | timedOut g => exact h.timedOut answer

variable {s s' : State} {lab : Label}

theorem step_good (h : Good s.core s.stack) (hs : step s lab = some s') : Good s'.core s'.stack := by
  cases lab <;> simp only [step, Option.ite_none_right_eq_some, Option.some.injEq] at hs
  case start =>
    obtain ⟨-, rfl⟩ := hs
    exact h.start
  case stop =>
    obtain ⟨-, rfl⟩ := hs
    exact h.stop.good
  case restart =>
    obtain ⟨-, rfl⟩ := hs
    exact h.restart
  case setRetryEnabled | setNewConnectionCallback =>
    obtain ⟨-, rfl⟩ := hs
    exact ⟨{ h.channels with }, { h.ranked with }, h.owned, h.settled⟩
  case writable channel probe =>
    obtain ⟨⟨hstack, hmem⟩, rfl⟩ := hs
    exact (hstack ▸ h).handleWrite hmem probe
  case error channel =>
    obtain ⟨⟨hstack, hmem⟩, rfl⟩ := hs
    exact (hstack ▸ h).handleError hmem
  case fire timer =>
    obtain ⟨⟨hstack, hmem⟩, rfl⟩ := hs
    exact (hstack ▸ h).fire hmem
  case resume answer =>
    split at hs
    · cases hs
    case h_2 frame rest hstack =>
      cases hs
      exact (hstack ▸ h).resume answer

theorem good_init (h : Init s) : Good s.core s.stack := by
  obtain ⟨retryEnabled, connectTimeout, rfl⟩ := h
  exact ⟨.of_none rfl rfl rfl nofun, ⟨nofun, nofun, Nat.zero_le _⟩,
    fun _ => rfl, nofun⟩

theorem reach_good {C : State → Label → Prop} (h : Reach Init step C s) :
    Good s.core s.stack :=
  Reach.invariant (P := fun s => Good s.core s.stack) (fun _ hi => good_init hi)
    (fun _ _ _ hi _ hs => step_good hi hs) h

/-! ## After a stop -/

/-- `start` and `restart` are not called. -/
def Unstarted (_ : State) (lab : Label) : Prop := lab ≠ .start ∧ lab ≠ .restart

instance (s : State) (lab : Label) : Decidable (Unstarted s lab) :=
  inferInstanceAs (Decidable (_ ∧ _))

/-- Nothing was emitted, delivered or created, and nothing may be. -/
structure Silent (c c' : Core) : Prop where
  connect : c'.connect = false
  events : c'.events = c.events
  delivered : c'.delivered = c.delivered
  created : c'.created = c.created

theorem stop_silent (c : Core) :
    Silent c c.stop ∧ c.stop.newConnectionCallback = c.newConnectionCallback := by
  obtain ⟨id, timers, hcancel, -⟩ := cancelRetryTimer_eq
    { c with connect := false, requestGeneration := c.requestGeneration + 1 }
  obtain ⟨id', timers', hcancel', -⟩ := cancelConnectTimeout_eq
    { c with connect := false, requestGeneration := c.requestGeneration + 1,
             retryTimerId := id, timers := timers }
  rw [Core.stop]
  simp only [hcancel, hcancel']
  split
  · rw [Core.closeChannel, Core.releaseChannel]
    split <;> exact ⟨⟨rfl, rfl, rfl, rfl⟩, rfl⟩
  · exact ⟨⟨rfl, rfl, rfl, rfl⟩, rfl⟩
  · exact ⟨⟨rfl, rfl, rfl, rfl⟩, rfl⟩

theorem resume_silent (h : Good c (f :: rest)) (hconnect : c.connect = false) (answer : Answer) :
    Silent c (c.resume answer f).1 := by
  have hstale {g : Nat} (hg : f.generation = some g) : g ≠ c.requestGeneration := by
    intro heq
    have hcurrent := ((h.ranked.frames f (.head _) g hg).2 heq).1
    rw [hconnect] at hcurrent
    cases hcurrent
  cases f with
  | emit | newConnection => exact ⟨hconnect, rfl, rfl, rfl⟩
  | attempt g =>
    rw [Core.resume, Core.attempt, if_pos (.inl (hstale rfl))]
    exact ⟨hconnect, rfl, rfl, rfl⟩
  | refused fd g =>
    rw [Core.resume, if_neg fun hc => hstale rfl hc.1]
    exact ⟨hconnect, rfl, rfl, rfl⟩
  | retry fd g =>
    rw [Core.resume]
    unfold Core.retry
    cases fd with
    | none =>
      dsimp only
      rw [if_pos (hstale rfl)]
      exact ⟨hconnect, rfl, rfl, rfl⟩
    | some fd =>
      dsimp only
      rw [if_pos (by exact hstale rfl)]
      exact ⟨hconnect, rfl, rfl, rfl⟩
  | schedule g =>
    rw [Core.resume, if_pos (.inl (hstale rfl))]
    exact ⟨hconnect, rfl, rfl, rfl⟩
  | deliver fd g =>
    rw [Core.resume, if_neg fun hc => hstale rfl hc.1, Core.settleCompletedAttempt]
    split <;> exact ⟨hconnect, rfl, rfl, rfl⟩
  | settle g =>
    rw [Core.resume, if_pos (.inr (.inl (hstale rfl))), Core.settleCompletedAttempt]
    split <;> exact ⟨hconnect, rfl, rfl, rfl⟩
  | timedOut g =>
    rw [Core.resume, if_pos (.inl (hstale rfl))]
    exact ⟨hconnect, rfl, rfl, rfl⟩

theorem fire_silent (h : Good c stack) (hconnect : c.connect = false) (t : Timer) :
    Silent c (c.fire t).1 := by
  unfold Core.fire
  dsimp only
  split
  · rw [Core.handleRetry, if_pos (.inr hconnect)]
    exact ⟨hconnect, rfl, rfl, rfl⟩
  · rw [Core.handleConnectTimeout]
    split
    · exact ⟨hconnect, rfl, rfl, rfl⟩
    · dsimp only
      rw [if_pos]
      · exact ⟨hconnect, rfl, rfl, rfl⟩
      · intro hstate
        obtain ⟨-, -, -, hcurrent⟩ := h.channels.some_of hstate
        rw [hconnect] at hcurrent
        cases hcurrent

theorem step_silent (h : Good s.core s.stack) (hconnect : s.core.connect = false)
    (hlab : Unstarted s lab) (hs : step s lab = some s') : Silent s.core s'.core := by
  have hnone : s.core.registered = [] := by
    rw [h.channels.registered]
    cases hch : s.core.channel with
    | none => rfl
    | some ch =>
      have hcurrent := (h.channels.channel ch hch).2
      rw [hconnect] at hcurrent
      cases hcurrent
  cases lab <;> simp only [step, Option.ite_none_right_eq_some, Option.some.injEq, hnone] at hs
  case start => exact absurd rfl hlab.1
  case restart => exact absurd rfl hlab.2
  case stop =>
    obtain ⟨-, rfl⟩ := hs
    exact (stop_silent s.core).1
  case setRetryEnabled | setNewConnectionCallback =>
    obtain ⟨-, rfl⟩ := hs
    exact ⟨hconnect, rfl, rfl, rfl⟩
  case writable | error => exact absurd hs.1.2 List.not_mem_nil
  case fire timer =>
    obtain ⟨-, rfl⟩ := hs
    exact fire_silent h hconnect timer
  case resume answer =>
    split at hs
    · cases hs
    case h_2 frame rest hstack =>
      cases hs
      exact resume_silent (hstack ▸ h) hconnect answer

/-- In every reachable state no assertion has failed and at most one channel is registered; a
    descriptor that was created is closed or delivered, once, or it still belongs to the channel or
    to a function that a callback interrupted; and after `stop` no event is emitted, no descriptor
    created or delivered, until `start` or `restart` is called. -/
theorem connector_owns_descriptors (h : Reach Init step Any s) :
    s.core.fatal = false ∧ s.core.registered.length ≤ 1 ∧
    (∀ fd, s.core.closed.count fd + s.core.delivered.count fd + weight (Frame.owns fd) s.stack +
        (s.core.registered.map Channel.fd).count fd = if fd < s.core.created then 1 else 0) ∧
    ∀ s₁, step s .stop = some s₁ → ∀ s', Reach (· = s₁) step Unstarted s' →
      s'.core.events = s₁.core.events ∧ s'.core.delivered = s₁.core.delivered ∧
        s'.core.created = s₁.core.created := by
  have hgood := reach_good h
  refine ⟨hgood.channels.fatal, ?_, fun fd => ?_, fun s₁ hstop s' h' => ?_⟩
  · rw [hgood.channels.registered]
    cases s.core.channel <;> simp
  · rw [← hgood.owned fd, hgood.channels.registered]
    cases hch : s.core.channel with
    | none =>
      rw [Core.owns_none hch]
      rfl
    | some ch =>
      rw [Core.owns_some hch, Option.toList_some, List.map_singleton, List.count_singleton]
      simp only [beq_iff_eq]
  · have hgood₁ := step_good hgood hstop
    have hconnect : s₁.core.connect = false := by
      simp only [step, Option.ite_none_right_eq_some] at hstop
      obtain ⟨-, hstop⟩ := hstop
      cases hstop
      exact (stop_silent s.core).1.connect
    have hlater : Good s'.core s'.stack ∧ Silent s₁.core s'.core :=
      Reach.invariant (P := fun s => Good s.core s.stack ∧ Silent s₁.core s.core)
        (by rintro s rfl; exact ⟨hgood₁, hconnect, rfl, rfl, rfl⟩)
        (fun _ _ _ hi hc hs => by
          have hsilent := step_silent hi.1 hi.2.connect hc hs
          exact ⟨step_good hi.1 hs, hsilent.connect, hsilent.events.trans hi.2.events,
            hsilent.delivered.trans hi.2.delivered, hsilent.created.trans hi.2.created⟩) h'
    exact ⟨hlater.2.events, hlater.2.delivered, hlater.2.created⟩

end

/-- The callback of `ConnectSuccess` restarts the connector: the first descriptor is closed and the
    second one delivered. -/
theorem connector_owns_descriptors_restarted :
    ∃ s : State, s.core.closed = [0] ∧ s.core.delivered = [1] ∧ s.core.fatal = false ∧
      s.core.registered.length ≤ 1 := by
  obtain ⟨s, hreach, hclosed, hdelivered⟩ := Reach.of_run Init step Any
    (fun s => s.core.closed = [0] ∧ s.core.delivered = [1])
    { core := { retryEnabled := true, connectTimeout := true } } ⟨true, true, rfl⟩
    [.start, .resume {}, .resume {}, .writable ⟨0, 1⟩ .connected, .restart, .resume {}, .resume {},
      .resume {}, .resume {}, .writable ⟨1, 2⟩ .connected, .resume {}, .resume {}] (by decide +kernel)
  obtain ⟨hfatal, hone, -⟩ := connector_owns_descriptors hreach
  exact ⟨s, hclosed, hdelivered, hfatal, hone⟩

end GameNet.Connector
