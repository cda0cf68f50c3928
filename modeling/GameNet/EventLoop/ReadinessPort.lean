import GameNet.Machine
import GameNet.EventLoop.Channels

/- `EpollReadinessPort.cc` with the kernel's interest set.

   The port keeps one registration for each descriptor and mirrors it in the kernel by
   adds, modifications and deletions, each of which the kernel may refuse; a refusal
   ends the process (`none`). A registration is named by a token of 64 bits: an epoch that is
   handed out once, and the descriptor. The kernel answers a wait with tokens and event
   bits, which may belong to registrations that are gone by then.

   Not modelled: the wakeup descriptor's own entry in the kernel set (it is the port's, and no
   Channel has it), the timestamps, and a wait that is interrupted, which returns what a wait
   without events returns. Callers cancel a registration before they close its descriptor. -/
namespace GameNet.EpollReadinessPort

open EventLoop (Events PortResult)
open Machine (Reach Any)

/-! ## Descriptors, tokens and event masks -/

/-- Linux descriptors are non-negative 32-bit ints. -/
abbrev SocketFd := Fin (2 ^ 31)

/-- A Channel object: its address, its descriptor and its loop, none of which changes. -/
structure Target where
  address : Nat
  fd : SocketFd
  ownerLoop : Nat
  deriving DecidableEq, Repr

/-- `ReadinessRegistrationIdentity`; the source `none` is `kInvalidSocket`. -/
structure Identity where
  source : Option SocketFd := none
  generation : Nat := 0
  deriving DecidableEq, Repr

def Identity.valid (i : Identity) : Bool := i.source.isSome && i.generation != 0

/-- The token of the wakeup descriptor. -/
def kWakeupGeneration : Nat := 0

/-- The packing at the end of `allocateGeneration`: the epoch in the high word, the descriptor in the low
    one. -/
def packGeneration (epoch : Nat) (source : SocketFd) : Nat := (epoch <<< 32) % 2 ^ 64 ||| source.val

/-- The descriptor in the low word of a token. With the top bit set it would be negative, and nothing is
    filed under such a descriptor. -/
def sourceOf (generation : Nat) : Option SocketFd :=
  let word := generation % 2 ^ 32
  if h : word < 2 ^ 31 then some ⟨word, h⟩ else none

/-- The event bits of epoll that the port uses. -/
structure EpollEvents where
  epollIn : Bool := false
  epollPri : Bool := false
  epollRdHup : Bool := false
  epollOut : Bool := false
  epollErr : Bool := false
  epollHup : Bool := false
  deriving DecidableEq, Repr

def toNativeEvents (interests : Events) : EpollEvents where
  epollIn := interests.read
  epollPri := interests.read
  epollRdHup := interests.read
  epollOut := interests.write

def fromNativeEvents (e : EpollEvents) : Events where
  read := e.epollIn || e.epollPri
  write := e.epollOut
  error := e.epollErr
  close := e.epollHup || e.epollRdHup

def validInterests (interests : Events) : Bool := !interests.error && !interests.close

/-! ## The kernel's interest set -/

structure Interest where
  data : Nat
  events : EpollEvents
  deriving DecidableEq, Repr

abbrev Kernel := SocketFd → Option Interest

inductive Operation where
  | add
  | mod
  | del
  deriving DecidableEq, Repr

/-- `updateKernel`: an add of a descriptor that is in the set, and a modification or deletion of one that
    is not, are refused. -/
def updateKernel (k : Kernel) (operation : Operation) (source : SocketFd) (generation : Nat)
    (interests : Events) : Option Kernel :=
  match operation, k source with
  | .add, none => some (Function.update k source (some ⟨generation, toNativeEvents interests⟩))
  | .mod, some _ => some (Function.update k source (some ⟨generation, toNativeEvents interests⟩))
  | .del, some _ => some (Function.update k source none)
  | _, _ => none

/-! ## The port -/

structure Registration where
  identity : Identity
  target : Target
  interests : Events
  inKernel : Bool
  deriving DecidableEq, Repr

structure Port where
  ownerLoop : Nat
  registrations : SocketFd → Option Registration := fun _ => none
  nextGeneration : Nat := 1
  kernel : Kernel := fun _ => none

structure Request where
  source : Option SocketFd
  target : Option Target
  interests : Events
  deriving DecidableEq, Repr

/-- What `registerOrUpdate` returns, or the exception of an exhausted token space. -/
inductive Reply where
  | threw
  | returned (result : PortResult) (identity : Identity)
  deriving DecidableEq, Repr

def Port.setRegistration (p : Port) (source : SocketFd) (r : Option Registration) : Port :=
  { p with registrations := Function.update p.registrations source r }

/-- The kernel call of an update whose mask differs from the one there is. -/
def Registration.sync (r : Registration) (k : Kernel) (source : SocketFd) (interests : Events) :
    Option (Kernel × Bool) :=
  if r.inKernel = true ∧ interests.isNone = true then
    (updateKernel k .del source r.identity.generation {}).map fun k => (k, false)
  else if r.inKernel = false ∧ interests.isNone = false then
    (updateKernel k .add source r.identity.generation interests).map fun k => (k, true)
  else if r.inKernel = true then
    (updateKernel k .mod source r.identity.generation interests).map fun k => (k, true)
  else some (k, r.inKernel)

/-- A descriptor without a registration: `allocateGeneration`, the entry in the map, the add. -/
def Port.registerNew (p : Port) (source : SocketFd) (target : Target) (interests : Events) :
    Option (Reply × Port) :=
  if interests.isNone then some (.returned .rejectedInvalid {}, p)
  else if p.nextGeneration = 0 ∨ p.nextGeneration = 2 ^ 32 - 1 then some (.threw, p)
  else
    let identity : Identity := ⟨some source, packGeneration p.nextGeneration source⟩
    (updateKernel p.kernel .add source identity.generation interests).map fun k =>
      (.returned .accepted identity,
        { p.setRegistration source (some ⟨identity, target, interests, true⟩) with
          nextGeneration := p.nextGeneration + 1
          kernel := k })

/-- A descriptor that has a registration. -/
def Port.update (p : Port) (source : SocketFd) (r : Registration) (target : Target)
    (interests : Events) : Option (Reply × Port) :=
  if r.target ≠ target then some (.returned .rejectedConflict r.identity, p)
  else if r.interests = interests then some (.returned .accepted r.identity, p)
  else
    (r.sync p.kernel source interests).map fun (k, inKernel) =>
      (.returned .accepted r.identity,
        { p.setRegistration source (some { r with interests := interests, inKernel := inKernel }) with
          kernel := k })

/-- `EpollReadinessPort::registerOrUpdate`. -/
def Port.registerOrUpdate (p : Port) (q : Request) : Option (Reply × Port) :=
  match q.source, q.target with
  | some source, some target =>
    if target.ownerLoop ≠ p.ownerLoop ∨ validInterests q.interests = false then
      some (.returned .rejectedInvalid {}, p)
    else match p.registrations source with
      | none => p.registerNew source target q.interests
      | some r => p.update source r target q.interests
  | _, _ => some (.returned .rejectedInvalid {}, p)

/-- `EpollReadinessPort::cancel`. -/
def Port.cancel (p : Port) (target : Option Target) : Option (PortResult × Port) :=
  match target with
  | none => some (.rejectedInvalid, p)
  | some target =>
    if target.ownerLoop ≠ p.ownerLoop then some (.rejectedInvalid, p)
    else match p.registrations target.fd with
      | none => some (.rejectedNotRegistered, p)
      | some r =>
        if r.target ≠ target then some (.rejectedConflict, p)
        else
          let kernel :=
            if r.inKernel then updateKernel p.kernel .del target.fd r.identity.generation {}
            else some p.kernel
          kernel.map fun k => (.accepted, { p.setRegistration target.fd none with kernel := k })

/-- `EpollReadinessPort::isCurrent`. -/
def Port.isCurrent (p : Port) (identity : Identity) (target : Option Target) : Bool :=
  match target with
  | none => false
  | some target =>
    identity.valid && match identity.source.bind p.registrations with
      | none => false
      | some r => r.target == target && r.identity == identity

/-! ## A wait -/

/-- One native event. For the wakeup descriptor's, whether `drainWakeup` found something to read. -/
structure Native where
  generation : Nat
  events : EpollEvents
  drained : Bool := false
  deriving DecidableEq, Repr

structure Notice where
  identity : Identity
  target : Target
  events : Events
  deriving DecidableEq, Repr

structure Progress where
  nativeNotices : Nat := 0
  deliveredNotices : Nat := 0
  staleNotices : Nat := 0
  wakeupNotices : Nat := 0
  budgetExhausted : Bool := false
  deriving DecidableEq, Repr

/-- The loop over `notices_`: the first notice of the registration takes the events in. -/
def absorb (identity : Identity) (events : Events) : List Notice → Option (List Notice)
  | [] => none
  | n :: rest =>
    if n.identity = identity then some ({ n with events := n.events.or events } :: rest)
    else (absorb identity events rest).map (n :: ·)

/-- `EpollReadinessPort::appendNativeNotice`. -/
def Port.appendNativeNotice (p : Port) (maxNoticesPerWait : Nat) (batch : List Notice × Progress)
    (e : Native) : List Notice × Progress :=
  let (notices, progress) := batch
  match (sourceOf e.generation).bind p.registrations with
  | none => (notices, { progress with staleNotices := progress.staleNotices + 1 })
  | some r =>
    if r.identity.generation ≠ e.generation ∨ r.inKernel = false then
      (notices, { progress with staleNotices := progress.staleNotices + 1 })
    else
      let events := (fromNativeEvents e.events).deliver r.interests
      if events.isNone then (notices, progress)
      else match absorb r.identity events notices with
        | some notices => (notices, progress)
        | none =>
          if maxNoticesPerWait ≤ notices.length then (notices, { progress with budgetExhausted := true })
          else (notices ++ [⟨r.identity, r.target, events⟩], progress)

/-- One turn of the loop in `wait`. -/
def Port.take (p : Port) (maxNoticesPerWait : Nat) (batch : List Notice × Progress) (e : Native) :
    List Notice × Progress :=
  if e.generation = kWakeupGeneration then
    if e.drained then (batch.1, { batch.2 with wakeupNotices := batch.2.wakeupNotices + 1 }) else batch
  else p.appendNativeNotice maxNoticesPerWait batch e

/-- `EpollReadinessPort::wait`, with what `epoll_wait` wrote into `nativeEvents_`. -/
def Port.wait (p : Port) (maxNoticesPerWait : Nat) (native : List Native) : List Notice × Progress :=
  let batch := native.foldl (p.take maxNoticesPerWait)
    ([], { nativeNotices := native.length
           budgetExhausted := native.length != 0 && native.length == maxNoticesPerWait })
  (batch.1, { batch.2 with deliveredNotices := batch.1.length })

/-! ## Runs -/

/-- A port, the tokens it has handed out and what its last wait returned. -/
structure State where
  port : Port
  tokens : List Nat := []
  notices : List Notice := []

inductive Label where
  | register (q : Request)
  | cancel (target : Option Target)
  | wait (native : List Native)
  deriving DecidableEq, Repr

/-- The options the constructor accepts. -/
structure Options where
  maxNoticesPerWait : Nat := 64
  positive : 0 < maxNoticesPerWait := by decide
  bounded : maxNoticesPerWait ≤ 4096 := by decide

/-- A call of the owner thread. `none` is the end of the process, and a wait cannot return more events than
    `nativeEvents_` has room for. -/
def step (o : Options) (s : State) : Label → Option State
  | .register q =>
    (s.port.registerOrUpdate q).map fun (reply, p) =>
      { s with
        port := p
        tokens := match reply with
          | .returned .accepted identity =>
            if s.port.nextGeneration < p.nextGeneration then identity.generation :: s.tokens else s.tokens
          | _ => s.tokens }
  | .cancel target => (s.port.cancel target).map fun (_, p) => { s with port := p }
  | .wait native =>
    if native.length ≤ o.maxNoticesPerWait then
      some { s with notices := (s.port.wait o.maxNoticesPerWait native).1 }
    else none

def Init (s : State) : Prop := ∃ ownerLoop, s = { port := { ownerLoop := ownerLoop } }

/-! ## Tokens -/

section
variable {epoch epoch' : Nat} {source source' : SocketFd}

theorem packGeneration_eq (h : epoch < 2 ^ 32) :
    packGeneration epoch source = epoch * 2 ^ 32 + source.val := by
  have hlow : source.val < 2 ^ 32 := Nat.lt_trans source.isLt (by decide)
  have hword : epoch <<< 32 < 2 ^ 64 := by
    rw [Nat.shiftLeft_eq]
    omega
  rw [packGeneration, Nat.mod_eq_of_lt hword, ← Nat.shiftLeft_add_eq_or_of_lt hlow, Nat.shiftLeft_eq]

/-- A token gives back its epoch and its descriptor. -/
theorem packGeneration_inj (h : epoch < 2 ^ 32) (h' : epoch' < 2 ^ 32)
    (heq : packGeneration epoch source = packGeneration epoch' source') :
    epoch = epoch' ∧ source = source' := by
  rw [packGeneration_eq h, packGeneration_eq h'] at heq
  have hs := source.isLt
  have hs' := source'.isLt
  exact ⟨by omega, Fin.ext (by omega)⟩

theorem packGeneration_ne_wakeup (h : epoch < 2 ^ 32) (hpos : 0 < epoch) :
    packGeneration epoch source ≠ kWakeupGeneration := by
  rw [packGeneration_eq h, kWakeupGeneration]
  omega

theorem sourceOf_packGeneration (h : epoch < 2 ^ 32) :
    sourceOf (packGeneration epoch source) = some source := by
  have hs := source.isLt
  have hmod : (epoch * 2 ^ 32 + source.val) % 2 ^ 32 = source.val := by omega
  simp only [sourceOf, packGeneration_eq h, hmod]
  rw [dif_pos hs]

end

/-! ## The port and the kernel -/

/-- What the kernel should hold for a registration. -/
def Registration.wanted (r : Registration) : Option Interest :=
  if r.interests.isNone then none else some ⟨r.identity.generation, toNativeEvents r.interests⟩

/-- The entry of the kernel's set for a registration: its token; input, urgent data and the peer's
    shutdown where it has read interest, output where it has write interest. Errors and hangups are
    reported without being asked for. -/
structure Interest.Serves (i : Interest) (r : Registration) : Prop where
  token : i.data = r.identity.generation
  reading : i.events.epollIn = r.interests.read ∧ i.events.epollPri = r.interests.read ∧
    i.events.epollRdHup = r.interests.read
  writing : i.events.epollOut = r.interests.write
  unasked : i.events.epollErr = false ∧ i.events.epollHup = false

/-- A registration filed under `source` before the epoch `next` was handed out. -/
structure Registration.Filed (r : Registration) (next : Nat) (fd : SocketFd) : Prop where
  source : r.identity.source = some fd
  token : ∃ epoch, 0 < epoch ∧ epoch < next ∧ r.identity.generation = packGeneration epoch fd
  kernel : r.inKernel = !r.interests.isNone
  valid : validInterests r.interests = true

structure Port.Mirrored (p : Port) : Prop where
  next : 0 < p.nextGeneration ∧ p.nextGeneration < 2 ^ 32
  filed : ∀ source r, p.registrations source = some r → r.Filed p.nextGeneration source
  kernel : ∀ source, p.kernel source = (p.registrations source).bind Registration.wanted

/-- What `registerOrUpdate` can do. -/
inductive Registers (p : Port) : Reply → Port → Prop
  | same (reply : Reply) : Registers p reply p
  | new (source : SocketFd) (target : Target) (interests : Events)
      (free : p.registrations source = none) (nonempty : interests.isNone = false)
      (valid : validInterests interests = true) (room : p.nextGeneration + 1 < 2 ^ 32) :
      Registers p (.returned .accepted ⟨some source, packGeneration p.nextGeneration source⟩)
        { p.setRegistration source
            (some ⟨⟨some source, packGeneration p.nextGeneration source⟩, target, interests, true⟩) with
          nextGeneration := p.nextGeneration + 1
          kernel := Function.update p.kernel source
            (some ⟨packGeneration p.nextGeneration source, toNativeEvents interests⟩) }
  | mask (source : SocketFd) (r : Registration) (interests : Events)
      (own : p.registrations source = some r) (valid : validInterests interests = true) :
      Registers p (.returned .accepted r.identity)
        { p.setRegistration source
            (some { r with interests := interests, inKernel := !interests.isNone }) with
          kernel := Function.update p.kernel source
            ({ r with interests := interests, inKernel := !interests.isNone } : Registration).wanted }

section
variable {p p' : Port} {source : SocketFd} {r : Registration} {interests : Events} {target : Target}

theorem Port.Mirrored.kernel_none (h : p.Mirrored) (hr : p.registrations source = none) :
    p.kernel source = none := by
  rw [h.kernel, hr]
  rfl

theorem Port.Mirrored.kernel_some (h : p.Mirrored) (hr : p.registrations source = some r) :
    p.kernel source = r.wanted := by
  rw [h.kernel, hr]
  rfl

/-- A descriptor is in the kernel's set exactly when its registration asks for something. -/
theorem Port.Mirrored.kernel_isSome (h : p.Mirrored) (source : SocketFd) :
    (p.kernel source).isSome = true ↔ ∃ r, p.registrations source = some r ∧ r.interests ≠ {} := by
  rw [h.kernel]
  cases hr : p.registrations source with
  | none => simp
  | some r =>
    rw [Option.bind_some, Registration.wanted]
    split
    · rename_i hnone
      simp [EventLoop.isNone_iff.mp hnone]
    · rename_i hsome
      simpa [EventLoop.isNone_iff] using hsome

theorem Port.Mirrored.serves {i : Interest} (h : p.Mirrored) (hi : p.kernel source = some i) :
    ∃ r, p.registrations source = some r ∧ i.Serves r := by
  rw [h.kernel] at hi
  obtain ⟨r, hr, hw⟩ := Option.bind_eq_some_iff.mp hi
  rw [Registration.wanted] at hw
  split at hw <;> cases hw
  exact ⟨r, hr, rfl, ⟨rfl, rfl, rfl⟩, rfl, rfl, rfl⟩

theorem Port.Mirrored.next_lt (h : p.Mirrored) (hne : p.nextGeneration ≠ 2 ^ 32 - 1) :
    p.nextGeneration + 1 < 2 ^ 32 := by
  have := h.next.2
  omega

/-- The kernel follows every change of a mask. -/
theorem sync_spec (h : p.Mirrored) (hr : p.registrations source = some r) (hne : r.interests ≠ interests) :
    r.sync p.kernel source interests = some (Function.update p.kernel source
      ({ r with interests := interests, inKernel := !interests.isNone } : Registration).wanted,
      !interests.isNone) := by
  have hin := (h.filed source r hr).kernel
  have hk := h.kernel_some hr
  unfold Registration.sync
  cases hold : r.interests.isNone with
  | true =>
    -- not in the kernel, and the new mask is not empty either
    have hnew : interests.isNone = false := by
      rw [Bool.eq_false_iff]
      intro hnew
      exact hne ((EventLoop.isNone_iff.mp hold).trans (EventLoop.isNone_iff.mp hnew).symm)
    rw [hold] at hin
    rw [Registration.wanted, hold] at hk
    simp [hin, hnew, updateKernel, hk, Registration.wanted]
  | false =>
    rw [hold] at hin
    rw [Registration.wanted, hold] at hk
    cases hnew : interests.isNone with
    | true => simp [hin, updateKernel, hk, Registration.wanted, hnew]
    | false => simp [hin, updateKernel, hk, Registration.wanted, hnew]

/-- **The kernel refuses nothing**: a registration returns or throws, and does one of three things. -/
theorem registerOrUpdate_spec (h : p.Mirrored) (q : Request) :
    ∃ reply p', p.registerOrUpdate q = some (reply, p') ∧ Registers p reply p' := by
  unfold Port.registerOrUpdate
  split
  case h_2 => exact ⟨_, _, rfl, .same _⟩
  case h_1 source target hsource htarget =>
    split
    · exact ⟨_, _, rfl, .same _⟩
    rename_i hvalid
    rw [not_or, Bool.not_eq_false] at hvalid
    split
    · rename_i hfree
      unfold Port.registerNew
      split
      · exact ⟨_, _, rfl, .same _⟩
      rename_i hsome
      split
      · exact ⟨_, _, rfl, .same _⟩
      rename_i htokens
      rw [not_or] at htokens
      have hadd : updateKernel p.kernel .add source (packGeneration p.nextGeneration source) q.interests =
          some (Function.update p.kernel source
            (some ⟨packGeneration p.nextGeneration source, toNativeEvents q.interests⟩)) := by
        simp only [updateKernel, h.kernel_none hfree]
      dsimp only
      rw [hadd]
      exact ⟨_, _, rfl, .new source target q.interests hfree (by simpa using hsome) hvalid.2
        (h.next_lt htokens.2)⟩
    · rename_i r hr
      unfold Port.update
      split
      · exact ⟨_, _, rfl, .same _⟩
      split
      · exact ⟨_, _, rfl, .same _⟩
      rename_i hne
      rw [sync_spec h hr hne]
      exact ⟨_, _, rfl, .mask source r q.interests hr hvalid.2⟩

/-- What `cancel` can do. -/
theorem cancel_spec (h : p.Mirrored) (target : Option Target) :
    ∃ result p', p.cancel target = some (result, p') ∧ (p' = p ∨ ∃ source,
      p' = { p.setRegistration source none with kernel := Function.update p.kernel source none }) := by
  unfold Port.cancel
  split
  · exact ⟨_, _, rfl, .inl rfl⟩
  rename_i target
  split
  · exact ⟨_, _, rfl, .inl rfl⟩
  split
  · exact ⟨_, _, rfl, .inl rfl⟩
  rename_i r hr
  split
  · exact ⟨_, _, rfl, .inl rfl⟩
  have hin := (h.filed _ r hr).kernel
  have hk := h.kernel_some hr
  cases hold : r.interests.isNone with
  | true =>
    -- nothing to delete: the kernel has no entry
    rw [hold] at hin
    rw [Registration.wanted, hold] at hk
    rw [hin]
    refine ⟨_, _, rfl, .inr ⟨target.fd, ?_⟩⟩
    rw [show (none : Option Interest) = p.kernel target.fd from hk.symm, Function.update_eq_self]
  | false =>
    rw [hold] at hin
    rw [Registration.wanted, hold] at hk
    rw [hin]
    refine ⟨.accepted, { p.setRegistration target.fd none with
      kernel := Function.update p.kernel target.fd none }, ?_, .inr ⟨target.fd, rfl⟩⟩
    simp [updateKernel, hk]

/-- A change of one registration that the kernel follows. -/
theorem Port.Mirrored.set {ro : Option Registration} (h : p.Mirrored)
    (hregs : p'.registrations = Function.update p.registrations source ro)
    (hkernel : p'.kernel = Function.update p.kernel source (ro.bind Registration.wanted))
    (hnext : p.nextGeneration ≤ p'.nextGeneration) (hbound : p'.nextGeneration < 2 ^ 32)
    (hfiled : ∀ r, ro = some r → r.Filed p'.nextGeneration source) : p'.Mirrored where
  next := ⟨Nat.lt_of_lt_of_le h.next.1 hnext, hbound⟩
  filed := fun fd r hr => by
    rw [hregs] at hr
    by_cases hfd : fd = source
    · subst hfd
      rw [Function.update_self] at hr
      exact hfiled r hr
    · rw [Function.update_of_ne hfd] at hr
      obtain ⟨hsource, ⟨epoch, hpos, hlt, htoken⟩, hin, hvalid⟩ := h.filed fd r hr
      exact ⟨hsource, ⟨epoch, hpos, Nat.lt_of_lt_of_le hlt hnext, htoken⟩, hin, hvalid⟩
  kernel := fun fd => by
    rw [hregs, hkernel]
    by_cases hfd : fd = source
    · subst hfd
      rw [Function.update_self, Function.update_self]
    · rw [Function.update_of_ne hfd, Function.update_of_ne hfd]
      exact h.kernel fd

theorem Port.Mirrored.registers {reply : Reply} (h : p.Mirrored) (hr : Registers p reply p') :
    p'.Mirrored := by
  cases hr with
  | same => exact h
  | new source target interests free nonempty valid room =>
    refine h.set rfl ?_ (Nat.le_succ _) room ?_
    · rw [Option.bind_some, Registration.wanted, nonempty]
      rfl
    · rintro r hr
      cases hr
      exact ⟨rfl, ⟨p.nextGeneration, h.next.1, Nat.lt_succ_self _, rfl⟩, by rw [nonempty]; rfl, valid⟩
  | mask source r interests own valid =>
    refine h.set rfl rfl (Nat.le_refl _) h.next.2 ?_
    rintro q hq
    cases hq
    obtain ⟨hsource, htoken, -, -⟩ := h.filed source r own
    exact ⟨hsource, htoken, rfl, valid⟩

theorem Port.Mirrored.cancelled (h : p.Mirrored) (source : SocketFd) :
    ({ p.setRegistration source none with kernel := Function.update p.kernel source none } : Port).Mirrored :=
  h.set rfl rfl (Nat.le_refl _) h.next.2 (fun r hr => by cases hr)

/-- One registration has one token. -/
theorem Port.Mirrored.unique {fd fd' : SocketFd} {r' : Registration} (h : p.Mirrored)
    (hr : p.registrations fd = some r) (hr' : p.registrations fd' = some r')
    (heq : r.identity.generation = r'.identity.generation) : fd = fd' ∧ r = r' := by
  obtain ⟨epoch, -, hlt, htoken⟩ := (h.filed fd r hr).token
  obtain ⟨epoch', -, hlt', htoken'⟩ := (h.filed fd' r' hr').token
  rw [htoken, htoken'] at heq
  obtain ⟨-, rfl⟩ := packGeneration_inj (Nat.lt_trans hlt h.next.2) (Nat.lt_trans hlt' h.next.2) heq
  rw [hr, Option.some.injEq] at hr'
  exact ⟨rfl, hr'⟩

/-- The token of a registration leads back to its descriptor, and is not the wakeup's. -/
theorem Port.Mirrored.token_source {fd : SocketFd} (h : p.Mirrored) (hr : p.registrations fd = some r) :
    sourceOf r.identity.generation = some fd ∧ r.identity.generation ≠ kWakeupGeneration := by
  obtain ⟨epoch, hpos, hlt, htoken⟩ := (h.filed fd r hr).token
  have hbound := Nat.lt_trans hlt h.next.2
  rw [htoken]
  exact ⟨sourceOf_packGeneration hbound, packGeneration_ne_wakeup hbound hpos⟩

end

/-! ## Notices -/

/-- What a batch of native events holds for a registration: the union of its events, without those it
    has no interest in. -/
def due (r : Registration) (native : List Native) : Events :=
  native.foldl (fun events e =>
    if e.generation = r.identity.generation then
      events.or ((fromNativeEvents e.events).deliver r.interests)
    else events) {}

/-- A native event that carries the registration's token. -/
def Native.own (e : Native) (r : Registration) : Prop := e.generation = r.identity.generation

/-- What is to be delivered for a registration: each event that one of its native events has, reads and
    writes only where the registration has the interest. -/
structure UnionOf (events : Events) (r : Registration) (native : List Native) : Prop where
  read : events.read = true ↔ r.interests.read = true ∧
    ∃ e ∈ native, e.own r ∧ (e.events.epollIn = true ∨ e.events.epollPri = true)
  write : events.write = true ↔ r.interests.write = true ∧
    ∃ e ∈ native, e.own r ∧ e.events.epollOut = true
  error : events.error = true ↔ ∃ e ∈ native, e.own r ∧ e.events.epollErr = true
  close : events.close = true ↔
    ∃ e ∈ native, e.own r ∧ (e.events.epollHup = true ∨ e.events.epollRdHup = true)

/-- The notices for a batch: one for each registration in the kernel that the batch holds something
    for. -/
structure Delivered (p : Port) (native : List Native) (notices : List Notice) : Prop where
  mem : ∀ n ∈ notices, ∃ fd r, p.registrations fd = some r ∧ r.inKernel = true ∧
    n = ⟨r.identity, r.target, due r native⟩
  once : (notices.map Notice.identity).Nodup
  all : ∀ fd r, p.registrations fd = some r → r.inKernel = true → (due r native).isNone = false →
    r.identity ∈ notices.map Notice.identity
  length : notices.length ≤ native.length

section
variable {p : Port} {native : List Native} {notices notices' : List Notice} {e : Native} {r : Registration}

theorem due_snoc (r : Registration) (native : List Native) (e : Native) :
    due r (native ++ [e]) = if e.generation = r.identity.generation then
      (due r native).or ((fromNativeEvents e.events).deliver r.interests) else due r native := by
  simp only [due, List.foldl_append, List.foldl_cons, List.foldl_nil]

theorem or_isNone {a b : Events} (h : b.isNone = true) : a.or b = a := by
  rw [EventLoop.isNone_iff.mp h]
  simp [Events.or]

theorem absorb_eq_none {identity : Identity} {events : Events} :
    absorb identity events notices = none ↔ identity ∉ notices.map Notice.identity := by
  induction notices with
  | nil => simp [absorb]
  | cons n rest ih =>
    rw [absorb]
    split
    · rename_i heq
      simp [heq]
    · rename_i hne
      rw [Option.map_eq_none_iff, ih]
      simp [Ne.symm hne]

/-- With one notice for each registration, taking events in changes that registration's notice. -/
theorem absorb_eq_some {identity : Identity} {events : Events} (h : (notices.map Notice.identity).Nodup)
    (ha : absorb identity events notices = some notices') :
    identity ∈ notices.map Notice.identity ∧ notices' = notices.map fun n =>
      if n.identity = identity then { n with events := n.events.or events } else n := by
  induction notices generalizing notices' with
  | nil => cases ha
  | cons n rest ih =>
    rw [List.map_cons, List.nodup_cons] at h
    rw [absorb] at ha
    split at ha
    · rename_i heq
      cases ha
      refine ⟨by simp [heq], ?_⟩
      have hrest : (rest.map fun n => if n.identity = identity then
          { n with events := n.events.or events } else n) = rest.map id := by
        apply List.map_congr_left
        intro m hm
        rw [if_neg]
        · rfl
        · intro hm'
          exact h.1 (heq ▸ hm' ▸ List.mem_map_of_mem hm)
      rw [List.map_cons, if_pos heq, hrest, List.map_id]
    · rename_i hne
      obtain ⟨rest', hrest, rfl⟩ := Option.map_eq_some_iff.mp ha
      obtain ⟨hmem, heq⟩ := ih h.2 hrest
      exact ⟨.tail _ hmem, by rw [List.map_cons, if_neg hne, heq]⟩

theorem delivered_nil : Delivered p [] [] where
  mem := by simp
  once := List.nodup_nil
  all := fun _ _ _ _ h => by cases h
  length := Nat.le_refl _

/-- An event that belongs to no registration in the kernel. -/
theorem Delivered.skip (h : Delivered p native notices)
    (hnone : ∀ fd r, p.registrations fd = some r → r.inKernel = true → due r (native ++ [e]) = due r native) :
    Delivered p (native ++ [e]) notices where
  mem := fun n hn => by
    obtain ⟨fd, r, hr, hin, rfl⟩ := h.mem n hn
    exact ⟨fd, r, hr, hin, by rw [hnone fd r hr hin]⟩
  once := h.once
  all := fun fd r hr hin hdue => h.all fd r hr hin (by rwa [hnone fd r hr hin] at hdue)
  length := Nat.le_trans h.length (by simp)

/-- An event of the registration `r`, taken into its notice. -/
theorem Delivered.absorb {fd : SocketFd} (hp : p.Mirrored) (h : Delivered p native notices)
    (hr : p.registrations fd = some r) (hgen : e.generation = r.identity.generation)
    (ha : EpollReadinessPort.absorb r.identity ((fromNativeEvents e.events).deliver r.interests) notices =
      some notices') : Delivered p (native ++ [e]) notices' := by
  obtain ⟨hmem, rfl⟩ := absorb_eq_some h.once ha
  have hids : (notices.map fun n => if n.identity = r.identity then
      { n with events := n.events.or ((fromNativeEvents e.events).deliver r.interests) } else n).map
        Notice.identity = notices.map Notice.identity := by
    rw [List.map_map]
    apply List.map_congr_left
    intro n _
    dsimp only [Function.comp_apply]
    split <;> rfl
  constructor
  case mem =>
    intro n' hn'
    obtain ⟨n, hn, rfl⟩ := List.mem_map.mp hn'
    obtain ⟨fd₀, r₀, hr₀, hin₀, rfl⟩ := h.mem n hn
    refine ⟨fd₀, r₀, hr₀, hin₀, ?_⟩
    dsimp only
    rw [due_snoc]
    by_cases hsame : r₀.identity = r.identity
    · obtain ⟨-, rfl⟩ := hp.unique hr₀ hr (by rw [hsame])
      rw [if_pos rfl, if_pos hgen]
    · have hother : e.generation ≠ r₀.identity.generation := by
        intro heq
        obtain ⟨-, rfl⟩ := hp.unique hr₀ hr (heq.symm.trans hgen)
        exact hsame rfl
      rw [if_neg hsame, if_neg hother]
  case once => rw [hids]; exact h.once
  case all =>
    intro fd₀ r₀ hr₀ hin₀ hdue
    rw [hids]
    by_cases hsame : e.generation = r₀.identity.generation
    · obtain ⟨-, rfl⟩ := hp.unique hr₀ hr (hsame.symm.trans hgen)
      exact hmem
    · rw [due_snoc, if_neg hsame] at hdue
      exact h.all fd₀ r₀ hr₀ hin₀ hdue
  case length =>
    rw [List.length_map, List.length_append]
    exact Nat.le_trans h.length (Nat.le_add_right _ _)

/-- The first event that the registration `r` has in the batch. -/
theorem Delivered.push {fd : SocketFd} (hp : p.Mirrored) (h : Delivered p native notices)
    (hr : p.registrations fd = some r) (hin : r.inKernel = true)
    (hgen : e.generation = r.identity.generation)
    (hnew : r.identity ∉ notices.map Notice.identity) :
    Delivered p (native ++ [e])
      (notices ++ [⟨r.identity, r.target, (fromNativeEvents e.events).deliver r.interests⟩]) := by
  have hbefore : (due r native).isNone = true := by
    rw [← Bool.not_eq_false]
    exact fun hdue => hnew (h.all fd r hr hin hdue)
  have hdue : due r (native ++ [e]) = (fromNativeEvents e.events).deliver r.interests := by
    rw [due_snoc, if_pos hgen, EventLoop.isNone_iff.mp hbefore]
    simp [Events.or]
  have hother : ∀ fd₀ r₀, p.registrations fd₀ = some r₀ → r₀.identity ≠ r.identity →
      due r₀ (native ++ [e]) = due r₀ native := by
    intro fd₀ r₀ hr₀ hne
    rw [due_snoc, if_neg]
    intro heq
    obtain ⟨-, rfl⟩ := hp.unique hr₀ hr (heq.symm.trans hgen)
    exact hne rfl
  constructor
  case mem =>
    intro n hn
    rcases List.mem_append.mp hn with hn | hn
    · obtain ⟨fd₀, r₀, hr₀, hin₀, rfl⟩ := h.mem n hn
      have hne : r₀.identity ≠ r.identity := by
        intro heq
        exact hnew (heq ▸ List.mem_map_of_mem (f := Notice.identity) hn)
      exact ⟨fd₀, r₀, hr₀, hin₀, by rw [hother fd₀ r₀ hr₀ hne]⟩
    · rw [List.mem_singleton] at hn
      subst hn
      exact ⟨fd, r, hr, hin, by rw [hdue]⟩
  case once =>
    rw [List.map_append, List.map_singleton]
    exact List.Nodup.append h.once (List.nodup_singleton _)
      (List.disjoint_singleton.mpr hnew)
  case all =>
    intro fd₀ r₀ hr₀ hin₀ hd
    rw [List.map_append, List.mem_append]
    by_cases hsame : r₀.identity = r.identity
    · exact .inr (by simp [hsame])
    · rw [hother fd₀ r₀ hr₀ hsame] at hd
      exact .inl (h.all fd₀ r₀ hr₀ hin₀ hd)
  case length =>
    rw [List.length_append, List.length_append]
    exact Nat.add_le_add_right h.length 1

/-- One turn of the loop in `wait`. -/
theorem Delivered.take {max : Nat} {progress : Progress} (hp : p.Mirrored)
    (h : Delivered p native notices) (hmax : native.length < max) :
    Delivered p (native ++ [e]) (p.take max (notices, progress) e).1 := by
  have hskip : (∀ fd r, p.registrations fd = some r → r.inKernel = true →
      e.generation ≠ r.identity.generation) → Delivered p (native ++ [e]) notices := fun hne =>
    h.skip fun fd r hr hin => by rw [due_snoc, if_neg (hne fd r hr hin)]
  unfold Port.take
  split
  · -- the wakeup token
    rename_i hwake
    have hstay : Delivered p (native ++ [e]) notices :=
      hskip fun fd r hr _ heq => (hp.token_source hr).2 (heq ▸ hwake)
    split <;> exact hstay
  · unfold Port.appendNativeNotice
    dsimp only
    split
    · -- no registration is filed under the token's descriptor
      rename_i hnone
      refine hskip fun fd r hr _ heq => ?_
      rw [heq, (hp.token_source hr).1, Option.bind_some, hr] at hnone
      cases hnone
    · rename_i r hfound
      obtain ⟨fd, hsource, hr⟩ := Option.bind_eq_some_iff.mp hfound
      split
      · -- the descriptor belongs to a later registration, or is out of the kernel
        rename_i hstale
        refine hskip fun fd₀ r₀ hr₀ hin₀ heq => ?_
        rw [heq, (hp.token_source hr₀).1, Option.some.injEq] at hsource
        subst hsource
        rw [hr₀, Option.some.injEq] at hr
        subst hr
        rcases hstale with hgen | hout
        · exact hgen heq.symm
        · rw [hin₀] at hout
          cases hout
      · rename_i hcurrent
        rw [not_or, not_not, Bool.not_eq_false] at hcurrent
        obtain ⟨hgen, hin⟩ := hcurrent
        split
        · -- events without interest
          rename_i hempty
          refine h.skip fun fd₀ r₀ hr₀ hin₀ => ?_
          rw [due_snoc]
          split
          · rename_i heq
            obtain ⟨-, rfl⟩ := hp.unique hr₀ hr (heq.symm.trans hgen.symm)
            exact or_isNone hempty
          · rfl
        · split
          · rename_i notices' ha
            exact h.absorb hp hr hgen.symm ha
          · rename_i ha
            rw [if_neg (Nat.not_le_of_lt (Nat.lt_of_le_of_lt h.length hmax))]
            exact h.push hp hr hin hgen.symm (absorb_eq_none.mp ha)

theorem Delivered.foldl {max : Nat} (hp : p.Mirrored) (rest : List Native) :
    ∀ (native : List Native) (batch : List Notice × Progress), Delivered p native batch.1 →
      native.length + rest.length ≤ max →
      Delivered p (native ++ rest) (rest.foldl (p.take max) batch).1 := by
  induction rest with
  | nil =>
    intro native batch h _
    rw [List.append_nil]
    exact h
  | cons e rest ih =>
    intro native batch h hmax
    rw [List.length_cons] at hmax
    rw [List.append_cons, List.foldl_cons]
    refine ih _ _ (h.take hp (by omega)) ?_
    rw [List.length_append, List.length_singleton]
    omega

/-- The notices of a wait. -/
theorem wait_delivered {max : Nat} (hp : p.Mirrored) (native : List Native) (hmax : native.length ≤ max) :
    Delivered p native (p.wait max native).1 := by
  have h := Delivered.foldl hp native []
    ([], { nativeNotices := native.length
           budgetExhausted := native.length != 0 && native.length == max })
    delivered_nil (by simpa using hmax)
  exact h

/-- One event of a batch further. -/
theorem exists_own_snoc {P : Native → Prop} :
    (∃ e' ∈ native ++ [e], e'.own r ∧ P e') ↔
      (∃ e' ∈ native, e'.own r ∧ P e') ∨ e.own r ∧ P e := by
  simp only [List.mem_append, List.mem_singleton]
  constructor
  · rintro ⟨e', he | rfl, h⟩
    · exact .inl ⟨e', he, h⟩
    · exact .inr h
  · rintro (⟨e', he, h⟩ | h)
    · exact ⟨e', .inl he, h⟩
    · exact ⟨e, .inr rfl, h⟩

theorem due_unionOf (r : Registration) (native : List Native) : UnionOf (due r native) r native := by
  induction native using List.reverseRecOn with
  | nil => constructor <;> simp [due]
  | append_singleton native e ih =>
    obtain ⟨hread, hwrite, herror, hclose⟩ := ih
    rw [due_snoc]
    by_cases hown : e.own r
    · rw [if_pos (show e.generation = r.identity.generation from hown)]
      constructor <;> rw [exists_own_snoc]
      · simp only [Events.or, Events.deliver, fromNativeEvents, Bool.or_eq_true, Bool.and_eq_true, hread, hown,
          true_and]
        rw [and_or_left]
        exact or_congr_right and_comm
      · simp only [Events.or, Events.deliver, fromNativeEvents, Bool.or_eq_true, Bool.and_eq_true, hwrite,
          hown, true_and]
        rw [and_or_left]
        exact or_congr_right and_comm
      · simp only [Events.or, Events.deliver, fromNativeEvents, Bool.or_eq_true, herror, hown, true_and]
      · simp only [Events.or, Events.deliver, fromNativeEvents, Bool.or_eq_true, hclose, hown, true_and]
    · rw [if_neg (show ¬ e.generation = r.identity.generation from hown)]
      constructor <;> rw [exists_own_snoc] <;> simpa only [hown, false_and, or_false]

theorem UnionOf.unique {a b : Events} (ha : UnionOf a r native) (hb : UnionOf b r native) : a = b := by
  obtain ⟨read, write, error, close⟩ := a
  obtain ⟨read', write', error', close'⟩ := b
  rw [Events.mk.injEq]
  exact ⟨Bool.eq_iff_iff.mpr (ha.read.trans hb.read.symm), Bool.eq_iff_iff.mpr (ha.write.trans hb.write.symm),
    Bool.eq_iff_iff.mpr (ha.error.trans hb.error.symm), Bool.eq_iff_iff.mpr (ha.close.trans hb.close.symm)⟩

/-- A registration is in the kernel's set exactly when it asks for something. -/
theorem Port.Mirrored.inKernel_iff {fd : SocketFd} (hp : p.Mirrored) (hr : p.registrations fd = some r) :
    r.inKernel = true ↔ r.interests ≠ {} := by
  rw [(hp.filed fd r hr).kernel, Bool.not_eq_true', ← Bool.not_eq_true, EventLoop.isNone_iff]

theorem isCurrent_of_mem {fd : SocketFd} (hp : p.Mirrored) (hr : p.registrations fd = some r) :
    p.isCurrent r.identity (some r.target) = true := by
  have hsource := (hp.filed fd r hr).source
  have htoken : r.identity.generation ≠ 0 := (hp.token_source hr).2
  simp [Port.isCurrent, Identity.valid, hsource, hr, htoken]

end

/-! ## The tokens of a run -/

structure Issued (s : State) : Prop where
  mirrored : s.port.Mirrored
  epochs : ∀ t ∈ s.tokens, ∃ epoch fd, 0 < epoch ∧ epoch < s.port.nextGeneration ∧
    t = packGeneration epoch fd
  once : s.tokens.Nodup
  held : ∀ fd r, s.port.registrations fd = some r → r.identity.generation ∈ s.tokens

section
variable {o : Options} {s s' : State} {l : Label}

theorem issued_init (h : Init s) : Issued s := by
  obtain ⟨ownerLoop, rfl⟩ := h
  have hnext : (1 : Nat) < 2 ^ 32 := by decide
  exact ⟨⟨⟨Nat.zero_lt_one, hnext⟩, fun _ _ hr => (by cases hr), fun _ => rfl⟩, fun _ ht => (by cases ht),
    List.nodup_nil, fun _ _ hr => (by cases hr)⟩

/-- A call that hands out no token and adds no registration. -/
theorem Issued.keep (h : Issued s) (hp : s'.port.Mirrored) (htokens : s'.tokens = s.tokens)
    (hnext : s.port.nextGeneration ≤ s'.port.nextGeneration)
    (hregs : ∀ fd r, s'.port.registrations fd = some r →
      ∃ fd₀ r₀, s.port.registrations fd₀ = some r₀ ∧ r.identity = r₀.identity) : Issued s' where
  mirrored := hp
  epochs := fun t ht => by
    rw [htokens] at ht
    obtain ⟨epoch, fd, hpos, hlt, heq⟩ := h.epochs t ht
    exact ⟨epoch, fd, hpos, Nat.lt_of_lt_of_le hlt hnext, heq⟩
  once := by rw [htokens]; exact h.once
  held := fun fd r hr => by
    obtain ⟨fd₀, r₀, hr₀, heq⟩ := hregs fd r hr
    rw [htokens, heq]
    exact h.held fd₀ r₀ hr₀

theorem Issued.step (h : Issued s) (hs : EpollReadinessPort.step o s l = some s') : Issued s' := by
  cases l with
  | register q =>
    obtain ⟨reply, p', hq, hreg⟩ := registerOrUpdate_spec h.mirrored q
    have hp := h.mirrored.registers hreg
    simp only [EpollReadinessPort.step, hq, Option.map_some, Option.some.injEq] at hs
    subst hs
    cases hreg with
    | same =>
      refine h.keep hp ?_ (Nat.le_refl _) (fun fd r hr => ⟨fd, r, hr, rfl⟩)
      cases reply with
      | threw => rfl
      | returned result identity => cases result <;> simp
    | new source target interests free nonempty valid room =>
      -- the new token carries an epoch that no earlier token has
      have hfresh : packGeneration s.port.nextGeneration source ∉ s.tokens := by
        intro hmem
        obtain ⟨epoch, fd, -, hlt, heq⟩ := h.epochs _ hmem
        have hn := h.mirrored.next.2
        have := (packGeneration_inj hn (Nat.lt_trans hlt hn) heq).1
        omega
      simp only [Nat.lt_succ_self, if_true]
      refine ⟨hp, ?_, List.nodup_cons.mpr ⟨hfresh, h.once⟩, ?_⟩
      · intro t ht
        rcases List.mem_cons.mp ht with rfl | ht
        · exact ⟨s.port.nextGeneration, source, h.mirrored.next.1, Nat.lt_succ_self _, rfl⟩
        · obtain ⟨epoch, fd, hpos, hlt, heq⟩ := h.epochs t ht
          exact ⟨epoch, fd, hpos, Nat.lt_succ_of_lt hlt, heq⟩
      · intro fd r hr
        by_cases hfd : fd = source
        · subst hfd
          simp only [Port.setRegistration, Function.update_self] at hr
          cases hr
          exact .head _
        · simp only [Port.setRegistration, Function.update_of_ne hfd] at hr
          exact .tail _ (h.held fd r hr)
    | mask source r interests own valid =>
      refine h.keep hp (by simp [Port.setRegistration]) (Nat.le_refl _) ?_
      intro fd q hq
      by_cases hfd : fd = source
      · subst hfd
        simp only [Port.setRegistration, Function.update_self] at hq
        cases hq
        exact ⟨fd, r, own, rfl⟩
      · simp only [Port.setRegistration, Function.update_of_ne hfd] at hq
        exact ⟨fd, q, hq, rfl⟩
  | cancel target =>
    obtain ⟨result, p', hcancel, hp'⟩ := cancel_spec h.mirrored target
    simp only [EpollReadinessPort.step, hcancel, Option.map_some, Option.some.injEq] at hs
    subst hs
    rcases hp' with rfl | ⟨source, rfl⟩
    · exact h
    · refine h.keep (h.mirrored.cancelled source) rfl (Nat.le_refl _) ?_
      intro fd r hr
      by_cases hfd : fd = source
      · subst hfd
        simp only [Port.setRegistration, Function.update_self] at hr
        cases hr
      · simp only [Port.setRegistration, Function.update_of_ne hfd] at hr
        exact ⟨fd, r, hr, rfl⟩
  | wait native =>
    simp only [EpollReadinessPort.step] at hs
    split at hs <;> cases hs
    exact ⟨h.mirrored, h.epochs, h.once, h.held⟩

theorem reach_issued (h : Reach Init (step o) Any s) : Issued s :=
  Reach.invariant (P := Issued) (fun _ hi => issued_init hi) (fun _ _ _ hi _ hs => hi.step hs) h

/-- **No stale notice.** After any calls, a descriptor is in the kernel's set exactly when its registration
    asks for something, with that registration's token and mask, and the kernel refuses no call; the notices
    of a wait are those of current registrations, one for each, with the union of the native events it is
    interested in; no token is handed out twice or is the wakeup's; and a registration without tokens left
    throws and changes nothing. -/
theorem no_stale_notice (h : Reach Init (step o) Any s) :
    (∀ fd, (s.port.kernel fd).isSome = true ↔
      ∃ r, s.port.registrations fd = some r ∧ r.interests ≠ {}) ∧
    (∀ fd i, s.port.kernel fd = some i → ∃ r, s.port.registrations fd = some r ∧ i.Serves r) ∧
    (∀ q, s.port.registerOrUpdate q ≠ none) ∧
    (∀ target, s.port.cancel target ≠ none) ∧
    (∀ native, native.length ≤ o.maxNoticesPerWait →
      ∀ notices, (s.port.wait o.maxNoticesPerWait native).1 = notices →
      (∀ n ∈ notices, s.port.isCurrent n.identity (some n.target) = true ∧
        ∃ r, n.identity.source.bind s.port.registrations = some r ∧
          r.interests ≠ {} ∧ UnionOf n.events r native) ∧
      (notices.map Notice.identity).Nodup ∧
      ∀ fd r, s.port.registrations fd = some r → r.interests ≠ {} →
        ∀ events, UnionOf events r native → events ≠ {} → ∃ n ∈ notices, n.identity = r.identity) ∧
    (s.tokens.Nodup ∧ kWakeupGeneration ∉ s.tokens ∧
      (∀ fd r, s.port.registrations fd = some r → r.identity.generation ∈ s.tokens) ∧
      ∀ fd fd' r r', s.port.registrations fd = some r → s.port.registrations fd' = some r' →
        r.identity.generation = r'.identity.generation → fd = fd') ∧
    (∀ q p', s.port.registerOrUpdate q = some (.threw, p') → p' = s.port) ∧
    (s.port.nextGeneration = 2 ^ 32 - 1 → ∀ source target interests,
      target.ownerLoop = s.port.ownerLoop → validInterests interests = true → interests.isNone = false →
      s.port.registrations source = none →
      s.port.registerOrUpdate ⟨some source, some target, interests⟩ = some (.threw, s.port)) := by
  have hi := reach_issued h
  have hp := hi.mirrored
  refine ⟨hp.kernel_isSome, fun fd i hk => hp.serves hk, fun q => ?_, fun target => ?_, ?_,
    ⟨hi.once, fun hw => ?_, hi.held, ?_⟩, ?_, ?_⟩
  · obtain ⟨reply, p', hq, -⟩ := registerOrUpdate_spec hp q
    rw [hq]
    exact Option.some_ne_none _
  · obtain ⟨result, p', hq, -⟩ := cancel_spec hp target
    rw [hq]
    exact Option.some_ne_none _
  · rintro native hmax notices rfl
    have hd := wait_delivered hp native hmax
    refine ⟨fun n hn => ?_, hd.once, fun fd r hr hin events hevents hsome => ?_⟩
    · obtain ⟨fd, r, hr, hin, rfl⟩ := hd.mem n hn
      refine ⟨isCurrent_of_mem hp hr, r, ?_, (hp.inKernel_iff hr).mp hin, due_unionOf r native⟩
      rw [(hp.filed fd r hr).source, Option.bind_some]
      exact hr
    · refine List.mem_map.mp (hd.all fd r hr ((hp.inKernel_iff hr).mpr hin) ?_)
      rw [(due_unionOf r native).unique hevents, Bool.eq_false_iff, Ne, EventLoop.isNone_iff]
      exact hsome
  · obtain ⟨epoch, fd, hpos, hlt, heq⟩ := hi.epochs _ hw
    exact packGeneration_ne_wakeup (Nat.lt_trans hlt hp.next.2) hpos heq.symm
  · exact fun fd fd' r r' hr hr' heq => (hp.unique hr hr' heq).1
  · intro q p' hq
    obtain ⟨reply, p'', hq', hreg⟩ := registerOrUpdate_spec hp q
    rw [hq, Option.some.injEq, Prod.mk.injEq] at hq'
    obtain ⟨rfl, rfl⟩ := hq'
    cases hreg
    rfl
  · intro hlast source target interests howner hvalid hsome hfree
    simp [Port.registerOrUpdate, howner, hvalid, hfree, Port.registerNew, hsome, hlast]

end

/-- Descriptor 5 is registered, cancelled and registered again for another Channel; the kernel answers
    with an event of the old token and two of the new one. -/
theorem no_stale_notice_reused :
    ∃ s, Reach Init (step {}) Any s ∧
      (∃ i r, s.port.kernel 5 = some i ∧ s.port.registrations 5 = some r ∧ i.Serves r) ∧
      s.notices.map Notice.events = [{ read := true, close := true }] ∧ s.tokens.length = 2 := by
  obtain ⟨s, hr, hn, ht, hk⟩ := Reach.of_run Init (step {}) Any
    (fun s => s.notices.map Notice.events = [{ read := true, close := true }] ∧ s.tokens.length = 2 ∧
      (s.port.kernel 5).isSome = true) { port := { ownerLoop := 0 } } ⟨0, rfl⟩
    [.register ⟨some 5, some ⟨1, 5, 0⟩, { read := true }⟩, .cancel (some ⟨1, 5, 0⟩),
      .register ⟨some 5, some ⟨2, 5, 0⟩, { read := true }⟩,
      .wait [⟨packGeneration 1 5, { epollOut := true }, false⟩,
        ⟨packGeneration 2 5, { epollIn := true }, false⟩,
        ⟨packGeneration 2 5, { epollHup := true }, false⟩]]
    (by decide +kernel)
  obtain ⟨i, hi⟩ := Option.isSome_iff_exists.mp hk
  obtain ⟨r, hreg, hserves⟩ := (no_stale_notice hr).2.1 5 i hi
  exact ⟨s, hr, ⟨i, r, hi, hreg, hserves⟩, hn, ht⟩

/-! ## The port of the loop's Channels

The loop's model of its Channels has a port without the kernel and without packed tokens. It is this port,
seen through the epochs, for the requests that the adapter makes: a Channel asks under its own
descriptor. -/

/-- The Channel `id` on `fd` as a target of a port. -/
def Port.target (p : Port) (id : Nat) (fd : SocketFd) : Target := ⟨id, fd, p.ownerLoop⟩

@[simp] theorem target_ownerLoop (p : Port) (id : Nat) (fd : SocketFd) :
    (p.target id fd).ownerLoop = p.ownerLoop := rfl

@[simp] theorem target_fd (p : Port) (id : Nat) (fd : SocketFd) : (p.target id fd).fd = fd := rfl

def Registration.view (r : Registration) : EventLoop.Registration where
  generation := r.identity.generation / 2 ^ 32
  target := r.target.address
  interests := r.interests
  inKernel := r.inKernel

structure Represents (p : Port) (c : EventLoop.Channels) : Prop where
  next : c.nextGeneration = p.nextGeneration
  registrations : ∀ fd : SocketFd, c.registrations fd.val = (p.registrations fd).map Registration.view
  targets : ∀ fd r, p.registrations fd = some r → r.target = p.target r.target.address fd

section
variable {p p' : Port} {c : EventLoop.Channels} {id : Nat} {fd : SocketFd}

theorem Represents.target_iff {r : Registration} (h : Represents p c) (hr : p.registrations fd = some r) :
    r.target = p.target id fd ↔ r.target.address = id := by
  constructor
  · intro heq
    rw [heq]
    rfl
  · rintro rfl
    exact h.targets fd r hr

/-- Both models change the registration of one descriptor. -/
theorem Represents.set {c' : EventLoop.Channels} {ro : Option Registration} (h : Represents p c)
    (howner : p'.ownerLoop = p.ownerLoop)
    (hregs : p'.registrations = Function.update p.registrations fd ro)
    (hregs' : c'.registrations = Function.update c.registrations fd.val (ro.map Registration.view))
    (hnext : c'.nextGeneration = p'.nextGeneration)
    (htarget : ∀ r, ro = some r → r.target = p.target r.target.address fd) : Represents p' c' where
  next := hnext
  registrations := fun fd' => by
    rw [hregs, hregs']
    by_cases hfd : fd' = fd
    · subst hfd
      rw [Function.update_self, Function.update_self]
    · rw [Function.update_of_ne hfd, Function.update_of_ne (fun hval => hfd (Fin.ext (by exact_mod_cast hval)))]
      exact h.registrations fd'
  targets := fun fd' r hr => by
    rw [hregs] at hr
    rw [Port.target, howner]
    by_cases hfd : fd' = fd
    · subst hfd
      rw [Function.update_self] at hr
      exact htarget r hr
    · rw [Function.update_of_ne hfd] at hr
      exact h.targets fd' r hr

theorem registerOrUpdate_represents {interests : Events} {reply : Reply} (hp : p.Mirrored)
    (h : Represents p c) (hvalid : validInterests interests = true)
    (hr : p.registerOrUpdate ⟨some fd, some (p.target id fd), interests⟩ = some (reply, p')) :
    match c.registerOrUpdate id fd.val interests with
    | none => reply = .threw ∧ p' = p
    | some (result, c') => (∃ identity, reply = .returned result identity) ∧ Represents p' c' := by
  have hregs := h.registrations fd
  simp only [Port.registerOrUpdate, target_ownerLoop, ne_eq, not_true_eq_false, hvalid, Bool.true_eq_false,
    or_self, if_false] at hr
  unfold EventLoop.Channels.registerOrUpdate
  have hfd : ¬ (fd.val : Int) = EventLoop.kInvalidSocket := by
    show ¬ (fd.val : Int) = -1
    omega
  rw [if_neg hfd]
  cases hreg : p.registrations fd with
  | none =>
    rw [hreg] at hregs hr
    rw [hregs, Option.map_none]
    simp only [Port.registerNew, updateKernel, hp.kernel_none hreg] at hr
    rw [h.next]
    by_cases hnone : interests.isNone = true
    · simp only [hnone, if_true] at hr ⊢
      cases hr
      exact ⟨⟨_, rfl⟩, h⟩
    by_cases hlast : p.nextGeneration = 0 ∨ p.nextGeneration = 2 ^ 32 - 1
    · simp only [hnone, hlast, if_true] at hr ⊢
      cases hr
      exact ⟨rfl, rfl⟩
    simp only [hnone, hlast, if_false] at hr ⊢
    cases hr
    refine ⟨⟨_, rfl⟩, h.set rfl rfl ?_ rfl ?_⟩
    · have hepoch : packGeneration p.nextGeneration fd / 2 ^ 32 = p.nextGeneration := by
        have hfd := fd.isLt
        rw [packGeneration_eq hp.next.2]
        omega
      rw [Option.map_some, Registration.view, hepoch]
      rfl
    · rintro r hr
      cases hr
      rfl
  | some r =>
    rw [hreg] at hregs hr
    rw [hregs, Option.map_some]
    simp only [Port.update, ne_eq] at hr
    dsimp only [Registration.view]
    by_cases hid : r.target.address = id
    · rw [if_neg (not_not.mpr hid)]
      rw [if_neg (not_not.mpr ((h.target_iff hreg).mpr hid))] at hr
      by_cases hsame : r.interests = interests
      · rw [if_pos hsame] at hr ⊢
        cases hr
        exact ⟨⟨_, rfl⟩, h⟩
      rw [if_neg hsame] at hr ⊢
      rw [sync_spec hp hreg hsame] at hr
      cases hr
      refine ⟨⟨_, rfl⟩, h.set rfl rfl rfl h.next ?_⟩
      rintro q hq
      cases hq
      exact h.targets fd r hreg
    · rw [if_pos hid]
      rw [if_pos (fun heq => hid ((h.target_iff hreg).mp heq))] at hr
      cases hr
      exact ⟨⟨_, rfl⟩, h⟩

theorem cancel_represents {result : PortResult} (h : Represents p c)
    (hr : p.cancel (some (p.target id fd)) = some (result, p')) :
    (c.cancel id fd.val).1 = result ∧ Represents p' (c.cancel id fd.val).2 := by
  have hregs := h.registrations fd
  simp only [Port.cancel, target_ownerLoop, target_fd, ne_eq, not_true_eq_false, if_false] at hr
  unfold EventLoop.Channels.cancel
  cases hreg : p.registrations fd with
  | none =>
    rw [hreg] at hregs hr
    rw [hregs, Option.map_none]
    cases hr
    exact ⟨rfl, h⟩
  | some r =>
    rw [hreg] at hregs hr
    rw [hregs, Option.map_some]
    dsimp only [Registration.view] at hr ⊢
    by_cases hid : r.target.address = id
    · rw [if_neg (not_not.mpr hid)]
      rw [if_neg (not_not.mpr ((h.target_iff hreg).mpr hid))] at hr
      obtain ⟨k, -, heq⟩ := Option.map_eq_some_iff.mp hr
      cases heq
      exact ⟨rfl, h.set rfl rfl rfl h.next (fun r hr => (by cases hr))⟩
    · rw [if_pos hid]
      rw [if_pos (fun heq => hid ((h.target_iff hreg).mp heq))] at hr
      cases hr
      exact ⟨rfl, h⟩

end

end GameNet.EpollReadinessPort
