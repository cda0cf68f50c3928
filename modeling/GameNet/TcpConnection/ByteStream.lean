import GameNet.Machine
import GameNet.Buffer.Refinement

/- The two byte streams of an established connection when allocations fail (`TcpConnection.cc`,
   non-Windows build): `sendReservedInLoop` and `handleWrite` towards the socket, `handleRead` and
   the message callback away from it, over the two Buffers. What the kernel and the allocator
   answer comes with the step. An exception leaves the handler and is reported by the loop, which
   goes on with the next event.

   `accepted` is the concatenation of the payloads whose send has returned Accepted and was
   executed. A send from another thread has returned Accepted before it is executed. A refused send
   changes nothing and is left out. -/
namespace GameNet.ByteStream

open Buffer (Growth RetentionOptions)
open Machine (Reach Any)

/-! ## The connection -/

/-- What `write` answers. -/
inductive WriteAnswer where
  | wrote (n : Nat)
  /-- Would block, or interrupted. -/
  | blocked
  | failed
  deriving DecidableEq

inductive ReadAnswer where
  | delivered (data : List UInt8)
  | blocked
  | failed
  deriving DecidableEq

structure State where
  input : Buffer
  output : Buffer
  /-- `channel_->isWriting()` -/
  writing : Bool := false
  /-- `kDisconnected` -/
  closed : Bool := false
  /-- The sends that other threads have posted. -/
  posted : List (List UInt8) := []
  /-- What the socket has got. -/
  socket : List UInt8 := []
  accepted : List UInt8 := []
  /-- What the kernel has delivered. -/
  kernel : List UInt8 := []
  /-- What was ever appended to the input buffer. -/
  appended : List UInt8 := []
  deriving DecidableEq

def start (input output : RetentionOptions) : State where
  input := .create input
  output := .create output

/-- The second half of `sendReservedInLoop`; the flag says that nothing was thrown. -/
def appendOutput (s : State) (rest : List UInt8) (g : Growth) : State × Bool :=
  match s.output.append (.bytes rest) g with
  | (b, .returned ()) => ({ s with output := b, writing := true }, true)
  | (b, _) => ({ s with output := b }, false)

def sendReservedInLoop (s : State) (payload : List UInt8) (answer : WriteAnswer) (g : Growth) :
    State × Bool :=
  if s.closed then (s, true)
  else if s.writing = false ∧ s.output.readableBytes = 0 then
    match answer with
    | .wrote n =>
      let s := { s with socket := s.socket ++ payload.take n }
      if payload.length ≤ n then (s, true) else appendOutput s (payload.drop n) g
    | .blocked => appendOutput s payload g
    | .failed => ({ s with closed := true }, true)
  else appendOutput s payload g

def handleWrite (s : State) (answer : WriteAnswer) (allocated : Bool) : State :=
  if s.writing = false then s
  else
    match answer with
    | .wrote 0 => s
    | .wrote n =>
      let output := (s.output.retrieve n allocated).1
      { s with
        socket := s.socket ++ s.output.readable.take n
        output := output
        writing := decide (output.readableBytes ≠ 0) }
    | .blocked => s
    | .failed => { s with closed := true }

/-- `handleRead` up to the message callback. -/
def handleRead (s : State) (maxReadBytes : Nat) (answer : ReadAnswer) (g : Growth) : State :=
  match answer with
  | .delivered data =>
    let input := (s.input.readFd true maxReadBytes (.delivered data) g).1
    { s with
      input := input
      kernel := s.kernel ++ data
      appended := s.appended ++ input.readable.drop s.input.readable.length
      -- the end of the stream
      closed := decide (data = []) }
  | .blocked => s
  | .failed => { s with closed := true }

inductive Label where
  /-- A send on the owner thread. -/
  | send (payload : List UInt8) (answer : WriteAnswer) (g : Growth)
  /-- A send on another thread, and its functor. -/
  | post (payload : List UInt8)
  | runPosted (answer : WriteAnswer) (g : Growth)
  | handleWrite (answer : WriteAnswer) (allocated : Bool)
  | handleRead (maxReadBytes : Nat) (answer : ReadAnswer) (g : Growth)
  /-- The message callback, or other code of the owner, takes bytes. -/
  | retrieve (len : Nat) (allocated : Bool)
  | retrieveAsString (len : Nat) (constructed allocated : Bool)
  | close

/-- A write takes at most what it is given. -/
def WriteAnswer.atMost (len : Nat) : WriteAnswer → Bool
  | .wrote n => n ≤ len
  | .blocked | .failed => true

/-- A read delivers at most what it is offered. -/
def ReadAnswer.allowed (b : Buffer) (maxReadBytes : Nat) (g : Growth) : ReadAnswer → Bool
  | .delivered data =>
    maxReadBytes ≠ 0 && (Buffer.Op.readFd true maxReadBytes (.delivered data) g).allowed b
  | .blocked | .failed => true

def step (s : State) : Label → Option State
  | .send payload answer g =>
    if s.closed ∨ payload = [] then some s
    else if payload.length ≤ Buffer.maxSize ∧ answer.atMost payload.length then
      let (s', returned) := sendReservedInLoop s payload answer g
      some { s' with accepted := if returned then s.accepted ++ payload else s.accepted }
    else none
  | .post payload =>
    if s.closed ∨ payload = [] then some s
    else if payload.length ≤ Buffer.maxSize then some { s with posted := s.posted ++ [payload] }
    else none
  | .runPosted answer g =>
    match s.posted with
    | [] => none
    | payload :: rest =>
      if s.closed then some { s with posted := rest }
      else if answer.atMost payload.length then
        let (s', _) := sendReservedInLoop { s with posted := rest } payload answer g
        some { s' with accepted := s.accepted ++ payload }
      else none
  | .handleWrite answer allocated =>
    if s.closed then some s
    else if answer.atMost s.output.readable.length then some (handleWrite s answer allocated)
    else none
  | .handleRead maxReadBytes answer g =>
    if s.closed then some s
    else if answer.allowed s.input maxReadBytes g then some (handleRead s maxReadBytes answer g)
    else none
  | .retrieve len allocated => some { s with input := (s.input.retrieve len allocated).1 }
  | .retrieveAsString len constructed allocated =>
    some { s with input := (s.input.retrieveAsString len constructed allocated).1 }
  | .close => some { s with closed := true }

/-! ## The streams -/

/-- How much of a payload is left for the output buffer. The socket is tried first if nothing is
    buffered and no write is awaited; an error closes the connection. -/
def remaining (s : State) (payload : List UInt8) (answer : WriteAnswer) : Nat :=
  if s.writing = false ∧ s.output.readable = [] then
    match answer with
    | .wrote n => payload.length - n
    | .blocked => payload.length
    | .failed => 0
  else payload.length

/-- Where an allocation may fail: in a send on the owner thread of which nothing was written yet,
    and in what takes bytes. A posted send, the rest of a payload after a part was written, and what
    a read delivers find room. -/
def MemoryHolds (s : State) : Label → Prop
  | .send payload answer g =>
    remaining s payload answer = payload.length ∨ s.output.Room (remaining s payload answer) g
  | .runPosted answer g =>
    ∀ payload ∈ s.posted.head?, s.output.Room (remaining s payload answer) g
  | .handleRead _ (.delivered data) g => s.input.Room data.length g
  | _ => True

structure Inv (s : State) : Prop where
  input : s.input.Inv
  output : s.output.Inv
  sizes : ∀ payload ∈ s.posted, payload.length ≤ Buffer.maxSize
  sent : s.closed = false → s.socket ++ s.output.readable = s.accepted
  received : s.closed = false → s.appended = s.kernel

section
variable {s s' : State} {payload : List UInt8} {answer : WriteAnswer} {g : Growth}

/-- What a part of a send does: it goes on to the buffer, or nothing changes. -/
theorem appendOutput_spec (h : s.output.Inv) (hsize : payload.length ≤ Buffer.maxSize) :
    (∃ b, appendOutput s payload g = ({ s with output := b, writing := true }, true) ∧ b.Inv ∧
        b.readable = s.output.readable ++ payload) ∨
      ¬s.output.Room payload.length g ∧ appendOutput s payload g = (s, false) := by
  unfold appendOutput
  rcases Buffer.append_ends h hsize g with ⟨hroom, e, heq⟩ | hends
  · rw [heq]
    exact .inr ⟨hroom, rfl⟩
  · cases hcall : s.output.append (.bytes payload) g with
    | mk b out =>
      rw [hcall] at hends
      obtain rfl : out = .returned () := hends.out
      exact .inl ⟨b, rfl, hends.inv, hends.bytes⟩

/-- What a send does to an open connection: all of the payload is in the stream, the connection is
    closed, or there was no room for what was left and nothing has changed if that was the whole
    payload. -/
structure Sends (s : State) (payload : List UInt8) (answer : WriteAnswer) (g : Growth)
    (r : State × Bool) : Prop where
  input : r.1.input = s.input
  appended : r.1.appended = s.appended
  kernel : r.1.kernel = s.kernel
  posted : r.1.posted = s.posted
  output : r.1.output.Inv
  sent : r.1.closed = false → r.2 = true →
    r.1.socket ++ r.1.output.readable = s.socket ++ s.output.readable ++ payload
  threw : r.2 = false → ¬s.output.Room (remaining s payload answer) g ∧
    (remaining s payload answer = payload.length → r.1 = s)

theorem sendReservedInLoop_spec (h : s.output.Inv) (hsize : payload.length ≤ Buffer.maxSize)
    (hopen : s.closed = false) :
    Sends s payload answer g (sendReservedInLoop s payload answer g) := by
  -- the whole payload goes to the buffer
  have hbuffered (hall : remaining s payload answer = payload.length) :
      Sends s payload answer g (appendOutput s payload g) := by
    rcases appendOutput_spec (g := g) h hsize with ⟨b, heq, hinv, hbytes⟩ | ⟨hroom, heq⟩
    · rw [heq]
      refine ⟨rfl, rfl, rfl, rfl, hinv, fun _ _ => ?_, nofun⟩
      show s.socket ++ b.readable = s.socket ++ s.output.readable ++ payload
      rw [hbytes, List.append_assoc]
    · rw [heq]
      refine ⟨rfl, rfl, rfl, rfl, h, nofun, fun _ => ⟨?_, fun _ => rfl⟩⟩
      rw [hall]
      exact hroom
  have hempty : s.output.readableBytes = 0 ↔ s.output.readable = [] := by
    rw [h.readableBytes_length, List.length_eq_zero_iff]
  unfold sendReservedInLoop
  rw [if_neg (by rw [hopen]; nofun)]
  split
  case isFalse hdirect =>
    rw [hempty] at hdirect
    exact hbuffered (if_neg hdirect)
  rename_i hdirect
  rw [hempty] at hdirect
  have hempty := hdirect.2
  cases answer with
  | blocked => exact hbuffered (if_pos hdirect)
  | failed => exact ⟨rfl, rfl, rfl, rfl, h, nofun, nofun⟩
  | wrote n =>
    have hremaining : remaining s payload (.wrote n) = payload.length - n := if_pos hdirect
    simp only
    split
    · rename_i hall
      refine ⟨rfl, rfl, rfl, rfl, h, fun _ _ => ?_, nofun⟩
      show s.socket ++ payload.take n ++ s.output.readable = _
      rw [List.take_of_length_le hall, hempty, List.append_nil, List.append_nil]
    · rename_i hpart
      -- a part was written, and the rest goes to the buffer
      have hrest : (payload.drop n).length ≤ Buffer.maxSize :=
        (List.length_drop ▸ Nat.sub_le _ _).trans hsize
      rcases appendOutput_spec (s := { s with socket := s.socket ++ payload.take n }) (g := g) h
        hrest with ⟨b, heq, hinv, hbytes⟩ | ⟨hroom, heq⟩
      · rw [heq]
        refine ⟨rfl, rfl, rfl, rfl, hinv, fun _ _ => ?_, nofun⟩
        show s.socket ++ payload.take n ++ b.readable = _
        rw [hbytes, hempty, List.nil_append, List.append_nil, List.append_assoc,
          List.take_append_drop]
      · rw [List.length_drop] at hroom
        rw [heq]
        refine ⟨rfl, rfl, rfl, rfl, h, nofun, fun _ => ?_⟩
        rw [hremaining]
        refine ⟨hroom, fun hnothing => ?_⟩
        obtain rfl : n = 0 := by omega
        rw [List.take_zero, List.append_nil]

theorem Inv.send (h : Inv s) (hc : MemoryHolds s (.send payload answer g))
    (hs : step s (.send payload answer g) = some s') : Inv s' := by
  simp only [step] at hs
  split at hs
  · cases hs
    exact h
  rename_i hnot
  push Not at hnot
  have hopen : s.closed = false := Bool.eq_false_iff.mpr hnot.1
  obtain ⟨hallowed, heq⟩ := Option.ite_none_right_eq_some.mp hs
  cases heq
  have hsend : Sends s payload answer g (sendReservedInLoop s payload answer g) :=
    sendReservedInLoop_spec h.output hallowed.1 hopen
  refine ⟨hsend.input ▸ h.input, hsend.output, hsend.posted ▸ h.sizes, fun hopen' => ?_,
    fun _ => ?_⟩
  · show (sendReservedInLoop s payload answer g).1.socket ++
      (sendReservedInLoop s payload answer g).1.output.readable = _
    cases hret : (sendReservedInLoop s payload answer g).2 with
    | true =>
      rw [hsend.sent hopen' hret, h.sent hopen]
      rfl
    | false =>
      obtain ⟨hroom, hnothing⟩ := hsend.threw hret
      rw [hnothing (Or.resolve_right hc hroom)]
      exact h.sent hopen
  · show (sendReservedInLoop s payload answer g).1.appended =
      (sendReservedInLoop s payload answer g).1.kernel
    rw [hsend.appended, hsend.kernel]
    exact h.received hopen

theorem Inv.runPosted (h : Inv s) (hc : MemoryHolds s (.runPosted answer g))
    (hs : step s (.runPosted answer g) = some s') : Inv s' := by
  simp only [step] at hs
  split at hs
  case h_1 => cases hs
  rename_i payload rest hposted
  have hrest (p : List UInt8) (hp : p ∈ rest) : p.length ≤ Buffer.maxSize :=
    h.sizes p (hposted ▸ .tail _ hp)
  split at hs
  · rename_i hclosed
    cases hs
    exact ⟨h.input, h.output, hrest, fun hopen => absurd (hclosed.symm.trans hopen) nofun,
      fun hopen => absurd (hclosed.symm.trans hopen) nofun⟩
  rename_i hclosed
  have hopen : s.closed = false := Bool.eq_false_iff.mpr hclosed
  obtain ⟨-, heq⟩ := Option.ite_none_right_eq_some.mp hs
  cases heq
  have hsend : Sends { s with posted := rest } payload answer g
      (sendReservedInLoop { s with posted := rest } payload answer g) :=
    sendReservedInLoop_spec h.output (h.sizes payload (hposted ▸ .head _)) hopen
  have hreturned : (sendReservedInLoop { s with posted := rest } payload answer g).2 = true := by
    by_contra hthrew
    exact (hsend.threw (Bool.eq_false_iff.mpr hthrew)).1 (hc payload (by rw [hposted]; rfl))
  refine ⟨?_, hsend.output, hsend.posted ▸ hrest, fun hopen' => ?_, fun _ => ?_⟩
  · show (sendReservedInLoop { s with posted := rest } payload answer g).1.input.Inv
    rw [hsend.input]
    exact h.input
  · show (sendReservedInLoop { s with posted := rest } payload answer g).1.socket ++
      (sendReservedInLoop { s with posted := rest } payload answer g).1.output.readable = _
    rw [hsend.sent hopen' hreturned]
    show s.socket ++ s.output.readable ++ payload = s.accepted ++ payload
    rw [h.sent hopen]
  · show (sendReservedInLoop { s with posted := rest } payload answer g).1.appended =
      (sendReservedInLoop { s with posted := rest } payload answer g).1.kernel
    rw [hsend.appended, hsend.kernel]
    exact h.received hopen

theorem Inv.handleWrite {allocated : Bool} (h : Inv s)
    (hs : step s (.handleWrite answer allocated) = some s') : Inv s' := by
  simp only [step] at hs
  split at hs
  · cases hs
    exact h
  rename_i hclosed
  have hopen : s.closed = false := Bool.eq_false_iff.mpr hclosed
  obtain ⟨-, heq⟩ := Option.ite_none_right_eq_some.mp hs
  cases heq
  unfold ByteStream.handleWrite
  split
  · exact h
  split
  · exact h
  · rename_i n _
    obtain ⟨hends, -⟩ := Buffer.retrieve_ends h.output n allocated
    refine ⟨h.input, hends.inv, h.sizes, fun _ => ?_, h.received⟩
    show s.socket ++ s.output.readable.take n ++ (s.output.retrieve n allocated).1.readable = _
    rw [hends.bytes, List.append_assoc, List.take_append_drop]
    exact h.sent hopen
  · exact h
  · exact ⟨h.input, h.output, h.sizes, nofun, nofun⟩

theorem Inv.handleRead {maxReadBytes : Nat} {answer : ReadAnswer} (h : Inv s)
    (hc : MemoryHolds s (.handleRead maxReadBytes answer g))
    (hs : step s (.handleRead maxReadBytes answer g) = some s') : Inv s' := by
  simp only [step] at hs
  split at hs
  · cases hs
    exact h
  rename_i hclosed
  have hopen : s.closed = false := Bool.eq_false_iff.mpr hclosed
  obtain ⟨hallowed, heq⟩ := Option.ite_none_right_eq_some.mp hs
  cases heq
  cases answer with
  | blocked => exact h
  | failed => exact ⟨h.input, h.output, h.sizes, nofun, nofun⟩
  | delivered data =>
    simp only [ReadAnswer.allowed, Buffer.Op.allowed, Bool.and_eq_true, decide_eq_true_eq]
      at hallowed
    rcases Buffer.readFd_ends h.input hallowed.1 hallowed.2.2 g with
      ⟨hroom, -⟩ | hends
    · exact absurd hc hroom
    · refine ⟨hends.inv, h.output, h.sizes, fun _ => h.sent hopen, fun _ => ?_⟩
      show s.appended ++ (s.input.readFd true maxReadBytes (.delivered data) g).1.readable.drop
        s.input.readable.length = s.kernel ++ data
      rw [hends.bytes, List.drop_left, h.received hopen]

theorem step_inv {l : Label} (h : Inv s) (hc : MemoryHolds s l) (hs : step s l = some s') :
    Inv s' := by
  cases l with
  | send payload answer g => exact h.send hc hs
  | post payload =>
    simp only [step] at hs
    split at hs
    · cases hs
      exact h
    obtain ⟨hsize, heq⟩ := Option.ite_none_right_eq_some.mp hs
    cases heq
    refine { h with sizes := fun p hp => ?_ }
    rcases List.mem_append.mp hp with hp | hp
    · exact h.sizes p hp
    · rw [List.mem_singleton.mp hp]
      exact hsize
  | runPosted answer g => exact h.runPosted hc hs
  | handleWrite answer allocated => exact h.handleWrite hs
  | handleRead maxReadBytes answer g => exact h.handleRead hc hs
  | retrieve len allocated =>
    cases hs
    exact { h with input := (Buffer.retrieve_ends h.input len allocated).1.inv }
  | retrieveAsString len constructed allocated =>
    cases hs
    refine { h with input := ?_ }
    cases constructed with
    | true => exact (Buffer.retrieveAsString_ends h.input len allocated).1.inv
    | false =>
      show (s.input.retrieveAsString len false allocated).1.Inv
      rw [Buffer.retrieveAsString_fails h.input]
      exact h.input
  | close =>
    cases hs
    exact ⟨h.input, h.output, h.sizes, nofun, nofun⟩

end

/-- As long as the connection is open, what the socket has got and what is buffered are the
    accepted payloads in order, and what was appended to the input is what the kernel has
    delivered. -/
theorem streams_stay_whole (input output : RetentionOptions) (hinput : input.validate = .ok ())
    (houtput : output.validate = .ok ()) {s : State}
    (h : Reach (· = start input output) step MemoryHolds s) (hopen : s.closed = false) :
    s.socket ++ s.output.readable = s.accepted ∧ s.appended = s.kernel := by
  have hi : Inv s := by
    refine Reach.invariant (P := Inv) ?_ (fun _ _ _ hi hc hs => step_inv hi hc hs) h
    rintro s rfl
    refine ⟨Buffer.create_inv hinput, Buffer.create_inv houtput, nofun, fun _ => ?_, fun _ => rfl⟩
    exact Buffer.create_readable output
  exact ⟨hi.sent hopen, hi.received hopen⟩

instance (s : State) (l : Label) : Decidable (MemoryHolds s l) :=
  match l with
  | .send payload answer g =>
    inferInstanceAs (Decidable (_ ∨ s.output.Room (remaining s payload answer) g))
  | .runPosted answer g =>
    inferInstanceAs (Decidable (∀ payload ∈ s.posted.head?, s.output.Room (remaining s payload answer) g))
  | .handleRead _ (.delivered data) g => inferInstanceAs (Decidable (s.input.Room data.length g))
  | .handleRead _ .blocked _ | .handleRead _ .failed _ | .post _ | .handleWrite _ _
  | .retrieve _ _ | .retrieveAsString _ _ _ | .close => .isTrue trivial

/-- A payload is written in part and then from the buffer, and one is refused by the allocator
    before anything of it is written. -/
theorem streams_stay_whole_refused :
    ∃ s : State, s.socket = [1, 2] ∧ s.output.readable = [3] ∧ s.kernel = [9, 8] ∧
      s.socket ++ s.output.readable = s.accepted ∧ s.appended = s.kernel := by
  obtain ⟨s, hreach, hsocket, hbuffered, hkernel, hopen⟩ := Reach.of_run
    (· = start {} {}) step MemoryHolds
    (fun s => s.socket = [1, 2] ∧ s.output.readable = [3] ∧ s.kernel = [9, 8] ∧ s.closed = false)
    (start {} {}) rfl
    [.post [1, 2, 3], .runPosted (.wrote 1) .throws, .handleWrite (.wrote 1) true,
      .send (List.replicate 1100 7) .blocked .throws, .handleRead 10 (.delivered [9, 8]) .throws]
    (by decide +kernel)
  exact ⟨s, hsocket, hbuffered, hkernel, streams_stay_whole {} {} rfl rfl hreach hopen⟩

/-- The allocator fails after a part of a posted payload was written and after a part of a read was
    stored; the connection stays open, and later bytes follow the holes. -/
theorem failed_growth_leaves_holes :
    ∃ s : State, Reach (· = start {} {}) step Any s ∧ s.closed = false ∧
      s.socket ++ s.output.readable = [5, 6] ∧ s.accepted = List.replicate 1100 5 ++ [6] ∧
      s.kernel = List.replicate 1025 3 ++ [4] ∧ s.appended = List.replicate 1024 3 ++ [4] := by
  exact Reach.of_run (· = start {} {}) step Any
    (fun s => s.closed = false ∧ s.socket ++ s.output.readable = [5, 6] ∧
      s.accepted = List.replicate 1100 5 ++ [6] ∧ s.kernel = List.replicate 1025 3 ++ [4] ∧
      s.appended = List.replicate 1024 3 ++ [4])
    (start {} {}) rfl
    [.post (List.replicate 1100 5), .runPosted (.wrote 1) .throws, .post [6],
      .runPosted (.wrote 1) .throws, .handleRead 2000 (.delivered (List.replicate 1025 3)) .throws,
      .handleRead 2000 (.delivered [4]) (.spare 0)]
    (by decide +kernel)

end GameNet.ByteStream
