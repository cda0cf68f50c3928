import Mathlib.Data.List.Infix
import GameNet.Machine

/- `IocpTcpTransport` (`platform/IocpTcpTransport_win.cc`): one overlapped read and one overlapped
   write of a connection, each with its own part of the shared state.

   An operation is submitted, its completion is dequeued by the poller (`observeTerminal`), and the
   notice is consumed on the owner loop. The answer of the kernel to a submission comes with the call:
   it takes the operation (also when it reports `WSA_IO_PENDING`), rejects it with an error, or there
   was no memory for the read storage. Fatal log lines are `none`.

   The records also say what the source does not keep: which buffer the kernel holds, the bytes that
   were enqueued (`taken`) and those that the socket got (`written`). The operation's own submission
   flags are left out: an operation that is neither pending nor completed is always free to be prepared
   again. -/
namespace GameNet.IocpTcpTransport

def kReadChunkBytes : Nat := 4 * 1024

/-- `(std::numeric_limits<ULONG>::max)()`. -/
def kMaxSubmissionBytes : Nat := 2 ^ 32 - 1

def WSAEFAULT : Nat := 10014
def WSAEINVAL : Nat := 10022
def WSAECONNRESET : Nat := 10054
def WSAENOBUFS : Nat := 10055

structure IocpOperation where
  bytesTransferred : Nat := 0
  error : Nat := 0
  deriving DecidableEq, Repr

inductive Submission where
  | taken
  | rejected (err : Nat)
  | noBuffers
  deriving DecidableEq, Repr

/-- How an operation ends: with a byte count, or with an error and no byte. -/
inductive Completion where
  | bytes (n : Nat)
  | failed (err : Nat)
  deriving DecidableEq, Repr

/-- The operation after a completion of at most `length` bytes; an error is not zero. -/
def Completion.operation (length : Nat) : Completion → Option IocpOperation
  | .bytes n => if length < n then none else some ⟨n, 0⟩
  | .failed err => if err = 0 then none else some ⟨0, err⟩

/-! ## Reading -/

/-- The read buffer of an operation that the kernel holds: an allocation and a length. -/
structure KernelRead where
  storage : Nat
  length : Nat
  deriving DecidableEq, Repr

structure ReadHalf where
  readPending : Bool := false
  readCompletionPending : Bool := false
  readOperation : IocpOperation := {}
  readStorageBytes : Nat := 0
  /-- The number of allocations of read storage: the last one is in use. -/
  readStorage : Nat := 0
  kernelRead : Option KernelRead := none
  deriving DecidableEq, Repr

namespace ReadHalf

/-- The storage for a read of `n` bytes. -/
def provide (r : ReadHalf) (n : Nat) : ReadHalf :=
  if r.readStorageBytes < n then { r with readStorage := r.readStorage + 1, readStorageBytes := n }
  else r

/-- `startRead`, with the error it returns. -/
def startRead (r : ReadHalf) (maxBytes : Nat) (s : Submission) : Option (ReadHalf × Nat) :=
  if r.readPending ∨ r.readCompletionPending then some (r, 0)
  else if maxBytes = 0 then some (r, WSAEINVAL)
  else
    let n := min kReadChunkBytes maxBytes
    match s with
    | .noBuffers =>
      if r.readStorageBytes < n then some ({ r with readOperation := {} }, WSAENOBUFS) else none
    | .rejected err =>
      if err = 0 then none else some ({ r.provide n with readOperation := ⟨0, err⟩ }, err)
    | .taken =>
      some ({ r.provide n with readPending := true, readOperation := {}
                               kernelRead := some ⟨(r.provide n).readStorage, n⟩ }, 0)

/-- `observeTerminal`, when the poller dequeues the completion. -/
def observeTerminal (r : ReadHalf) (c : Completion) : Option ReadHalf :=
  r.kernelRead.bind fun k => (c.operation k.length).map fun op =>
    { r with readPending := false, readCompletionPending := true, kernelRead := none
             readOperation := op }

/-- `consumeReadCompletion`, up to the consumer. -/
def consume (r : ReadHalf) : ReadHalf := { r with readCompletionPending := false }

/-- `completeRead`: the byte count, or the error. -/
def completeRead (r : ReadHalf) : ReadHalf × Except Nat Nat :=
  ({ r with readPending := false, readCompletionPending := false },
    if r.readOperation.error ≠ 0 then .error r.readOperation.error
    else .ok r.readOperation.bytesTransferred)

/-- Fatal while the kernel holds the read. -/
def releaseReadStorage (r : ReadHalf) : Option ReadHalf :=
  if r.readPending then none else some { r with readStorageBytes := 0 }

/-- The kernel holds the read exactly while it is pending, in the storage that is in use. -/
structure Ok (r : ReadHalf) : Prop where
  pending : r.readPending = r.kernelRead.isSome
  held : ∀ k, r.kernelRead = some k → k.storage = r.readStorage ∧ k.length ≤ r.readStorageBytes
  once : r.readPending = true → r.readCompletionPending = false

variable {r r' : ReadHalf} {s : Submission} {n err : Nat}

theorem ok_init : Ok {} := ⟨rfl, nofun, nofun⟩

theorem Ok.free (h : r.Ok) (hfree : r.readPending = false) : r.kernelRead = none := by
  rw [← Option.not_isSome_iff_eq_none, ← h.pending, hfree]
  nofun

theorem provide_spec (r : ReadHalf) (n : Nat) : n ≤ (r.provide n).readStorageBytes ∧
    (r.provide n).readPending = r.readPending ∧
    (r.provide n).readCompletionPending = r.readCompletionPending ∧
    (r.provide n).kernelRead = r.kernelRead := by
  unfold provide
  split
  case isTrue => exact ⟨le_rfl, rfl, rfl, rfl⟩
  case isFalse hlt => exact ⟨by omega, rfl, rfl, rfl⟩

/-- A read is submitted into storage that no other read holds. -/
theorem Ok.startRead (h : r.Ok) (hs : r.startRead n s = some (r', err)) : r'.Ok := by
  unfold ReadHalf.startRead at hs
  split at hs
  · cases hs
    exact h
  rename_i hfree
  obtain ⟨hpending, hcompleted⟩ := not_or.mp hfree
  have hnone := h.free (eq_false_of_ne_true hpending)
  split at hs
  · cases hs
    exact h
  obtain ⟨hroom, hp, hc, hk⟩ := provide_spec r (min kReadChunkBytes n)
  cases s with
  | noBuffers =>
    simp only at hs
    split at hs <;> cases hs
    exact ⟨h.pending, h.held, h.once⟩
  | rejected e =>
    simp only at hs
    split at hs <;> cases hs
    refine ⟨hp.trans (h.pending.trans (by rw [hk])), fun k hk' => ?_, fun hpend => ?_⟩
    · rw [show _ = some k from hk'] at hk
      rw [hnone] at hk
      cases hk
    · exact absurd (hp.symm.trans hpend) hpending
  | taken =>
    cases hs
    refine ⟨rfl, fun k hk' => ?_, fun _ => hc.trans (eq_false_of_ne_true hcompleted)⟩
    cases hk'
    exact ⟨rfl, hroom⟩

theorem Ok.observeTerminal {c : Completion} (hs : r.observeTerminal c = some r') : r'.Ok := by
  obtain ⟨k, -, hop⟩ := Option.bind_eq_some_iff.mp hs
  obtain ⟨op, -, rfl⟩ := Option.map_eq_some_iff.mp hop
  exact ⟨rfl, nofun, nofun⟩

theorem Ok.consume (h : r.Ok) : r.consume.Ok := ⟨h.pending, h.held, fun _ => rfl⟩

theorem Ok.completeRead (h : r.Ok) (hfree : r.readPending = false) : r.completeRead.1.Ok := by
  have hnone := h.free hfree
  refine ⟨?_, h.held, nofun⟩
  show false = r.kernelRead.isSome
  rw [hnone]
  rfl

theorem Ok.releaseReadStorage (h : r.Ok) (hs : r.releaseReadStorage = some r') : r'.Ok := by
  unfold ReadHalf.releaseReadStorage at hs
  split at hs
  case isTrue => cases hs
  case isFalse hfree =>
    cases hs
    refine ⟨h.pending, fun k hk => ?_, h.once⟩
    have hnone := h.free (eq_false_of_ne_true hfree)
    rw [show r.kernelRead = some k from hk] at hnone
    cases hnone

end ReadHalf

/-! ## Writing -/

structure WriteSegment where
  /-- Which element of the deque this is: elements are never moved. -/
  id : Nat
  bytes : List UInt8
  offset : Nat := 0
  deriving DecidableEq, Repr

/-- The bytes of queued segments that are not confirmed. -/
def unsent (l : List WriteSegment) : List UInt8 := (l.map fun s => s.bytes.drop s.offset).flatten

/-- The write buffer of an operation that the kernel holds: a part of a segment. -/
structure KernelWrite where
  segment : Nat
  offset : Nat
  length : Nat
  deriving DecidableEq, Repr

structure WriteHalf where
  writePending : Bool := false
  writeCompletionPending : Bool := false
  writeOperation : IocpOperation := {}
  writeSegments : List WriteSegment := []
  bufferedWriteBytes : Nat := 0
  submittedWriteBytes : Nat := 0
  nextSegment : Nat := 0
  kernelWrite : Option KernelWrite := none
  taken : List UInt8 := []
  written : List UInt8 := []
  /-- The bytes that `completeWrite` has counted, and the number of bytes that the socket has got
      beyond them. -/
  confirmed : List UInt8 := []
  ahead : Nat := 0
  discarded : Bool := false
  deriving DecidableEq, Repr

namespace WriteHalf

def enqueueWrite (w : WriteHalf) (payload : List UInt8) : WriteHalf :=
  if payload = [] then w
  else { w with
    writeSegments := w.writeSegments ++ [{ id := w.nextSegment, bytes := payload }]
    bufferedWriteBytes := w.bufferedWriteBytes + payload.length
    nextSegment := w.nextSegment + 1
    taken := w.taken ++ payload }

def startWrite (w : WriteHalf) (s : Submission) : Option (WriteHalf × Nat) :=
  if w.writePending ∨ w.writeCompletionPending then some (w, 0)
  else
    match w.writeSegments with
    | [] => some (w, WSAEINVAL)
    | front :: _ =>
      let n := min (front.bytes.length - front.offset) kMaxSubmissionBytes
      match s with
      | .noBuffers => none
      | .rejected err =>
        if err = 0 then none
        else some ({ w with submittedWriteBytes := 0, writeOperation := ⟨0, err⟩ }, err)
      | .taken =>
        some ({ w with writePending := true, submittedWriteBytes := n, writeOperation := {}
                       kernelWrite := some ⟨front.id, front.offset, n⟩ }, 0)

/-- `observeTerminal`: the socket has got the bytes. -/
def observeTerminal (w : WriteHalf) (c : Completion) : Option WriteHalf :=
  w.kernelWrite.bind fun k => (c.operation k.length).map fun op =>
    { w with writePending := false, writeCompletionPending := true, kernelWrite := none
             writeOperation := op, ahead := op.bytesTransferred
             written := w.written ++ (unsent w.writeSegments).take op.bytesTransferred }

/-- `consumeWriteCompletion`, up to the consumer. -/
def consume (w : WriteHalf) : WriteHalf := { w with writeCompletionPending := false }

/-- `completeWrite`: the byte count, or the error. -/
def completeWrite (w : WriteHalf) : WriteHalf × Except Nat Nat :=
  let w' := { w with writePending := false, writeCompletionPending := false, submittedWriteBytes := 0 }
  let completed := w.writeOperation.bytesTransferred
  if w.writeOperation.error ≠ 0 then (w', .error w.writeOperation.error)
  else
    match w.writeSegments with
    | [] => (w', .error WSAECONNRESET)
    | front :: rest =>
      if completed = 0 ∨ w.submittedWriteBytes < completed then (w', .error WSAECONNRESET)
      else if front.bytes.length - front.offset < completed ∨ w.bufferedWriteBytes < completed then
        (w', .error WSAEFAULT)
      else
        ({ w' with
            writeSegments :=
              if front.offset + completed = front.bytes.length then rest
              else { front with offset := front.offset + completed } :: rest
            bufferedWriteBytes := w.bufferedWriteBytes - completed
            confirmed := w.confirmed ++ (unsent w.writeSegments).take completed
            ahead := 0 },
          .ok completed)

/-- Fatal while the kernel holds the write; else the number of bytes that are dropped. -/
def discardBufferedWrites (w : WriteHalf) : Option (WriteHalf × Nat) :=
  if w.writePending then none
  else some ({ w with writeSegments := [], bufferedWriteBytes := 0, submittedWriteBytes := 0
                      discarded := true }, w.bufferedWriteBytes)

/-- The write that was submitted fits the first segment. -/
def Fits (w : WriteHalf) : Prop :=
  ∃ front rest, w.writeSegments = front :: rest ∧
    front.offset + w.submittedWriteBytes ≤ front.bytes.length

/-- A write has ended, and what it brought is not counted yet. -/
structure Delivered (w : WriteHalf) : Prop where
  fits : w.Fits
  count : w.writeOperation.bytesTransferred ≤ w.submittedWriteBytes
  ahead : w.ahead = w.writeOperation.bytesTransferred
  none : w.writeOperation.error ≠ 0 → w.writeOperation.bytesTransferred = 0

structure Ok (w : WriteHalf) : Prop where
  buffered : w.bufferedWriteBytes = (unsent w.writeSegments).length
  offsets : ∀ s ∈ w.writeSegments, s.offset < s.bytes.length
  pending : w.writePending = w.kernelWrite.isSome
  held : ∀ k, w.kernelWrite = some k → k.length = w.submittedWriteBytes ∧ w.ahead = 0 ∧ w.Fits ∧
    ∃ front rest, w.writeSegments = front :: rest ∧ front.id = k.segment ∧ front.offset = k.offset
  once : w.writePending = true → w.writeCompletionPending = false
  delivered : w.writeCompletionPending = true → w.Delivered
  within : w.discarded = false → w.ahead ≤ (unsent w.writeSegments).length
  stream : w.discarded = false → w.taken = w.confirmed ++ unsent w.writeSegments ∧
    w.written = w.confirmed ++ (unsent w.writeSegments).take w.ahead
  sent : w.written <+: w.taken
  emptied : w.discarded = true → w.writeSegments = []

variable {w w' : WriteHalf} {s : Submission} {n err : Nat}

theorem unsent_cons (x : WriteSegment) (l : List WriteSegment) :
    unsent (x :: l) = x.bytes.drop x.offset ++ unsent l := rfl

theorem ok_init : Ok {} where
  buffered := rfl
  offsets := nofun
  pending := rfl
  held := nofun
  once := nofun
  delivered := nofun
  within := fun _ => le_rfl
  stream := fun _ => ⟨rfl, rfl⟩
  sent := List.prefix_rfl
  emptied := nofun

theorem Ok.free (h : w.Ok) (hfree : w.writePending = false) : w.kernelWrite = none := by
  rw [← Option.not_isSome_iff_eq_none, ← h.pending, hfree]
  nofun

theorem Fits.append {payload : WriteSegment} (h : w.Fits) {w' : WriteHalf}
    (hsegments : w'.writeSegments = w.writeSegments ++ [payload])
    (hsubmitted : w'.submittedWriteBytes = w.submittedWriteBytes) : w'.Fits := by
  obtain ⟨front, rest, heq, hfits⟩ := h
  exact ⟨front, rest ++ [payload], by rw [hsegments, heq]; rfl, by rw [hsubmitted]; exact hfits⟩

/-- A payload goes behind everything that is queued. -/
theorem Ok.enqueueWrite (h : w.Ok) (hlive : w.discarded = false) (payload : List UInt8) :
    (w.enqueueWrite payload).Ok := by
  unfold WriteHalf.enqueueWrite
  split
  case isTrue => exact h
  case isFalse hne =>
    obtain ⟨htaken, hwritten⟩ := h.stream hlive
    have hunsent : unsent (w.writeSegments ++ [{ id := w.nextSegment, bytes := payload }]) =
        unsent w.writeSegments ++ payload := by simp [unsent]
    refine ⟨?_, fun x hx => ?_, h.pending, fun k hk => ?_, h.once, fun hc => ?_, fun _ => ?_, fun _ => ?_, ?_,
      fun hd => ?_⟩
    · show w.bufferedWriteBytes + payload.length = (unsent _).length
      rw [hunsent, List.length_append, h.buffered]
    · rcases List.mem_append.mp hx with hx | hx
      · exact h.offsets x hx
      · rw [List.mem_singleton.mp hx]
        exact List.length_pos_iff.mpr hne
    · obtain ⟨hlen, hahead, hfits, front, rest, heq, hid, hoff⟩ := h.held k hk
      exact ⟨hlen, hahead, hfits.append rfl rfl, front, rest ++ [_], by
        show w.writeSegments ++ [_] = _
        rw [heq]
        rfl, hid, hoff⟩
    · have hd := h.delivered hc
      exact ⟨hd.fits.append rfl rfl, hd.count, hd.ahead, hd.none⟩
    · show w.ahead ≤ (unsent _).length
      rw [hunsent, List.length_append]
      exact (h.within hlive).trans (Nat.le_add_right _ _)
    · refine ⟨?_, ?_⟩
      · show w.taken ++ payload = w.confirmed ++ unsent _
        rw [hunsent, htaken, List.append_assoc]
      · show w.written = w.confirmed ++ (unsent _).take w.ahead
        rw [hunsent, List.take_append_of_le_length (h.within hlive), hwritten]
    · exact h.sent.trans (List.prefix_append _ _)
    · rw [show w.discarded = true from hd] at hlive
      cases hlive

/-- A write is submitted from the first byte that the socket has not got. -/
theorem Ok.startWrite (h : w.Ok) (hs : w.startWrite s = some (w', err))
    (hahead : s = .taken → w.writeCompletionPending = false → w.ahead = 0) : w'.Ok := by
  unfold WriteHalf.startWrite at hs
  split at hs
  · cases hs
    exact h
  rename_i hfree
  obtain ⟨hpending, hcompleted⟩ := not_or.mp hfree
  have hnone := h.free (eq_false_of_ne_true hpending)
  split at hs
  · cases hs
    exact h
  rename_i front rest heq
  cases s with
  | noBuffers => cases hs
  | rejected e =>
    simp only at hs
    split at hs <;> cases hs
    refine { h with held := fun k hk => ?_, delivered := fun hc => absurd hc hcompleted }
    rw [show w.kernelWrite = some k from hk] at hnone
    cases hnone
  | taken =>
    cases hs
    refine { h with
      pending := rfl
      held := fun k hk => ?_
      once := fun _ => eq_false_of_ne_true hcompleted
      delivered := fun hc => absurd hc hcompleted }
    cases hk
    have hoff := h.offsets front (by rw [heq]; exact .head _)
    refine ⟨rfl, hahead rfl (eq_false_of_ne_true hcompleted), ⟨front, rest, heq, ?_⟩,
      front, rest, heq, rfl, rfl⟩
    show front.offset + min _ _ ≤ _
    omega

theorem Ok.observeTerminal {c : Completion} (h : w.Ok) (hs : w.observeTerminal c = some w') : w'.Ok := by
  obtain ⟨k, hk, hop⟩ := Option.bind_eq_some_iff.mp hs
  obtain ⟨op, hop, rfl⟩ := Option.map_eq_some_iff.mp hop
  obtain ⟨hlen, hahead, hfits, -⟩ := h.held k hk
  have hcount : op.bytesTransferred ≤ w.submittedWriteBytes ∧ (op.error ≠ 0 → op.bytesTransferred = 0) := by
    unfold Completion.operation at hop
    split at hop <;> split at hop <;> cases hop
    · rename_i n hn
      exact ⟨show n ≤ _ by omega, fun h => absurd rfl h⟩
    · exact ⟨Nat.zero_le _, fun _ => rfl⟩
  have hlive : w.discarded = false := by
    obtain ⟨front, rest, heq, -⟩ := hfits
    cases hd : w.discarded with
    | false => rfl
    | true =>
      rw [h.emptied hd] at heq
      cases heq
  have hwithin : op.bytesTransferred ≤ (unsent w.writeSegments).length := by
    obtain ⟨front, rest, heq, hroom⟩ := hfits
    rw [heq, unsent_cons, List.length_append, List.length_drop]
    omega
  obtain ⟨htaken, hwritten⟩ := h.stream hlive
  rw [hahead, List.take_zero, List.append_nil] at hwritten
  refine ⟨h.buffered, h.offsets, rfl, nofun, nofun, fun _ => ⟨hfits, hcount.1, rfl, hcount.2⟩,
    fun _ => hwithin, fun _ => ⟨htaken, ?_⟩, ?_, h.emptied⟩
  · show w.written ++ _ = _
    rw [hwritten]
  · show w.written ++ _ <+: w.taken
    rw [hwritten, htaken]
    exact (List.prefix_append_right_inj _).mpr (List.take_prefix _ _)

theorem Ok.consume (h : w.Ok) : w.consume.Ok :=
  { h with once := fun _ => rfl, delivered := nofun }

/-- What the first `n` bytes of the first segment leave. -/
theorem unsent_advance (front : WriteSegment) (rest : List WriteSegment)
    (hn : front.offset + n ≤ front.bytes.length) :
    unsent (if front.offset + n = front.bytes.length then rest
      else { front with offset := front.offset + n } :: rest) = (unsent (front :: rest)).drop n := by
  have hlen : n ≤ (front.bytes.drop front.offset).length := by
    rw [List.length_drop]
    omega
  rw [unsent_cons, List.drop_append_of_le_length hlen, List.drop_drop]
  split
  case isTrue heq =>
    rw [heq, List.drop_length]
    rfl
  case isFalse => rfl

/-- Nothing is left to count once a write is completed. -/
theorem Ok.completeWrite (h : w.Ok) (hd : w.Delivered) (hfree : w.writePending = false) :
    w.completeWrite.1.Ok ∧ w.completeWrite.1.ahead = 0 ∧
      w.completeWrite.1.discarded = w.discarded := by
  have hnone := h.free hfree
  obtain ⟨front, rest, heq, hroom⟩ := hd.fits
  have hlive : w.discarded = false := by
    cases hdis : w.discarded with
    | false => rfl
    | true =>
      rw [h.emptied hdis] at heq
      cases heq
  have hidle (w' : WriteHalf) (hw : w' = { w with
      writePending := false, writeCompletionPending := false, submittedWriteBytes := 0 })
      (hzero : w.writeOperation.bytesTransferred = 0) :
      w'.Ok ∧ w'.ahead = 0 ∧ w'.discarded = w.discarded := by
    subst hw
    refine ⟨{ h with pending := ?_, held := fun k hk => ?_, once := nofun, delivered := nofun },
      hd.ahead.trans hzero, rfl⟩
    · show false = w.kernelWrite.isSome
      rw [hnone]
      rfl
    · rw [show w.kernelWrite = some k from hk] at hnone
      cases hnone
  unfold WriteHalf.completeWrite
  simp only
  split
  case isTrue herr => exact hidle _ rfl (hd.none herr)
  case isFalse =>
    have hcount := hd.count
    have hlen : front.bytes.length - front.offset ≤ w.bufferedWriteBytes := by
      rw [h.buffered, heq, unsent_cons, List.length_append, List.length_drop]
      omega
    rw [heq]
    simp only
    split
    case isTrue hbad =>
      rcases hbad with hbad | hbad
      · exact hidle _ (by rw [heq]) hbad
      · omega
    case isFalse hgood =>
      rw [if_neg (by omega)]
      have hadvance := unsent_advance front rest (n := w.writeOperation.bytesTransferred) (by omega)
      obtain ⟨htaken, hwritten⟩ := h.stream hlive
      refine ⟨⟨?_, fun x hx => ?_, ?_, fun k hk => ?_, nofun, nofun,
        fun _ => Nat.zero_le _, fun _ => ?_, h.sent,
        fun hdis => ?_⟩, rfl, rfl⟩
      · show w.bufferedWriteBytes - _ = (unsent _).length
        rw [hadvance, List.length_drop, h.buffered, heq]
      · have hoff := h.offsets front (by rw [heq]; exact .head _)
        replace hx : x ∈ (if _ = _ then _ else _) := hx
        split at hx
        · exact h.offsets x (by rw [heq]; exact .tail _ hx)
        · rcases List.mem_cons.mp hx with rfl | hx
          · show front.offset + _ < front.bytes.length
            omega
          · exact h.offsets x (by rw [heq]; exact .tail _ hx)
      · show false = w.kernelWrite.isSome
        rw [hnone]
        rfl
      · rw [show w.kernelWrite = some k from hk] at hnone
        cases hnone
      · refine ⟨?_, ?_⟩
        · show w.taken = (w.confirmed ++ _) ++ unsent _
          rw [hadvance, List.append_assoc, List.take_append_drop, htaken, heq]
        · show w.written = (w.confirmed ++ _) ++ List.take 0 _
          rw [List.take_zero, List.append_nil, hwritten, hd.ahead, heq]
      · rw [show w.discarded = true from hdis] at hlive
        cases hlive

theorem Ok.discardBufferedWrites (h : w.Ok) (hs : w.discardBufferedWrites = some (w', n))
    (hfree : w.writeCompletionPending = false) : w'.Ok ∧ n = w.bufferedWriteBytes := by
  unfold WriteHalf.discardBufferedWrites at hs
  split at hs
  case isTrue => cases hs
  case isFalse hpending =>
    cases hs
    have hnone := h.free (eq_false_of_ne_true hpending)
    refine ⟨⟨rfl, nofun, h.pending, fun k hk => ?_, h.once, fun hc => ?_,
      nofun, nofun, h.sent, fun _ => rfl⟩, rfl⟩
    · rw [show w.kernelWrite = some k from hk] at hnone
      cases hnone
    · rw [show w.writeCompletionPending = true from hc] at hfree
      cases hfree

end WriteHalf

/-! ## The transport -/

structure Transport where
  read : ReadHalf := {}
  write : WriteHalf := {}
  deriving DecidableEq, Repr

def Transport.hasPendingOperations (t : Transport) : Bool :=
  t.read.readPending || t.write.writePending || t.read.readCompletionPending ||
    t.write.writeCompletionPending

structure Transport.Ok (t : Transport) : Prop where
  read : t.read.Ok
  write : t.write.Ok

end GameNet.IocpTcpTransport
