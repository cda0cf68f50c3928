import GameNet.Iocp.Connection

/- Where a connection of the Windows build stands: connecting, serving with its channel in the loop, or
   leaving with its channel out of the loop and its socket closed. What the operation on top of the
   owner's stack relies on is kept beside it (`Conn.Guard`); the operations below rely on nothing. -/
namespace GameNet.IocpConnection
open TcpConnection (StateE CloseInfo CloseKind ReadSide Options)
open IocpTcpTransport (ReadHalf WriteHalf Submission)

/-! ## The connection -/

structure Conn.Fresh (c : Conn) : Prop where
  out : c.addedToLoop = false
  added : c.channelAdded = false
  begun : c.begun = false
  calm : c.forceClosePending = false
  opened : c.channelRemoved = false → c.closePhase = .opened
  input : c.input.inputBuffer = []

structure Conn.Serving (c : Conn) : Prop where
  added : c.channelAdded = true
  present : c.channelRemoved = false
  inLoop : c.addedToLoop = true
  calm : c.forceClosePending = false

structure Conn.Leaving (c : Conn) : Prop where
  state : c.state = .kDisconnecting ∨ c.state = .kDisconnected
  removed : c.channelRemoved = true
  out : c.addedToLoop = false
  reading : c.input.isReading = false
  writing : c.isWriting = false

def QueuedFunctor.isSend : QueuedFunctor → Bool
  | .send _ => true
  | _ => false

structure Core (o : Options) (c : Conn) : Prop where
  fresh : c.state = .kConnecting → c.Fresh
  serving : c.up = true → c.begun = false → c.Serving
  leaving : c.begun = true → c.Leaving
  gone : c.channelAdded = false ∨ c.channelRemoved = true → c.addedToLoop = false
  off : c.state = .kConnecting ∨ c.state = .kDisconnected → c.input.active = false
  /-- Backpressure pauses only above the low watermark. -/
  paused : c.input.active = true → c.input.readingEnabled = false →
    o.lowWaterMarkBytes < c.bufferedOutputBytesInLoop
  functors : ∀ f ∈ c.functors, f.isSend = false → c.state ≠ .kConnecting

/-! ## The stack -/

/-- The operations of a connection that has been connected. -/
def Op.onceUp : Op → Bool
  | .establish _ | .sendFunctor _ | .drained | .driveForce | .forceClose | .clearForce | .driveGraceful
  | .destroy => false
  | _ => true

/-- The operations that start an event or a call, or rely on what an earlier one has found out. Only
    the last one of them waits below others. -/
def Op.guarded : Op → Bool
  | .establish _ | .establishRead | .handleRead | .handleWrite | .drained | .sendFunctor _
  | .sendReserved _ | .sendStart _ _ | .closeChannel | .closeSocket | .finishClose | .destroy
  | .destroyDetach => true
  | _ => false

/-- What they rely on. -/
def Conn.Guard (o : Options) (c : Conn) : Option Op → Prop
  | some .establishRead => c.state = .kConnected ∧ c.remainingInputCapacity o ≠ 0
  | some .handleRead | some .handleWrite => c.up = true ∧ c.begun = false
  | some (.sendReserved _) | some (.sendStart _ _) => c.up = true
  | some .closeChannel => c.state = .kDisconnecting
  | some .closeSocket | some .finishClose => c.state = .kDisconnecting ∧ c.begun = true
  | some .destroyDetach => c.state = .kDisconnected
  | _ => True

/-- A close that has begun has closed the socket, or is about to. -/
def Conn.Shut (c : Conn) (q : Option Op) : Prop :=
  c.begun = true → q ≠ some .closeSocket → c.socketClosed = true

structure Stack (o : Options) (c : Conn) (l : List Op) : Prop where
  onceUp : ∀ q ∈ l, q.onceUp = true → c.state ≠ .kConnecting
  guard : c.Guard o l.head?
  shut : c.Shut l.head?
  below : ∀ q ∈ l.tail, q.guarded = true → q = .destroyDetach
  ended : .destroyDetach ∈ l → c.state = .kDisconnected
  detach : c.state = .kDisconnected → c.addedToLoop = true → .destroyDetach ∈ l

/-- What an operation makes of the connection, and what it puts on the stack. -/
structure Result (o : Options) (c : Conn) (op : Op) (c' : Conn) (news : List Op) : Prop where
  core : Core o c'
  onward : c.state ≠ .kConnecting → c'.state ≠ .kConnecting
  concluded : c.state = .kDisconnected → c'.state = .kDisconnected
  onceUp : news.all (fun q => !q.onceUp) = true ∨ c'.state ≠ .kConnecting
  guard : c'.Guard o news.head?
  shut : c.Shut (some op) → c'.Shut news.head?
  below : ∀ q ∈ news.tail, q.guarded = true → q = .destroyDetach
  ended : .destroyDetach ∈ news → c'.state = .kDisconnected
  detach : c'.state = .kDisconnected → c'.addedToLoop = true →
    .destroyDetach ∈ news ∨ c.state = .kDisconnected ∧ c.addedToLoop = true ∧ op ≠ .destroyDetach

/-- What leaves the connection where it stands. -/
structure Same (o : Options) (c c' : Conn) : Prop where
  state : c'.state = c.state
  closePhase : c'.closePhase = c.closePhase
  channelAdded : c'.channelAdded = c.channelAdded
  channelRemoved : c'.channelRemoved = c.channelRemoved
  addedToLoop : c'.addedToLoop = c.addedToLoop
  begun : c'.begun = c.begun
  forceClosePending : c'.forceClosePending = c.forceClosePending
  isWriting : c.begun = true → c'.isWriting = c.isWriting
  isReading : c.begun = true → c'.input.isReading = c.input.isReading
  active : c'.input.active = c.input.active
  paused : c.input.active = true → c'.input.readingEnabled = false →
    o.lowWaterMarkBytes < c'.bufferedOutputBytesInLoop ∨
      c.input.readingEnabled = false ∧ c.bufferedOutputBytesInLoop ≤ c'.bufferedOutputBytesInLoop
  inputBuffer : c.state = .kConnecting → c'.input.inputBuffer = c.input.inputBuffer
  functors : ∀ f ∈ c'.functors, f ∈ c.functors ∨ f.isSend = true ∨ c.state ≠ .kConnecting

section
variable {o : Options} {c c' : Conn} {op : Op} {env : Env} {news rest l : List Op}

theorem up_iff : c.up = true ↔ c.state = .kConnected ∨ c.state = .kDisconnecting := by
  simp [Conn.up]

theorem Core.same (h : Core o c) (hs : Same o c c') : Core o c' where
  fresh := fun hstate => by
    rw [hs.state] at hstate
    obtain ⟨hout, hadded, hbegun, hcalm, hopened, hinput⟩ := h.fresh hstate
    exact ⟨hs.addedToLoop.trans hout, hs.channelAdded.trans hadded, hs.begun.trans hbegun,
      hs.forceClosePending.trans hcalm,
      fun hr => hs.closePhase.trans (hopened (hs.channelRemoved ▸ hr)), (hs.inputBuffer hstate).trans hinput⟩
  serving := fun hup hbegun => by
    rw [Conn.up, hs.state] at hup
    obtain ⟨hadded, hpresent, hin, hcalm⟩ := h.serving hup (hs.begun ▸ hbegun)
    exact ⟨hs.channelAdded.trans hadded, hs.channelRemoved.trans hpresent, hs.addedToLoop.trans hin,
      hs.forceClosePending.trans hcalm⟩
  leaving := fun hbegun => by
    rw [hs.begun] at hbegun
    obtain ⟨hstate, hremoved, hout, hreading, hwriting⟩ := h.leaving hbegun
    exact ⟨by rw [hs.state]; exact hstate, hs.channelRemoved.trans hremoved, hs.addedToLoop.trans hout,
      (hs.isReading hbegun).trans hreading, (hs.isWriting hbegun).trans hwriting⟩
  gone := by
    rw [hs.channelAdded, hs.channelRemoved, hs.addedToLoop]
    exact h.gone
  off := by
    rw [hs.state, hs.active]
    exact h.off
  paused := fun hactive hpaused => by
    rw [hs.active] at hactive
    rcases hs.paused hactive hpaused with hlow | ⟨hold, hle⟩
    · exact hlow
    · exact (h.paused hactive hold).trans_le hle
  functors := fun f hf hn => by
    rw [hs.state]
    rcases hs.functors f hf with hf | hf | hf
    · exact h.functors f hf hn
    · rw [hf] at hn
      cases hn
    · exact hf

theorem ended_of_plain (hguard : c'.Guard o news.head?)
    (hbelow : news.tail.all (fun q => !q.guarded) = true) (hmem : .destroyDetach ∈ news) :
    c'.state = .kDisconnected := by
  cases news with
  | nil => cases hmem
  | cons q tail =>
    rcases List.mem_cons.mp hmem with rfl | htail
    · exact hguard
    · have := List.all_eq_true.mp hbelow _ htail
      cases this

theorem Same.shut {q p : Option Op} (hs : Same o c c') (h : c.Shut q) (hq : q ≠ some .closeSocket) :
    c'.Shut p := fun hbegun _ => by
  rw [Conn.socketClosed, hs.closePhase]
  exact h (hs.begun ▸ hbegun) hq

theorem Core.plain (h : Core o c) (hs : Same o c c')
    (hnews : c.state ≠ .kConnecting ∨ news.all (fun q => !q.onceUp) = true)
    (hguard : c'.Guard o news.head?) (hbelow : news.tail.all (fun q => !q.guarded) = true)
    (hop : op ≠ .destroyDetach ∧ op ≠ .closeSocket) : Result o c op c' news where
  core := h.same hs
  onward := fun hstate => by rw [hs.state]; exact hstate
  concluded := fun hstate => by rw [hs.state]; exact hstate
  onceUp := hnews.elim (fun hu => .inr (by rw [hs.state]; exact hu)) .inl
  guard := hguard
  shut := fun hh => hs.shut hh (fun hq => hop.2 (Option.some.inj hq))
  below := fun q hq hg => by
    have hplain := List.all_eq_true.mp hbelow q hq
    rw [hg] at hplain
    cases hplain
  ended := ended_of_plain hguard hbelow
  detach := fun hstate hin => .inr ⟨hs.state ▸ hstate, hs.addedToLoop ▸ hin, hop.1⟩

/-! ## The operations that leave the connection where it stands -/

theorem Same.refl : Same o c c where
  state := rfl
  closePhase := rfl
  channelAdded := rfl
  channelRemoved := rfl
  addedToLoop := rfl
  begun := rfl
  forceClosePending := rfl
  isWriting := fun _ => rfl
  isReading := fun _ => rfl
  active := rfl
  paused := fun _ h => .inr ⟨h, le_rfl⟩
  inputBuffer := fun _ => rfl
  functors := fun _ h => .inl h

theorem Same.trans {d : Conn} (h : Same o c c') (h' : Same o c' d) : Same o c d where
  state := h'.state.trans h.state
  closePhase := h'.closePhase.trans h.closePhase
  channelAdded := h'.channelAdded.trans h.channelAdded
  channelRemoved := h'.channelRemoved.trans h.channelRemoved
  addedToLoop := h'.addedToLoop.trans h.addedToLoop
  begun := h'.begun.trans h.begun
  forceClosePending := h'.forceClosePending.trans h.forceClosePending
  isWriting := fun hb => (h'.isWriting (h.begun.trans hb)).trans (h.isWriting hb)
  isReading := fun hb => (h'.isReading (h.begun.trans hb)).trans (h.isReading hb)
  active := h'.active.trans h.active
  paused := fun hactive hp => by
    rcases h'.paused (h.active.trans hactive) hp with hlow | ⟨hp', hle'⟩
    · exact .inl hlow
    · rcases h.paused hactive hp' with hlow | ⟨hp, hle⟩
      · exact .inl (hlow.trans_le hle')
      · exact .inr ⟨hp, hle.trans hle'⟩
  inputBuffer := fun hc => (h'.inputBuffer (h.state.trans hc)).trans (h.inputBuffer hc)
  functors := fun f hf => by
    rcases h'.functors f hf with hf | hf | hf
    · exact h.functors f hf
    · exact .inr (.inl hf)
    · exact .inr (.inr (by rw [← h.state]; exact hf))

theorem Same.publish (info : CloseInfo) : Same o c (c.publish info) := { Same.refl with }

theorem Same.transport {t : IocpTcpTransport.Transport} {r w : Option Nat}
    (h : c.bufferedOutputBytesInLoop ≤ t.write.bufferedWriteBytes) :
    Same o c { c with transport := t, readObserver := r, writeObserver := w } :=
  { Same.refl (o := o) (c := c) with paused := fun _ hp => .inr ⟨hp, h⟩ }

theorem Same.writing (h : c.begun = false) (b : Bool) : Same o c { c with isWriting := b } :=
  { Same.refl (o := o) (c := c) with isWriting := fun hb => by rw [h] at hb; cases hb }

variable {err : Nat}

theorem startRead_same {s : Submission} (h : c.startRead o s = some (c', err)) :
    Same o c c' ∧ c'.fatal = c.fatal := by
  unfold Conn.startRead at h
  split at h
  · cases h
  · obtain ⟨r, -, hr⟩ := Option.map_eq_some_iff.mp h
    cases hr
    exact ⟨.transport le_rfl, rfl⟩

theorem WriteHalf.startWrite_buffered {w w' : WriteHalf} {s : Submission}
    (h : w.startWrite s = some (w', err)) : w'.bufferedWriteBytes = w.bufferedWriteBytes := by
  unfold IocpTcpTransport.WriteHalf.startWrite at h
  split at h
  · cases h
    rfl
  · split at h
    · cases h
      rfl
    · split at h
      · cases h
      · split at h <;> cases h
        rfl
      · cases h
        rfl

theorem startWrite_same {s : Submission} (h : c.startWrite s = some (c', err)) :
    Same o c c' ∧ c'.fatal = c.fatal := by
  unfold Conn.startWrite at h
  split at h
  · cases h
  · obtain ⟨r, hw, hr⟩ := Option.map_eq_some_iff.mp h
    cases hr
    have hbuffered := WriteHalf.startWrite_buffered hw
    exact ⟨.transport hbuffered.ge, rfl⟩

/-- A channel in the loop takes a change of interest; one that has left it has none to give up. -/
theorem Core.disableWriting_same (h : Core o c) (hup : c.up = true) : Same o c c.disableWriting := by
  unfold Conn.disableWriting
  split
  case isFalse => exact .refl
  case isTrue hwriting =>
    rcases Bool.eq_false_or_eq_true c.begun with hbegun | hbegun
    · rw [(h.leaving hbegun).writing] at hwriting
      cases hwriting
    · rw [Conn.updateChannel, if_pos (h.serving hup hbegun).inLoop]
      exact .writing hbegun false

/-- Asking a removed channel to write ends the process. -/
theorem Core.enableWriting_same (h : Core o c) (hup : c.up = true)
    (hshut : c.begun = true → c.socketClosed = true)
    (hfatal : c.enableWriting.fatal = none) : Same o c c.enableWriting := by
  unfold Conn.enableWriting at hfatal ⊢
  split
  case isTrue => exact .refl
  case isFalse hwriting =>
    rw [if_neg hwriting] at hfatal
    rcases Bool.eq_false_or_eq_true c.begun with hbegun | hbegun
    · have hclosed : Conn.socketClosed { c with isWriting := true } = true := hshut hbegun
      rw [Conn.updateChannel, if_neg (by rw [(h.leaving hbegun).out]; exact Bool.false_ne_true),
        if_pos hclosed] at hfatal
      cases hfatal
    · rw [Conn.updateChannel, if_pos (h.serving hup hbegun).inLoop]
      exact .writing hbegun true

theorem apply_inputBuffer (r : ReadSide) (n : Nat) : (r.apply o n).inputBuffer = r.inputBuffer := by
  unfold ReadSide.apply
  repeat' split
  all_goals rfl

variable {r : ReadSide} {n : Nat}

/-- Reading that is off after a decision is off for the number of bytes it was made on. -/
theorem apply_paused (hactive : r.active = true)
    (h : (r.apply o n).readingEnabled = false) : o.lowWaterMarkBytes < n := by
  have hmarks := o.low_lt_high
  unfold ReadSide.apply at h
  rw [if_neg (by rw [hactive]; exact Bool.noConfusion)] at h
  split at h
  case isTrue hhigh => omega
  case isFalse =>
    split at h
    case isTrue => cases h
    case isFalse hlow => exact not_le.mp (fun hle => hlow ⟨h, hle⟩)

/-- Reading stays paused above the low watermark. -/
theorem apply_stays
    (hpaused : r.active = true → r.readingEnabled = false → o.lowWaterMarkBytes < n) :
    ¬(r.readingEnabled = false ∧ (r.apply o n).readingEnabled = true) := by
  rintro ⟨hoff, hon⟩
  unfold ReadSide.apply at hon
  split at hon
  case isTrue => rw [hoff] at hon; cases hon
  case isFalse hactive =>
    rw [if_neg (fun hh => by rw [hoff] at hh; exact Bool.noConfusion hh.1)] at hon
    have hlow := hpaused (eq_true_of_ne_false hactive) hoff
    rw [if_neg (fun hh => by omega), hoff] at hon
    cases hon

theorem apply_silent (hsilent : r.isReading = false)
    (hpaused : r.active = true → r.readingEnabled = false → o.lowWaterMarkBytes < n) :
    (r.apply o n).isReading = false := by
  unfold ReadSide.apply
  split
  case isTrue => exact hsilent
  case isFalse hactive =>
    split
    case isTrue => rfl
    case isFalse =>
      split
      case isTrue hlow =>
        have := hpaused (eq_true_of_ne_false hactive) hlow.1
        omega
      case isFalse => exact hsilent

section Backpressure
variable {t : IocpTcpTransport.Transport}

theorem Core.more_paused (h : Core o c)
    (hmore : c.bufferedOutputBytesInLoop ≤ t.write.bufferedWriteBytes) (hactive : c.input.active = true)
    (hp : c.input.readingEnabled = false) : o.lowWaterMarkBytes < t.write.bufferedWriteBytes :=
  (h.paused hactive hp).trans_le hmore

/-- A close only adds to the bytes that are buffered, so that reading is not resumed after it. -/
theorem Core.changed_silent (h : Core o c) (hbegun : c.begun = true)
    (hmore : c.bufferedOutputBytesInLoop ≤ t.write.bufferedWriteBytes) :
    (c.input.apply o t.write.bufferedWriteBytes).isReading = false :=
  apply_silent (h.leaving hbegun).reading (h.more_paused hmore)

theorem Core.changed_eq (h : Core o c) (hup : c.up = true)
    (hmore : c.begun = true → c.bufferedOutputBytesInLoop ≤ t.write.bufferedWriteBytes) :
    Conn.onBufferedBytesChanged o { c with transport := t } =
      { c with transport := t, input := c.input.apply o t.write.bufferedWriteBytes } := by
  show (if (c.input.apply o t.write.bufferedWriteBytes).isReading = c.input.isReading then _ else _) = _
  split
  case isTrue => rfl
  case isFalse hchanged =>
    rcases Bool.eq_false_or_eq_true c.begun with hbegun | hbegun
    · refine absurd ?_ hchanged
      rw [h.changed_silent hbegun (hmore hbegun), (h.leaving hbegun).reading]
    · exact if_pos (h.serving hup hbegun).inLoop

theorem Core.changed_same (h : Core o c) (hup : c.up = true)
    (hmore : c.begun = true → c.bufferedOutputBytesInLoop ≤ t.write.bufferedWriteBytes) :
    Same o c (Conn.onBufferedBytesChanged o { c with transport := t }) := by
  rw [h.changed_eq hup hmore]
  exact { Same.refl (o := o) (c := c) with
    isReading := fun hbegun => by
      rw [(h.leaving hbegun).reading]
      exact h.changed_silent hbegun (hmore hbegun)
    active := ReadSide.apply_active _ _ _
    paused := fun hactive hp => .inl (apply_paused hactive hp)
    inputBuffer := fun _ => apply_inputBuffer _ _ }

end Backpressure

/-! ## Sending and reading -/

theorem up_of_ne (hc : c.state ≠ .kConnecting) (hd : c.state ≠ .kDisconnected) : c.up = true := by
  rw [up_iff]
  revert hc hd
  cases c.state <;> simp

theorem highWaterMarkOps_plain (d : Conn) (m n : Nat) : d.Guard o (highWaterMarkOps o m n).head? ∧
    (highWaterMarkOps o m n).tail.all (fun q => !q.guarded) = true := by
  unfold highWaterMarkOps
  split <;> exact ⟨trivial, rfl⟩

theorem inputLimit_result {next : Op} (h : Core o c) (hop : op.onceUp = true → c.state ≠ .kConnecting)
    (hu : op.onceUp = true) (hd : op ≠ .destroyDetach ∧ op ≠ .closeSocket)
    (he : c.inputLimit o next = (c', news))
    (hnext : c.Guard o (some next)) : Result o c op c' news := by
  unfold Conn.inputLimit at he
  split at he <;> cases he
  · exact h.plain (.publish _) (.inl (hop hu)) trivial rfl hd
  · exact h.plain .refl (.inl (hop hu)) hnext rfl hd

/-- A submission that fails is answered by `handleError`. -/
theorem errorOps_plain (d : Conn) (e : Nat) (l : List Op)
    (hl : d.Guard o l.head? ∧ l.tail.all (fun q => !q.guarded) = true) :
    d.Guard o (if e ≠ 0 then [.handleError e] else l).head? ∧
      (if e ≠ 0 then [.handleError e] else l).tail.all (fun q => !q.guarded) = true := by
  split
  · exact ⟨trivial, rfl⟩
  · exact hl

theorem startRead_result {s : Submission} {r : Conn × Nat} {l : List Op} (h : Core o c)
    (hop : op.onceUp = true → c.state ≠ .kConnecting) (hu : op.onceUp = true)
    (hd : op ≠ .destroyDetach ∧ op ≠ .closeSocket)
    (hl : ∀ c', Conn.Guard o c' l.head? ∧ l.tail.all (fun q => !q.guarded) = true)
    (hr : c.startRead o s = some r) :
    Result o c op r.1 (if r.2 ≠ 0 then [.handleError r.2] else l) :=
  have hplain := errorOps_plain r.1 r.2 l (hl r.1)
  h.plain (startRead_same hr).1 (.inl (hop hu)) hplain.1 hplain.2 hd

theorem enqueueWrite_buffered (w : WriteHalf) (data : List UInt8) :
    w.bufferedWriteBytes ≤ (w.enqueueWrite data).bufferedWriteBytes := by
  unfold IocpTcpTransport.WriteHalf.enqueueWrite
  split
  · exact le_rfl
  · exact Nat.le_add_right _ _

theorem completeWrite_refused {w : WriteHalf} (h : w.completeWrite.2 = .error err) :
    w.completeWrite.1.bufferedWriteBytes = w.bufferedWriteBytes := by
  unfold IocpTcpTransport.WriteHalf.completeWrite at h ⊢
  dsimp only at h ⊢
  split
  · rfl
  · rename_i herr
    rw [if_neg herr] at h
    split
    · rfl
    · rename_i heq
      rw [heq] at h
      dsimp only at h
      split
      · rfl
      · rename_i hcount
        rw [if_neg hcount] at h
        split
        · rfl
        · rename_i hroom
          rw [if_neg hroom] at h
          cases h

theorem transientOps_plain (d : Conn) (e : Nat) :
    d.Guard o (if isTransient e = true then [] else [Op.handleError e]).head? ∧
    (if isTransient e = true then [] else [Op.handleError e]).tail.all (fun q => !q.guarded) = true := by
  split <;> exact ⟨trivial, rfl⟩

/-- Reading into the input buffer of a connection that is up. -/
theorem Same.received {t : IocpTcpTransport.Transport} (hc : c.state ≠ .kConnecting)
    (ht : t.write = c.transport.write) (hactive : r.active = c.input.active)
    (henabled : r.readingEnabled = c.input.readingEnabled) (hreading : r.isReading = c.input.isReading) :
    Same o c { c with transport := t, input := r } :=
  { Same.refl (o := o) (c := c) with
    isReading := fun _ => hreading
    active := hactive
    paused := fun _ hp => .inr ⟨henabled ▸ hp, by
      show c.transport.write.bufferedWriteBytes ≤ t.write.bufferedWriteBytes
      rw [ht]⟩
    inputBuffer := fun hh => absurd hh hc }

theorem execTransfer_result (h : Core o c) (hop : op.onceUp = true → c.state ≠ .kConnecting)
    (hg : c.Guard o (some op)) (hshut : c.Shut (some op)) (he : execTransfer o c op env = some (c', news))
    (hfatal : c'.fatal = none) : Result o c op c' news := by
  have hd : op ≠ .destroyDetach ∧ op ≠ .closeSocket := by
    constructor <;> rintro rfl <;> cases env <;> cases he
  have hmarks := fun d m n => highWaterMarkOps_plain (o := o) d m n
  revert c' news
  fun_cases execTransfer o c op env
  all_goals intro c' news he hfatal
  all_goals first
    | (cases he; done)
    | (cases he; exact h.plain .refl (.inl (hop rfl)) trivial rfl hd)
    | (cases he; exact h.plain (.publish _) (.inl (hop rfl)) trivial rfl hd)
    | (cases he; exact h.plain (.received (hop rfl) rfl rfl rfl rfl) (.inl (hop rfl)) trivial rfl hd)
    | exact inputLimit_result h hop rfl hd (Option.some.inj he) trivial
    | (obtain ⟨r, hr, hres⟩ := Option.map_eq_some_iff.mp he
       cases hres
       exact startRead_result h hop rfl hd (fun _ => ⟨trivial, rfl⟩) hr)
    | (cases he
       exact h.plain { Same.refl (o := o) (c := c) with functors := fun _ _ => .inr (.inr (hop rfl)) }
        (.inl (hop rfl)) trivial rfl hd)
    | skip
  -- `sendFunctor` is not an operation of a connected connection, the send that it starts is
  · rename_i hup
    cases he
    refine h.plain .refl (.inl fun hh => ?_) hup rfl hd
    rw [Conn.up, hh] at hup
    cases hup
  · cases he
    exact h.plain .refl (.inr rfl) trivial rfl hd
  -- `sendReserved` never resumes reading
  · rename_i data _ _ _
    have hmore := enqueueWrite_buffered c.transport.write data
    have hs := h.changed_same (t := { c.transport with write := c.transport.write.enqueueWrite data }) hg
      (fun _ => hmore)
    have heq := h.changed_eq (t := { c.transport with write := c.transport.write.enqueueWrite data }) hg
      (fun _ => hmore)
    simp +zetaDelta only [Conn.applyBackpressureInLoop, Option.some.injEq, Prod.mk.injEq] at he
    obtain ⟨rfl, rfl⟩ := he
    rw [if_neg (by rw [heq]; exact apply_stays (h.more_paused hmore))]
    refine h.plain hs (.inl (hop rfl)) ?_ rfl hd
    show Conn.up _ = true
    rw [Conn.up, hs.state]
    exact hg
  -- `sendStart`
  · cases he
    exact h.plain .refl (.inl (hop rfl)) (hmarks _ _ _).1 (hmarks c _ _).2 hd
  · obtain ⟨r, hr, hres⟩ := Option.map_eq_some_iff.mp he
    have hs := (startWrite_same (o := o) hr).1
    split at hres <;> cases hres
    · exact h.plain hs (.inl (hop rfl)) trivial rfl hd
    · -- the channel is asked to write, also when nothing was submitted
      have hup : r.1.up = true := by
        rw [Conn.up, hs.state]
        exact hg
      have hw := (h.same hs).enableWriting_same hup
        (fun hb => hs.shut (p := none) hshut (by simp) hb (by simp)) hfatal
      exact h.plain (hs.trans hw) (.inl (hop rfl)) (hmarks _ _ _).1 (hmarks c _ _).2 hd
  -- `handleRead`
  · cases he
    exact h.plain (.transport le_rfl) (.inl (hop rfl)) (transientOps_plain _ _).1
      (transientOps_plain (o := o) c _).2 hd
  -- `handleWrite`
  · rename_i herr
    cases he
    exact h.plain (.transport (completeWrite_refused herr).ge) (.inl (hop rfl)) (transientOps_plain _ _).1
      (transientOps_plain (o := o) c _).2 hd
  · have hs := h.changed_same hg.1 (t := { c.transport with write := c.transport.write.completeWrite.1 })
      (fun hb => by rw [hg.2] at hb; cases hb)
    cases he
    refine h.plain hs (.inl (hop rfl)) ?_ ?_ hd
    · simp +zetaDelta only [Conn.applyBackpressureInLoop]
      split <;> trivial
    · simp +zetaDelta only [Conn.applyBackpressureInLoop]
      split <;> rfl
  -- `writeNext`
  · rename_i hopen _ _
    cases he
    exact h.plain (h.disableWriting_same (up_of_ne (hop rfl) hopen)) (.inl (hop rfl)) trivial rfl hd
  · obtain ⟨r, hr, hres⟩ := Option.map_eq_some_iff.mp he
    cases hres
    have hplain := errorOps_plain (o := o) r.1 r.2 [] ⟨trivial, rfl⟩
    exact h.plain (startWrite_same hr).1 (.inl (hop rfl)) hplain.1 hplain.2 hd

/-! ## Establishing and closing -/

theorem establish_eq (hcore : Core o c) (hstate : c.state = .kConnecting)
    (hpresent : c.channelRemoved = false) :
    c.establish o = { c with
      channelAdded := true, state := .kConnected, addedToLoop := true
      registrationGeneration := c.registrationGeneration + 1
      input := ReadSide.onConnectionEstablished o { c.input with isReading := true }
        c.bufferedOutputBytesInLoop } := by
  have hfresh := hcore.fresh hstate
  have hupdate : Conn.updateChannel { c with input := { c.input with isReading := true } } =
      { c with input := { c.input with isReading := true }, addedToLoop := true
               registrationGeneration := c.registrationGeneration + 1 } := by
    rw [Conn.updateChannel, if_neg (by rw [hfresh.out]; exact Bool.false_ne_true), if_neg]
    rw [Conn.socketClosed, hfresh.opened hpresent]
    exact Bool.false_ne_true
  unfold Conn.establish
  rw [hupdate]
  rfl

/-- The channel enters the loop and the connection is up, with an empty input buffer. -/
theorem establish_result (h : Core o c) (hstate : c.state = .kConnecting) (hpresent : c.channelRemoved = false)
    {b : Bool} : Result o c (.establish b) (c.establish o) [.establishRead] := by
  obtain ⟨hout, hadded, hbegun, hcalm, -, hinput⟩ := h.fresh hstate
  rw [establish_eq h hstate hpresent]
  refine {
    core := {
      fresh := nofun
      serving := fun _ _ => ⟨rfl, hpresent, rfl, hcalm⟩
      leaving := fun hh => by rw [show c.begun = true from hh] at hbegun; cases hbegun
      gone := ?_
      off := fun hh => by rcases hh with hh | hh <;> cases hh
      paused := fun _ hp => apply_paused rfl hp
      functors := fun _ _ _ hh => by cases hh }
    onward := fun _ hh => by cases hh
    concluded := fun hh => by rw [hstate] at hh; cases hh
    onceUp := .inr (fun hh => by cases hh)
    guard := ⟨rfl, ?_⟩
    shut := fun _ hh => by rw [show c.begun = true from hh] at hbegun; cases hbegun
    below := nofun
    ended := fun hm => by cases List.mem_singleton.mp hm
    detach := nofun }
  · rintro (hh | hh)
    · cases hh
    · rw [show c.channelRemoved = true from hh] at hpresent
      cases hpresent
  · have hempty : (ReadSide.onConnectionEstablished o { c.input with isReading := true }
        c.bufferedOutputBytesInLoop).inputBuffer = [] := (apply_inputBuffer _ _).trans hinput
    have hpos := o.input_pos
    show o.maxInputBufferBytes - List.length _ ≠ 0
    rw [hempty]
    simp only [List.length_nil]
    omega

/-- A registration that was refused leaves the connection connecting, and closed. -/
theorem refused_result (h : Core o c) (hstate : c.state = .kConnecting) {b : Bool} :
    Result o c (.establish b)
      { c with channelRemoved := true, closePhase := .closed, registrationGeneration := n } [] := by
  obtain ⟨hout, hadded, hbegun, hcalm, -, hinput⟩ := h.fresh hstate
  exact {
    core := {
      fresh := fun _ => ⟨hout, hadded, hbegun, hcalm, nofun, hinput⟩
      serving := fun hup _ => by
        rw [Conn.up, show c.state = _ from hstate] at hup
        cases hup
      leaving := fun hh => by rw [show c.begun = true from hh] at hbegun; cases hbegun
      gone := fun _ => hout
      off := h.off
      paused := h.paused
      functors := h.functors }
    onward := id
    concluded := id
    onceUp := .inl rfl
    guard := trivial
    shut := fun _ _ _ => rfl
    below := nofun
    ended := nofun
    detach := fun hh => by
      rw [show c.state = _ from hstate] at hh
      cases hh }

/-- A channel out of the loop that wants nothing. -/
structure Conn.Out (c : Conn) : Prop where
  removed : c.channelRemoved = true
  out : c.addedToLoop = false
  reading : c.input.isReading = false
  writing : c.isWriting = false

/-- Removing the channel changes nothing else. -/
structure Removal (c c' : Conn) : Prop where
  state : c'.state = c.state
  closePhase : c'.closePhase = c.closePhase
  begun : c'.begun = c.begun
  active : c'.input.active = c.input.active
  readingEnabled : c'.input.readingEnabled = c.input.readingEnabled
  inputBuffer : c'.input.inputBuffer = c.input.inputBuffer
  transport : c'.transport = c.transport
  functors : c'.functors = c.functors
  fatal : c'.fatal = c.fatal

theorem removeChannel_removal (c : Conn) : Removal c c.removeChannel := by
  unfold Conn.removeChannel
  split <;> exact ⟨rfl, rfl, rfl, rfl, rfl, rfl, rfl, rfl, rfl⟩

theorem removeChannel_out (h : c.channelAdded = false ∨ c.channelRemoved = true → c.Out) :
    c.removeChannel.Out := by
  unfold Conn.removeChannel
  split
  case isTrue hh => exact h hh
  case isFalse => exact ⟨rfl, rfl, rfl, rfl⟩

theorem disableAll_out (h : c.Out) : c.disableAll = c := by
  unfold Conn.disableAll
  rw [if_neg]
  rintro (hh | hh)
  · rw [h.reading] at hh
    cases hh
  · rw [h.writing] at hh
    cases hh

/-- The channel of a connection that is up is in the loop, or has left it for good. -/
theorem Core.out_of_up (h : Core o c) (hup : c.up = true)
    (hgone : c.channelAdded = false ∨ c.channelRemoved = true) : c.Out := by
  rcases Bool.eq_false_or_eq_true c.begun with hbegun | hbegun
  · have hl := h.leaving hbegun
    exact { hl with }
  · have hs := h.serving hup hbegun
    rcases hgone with hh | hh
    · rw [hs.added] at hh
      cases hh
    · rw [hs.present] at hh
      cases hh

/-- A close that has begun: the channel is out of the loop. -/
theorem leaving_core {d : Conn} (h : Core o c)
    (hstate : d.state = .kDisconnecting ∨ d.state = .kDisconnected ∧ d.input.active = false)
    (hbegun : d.begun = true) (hout : d.Out)
    (hactive : d.input.active = true → c.input.active = true)
    (henabled : d.input.active = true → d.input.readingEnabled = c.input.readingEnabled)
    (hbuffered : d.input.active = true → d.bufferedOutputBytesInLoop = c.bufferedOutputBytesInLoop) :
    Core o d where
  fresh := fun hh => by
    rcases hstate with hs | ⟨hs, -⟩ <;> rw [hs] at hh <;> cases hh
  serving := fun _ hh => by
    rw [hbegun] at hh
    cases hh
  leaving := fun _ => { hout with state := hstate.imp id And.left }
  gone := fun _ => hout.out
  off := fun hh => by
    rcases hstate with hs | ⟨-, hoff⟩
    · rw [hs] at hh
      rcases hh with hh | hh <;> cases hh
    · exact hoff
  paused := fun ha hp => by
    rw [hbuffered ha]
    exact h.paused (hactive ha) ((henabled ha).symm.trans hp)
  functors := fun _ _ _ hh => by
    rcases hstate with hs | ⟨hs, -⟩ <;> rw [hs] at hh <;> cases hh

theorem ne_down_of_up (hup : c.up = true) : c.state ≠ .kDisconnected := fun hh => by
  rw [Conn.up, hh] at hup
  cases hup

/-- A connection that is up disconnects: it serves until the close removes its channel. -/
theorem Core.disconnecting (h : Core o c) (hup : c.up = true) : Core o { c with state := .kDisconnecting } where
  fresh := nofun
  serving := fun _ hb => { h.serving hup hb with }
  leaving := fun hb => { h.leaving hb with state := .inl rfl }
  gone := h.gone
  off := fun hh => by rcases hh with hh | hh <;> cases hh
  paused := h.paused
  functors := fun _ _ _ hh => by cases hh

/-- Nothing of a connection that disconnects is left to its old state. -/
theorem disconnecting_result (hup : c.up = true) (hcore : Core o c') (hstate : c'.state = .kDisconnecting)
    (hguard : c'.Guard o news.head?) (hshut : c.Shut (some op) → c'.Shut news.head?)
    (hnews : news.tail = [] ∧ .destroyDetach ∉ news) : Result o c op c' news where
  core := hcore
  onward := fun _ hh => by rw [hstate] at hh; cases hh
  concluded := fun hh => absurd hh (ne_down_of_up hup)
  onceUp := .inr (fun hh => by rw [hstate] at hh; cases hh)
  guard := hguard
  shut := hshut
  below := fun q hq => by rw [hnews.1] at hq; cases hq
  ended := fun hm => absurd hm hnews.2
  detach := fun hh => by rw [hstate] at hh; cases hh

theorem beginClose_socketClosed (c : Conn) : c.beginClose.socketClosed = c.socketClosed := by
  unfold Conn.beginClose
  split <;> cases hp : c.closePhase <;> simp [Conn.socketClosed, Conn.publish, hp]

theorem beginClose_result (h : Core o c) (hup : c.up = true) :
    Result o c .beginClose c.beginClose [.closeChannel] := by
  have hd := h.disconnecting hup
  have hcore : Core o c.beginClose := by
    unfold Conn.beginClose
    split <;> exact { hd with
      fresh := nofun
      serving := fun hu hb => { hd.serving hu hb with }
      leaving := fun hb => { hd.leaving hb with } }
  refine disconnecting_result hup hcore rfl rfl (fun hshut hb _ => ?_) ⟨rfl, by simp⟩
  rw [beginClose_socketClosed]
  refine hshut (?_ : c.begun = true) (by simp)
  unfold Conn.beginClose at hb
  split at hb <;> exact hb

theorem Core.closeChannel_out (h : Core o c) (hup : c.up = true) : c.closeChannel.Out :=
  removeChannel_out (fun hgone => { h.out_of_up hup hgone with })

theorem closeChannel_result (h : Core o c) (hstate : c.state = .kDisconnecting) :
    Result o c .closeChannel c.closeChannel [.closeSocket] := by
  have hup := up_iff.mpr (.inr hstate)
  have hr : Removal _ c.closeChannel := removeChannel_removal _
  have hcore : Core o c.closeChannel := leaving_core h (.inl (hr.state.trans hstate)) hr.begun
    (h.closeChannel_out hup) (fun hh => hr.active.symm.trans hh) (fun _ => hr.readingEnabled)
    (fun _ => congrArg (fun t => t.write.bufferedWriteBytes) hr.transport)
  exact disconnecting_result hup hcore (hr.state.trans hstate) ⟨hr.state.trans hstate, hr.begun⟩
    (fun _ _ hq => absurd rfl hq) ⟨rfl, by simp⟩

/-- The channel of a close that has begun is out of the loop. -/
theorem Core.begun_out (h : Core o c) (hbegun : c.begun = true) : c.Out := { h.leaving hbegun with }

theorem closeSocket_result (h : Core o c) (hg : c.state = .kDisconnecting ∧ c.begun = true) :
    Result o c .closeSocket c.closeSocket.1 c.closeSocket.2 := by
  have hup := up_iff.mpr (.inr hg.1)
  have hcore : ∀ p, Core o { c with closePhase := p } := fun p =>
    leaving_core h (.inl hg.1) hg.2 { h.begun_out hg.2 with } id (fun _ => rfl) (fun _ => rfl)
  unfold Conn.closeSocket
  split
  · refine disconnecting_result hup (hcore _) hg.1 trivial (fun _ _ _ => ?_) ⟨rfl, by simp⟩
    by_cases hclosed : c.socketClosed = true
    · rw [if_pos hclosed]
      exact hclosed
    · rw [if_neg hclosed]
      rfl
  · rw [disableAll_out (h.begun_out hg.2)]
    exact disconnecting_result hup (hcore _) hg.1 hg (fun _ _ _ => rfl) ⟨rfl, by simp⟩

/-- Clearing the output changes the transport only. -/
structure Cleared (c c' : Conn) : Prop where
  state : c'.state = c.state
  closePhase : c'.closePhase = c.closePhase
  begun : c'.begun = c.begun
  channelAdded : c'.channelAdded = c.channelAdded
  channelRemoved : c'.channelRemoved = c.channelRemoved
  addedToLoop : c'.addedToLoop = c.addedToLoop
  isWriting : c'.isWriting = c.isWriting
  input : c'.input = c.input
  functors : c'.functors = c.functors

theorem clearBufferedOutput_cleared (c : Conn) : Cleared c c.clearBufferedOutput := by
  unfold Conn.clearBufferedOutput
  repeat' split
  all_goals exact ⟨rfl, rfl, rfl, rfl, rfl, rfl, rfl, rfl, rfl⟩

theorem Cleared.out (h : Cleared c c') (hout : c.Out) : c'.Out :=
  ⟨h.channelRemoved.trans hout.removed, h.addedToLoop.trans hout.out, by rw [h.input]; exact hout.reading,
    h.isWriting.trans hout.writing⟩

/-- The connection is ended: nothing of its input or its channel is left. -/
theorem finishClose_result (h : Core o c) (hbegun : c.begun = true) (hfatal : c.finishClose.fatal = none) :
    Result o c .finishClose c.finishClose [.user .disconnected, .user .closeInfo, .user .close] := by
  have hl := h.leaving hbegun
  unfold Conn.finishClose at hfatal ⊢
  split
  case h_1 hr => rw [hr] at hfatal; cases hfatal
  case h_2 r hr =>
    dsimp only
    generalize hd : ({ c with
      state := .kDisconnected, forceClosePending := false, input := c.input.onClosed
      transport := { c.transport with read := r } } : Conn) = d
    have hc := clearBufferedOutput_cleared d
    have hout : d.clearBufferedOutput.Out := hc.out (by subst hd; exact { hl with })
    rw [disableAll_out hout]
    have hstate : d.clearBufferedOutput.state = .kDisconnected := by rw [hc.state, ← hd]
    have hoff : d.clearBufferedOutput.input.active = false := by rw [hc.input, ← hd]; rfl
    have hb : d.clearBufferedOutput.begun = true := by rw [hc.begun, ← hd]; exact hbegun
    have hnever : d.clearBufferedOutput.input.active ≠ true := by rw [hoff]; exact Bool.false_ne_true
    refine ⟨leaving_core h (.inr ⟨hstate, hoff⟩) hb { hout with }
        (fun hh => absurd hh hnever) (fun hh => absurd hh hnever) (fun hh => absurd hh hnever),
      fun _ hh => ?_, fun _ => hstate, .inr (fun hh => ?_), trivial, fun _ _ _ => rfl, ?_,
      fun _ => hstate, fun _ hin => ?_⟩
    · rw [show _ = _ from hstate] at hh
      cases hh
    · rw [show _ = _ from hstate] at hh
      cases hh
    · intro q hq hg
      rcases List.mem_pair.mp hq with rfl | rfl <;> cases hg
    · rw [show _ = _ from hout.out] at hin
      cases hin

/-! ## Destroying -/

theorem destroy_result (h : Core o c) (he : execLifecycle o c .destroy env = some (c', news)) :
    Result o c .destroy c' news := by
  cases env
  case submit => cases he
  case post => cases he
  simp only [execLifecycle, Option.some.injEq, Prod.mk.injEq] at he
  obtain ⟨rfl, rfl⟩ := he
  have hc := clearBufferedOutput_cleared { c with input := c.input.onClosed }
  have hoff : (Conn.clearBufferedOutput { c with input := c.input.onClosed }).input.active = false := by
    rw [hc.input]
    rfl
  refine {
    core := {
      fresh := nofun
      serving := fun hh _ => by cases hh
      leaving := fun hb => ?_
      gone := fun hg => ?_
      off := fun _ => hoff
      paused := fun ha _ => by rw [show _ = _ from hoff] at ha; cases ha
      functors := fun _ _ _ hh => by cases hh }
    onward := fun _ hh => by cases hh
    concluded := fun _ => rfl
    onceUp := .inr (fun hh => by cases hh)
    guard := ?_
    shut := fun hshut hb _ => ?_
    below := ?_
    ended := fun _ => rfl
    detach := fun _ _ => .inl ?_ }
  · have hl := h.leaving (hc.begun.symm.trans hb)
    refine ⟨.inr rfl, hc.channelRemoved.trans hl.removed, hc.addedToLoop.trans hl.out, ?_,
      hc.isWriting.trans hl.writing⟩
    rw [show _ = _ from hc.input]
    exact hl.reading
  · refine hc.addedToLoop.trans (h.gone ?_)
    rw [show _ = _ from hc.channelAdded, show _ = _ from hc.channelRemoved] at hg
    exact hg
  · split
    · trivial
    · rfl
  · rw [Conn.socketClosed, show _ = _ from hc.closePhase]
    exact hshut (hc.begun.symm.trans hb) (by simp)
  · intro q hq _
    split at hq
    · exact List.mem_singleton.mp hq
    · cases hq
  · split
    · exact .tail _ (List.mem_singleton.mpr rfl)
    · exact List.mem_singleton.mpr rfl

theorem destroyDetach_result (h : Core o c) (hstate : c.state = .kDisconnected)
    (he : execLifecycle o c .destroyDetach env = some (c', news)) : Result o c .destroyDetach c' news := by
  have hoff := h.off (.inr hstate)
  cases env <;> try cases he
  simp only [execLifecycle] at he
  -- the channel leaves the loop, if it was in it
  have key : c'.state = .kDisconnected ∧ c'.addedToLoop = false ∧ c'.input.active = false ∧ news = [] ∧
      (c'.begun = true → c'.Leaving) ∧ (c.Shut (some .destroyDetach) → c'.Shut none) := by
    split at he
    · cases he
      have hr := removeChannel_removal c
      refine ⟨hr.state.trans hstate, ?_, hr.active.trans hoff, rfl, fun hb => ?_, fun hshut hb _ => ?_⟩
      · unfold Conn.removeChannel
        split
        case isTrue hg => exact h.gone hg
        case isFalse => rfl
      · have hl := h.leaving (hr.begun.symm.trans hb)
        rw [Conn.removeChannel, if_pos (.inr hl.removed)]
        exact hl
      · rw [Conn.socketClosed, hr.closePhase]
        exact hshut (hr.begun.symm.trans hb) (by simp)
    · cases he
      rename_i hadded
      refine ⟨hstate, h.gone (.inl (eq_false_of_ne_true hadded)), hoff, rfl, fun hb => ?_, fun _ _ _ => rfl⟩
      have hl := h.leaving hb
      exact ⟨hl.state, rfl, hl.out, hl.reading, hl.writing⟩
  obtain ⟨hs, hout, hinactive, rfl, hleaving, hshut⟩ := key
  exact {
    core := {
      fresh := fun hh => by rw [hs] at hh; cases hh
      serving := fun hh => absurd hs (ne_down_of_up hh)
      leaving := hleaving
      gone := fun _ => hout
      off := fun _ => hinactive
      paused := fun ha => by rw [hinactive] at ha; cases ha
      functors := fun _ _ _ hh => by rw [hs] at hh; cases hh }
    onward := fun _ hh => by rw [hs] at hh; cases hh
    concluded := fun _ => hs
    onceUp := .inl rfl
    guard := trivial
    shut := hshut
    below := nofun
    ended := nofun
    detach := fun _ hin => by rw [hout] at hin; cases hin }

theorem execLifecycle_result (h : Core o c) (hop : op.onceUp = true → c.state ≠ .kConnecting)
    (hg : c.Guard o (some op)) (he : execLifecycle o c op env = some (c', news))
    (hfatal : c'.fatal = none) : Result o c op c' news := by
  rcases eq_or_ne op .destroyDetach with rfl | hdetach
  · exact destroyDetach_result h hg he
  rcases eq_or_ne op .closeSocket with rfl | hsocket
  · cases env <;> try cases he
    have hres := closeSocket_result h hg
    rw [Option.some.inj he] at hres
    exact hres
  have hd := And.intro hdetach hsocket
  revert c' news
  fun_cases execLifecycle o c op env
  all_goals intro c' news he hfatal
  all_goals first
    | (cases he; done)
    | (cases he; exact h.plain .refl (.inr rfl) trivial rfl hd)
    | (cases he; exact h.plain .refl (.inl (hop rfl)) trivial rfl hd)
    | (cases he; exact h.plain (.publish _) (.inl (hop rfl)) trivial rfl hd)
    | exact absurd rfl hdetach
    | exact absurd rfl hsocket
    | skip
  -- `establish`
  · rename_i hready
    cases he
    obtain ⟨hstate, hpresent⟩ := not_or.mp hready
    exact establish_result h (not_not.mp hstate) (eq_false_of_ne_true hpresent)
  · rename_i hready _
    cases he
    exact refused_result h (not_not.mp (not_or.mp hready).1)
  · obtain ⟨r, hr, hres⟩ := Option.map_eq_some_iff.mp he
    cases hres
    exact startRead_result h hop rfl hd (fun _ => ⟨trivial, rfl⟩) hr
  -- `drained` and `forceClose` go on with a connection that has been connected
  · rename_i hpending
    cases he
    refine h.plain .refl (.inl (fun hh => ?_)) trivial rfl hd
    rw [(h.fresh hh).calm] at hpending
    cases hpending.1
  · rename_i hup
    cases he
    refine h.plain .refl (.inl (fun hh => ?_)) trivial rfl hd
    rw [Conn.up, hh] at hup
    cases hup
  · cases he
    exact h.plain { Same.refl (o := o) (c := c) with } (.inr rfl) trivial rfl hd
  · rename_i hready
    cases he
    have hup := up_iff.mpr (.inl hready.2)
    exact disconnecting_result hup (h.disconnecting hup) rfl trivial
      (fun hshut hb _ => hshut hb (by simp)) ⟨rfl, by simp⟩
  -- closing
  · rename_i hopen
    cases he
    exact beginClose_result h (up_of_ne (hop rfl) hopen)
  · cases he
    exact closeChannel_result h hg
  · cases he
    exact finishClose_result h hg.2 hfatal
  · cases he
    refine h.plain { Same.refl (o := o) (c := c) with } (.inl (hop rfl)) ?_ ?_ hd
    · split <;> trivial
    · split <;> rfl
  · exact destroy_result h (show execLifecycle o c .destroy .nothing = _ from he)

theorem exec_cases {r : Conn × List Op} (he : exec o c op env = some r) :
    execTransfer o c op env = some r ∨ execLifecycle o c op env = some r := by
  unfold exec at he
  cases ht : execTransfer o c op env <;> rw [ht] at he
  · exact .inr he
  · exact .inl he

theorem exec_result (h : Core o c) (hstack : Stack o c (op :: rest))
    (he : exec o c op env = some (c', news)) (hfatal : c'.fatal = none) : Result o c op c' news :=
  have hop := hstack.onceUp op (.head _)
  (exec_cases he).elim (execTransfer_result h hop hstack.guard hstack.shut · hfatal)
    (execLifecycle_result h hop hstack.guard · hfatal)

theorem Stack.next (h : Stack o c (op :: rest)) (hr : Result o c op c' news) : Stack o c' (news ++ rest) where
  onceUp := fun q hq hu => by
    rcases List.mem_append.mp hq with hq | hq
    · rcases hr.onceUp with hearly | hstate
      · have hplain := List.all_eq_true.mp hearly q hq
        rw [hu] at hplain
        cases hplain
      · exact hstate
    · exact hr.onward (h.onceUp q (.tail _ hq) hu)
  guard := by
    cases news with
    | cons q tail => exact hr.guard
    | nil =>
      -- what was below is not guarded, or waits for an ended connection
      cases rest with
      | nil => trivial
      | cons q tail =>
        cases hq : q.guarded with
        | false => cases q <;> trivial
        | true =>
          have hd := h.below q (.head _) hq
          subst hd
          exact hr.concluded (h.ended (.tail _ (.head _)))
  shut := by
    cases news with
    | cons q tail => exact hr.shut h.shut
    | nil => exact fun hb _ => hr.shut h.shut hb (by simp)
  below := fun q hq hg => by
    cases news with
    | nil => exact h.below q (List.mem_of_mem_tail hq) hg
    | cons p tail =>
      rcases List.mem_append.mp hq with hq | hq
      · exact hr.below q hq hg
      · exact h.below q hq hg
  ended := fun hm => by
    rcases List.mem_append.mp hm with hm | hm
    · exact hr.ended hm
    · exact hr.concluded (h.ended (.tail _ hm))
  detach := fun hstate hin => by
    rcases hr.detach hstate hin with hm | ⟨hs, hl, hne⟩
    · exact List.mem_append_left _ hm
    · rcases List.mem_cons.mp (h.detach hs hl) with heq | hm
      · exact absurd heq.symm hne
      · exact List.mem_append_right _ hm

end

/-! ## Steps -/

/-- Everything that a step can do. -/
inductive Move (o : Options) (s : State) : Label → State → Prop where
  | post (data : List UInt8) :
      Move o s (.post data) { s with conn := { s.conn with functors := s.conn.functors ++ [.send data] } }
  | request (kind : CloseKind) : Move o s (.request kind) { s with conn := s.conn.request kind }
  | dequeue {kind : OperationKind} {result : IocpTcpTransport.Completion} {c : Conn} (hrest : s.owner = [])
      (h : s.conn.dequeue result kind = some c) : Move o s (.dequeue kind result) { s with conn := c }
  | event {e : Event} {r : Conn × List Op} (hrest : s.owner = []) (h : s.conn.start e = some r) :
      Move o s (.event e) (s.push r.1 r.2 [])
  | own {env : Env} {op : Op} {rest : List Op} {r : Conn × List Op} (hl : s.owner = op :: rest)
      (h : exec o s.conn op env = some r) : Move o s (.own env) (s.push r.1 r.2 rest)
  | ownSend {data : List UInt8} (hu : userRuns s.owner = true) (hstate : s.conn.state = .kConnected)
      (hsealed : s.conn.admissionSealed = false) :
      Move o s (.ownSend data) (s.push s.conn [.sendReserved data] s.owner)
  | ownClose {kind : CloseKind} (hu : userRuns s.owner = true) (hstate : s.conn.state ≠ .kDisconnected) :
      Move o s (.ownClose kind) (s.push (s.conn.request kind) [.driveForce] s.owner)
  | ownDestroy (hu : userRuns s.owner = true) : Move o s .ownDestroy (s.push s.conn [.destroy] s.owner)
  | retrieve {n : Nat} {b : Bool} {rest : List Op} (hl : s.owner = .user (.message b) :: rest) :
      Move o s (.retrieve n) { s with conn := { s.conn with input := s.conn.input.retrieve n } }
  | ret {threw : Bool} {source : CallbackSource} {rest : List Op} (hl : s.owner = .user source :: rest) :
      Move o s (.ret threw) (s.push s.conn (source.next threw) rest)

theorem step_move {o : Options} {s s' : State} {l : Label} (h : step o s l = some s') :
    s.conn.fatal = none ∧ Move o s l s' := by
  unfold step at h
  split at h
  · cases h
  rename_i hfatal
  refine ⟨Option.not_isSome_iff_eq_none.mp hfatal, ?_⟩
  cases l with
  | post data =>
    dsimp only at h
    split at h <;> cases h
    exact .post data
  | request kind =>
    dsimp only at h
    split at h <;> cases h
    exact .request kind
  | dequeue kind result =>
    dsimp only at h
    split at h
    · obtain ⟨c, hc, rfl⟩ := Option.map_eq_some_iff.mp h
      exact .dequeue ‹_› hc
    · cases h
  | event e =>
    dsimp only at h
    split at h
    · obtain ⟨r, hr, rfl⟩ := Option.map_eq_some_iff.mp h
      exact .event ‹_› hr
    · cases h
  | own env =>
    dsimp only at h
    split at h
    · rename_i heq
      obtain ⟨r, hr, rfl⟩ := Option.map_eq_some_iff.mp h
      exact .own heq hr
    · cases h
  | ownSend data =>
    dsimp only at h
    split at h <;> cases h
    rename_i hc
    exact .ownSend hc.1 hc.2.2.1 hc.2.2.2
  | ownClose kind =>
    dsimp only at h
    split at h <;> cases h
    rename_i hc
    exact .ownClose hc.1 hc.2
  | ownDestroy =>
    dsimp only at h
    split at h <;> cases h
    exact .ownDestroy ‹_›
  | retrieve n =>
    dsimp only at h
    split at h <;> cases h
    exact .retrieve ‹_›
  | ret threw =>
    dsimp only at h
    split at h <;> cases h
    exact .ret ‹_›

/-- Where the connection stands, while the process runs. -/
structure Sound (o : Options) (s : State) : Prop where
  core : Core o s.conn
  stack : Stack o s.conn s.owner

section
variable {o : Options} {s s' : State} {l : Label}

theorem sound_init : Sound o {} where
  core := {
    fresh := fun _ => ⟨rfl, rfl, rfl, rfl, fun _ => rfl, rfl⟩
    serving := nofun
    leaving := nofun
    gone := fun _ => rfl
    off := fun _ => rfl
    paused := nofun
    functors := nofun }
  stack := ⟨nofun, trivial, nofun, nofun, nofun, nofun⟩

theorem push_owner {c : Conn} {news rest : List Op} (h : (s.push c news rest).conn.fatal = none) :
    (s.push c news rest).owner = news ++ rest := by
  have hc : c.fatal = none := h
  simp [State.push, hc]

/-- User code that runs is not inside another operation. -/
theorem userRuns_head {l : List Op} {op : Op} (h : userRuns l = true) (hop : ∀ source, op ≠ .user source) :
    l.head? ≠ some op := by
  cases l with
  | nil => nofun
  | cons q rest =>
    rintro hh
    cases hh
    cases op <;> first | exact absurd rfl (hop _) | cases h

theorem Stack.same {c c' : Conn} {l : List Op} (h : Stack o c l) (hs : Same o c c')
    (hcapacity : c'.Guard o l.head?) : Stack o c' l where
  onceUp := by rw [hs.state]; exact h.onceUp
  guard := hcapacity
  shut := by
    unfold Conn.Shut
    rw [Conn.socketClosed, hs.begun, hs.closePhase]
    exact h.shut
  below := h.below
  ended := by rw [hs.state]; exact h.ended
  detach := by rw [hs.state, hs.addedToLoop]; exact h.detach

/-- Outside of the input buffer, a guard reads what stays the same. -/
theorem Guard.same {c c' : Conn} {q : Option Op} (h : c.Guard o q) (hs : Same o c c')
    (hinput : c'.input.inputBuffer = c.input.inputBuffer) : c'.Guard o q := by
  unfold Conn.Guard at h ⊢
  split at h <;>
    simp only [Conn.up, Conn.remainingInputCapacity, hs.state, hs.begun, hinput] at h ⊢ <;> exact h

theorem Sound.same {c : Conn} (h : Sound o s) (hs : Same o s.conn c)
    (hinput : c.input.inputBuffer = s.conn.input.inputBuffer) : Sound o { s with conn := c } :=
  ⟨h.core.same hs, h.stack.same hs (Guard.same h.stack.guard hs hinput)⟩

/-- Code of the user calls the connection: the operation is put above a callback, or above nothing. -/
theorem Sound.call {c : Conn} {op : Op} (h : Sound o s) (hu : userRuns s.owner = true)
    (hs : Same o s.conn c) (hinput : c.input.inputBuffer = s.conn.input.inputBuffer)
    (hop : op.onceUp = true → s.conn.state ≠ .kConnecting) (hg : c.Guard o (some op))
    (hd : op ≠ .destroyDetach) (hfatal : (s.push c [op] s.owner).conn.fatal = none) :
    Sound o (s.push c [op] s.owner) := by
  have hstack := h.stack.same hs (Guard.same h.stack.guard hs hinput)
  refine ⟨h.core.same hs, ?_⟩
  rw [push_owner hfatal]
  show Stack o c (op :: s.owner)
  refine ⟨fun q hq hq' => ?_, hg, fun hb _ => hstack.shut hb (userRuns_head hu (by simp)),
    fun q hq hq' => ?_, fun hm => ?_, fun hstate hin => ?_⟩
  · rcases List.mem_cons.mp hq with rfl | hq
    · rw [hs.state]
      exact hop hq'
    · exact hstack.onceUp q hq hq'
  · change q ∈ s.owner at hq
    cases howner : s.owner with
    | nil => rw [howner] at hq; cases hq
    | cons p tail =>
      rw [howner] at hq hu
      rcases List.mem_cons.mp hq with rfl | hq
      · -- the callback itself
        cases q <;> first | exact absurd hu Bool.false_ne_true | exact absurd hq' Bool.false_ne_true
      · exact hstack.below q (by rw [howner]; exact hq) hq'
  · rcases List.mem_cons.mp hm with heq | hm
    · exact absurd heq.symm hd
    · exact hstack.ended hm
  · exact .tail _ (hstack.detach hstate hin)

theorem next_plain (threw : Bool) (source : CallbackSource) (c : Conn) :
    c.Guard o (source.next threw).head? ∧ ∀ q ∈ source.next threw, q.guarded = false := by
  cases source with
  | message b => cases threw <;> cases b <;> exact ⟨trivial, by decide⟩
  | _ => cases threw <;> exact ⟨trivial, by decide⟩

/-- A notice that is current belongs to a connection that serves. -/
theorem Sound.current {n : Notice} (h : Sound o s) (hrest : s.owner = []) (hc : s.conn.current n = true) :
    s.conn.up = true ∧ s.conn.begun = false := by
  have hin : s.conn.addedToLoop = true := (Bool.and_eq_true_iff.mp hc).1
  refine ⟨up_of_ne (fun hstate => ?_) (fun hstate => ?_), eq_false_of_ne_true (fun hbegun => ?_)⟩
  · rw [(h.core.fresh hstate).out] at hin
    cases hin
  · have hm := h.stack.detach hstate hin
    rw [hrest] at hm
    cases hm
  · rw [(h.core.leaving hbegun).out] at hin
    cases hin

variable {r : Conn × List Op}

/-- How an event starts. -/
inductive Started (c : Conn) : Event → Conn × List Op → Prop where
  | connectEstablished (b : Bool) : Started c (.connectEstablished b) (c, [.establish b])
  | connectDestroyed : Started c .connectDestroyed (c, [.destroy])
  | consume {n : Notice} {rest : List Notice} (h : c.notices = n :: rest) :
      Started c .consume (c.consume n rest)
  | lifecycle : Started c .lifecycle (c, [.driveForce])
  | functor {f : QueuedFunctor} {rest : List QueuedFunctor} (h : c.functors = f :: rest) :
      Started c .functor ({ c with functors := rest }, [f.op])

variable {c : Conn} {e : Event}

theorem start_started (h : c.start e = some r) : Started c e r := by
  unfold Conn.start at h
  split at h
  · cases h
    exact .connectEstablished _
  · cases h
    exact .connectDestroyed
  · split at h <;> cases h
    exact .consume ‹_›
  · split at h <;> cases h
    exact .lifecycle
  · split at h <;> cases h
    exact .functor ‹_›

/-- An event that starts leaves the connection where it stands. -/
theorem start_same (h : c.start e = some r) : Same o c r.1 ∧ r.1.input = c.input ∧ r.1.fatal = c.fatal := by
  cases start_started h with
  | consume hn =>
    unfold Conn.consume
    split <;> exact ⟨{ Same.refl (o := o) (c := c) with }, rfl, rfl⟩
  | functor hf =>
    exact ⟨{ Same.refl (o := o) (c := c) with
      functors := fun f hmem => .inl (by rw [hf]; exact .tail _ hmem) }, rfl, rfl⟩
  | _ => exact ⟨.refl, rfl, rfl⟩

/-- It starts one operation. -/
theorem Sound.start (h : Sound o s) (hrest : s.owner = []) (he : s.conn.start e = some r) :
    ∃ op, r.2 = [op] ∧ r.1.Guard o (some op) ∧ (op.onceUp = true → s.conn.state ≠ .kConnecting) ∧
      op ≠ .destroyDetach := by
  have hs := (start_same (o := o) he).1
  cases start_started he with
  | @functor f rest heq =>
    have hf := h.core.functors f (by rw [heq]; exact .head _)
    cases f with
    | send data => exact ⟨_, rfl, trivial, nofun, nofun⟩
    | _ => exact ⟨_, rfl, trivial, fun _ => hf rfl, nofun⟩
  | @consume n rest heq =>
    have hcurrent := h.current (n := n) hrest
    have hguard : s.conn.current n = true →
        (s.conn.consume n rest).1.up = true ∧ (s.conn.consume n rest).1.begun = false := fun hc => by
      rw [Conn.up, hs.state, hs.begun]
      exact hcurrent hc
    have hup : s.conn.current n = true → s.conn.state ≠ .kConnecting := fun hc hstate => by
      have := (hcurrent hc).1
      rw [Conn.up, hstate] at this
      cases this
    unfold Conn.consume at hguard ⊢
    split at hguard <;> dsimp only <;> split
    · exact ⟨_, rfl, hguard ‹_›, fun _ => hup ‹_›, nofun⟩
    · exact ⟨_, rfl, trivial, nofun, nofun⟩
    · exact ⟨_, rfl, hguard ‹_›, fun _ => hup ‹_›, nofun⟩
    · exact ⟨_, rfl, trivial, nofun, nofun⟩
  | _ => exact ⟨_, rfl, trivial, nofun, nofun⟩

theorem dequeue_same {c' : Conn} {kind : OperationKind} {result : IocpTcpTransport.Completion}
    (h : c.dequeue result kind = some c') : Same o c c' ∧ c'.input = c.input ∧ c'.fatal = c.fatal := by
  cases kind with
  | read =>
    obtain ⟨r, -, rfl⟩ := Option.map_eq_some_iff.mp h
    exact ⟨{ Same.refl (o := o) (c := c) with }, rfl, rfl⟩
  | write =>
    obtain ⟨w, hw, rfl⟩ := Option.map_eq_some_iff.mp h
    obtain ⟨k, -, hk⟩ := Option.bind_eq_some_iff.mp hw
    obtain ⟨op, -, rfl⟩ := Option.map_eq_some_iff.mp hk
    exact ⟨{ Same.refl (o := o) (c := c) with }, rfl, rfl⟩

theorem step_sound (h : Sound o s) (hs : step o s l = some s') (hfatal : s'.conn.fatal = none) :
    Sound o s' := by
  cases (step_move hs).2 with
  | post data =>
    refine h.same { Same.refl (o := o) (c := s.conn) with functors := fun f hf => ?_ } rfl
    rcases List.mem_append.mp hf with hf | hf
    · exact .inl hf
    · rw [List.mem_singleton.mp hf]
      exact .inr (.inl rfl)
  | request kind => exact h.same { Same.refl (o := o) (c := s.conn) with } rfl
  | dequeue hrest hd =>
    obtain ⟨hsame, hinput, -⟩ := dequeue_same (o := o) hd
    exact h.same hsame (by rw [hinput])
  | event hrest he =>
    obtain ⟨op, hnews, hg, hop, hd⟩ := h.start hrest he
    obtain ⟨hsame, hinput, -⟩ := start_same (o := o) he
    have hcall := h.call (by rw [hrest]; rfl) hsame (by rw [hinput]) hop hg hd hfatal
    rw [hrest] at hcall
    rw [hnews]
    exact hcall
  | own hl he =>
    have hstack := h.stack
    rw [hl] at hstack
    have hr := exec_result h.core hstack he hfatal
    refine ⟨hr.core, ?_⟩
    rw [push_owner hfatal]
    exact hstack.next hr
  | ownSend hu hstate =>
    refine h.call hu .refl rfl (fun _ hh => ?_) (up_iff.mpr (.inl hstate)) nofun hfatal
    rw [hstate] at hh
    cases hh
  | ownClose hu hstate =>
    exact h.call hu { Same.refl (o := o) (c := s.conn) with } rfl nofun trivial nofun hfatal
  | ownDestroy hu => exact h.call hu .refl rfl nofun trivial nofun hfatal
  | retrieve hl =>
    rename_i n b rest
    have hstate := h.stack.onceUp _ (by rw [hl]; exact .head _) rfl
    have hsame : Same o s.conn { s.conn with input := s.conn.input.retrieve n } :=
      .received (t := s.conn.transport) hstate rfl rfl rfl rfl
    exact ⟨h.core.same hsame, h.stack.same hsame (by rw [hl]; trivial)⟩
  | ret hl =>
    rename_i threw source rest
    have hstack := h.stack
    rw [hl] at hstack
    have hplain := next_plain (o := o) threw source s.conn
    refine ⟨h.core, ?_⟩
    rw [push_owner hfatal]
    refine hstack.next (h.core.plain .refl (.inl (hstack.onceUp _ (.head _) rfl)) hplain.1 ?_
      ⟨nofun, nofun⟩)
    exact List.all_eq_true.mpr (fun q hq => by rw [hplain.2 q (List.mem_of_mem_tail hq)]; rfl)

/-- Where the connection stands, in every run. -/
theorem reach_sound {C : State → Label → Prop} (h : Machine.Reach (· = {}) (step o) C s) :
    s.conn.fatal = none → Sound o s := by
  refine Machine.Reach.invariant (P := fun s => s.conn.fatal = none → Sound o s) ?_ ?_ h
  · rintro _ rfl _
    exact sound_init
  · intro s l s' hsound _ hstep hfatal
    exact step_sound (hsound (step_move hstep).1) hstep hfatal

end

end GameNet.IocpConnection
