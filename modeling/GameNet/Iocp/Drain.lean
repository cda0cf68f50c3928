import GameNet.Iocp.Owner

/- A connection of the Windows build that is closed while the kernel holds its buffers: what each
   operation of the owner loop keeps.

   A close that finds a read or a write with the kernel, or with its completion not consumed, waits: the
   socket is closed, the channel has left the loop, and the connection keeps itself alive
   (`forceCloseGuard_`). The consumer of the last completion ends it. The facts are kept apart:

   1. what is with the kernel (`Transport.Ok`), and which completions wait to be consumed (`Listed`);
   2. where the connection is idle, and how often it was ended (`Settled`);
   3. who continues a write (`Watched`): its completion is consumed by `handleWrite`, which finds the
      channel writing, so that no byte is sent twice or left out;
   4. who ends a close (`Draining`).

   They hold in every run in which a queued send does not start while the completion of a write waits
   behind a close that drains: `sendReservedInLoop` does not look at `forceClosePending_`, the write is
   not submitted, and the channel that has left the loop is asked to write. `connectDestroyed` is called
   where its owners call it: on a connection that was not established, or has been closed. -/
namespace GameNet.IocpConnection
open TcpConnection (StateE CloseInfo CloseKind ReadSide Options)
open IocpTcpTransport (ReadHalf WriteHalf Transport Submission Completion unsent)

/-! ## The facts -/

/-- A completion is dequeued and not consumed. -/
def completionPending (t : Transport) : OperationKind → Bool
  | .read => t.read.readCompletionPending
  | .write => t.write.writeCompletionPending

def Listed (c : Conn) : Prop :=
  ∀ k, (c.notices.map Notice.kind).count k = if completionPending c.transport k then 1 else 0

structure Settled (c : Conn) : Prop where
  live : c.state ≠ .kDisconnected → c.transport.write.discarded = false
  idle : c.state = .kConnecting ∨ c.state = .kDisconnected → c.transport.hasPendingOperations = false
  calm : c.state = .kDisconnected → c.forceClosePending = false
  finishes : c.finishes = if c.begun = true ∧ c.state = .kDisconnected then 1 else 0

structure Watched (c : Conn) (l : List Op) : Prop where
  submitted : c.up = true → c.begun = false → c.transport.write.writePending = true →
    c.writeObserver = some c.registrationGeneration
  noticed : c.up = true → c.begun = false → ∀ n ∈ c.notices, n.kind = .write →
    n.observer = some c.registrationGeneration
  writing : c.up = true → c.begun = false → c.transport.write.writePending = true ∨
    c.transport.write.writeCompletionPending = true ∨ .handleWrite ∈ l ∨ .writeNext ∈ l →
    c.isWriting = true
  ahead : c.state ≠ .kDisconnected → c.begun = false → c.transport.write.ahead ≠ 0 →
    c.transport.write.writeCompletionPending = true ∨ l.head? = some .handleWrite
  single : l.count .handleWrite + l.count .writeNext ≤ 1

/-- What a consumer finds: its operation has ended, and is not counted yet. -/
def Arrived (t : Transport) : Option Op → Prop
  | some .handleRead => t.read.readPending = false ∧ t.read.readCompletionPending = false
  | some .handleWrite => t.write.Delivered ∧ t.write.writePending = false ∧
      t.write.writeCompletionPending = false
  | _ => True

def Op.isSend : Op → Bool
  | .sendFunctor _ | .sendReserved _ | .sendStart _ _ => true
  | _ => false

/-- The operations that take a close up again. -/
def Op.resumes : Op → Bool
  | .drained | .beginClose | .closeChannel => true
  | _ => false

/-- A close that has begun is about to end, or waits for the kernel. -/
def Waits (c : Conn) (l : List Op) : Prop :=
  c.begun = true → c.state ≠ .kDisconnected →
    (l.head? = some .finishClose ∨ l.head? = some .closeSocket ∧ c.transport.hasPendingOperations = false) ∨
    c.forceClosePending = true ∧ c.forceCloseGuard = true ∧
      (c.transport.hasPendingOperations = true ∨ ∃ q, q.resumes = true ∧ l = [q])

structure Draining (c : Conn) (l : List Op) : Prop where
  /-- A send does not find the completion of a write behind a close. -/
  sends : ∀ q ∈ l.head?, q.isSend = true → c.up = true → c.begun = true →
    c.transport.write.writeCompletionPending = false
  destroys : l.head? = some .destroy → c.state = .kConnecting ∨ c.state = .kDisconnected
  finishing : l.head? = some .finishClose → c.transport.hasPendingOperations = false
  waits : Waits c l
  guard : c.forceCloseGuard = true → c.forceClosePending = true ∨ .user .close ∈ l ∨
    ∃ b, .finishEnd b ∈ l
  closing : (.user .close ∈ l ∨ ∃ b, .finishEnd b ∈ l) → c.state = .kDisconnected

structure Teardown (c : Conn) (l : List Op) : Prop where
  transport : c.transport.Ok
  listed : Listed c
  settled : Settled c
  watched : Watched c l
  arrived : Arrived c.transport l.head?
  draining : Draining c l

/-- The condition on the runs. -/
def Timely (s : State) : Label → Prop
  | .event .functor => s.conn.functors.head?.map QueuedFunctor.isSend = some true →
      ¬(s.conn.forceClosePending = true ∧ s.conn.transport.write.writeCompletionPending = true)
  | .event .connectDestroyed | .ownDestroy =>
    s.conn.state = .kConnecting ∨ s.conn.state = .kDisconnected
  | _ => True

instance (s : State) : (l : Label) → Decidable (Timely s l)
  | .event .functor => inferInstanceAs (Decidable (_ → ¬(_ ∧ _)))
  | .event .connectDestroyed | .ownDestroy => inferInstanceAs (Decidable (_ ∨ _))
  | .event (.connectEstablished _) | .event .consume | .event .lifecycle => .isTrue trivial
  | .post _ | .request _ | .dequeue _ _ | .own _ | .ownSend _ | .ownClose _ | .retrieve _
  | .ret _ => .isTrue trivial

section
variable {o : Options} {c c' : Conn} {op : Op} {env : Env} {news rest l : List Op}

/-! ## Operations that leave the facts as they are -/

/-- The operations whose start a fact depends on. -/
def Op.special : Op → Bool
  | .handleRead | .handleWrite | .writeNext | .sendFunctor _ | .sendReserved _ | .sendStart _ _
  | .finishClose | .finishEnd _ | .destroy | .user .close => true
  | _ => false

/-- The operations that hold the guard of a connection that was ended. -/
def Op.holds : Op → Bool
  | .finishEnd _ | .user .close => true
  | _ => false

/-- The operations that end a close. -/
def Op.closes : Op → Bool
  | .drained | .beginClose | .closeChannel | .closeSocket | .finishClose => true
  | _ => false

/-- What an operation leaves: it may submit or complete a read or a write, and a submission is made on
    a connection that serves only. -/
structure Moved (c c' : Conn) : Prop where
  state : c'.state = c.state
  begun : c'.begun = c.begun
  forceClosePending : c'.forceClosePending = c.forceClosePending
  forceCloseGuard : c'.forceCloseGuard = c.forceCloseGuard
  registrationGeneration : c'.registrationGeneration = c.registrationGeneration
  notices : c'.notices = c.notices
  finishes : c'.finishes = c.finishes
  transport : c'.transport.Ok
  completed : ∀ k, completionPending c'.transport k = completionPending c.transport k
  readPending : c'.transport.read.readPending = c.transport.read.readPending ∨
    c.up = true ∧ c.begun = false
  writePending : c'.transport.write.writePending = c.transport.write.writePending ∧
      c'.writeObserver = c.writeObserver ∨
    c.up = true ∧ c.begun = false ∧ c'.writeObserver = some c.registrationGeneration ∧
      c'.isWriting = true
  discarded : c'.transport.write.discarded = c.transport.write.discarded
  ahead : c'.transport.write.ahead = c.transport.write.ahead ∨ c'.transport.write.ahead = 0

theorem Moved.up (h : Moved c c') : c'.up = c.up := by rw [Conn.up, Conn.up, h.state]

theorem Moved.hasPending (h : Moved c c') (hs : c.up = false ∨ c.begun = true) :
    c'.transport.hasPendingOperations = c.transport.hasPendingOperations := by
  have hnot : ¬(c.up = true ∧ c.begun = false) := fun ⟨hup, hbegun⟩ => by
    rw [hup, hbegun] at hs
    rcases hs with hs | hs <;> cases hs
  have hr := h.readPending.resolve_right hnot
  have hw := (h.writePending.resolve_right (fun hh => hnot ⟨hh.1, hh.2.1⟩)).1
  have hrc : c'.transport.read.readCompletionPending = _ := h.completed .read
  have hwc : c'.transport.write.writeCompletionPending = _ := h.completed .write
  simp only [Transport.hasPendingOperations, hr, hw, hrc, hwc, completionPending]

theorem Moved.listed (h : Moved c c') (hl : Listed c) : Listed c' := fun k => by
  rw [h.notices, hl k, h.completed k]

theorem not_up_of_ends (h : c.state = .kConnecting ∨ c.state = .kDisconnected) : c.up = false := by
  rcases h with h | h <;> rw [Conn.up, h] <;> rfl

theorem Moved.settled (h : Moved c c') (hs : Settled c) : Settled c' where
  live := by rw [h.state, h.discarded]; exact hs.live
  idle := fun hstate => by
    rw [h.state] at hstate
    rw [h.hasPending (.inl (not_up_of_ends hstate))]
    exact hs.idle hstate
  calm := by rw [h.state, h.forceClosePending]; exact hs.calm
  finishes := by rw [h.finishes, h.begun, h.state]; exact hs.finishes

/-- The write interest after a step: given up only if nothing is left to write. -/
def KeepsWriting (c c' : Conn) (l' : List Op) : Prop :=
  c'.isWriting = c.isWriting ∨ c'.isWriting = true ∨
    c'.transport.write.writePending = false ∧ c'.transport.write.writeCompletionPending = false ∧
      .handleWrite ∉ l' ∧ .writeNext ∉ l'

/-- An operation that does not end a close leaves it waiting. -/
theorem Waits.moved {l' : List Op} (h : Waits c l) (hm : Moved c c') (hop : ∀ q ∈ l.head?, q.closes = false) :
    Waits c' l' := fun hbegun hstate => by
  rw [hm.begun] at hbegun
  rw [hm.forceClosePending, hm.forceCloseGuard, hm.hasPending (.inr hbegun)]
  rcases h hbegun (hm.state ▸ hstate) with (hh | hh) | ⟨hf, hg, hpending | ⟨q, hq, hl⟩⟩
  · cases hop _ hh
  · cases hop _ hh.1
  · exact .inr ⟨hf, hg, .inl hpending⟩
  · have hplain := hop q (by rw [hl]; rfl)
    cases q <;> simp_all [Op.resumes, Op.closes]

theorem Waits.next {l' : List Op} (h : Waits c (op :: rest)) (hm : Moved c c') (hop : op.closes = false) :
    Waits c' l' :=
  h.moved hm (fun q hq => by cases hq; exact hop)

/-- Where no operation is about to end it, a close that has begun is pending. -/
theorem Waits.pending (h : Waits c l) (hl : l.head? ≠ some .finishClose ∧ l.head? ≠ some .closeSocket)
    (hbegun : c.begun = true) (hopen : c.state ≠ .kDisconnected) : c.forceClosePending = true ∧
      c.forceCloseGuard = true ∧
        (c.transport.hasPendingOperations = true ∨ ∃ q, q.resumes = true ∧ l = [q]) := by
  rcases h hbegun hopen with (hh | ⟨hh, -⟩) | hh
  · exact absurd hh hl.1
  · exact absurd hh hl.2
  · exact hh

/-- The stacks before and after a step that no other fact depends on. -/
structure Plain (l l' : List Op) : Prop where
  head : ∀ q ∈ l'.head?, q ≠ .handleRead ∧ q ≠ .handleWrite ∧ q ≠ .finishClose ∧ q ≠ .destroy
  sends : ∀ q ∈ l'.head?, q.isSend = true → ∃ p ∈ l.head?, p.isSend = true
  writes : l'.count .handleWrite + l'.count .writeNext ≤ l.count .handleWrite + l.count .writeNext
  close : .user .close ∈ l' ↔ .user .close ∈ l
  finishEnd : ∀ b, .finishEnd b ∈ l' ↔ .finishEnd b ∈ l

section Plain
variable {l' : List Op} (hp : Plain l l')

include hp

theorem Plain.mem_writes (hm : .handleWrite ∈ l' ∨ .writeNext ∈ l') : .handleWrite ∈ l ∨ .writeNext ∈ l := by
  simp only [← List.count_pos_iff] at hm ⊢
  have := hp.writes
  omega

theorem Plain.watched (h : Watched c l) (hm : Moved c c') (hw : KeepsWriting c c' l')
    (ha : l.head? = some .handleWrite → c'.transport.write.ahead = 0) : Watched c' l' where
  submitted := fun hup hbegun hpending => by
    rw [hm.registrationGeneration]
    rcases hm.writePending with ⟨hsame, hobserver⟩ | ⟨-, -, hobserver, -⟩
    · rw [hobserver]
      exact h.submitted (hm.up ▸ hup) (hm.begun ▸ hbegun) (hsame ▸ hpending)
    · exact hobserver
  noticed := by
    rw [hm.up, hm.begun, hm.notices, hm.registrationGeneration]
    exact h.noticed
  writing := fun hup hbegun hbusy => by
    rcases hw with hsame | htrue | ⟨hp', hc', hh', hn'⟩
    · -- the interest is as before, and so is the reason for it
      rcases hm.writePending with ⟨hpending, -⟩ | ⟨-, -, -, htrue⟩
      · have hcompleted : c'.transport.write.writeCompletionPending = _ := hm.completed .write
        rw [hsame]
        rw [hpending, hcompleted] at hbusy
        exact h.writing (hm.up ▸ hup) (hm.begun ▸ hbegun) (hbusy.imp id (Or.imp id hp.mem_writes))
      · exact htrue
    · exact htrue
    · rw [hp', hc'] at hbusy
      rcases hbusy with hh | hh | hh | hh
      · cases hh
      · cases hh
      · exact absurd hh hh'
      · exact absurd hh hn'
  ahead := fun hstate hbegun hne => by
    have hcompleted : c'.transport.write.writeCompletionPending = _ := hm.completed .write
    rcases hm.ahead with hsame | hzero
    · rcases h.ahead (hm.state ▸ hstate) (hm.begun ▸ hbegun) (hsame ▸ hne) with hc | hh
      · exact .inl (hcompleted.trans hc)
      · exact absurd (ha hh) hne
    · exact absurd hzero hne
  single := hp.writes.trans h.single

theorem Plain.arrived (t : Transport) : Arrived t l'.head? := by
  cases hh : l'.head? with
  | none => trivial
  | some q =>
    obtain ⟨hr, hw, -⟩ := hp.head q hh
    cases q <;> trivial

theorem Plain.draining (h : Draining c l) (hm : Moved c c') (hwaits : Waits c' l') : Draining c' l' where
  sends := fun q hq hsend hup hbegun => by
    obtain ⟨p, hp', hsend'⟩ := hp.sends q hq hsend
    exact (hm.completed .write).trans (h.sends p hp' hsend' (hm.up ▸ hup) (hm.begun ▸ hbegun))
  destroys := fun hh => absurd rfl (hp.head _ hh).2.2.2
  finishing := fun hh => absurd rfl (hp.head _ hh).2.2.1
  waits := hwaits
  guard := fun hg => by
    rw [hm.forceClosePending, hp.close]
    simp only [hp.finishEnd]
    exact h.guard (hm.forceCloseGuard ▸ hg)
  closing := fun hc => by
    rw [hp.close] at hc
    simp only [hp.finishEnd] at hc
    rw [hm.state]
    exact h.closing hc

/-- Such a step keeps every fact. -/
theorem Plain.teardown (h : Teardown c l) (hm : Moved c c') (hwaits : Waits c' l')
    (hw : KeepsWriting c c' l') (ha : l.head? = some .handleWrite → c'.transport.write.ahead = 0) :
    Teardown c' l' where
  transport := hm.transport
  listed := hm.listed h.listed
  settled := hm.settled h.settled
  watched := hp.watched h.watched hm hw ha
  arrived := hp.arrived _
  draining := hp.draining h.draining hm hwaits

end Plain

theorem not_mem_of_plain {q : Op} (hq : q.special = true) (h : news.all (fun q => !q.special) = true) :
    q ∉ news := fun hm => by
  have hplain := List.all_eq_true.mp h q hm
  rw [hq] at hplain
  cases hplain

theorem top_of_plain {q : Op} (h : q.special = false) : q ≠ .handleRead ∧ q ≠ .handleWrite ∧
    q ≠ .finishClose ∧ q ≠ .destroy ∧ q.isSend = false := by
  cases q <;> simp_all [Op.special, Op.isSend]

theorem top_of_below {q : Op} (h : q.guarded = true → q = .destroyDetach) : q ≠ .handleRead ∧
    q ≠ .handleWrite ∧ q ≠ .finishClose ∧ q ≠ .destroy ∧ q.isSend = false := by
  cases q <;> simp_all [Op.guarded, Op.isSend]

/-- What stands on top after operations were put on others. -/
theorem head_plain (hnews : news.all (fun q => !q.special) = true)
    (hbelow : ∀ q ∈ rest.head?, q.guarded = true → q = .destroyDetach) :
    ∀ q ∈ (news ++ rest).head?, q ≠ .handleRead ∧ q ≠ .handleWrite ∧ q ≠ .finishClose ∧ q ≠ .destroy ∧
      q.isSend = false := fun q hq => by
  cases news with
  | cons p tail =>
    cases hq
    have hplain : (!q.special) = true := (Bool.and_eq_true_iff.mp hnews).1
    exact top_of_plain (by rw [← Bool.not_eq_true']; exact hplain)
  | nil => exact top_of_below (hbelow q hq)

/-- An operation is replaced by others. -/
theorem Plain.pop (hop : op.holds = false) (hnews : news.all (fun q => !q.special) = true)
    (hbelow : ∀ q ∈ rest, q.guarded = true → q = .destroyDetach) : Plain (op :: rest) (news ++ rest) where
  head := fun q hq =>
    have htop := head_plain hnews (fun q hq => hbelow q (List.mem_of_mem_head? hq)) q hq
    ⟨htop.1, htop.2.1, htop.2.2.1, htop.2.2.2.1⟩
  sends := fun q hq hsend => by
    rw [(head_plain hnews (fun q hq => hbelow q (List.mem_of_mem_head? hq)) q hq).2.2.2.2] at hsend
    cases hsend
  writes := by
    rw [List.count_append, List.count_append, List.count_eq_zero.mpr (not_mem_of_plain rfl hnews),
      List.count_eq_zero.mpr (not_mem_of_plain rfl hnews), Nat.zero_add, Nat.zero_add]
    exact Nat.add_le_add List.count_le_count_cons List.count_le_count_cons
  close := by
    rw [List.mem_append, List.mem_cons, or_iff_right (not_mem_of_plain rfl hnews), or_iff_right]
    rintro rfl
    cases hop
  finishEnd := fun b => by
    rw [List.mem_append, List.mem_cons, or_iff_right (not_mem_of_plain rfl hnews), or_iff_right]
    rintro rfl
    cases hop

/-- User code runs, and an operation is put above it. -/
theorem userRuns_closes (hu : userRuns l = true) : ∀ q ∈ l.head?, q.closes = false := fun q hq => by
  cases l with
  | nil => cases hq
  | cons p tail =>
    cases hq
    cases q <;> first | rfl | cases hu

/-! ## Reading, requests and errors -/

theorem Moved.refl (h : c.transport.Ok) : Moved c c where
  state := rfl
  begun := rfl
  forceClosePending := rfl
  forceCloseGuard := rfl
  registrationGeneration := rfl
  notices := rfl
  finishes := rfl
  transport := h
  completed := fun _ => rfl
  readPending := .inl rfl
  writePending := .inl ⟨rfl, rfl⟩
  discarded := rfl
  ahead := .inl rfl

/-- What at most submits or completes a read. -/
structure Kept (c c' : Conn) : Prop extends Moved c c' where
  isWriting : c'.isWriting = c.isWriting
  write : c'.transport.write = c.transport.write
  fatal : c'.fatal = c.fatal

theorem Kept.refl (h : c.transport.Ok) : Kept c c :=
  { Moved.refl h with isWriting := rfl, write := rfl, fatal := rfl }

/-- The read half is replaced. -/
theorem Kept.read {r : ReadHalf} {n : Option Nat} (h : c.transport.Ok) (hok : r.Ok)
    (hcompleted : r.readCompletionPending = c.transport.read.readCompletionPending)
    (hpending : r.readPending = c.transport.read.readPending ∨ c.up = true ∧ c.begun = false) :
    Kept c { c with transport := { c.transport with read := r }, readObserver := n } :=
  { Kept.refl h with
    transport := ⟨hok, h.write⟩
    completed := fun k => by
      cases k with
      | read => exact hcompleted
      | write => rfl
    readPending := hpending }

theorem startRead_flags {r r' : ReadHalf} {n err : Nat} {s : Submission}
    (h : r.startRead n s = some (r', err)) : r'.readCompletionPending = r.readCompletionPending ∧
      (s ≠ .taken → r'.readPending = r.readPending) := by
  unfold IocpTcpTransport.ReadHalf.startRead at h
  split at h
  · cases h
    exact ⟨rfl, fun _ => rfl⟩
  split at h
  · cases h
    exact ⟨rfl, fun _ => rfl⟩
  have hp := IocpTcpTransport.ReadHalf.provide_spec r (min IocpTcpTransport.kReadChunkBytes n)
  cases s with
  | noBuffers =>
    dsimp only at h
    split at h <;> cases h
    exact ⟨rfl, fun _ => rfl⟩
  | rejected e =>
    dsimp only at h
    split at h <;> cases h
    exact ⟨hp.2.2.1, fun _ => hp.2.1⟩
  | taken =>
    cases h
    exact ⟨hp.2.2.1, fun hh => absurd rfl hh⟩

/-- A closed socket takes no read. -/
theorem startRead_kept {s : Submission} {err : Nat} (h : c.begun = true → c.socketClosed = true)
    (hup : c.up = true) (hok : c.transport.Ok) (hs : c.startRead o s = some (c', err)) : Kept c c' := by
  unfold Conn.startRead at hs
  split at hs
  · cases hs
  rename_i htaken
  obtain ⟨r, hr, hres⟩ := Option.map_eq_some_iff.mp hs
  cases hres
  obtain ⟨hcompleted, hpending⟩ := startRead_flags hr
  refine .read hok (hok.read.startRead hr) hcompleted ?_
  rcases Bool.eq_false_or_eq_true c.begun with hbegun | hbegun
  · exact .inl (hpending (fun ht => htaken ⟨ht, h hbegun⟩))
  · exact .inr ⟨hup, hbegun⟩

theorem completeRead_kept (hok : c.transport.Ok)
    (ha : c.transport.read.readPending = false ∧ c.transport.read.readCompletionPending = false) :
    Kept c { c with transport := { c.transport with read := c.transport.read.completeRead.1 } } :=
  .read hok (hok.read.completeRead ha.1) ha.2.symm (.inl ha.1.symm)

/-- The operations that at most submit or complete a read. -/
def Op.keeps : Op → Bool
  | .resumeRead | .resumeLimit | .resumeNext | .handleRead | .readLimit | .readNext | .queueWriteComplete
  | .queueHighWaterMark | .establishRead | .driveForce | .forceClose | .clearForce | .handleError _
  | .handleClose | .callbackFailed => true
  | _ => false

theorem inputLimit_kept {next : Op} (hnext : next.special = false) (hok : c.transport.Ok)
    (he : c.inputLimit o next = (c', news)) : Kept c c' ∧ news.all (fun q => !q.special) = true := by
  unfold Conn.inputLimit at he
  split at he <;> cases he
  · exact ⟨{ Kept.refl hok with }, rfl⟩
  · exact ⟨.refl hok, by simp [hnext]⟩

theorem execTransfer_kept (h : c.begun = true → c.socketClosed = true) (hok : c.transport.Ok)
    (ha : Arrived c.transport (some op))
    (hkeeps : op.keeps = true) (he : execTransfer o c op env = some (c', news)) :
    Kept c c' ∧ news.all (fun q => !q.special) = true := by
  have submitted : ∀ {s : Submission} {r : Conn × Nat}, c.up = true → c.startRead o s = some r →
      Kept c r.1 ∧ (if r.2 ≠ 0 then [Op.handleError r.2] else []).all (fun q => !q.special) = true :=
    fun hup hr => ⟨startRead_kept h hup hok hr, by split <;> rfl⟩
  revert c' news
  fun_cases execTransfer o c op env
  all_goals intro c' news he
  all_goals first
    | (cases hkeeps; done)
    | (cases he; done)
    | (cases he; exact ⟨{ Kept.refl hok with }, rfl⟩)
    | (cases he; exact ⟨{ completeRead_kept hok ha with }, by first | rfl | (split <;> rfl)⟩)
    | exact inputLimit_kept rfl hok (Option.some.inj he)
    | skip
  -- `resumeNext` and `readNext`
  all_goals
    rename_i hready
    obtain ⟨r, hr, hres⟩ := Option.map_eq_some_iff.mp he
    cases hres
  · exact submitted (eq_true_of_ne_false (not_or.mp (not_or.mp hready).2).1) hr
  · exact submitted hready.1 hr

theorem execLifecycle_kept (h : c.begun = true → c.socketClosed = true) (hg : c.Guard o (some op))
    (hok : c.transport.Ok)
    (hkeeps : op.keeps = true) (he : execLifecycle o c op env = some (c', news)) :
    Kept c c' ∧ news.all (fun q => !q.special) = true := by
  revert c' news
  fun_cases execLifecycle o c op env
  all_goals intro c' news he
  all_goals first
    | (cases hkeeps; done)
    | (cases he; done)
    | (cases he; exact ⟨{ Kept.refl hok with }, rfl⟩)
    | skip
  -- `establishRead`
  obtain ⟨r, hr, hres⟩ := Option.map_eq_some_iff.mp he
  cases hres
  exact ⟨startRead_kept h (up_iff.mpr (.inl hg.1)) hok hr, by split <;> rfl⟩

/-! ## Writing -/

theorem startWrite_flags {w w' : WriteHalf} {err : Nat} {s : Submission}
    (h : w.startWrite s = some (w', err)) : w'.writeCompletionPending = w.writeCompletionPending ∧
      w'.ahead = w.ahead ∧ w'.discarded = w.discarded ∧
      (w'.writePending = w.writePending ∧ (err = 0 → w.writePending = true ∨ w.writeCompletionPending = true) ∨
        s = .taken ∧ err = 0 ∧ w'.writePending = true ∧ w.writePending = false) := by
  unfold IocpTcpTransport.WriteHalf.startWrite at h
  split at h
  · rename_i hbusy
    cases h
    exact ⟨rfl, rfl, rfl, .inl ⟨rfl, fun _ => hbusy⟩⟩
  · rename_i hfree
    obtain ⟨hp, -⟩ := not_or.mp hfree
    split at h
    · cases h
      exact ⟨rfl, rfl, rfl, .inl ⟨rfl, fun hh => by cases hh⟩⟩
    · cases s with
      | noBuffers => cases h
      | rejected e =>
        dsimp only at h
        split at h
        · cases h
        · rename_i hne
          cases h
          exact ⟨rfl, rfl, rfl, .inl ⟨rfl, fun hh => absurd hh hne⟩⟩
      | taken =>
        cases h
        exact ⟨rfl, rfl, rfl, .inr ⟨rfl, rfl, rfl, eq_false_of_ne_true hp⟩⟩

/-- The write half is replaced, with the same flags. -/
theorem Moved.writes {w : WriteHalf} (h : c.transport.Ok) (hok : w.Ok)
    (hcompleted : w.writeCompletionPending = c.transport.write.writeCompletionPending)
    (hpending : w.writePending = c.transport.write.writePending)
    (hdiscarded : w.discarded = c.transport.write.discarded)
    (hahead : w.ahead = c.transport.write.ahead ∨ w.ahead = 0) :
    Moved c { c with transport := { c.transport with write := w } } :=
  { Moved.refl h with
    transport := ⟨h.read, hok⟩
    completed := fun k => by
      cases k with
      | read => rfl
      | write => exact hcompleted
    writePending := .inl ⟨hpending, rfl⟩
    discarded := hdiscarded
    ahead := hahead }

section StartWrite
variable {s : Submission} {r : Conn × Nat}

/-- A closed socket takes no write. -/
theorem startWrite_open (h : c.begun = true → c.socketClosed = true) (hr : c.startWrite s = some r)
    (hs : s = .taken) : c.begun = false := by
  unfold Conn.startWrite at hr
  split at hr
  · cases hr
  · rename_i hopen
    exact eq_false_of_ne_true (fun hbegun => hopen ⟨hs, h hbegun⟩)

/-- A start that reports no error has found no close, or a completion that waits behind it. -/
theorem startWrite_serves (h : c.begun = true → c.socketClosed = true) (hr : c.startWrite s = some r)
    (hzero : r.2 = 0) (hfree : c.transport.write.writePending = false)
    (hc : c.begun = true → c.transport.write.writeCompletionPending = false) : c.begun = false := by
  have hopen := startWrite_open h hr
  refine eq_false_of_ne_true (fun hbegun => ?_)
  unfold Conn.startWrite at hr
  split at hr
  · cases hr
  · obtain ⟨w, hw, rfl⟩ := Option.map_eq_some_iff.mp hr
    obtain ⟨-, -, -, ⟨-, hbusy⟩ | ⟨hs, -⟩⟩ := startWrite_flags hw
    · rw [hfree, hc hbegun] at hbusy
      rcases hbusy hzero with hb | hb <;> cases hb
    · rw [hopen hs] at hbegun
      cases hbegun

theorem startWrite_ok (h : c.begun = true → c.socketClosed = true) (ht : c.transport.Ok)
    (hr : c.startWrite s = some r)
    (hahead : c.begun = false → c.transport.write.writeCompletionPending = false →
      c.transport.write.ahead = 0) : r.1.transport.write.Ok := by
  have hopen := startWrite_open h hr
  unfold Conn.startWrite at hr
  split at hr
  · cases hr
  · obtain ⟨w, hw, rfl⟩ := Option.map_eq_some_iff.mp hr
    exact ht.write.startWrite hw (fun hs => hahead (hopen hs))

theorem startWrite_refused (h : c.begun = true → c.socketClosed = true) (ht : c.transport.Ok)
    (hr : c.startWrite s = some r)
    (hahead : c.begun = false → c.transport.write.writeCompletionPending = false →
      c.transport.write.ahead = 0) (herr : r.2 ≠ 0) :
    Moved c r.1 ∧ r.1.isWriting = c.isWriting ∧ r.1.fatal = c.fatal := by
  have hok := startWrite_ok h ht hr hahead
  unfold Conn.startWrite at hr
  split at hr
  · cases hr
  · obtain ⟨w, hw, rfl⟩ := Option.map_eq_some_iff.mp hr
    obtain ⟨hcompleted, ha, hdiscarded, ⟨hpending, -⟩ | ⟨-, hzero, -⟩⟩ := startWrite_flags hw
    · dsimp only
      rw [if_pos hpending.symm]
      exact ⟨.writes ht hok hcompleted hpending hdiscarded (.inl ha), rfl, rfl⟩
    · exact absurd hzero herr

/-- A write of a connection that serves is seen under its registration. -/
theorem startWrite_served (h : Core o c) (ht : c.transport.Ok) (hup : c.up = true)
    (hbegun : c.begun = false) (hr : c.startWrite s = some r)
    (hahead : c.begun = false → c.transport.write.writeCompletionPending = false →
      c.transport.write.ahead = 0) :
    Moved c { r.1 with isWriting := true } ∧ r.1.addedToLoop = true ∧ r.1.fatal = c.fatal := by
  have hok := startWrite_ok (fun hb => by rw [hbegun] at hb; cases hb) ht hr hahead
  have hin := (h.serving hup hbegun).inLoop
  unfold Conn.startWrite at hr
  split at hr
  · cases hr
  · obtain ⟨w, hw, rfl⟩ := Option.map_eq_some_iff.mp hr
    obtain ⟨hcompleted, ha, hdiscarded, hpending⟩ := startWrite_flags hw
    refine ⟨{ Moved.refl ht with
      transport := ⟨ht.read, hok⟩
      completed := fun k => by
        cases k with
        | read => rfl
        | write => exact hcompleted
      writePending := ?_
      discarded := hdiscarded
      ahead := .inl ha }, hin, rfl⟩
    rcases hpending with ⟨hsame, -⟩ | ⟨-, -, hnew, hold⟩
    · exact .inl ⟨hsame, if_pos hsame.symm⟩
    · refine .inr ⟨hup, hbegun, ?_, rfl⟩
      show (if c.transport.write.writePending = w.1.writePending then _ else _) = _
      rw [hnew, hold, if_neg Bool.false_ne_true, Conn.observer, if_pos hin]

end StartWrite

theorem enableWriting_eq (hin : c.addedToLoop = true) : c.enableWriting = { c with isWriting := true } := by
  unfold Conn.enableWriting
  split
  case isTrue hw => rw [← hw]
  case isFalse => exact if_pos hin

theorem highWaterMarkOps_special (m n : Nat) :
    (highWaterMarkOps o m n).all (fun q => !q.special) = true := by
  unfold highWaterMarkOps
  split <;> rfl

/-- What an operation has to show. -/
def Runs (c' : Conn) (l' : List Op) : Prop := c'.fatal = none ∧ Teardown c' l'

/-- The bytes that the socket has got are counted while no consumer runs. -/
theorem Watched.counted (h : Watched c (op :: rest)) (hop : op ≠ .handleWrite)
    (hstate : c.state ≠ .kDisconnected) (hbegun : c.begun = false)
    (hc : c.transport.write.writeCompletionPending = false) : c.transport.write.ahead = 0 := by
  refine not_not.mp (fun hne => ?_)
  rcases h.ahead hstate hbegun hne with hw | hh
  · rw [hc] at hw
    cases hw
  · exact hop (Option.some.inj hh)

/-- An operation that at most reads. -/
theorem Kept.runs (hk : Kept c c') (hp : Plain (op :: rest) l) (h : Teardown c (op :: rest))
    (hop : op ≠ .handleWrite) (hcloses : op.closes = false) (hfatal : c.fatal = none) : Runs c' l :=
  ⟨hk.fatal.trans hfatal, hp.teardown h hk.toMoved (h.draining.waits.next hk.toMoved hcloses)
    (.inl hk.isWriting) (fun hh => absurd (Option.some.inj hh) hop)⟩

theorem sendStart_runs {m n : Nat} (hcore : Core o c) (hup : c.up = true)
    (hshut : c.begun = true → c.socketClosed = true)
    (hbelow : ∀ q ∈ rest, q.guarded = true → q = .destroyDetach) (h : Teardown c (.sendStart m n :: rest))
    (hfatal : c.fatal = none) (he : execTransfer o c (.sendStart m n) env = some (c', news)) :
    Runs c' (news ++ rest) := by
  have hhigh := highWaterMarkOps_special (o := o) m n
  have hahead := h.watched.counted nofun (ne_down_of_up hup)
  cases env <;> try cases he
  simp only [execTransfer] at he
  split at he
  · cases he
    exact (Kept.refl h.transport).runs (.pop rfl hhigh hbelow) h nofun rfl hfatal
  rename_i hfree
  obtain ⟨r, hr, hres⟩ := Option.map_eq_some_iff.mp he
  split at hres
  case isTrue herr =>
    cases hres
    obtain ⟨hm, hw, hf⟩ := startWrite_refused hshut h.transport hr hahead herr
    exact ⟨hf.trans hfatal, (Plain.pop rfl rfl hbelow).teardown h hm
      (h.draining.waits.next hm rfl) (.inl hw) (fun hh => by cases hh)⟩
  case isFalse herr =>
    cases hres
    -- nothing was submitted for a completion that waits, which is not behind a close, or a write was
    have hbegun := startWrite_serves hshut hr (not_not.mp herr) (eq_false_of_ne_true hfree)
      (h.draining.sends _ rfl rfl hup)
    obtain ⟨hm, hin, hf⟩ := startWrite_served hcore h.transport hup hbegun hr hahead
    rw [enableWriting_eq hin]
    exact ⟨hf.trans hfatal, (Plain.pop rfl hhigh hbelow).teardown h hm (h.draining.waits.next hm rfl)
      (.inr (.inl rfl)) (fun hh => by cases hh)⟩

/-- A send goes on with its next part. -/
theorem Plain.send {q : Op} (hop : op.isSend = true) (hq : q.isSend = true) :
    Plain (op :: rest) (q :: rest) where
  head := fun p hp => by
    cases hp
    refine ⟨?_, ?_, ?_, ?_⟩ <;> rintro rfl <;> cases hq
  sends := fun p hp _ => ⟨op, rfl, hop⟩
  writes := by
    rw [List.count_cons_of_ne, List.count_cons_of_ne]
    · exact Nat.add_le_add List.count_le_count_cons List.count_le_count_cons
    · rintro rfl
      cases hq
    · rintro rfl
      cases hq
  close := by
    rw [List.mem_cons, List.mem_cons, or_iff_right, or_iff_right]
    · rintro rfl
      cases hop
    · rintro rfl
      cases hq
  finishEnd := fun b => by
    rw [List.mem_cons, List.mem_cons, or_iff_right, or_iff_right]
    · rintro rfl
      cases hop
    · rintro rfl
      cases hq

theorem enqueueWrite_flags (w : WriteHalf) (data : List UInt8) :
    (w.enqueueWrite data).writeCompletionPending = w.writeCompletionPending ∧
      (w.enqueueWrite data).writePending = w.writePending ∧
      (w.enqueueWrite data).discarded = w.discarded ∧ (w.enqueueWrite data).ahead = w.ahead := by
  unfold IocpTcpTransport.WriteHalf.enqueueWrite
  split <;> exact ⟨rfl, rfl, rfl, rfl⟩

theorem sendReserved_runs {data : List UInt8} (hcore : Core o c) (hup : c.up = true)
    (h : Teardown c (.sendReserved data :: rest)) (hfatal : c.fatal = none)
    (he : execTransfer o c (.sendReserved data) env = some (c', news)) : Runs c' (news ++ rest) := by
  have hopen := ne_down_of_up hup
  cases env <;> try cases he
  simp only [execTransfer, if_neg hopen] at he
  have hmore := enqueueWrite_buffered c.transport.write data
  have heq := hcore.changed_eq (t := { c.transport with write := c.transport.write.enqueueWrite data }) hup
    (fun _ => hmore)
  obtain ⟨hcompleted, hpending, hdiscarded, hahead⟩ := enqueueWrite_flags c.transport.write data
  have hm : Moved c { c with transport := { c.transport with write := c.transport.write.enqueueWrite data } } :=
    .writes h.transport (h.transport.write.enqueueWrite (h.settled.live hopen) data) hcompleted hpending
      hdiscarded (.inl hahead)
  simp only [Conn.applyBackpressureInLoop, Option.some.injEq, Prod.mk.injEq] at he
  obtain ⟨rfl, rfl⟩ := he
  rw [if_neg (by rw [heq]; exact apply_stays (hcore.more_paused hmore)), heq]
  have hm' : Moved c { c with
      transport := { c.transport with write := c.transport.write.enqueueWrite data }
      input := c.input.apply o (c.transport.write.enqueueWrite data).bufferedWriteBytes } := { hm with }
  exact ⟨hfatal, (Plain.send rfl rfl).teardown h hm' (h.draining.waits.next hm' rfl) (.inl rfl)
    (fun hh => by cases hh)⟩

theorem completeWrite_flags (w : WriteHalf) : w.completeWrite.1.writePending = false ∧
    w.completeWrite.1.writeCompletionPending = false := by
  unfold IocpTcpTransport.WriteHalf.completeWrite
  dsimp only
  repeat' split
  all_goals exact ⟨rfl, rfl⟩

/-- `handleWrite` goes on after a completed write. -/
theorem Plain.wrote (l₁ : List Op) (hl₁ : l₁ = [.resumeRead] ∨ l₁ = []) :
    Plain (.handleWrite :: rest) ((l₁ ++ [.writeNext]) ++ rest) where
  head := fun q hq => by
    rcases hl₁ with rfl | rfl <;> cases hq <;> exact ⟨nofun, nofun, nofun, nofun⟩
  sends := fun q hq hsend => by
    rcases hl₁ with rfl | rfl <;> cases hq <;> cases hsend
  writes := by
    have hne : Op.resumeRead ≠ .writeNext ∧ Op.resumeRead ≠ .handleWrite := ⟨nofun, nofun⟩
    rcases hl₁ with rfl | rfl <;> simp [hne] <;> omega
  close := by rcases hl₁ with rfl | rfl <;> simp
  finishEnd := fun b => by rcases hl₁ with rfl | rfl <;> simp

theorem handleWrite_runs (hcore : Core o c) (hg : c.up = true ∧ c.begun = false)
    (hbelow : ∀ q ∈ rest, q.guarded = true → q = .destroyDetach) (h : Teardown c (.handleWrite :: rest))
    (hfatal : c.fatal = none) (he : execTransfer o c .handleWrite env = some (c', news)) :
    Runs c' (news ++ rest) := by
  obtain ⟨hdelivered, hpending, hcompleted⟩ := h.arrived
  have hwriting := h.watched.writing hg.1 hg.2 (.inr (.inr (.inl (.head _))))
  obtain ⟨hok, hahead, hdiscarded⟩ := h.transport.write.completeWrite hdelivered hpending
  obtain ⟨hpending', hcompleted'⟩ := completeWrite_flags c.transport.write
  have hm : Moved c { c with transport := { c.transport with write := c.transport.write.completeWrite.1 } } :=
    .writes h.transport hok (hcompleted'.trans hcompleted.symm) (hpending'.trans hpending.symm) hdiscarded
      (.inr hahead)
  cases env <;> try cases he
  simp only [execTransfer, if_neg (by rw [hwriting]; exact Bool.noConfusion : ¬c.isWriting = false)] at he
  split at he
  · cases he
    exact ⟨hfatal, (Plain.pop rfl (by split <;> rfl) hbelow).teardown h hm
      (h.draining.waits.next hm rfl) (.inl rfl) (fun _ => hahead)⟩
  · have heq := hcore.changed_eq (t := { c.transport with write := c.transport.write.completeWrite.1 }) hg.1
      (fun hb => by rw [hg.2] at hb; cases hb)
    obtain ⟨rfl, rfl⟩ := Prod.mk.inj (Option.some.inj he)
    have hm' : Moved c (Conn.onBufferedBytesChanged o
        { c with transport := { c.transport with write := c.transport.write.completeWrite.1 } }) := by
      rw [heq]
      exact { hm with }
    refine ⟨?_, (Plain.wrote _ ?_).teardown h hm' (h.draining.waits.next hm' rfl) (.inl ?_) (fun _ => ?_)⟩
    · show (Conn.onBufferedBytesChanged o _).fatal = none
      rw [heq]
      exact hfatal
    · dsimp only [Conn.applyBackpressureInLoop]
      split
      · exact .inl rfl
      · exact .inr rfl
    · show (Conn.onBufferedBytesChanged o _).isWriting = _
      rw [heq]
    · show (Conn.onBufferedBytesChanged o _).transport.write.ahead = 0
      rw [heq]
      exact hahead

/-- Nothing is buffered: nothing is with the kernel or waits to be counted. -/
theorem write_idle {w : WriteHalf} (h : w.Ok) (hb : w.bufferedWriteBytes = 0) :
    w.writePending = false ∧ w.writeCompletionPending = false := by
  have hnot : ¬w.Fits := fun hfits => by
    obtain ⟨front, tail, heq, -⟩ := hfits
    have hoff := h.offsets front (by rw [heq]; exact .head _)
    have hlen := h.buffered
    rw [hb, heq, IocpTcpTransport.WriteHalf.unsent_cons, List.length_append, List.length_drop] at hlen
    omega
  refine ⟨eq_false_of_ne_true (fun hp => ?_), eq_false_of_ne_true (fun hc => hnot (h.delivered hc).fits)⟩
  rw [h.pending] at hp
  obtain ⟨k, hk⟩ := Option.isSome_iff_exists.mp hp
  exact hnot (h.held k hk).2.2.1

theorem disableWriting_eq (hw : c.isWriting = true) (hin : c.addedToLoop = true) :
    c.disableWriting = { c with isWriting := false } := by
  unfold Conn.disableWriting
  rw [if_pos hw]
  exact if_pos hin

theorem writeNext_runs (hcore : Core o c) (hc : c.state ≠ .kConnecting)
    (hbelow : ∀ q ∈ rest, q.guarded = true → q = .destroyDetach) (h : Teardown c (.writeNext :: rest))
    (hfatal : c.fatal = none) (he : execTransfer o c .writeNext env = some (c', news)) :
    Runs c' (news ++ rest) := by
  have kept : ∀ {l : List Op}, l.all (fun q => !q.special) = true → Runs c (l ++ rest) := fun hl =>
    (Kept.refl h.transport).runs (.pop rfl hl hbelow) h (by simp) rfl hfatal
  cases env <;> try cases he
  simp only [execTransfer] at he
  split at he
  · cases he
    exact kept rfl
  rename_i hopen
  split at he
  · cases he
    exact kept rfl
  rename_i hcalm
  -- no close has begun, since one would be draining
  have hup := up_of_ne hc hopen
  have hbegun : c.begun = false := eq_false_of_ne_true (fun hbegun =>
    hcalm (h.draining.waits.pending (by simp) hbegun hopen).1)
  have hin := (hcore.serving hup hbegun).inLoop
  have hwriting := h.watched.writing hup hbegun (.inr (.inr (.inr (.head _))))
  have hahead := h.watched.counted (by simp) hopen
  split at he
  · rename_i hempty
    cases he
    obtain ⟨hpending, hcompleted⟩ := write_idle h.transport.write hempty
    have hsingle := h.watched.single
    have hfirst : rest.count .handleWrite ≤ List.count .handleWrite (.writeNext :: rest) :=
      List.count_le_count_cons
    rw [List.count_cons_self] at hsingle
    have hnone : rest.count .handleWrite = 0 ∧ rest.count .writeNext = 0 := by omega
    rw [disableWriting_eq hwriting hin]
    have hm : Moved c { c with isWriting := false } :=
      { Moved.refl h.transport with writePending := .inl ⟨rfl, rfl⟩ }
    refine ⟨hfatal, (Plain.pop rfl rfl hbelow).teardown h hm (h.draining.waits.next hm rfl)
      (.inr (.inr ⟨hpending, hcompleted, ?_, ?_⟩)) (fun hh => by cases hh)⟩
    · exact fun hm => List.count_eq_zero.mp hnone.1 ((List.mem_cons.mp hm).resolve_left (by simp))
    · exact fun hm => List.count_eq_zero.mp hnone.2 ((List.mem_cons.mp hm).resolve_left (by simp))
  split at he
  · cases he
    exact kept rfl
  · obtain ⟨r, hr, hres⟩ := Option.map_eq_some_iff.mp he
    cases hres
    obtain ⟨hm, -, hf⟩ := startWrite_served hcore h.transport hup hbegun hr hahead
    have hsame : r.1.isWriting = true := by
      unfold Conn.startWrite at hr
      split at hr
      · cases hr
      · obtain ⟨w, -, rfl⟩ := Option.map_eq_some_iff.mp hr
        exact hwriting
    rw [← hsame] at hm
    exact ⟨hf.trans hfatal, (Plain.pop rfl (by split <;> rfl) hbelow).teardown h hm
      (h.draining.waits.next hm rfl) (.inr (.inl hsame)) (fun hh => by cases hh)⟩

/-! ## Lifecycle -/

/-- Nothing is pending and nothing was sent before the connection is up. -/
theorem Teardown.fresh (h : Teardown c (op :: rest)) (hstate : c.state = .kConnecting)
    (hbegun : c.begun = false) (hop : op ≠ .handleWrite) :
    c.transport.write.writePending = false ∧ c.transport.write.writeCompletionPending = false ∧
      c.transport.write.ahead = 0 ∧ ∀ n ∈ c.notices, n.kind ≠ .write := by
  have hidle := h.settled.idle (.inl hstate)
  simp only [Transport.hasPendingOperations, Bool.or_eq_false_iff] at hidle
  have hopen : c.state ≠ .kDisconnected := fun hh => by rw [hstate] at hh; cases hh
  refine ⟨hidle.1.1.2, hidle.2, h.watched.counted hop hopen hbegun hidle.2, fun n hn hk => ?_⟩
  have hcount := h.listed .write
  rw [completionPending, hidle.2, if_neg Bool.false_ne_true] at hcount
  exact List.count_eq_zero.mp hcount (List.mem_map.mpr ⟨n, hn, hk⟩)

/-- Where no write can go on, none is watched. -/
theorem watched_off (hoff : c.up = false ∨ c.begun = true)
    (hdone : c.transport.write.ahead = 0 ∨ c.state = .kDisconnected ∨ c.begun = true)
    (hsingle : l.count .handleWrite + l.count .writeNext ≤ 1) : Watched c l := by
  have hnot : c.up = true → c.begun = false → False := fun hup hbegun => by
    rw [hup, hbegun] at hoff
    rcases hoff with hh | hh <;> cases hh
  refine ⟨fun hup hbegun => (hnot hup hbegun).elim, fun hup hbegun => (hnot hup hbegun).elim,
    fun hup hbegun => (hnot hup hbegun).elim, fun hstate hbegun hne => ?_, hsingle⟩
  rcases hdone with hh | hh | hh
  · exact absurd hh hne
  · exact absurd hh hstate
  · rw [hbegun] at hh
    cases hh

/-- An operation on top that no fact depends on. -/
def Unbound (l : List Op) : Prop := ∀ q ∈ l.head?, q ≠ .handleRead ∧ q ≠ .handleWrite ∧ q ≠ .finishClose ∧
  q ≠ .destroy ∧ q.isSend = false

theorem Unbound.arrived (h : Unbound l) (t : Transport) : Arrived t l.head? := by
  cases hh : l.head? with
  | none => trivial
  | some q =>
    obtain ⟨hr, hw, -⟩ := h q hh
    cases q <;> trivial

theorem Unbound.draining (h : Unbound l) (hwaits : Waits c l)
    (hguard : c.forceCloseGuard = true → c.forceClosePending = true ∨ .user .close ∈ l ∨ ∃ b, .finishEnd b ∈ l)
    (hclosing : (.user .close ∈ l ∨ ∃ b, .finishEnd b ∈ l) → c.state = .kDisconnected) : Draining c l where
  sends := fun q hq hsend => by
    rw [(h q hq).2.2.2.2] at hsend
    cases hsend
  destroys := fun hh => absurd rfl (h _ hh).2.2.2.1
  finishing := fun hh => absurd rfl (h _ hh).2.2.1
  waits := hwaits
  guard := hguard
  closing := hclosing

/-- The stack below an operation. -/
theorem Draining.closing_rest (h : Draining c (op :: rest))
    (hm : .user .close ∈ rest ∨ ∃ b, .finishEnd b ∈ rest) : c.state = .kDisconnected :=
  h.closing (hm.imp (List.mem_cons_of_mem _) (fun ⟨b, hb⟩ => ⟨b, List.mem_cons_of_mem _ hb⟩))

theorem holds_rest (hop : op.holds = false)
    (hm : .user .close ∈ (op :: rest) ∨ ∃ b, .finishEnd b ∈ (op :: rest)) :
    .user .close ∈ rest ∨ ∃ b, .finishEnd b ∈ rest := by
  refine hm.imp (fun hh => (List.mem_cons.mp hh).resolve_left ?_)
    (fun ⟨b, hb⟩ => ⟨b, (List.mem_cons.mp hb).resolve_left ?_⟩)
  · rintro rfl
    cases hop
  · rintro rfl
    cases hop

/-- A connection that is not ended holds no guard beyond a close that waits. -/
theorem Draining.guard_open (h : Draining c l) (hstate : c.state ≠ .kDisconnected)
    (hg : c.forceCloseGuard = true) : c.forceClosePending = true :=
  (h.guard hg).resolve_right (fun hm => hstate (h.closing hm))

theorem Watched.single_rest (h : Watched c (op :: rest)) :
    rest.count .handleWrite + rest.count .writeNext ≤ 1 :=
  (Nat.add_le_add List.count_le_count_cons List.count_le_count_cons).trans h.single

theorem Watched.single_swap {q : Op} (h : Watched c (op :: rest)) (hq : q ≠ .handleWrite ∧ q ≠ .writeNext) :
    List.count .handleWrite (q :: rest) + List.count .writeNext (q :: rest) ≤ 1 := by
  rw [List.count_cons_of_ne hq.1, List.count_cons_of_ne hq.2]
  exact h.single_rest

/-- The connection is up, and nothing was sent on it. -/
theorem establish_runs {b : Bool} (hcore : Core o c) (hstack : Stack o c (.establish b :: rest))
    (h : Teardown c (.establish b :: rest)) (hfatal : c.fatal = none) (hstate : c.state = .kConnecting)
    (hpresent : c.channelRemoved = false) : Runs (c.establish o) (.establishRead :: rest) := by
  have hfresh := hcore.fresh hstate
  have hopen : c.state ≠ .kDisconnected := fun hh => by rw [hstate] at hh; cases hh
  obtain ⟨hpending, hcompleted, hahead, hnotices⟩ := h.fresh hstate hfresh.begun nofun
  -- what goes on with a write is an operation of a connected connection
  have hearly : ∀ q : Op, q.onceUp = true → q ≠ .establishRead → q ∉ (.establishRead :: rest) :=
    fun q hq hne hm => hstack.onceUp q
      (.tail _ ((List.mem_cons.mp hm).resolve_left hne)) hq hstate
  rw [establish_eq hcore hstate hpresent]
  refine ⟨hfatal, h.transport, h.listed, ⟨fun _ => h.settled.live hopen, ?_, nofun, ?_⟩,
    ⟨?_, fun _ _ n hn hk => absurd hk (hnotices n hn), ?_, fun _ _ hne => absurd hahead hne, ?_⟩, trivial,
    Unbound.draining (fun q hq => by cases hq; exact ⟨nofun, nofun, nofun, nofun, rfl⟩) ?_ ?_ ?_⟩
  · rintro (hh | hh) <;> cases hh
  · show c.finishes = if c.begun = true ∧ _ then 1 else 0
    rw [h.settled.finishes, hfresh.begun]
    simp
  · intro _ _ hh
    rw [show c.transport.write.writePending = _ from hpending] at hh
    cases hh
  · rintro _ _ (hh | hh | hh | hh)
    · rw [show c.transport.write.writePending = _ from hpending] at hh
      cases hh
    · rw [show c.transport.write.writeCompletionPending = _ from hcompleted] at hh
      cases hh
    · exact absurd hh (hearly _ rfl nofun)
    · exact absurd hh (hearly _ rfl nofun)
  · rw [List.count_eq_zero.mpr (hearly .handleWrite rfl nofun),
      List.count_eq_zero.mpr (hearly .writeNext rfl nofun)]
    exact Nat.zero_le 1
  · intro hb
    rw [show c.begun = _ from hfresh.begun] at hb
    cases hb
  · intro hg
    exact .inl (h.draining.guard_open hopen hg)
  · exact fun hm => absurd (h.draining.closing_rest (holds_rest rfl hm)) hopen

theorem refused_runs {b : Bool} {n : Nat} (hcore : Core o c)
    (hbelow : ∀ q ∈ rest, q.guarded = true → q = .destroyDetach) (h : Teardown c (.establish b :: rest))
    (hfatal : c.fatal = none) (hstate : c.state = .kConnecting) :
    Runs { c with channelRemoved := true, closePhase := .closed, registrationGeneration := n } rest := by
  have hbegun := (hcore.fresh hstate).begun
  have hopen : c.state ≠ .kDisconnected := fun hh => by rw [hstate] at hh; cases hh
  have htop : Unbound rest := fun q hq => top_of_below (hbelow q (List.mem_of_mem_head? hq))
  have hs := h.settled
  refine ⟨hfatal, h.transport, h.listed, { hs with },
    watched_off (.inl (not_up_of_ends (.inl hstate))) (.inl (h.fresh hstate hbegun nofun).2.2.1)
      h.watched.single_rest, htop.arrived _,
    htop.draining (fun hb => ?_) (fun hg => .inl (h.draining.guard_open hopen hg))
      (fun hm => h.draining.closing_rest hm)⟩
  rw [show c.begun = _ from hbegun] at hb
  cases hb

/-- The last completion is consumed: the close is taken up again. -/
theorem drained_runs (hbelow : ∀ q ∈ rest, q.guarded = true → q = .destroyDetach)
    (h : Teardown c (.drained :: rest)) (hfatal : c.fatal = none)
    (he : execLifecycle o c .drained env = some (c', news)) : Runs c' (news ++ rest) := by
  have hm := Moved.refl h.transport
  cases env <;> try cases he
  simp only [execLifecycle] at he
  split at he
  case isTrue hlast =>
    cases he
    refine ⟨hfatal, (Plain.pop rfl rfl hbelow).teardown h hm (fun hbegun hstate => ?_) (.inl rfl)
      (fun hh => by cases hh)⟩
    obtain ⟨hf, hg, hpending | ⟨q, -, hl⟩⟩ := h.draining.waits.pending (by simp) hbegun hstate
    · rw [hlast.2] at hpending
      cases hpending
    · cases hl
      exact .inr ⟨hf, hg, .inr ⟨.beginClose, rfl, rfl⟩⟩
  case isFalse hmore =>
    cases he
    refine ⟨hfatal, (Plain.pop rfl rfl hbelow).teardown h hm (fun hbegun hstate => ?_) (.inl rfl)
      (fun hh => by cases hh)⟩
    obtain ⟨hf, hg, -⟩ := h.draining.waits.pending (by simp) hbegun hstate
    exact .inr ⟨hf, hg, .inl (eq_true_of_ne_false (fun hp => hmore ⟨hf, hp⟩))⟩

/-- Where a connection is up, no fact tells its states apart. -/
theorem Teardown.disconnecting (h : Teardown c l) (hup : c.up = true) :
    Teardown { c with state := .kDisconnecting } l := by
  have hopen := ne_down_of_up hup
  have hs := h.settled
  have hw := h.watched
  have hd := h.draining
  refine ⟨h.transport, h.listed, ⟨fun _ => hs.live hopen, ?_, nofun, ?_⟩,
    ⟨fun _ => hw.submitted hup, fun _ => hw.noticed hup, fun _ => hw.writing hup, fun _ => hw.ahead hopen,
      hw.single⟩, h.arrived, ⟨fun q hq hsend _ => hd.sends q hq hsend hup, fun hh => ?_, hd.finishing,
      fun hb _ => hd.waits hb hopen, hd.guard, fun hm => absurd (hd.closing hm) hopen⟩⟩
  · rintro (hh | hh) <;> cases hh
  · show c.finishes = _
    rw [hs.finishes, if_neg (fun hh => hopen hh.2), if_neg (by simp)]
  · have hends := not_up_of_ends (hd.destroys hh)
    rw [hup] at hends
    cases hends

/-- A close begins, or is taken up again. -/
theorem beginClose_runs (hup : c.up = true) (hbelow : ∀ q ∈ rest, q.guarded = true → q = .destroyDetach)
    (h : Teardown c (.beginClose :: rest)) (hfatal : c.fatal = none) :
    Runs c.beginClose ([.closeChannel] ++ rest) := by
  have hd := h.disconnecting hup
  have hk : Kept { c with state := .kDisconnecting } c.beginClose := by
    unfold Conn.beginClose
    split <;> exact { Kept.refl hd.transport with }
  refine ⟨hk.fatal.trans hfatal, (Plain.pop rfl rfl hbelow).teardown hd hk.toMoved (fun hb _ => ?_)
    (.inl hk.isWriting) (fun hh => by cases hh)⟩
  rw [hk.begun] at hb
  rw [hk.forceClosePending, hk.forceCloseGuard, hk.toMoved.hasPending (.inr hb)]
  obtain ⟨hf, hg, hp | ⟨q, -, hl⟩⟩ := h.draining.waits.pending (by simp) hb (ne_down_of_up hup)
  · exact .inr ⟨hf, hg, .inl hp⟩
  · cases hl
    exact .inr ⟨hf, hg, .inr ⟨.closeChannel, rfl, rfl⟩⟩

/-- The channel leaves the loop: if something is pending, the connection keeps itself alive. -/
theorem closeChannel_runs (hcore : Core o c) (hstate : c.state = .kDisconnecting)
    (h : Teardown c (.closeChannel :: rest)) (hfatal : c.fatal = none) :
    Runs c.closeChannel ([.closeSocket] ++ rest) := by
  have hup := up_iff.mpr (.inr hstate)
  have hopen := ne_down_of_up hup
  have hs := h.settled
  have hnever : c.finishes = 0 := by rw [hs.finishes, if_neg (fun hh => hopen hh.2)]
  -- a close that was pending holds the guard already
  have hheld : c.forceClosePending = true → c.forceCloseGuard = true := fun hf => by
    have hb : c.begun = true := eq_true_of_ne_false (fun hb => by
      rw [(hcore.serving hup hb).calm] at hf
      cases hf)
    exact (h.draining.waits.pending (by simp) hb hopen).2.1
  have htop : Unbound ([.closeSocket] ++ rest) :=
    fun q hq => by cases hq; exact ⟨by simp, by simp, by simp, by simp, rfl⟩
  have key : ∀ d : Conn, d.state = c.state → d.begun = true → d.transport = c.transport →
      d.notices = c.notices → d.finishes = c.finishes → d.fatal = c.fatal →
      d.forceClosePending = (c.forceClosePending || c.transport.hasPendingOperations) →
      d.forceCloseGuard = (c.forceCloseGuard || (c.transport.hasPendingOperations && !c.forceClosePending)) →
      Runs d (.closeSocket :: rest) := by
    intro d hst hb ht hn hfin hfat hpending hguard
    have hd : d.state ≠ .kDisconnected := hst ▸ hopen
    refine ⟨hfat.trans hfatal, ht ▸ h.transport, fun k => by rw [hn, ht]; exact h.listed k,
      ⟨fun _ => ht ▸ hs.live hopen, fun hh => ?_, fun hh => absurd hh hd, ?_⟩,
      watched_off (.inr hb) (.inr (.inr hb)) (h.watched.single_swap (by simp)), htop.arrived _,
      htop.draining (fun _ _ => ?_) (fun hg => .inl ?_)
        (fun hm => absurd (h.draining.closing_rest (holds_rest rfl hm)) hopen)⟩
    · rw [hst, hstate] at hh
      rcases hh with hh | hh <;> cases hh
    · rw [hfin, hnever, if_neg (fun hh => hd hh.2)]
    · rw [hpending, hguard, ht]
      cases hp : c.transport.hasPendingOperations with
      | false => exact .inl (.inr ⟨rfl, rfl⟩)
      | true =>
        refine .inr ⟨Bool.or_true _, ?_, .inl rfl⟩
        cases hf : c.forceClosePending with
        | false => simp
        | true => simp [hheld hf]
    · rw [hguard] at hg
      rw [hpending]
      rcases (Bool.or_eq_true _ _).mp hg with hg | hg
      · rw [h.draining.guard_open hopen hg]
        rfl
      · rw [(Bool.and_eq_true_iff.mp hg).1]
        exact Bool.or_true _
  show Runs c.closeChannel (.closeSocket :: rest)
  unfold Conn.closeChannel Conn.removeChannel
  dsimp only
  split <;> exact key _ rfl rfl rfl rfl rfl rfl rfl rfl

/-- The socket is closed: the close ends, or waits for what is pending. -/
theorem closeSocket_runs (hcore : Core o c) (hg : c.state = .kDisconnecting ∧ c.begun = true)
    (hbelow : ∀ q ∈ rest, q.guarded = true → q = .destroyDetach) (h : Teardown c (.closeSocket :: rest))
    (hfatal : c.fatal = none) : Runs c.closeSocket.1 (c.closeSocket.2 ++ rest) := by
  have hopen : c.state ≠ .kDisconnected := ne_down_of_up (up_iff.mpr (.inr hg.1))
  unfold Conn.closeSocket
  split
  case isTrue hp =>
    have hk : ∀ p, Kept c { c with closePhase := p } := fun p => { Kept.refl h.transport with }
    refine ⟨hfatal, (Plain.pop rfl rfl hbelow).teardown h (hk _).toMoved (fun hb _ => ?_) (.inl rfl)
      (fun hh => by cases hh)⟩
    rcases h.draining.waits hb hopen with (hh | ⟨-, hidle⟩) | ⟨hf, hguard, -⟩
    · cases hh
    · rw [hp] at hidle
      cases hidle
    · exact .inr ⟨hf, hguard, .inl hp⟩
  case isFalse hp =>
    rw [disableAll_out (hcore.begun_out hg.2)]
    refine ⟨hfatal, h.transport, h.listed, { h.settled with },
      watched_off (.inr hg.2) (.inr (.inr hg.2)) (h.watched.single_swap (by simp)), trivial,
      ⟨fun q hq hsend => ?_, by simp, fun _ => eq_false_of_ne_true hp, fun _ _ => .inl (.inl rfl),
        fun hguard => .inl (h.draining.guard_open hopen hguard),
        fun hm => absurd (h.draining.closing_rest (holds_rest rfl hm)) hopen⟩⟩
    cases hq
    cases hsend

/-- The output is dropped while the kernel holds no write. -/
theorem clearBufferedOutput_spec (h : c.transport.Ok) (hp : c.transport.write.writePending = false)
    (hc : c.transport.write.writeCompletionPending = false) : ∃ w : WriteHalf, w.Ok ∧
      w.writePending = false ∧ w.writeCompletionPending = false ∧
      c.clearBufferedOutput = { c with transport := { c.transport with write := w } } := by
  unfold Conn.clearBufferedOutput
  split
  · exact ⟨_, h.write, hp, hc, rfl⟩
  · have hd : c.transport.write.discardBufferedWrites =
        some ({ c.transport.write with writeSegments := [], bufferedWriteBytes := 0
                                       submittedWriteBytes := 0, discarded := true },
          c.transport.write.bufferedWriteBytes) := by
      rw [IocpTcpTransport.WriteHalf.discardBufferedWrites, if_neg (by rw [hp]; exact Bool.false_ne_true)]
    refine ⟨_, (h.write.discardBufferedWrites hd hc).1, hp, hc, ?_⟩
    rw [hd]
    exact if_neg (not_not.mpr rfl)

theorem idle_flags {t : Transport} (h : t.hasPendingOperations = false) : t.read.readPending = false ∧
    t.write.writePending = false ∧ t.read.readCompletionPending = false ∧
    t.write.writeCompletionPending = false := by
  simp only [Transport.hasPendingOperations, Bool.or_eq_false_iff] at h
  exact ⟨h.1.1.1, h.1.1.2, h.1.2, h.2⟩

/-- `finishClose` finds nothing with the kernel, and does not end the process. -/
theorem finishClose_spec (hcore : Core o c) (hbegun : c.begun = true) (h : c.transport.Ok)
    (hidle : c.transport.hasPendingOperations = false) : ∃ t : Transport, t.Ok ∧
      t.hasPendingOperations = false ∧ c.finishClose = { c with
        state := .kDisconnected, forceClosePending := false, input := c.input.onClosed, transport := t
        closePhase := .closed, finishes := c.finishes + 1 } := by
  obtain ⟨hr, hw, hrc, hwc⟩ := idle_flags hidle
  have hl := hcore.leaving hbegun
  have hrelease : c.transport.read.releaseReadStorage =
      some { c.transport.read with readStorageBytes := 0 } := by
    rw [IocpTcpTransport.ReadHalf.releaseReadStorage, if_neg (by rw [hr]; exact Bool.false_ne_true)]
  have hread := h.read.releaseReadStorage hrelease
  obtain ⟨w, hok, hw', hwc', hclear⟩ := clearBufferedOutput_spec
    (c := { c with
      state := .kDisconnected, forceClosePending := false, input := c.input.onClosed
      transport := { c.transport with read := { c.transport.read with readStorageBytes := 0 } } })
    ⟨hread, h.write⟩ hw hwc
  refine ⟨⟨{ c.transport.read with readStorageBytes := 0 }, w⟩, ⟨hread, hok⟩, ?_, ?_⟩
  · simp only [Transport.hasPendingOperations, hr, hw', hrc, hwc', Bool.or_self]
  · unfold Conn.finishClose
    rw [hrelease]
    dsimp only
    have hout : (Conn.clearBufferedOutput { c with
        state := .kDisconnected, forceClosePending := false, input := c.input.onClosed
        transport := { c.transport with read := { c.transport.read with readStorageBytes := 0 } } }).Out := by
      rw [hclear]
      exact { hl with }
    rw [disableAll_out hout, hclear]

theorem listed_idle (h : Listed c) (hidle : c.transport.hasPendingOperations = false) {d : Conn}
    (hn : d.notices = c.notices) (hd : d.transport.hasPendingOperations = false) : Listed d := fun k => by
  obtain ⟨-, -, hrc, hwc⟩ := idle_flags hidle
  obtain ⟨-, -, hrc', hwc'⟩ := idle_flags hd
  rw [hn, h k]
  cases k with
  | read => rw [completionPending, completionPending, hrc, hrc']
  | write => rw [completionPending, completionPending, hwc, hwc']

/-- The close ends, once. -/
theorem finishClose_runs (hcore : Core o c) (hg : c.state = .kDisconnecting ∧ c.begun = true)
    (h : Teardown c (.finishClose :: rest)) (hfatal : c.fatal = none) :
    Runs c.finishClose ([.user .disconnected, .user .closeInfo, .user .close] ++ rest) := by
  have hidle := h.draining.finishing rfl
  obtain ⟨t, hok, ht, heq⟩ := finishClose_spec hcore hg.2 h.transport hidle
  have hopen : c.state ≠ .kDisconnected := fun hh => by rw [hg.1] at hh; cases hh
  have hnever : c.finishes = 0 := by rw [h.settled.finishes, if_neg (fun hh => hopen hh.2)]
  have htop : Unbound ([.user .disconnected, .user .closeInfo, .user .close] ++ rest) :=
    fun q hq => by cases hq; exact ⟨nofun, nofun, nofun, nofun, rfl⟩
  rw [heq]
  refine ⟨hfatal, hok, listed_idle h.listed hidle rfl ht,
    ⟨fun hh => absurd rfl hh, fun _ => ht, fun _ => rfl, ?_⟩,
    watched_off (.inl rfl) (.inr (.inl rfl)) ?_, htop.arrived _,
    htop.draining (fun _ hh => absurd rfl hh) (fun _ => .inr (.inl ?_)) (fun _ => rfl)⟩
  · show c.finishes + 1 = if c.begun = true ∧ _ then 1 else 0
    rw [hnever, hg.2]
    rfl
  · rw [List.count_append, List.count_append]
    have hsingle := h.watched.single_rest
    have hnone : List.count Op.handleWrite [.user .disconnected, .user .closeInfo, .user .close] = 0 ∧
        List.count Op.writeNext [.user .disconnected, .user .closeInfo, .user .close] = 0 := by decide
    omega
  · exact List.mem_append_left _ (by decide)

theorem finishEnd_runs {failed : Bool} (hbelow : ∀ q ∈ rest, q.guarded = true → q = .destroyDetach)
    (h : Teardown c (.finishEnd failed :: rest)) (hfatal : c.fatal = none)
    (he : execLifecycle o c (.finishEnd failed) env = some (c', news)) : Runs c' (news ++ rest) := by
  have hstate := h.draining.closing (.inr ⟨failed, .head _⟩)
  have hs := h.settled
  cases env
  case submit => cases he
  case post => cases he
  simp only [execLifecycle, Option.some.injEq, Prod.mk.injEq] at he
  obtain ⟨rfl, rfl⟩ := he
  have key : ∀ l, l.count .handleWrite + l.count .writeNext ≤ 1 → Arrived c.transport l.head? →
      Draining { c with forceCloseGuard := false } l → Runs { c with forceCloseGuard := false } l :=
    fun l hsingle harrived hdraining => ⟨hfatal, h.transport, h.listed,
      { hs with }, watched_off (.inl (not_up_of_ends (.inr hstate)))
        (.inr (.inl hstate)) hsingle, harrived, hdraining⟩
  split
  · refine key _ (h.watched.single_swap (by simp)) trivial
      ⟨fun q hq hsend => ?_, fun _ => .inr hstate, by simp, fun _ hh => absurd hstate hh, by simp,
      fun _ => hstate⟩
    cases hq
    cases hsend
  · have htop : Unbound rest := fun q hq => top_of_below (hbelow q (List.mem_of_mem_head? hq))
    exact key rest h.watched.single_rest (htop.arrived _)
      (htop.draining (fun _ hh => absurd hstate hh) (by simp) (fun _ => hstate))

/-- A connection that was not established, or has been closed, is destroyed. -/
theorem destroy_runs (hcore : Core o c) (h : Teardown c (.destroy :: rest)) (hfatal : c.fatal = none)
    (he : execLifecycle o c .destroy env = some (c', news)) : Runs c' (news ++ rest) := by
  have hends := h.draining.destroys rfl
  have hidle := h.settled.idle hends
  obtain ⟨-, hw, -, hwc⟩ := idle_flags hidle
  obtain ⟨w, hok, hw', hwc', hclear⟩ := clearBufferedOutput_spec (c := { c with input := c.input.onClosed })
    h.transport hw hwc
  have ht : ({ c.transport with write := w } : Transport).hasPendingOperations = false := by
    obtain ⟨hr, -, hrc, -⟩ := idle_flags hidle
    simp only [Transport.hasPendingOperations, hr, hw', hrc, hwc', Bool.or_self]
  cases env
  case submit => cases he
  case post => cases he
  simp only [execLifecycle, Option.some.injEq, Prod.mk.injEq] at he
  obtain ⟨rfl, rfl⟩ := he
  have hdown : (Conn.clearBufferedOutput { c with input := c.input.onClosed }).up ≠ true := by
    rw [hclear]
    exact Bool.eq_false_iff.mp (not_up_of_ends hends)
  rw [if_neg hdown, hclear]
  have hcalm : c.forceClosePending = false := by
    rcases hends with hstate | hstate
    · exact (hcore.fresh hstate).calm
    · exact h.settled.calm hstate
  have htop : Unbound ([Op.destroyDetach] ++ rest) :=
    fun q hq => by cases hq; exact ⟨by simp, by simp, by simp, by simp, rfl⟩
  refine ⟨hfatal, ⟨h.transport.read, hok⟩, listed_idle h.listed hidle rfl ht,
    ⟨fun hh => absurd rfl hh, fun _ => ht, fun _ => hcalm, ?_⟩,
    watched_off (.inl rfl) (.inr (.inl rfl)) (h.watched.single_swap (by simp)), htop.arrived _,
    htop.draining (fun _ hh => absurd rfl hh) (fun hg => ?_) (fun _ => rfl)⟩
  · -- a connection that was not established has not begun to close
    show c.finishes = if c.begun = true ∧ _ then 1 else 0
    rw [h.settled.finishes]
    rcases hends with hstate | hstate
    · rw [(hcore.fresh hstate).begun]
      simp
    · rw [hstate]
  · refine .inr ((holds_rest rfl ((h.draining.guard hg).resolve_left ?_)).imp (List.mem_cons_of_mem _)
      (Exists.imp fun _ => List.mem_cons_of_mem _))
    rw [hcalm]
    exact Bool.false_ne_true

theorem destroyDetach_runs (hstate : c.state = .kDisconnected)
    (hbelow : ∀ q ∈ rest, q.guarded = true → q = .destroyDetach)
    (h : Teardown c (.destroyDetach :: rest)) (hfatal : c.fatal = none)
    (he : execLifecycle o c .destroyDetach env = some (c', news)) : Runs c' (news ++ rest) := by
  have hs := h.settled
  have htop : Unbound rest := fun q hq => top_of_below (hbelow q (List.mem_of_mem_head? hq))
  have hguard := h.draining.guard
  have key : ∀ d : Conn, d.state = c.state → d.begun = c.begun → d.forceClosePending = c.forceClosePending →
      d.forceCloseGuard = c.forceCloseGuard → d.notices = c.notices → d.finishes = c.finishes →
      d.transport = c.transport → d.fatal = c.fatal → Runs d rest := by
    intro d hst hb hf hg hn hfin ht hfat
    have hdown : d.state = .kDisconnected := hst.trans hstate
    refine ⟨hfat.trans hfatal, ht ▸ h.transport, fun k => by rw [hn, ht]; exact h.listed k,
      ⟨fun hh => absurd hdown hh, fun _ => ht ▸ hs.idle (.inr hstate), fun _ => hf.trans (hs.calm hstate),
        by rw [hfin, hb, hst]; exact hs.finishes⟩,
      watched_off (.inl (not_up_of_ends (.inr hdown))) (.inr (.inl hdown)) h.watched.single_rest,
      htop.arrived _, htop.draining (fun _ hh => absurd hdown hh) (fun hg' => ?_) (fun _ => hdown)⟩
    rw [hf]
    exact (hguard (hg ▸ hg')).imp id (holds_rest rfl)
  cases env <;> try cases he
  simp only [execLifecycle] at he
  split at he <;> cases he
  · unfold Conn.removeChannel
    split <;> exact key _ rfl rfl rfl rfl rfl rfl rfl rfl
  · exact key _ rfl rfl rfl rfl rfl rfl rfl rfl

/-! ## Every operation -/

theorem Op.keeps_spec (h : op.keeps = true) : op ≠ .handleWrite ∧ op.closes = false ∧ op.holds = false := by
  cases op <;> simp_all [Op.keeps, Op.closes, Op.holds]

theorem execTransfer_runs (hcore : Core o c) (hstack : Stack o c (op :: rest)) (h : Teardown c (op :: rest))
    (hfatal : c.fatal = none) (he : execTransfer o c op env = some (c', news)) : Runs c' (news ++ rest) := by
  have hbelow : ∀ q ∈ rest, q.guarded = true → q = .destroyDetach := hstack.below
  have hshut : c.begun = true → c.socketClosed = true := fun hb => hstack.shut hb (by
    rintro ⟨⟩
    cases env <;> cases he)
  cases hkeeps : op.keeps with
  | true =>
    obtain ⟨hop, hcloses, hholds⟩ := Op.keeps_spec hkeeps
    obtain ⟨hk, hnews⟩ := execTransfer_kept hshut h.transport h.arrived hkeeps he
    exact hk.runs (.pop hholds hnews hbelow) h hop hcloses hfatal
  | false =>
    cases op with
    | sendFunctor data =>
      cases env <;> try cases he
      simp only [execTransfer] at he
      split at he <;> cases he
      · exact (Kept.refl h.transport).runs (.send rfl rfl) h (by simp) rfl hfatal
      · exact (Kept.refl h.transport).runs (.pop rfl rfl hbelow) h (by simp) rfl hfatal
    | sendReserved data => exact sendReserved_runs hcore hstack.guard h hfatal he
    | sendStart m n => exact sendStart_runs hcore hstack.guard hshut hbelow h hfatal he
    | handleWrite => exact handleWrite_runs hcore hstack.guard hbelow h hfatal he
    | writeNext =>
      exact writeNext_runs hcore (hstack.onceUp _ (.head _) rfl) hbelow h hfatal he
    | _ => first | exact Bool.noConfusion hkeeps | (cases env <;> cases he)

theorem execLifecycle_runs (hcore : Core o c) (hstack : Stack o c (op :: rest)) (h : Teardown c (op :: rest))
    (hfatal : c.fatal = none) (he : execLifecycle o c op env = some (c', news)) : Runs c' (news ++ rest) := by
  have hbelow : ∀ q ∈ rest, q.guarded = true → q = .destroyDetach := hstack.below
  cases hkeeps : op.keeps with
  | true =>
    obtain ⟨hop, hcloses, hholds⟩ := Op.keeps_spec hkeeps
    have hshut : c.begun = true → c.socketClosed = true := fun hb => hstack.shut hb (by
      rintro ⟨⟩
      cases hkeeps)
    obtain ⟨hk, hnews⟩ := execLifecycle_kept hshut hstack.guard h.transport hkeeps he
    exact hk.runs (.pop hholds hnews hbelow) h hop hcloses hfatal
  | false =>
    cases op with
    | establish attached =>
      cases env <;> try cases he
      simp only [execLifecycle] at he
      split at he
      · cases he
        exact (Kept.refl h.transport).runs (.pop rfl rfl hbelow) h (by simp) rfl hfatal
      · rename_i hready
        have hstate := not_not.mp (not_or.mp hready).1
        split at he <;> cases he
        · exact establish_runs hcore hstack h hfatal hstate (eq_false_of_ne_true (not_or.mp hready).2)
        · exact refused_runs hcore hbelow h hfatal hstate
    | drained => exact drained_runs hbelow h hfatal he
    | driveGraceful =>
      cases env <;> try cases he
      simp only [execLifecycle] at he
      split at he
      case isTrue hready =>
        cases he
        have hd := h.disconnecting (up_iff.mpr (.inl hready.2))
        exact (Kept.refl hd.transport).runs (.pop rfl rfl hbelow) hd (by simp) rfl hfatal
      case isFalse =>
        cases he
        exact (Kept.refl h.transport).runs (.pop rfl rfl hbelow) h (by simp) rfl hfatal
    | beginClose =>
      cases env <;> try cases he
      simp only [execLifecycle] at he
      split at he
      · rename_i hstate
        cases he
        have hm := Moved.refl h.transport
        exact ⟨hfatal, (Plain.pop rfl rfl hbelow).teardown h hm (fun _ hh => absurd hstate hh) (.inl rfl)
          (fun hh => by cases hh)⟩
      · rename_i hopen
        cases he
        exact beginClose_runs (up_of_ne (hstack.onceUp _ (.head _) rfl) hopen) hbelow h hfatal
    | closeChannel =>
      cases env <;> cases he
      exact closeChannel_runs hcore hstack.guard h hfatal
    | closeSocket =>
      cases env <;> try cases he
      have hruns := closeSocket_runs hcore hstack.guard hbelow h hfatal
      rw [Option.some.inj he] at hruns
      exact hruns
    | finishClose =>
      have hg : c.state = .kDisconnecting ∧ c.begun = true := hstack.guard
      cases env <;> try cases he
      simp only [execLifecycle] at he
      rw [if_neg (by rw [hg.1]; simp)] at he
      cases he
      exact finishClose_runs hcore hg h hfatal
    | finishEnd failed => exact finishEnd_runs hbelow h hfatal he
    | destroy => exact destroy_runs hcore h hfatal he
    | destroyDetach => exact destroyDetach_runs hstack.guard hbelow h hfatal he
    | _ => first | exact Bool.noConfusion hkeeps | (cases env <;> cases he)

theorem exec_runs (hcore : Core o c) (hstack : Stack o c (op :: rest)) (h : Teardown c (op :: rest))
    (hfatal : c.fatal = none) (he : exec o c op env = some (c', news)) : Runs c' (news ++ rest) :=
  (exec_cases he).elim (execTransfer_runs hcore hstack h hfatal) (execLifecycle_runs hcore hstack h hfatal)

end

end GameNet.IocpConnection
