import GameNet.Iocp.Drain

/- The teardown of a connection of the Windows build, over whole runs.

   1. every step keeps the facts of `Teardown`, in particular the dequeuing and the consumption of a
      completion (`step_teardown`, `reach_teardown`);
   2. the owner's stack empties: each operation weighs more than what it puts on the stack, and none but
      a callback of the user waits (`owner_rests`);
   3. the result, with a close that drains, and with the run in which a queued send ends the process. -/
namespace GameNet.IocpConnection

open Machine (Reach Any)
open TcpConnection (StateE CloseInfo CloseKind ReadSide Options)
open IocpTcpTransport (ReadHalf WriteHalf Transport Submission Completion unsent)

section
variable {o : Options} {c c' : Conn} {op : Op} {env : Env} {news rest l : List Op}

/-! ## Steps -/

/-- What no fact reads may change. -/
theorem Teardown.frame {d : Conn} (h : Teardown c l) (hstate : d.state = c.state) (hbegun : d.begun = c.begun)
    (hpending : d.forceClosePending = c.forceClosePending) (hguard : d.forceCloseGuard = c.forceCloseGuard)
    (hgeneration : d.registrationGeneration = c.registrationGeneration) (hwriting : d.isWriting = c.isWriting)
    (hobserver : d.writeObserver = c.writeObserver) (hnotices : d.notices = c.notices)
    (hfinishes : d.finishes = c.finishes) (htransport : d.transport = c.transport) : Teardown d l := by
  have hup : d.up = c.up := by rw [Conn.up, Conn.up, hstate]
  obtain ⟨ht, hl, ⟨s₁, s₂, s₃, s₄⟩, ⟨w₁, w₂, w₃, w₄, w₅⟩, ha, ⟨d₁, d₂, d₃, d₄, d₅, d₆⟩⟩ := h
  unfold Listed at hl
  unfold Waits at d₄
  rw [← htransport] at ht ha s₁ s₂ w₁ w₃ w₄ d₁ d₃ d₄
  simp only [← hnotices, ← htransport] at hl
  rw [← hstate] at s₁ s₂ s₃ s₄ w₄ d₂ d₄ d₆
  rw [← hbegun] at s₄ w₁ w₂ w₃ w₄ d₁ d₄
  rw [← hup] at w₁ w₂ w₃ d₁
  rw [← hpending] at s₃ d₄ d₅
  rw [← hguard] at d₄ d₅
  rw [← hgeneration] at w₁ w₂
  rw [← hwriting] at w₃
  rw [← hobserver] at w₁
  rw [← hnotices] at w₂
  rw [← hfinishes] at s₄
  exact ⟨ht, hl, ⟨s₁, s₂, s₃, s₄⟩, ⟨w₁, w₂, w₃, w₄, w₅⟩, ha, ⟨d₁, d₂, d₃, d₄, d₅, d₆⟩⟩

/-- An operation is put above user code, or above nothing. -/
theorem Teardown.call (h : Teardown c l) (hu : userRuns l = true) (hholds : op.holds = false)
    (hop : op ≠ .handleWrite ∧ op ≠ .writeNext ∧ op ≠ .finishClose) (harrived : Arrived c.transport (some op))
    (hsends : op.isSend = true → c.up = true → c.begun = true →
      c.transport.write.writeCompletionPending = false)
    (hdestroys : op = .destroy → c.state = .kConnecting ∨ c.state = .kDisconnected) :
    Teardown c (op :: l) := by
  have hcount : ∀ q, op ≠ q → List.count q (op :: l) = l.count q := fun q hq => List.count_cons_of_ne hq
  have hw := h.watched
  refine ⟨h.transport, h.listed, h.settled, ⟨hw.submitted, hw.noticed, fun hup hb hbusy => hw.writing hup hb ?_,
    fun hstate hb hne => ?_, ?_⟩, harrived, ⟨?_, fun hh => hdestroys (Option.some.inj hh),
    fun hh => absurd (Option.some.inj hh) hop.2.2, ?_, fun hg => ?_,
    fun hm => h.draining.closing (holds_rest hholds hm)⟩⟩
  · exact hbusy.imp id (Or.imp id (Or.imp (fun hm => (List.mem_cons.mp hm).resolve_left hop.1.symm)
      (fun hm => (List.mem_cons.mp hm).resolve_left hop.2.1.symm)))
  · rcases hw.ahead hstate hb hne with hc | hh
    · exact .inl hc
    · -- a consumer is not user code
      cases l with
      | nil => cases hh
      | cons p tail =>
        cases hh
        cases hu
  · rw [hcount _ hop.1, hcount _ hop.2.1]
    exact hw.single
  · intro q hq
    cases hq
    exact hsends
  · exact h.draining.waits.moved (Moved.refl h.transport) (userRuns_closes hu)
  · exact (h.draining.guard hg).imp id (Or.imp (List.mem_cons_of_mem _)
      (fun ⟨b, hb⟩ => ⟨b, List.mem_cons_of_mem _ hb⟩))

/-- A completion is dequeued: its notice is the last one, and the operation is not pending any more. -/
theorem Teardown.dequeued {kind : OperationKind} {observer : Option Nat} {t : Transport} (h : Teardown c [])
    (hbusy : c.transport.hasPendingOperations = true) (hfree : completionPending c.transport kind = false)
    (ht : t.Ok) (hlive : t.write.discarded = c.transport.write.discarded)
    (hset : completionPending t kind = true)
    (hothers : ∀ k, kind ≠ k → completionPending t k = completionPending c.transport k)
    (hwatched : Watched { c with transport := t, notices := c.notices ++ [⟨kind, observer⟩] } []) :
    Teardown { c with transport := t, notices := c.notices ++ [⟨kind, observer⟩] } [] := by
  have hs := h.settled
  have hd := h.draining
  refine ⟨ht, fun k => ?_, ⟨fun hh => hlive.trans (hs.live hh), fun hh => ?_, hs.calm, hs.finishes⟩, hwatched,
    trivial, ⟨by simp, by simp, by simp, fun hb hstate => ?_, hd.guard, hd.closing⟩⟩
  · show ((c.notices ++ [_]).map Notice.kind).count k = if completionPending t k = true then 1 else 0
    rw [List.map_append, List.count_append, h.listed k]
    by_cases hk : kind = k
    · rw [← hk, hfree, hset]
      simp
    · rw [hothers k hk]
      simp [hk]
  · rw [hs.idle hh] at hbusy
    cases hbusy
  · obtain ⟨hf, hg, -⟩ := hd.waits.pending (by simp) hb hstate
    refine .inr ⟨hf, hg, .inl ?_⟩
    cases kind <;> simp_all [Transport.hasPendingOperations, completionPending]

/-- The poll dequeues a completion. -/
theorem dequeue_teardown {kind : OperationKind} {result : Completion} (h : Teardown c [])
    (hd : c.dequeue result kind = some c') : Teardown c' [] := by
  have hw := h.watched
  cases kind with
  | read =>
    obtain ⟨r, hr, rfl⟩ := Option.map_eq_some_iff.mp hd
    have hok := IocpTcpTransport.ReadHalf.Ok.observeTerminal hr
    obtain ⟨k, hk, hop⟩ := Option.bind_eq_some_iff.mp hr
    obtain ⟨op, -, rfl⟩ := Option.map_eq_some_iff.mp hop
    have hpending : c.transport.read.readPending = true := by rw [h.transport.read.pending, hk]; rfl
    refine h.dequeued (by simp [Transport.hasPendingOperations, hpending]) (h.transport.read.once hpending)
      ⟨hok, h.transport.write⟩ rfl rfl (fun k hk => ?_) { hw with noticed := fun hup hb n hn hk => ?_ }
    · cases k with
      | read => exact absurd rfl hk
      | write => rfl
    · rcases List.mem_append.mp hn with hn | hn
      · exact hw.noticed hup hb n hn hk
      · rw [List.mem_singleton.mp hn] at hk
        cases hk
  | write =>
    obtain ⟨w, hwr, rfl⟩ := Option.map_eq_some_iff.mp hd
    have hok := h.transport.write.observeTerminal hwr
    obtain ⟨k, hk, hop⟩ := Option.bind_eq_some_iff.mp hwr
    obtain ⟨op, -, rfl⟩ := Option.map_eq_some_iff.mp hop
    have hpending : c.transport.write.writePending = true := by rw [h.transport.write.pending, hk]; rfl
    refine h.dequeued (by simp [Transport.hasPendingOperations, hpending]) (h.transport.write.once hpending)
      ⟨h.transport.read, hok⟩ rfl rfl (fun k hk => ?_) ⟨by simp, fun hup hb n hn hk => ?_,
        fun hup hb _ => hw.writing hup hb (.inl hpending), fun _ _ _ => .inl rfl, hw.single⟩
    · cases k with
      | read => rfl
      | write => exact absurd rfl hk
    · rcases List.mem_append.mp hn with hn | hn
      · exact hw.noticed hup hb n hn hk
      · rw [List.mem_singleton.mp hn]
        exact hw.submitted hup hb hpending

/-- A notice stands for a completion, and is the only one of its kind. -/
theorem Listed.head {n : Notice} {tail : List Notice} (h : Listed c) (hn : c.notices = n :: tail) :
    completionPending c.transport n.kind = true ∧ (tail.map Notice.kind).count n.kind = 0 ∧
      ∀ k, n.kind ≠ k → (tail.map Notice.kind).count k = if completionPending c.transport k then 1 else 0 := by
  have hcount := h n.kind
  rw [hn, List.map_cons, List.count_cons_self] at hcount
  have hpending : completionPending c.transport n.kind = true := by
    cases hp : completionPending c.transport n.kind with
    | true => rfl
    | false =>
      rw [hp] at hcount
      cases hcount
  rw [hpending, if_pos rfl] at hcount
  refine ⟨hpending, Nat.succ.inj hcount, fun k hk => ?_⟩
  rw [← h k, hn, List.map_cons, List.count_cons_of_ne hk]

/-- A connection with something pending is up. -/
theorem Settled.busy (h : Settled c) (hbusy : c.transport.hasPendingOperations = true) : c.up = true := by
  refine up_of_ne (fun hh => ?_) (fun hh => ?_)
  · rw [h.idle (.inl hh)] at hbusy
    cases hbusy
  · rw [h.idle (.inr hh)] at hbusy
    cases hbusy

/-- A notice is taken, and its consumer is called. -/
theorem Teardown.consumed {tail : List Notice} {t : Transport} (h : Teardown c []) (hup : c.up = true)
    (ht : t.Ok)
    (hlive : t.write.discarded = c.transport.write.discarded)
    (hlisted : Listed { c with notices := tail, transport := t })
    (hwatched : Watched { c with notices := tail, transport := t } [op]) (harrived : Arrived t (some op))
    (hop : op = .drained ∨ (op = .handleRead ∨ op = .handleWrite) ∧ c.begun = false) :
    Teardown { c with notices := tail, transport := t } [op] := by
  have hs := h.settled
  have hplain : op.isSend = false ∧ op.holds = false ∧ op ≠ .destroy ∧ op ≠ .finishClose := by
    rcases hop with rfl | ⟨rfl | rfl, -⟩ <;> simp [Op.isSend, Op.holds]
  refine ⟨ht, hlisted, ⟨fun hh => hlive.trans (hs.live hh), fun hh => ?_, hs.calm, hs.finishes⟩,
    hwatched, harrived,
    ⟨fun q hq hsend => ?_, fun hh => absurd (Option.some.inj hh) hplain.2.2.1,
      fun hh => absurd (Option.some.inj hh) hplain.2.2.2, fun hb hst => ?_,
      fun hg => .inl (h.draining.guard_open (ne_down_of_up hup) hg),
      fun hm => absurd (holds_rest hplain.2.1 hm) (by simp)⟩⟩
  · have hoff : c.up = false := not_up_of_ends hh
    rw [hup] at hoff
    cases hoff
  · cases hq
    rw [hplain.1] at hsend
    cases hsend
  · obtain ⟨hf, hg, -⟩ := h.draining.waits.pending (by simp) hb hst
    rcases hop with rfl | ⟨-, hserving⟩
    · exact .inr ⟨hf, hg, .inr ⟨_, rfl, rfl⟩⟩
    · rw [show c.begun = _ from hserving] at hb
      cases hb

/-- The completion of a read is consumed. -/
theorem consumeRead_teardown {n : Notice} {tail : List Notice} (h : Teardown c []) (hn : c.notices = n :: tail)
    (hkind : n.kind = .read) (hcurrent : c.current n = true → c.up = true ∧ c.begun = false) :
    Teardown (c.consume n tail).1 (c.consume n tail).2 := by
  obtain ⟨hpending, hone, hothers⟩ := h.listed.head hn
  rw [hkind] at hpending hone hothers
  have hcompleted : c.transport.read.readCompletionPending = true := hpending
  have hfree : c.transport.read.readPending = false := eq_false_of_ne_true (fun hp => by
    rw [h.transport.read.once hp] at hcompleted
    cases hcompleted)
  have hw := h.watched
  -- what holds whichever consumer is called
  have key : ∀ op : Op, (op = .drained ∨ (op = .handleRead ∨ op = .handleWrite) ∧ c.begun = false) →
      op ≠ .handleWrite → Teardown { c with notices := tail
                                            transport := { c.transport with read := c.transport.read.consume } } [op] := by
    intro op hop hne
    have hne' : op ≠ .writeNext := by rcases hop with rfl | ⟨rfl | rfl, -⟩ <;> simp
    refine h.consumed (h.settled.busy (by simp [Transport.hasPendingOperations, hcompleted]))
      ⟨h.transport.read.consume, h.transport.write⟩ rfl (fun k => ?_) ⟨hw.submitted,
        fun hup hb m hm => hw.noticed hup hb m (by rw [hn]; exact .tail _ hm),
        fun hup hb hbusy => hw.writing hup hb (hbusy.imp id (Or.imp id ?_)),
        fun hst hb hz => (hw.ahead hst hb hz).imp id (fun hh => by cases hh), ?_⟩ ?_ hop
    · cases k with
      | read => exact hone
      | write => exact hothers .write (by simp)
    · rintro (hm | hm)
      · exact absurd (List.mem_singleton.mp hm).symm hne
      · exact absurd (List.mem_singleton.mp hm).symm hne'
    · rw [List.count_cons_of_ne hne, List.count_cons_of_ne hne']
      exact Nat.zero_le 1
    · rcases hop with rfl | ⟨rfl | rfl, -⟩
      · trivial
      · exact ⟨hfree, rfl⟩
      · exact absurd rfl hne
  unfold Conn.consume
  rw [hkind]
  dsimp only
  split
  · rename_i hc
    exact key _ (.inr ⟨.inl rfl, (hcurrent hc).2⟩) (by simp)
  · exact key _ (.inl rfl) (by simp)

/-- The completion of a write is consumed: by `handleWrite`, while the connection serves. -/
theorem consumeWrite_teardown {n : Notice} {tail : List Notice} (hcore : Core o c) (h : Teardown c [])
    (hn : c.notices = n :: tail) (hkind : n.kind = .write)
    (hcurrent : c.current n = true → c.up = true ∧ c.begun = false) :
    Teardown (c.consume n tail).1 (c.consume n tail).2 := by
  obtain ⟨hpending, hone, hothers⟩ := h.listed.head hn
  rw [hkind] at hpending hone hothers
  have hcompleted : c.transport.write.writeCompletionPending = true := hpending
  have hfree : c.transport.write.writePending = false := eq_false_of_ne_true (fun hp => by
    rw [h.transport.write.once hp] at hcompleted
    cases hcompleted)
  have hup := h.settled.busy (by simp [Transport.hasPendingOperations, hcompleted])
  have hw := h.watched
  have hlisted : Listed { c with notices := tail
                                 transport := { c.transport with write := c.transport.write.consume } } :=
    fun k => by
      cases k with
      | read => exact hothers .read (by simp)
      | write => exact hone
  unfold Conn.consume
  rw [hkind]
  dsimp only
  split
  case isTrue hc =>
    have hserving := hcurrent hc
    have hwriting := hw.writing hserving.1 hserving.2 (.inr (.inl hcompleted))
    have hdelivered := h.transport.write.delivered hcompleted
    exact h.consumed hup ⟨h.transport.read, h.transport.write.consume⟩ rfl hlisted
      ⟨hw.submitted, fun hup hb m hm => hw.noticed hup hb m (by rw [hn]; exact .tail _ hm),
        fun _ _ _ => hwriting, fun _ _ _ => .inr rfl, by decide⟩
      ⟨{ hdelivered with }, hfree, rfl⟩ (.inr ⟨.inr rfl, hserving.2⟩)
  case isFalse hc =>
    -- the registration is that of the submission until a close removes the channel
    have hbegun : c.begun = true := eq_true_of_ne_false (fun hb => by
      refine hc (Bool.and_eq_true_iff.mpr ⟨(hcore.serving hup hb).inLoop, ?_⟩)
      rw [hw.noticed hup hb n (by rw [hn]; exact .head _) hkind]
      exact beq_self_eq_true _)
    exact h.consumed hup ⟨h.transport.read, h.transport.write.consume⟩ rfl hlisted
      (watched_off (.inr hbegun) (.inr (.inr hbegun)) (by decide)) trivial (.inl rfl)

/-- A callback returns or throws. -/
theorem ret_teardown {source : CallbackSource} (threw : Bool)
    (hbelow : ∀ q ∈ rest, q.guarded = true → q = .destroyDetach) (h : Teardown c (.user source :: rest)) :
    Teardown c (source.next threw ++ rest) := by
  have hm := Moved.refl h.transport
  by_cases hsource : source = .close
  · -- the guard passes from the callback to the end of `finishClose`
    subst hsource
    have hstate := h.draining.closing (.inl (.head _))
    have hmem : ∃ b, Op.finishEnd b ∈ CallbackSource.close.next threw ++ rest :=
      ⟨threw, List.mem_append_left _ (by cases threw <;> decide)⟩
    have htop : Unbound (CallbackSource.close.next threw ++ rest) := fun q hq => by
      cases threw <;> cases hq <;> exact ⟨nofun, nofun, nofun, nofun, rfl⟩
    refine ⟨h.transport, h.listed, h.settled,
      watched_off (.inl (not_up_of_ends (.inr hstate))) (.inr (.inl hstate)) ?_, htop.arrived _,
      htop.draining (fun _ hh => absurd hstate hh) (fun _ => .inr (.inr hmem)) (fun _ => hstate)⟩
    have hnone : (CallbackSource.close.next threw).count .handleWrite = 0 ∧
        (CallbackSource.close.next threw).count .writeNext = 0 := by cases threw <;> decide
    have hsingle := h.watched.single_rest
    rw [List.count_append, List.count_append]
    omega
  · have hholds : (Op.user source).holds = false := by
      cases source <;> first | rfl | exact absurd rfl hsource
    have hnews : (source.next threw).all (fun q => !q.special) = true := by
      cases source with
      | close => exact absurd rfl hsource
      | message b => cases threw <;> cases b <;> rfl
      | _ => cases threw <;> rfl
    exact (Plain.pop hholds hnews hbelow).teardown h hm (h.draining.waits.next hm rfl) (.inl rfl)
      (fun hh => by cases hh)

end

section
variable {o : Options} {s s' : State} {l : Label}

theorem teardown_init : Teardown {} [] where
  transport := ⟨IocpTcpTransport.ReadHalf.ok_init, IocpTcpTransport.WriteHalf.ok_init⟩
  listed := fun k => by cases k <;> rfl
  settled := ⟨fun _ => rfl, fun _ => rfl, nofun, rfl⟩
  watched := watched_off (.inl rfl) (.inl rfl) (Nat.zero_le 1)
  arrived := trivial
  draining := ⟨nofun, nofun, nofun, nofun, nofun, nofun⟩

theorem start_teardown {e : Event} {r : Conn × List Op} (hsound : Sound o s) (h : Teardown s.conn s.owner)
    (hrest : s.owner = []) (ht : Timely s (.event e)) (he : s.conn.start e = some r) : Teardown r.1 r.2 := by
  rw [hrest] at h
  cases start_started he with
  | connectEstablished b => exact h.call rfl rfl ⟨nofun, nofun, nofun⟩ trivial nofun nofun
  | connectDestroyed => exact h.call rfl rfl ⟨nofun, nofun, nofun⟩ trivial nofun (fun _ => ht)
  | @consume n tail hn =>
    have hcurrent := hsound.current (n := n) hrest
    cases hkind : n.kind with
    | read => exact consumeRead_teardown h hn hkind hcurrent
    | write => exact consumeWrite_teardown hsound.core h hn hkind hcurrent
  | lifecycle => exact h.call rfl rfl ⟨nofun, nofun, nofun⟩ trivial nofun nofun
  | @functor f tail hf =>
    have hframe : Teardown { s.conn with functors := tail } [] :=
      h.frame rfl rfl rfl rfl rfl rfl rfl rfl rfl rfl
    cases f with
    | send data =>
      refine hframe.call rfl rfl ⟨nofun, nofun, nofun⟩ trivial (fun _ hup hbegun => ?_) nofun
      -- a close that has begun is pending here
      obtain ⟨hpending, -⟩ := h.draining.waits.pending (by simp) hbegun (ne_down_of_up hup)
      exact eq_false_of_ne_true (fun hc => ht (by rw [hf]; rfl) ⟨hpending, hc⟩)
    | writeComplete => exact hframe.call rfl rfl ⟨nofun, nofun, nofun⟩ trivial nofun nofun
    | highWaterMark => exact hframe.call rfl rfl ⟨nofun, nofun, nofun⟩ trivial nofun nofun

theorem push_runs {c : Conn} {news rest : List Op} (h : Runs c (news ++ rest)) :
    Runs (s.push c news rest).conn (s.push c news rest).owner := by
  rw [push_owner (s := s) h.1]
  exact h

theorem step_teardown (hsound : Sound o s) (h : Teardown s.conn s.owner) (ht : Timely s l)
    (hs : step o s l = some s') : Runs s'.conn s'.owner := by
  obtain ⟨hrun, hmove⟩ := step_move hs
  cases hmove with
  | post data => exact ⟨hrun, h.frame rfl rfl rfl rfl rfl rfl rfl rfl rfl rfl⟩
  | request kind => exact ⟨hrun, h.frame rfl rfl rfl rfl rfl rfl rfl rfl rfl rfl⟩
  | dequeue hrest hd =>
    rw [hrest] at h
    exact ⟨(dequeue_same (o := o) hd).2.2.trans hrun, by rw [hrest]; exact dequeue_teardown h hd⟩
  | event hrest he =>
    refine push_runs ⟨(start_same (o := o) he).2.2.trans hrun, ?_⟩
    rw [List.append_nil]
    exact start_teardown hsound h hrest ht he
  | own hl he =>
    have hstack := hsound.stack
    rw [hl] at hstack h
    exact push_runs (exec_runs hsound.core hstack h hrun he)
  | ownSend hu hstate =>
    refine push_runs ⟨hrun, h.call hu rfl ⟨nofun, nofun, nofun⟩ trivial (fun _ _ hb => ?_) nofun⟩
    rcases (hsound.core.leaving hb).state with hh | hh <;> rw [hstate] at hh <;> cases hh
  | ownClose hu hstate =>
    rename_i kind
    have hframe : Teardown (s.conn.request kind) s.owner := h.frame rfl rfl rfl rfl rfl rfl rfl rfl rfl rfl
    exact push_runs ⟨hrun, hframe.call hu rfl ⟨nofun, nofun, nofun⟩ trivial nofun nofun⟩
  | ownDestroy hu =>
    exact push_runs ⟨hrun, h.call hu rfl ⟨nofun, nofun, nofun⟩ trivial nofun (fun _ => ht)⟩
  | retrieve hl => exact ⟨hrun, h.frame rfl rfl rfl rfl rfl rfl rfl rfl rfl rfl⟩
  | ret hl =>
    have hstack := hsound.stack
    rw [hl] at hstack h
    exact push_runs ⟨hrun, ret_teardown _ hstack.below h⟩

theorem reach_teardown (h : Reach (· = {}) (step o) Timely s) :
    s.conn.fatal = none ∧ Teardown s.conn s.owner := by
  refine Reach.invariant_with (K := fun s => s.conn.fatal = none → Sound o s)
    (P := fun s => s.conn.fatal = none ∧ Teardown s.conn s.owner) (fun h => reach_sound h) ?_ ?_ h
  · rintro _ rfl
    exact ⟨rfl, teardown_init⟩
  · rintro s l s' hsound ⟨hfatal, hteardown⟩ htimely hstep
    exact step_teardown (hsound hfatal) hteardown htimely hstep

end

/-! ## The owner's stack empties -/

/-- An operation weighs more than all that it puts on the stack. -/
def Op.weight : Op → Nat
  | .destroyDetach | .clearForce | .driveGraceful | .queueWriteComplete | .queueHighWaterMark
  | .user .exceptionObserver => 1
  | .user .disconnected | .user .closeInfo | .user .destroyed => 2
  | .destroy => 4
  | .finishEnd _ => 5
  | .user .close => 7
  | .finishClose => 12
  | .closeSocket => 13
  | .closeChannel => 14
  | .beginClose => 15
  | .handleClose | .forceClose | .drained => 16
  | .handleError _ | .callbackFailed => 17
  | .readNext | .resumeNext | .writeNext | .sendStart _ _ => 18
  | .readLimit | .resumeLimit | .driveForce | .user .established | .user .writeComplete
  | .user .highWaterMark => 19
  | .user (.message _) | .establishRead => 20
  | .resumeRead | .handleRead | .establish _ => 21
  | .handleWrite | .sendReserved _ => 40
  | .sendFunctor _ => 41

def weight (l : List Op) : Nat := (l.map Op.weight).sum

theorem weight_append (l l' : List Op) : weight (l ++ l') = weight l + weight l' := by
  simp [weight]

section
variable {o : Options} {c c' : Conn} {op : Op} {env : Env} {news : List Op}

theorem highWaterMarkOps_weight (m n : Nat) : weight (highWaterMarkOps o m n) ≤ 1 := by
  unfold highWaterMarkOps
  split <;> decide

theorem backpressureOps_weight (c : Conn) : weight (c.applyBackpressureInLoop o).2 ≤ 21 := by
  unfold Conn.applyBackpressureInLoop
  dsimp only
  split <;> decide

theorem errorOps_weight (e : Nat) (l : List Op) (h : weight l < 18) :
    weight (if e ≠ 0 then [Op.handleError e] else l) < 18 := by
  split
  · exact Nat.lt_succ_self 17
  · exact h

theorem transientOps_weight (e : Nat) :
    weight (if isTransient e = true then [] else [Op.handleError e]) < 18 := by
  split
  · exact Nat.succ_pos 17
  · exact Nat.lt_succ_self 17

theorem inputLimit_weight {next : Op} (he : c.inputLimit o next = (c', news)) (h : next.weight < 19) :
    weight news < 19 := by
  unfold Conn.inputLimit at he
  split at he <;> cases he
  · show 16 + 0 < 19
    omega
  · show next.weight + 0 < 19
    omega

theorem execTransfer_weight (he : execTransfer o c op env = some (c', news)) : weight news < op.weight := by
  have hbackpressure (c : Conn) (next : Op) (hnext : next.weight = 18) :
      weight ((c.applyBackpressureInLoop o).2 ++ [next]) < 40 := by
    rw [weight_append]
    exact Nat.lt_of_le_of_lt (Nat.add_le_add_right (backpressureOps_weight _) _) (by simp [weight, hnext])
  have hmark (m n : Nat) : weight (highWaterMarkOps o m n) < 18 :=
    Nat.lt_of_le_of_lt (highWaterMarkOps_weight m n) (by decide)
  revert c' news
  fun_cases execTransfer o c op env
  all_goals intro c' news he
  all_goals first
    | (cases he; done)
    | (cases he; simp [weight, Op.weight]; done)
    | (cases he; exact hbackpressure _ _ rfl)
    | (cases he; exact (transientOps_weight _).trans (by decide))
    | exact inputLimit_weight (Option.some.inj he) (Nat.lt_succ_self 18)
    | (obtain ⟨r, -, hres⟩ := Option.map_eq_some_iff.mp he
       cases hres
       exact errorOps_weight _ _ (Nat.succ_pos 17))
    | skip
  -- `sendStart`
  · cases he
    exact hmark _ _
  · obtain ⟨r, -, hres⟩ := Option.map_eq_some_iff.mp he
    split at hres <;> cases hres
    · exact Nat.lt_succ_self 17
    · exact hmark _ _

theorem execLifecycle_weight (he : execLifecycle o c op env = some (c', news)) : weight news < op.weight := by
  revert c' news
  fun_cases execLifecycle o c op env
  all_goals intro c' news he
  all_goals first
    | (cases he; done)
    | (cases he; simp [weight, Op.weight]; done)
    | (cases he; split <;> simp [weight, Op.weight])
    | skip
  -- `establishRead`
  · obtain ⟨r, -, hres⟩ := Option.map_eq_some_iff.mp he
    cases hres
    split <;> simp [weight, Op.weight]
  -- `closeSocket`
  · have hnews : c.closeSocket.2 = news := by rw [Option.some.inj he]
    rw [← hnews, Conn.closeSocket]
    split <;> simp [weight, Op.weight]

theorem exec_weight (he : exec o c op env = some (c', news)) : weight news < op.weight :=
  (exec_cases he).elim execTransfer_weight execLifecycle_weight

theorem next_weight (threw : Bool) (source : CallbackSource) :
    weight (source.next threw) < (Op.user source).weight := by
  cases source with
  | message b => cases threw <;> cases b <;> decide
  | _ => cases threw <;> decide

/-- The answer under which an operation is never refused: the kernel rejects what is submitted. -/
def Op.answer : Op → Env
  | .sendStart _ _ | .resumeNext | .readNext | .writeNext | .establishRead => .submit (.rejected 1)
  | .queueWriteComplete | .queueHighWaterMark => .post false
  | _ => .nothing

theorem startRead_answered (o : Options) (c : Conn) : (c.startRead o (.rejected 1)).isSome = true := by
  unfold Conn.startRead
  rw [if_neg (fun hh => by cases hh.1), Option.isSome_map]
  unfold IocpTcpTransport.ReadHalf.startRead
  split
  · rfl
  · split <;> rfl

theorem startWrite_answered (c : Conn) : (c.startWrite (.rejected 1)).isSome = true := by
  unfold Conn.startWrite
  rw [if_neg (fun hh => by cases hh.1), Option.isSome_map]
  unfold IocpTcpTransport.WriteHalf.startWrite
  split
  · rfl
  · split <;> rfl

theorem exec_isSome (h : (execTransfer o c op env).isSome = true ∨ (execLifecycle o c op env).isSome = true) :
    (exec o c op env).isSome = true := by
  unfold exec
  cases ht : execTransfer o c op env with
  | some r => rfl
  | none =>
    rw [ht] at h
    exact h.resolve_left Bool.false_ne_true

/-- No operation but a callback of the user waits. -/
theorem exec_answered (o : Options) (c : Conn) (op : Op) (hop : ∀ source, op ≠ .user source) :
    (exec o c op op.answer).isSome = true := by
  have hread := startRead_answered o c
  have hwrite := startWrite_answered c
  apply exec_isSome
  cases op with
  | user source => exact absurd rfl (hop source)
  | sendFunctor data | sendReserved data | resumeRead | resumeLimit | readLimit | queueWriteComplete
  | queueHighWaterMark =>
    refine .inl ?_
    simp only [Op.answer, execTransfer]
    repeat' split
    all_goals rfl
  | sendStart m n | resumeNext | readNext | writeNext =>
    refine .inl ?_
    simp only [Op.answer, execTransfer]
    repeat' split
    all_goals simp only [Option.isSome_map, Option.isSome_some, hread, hwrite]
  | handleRead | handleWrite =>
    refine .inl ?_
    simp only [Op.answer, execTransfer]
    split
    · rfl
    · repeat' split
      all_goals rfl
  | establishRead =>
    refine .inr ?_
    simp only [Op.answer, execLifecycle]
    split
    · rw [Option.isSome_map, hread]
    · rfl
  | _ =>
    refine .inr ?_
    simp only [Op.answer, execLifecycle]
    repeat' split
    all_goals rfl

end

/-- The owner runs its stack, and the user code on it returns. -/
def Returns (_ : State) : Label → Prop
  | .own _ | .ret false => True
  | _ => False

section
variable {o : Options} {s : State}

/-- The top of the stack can be run, and makes the stack lighter. -/
theorem owner_lighter (h : Reach (· = {}) (step o) Timely s) (howner : s.owner ≠ []) :
    ∃ l s', Returns s l ∧ step o s l = some s' ∧ Reach (· = {}) (step o) Timely s' ∧
      weight s'.owner < weight s.owner := by
  have hrun : s.conn.fatal = none := (reach_teardown h).1
  have hgoes : ¬s.conn.fatal.isSome = true := by rw [hrun]; exact Bool.false_ne_true
  have lighter : ∀ (op : Op) (rest : List Op) (c : Conn) (news : List Op), s.owner = op :: rest →
      (s.push c news rest).conn.fatal = none → weight news < op.weight →
      weight (s.push c news rest).owner < weight s.owner := fun op rest c news hl hf hw => by
    rw [push_owner hf, hl, weight_append]
    show _ < op.weight + weight rest
    omega
  cases hl : s.owner with
  | nil => exact absurd hl howner
  | cons op rest =>
    rw [← hl]
    by_cases huser : ∃ source, op = .user source
    · obtain ⟨source, rfl⟩ := huser
      have hstep : step o s (.ret false) = some (s.push s.conn (source.next false) rest) := by
        simp only [step, if_neg hgoes, hl]
      have htimely : Timely s (.ret false) := trivial
      exact ⟨.ret false, _, trivial, hstep, .next h htimely hstep,
        lighter _ _ _ _ hl hrun (next_weight false source)⟩
    · obtain ⟨r, hr⟩ := Option.isSome_iff_exists.mp
        (exec_answered o s.conn op (fun source hs => huser ⟨source, hs⟩))
      have hstep : step o s (.own op.answer) = some (s.push r.1 r.2 rest) := by
        simp only [step, if_neg hgoes, hl, hr, Option.map_some]
      have htimely : Timely s (.own op.answer) := trivial
      have hreach : Reach (· = {}) (step o) Timely (s.push r.1 r.2 rest) := .next h htimely hstep
      exact ⟨.own op.answer, _, trivial, hstep, hreach,
        lighter _ _ _ _ hl (reach_teardown hreach).1 (exec_weight hr)⟩

theorem owner_rests (h : Reach (· = {}) (step o) Timely s) :
    ∃ t, Reach (· = s) (step o) Returns t ∧ t.owner = [] :=
  Reach.descend (K := Reach (· = {}) (step o) Timely) (fun s => weight s.owner)
    (fun _ hK howner => owner_lighter hK howner) s h

/-- At rest, with nothing pending, a close that has begun has ended. -/
theorem Teardown.ended {c : Conn} (h : Teardown c []) (hbegun : c.begun = true)
    (hidle : c.transport.hasPendingOperations = false) : c.finishes = 1 ∧ c.forceCloseGuard = false := by
  have hstate : c.state = .kDisconnected := not_not.mp (fun hopen => by
    rcases h.draining.waits hbegun hopen with (hh | ⟨hh, -⟩) | ⟨-, -, hp | ⟨q, -, hh⟩⟩
    · cases hh
    · cases hh
    · rw [hidle] at hp
      cases hp
    · cases hh)
  refine ⟨by rw [h.settled.finishes, if_pos ⟨hbegun, hstate⟩], eq_false_of_ne_true (fun hg => ?_)⟩
  rcases h.draining.guard hg with hp | hm | ⟨b, hb⟩
  · rw [h.settled.calm hstate] at hp
    cases hp
  · cases hm
  · cases hb

/-- What the kernel holds and what waits to be consumed is what is pending. -/
theorem Teardown.idle_of {c : Conn} {l : List Op} (h : Teardown c l) (hr : c.transport.read.kernelRead = none)
    (hw : c.transport.write.kernelWrite = none) (hn : c.notices = []) :
    c.transport.hasPendingOperations = false := by
  have hflag : ∀ k, completionPending c.transport k = false := fun k => eq_false_of_ne_true (fun hp => by
    have hcount := h.listed k
    rw [hn, hp] at hcount
    cases hcount)
  have hrp : c.transport.read.readPending = false := by rw [h.transport.read.pending, hr]; rfl
  have hwp : c.transport.write.writePending = false := by rw [h.transport.write.pending, hw]; rfl
  have hrc : c.transport.read.readCompletionPending = false := hflag .read
  have hwc : c.transport.write.writeCompletionPending = false := hflag .write
  simp only [Transport.hasPendingOperations, hrp, hwp, hrc, hwc, Bool.or_self]

end

/-- **The teardown waits for the kernel and finishes.** In every run that is timely: the process is not
    ended; `finishClose` runs while nothing is pending or waits to be consumed; what the kernel holds is
    the storage that is in use and the first segment; the owner's stack empties when user code returns,
    and once it is empty, a close has begun and every notice is consumed, `finishClose` has run once and
    the guard is released; the buffered bytes are the unsent ones, and what the socket has got is a
    prefix of what was sent. -/
theorem teardown_finishes (o : Options) (s : State) (h : Reach (· = {}) (step o) Timely s) :
    s.conn.fatal = none ∧
    (s.owner.head? = some .finishClose → s.conn.transport.hasPendingOperations = false) ∧
    (∀ k, s.conn.transport.read.kernelRead = some k →
      k.storage = s.conn.transport.read.readStorage ∧ k.length ≤ s.conn.transport.read.readStorageBytes) ∧
    (∀ k, s.conn.transport.write.kernelWrite = some k → ∃ front rest,
      s.conn.transport.write.writeSegments = front :: rest ∧ front.id = k.segment ∧ front.offset = k.offset ∧
        front.offset + k.length ≤ front.bytes.length) ∧
    (∃ t, Reach (· = s) (step o) Returns t ∧ t.owner = []) ∧
    s.conn.finishes ≤ 1 ∧
    (s.owner = [] → s.conn.begun = true → s.conn.transport.read.kernelRead = none →
      s.conn.transport.write.kernelWrite = none → s.conn.notices = [] →
      s.conn.finishes = 1 ∧ s.conn.forceCloseGuard = false) ∧
    s.conn.transport.write.bufferedWriteBytes = (unsent s.conn.transport.write.writeSegments).length ∧
    s.conn.transport.write.written <+: s.conn.transport.write.taken := by
  obtain ⟨hfatal, ht⟩ := reach_teardown h
  refine ⟨hfatal, ht.draining.finishing, ht.transport.read.held, fun k hk => ?_, owner_rests h, ?_,
    fun howner hbegun hr hw hn => ?_, ht.transport.write.buffered, ht.transport.write.sent⟩
  · obtain ⟨hlen, -, ⟨front', rest', heq', hfits⟩, front, rest, heq, hid, hoff⟩ := ht.transport.write.held k hk
    rw [heq] at heq'
    cases heq'
    exact ⟨_, _, heq, hid, hoff, by rw [hlen]; exact hfits⟩
  · rw [ht.settled.finishes]
    split <;> decide
  · have hidle := ht.idle_of hr hw hn
    rw [howner] at ht
    exact ht.ended hbegun hidle

/-- A force close finds a read and a write pending: the connection is ended when both completions are
    consumed. -/
theorem teardown_finishes_drained :
    ∃ s, Reach (· = {}) (step TcpConnection.smallConnection) Timely s ∧ s.owner = [] ∧
      s.conn.begun = true ∧ s.conn.transport.write.written = [1] ∧
      s.conn.finishes = 1 ∧ s.conn.forceCloseGuard = false := by
  obtain ⟨s, hr, howner, hbegun, hwritten, hread, hwrite, hnotices⟩ := Reach.of_run (· = {})
    (step TcpConnection.smallConnection) Timely
    (fun s => s.owner = [] ∧ s.conn.begun = true ∧ s.conn.transport.write.written = [1] ∧
      s.conn.transport.read.kernelRead = none ∧ s.conn.transport.write.kernelWrite = none ∧
      s.conn.notices = []) {} rfl
    [.event (.connectEstablished true), .own .nothing, .own (.submit .taken), .ret false, .ownSend [1, 2],
      .own .nothing, .own (.submit .taken), .ownClose .force, .own .nothing, .own .nothing, .own .nothing,
      .own .nothing, .own .nothing, .own .nothing, .own .nothing, .dequeue .write (.bytes 1), .event .consume,
      .own .nothing, .dequeue .read (.failed 995), .event .consume, .own .nothing, .own .nothing,
      .own .nothing, .own .nothing, .own .nothing, .ret false, .ret false, .ret false, .own .nothing]
    (by decide +kernel)
  have hend := (teardown_finishes TcpConnection.smallConnection s hr).2.2.2.2.2.2.1 howner hbegun hread hwrite
    hnotices
  exact ⟨s, hr, howner, hbegun, hwritten, hend⟩

/-- A send of another thread is queued, the completion of a write is dequeued, and the connection is
    force closed before either is taken up. The send starts first: the write is not submitted, since the
    completion waits, and the removed channel is asked to write. The process ends, and the close does
    not. -/
theorem late_send_ends_process :
    ∃ s, Reach (· = {}) (step TcpConnection.smallConnection) Any s ∧
      s.conn.fatal = some .associationFailed ∧ s.conn.begun = true ∧ s.conn.finishes = 0 :=
  Reach.of_run _ _ _ _ {} rfl
    [.event (.connectEstablished true), .own .nothing, .own (.submit .taken), .ret false, .ownSend [1],
      .own .nothing, .own (.submit .taken), .post [2], .dequeue .write (.bytes 1), .ownClose .force,
      .own .nothing, .own .nothing, .own .nothing, .own .nothing, .own .nothing, .own .nothing, .own .nothing,
      .event .functor, .own .nothing, .own .nothing, .own (.submit (.rejected 1))] (by decide +kernel)

end GameNet.IocpConnection
