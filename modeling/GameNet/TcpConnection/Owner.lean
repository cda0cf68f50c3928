import GameNet.TcpConnection.Ledger

/- The owner loop's stack. Most operations only touch flags, the word and the loop's
   queues; the others work one at a time, and what an operation has found out about the
   connection still holds when the one it prepared is reached. -/
namespace GameNet.TcpConnection

/-! ## Operations that leave the owner's data alone -/

/-- What only the owner loop writes. -/
structure SameCore (c c' : Conn) : Prop where
  state : c'.state = c.state
  closePhase : c'.closePhase = c.closePhase
  lifecycleSource : c'.lifecycleSource = c.lifecycleSource
  channelAdded : c'.channelAdded = c.channelAdded
  channelRemoved : c'.channelRemoved = c.channelRemoved
  isWriting : c'.isWriting = c.isWriting
  input : c'.input = c.input
  outputBuffer : c'.outputBuffer = c.outputBuffer
  written : c'.written = c.written
  taken : c'.taken = c.taken
  halfCloses : c'.halfCloses = c.halfCloses

/-- The operations after which nothing but operations of this kind follows and that leave the
    owner's data alone. -/
def Op.passive : Op → Bool
  | .queueWriteComplete | .queueHighWaterMark | .setOverloaded | .retSend _ _ | .release _
  | .clearOverloaded | .signal | .publish _ | .signalLifecycle _ | .retClose _ _
  | .clearForce | .clearGraceful => true
  | _ => false

/-- The operations of calls on other threads. -/
def Op.crossThread : Op → Bool
  | .sendCheckSealed _ | .sendCheckGraceful _ | .sendCheckForce _ | .sendCheckConnected _
  | .reserveLoad _ | .reserveOverload _ _ | .reserveClear _ | .reserveCas _ _
  | .reserveBudgets _ | .sendDispatch _ | .setOverloaded | .retSend _ _ | .release _
  | .clearOverloaded | .signal | .closeCheck _ | .closeSeal _ | .closePublish _ _
  | .closeFlag _ _ | .signalLifecycle _ | .retClose _ _ => true
  | _ => false

section
variable {o : Options} {c c' : Conn} {caller : Caller} {op : Op} {env : Env} {news : List Op}

theorem sameCore_rfl : SameCore c c := ⟨rfl, rfl, rfl, rfl, rfl, rfl, rfl, rfl, rfl, rfl, rfl⟩

theorem reserveLoop_crossThread (p : Payload) (current : Nat) :
    (reserveLoop o c p current).all Op.crossThread = true := by
  unfold reserveLoop
  split_ifs <;> rfl

/-- A passive operation, and one of a call on another thread, leave the owner's data alone. -/
theorem exec_aside (h : exec o c caller op env = some (c', news))
    (hop : op.passive = true ∨ caller = .remote ∧ op.crossThread = true) :
    SameCore c c' ∧ (op.passive = true → news.all Op.passive = true) ∧
      (op.crossThread = true → news.all Op.crossThread = true) := by
  rcases exec_cases h with h | h | h | h
  all_goals revert h
  case' inr.inr.inr => fun_cases execOwner o c op env
  case' inr.inr.inl => fun_cases execRequest c caller op env
  case' inr.inl => fun_cases execOutput o c op env
  case' inl => fun_cases execSend o c caller op env
  all_goals intro h; cases h
  all_goals first
    | (rcases hop with hop | ⟨-, hop⟩ <;> cases hop; done)
    | refine ⟨⟨rfl, rfl, rfl, rfl, rfl, rfl, rfl, rfl, rfl, rfl, rfl⟩, ?_, ?_⟩
  all_goals first | exact fun _ => rfl | (intro h; cases h; done) | intro _
  · exact reserveLoop_crossThread _ _
  -- only the owner sends directly
  · rename_i hremote _ _
    exact absurd (hop.resolve_left (fun h => by cases h)).1 hremote
  -- a release clears the latch and signals
  · split <;> split <;> rfl
  · split <;> split <;> rfl
  -- only the owner drives a close request
  · obtain ⟨rfl, -⟩ := hop.resolve_left (fun h => by cases h)
    rfl
  · obtain ⟨rfl, -⟩ := hop.resolve_left (fun h => by cases h)
    rfl

theorem exec_passive (h : exec o c caller op env = some (c', news)) (hop : op.passive = true) :
    SameCore c c' ∧ news.all Op.passive = true :=
  have ⟨hsame, hnews, _⟩ := exec_aside h (.inl hop)
  ⟨hsame, hnews hop⟩

theorem exec_crossThread (h : exec o c .remote op env = some (c', news))
    (hop : op.crossThread = true) : SameCore c c' ∧ news.all Op.crossThread = true :=
  have ⟨hsame, _, hnews⟩ := exec_aside h (.inr ⟨rfl, hop⟩)
  ⟨hsame, hnews hop⟩

end

/-! ## The operation that is at work -/

/-- The owner's stack from its first operation that is not passive. -/
def top (l : List Op) : List Op := l.dropWhile Op.passive

def active (l : List Op) : Option Op := (top l).head?

/-- The operations that rely on what an earlier one has found out. -/
def Op.guarded : Op → Bool
  | .establishState | .closeState | .closeChannel | .closeSocket | .shutdownInLoop | .shutdownLoad
  | .shutdownWrite | .bufferRest _ | .writeDone | .destroyState => true
  | _ => false

/-- What they rely on. -/
def Conn.Guard (c : Conn) : Option Op → Prop
  | some .establishState => c.state = .kConnecting ∧ c.lifecycleSource = true ∧
      c.channelRemoved = false
  | some .closeState | some (.bufferRest _) => c.state ≠ .kDisconnected
  | some .closeChannel => c.state = .kDisconnecting
  | some .closeSocket => c.state = .kDisconnecting ∧ (c.channelAdded = true → c.channelRemoved = true)
  | some .destroyState => c.outputBuffer = []
  | some .shutdownInLoop => c.state = .kDisconnecting
  | some .shutdownLoad => c.state = .kDisconnecting ∧ c.socketClosed = false ∧
      isSealed c.pendingOutputBytes = true
  | some .shutdownWrite => c.state = .kDisconnecting ∧ c.socketClosed = false ∧
      isSealed c.pendingOutputBytes = true ∧ byteCount c.pendingOutputBytes = 0
  | _ => True

/-- The operations that lead to the end of the connection. -/
def Op.closing : Op → Bool
  | .handleError _ | .handleClose | .beginClose | .closeState | .closeChannel | .closeSocket
  | .destroyState => true
  | _ => false

/-- The bytes of a payload that is being taken up and is not buffered yet. -/
def restOf : Option Op → List UInt8
  | some (.bufferRest data) => data
  | _ => []

/-- Until the connection is lost, what the socket got and what is buffered are the payloads
    that were taken up. -/
def Conn.Stream (c : Conn) (a : Option Op) : Prop :=
  c.state = .kDisconnected ∨ c.socketClosed = true ∨ a.any Op.closing = true ∨
    c.written ++ c.outputBuffer ++ restOf a = (c.taken.map Payload.data).flatten

structure OwnerOk (c : Conn) (l : List Op) : Prop where
  guard : c.Guard (active l)
  below : (top l).tail.all (fun op => !op.guarded) = true
  stream : c.Stream (active l)

theorem top_append (l l' : List Op) :
    top (l ++ l') = if top l = [] then top l' else top l ++ l' := by
  unfold top
  rw [List.dropWhile_append]
  simp

section
variable {op : Op} {news rest : List Op}

theorem mem_of_top {l : List Op} (h : op ∈ top l) : op ∈ l :=
  (List.dropWhile_suffix Op.passive).subset h

theorem top_cons (rest : List Op) (hop : op.passive = false) : top (op :: rest) = op :: rest := by
  simp [top, hop]

theorem active_cons (rest : List Op) (hop : op.passive = false) : active (op :: rest) = some op := by
  rw [active, top_cons rest hop]
  rfl

theorem active_append_of_ne (h : top news ≠ []) : active (news ++ rest) = active news := by
  unfold active
  rw [top_append, if_neg h, List.head?_append_of_ne_nil _ h]

theorem active_append_of_nil (h : top news = []) (hrest : rest.all (fun op => !op.guarded) = true) :
    (active (news ++ rest)).all (fun op => !op.guarded) = true := by
  unfold active
  rw [top_append, if_pos h]
  cases hr : top rest with
  | nil => rfl
  | cons op l => exact List.all_eq_true.mp hrest op (mem_of_top (by simp [hr]))

end

theorem guard_of_unguarded {c : Conn} {a : Option Op} (h : a.all (fun op => !op.guarded) = true) :
    c.Guard a := by
  cases a with
  | none => trivial
  | some op => cases op <;> trivial

theorem restOf_of_unguarded {a : Option Op} (h : a.all (fun op => !op.guarded) = true) :
    restOf a = [] := by
  cases a with
  | none => rfl
  | some op => cases op <;> first | rfl | cases h

/-- A stack stays in order over operations that rely on nothing. -/
theorem OwnerOk.append {c : Conn} {news rest : List Op} (h : OwnerOk c news)
    (hrest : rest.all (fun op => !op.guarded) = true) : OwnerOk c (news ++ rest) := by
  by_cases hnews : top news = []
  case neg =>
    have hactive : active (news ++ rest) = active news := active_append_of_ne hnews
    refine ⟨hactive ▸ h.guard, ?_, hactive ▸ h.stream⟩
    rw [top_append, if_neg hnews, List.tail_append_of_ne_nil hnews, List.all_append, h.below, hrest]
    rfl
  case pos =>
    -- what is at work now is an operation of `rest`
    have hactive := active_append_of_nil hnews hrest
    refine ⟨guard_of_unguarded hactive, ?_, ?_⟩
    · rw [top_append, if_pos hnews]
      exact List.all_eq_true.mpr fun op hop =>
        List.all_eq_true.mp hrest op (mem_of_top (List.mem_of_mem_tail hop))
    · have hnone : active news = none := by simp [active, hnews]
      rcases h.stream with hs | hs | hs | hs
      · exact .inl hs
      · exact .inr (.inl hs)
      · rw [hnone] at hs
        cases hs
      · refine .inr (.inr (.inr ?_))
        rw [restOf_of_unguarded hactive]
        rwa [hnone] at hs

/-- Passive operations on top change nothing. -/
theorem top_passive {l : List Op} (h : l.all Op.passive = true) (l' : List Op) :
    top (l ++ l') = top l' := by
  unfold top
  exact List.dropWhile_append_of_pos (List.all_eq_true.mp h)

theorem OwnerOk.of_top {c : Conn} {l l' : List Op} (h : OwnerOk c l) (htop : top l' = top l) :
    OwnerOk c l' := by
  have hactive : active l' = active l := by rw [active, active, htop]
  exact ⟨hactive ▸ h.guard, htop ▸ h.below, hactive ▸ h.stream⟩

theorem OwnerOk.passive_append {c : Conn} {l l' : List Op} (h : OwnerOk c l')
    (hl : l.all Op.passive = true) : OwnerOk c (l ++ l') :=
  h.of_top (top_passive hl l')

/-- What the owner's data and the closed word keep. -/
theorem guard_frame {c c' : Conn} {a : Option Op} (hg : c.Guard a) (hc : SameCore c c')
    (hw : isSealed c.pendingOutputBytes = true → isSealed c'.pendingOutputBytes = true ∧
      byteCount c'.pendingOutputBytes ≤ byteCount c.pendingOutputBytes) : c'.Guard a := by
  have hclosed : c'.socketClosed = c.socketClosed := by
    rw [Conn.socketClosed, hc.closePhase, Conn.socketClosed]
  cases a with
  | none => trivial
  | some op =>
    cases op
    case establishState =>
      exact ⟨hc.state.trans hg.1, hc.lifecycleSource.trans hg.2.1, hc.channelRemoved.trans hg.2.2⟩
    case closeState => exact fun h => hg (hc.state ▸ h)
    case closeChannel => exact hc.state.trans hg
    case closeSocket =>
      exact ⟨hc.state.trans hg.1, fun h => hc.channelRemoved.trans (hg.2 (hc.channelAdded ▸ h))⟩
    case bufferRest => exact fun h => hg (hc.state ▸ h)
    case destroyState => exact hc.outputBuffer.trans hg
    case shutdownInLoop => exact hc.state.trans hg
    case shutdownLoad => exact ⟨hc.state.trans hg.1, hclosed.trans hg.2.1, (hw hg.2.2).1⟩
    case shutdownWrite =>
      obtain ⟨hstate, hopen, hseal, hzero⟩ := hg
      obtain ⟨hseal, hle⟩ := hw hseal
      exact ⟨hc.state.trans hstate, hclosed.trans hopen, hseal, by omega⟩
    all_goals trivial

theorem OwnerOk.frame {c c' : Conn} {l : List Op} (h : OwnerOk c l) (hc : SameCore c c')
    (hw : isSealed c.pendingOutputBytes = true → isSealed c'.pendingOutputBytes = true ∧
      byteCount c'.pendingOutputBytes ≤ byteCount c.pendingOutputBytes) : OwnerOk c' l := by
  refine ⟨guard_frame h.guard hc hw, h.below, ?_⟩
  have hs := h.stream
  unfold Conn.Stream Conn.socketClosed at hs ⊢
  rwa [hc.state, hc.closePhase, hc.written, hc.outputBuffer, hc.taken]

theorem releaseOps_passive (n : Nat) : (releaseOps n).all Op.passive = true := by
  unfold releaseOps
  split <;> rfl

/-! ## Steps of the owner loop -/

section
variable {o : Options} {c c' : Conn} {op : Op} {env : Env} {news : List Op}

theorem execSend_owner (h : execSend o c .owner op env = some (c', news))
    (hop : op.passive = false) (hs : c.Stream (some op)) : OwnerOk c' news := by
  revert h
  fun_cases execSend o c .owner op env
  all_goals intro h; cases h
  all_goals first
    | (cases hop; done)
    | exact ⟨trivial, rfl, hs⟩
    | skip
  unfold reserveLoop
  split_ifs <;> exact ⟨trivial, rfl, hs⟩

/-- A payload is taken up: its bytes go to the socket or are on their way to the buffer. -/
theorem stream_take {p : Payload} (n : Nat) (hs : c.Stream (some (.sendReserved p)))
    (hout : n = 0 ∨ c.outputBuffer = []) :
    Conn.Stream { c with taken := c.taken ++ [p], written := c.written ++ p.data.take n }
      (some (.bufferRest (p.data.drop n))) := by
  rcases hs with hs | hs | hs | hs
  · exact .inl hs
  · exact .inr (.inl hs)
  · cases hs
  · refine .inr (.inr (.inr ?_))
    have hs : c.written ++ c.outputBuffer = (c.taken.map Payload.data).flatten := by
      simpa [restOf] using hs
    rcases hout with rfl | hout
    · simp [restOf, ← hs]
    · simp [restOf, ← hs, hout]

/-- Nothing went to the socket. -/
theorem stream_take_none {p : Payload} (hs : c.Stream (some (.sendReserved p))) :
    Conn.Stream { c with taken := c.taken ++ [p] } (some (.bufferRest p.data)) := by
  have h := stream_take 0 hs (.inl rfl)
  simpa using h

theorem execOutput_owner (h : execOutput o c op env = some (c', news))
    (hop : op.passive = false) (hs : c.Stream (some op)) : OwnerOk c' news := by
  revert h
  fun_cases execOutput o c op env
  all_goals intro h; cases h
  all_goals first
    | (cases hop; done)
    | exact ⟨trivial, rfl, hs⟩
    | exact ⟨trivial, rfl, .inr (.inr (.inl rfl))⟩
    | skip
  -- behind bytes that are buffered already
  · rename_i hopen _
    exact ⟨hopen, rfl, stream_take_none hs⟩
  -- a direct write of a part, or of all
  · rename_i p hdirect n _
    have htake := stream_take n hs (.inr hdirect.2.2)
    split
    case isTrue hall =>
      rw [hall, List.drop_length] at htake
      rw [hall]
      exact OwnerOk.passive_append ⟨trivial, rfl, htake⟩ (releaseOps_passive _)
    case isFalse => exact OwnerOk.passive_append ⟨hdirect.1, rfl, htake⟩ (releaseOps_passive n)
  · rename_i hdirect
    exact ⟨hdirect.1, rfl, stream_take_none hs⟩
  -- `bufferRest`
  · rename_i data
    have hstream (i : ReadSide) : Conn.Stream { c with
        outputBuffer := c.outputBuffer ++ data, input := i, isWriting := true } none := by
      rcases hs with hs | hs | hs | hs
      · exact .inl hs
      · exact .inr (.inl hs)
      · cases hs
      · exact .inr (.inr (.inr (by simpa [restOf] using hs)))
    split <;> exact ⟨trivial, rfl, hstream _⟩
  -- `handleWrite`
  · refine ⟨trivial, rfl, ?_⟩
    rcases hs with hs | hs | hs | hs
    · exact .inl hs
    · exact .inr (.inl hs)
    · cases hs
    · refine .inr (.inr (.inr ?_))
      show c.written ++ c.outputBuffer.take _ ++ c.outputBuffer.drop _ ++ [] = _
      rw [List.append_assoc c.written, List.take_append_drop]
      exact hs
  -- `writeDone`
  · split
    case isTrue h => exact ⟨h, rfl, hs⟩
    case isFalse => exact ⟨trivial, rfl, hs⟩

theorem execRequest_owner (h : execRequest c .owner op env = some (c', news))
    (hop : op.passive = false) (hg : c.Guard (some op)) (hs : c.Stream (some op))
    (hgraceful : c.gracefulShutdownRequested = true → isSealed c.pendingOutputBytes = true) :
    OwnerOk c' news := by
  revert h
  fun_cases execRequest c .owner op env
  all_goals intro h; cases h
  all_goals first
    | (cases hop; done)
    | exact ⟨trivial, rfl, hs⟩
    | exact ⟨trivial, rfl, .inr (.inr (.inl rfl))⟩
    | skip
  -- `driveState` leaves the connection disconnecting
  · rename_i hstate
    refine ⟨rfl, rfl, ?_⟩
    rcases hs with hs | hs
    · rw [hstate] at hs
      cases hs
    · exact .inr hs
  · rename_i hstate
    exact ⟨hstate, rfl, hs⟩
  -- `shutdownInLoop` and its load of the count
  · rename_i hready
    exact ⟨⟨hg, hready.2.1, hgraceful hready.1⟩, rfl, hs⟩
  · rename_i hzero
    exact ⟨⟨hg.1, hg.2.1, hg.2.2, hzero⟩, rfl, hs⟩

theorem removeChannel_removed (h : c.channelAdded = true) : c.removeChannel.channelRemoved = true := by
  cases hr : c.channelRemoved <;> simp [Conn.removeChannel, h, hr]

theorem execOwner_owner (h : execOwner o c op env = some (c', news))
    (hg : c.Guard (some op)) (hs : c.Stream (some op)) : OwnerOk c' news := by
  revert h
  fun_cases execOwner o c op env
  all_goals intro h; cases h
  all_goals first
    | exact ⟨trivial, rfl, hs⟩
    | exact ⟨trivial, rfl, .inr (.inr (.inl rfl))⟩
    | exact ⟨trivial, rfl, .inr (.inl rfl)⟩
    | exact ⟨trivial, rfl, .inl rfl⟩
    | exact ⟨trivial, rfl, .inl ‹_›⟩
    | skip
  -- `beginClose` has seen that the connection is not disconnected
  · rename_i hstate
    exact ⟨hstate, rfl, .inr (.inr (.inl rfl))⟩
  · exact ⟨rfl, rfl, .inr (.inr (.inl rfl))⟩
  · refine ⟨⟨hg, fun hadded => ?_⟩, rfl, .inr (.inr (.inl rfl))⟩
    exact removeChannel_removed hadded
  · exact OwnerOk.passive_append ⟨trivial, rfl, .inl rfl⟩ (releaseOps_passive _)
  · rename_i hfresh
    obtain ⟨hstate, hadded⟩ := not_or.mp hfresh
    exact ⟨⟨not_not.mp hstate, rfl, eq_false_of_ne_true hadded⟩, rfl, hs⟩
  -- `establishState` follows at once on a connecting connection
  · refine ⟨trivial, rfl, ?_⟩
    rcases hs with hs | hs
    · rw [show c.state = .kConnecting from hg.1] at hs
      cases hs
    · exact .inr hs
  · exact OwnerOk.passive_append ⟨rfl, rfl, .inr (.inr (.inl rfl))⟩ (releaseOps_passive _)

theorem exec_owner (h : exec o c .owner op env = some (c', news)) (hop : op.passive = false)
    (hg : c.Guard (some op)) (hs : c.Stream (some op))
    (hgraceful : c.gracefulShutdownRequested = true → isSealed c.pendingOutputBytes = true) :
    OwnerOk c' news := by
  rcases exec_cases h with h | h | h | h
  · exact execSend_owner h hop hs
  · exact execOutput_owner h hop hs
  · exact execRequest_owner h hop hg hs hgraceful
  · exact execOwner_owner h hg hs

/-- Where user code runs, nothing below relies on anything and no payload is half taken. -/
theorem OwnerOk.user {l : List Op} (h : OwnerOk c l) (hl : userRuns l = true) :
    l.all (fun op => !op.guarded) = true ∧ c.Stream none := by
  unfold userRuns at hl
  split at hl
  · exact ⟨rfl, h.stream⟩
  · exact ⟨by rw [List.all_cons]; exact h.below, h.stream⟩
  · cases hl

theorem start_owner {e : Event} (h : c.start e = some (c', news)) (hs : c.Stream none) :
    OwnerOk c' news := by
  revert h
  fun_cases Conn.start c e
  all_goals intro h; cases h
  all_goals try exact ⟨trivial, rfl, hs⟩
  all_goals try exact ⟨trivial, rfl, .inr (.inr (.inl rfl))⟩
  rename_i f _ _
  cases f <;> exact ⟨trivial, rfl, hs⟩

theorem start_ne_nil {e : Event} (h : c.start e = some (c', news)) : news ≠ [] := by
  revert h
  fun_cases Conn.start c e
  all_goals intro h; cases h
  all_goals exact List.cons_ne_nil _ _

/-- What an owner's step makes of its stack. -/
theorem Act.owner {n n' : Nat} {olds rest : List Op} (h : Act o .owner n c olds n' c' news)
    (hok : OwnerOk c (olds ++ rest)) (hpush : olds = [] → news = [] ∨ userRuns rest = true)
    (hset : c.Settles o (Stacks.weight Op.held olds) c' news)
    (hgraceful : c.gracefulShutdownRequested = true → isSealed c.pendingOutputBytes = true) :
    OwnerOk c' (news ++ rest) := by
  cases h with
  | @exec _ _ _ _ op _ _ h =>
    cases hop : op.passive with
    | true =>
      obtain ⟨hcore, hnews⟩ := exec_passive h hop
      have hrest : OwnerOk c rest := hok.of_top (top_passive (by simp [hop]) rest).symm
      exact (hrest.frame hcore hset.sealed).passive_append hnews
    | false =>
      have hactive : active ([op] ++ rest) = some op := active_cons rest hop
      have hbelow := hok.below
      rw [List.singleton_append, top_cons rest hop] at hbelow
      exact (exec_owner h hop (hactive ▸ hok.guard) (hactive ▸ hok.stream) hgraceful).append hbelow
  | call _ _ _ k =>
    rcases hpush rfl with hnil | huser
    · cases k <;> cases hnil
    obtain ⟨hfree, hs⟩ := OwnerOk.user hok huser
    refine OwnerOk.append ?_ hfree
    cases k <;> exact ⟨trivial, rfl, hs⟩
  | destroy =>
    rcases hpush rfl with hnil | huser
    · cases hnil
    obtain ⟨hfree, hs⟩ := OwnerOk.user hok huser
    exact OwnerOk.append ⟨trivial, rfl, hs⟩ hfree
  | start h =>
    rcases hpush rfl with hnil | huser
    · exact absurd hnil (start_ne_nil h)
    obtain ⟨hfree, hs⟩ := OwnerOk.user hok huser
    exact OwnerOk.append (start_owner h hs) hfree
  | ret _ _ source threw =>
    have hs : c.Stream none := hok.stream
    refine OwnerOk.append ?_ hok.below
    cases source <;> cases threw <;> exact ⟨trivial, rfl, hs⟩
  | retrieve => exact { hok with }
  | quit => exact { hok with }

end

/-! ## The state only moves on -/

/-- A disconnected connection stays so, and none is connecting again. -/
def Onward (x y : StateE) : Prop :=
  (x = .kDisconnected → y = .kDisconnected) ∧ (x ≠ .kConnecting → y ≠ .kConnecting)

theorem onward_rfl (x : StateE) : Onward x x := ⟨id, id⟩

section
variable {o : Options} {c c' : Conn} {caller : Caller} {op : Op} {env : Env} {news : List Op}

theorem exec_onward (h : exec o c caller op env = some (c', news)) (hg : c.Guard (some op)) :
    Onward c.state c'.state := by
  rcases exec_cases h with h | h | h | h
  all_goals revert h
  case' inr.inr.inr => fun_cases execOwner o c op env
  case' inr.inr.inl => fun_cases execRequest c caller op env
  case' inr.inl => fun_cases execOutput o c op env
  case' inl => fun_cases execSend o c caller op env
  all_goals intro h; cases h
  all_goals try exact onward_rfl _
  -- `driveState`
  · rename_i hstate
    rw [hstate]
    exact ⟨by simp, by simp⟩
  -- `closeState` and `establishState` have their guards; the others end the connection
  · exact ⟨fun hd => absurd hd hg, by simp⟩
  · exact ⟨fun _ => rfl, by simp⟩
  · refine ⟨fun hd => ?_, by simp⟩
    rw [show c.state = .kConnecting from hg.1] at hd
    cases hd
  · exact ⟨fun _ => rfl, by simp⟩
  · exact ⟨fun _ => rfl, by simp⟩

end

/-! ## The half-close request follows the seal -/

/-- Operations other than those of a close request that has sealed and not set its flag. -/
def Op.ungraceful : Op → Bool
  | .closePublish _ _ | .closeFlag _ _ => false
  | _ => true

section
variable {o : Options} {c c' : Conn} {caller : Caller} {op : Op} {env : Env} {news : List Op}

theorem releaseOps_ungraceful (n : Nat) : (releaseOps n).all Op.ungraceful = true := by
  unfold releaseOps
  split <;> rfl

theorem exec_graceful (h : exec o c caller op env = some (c', news))
    (hw : c.pendingOutputBytes < 2 ^ 64)
    (hop : op.ungraceful = false → isSealed c.pendingOutputBytes = true) :
    (c'.gracefulShutdownRequested = true →
      c.gracefulShutdownRequested = true ∨ op.ungraceful = false) ∧
    (news.all Op.ungraceful = true ∨ isSealed c'.pendingOutputBytes = true) := by
  rcases exec_cases h with h | h | h | h
  all_goals revert h
  case' inr.inr.inr => fun_cases execOwner o c op env
  case' inr.inr.inl => fun_cases execRequest c caller op env
  case' inr.inl => fun_cases execOutput o c op env
  case' inl => fun_cases execSend o c caller op env
  all_goals intro h; cases h
  all_goals try exact ⟨Or.inl, .inl rfl⟩
  · refine ⟨Or.inl, .inl ?_⟩
    unfold reserveLoop
    split_ifs <;> rfl
  · refine ⟨Or.inl, .inl ?_⟩
    rw [List.all_append, releaseOps_ungraceful]
    split <;> rfl
  · exact ⟨Or.inl, .inl (by split <;> rfl)⟩
  · exact ⟨Or.inl, .inl (by split <;> split <;> rfl)⟩
  · exact ⟨Or.inl, .inl (by split <;> rfl)⟩
  · exact ⟨Or.inl, .inr (isSealed_sealOutput hw)⟩
  · exact ⟨Or.inl, .inr (hop rfl)⟩
  · exact ⟨fun _ => .inr rfl, .inl (by cases caller <;> rfl)⟩
  · exact ⟨Or.inl, .inl (by cases caller <;> rfl)⟩
  · exact ⟨(fun h => by cases h), .inl rfl⟩
  all_goals
    refine ⟨Or.inl, .inl ?_⟩
    rw [List.all_append, releaseOps_ungraceful]
    rfl

theorem start_same {e : Event} (h : c.start e = some (c', news)) :
    SameCore c c' ∧ c'.pendingOutputBytes = c.pendingOutputBytes ∧
      c'.gracefulShutdownRequested = c.gracefulShutdownRequested ∧
      news.all Op.ungraceful = true := by
  revert h
  fun_cases Conn.start c e
  all_goals intro h; cases h
  all_goals try exact ⟨sameCore_rfl, rfl, rfl, rfl⟩
  · exact ⟨⟨rfl, rfl, rfl, rfl, rfl, rfl, rfl, rfl, rfl, rfl, rfl⟩, rfl, rfl, rfl⟩
  · rename_i f _ _
    refine ⟨⟨rfl, rfl, rfl, rfl, rfl, rfl, rfl, rfl, rfl, rfl, rfl⟩, rfl, rfl, ?_⟩
    cases f <;> rfl

theorem Act.graceful {n n' : Nat} {olds : List Op} (h : Act o caller n c olds n' c' news)
    (hw : c.pendingOutputBytes < 2 ^ 64)
    (holds : ∀ op ∈ olds, op.ungraceful = false → isSealed c.pendingOutputBytes = true) :
    (c'.gracefulShutdownRequested = true →
      c.gracefulShutdownRequested = true ∨ ∃ op ∈ olds, op.ungraceful = false) ∧
    (news.all Op.ungraceful = true ∨ isSealed c'.pendingOutputBytes = true) := by
  cases h with
  | exec h =>
    obtain ⟨hflag, hnews⟩ := exec_graceful h hw (holds _ (by simp))
    exact ⟨fun h => (hflag h).imp_right fun h => ⟨_, by simp, h⟩, hnews⟩
  | call _ _ _ k => exact ⟨Or.inl, .inl (by cases k <;> rfl)⟩
  | destroy => exact ⟨Or.inl, .inl rfl⟩
  | start h =>
    obtain ⟨_, _, hflag, hnews⟩ := start_same h
    exact ⟨fun h => .inl (hflag ▸ h), .inl hnews⟩
  | ret _ _ source threw => exact ⟨Or.inl, .inl (by cases source <;> cases threw <;> rfl)⟩
  | retrieve => exact ⟨Or.inl, .inl rfl⟩
  | quit => exact ⟨Or.inl, .inl rfl⟩

theorem Act.crossThread {n n' : Nat} {olds : List Op} (h : Act o .remote n c olds n' c' news)
    (holds : olds.all Op.crossThread = true) :
    SameCore c c' ∧ news.all Op.crossThread = true := by
  cases h with
  | exec h => exact exec_crossThread h (by simpa using holds)
  | call _ _ _ k => exact ⟨sameCore_rfl, by cases k <;> rfl⟩

end

/-! ## The invariant -/

/-- What holds of the threads in every state. -/
structure Inv (o : Options) (s : State) : Prop extends Ledger o s where
  crossThread : ∀ op ∈ s.remotes.flatten, op.crossThread = true
  graceful : s.conn.gracefulShutdownRequested = true ∨ (∃ op ∈ s.ops, op.ungraceful = false) →
    isSealed s.conn.pendingOutputBytes = true
  owner : OwnerOk s.conn s.owner

theorem inv_init (o : Options) : Inv o {} where
  toLedger := ledger_init o
  crossThread := by simp
  graceful := by simp [State.ops]
  owner := ⟨trivial, rfl, .inr (.inr (.inr rfl))⟩

theorem Inv.move {o : Options} {s s' : State} (h : Inv o s) (hm : Move o s s') : Inv o s' := by
  obtain ⟨hledger, hseal⟩ := h.toLedger.move hm
  have hgraceful : s'.conn.gracefulShutdownRequested = true ∨
      (∃ op ∈ s'.ops, op.ungraceful = false) → isSealed s'.conn.pendingOutputBytes = true := by
    obtain ⟨caller, olds, news, R, hact, hold, hnew⟩ := hm.ops
    have hmem : ∀ op ∈ olds ++ R, op ∈ s.ops := fun op hop => hold.mem_iff.mpr hop
    obtain ⟨hflag, hnews⟩ := hact.graceful h.word fun op hop hu =>
      h.graceful (.inr ⟨op, hmem op (List.mem_append_left R hop), hu⟩)
    rcases hnews with hnews | hnews
    case inr => exact fun _ => hnews
    rintro (hg | ⟨op, hop, hu⟩)
    · refine (hseal (h.graceful ?_)).1
      exact (hflag hg).imp_right fun ⟨op, hop, hu⟩ => ⟨op, hmem op (List.mem_append_left R hop), hu⟩
    · rcases List.mem_append.mp (hnew.mem_iff.mp hop) with hop | hop
      · have := List.all_eq_true.mp hnews _ hop
        rw [hu] at this
        cases this
      · exact (hseal (h.graceful (.inr ⟨op, hmem op (List.mem_append_right olds hop), hu⟩))).1
  cases hm with
  | owner olds news rest act old new remotes push =>
    refine ⟨hledger, by rw [remotes]; exact h.crossThread, hgraceful, ?_⟩
    have hset := act.settles h.word (List.all_eq_true.mpr fun op hop =>
      h.ops op (by simp [State.ops, old, hop])) h.functors
    rw [new]
    exact act.owner (old ▸ h.owner) push hset (fun hg => h.graceful (.inl hg))
  | remote olds news R act old new owner =>
    obtain ⟨hcore, hnews⟩ := act.crossThread (List.all_eq_true.mpr fun op hop =>
      h.crossThread op (old.mem_iff.mpr (List.mem_append_left R hop)))
    refine ⟨hledger, ?_, hgraceful, by rw [owner]; exact h.owner.frame hcore hseal⟩
    intro op hop
    rcases List.mem_append.mp (new.mem_iff.mp hop) with hop | hop
    · exact List.all_eq_true.mp hnews op hop
    · exact h.crossThread op (old.mem_iff.mpr (List.mem_append_right olds hop))

/-- The operation that the owner executes is passive or is the one at work. -/
theorem OwnerOk.guard_head {c : Conn} {op : Op} {rest : List Op} (h : OwnerOk c (op :: rest))
    (hop : op.passive = false) : c.Guard (some op) := active_cons rest hop ▸ h.guard

theorem Act.onward {o : Options} {n n' : Nat} {c c' : Conn} {olds news rest : List Op}
    (h : Act o .owner n c olds n' c' news) (hok : OwnerOk c (olds ++ rest)) :
    Onward c.state c'.state := by
  cases h with
  | @exec _ _ _ _ op _ _ hexec =>
    cases hop : op.passive with
    | true =>
      rw [(exec_passive hexec hop).1.state]
      exact onward_rfl _
    | false => exact exec_onward hexec (OwnerOk.guard_head hok hop)
  | start hstart =>
    rw [(start_same hstart).1.state]
    exact onward_rfl _
  | _ => exact onward_rfl _

theorem Inv.onward {o : Options} {s s' : State} (h : Inv o s) (hm : Move o s s') :
    Onward s.conn.state s'.conn.state := by
  cases hm with
  | owner olds news rest act old new remotes push => exact act.onward (old ▸ h.owner)
  | remote olds news R act old new owner =>
    obtain ⟨hcore, _⟩ := act.crossThread (List.all_eq_true.mpr fun op hop =>
      h.crossThread op (old.mem_iff.mpr (List.mem_append_left R hop)))
    rw [hcore.state]
    exact onward_rfl _

theorem reach_inv {o : Options} {C : State → Label → Prop} {s : State}
    (h : Machine.Reach (· = {}) (step o) C s) : Inv o s :=
  Machine.Reach.invariant (by rintro s rfl; exact inv_init o)
    (fun _ _ _ hi _ hs => hi.move (step_move hs)) h

end GameNet.TcpConnection
