import Mathlib.Data.List.TakeWhile
import GameNet.TcpConnection.Owner

/- Close requests that report Accepted. A request is spread over the seal bit, two flags and a
   coalesced signal of the lifecycle node; the owner loop clears the flags while it drives them.

   What is proved: unless the owner loop itself asked for the close while the connection was
   still connecting (the drive then clears the force flag without an effect), an accepted
   `tryForceClose` leaves the connection disconnected whenever the owner loop is at rest, and an
   accepted `tryShutdown` has half-closed it or closed it once the output is written.

   The invariant has two halves. Once an operation that ends the connection is on the owner's
   stack nothing can stop it (`Ending`). Before that (`Live`), every request that was accepted
   is still visible to the owner: a flag together with a dirty node, a drive that is under way,
   or a signal that some thread is about to send. -/
namespace GameNet.TcpConnection

open Machine (Reach Any)

/-! ## Kinds of operations -/

/-- The operations after which the connection is disconnected, or one of their kind follows. -/
def Op.ends : Op → Bool
  | .handleError _ | .handleClose | .beginClose | .closeState | .closeChannel | .closeSocket
  | .finishClose | .destroy | .destroyState => true
  | _ => false

/-- What is left to do for a connection that is disconnected. -/
def Op.lastly : Op → Bool
  | .finishPhase | .destroyDetach => true
  | _ => false

/-- A close request on the owner loop, up to the drive that it starts. -/
def Op.drives : Op → Bool
  | .closeCheck _ | .closeSeal _ | .closePublish _ _ | .closeFlag _ _ | .driveForce
  | .forceClose | .driveGraceful | .driveState => true
  | _ => false

/-- The steps of a drive that lead to the half-close. -/
def Op.halves : Op → Bool
  | .driveForce | .driveGraceful | .driveState | .shutdownInLoop | .shutdownLoad
  | .shutdownWrite => true
  | _ => false

def Op.signals : Op → Bool
  | .signal | .signalLifecycle _ => true
  | _ => false

/-- A close request that has sealed the output, up to its return. -/
def Op.asks : Op → Bool
  | .closePublish _ _ | .closeFlag _ _ | .signalLifecycle _ | .retClose _ .accepted => true
  | _ => false

/-- A close request that is going to set a flag. -/
def Op.flags : Op → Bool
  | .closePublish .force _ | .closeFlag .force _ => true
  | .closePublish .graceful first | .closeFlag .graceful first => first
  | _ => false

/-- The operations that write the fields of a close request, one classifier for each group of
    fields. -/
def Op.flagsForce : Op → Bool
  | .closeFlag .force _ | .clearForce => true
  | _ => false

def Op.flagsGraceful : Op → Bool
  | .closeFlag .graceful _ | .clearGraceful => true
  | _ => false

def Op.writes : Op → Bool
  | .bufferRest _ | .handleWrite _ | .writeDone | .closeChannel | .closeSocket | .finishClose
  | .finishPhase | .establish _ | .destroy | .destroyDetach => true
  | _ => false

def Op.lives : Op → Bool
  | .driveState | .closeState | .closeChannel | .closeSocket | .finishClose | .finishPhase
  | .establish _ | .establishState | .destroyState | .destroyDetach => true
  | _ => false

def Op.closes : Op → Bool
  | .closeSeal _ | .beginClose => true
  | _ => false

def Op.returns : Op → Bool
  | .retClose _ _ => true
  | _ => false

/-- Which operations can put one of the operations of a close request on the stack. -/
def Op.follows (op : Op) : Op → Bool
  | .closeCheck _ => false
  | .closeSeal _ => match op with | .closeCheck _ => true | _ => false
  | .closePublish _ _ => match op with | .closeSeal _ => true | _ => false
  | .closeFlag _ _ => match op with | .closePublish _ _ => true | _ => false
  | .driveForce => match op with | .closeFlag _ _ => true | _ => false
  | .forceClose | .clearForce | .driveGraceful =>
    match op with | .driveForce => true | _ => false
  | .driveState => match op with | .driveGraceful => true | _ => false
  | .signalLifecycle _ => match op with | .closeFlag _ _ => true | _ => false
  | .retClose _ .accepted =>
    match op with | .closeFlag _ _ | .signalLifecycle _ => true | _ => false
  | .clearGraceful => match op with | .shutdownWrite | .beginClose => true | _ => false
  | .finishPhase => match op with | .finishClose => true | _ => false
  | .destroyDetach => match op with | .destroyState => true | _ => false
  | _ => true

/-- What an operation leaves alone, and what can follow it. -/
structure Frame (c : Conn) (op : Op) (c' : Conn) (news : List Op) : Prop where
  force : op.flagsForce = false →
    c'.forceCloseRequested = c.forceCloseRequested ∧ c'.forceEver = c.forceEver
  graceful : op.flagsGraceful = false →
    c'.gracefulShutdownRequested = c.gracefulShutdownRequested ∧ c'.gracefulEver = c.gracefulEver
  dirty : op.signals = false → c'.dirty = c.dirty
  writes : op.writes = false → c'.isWriting = c.isWriting ∧ c'.outputBuffer = c.outputBuffer
  lives : op.lives = false → c'.state = c.state ∧ c'.closePhase = c.closePhase ∧
    c'.lifecycleSource = c.lifecycleSource ∧ c'.channelRemoved = c.channelRemoved
  word : op.closes = false → isSealed c'.pendingOutputBytes = isSealed c.pendingOutputBytes
  accepted : op.returns = false → c'.closeAccepted = c.closeAccepted
  half : op ≠ .shutdownWrite → c'.halfCloses = c.halfCloses
  running : c'.running = c.running
  follows : news.all op.follows = true

section
variable {o : Options} {c c' : Conn} {caller : Caller} {op : Op} {env : Env} {news : List Op}

theorem releaseOps_follows (n : Nat) : (releaseOps n).all op.follows = true := by
  unfold releaseOps
  split <;> rfl

theorem reserveLoop_follows (p : Payload) (current : Nat) :
    (reserveLoop o c p current).all op.follows = true := by
  unfold reserveLoop
  split_ifs <;> rfl

theorem exec_frame (h : exec o c caller op env = some (c', news))
    (hw : c.pendingOutputBytes < 2 ^ 64) (hop : op.sound o = true) : Frame c op c' news := by
  rcases exec_cases h with h | h | h | h
  all_goals revert h
  case' inr.inr.inr => fun_cases execOwner o c op env
  case' inr.inr.inl => fun_cases execRequest c caller op env
  case' inr.inl => fun_cases execOutput o c op env
  case' inl => fun_cases execSend o c caller op env
  all_goals intro h; cases h
  all_goals constructor
  all_goals first
    | exact fun _ => ⟨rfl, rfl⟩
    | exact fun _ => rfl
    | exact fun _ => ⟨rfl, rfl, rfl, rfl⟩
    | rfl
    | (intro hop; cases hop; done)
    | skip
  · exact reserveLoop_follows _ _
  -- a reservation stays below the seal bit
  · rename_i p
    intro _
    obtain ⟨-, hfit⟩ : p.data ≠ [] ∧ c.pendingOutputBytes + p.data.length ≤ o.outputLimit := by
      simpa [Op.sound] using hop
    have hlimit := o.outputLimit_lt
    show isSealed (c.pendingOutputBytes + p.data.length) = isSealed c.pendingOutputBytes
    rw [isSealed_of_lt (by omega), isSealed_of_lt (by omega)]
  · rw [List.all_append, releaseOps_follows]
    split <;> rfl
  · split <;> rfl
  · intro _
    exact isSealed_fetchSub hw (by omega)
  · split <;> split <;> rfl
  · split <;> rfl
  · cases caller <;> rfl
  · cases caller <;> rfl
  · unfold Conn.signalResult
    split_ifs <;> rfl
  · exact fun h => absurd rfl h
  all_goals
    rw [List.all_append, releaseOps_follows]
    rfl

/-- Nothing stops an operation that ends the connection. -/
theorem exec_ends (h : exec o c caller op env = some (c', news)) (hop : op.ends = true) :
    c'.state = .kDisconnected ∨ news.any Op.ends = true := by
  have hgroup : op.group = .owner := by cases op <;> first | rfl | cases hop
  replace h := exec_group h
  simp only [hgroup] at h
  revert h
  fun_cases execOwner o c op env
  all_goals intro h; cases h
  all_goals first
    | (cases hop; done)
    | exact .inr rfl
    | exact .inl rfl
    | exact .inl ‹_›
    | exact .inr (by simp [Op.ends])

/-- A signal with the source set reaches the node of a running loop. -/
theorem exec_signals (h : exec o c caller op env = some (c', news)) (hop : op.signals = true) :
    (c.dirty = true → c'.dirty = true) ∧
    (c.lifecycleSource = true → c.running = true → c'.dirty = true) ∧
    (c'.dirty = true → c.dirty = true ∨ c.lifecycleSource = true) ∧
    (∀ kind, .retClose kind .accepted ∈ news → c'.dirty = true ∧ c.lifecycleSource = true ∧
      op = .signalLifecycle kind) := by
  have hgroup : op.group = .request := by cases op <;> first | rfl | cases hop
  replace h := exec_group h
  simp only [hgroup] at h
  revert h
  fun_cases execRequest c caller op env
  all_goals intro h; cases h
  all_goals try (cases hop; done)
  all_goals
    cases hsource : c.lifecycleSource <;> cases hrunning : c.running <;>
      simp [Conn.signalNode, Conn.signalResult, hsource, hrunning]

end

/-! ## What a request leaves behind -/

/-- A force request whose flag is set, up to its return. -/
def Op.forces : Op → Bool
  | .signalLifecycle .force | .retClose .force .accepted => true
  | _ => false

/-- The flags and the seal, against the requests that are under way or have returned. -/
structure Asked (c : Conn) (ops : List Op) : Prop where
  graceful : c.gracefulEver = true → c.gracefulShutdownRequested = true ∨ c.halfCloses ≠ []
  force : c.forceEver = true → c.forceCloseRequested = true
  sealed : isSealed c.pendingOutputBytes = true →
    c.gracefulEver = true ∨ c.forceEver = true ∨ ∃ q ∈ ops, q.flags = true
  asked : c.closeAccepted ≠ [] ∨ (∃ q ∈ ops, q.asks = true) → isSealed c.pendingOutputBytes = true
  forced : .force ∈ c.closeAccepted ∨ (∃ q ∈ ops, q.forces = true) → c.forceEver = true

theorem asks_of_forces {q : Op} (h : q.forces = true) : q.asks = true := by
  cases q <;> first | rfl | (cases h) | skip
  rename_i kind r
  cases kind <;> cases r <;> first | rfl | cases h

section
variable {o : Options} {c c' : Conn} {caller : Caller} {op : Op} {env : Env} {news R : List Op}

/-- What no operation of a request touches. -/
theorem Asked.plain {olds : List Op} (h : Asked c (olds ++ R))
    (hold : ∀ q ∈ olds, q.flags = false) (hnew : ∀ q ∈ news, q.asks = false)
    (hforce : c'.forceCloseRequested = c.forceCloseRequested ∧ c'.forceEver = c.forceEver)
    (hgraceful : (c.gracefulShutdownRequested = true ∨ c.halfCloses ≠ [] →
      c'.gracefulShutdownRequested = true ∨ c'.halfCloses ≠ []) ∧ c'.gracefulEver = c.gracefulEver)
    (hword : isSealed c'.pendingOutputBytes = isSealed c.pendingOutputBytes)
    (haccepted : c'.closeAccepted = c.closeAccepted) : Asked c' (news ++ R) := by
  have hmem : ∀ q ∈ news ++ R, q.asks = true → q ∈ olds ++ R := fun q hq hasks => by
    rcases List.mem_append.mp hq with hq | hq
    · rw [hnew q hq] at hasks
      cases hasks
    · exact List.mem_append_right olds hq
  refine ⟨fun hever => ?_, fun hever => ?_, fun hseal => ?_, fun hasked => ?_, fun hforced => ?_⟩
  · exact hgraceful.1 (h.graceful (hgraceful.2 ▸ hever))
  · rw [hforce.1]
    exact h.force (hforce.2 ▸ hever)
  · rw [hgraceful.2, hforce.2]
    refine (h.sealed (hword ▸ hseal)).imp_right (Or.imp_right fun ⟨q, hq, hflags⟩ => ?_)
    rcases List.mem_append.mp hq with hq | hq
    · rw [hold q hq] at hflags
      cases hflags
    · exact ⟨q, List.mem_append_right news hq, hflags⟩
  · rw [hword]
    rw [haccepted] at hasked
    exact h.asked (hasked.imp_right fun ⟨q, hq, hasks⟩ => ⟨q, hmem q hq hasks, hasks⟩)
  · rw [hforce.2]
    rw [haccepted] at hforced
    exact h.forced (hforced.imp_right fun ⟨q, hq, hf⟩ => ⟨q, hmem q hq (asks_of_forces hf), hf⟩)

/-- A request is followed by its own operations only. -/
theorem Frame.asks (hf : Frame c op c' news) (hasks : op.asks = false)
    (hseal : op.closes = false) : ∀ q ∈ news, q.asks = false := by
  intro q hq
  have hfollows := List.all_eq_true.mp hf.follows q hq
  cases q <;> try rfl
  case retClose kind r =>
    cases r <;> try rfl
    cases op <;> first | (cases hfollows; done) | cases hasks
  all_goals cases op <;> first | (cases hfollows; done) | (cases hasks; done) | cases hseal

theorem Asked.exec (h : Asked c (op :: R)) (hexec : exec o c caller op env = some (c', news))
    (hw : c.pendingOutputBytes < 2 ^ 64) (hsound : op.sound o = true)
    (hend : op ≠ .beginClose) (hclear : op ≠ .clearForce)
    (hhalf : op = .clearGraceful → c.halfCloses ≠ []) : Asked c' (news ++ R) := by
  have hf := exec_frame hexec hw hsound
  have hplain (hold : op.flags = false) (hasks : op.asks = false) (hseal : op.closes = false)
      (hforce : op.flagsForce = false) (hret : c'.closeAccepted = c.closeAccepted)
      (hgraceful : (c.gracefulShutdownRequested = true ∨ c.halfCloses ≠ [] →
        c'.gracefulShutdownRequested = true ∨ c'.halfCloses ≠ []) ∧
        c'.gracefulEver = c.gracefulEver) : Asked c' (news ++ R) :=
    Asked.plain (show Asked c ([op] ++ R) from h) (by simpa using hold) (hf.asks hasks hseal)
      (hf.force hforce) hgraceful (hf.word hseal) hret
  have hsame (hgraceful : op.flagsGraceful = false) (hne : op ≠ .shutdownWrite) :
      (c.gracefulShutdownRequested = true ∨ c.halfCloses ≠ [] →
        c'.gracefulShutdownRequested = true ∨ c'.halfCloses ≠ []) ∧
        c'.gracefulEver = c.gracefulEver := by
    rw [(hf.graceful hgraceful).1, (hf.graceful hgraceful).2, hf.half hne]
    exact ⟨id, rfl⟩
  cases op
  case beginClose => exact absurd rfl hend
  case clearForce => exact absurd rfl hclear
  case closeSeal kind =>
    cases env <;> cases exec_group hexec
    refine ⟨h.graceful, h.force, fun _ => ?_, fun _ => isSealed_sealOutput hw, fun hq => h.forced ?_⟩
    · cases hopen : isSealed c.pendingOutputBytes with
      | false => exact .inr (.inr ⟨.closePublish kind true, by simp, by cases kind <;> rfl⟩)
      | true =>
        refine (h.sealed hopen).imp_right (Or.imp_right fun hq => ?_)
        simp only [List.mem_cons, exists_eq_or_imp, Op.flags, Bool.false_eq_true, false_or] at hq
        exact hq.imp fun q hq => ⟨List.mem_append_right _ hq.1, hq.2⟩
    · simpa [Op.forces] using hq
  case closePublish kind first =>
    cases env <;> cases exec_group hexec
    refine ⟨h.graceful, h.force, fun hseal => ?_, fun _ => h.asked (.inr ⟨_, .head _, rfl⟩),
      fun hq => h.forced ?_⟩
    · refine (h.sealed hseal).imp_right (Or.imp_right ?_)
      cases kind <;> simp [Op.flags]
    · simpa [Op.forces] using hq
  case closeFlag kind first =>
    have hseal : isSealed c.pendingOutputBytes = true := h.asked (.inr ⟨_, .head _, rfl⟩)
    cases env <;> cases kind <;> cases exec_group hexec
    case nothing.graceful.refl =>
      refine ⟨fun hever => ?_, h.force, fun _ => ?_, fun _ => hseal, fun hq => h.forced ?_⟩
      · cases first with
        | false => simpa using h.graceful (by simpa using hever)
        | true => exact .inl (by simp)
      · refine (h.sealed hseal).elim (fun hg => .inl (by simp [hg])) fun hq => ?_
        cases first with
        | true => exact .inl (by simp)
        | false =>
          refine .inr (hq.imp_right fun hq => ?_)
          simp only [List.mem_cons, exists_eq_or_imp, Op.flags, Bool.false_eq_true, false_or] at hq
          exact hq.imp fun q hq => ⟨List.mem_append_right _ hq.1, hq.2⟩
      · cases caller <;> simpa [CloseKind.handOver, Op.forces] using hq
    case nothing.force.refl =>
      exact ⟨h.graceful, fun _ => rfl, fun _ => .inr (.inl rfl), fun _ => hseal, fun _ => rfl⟩
  case signalLifecycle kind =>
    cases env <;> cases exec_group hexec
    have hseal : isSealed c.pendingOutputBytes = true := h.asked (.inr ⟨_, .head _, rfl⟩)
    refine ⟨h.graceful, h.force, fun hs => ?_, fun _ => hseal, fun hq => h.forced ?_⟩
    · refine (h.sealed hs).imp_right (Or.imp_right ?_)
      simp [Op.flags]
    · refine hq.imp_right ?_
      simp only [List.cons_append, List.nil_append, List.mem_cons, exists_eq_or_imp]
      refine Or.imp_left fun hforce => ?_
      cases kind with
      | graceful => cases hforce
      | force => rfl
  case retClose kind r =>
    cases env <;> cases exec_group hexec
    have hmem {P : Op → Bool} (hq : ∃ q ∈ [] ++ R, P q = true) :
        ∃ q ∈ Op.retClose kind r :: R, P q = true :=
      hq.imp fun q hq => ⟨.tail _ hq.1, hq.2⟩
    refine ⟨h.graceful, h.force, fun hs => ?_, fun hq => ?_, fun hq => ?_⟩
    · refine (h.sealed hs).imp_right (Or.imp_right ?_)
      simp [Op.flags]
    · by_cases hr : r = .accepted
      · exact h.asked (.inr ⟨_, .head _, by rw [hr]; rfl⟩)
      · exact h.asked (by simpa [hr] using hq.imp_right hmem)
    · by_cases hr : r = .accepted
      · rw [if_pos hr, List.mem_cons, or_assoc] at hq
        rcases hq with rfl | hq
        · exact h.forced (.inr ⟨_, .head _, by rw [hr]; rfl⟩)
        · exact h.forced (hq.imp_right hmem)
      · exact h.forced (by simpa [hr] using hq.imp_right hmem)
  case clearGraceful =>
    cases env <;> cases exec_group hexec
    exact hplain rfl rfl rfl rfl rfl ⟨fun _ => .inr (hhalf rfl), rfl⟩
  case shutdownWrite =>
    cases env <;> cases exec_group hexec
    exact hplain rfl rfl rfl rfl rfl ⟨fun _ => .inr (List.cons_ne_nil _ _), rfl⟩
  all_goals exact hplain rfl rfl rfl rfl (hf.accepted rfl) (hsame rfl nofun)

end

/-! ## A connection that is not ending -/

/-- An operation on the owner's stack ends the connection, or it is disconnected. -/
def Ending (c : Conn) (owner : List Op) : Prop :=
  c.state = .kDisconnected ∨ owner.any Op.ends = true

/-- The owner's data of a connection that is not ending. -/
structure Live (c : Conn) (owner : List Op) : Prop where
  alive : c.state ≠ .kDisconnected
  /-- Its socket is closed only after a `connectEstablished` that failed. -/
  closed : c.socketClosed = true → c.state = .kConnecting ∧ c.channelRemoved = true
  lastly : ∀ q ∈ owner, q.lastly = false
  writing : c.isWriting = true → c.outputBuffer ≠ [] ∨ .writeDone ∈ owner
  up : c.lifecycleSource = true ∨ c.dirty = true →
    c.state ≠ .kConnecting ∨ .establishState ∈ owner
  drives : (∃ q ∈ owner, q.drives = true) → c.state ≠ .kConnecting
  source : c.state ≠ .kConnecting → c.lifecycleSource = true
  halved : .clearGraceful ∈ owner → c.halfCloses ≠ []
  cleared : .clearForce ∈ owner → owner.head? = some .forceClose

/-- What an operation that does not end the connection does to its state. -/
structure Lives (c : Conn) (op : Op) (c' : Conn) (news : List Op) : Prop where
  state : c'.state = c.state ∨ (c.state = .kConnected ∧ c'.state = .kDisconnecting) ∨
    op = .establishState
  established : op = .establishState → c'.state = .kConnected
  closed : c'.socketClosed = true → c.socketClosed = true ∨
    (c'.state = .kConnecting ∧ c'.channelRemoved = true)
  removed : c.channelRemoved = true → c'.channelRemoved = true
  source : c.lifecycleSource = true → c'.lifecycleSource = true
  attached : c'.lifecycleSource = true → c.lifecycleSource = true ∨ .establishState ∈ news

section
variable {o : Options} {c c' : Conn} {caller : Caller} {op : Op} {env : Env}
  {news rest : List Op}

theorem lives_plain (hne : op ≠ .establishState) (hf : c'.state = c.state ∧
    c'.closePhase = c.closePhase ∧ c'.lifecycleSource = c.lifecycleSource ∧
    c'.channelRemoved = c.channelRemoved) : Lives c op c' news where
  state := .inl hf.1
  established h := absurd h hne
  closed h := .inl (by rwa [Conn.socketClosed, hf.2.1] at h)
  removed h := hf.2.2.2.trans h
  source h := hf.2.2.1.trans h
  attached h := .inl (hf.2.2.1 ▸ h)

theorem exec_lives (h : exec o c caller op env = some (c', news)) (hends : op.ends = false)
    (hlastly : op.lastly = false) (hf : Frame c op c' news) : Lives c op c' news := by
  cases hop : op.lives with
  | false => exact lives_plain (by rintro rfl; cases hop) (hf.lives hop)
  | true =>
    replace h := exec_group h
    cases op <;> first | (cases hop; done) | (cases hends; done) | (cases hlastly; done) | skip
    case driveState =>
      cases env <;> try cases h
      simp only [Op.group, execRequest] at h
      split at h <;> cases h
      · exact ⟨.inr (.inl ⟨‹_›, rfl⟩), nofun, .inl, id, id, .inl⟩
      · exact lives_plain nofun ⟨rfl, rfl, rfl, rfl⟩
      · exact lives_plain nofun ⟨rfl, rfl, rfl, rfl⟩
    -- the node is attached or refused
    case establish attached =>
      cases env <;> try cases h
      simp only [Op.group, execOwner] at h
      split_ifs at h with hfresh <;> cases h
      · exact lives_plain nofun ⟨rfl, rfl, rfl, rfl⟩
      · exact ⟨.inl rfl, nofun, .inl, id, fun _ => rfl, fun _ => .inr (by simp)⟩
      · exact ⟨.inl rfl, nofun, fun _ => .inr ⟨not_not.mp (not_or.mp hfresh).1, rfl⟩, fun _ => rfl,
          id, .inl⟩
    case establishState =>
      cases env <;> cases h
      exact ⟨.inr (.inr rfl), fun _ => rfl, .inl, id, id, .inl⟩

/-- A channel that is writing has something to write, or the write that emptied the buffer is not
    over. -/
theorem exec_writing (h : exec o c caller op env = some (c', news)) (hends : op.ends = false)
    (hlastly : op.lastly = false) (hsound : op.sound o = true) (hf : Frame c op c' news) :
    c'.isWriting = true → c'.outputBuffer ≠ [] ∨ .writeDone ∈ news ∨
      (op ≠ .writeDone ∧ c.isWriting = true ∧ c'.outputBuffer = c.outputBuffer) := by
  intro hw
  cases hop : op.writes with
  | false =>
    obtain ⟨hwriting, hbuffer⟩ := hf.writes hop
    refine .inr (.inr ⟨?_, hwriting ▸ hw, hbuffer⟩)
    rintro rfl
    cases hop
  | true =>
    replace h := exec_group h
    cases op <;> first | (cases hop; done) | (cases hends; done) | (cases hlastly; done) | skip
    case bufferRest data =>
      cases env <;> cases h
      exact .inl (List.append_ne_nil_of_right_ne_nil _ (by simpa [Op.sound] using hsound))
    case handleWrite r =>
      cases env <;> try cases h
      simp only [Op.group, execOutput] at h
      split_ifs at h
      · cases h
        exact .inr (.inr ⟨by simp, hw, rfl⟩)
      cases r with
      | wrote n =>
        simp only at h
        split_ifs at h <;> cases h
        · exact .inr (.inr ⟨by simp, hw, rfl⟩)
        · exact .inr (.inl (by simp))
      | wouldBlock =>
        cases h
        exact .inr (.inr ⟨by simp, hw, rfl⟩)
      | error err =>
        cases h
        exact .inr (.inr ⟨by simp, hw, rfl⟩)
    case writeDone =>
      cases env <;> try cases h
      simp only [Op.group, execOutput] at h
      split at h <;> cases h
      · cases hw
      · exact .inl ‹_›
    case establish attached =>
      cases env <;> try cases h
      simp only [Op.group, execOwner] at h
      split_ifs at h <;> cases h
      · exact .inr (.inr ⟨by simp, hw, rfl⟩)
      · exact .inr (.inr ⟨by simp, hw, rfl⟩)
      · cases hw

/-- The only operation on the stack that relies on something is the one at work. -/
theorem OwnerOk.active_of_mem {l : List Op} (h : OwnerOk c l) {q : Op} (hq : q ∈ l)
    (hg : q.guarded = true) : active l = some q := by
  have hnot : ¬ q.passive = true := by cases q <;> first | (cases hg; done) | nofun
  have htop : q ∈ top l := by
    rw [← List.takeWhile_append_dropWhile (p := Op.passive) (l := l)] at hq
    exact (List.mem_append.mp hq).resolve_left fun hq => hnot (List.mem_takeWhile_imp hq)
  unfold active
  cases hl : top l with
  | nil => simp [hl] at htop
  | cons q' l' =>
    have hbelow := h.below
    rw [hl] at htop hbelow
    rcases List.mem_cons.mp htop with rfl | hmem
    · rfl
    · have := List.all_eq_true.mp hbelow q hmem
      simp [hg] at this

/-- A connection that is up, or about to be, has its node attached. -/
theorem Live.attached {l : List Op} (h : Live c l) (hok : OwnerOk c l)
    (hup : c.state ≠ .kConnecting ∨ .establishState ∈ l) : c.lifecycleSource = true := by
  rcases hup with hstate | hmem
  · exact h.source hstate
  · have hguard := hok.guard
    rw [hok.active_of_mem hmem rfl] at hguard
    exact hguard.2.1

theorem follows_drives {q : Op} (h : op.follows q = true) (hq : q.drives = true) :
    op.drives = true := by
  cases q <;> first | (cases hq; done) | skip
  all_goals cases op <;> first | rfl | cases h

/-- What stays up over a step. -/
theorem Lives.up (hl : Lives c op c' news) (hon : Onward c.state c'.state)
    (hup : c.state ≠ .kConnecting ∨ .establishState ∈ op :: rest) :
    c'.state ≠ .kConnecting ∨ .establishState ∈ news ++ rest := by
  rcases hup with hstate | hmem
  · exact .inl (hon.2 hstate)
  rcases List.mem_cons.mp hmem with rfl | hmem
  · exact .inl (by rw [hl.established rfl]; nofun)
  · exact .inr (List.mem_append_right news hmem)

/-- A force close that is executed on a connection that is up ends it. -/
theorem exec_forceClose (h : exec o c caller .forceClose env = some (c', news))
    (halive : c.state ≠ .kDisconnected) (hup : c.state ≠ .kConnecting) :
    news.any Op.ends = true := by
  replace h := exec_group h
  cases env <;> try cases h
  simp only [Op.group, execRequest] at h
  split at h <;> cases h
  · rfl
  · rename_i hno
    cases hstate : c.state <;> simp_all

theorem exec_half (h : exec o c caller op env = some (c', news)) (hf : Frame c op c' news)
    (hhalf : c.halfCloses ≠ [] ∨ op = .shutdownWrite) : c'.halfCloses ≠ [] := by
  by_cases hop : op = .shutdownWrite
  · subst hop
    replace h := exec_group h
    cases env <;> cases h
    exact List.cons_ne_nil _ _
  · rw [hf.half hop]
    exact hhalf.resolve_right hop

theorem exec_dirty (h : exec o c caller op env = some (c', news)) (hf : Frame c op c' news) :
    (c.dirty = true → c'.dirty = true) ∧
      (c'.dirty = true → c.dirty = true ∨ c.lifecycleSource = true) := by
  cases hop : op.signals with
  | true => exact ⟨(exec_signals h hop).1, (exec_signals h hop).2.2.1⟩
  | false =>
    rw [hf.dirty hop]
    exact ⟨id, .inl⟩

/-- The operation that the owner executes while the connection goes on. -/
theorem Live.going (h : Live c (op :: rest)) (hexec : exec o c caller op env = some (c', news))
    (hend : ¬ Ending c' (news ++ rest)) :
    op.ends = false ∧ op.lastly = false ∧ op ≠ .clearForce ∧ op ≠ .forceClose := by
  refine ⟨?_, h.lastly op (.head _), ?_, ?_⟩
  · refine eq_false_of_ne_true fun hop => hend ?_
    exact (exec_ends hexec hop).imp_right fun h => by rw [List.any_append, h, Bool.true_or]
  · rintro rfl
    cases h.cleared (.head _)
  · rintro rfl
    refine hend (.inr ?_)
    rw [List.any_append, exec_forceClose hexec h.alive (h.drives ⟨_, .head _, rfl⟩), Bool.true_or]

theorem Live.own (h : Live c (op :: rest)) (hok : OwnerOk c (op :: rest))
    (hexec : exec o c caller op env = some (c', news)) (hf : Frame c op c' news)
    (hsound : op.sound o = true) (hon : Onward c.state c'.state)
    (hend : ¬ Ending c' (news ++ rest)) : Live c' (news ++ rest) := by
  obtain ⟨hends, hlastly, -, hforce⟩ := h.going hexec hend
  have hl := exec_lives hexec hends hlastly hf
  have hfollows : ∀ q ∈ news, op.follows q = true := List.all_eq_true.mp hf.follows
  have hguard : op = .establishState → c.state = .kConnecting ∧ c.lifecycleSource = true ∧
      c.channelRemoved = false := by
    rintro rfl
    exact hok.guard_head rfl
  constructor
  case alive => exact fun hstate => hend (.inl hstate)
  case closed =>
    intro hclosed
    rcases hl.closed hclosed with hclosed | hfailed
    case inr => exact hfailed
    obtain ⟨hstate, hremoved⟩ := h.closed hclosed
    refine ⟨?_, hl.removed hremoved⟩
    rcases hl.state with hsame | ⟨hconnected, -⟩ | hop
    · exact hsame.trans hstate
    · rw [hstate] at hconnected
      cases hconnected
    · rw [(hguard hop).2.2] at hremoved
      cases hremoved
  case lastly =>
    intro q hq
    rcases List.mem_append.mp hq with hq | hq
    · refine eq_false_of_ne_true fun hlast => ?_
      have hfollow := hfollows q hq
      cases q <;> first | (cases hlast; done) | skip
      all_goals cases op <;> first | (cases hfollow; done) | cases hends
    · exact h.lastly q (.tail _ hq)
  case writing =>
    intro hwriting
    rcases exec_writing hexec hends hlastly hsound hf hwriting with hne | hmem | ⟨hop, hw, hbuffer⟩
    · exact .inl hne
    · exact .inr (List.mem_append_left rest hmem)
    · rw [hbuffer]
      refine (h.writing hw).imp_right fun hmem => List.mem_append_right news ?_
      exact (List.mem_cons.mp hmem).resolve_left fun heq => hop heq.symm
  case up =>
    intro hup
    have hold : c.lifecycleSource = true ∨ c.dirty = true ∨ .establishState ∈ news := by
      rcases hup with hsource | hdirty
      · exact (hl.attached hsource).imp_right .inr
      · rcases (exec_dirty hexec hf).2 hdirty with hdirty | hsource
        · exact .inr (.inl hdirty)
        · exact .inl hsource
    rcases hold with hsource | hdirty | hmem
    · exact hl.up hon (h.up (.inl hsource))
    · exact hl.up hon (h.up (.inr hdirty))
    · exact .inr (List.mem_append_left rest hmem)
  case drives =>
    rintro ⟨q, hq, hdrives⟩
    refine hon.2 (h.drives ?_)
    rcases List.mem_append.mp hq with hq | hq
    · exact ⟨op, .head _, follows_drives (hfollows q hq) hdrives⟩
    · exact ⟨q, .tail _ hq, hdrives⟩
  case source =>
    intro hstate
    rcases hl.state with hsame | ⟨hconnected, -⟩ | hop
    · exact hl.source (h.source (hsame ▸ hstate))
    · exact hl.source (h.source (by rw [hconnected]; nofun))
    · exact hl.source (hguard hop).2.1
  case halved =>
    intro hmem
    refine exec_half hexec hf ?_
    rcases List.mem_append.mp hmem with hmem | hmem
    · have hfollow := hfollows _ hmem
      cases op <;> first | (cases hfollow; done) | (cases hends; done) | exact .inr rfl
    · exact .inl (h.halved (.tail _ hmem))
  case cleared =>
    intro hmem
    rcases List.mem_append.mp hmem with hmem | hmem
    · -- only the drive of a force request puts it there, below the close itself
      have hfollow := hfollows _ hmem
      cases op <;> first | (cases hfollow; done) | skip
      replace hexec := exec_group hexec
      cases env <;> try cases hexec
      simp only [Op.group, execRequest] at hexec
      split at hexec <;> cases hexec
      · rfl
      · simp at hmem
    · exact absurd (Option.some.inj (h.cleared (.tail _ hmem))) hforce

/-- Another thread leaves the owner's data alone. -/
theorem Live.remote {l : List Op} (h : Live c l) (hcore : SameCore c c')
    (hdirty : c'.dirty = true → c.dirty = true ∨ c.lifecycleSource = true) : Live c' l where
  alive := by rw [hcore.state]; exact h.alive
  closed := by
    rw [Conn.socketClosed, hcore.closePhase, hcore.state, hcore.channelRemoved]
    exact h.closed
  lastly := h.lastly
  writing := by rw [hcore.isWriting, hcore.outputBuffer]; exact h.writing
  up hup := by
    rw [hcore.lifecycleSource] at hup
    rw [hcore.state]
    rcases hup with hsource | hd
    · exact h.up (.inl hsource)
    · exact h.up (hdirty hd).symm
  drives := by rw [hcore.state]; exact h.drives
  source := by rw [hcore.state, hcore.lifecycleSource]; exact h.source
  halved := by rw [hcore.halfCloses]; exact h.halved
  cleared := h.cleared

/-- What may be pushed where user code runs: the start of an event or of a call. -/
def Op.starts : Op → Bool
  | .clearForce | .clearGraceful | .finishPhase | .destroyDetach => false
  | _ => true

/-- User code that runs is not inside another operation. -/
theorem userRuns_head {l : List Op} (h : userRuns l = true) (hop : ∀ source, op ≠ .user source) :
    l.head? ≠ some op := by
  unfold userRuns at h
  split at h
  · nofun
  · rintro ⟨⟩
    exact hop _ rfl
  · cases h

/-- Something new starts on the owner's stack, or a callback returns. -/
theorem Live.push {olds : List Op} (h : Live c (olds ++ rest)) (huser : userRuns (olds ++ rest) = true)
    (hcore : SameCore c c') (hdirty : c'.dirty = true → c.dirty = true)
    (holds : ∀ q ∈ olds, ∃ source, q = .user source)
    (hnews : ∀ q ∈ news, q.starts = true)
    (hdrives : (∃ q ∈ news, q.drives = true) → c.state ≠ .kConnecting) :
    Live c' (news ++ rest) := by
  have hrest {q : Op} (hq : q ∈ olds ++ rest) (hne : ∀ source, q ≠ .user source) :
      q ∈ news ++ rest := by
    rcases List.mem_append.mp hq with hq | hq
    · obtain ⟨source, rfl⟩ := holds q hq
      exact absurd rfl (hne source)
    · exact List.mem_append_right news hq
  have hnot {q : Op} (hq : q ∈ news ++ rest) (hs : q.starts = false) : q ∈ olds ++ rest := by
    rcases List.mem_append.mp hq with hq | hq
    · rw [hnews q hq] at hs
      cases hs
    · exact List.mem_append_right olds hq
  have h' : Live c' (olds ++ rest) := h.remote hcore fun hd => .inl (hdirty hd)
  constructor
  case alive => exact h'.alive
  case closed => exact h'.closed
  case lastly =>
    intro q hq
    refine eq_false_of_ne_true fun hlast => ?_
    have := h'.lastly q (hnot hq (by cases q <;> first | rfl | cases hlast))
    rw [hlast] at this
    cases this
  case writing => exact fun hw => (h'.writing hw).imp_right fun hq => hrest hq nofun
  case up => exact fun hup => (h'.up hup).imp_right fun hq => hrest hq nofun
  case drives =>
    rintro ⟨q, hq, hd⟩
    rcases List.mem_append.mp hq with hq | hq
    · rw [hcore.state]
      exact hdrives ⟨q, hq, hd⟩
    · exact h'.drives ⟨q, List.mem_append_right olds hq, hd⟩
  case source => exact h'.source
  case halved => exact fun hq => h'.halved (hnot hq rfl)
  case cleared =>
    intro hq
    exact absurd (h'.cleared (hnot hq rfl)) (userRuns_head huser nofun)

end

/-! ## Requests that were accepted -/

/-- A close request that has returned Accepted, or is about to. -/
def Request (c : Conn) (ops : List Op) (kind : CloseKind) : Prop :=
  kind ∈ c.closeAccepted ∨ .retClose kind .accepted ∈ ops

/-- The owner loop is going to look at the force flag. -/
def Driven (c : Conn) (owner : List Op) : Prop :=
  c.dirty = true ∨ .driveForce ∈ owner ∨ owner.head? = some .forceClose

/-- What an accepted request still has coming to it. -/
structure Pending (c : Conn) (owner ops : List Op) : Prop where
  up : (∃ kind, Request c ops kind) → c.state ≠ .kConnecting ∨ .establishState ∈ owner
  forced : Request c ops .force → Driven c owner
  force : c.running = true → (∃ kind, Request c ops kind) → c.forceCloseRequested = true →
    Driven c owner ∨ ∃ q ∈ ops, q.signals = true
  graceful : c.running = true → (∃ kind, Request c ops kind) →
    c.gracefulShutdownRequested = true → c.halfCloses ≠ [] ∨ c.dirty = true ∨
      (∃ q ∈ owner, q.halves = true) ∨ (∃ q ∈ ops, q.signals = true) ∨
      0 < byteCount c.pendingOutputBytes

section
variable {o : Options} {c c' : Conn} {caller : Caller} {op : Op} {env : Env}
  {news rest R : List Op}

theorem exec_handOver {kind : CloseKind} {first : Bool}
    (h : exec o c caller (.closeFlag kind first) env = some (c', news)) :
    news = kind.handOver caller := by
  replace h := exec_group h
  cases env <;> cases kind <;> cases h
  all_goals rfl

/-- Where an accepted request comes from. -/
theorem exec_accepted (h : exec o c caller op env = some (c', news)) (hf : Frame c op c' news)
    {kind : CloseKind} (hr : Request c' (news ++ R) kind) :
    Request c (op :: R) kind ∨ (caller = .owner ∧ ∃ first, op = .closeFlag kind first) ∨
      (op.signals = true ∧ c'.dirty = true ∧ c.lifecycleSource = true) := by
  rcases hr with hr | hr
  · left
    by_cases hop : op.returns = true
    case neg =>
      rw [hf.accepted (eq_false_of_ne_true hop)] at hr
      exact .inl hr
    cases op <;> try cases hop
    rename_i k r
    cases env <;> cases exec_group h
    by_cases hacc : r = .accepted
    · rw [if_pos hacc] at hr
      rcases List.mem_cons.mp hr with rfl | hr
      · exact .inr (by rw [hacc]; exact .head _)
      · exact .inl hr
    · rw [if_neg hacc] at hr
      exact .inl hr
  · rcases List.mem_append.mp hr with hr | hr
    case inr => exact .inl (.inr (.tail _ hr))
    right
    have hfollow := List.all_eq_true.mp hf.follows _ hr
    cases op <;> try (cases hfollow; done)
    case closeFlag k first =>
      rw [exec_handOver h] at hr
      cases caller with
      | owner =>
        obtain rfl : kind = k := by simpa [CloseKind.handOver] using hr
        exact .inl ⟨rfl, first, rfl⟩
      | remote => simp [CloseKind.handOver] at hr
    case signalLifecycle k =>
      obtain ⟨hdirty, hsource, -⟩ := (exec_signals h rfl).2.2.2 kind hr
      exact .inr ⟨rfl, hdirty, hsource⟩

/-- A drive of a force request goes on until the connection is ending. -/
theorem Driven.exec (h : Driven c (op :: rest)) (hforce : c.forceCloseRequested = true)
    (hexec : exec o c caller op env = some (c', news)) (hf : Frame c op c' news)
    (hop : op ≠ .forceClose) : Driven c' (news ++ rest) := by
  rcases h with hdirty | hmem | hhead
  · exact .inl ((exec_dirty hexec hf).1 hdirty)
  · rcases List.mem_cons.mp hmem with rfl | hmem
    · replace hexec := exec_group hexec
      cases env <;> try cases hexec
      simp only [Op.group, execRequest, hforce, if_true] at hexec
      cases hexec
      exact .inr (.inr rfl)
    · exact .inr (.inl (List.mem_append_right news hmem))
  · exact absurd (Option.some.inj hhead) hop

/-- A signal that a thread sends for a connection that is up reaches the node. -/
theorem signals_exec {l : List Op} (h : ∃ q ∈ op :: R, q.signals = true) (hlive : Live c l)
    (hok : OwnerOk c l) (hup : c.state ≠ .kConnecting ∨ .establishState ∈ l)
    (hrunning : c.running = true) (hexec : exec o c caller op env = some (c', news)) :
    c'.dirty = true ∨ ∃ q ∈ news ++ R, q.signals = true := by
  obtain ⟨q, hq, hsignals⟩ := h
  rcases List.mem_cons.mp hq with rfl | hq
  · exact .inl ((exec_signals hexec hsignals).2.1 (hlive.attached hok hup) hrunning)
  · exact .inr ⟨q, List.mem_append_right news hq, hsignals⟩

/-- The steps of a drive that lead to the half-close follow each other. -/
theorem exec_halves (hexec : exec o c .owner op env = some (c', news)) (hop : op.halves = true)
    (hlive : Live c (op :: rest)) (hok : OwnerOk c (op :: rest))
    (hgraceful : c.gracefulShutdownRequested = true)
    (hbytes : c.outputBuffer ≠ [] → 0 < byteCount c.pendingOutputBytes) :
    c'.halfCloses ≠ [] ∨ (∃ q ∈ news, q.halves = true) ∨
      0 < byteCount c'.pendingOutputBytes := by
  replace hexec := exec_group hexec
  cases op <;> try (cases hop; done)
  case driveForce =>
    cases env <;> try cases hexec
    simp only [Op.group, execRequest] at hexec
    split at hexec <;> cases hexec
    · exact .inr (.inl ⟨.driveGraceful, by simp, rfl⟩)
    · exact .inr (.inl ⟨.driveGraceful, by simp, rfl⟩)
  case driveGraceful =>
    cases env <;> try cases hexec
    simp only [Op.group, execRequest, hgraceful, if_true] at hexec
    cases hexec
    exact .inr (.inl ⟨.driveState, by simp, rfl⟩)
  case driveState =>
    have hup := hlive.drives ⟨_, .head _, rfl⟩
    have halive := hlive.alive
    cases env <;> try cases hexec
    cases hstate : c.state with
    | kConnecting => exact absurd hstate hup
    | kDisconnected => exact absurd hstate halive
    | kConnected =>
      simp only [Op.group, execRequest, hstate] at hexec
      cases hexec
      exact .inr (.inl ⟨.shutdownInLoop, by simp, rfl⟩)
    | kDisconnecting =>
      simp only [Op.group, execRequest, hstate] at hexec
      cases hexec
      exact .inr (.inl ⟨.shutdownInLoop, by simp, rfl⟩)
  case shutdownInLoop =>
    have hstate : c.state = .kDisconnecting := hok.guard_head rfl
    cases env <;> try cases hexec
    simp only [Op.group, execRequest] at hexec
    split at hexec <;> cases hexec
    · exact .inr (.inl ⟨.shutdownLoad, by simp, rfl⟩)
    -- the channel is writing, so the output buffer is not empty
    · rename_i hno
      have hopen : c.socketClosed = false := by
        refine eq_false_of_ne_true fun hclosed => ?_
        have := (hlive.closed hclosed).1
        rw [hstate] at this
        cases this
      have hwriting : c.isWriting = true := by
        refine eq_true_of_ne_false fun hw => hno ⟨hgraceful, hopen, hw⟩
      refine .inr (.inr (hbytes ((hlive.writing hwriting).resolve_right fun hmem => ?_)))
      have := hok.active_of_mem hmem rfl
      rw [hok.active_of_mem (.head _) rfl] at this
      cases this
  case shutdownLoad =>
    cases env <;> try cases hexec
    simp only [Op.group, execRequest] at hexec
    split at hexec <;> cases hexec
    · exact .inr (.inl ⟨.shutdownWrite, by simp, rfl⟩)
    · exact .inr (.inr (by omega))
  case shutdownWrite =>
    cases env <;> cases hexec
    exact .inl (List.cons_ne_nil _ _)

/-- An operation keeps what the requests have coming to them, whoever executes it. -/
theorem Pending.next {l l' : List Op} (h : Pending c l (op :: R)) (hlive : Live c l) (hok : OwnerOk c l)
    (hasked : Asked c (op :: R)) (hexec : exec o c caller op env = some (c', news))
    (hf : Frame c op c' news) (hset : c.Settles o op.held c' news) (hclear : op ≠ .clearForce)
    (hup : c.state ≠ .kConnecting ∨ .establishState ∈ l → c'.state ≠ .kConnecting ∨ .establishState ∈ l')
    (hdriven : Driven c l → c.forceCloseRequested = true → Driven c' l')
    (hhalves : (∃ q ∈ l, q.halves = true) → c.gracefulShutdownRequested = true →
      c'.halfCloses ≠ [] ∨ (∃ q ∈ l', q.halves = true) ∨ 0 < byteCount c'.pendingOutputBytes)
    (hflag : ∀ kind first, op = .closeFlag kind first → c'.state ≠ .kConnecting ∧ .driveForce ∈ l' ∨
      caller = .remote ∧ ∃ q ∈ news ++ R, q.signals = true) : Pending c' l' (news ++ R) := by
  -- a request that is new here is driven, or its signal has arrived
  have hold {kind : CloseKind} (hr : Request c' (news ++ R) kind) : Request c (op :: R) kind ∨
      (c'.state ≠ .kConnecting ∨ .establishState ∈ l') ∧ (c'.dirty = true ∨ .driveForce ∈ l') := by
    rcases exec_accepted hexec hf hr with hr | ⟨hcaller, first, hop⟩ | ⟨-, hdirty, hsource⟩
    · exact .inl hr
    · rcases hflag kind first hop with ⟨hstate, hmem⟩ | ⟨hremote, -⟩
      · exact .inr ⟨.inl hstate, .inr hmem⟩
      · rw [hcaller] at hremote
        cases hremote
    · exact .inr ⟨hup (hlive.up (.inl hsource)), .inl hdirty⟩
  have hsome (hr : ∃ kind, Request c' (news ++ R) kind) : (∃ kind, Request c (op :: R) kind) ∨
      (c'.state ≠ .kConnecting ∨ .establishState ∈ l') ∧ (c'.dirty = true ∨ .driveForce ∈ l') :=
    hr.elim fun kind hr => (hold hr).imp_left fun hr => ⟨kind, hr⟩
  constructor
  case up =>
    intro hr
    rcases hsome hr with hr | ⟨hnew, -⟩
    · exact hup (h.up hr)
    · exact hnew
  case forced =>
    intro hr
    rcases hold hr with hr | ⟨-, hd⟩
    · refine hdriven (h.forced hr) (hasked.force (hasked.forced ?_))
      exact hr.imp_right fun hmem => ⟨_, hmem, rfl⟩
    · exact hd.imp_right .inl
  case force =>
    intro hrunning hr hforce
    rw [hf.running] at hrunning
    rcases hsome hr with hr | ⟨-, hd⟩
    case inr => exact .inl (hd.imp_right .inl)
    by_cases hop : op.flagsForce = true
    case pos =>
      cases op <;> try (cases hop; done)
      case clearForce => exact absurd rfl hclear
      case closeFlag kind first => exact (hflag _ _ rfl).imp (fun hd => .inr (.inl hd.2)) And.right
    rw [(hf.force (eq_false_of_ne_true hop)).1] at hforce
    rcases h.force hrunning hr hforce with hd | hsignals
    · exact .inl (hdriven hd hforce)
    · exact (signals_exec hsignals hlive hok (h.up hr) hrunning hexec).imp_left .inl
  case graceful =>
    intro hrunning hr hgraceful
    rw [hf.running] at hrunning
    rcases hsome hr with hr | ⟨-, hdirty | hmem⟩
    case inr.inl => exact .inr (.inl hdirty)
    case inr.inr => exact .inr (.inr (.inl ⟨_, hmem, rfl⟩))
    by_cases hop : op.flagsGraceful = true
    case pos =>
      cases op <;> try (cases hop; done)
      case closeFlag kind first =>
        exact (hflag _ _ rfl).elim (fun hd => .inr (.inr (.inl ⟨_, hd.2, rfl⟩)))
          fun hs => .inr (.inr (.inr (.inl hs.2)))
      case clearGraceful =>
        cases env <;> cases exec_group hexec
        cases hgraceful
    rw [(hf.graceful (eq_false_of_ne_true hop)).1] at hgraceful
    rcases h.graceful hrunning hr hgraceful with hhalf | hdirty | hq | hsignals | hcount
    · exact .inl (exec_half hexec hf (.inl hhalf))
    · exact .inr (.inl ((exec_dirty hexec hf).1 hdirty))
    · rcases hhalves hq hgraceful with hhalf | hq | hcount
      · exact .inl hhalf
      · exact .inr (.inr (.inl hq))
      · exact .inr (.inr (.inr (.inr hcount)))
    · rcases signals_exec hsignals hlive hok (h.up hr) hrunning hexec with hdirty | hsignals
      · exact .inr (.inl hdirty)
      · exact .inr (.inr (.inr (.inl hsignals)))
    · have hseal : isSealed c.pendingOutputBytes = true := by
        obtain ⟨kind, hr⟩ := hr
        exact hasked.asked (hr.imp (fun h => List.ne_nil_of_mem h) fun hmem => ⟨_, hmem, rfl⟩)
      rcases hset.drained hseal hcount with hcount | hmem
      · exact .inr (.inr (.inr (.inr hcount)))
      · exact .inr (.inr (.inr (.inl ⟨_, List.mem_append_left R hmem, rfl⟩)))

/-- A request that the owner hands over is driven by it. -/
theorem Pending.own (h : Pending c (op :: rest) (op :: R)) (hlive : Live c (op :: rest))
    (hok : OwnerOk c (op :: rest)) (hasked : Asked c (op :: R))
    (hexec : exec o c .owner op env = some (c', news)) (hf : Frame c op c' news)
    (hset : c.Settles o op.held c' news) (hon : Onward c.state c'.state)
    (hbytes : c.outputBuffer ≠ [] → 0 < byteCount c.pendingOutputBytes)
    (hend : ¬ Ending c' (news ++ rest)) : Pending c' (news ++ rest) (news ++ R) := by
  obtain ⟨hends, hlastly, hclear, hforceClose⟩ := hlive.going hexec hend
  have hl := exec_lives hexec hends hlastly hf
  refine h.next hlive hok hasked hexec hf hset hclear (hl.up hon)
    (fun hd hforce => hd.exec hforce hexec hf hforceClose) (fun ⟨q, hq, hhalves⟩ hgraceful => ?_)
    (fun kind first hop => .inl ?_)
  · rcases List.mem_cons.mp hq with rfl | hq
    · exact (exec_halves hexec hhalves hlive hok hgraceful hbytes).imp_right
        (Or.imp_left fun ⟨q', hq', hh⟩ => ⟨q', List.mem_append_left rest hq', hh⟩)
    · exact .inr (.inl ⟨q, List.mem_append_right news hq, hhalves⟩)
  · subst hop
    refine ⟨hon.2 (hlive.drives ⟨_, .head _, rfl⟩), List.mem_append_left rest ?_⟩
    rw [exec_handOver hexec]
    exact .head _

/-- A request that another thread hands over is signalled. -/
theorem Pending.remote {l : List Op} (h : Pending c l (op :: R)) (hlive : Live c l)
    (hok : OwnerOk c l) (hasked : Asked c (op :: R))
    (hexec : exec o c .remote op env = some (c', news)) (hop : op.crossThread = true)
    (hcore : SameCore c c') (hf : Frame c op c' news) (hset : c.Settles o op.held c' news) :
    Pending c' l (news ++ R) := by
  refine h.next hlive hok hasked hexec hf hset ?_ (by rw [hcore.state]; exact id)
    (fun hd _ => hd.imp_left (exec_dirty hexec hf).1) (fun hq _ => .inr (.inl hq))
    (fun kind first hflags => .inr ⟨rfl, ?_⟩)
  · rintro rfl
    cases hop
  · subst hflags
    rw [exec_handOver hexec]
    exact ⟨_, .head _, rfl⟩

/-- What starting an event leaves of the requests. -/
structure SameRequests (c c' : Conn) : Prop where
  state : c'.state = c.state
  force : c'.forceCloseRequested = c.forceCloseRequested ∧ c'.forceEver = c.forceEver
  graceful : c'.gracefulShutdownRequested = c.gracefulShutdownRequested ∧
    c'.gracefulEver = c.gracefulEver
  word : c'.pendingOutputBytes = c.pendingOutputBytes
  accepted : c'.closeAccepted = c.closeAccepted
  half : c'.halfCloses = c.halfCloses

theorem sameRequests_rfl : SameRequests c c := ⟨rfl, ⟨rfl, rfl⟩, ⟨rfl, rfl⟩, rfl, rfl, rfl⟩

theorem Pending.push {olds l l' : List Op} (h : Pending c l (olds ++ R)) (hsame : SameRequests c c')
    (hrunning : c'.running = true → c.running = true)
    (holds : ∀ q ∈ olds, ∃ source, q = .user source) (hnews : ∀ q ∈ news, q.asks = false)
    (hdirty : c.dirty = true → c'.dirty = true ∨ .driveForce ∈ l')
    (hkeep : ∀ q ∈ l, (∀ source, q ≠ .user source) → q ∈ l')
    (hhead : l.head? = some .forceClose → l'.head? = some .forceClose) :
    Pending c' l' (news ++ R) := by
  have hold {kind : CloseKind} (hr : Request c' (news ++ R) kind) : Request c (olds ++ R) kind := by
    unfold Request at hr ⊢
    rw [hsame.accepted] at hr
    refine hr.imp_right fun hmem => ?_
    rcases List.mem_append.mp hmem with hmem | hmem
    · cases hnews _ hmem
    · exact List.mem_append_right olds hmem
  have hsome (hr : ∃ kind, Request c' (news ++ R) kind) : ∃ kind, Request c (olds ++ R) kind :=
    hr.imp fun _ => hold
  have hdriven (hd : Driven c l) : Driven c' l' := by
    rcases hd with hd | hmem | hh
    · exact (hdirty hd).imp_right .inl
    · exact .inr (.inl (hkeep _ hmem nofun))
    · exact .inr (.inr (hhead hh))
  have hsignals (hs : ∃ q ∈ olds ++ R, q.signals = true) : ∃ q ∈ news ++ R, q.signals = true := by
    obtain ⟨q, hq, hs⟩ := hs
    rcases List.mem_append.mp hq with hq | hq
    · obtain ⟨source, rfl⟩ := holds q hq
      cases hs
    · exact ⟨q, List.mem_append_right news hq, hs⟩
  constructor
  case up =>
    intro hr
    rw [hsame.state]
    exact (h.up (hsome hr)).imp_right fun hmem => hkeep _ hmem nofun
  case forced => exact fun hr => hdriven (h.forced (hold hr))
  case force =>
    intro hrun hr hforce
    rw [hsame.force.1] at hforce
    exact (h.force (hrunning hrun) (hsome hr) hforce).imp hdriven hsignals
  case graceful =>
    intro hrun hr hgraceful
    rw [hsame.graceful.1] at hgraceful
    rw [hsame.half, hsame.word]
    rcases h.graceful (hrunning hrun) (hsome hr) hgraceful with hhalf | hd | ⟨q, hq, hh⟩ | hs | hcount
    · exact .inl hhalf
    · rcases hdirty hd with hd | hmem
      · exact .inr (.inl hd)
      · exact .inr (.inr (.inl ⟨_, hmem, rfl⟩))
    · exact .inr (.inr (.inl ⟨q, hkeep q hq (by rintro source rfl; cases hh), hh⟩))
    · exact .inr (.inr (.inr (.inl (hsignals hs))))
    · exact .inr (.inr (.inr (.inr hcount)))

end

/-! ## The invariant -/

structure Awake (s : State) : Prop where
  live : Live s.conn s.owner
  asked : Asked s.conn s.ops
  pending : Pending s.conn s.owner s.ops

theorem awake_init : Awake {} where
  live := by
    refine ⟨nofun, nofun, nofun, nofun, ?_, ?_, ?_, nofun, nofun⟩
    · rintro (h | h) <;> cases h
    · rintro ⟨q, hq, -⟩
      cases hq
    · exact fun h => absurd rfl h
  asked := by
    refine ⟨nofun, nofun, ?_, ?_, ?_⟩
    · exact fun h => absurd h (by decide)
    · rintro (h | ⟨q, hq, -⟩)
      · exact absurd rfl h
      · cases hq
    · rintro (h | ⟨q, hq, -⟩)
      · cases h
      · cases hq
  pending := by
    have hnone : ∀ kind, ¬ Request {} (State.ops {}) kind := by
      rintro kind (h | h) <;> cases h
    refine ⟨?_, fun h => absurd h (hnone _), ?_, ?_⟩
    · rintro ⟨kind, h⟩
      exact absurd h (hnone kind)
    · exact fun _ _ h => by cases h
    · exact fun _ _ h => by cases h

section
variable {o : Options} {s s' : State}

theorem Asked.perm {c : Conn} {ops ops' : List Op} (h : Asked c ops) (hp : ops.Perm ops') :
    Asked c ops' := by
  have hmem {P : Op → Bool} : (∃ q ∈ ops', P q = true) ↔ ∃ q ∈ ops, P q = true := by
    simp only [hp.mem_iff]
  exact ⟨h.graceful, h.force, by rw [hmem]; exact h.sealed, by rw [hmem]; exact h.asked,
    by rw [hmem]; exact h.forced⟩

theorem Pending.perm {c : Conn} {l ops ops' : List Op} (h : Pending c l ops)
    (hp : ops.Perm ops') : Pending c l ops' := by
  have hreq (kind : CloseKind) : Request c ops' kind ↔ Request c ops kind := by
    simp only [Request, hp.mem_iff]
  have hsig : (∃ q ∈ ops', q.signals = true) ↔ ∃ q ∈ ops, q.signals = true := by
    simp only [hp.mem_iff]
  constructor
  all_goals simp only [hreq, hsig]
  · exact h.up
  · exact h.forced
  · exact h.force
  · exact h.graceful

/-- No close request starts on the owner loop before the connection is established. -/
def NoEarlyClose (s : State) : Label → Prop
  | .ownCall .tryShutdown | .ownCall .tryForceClose => s.conn.state ≠ .kConnecting
  | _ => True

instance (s : State) : (l : Label) → Decidable (NoEarlyClose s l)
  | .ownCall .tryShutdown | .ownCall .tryForceClose => inferInstanceAs (Decidable (_ ≠ _))
  | .call _ | .remote _ _ | .event _ | .own _ | .ownCall (.trySend _) | .ownDestroy | .retrieve _
  | .ret _ | .quit => .isTrue trivial

/-- Only a call on the owner loop starts a close request there. -/
theorem early_close {l : Label} (hinv : Inv o s) (hC : NoEarlyClose s l)
    (hs : step o s l = some s') {kind : CloseKind} (hmem : .closeCheck kind ∈ s'.owner) :
    .closeCheck kind ∈ s.owner ∨ s.conn.state ≠ .kConnecting := by
  cases l with
  | ownCall c =>
    simp only [step] at hs
    split at hs <;> cases hs
    cases c
    case trySend => exact .inl (by simpa [Call.ops] using hmem)
    all_goals exact .inr hC
  | own env =>
    simp only [step] at hs
    split at hs
    case h_2 => cases hs
    case h_1 op rest hop =>
      obtain ⟨r, hr, rfl⟩ := Option.map_eq_some_iff.mp hs
      have hf := exec_frame hr hinv.word (hinv.ops op (by simp [State.ops, hop]))
      left
      rw [hop]
      rcases List.mem_append.mp hmem with hmem | hmem
      · cases List.all_eq_true.mp hf.follows _ hmem
      · exact .tail _ hmem
  | event e =>
    simp only [step] at hs
    split at hs
    case isFalse => cases hs
    case isTrue hidle =>
      obtain ⟨r, hr, rfl⟩ := Option.map_eq_some_iff.mp hs
      revert hr
      fun_cases Conn.start s.conn e
      all_goals intro hr; cases hr
      all_goals try (simp at hmem; done)
      rename_i f _ _
      cases f <;> simp [QueuedFunctor.op] at hmem
  | ret threw =>
    simp only [step] at hs
    split at hs <;> cases hs
    rename_i source rest hop
    left
    rw [hop]
    rcases List.mem_append.mp hmem with hmem | hmem
    · cases source <;> cases threw <;> simp [CallbackSource.next] at hmem
    · exact .tail _ hmem
  | remote i env =>
    simp only [step] at hs
    split at hs
    case h_2 => cases hs
    case h_1 =>
      obtain ⟨r, hr, rfl⟩ := Option.map_eq_some_iff.mp hs
      exact .inl hmem
  | _ =>
    simp only [step] at hs
    try split at hs
    all_goals cases hs
    all_goals exact .inl (by simpa using hmem)

theorem Ending.act {n n' : Nat} {c c' : Conn} {olds news rest : List Op}
    (ha : Act o .owner n c olds n' c' news) (h : (olds ++ rest).any Op.ends = true) :
    Ending c' (news ++ rest) := by
  rw [List.any_append, Bool.or_eq_true] at h
  rcases h with h | h
  case inr => exact .inr (by rw [List.any_append, h, Bool.or_true])
  cases ha with
  | exec hexec =>
    rcases exec_ends hexec (by simpa using h) with hstate | hnews
    · exact .inl hstate
    · exact .inr (by rw [List.any_append, hnews, Bool.true_or])
  | _ => cases h

theorem Ending.move (hinv : Inv o s) (h : Ending s.conn s.owner) (hm : Move o s s') :
    Ending s'.conn s'.owner := by
  rcases h with hstate | hany
  · exact .inl ((hinv.onward hm).1 hstate)
  cases hm with
  | owner olds news rest act old new remotes push =>
    rw [new]
    exact Ending.act act (old ▸ hany)
  | remote olds news R act old new owner => exact .inr (by rw [owner]; exact hany)

/-- Something starts where user code runs, or a callback returns. -/
theorem awake_push {c c' : Conn} {olds news rest R : List Op} (hlive : Live c (olds ++ rest))
    (hasked : Asked c (olds ++ R)) (hpending : Pending c (olds ++ rest) (olds ++ R))
    (huser : userRuns (olds ++ rest) = true) (holds : ∀ q ∈ olds, ∃ source, q = .user source)
    (hcore : SameCore c c') (hsame : SameRequests c c') (hrunning : c'.running = c.running)
    (hdirty : c'.dirty = c.dirty ∨ c'.dirty = false ∧ .driveForce ∈ news)
    (hnews : news.all (fun q => q.starts && !q.asks) = true)
    (hdrives : (∃ q ∈ news, q.drives = true) → c.state ≠ .kConnecting) :
    Live c' (news ++ rest) ∧ Asked c' (news ++ R) ∧ Pending c' (news ++ rest) (news ++ R) := by
  have hnews : ∀ q ∈ news, q.starts = true ∧ q.asks = false := by simpa using hnews
  refine ⟨?_, ?_, ?_⟩
  · refine hlive.push huser hcore ?_ holds (fun q hq => (hnews q hq).1) hdrives
    rcases hdirty with hd | ⟨hd, -⟩
    · rw [hd]
      exact id
    · rw [hd]
      nofun
  · refine hasked.plain ?_ (fun q hq => (hnews q hq).2) hsame.force ⟨?_, hsame.graceful.2⟩ ?_
      hsame.accepted
    · intro q hq
      obtain ⟨source, rfl⟩ := holds q hq
      rfl
    · rw [hsame.graceful.1, hsame.half]
      exact id
    · rw [hsame.word]
  · refine hpending.push hsame (fun h => hrunning ▸ h) holds (fun q hq => (hnews q hq).2) ?_ ?_ ?_
    · intro hd
      rcases hdirty with hsame | ⟨-, hmem⟩
      · exact .inl (hsame.trans hd)
      · exact .inr (List.mem_append_left rest hmem)
    · intro q hq hne
      rcases List.mem_append.mp hq with hq | hq
      · obtain ⟨source, rfl⟩ := holds q hq
        exact absurd rfl (hne source)
      · exact List.mem_append_right news hq
    · exact fun hhead => absurd hhead (userRuns_head huser nofun)

theorem start_requests {c c' : Conn} {e : Event} {news : List Op}
    (h : c.start e = some (c', news)) : SameRequests c c' ∧ c'.running = c.running ∧
      (c'.dirty = c.dirty ∨ c'.dirty = false ∧ .driveForce ∈ news) ∧
      news.all (fun q => q.starts && !q.asks) = true ∧
      ((∃ q ∈ news, q.drives = true) → c.dirty = true) := by
  have hsame := sameRequests_rfl (c := c)
  revert h
  fun_cases Conn.start c e
  all_goals intro h; cases h
  case case11 hdirty =>
    exact ⟨⟨rfl, ⟨rfl, rfl⟩, ⟨rfl, rfl⟩, rfl, rfl, rfl⟩, rfl, .inr ⟨rfl, .head _⟩, rfl, fun _ => hdirty⟩
  case case14 f rest _ =>
    refine ⟨⟨rfl, ⟨rfl, rfl⟩, ⟨rfl, rfl⟩, rfl, rfl, rfl⟩, rfl, .inl rfl, ?_, ?_⟩
    · cases f <;> rfl
    · rintro ⟨q, hq, hd⟩
      obtain rfl := List.mem_singleton.mp hq
      cases f <;> cases hd
  all_goals
    refine ⟨hsame, rfl, .inl rfl, rfl, ?_⟩
    rintro ⟨q, hq, hd⟩
    obtain rfl := List.mem_singleton.mp hq
    cases hd

theorem Act.awake {n n' : Nat} {c c' : Conn} {olds news rest R : List Op}
    (ha : Act o .owner n c olds n' c' news) (hw : c.pendingOutputBytes < 2 ^ 64)
    (hsound : ∀ q ∈ olds, q.sound o = true)
    (hset : c.Settles o (Stacks.weight Op.held olds) c' news)
    (hok : OwnerOk c (olds ++ rest)) (hpush : olds = [] → news = [] ∨ userRuns rest = true)
    (hon : Onward c.state c'.state)
    (hbytes : c.outputBuffer ≠ [] → 0 < byteCount c.pendingOutputBytes)
    (hearly : ∀ kind, .closeCheck kind ∈ news → c.state ≠ .kConnecting)
    (hlive : Live c (olds ++ rest)) (hasked : Asked c (olds ++ R))
    (hpending : Pending c (olds ++ rest) (olds ++ R)) (hend : ¬ Ending c' (news ++ rest)) :
    Live c' (news ++ rest) ∧ Asked c' (news ++ R) ∧ Pending c' (news ++ rest) (news ++ R) := by
  cases ha with
  | @exec _ _ _ _ op _ _ hexec =>
    have hf := exec_frame hexec hw (hsound op (.head _))
    obtain ⟨hends, -, hclear, -⟩ := hlive.going hexec hend
    refine ⟨hlive.own hok hexec hf (hsound op (.head _)) hon hend, ?_, ?_⟩
    · refine hasked.exec hexec hw (hsound op (.head _)) ?_ hclear ?_
      · rintro rfl
        cases hends
      · rintro rfl
        exact hlive.halved (.head _)
    · exact hpending.own hlive hok hasked hexec hf (by simpa using hset) hon hbytes hend
  | call _ _ _ k =>
    rcases hpush rfl with hnil | huser
    · cases k <;> cases hnil
    refine awake_push hlive hasked hpending huser nofun sameCore_rfl sameRequests_rfl rfl (.inl rfl)
      (by cases k <;> rfl) ?_
    rintro ⟨q, hq, hd⟩
    cases k
    case trySend =>
      obtain rfl := List.mem_singleton.mp hq
      cases hd
    all_goals exact hearly _ (.head _)
  | destroy => exact absurd (.inr rfl) hend
  | start hstart =>
    rcases hpush rfl with hnil | huser
    · exact absurd hnil (start_ne_nil hstart)
    obtain ⟨hsame, hrunning, hdirty, hnews, hdrives⟩ := start_requests hstart
    refine awake_push hlive hasked hpending huser nofun (start_same hstart).1 hsame hrunning hdirty
      hnews fun hd => ?_
    -- a dirty node belongs to a connection that is up
    refine (hlive.up (.inr (hdrives hd))).resolve_right fun hmem => ?_
    have := List.all_eq_true.mp (OwnerOk.user hok huser).1 _ hmem
    cases this
  | ret _ _ source threw =>
    refine awake_push hlive hasked hpending rfl ?_ sameCore_rfl sameRequests_rfl rfl (.inl rfl)
      (by cases source <;> cases threw <;> rfl) ?_
    · intro q hq
      exact ⟨source, List.mem_singleton.mp hq⟩
    · have hnone : (source.next threw).all (fun q => !q.drives) = true := by
        cases source <;> cases threw <;> rfl
      rintro ⟨q, hq, hd⟩
      have := List.all_eq_true.mp hnone q hq
      rw [hd] at this
      cases this
  | retrieve =>
    exact ⟨{ hlive with }, { hasked with }, { hpending with }⟩
  | quit =>
    exact ⟨{ hlive with }, { hasked with }, ⟨hpending.up, hpending.forced, nofun, nofun⟩⟩

theorem Act.awake_remote {n n' : Nat} {c c' : Conn} {olds news l R : List Op}
    (ha : Act o .remote n c olds n' c' news) (hw : c.pendingOutputBytes < 2 ^ 64)
    (hsound : ∀ q ∈ olds, q.sound o = true) (hcross : ∀ q ∈ olds, q.crossThread = true)
    (hset : c.Settles o (Stacks.weight Op.held olds) c' news) (hcore : SameCore c c')
    (hok : OwnerOk c l) (hlive : Live c l) (hasked : Asked c (olds ++ R))
    (hpending : Pending c l (olds ++ R)) :
    Live c' l ∧ Asked c' (news ++ R) ∧ Pending c' l (news ++ R) := by
  cases ha with
  | @exec _ _ _ _ op _ _ hexec =>
    have hf := exec_frame hexec hw (hsound op (.head _))
    have hcross := hcross op (.head _)
    refine ⟨hlive.remote hcore (exec_dirty hexec hf).2, ?_, ?_⟩
    · refine hasked.exec hexec hw (hsound op (.head _)) ?_ ?_ ?_
      all_goals
        rintro rfl
        cases hcross
    · exact hpending.remote hlive hok hasked hexec hcross hcore hf (by simpa using hset)
  | call _ _ _ k =>
    have hnews : ∀ q ∈ k.ops n, q.asks = false := by cases k <;> simp [Call.ops, Op.asks]
    refine ⟨hlive, ?_, ?_⟩
    · exact hasked.plain nofun hnews ⟨rfl, rfl⟩ ⟨id, rfl⟩ rfl rfl
    · exact hpending.push sameRequests_rfl id nofun hnews .inl (fun q hq _ => hq) id

theorem Ledger.buffered (h : Ledger o s) (hout : s.conn.outputBuffer ≠ []) :
    0 < byteCount s.conn.pendingOutputBytes := by
  have hexact := h.exact
  have hlen := List.length_pos_iff.mpr hout
  unfold Conn.held at hexact
  omega

theorem Awake.move (hinv : Inv o s) (h : Awake s) (hm : Move o s s')
    (hearly : ∀ kind, .closeCheck kind ∈ s'.owner →
      .closeCheck kind ∈ s.owner ∨ s.conn.state ≠ .kConnecting) :
    Ending s'.conn s'.owner ∨ Awake s' := by
  by_cases hend : Ending s'.conn s'.owner
  · exact .inl hend
  right
  have hon := hinv.onward hm
  cases hm with
  | owner olds news rest act old new remotes push =>
    have hold : s.ops = olds ++ (rest ++ s.remotes.flatten) := by simp [State.ops, old]
    have hnew : s'.ops = news ++ (rest ++ s.remotes.flatten) := by simp [State.ops, new, remotes]
    have hsound : ∀ q ∈ olds, q.sound o = true := fun q hq =>
      hinv.ops q (by rw [hold]; exact List.mem_append_left _ hq)
    have hset := act.settles hinv.word (List.all_eq_true.mpr hsound) hinv.functors
    have hcheck (kind : CloseKind) (hmem : .closeCheck kind ∈ news) : s.conn.state ≠ .kConnecting :=
      (hearly kind (by rw [new]; exact List.mem_append_left _ hmem)).elim
        (fun hmem => h.live.drives ⟨_, hmem, rfl⟩) id
    obtain ⟨hlive, hasked, hpending⟩ := act.awake hinv.word hsound hset (old ▸ hinv.owner) push hon
      hinv.toLedger.buffered hcheck (old ▸ h.live) (hold ▸ h.asked)
      (by have := h.pending; rwa [hold, old] at this) (new ▸ hend)
    exact ⟨new ▸ hlive, hnew ▸ hasked, by rw [hnew, new]; exact hpending⟩
  | remote olds news R act old new owner =>
    have hops : s.ops.Perm (olds ++ (s.owner ++ R)) := ops_remote rfl old
    have hops' : s'.ops.Perm (news ++ (s.owner ++ R)) := ops_remote owner new
    have hmem : ∀ q ∈ olds, q ∈ s.remotes.flatten := fun q hq =>
      old.mem_iff.mpr (List.mem_append_left R hq)
    have hsound : ∀ q ∈ olds, q.sound o = true := fun q hq =>
      hinv.ops q (List.mem_append_right s.owner (hmem q hq))
    have hcross : ∀ q ∈ olds, q.crossThread = true := fun q hq => hinv.crossThread q (hmem q hq)
    have hset := act.settles hinv.word (List.all_eq_true.mpr hsound) hinv.functors
    obtain ⟨hlive, hasked, hpending⟩ := act.awake_remote hinv.word hsound hcross hset
      (act.crossThread (List.all_eq_true.mpr hcross)).1 hinv.owner h.live (h.asked.perm hops)
      (h.pending.perm hops)
    exact ⟨owner ▸ hlive, hasked.perm hops'.symm, owner ▸ hpending.perm hops'.symm⟩

theorem reach_awake (h : Reach (· = {}) (step o) NoEarlyClose s) :
    Ending s.conn s.owner ∨ Awake s := by
  refine Reach.invariant_with (P := fun s => Ending s.conn s.owner ∨ Awake s)
    (fun h => reach_inv h) ?_ ?_ h
  · rintro s rfl
    exact .inr awake_init
  · intro s l s' hinv h hC hs
    rcases h with h | h
    · exact .inl (h.move hinv (step_move hs))
    · exact h.move hinv (step_move hs) fun kind hmem => early_close hinv hC hs hmem

end

/-! ## Accepted requests take effect -/

/-- The owner loop is between events, with no dirty node and no queued functor of the
    connection. -/
def State.AtRest (s : State) : Prop :=
  s.owner = [] ∧ s.conn.dirty = false ∧ s.conn.functors = []

instance (s : State) : Decidable s.AtRest := by
  unfold State.AtRest
  infer_instance

/-- A call on another thread that has reserved bytes which are neither queued nor released yet, or
    that is about to set a flag or to signal. -/
def Op.inProgress (q : Op) : Bool := q.held != 0 || q.signals || q.flags

/-- In every run in which the owner loop asks for no close of a connecting connection: when the
    owner loop is at rest, an accepted force close has left the connection disconnected, and an
    accepted shutdown of a running loop whose output is written has half-closed or closed it. -/
theorem accepted_close_takes_effect (o : Options) (s : State)
    (h : Reach (· = {}) (step o) NoEarlyClose s) (hrest : s.AtRest) :
    (.force ∈ s.conn.closeAccepted → s.conn.state = .kDisconnected) ∧
    (.graceful ∈ s.conn.closeAccepted → s.conn.running = true → s.conn.outputBuffer = [] →
      (∀ q ∈ s.remotes.flatten, q.inProgress = false) →
      s.conn.halfCloses ≠ [] ∨ s.conn.state = .kDisconnected) := by
  obtain ⟨howner, hclean, hfunctors⟩ := hrest
  have hdriven : ¬ Driven s.conn s.owner := by
    rw [howner]
    rintro (hd | hd | hd)
    · rw [hclean] at hd
      cases hd
    · cases hd
    · cases hd
  rcases reach_awake h with hend | hawake
  · have hstate : s.conn.state = .kDisconnected := by
      rcases hend with hstate | hany
      · exact hstate
      · rw [howner] at hany
        cases hany
    exact ⟨fun _ => hstate, fun _ _ _ _ => .inr hstate⟩
  refine ⟨fun hforce => absurd (hawake.pending.forced (.inl hforce)) hdriven, ?_⟩
  intro hgraceful hrunning hout hidle
  left
  have hreq : ∃ kind, Request s.conn s.ops kind := ⟨_, .inl hgraceful⟩
  have hops : s.ops = s.remotes.flatten := by simp [State.ops, howner]
  have hnone (P : Op → Bool) (hP : ∀ q, P q = true → q.inProgress = true) :
      ¬ ∃ q ∈ s.ops, P q = true := by
    rintro ⟨q, hq, hPq⟩
    have := hidle q (hops ▸ hq)
    rw [hP q hPq] at this
    cases this
  have hsignals := hnone Op.signals fun q hq => by simp [Op.inProgress, hq]
  have hflags := hnone Op.flags fun q hq => by simp [Op.inProgress, hq]
  have hcount : byteCount s.conn.pendingOutputBytes = 0 := by
    have hzero : Stacks.weight Op.held s.ops = 0 := by
      refine Stacks.weight_eq_zero fun q hq => ?_
      have := hidle q (hops ▸ hq)
      simp only [Op.inProgress, Bool.or_eq_false_iff, bne_eq_false_iff_eq] at this
      exact this.1.1
    rw [(reach_inv h).exact, hzero, Conn.held, hout, hfunctors]
    rfl
  -- the seal was set by a request that has set its flag
  have hseal := hawake.asked.asked (.inl (List.ne_nil_of_mem hgraceful))
  rcases hawake.asked.sealed hseal with hever | hever | hpending
  · rcases hawake.asked.graceful hever with hflag | hhalf
    · rcases hawake.pending.graceful hrunning hreq hflag with hh | hh | ⟨q, hq, -⟩ | hh | hh
      · exact hh
      · rw [hclean] at hh
        cases hh
      · rw [howner] at hq
        cases hq
      · exact absurd hh hsignals
      · omega
    · exact hhalf
  · rcases hawake.pending.force hrunning hreq (hawake.asked.force hever) with hh | hh
    · exact absurd hh hdriven
    · exact absurd hh hsignals
  · exact absurd hpending hflags

/-- A shutdown on the owner loop of an established connection with nothing to write. -/
theorem accepted_close_takes_effect_shutdown :
    ∃ s, Reach (· = {}) (step smallConnection) NoEarlyClose s ∧ s.AtRest ∧
      .graceful ∈ s.conn.closeAccepted ∧
      (s.conn.halfCloses ≠ [] ∨ s.conn.state = .kDisconnected) := by
  obtain ⟨s, hr, hrest, haccepted, hrunning, hout, hidle⟩ := Reach.of_run (· = {})
    (step smallConnection) NoEarlyClose
    (fun s => s.AtRest ∧ .graceful ∈ s.conn.closeAccepted ∧ s.conn.running = true ∧
      s.conn.outputBuffer = [] ∧ ∀ q ∈ s.remotes.flatten, q.inProgress = false) {} rfl
    ([.event (.connectEstablished true), .own .nothing, .own .nothing, .ret false,
      .ownCall .tryShutdown] ++ List.replicate 12 (.own .nothing)) (by decide +kernel)
  exact ⟨s, hr, hrest, haccepted,
    (accepted_close_takes_effect smallConnection s hr hrest).2 haccepted hrunning hout hidle⟩

/-- A force close on the owner loop before `connectEstablished` reports Accepted: its drive finds
    the connection connecting, clears the flag, and the connection is established afterwards. -/
theorem early_force_close_lost :
    ∃ s, Reach (· = {}) (step smallConnection) Any s ∧ s.AtRest ∧
      s.conn.running = true ∧ .force ∈ s.conn.closeAccepted ∧
      s.conn.forceCloseRequested = false ∧ s.conn.state = .kConnected :=
  Reach.of_run _ _ _ _ {} rfl
    (.ownCall .tryForceClose :: List.replicate 9 (.own .nothing) ++
      [.event (.connectEstablished true), .own .nothing, .own .nothing, .ret false])
    (by decide +kernel)

end GameNet.TcpConnection
