import Mathlib.Data.List.Infix
import GameNet.TcpConnection.Watermarks

/- The lifecycle of a connection (`connectEstablished`, `connectDestroyed`, `beginCloseInLoop`,
   `finishClose`, `publishCloseInfo`; non-Windows build).

   What is proved: the state and the close phase only move forward, a close reason stays once it is
   published, the channel leaves the loop before the socket is closed and never comes back; and the
   user sees at most one connected report, after it at most one disconnected report, and one call of
   the close-info and of the close callback for a connection that `finishClose` has ended.

   1. `Forward`: what a step can change of the connection is never undone (`exec_forward`).
   2. `Begun`: nothing closes a connection that is still connecting.
   3. `Route`: where the channel and the socket are, for the operation at work.
   4. `Told`: the callbacks issued so far, read off from the state. -/
namespace GameNet.TcpConnection

open Machine (Reach Any)

/-! ## Runs with their callbacks -/

/-- The callbacks among operations. -/
def callbacks (l : List Op) : List CallbackSource :=
  l.filterMap fun
    | .user source => some source
    | _ => none

/-- A state with the callbacks that were put on the owner's stack and those that have returned, the
    oldest first, and whether `finishClose` has ended the connection. -/
structure Traced where
  state : State := {}
  calls : List CallbackSource := []
  returns : List CallbackSource := []
  finished : Bool := false

def Traced.step (o : Options) (t : Traced) (l : Label) : Option Traced :=
  (TcpConnection.step o t.state l).map fun s' =>
    { state := s'
      calls := t.calls ++ callbacks (t.state.pushed o l)
      returns := t.returns ++ callbacks (t.state.popped l)
      finished := t.finished ||
        (t.state.popped l == [.finishClose] && t.state.conn.state != .kDisconnected) }

/-- What the connection callback saw: the connection up (`true`) or down. -/
def CallbackSource.report : CallbackSource → Option Bool
  | .established => some true
  | .disconnected | .destroyed => some false
  | _ => none

def Traced.reports (t : Traced) : List Bool := t.calls.filterMap CallbackSource.report

def StateE.rank : StateE → Nat
  | .kConnecting => 0
  | .kConnected => 1
  | .kDisconnecting => 2
  | .kDisconnected => 3

def ClosePhase.rank : ClosePhase → Nat
  | .opened => 0
  | .closing => 1
  | .socketClosed => 2
  | .closed => 3

/-! ## What is never undone -/

/-- The same reason, and the same native error unless there was none. -/
def CloseInfo.Extends (info info' : CloseInfo) : Prop :=
  info'.reason = info.reason ∧ (info.nativeError ≠ 0 → info' = info)

structure Forward (c c' : Conn) : Prop where
  state : c.state.rank ≤ c'.state.rank
  closePhase : c.closePhase.rank ≤ c'.closePhase.rank
  closeInfo : ∀ info, c.closeInfo = some info → ∃ info', c'.closeInfo = some info' ∧ info.Extends info'
  channelRemoved : c.channelRemoved = true → c'.channelRemoved = true

theorem CloseInfo.Extends.refl (info : CloseInfo) : info.Extends info := ⟨rfl, fun _ => rfl⟩

theorem CloseInfo.Extends.trans {a b c : CloseInfo} (h : a.Extends b) (h' : b.Extends c) :
    a.Extends c := by
  refine ⟨h'.1.trans h.1, fun hne => ?_⟩
  obtain rfl := h.2 hne
  exact h'.2 hne

theorem publishCloseInfo_extends (info old : CloseInfo) :
    old.Extends (publishCloseInfo info (some old)) := by
  simp only [publishCloseInfo]
  split
  case isTrue hzero => exact ⟨rfl, fun hne => absurd hzero hne⟩
  case isFalse => exact .refl old

section
variable {o : Options} {c c' : Conn} {caller : Caller} {op : Op} {env : Env} {news rest l l' : List Op}

theorem Forward.refl (c : Conn) : Forward c c :=
  ⟨le_rfl, le_rfl, fun info h => ⟨info, h, .refl info⟩, id⟩

theorem Forward.trans {c'' : Conn} (h : Forward c c') (h' : Forward c' c'') : Forward c c'' := by
  refine ⟨h.state.trans h'.state, h.closePhase.trans h'.closePhase, fun info hi => ?_,
    fun hr => h'.channelRemoved (h.channelRemoved hr)⟩
  obtain ⟨info', hi', hext⟩ := h.closeInfo info hi
  obtain ⟨info'', hi'', hext'⟩ := h'.closeInfo info' hi'
  exact ⟨info'', hi'', hext.trans hext'⟩

theorem Forward.published (h : Forward c c') (hp : c.closeInfo.isSome = true) :
    c'.closeInfo.isSome = true := by
  obtain ⟨info, hinfo⟩ := Option.isSome_iff_exists.mp hp
  obtain ⟨info', hinfo', -⟩ := h.closeInfo info hinfo
  exact Option.isSome_iff_exists.mpr ⟨info', hinfo'⟩

/-- Nothing that counts here changes. -/
theorem Forward.same (hs : c'.state = c.state) (hp : c'.closePhase = c.closePhase)
    (hi : c'.closeInfo = c.closeInfo) (hr : c'.channelRemoved = c.channelRemoved) : Forward c c' := by
  refine ⟨by rw [hs], by rw [hp], fun info h => ⟨info, hi.trans h, .refl info⟩, fun h => hr.trans h⟩

theorem forward_publish (info : CloseInfo) :
    Forward c { c with closeInfo := some (publishCloseInfo info c.closeInfo) } := by
  refine ⟨le_rfl, le_rfl, fun old hold => ⟨_, rfl, ?_⟩, id⟩
  rw [hold]
  exact publishCloseInfo_extends info old

theorem execSend_forward (h : execSend o c caller op env = some (c', news)) : Forward c c' := by
  revert h
  fun_cases execSend o c caller op env
  all_goals intro h; cases h
  all_goals exact .same rfl rfl rfl rfl

theorem execOutput_forward (h : execOutput o c op env = some (c', news)) : Forward c c' := by
  revert h
  fun_cases execOutput o c op env
  all_goals intro h; cases h
  all_goals exact .same rfl rfl rfl rfl

theorem execRequest_forward (h : execRequest c caller op env = some (c', news)) : Forward c c' := by
  revert h
  fun_cases execRequest c caller op env
  all_goals intro h; cases h
  all_goals first | exact .same rfl rfl rfl rfl | skip
  · exact forward_publish _
  -- `driveState`
  · rename_i hstate
    refine ⟨?_, le_rfl, fun info h => ⟨info, h, .refl info⟩, id⟩
    show c.state.rank ≤ 2
    rw [hstate]
    decide

/-- The socket is closed once, before the connection counts as closed. -/
theorem execOwner_forward (h : execOwner o c op env = some (c', news)) (hg : c.Guard (some op))
    (hopen : op = .closeSocket → c.closePhase ≠ .closed) : Forward c c' := by
  have hsame : ∀ info, c.closeInfo = some info →
      ∃ info', c.closeInfo = some info' ∧ info.Extends info' := fun info h => ⟨info, h, .refl info⟩
  have hlast (x : StateE) : x.rank ≤ 3 := by cases x <;> decide
  have hclosed (x : ClosePhase) : x.rank ≤ 3 := by cases x <;> decide
  have hremove : Forward c c.removeChannel := by
    refine ⟨le_rfl, le_rfl, hsame, fun hr => ?_⟩
    show (c.channelRemoved || _) = true
    rw [hr, Bool.true_or]
  revert h
  fun_cases execOwner o c op env
  all_goals intro h; cases h
  all_goals first
    | exact .same rfl rfl rfl rfl
    | exact forward_publish _
    | exact ⟨hlast _, le_rfl, hsame, id⟩
    | exact ⟨le_rfl, hclosed _, hsame, id⟩
    | exact ⟨le_rfl, hclosed _, hsame, fun _ => rfl⟩
    | skip
  -- `closeState`, `closeChannel` and `closeSocket`
  · refine ⟨?_, ?_, hsame, id⟩
    · show c.state.rank ≤ 2
      cases hstate : c.state <;> first | decide | exact absurd hstate hg
    · show c.closePhase.rank ≤ (if c.closePhase = .opened then ClosePhase.closing else c.closePhase).rank
      split
      case isTrue hphase => rw [hphase]; decide
      case isFalse => exact le_rfl
  · exact hremove
  · refine ⟨le_rfl, ?_, hsame, id⟩
    show c.closePhase.rank ≤ 2
    cases hphase : c.closePhase <;> first | decide | exact absurd hphase (hopen rfl)
  -- `establishState`
  · refine ⟨?_, le_rfl, hsame, id⟩
    show c.state.rank ≤ 1
    rw [show c.state = .kConnecting from hg.1]
    decide
  -- `destroyDetach`
  · exact { hremove with }

theorem exec_forward (h : exec o c caller op env = some (c', news)) (hg : c.Guard (some op))
    (hopen : op = .closeSocket → c.closePhase ≠ .closed) : Forward c c' := by
  rcases exec_cases h with h | h | h | h
  · exact execSend_forward h
  · exact execOutput_forward h
  · exact execRequest_forward h
  · exact execOwner_forward h hg hopen

/-! ## Nothing closes a connection that is connecting -/

/-- The operations of a connection that has been connected. -/
def Op.onceUp : Op → Bool
  | .reserveLoad _ | .reserveOverload _ _ | .reserveClear _ | .reserveCas _ _ | .reserveBudgets _
  | .sendDispatch _ | .sendFunctor _ | .sendReserved _ | .bufferRest _ | .queueWriteComplete
  | .queueHighWaterMark | .handleWrite _ | .writeDone | .shutdownInLoop | .shutdownLoad
  | .shutdownWrite | .handleClose | .handleError _ | .beginClose | .closeState | .closeChannel
  | .closeSocket | .finishClose | .finishPhase | .closeFailed | .destroyDetach | .handleRead _
  | .inputLimit | .user _ => true
  | _ => false

/-- What has begun only after the connection was connected. -/
structure Begun (c : Conn) (owner ops : List Op) : Prop where
  onceUp : ∀ q ∈ ops, q.onceUp = true → c.state ≠ .kConnecting
  functors : c.functors ≠ [] → c.state ≠ .kConnecting
  added : c.channelAdded = true → c.state = .kConnecting → .establishState ∈ owner

theorem releaseOps_early (n : Nat) : (releaseOps n).all (fun q => !q.onceUp) = true := by
  unfold releaseOps
  split <;> rfl

/-- An early operation is followed by early ones, or the connection is no longer connecting. -/
theorem exec_onceUp (h : exec o c caller op env = some (c', news)) :
    (op.onceUp = true ∨ news.all (fun q => !q.onceUp) = true ∨ c'.state ≠ .kConnecting) ∧
    (c'.functors = c.functors ∨ op.onceUp = true) ∧
    (c'.channelAdded = c.channelAdded ∨ c'.channelAdded = false ∨ .establishState ∈ news) := by
  rcases exec_cases h with h | h | h | h
  all_goals revert h
  case' inr.inr.inr => fun_cases execOwner o c op env
  case' inr.inr.inl => fun_cases execRequest c caller op env
  case' inr.inl => fun_cases execOutput o c op env
  case' inl => fun_cases execSend o c caller op env
  all_goals intro h; cases h
  all_goals first
    | exact ⟨.inl rfl, .inr rfl, .inl rfl⟩
    | exact ⟨.inr (.inl rfl), .inl rfl, .inl rfl⟩
    | exact ⟨.inr (.inl rfl), .inl rfl, .inr (.inl rfl)⟩
    | exact ⟨.inr (.inl rfl), .inl rfl, .inr (.inr (List.mem_singleton.mpr rfl))⟩
    | exact ⟨.inr (.inr fun h => by cases h), .inl rfl, .inl rfl⟩
    | refine ⟨.inr ?_, .inl rfl, .inl rfl⟩
  · rename_i hstate _
    exact .inr fun h => hstate (by rw [h]; simp)
  · refine .inl ?_
    split <;> split <;> rfl
  · exact .inl (by cases caller <;> rfl)
  · exact .inl (by cases caller <;> rfl)
  · rename_i hstate
    exact .inr fun h => by rw [h] at hstate; simp at hstate
  · rename_i hstate
    exact .inr (by rw [hstate]; simp)
  · refine .inl ?_
    rw [List.all_append, releaseOps_early]
    rfl

theorem exec_establishState (h : exec o c caller .establishState env = some (c', news)) :
    c'.state = .kConnected := by
  cases env <;> cases exec_group h
  rfl

variable {e : Event}

theorem start_onceUp (h : c.start e = some (c', news)) :
    (news.all (fun q => !q.onceUp) = true ∨ c.channelAdded = true ∨ c.functors ≠ []) ∧
    (c'.functors ≠ [] → c.functors ≠ []) := by
  revert h
  fun_cases Conn.start c e
  all_goals intro h; cases h
  all_goals first
    | exact ⟨.inl rfl, id⟩
    | exact ⟨.inr (.inl ‹_›), id⟩
    | skip
  rename_i hf
  exact ⟨.inr (.inr (by rw [hf]; exact List.cons_ne_nil _ _)), fun _ => by rw [hf]; exact List.cons_ne_nil _ _⟩

variable {olds : List Op} {n n' : Nat}

theorem Act.onceUp (h : Act o caller n c olds n' c' news)
    (hlate : ∀ q ∈ olds, q.onceUp = true → c.state ≠ .kConnecting)
    (hfunctors : c.functors ≠ [] → c.state ≠ .kConnecting)
    (hidle : caller = .owner → olds = [] → news ≠ [] → c.channelAdded = true → c.state ≠ .kConnecting) :
    (∀ q ∈ news, q.onceUp = true → c.state ≠ .kConnecting ∨ c'.state ≠ .kConnecting) ∧
    (c'.functors ≠ [] → c.state ≠ .kConnecting) ∧
    (c'.channelAdded = true → c.channelAdded = true ∨ .establishState ∈ news) ∧
    (.establishState ∈ olds → c'.state ≠ .kConnecting) := by
  cases h with
  | @exec _ _ _ _ op _ _ h =>
    obtain ⟨hnews, hfun, hadded⟩ := exec_onceUp h
    have hop : op.onceUp = true → c.state ≠ .kConnecting := hlate op (List.mem_singleton.mpr rfl)
    refine ⟨fun q hq hql => ?_, fun hf => ?_, fun ha => ?_, fun he => ?_⟩
    · rcases hnews with hn | hn | hn
      · exact .inl (hop hn)
      · have := List.all_eq_true.mp hn q hq
        rw [hql] at this
        cases this
      · exact .inr hn
    · rcases hfun with hfun | hfun
      · exact hfunctors (hfun ▸ hf)
      · exact hop hfun
    · rcases hadded with hadded | hadded | hadded
      · exact .inl (hadded ▸ ha)
      · rw [hadded] at ha
        cases ha
      · exact .inr hadded
    · obtain rfl := List.mem_singleton.mp he
      rw [exec_establishState h]
      nofun
  | call _ _ _ k =>
    refine ⟨fun q hq hql => ?_, hfunctors, Or.inl, nofun⟩
    cases k <;> cases List.mem_singleton.mp hq <;> cases hql
  | destroy =>
    refine ⟨fun q hq hql => ?_, hfunctors, Or.inl, nofun⟩
    cases List.mem_singleton.mp hq
    cases hql
  | start h =>
    obtain ⟨hnews, hfun⟩ := start_onceUp h
    refine ⟨fun q hq hql => .inl ?_, fun hf => hfunctors (hfun hf),
      fun ha => .inl ((start_same h).1.channelAdded ▸ ha), nofun⟩
    rcases hnews with hn | hn | hn
    · have := List.all_eq_true.mp hn q hq
      rw [hql] at this
      cases this
    · exact hidle rfl rfl (start_ne_nil h) hn
    · exact hfunctors hn
  | ret _ _ source threw =>
    exact ⟨fun q _ _ => .inl (hlate (.user source) (List.mem_singleton.mpr rfl) rfl), hfunctors, Or.inl,
      fun h => by cases List.mem_singleton.mp h⟩
  | retrieve => exact ⟨nofun, hfunctors, Or.inl, nofun⟩
  | quit => exact ⟨nofun, hfunctors, Or.inl, nofun⟩

theorem Begun.move {s s' : State} (h : Begun s.conn s.owner s.ops) (hinv : Inv o s)
    (hm : Move o s s') : Begun s'.conn s'.owner s'.ops := by
  have hon : s.conn.state ≠ .kConnecting → s'.conn.state ≠ .kConnecting := (hinv.onward hm).2
  have hstill : s'.conn.state = .kConnecting → s.conn.state = .kConnecting := fun h =>
    not_not.mp fun hne => hon hne h
  -- over all threads
  have hlate {olds news R : List Op} (hold : s.ops.Perm (olds ++ R)) (hnew : s'.ops.Perm (news ++ R))
      (hnews : ∀ q ∈ news, q.onceUp = true →
        s.conn.state ≠ .kConnecting ∨ s'.conn.state ≠ .kConnecting) :
      ∀ q ∈ s'.ops, q.onceUp = true → s'.conn.state ≠ .kConnecting := by
    intro q hq hql
    rcases List.mem_append.mp (hnew.mem_iff.mp hq) with hq | hq
    · exact (hnews q hq hql).elim hon id
    · exact hon (h.onceUp q (hold.mem_iff.mpr (List.mem_append_right olds hq)) hql)
  cases hm with
  | owner olds news rest act old new remotes push =>
    have hold : s.ops.Perm (olds ++ (rest ++ s.remotes.flatten)) := by simp [State.ops, old]
    have hnew : s'.ops.Perm (news ++ (rest ++ s.remotes.flatten)) := by simp [State.ops, new, remotes]
    have hidle : olds = [] → news ≠ [] → s.conn.channelAdded = true → s.conn.state ≠ .kConnecting := by
      rintro rfl hne hadded hstate
      have hmem := h.added hadded hstate
      rw [old, List.nil_append] at hmem
      rcases push rfl with hnil | huser
      · exact hne hnil
      -- a callback on top has been called by a connection that was connected
      cases rest with
      | nil => cases hmem
      | cons q rest =>
        refine h.onceUp q (hold.mem_iff.mpr (by simp)) ?_ hstate
        cases q <;> first | rfl | cases huser
    obtain ⟨hnews, hfunctors, hadded, hestablish⟩ := act.onceUp
      (fun q hq => h.onceUp q (hold.mem_iff.mpr (List.mem_append_left _ hq))) h.functors (fun _ => hidle)
    refine ⟨hlate hold hnew hnews, fun hf => hon (hfunctors hf), fun ha hstate => ?_⟩
    rw [new]
    rcases hadded ha with ha | ha
    · have hmem := h.added ha (hstill hstate)
      rw [old] at hmem
      rcases List.mem_append.mp hmem with hmem | hmem
      · exact absurd hstate (hestablish hmem)
      · exact List.mem_append_right news hmem
    · exact List.mem_append_left rest ha
  | remote olds news R act old new owner =>
    have hold : s.ops.Perm (olds ++ (s.owner ++ R)) := ops_remote rfl old
    have hnew : s'.ops.Perm (news ++ (s.owner ++ R)) := ops_remote owner new
    obtain ⟨hnews, hfunctors, -, -⟩ := act.onceUp
      (fun q hq => h.onceUp q (hold.mem_iff.mpr (List.mem_append_left _ hq))) h.functors (by simp)
    obtain ⟨hcore, -⟩ := act.crossThread (List.all_eq_true.mpr fun op hop =>
      hinv.crossThread op (old.mem_iff.mpr (List.mem_append_left R hop)))
    refine ⟨hlate hold hnew hnews, fun hf => hon (hfunctors hf), fun ha hstate => ?_⟩
    rw [owner]
    exact h.added (hcore.channelAdded ▸ ha) (hstill hstate)

/-! ## Where the channel and the socket are -/

/-- The operations after the socket is closed. -/
def Op.shuts : Op → Bool
  | .finishClose | .finishPhase => true
  | _ => false

/-- The operations after the channel has left the loop. -/
def Op.leaves : Op → Bool
  | .closeSocket | .finishClose => true
  | _ => false

/-- The operations that `Route` speaks of. -/
def Op.routed : Op → Bool
  | .closeSocket | .finishClose | .finishPhase | .destroyState | .establishState => true
  | _ => false

structure Route (c : Conn) (l : List Op) : Prop where
  present : c.state = .kConnected ∨ c.state = .kDisconnecting →
    c.channelAdded = true ∧ (c.channelRemoved = false ∨ (active l).any Op.leaves = true)
  /-- A channel outside the loop has no interest, and the backpressure controller gives it none. -/
  quiet : c.channelAdded = false ∨ c.channelRemoved = true → c.input.isReading = false ∧
    c.isWriting = false ∧ (c.input.active = false ∨ (active l).any Op.leaves = true)
  off : c.state = .kConnecting ∨ c.state = .kDisconnected ∨ active l = some .destroyState →
    c.input.active = false
  started : active l = some .establishState → c.channelAdded = true
  half : c.closePhase = .socketClosed → c.state ≠ .kConnecting
  closed : c.closePhase = .closed →
    c.state = .kDisconnected ∨ c.state = .kConnecting ∧ c.channelRemoved = true
  out : c.socketClosed = true → c.channelAdded = true → c.channelRemoved = true
  shut : ∀ q ∈ l, q.shuts = true → c.socketClosed = true
  single : .finishClose ∉ (top l).tail

structure SameRoute (c c' : Conn) : Prop where
  state : c'.state = c.state
  closePhase : c'.closePhase = c.closePhase
  channelAdded : c'.channelAdded = c.channelAdded
  channelRemoved : c'.channelRemoved = c.channelRemoved
  isWriting : c'.isWriting = c.isWriting
  isReading : c'.input.isReading = c.input.isReading
  active : c'.input.active = c.input.active

theorem SameRoute.of_core (h : SameCore c c') : SameRoute c c' :=
  { h with isReading := by rw [h.input], active := by rw [h.input] }

theorem SameRoute.socketClosed (h : SameRoute c c') : c'.socketClosed = c.socketClosed := by
  rw [Conn.socketClosed, h.closePhase, Conn.socketClosed]

theorem Route.frame (h : Route c l) (hc : SameRoute c c') (htop : top l' = top l)
    (hshut : ∀ q ∈ l', q.shuts = true → q ∈ l) : Route c' l' := by
  have hactive : active l' = active l := by rw [active, active, htop]
  refine ⟨?_, ?_, ?_, ?_, ?_, ?_, ?_, fun q hq hs => ?_, htop ▸ h.single⟩
  · rw [hc.state, hc.channelAdded, hc.channelRemoved, hactive]
    exact h.present
  · rw [hc.channelAdded, hc.channelRemoved, hc.isReading, hc.isWriting, hc.active, hactive]
    exact h.quiet
  · rw [hc.state, hc.active, hactive]
    exact h.off
  · rw [hactive, hc.channelAdded]
    exact h.started
  · rw [hc.closePhase, hc.state]
    exact h.half
  · rw [hc.closePhase, hc.state, hc.channelRemoved]
    exact h.closed
  · rw [hc.socketClosed, hc.channelAdded, hc.channelRemoved]
    exact h.out
  · rw [hc.socketClosed]
    exact h.shut q (hshut q hq hs) hs

/-- With another operation at work than those after the removal the connection is as between
    events. -/
theorem Route.between (h : Route c l) (hactive : (active l).any Op.leaves ≠ true) : Route c [] where
  present := fun hup => (h.present hup).imp_right fun hr => .inl (hr.resolve_right hactive)
  quiet := fun hgone => by
    obtain ⟨hreading, hwriting, hoff⟩ := h.quiet hgone
    exact ⟨hreading, hwriting, .inl (hoff.resolve_right hactive)⟩
  off := fun hs => h.off (hs.imp_right fun hs => .inl (hs.resolve_right nofun))
  started := nofun
  half := h.half
  closed := h.closed
  out := h.out
  shut := nofun
  single := nofun

theorem Route.followed (h : Route c []) (hnews : news.all (fun q => !q.routed) = true) : Route c news := by
  have hmem : ∀ q ∈ news, q.routed = false := fun q hq => by
    simpa using List.all_eq_true.mp hnews q hq
  have hactive : ∀ q, q.routed = true → active news ≠ some q := fun q hq ha => by
    have := active_of_all hnews
    rw [ha, Option.all_some, hq] at this
    cases this
  refine ⟨fun hup => (h.present hup).imp_right fun hr => .inl (hr.resolve_right nofun), fun hgone => ?_,
    fun hs => h.off (hs.imp_right (Or.imp_right fun ha => absurd ha (hactive _ rfl))),
    fun ha => absurd ha (hactive _ rfl), h.half, h.closed, h.out, fun q hq hs => ?_, fun hf => ?_⟩
  · obtain ⟨hreading, hwriting, hoff⟩ := h.quiet hgone
    exact ⟨hreading, hwriting, .inl (hoff.resolve_right nofun)⟩
  · have := hmem q hq
    cases q <;> first | (cases hs; done) | cases this
  · have := hmem .finishClose (mem_of_top (List.mem_of_mem_tail hf))
    cases this

theorem Route.plain (h : Route c []) (hc : SameRoute c c')
    (hnews : news.all (fun q => !q.routed) = true) : Route c' news :=
  (h.frame hc rfl nofun).followed hnews

theorem Route.append (h : Route c news) (hrest : rest.all (fun op => !op.guarded) = true)
    (hfree : .finishClose ∉ rest) (hshut : ∀ q ∈ rest, q.shuts = true → c.socketClosed = true) :
    Route c (news ++ rest) := by
  have hall : ∀ q ∈ news ++ rest, q.shuts = true → c.socketClosed = true := fun q hq =>
    (List.mem_append.mp hq).elim (h.shut q) (hshut q)
  by_cases htop : top news = []
  · have hnone : active news = none := by rw [active, htop]; rfl
    have hbase : Route c [] := h.between (by rw [hnone]; simp)
    have hactive : ∀ q, q.guarded = true → active (news ++ rest) ≠ some q := fun q hq ha => by
      have := active_append_of_nil htop hrest
      rw [ha, Option.all_some, hq] at this
      cases this
    refine ⟨fun hup => (hbase.present hup).imp_right fun hr => .inl (hr.resolve_right (by rintro ⟨⟩)),
      fun hgone => ?_,
      fun hs => hbase.off (hs.imp_right (Or.imp_right fun ha => absurd ha (hactive _ rfl))),
      fun ha => absurd ha (hactive _ rfl), h.half, h.closed, h.out, hall, fun hf => ?_⟩
    · obtain ⟨hreading, hwriting, hoff⟩ := hbase.quiet hgone
      exact ⟨hreading, hwriting, .inl (hoff.resolve_right (by rintro ⟨⟩))⟩
    · rw [top_append, if_pos htop] at hf
      exact hfree (mem_of_top (List.mem_of_mem_tail hf))
  · have heq : active (news ++ rest) = active news := active_append_of_ne htop
    refine ⟨heq ▸ h.present, heq ▸ h.quiet, heq ▸ h.off, heq ▸ h.started, h.half, h.closed, h.out, hall,
      fun hf => ?_⟩
    rw [top_append, if_neg htop, List.tail_append_of_ne_nil htop] at hf
    exact (List.mem_append.mp hf).elim h.single hfree

theorem ReadSide.apply_inactive {r : ReadSide} (h : r.active = false) (n : Nat) : r.apply o n = r := by
  unfold ReadSide.apply
  rw [if_pos h]

theorem releaseOps_unrouted (n : Nat) : (releaseOps n).all (fun q => !q.routed) = true := by
  unfold releaseOps
  split <;> rfl

theorem execSend_route (h : execSend o c .owner op env = some (c', news)) (hr : Route c []) :
    Route c' news := by
  revert h
  fun_cases execSend o c .owner op env
  all_goals intro h; cases h
  all_goals first
    | exact hr.plain ⟨rfl, rfl, rfl, rfl, rfl, rfl, rfl⟩ rfl
    | skip
  refine hr.plain ⟨rfl, rfl, rfl, rfl, rfl, rfl, rfl⟩ ?_
  unfold reserveLoop
  split_ifs <;> rfl

/-- The rest of a payload goes to the buffer of a connection whose channel is in the loop. -/
theorem route_bufferRest (hr : Route c []) (hopen : c.state ≠ .kDisconnected)
    (hbegun : c.state ≠ .kConnecting) (n : Nat) (buffer : List UInt8) :
    Route { c with outputBuffer := buffer, input := c.input.apply o n, isWriting := true } [] := by
  have hup : c.state = .kConnected ∨ c.state = .kDisconnecting := by
    cases hs : c.state <;> simp_all
  obtain ⟨hadded, hpresent⟩ := hr.present hup
  have hpresent : c.channelRemoved = false := hpresent.resolve_right nofun
  refine ⟨hr.present, fun hgone => ?_, fun hs => ?_, nofun, hr.half, hr.closed, hr.out, nofun, nofun⟩
  · rcases hgone with hgone | hgone
    · rw [show c.channelAdded = false from hgone] at hadded
      cases hadded
    · rw [show c.channelRemoved = true from hgone] at hpresent
      cases hpresent
  · rcases hs with hs | hs | hs
    · exact absurd hs hbegun
    · exact absurd hs hopen
    · cases hs

theorem route_writeDone (hr : Route c []) (n : Nat) (writing : Bool) :
    Route { c with input := c.input.apply o n, isWriting := c.isWriting && writing } [] := by
  refine ⟨hr.present, fun hgone => ?_, fun hs => ?_, nofun, hr.half, hr.closed, hr.out, nofun, nofun⟩
  · obtain ⟨hreading, hwriting, hoff⟩ := hr.quiet hgone
    have hoff : c.input.active = false := hoff.resolve_right nofun
    show (c.input.apply o n).isReading = false ∧ (c.isWriting && writing) = false ∧
      ((c.input.apply o n).active = false ∨ _)
    rw [ReadSide.apply_inactive hoff, hwriting]
    exact ⟨hreading, rfl, .inl hoff⟩
  · show (c.input.apply o n).active = false
    rw [ReadSide.apply_active]
    exact hr.off hs

theorem execOutput_route (h : execOutput o c op env = some (c', news)) (hr : Route c [])
    (hg : c.Guard (some op)) (hlate : op.onceUp = true → c.state ≠ .kConnecting) : Route c' news := by
  revert h
  fun_cases execOutput o c op env
  all_goals intro h; cases h
  all_goals first
    | exact hr.plain ⟨rfl, rfl, rfl, rfl, rfl, rfl, rfl⟩ rfl
    | skip
  · refine hr.plain ⟨rfl, rfl, rfl, rfl, rfl, rfl, rfl⟩ ?_
    rw [List.all_append, releaseOps_unrouted]
    split <;> rfl
  · refine (route_bufferRest hr hg (hlate rfl) _ _).followed ?_
    split <;> rfl
  · refine hr.plain ⟨rfl, rfl, rfl, rfl, rfl, rfl, rfl⟩ ?_
    split <;> split <;> rfl
  · have hdone := route_writeDone (o := o) hr 0 false
    rw [Bool.and_false] at hdone
    refine hdone.followed ?_
    split <;> rfl
  · have hdone := route_writeDone (o := o) hr c.outputBuffer.length true
    rw [Bool.and_true] at hdone
    exact hdone.followed rfl

theorem execRequest_route (h : execRequest c .owner op env = some (c', news)) (hr : Route c []) :
    Route c' news := by
  revert h
  fun_cases execRequest c .owner op env
  all_goals intro h; cases h
  all_goals first
    | exact hr.plain ⟨rfl, rfl, rfl, rfl, rfl, rfl, rfl⟩ rfl
    | skip
  -- `driveState`
  rename_i hstate
  refine Route.followed ⟨fun _ => hr.present (.inl hstate), hr.quiet, fun hs => ?_,
    by rintro ⟨⟩, fun _ => by simp,
    fun hp => ?_, hr.out, by simp, by rintro ⟨⟩⟩ rfl
  · rcases hs with hs | hs | hs <;> cases hs
  · rcases hr.closed hp with hd | hd
    · rw [hstate] at hd
      cases hd
    · rw [hstate] at hd
      cases hd.1

theorem not_up {x : StateE} (h : x = .kConnecting ∨ x = .kDisconnected) :
    ¬ (x = .kConnected ∨ x = .kDisconnecting) := by
  rcases h with rfl | rfl <;> simp

/-- The channel is taken out of the loop, if it is there. -/
theorem removeChannel_gone (hr : Route c []) (hadded : c.channelAdded = true) :
    c.removeChannel.channelRemoved = true ∧ c.removeChannel.input.isReading = false ∧
      c.removeChannel.isWriting = false := by
  cases hremoved : c.channelRemoved with
  | false => simp [Conn.removeChannel, hadded, hremoved]
  | true =>
    obtain ⟨hreading, hwriting, -⟩ := hr.quiet (.inr hremoved)
    simp [Conn.removeChannel, hremoved, hreading, hwriting]

/-- The state and the phase of a connection that is up. -/
theorem route_closeState (hr : Route c []) (hopen : c.state ≠ .kDisconnected)
    (hbegun : c.state ≠ .kConnecting) :
    Route { c with state := .kDisconnecting
                   closePhase := if c.closePhase = .opened then .closing else c.closePhase } [] := by
  have hup : c.state = .kConnected ∨ c.state = .kDisconnecting := by
    cases hs : c.state <;> simp_all
  refine ⟨fun _ => hr.present hup, hr.quiet, ?_, nofun, fun _ => nofun, fun hp => ?_, fun hclosed => hr.out ?_,
    nofun, nofun⟩
  · rintro (hs | hs | hs) <;> cases hs
  · dsimp only at hp
    split at hp
    · cases hp
    · rcases hr.closed hp with hd | hd
      · exact absurd hd hopen
      · exact absurd hd.1 hbegun
  · cases hp : c.closePhase <;> simp_all [Conn.socketClosed]

theorem route_closeChannel (hr : Route c []) (hstate : c.state = .kDisconnecting) :
    Route c.removeChannel [.closeSocket] := by
  have hadded := (hr.present (.inr hstate)).1
  obtain ⟨hremoved, hreading, hwriting⟩ := removeChannel_gone hr hadded
  refine ⟨fun _ => ⟨hadded, .inr rfl⟩, fun _ => ⟨hreading, hwriting, .inr rfl⟩, ?_, nofun,
    hr.half, fun hp => ?_,
    fun _ _ => hremoved, by simp [Op.shuts], nofun⟩
  · show c.state = _ ∨ c.state = _ ∨ _ → _
    rw [hstate]
    rintro (hs | hs | hs) <;> cases hs
  · rcases hr.closed hp with hd | ⟨hd, -⟩ <;> rw [hstate] at hd <;> cases hd

theorem route_closeSocket (hr : Route c [.closeSocket]) (hg : c.Guard (some .closeSocket)) :
    Route { c with input := { c.input with isReading := false }, isWriting := false
                   closePhase := .socketClosed } [.finishClose] := by
  obtain ⟨hstate, hremoved⟩ := hg
  refine ⟨fun hup => ⟨(hr.present hup).1, .inr rfl⟩, fun _ => ⟨rfl, rfl, .inr rfl⟩, ?_, nofun, fun _ => ?_,
    nofun, fun _ => hremoved, fun _ _ _ => rfl, nofun⟩
  · show c.state = _ ∨ c.state = _ ∨ _ → _
    rw [hstate]
    rintro (hs | hs | hs) <;> cases hs
  · show c.state ≠ _
    rw [hstate]
    nofun

theorem route_finishClose (hr : Route c [.finishClose])
    (h : execOwner o c .finishClose env = some (c', news)) : Route c' news := by
  have hgone (hg : c.channelAdded = false ∨ c.channelRemoved = true) :
      c.input.isReading = false ∧ c.isWriting = false := (hr.quiet hg).imp_right And.left
  cases env <;> simp only [execOwner, reduceCtorEq] at h
  split at h
  case isTrue hover =>
    cases h
    exact ⟨fun hup => absurd hup (not_up (.inr hover)),
      fun hg => ⟨(hgone hg).1, (hgone hg).2, .inl (hr.off (.inr (.inl hover)))⟩,
      fun _ => hr.off (.inr (.inl hover)), by rintro ⟨⟩, hr.half, hr.closed, hr.out, by simp, by rintro ⟨⟩⟩
  case isFalse =>
    cases h
    have htop : top (releaseOps c.outputBuffer.length ++ [.finishPhase]) = [.finishPhase] :=
      top_passive (releaseOps_passive _) _
    refine ⟨fun hup => absurd hup (not_up (.inr rfl)), fun hg => ⟨(hgone hg).1, (hgone hg).2, .inl rfl⟩,
      fun _ => rfl, ?_, fun _ => by simp, fun _ => .inl rfl, hr.out,
      fun _ _ _ => hr.shut .finishClose (by simp) rfl, by rw [htop]; simp⟩
    rw [active, htop]
    simp

theorem execOwner_route (h : execOwner o c op env = some (c', news)) (hr : Route c [op])
    (hg : c.Guard (some op)) (hlate : op.onceUp = true → c.state ≠ .kConnecting)
    (hend : op.lastly = true → c.state = .kDisconnected) : Route c' news := by
  by_cases hfinish : op = .finishClose
  · subst hfinish
    exact route_finishClose hr h
  by_cases hsocket : op = .closeSocket
  · subst hsocket
    cases env <;> cases h
    exact route_closeSocket hr hg
  have hr₀ : Route c [] := hr.between (by
    cases op <;> first | exact absurd rfl hfinish | exact absurd rfl hsocket | (intro h; cases h))
  revert h
  fun_cases execOwner o c op env
  all_goals intro h; cases h
  all_goals first
    | exact hr₀.plain ⟨rfl, rfl, rfl, rfl, rfl, rfl, rfl⟩ rfl
    | exact absurd rfl hfinish
    | exact absurd rfl hsocket
    | exact (route_closeState hr₀ hg (hlate rfl)).followed rfl
    | exact route_closeChannel hr₀ hg
    | skip
  -- `finishPhase`
  · have hover : c.state = .kDisconnected := hend rfl
    have hout : c.channelAdded = true → c.channelRemoved = true := hr.out (hr.shut .finishPhase (by simp) rfl)
    exact Route.followed ⟨hr₀.present, fun hgone => ⟨rfl, rfl, .inl (hr₀.off (.inr (.inl hover)))⟩, hr₀.off,
      by rintro ⟨⟩, by rintro ⟨⟩, fun _ => .inl hover, fun _ => hout, by simp, by rintro ⟨⟩⟩ rfl
  -- `establish`
  · rename_i hfresh
    obtain ⟨hstate, hremoved⟩ := not_or.mp hfresh
    have hstate : c.state = .kConnecting := not_not.mp hstate
    have hremoved : c.channelRemoved = false := eq_false_of_ne_true hremoved
    refine ⟨fun hup => absurd hup (not_up (.inl hstate)), fun hgone => ?_, fun _ => hr₀.off (.inl hstate),
      fun _ => rfl, hr₀.half, hr₀.closed, fun hclosed _ => ?_, by simp [Op.shuts], by rintro ⟨⟩⟩
    · rcases hgone with hgone | hgone
      · cases hgone
      · rw [show c.channelRemoved = true from hgone] at hremoved
        cases hremoved
    · have hphase : c.closePhase = .socketClosed ∨ c.closePhase = .closed := by
        replace hclosed : c.socketClosed = true := hclosed
        cases hp : c.closePhase <;> simp_all [Conn.socketClosed]
      rcases hphase with hphase | hphase
      · exact absurd hstate (hr₀.half hphase)
      · exact ((hr₀.closed hphase).resolve_left (by rw [hstate]; simp)).2
  · rename_i hfresh _
    obtain ⟨hstate, -⟩ := not_or.mp hfresh
    have hstate : c.state = .kConnecting := not_not.mp hstate
    exact ⟨fun hup => absurd hup (not_up (.inl hstate)), fun _ => ⟨rfl, rfl, .inl (hr₀.off (.inl hstate))⟩,
      fun _ => hr₀.off (.inl hstate), by rintro ⟨⟩, by rintro ⟨⟩, fun _ => .inr ⟨hstate, rfl⟩,
      fun _ h => (by cases h), by simp,
      (by rintro ⟨⟩)⟩
  -- `establishState`
  · obtain ⟨hstate, -, hremoved⟩ : c.state = .kConnecting ∧ _ ∧ c.channelRemoved = false := hg
    have hadded : c.channelAdded = true := hr.started rfl
    refine Route.followed ⟨fun _ => ⟨hadded, .inl hremoved⟩, fun hgone => ?_, fun hs => ?_,
      by rintro ⟨⟩, fun _ => by simp,
      fun hp => ?_, hr₀.out, by simp, by rintro ⟨⟩⟩ rfl
    · rcases hgone with hgone | hgone
      · rw [show c.channelAdded = false from hgone] at hadded
        cases hadded
      · rw [show c.channelRemoved = true from hgone] at hremoved
        cases hremoved
    · rcases hs with hs | hs | hs <;> cases hs
    · have := ((hr₀.closed hp).resolve_left (by rw [hstate]; intro h; cases h)).2
      rw [hremoved] at this
      cases this
  -- `destroy`
  · have htop : top (releaseOps c.outputBuffer.length ++ [.destroyState]) = [.destroyState] :=
      top_passive (releaseOps_passive _) _
    refine ⟨fun hup => (hr₀.present hup).imp_right fun h => .inl (h.resolve_right (by rintro ⟨⟩)),
      fun hgone => ?_,
      fun _ => rfl, ?_, hr₀.half, hr₀.closed, hr₀.out, fun q hq hs => ?_, by rw [htop]; simp⟩
    · obtain ⟨hreading, hwriting, -⟩ := hr₀.quiet hgone
      exact ⟨hreading, hwriting, .inl rfl⟩
    · rw [active, htop]
      simp
    · rcases List.mem_append.mp hq with hq | hq
      · have := List.all_eq_true.mp (releaseOps_unrouted _) q hq
        cases q <;> first | (cases hs; done) | cases this
      · cases List.mem_singleton.mp hq
        cases hs
  -- `destroyState`
  · have hoff : c.input.active = false := hr.off (.inr (.inr rfl))
    exact Route.followed ⟨fun hup => absurd hup (not_up (.inr rfl)), hr₀.quiet, fun _ => hoff, by rintro ⟨⟩,
      fun _ => by simp, fun _ => .inl rfl, hr₀.out, by simp, by rintro ⟨⟩⟩ rfl
  · have hoff : c.input.active = false := hr.off (.inr (.inr rfl))
    exact Route.followed ⟨fun hup => absurd hup (not_up (.inr rfl)), hr₀.quiet, fun _ => hoff, by rintro ⟨⟩,
      fun _ => by simp, fun _ => .inl rfl, hr₀.out, by simp, by rintro ⟨⟩⟩ rfl
  -- `destroyDetach`
  · rename_i hadded
    have hover : c.state = .kDisconnected := hend rfl
    have hoff : c.input.active = false := hr₀.off (.inr (.inl hover))
    obtain ⟨hremoved, hreading, hwriting⟩ := removeChannel_gone hr₀ hadded
    exact ⟨fun hup => absurd hup (not_up (.inr hover)), fun _ => ⟨hreading, hwriting, .inl hoff⟩,
      fun _ => hoff, by rintro ⟨⟩, hr₀.half, fun _ => .inl hover, fun _ _ => hremoved, by simp, by rintro ⟨⟩⟩
  · rename_i hadded
    have hover : c.state = .kDisconnected := hend rfl
    have hoff : c.input.active = false := hr₀.off (.inr (.inl hover))
    obtain ⟨hreading, hwriting, -⟩ := hr₀.quiet (.inl (eq_false_of_ne_true hadded))
    exact ⟨fun hup => absurd hup (not_up (.inr hover)), fun _ => ⟨hreading, hwriting, .inl hoff⟩,
      fun _ => hoff, by rintro ⟨⟩, by rintro ⟨⟩, fun _ => .inl hover,
      fun _ h => absurd h hadded, by simp, by rintro ⟨⟩⟩

theorem exec_route (h : exec o c .owner op env = some (c', news)) (hop : op.passive = false)
    (hr : Route c [op]) (hg : c.Guard (some op)) (hlate : op.onceUp = true → c.state ≠ .kConnecting)
    (hend : op.lastly = true → c.state = .kDisconnected) : Route c' news := by
  have hbetween (hne : op.group ≠ .owner) : Route c [] := hr.between fun ha => by
    rw [active_cons [] hop] at ha
    cases op <;> first | exact hne rfl | cases ha
  rcases exec_cases h with h | h | h | h
  · exact execSend_route h (hbetween (by rw [execSend_group h]; simp))
  · exact execOutput_route h (hbetween (by rw [execOutput_group h]; simp)) hg hlate
  · exact execRequest_route h (hbetween (by rw [execRequest_group h]; simp))
  · exact execOwner_route h hr hg hlate hend

theorem Route.head (h : Route c (op :: rest)) (hop : op.passive = false) : Route c [op] := by
  have hactive : active [op] = active (op :: rest) := by rw [active_cons [] hop, active_cons rest hop]
  refine ⟨hactive ▸ h.present, hactive ▸ h.quiet, hactive ▸ h.off, hactive ▸ h.started, h.half, h.closed,
    h.out, fun q hq => h.shut q ?_, by rw [top_cons [] hop]; simp⟩
  rw [List.mem_singleton.mp hq]
  exact .head _

theorem socketClosed_iff : c.socketClosed = true ↔ 2 ≤ c.closePhase.rank := by
  cases hp : c.closePhase <;> simp [Conn.socketClosed, hp, ClosePhase.rank]

theorem shuts_passive {q : Op} (h : q.shuts = true) : q.passive = false := by
  cases q <;> first | rfl | cases h

theorem start_unrouted (h : c.start e = some (c', news)) :
    news.all (fun q => !q.routed) = true := by
  revert h
  fun_cases Conn.start c e
  all_goals intro h; cases h
  all_goals try rfl
  rename_i f _ _
  cases f <;> rfl

theorem Act.route (h : Act o .owner n c olds n' c' news)
    (hr : Route c (olds ++ rest)) (hok : OwnerOk c (olds ++ rest))
    (hpush : olds = [] → news = [] ∨ userRuns rest = true) (hforward : Forward c c')
    (hlate : ∀ q ∈ olds, q.onceUp = true → c.state ≠ .kConnecting)
    (hend : ∀ q ∈ olds, q.lastly = true → c.state = .kDisconnected) : Route c' (news ++ rest) := by
  have hshut : ∀ q ∈ rest, q.shuts = true → c'.socketClosed = true := fun q hq hs =>
    socketClosed_iff.mpr
      ((socketClosed_iff.mp (hr.shut q (List.mem_append_right _ hq) hs)).trans hforward.closePhase)
  -- where user code runs, and what it starts
  have huser (huser : userRuns rest = true) (hr : Route c rest) : Route c [] ∧ .finishClose ∉ rest := by
    have htop : top rest = rest ∧ (active rest).any Op.leaves ≠ true := by
      unfold userRuns at huser
      split at huser
      · exact ⟨rfl, by rintro ⟨⟩⟩
      · exact ⟨rfl, by rintro ⟨⟩⟩
      · cases huser
    refine ⟨hr.between htop.2, fun hf => ?_⟩
    have hsingle := hr.single
    rw [htop.1] at hsingle
    cases rest with
    | nil => cases hf
    | cons q rest =>
      rcases List.mem_cons.mp hf with rfl | hf
      · cases huser
      · exact hsingle hf
  have hstart (hr : Route c rest) (hok : OwnerOk c rest) (hrun : userRuns rest = true)
      (hc : SameRoute c c') (hnews : news.all (fun q => !q.routed) = true) : Route c' (news ++ rest) := by
    obtain ⟨hbase, hfree⟩ := huser hrun hr
    exact (hbase.plain hc hnews).append (OwnerOk.user hok hrun).1 hfree hshut
  cases h with
  | @exec _ _ _ _ op _ _ h =>
    cases hop : op.passive with
    | true =>
      obtain ⟨hcore, hnews⟩ := exec_passive h hop
      refine hr.frame (.of_core hcore) ?_ ?_
      · rw [top_passive hnews, top_passive (by simp [hop])]
      · intro q hq hs
        rcases List.mem_append.mp hq with hq | hq
        · have := List.all_eq_true.mp hnews q hq
          rw [shuts_passive hs] at this
          cases this
        · exact List.mem_append_right _ hq
    | false =>
      have htop : top ([op] ++ rest) = op :: rest := by simp [top, hop]
      have hbelow := hok.below
      have hsingle := hr.single
      rw [htop] at hbelow hsingle
      exact (exec_route h hop (Route.head hr hop) (OwnerOk.guard_head hok hop) (hlate op (by simp))
        (hend op (by simp))).append hbelow hsingle hshut
  | call _ _ _ k =>
    rcases hpush rfl with hnil | hrun
    · cases k <;> cases hnil
    exact hstart hr hok hrun ⟨rfl, rfl, rfl, rfl, rfl, rfl, rfl⟩ (by cases k <;> rfl)
  | destroy =>
    rcases hpush rfl with hnil | hrun
    · cases hnil
    exact hstart hr hok hrun ⟨rfl, rfl, rfl, rfl, rfl, rfl, rfl⟩ rfl
  | start h =>
    rcases hpush rfl with hnil | hrun
    · exact absurd hnil (start_ne_nil h)
    exact hstart hr hok hrun (.of_core (start_same h).1) (start_unrouted h)
  | ret _ _ source threw =>
    have hbase : Route c [] := hr.between (by rintro ⟨⟩)
    refine (hbase.followed ?_).append hok.below hr.single hshut
    cases source <;> cases threw <;> rfl
  | retrieve => exact hr.frame ⟨rfl, rfl, rfl, rfl, rfl, rfl, rfl⟩ rfl (fun q hq _ => hq)
  | quit => exact hr.frame ⟨rfl, rfl, rfl, rfl, rfl, rfl, rfl⟩ rfl (fun q hq _ => hq)

theorem start_forward (h : c.start e = some (c', news)) : Forward c c' := by
  revert h
  fun_cases Conn.start c e
  all_goals intro h; cases h
  all_goals exact .same rfl rfl rfl rfl

/-- What a step of a thread makes of the connection is never undone. -/
theorem Act.forward (h : Act o caller n c olds n' c' news)
    (hg : ∀ q ∈ olds, c.Guard (some q)) (hopen : .closeSocket ∈ olds → c.closePhase ≠ .closed) :
    Forward c c' := by
  cases h with
  | @exec _ _ _ _ op _ _ h =>
    exact exec_forward h (hg op (by simp)) (fun heq => hopen (by simp [heq]))
  | start h => exact start_forward h
  | _ => exact .same rfl rfl rfl rfl

/-! ## The close reason is there when it is read -/

/-- From the close of the socket on, a reason is needed. -/
def Op.needsReason : Op → Bool
  | .closeState | .closeChannel | .closeSocket | .finishClose | .finishPhase
  | .user .closeInfo => true
  | _ => false

/-- What needs a reason comes after an operation that publishes one. -/
def covered : List Op → Bool
  | [] => true
  | .publish _ :: _ => true
  | op :: l => !op.needsReason && covered l

theorem covered_cons_eq (hop : ∀ info, op ≠ .publish info) :
    covered (op :: l) = (!op.needsReason && covered l) := by
  rw [covered]
  exact hop

theorem covered_append (h : news.all (fun q => !q.needsReason) = true) (hrest : covered rest = true) :
    covered (news ++ rest) = true := by
  induction news with
  | nil => exact hrest
  | cons q news ih =>
    rw [List.all_cons, Bool.and_eq_true] at h
    by_cases hq : ∃ info, q = .publish info
    · obtain ⟨info, rfl⟩ := hq
      rfl
    · rw [List.cons_append, covered_cons_eq (fun info heq => hq ⟨info, heq⟩), h.1, Bool.true_and]
      exact ih h.2

theorem covered_cons (h : covered (op :: rest) = true) (hop : ∀ info, op ≠ .publish info) :
    op.needsReason = false ∧ covered rest = true := by
  rw [covered_cons_eq hop, Bool.and_eq_true] at h
  exact ⟨by simpa using h.1, h.2⟩

theorem releaseOps_unread (n : Nat) : (releaseOps n).all (fun q => !q.needsReason) = true := by
  unfold releaseOps
  split <;> rfl

theorem exec_needsReason (h : exec o c caller op env = some (c', news)) (hop : op.needsReason = false) :
    c'.closeInfo.isSome = true ∨ news.all (fun q => !q.needsReason) = true ∨
      ∃ info, news = [.clearGraceful, .publish info, .closeState] := by
  rcases exec_cases h with h | h | h | h
  all_goals revert h
  case' inr.inr.inr => fun_cases execOwner o c op env
  case' inr.inr.inl => fun_cases execRequest c caller op env
  case' inr.inl => fun_cases execOutput o c op env
  case' inl => fun_cases execSend o c caller op env
  all_goals intro h; cases h
  all_goals first
    | (cases hop; done)
    | exact .inr (.inl rfl)
    | exact .inl rfl
    | exact .inr (.inr ⟨_, rfl⟩)
    | refine .inr (.inl ?_)
  · unfold reserveLoop
    split_ifs <;> rfl
  · rw [List.all_append, releaseOps_unread]
    split <;> rfl
  · split <;> rfl
  · split <;> split <;> rfl
  · split <;> rfl
  · cases caller <;> rfl
  · cases caller <;> rfl
  · rw [List.all_append, releaseOps_unread]
    rfl

theorem start_unread (h : c.start e = some (c', news)) :
    news.all (fun q => !q.needsReason) = true := by
  revert h
  fun_cases Conn.start c e
  all_goals intro h; cases h
  all_goals try rfl
  rename_i f _ _
  cases f <;> rfl

theorem Act.published (h : Act o .owner n c olds n' c' news)
    (hp : c.closeInfo.isSome = true ∨ covered (olds ++ rest) = true) (hforward : Forward c c') :
    c'.closeInfo.isSome = true ∨ covered (news ++ rest) = true := by
  rcases hp with hp | hp
  · exact .inl (hforward.published hp)
  cases h with
  | @exec _ _ _ _ op env _ h =>
    by_cases hop : ∃ info, op = .publish info
    · obtain ⟨info, rfl⟩ := hop
      cases env <;> cases exec_group h
      exact .inl rfl
    obtain ⟨hread, hrest⟩ := covered_cons hp (fun info heq => hop ⟨info, heq⟩)
    rcases exec_needsReason h hread with hsome | hnews | ⟨info, rfl⟩
    · exact .inl hsome
    · exact .inr (covered_append hnews hrest)
    · exact .inr rfl
  | call _ _ _ k => exact .inr (covered_append (by cases k <;> rfl) hp)
  | destroy => exact .inr hp
  | start h => exact .inr (covered_append (start_unread h) hp)
  | ret _ _ source threw =>
    refine .inr (covered_append ?_ (covered_cons hp nofun).2)
    cases source <;> cases threw <;> rfl
  | retrieve => exact .inr hp
  | quit => exact .inr hp

/-! ## What the user is told -/

/-- The callbacks that tell of the connection's lifecycle. -/
def CallbackSource.lifecycle : CallbackSource → Bool
  | .established | .disconnected | .closeInfo | .close | .destroyed => true
  | _ => false

def lifecycleCalls (l : List CallbackSource) : List CallbackSource := l.filter CallbackSource.lifecycle

/-- The lifecycle callbacks so far, for a state, the number of `finishPhase` operations that are still
    to run, and whether `finishClose` has ended the connection. -/
inductive Told : StateE → Nat → Bool → List CallbackSource → Prop
  | connecting : Told .kConnecting 0 false []
  | up {x : StateE} (h : x = .kConnected ∨ x = .kDisconnecting) : Told x 0 false [.established]
  | finishing : Told .kDisconnected 1 true [.established]
  | closed : Told .kDisconnected 0 true [.established, .disconnected, .closeInfo, .close]
  | destroyed : Told .kDisconnected 0 false [.established, .destroyed]
  | never : Told .kDisconnected 0 false []

/-- What an owner's step can tell. -/
inductive Tells (x : StateE) (olds : List Op) (x' : StateE) (news : List Op) : Prop
  | silent (state : x' = x ∨ (x = .kConnected ∨ x = .kDisconnecting) ∧ x' = .kDisconnecting)
      (calls : lifecycleCalls (callbacks news) = []) (pending : news.count .finishPhase = 0)
      (phase : olds.count .finishPhase = 0) (finish : olds = [.finishClose] → x = .kDisconnected)
  | connected (old : x = .kConnecting) (new : x' = .kConnected)
      (calls : lifecycleCalls (callbacks news) = [.established]) (pending : news.count .finishPhase = 0)
      (op : olds = [.establishState])
  | finish (old : x = .kConnected ∨ x = .kDisconnecting) (new : x' = .kDisconnected)
      (calls : lifecycleCalls (callbacks news) = []) (pending : news.count .finishPhase = 1)
      (op : olds = [.finishClose])
  | report (state : x' = x)
      (calls : lifecycleCalls (callbacks news) = [.disconnected, .closeInfo, .close])
      (pending : news.count .finishPhase = 0) (op : olds = [.finishPhase])
  | destroyed (old : x = .kConnected ∨ x = .kDisconnecting) (new : x' = .kDisconnected)
      (calls : lifecycleCalls (callbacks news) = [.destroyed]) (pending : news.count .finishPhase = 0)
      (op : olds = [.destroyState])
  | dropped (old : x = .kConnecting ∨ x = .kDisconnected) (new : x' = .kDisconnected)
      (calls : lifecycleCalls (callbacks news) = []) (pending : news.count .finishPhase = 0)
      (op : olds = [.destroyState])

theorem callbacks_append (l l' : List Op) : callbacks (l ++ l') = callbacks l ++ callbacks l' :=
  List.filterMap_append

theorem callbacks_releaseOps (n : Nat) :
    callbacks (releaseOps n) = [] ∧ (releaseOps n).count .finishPhase = 0 := by
  unfold releaseOps
  split <;> exact ⟨rfl, rfl⟩

theorem execOwner_tells (h : execOwner o c op env = some (c', news)) (hg : c.Guard (some op))
    (hlate : op.onceUp = true → c.state ≠ .kConnecting) : Tells c.state [op] c'.state news := by
  revert h
  fun_cases execOwner o c op env
  all_goals intro h; cases h
  all_goals first
    | exact .silent (.inl rfl) rfl rfl rfl (fun _ => ‹_›)
    | exact .silent (.inl rfl) rfl rfl rfl (fun h => by cases h)
    | exact .report rfl rfl rfl rfl
    | skip
  -- `closeState`
  · refine .silent (.inr ⟨?_, rfl⟩) rfl rfl rfl (by simp)
    have hbegun := hlate rfl
    cases hs : c.state <;> simp_all [Conn.Guard]
  -- `finishClose`
  · rename_i hopen
    have hbegun := hlate rfl
    obtain ⟨hcalls, hcount⟩ := callbacks_releaseOps c.outputBuffer.length
    refine .finish ?_ rfl ?_ ?_ rfl
    · cases hs : c.state <;> simp_all
    · rw [callbacks_append, hcalls]
      rfl
    · rw [List.count_append, hcount]
      rfl
  -- `establishState`
  · exact .connected hg.1 rfl rfl rfl rfl
  -- `destroy` and `destroyState`
  · obtain ⟨hcalls, hcount⟩ := callbacks_releaseOps c.outputBuffer.length
    refine .silent (.inl rfl) ?_ ?_ rfl (by simp)
    · rw [callbacks_append, hcalls]
      rfl
    · rw [List.count_append, hcount]
      rfl
  · rename_i hup
    exact .destroyed hup rfl rfl rfl rfl
  · rename_i hnot
    refine .dropped ?_ rfl rfl rfl rfl
    cases hs : c.state <;> simp_all

theorem exec_tells (h : exec o c .owner op env = some (c', news)) (hg : c.Guard (some op))
    (hlate : op.onceUp = true → c.state ≠ .kConnecting) : Tells c.state [op] c'.state news := by
  rcases exec_cases h with h | h | h | h
  · revert h
    fun_cases execSend o c .owner op env
    all_goals intro h; cases h
    all_goals first | exact .silent (.inl rfl) rfl rfl rfl (fun h => by cases h) | skip
    unfold reserveLoop
    split_ifs <;> exact .silent (.inl rfl) rfl rfl rfl (fun h => by cases h)
  · revert h
    fun_cases execOutput o c op env
    all_goals intro h; cases h
    all_goals first | exact .silent (.inl rfl) rfl rfl rfl (fun h => by cases h) | skip
    · rename_i n _
      obtain ⟨hcalls, hcount⟩ := callbacks_releaseOps n
      refine .silent (.inl rfl) ?_ ?_ rfl (by simp)
      · rw [callbacks_append, hcalls]
        split <;> rfl
      · rw [List.count_append, hcount]
        split <;> rfl
    · split <;> exact .silent (.inl rfl) rfl rfl rfl (fun h => by cases h)
    · split <;> split <;> exact .silent (.inl rfl) rfl rfl rfl (fun h => by cases h)
    · split <;> exact .silent (.inl rfl) rfl rfl rfl (fun h => by cases h)
  · revert h
    fun_cases execRequest c .owner op env
    all_goals intro h; cases h
    all_goals first | exact .silent (.inl rfl) rfl rfl rfl (fun h => by cases h) | skip
    rename_i hstate
    exact .silent (.inr ⟨.inl hstate, rfl⟩) rfl rfl rfl (by simp)
  · exact execOwner_tells h hg hlate

theorem start_tells (h : c.start e = some (c', news)) : Tells c.state [] c'.state news := by
  revert h
  fun_cases Conn.start c e
  all_goals intro h; cases h
  all_goals first | exact .silent (.inl rfl) rfl rfl rfl (by simp) | skip
  rename_i f _ _
  cases f <;> exact .silent (.inl rfl) rfl rfl rfl (by simp)

theorem Act.tells (h : Act o .owner n c olds n' c' news)
    (hg : ∀ q ∈ olds, c.Guard (some q)) (hlate : ∀ q ∈ olds, q.onceUp = true → c.state ≠ .kConnecting) :
    Tells c.state olds c'.state news := by
  cases h with
  | @exec _ _ _ _ op _ _ h => exact exec_tells h (hg op (by simp)) (hlate op (by simp))
  | call _ _ _ k => cases k <;> exact .silent (.inl rfl) rfl rfl rfl nofun
  | start h => exact start_tells h
  | ret _ _ source threw =>
    cases source <;> cases threw <;> exact .silent (.inl rfl) rfl rfl rfl nofun
  | _ => exact .silent (.inl rfl) rfl rfl rfl nofun

/-- A step of the owner tells what comes next. -/
theorem Told.next {x x' : StateE} {finished : Bool} {calls : List CallbackSource}
    (h : Told x ((olds ++ rest).count .finishPhase) finished calls) (ht : Tells x olds x' news) :
    Told x' ((news ++ rest).count .finishPhase)
      (finished || (olds == [.finishClose] && x != .kDisconnected))
      (calls ++ lifecycleCalls (callbacks news)) := by
  rw [List.count_append] at h ⊢
  cases ht with
  | silent state hcalls pending phase finish =>
    have hflag : (olds == [.finishClose] && x != .kDisconnected) = false := by
      by_cases holds : olds = [.finishClose]
      · simp [finish holds]
      · simp [holds]
    rw [hcalls, List.append_nil, pending, hflag, Bool.or_false]
    rw [phase] at h
    rcases state with rfl | ⟨hup, rfl⟩
    · exact h
    · generalize 0 + rest.count .finishPhase = k at h
      cases h with
      | up _ => exact .up (.inr rfl)
      | _ => rcases hup with hup | hup <;> cases hup
  | connected old new hcalls pending holds =>
    subst old new holds
    rw [hcalls, pending]
    have hzero : [Op.establishState].count .finishPhase = 0 := rfl
    rw [hzero] at h
    generalize 0 + rest.count .finishPhase = k at h
    cases h with
    | connecting => exact .up (.inl rfl)
    | up hup => rcases hup with hup | hup <;> cases hup
  | finish old new hcalls pending holds =>
    subst new holds
    rw [hcalls, List.append_nil, pending]
    have hzero : [Op.finishClose].count .finishPhase = 0 := rfl
    rw [hzero, Nat.zero_add] at h
    generalize hk : rest.count .finishPhase = k at h ⊢
    have hopen : (x != .kDisconnected) = true := by rcases old with rfl | rfl <;> rfl
    rw [hopen]
    cases h with
    | up _ => exact .finishing
    | _ => rcases old with old | old <;> cases old
  | report state hcalls pending holds =>
    subst state holds
    rw [hcalls, pending, Nat.zero_add]
    have hone : [Op.finishPhase].count .finishPhase = 1 := rfl
    rw [hone, Nat.add_comm] at h
    generalize rest.count .finishPhase = k at h ⊢
    cases h with
    | finishing => exact .closed
  | destroyed old new hcalls pending holds =>
    subst new holds
    rw [hcalls, pending]
    have hzero : [Op.destroyState].count .finishPhase = 0 := rfl
    rw [hzero] at h
    generalize 0 + rest.count .finishPhase = k at h ⊢
    cases h with
    | up _ => exact .destroyed
    | _ => rcases old with old | old <;> cases old
  | dropped old new hcalls pending holds =>
    subst new holds
    rw [hcalls, List.append_nil, pending]
    have hzero : [Op.destroyState].count .finishPhase = 0 := rfl
    rw [hzero] at h
    generalize 0 + rest.count .finishPhase = k at h ⊢
    cases h with
    | connecting => exact .never
    | up hup => rcases hup with rfl | rfl <;> rcases old with old | old <;> cases old
    | finishing => exact .finishing
    | closed => exact .closed
    | destroyed => exact .destroyed
    | never => exact .never

end

/-! ## Runs -/

structure Way (o : Options) (t : Traced) : Prop where
  inv : Inv o t.state
  watch : Watch o t.state.conn t.state.owner
  begun : Begun t.state.conn t.state.owner t.state.ops
  route : Route t.state.conn t.state.owner
  published : t.state.conn.closeInfo.isSome = true ∨ covered t.state.owner = true
  told : Told t.state.conn.state (t.state.owner.count .finishPhase) t.finished (lifecycleCalls t.calls)
  /-- A callback that was called has returned or is on the stack. -/
  balanced : ∀ x, t.calls.count x = t.returns.count x + (callbacks t.state.owner).count x

section
variable {o : Options} {t t' : Traced} {l : Label}

theorem way_init (o : Options) : Way o {} where
  inv := inv_init o
  watch := watch_init o
  begun := ⟨nofun, fun h => absurd rfl h, nofun⟩
  route := by
    refine ⟨fun hup => ?_, fun _ => ⟨rfl, rfl, .inl rfl⟩, fun _ => rfl, nofun, nofun, nofun, nofun, nofun,
      nofun⟩
    rcases hup with hup | hup <;> cases hup
  published := .inr rfl
  told := .connecting
  balanced := fun _ => rfl

theorem Act.guard {c c' : Conn} {n n' : Nat} {olds news rest : List Op}
    (h : Act o .owner n c olds n' c' news) (hok : OwnerOk c (olds ++ rest)) :
    ∀ q ∈ olds, c.Guard (some q) := by
  intro q hq
  cases h with
  | @exec _ _ _ _ op _ _ h =>
    obtain rfl := List.mem_singleton.mp hq
    cases hop : q.passive with
    | true => cases q <;> trivial
    | false => exact OwnerOk.guard_head hok hop
  | ret =>
    obtain rfl := List.mem_singleton.mp hq
    trivial
  | _ => cases hq

theorem Way.step (h : Way o t) (hs : Traced.step o t l = some t') :
    Way o t' ∧ Forward t.state.conn t'.state.conn := by
  obtain ⟨s', hstep, rfl⟩ := Option.map_eq_some_iff.mp hs
  have hmove := step_move hstep
  have hinv := h.inv.move hmove
  have hwatch := h.watch.move h.inv hmove
  have hbegun := h.begun.move h.inv hmove
  cases step_moveBy hstep with
  | owner rest act old new remotes push =>
    have hmem : ∀ q ∈ t.state.popped l, q ∈ t.state.owner := fun q hq => by
      rw [old]
      exact List.mem_append_left rest hq
    have hguard := act.guard (old ▸ h.inv.owner)
    have hlate : ∀ q ∈ t.state.popped l, q.onceUp = true → t.state.conn.state ≠ .kConnecting :=
      fun q hq => h.begun.onceUp q (List.mem_append_left _ (hmem q hq))
    have hforward := act.forward hguard fun hq hp => by
      have hstate : t.state.conn.state = .kDisconnecting := (hguard _ hq).1
      rcases h.route.closed hp with hd | ⟨hd, -⟩ <;> rw [hstate] at hd <;> cases hd
    have hroute := act.route (old ▸ h.route) (old ▸ h.inv.owner) push hforward hlate
      (fun q hq => h.watch.ended q (hmem q hq))
    have hpublished := act.published (old ▸ h.published) hforward
    have htold := h.told
    rw [old] at htold
    replace htold := htold.next (act.tells hguard hlate)
    refine ⟨⟨hinv, hwatch, hbegun, ?_, ?_, ?_, fun x => ?_⟩, hforward⟩
    · rw [new]
      exact hroute
    · rw [new]
      exact hpublished
    · rw [new]
      show Told _ _ _ (List.filter _ (_ ++ _))
      rw [List.filter_append]
      exact htold
    · have hbalanced := h.balanced x
      rw [old, callbacks_append, List.count_append] at hbalanced
      rw [new, callbacks_append, List.count_append, List.count_append, List.count_append, hbalanced]
      omega
  | remote olds news R act old new owner popped pushed =>
    have hcross : olds.all Op.crossThread = true := List.all_eq_true.mpr fun op hop =>
      h.inv.crossThread op (old.mem_iff.mpr (List.mem_append_left R hop))
    obtain ⟨hcore, -⟩ := act.crossThread hcross
    have hforward := act.forward
      (fun q hq => by
        have := List.all_eq_true.mp hcross q hq
        cases q <;> trivial)
      (fun hq => by cases List.all_eq_true.mp hcross _ hq)
    refine ⟨⟨hinv, hwatch, hbegun, ?_, ?_, ?_, fun x => ?_⟩, hforward⟩
    · rw [owner]
      exact h.route.frame (.of_core hcore) rfl (fun q hq _ => hq)
    · rw [owner]
      exact h.published.imp_left hforward.published
    · rw [owner, pushed, popped, hcore.state]
      simpa [callbacks] using h.told
    · rw [owner, pushed, popped]
      simpa [callbacks] using h.balanced x

theorem way_run {C : Traced → Label → Prop} (h : Way o t)
    (hr : Reach (· = t) (Traced.step o) C t') : Way o t' ∧ Forward t.state.conn t'.state.conn := by
  refine Reach.invariant (P := fun t' => Way o t' ∧ Forward t.state.conn t'.state.conn) ?_ ?_ hr
  · rintro _ rfl
    exact ⟨h, .refl _⟩
  · intro t₁ l t₂ ⟨hway, hforward⟩ _ hs
    obtain ⟨hway', hforward'⟩ := hway.step hs
    exact ⟨hway', hforward.trans hforward'⟩

/-- Only lifecycle callbacks report the state. -/
theorem reports_eq (t : Traced) : t.reports = (lifecycleCalls t.calls).filterMap CallbackSource.report := by
  rw [Traced.reports, lifecycleCalls, List.filterMap_filter]
  refine congrArg (fun f => t.calls.filterMap f) (funext fun x => ?_)
  cases x <;> rfl

variable {calls : List CallbackSource}

theorem Told.reports {x : StateE} {k : Nat} {finished : Bool}
    (h : Told x k finished calls) : calls.filterMap CallbackSource.report <+: [true, false] := by
  cases h <;> decide

theorem Told.once {x : StateE} {k : Nat} {finished : Bool}
    (h : Told x k finished calls) : calls.count .closeInfo ≤ 1 ∧ calls.count .close ≤ 1 := by
  cases h <;> decide

/-- `finishClose` has run and nothing of it is left to do. -/
theorem Told.settled {x : StateE} (h : Told x 0 true calls) :
    calls.count .closeInfo = 1 ∧ calls.count .close = 1 := by
  cases h
  decide

theorem count_lifecycleCalls {x : CallbackSource} (hx : x.lifecycle = true) (l : List CallbackSource) :
    (lifecycleCalls l).count x = l.count x := List.count_filter hx

/-- **The lifecycle is one-way and reported once.** -/
theorem lifecycle_one_way (o : Options) (t : Traced)
    (h : Reach (· = {}) (Traced.step o) Any t) :
    -- whatever comes later
    (∀ t', Reach (· = t) (Traced.step o) Any t' →
      t.state.conn.state.rank ≤ t'.state.conn.state.rank ∧
      t.state.conn.closePhase.rank ≤ t'.state.conn.closePhase.rank ∧
      (∀ info, t.state.conn.closeInfo = some info →
        ∃ info', t'.state.conn.closeInfo = some info' ∧ info.Extends info') ∧
      (t.state.conn.channelRemoved = true → t'.state.conn.channelRemoved = true ∧
        t'.state.conn.input.isReading = false ∧ t'.state.conn.isWriting = false)) ∧
    -- the callbacks
    t.reports <+: [true, false] ∧ t.calls.count .closeInfo ≤ 1 ∧ t.calls.count .close ≤ 1 ∧
    (t.state.owner = [] → t.finished = true →
      t.returns.count .closeInfo = 1 ∧ t.returns.count .close = 1) ∧
    -- what `finishClose` and the close-info callback read
    (∀ op rest, t.state.owner = op :: rest → op = .finishClose ∨ op = .user .closeInfo →
      t.state.conn.closeInfo.isSome = true) ∧
    -- the channel is out of the loop when the socket is closed
    (t.state.conn.socketClosed = true → t.state.conn.channelAdded = true →
      t.state.conn.channelRemoved = true) := by
  have hway : Way o t := (way_run (way_init o) h).1
  have honce := hway.told.once
  refine ⟨fun t' h' => ?_, ?_, ?_, ?_, fun hidle hfinished => ?_, fun op rest howner hop => ?_, hway.route.out⟩
  · obtain ⟨hway', hforward⟩ := way_run hway h'
    refine ⟨hforward.state, hforward.closePhase, hforward.closeInfo, fun hremoved => ?_⟩
    have hremoved' := hforward.channelRemoved hremoved
    obtain ⟨hreading, hwriting, -⟩ := hway'.route.quiet (.inr hremoved')
    exact ⟨hremoved', hreading, hwriting⟩
  · rw [reports_eq]
    exact hway.told.reports
  · rw [← count_lifecycleCalls rfl]
    exact honce.1
  · rw [← count_lifecycleCalls rfl]
    exact honce.2
  · have htold := hway.told
    rw [hidle, hfinished] at htold
    have hsettled := htold.settled
    rw [count_lifecycleCalls rfl, count_lifecycleCalls rfl, hway.balanced, hway.balanced, hidle] at hsettled
    exact hsettled
  · refine hway.published.resolve_right fun hcovered => ?_
    rw [howner] at hcovered
    rcases hop with rfl | rfl <;> cases hcovered

/-- A force-close inside the connected report: the disconnected report, the close-info and the close
    callback come before the first callback has returned. -/
theorem lifecycle_one_way_forced :
    ∃ t, Reach (· = {}) (Traced.step smallConnection) Any t ∧ t.state.owner = [] ∧
      t.finished = true ∧ t.reports = [true, false] ∧
      t.returns = [.disconnected, .closeInfo, .close, .established] ∧
      t.returns.count .closeInfo = 1 ∧ t.returns.count .close = 1 := by
  obtain ⟨t, hr, hidle, hfinished, hreports, hreturns⟩ := Reach.of_run (· = {})
    (Traced.step smallConnection) Any
    (fun t => t.state.owner = [] ∧ t.finished = true ∧ t.reports = [true, false] ∧
      t.returns = [.disconnected, .closeInfo, .close, .established])
    {} rfl
    ([.event (.connectEstablished true), .own .nothing, .own .nothing, .ownCall .tryForceClose] ++
      List.replicate 14 (.own .nothing) ++ [.ret false, .ret false, .ret false, .own .nothing,
      .own .nothing, .own .nothing, .ret false])
    (by decide +kernel)
  obtain ⟨-, -, -, -, hran, -⟩ := lifecycle_one_way smallConnection t hr
  exact ⟨t, hr, hidle, hfinished, hreports, hreturns, hran hidle hfinished⟩

end

end GameNet.TcpConnection
