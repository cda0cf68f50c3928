import GameNet.TcpConnection.CloseRequest

/- Backpressure. The controller's `readingEnabled_`, the channel's read interest and the output
   buffer are three variables; the watermarks are looked at after a buffered send, after a
   write and when the connection is established.

   Between events of a connection that is up with its channel registered, the controller and
   the channel agree, reading is paused only above the low watermark with a write event armed,
   and it is paused at or above the high watermark. In the middle of an event this is suspended
   between a write and the look at the watermarks that follows it (`writeDone`), and once
   `connectDestroyed` has begun. -/
namespace GameNet.TcpConnection

open Machine (Reach Any)

/-! ## The controller -/

/-- The controller is active and says of reading what the channel does. -/
def ReadSide.Agrees (r : ReadSide) : Prop := r.active = true ∧ r.readingEnabled = r.isReading

/-- Reading is paused above the low watermark only, and always from the high one on. -/
structure ReadSide.Decided (o : Options) (r : ReadSide) (bufferedBytes : Nat) : Prop where
  paused : r.readingEnabled = false → o.lowWaterMarkBytes < bufferedBytes
  full : o.highWaterMarkBytes ≤ bufferedBytes → r.readingEnabled = false

section
variable {o : Options} {r : ReadSide} {n : Nat}

/-- A look at the watermarks decides, whatever was decided before. -/
theorem ReadSide.apply_decided (h : r.Agrees) : (r.apply o n).Agrees ∧ (r.apply o n).Decided o n := by
  have hlow := o.low_lt_high
  unfold ReadSide.apply
  rw [if_neg (by simp [h.1])]
  split
  · rename_i hfull
    exact ⟨⟨h.1, rfl⟩, fun _ => Nat.lt_of_lt_of_le hlow hfull.2, fun _ => rfl⟩
  rename_i hfull
  split
  · rename_i hempty
    refine ⟨⟨h.1, rfl⟩, (fun hp => by cases hp), fun hhigh => ?_⟩
    have := hempty.2
    omega
  rename_i hempty
  refine ⟨h, fun hp => ?_, fun hhigh => ?_⟩
  · exact Nat.lt_of_not_le fun hle => hempty ⟨hp, hle⟩
  · exact eq_false_of_ne_true fun hr => hfull ⟨hr, hhigh⟩

theorem ReadSide.established_decided (h : r.isReading = true) :
    (r.onConnectionEstablished o n).Agrees ∧ (r.onConnectionEstablished o n).Decided o n :=
  ReadSide.apply_decided ⟨rfl, h.symm⟩

end

/-! ## The invariant -/

/-- Buffered output has a write event armed. -/
def Conn.Armed (c : Conn) : Option Op → Prop
  | some .writeDone => c.isWriting = true
  | some .destroyState | some .closeSocket | some .finishClose => True
  | _ => c.outputBuffer ≠ [] → c.isWriting = true

def Conn.Watched (o : Options) (c : Conn) : Option Op → Prop
  | some .writeDone => c.input.Agrees
  | some .destroyState | some .closeChannel => True
  | _ => c.input.Agrees ∧ c.input.Decided o c.outputBuffer.length

/-- The connection is up and its channel is in the loop. -/
structure Conn.Serving (c : Conn) : Prop where
  added : c.channelAdded = true
  present : c.channelRemoved = false
  up : c.state = .kConnected ∨ c.state = .kDisconnecting

structure Watch (o : Options) (c : Conn) (l : List Op) : Prop where
  armed : c.state ≠ .kDisconnected → c.channelRemoved = false → c.Armed (active l)
  watched : c.Serving → c.Watched o (active l)
  started : active l = some .establishState → c.input.isReading = true
  ended : ∀ q ∈ l, q.lastly = true → c.state = .kDisconnected

section
variable {o : Options} {c c' : Conn} {caller : Caller} {op : Op} {env : Env} {news rest l l' : List Op}

theorem Conn.Armed.of_none {a : Option Op} (h : c.Armed none)
    (ha : a.all (fun op => !op.guarded) = true) : c.Armed a := by
  cases a with
  | none => exact h
  | some op => cases op <;> first | exact h | trivial

theorem Conn.Watched.of_none {a : Option Op} (h : c.Watched o none)
    (ha : a.all (fun op => !op.guarded) = true) : c.Watched o a := by
  cases a with
  | none => exact h
  | some op => cases op <;> first | exact h | cases ha

/-- The input buffer is not looked at. -/
theorem Conn.Watched.flags {a : Option Op} (h : c.Watched o a) (hactive : c'.input.active = c.input.active)
    (henabled : c'.input.readingEnabled = c.input.readingEnabled)
    (hreading : c'.input.isReading = c.input.isReading) (hbuffer : c'.outputBuffer = c.outputBuffer) :
    c'.Watched o a := by
  have hagrees : c.input.Agrees → c'.input.Agrees := fun h =>
    ⟨hactive.trans h.1, henabled.trans (h.2.trans hreading.symm)⟩
  have hdecided : c.input.Decided o c.outputBuffer.length →
      c'.input.Decided o c'.outputBuffer.length := fun h =>
    ⟨by rw [henabled, hbuffer]; exact h.paused, by rw [henabled, hbuffer]; exact h.full⟩
  cases a with
  | none => exact ⟨hagrees h.1, hdecided h.2⟩
  | some op => cases op <;> first | exact ⟨hagrees h.1, hdecided h.2⟩ | exact hagrees h | trivial

/-- A stack stays in order over operations that rely on nothing. -/
theorem Watch.append (h : Watch o c news) (hrest : rest.all (fun op => !op.guarded) = true)
    (hended : ∀ q ∈ rest, q.lastly = true → c.state = .kDisconnected) : Watch o c (news ++ rest) := by
  have hall : ∀ q ∈ news ++ rest, q.lastly = true → c.state = .kDisconnected := fun q hq =>
    (List.mem_append.mp hq).elim (h.ended q) (hended q)
  by_cases htop : top news = []
  · have hnone : active news = none := by rw [active, htop]; rfl
    have hfree := active_append_of_nil htop hrest
    have harmed := h.armed
    have hwatched := h.watched
    rw [hnone] at harmed hwatched
    refine ⟨fun hs hr => (harmed hs hr).of_none hfree, fun hs => (hwatched hs).of_none hfree, ?_, hall⟩
    intro ha
    rw [ha] at hfree
    cases hfree
  · have heq : active (news ++ rest) = active news := active_append_of_ne htop
    exact ⟨heq ▸ h.armed, heq ▸ h.watched, heq ▸ h.started, hall⟩

/-- What leaves the owner's data alone. -/
theorem Watch.frame (h : Watch o c l) (hc : SameCore c c') (hactive : active l' = active l)
    (hended : ∀ q ∈ l', q.lastly = true → q ∈ l) : Watch o c' l' where
  armed := fun hs hr => by
    have harmed := h.armed (hc.state ▸ hs) (hc.channelRemoved ▸ hr)
    rw [hactive]
    unfold Conn.Armed at harmed ⊢
    rw [hc.isWriting, hc.outputBuffer]
    exact harmed
  watched := fun hs => by
    obtain ⟨hadded, hpresent, hup⟩ := hs
    have hwatched := h.watched
      ⟨hc.channelAdded ▸ hadded, hc.channelRemoved ▸ hpresent, hc.state ▸ hup⟩
    rw [hactive]
    exact hwatched.flags (by rw [hc.input]) (by rw [hc.input]) (by rw [hc.input]) hc.outputBuffer
  started := by rw [hactive, hc.input]; exact h.started
  ended := fun q hq hlast => hc.state.trans (h.ended q (hended q hq hlast) hlast)

/-! ## Steps of the owner loop -/

/-- The operations that other facts are kept for. -/
def Op.suspends : Op → Bool
  | .writeDone | .destroyState | .establishState => true
  | _ => false

theorem active_of_all {p : Op → Bool} (h : news.all p = true) : (active news).all p = true := by
  unfold active
  cases hl : top news with
  | nil => rfl
  | cons op l =>
    exact List.all_eq_true.mp h op (mem_of_top (by simp [hl]))

/-- What follows an operation where nothing is suspended. -/
theorem watch_of (ha : c.state ≠ .kDisconnected → c.channelRemoved = false → c.Armed none)
    (hw : c.Serving → c.Watched o none)
    (hnews : news.all (fun q => !q.suspends && !q.lastly) = true) : Watch o c news := by
  have hfree := active_of_all hnews
  refine ⟨fun hs hr => ?_, fun hs => ?_, fun hactive => ?_, fun q hq hlast => ?_⟩
  · have hd := ha hs hr
    cases hactive : active news with
    | none => exact hd
    | some q =>
      rw [hactive] at hfree
      cases q <;> first | exact hd | trivial
  · have hd := hw hs
    cases hactive : active news with
    | none => exact hd
    | some q =>
      rw [hactive] at hfree
      cases q <;> first | exact hd | trivial
  · rw [hactive] at hfree
    cases hfree
  · have := List.all_eq_true.mp hnews q hq
    rw [hlast] at this
    simp at this

/-- An operation that leaves the watched data alone. -/
theorem watch_plain (ha : c.state ≠ .kDisconnected → c.channelRemoved = false → c.Armed none)
    (hw : c.Serving → c.Watched o none)
    (hstate : c'.state = c.state) (hadded : c'.channelAdded = c.channelAdded)
    (hremoved : c'.channelRemoved = c.channelRemoved) (hwriting : c'.isWriting = c.isWriting)
    (hinput : c'.input = c.input) (hbuffer : c'.outputBuffer = c.outputBuffer)
    (hnews : news.all (fun q => !q.suspends && !q.lastly) = true) : Watch o c' news := by
  refine watch_of ?_ ?_ hnews
  · rw [hstate, hremoved]
    intro hs hr
    show c'.outputBuffer ≠ [] → c'.isWriting = true
    rw [hbuffer, hwriting]
    exact ha hs hr
  · rintro ⟨h₁, h₂, h₃⟩
    show c'.input.Agrees ∧ c'.input.Decided o c'.outputBuffer.length
    rw [hinput, hbuffer]
    exact hw ⟨hadded ▸ h₁, hremoved ▸ h₂, hstate ▸ h₃⟩

/-- A connection that is disconnected, or whose channel is out of the loop, is not watched. -/
theorem watch_over (hover : c.state = .kDisconnected ∨ c.channelRemoved = true)
    (hstart : active l ≠ some .establishState)
    (hended : ∀ q ∈ l, q.lastly = true → c.state = .kDisconnected) : Watch o c l where
  armed := fun hs hr => by
    rcases hover with hd | hd
    · exact absurd hd hs
    · rw [hd] at hr
      cases hr
  watched := fun ⟨_, hr, hup⟩ => by
    rcases hover with hd | hd
    · rw [hd] at hup
      rcases hup with h | h <;> cases h
    · rw [hd] at hr
      cases hr
  started := fun h => absurd h hstart
  ended := hended

theorem execSend_watch (h : execSend o c .owner op env = some (c', news))
    (ha : c.state ≠ .kDisconnected → c.channelRemoved = false → c.Armed (some op))
    (hw : c.Serving → c.Watched o (some op)) : Watch o c' news := by
  revert h
  fun_cases execSend o c .owner op env
  all_goals intro h; cases h
  all_goals first
    | exact watch_plain ha hw rfl rfl rfl rfl rfl rfl rfl
    | skip
  refine watch_plain ha hw rfl rfl rfl rfl rfl rfl ?_
  unfold reserveLoop
  split_ifs <;> rfl

theorem releaseOps_free (n : Nat) : (releaseOps n).all (fun q => !q.suspends && !q.lastly) = true := by
  unfold releaseOps
  split <;> rfl

theorem execOutput_watch (h : execOutput o c op env = some (c', news))
    (ha : c.state ≠ .kDisconnected → c.channelRemoved = false → c.Armed (some op))
    (hw : c.Serving → c.Watched o (some op)) : Watch o c' news := by
  revert h
  fun_cases execOutput o c op env
  all_goals intro h; cases h
  all_goals first
    | exact watch_plain ha hw rfl rfl rfl rfl rfl rfl rfl
    | skip
  -- a direct write
  · refine watch_plain ha hw rfl rfl rfl rfl rfl rfl ?_
    rw [List.all_append, releaseOps_free]
    split <;> rfl
  -- `bufferRest` looks at the watermarks and arms the write event
  · rename_i data
    refine watch_of (fun _ _ _ => rfl) (fun hs => ?_) (by split <;> rfl)
    have hdecided := ReadSide.apply_decided (o := o) (n := c.outputBuffer.length + data.length)
      (hw { hs with }).1
    show _ ∧ ReadSide.Decided o _ (c.outputBuffer ++ data).length
    rw [List.length_append]
    exact hdecided
  · refine watch_plain ha hw rfl rfl rfl rfl rfl rfl ?_
    split <;> split <;> rfl
  -- a write: the look at the watermarks follows
  · rename_i hwriting n _ _
    refine ⟨fun _ _ => eq_true_of_ne_false hwriting, fun hs => ?_, (fun hactive => by cases hactive), ?_⟩
    · exact (hw { hs with }).1
    · intro q hq hlast
      simp only [List.mem_cons, List.not_mem_nil, or_false] at hq
      rcases hq with rfl | rfl <;> cases hlast
  -- `writeDone`
  · rename_i hempty
    refine watch_of (fun _ _ hne => absurd hempty hne) (fun hs => ?_) (by split <;> rfl)
    have hdecided := ReadSide.apply_decided (o := o) (n := 0) (hw { hs with })
    show _ ∧ ReadSide.Decided o _ c.outputBuffer.length
    rw [hempty]
    exact hdecided
  · exact watch_of (fun hs hr _ => ha hs hr)
      (fun hs => ReadSide.apply_decided (hw { hs with })) rfl

theorem execRequest_watch (h : execRequest c .owner op env = some (c', news))
    (ha : c.state ≠ .kDisconnected → c.channelRemoved = false → c.Armed (some op))
    (hw : c.Serving → c.Watched o (some op)) : Watch o c' news := by
  revert h
  fun_cases execRequest c .owner op env
  all_goals intro h; cases h
  all_goals first
    | exact watch_plain ha hw rfl rfl rfl rfl rfl rfl rfl
    | skip
  -- `driveState` starts the shutdown of a connection that is up
  rename_i hstate
  exact watch_of (fun _ hr => ha (by rw [hstate]; simp) hr)
    (fun hs => hw ⟨hs.added, hs.present, .inl hstate⟩) rfl

theorem not_lastly_releaseOps {n : Nat} {q : Op} (hq : q ∈ releaseOps n) : q.lastly = false := by
  have := List.all_eq_true.mp (releaseOps_free n) q hq
  simp only [Bool.and_eq_true, Bool.not_eq_true'] at this
  exact this.2

theorem active_releaseOps (n : Nat) (q : Op) (hq : q.passive = false) :
    active (releaseOps n ++ [q]) = some q := by
  rw [active, top_passive (releaseOps_passive n), top]
  simp [hq]

theorem execOwner_watch (h : execOwner o c op env = some (c', news)) (hg : c.Guard (some op))
    (ha : c.state ≠ .kDisconnected → c.channelRemoved = false → c.Armed (some op))
    (hw : c.Serving → c.Watched o (some op)) (hst : op = .establishState → c.input.isReading = true)
    (hend : op.lastly = true → c.state = .kDisconnected) : Watch o c' news := by
  revert h
  fun_cases execOwner o c op env
  all_goals intro h; cases h
  all_goals first
    | exact watch_plain ha hw rfl rfl rfl rfl rfl rfl rfl
    | exact watch_over (.inl rfl) (fun hstart => by cases hstart) (fun _ _ _ => rfl)
    | exact watch_over (.inl ‹_›) (fun hstart => by cases hstart) (fun _ _ _ => ‹_›)
    | exact watch_over (.inl (hend rfl)) (fun hstart => by cases hstart) (fun _ _ _ => hend rfl)
    | skip
  -- `closeState`, and `closeChannel`, which takes the channel out of the loop
  · exact ⟨fun _ hr => ha hg hr, fun _ => trivial, by rintro ⟨⟩, by simp [Op.lastly]⟩
  · refine ⟨fun _ _ => trivial, fun hs => ?_, by rintro ⟨⟩, by simp [Op.lastly]⟩
    have hgone := removeChannel_removed (c := c) hs.added
    rw [hs.present] at hgone
    cases hgone
  · refine ⟨fun _ _ => trivial, fun hs => ?_, by rintro ⟨⟩, by simp [Op.lastly]⟩
    have hgone : c.channelRemoved = true := hg.2 hs.added
    rw [show c.channelRemoved = false from hs.present] at hgone
    cases hgone
  · exact watch_over (.inl rfl) (by rw [active_releaseOps _ _ rfl]; simp) (fun _ _ _ => rfl)
  -- `establish`
  · rename_i hfresh
    obtain ⟨hstate, hpresent⟩ := not_or.mp hfresh
    have hconnecting : c.state = .kConnecting := not_not.mp hstate
    refine ⟨fun hs hr => ha hs hr, fun hs => ?_, fun _ => rfl, ?_⟩
    · have hup : c.state = .kConnected ∨ c.state = .kDisconnecting := hs.up
      rw [hconnecting] at hup
      rcases hup with hup | hup <;> cases hup
    · intro q hq hlast
      rw [List.mem_singleton.mp hq] at hlast
      cases hlast
  · exact watch_over (.inr rfl) (fun hstart => by cases hstart) (fun q hq => by cases hq)
  · refine watch_of (fun _ hr => ha ?_ hr) (fun _ => ReadSide.established_decided (hst rfl)) rfl
    rw [show c.state = .kConnecting from hg.1]
    simp
  -- `destroy`
  · have hactive := active_releaseOps c.outputBuffer.length .destroyState rfl
    refine ⟨fun _ _ => by rw [hactive]; trivial, fun _ => by rw [hactive]; trivial, ?_, ?_⟩
    · rw [hactive]
      simp
    · intro q hq hlast
      rcases List.mem_append.mp hq with hq | hq
      · rw [not_lastly_releaseOps hq] at hlast
        cases hlast
      · rw [List.mem_singleton.mp hq] at hlast
        cases hlast
  -- reading moves the input buffer only
  all_goals
    refine watch_of ha (fun hs => ?_) rfl
    exact Conn.Watched.flags (a := none) (hw { hs with }) rfl rfl rfl rfl

theorem exec_watch (h : exec o c .owner op env = some (c', news)) (hg : c.Guard (some op))
    (ha : c.state ≠ .kDisconnected → c.channelRemoved = false → c.Armed (some op))
    (hw : c.Serving → c.Watched o (some op)) (hst : op = .establishState → c.input.isReading = true)
    (hend : op.lastly = true → c.state = .kDisconnected) : Watch o c' news := by
  rcases exec_cases h with h | h | h | h
  · exact execSend_watch h ha hw
  · exact execOutput_watch h ha hw
  · exact execRequest_watch h ha hw
  · exact execOwner_watch h hg ha hw hst hend

/-- Where user code runs, nothing is suspended. -/
theorem Watch.user (h : Watch o c l) (hl : userRuns l = true) :
    (c.state ≠ .kDisconnected → c.channelRemoved = false → c.Armed none) ∧
      (c.Serving → c.Watched o none) := by
  unfold userRuns at hl
  split at hl
  · exact ⟨h.armed, h.watched⟩
  · exact ⟨h.armed, h.watched⟩
  · cases hl

theorem start_free {e : Event} (h : c.start e = some (c', news)) :
    news.all (fun q => !q.suspends && !q.lastly) = true := by
  revert h
  fun_cases Conn.start c e
  all_goals intro h; cases h
  all_goals try rfl
  rename_i f _ _
  cases f <;> rfl

theorem lastly_passive {q : Op} (h : q.lastly = true) : q.passive = false := by
  cases q <;> first | rfl | cases h

theorem Act.watch {n n' : Nat} {olds : List Op} (h : Act o .owner n c olds n' c' news)
    (hw : Watch o c (olds ++ rest)) (hok : OwnerOk c (olds ++ rest))
    (hpush : olds = [] → news = [] ∨ userRuns rest = true) : Watch o c' (news ++ rest) := by
  have honward := h.onward hok
  have hended : ∀ q ∈ rest, q.lastly = true → c'.state = .kDisconnected := fun q hq hlast =>
    honward.1 (hw.ended q (List.mem_append_right _ hq) hlast)
  -- what is started by user code
  have hstart : ∀ {c'' : Conn}, SameCore c c'' → c''.state = c'.state → userRuns rest = true →
      Watch o c rest → rest.all (fun op => !op.guarded) = true →
      news.all (fun q => !q.suspends && !q.lastly) = true → Watch o c'' (news ++ rest) := by
    intro c'' hcore hstate huser hrest hfree hnews
    obtain ⟨ha, hs⟩ := hrest.user huser
    refine Watch.append (watch_plain ha hs hcore.state hcore.channelAdded hcore.channelRemoved
      hcore.isWriting hcore.input hcore.outputBuffer hnews) hfree ?_
    rw [hstate]
    exact hended
  cases h with
  | @exec _ _ _ _ op _ _ h =>
    cases hop : op.passive with
    | true =>
      obtain ⟨hcore, hnews⟩ := exec_passive h hop
      refine hw.frame hcore ?_ ?_
      · rw [active, active, top_passive hnews, top_passive (by simp [hop])]
      · intro q hq hlast
        rcases List.mem_append.mp hq with hq | hq
        · have := List.all_eq_true.mp hnews q hq
          rw [lastly_passive hlast] at this
          cases this
        · exact List.mem_append_right _ hq
    | false =>
      have hactive : active ([op] ++ rest) = some op := active_cons rest hop
      have hbelow := hok.below
      rw [List.singleton_append, top_cons rest hop] at hbelow
      refine Watch.append (exec_watch h (hactive ▸ hok.guard) (hactive ▸ hw.armed) (hactive ▸ hw.watched)
        (fun heq => hw.started (heq ▸ hactive)) (hw.ended op (by simp))) hbelow hended
  | call _ _ _ k =>
    rcases hpush rfl with hnil | huser
    · cases k <;> cases hnil
    exact hstart sameCore_rfl rfl huser hw (OwnerOk.user hok huser).1 (by cases k <;> rfl)
  | destroy =>
    rcases hpush rfl with hnil | huser
    · cases hnil
    exact hstart sameCore_rfl rfl huser hw (OwnerOk.user hok huser).1 rfl
  | start h =>
    rcases hpush rfl with hnil | huser
    · exact absurd hnil (start_ne_nil h)
    exact hstart (start_same h).1 rfl huser hw (OwnerOk.user hok huser).1 (start_free h)
  | ret _ _ source threw =>
    refine Watch.append (watch_of hw.armed hw.watched ?_) hok.below hended
    cases source <;> cases threw <;> rfl
  | retrieve =>
    refine ⟨hw.armed, fun hs => ?_, hw.started, hw.ended⟩
    exact (hw.watched { hs with }).flags rfl rfl rfl rfl
  | quit =>
    exact hw.frame ⟨rfl, rfl, rfl, rfl, rfl, rfl, rfl, rfl, rfl, rfl, rfl⟩ rfl (fun q hq _ => hq)

end

theorem watch_init (o : Options) : Watch o {} [] where
  armed := fun _ _ h => absurd rfl h
  watched := fun h => (by cases h.added)
  started := fun h => (by cases h)
  ended := fun q hq => (by cases hq)

theorem Watch.move {o : Options} {s s' : State} (hinv : Inv o s) (h : Watch o s.conn s.owner)
    (hm : Move o s s') : Watch o s'.conn s'.owner := by
  cases hm with
  | owner olds news rest act old new remotes push =>
    rw [new]
    exact act.watch (old ▸ h) (old ▸ hinv.owner) push
  | remote olds news R act old new owner =>
    obtain ⟨hcore, _⟩ := act.crossThread (List.all_eq_true.mpr fun op hop =>
      hinv.crossThread op (old.mem_iff.mpr (List.mem_append_left R hop)))
    rw [owner]
    exact h.frame hcore rfl (fun q hq _ => hq)

theorem reach_watch {o : Options} {C : State → Label → Prop} {s : State}
    (h : Reach (· = {}) (step o) C s) : Watch o s.conn s.owner :=
  Reach.invariant_with (fun h => reach_inv h) (P := fun s => Watch o s.conn s.owner)
    (by rintro s rfl; exact watch_init o) (fun _ _ _ hinv hw _ hs => hw.move hinv (step_move hs)) h

/-- **Backpressure never strands reading.** Between events of a connection that is up with its channel
    in the loop, the controller and the channel agree on reading; if it is paused, the buffered output
    is above the low watermark and a write event is armed; and from the high watermark on it is
    paused. -/
theorem backpressure_never_strands (o : Options) (s : State)
    (h : Reach (· = {}) (step o) Any s) (hidle : s.owner = [])
    (hup : s.conn.state = .kConnected ∨ s.conn.state = .kDisconnecting)
    (hadded : s.conn.channelAdded = true) (hpresent : s.conn.channelRemoved = false) :
    s.conn.input.readingEnabled = s.conn.input.isReading ∧
    (s.conn.input.readingEnabled = false →
      o.lowWaterMarkBytes < s.conn.outputBuffer.length ∧ s.conn.isWriting = true) ∧
    (o.highWaterMarkBytes ≤ s.conn.outputBuffer.length → s.conn.input.readingEnabled = false) := by
  have hwatch := reach_watch h
  rw [hidle] at hwatch
  obtain ⟨hagrees, hdecided⟩ := hwatch.watched ⟨hadded, hpresent, hup⟩
  refine ⟨hagrees.2, fun hpaused => ?_, hdecided.full⟩
  have hlow := hdecided.paused hpaused
  have hne : s.conn.outputBuffer ≠ [] := by
    intro hnil
    rw [hnil] at hlow
    exact absurd hlow (Nat.not_lt_zero _)
  have hstate : s.conn.state ≠ .kDisconnected := by rcases hup with hup | hup <;> rw [hup] <;> nofun
  exact ⟨hlow, hwatch.armed hstate hpresent hne⟩

/-- A send of five bytes of which the socket takes none pauses reading. -/
theorem backpressure_never_strands_paused :
    ∃ s, Reach (· = {}) (step smallConnection) Any s ∧
      s.conn.input.isReading = false ∧ s.conn.outputBuffer.length = 5 ∧
      s.conn.input.readingEnabled = false ∧ 1 < s.conn.outputBuffer.length ∧ s.conn.isWriting = true := by
  obtain ⟨s, hr, hidle, hstate, hadded, hpresent, hreading, hlength⟩ := Reach.of_run (· = {})
    (step smallConnection) Any
    (fun s => s.owner = [] ∧ s.conn.state = .kConnected ∧ s.conn.channelAdded = true ∧
      s.conn.channelRemoved = false ∧ s.conn.input.isReading = false ∧ s.conn.outputBuffer.length = 5)
    {} rfl
    [.event (.connectEstablished true), .own .nothing, .own .nothing, .ret false,
      .ownCall (.trySend [1, 2, 3, 4, 5]), .own .nothing, .own .nothing, .own .nothing, .own .nothing,
      .own .nothing, .own .nothing, .own .nothing, .own (.budgets none), .own .nothing,
      .own (.write .wouldBlock), .own .nothing, .own .nothing]
    (by decide +kernel)
  obtain ⟨hagree, hpaused, -⟩ :=
    backpressure_never_strands smallConnection s hr hidle (.inl hstate) hadded hpresent
  have hoff := hagree.trans hreading
  exact ⟨s, hr, hreading, hlength, hoff, hpaused hoff⟩

end GameNet.TcpConnection
