import GameNet.TcpConnection.Threads

/- The output word: the seal bit and the byte count do not disturb each other, and the
   count is what the output buffer, the queued payloads and the operations in progress
   hold together. -/
namespace GameNet.TcpConnection

open Stacks

/-! ## The word -/

theorem byteCount_eq (w : Nat) : byteCount w = w % 2 ^ 63 := by
  unfold byteCount kOutputByteCountMask kOutputAdmissionSealedBit
  exact Nat.and_two_pow_sub_one_eq_mod w 63

theorem isSealed_iff {w : Nat} (hw : w < 2 ^ 64) : isSealed w = true ↔ 2 ^ 63 ≤ w := by
  have hbit : isSealed w = w.testBit 63 := by
    unfold isSealed kOutputAdmissionSealedBit
    rw [Nat.and_two_pow]
    cases w.testBit 63 <;> decide
  rw [hbit, Nat.testBit_eq_decide_div_mod_eq, decide_eq_true_iff]
  omega

theorem sealOutput_eq {w : Nat} (hw : w < 2 ^ 64) :
    sealOutput w = if 2 ^ 63 ≤ w then w else w + 2 ^ 63 := by
  have hlow (b : Nat) (hb : b < 2 ^ 63) : 2 ^ 63 ||| b = 2 ^ 63 + b := by
    have := Nat.two_pow_add_eq_or_of_lt hb 1
    simpa using this.symm
  unfold sealOutput kOutputAdmissionSealedBit
  split
  case isTrue h =>
    -- the bit is there already
    have hsplit : w = 2 ^ 63 ||| (w - 2 ^ 63) := by rw [hlow _ (by omega)]; omega
    rw [Nat.or_comm]
    nth_rewrite 1 [hsplit]
    rw [← Nat.or_assoc, Nat.or_self, ← hsplit]
  case isFalse h => rw [Nat.or_comm, hlow _ (by omega)]; omega

theorem sealOutput_lt {w : Nat} (hw : w < 2 ^ 64) : sealOutput w < 2 ^ 64 := by
  rw [sealOutput_eq hw]
  split <;> omega

theorem isSealed_sealOutput {w : Nat} (hw : w < 2 ^ 64) : isSealed (sealOutput w) = true := by
  rw [isSealed_iff (sealOutput_lt hw), sealOutput_eq hw]
  split <;> omega

theorem byteCount_sealOutput {w : Nat} (hw : w < 2 ^ 64) :
    byteCount (sealOutput w) = byteCount w := by
  rw [byteCount_eq, byteCount_eq, sealOutput_eq hw]
  split <;> omega

theorem fetchSub_lt (w n : Nat) : fetchSub w n < 2 ^ 64 := by
  unfold fetchSub
  omega

theorem byteCount_fetchSub {w n : Nat} (hn : n ≤ byteCount w) :
    byteCount (fetchSub w n) = byteCount w - n := by
  rw [byteCount_eq] at *
  rw [byteCount_eq]
  unfold fetchSub
  omega

/-- No release moves the seal bit. -/
theorem isSealed_fetchSub {w n : Nat} (hw : w < 2 ^ 64) (hn : n ≤ byteCount w) :
    isSealed (fetchSub w n) = isSealed w := by
  rw [byteCount_eq] at hn
  rw [Bool.eq_iff_iff, isSealed_iff (fetchSub_lt w n), isSealed_iff hw]
  unfold fetchSub
  omega

theorem isSealed_of_lt {w : Nat} (hw : w < 2 ^ 63) : isSealed w = false := by
  rw [← Bool.not_eq_true, isSealed_iff (by omega)]
  omega

theorem byteCount_of_lt {w : Nat} (hw : w < 2 ^ 63) : byteCount w = w := by
  rw [byteCount_eq, Nat.mod_eq_of_lt hw]

theorem Options.outputLimit_lt (o : Options) : o.outputLimit < 2 ^ 63 := by
  unfold Options.outputLimit kOutputByteCountMask kOutputAdmissionSealedBit
  omega

/-! ## What the operations hold -/

/-- The reserved bytes that an operation still has to hand on. -/
def Op.held : Op → Nat
  | .reserveBudgets p | .sendDispatch p | .sendFunctor p | .sendReserved p => p.data.length
  | .release n => n
  | .bufferRest data => data.length
  | _ => 0

def QueuedFunctor.held : QueuedFunctor → Nat
  | .send p => p.data.length
  | _ => 0

@[simp]
theorem weight_releaseOps (n : Nat) : weight Op.held (releaseOps n) = n := by
  unfold releaseOps
  split
  case isTrue h => simp [h]
  case isFalse => simp [Op.held]

/-- What an operation may carry: a reservation is for a payload that is not empty, a
    compare-exchange is tried only where the new count is within the limit, and what is left to
    buffer is not empty. -/
def Op.sound (o : Options) : Op → Bool
  | .reserveCas p current => p.data ≠ [] ∧ current + p.data.length ≤ o.outputLimit
  | .reserveLoad p | .reserveOverload p _ | .reserveClear p | .reserveBudgets p
  | .sendDispatch p | .sendFunctor p | .sendReserved p => p.data ≠ []
  | .bufferRest data => data ≠ []
  | _ => true

def QueuedFunctor.sound : QueuedFunctor → Bool
  | .send p => p.data ≠ []
  | _ => true

/-- The bytes a connection holds outside the operations. -/
def Conn.held (c : Conn) : Nat := c.outputBuffer.length + weight QueuedFunctor.held c.functors

/-- What a thread's step does to the word and to what is held; `k` bytes were held by the
    operations that it replaces. -/
structure Conn.Settles (o : Options) (c : Conn) (k : Nat) (c' : Conn) (news : List Op) : Prop where
  word : c'.pendingOutputBytes < 2 ^ 64
  exact : byteCount c'.pendingOutputBytes + k + c.held =
    byteCount c.pendingOutputBytes + weight Op.held news + c'.held
  limit : byteCount c.pendingOutputBytes ≤ o.outputLimit →
    byteCount c'.pendingOutputBytes ≤ o.outputLimit
  sealed : isSealed c.pendingOutputBytes = true → isSealed c'.pendingOutputBytes = true ∧
    byteCount c'.pendingOutputBytes ≤ byteCount c.pendingOutputBytes
  /-- A count that goes to zero under the seal signals the owner loop. -/
  drained : isSealed c.pendingOutputBytes = true → 0 < byteCount c.pendingOutputBytes →
    0 < byteCount c'.pendingOutputBytes ∨ .signal ∈ news
  ops : news.all (Op.sound o) = true
  functors : c.functors.all QueuedFunctor.sound = true →
    c'.functors.all QueuedFunctor.sound = true

section
variable {o : Options} {c c' : Conn} {caller : Caller} {op : Op} {env : Env} {news : List Op}
  {k : Nat}

theorem settles_of_same (hw : c.pendingOutputBytes < 2 ^ 64)
    (hword : c'.pendingOutputBytes = c.pendingOutputBytes)
    (hheld : k + c.held = weight Op.held news + c'.held)
    (hops : news.all (Op.sound o) = true)
    (hfun : c.functors.all QueuedFunctor.sound = true →
      c'.functors.all QueuedFunctor.sound = true) : c.Settles o k c' news where
  word := by rwa [hword]
  exact := by rw [hword]; omega
  limit := by rw [hword]; exact id
  sealed h := by rw [hword]; exact ⟨h, le_refl _⟩
  drained _ h := .inl (by rw [hword]; exact h)
  ops := hops
  functors := hfun

/-- The operation moves no byte outside the operations. -/
theorem settles_plain (hw : c.pendingOutputBytes < 2 ^ 64)
    (hword : c'.pendingOutputBytes = c.pendingOutputBytes)
    (hout : c'.outputBuffer = c.outputBuffer) (hfun : c'.functors = c.functors)
    (hheld : weight Op.held news = k) (hops : news.all (Op.sound o) = true) :
    c.Settles o k c' news :=
  settles_of_same hw hword (by rw [hheld, Conn.held, Conn.held, hout, hfun]) hops
    (by rw [hfun]; exact id)

theorem settles_of_sealed (hw : c.pendingOutputBytes < 2 ^ 64)
    (hword : c'.pendingOutputBytes = sealOutput c.pendingOutputBytes)
    (hout : c'.outputBuffer = c.outputBuffer) (hfun : c'.functors = c.functors)
    (hheld : weight Op.held news = k) (hops : news.all (Op.sound o) = true) :
    c.Settles o k c' news where
  word := by rw [hword]; exact sealOutput_lt hw
  exact := by rw [hword, byteCount_sealOutput hw, hheld, Conn.held, Conn.held, hout, hfun]
  limit := by rw [hword, byteCount_sealOutput hw]; exact id
  sealed _ := by rw [hword, isSealed_sealOutput hw, byteCount_sealOutput hw]; simp
  drained _ h := .inl (by rw [hword, byteCount_sealOutput hw]; exact h)
  ops := hops
  functors := by rw [hfun]; exact id

/-- Queueing a notification moves no byte. -/
theorem queueNotification_settles (hw : c.pendingOutputBytes < 2 ^ 64) (f : QueuedFunctor)
    (hf : f.held = 0) (hs : f.sound = true) (r : PostResult) :
    c.Settles o 0 (c.queueNotification f r) [] := by
  refine settles_of_same hw rfl ?_ rfl ?_ <;> unfold Conn.queueNotification
  · unfold Conn.held
    split <;> simp [hf]
  · intro hc
    split <;> simp_all

theorem reserveLoop_sound {p : Payload} (hp : p.data ≠ []) (current : Nat) :
    weight Op.held (reserveLoop o c p current) = 0 ∧
      (reserveLoop o c p current).all (Op.sound o) = true := by
  unfold reserveLoop
  split_ifs with hseal hover hlow hfull hlow
  all_goals simp [Op.held, Op.sound, hp]
  omega

theorem handOver_sound (kind : CloseKind) :
    weight Op.held (kind.handOver caller) = 0 ∧
      (kind.handOver caller).all (Op.sound o) = true := by
  cases caller <;> exact ⟨rfl, rfl⟩

theorem releaseOps_sound (n : Nat) : (releaseOps n).all (Op.sound o) = true := by
  unfold releaseOps
  split <;> rfl

theorem execSend_settles (h : execSend o c caller op env = some (c', news))
    (hw : c.pendingOutputBytes < 2 ^ 64) (hop : op.sound o = true) : c.Settles o op.held c' news := by
  revert h
  fun_cases execSend o c caller op env
  all_goals
    intro h
    cases h
  all_goals try exact settles_plain hw rfl rfl rfl rfl rfl
  all_goals try exact settles_plain hw rfl rfl rfl rfl (by simpa [Op.sound] using hop)
  -- `sendCheckConnected`: only a payload with bytes goes on to reserve
  · rename_i hp
    exact settles_plain hw rfl rfl rfl rfl (by simp [Op.sound, hp])
  -- the loop of `tryReserveOutputBytes`
  · obtain ⟨hheld, hsound⟩ := reserveLoop_sound (by simpa [Op.sound] using hop) _
    exact settles_plain hw rfl rfl rfl hheld hsound
  -- the reservation: the word was read without the seal bit, and stays below it
  · rename_i p
    obtain ⟨hp, hle⟩ : p.data ≠ [] ∧ c.pendingOutputBytes + p.data.length ≤ o.outputLimit := by
      simpa [Op.sound] using hop
    have hlt := o.outputLimit_lt
    have hcount : byteCount (c.pendingOutputBytes + p.data.length) =
        byteCount c.pendingOutputBytes + p.data.length := by
      rw [byteCount_of_lt (by omega), byteCount_of_lt (by omega)]
    have hbytes := byteCount_of_lt (by omega : c.pendingOutputBytes < 2 ^ 63)
    have hopen := isSealed_of_lt (by omega : c.pendingOutputBytes < 2 ^ 63)
    refine ⟨by simp only; omega, ?_, ?_, ?_, ?_, by simp [Op.sound, hp], id⟩
    · simp only [hcount, weight_cons, weight_nil, Op.held, Conn.held]
      omega
    · simp only [hcount]
      omega
    · simp [hopen]
    · simp [hopen]
  -- a compare-exchange that failed starts over
  · exact settles_plain hw rfl rfl rfl rfl (by simp_all [Op.sound])
  · exact settles_plain hw rfl rfl rfl rfl (by simp_all [Op.sound])
  -- the payload goes on the owner's queue
  · refine settles_of_same hw rfl ?_ rfl ?_
    · simp only [weight_append, weight_cons, weight_nil, Op.held, Conn.held, QueuedFunctor.held]
      omega
    · intro hc
      simp only [Op.sound] at hop
      simp [hc, QueuedFunctor.sound, hop]

theorem execOutput_settles (h : execOutput o c op env = some (c', news))
    (hw : c.pendingOutputBytes < 2 ^ 64) (hop : op.sound o = true) : c.Settles o op.held c' news := by
  revert h
  fun_cases execOutput o c op env
  all_goals
    intro h
    cases h
  all_goals try exact settles_plain hw rfl rfl rfl rfl rfl
  all_goals try exact settles_plain hw rfl rfl rfl rfl (by simpa [Op.sound] using hop)
  -- a direct write of a part, or of all
  · rename_i p hdirect n hn
    have hn : n ≤ p.data.length := by omega
    refine settles_plain hw rfl rfl rfl ?_ ?_
    · split
      case isTrue h => simp [Op.held, h]
      case isFalse => simp [Op.held, hn]
    · rw [List.all_append, releaseOps_sound]
      split
      case isTrue => rfl
      case isFalse hpart =>
        have hleft : ¬p.data.length ≤ n := by omega
        simp [Op.sound, hleft]
  -- `bufferRest`
  · refine settles_of_same hw rfl ?_ ?_ id
    · simp only [Op.held, Conn.held, List.length_append]
      split <;> simp [Op.held] <;> omega
    · split <;> rfl
  · exact queueNotification_settles hw .writeComplete rfl rfl _
  · exact queueNotification_settles hw .highWaterMark rfl rfl _
  -- `release`
  · rename_i n hn
    have hn : n ≤ byteCount c.pendingOutputBytes := by omega
    refine ⟨fetchSub_lt _ _, ?_, ?_, ?_, ?_, ?_, id⟩
    · simp only [byteCount_fetchSub hn, Op.held, Conn.held]
      split <;> split <;> simp [Op.held] <;> omega
    · simp only [byteCount_fetchSub hn]
      omega
    · simp only [isSealed_fetchSub hw hn, byteCount_fetchSub hn]
      exact fun h => ⟨h, Nat.sub_le _ _⟩
    · intro hseal _
      simp only [byteCount_fetchSub hn]
      by_cases hall : byteCount c.pendingOutputBytes = n
      · exact .inr (by simp [hseal, hall])
      · exact .inl (by omega)
    · split <;> split <;> rfl
  -- `handleWrite`
  · refine settles_of_same hw rfl ?_ rfl id
    simp only [Op.held, Conn.held, weight_cons, weight_nil, List.length_drop]
    omega
  -- `writeDone`
  · refine settles_plain hw rfl rfl rfl ?_ ?_ <;> split <;> rfl

theorem execRequest_settles (h : execRequest c caller op env = some (c', news))
    (hw : c.pendingOutputBytes < 2 ^ 64) : c.Settles o op.held c' news := by
  revert h
  fun_cases execRequest c caller op env
  all_goals
    intro h
    cases h
  all_goals try exact settles_plain hw rfl rfl rfl rfl rfl
  · exact settles_of_sealed hw rfl rfl rfl rfl rfl
  -- the request is handed over
  all_goals
    obtain ⟨hheld, hsound⟩ := handOver_sound _
    exact settles_plain hw rfl rfl rfl hheld hsound

theorem execOwner_settles (h : execOwner o c op env = some (c', news))
    (hw : c.pendingOutputBytes < 2 ^ 64) : c.Settles o op.held c' news := by
  revert h
  fun_cases execOwner o c op env
  all_goals
    intro h
    cases h
  all_goals try exact settles_plain hw rfl rfl rfl rfl rfl
  -- `beginClose`
  · exact settles_of_sealed hw rfl rfl rfl rfl rfl
  -- `finishClose` and `destroy` give back what is buffered
  all_goals
    refine settles_of_same hw rfl ?_ ?_ id
    · simp [Op.held, Conn.held]
    · rw [List.all_append, releaseOps_sound]
      rfl

theorem exec_settles (h : exec o c caller op env = some (c', news))
    (hw : c.pendingOutputBytes < 2 ^ 64) (hop : op.sound o = true) :
    c.Settles o op.held c' news := by
  rcases exec_cases h with h | h | h | h
  · exact execSend_settles h hw hop
  · exact execOutput_settles h hw hop
  · exact execRequest_settles h hw
  · exact execOwner_settles h hw

/-- An event takes its operation's bytes from the queue of functors. -/
theorem start_settles {e : Event} (h : c.start e = some (c', news))
    (hw : c.pendingOutputBytes < 2 ^ 64) (hf : c.functors.all QueuedFunctor.sound = true) :
    c.Settles o 0 c' news := by
  revert h
  fun_cases Conn.start c e
  all_goals
    intro h
    cases h
  all_goals try exact settles_plain hw rfl rfl rfl rfl rfl
  rename_i f rest hfun
  rw [hfun, List.all_cons, Bool.and_eq_true] at hf
  refine settles_of_same hw rfl ?_ ?_ (fun _ => hf.2)
  · simp only [Conn.held, hfun, weight_cons]
    cases f <;> simp only [QueuedFunctor.held, QueuedFunctor.op, Op.held, weight_nil] <;> omega
  · cases f
    case send p => simpa [QueuedFunctor.op, Op.sound, QueuedFunctor.sound] using hf.1
    all_goals rfl

theorem next_held (source : CallbackSource) (threw : Bool) :
    weight Op.held (source.next threw) = 0 ∧ (source.next threw).all (Op.sound o) = true := by
  cases source <;> cases threw <;> exact ⟨rfl, rfl⟩

theorem Act.settles {n n' : Nat} {olds : List Op} (h : Act o caller n c olds n' c' news)
    (hw : c.pendingOutputBytes < 2 ^ 64) (holds : olds.all (Op.sound o) = true)
    (hf : c.functors.all QueuedFunctor.sound = true) :
    c.Settles o (weight Op.held olds) c' news := by
  cases h with
  | exec h => exact exec_settles h hw (by simpa using holds)
  | call _ _ _ k => cases k <;> exact settles_plain hw rfl rfl rfl rfl rfl
  | destroy => exact settles_plain hw rfl rfl rfl rfl rfl
  | start h => exact start_settles h hw hf
  | ret _ _ source threw =>
    obtain ⟨hheld, hsound⟩ := next_held source threw
    exact settles_plain hw rfl rfl rfl hheld hsound
  | retrieve => exact settles_plain hw rfl rfl rfl rfl rfl
  | quit => exact settles_plain hw rfl rfl rfl rfl rfl

end

/-! ## The invariant -/

/-- The count is exact and within the limit in every state. -/
structure Ledger (o : Options) (s : State) : Prop where
  word : s.conn.pendingOutputBytes < 2 ^ 64
  exact : byteCount s.conn.pendingOutputBytes = s.conn.held + weight Op.held s.ops
  limit : byteCount s.conn.pendingOutputBytes ≤ o.outputLimit
  ops : ∀ op ∈ s.ops, op.sound o = true
  functors : s.conn.functors.all QueuedFunctor.sound = true

theorem ledger_init (o : Options) : Ledger o {} where
  word := by decide
  exact := by decide
  limit := Nat.zero_le _
  ops := by simp [State.ops]
  functors := rfl

theorem Ledger.move {o : Options} {s s' : State} (h : Ledger o s) (hm : Move o s s') :
    Ledger o s' ∧ (isSealed s.conn.pendingOutputBytes = true →
      isSealed s'.conn.pendingOutputBytes = true ∧
        byteCount s'.conn.pendingOutputBytes ≤ byteCount s.conn.pendingOutputBytes) := by
  obtain ⟨caller, olds, news, R, hact, hold, hnew⟩ := hm.ops
  have hops : ∀ op ∈ olds ++ R, op.sound o = true := fun op hop => h.ops op (hold.mem_iff.mpr hop)
  have hset := hact.settles h.word
    (List.all_eq_true.mpr fun op hop => hops op (List.mem_append_left R hop)) h.functors
  refine ⟨⟨hset.word, ?_, hset.limit h.limit, ?_, hset.functors h.functors⟩, hset.sealed⟩
  · have h1 := weight_perm Op.held hold
    have h2 := weight_perm Op.held hnew
    rw [weight_append] at h1 h2
    have h3 := h.exact
    have h4 := hset.exact
    omega
  · intro op hop
    rcases List.mem_append.mp (hnew.mem_iff.mp hop) with hop | hop
    · exact List.all_eq_true.mp hset.ops op hop
    · exact hops op (List.mem_append_right olds hop)

/-- An operation or a functor that holds bytes is counted. -/
theorem Ledger.held_le {o : Options} {s : State} (h : Ledger o s) {op : Op} (hop : op ∈ s.ops) :
    op.held ≤ byteCount s.conn.pendingOutputBytes := by
  have := le_weight Op.held hop
  have := h.exact
  omega

end GameNet.TcpConnection
