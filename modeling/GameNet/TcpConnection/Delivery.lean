import GameNet.TcpConnection.Owner

/- Input bytes and the message callback (non-Windows build). `handleRead` appends what the
   socket has and calls the message callback only while the backpressure controller has reading
   enabled. A read event that was captured before another callback paused reading is still
   handled: its bytes go into the buffer with no callback, and the resume of this build does not
   make up for it. As long as no such event brings bytes, every byte has been offered. -/
namespace GameNet.TcpConnection

open Machine (Reach Any)

/-! ## The reading side -/

/-- The controller has been told that the connection is closed. -/
def ReadSide.Closed (r : ReadSide) : Prop := r.active = false ∧ r.readingEnabled = false

/-- Every byte that was read was in the buffer when some message callback started. -/
def ReadSide.Delivered (r : ReadSide) : Prop := ∀ i < r.received, i ∈ r.offered

section
variable (o : Options) (r : ReadSide)

theorem ReadSide.apply_stream (n : Nat) :
    (r.apply o n).received = r.received ∧ (r.apply o n).offered = r.offered := by
  unfold ReadSide.apply
  split_ifs <;> exact ⟨rfl, rfl⟩

theorem ReadSide.apply_closed {n : Nat} (h : (r.apply o n).Closed) : r.Closed := by
  have hactive : r.active = false := by rw [← r.apply_active o n]; exact h.1
  unfold ReadSide.apply at h
  rwa [if_pos hactive] at h

/-- What is read and offered at once is delivered. -/
theorem ReadSide.offer_delivered (n : Nat) (h : r.Delivered) : ((r.readFd n).offer).Delivered := by
  intro i hi
  show i ∈ r.offered ++ (r.inputBuffer ++ List.range' r.received n)
  by_cases hold : i < r.received
  · exact List.mem_append_left _ (h i hold)
  · have hi : i < r.received + n := hi
    refine List.mem_append_right _ (List.mem_append_right _ (List.mem_range'_1.mpr ?_))
    omega

end

/-! ## What an operation does to it -/

def Op.reads : Op → Bool
  | .handleRead _ => true
  | _ => false

structure Reads (c : Conn) (op : Op) (c' : Conn) (news : List Op) : Prop where
  stream : op.reads = false →
    c'.input.received = c.input.received ∧ c'.input.offered = c.input.offered
  closed : c'.input.Closed → c.input.Closed ∨ c'.state = .kDisconnected ∨ .destroyState ∈ news
  news : news.all (fun q => !q.reads) = true

section
variable {o : Options} {c c' : Conn} {caller : Caller} {op : Op} {env : Env} {news : List Op}

theorem reads_same (hinput : c'.input = c.input) (hnews : news.all (fun q => !q.reads) = true) :
    Reads c op c' news :=
  ⟨fun _ => by rw [hinput]; exact ⟨rfl, rfl⟩, fun h => .inl (hinput ▸ h), hnews⟩

theorem reads_apply {n : Nat} (hinput : c'.input = c.input.apply o n)
    (hnews : news.all (fun q => !q.reads) = true) : Reads c op c' news :=
  ⟨fun _ => by rw [hinput]; exact c.input.apply_stream o n,
    fun h => .inl (c.input.apply_closed o (hinput ▸ h)), hnews⟩

/-- The interest of the channel is not the controller's. -/
theorem reads_interest {b : Bool} (hinput : c'.input = { c.input with isReading := b })
    (hnews : news.all (fun q => !q.reads) = true) : Reads c op c' news :=
  ⟨fun _ => by rw [hinput]; exact ⟨rfl, rfl⟩, fun h => .inl (by rw [hinput] at h; exact h), hnews⟩

theorem releaseOps_reads (n : Nat) : (releaseOps n).all (fun q => !q.reads) = true := by
  unfold releaseOps
  split <;> rfl

theorem exec_reads (h : exec o c caller op env = some (c', news)) : Reads c op c' news := by
  rcases exec_cases h with h | h | h | h
  all_goals revert h
  case' inr.inr.inr => fun_cases execOwner o c op env
  case' inr.inr.inl => fun_cases execRequest c caller op env
  case' inr.inl => fun_cases execOutput o c op env
  case' inl => fun_cases execSend o c caller op env
  all_goals intro h; cases h
  all_goals try exact reads_same rfl rfl
  all_goals try exact reads_interest rfl rfl
  · refine reads_same rfl ?_
    unfold reserveLoop
    split_ifs <;> rfl
  · refine reads_same rfl ?_
    rw [List.all_append, releaseOps_reads]
    split <;> rfl
  · exact reads_apply rfl (by split <;> rfl)
  · exact reads_same rfl (by split <;> split <;> rfl)
  · exact reads_apply rfl (by split <;> rfl)
  · exact reads_apply rfl rfl
  · exact reads_same rfl (by cases caller <;> rfl)
  · exact reads_same rfl (by cases caller <;> rfl)
  · refine ⟨fun _ => ⟨rfl, rfl⟩, fun _ => .inr (.inl rfl), ?_⟩
    rw [List.all_append, releaseOps_reads]
    rfl
  -- `establishState` makes the controller active
  · refine ⟨fun _ => ReadSide.apply_stream _ _ _, fun h => ?_, rfl⟩
    cases (ReadSide.apply_closed _ _ h).1
  · refine ⟨fun _ => ⟨rfl, rfl⟩, fun _ => .inr (.inr (by simp)), ?_⟩
    rw [List.all_append, releaseOps_reads]
    rfl
  · exact ⟨by rintro ⟨⟩, .inl, rfl⟩
  · exact ⟨by rintro ⟨⟩, .inl, rfl⟩

/-- A read that brings bytes while reading is enabled offers them. -/
theorem exec_handleRead {r : ReadResult} (h : exec o c caller (.handleRead r) env = some (c', news))
    (hcallback : o.messageCallback = true)
    (hr : ∀ n, r = .bytes n → n = 0 ∨ c.input.readingEnabled = true) (hd : c.input.Delivered) :
    c'.input.Delivered := by
  replace h := exec_group h
  cases env <;> try cases h
  simp only [Op.group, execOwner] at h
  split at h
  · cases h
    exact hd
  cases r with
  | bytes n =>
    simp only [hcallback, and_true] at h
    split_ifs at h with _ hzero henabled <;> cases h
    · exact hd
    · exact c.input.offer_delivered n hd
    · exact absurd ((hr n rfl).resolve_left hzero) henabled
  | wouldBlock =>
    cases h
    exact hd
  | error err =>
    cases h
    exact hd

theorem exec_destroyState (h : exec o c caller .destroyState env = some (c', news)) :
    c'.state = .kDisconnected := by
  replace h := exec_group h
  cases env <;> try cases h
  simp only [Op.group, execOwner] at h
  split at h <;> cases h
  · rfl
  · rfl

end

/-! ## The invariant -/

/-- A read event that brings bytes is handled only while the backpressure controller has not
    paused reading. -/
def ReadsEnabled (s : State) : Label → Prop
  | .event (.read (.bytes n)) =>
    n = 0 ∨ s.conn.input.active = false ∨ s.conn.input.readingEnabled = true
  | _ => True

instance (s : State) (l : Label) : Decidable (ReadsEnabled s l) := by
  unfold ReadsEnabled
  split <;> infer_instance

structure Delivers (s : State) : Prop where
  closed : s.conn.input.Closed → s.conn.state = .kDisconnected ∨ .destroyState ∈ s.owner
  delivered : s.conn.state = .kDisconnected ∨ s.conn.input.Delivered
  /-- Only the event that the owner loop has just started can be a read. -/
  tail : ∀ q ∈ s.owner.tail, q.reads = false
  reading : ∀ n, s.owner.head? = some (.handleRead (.bytes n)) →
    n = 0 ∨ s.conn.input.readingEnabled = true ∨ s.conn.state = .kDisconnected

theorem delivers_init : Delivers {} where
  closed h := by cases h.2
  delivered := .inr fun i hi => by cases hi
  tail := nofun
  reading := nofun

section
variable {o : Options} {s s' : State}

/-- A stack without a read keeps the last two. -/
theorem Delivers.of_none
    (hclosed : s.conn.input.Closed → s.conn.state = .kDisconnected ∨ .destroyState ∈ s.owner)
    (hdelivered : s.conn.state = .kDisconnected ∨ s.conn.input.Delivered)
    (hnone : ∀ q ∈ s.owner, q.reads = false) : Delivers s where
  closed := hclosed
  delivered := hdelivered
  tail q hq := hnone q (List.mem_of_mem_tail hq)
  reading n hn := by cases hnone _ (List.mem_of_mem_head? hn)

/-- Where user code runs there is no read on the stack. -/
theorem Delivers.user (h : Delivers s) (huser : userRuns s.owner = true) :
    ∀ q ∈ s.owner, q.reads = false := by
  intro q hq
  have htail := h.tail
  unfold userRuns at huser
  split at huser
  · rename_i hnil
    rw [hnil] at hq
    cases hq
  · rename_i hcons
    rw [hcons] at hq htail
    rcases List.mem_cons.mp hq with rfl | hq
    · rfl
    · exact htail q hq
  · cases huser

theorem Delivers.own {env : Env} {op : Op} {rest : List Op} {r : Conn × List Op}
    (h : Delivers s) (hcallback : o.messageCallback = true) (hop : s.owner = op :: rest)
    (hexec : exec o s.conn .owner op env = some r) (hon : Onward s.conn.state r.1.state) :
    Delivers { s with conn := r.1, owner := r.2 ++ rest } := by
  have hreads := exec_reads hexec
  refine Delivers.of_none (fun hclosed => ?_) ?_ fun q hq => ?_
  · rcases hreads.closed hclosed with hold | hstate | hmem
    · rcases h.closed hold with hstate | hmem
      · exact .inl (hon.1 hstate)
      · rw [hop] at hmem
        rcases List.mem_cons.mp hmem with rfl | hmem
        · exact .inl (exec_destroyState hexec)
        · exact .inr (List.mem_append_right r.2 hmem)
    · exact .inl hstate
    · exact .inr (List.mem_append_left rest hmem)
  · rcases h.delivered with hstate | hdelivered
    · exact .inl (hon.1 hstate)
    cases hread : op.reads with
    | false =>
      obtain ⟨hreceived, hoffered⟩ := hreads.stream hread
      right
      show ReadSide.Delivered r.1.input
      unfold ReadSide.Delivered
      rw [hreceived, hoffered]
      exact hdelivered
    | true =>
      cases op <;> try (cases hread; done)
      rename_i result
      by_cases hstate : s.conn.state = .kDisconnected
      · exact .inl (hon.1 hstate)
      refine .inr (exec_handleRead hexec hcallback (fun n hn => ?_) hdelivered)
      subst hn
      exact (h.reading n (by rw [hop]; rfl)).imp_right fun h => h.resolve_right hstate
  · rcases List.mem_append.mp hq with hq | hq
    · simpa using List.all_eq_true.mp hreads.news q hq
    · exact h.tail q (by rw [hop]; exact hq)

theorem start_reads {c c' : Conn} {e : Event} {news : List Op} (h : c.start e = some (c', news)) :
    c'.input = c.input ∧ ∃ q, news = [q] ∧ ∀ r, q = .handleRead r → e = .read r := by
  revert h
  fun_cases Conn.start c e
  all_goals intro h; cases h
  all_goals refine ⟨rfl, _, rfl, fun r hr => ?_⟩
  all_goals try cases hr
  · rfl
  · rename_i f _ _
    cases f <;> cases hr

theorem Delivers.next {l : Label} (h : Delivers s) (hinv : Inv o s)
    (hcallback : o.messageCallback = true) (hC : ReadsEnabled s l)
    (hs : step o s l = some s') : Delivers s' := by
  have hon := hinv.onward (step_move hs)
  cases l with
  | call c =>
    obtain rfl : _ = s' := Option.some.inj hs
    exact { h with }
  | quit =>
    obtain rfl : _ = s' := Option.some.inj hs
    exact { h with }
  | remote i env =>
    simp only [step] at hs
    split at hs
    case h_2 => cases hs
    case h_1 op rest hi =>
      obtain ⟨r, hr, rfl⟩ := Option.map_eq_some_iff.mp hs
      have hop : op ∈ s.remotes.flatten :=
        List.mem_flatten_of_mem (List.mem_of_getElem? hi) (.head _)
      have hcore := (exec_crossThread hr (hinv.crossThread op hop)).1
      refine ⟨?_, ?_, h.tail, ?_⟩
      all_goals simp only [hcore.input, hcore.state]
      · exact h.closed
      · exact h.delivered
      · exact h.reading
  | event e =>
    simp only [step] at hs
    split at hs
    case isFalse => cases hs
    case isTrue hidle =>
      obtain ⟨r, hr, rfl⟩ := Option.map_eq_some_iff.mp hs
      obtain ⟨hinput, q, hnews, hread⟩ := start_reads hr
      have hstate := (start_same hr).1.state
      refine ⟨fun hclosed => ?_, ?_, ?_, fun n hn => ?_⟩
      · rw [hinput] at hclosed
        rw [hstate]
        refine (h.closed hclosed).imp_right fun hmem => ?_
        rw [hidle] at hmem
        cases hmem
      · rw [hinput, hstate]
        exact h.delivered
      · simp only [hnews]
        simp
      · rw [hinput, hstate]
        rw [hnews] at hn
        obtain rfl := hread _ (Option.some.inj hn)
        rcases hC with hzero | hinactive | henabled
        · exact .inl hzero
        · cases henabled : s.conn.input.readingEnabled with
          | true => exact .inr (.inl rfl)
          | false =>
            refine .inr (.inr ((h.closed ⟨hinactive, henabled⟩).resolve_right fun hmem => ?_))
            rw [hidle] at hmem
            cases hmem
        · exact .inr (.inl henabled)
  | own env =>
    simp only [step] at hs
    split at hs
    case h_2 => cases hs
    case h_1 op rest hop =>
      obtain ⟨r, hr, rfl⟩ := Option.map_eq_some_iff.mp hs
      exact h.own hcallback hop hr hon
  | ownCall c =>
    simp only [step] at hs
    split at hs <;> cases hs
    rename_i huser
    refine Delivers.of_none (fun hclosed => ?_) h.delivered fun q hq => ?_
    · exact (h.closed hclosed).imp_right fun hmem => List.mem_append_right _ hmem
    · rcases List.mem_append.mp hq with hq | hq
      · cases c <;> (obtain rfl := List.mem_singleton.mp hq; rfl)
      · exact h.user huser q hq
  | ownDestroy =>
    simp only [step] at hs
    split at hs <;> cases hs
    rename_i huser
    refine Delivers.of_none (fun hclosed => ?_) h.delivered fun q hq => ?_
    · exact (h.closed hclosed).imp_right fun hmem => .tail _ hmem
    · rcases List.mem_cons.mp hq with rfl | hq
      · rfl
      · exact h.user huser q hq
  | retrieve n =>
    simp only [step] at hs
    split at hs <;> cases hs
    exact { h with }
  | ret threw =>
    simp only [step] at hs
    split at hs <;> cases hs
    rename_i source rest hop
    have htail := h.tail
    rw [hop] at htail
    refine Delivers.of_none (fun hclosed => ?_) h.delivered fun q hq => ?_
    · refine (h.closed hclosed).imp_right fun hmem => List.mem_append_right _ ?_
      rw [hop] at hmem
      exact (List.mem_cons.mp hmem).resolve_left (by simp)
    · rcases List.mem_append.mp hq with hq | hq
      · have hnone : (source.next threw).all (fun q => !q.reads) = true := by
          cases source <;> cases threw <;> rfl
        simpa using List.all_eq_true.mp hnone q hq
      · exact htail q hq

theorem reach_delivers (hcallback : o.messageCallback = true)
    (h : Reach (· = {}) (step o) ReadsEnabled s) : Delivers s := by
  refine Reach.invariant_with (fun h => reach_inv h) ?_ ?_ h
  · rintro s rfl
    exact delivers_init
  · exact fun s l s' hinv h hC hs => h.next hinv hcallback hC hs

end

/-- In every run in which no captured read brings bytes while reading is paused: between events,
    on a connection that is not closed, every byte that was appended to the input buffer was in it
    when a message callback started. -/
theorem input_never_stranded (o : Options) (hcallback : o.messageCallback = true) (s : State)
    (h : Reach (· = {}) (step o) ReadsEnabled s) (hopen : s.conn.state ≠ .kDisconnected) :
    ∀ i < s.conn.input.received, i ∈ s.conn.input.offered :=
  (reach_delivers hcallback h).delivered.resolve_left hopen

/-- The socket does not take a send, which pauses reading. -/
def pausingSend : List Label :=
  [.event (.connectEstablished true), .own .nothing, .own .nothing, .ret false,
      .ownCall (.trySend [1, 2, 3, 4, 5])] ++ List.replicate 7 (.own .nothing) ++
    [.own (.budgets none), .own .nothing, .own (.write .wouldBlock), .own .nothing, .own .nothing]

/-- The output is written, which resumes reading. -/
def resumingWrite : List Label :=
  [.event (.write (.wrote 5)), .own .nothing, .own .nothing, .own .nothing, .own .nothing,
    .own (.post .accepted)]

/-- Two bytes arrive after reading was paused and resumed. -/
theorem input_never_stranded_two :
    ∃ s, Reach (· = {}) (step smallConnection) ReadsEnabled s ∧
      s.conn.input.received = 2 ∧ ∀ i < s.conn.input.received, i ∈ s.conn.input.offered := by
  obtain ⟨s, hr, hopen, hreceived⟩ := Reach.of_run (· = {}) (step smallConnection)
    ReadsEnabled (fun s => s.conn.state ≠ .kDisconnected ∧ s.conn.input.received = 2) {} rfl
    (pausingSend ++ resumingWrite ++ [.event (.read (.bytes 2)), .own .nothing]) (by decide +kernel)
  exact ⟨s, hr, hreceived, input_never_stranded smallConnection rfl s hr hopen⟩

/-- A read event that was captured before the pause brings two bytes, which no callback sees; then
    reading is resumed. -/
theorem captured_read_stranded :
    ∃ s, Reach (· = {}) (step smallConnection) Any s ∧ s.owner = [] ∧
      s.conn.state = .kConnected ∧ s.conn.input.readingEnabled = true ∧
      s.conn.input.received = 2 ∧ s.conn.input.offered = [] :=
  Reach.of_run _ _ _ _ {} rfl
    (pausingSend ++ [.event (.read (.bytes 2)), .own .nothing, .own .nothing] ++ resumingWrite)
    (by decide +kernel)

end GameNet.TcpConnection
