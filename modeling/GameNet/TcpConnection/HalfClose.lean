import GameNet.TcpConnection.Owner

/- The graceful half-close. When `shutdownInLoop` calls `shutdownWrite`, the count was
   found zero under the seal, so that no payload is reserved, queued or buffered any more:
   what was accepted has been taken up by the owner loop, and what was taken up has been
   written. -/
namespace GameNet.TcpConnection

open Stacks
open Machine (Reach Any)

/-! ## Payloads on their way -/

/-- The payload of a send that has not been taken up. -/
def Op.payload : Op → Option Payload
  | .sendCheckSealed p | .sendCheckGraceful p | .sendCheckForce p | .sendCheckConnected p
  | .reserveLoad p | .reserveOverload p _ | .reserveClear p | .reserveCas p _
  | .reserveBudgets p | .sendDispatch p | .sendFunctor p | .sendReserved p => some p
  | _ => none

def QueuedFunctor.payload : QueuedFunctor → Option Payload
  | .send p => some p
  | _ => none

/-- The payloads on the owner's queue. -/
def queued (fs : List QueuedFunctor) : List Payload := fs.filterMap QueuedFunctor.payload

def named (k : Nat) : Option Payload → Nat
  | some p => if p.id = k then 1 else 0
  | none => 0

/-- Whether an operation is one of the send `k`. -/
def Op.names (k : Nat) (q : Op) : Nat := named k q.payload

def QueuedFunctor.names (k : Nat) (f : QueuedFunctor) : Nat := named k f.payload

/-- How many of the queued functors and of the payloads taken up are the send `k`. -/
def Conn.names (k : Nat) (c : Conn) : Nat :=
  weight (QueuedFunctor.names k) c.functors + weight (fun p => named k (some p)) c.taken

/-- The operations of a send that was seen connected. -/
def Op.late : Op → Bool
  | .reserveLoad _ | .reserveOverload _ _ | .reserveClear _ | .reserveCas _ _
  | .reserveBudgets _ | .sendDispatch _ | .sendFunctor _ | .sendReserved _ => true
  | _ => false

/-- The operations that carry reserved bytes. -/
def Op.carries : Op → Bool
  | .reserveBudgets _ | .sendDispatch _ | .sendFunctor _ | .sendReserved _ => true
  | _ => false

/-- The operations that return Accepted from a send. -/
def Op.promises : Op → Bool
  | .retSend _ .accepted => true
  | _ => false

/-- The operations with which the owner takes up a payload. -/
def Op.takes : Op → Bool
  | .sendFunctor _ | .sendReserved _ => true
  | _ => false

/-- What one operation does to the payloads and to what is known of them. -/
structure Trace (c : Conn) (op : Op) (c' : Conn) (news : List Op) : Prop where
  ids : ∀ k, weight (Op.names k) news + c'.names k ≤
    op.names k + c.names k
  taken : c'.taken = c.taken ∨ ∃ p, op = .sendReserved p ∧ c'.taken = c.taken ++ [p]
  queue : queued c'.functors = queued c.functors ∧ c'.posted = c.posted ∨
    ∃ p, op = .sendDispatch p ∧ queued c'.functors = queued c.functors ++ [p] ∧
      c'.posted = c.posted ++ [p]
  functor : ∀ p, op = .sendFunctor p → news = [.sendReserved p] ∨
    (c.state ≠ .kConnected ∧ c.state ≠ .kDisconnecting)
  reserved : ∀ p, op = .sendReserved p → c'.taken = c.taken ++ [p] ∨ c.state = .kDisconnected
  accepted : ∀ p ∈ c'.accepted, p ∈ c.accepted ∨ op = .retSend p .accepted
  promised : ∀ p, .retSend p .accepted ∈ news → p.data = [] ∨ (op = .sendDispatch p ∧
    (.sendReserved p ∈ news ∨ p ∈ queued c'.functors))
  late : news.all (fun q => !q.late) = true ∨ op.late = true ∨ c.state = .kConnected
  sealed : isSealed c.pendingOutputBytes = true → op.carries = false →
    c'.reserved = c.reserved ∧ news.all (fun q => !q.carries) = true
  halves : c'.halfCloses = c.halfCloses ∨ (op = .shutdownWrite ∧ c'.halfCloses =
    { c with } :: c.halfCloses ∧ c'.reserved = c.reserved)

section
variable {o : Options} {c c' : Conn} {caller : Caller} {op : Op} {env : Env} {news : List Op}

theorem trace_plain (hop : op.takes = false) (htaken : c'.taken = c.taken)
    (hfun : c'.functors = c.functors) (hposted : c'.posted = c.posted)
    (haccepted : c'.accepted = c.accepted) (hreserved : c'.reserved = c.reserved)
    (hhalves : c'.halfCloses = c.halfCloses)
    (hids : ∀ k, weight (Op.names k) news ≤ op.names k)
    (hpromised : ∀ p, .retSend p .accepted ∈ news → p.data = [] ∨
      (op = .sendDispatch p ∧ .sendReserved p ∈ news))
    (hlate : news.all (fun q => !q.late) = true ∨ op.late = true ∨ c.state = .kConnected)
    (hcarries : news.all (fun q => !q.carries) = true ∨ op.carries = true) :
    Trace c op c' news where
  ids k := by
    have := hids k
    simp only [Conn.names, htaken, hfun]
    omega
  taken := .inl htaken
  queue := .inl ⟨by rw [hfun], hposted⟩
  functor p h := by subst h; cases hop
  reserved p h := by subst h; cases hop
  accepted p hp := .inl (haccepted ▸ hp)
  promised p hp := (hpromised p hp).imp_right fun h => ⟨h.1, .inl h.2⟩
  late := hlate
  sealed _ hc := ⟨hreserved, hcarries.resolve_right (by simp [hc])⟩
  halves := .inl hhalves

/-- Operations without a payload that promise nothing. -/
def Op.idle (q : Op) : Bool := q.payload.isNone && !q.promises

theorem late_of_payload {q : Op} (h : q.payload = none) :
    q.late = false ∧ q.carries = false := by
  cases q <;> first | exact ⟨rfl, rfl⟩ | cases h

theorem idle_ids {l : List Op} (h : l.all Op.idle = true) (k : Nat) :
    weight (Op.names k) l = 0 := by
  induction l with
  | nil => rfl
  | cons q l ih =>
    simp only [List.all_cons, Bool.and_eq_true, Op.idle, Option.isNone_iff_eq_none] at h
    rw [weight_cons, ih (by simpa [Op.idle] using h.2), Op.names, h.1.1]
    rfl

theorem idle_spec (h : news.all Op.idle = true) :
    (∀ p, .retSend p .accepted ∉ news) ∧ news.all (fun q => !q.late) = true ∧
      news.all (fun q => !q.carries) = true := by
  have hidle : ∀ q ∈ news, q.payload = none ∧ q.promises = false := fun q hq => by
    simpa [Op.idle] using List.all_eq_true.mp h q hq
  refine ⟨(fun p hp => by cases (hidle _ hp).2), ?_, ?_⟩
  all_goals refine List.all_eq_true.mpr fun q hq => ?_
  · simp [(late_of_payload (hidle q hq).1).1]
  · simp [(late_of_payload (hidle q hq).1).2]

theorem trace_idle (hop : op.takes = false) (htaken : c'.taken = c.taken)
    (hfun : c'.functors = c.functors) (hposted : c'.posted = c.posted)
    (haccepted : c'.accepted = c.accepted) (hreserved : c'.reserved = c.reserved)
    (hhalves : c'.halfCloses = c.halfCloses) (hnews : news.all Op.idle = true) :
    Trace c op c' news := by
  obtain ⟨hpromised, hlate, hcarries⟩ := idle_spec hnews
  exact trace_plain hop htaken hfun hposted haccepted hreserved hhalves
    (fun k => (idle_ids hnews k).symm ▸ Nat.zero_le _) (fun p hp => absurd hp (hpromised p))
    (.inl hlate) (.inl hcarries)

/-- A notification is no payload. -/
theorem trace_notification (hop : op.takes = false) {f : QueuedFunctor} (hf : f.payload = none)
    (r : PostResult) : Trace c op (c.queueNotification f r) [] := by
  have hqueued : queued (c.queueNotification f r).functors = queued c.functors := by
    unfold Conn.queueNotification queued
    split <;> simp [hf]
  refine { trace_idle hop rfl rfl rfl rfl rfl rfl rfl with
    ids := fun k => ?_, queue := .inl ⟨hqueued, rfl⟩, promised := fun p hp => by cases hp }
  have hnames : (c.queueNotification f r).names k = c.names k := by
    unfold Conn.names Conn.queueNotification
    split <;> simp [QueuedFunctor.names, hf, named]
  simp [hnames]

/-- The owner takes up a payload. -/
theorem trace_take {p : Payload} (htaken : c'.taken = c.taken ++ [p])
    (hfun : c'.functors = c.functors) (hposted : c'.posted = c.posted)
    (haccepted : c'.accepted = c.accepted) (hhalves : c'.halfCloses = c.halfCloses)
    (hnews : news.all Op.idle = true) : Trace c (.sendReserved p) c' news := by
  obtain ⟨hpromised, hlate, -⟩ := idle_spec hnews
  refine ⟨fun k => ?_, .inr ⟨p, rfl, htaken⟩, .inl ⟨by rw [hfun], hposted⟩, nofun, ?_,
    fun q hq => .inl (haccepted ▸ hq), fun q hq => absurd hq (hpromised q), .inl hlate, nofun,
    .inl hhalves⟩
  · rw [idle_ids hnews]
    simp only [Conn.names, htaken, hfun, weight_append, weight_cons, weight_nil, Op.names,
      Op.payload]
    omega
  · intro q hq
    cases hq
    exact .inl htaken

theorem reserveLoop_trace (p : Payload) (current : Nat) :
    Trace c (.reserveOverload p current) c (reserveLoop o c p current) := by
  unfold reserveLoop
  split_ifs
  all_goals first
    | exact trace_idle rfl rfl rfl rfl rfl rfl rfl rfl
    | exact trace_plain rfl rfl rfl rfl rfl rfl rfl (fun _ => le_refl _) (fun p hp => by simp at hp)
        (.inr (.inl rfl)) (.inl rfl)

theorem releaseOps_idle (n : Nat) : (releaseOps n).all Op.idle = true := by
  unfold releaseOps
  split <;> rfl

theorem execSend_trace (h : execSend o c caller op env = some (c', news))
    (hop : op.sound o = true) : Trace c op c' news := by
  revert h
  fun_cases execSend o c caller op env
  all_goals intro h; cases h
  all_goals try exact trace_idle rfl rfl rfl rfl rfl rfl rfl rfl
  -- a send that goes on
  all_goals try
    refine trace_plain rfl rfl rfl rfl rfl rfl rfl (fun _ => le_refl _) ?_ ?_ ?_ <;>
      first
        | (intro p hp; simp at hp; done)
        | exact .inl rfl
        | exact .inr (.inl rfl)
        | exact .inr rfl
  -- `sendCheckConnected` accepts an empty payload and goes on with any other
  · rename_i hempty
    refine trace_plain rfl rfl rfl rfl rfl rfl rfl (fun _ => Nat.zero_le _) ?_ (.inl rfl) (.inl rfl)
    rintro p hp
    obtain rfl : p = _ := by simpa using hp
    exact .inl hempty
  · rename_i hconnected _
    exact trace_plain rfl rfl rfl rfl rfl rfl rfl (fun _ => le_refl _) (fun p hp => by simp at hp)
      (.inr (.inr (not_not.mp hconnected))) (.inl rfl)
  · exact reserveLoop_trace _ _
  -- a reservation needs the word without the seal
  · rename_i p
    obtain ⟨-, hle⟩ : p.data ≠ [] ∧ c.pendingOutputBytes + p.data.length ≤ o.outputLimit := by
      simpa [Op.sound] using hop
    have hopen : isSealed c.pendingOutputBytes = false :=
      isSealed_of_lt (by have := o.outputLimit_lt; omega)
    refine ⟨fun _ => le_refl _, .inl rfl, .inl ⟨rfl, rfl⟩, by simp, by simp, fun _ h => .inl h,
      fun p hp => by simp at hp, .inr (.inl rfl), fun hs => ?_, .inl rfl⟩
    rw [hopen] at hs
    cases hs
  -- the upper budgets refuse
  · rename_i p r hr
    refine trace_idle rfl rfl rfl rfl rfl rfl rfl ?_
    rcases hr with rfl | rfl | rfl <;> rfl
  -- a direct send
  · refine trace_plain rfl rfl rfl rfl rfl rfl rfl (fun _ => le_refl _) ?_ (.inr (.inl rfl))
      (.inr rfl)
    rintro p hp
    obtain rfl : p = _ := by simpa using hp
    exact .inr ⟨rfl, by simp⟩
  -- the owner's queue refuses or takes the payload
  · rename_i p r _ hr
    refine trace_idle rfl rfl rfl rfl rfl rfl rfl ?_
    cases r <;> first | rfl | exact absurd rfl hr
  · rename_i p r _ _ _
    have hqueued : queued (c.functors ++ [.send p]) = queued c.functors ++ [p] := by
      simp [queued, QueuedFunctor.payload]
    refine ⟨fun k => ?_, .inl rfl, .inr ⟨p, rfl, hqueued, rfl⟩, by simp, by simp, fun _ h => .inl h,
      ?_, .inl rfl, fun _ => by rintro ⟨⟩, .inl rfl⟩
    · simp only [Conn.names, weight_append, weight_cons, weight_nil, Op.names, Op.payload,
        QueuedFunctor.names, QueuedFunctor.payload, named]
      omega
    · rintro q hq
      obtain rfl : q = p := by simpa using hq
      exact .inr ⟨rfl, .inr (by simp [hqueued])⟩
  -- `trySend` returns
  · rename_i p r
    refine { trace_idle rfl rfl rfl rfl rfl rfl rfl rfl with accepted := fun q hq => ?_ }
    by_cases hr : r = .accepted
    case neg => exact .inl (by simpa [hr] using hq)
    rw [if_pos hr] at hq
    rcases List.mem_cons.mp hq with rfl | hq
    · exact .inr (by rw [hr])
    · exact .inl hq

theorem execOutput_trace (h : execOutput o c op env = some (c', news)) : Trace c op c' news := by
  revert h
  fun_cases execOutput o c op env
  all_goals intro h; cases h
  all_goals try exact trace_idle rfl rfl rfl rfl rfl rfl rfl rfl
  -- the queued functor
  · refine ⟨fun _ => le_refl _, .inl rfl, .inl ⟨rfl, rfl⟩, ?_, by simp, fun _ h => .inl h,
      fun p hp => by simp at hp, .inr (.inl rfl), fun _ => by rintro ⟨⟩, .inl rfl⟩
    intro q hq
    cases hq
    exact .inl rfl
  · rename_i hstate
    refine ⟨fun _ => ?_, .inl rfl, .inl ⟨rfl, rfl⟩, ?_, by simp, fun _ h => .inl h,
      fun p hp => by simp at hp, .inr (.inl rfl), fun _ => by rintro ⟨⟩, .inl rfl⟩
    · rw [idle_ids rfl]
      omega
    · exact fun _ _ => .inr (not_or.mp hstate)
  · rename_i hstate
    refine ⟨fun _ => ?_, .inl rfl, .inl ⟨rfl, rfl⟩, by simp, fun _ _ => .inr hstate,
      fun _ h => .inl h, fun p hp => by simp at hp, .inr (.inl rfl), fun _ => by rintro ⟨⟩, .inl rfl⟩
    rw [idle_ids rfl]
    omega
  -- `sendReservedInLoop`
  · exact trace_take rfl rfl rfl rfl rfl rfl
  · refine trace_take rfl rfl rfl rfl rfl ?_
    rw [List.all_append, releaseOps_idle]
    split <;> rfl
  · exact trace_take rfl rfl rfl rfl rfl rfl
  · exact trace_take rfl rfl rfl rfl rfl rfl
  · refine trace_idle rfl rfl rfl rfl rfl rfl rfl ?_
    split <;> rfl
  · exact trace_notification rfl rfl _
  · exact trace_notification rfl rfl _
  · refine trace_idle rfl rfl rfl rfl rfl rfl rfl ?_
    split <;> split <;> rfl
  · refine trace_idle rfl rfl rfl rfl rfl rfl rfl ?_
    split <;> rfl

theorem execRequest_trace (h : execRequest c caller op env = some (c', news)) :
    Trace c op c' news := by
  revert h
  fun_cases execRequest c caller op env
  all_goals intro h; cases h
  all_goals try exact trace_idle rfl rfl rfl rfl rfl rfl rfl rfl
  · exact trace_idle rfl rfl rfl rfl rfl rfl rfl (by cases caller <;> rfl)
  · exact trace_idle rfl rfl rfl rfl rfl rfl rfl (by cases caller <;> rfl)
  -- `shutdownWrite`
  · have hplain : Trace c .shutdownWrite c [.clearGraceful] :=
      trace_idle rfl rfl rfl rfl rfl rfl rfl rfl
    exact { hplain with halves := .inr ⟨rfl, rfl, rfl⟩ }

theorem execOwner_trace (h : execOwner o c op env = some (c', news)) : Trace c op c' news := by
  revert h
  fun_cases execOwner o c op env
  all_goals intro h; cases h
  all_goals try exact trace_idle rfl rfl rfl rfl rfl rfl rfl rfl
  all_goals
    refine trace_idle rfl rfl rfl rfl rfl rfl rfl ?_
    rw [List.all_append, releaseOps_idle]
    rfl

theorem exec_trace (h : exec o c caller op env = some (c', news)) (hop : op.sound o = true) :
    Trace c op c' news := by
  rcases exec_cases h with h | h | h | h
  · exact execSend_trace h hop
  · exact execOutput_trace h
  · exact execRequest_trace h
  · exact execOwner_trace h

end

/-! ## Where the accepted payloads are -/

/-- The payload has been taken up or is still on its way, or the connection has ended. -/
def Carried (c : Conn) (ops : List Op) (p : Payload) : Prop :=
  p ∈ c.taken ∨ p ∈ queued c.functors ∨ .sendFunctor p ∈ ops ∨ .sendReserved p ∈ ops ∨
    c.state = .kDisconnected

/-- The send has returned Accepted or is about to. -/
def Promised (c : Conn) (ops : List Op) (p : Payload) : Prop :=
  p.data ≠ [] ∧ (p ∈ c.accepted ∨ .retSend p .accepted ∈ ops)

/-- Nothing is on its way under the seal. -/
structure Quiet (c : Conn) (ops : List Op) : Prop where
  sealed : isSealed c.pendingOutputBytes = true
  carries : ∀ q ∈ ops, q.carries = false
  queue : queued c.functors = []
  promised : ∀ p, Promised c ops p → p ∈ c.taken

/-- What is known of the payloads, over the operations of all threads; `n` payloads were named. -/
structure Trail (n : Nat) (c : Conn) (ops : List Op) : Prop where
  ids : ∀ k, weight (Op.names k) ops + c.names k ≤ if k < n then 1 else 0
  late : (∃ q ∈ ops, q.late = true) ∨ queued c.functors ≠ [] → c.state ≠ .kConnecting
  promised : ∀ p, Promised c ops p → Carried c ops p
  quiet : c.halfCloses ≠ [] → Quiet c ops
  halves : ∀ half ∈ c.halfCloses, half.taken = c.taken ∧ half.reserved = c.reserved ∧
    half.written = (half.taken.map Payload.data).flatten ∧ half.posted.Sublist half.taken

/-- What `shutdownWrite` finds. -/
structure Drained (c : Conn) (ops : List Op) : Prop extends Quiet c ops where
  written : c.written = (c.taken.map Payload.data).flatten
  posted : c.posted.Sublist c.taken

section
variable {o : Options} {c c' : Conn} {caller : Caller} {op : Op} {env : Env} {news R : List Op}
  {n : Nat}

/-- A promise stays kept while the operation executes. -/
theorem Carried.exec {p : Payload} (h : Carried c (op :: R) p) (ht : Trace c op c' news)
    (hlate : op.late = true → c.state ≠ .kConnecting) (hon : Onward c.state c'.state) :
    Carried c' (news ++ R) p := by
  have htaken : p ∈ c.taken → p ∈ c'.taken := by
    intro hp
    rcases ht.taken with h | ⟨q, -, h⟩ <;> simp [h, hp]
  rcases h with h | h | h | h | h
  · exact .inl (htaken h)
  · right; left
    rcases ht.queue with ⟨hq, -⟩ | ⟨q, -, hq, -⟩ <;> simp [hq, h]
  · rcases List.mem_cons.mp h with rfl | h
    · rcases ht.functor p rfl with hnews | ⟨h1, h2⟩
      · exact .inr (.inr (.inr (.inl (by simp [hnews]))))
      · -- neither connected nor disconnecting, and connected before
        refine .inr (.inr (.inr (.inr (hon.1 ?_))))
        have h3 := hlate rfl
        cases hstate : c.state <;> simp_all
    · exact .inr (.inr (.inl (List.mem_append_right news h)))
  · rcases List.mem_cons.mp h with rfl | h
    · rcases ht.reserved p rfl with hp | hd
      · exact .inl (by simp [hp])
      · exact .inr (.inr (.inr (.inr (hon.1 hd))))
    · exact .inr (.inr (.inr (.inl (List.mem_append_right news h))))
  · exact .inr (.inr (.inr (.inr (hon.1 h))))

/-- What is promised after the operation was promised before, or is promised now. -/
theorem Promised.exec {p : Payload} (h : Promised c' (news ++ R) p) (ht : Trace c op c' news) :
    Promised c (op :: R) p ∨ (op = .sendDispatch p ∧
      (.sendReserved p ∈ news ∨ p ∈ queued c'.functors)) := by
  obtain ⟨hp, h | h⟩ := h
  · rcases ht.accepted p h with h | rfl
    · exact .inl ⟨hp, .inl h⟩
    · exact .inl ⟨hp, .inr (by simp)⟩
  · rcases List.mem_append.mp h with h | h
    · exact (ht.promised p h).elim (absurd · hp) .inr
    · exact .inl ⟨hp, .inr (.tail _ h)⟩

theorem Quiet.exec (h : Quiet c (op :: R)) (ht : Trace c op c' news)
    (hseal : isSealed c'.pendingOutputBytes = true) :
    Quiet c' (news ++ R) ∧ c'.taken = c.taken ∧ c'.reserved = c.reserved := by
  have hop := h.carries op (by simp)
  obtain ⟨hreserved, hnews⟩ := ht.sealed h.sealed hop
  have htaken : c'.taken = c.taken := by
    rcases ht.taken with h | ⟨p, rfl, -⟩
    · exact h
    · cases hop
  refine ⟨⟨hseal, ?_, ?_, ?_⟩, htaken, hreserved⟩
  · intro q hq
    rcases List.mem_append.mp hq with hq | hq
    · simpa using List.all_eq_true.mp hnews q hq
    · exact h.carries q (.tail _ hq)
  · rcases ht.queue with ⟨hq, -⟩ | ⟨p, rfl, -⟩
    · rw [hq, h.queue]
    · cases hop
  · intro p hp
    rw [htaken]
    rcases hp.exec ht with hp | ⟨rfl, -⟩
    · exact h.promised p hp
    · cases hop

theorem Trail.exec (h : Trail n c (op :: R)) (ht : Trace c op c' news)
    (hon : Onward c.state c'.state)
    (hseal : isSealed c.pendingOutputBytes = true → isSealed c'.pendingOutputBytes = true)
    (hhalf : op = .shutdownWrite → Drained c (op :: R)) : Trail n c' (news ++ R) := by
  have hlate : op.late = true → c.state ≠ .kConnecting := fun hop =>
    h.late (.inl ⟨op, by simp, hop⟩)
  refine ⟨fun k => ?_, ?_, ?_, ?_, ?_⟩
  · have h1 := h.ids k
    have h2 := ht.ids k
    rw [weight_cons] at h1
    rw [weight_append]
    omega
  · rintro (⟨q, hq, hql⟩ | hq)
    · rcases List.mem_append.mp hq with hq | hq
      · rcases ht.late with hnone | hop | hstate
        · have := List.all_eq_true.mp hnone q hq
          simp [hql] at this
        · exact hon.2 (hlate hop)
        · exact hon.2 (by rw [hstate]; exact nofun)
      · exact hon.2 (h.late (.inl ⟨q, .tail _ hq, hql⟩))
    · rcases ht.queue with ⟨hqueue, -⟩ | ⟨p, rfl, -⟩
      · exact hon.2 (h.late (.inr (hqueue ▸ hq)))
      · exact hon.2 (hlate rfl)
  · intro p hp
    rcases hp.exec ht with hp | ⟨-, hp | hp⟩
    · exact (h.promised p hp).exec ht hlate hon
    · exact .inr (.inr (.inr (.inl (List.mem_append_left R hp))))
    · exact .inr (.inl hp)
  · intro hne
    have hquiet : Quiet c (op :: R) := by
      rcases ht.halves with hh | ⟨hop, -⟩
      · exact h.quiet (hh ▸ hne)
      · exact (hhalf hop).toQuiet
    exact (hquiet.exec ht (hseal hquiet.sealed)).1
  · intro half hmem
    rcases ht.halves with hh | ⟨hop, hh, -⟩
    · rw [hh] at hmem
      have hquiet := h.quiet (List.ne_nil_of_mem hmem)
      obtain ⟨-, htaken, hreserved⟩ := hquiet.exec ht (hseal hquiet.sealed)
      rw [htaken, hreserved]
      exact h.halves half hmem
    · have hdrained := hhalf hop
      obtain ⟨-, htaken, hreserved⟩ := hdrained.toQuiet.exec ht (hseal hdrained.sealed)
      rw [htaken, hreserved]
      rw [hh] at hmem
      rcases List.mem_cons.mp hmem with rfl | hmem
      · exact ⟨rfl, rfl, hdrained.written, hdrained.posted⟩
      · exact h.halves half hmem

/-- Operations without a payload come and go. -/
theorem Trail.swap {olds : List Op} (h : Trail n c (olds ++ R)) (holds : olds.all Op.idle = true)
    (hnews : news.all Op.idle = true) : Trail n c (news ++ R) := by
  obtain ⟨hpromised, hlate, hcarries⟩ := idle_spec hnews
  have hsub : ∀ q ∈ R, q ∈ olds ++ R := fun q hq => List.mem_append_right olds hq
  have hpromise (p : Payload) (hp : Promised c (news ++ R) p) : Promised c (olds ++ R) p := by
    refine ⟨hp.1, hp.2.imp_right fun hmem => ?_⟩
    rcases List.mem_append.mp hmem with hmem | hmem
    · exact absurd hmem (hpromised p)
    · exact hsub _ hmem
  have hcarried (p : Payload) (hp : Carried c (olds ++ R) p) : Carried c (news ++ R) p := by
    have hnone (q : Op) (hq : q.payload = some p) : q ∈ olds ++ R → q ∈ news ++ R := by
      intro hmem
      rcases List.mem_append.mp hmem with hmem | hmem
      · have := List.all_eq_true.mp holds q hmem
        simp [Op.idle, hq] at this
      · exact List.mem_append_right news hmem
    rcases hp with hp | hp | hp | hp | hp
    · exact .inl hp
    · exact .inr (.inl hp)
    · exact .inr (.inr (.inl (hnone _ rfl hp)))
    · exact .inr (.inr (.inr (.inl (hnone _ rfl hp))))
    · exact .inr (.inr (.inr (.inr hp)))
  refine ⟨fun k => ?_, ?_, fun p hp => hcarried p (h.promised p (hpromise p hp)), ?_, h.halves⟩
  · have := h.ids k
    rw [weight_append, idle_ids holds] at this
    rwa [weight_append, idle_ids hnews]
  · rintro (⟨q, hq, hql⟩ | hq)
    · rcases List.mem_append.mp hq with hq | hq
      · have := List.all_eq_true.mp hlate q hq
        simp [hql] at this
      · exact h.late (.inl ⟨q, hsub q hq, hql⟩)
    · exact h.late (.inr hq)
  · intro hne
    have hq := h.quiet hne
    refine ⟨hq.sealed, fun q hmem => ?_, hq.queue, fun p hp => hq.promised p (hpromise p hp)⟩
    rcases List.mem_append.mp hmem with hmem | hmem
    · simpa using List.all_eq_true.mp hcarries q hmem
    · exact hq.carries q (hsub q hmem)

/-- A new send has a new name. -/
theorem Trail.send (h : Trail n c R) (data : List UInt8) :
    Trail (n + 1) c (.sendCheckSealed ⟨n, data⟩ :: R) := by
  have hpromise (p : Payload) (hp : Promised c (.sendCheckSealed ⟨n, data⟩ :: R) p) :
      Promised c R p := by
    refine ⟨hp.1, hp.2.imp_right fun hmem => ?_⟩
    rcases List.mem_cons.mp hmem with heq | hmem
    · cases heq
    · exact hmem
  refine ⟨fun k => ?_, ?_, fun p hp => ?_, fun hne => ?_, h.halves⟩
  · have := h.ids k
    rw [weight_cons]
    simp only [Op.names, Op.payload, named]
    split at this <;> split <;> split <;> omega
  · rintro (⟨q, hq, hql⟩ | hq)
    · rcases List.mem_cons.mp hq with rfl | hq
      · cases hql
      · exact h.late (.inl ⟨q, hq, hql⟩)
    · exact h.late (.inr hq)
  · rcases h.promised p (hpromise p hp) with hp | hp | hp | hp | hp
    · exact .inl hp
    · exact .inr (.inl hp)
    · exact .inr (.inr (.inl (.tail _ hp)))
    · exact .inr (.inr (.inr (.inl (.tail _ hp))))
    · exact .inr (.inr (.inr (.inr hp)))
  · have hq := h.quiet hne
    refine ⟨hq.sealed, fun q hmem => ?_, hq.queue, fun p hp => hq.promised p (hpromise p hp)⟩
    rcases List.mem_cons.mp hmem with rfl | hmem
    · rfl
    · exact hq.carries q hmem

/-- The owner takes a payload from its queue. -/
theorem Trail.functor {p : Payload} {rest : List QueuedFunctor} (h : Trail n c R)
    (hfun : c.functors = .send p :: rest) :
    Trail n { c with functors := rest } (.sendFunctor p :: R) := by
  have hqueued : queued c.functors = p :: queued rest := by rw [hfun]; rfl
  have hlate : c.state ≠ .kConnecting := h.late (.inr (by simp [hqueued]))
  -- there was no half-close yet: a payload is on the queue
  have hopen : c.halfCloses = [] := by
    by_contra hne
    have := (h.quiet hne).queue
    simp [hqueued] at this
  refine ⟨fun k => ?_, fun _ => hlate, fun q hq => ?_, fun hne => absurd hopen hne, h.halves⟩
  · have := h.ids k
    rw [weight_cons]
    have hp : QueuedFunctor.names k (.send p) = Op.names k (.sendFunctor p) := rfl
    simp only [Conn.names, hfun, weight_cons] at this ⊢
    omega
  · have hq' : Promised c R q := by
      refine ⟨hq.1, hq.2.imp_right fun hmem => ?_⟩
      rcases List.mem_cons.mp hmem with heq | hmem
      · cases heq
      · exact hmem
    rcases h.promised q hq' with hp | hp | hp | hp | hp
    · exact .inl hp
    · rw [hqueued] at hp
      rcases List.mem_cons.mp hp with rfl | hp
      · exact .inr (.inr (.inl (.head _)))
      · exact .inr (.inl hp)
    · exact .inr (.inr (.inl (.tail _ hp)))
    · exact .inr (.inr (.inr (.inl (.tail _ hp))))
    · exact .inr (.inr (.inr (.inr hp)))

/-- The owner takes a notification from its queue. -/
theorem Trail.notification {f : QueuedFunctor} {rest : List QueuedFunctor} (h : Trail n c R)
    (hfun : c.functors = f :: rest) (hf : f.payload = none) :
    Trail n { c with functors := rest } R := by
  have hqueued : queued c.functors = queued rest := by rw [hfun]; simp [queued, hf]
  refine ⟨fun k => ?_, fun hlate => h.late (hqueued ▸ hlate), fun p hp => ?_, fun hne => ?_,
    h.halves⟩
  · have := h.ids k
    simp only [Conn.names, hfun, weight_cons] at this ⊢
    omega
  · have := h.promised p hp
    unfold Carried at this ⊢
    rwa [hqueued] at this
  · have hq := h.quiet hne
    exact ⟨hq.sealed, hq.carries, hqueued ▸ hq.queue, hq.promised⟩

/-- Nothing that a payload depends on has changed. -/
theorem Trail.same (h : Trail n c R) (htaken : c'.taken = c.taken)
    (hfun : c'.functors = c.functors) (haccepted : c'.accepted = c.accepted)
    (hreserved : c'.reserved = c.reserved) (hhalves : c'.halfCloses = c.halfCloses)
    (hstate : c'.state = c.state) (hword : c'.pendingOutputBytes = c.pendingOutputBytes) :
    Trail n c' R := by
  have hpromise (p : Payload) : Promised c' R p ↔ Promised c R p := by
    unfold Promised
    rw [haccepted]
  refine ⟨fun k => ?_, ?_, fun p hp => ?_, fun hne => ?_, ?_⟩
  · rw [Conn.names, htaken, hfun]
    exact h.ids k
  · rw [hfun, hstate]
    exact h.late
  · unfold Carried
    rw [htaken, hfun, hstate]
    exact h.promised p ((hpromise p).mp hp)
  · have hq := h.quiet (hhalves ▸ hne)
    refine ⟨hword ▸ hq.sealed, hq.carries, hfun ▸ hq.queue, fun p hp => ?_⟩
    rw [htaken]
    exact hq.promised p ((hpromise p).mp hp)
  · rw [hhalves, htaken, hreserved]
    exact h.halves

theorem Trail.succ (h : Trail n c R) : Trail (n + 1) c R := by
  refine ⟨fun k => ?_, h.late, h.promised, h.quiet, h.halves⟩
  have := h.ids k
  split at this <;> split <;> omega

theorem next_idle (source : CallbackSource) (threw : Bool) :
    (source.next threw).all Op.idle = true := by
  cases source <;> cases threw <;> rfl

theorem start_trail {e : Event} (hs : c.start e = some (c', news)) (h : Trail n c R) :
    Trail n c' (news ++ R) := by
  have hpush (l : List Op) (hl : l.all Op.idle = true) : Trail n c (l ++ R) := by
    have h0 : Trail n c ([] ++ R) := h
    exact h0.swap rfl hl
  revert hs
  fun_cases Conn.start c e
  all_goals intro hs; cases hs
  all_goals try exact hpush _ rfl
  · have h1 := hpush [.driveForce] rfl
    exact h1.same rfl rfl rfl rfl rfl rfl rfl
  · rename_i f rest hfun
    cases f with
    | send p => exact h.functor hfun
    | writeComplete =>
      have h1 : Trail n _ ([] ++ R) := h.notification hfun rfl
      exact h1.swap rfl rfl
    | highWaterMark =>
      have h1 : Trail n _ ([] ++ R) := h.notification hfun rfl
      exact h1.swap rfl rfl

theorem Act.trail {n' : Nat} {olds : List Op} (ha : Act o caller n c olds n' c' news)
    (h : Trail n c (olds ++ R)) (hsound : olds.all (Op.sound o) = true)
    (hon : Onward c.state c'.state)
    (hseal : isSealed c.pendingOutputBytes = true → isSealed c'.pendingOutputBytes = true)
    (hhalf : .shutdownWrite ∈ olds → Drained c (olds ++ R)) : Trail n' c' (news ++ R) := by
  cases ha with
  | exec ha =>
    exact h.exec (exec_trace ha (by simpa using hsound)) hon hseal
      (fun hop => hhalf (by simp [hop]))
  | call _ _ _ k =>
    cases k with
    | trySend data => exact h.send data
    | tryShutdown => exact (h.swap rfl rfl).succ
    | tryForceClose => exact (h.swap rfl rfl).succ
  | destroy => exact h.swap rfl rfl
  | start ha => exact start_trail ha h
  | ret _ _ source threw => exact h.swap rfl (next_idle source threw)
  | retrieve => exact h.same rfl rfl rfl rfl rfl rfl rfl
  | quit => exact h.same rfl rfl rfl rfl rfl rfl rfl

end

/-! ## The order of the queue -/

/-- The queued payload that the owner is about to take up. -/
def InFlight (a : Option Op) (i : List Payload) : Prop :=
  i = [] ∨ ∃ p, i = [p] ∧ (a = some (.sendFunctor p) ∨ a = some (.sendReserved p))

/-- What other threads have queued is taken up in the order of the queue. -/
def Ordered (c : Conn) (a : Option Op) : Prop :=
  c.state = .kDisconnected ∨ ∃ t i, t.Sublist c.taken ∧ InFlight a i ∧
    c.posted = t ++ i ++ queued c.functors

section
variable {o : Options} {c c' : Conn} {caller : Caller} {op : Op} {env : Env} {news : List Op}
  {a a' : Option Op}

theorem inFlight_nil {i : List Payload} (h : InFlight a i)
    (ha : ∀ p, a ≠ some (.sendFunctor p) ∧ a ≠ some (.sendReserved p)) : i = [] := by
  rcases h with h | ⟨p, -, h | h⟩
  · exact h
  · exact absurd h (ha p).1
  · exact absurd h (ha p).2

/-- An operation that takes up nothing. -/
theorem Ordered.keep (h : Ordered c a) (ht : Trace c op c' news) (hop : op.takes = false)
    (hon : Onward c.state c'.state) (ha : ∀ i, InFlight a i → InFlight a' i) : Ordered c' a' := by
  rcases h with h | ⟨t, i, hsub, hi, hposted⟩
  · exact .inl (hon.1 h)
  have htaken : c'.taken = c.taken := by
    rcases ht.taken with h | ⟨p, rfl, -⟩
    · exact h
    · cases hop
  refine .inr ⟨t, i, htaken ▸ hsub, ha i hi, ?_⟩
  rcases ht.queue with ⟨hq, hp⟩ | ⟨p, -, hq, hp⟩
  · rw [hp, hq, hposted]
  · rw [hp, hq, hposted, List.append_assoc]

/-- The operation at work. -/
theorem Ordered.exec {rest : List Op} (h : Ordered c (some op)) (ht : Trace c op c' news)
    (hon : Onward c.state c'.state) (hlate : op.late = true → c.state ≠ .kConnecting) :
    Ordered c' (active (news ++ rest)) := by
  cases hop : op.takes with
  | false =>
    refine h.keep ht hop hon fun i hi => .inl (inFlight_nil hi fun p => ?_)
    constructor
    all_goals
      intro heq
      cases heq
      cases hop
  | true =>
    rcases h with h | ⟨t, i, hsub, hi, hposted⟩
    · exact .inl (hon.1 h)
    have hqueue : queued c'.functors = queued c.functors ∧ c'.posted = c.posted := by
      rcases ht.queue with h | ⟨p, rfl, -⟩
      · exact h
      · cases hop
    cases op
    case sendFunctor p =>
      rcases ht.functor p rfl with hnews | ⟨h1, h2⟩
      · have htaken : c'.taken = c.taken := by
          rcases ht.taken with h | ⟨q, h, -⟩
          · exact h
          · cases h
        refine .inr ⟨t, i, htaken ▸ hsub, ?_, by rw [hqueue.1, hqueue.2, hposted]⟩
        rcases hi with hi | ⟨q, hi, heq | heq⟩
        · exact .inl hi
        · cases heq
          exact .inr ⟨p, hi, .inr (by rw [hnews]; rfl)⟩
        · cases heq
      · refine .inl (hon.1 ?_)
        have h3 := hlate rfl
        cases hstate : c.state <;> simp_all
    case sendReserved p =>
      rcases ht.reserved p rfl with htaken | hd
      · rcases hi with rfl | ⟨q, rfl, heq | heq⟩
        · refine .inr ⟨t, [], ?_, .inl rfl, by rw [hqueue.1, hqueue.2, hposted]⟩
          rw [htaken]
          exact hsub.trans (List.sublist_append_left _ _)
        · cases heq
        · cases heq
          refine .inr ⟨t ++ [p], [], ?_, .inl rfl, ?_⟩
          · rw [htaken]
            exact hsub.append (List.Sublist.refl _)
          · rw [hqueue.1, hqueue.2, hposted, List.append_nil]
      · exact .inl (hon.1 hd)
    all_goals cases hop

/-- Where user code runs, no queued payload is being taken up. -/
theorem Ordered.user {l : List Op} (h : Ordered c (active l)) (hl : userRuns l = true) :
    c.state = .kDisconnected ∨ ∃ t, t.Sublist c.taken ∧ c.posted = t ++ queued c.functors := by
  rcases h with h | ⟨t, i, hsub, hi, hposted⟩
  · exact .inl h
  refine .inr ⟨t, hsub, ?_⟩
  have hnil : i = [] := by
    refine inFlight_nil hi fun p => ?_
    unfold userRuns at hl
    split at hl
    · exact ⟨nofun, nofun⟩
    · exact ⟨nofun, nofun⟩
    · cases hl
  rw [hposted, hnil, List.append_nil]

theorem ordered_of_user (h : c.state = .kDisconnected ∨
    ∃ t, t.Sublist c.taken ∧ c.posted = t ++ queued c.functors) : Ordered c a := by
  rcases h with h | ⟨t, hsub, hposted⟩
  · exact .inl h
  · exact .inr ⟨t, [], hsub, .inl rfl, by rw [hposted, List.append_nil]⟩

theorem start_ordered {e : Event} {l rest : List Op} (hs : c.start e = some (c', news))
    (h : Ordered c (active l)) (hl : userRuns l = true) : Ordered c' (active (news ++ rest)) := by
  have huser := h.user hl
  revert hs
  fun_cases Conn.start c e
  all_goals intro hs; cases hs
  all_goals try exact ordered_of_user huser
  rename_i f fs hfun
  cases f with
  | send p =>
    rcases huser with hd | ⟨t, hsub, hposted⟩
    · exact .inl hd
    · refine .inr ⟨t, [p], hsub, .inr ⟨p, rfl, .inl rfl⟩, ?_⟩
      rw [hfun] at hposted
      simpa [queued, QueuedFunctor.payload] using hposted
  | writeComplete =>
    rw [hfun] at huser
    exact ordered_of_user huser
  | highWaterMark =>
    rw [hfun] at huser
    exact ordered_of_user huser

theorem Act.ordered {n n' : Nat} {olds rest : List Op} (h : Act o .owner n c olds n' c' news)
    (hord : Ordered c (active (olds ++ rest)))
    (hpush : olds = [] → news = [] ∨ userRuns rest = true)
    (hsound : olds.all (Op.sound o) = true) (hon : Onward c.state c'.state)
    (hlate : ∀ op ∈ olds, op.late = true → c.state ≠ .kConnecting) :
    Ordered c' (active (news ++ rest)) := by
  cases h with
  | @exec _ _ _ _ op _ _ h =>
    have ht := exec_trace h (by simpa using hsound)
    cases hop : op.passive with
    | true =>
      have hnews := (exec_passive h hop).2
      have hsame : active ([op] ++ rest) = active (news ++ rest) := by
        rw [active, active, top_passive (by simp [hop]), top_passive hnews]
      refine hord.keep ht ?_ hon fun i hi => hsame ▸ hi
      cases op <;> first | rfl | cases hop
    | false =>
      have hactive : active ([op] ++ rest) = some op := active_cons rest hop
      exact (hactive ▸ hord).exec ht hon (hlate op (by simp))
  | call _ _ _ k =>
    rcases hpush rfl with hnil | huser
    · cases k <;> cases hnil
    · exact ordered_of_user (hord.user huser)
  | destroy =>
    rcases hpush rfl with hnil | huser
    · cases hnil
    · exact ordered_of_user (hord.user huser)
  | start h =>
    rcases hpush rfl with hnil | huser
    · exact absurd hnil (start_ne_nil h)
    · exact start_ordered h hord huser
  | ret _ _ source threw =>
    have huser : userRuns ([.user source] ++ rest) = true := rfl
    exact ordered_of_user (hord.user huser)
  | retrieve => exact hord
  | quit => exact hord

end
theorem Act.ordered_crossThread {o : Options} {n n' : Nat} {c c' : Conn} {olds news : List Op}
    {a : Option Op} (h : Act o .remote n c olds n' c' news) (hord : Ordered c a)
    (hcross : olds.all Op.crossThread = true) (hsound : olds.all (Op.sound o) = true)
    (hon : Onward c.state c'.state) : Ordered c' a := by
  cases h with
  | @exec _ _ _ _ op _ _ h =>
    have hop : op.crossThread = true := by simpa using hcross
    refine hord.keep (exec_trace h (by simpa using hsound)) ?_ hon fun i hi => hi
    cases op <;> first | rfl | cases hop
  | call => exact hord

/-! ## The invariant -/

/-- Everything that was accepted is kept. -/
structure Kept (o : Options) (s : State) : Prop extends Inv o s where
  trail : Trail s.sends s.conn s.ops
  ordered : Ordered s.conn (active s.owner)

theorem kept_init (o : Options) : Kept o {} where
  toInv := inv_init o
  trail :=
    { ids := fun k => Nat.zero_le _
      late := by simp [State.ops, queued]
      promised := fun p hp => by simp [Promised, State.ops] at hp
      quiet := fun h => absurd rfl h
      halves := fun half h => by cases h }
  ordered := .inr ⟨[], [], .slnil, .inl rfl, rfl⟩

theorem Trail.perm {n : Nat} {c : Conn} {ops ops' : List Op} (h : Trail n c ops)
    (hp : ops.Perm ops') : Trail n c ops' := by
  have hpromise (p : Payload) (hp' : Promised c ops' p) : Promised c ops p :=
    ⟨hp'.1, hp'.2.imp_right hp.mem_iff.mpr⟩
  refine ⟨fun k => ?_, fun hl => h.late ?_, fun p hp' => ?_, fun hne => ?_, h.halves⟩
  · rw [← weight_perm _ hp]
    exact h.ids k
  · exact hl.imp_left fun ⟨q, hq, hql⟩ => ⟨q, hp.mem_iff.mpr hq, hql⟩
  · exact (h.promised p (hpromise p hp')).imp_right fun h1 => h1.imp_right fun h2 =>
      h2.imp hp.mem_iff.mp fun h3 => h3.imp_left hp.mem_iff.mp
  · have hq := h.quiet hne
    exact ⟨hq.sealed, fun q hmem => hq.carries q (hp.mem_iff.mpr hmem), hq.queue,
      fun p hp' => hq.promised p (hpromise p hp')⟩

theorem carries_held {o : Options} {op : Op} (hc : op.carries = true) (hs : op.sound o = true) :
    0 < op.held := by
  cases op <;> cases hc
  all_goals
    have hne := of_decide_eq_true hs
    exact List.length_pos_iff.mpr hne

theorem queued_held {fs : List QueuedFunctor} (hs : fs.all QueuedFunctor.sound = true)
    (h : weight QueuedFunctor.held fs = 0) : queued fs = [] := by
  induction fs with
  | nil => rfl
  | cons f fs ih =>
    rw [List.all_cons, Bool.and_eq_true] at hs
    rw [weight_cons] at h
    cases f with
    | send p =>
      have hne : p.data ≠ [] := of_decide_eq_true hs.1
      have hpos := List.length_pos_iff.mpr hne
      simp only [QueuedFunctor.held] at h
      omega
    | writeComplete => exact ih hs.2 (by omega)
    | highWaterMark => exact ih hs.2 (by omega)

/-- The count was found zero under the seal: nothing is on its way. -/
theorem Kept.drained {o : Options} {s : State} (h : Kept o s) {rest : List Op}
    (hop : s.owner = .shutdownWrite :: rest) : Drained s.conn s.ops := by
  have hactive : active s.owner = some .shutdownWrite := by rw [hop]; rfl
  obtain ⟨hstate, hopen, hseal, hzero⟩ : s.conn.Guard (some .shutdownWrite) :=
    hactive ▸ h.owner.guard
  have hexact := h.exact
  rw [hzero, Conn.held] at hexact
  have hqueue : queued s.conn.functors = [] := queued_held h.functors (by omega)
  have hcarries : ∀ q ∈ s.ops, q.carries = false := by
    intro q hq
    rw [← Bool.not_eq_true]
    intro hc
    have := carries_held hc (h.ops q hq)
    have := h.held_le hq
    omega
  have hout : s.conn.outputBuffer = [] := List.length_eq_zero_iff.mp (by omega)
  refine ⟨⟨hseal, hcarries, hqueue, fun p hp => ?_⟩, ?_, ?_⟩
  · rcases h.trail.promised p hp with hp | hp | hp | hp | hp
    · exact hp
    · rw [hqueue] at hp
      cases hp
    · cases hcarries _ hp
    · cases hcarries _ hp
    · rw [hstate] at hp
      cases hp
  · rcases hactive ▸ h.owner.stream with hs | hs | hs | hs
    · rw [hstate] at hs
      cases hs
    · rw [hopen] at hs
      cases hs
    · cases hs
    · simpa [restOf, hout] using hs
  · rcases hactive ▸ h.ordered with hs | ⟨t, i, hsub, hi, hposted⟩
    · rw [hstate] at hs
      cases hs
    · have hnil : i = [] := inFlight_nil hi fun p => ⟨by simp, by simp⟩
      rwa [hposted, hnil, hqueue, List.append_nil, List.append_nil]

theorem Act.olds {o : Options} {caller : Caller} {n n' : Nat} {c c' : Conn} {olds news : List Op}
    (h : Act o caller n c olds n' c' news) {op : Op} (hop : op ∈ olds) : olds = [op] := by
  cases h <;> simp_all

theorem Kept.move {o : Options} {s s' : State} (h : Kept o s) (hm : Move o s s') :
    Kept o s' := by
  have hinv := h.toInv.move hm
  have hon := h.toInv.onward hm
  have hseal := (h.toLedger.move hm).2
  have hlate : ∀ op ∈ s.ops, op.late = true → s.conn.state ≠ .kConnecting := fun op hop hl =>
    h.trail.late (.inl ⟨op, hop, hl⟩)
  cases hm with
  | owner olds news rest act old new remotes push =>
    have holds : ∀ op ∈ olds, op ∈ s.ops := fun op hop => by simp [State.ops, old, hop]
    have hsound : olds.all (Op.sound o) = true :=
      List.all_eq_true.mpr fun op hop => h.ops op (holds op hop)
    have hold : s.ops = olds ++ (rest ++ s.remotes.flatten) := by simp [State.ops, old]
    have hnew : s'.ops = news ++ (rest ++ s.remotes.flatten) := by simp [State.ops, new, remotes]
    refine ⟨hinv, ?_, ?_⟩
    · rw [hnew]
      refine act.trail (hold ▸ h.trail) hsound hon (fun hs => (hseal hs).1) fun hop => ?_
      rw [act.olds hop] at old
      exact hold ▸ h.drained old
    · rw [new]
      exact act.ordered (old ▸ h.ordered) push hsound hon fun op hop => hlate op (holds op hop)
  | remote olds news R act old new owner =>
    have holds : ∀ op ∈ olds, op ∈ s.remotes.flatten := fun op hop =>
      old.mem_iff.mpr (List.mem_append_left R hop)
    have hsound : olds.all (Op.sound o) = true :=
      List.all_eq_true.mpr fun op hop => h.ops op (List.mem_append_right s.owner (holds op hop))
    have hold : s.ops.Perm (olds ++ (s.owner ++ R)) := ops_remote rfl old
    have hnew : s'.ops.Perm (news ++ (s.owner ++ R)) := ops_remote owner new
    refine ⟨hinv, ?_, ?_⟩
    · refine (act.trail (h.trail.perm hold) hsound hon (fun hs => (hseal hs).1) fun hop => ?_).perm
        hnew.symm
      -- another thread never half-closes
      cases h.crossThread _ (holds _ hop)
    · rw [owner]
      exact act.ordered_crossThread h.ordered
        (List.all_eq_true.mpr fun op hop => h.crossThread op (holds op hop)) hsound hon

theorem reach_kept {o : Options} {C : State → Label → Prop} {s : State}
    (h : Reach (· = {}) (step o) C s) : Kept o s :=
  Reach.invariant (by rintro s rfl; exact kept_init o)
    (fun _ _ _ hi _ hs => hi.move (step_move hs)) h

/-- No send was taken up twice. -/
theorem Trail.nodup {n : Nat} {c : Conn} {ops : List Op} (h : Trail n c ops) :
    (c.taken.map Payload.id).Nodup := by
  rw [List.nodup_iff_count_le_one]
  intro k
  have hids := h.ids k
  have hcount : (c.taken.map Payload.id).count k = weight (fun p => named k (some p)) c.taken := by
    induction c.taken with
    | nil => rfl
    | cons p l ih =>
      rw [List.map_cons, List.count_cons, weight_cons, ih]
      simp only [named, beq_iff_eq]
      omega
  rw [Conn.names] at hids
  split at hids <;> omega

/-- In every interleaving, when `shutdownInLoop` calls `shutdownWrite` the socket has got exactly
    the payloads that the owner loop took up, each of them once and whole, in that order, which
    keeps the order of the owner's queue; every payload whose send has returned Accepted or will
    return it is one of them, and no reservation succeeds any more. -/
theorem half_close_loses_nothing (o : Options) (s : State)
    (h : Reach (· = {}) (step o) Any s) (half : HalfClose)
    (hhalf : half ∈ s.conn.halfCloses) :
    half.written = (half.taken.map Payload.data).flatten ∧ (half.taken.map Payload.id).Nodup ∧
      half.posted.Sublist half.taken ∧
      (∀ p ∈ s.conn.accepted, p.data ≠ [] → p ∈ half.taken) ∧
      s.conn.reserved = half.reserved := by
  have hkept := reach_kept h
  obtain ⟨htaken, hreserved, hwritten, hposted⟩ := hkept.trail.halves half hhalf
  have hquiet := hkept.trail.quiet (List.ne_nil_of_mem hhalf)
  refine ⟨hwritten, htaken ▸ hkept.trail.nodup, hposted, fun p hp hne => ?_, hreserved.symm⟩
  rw [htaken]
  exact hquiet.promised p ⟨hne, .inl hp⟩

/-- A payload that another thread queued before its half-close request was sealed is written in
    two parts, and the half-close comes before the send returns. -/
theorem half_close_loses_nothing_queued :
    ∃ s half, Reach (· = {}) (step smallConnection) Any s ∧
      half ∈ s.conn.halfCloses ∧ s.conn.accepted = [⟨0, [1, 2, 3]⟩] ∧
      ⟨0, [1, 2, 3]⟩ ∈ half.taken ∧
      half.written = (half.taken.map Payload.data).flatten := by
  obtain ⟨s, hr, hhalf, haccepted⟩ := Reach.of_run (· = {}) (step smallConnection)
    Any
    (fun s => s.conn.halfCloses =
        [⟨[⟨0, [1, 2, 3]⟩], [⟨0, [1, 2, 3]⟩], [1, 2, 3], [0]⟩] ∧
      s.conn.accepted = [⟨0, [1, 2, 3]⟩])
    {} rfl
    ([.event (.connectEstablished true), .own .nothing, .own .nothing, .ret false,
        .call (.trySend [1, 2, 3])] ++ List.replicate 7 (.remote 0 .nothing) ++
      [.remote 0 (.budgets none), .remote 0 (.post .accepted), .call .tryShutdown] ++
      List.replicate 6 (.remote 1 .nothing) ++ [.event .lifecycle] ++
      List.replicate 5 (.own .nothing) ++
      [.event .functor, .own .nothing, .own (.write (.wrote 2))] ++
      List.replicate 3 (.own .nothing) ++ [.event (.write (.wrote 1))] ++
      List.replicate 8 (.own .nothing) ++ [.remote 0 .nothing])
    (by decide +kernel)
  have hmem : (⟨[⟨0, [1, 2, 3]⟩], [⟨0, [1, 2, 3]⟩], [1, 2, 3], [0]⟩ : HalfClose) ∈
      s.conn.halfCloses := by rw [hhalf]; exact List.mem_singleton_self _
  obtain ⟨hwritten, -, -, hall, -⟩ := half_close_loses_nothing smallConnection s hr _ hmem
  exact ⟨s, _, hr, hmem, haccepted, hall _ (by rw [haccepted]; simp) (by simp), hwritten⟩

end GameNet.TcpConnection
