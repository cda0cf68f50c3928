import GameNet.Machine
import GameNet.Tables

/- The connection-attempt rate limiter of TcpServer (`prunePeerRateBuckets`, `admitPeer`).

   A table holds a bucket for every tracked peer, and a queue of expiries, oldest
   first, says when buckets go. A call first prunes, then looks its peer up: an open
   bucket counts the attempt or rejects it, a missing one is opened if the table has
   room. The log keeps every call with what `admitPeer` answered, newest first; `windows`
   reads a peer's windows off it, and `expected` the verdict that the windows alone call
   for. `quota_exact` says that the table and the queue hold the same buckets, none of
   them expired, that every answer is the expected one, and that the windows of a peer
   are disjoint with the first attempts of each, up to the limit, passing.

   Time points are signed 64-bit nanoseconds, and the window is given in milliseconds. A
   sum that does not fit is undefined in the source; here it is taken as two's complement
   gives it, and `quota_exact` is about runs whose sums fit. Generations are natural
   numbers. -/
namespace GameNet.TcpServer

open Tables
open Machine (Reach)

/-! ## The limiter -/

/-- The fields of `TcpServerAdmissionOptions` that `admitPeer` reads. -/
structure AdmissionOptions where
  maxConnections : Nat := 0
  maxConnectionsPerPeer : Nat := 0
  maxConnectionAttemptsPerPeerPerWindow : Nat := 0
  /-- In milliseconds. -/
  connectionAttemptWindow : Int := 1000
  maxTrackedPeerAddresses : Nat := 65536
  deriving DecidableEq, Repr

structure PeerRateBucket where
  expiresAt : Int
  attempts : Nat
  generation : Nat
  deriving DecidableEq, Repr

structure PeerRateExpiry where
  expiresAt : Int
  peerAddress : String
  generation : Nat
  deriving DecidableEq, Repr

structure Limiter where
  peerRateBuckets : Table String PeerRateBucket
  peerRateExpiries : List PeerRateExpiry
  nextPeerRateGeneration : Nat

/-- The loop of `prunePeerRateBuckets`. -/
def pruneExpiries (now : Int) (buckets : Table String PeerRateBucket) :
    List PeerRateExpiry → Table String PeerRateBucket × List PeerRateExpiry
  | [] => (buckets, [])
  | expiry :: rest =>
    if expiry.expiresAt ≤ now then
      match buckets.lookup expiry.peerAddress with
      | some bucket =>
        if bucket.generation = expiry.generation ∧ bucket.expiresAt ≤ now then
          pruneExpiries now (buckets.erase expiry.peerAddress) rest
        else pruneExpiries now buckets rest
      | none => pruneExpiries now buckets rest
    else (buckets, expiry :: rest)

/-- `TcpServer::prunePeerRateBuckets`. -/
def prunePeerRateBuckets (l : Limiter) (now : Int) : Limiter :=
  { l with
    peerRateBuckets := (pruneExpiries now l.peerRateBuckets l.peerRateExpiries).1
    peerRateExpiries := (pruneExpiries now l.peerRateBuckets l.peerRateExpiries).2 }

/-- The outcome of `admitPeer`; every rejection is also the event of its metric. -/
inductive Admission where
  | admitted
  | rejectedPeerTrackingCapacity
  | rejectedPerPeerRateLimit
  | rejectedConnectionLimit
  | rejectedPerPeerLimit
  deriving DecidableEq, Repr

/-- What a signed 64-bit integer keeps of a number. -/
def wrap (n : Int) : Int := n.bmod (2 ^ 64)

/-- The rate check of `admitPeer`, after `steady_clock::now()`: a rejection, or none. -/
def checkPeerRate (o : AdmissionOptions) (l : Limiter) (peerAddress : String) (now : Int) :
    Option Admission × Limiter :=
  let l := prunePeerRateBuckets l now
  -- a bucket that has expired is erased here too
  let buckets := match l.peerRateBuckets.lookup peerAddress with
    | some bucket =>
      if bucket.expiresAt ≤ now then l.peerRateBuckets.erase peerAddress else l.peerRateBuckets
    | none => l.peerRateBuckets
  match buckets.lookup peerAddress with
  | none =>
    if size buckets ≥ o.maxTrackedPeerAddresses then
      (some .rejectedPeerTrackingCapacity, { l with peerRateBuckets := buckets })
    else
      let expiresAt := wrap (now + wrap (o.connectionAttemptWindow * 1000000))
      let generation := l.nextPeerRateGeneration
      (none,
        { peerRateBuckets := buckets.insert peerAddress { expiresAt, attempts := 1, generation }
          peerRateExpiries := l.peerRateExpiries ++ [⟨expiresAt, peerAddress, generation⟩]
          nextPeerRateGeneration := generation + 1 })
  | some bucket =>
    if bucket.attempts ≥ o.maxConnectionAttemptsPerPeerPerWindow then
      (some .rejectedPerPeerRateLimit, { l with peerRateBuckets := buckets })
    else
      (none,
        { l with peerRateBuckets :=
            buckets.insert peerAddress { bucket with attempts := bucket.attempts + 1 } })

/-- `TcpServer::admitPeer` with `connections = connections_.size()` and the active connections
    of the peer. -/
def admitPeer (o : AdmissionOptions) (l : Limiter) (peerAddress : String) (now : Int)
    (connections activeForPeer : Nat) : Admission × Limiter :=
  let limits : Admission :=
    if o.maxConnections > 0 ∧ connections ≥ o.maxConnections then .rejectedConnectionLimit
    else if o.maxConnectionsPerPeer > 0 ∧ activeForPeer ≥ o.maxConnectionsPerPeer then
      .rejectedPerPeerLimit
    else .admitted
  if o.maxConnectionAttemptsPerPeerPerWindow > 0 then
    let (rejection, l) := checkPeerRate o l peerAddress now
    (rejection.getD limits, l)
  else (limits, l)

/-! ## Calls and their history -/

structure Attempt where
  peer : String
  now : Int
  outcome : Admission
  deriving DecidableEq, Repr

structure State where
  limiter : Limiter
  log : List Attempt

structure Label where
  peerAddress : String
  now : Int
  connections : Nat
  activeForPeer : Nat
  deriving DecidableEq, Repr

def start : State := ⟨⟨∅, [], 1⟩, []⟩

/-- A call of `admitPeer`. -/
def step (o : AdmissionOptions) (s : State) (l : Label) : Option State :=
  let r := admitPeer o s.limiter l.peerAddress l.now l.connections l.activeForPeer
  some { limiter := r.2, log := { peer := l.peerAddress, now := l.now, outcome := r.1 } :: s.log }

/-- The window in nanoseconds. -/
def AdmissionOptions.window (o : AdmissionOptions) : Int := o.connectionAttemptWindow * 1000000

/-- The clock reading of a call is not before the last one. -/
def Forward (s : State) (l : Label) : Prop := ∀ a ∈ s.log.head?, a.now ≤ l.now

/-- The reading, the window and their sum fit into the nanoseconds of the clock. -/
def InClock (o : AdmissionOptions) (now : Int) : Prop :=
  -2 ^ 63 ≤ now ∧ o.window < 2 ^ 63 ∧ now + o.window < 2 ^ 63

def Timed (o : AdmissionOptions) (s : State) (l : Label) : Prop := Forward s l ∧ InClock o l.now

instance (s : State) (l : Label) : Decidable (Forward s l) :=
  inferInstanceAs (Decidable (∀ a ∈ s.log.head?, a.now ≤ l.now))

instance (o : AdmissionOptions) (s : State) (l : Label) : Decidable (Timed o s l) :=
  inferInstanceAs (Decidable (Forward s l ∧ _ ≤ _ ∧ _ < _ ∧ _ < _))

/-- What an outcome says of the rate check. -/
inductive RateVerdict where
  | passes
  | rejectedPerPeerRateLimit
  | rejectedPeerTrackingCapacity
  deriving DecidableEq, Repr

def Admission.verdict : Admission → RateVerdict
  | .admitted | .rejectedConnectionLimit | .rejectedPerPeerLimit => .passes
  | .rejectedPerPeerRateLimit => .rejectedPerPeerRateLimit
  | .rejectedPeerTrackingCapacity => .rejectedPeerTrackingCapacity

/-- A tracked window of one peer: when it was opened, and its attempts in order, each with its
    time and whether it passed. -/
structure Window where
  opened : Int
  attempts : List (Int × Bool)
  deriving DecidableEq, Repr

/-- The latest window, if it is open at `now`. -/
def openWindow (W now : Int) (ws : List Window) : Option Window :=
  ws.head?.filter (fun w => now < w.opened + W)

/-- One more attempt: it falls into the latest window if that is open, and opens one otherwise. -/
def record (W now : Int) (passes : Bool) (ws : List Window) : List Window :=
  match openWindow W now ws with
  | some w => { w with attempts := w.attempts ++ [(now, passes)] } :: ws.tail
  | none => ⟨now, [(now, passes)]⟩ :: ws

/-- The windows of a peer, newest first. An attempt that found no room is in none of them. -/
def windows (W : Int) (peer : String) : List Attempt → List Window
  | [] => []
  | a :: log =>
    if a.peer = peer then
      match a.outcome.verdict with
      | .passes => record W a.now true (windows W peer log)
      | .rejectedPerPeerRateLimit => record W a.now false (windows W peer log)
      | .rejectedPeerTrackingCapacity => windows W peer log
    else windows W peer log

/-- The peers with an open window. -/
def openPeers (W now : Int) (log : List Attempt) : List String :=
  (log.map (·.peer)).dedup.filter (fun peer => (openWindow W now (windows W peer log)).isSome)

/-- The verdict that the windows call for. -/
def expected (o : AdmissionOptions) (log : List Attempt) (peer : String) (now : Int) : RateVerdict :=
  match openWindow o.window now (windows o.window peer log) with
  | some w =>
    if w.attempts.length < o.maxConnectionAttemptsPerPeerPerWindow then .passes
    else .rejectedPerPeerRateLimit
  | none =>
    if (openPeers o.window now log).length < o.maxTrackedPeerAddresses then .passes
    else .rejectedPeerTrackingCapacity

/-- Every call was answered as its history calls for. -/
def AsExpected (o : AdmissionOptions) : List Attempt → Prop
  | [] => True
  | a :: log => a.outcome.verdict = expected o log a.peer a.now ∧ AsExpected o log

/-! ## The table and the queue -/

/-- The table and the queue hold the same buckets. -/
def Matches (buckets : Table String PeerRateBucket) (expiries : List PeerRateExpiry) : Prop :=
  (buckets.entries.map (fun x => (x.1, x.2.expiresAt, x.2.generation))).Perm
    (expiries.map (fun e => (e.peerAddress, e.expiresAt, e.generation)))

section
variable {buckets : Table String PeerRateBucket} {expiries : List PeerRateExpiry} {now : Int}

theorem Matches.size_eq (h : Matches buckets expiries) : size buckets = expiries.length := by
  simpa [size] using h.length_eq

/-- A bucket of the table has its entry in the queue. -/
theorem Matches.entry {peer : String} {bucket : PeerRateBucket} (h : Matches buckets expiries)
    (hb : buckets.lookup peer = some bucket) :
    ∃ e ∈ expiries, e.peerAddress = peer ∧ e.expiresAt = bucket.expiresAt := by
  have hmem := AList.mem_lookup_iff.mp hb
  have htag : (peer, bucket.expiresAt, bucket.generation) ∈
      expiries.map (fun e => (e.peerAddress, e.expiresAt, e.generation)) :=
    h.subset (List.mem_map_of_mem (f := fun x => (x.1, x.2.expiresAt, x.2.generation)) hmem)
  obtain ⟨e, he, heq⟩ := List.mem_map.mp htag
  simp only [Prod.mk.injEq] at heq
  exact ⟨e, he, heq.1, heq.2.1⟩

/-- An entry of the queue has its bucket in the table. -/
theorem Matches.bucket {e : PeerRateExpiry} (h : Matches buckets expiries) (he : e ∈ expiries) :
    ∃ bucket, buckets.lookup e.peerAddress = some bucket ∧ bucket.expiresAt = e.expiresAt ∧
      bucket.generation = e.generation := by
  have htag : (e.peerAddress, e.expiresAt, e.generation) ∈
      buckets.entries.map (fun x => (x.1, x.2.expiresAt, x.2.generation)) :=
    h.symm.subset (List.mem_map_of_mem (f := fun e : PeerRateExpiry =>
      (e.peerAddress, e.expiresAt, e.generation)) he)
  obtain ⟨x, hx, heq⟩ := List.mem_map.mp htag
  simp only [Prod.mk.injEq] at heq
  obtain ⟨hpeer, hexp, hgen⟩ := heq
  exact ⟨x.2, AList.mem_lookup_iff.mpr (hpeer ▸ hx), hexp, hgen⟩

/-- The front entry and its bucket go together. -/
theorem Matches.erase_front {e : PeerRateExpiry} {rest : List PeerRateExpiry}
    (h : Matches buckets (e :: rest)) : Matches (buckets.erase e.peerAddress) rest := by
  obtain ⟨bucket, hb, hexp, hgen⟩ := h.bucket (.head _)
  have hperm := (perm_cons_erase hb).map (fun x => (x.1, x.2.expiresAt, x.2.generation))
  have hcons := hperm.symm.trans h
  simp only [List.map_cons, hexp, hgen] at hcons
  exact List.Perm.cons_inv hcons

/-- A new bucket and its entry come together. -/
theorem Matches.push {peer : String} {bucket : PeerRateBucket} (h : Matches buckets expiries)
    (hnew : buckets.lookup peer = none) :
    Matches (buckets.insert peer bucket)
      (expiries ++ [⟨bucket.expiresAt, peer, bucket.generation⟩]) := by
  unfold Matches
  rw [AList.entries_insert_of_notMem (AList.lookup_eq_none.mp hnew), List.map_cons, List.map_append]
  exact (h.cons _).trans (List.perm_append_singleton _ _).symm

/-- Counting an attempt changes neither. -/
theorem Matches.recount {peer : String} {bucket bucket' : PeerRateBucket}
    (h : Matches buckets expiries) (hb : buckets.lookup peer = some bucket)
    (hexp : bucket'.expiresAt = bucket.expiresAt) (hgen : bucket'.generation = bucket.generation) :
    Matches (buckets.insert peer bucket') expiries := by
  have hperm := (perm_cons_erase hb).map (fun x => (x.1, x.2.expiresAt, x.2.generation))
  unfold Matches
  rw [Tables.entries_insert, List.map_cons, hexp, hgen]
  exact hperm.symm.trans h

/-- Pruning drops exactly what has expired, from the table and from the queue. -/
theorem pruneExpiries_spec (now : Int) (h : Matches buckets expiries)
    (hs : expiries.Pairwise (fun a b => a.expiresAt ≤ b.expiresAt)) :
    Matches (pruneExpiries now buckets expiries).1 (pruneExpiries now buckets expiries).2 ∧
      (pruneExpiries now buckets expiries).2 <:+ expiries ∧
      (∀ e ∈ (pruneExpiries now buckets expiries).2, now < e.expiresAt) ∧
      ∀ peer, (pruneExpiries now buckets expiries).1.lookup peer =
        (buckets.lookup peer).filter (fun bucket => now < bucket.expiresAt) := by
  induction expiries generalizing buckets with
  | nil =>
    refine ⟨h, List.suffix_refl _, by simp [pruneExpiries], fun peer => ?_⟩
    -- an empty queue belongs to an empty table
    cases hb : buckets.lookup peer with
    | none => simpa [pruneExpiries] using hb
    | some bucket =>
      obtain ⟨e, he, -⟩ := h.entry hb
      cases he
  | cons e rest ih =>
    obtain ⟨hfirst, hrest⟩ := List.pairwise_cons.mp hs
    by_cases hdue : e.expiresAt ≤ now
    · obtain ⟨bucket, hb, hexp, hgen⟩ := h.bucket (.head _)
      have heq : pruneExpiries now buckets (e :: rest) =
          pruneExpiries now (buckets.erase e.peerAddress) rest := by
        rw [pruneExpiries, if_pos hdue, hb]
        dsimp only
        rw [if_pos ⟨hgen, hexp ▸ hdue⟩]
      rw [heq]
      obtain ⟨hm, hsuf, hlive, hlook⟩ := ih h.erase_front hrest
      refine ⟨hm, hsuf.trans (List.suffix_cons _ _), hlive, fun peer => ?_⟩
      rw [hlook]
      by_cases hpeer : peer = e.peerAddress
      · subst hpeer
        have hout : ¬ now < bucket.expiresAt := by omega
        rw [AList.lookup_erase, hb, Option.filter_some, if_neg (by simpa using hout)]
        rfl
      · rw [AList.lookup_erase_ne hpeer]
    · have heq : pruneExpiries now buckets (e :: rest) = (buckets, e :: rest) := by
        rw [pruneExpiries, if_neg hdue]
      rw [heq]
      have hlive : ∀ x ∈ e :: rest, now < x.expiresAt := by
        intro x hx
        rcases List.mem_cons.mp hx with rfl | hx
        · omega
        · have hle := hfirst x hx
          omega
      refine ⟨h, List.suffix_refl _, hlive, fun peer => ?_⟩
      cases hb : buckets.lookup peer with
      | none => rfl
      | some bucket =>
        obtain ⟨x, hx, -, hexp⟩ := h.entry hb
        have hin : now < bucket.expiresAt := hexp ▸ hlive x hx
        rw [Option.filter_some, if_pos (decide_eq_true hin)]

end

/-! ## What a call keeps -/

/-- The limiter agrees with the history at the reading `now`. -/
structure Settled (o : AdmissionOptions) (now : Int) (log : List Attempt) (l : Limiter) : Prop where
  same : Matches l.peerRateBuckets l.peerRateExpiries
  sorted : l.peerRateExpiries.Pairwise (fun a b => a.expiresAt ≤ b.expiresAt)
  bounded : size l.peerRateBuckets ≤ o.maxTrackedPeerAddresses
  live : ∀ e ∈ l.peerRateExpiries, now < e.expiresAt ∧ e.expiresAt ≤ now + o.window
  tracked : ∀ peer bucket, l.peerRateBuckets.lookup peer = some bucket →
    ∃ w, (windows o.window peer log).head? = some w ∧ w.opened + o.window = bucket.expiresAt ∧
      bucket.attempts = min w.attempts.length o.maxConnectionAttemptsPerPeerPerWindow
  closed : ∀ peer, l.peerRateBuckets.lookup peer = none →
    ∀ w ∈ (windows o.window peer log).head?, w.opened + o.window ≤ now

section
variable {o : AdmissionOptions} {t now : Int} {log : List Attempt} {l : Limiter} {peer : String}

theorem start_settled (o : AdmissionOptions) (now : Int) : Settled o now [] start.limiter := by
  constructor
  case same => exact List.Perm.refl _
  all_goals simp [start, windows, size]

/-- A prune at a later reading. -/
theorem Settled.prune (h : Settled o t log l) (ht : t ≤ now) :
    Settled o now log (prunePeerRateBuckets l now) := by
  obtain ⟨hm, hsuf, hlive, hlook⟩ := pruneExpiries_spec now h.same h.sorted
  constructor
  case same => exact hm
  case sorted => exact h.sorted.sublist hsuf.sublist
  case bounded =>
    have hlen := hsuf.sublist.length_le
    rw [← hm.size_eq, ← h.same.size_eq] at hlen
    exact hlen.trans h.bounded
  case live =>
    intro e he
    have hle := (h.live e (hsuf.subset he)).2
    exact ⟨hlive e he, by omega⟩
  case tracked =>
    intro peer bucket hb
    have hb : (l.peerRateBuckets.lookup peer).filter (fun b => decide (now < b.expiresAt)) = some bucket :=
      (hlook peer).symm.trans hb
    exact h.tracked peer bucket (Option.eq_some_of_filter_eq_some hb)
  case closed =>
    intro peer hnone w hw
    have hnone : (l.peerRateBuckets.lookup peer).filter (fun b => decide (now < b.expiresAt)) = none :=
      (hlook peer).symm.trans hnone
    cases hb : l.peerRateBuckets.lookup peer with
    | none =>
      have hle := h.closed peer hb w hw
      omega
    | some bucket =>
      rw [hb, Option.filter_some] at hnone
      obtain ⟨w', hw', hend, -⟩ := h.tracked peer bucket hb
      have heq : w' = w := Option.some.inj (hw'.symm.trans hw)
      by_cases hlate : now < bucket.expiresAt
      · rw [if_pos (decide_eq_true hlate)] at hnone
        cases hnone
      · rw [← heq]
        omega

/-- The table tells the open windows. -/
theorem Settled.openWindow_some {bucket : PeerRateBucket} (h : Settled o now log l)
    (hb : l.peerRateBuckets.lookup peer = some bucket) :
    ∃ w, openWindow o.window now (windows o.window peer log) = some w ∧
      (windows o.window peer log).head? = some w ∧
      w.opened + o.window = bucket.expiresAt ∧
      bucket.attempts = min w.attempts.length o.maxConnectionAttemptsPerPeerPerWindow := by
  obtain ⟨w, hw, hend, hcount⟩ := h.tracked peer bucket hb
  obtain ⟨e, he, -, hexp⟩ := h.same.entry hb
  have hopen : now < w.opened + o.window := by
    have hlive := (h.live e he).1
    omega
  refine ⟨w, ?_, hw, hend, hcount⟩
  rw [openWindow, hw, Option.filter_some, if_pos (decide_eq_true hopen)]

theorem Settled.openWindow_none (h : Settled o now log l)
    (hb : l.peerRateBuckets.lookup peer = none) :
    openWindow o.window now (windows o.window peer log) = none := by
  rw [openWindow]
  cases hw : (windows o.window peer log).head? with
  | none => rfl
  | some w =>
    have hle := h.closed peer hb w hw
    rw [Option.filter_some, if_neg]
    simpa using hle

/-- A peer with a window is in the log. -/
theorem mem_of_windows {W : Int} (h : windows W peer log ≠ []) : peer ∈ log.map (·.peer) := by
  induction log with
  | nil => exact absurd rfl h
  | cons a log ih =>
    by_cases ha : a.peer = peer
    · simp [ha]
    · simp only [windows, if_neg ha] at h
      exact .tail _ (ih h)

/-- The tracked peers are those with an open window. -/
theorem Settled.openPeers_length (h : Settled o now log l) :
    (openPeers o.window now log).length = size l.peerRateBuckets := by
  have hkeys : size l.peerRateBuckets = l.peerRateBuckets.keys.length := by
    simp [size, AList.keys, List.keys]
  rw [hkeys]
  refine List.Perm.length_eq ((List.perm_ext_iff_of_nodup ?_ l.peerRateBuckets.keys_nodup).mpr ?_)
  · exact (List.nodup_dedup _).filter _
  · intro peer
    rw [← AList.mem_keys, ← AList.lookup_isSome]
    unfold openPeers
    rw [List.mem_filter, List.mem_dedup]
    cases hb : l.peerRateBuckets.lookup peer with
    | none => simp [h.openWindow_none hb]
    | some bucket =>
      obtain ⟨w, hw, hhead, -⟩ := h.openWindow_some hb
      have hne : windows o.window peer log ≠ [] := by
        intro hnil
        rw [hnil] at hhead
        cases hhead
      simpa [hw] using mem_of_windows hne

/-- The windows of the other peers. -/
theorem windows_other {W : Int} {p : String} {outcome : Admission} (h : peer ≠ p) :
    windows W p (⟨peer, now, outcome⟩ :: log) = windows W p log := by
  simp [windows, h]

/-- After the attempt of one peer the other peers' buckets agree as before. -/
theorem Settled.others {outcome : Admission} {l' : Limiter} (h : Settled o now log l)
    (hother : ∀ p, p ≠ peer → l'.peerRateBuckets.lookup p = l.peerRateBuckets.lookup p)
    (hsame : Matches l'.peerRateBuckets l'.peerRateExpiries)
    (hsorted : l'.peerRateExpiries.Pairwise (fun a b => a.expiresAt ≤ b.expiresAt))
    (hbounded : size l'.peerRateBuckets ≤ o.maxTrackedPeerAddresses)
    (hlive : ∀ e ∈ l'.peerRateExpiries, now < e.expiresAt ∧ e.expiresAt ≤ now + o.window)
    (htracked : ∀ bucket, l'.peerRateBuckets.lookup peer = some bucket →
      ∃ w, (windows o.window peer (⟨peer, now, outcome⟩ :: log)).head? = some w ∧
        w.opened + o.window = bucket.expiresAt ∧
        bucket.attempts = min w.attempts.length o.maxConnectionAttemptsPerPeerPerWindow)
    (hclosed : l'.peerRateBuckets.lookup peer = none →
      ∀ w ∈ (windows o.window peer (⟨peer, now, outcome⟩ :: log)).head?,
        w.opened + o.window ≤ now) :
    Settled o now (⟨peer, now, outcome⟩ :: log) l' where
  same := hsame
  sorted := hsorted
  bounded := hbounded
  live := hlive
  tracked := by
    intro p bucket hb
    by_cases hp : p = peer
    · subst hp
      exact htracked bucket hb
    · rw [windows_other (fun heq => hp heq.symm)]
      exact h.tracked p bucket (hother p hp ▸ hb)
  closed := by
    intro p hb
    by_cases hp : p = peer
    · subst hp
      exact hclosed hb
    · rw [windows_other (fun heq => hp heq.symm)]
      exact h.closed p (hother p hp ▸ hb)

/-- The verdict of the rate check. -/
def verdict (rejection : Option Admission) : RateVerdict := rejection.elim .passes Admission.verdict

/-- The rate check decides as the history calls for, and the limiter agrees with the history that any
    outcome of that verdict leaves. -/
def Checked (o : AdmissionOptions) (now : Int) (log : List Attempt) (peer : String)
    (r : Option Admission × Limiter) : Prop :=
  verdict r.1 = expected o log peer now ∧
    ∀ outcome : Admission, outcome.verdict = verdict r.1 →
      Settled o now (⟨peer, now, outcome⟩ :: log) r.2

/-- A tracked peer's attempt. -/
theorem Settled.known {bucket : PeerRateBucket} (h : Settled o now log (prunePeerRateBuckets l now))
    (hb : (prunePeerRateBuckets l now).peerRateBuckets.lookup peer = some bucket) :
    Checked o now log peer (checkPeerRate o l peer now) := by
  obtain ⟨w, hopen, hhead, hend, hcount⟩ := h.openWindow_some hb
  have hlive : ¬ bucket.expiresAt ≤ now := by
    obtain ⟨e, he, -, hexp⟩ := h.same.entry hb
    have hlive := (h.live e he).1
    omega
  by_cases hfull : bucket.attempts ≥ o.maxConnectionAttemptsPerPeerPerWindow
  · have hcheck : checkPeerRate o l peer now =
        (some .rejectedPerPeerRateLimit, prunePeerRateBuckets l now) := by
      simp only [checkPeerRate, hb, if_neg hlive, if_pos hfull]
    have hexp : expected o log peer now = .rejectedPerPeerRateLimit := by
      rw [expected, hopen]
      dsimp only
      rw [if_neg (by omega)]
    rw [Checked, hcheck, hexp]
    refine ⟨rfl, fun outcome (hverdict : outcome.verdict = .rejectedPerPeerRateLimit) => ?_⟩
    refine h.others (fun _ _ => rfl) h.same h.sorted h.bounded h.live ?_ ?_
    · intro bucket' hb'
      cases hb.symm.trans hb'
      refine ⟨{ w with attempts := w.attempts ++ [(now, false)] }, ?_, hend, ?_⟩
      · simp [windows, record, hopen, hverdict]
      · simp only [List.length_append, List.length_cons, List.length_nil]
        omega
    · intro hnone
      cases hb.symm.trans hnone
  · have hcheck : checkPeerRate o l peer now =
        (none, { prunePeerRateBuckets l now with
          peerRateBuckets := (prunePeerRateBuckets l now).peerRateBuckets.insert peer
            { bucket with attempts := bucket.attempts + 1 } }) := by
      simp only [checkPeerRate, hb, if_neg hlive, if_neg hfull]
    have hexp : expected o log peer now = .passes := by
      rw [expected, hopen]
      dsimp only
      rw [if_pos (by omega)]
    rw [Checked, hcheck, hexp]
    have hsame : Matches ((prunePeerRateBuckets l now).peerRateBuckets.insert peer
        { bucket with attempts := bucket.attempts + 1 }) (prunePeerRateBuckets l now).peerRateExpiries :=
      h.same.recount hb rfl rfl
    refine ⟨rfl, fun outcome (hverdict : outcome.verdict = .passes) => ?_⟩
    refine h.others (fun p hp => AList.lookup_insert_ne hp) hsame h.sorted ?_ h.live ?_ ?_
    · rw [hsame.size_eq, ← h.same.size_eq]
      exact h.bounded
    · intro bucket' hb'
      cases (AList.lookup_insert _).symm.trans hb'
      refine ⟨{ w with attempts := w.attempts ++ [(now, true)] }, ?_, hend, ?_⟩
      · simp [windows, record, hopen, hverdict]
      · simp only [List.length_append, List.length_cons, List.length_nil]
        omega
    · intro hnone
      cases (AList.lookup_insert _).symm.trans hnone

theorem wrap_eq {n : Int} (hlow : -2 ^ 63 ≤ n) (hhigh : n < 2 ^ 63) : wrap n = n :=
  Int.bmod_eq_of_le (by omega) (by omega)

/-- The end of a window that is opened at `now`. -/
theorem InClock.expiresAt (h : InClock o now) (hW : 0 < o.connectionAttemptWindow) :
    wrap (now + wrap (o.connectionAttemptWindow * 1000000)) = now + o.window ∧
      now < now + o.window := by
  obtain ⟨hlow, hwindow, hsum⟩ := h
  unfold AdmissionOptions.window at *
  rw [wrap_eq (by omega) hwindow, wrap_eq (by omega) hsum]
  exact ⟨rfl, by omega⟩

/-- An untracked peer's attempt. -/
theorem Settled.unknown (h : Settled o now log (prunePeerRateBuckets l now))
    (hN : 0 < o.maxConnectionAttemptsPerPeerPerWindow) (hW : 0 < o.connectionAttemptWindow)
    (hclock : InClock o now)
    (hb : (prunePeerRateBuckets l now).peerRateBuckets.lookup peer = none) :
    Checked o now log peer (checkPeerRate o l peer now) := by
  have hlen := h.openPeers_length
  obtain ⟨hend, hlater⟩ := hclock.expiresAt hW
  by_cases hfull : size (prunePeerRateBuckets l now).peerRateBuckets ≥ o.maxTrackedPeerAddresses
  · have hcheck : checkPeerRate o l peer now =
        (some .rejectedPeerTrackingCapacity, prunePeerRateBuckets l now) := by
      simp only [checkPeerRate, hb, if_pos hfull]
    have hexp : expected o log peer now = .rejectedPeerTrackingCapacity := by
      rw [expected, h.openWindow_none hb]
      dsimp only
      rw [if_neg (by omega)]
    rw [Checked, hcheck, hexp]
    refine ⟨rfl, fun outcome (hverdict : outcome.verdict = .rejectedPeerTrackingCapacity) => ?_⟩
    refine h.others (fun _ _ => rfl) h.same h.sorted h.bounded h.live ?_ ?_
    · intro bucket hsome
      cases hb.symm.trans hsome
    · intro _ w hw
      refine h.closed peer hb w ?_
      simpa [windows, hverdict] using hw
  · have hcheck : checkPeerRate o l peer now =
        (none,
          { peerRateBuckets := (prunePeerRateBuckets l now).peerRateBuckets.insert peer
              ⟨now + o.window, 1, (prunePeerRateBuckets l now).nextPeerRateGeneration⟩
            peerRateExpiries := (prunePeerRateBuckets l now).peerRateExpiries ++
              [⟨now + o.window, peer, (prunePeerRateBuckets l now).nextPeerRateGeneration⟩]
            nextPeerRateGeneration := (prunePeerRateBuckets l now).nextPeerRateGeneration + 1 }) := by
      simp only [checkPeerRate, hb, if_neg hfull, hend]
    have hexp : expected o log peer now = .passes := by
      rw [expected, h.openWindow_none hb]
      dsimp only
      rw [if_pos (by omega)]
    rw [Checked, hcheck, hexp]
    refine ⟨rfl, fun outcome (hverdict : outcome.verdict = .passes) => ?_⟩
    refine h.others (fun p hp => AList.lookup_insert_ne hp) (h.same.push hb) ?_ ?_ ?_ ?_ ?_
    · refine List.pairwise_append.mpr ⟨h.sorted, List.pairwise_singleton _ _, fun e he e' he' => ?_⟩
      rw [List.mem_singleton.mp he']
      exact (h.live e he).2
    · rw [size_insert_new hb]
      omega
    · intro e he
      rcases List.mem_append.mp he with he | he
      · exact h.live e he
      · rw [List.mem_singleton.mp he]
        exact ⟨hlater, le_refl _⟩
    · intro bucket hsome
      cases (AList.lookup_insert _).symm.trans hsome
      refine ⟨⟨now, [(now, true)]⟩, ?_, rfl, ?_⟩
      · simp [windows, record, h.openWindow_none hb, hverdict]
      · simp only [List.length_cons, List.length_nil]
        omega
    · intro hnone
      cases (AList.lookup_insert _).symm.trans hnone

end

/-! ## The windows of a peer -/

/-- One window: its attempts lie in it, it was opened by the first of them, and the first ones,
    up to the limit, pass. -/
structure Window.Ok (o : AdmissionOptions) (w : Window) : Prop where
  within : ∀ a ∈ w.attempts, w.opened ≤ a.1 ∧ a.1 < w.opened + o.window
  first : w.attempts.head? = some (w.opened, true)
  passes : w.attempts.map (·.2) =
    List.replicate (min w.attempts.length o.maxConnectionAttemptsPerPeerPerWindow) true ++
      List.replicate (w.attempts.length - o.maxConnectionAttemptsPerPeerPerWindow) false

section
variable {o : AdmissionOptions} {log : List Attempt} {peer : String} {now : Int} {w : Window}

theorem Window.Ok.opened (hN : 0 < o.maxConnectionAttemptsPerPeerPerWindow)
    (hW : 0 < o.window) (now : Int) : Window.Ok o ⟨now, [(now, true)]⟩ where
  within := by
    intro a ha
    rw [List.mem_singleton.mp ha]
    exact ⟨le_refl _, by dsimp only; omega⟩
  first := rfl
  passes := by
    have hmin : min 1 o.maxConnectionAttemptsPerPeerPerWindow = 1 := by omega
    have hsub : 1 - o.maxConnectionAttemptsPerPeerPerWindow = 0 := by omega
    simp [hmin, hsub]

/-- One more attempt inside the window passes as long as the limit is not used up. -/
theorem Window.Ok.record (h : Window.Ok o w) (hin : w.opened ≤ now)
    (hopen : now < w.opened + o.window) :
    Window.Ok o { w with attempts := w.attempts ++
      [(now, decide (w.attempts.length < o.maxConnectionAttemptsPerPeerPerWindow))] } where
  within := by
    intro a ha
    rcases List.mem_append.mp ha with ha | ha
    · exact h.within a ha
    · rw [List.mem_singleton.mp ha]
      exact ⟨hin, hopen⟩
  first := by
    dsimp only
    rw [List.head?_append, h.first]
    rfl
  passes := by
    dsimp only
    rw [List.map_append, h.passes, List.length_append, List.length_singleton]
    by_cases hroom : w.attempts.length < o.maxConnectionAttemptsPerPeerPerWindow
    · have hmin : min w.attempts.length o.maxConnectionAttemptsPerPeerPerWindow =
          w.attempts.length := by omega
      have hmin' : min (w.attempts.length + 1) o.maxConnectionAttemptsPerPeerPerWindow =
          w.attempts.length + 1 := by omega
      have hsub : w.attempts.length - o.maxConnectionAttemptsPerPeerPerWindow = 0 := by omega
      have hsub' : w.attempts.length + 1 - o.maxConnectionAttemptsPerPeerPerWindow = 0 := by omega
      rw [hmin, hmin', hsub, hsub', List.replicate_succ']
      simp [hroom]
    · have hmin : min w.attempts.length o.maxConnectionAttemptsPerPeerPerWindow =
          o.maxConnectionAttemptsPerPeerPerWindow := by omega
      have hmin' : min (w.attempts.length + 1) o.maxConnectionAttemptsPerPeerPerWindow =
          o.maxConnectionAttemptsPerPeerPerWindow := by omega
      have hsub : w.attempts.length + 1 - o.maxConnectionAttemptsPerPeerPerWindow =
          w.attempts.length - o.maxConnectionAttemptsPerPeerPerWindow + 1 := by omega
      rw [hmin, hmin', hsub, List.replicate_succ']
      simp [hroom]

/-- A window was opened by an attempt of the log. -/
theorem opened_mem {W : Int} : ∀ w ∈ windows W peer log, ∃ a ∈ log, a.now = w.opened := by
  induction log with
  | nil => simp [windows]
  | cons a log ih =>
    have hold : ∀ w ∈ windows W peer log, ∃ x ∈ a :: log, x.now = w.opened := by
      intro w hw
      obtain ⟨x, hx, heq⟩ := ih w hw
      exact ⟨x, .tail _ hx, heq⟩
    have hrec : ∀ pass, ∀ w ∈ record W a.now pass (windows W peer log),
        ∃ x ∈ a :: log, x.now = w.opened := by
      intro pass w hw
      unfold record at hw
      split at hw
      · rename_i w' hopen
        have hmem := List.mem_of_mem_head? (Option.eq_some_of_filter_eq_some hopen)
        rcases List.mem_cons.mp hw with rfl | hw
        · exact hold w' hmem
        · exact hold w (List.mem_of_mem_tail hw)
      · rcases List.mem_cons.mp hw with rfl | hw
        · exact ⟨a, .head _, rfl⟩
        · exact hold w hw
    intro w hw
    by_cases ha : a.peer = peer
    · simp only [windows, if_pos ha] at hw
      split at hw
      · exact hrec true w hw
      · exact hrec false w hw
      · exact hold w hw
    · simp only [windows, if_neg ha] at hw
      exact hold w hw

/-- Windows that follow each other, each as it should be. -/
def Windows (o : AdmissionOptions) (ws : List Window) : Prop :=
  ws.Pairwise (fun w w' => w'.opened + o.window ≤ w.opened) ∧ ∀ w ∈ ws, Window.Ok o w

/-- An attempt in an open window. -/
theorem Windows.counted {ws : List Window} (h : Windows o ws) (hopen : openWindow o.window now ws = some w)
    (hbefore : w.opened ≤ now) :
    Windows o (record o.window now
      (decide (w.attempts.length < o.maxConnectionAttemptsPerPeerPerWindow)) ws) := by
  obtain ⟨hhead, hin⟩ := Option.filter_eq_some_iff.mp hopen
  obtain ⟨rest, rfl⟩ : ∃ rest, ws = w :: rest := List.head?_eq_some_iff.mp hhead
  obtain ⟨hpair, hok⟩ := h
  simp only [record, hopen]
  refine ⟨List.pairwise_cons.mpr (List.pairwise_cons.mp hpair), fun w' hw' => ?_⟩
  rcases List.mem_cons.mp hw' with rfl | hw'
  · exact (hok w (.head _)).record hbefore (of_decide_eq_true hin)
  · exact hok w' (.tail _ hw')

/-- An attempt that opens a window: all earlier ones have ended. -/
theorem Windows.opened {ws : List Window} (h : Windows o ws) (hN : 0 < o.maxConnectionAttemptsPerPeerPerWindow)
    (hW : 0 < o.window) (hopen : openWindow o.window now ws = none) :
    Windows o (record o.window now true ws) := by
  obtain ⟨hpair, hok⟩ := h
  have hended : ∀ w ∈ ws, w.opened + o.window ≤ now := by
    intro w hw
    cases ws with
    | nil => cases hw
    | cons w' rest =>
      have hlast : w'.opened + o.window ≤ now := by
        by_contra hlt
        rw [openWindow, List.head?_cons, Option.filter_some,
          if_pos (decide_eq_true (not_le.mp hlt))] at hopen
        cases hopen
      rcases List.mem_cons.mp hw with rfl | hw
      · exact hlast
      · have hle := (List.pairwise_cons.mp hpair).1 w hw
        omega
  simp only [record, hopen]
  refine ⟨List.pairwise_cons.mpr ⟨hended, hpair⟩, fun w hw => ?_⟩
  rcases List.mem_cons.mp hw with rfl | hw
  · exact .opened hN hW now
  · exact hok w hw

/-- The windows of a peer follow each other, and each is as it should be. -/
theorem windows_ok (hN : 0 < o.maxConnectionAttemptsPerPeerPerWindow)
    (hW : 0 < o.window) (h : AsExpected o log)
    (htimes : log.Pairwise (fun a b => b.now ≤ a.now)) : Windows o (windows o.window peer log) := by
  induction log with
  | nil => exact ⟨List.Pairwise.nil, nofun⟩
  | cons a log ih =>
    obtain ⟨hnow, htimes⟩ := List.pairwise_cons.mp htimes
    have hlog := ih h.2 htimes
    by_cases ha : a.peer = peer
    · have hverdict : a.outcome.verdict = expected o log peer a.now := ha ▸ h.1
      simp only [windows, if_pos ha, hverdict]
      unfold expected
      cases hopen : openWindow o.window a.now (windows o.window peer log) with
      | some w =>
        have hmem := List.mem_of_mem_head? (Option.eq_some_of_filter_eq_some hopen)
        obtain ⟨x, hx, heq⟩ := opened_mem w hmem
        have hcounted := hlog.counted hopen (heq ▸ hnow x hx)
        by_cases hroom : w.attempts.length < o.maxConnectionAttemptsPerPeerPerWindow
        · simpa only [hroom, if_true, decide_true] using hcounted
        · simpa only [hroom, if_false, decide_false] using hcounted
      | none =>
        by_cases hspace : (openPeers o.window a.now log).length < o.maxTrackedPeerAddresses
        · simpa only [hspace, if_true] using hlog.opened hN hW hopen
        · simpa only [hspace, if_false] using hlog
    · simp only [windows, if_neg ha]
      exact hlog

end

/-! ## Every run -/

/-- What holds after a sequence of calls. -/
structure Inv (o : AdmissionOptions) (s : State) : Prop where
  settled : ∀ now, (s.log = [] ∨ ∃ a ∈ s.log.head?, a.now = now) → Settled o now s.log s.limiter
  times : s.log.Pairwise (fun a b => b.now ≤ a.now)
  asExpected : AsExpected o s.log

/-- With rate limiting on, a call leaves the limiter of its rate check and answers with its verdict;
    the connection limits come after it. -/
theorem admitPeer_eq {o : AdmissionOptions} (hN : 0 < o.maxConnectionAttemptsPerPeerPerWindow)
    (l : Limiter) (peer : String) (now : Int) (connections active : Nat) :
    (admitPeer o l peer now connections active).1.verdict = verdict (checkPeerRate o l peer now).1 ∧
      (admitPeer o l peer now connections active).2 = (checkPeerRate o l peer now).2 := by
  simp only [admitPeer, if_pos hN, and_true]
  cases (checkPeerRate o l peer now).1 with
  | some rejection => rfl
  | none =>
    rw [Option.getD_none]
    split
    · rfl
    · split <;> rfl

theorem step_inv {o : AdmissionOptions} (hN : 0 < o.maxConnectionAttemptsPerPeerPerWindow)
    (hW : 0 < o.connectionAttemptWindow) {s s' : State} {l : Label} (h : Inv o s) (hc : Timed o s l)
    (hs : step o s l = some s') : Inv o s' := by
  obtain ⟨hf, hclock⟩ := hc
  have hbefore : Settled o l.now s.log (prunePeerRateBuckets s.limiter l.now) := by
    cases hlog : s.log with
    | nil => exact hlog ▸ (h.settled l.now (Or.inl hlog)).prune (le_refl _)
    | cons a rest =>
      have ha : a ∈ s.log.head? := by rw [hlog]; rfl
      exact hlog ▸ (h.settled a.now (Or.inr ⟨a, ha, rfl⟩)).prune (hf a ha)
  obtain ⟨hexpected, hafter⟩ : Checked o l.now s.log l.peerAddress
      (checkPeerRate o s.limiter l.peerAddress l.now) := by
    cases hb : (prunePeerRateBuckets s.limiter l.now).peerRateBuckets.lookup l.peerAddress with
    | none => exact hbefore.unknown hN hW hclock hb
    | some bucket => exact hbefore.known hb
  obtain ⟨hverdict, hlimiter⟩ :=
    admitPeer_eq hN s.limiter l.peerAddress l.now l.connections l.activeForPeer
  cases hs
  constructor
  case settled =>
    rintro now (hnil | ⟨a, ha, rfl⟩)
    · cases hnil
    · cases ha
      rw [hlimiter]
      exact hafter _ hverdict
  case times =>
    refine List.pairwise_cons.mpr ⟨fun a ha => ?_, h.times⟩
    -- the newest reading bounds the older ones
    cases hlog : s.log with
    | nil => simp [hlog] at ha
    | cons b rest =>
      have hb : b.now ≤ l.now := hf b (by rw [hlog]; rfl)
      have htimes := h.times
      rw [hlog] at ha htimes
      rcases List.mem_cons.mp ha with rfl | ha
      · exact hb
      · exact ((List.pairwise_cons.mp htimes).1 a ha).trans hb
  case asExpected => exact ⟨hverdict.trans hexpected, h.asExpected⟩

/-- The limiter in one state: the table and the queue are one to one, sorted and within the
    capacity; no bucket has expired at the last reading; every call was answered as its history
    calls for; and every peer's windows are disjoint and admit exactly their quota. -/
structure Quota (o : AdmissionOptions) (s : State) : Prop where
  oneToOne : Matches s.limiter.peerRateBuckets s.limiter.peerRateExpiries
  sameLength : s.limiter.peerRateExpiries.length = size s.limiter.peerRateBuckets
  sorted : s.limiter.peerRateExpiries.Pairwise (fun a b => a.expiresAt ≤ b.expiresAt)
  bounded : size s.limiter.peerRateBuckets ≤ o.maxTrackedPeerAddresses
  unexpired : ∀ a ∈ s.log.head?, ∀ peer bucket,
    s.limiter.peerRateBuckets.lookup peer = some bucket → a.now < bucket.expiresAt
  verdicts : AsExpected o s.log
  disjoint : ∀ peer, (windows o.window peer s.log).Pairwise
    (fun w w' => w'.opened + o.window ≤ w.opened)
  quota : ∀ peer, ∀ w ∈ windows o.window peer s.log, Window.Ok o w

theorem quota_exact {o : AdmissionOptions} (hN : 0 < o.maxConnectionAttemptsPerPeerPerWindow)
    (hW : 0 < o.connectionAttemptWindow) {s : State}
    (h : Reach (· = start) (step o) (Timed o) s) : Quota o s := by
  have hwindow : 0 < o.window := by
    unfold AdmissionOptions.window
    omega
  have hinv : Inv o s := by
    refine h.invariant (P := Inv o) ?_ ?_
    · rintro _ rfl
      exact ⟨fun now _ => start_settled o now, List.Pairwise.nil, trivial⟩
    · exact fun _ _ _ hi hc hs => step_inv hN hW hi hc hs
  obtain ⟨now, hsettled, hnow⟩ : ∃ now, Settled o now s.log s.limiter ∧ ∀ a ∈ s.log.head?, a.now = now := by
    cases hlog : s.log with
    | nil => exact ⟨0, hlog ▸ hinv.settled 0 (Or.inl hlog), by simp⟩
    | cons a rest =>
      have ha : a ∈ s.log.head? := by rw [hlog]; rfl
      refine ⟨a.now, hlog ▸ hinv.settled a.now (Or.inr ⟨a, ha, rfl⟩), fun b hb => ?_⟩
      cases hb
      rfl
  constructor
  case oneToOne => exact hsettled.same
  case sameLength => exact hsettled.same.size_eq.symm
  case sorted => exact hsettled.sorted
  case bounded => exact hsettled.bounded
  case unexpired =>
    intro a ha peer bucket hb
    obtain ⟨e, he, -, hexp⟩ := hsettled.same.entry hb
    rw [hnow a ha, ← hexp]
    exact (hsettled.live e he).1
  case verdicts => exact hinv.asExpected
  case disjoint => exact fun peer => (windows_ok hN hwindow hinv.asExpected hinv.times).1
  case quota => exact fun peer => (windows_ok hN hwindow hinv.asExpected hinv.times).2

/-- Two attempts for each of a single peer, within ten milliseconds. -/
def onePeer : AdmissionOptions where
  maxConnections := 1
  maxConnectionAttemptsPerPeerPerWindow := 2
  connectionAttemptWindow := 10
  maxTrackedPeerAddresses := 1

/-- Two peers and room for one: the second is turned away until the first one's window ends. An
    attempt that the connection limit rejects counts in its window. -/
theorem quota_exact_two_peers :
    ∃ s, Reach (· = start) (step onePeer) (Timed onePeer) s ∧
      (s.log.map (·.outcome) = [.admitted, .rejectedPeerTrackingCapacity, .rejectedPerPeerRateLimit,
          .rejectedConnectionLimit, .admitted] ∧
        windows onePeer.window "a" s.log = [⟨0, [(0, true), (1, true), (2, false)]⟩] ∧
        windows onePeer.window "b" s.log = [⟨10000000, [(10000000, true)]⟩]) ∧
      Quota onePeer s := by
  obtain ⟨s, hr, hq⟩ := Reach.of_run (· = start) (step onePeer) (Timed onePeer)
    (fun s => s.log.map (·.outcome) = [.admitted, .rejectedPeerTrackingCapacity,
          .rejectedPerPeerRateLimit, .rejectedConnectionLimit, .admitted] ∧
        windows onePeer.window "a" s.log = [⟨0, [(0, true), (1, true), (2, false)]⟩] ∧
        windows onePeer.window "b" s.log = [⟨10000000, [(10000000, true)]⟩]) start rfl
    [⟨"a", 0, 0, 0⟩, ⟨"a", 1, 1, 1⟩, ⟨"a", 2, 1, 1⟩, ⟨"b", 9999999, 0, 0⟩, ⟨"b", 10000000, 0, 0⟩]
    (by decide +kernel)
  exact ⟨s, hr, hq, quota_exact (by decide) (by decide) hr⟩

/-- One attempt in a window of `milliseconds::max()`. -/
def longestWindow : AdmissionOptions where
  maxConnectionAttemptsPerPeerPerWindow := 1
  connectionAttemptWindow := 2 ^ 63 - 1

/-- The longest window that the options can hold ends before it begins: its nanoseconds do not fit, and
    every attempt of the peer opens a window of its own and is admitted. -/
theorem longest_window_admits_all :
    ∃ s, Reach (· = start) (step longestWindow) Forward s ∧
      s.log.map (fun a => (a.peer, a.now, a.outcome)) =
        [("a", 1000000, .admitted), ("a", 1000000, .admitted)] ∧
      (s.limiter.peerRateBuckets.lookup "a").map (·.expiresAt) = some 0 :=
  Reach.of_run (· = start) (step longestWindow) Forward
    (fun s => s.log.map (fun a => (a.peer, a.now, a.outcome)) =
        [("a", 1000000, .admitted), ("a", 1000000, .admitted)] ∧
      (s.limiter.peerRateBuckets.lookup "a").map (·.expiresAt) = some 0) start rfl
    [⟨"a", 1000000, 0, 0⟩, ⟨"a", 1000000, 0, 0⟩] (by decide +kernel)

end GameNet.TcpServer
