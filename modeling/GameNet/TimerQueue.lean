import Mathlib.Data.List.Nodup
import GameNet.Types

/- TimerQueue: the timers of one EventLoop (`TimerQueue.cc`).

   A `Timer` object is named by its sequence, which `nextSequence_` hands out once:
   `heap` holds the objects, `timers` the keys of `timers_` in key order, and
   `timersById` the keys of `timersById_`. `Good q batch` is what holds of the two
   containers while `batch` is extracted by a running `handleExpired` (the empty
   batch outside one): every queued key is its timer's own, an extracted timer that
   the identity map no longer holds is canceled, and no timer is in both places.
   The operations keep it (`insert_good`, `cancelInLoop_good`, `getExpired_good`,
   `reset_good`). Time points are exact integers here. -/
namespace GameNet.TimerQueue

/-! ## The data model -/

inductive RepeatingTimerMode where
  | fixedDelay
  | fixedRate
  deriving DecidableEq, Repr

structure RepeatingTimerOptions where
  mode : RepeatingTimerMode := .fixedDelay
  maxCatchUpCallbacks : Nat := 0
  deriving DecidableEq, Repr

/-- `RepeatingTimerOptions::validate`. -/
def RepeatingTimerOptions.validate (o : RepeatingTimerOptions) : Except String Unit :=
  match o.mode with
  | .fixedDelay =>
    if o.maxCatchUpCallbacks ≠ 0 then
      .error "fixed-delay repeating timers do not support catch-up callbacks"
    else .ok ()
  | .fixedRate => .ok ()

/-- `TimerQueue::Timer`. The callback is named by the timer's sequence. -/
structure Timer where
  expiration : Int
  interval : Int
  options : RepeatingTimerOptions
  consecutiveCatchUpCallbacks : Nat := 0
  canceled : Bool := false
  inQueue : Bool := true
  deriving DecidableEq, Repr

/-- `Timer::repeat`. -/
def Timer.repeats (t : Timer) : Bool := decide (0 < t.interval)

/-- The arguments of `tryAddTimer`; `callback` tells whether the callback is non-empty. -/
structure AddRequest where
  callback : Bool
  due : Int
  interval : Int := 0
  options : RepeatingTimerOptions := {}
  deriving DecidableEq, Repr

/-- The input checks of `tryAddTimer`, in the order the code makes them. -/
def AddRequest.check (r : AddRequest) : Except String Unit :=
  if r.callback = false then .error "TimerQueue requires a non-empty callback"
  else if r.interval < 0 then .error "TimerQueue interval cannot be negative"
  else match r.options.validate with
    | .error e => .error e
    | .ok () =>
      if r.interval = 0 ∧
          (r.options.mode ≠ .fixedDelay ∨ r.options.maxCatchUpCallbacks ≠ 0) then
        .error "one-shot timers do not accept repeating timer policy"
      else .ok ()

/-- The `Timer` object `tryAddTimer` makes. -/
def AddRequest.timer (r : AddRequest) : Timer :=
  { expiration := r.due, interval := r.interval, options := r.options }

/-- A key of `timers_`: expiration, then sequence. -/
abbrev Key := Int × Nat

/-- The order of `std::pair` keys. -/
def keyLt (a b : Key) : Bool := a.1 < b.1 || (a.1 == b.1 && a.2 < b.2)

structure Queue where
  nextSequence : Nat
  heap : Nat → Timer
  timers : List Key
  timersById : List Nat

/-- The queue a `TimerQueue` is constructed with; the object of an unused sequence is
    never looked at. -/
def empty : Queue where
  nextSequence := 1
  heap := fun _ => { expiration := 0, interval := 0, options := {} }
  timers := []
  timersById := []

/-! ## The operations -/

/-- `std::map::emplace` on the ordered keys: an equal key stays as it is. -/
def emplace (k : Key) : List Key → List Key
  | [] => [k]
  | x :: rest =>
    if keyLt k x then k :: x :: rest
    else if k = x then x :: rest
    else x :: emplace k rest

/-- One field of one timer object. -/
def Queue.modify (q : Queue) (seq : Nat) (f : Timer → Timer) : Queue :=
  { q with heap := Function.update q.heap seq (f (q.heap seq)) }

/-- `nextSequence_.fetch_add(1)` and the construction of the timer. -/
def Queue.alloc (q : Queue) (t : Timer) : Queue :=
  { q with nextSequence := q.nextSequence + 1, heap := Function.update q.heap q.nextSequence t }

/-- `TimerQueue::insert`; the result says whether the earliest timer changed. -/
def insert (q : Queue) (seq : Nat) : Bool × Queue :=
  let key : Key := ((q.heap seq).expiration, seq)
  let earliestChanged := match q.timers with
    | [] => true
    | first :: _ => keyLt key first
  (earliestChanged,
    { q.modify seq (fun t => { t with inQueue := true, canceled := false }) with
      timersById := if seq ∈ q.timersById then q.timersById else seq :: q.timersById
      timers := emplace key q.timers })

/-- `TimerQueue::addTimerInLoop`. -/
def addTimerInLoop (q : Queue) (seq : Nat) : Queue := (insert q seq).2

/-- `TimerQueue::cancelInLoop`. -/
def cancelInLoop (q : Queue) (seq : Nat) : Queue :=
  if seq ∈ q.timersById then
    let q₁ := q.modify seq (fun t => { t with canceled := true })
    if (q.heap seq).inQueue then
      { q₁.modify seq (fun t => { t with inQueue := false }) with
        timers := q.timers.filter (· ≠ ((q.heap seq).expiration, seq))
        timersById := q.timersById.filter (· ≠ seq) }
    else { q₁ with timersById := q.timersById.filter (· ≠ seq) }
  else q

/-- `inQueue = false` on every timer of a list. -/
def Queue.unlink (q : Queue) (seqs : List Nat) : Queue :=
  { q with heap := fun i => if i ∈ seqs then { q.heap i with inQueue := false } else q.heap i }

/-- The keys `getExpired` takes: the first `maxCount` of those at most `{now, max}`. -/
def expiredKeys (q : Queue) (now : Int) (maxCount : Nat) : List Key :=
  (q.timers.takeWhile (fun k => k.1 ≤ now)).take maxCount

/-- `TimerQueue::getExpired`. -/
def getExpired (q : Queue) (now : Int) (maxCount : Nat) : List Nat × Queue :=
  let taken := expiredKeys q now maxCount
  let seqs := taken.map (·.2)
  (seqs, { q.unlink seqs with timers := q.timers.drop taken.length })

/-- `Timestamp::max()`, in nanoseconds. -/
def timestampMax : Int := 2 ^ 63 - 1

/-- `nextFixedRateExpiration`: the next expiration and the new catch-up count. -/
def nextFixedRateExpiration (previousExpiration interval now : Int)
    (maxCatchUpCallbacks consecutiveCatchUpCallbacks : Nat) : Int × Nat :=
  let next := previousExpiration + interval
  if next > now then (next, 0)
  else if consecutiveCatchUpCallbacks < maxCatchUpCallbacks then
    (next, consecutiveCatchUpCallbacks + 1)
  else
    let missedIntervals := (now - next).tdiv interval
    let next := next + interval * missedIntervals
    if next ≤ now then
      if timestampMax - next < interval then (timestampMax, 0) else (next + interval, 0)
    else (next, 0)

/-- The re-armed timer of `reset`. -/
def rearm (t : Timer) (now : Int) : Timer :=
  match t.options.mode with
  | .fixedRate =>
    let next := nextFixedRateExpiration t.expiration t.interval now
      t.options.maxCatchUpCallbacks t.consecutiveCatchUpCallbacks
    { t with expiration := next.1, consecutiveCatchUpCallbacks := next.2 }
  | .fixedDelay =>
    { t with expiration := now + t.interval, consecutiveCatchUpCallbacks := 0 }

/-- The condition under which `reset` re-arms a timer of the batch. -/
def rearms (q : Queue) (seq : Nat) : Bool :=
  (q.heap seq).repeats && !(q.heap seq).canceled && decide (seq ∈ q.timersById)

/-- One turn of the loop in `TimerQueue::reset`. -/
def resetOne (now : Int) (q : Queue) (seq : Nat) : Queue :=
  if rearms q seq then (insert (q.modify seq (fun t => rearm t now)) seq).2
  else { q with timersById := q.timersById.filter (· ≠ seq) }

/-- `TimerQueue::reset`. -/
def reset (q : Queue) (expired : List Nat) (now : Int) : Queue :=
  expired.foldl (resetOne now) q

/-! ## The containers agree -/

@[simp] theorem mem_emplace {k x : Key} {l : List Key} : x ∈ emplace k l ↔ x = k ∨ x ∈ l := by
  induction l with
  | nil => simp [emplace]
  | cons y rest ih =>
    unfold emplace
    split
    · simp
    · split
      · rename_i h
        simp [h]
      · simp [ih, or_left_comm]

theorem keyLt_iff {a b : Key} : keyLt a b = true ↔ a.1 < b.1 ∨ (a.1 = b.1 ∧ a.2 < b.2) := by
  simp [keyLt]

/-- The keys stand in strictly ascending order. -/
def Ordered (l : List Key) : Prop := l.Pairwise (fun a b => keyLt a b = true)

theorem Ordered.nodup {l : List Key} (h : Ordered l) : l.Nodup := by
  refine List.Pairwise.imp ?_ h
  rintro a b hab rfl
  rw [keyLt_iff] at hab
  omega

theorem emplace_ordered {k : Key} {l : List Key} (h : Ordered l) : Ordered (emplace k l) := by
  induction l with
  | nil => simp [emplace, Ordered]
  | cons x rest ih =>
    obtain ⟨hx, hrest⟩ := List.pairwise_cons.mp h
    unfold emplace
    split
    · rename_i hlt
      refine List.pairwise_cons.mpr ⟨?_, h⟩
      intro y hy
      rcases List.mem_cons.mp hy with rfl | hy
      · exact hlt
      · have hxy := hx y hy
        rw [keyLt_iff] at hlt hxy ⊢
        omega
    · split
      · exact h
      · rename_i hnot hne
        refine List.pairwise_cons.mpr ⟨?_, ih hrest⟩
        intro y hy
        rcases mem_emplace.mp hy with rfl | hy
        · -- neither below `x` nor equal to it: above it
          rw [keyLt_iff] at hnot ⊢
          have hdiff : ¬ (y.1 = x.1 ∧ y.2 = x.2) := fun he => hne (Prod.ext he.1 he.2)
          omega
        · exact hx y hy

@[simp] theorem modify_heap_self {q : Queue} {seq : Nat} {f : Timer → Timer} :
    (q.modify seq f).heap seq = f (q.heap seq) := by
  simp [Queue.modify]

theorem modify_heap_ne {q : Queue} {seq i : Nat} {f : Timer → Timer} (h : i ≠ seq) :
    (q.modify seq f).heap i = q.heap i := by
  simp [Queue.modify, Function.update_of_ne h]

/-- The two containers of a queue whose timers `batch` are extracted. -/
structure Good (q : Queue) (batch : List Nat) : Prop where
  ordered : Ordered q.timers
  key_own : ∀ k ∈ q.timers, k.1 = (q.heap k.2).expiration
  key_inQueue : ∀ k ∈ q.timers, (q.heap k.2).inQueue = true
  key_byId : ∀ k ∈ q.timers, k.2 ∈ q.timersById
  byId_placed : ∀ i ∈ q.timersById, ((q.heap i).expiration, i) ∈ q.timers ∨ i ∈ batch
  byId_used : ∀ i ∈ q.timersById, i < q.nextSequence
  batch_nodup : batch.Nodup
  batch_used : ∀ i ∈ batch, i < q.nextSequence
  batch_out : ∀ i ∈ batch, (q.heap i).inQueue = false
  batch_gone : ∀ i ∈ batch, i ∉ q.timersById → (q.heap i).canceled = true

/-- A timer object that no container holds yet. -/
structure Fresh (q : Queue) (batch : List Nat) (seq : Nat) : Prop where
  used : seq < q.nextSequence
  not_byId : seq ∉ q.timersById
  not_batch : seq ∉ batch

/-- A queue that knows no more timers keeps a new timer new. -/
theorem Fresh.mono {q q' : Queue} {batch batch' : List Nat} {seq : Nat} (h : Fresh q batch seq)
    (hn : q.nextSequence ≤ q'.nextSequence) (hm : seq ∈ q'.timersById → seq ∈ q.timersById)
    (hb : seq ∈ batch' → seq ∈ batch ∨ seq ∈ q.timersById) : Fresh q' batch' seq where
  used := Nat.lt_of_lt_of_le h.used hn
  not_byId := fun hi => h.not_byId (hm hi)
  not_batch := fun hi => (hb hi).elim h.not_batch h.not_byId

theorem empty_good : Good empty [] := by
  constructor <;> simp [empty, Ordered]

section
variable {q : Queue} {batch : List Nat} {seq : Nat}

/-- An extracted timer has no key. -/
theorem Good.batch_no_key (h : Good q batch) (hb : seq ∈ batch) : ∀ k ∈ q.timers, k.2 ≠ seq := by
  intro k hk heq
  have hin := h.key_inQueue k hk
  rw [heq, h.batch_out seq hb] at hin
  cases hin

theorem alloc_good (h : Good q batch) (t : Timer) : Good (q.alloc t) batch := by
  have hold : ∀ i, i < q.nextSequence → (q.alloc t).heap i = q.heap i := by
    intro i hi
    exact Function.update_of_ne (Nat.ne_of_lt hi) _ _
  have hkey : ∀ k ∈ q.timers, (q.alloc t).heap k.2 = q.heap k.2 :=
    fun k hk => hold _ (h.byId_used _ (h.key_byId k hk))
  constructor
  case ordered => exact h.ordered
  case key_own => intro k hk; rw [hkey k hk]; exact h.key_own k hk
  case key_inQueue => intro k hk; rw [hkey k hk]; exact h.key_inQueue k hk
  case key_byId => exact h.key_byId
  case byId_placed => intro i hi; rw [hold i (h.byId_used i hi)]; exact h.byId_placed i hi
  case byId_used => exact fun i hi => Nat.lt_succ_of_lt (h.byId_used i hi)
  case batch_nodup => exact h.batch_nodup
  case batch_used => exact fun i hi => Nat.lt_succ_of_lt (h.batch_used i hi)
  case batch_out => intro i hi; rw [hold i (h.batch_used i hi)]; exact h.batch_out i hi
  case batch_gone => intro i hi; rw [hold i (h.batch_used i hi)]; exact h.batch_gone i hi

theorem alloc_fresh (h : Good q batch) (t : Timer) : Fresh (q.alloc t) batch q.nextSequence where
  used := Nat.lt_succ_self _
  not_byId := fun hi => Nat.lt_irrefl _ (h.byId_used _ hi)
  not_batch := fun hi => Nat.lt_irrefl _ (h.batch_used _ hi)

/-- `insert` of a timer that has no key: a new one (`b` is the batch), or one that leaves
    the batch (`b` is the batch with it). -/
theorem insert_good {b : List Nat} (h : Good q b) (hb : b = batch ∨ b = seq :: batch)
    (hused : seq < q.nextSequence) (hkey : ∀ k ∈ q.timers, k.2 ≠ seq) (hbatch : seq ∉ batch) :
    Good (insert q seq).2 batch := by
  have hold : ∀ i, i ≠ seq → (insert q seq).2.heap i = q.heap i := by
    intro i hi
    simp only [insert]
    exact modify_heap_ne hi
  have hexp : ((insert q seq).2.heap seq).expiration = (q.heap seq).expiration := by simp [insert]
  have hin : ((insert q seq).2.heap seq).inQueue = true := by simp [insert]
  have hmem : ∀ i, i ∈ (insert q seq).2.timersById ↔ i = seq ∨ i ∈ q.timersById := by
    intro i
    simp only [insert]
    split <;> grind
  have hkeys : ∀ k, k ∈ (insert q seq).2.timers ↔
      k = ((q.heap seq).expiration, seq) ∨ k ∈ q.timers := by
    intro k
    simp [insert]
  have hne : ∀ i ∈ batch, i ≠ seq := fun i hi heq => hbatch (heq ▸ hi)
  have hsub : ∀ i ∈ batch, i ∈ b := by
    intro i hi
    rcases hb with rfl | rfl
    · exact hi
    · exact .tail _ hi
  constructor
  case ordered => exact emplace_ordered h.ordered
  case key_own =>
    intro k hk
    rcases (hkeys k).mp hk with rfl | hk
    · exact hexp.symm
    · rw [hold _ (hkey k hk)]; exact h.key_own k hk
  case key_inQueue =>
    intro k hk
    rcases (hkeys k).mp hk with rfl | hk
    · exact hin
    · rw [hold _ (hkey k hk)]; exact h.key_inQueue k hk
  case key_byId =>
    intro k hk
    rcases (hkeys k).mp hk with rfl | hk
    · exact (hmem _).mpr (Or.inl rfl)
    · exact (hmem _).mpr (Or.inr (h.key_byId k hk))
  case byId_placed =>
    intro i hi
    by_cases heq : i = seq
    · subst heq
      exact Or.inl ((hkeys _).mpr (Or.inl (by rw [hexp])))
    · rw [hold i heq]
      have hi' : i ∈ q.timersById := ((hmem i).mp hi).resolve_left heq
      rcases h.byId_placed i hi' with hk | hk
      · exact Or.inl ((hkeys _).mpr (Or.inr hk))
      · rcases hb with rfl | rfl
        · exact Or.inr hk
        · exact Or.inr ((List.mem_cons.mp hk).resolve_left heq)
  case byId_used =>
    intro i hi
    rcases (hmem i).mp hi with rfl | hi
    · exact hused
    · exact h.byId_used i hi
  case batch_nodup =>
    rcases hb with rfl | rfl
    · exact h.batch_nodup
    · exact (List.nodup_cons.mp h.batch_nodup).2
  case batch_used => exact fun i hi => h.batch_used i (hsub i hi)
  case batch_out => intro i hi; rw [hold i (hne i hi)]; exact h.batch_out i (hsub i hi)
  case batch_gone =>
    intro i hi hgone
    rw [hold i (hne i hi)]
    exact h.batch_gone i (hsub i hi) (fun hm => hgone ((hmem i).mpr (Or.inr hm)))

theorem addTimerInLoop_good (h : Good q batch) (hf : Fresh q batch seq) :
    Good (addTimerInLoop q seq) batch :=
  insert_good h (Or.inl rfl) hf.used (fun k hk heq => hf.not_byId (heq ▸ h.key_byId k hk)) hf.not_batch

variable {i : Nat}

theorem mem_addTimerInLoop :
    i ∈ (addTimerInLoop q seq).timersById ↔ i = seq ∨ i ∈ q.timersById := by
  simp only [addTimerInLoop, insert]
  split <;> grind

/-! ## Cancellation, extraction and re-arming -/

theorem mem_cancelInLoop :
    i ∈ (cancelInLoop q seq).timersById ↔ i ∈ q.timersById ∧ i ≠ seq := by
  unfold cancelInLoop
  by_cases hm : seq ∈ q.timersById
  · by_cases hin : (q.heap seq).inQueue <;> simp [hm, hin]
  · simp only [hm, if_false]
    constructor
    · exact fun hi => ⟨hi, fun heq => hm (heq ▸ hi)⟩
    · exact fun hi => hi.1

theorem cancelInLoop_nextSequence : (cancelInLoop q seq).nextSequence = q.nextSequence := by
  unfold cancelInLoop
  split
  · dsimp only
    split <;> rfl
  · rfl

theorem cancelInLoop_heap_ne (h : i ≠ seq) : (cancelInLoop q seq).heap i = q.heap i := by
  unfold cancelInLoop
  split
  · dsimp only
    split
    · rw [modify_heap_ne h, modify_heap_ne h]
    · rw [modify_heap_ne h]
  · rfl

/-- What remains of `timers_`: every key but the canceled timer's. -/
theorem mem_timers_cancelInLoop (h : Good q batch) {k : Key} :
    k ∈ (cancelInLoop q seq).timers ↔ k ∈ q.timers ∧ k.2 ≠ seq := by
  have hown : ∀ k ∈ q.timers, k.2 = seq → k = ((q.heap seq).expiration, seq) := by
    rintro k hk rfl
    rw [← h.key_own k hk]
  unfold cancelInLoop
  by_cases hm : seq ∈ q.timersById
  · by_cases hin : (q.heap seq).inQueue
    · simp only [hm, hin, if_true, List.mem_filter, decide_eq_true_eq]
      constructor
      · exact fun hk => ⟨hk.1, fun heq => hk.2 (hown k hk.1 heq)⟩
      · exact fun hk => ⟨hk.1, fun heq => hk.2 (by rw [heq])⟩
    · simp only [hm, hin, if_true, Bool.false_eq_true, if_false]
      constructor
      · exact fun hk => ⟨hk, fun heq => hin (heq ▸ h.key_inQueue k hk)⟩
      · exact fun hk => hk.1
  · simp only [hm, if_false]
    constructor
    · exact fun hk => ⟨hk, fun heq => hm (heq ▸ h.key_byId k hk)⟩
    · exact fun hk => hk.1

/-- The canceled timer itself, where `timersById_` still held it. -/
theorem cancelInLoop_self (hm : seq ∈ q.timersById) :
    ((cancelInLoop q seq).heap seq).canceled = true ∧
      ((cancelInLoop q seq).heap seq).inQueue = false := by
  unfold cancelInLoop
  by_cases hin : (q.heap seq).inQueue <;> simp [hm, hin]

theorem cancelInLoop_ordered (h : Ordered q.timers) : Ordered (cancelInLoop q seq).timers := by
  unfold cancelInLoop
  split
  · dsimp only
    split
    · exact List.Pairwise.filter _ h
    · exact h
  · exact h

theorem cancelInLoop_good (h : Good q batch) : Good (cancelInLoop q seq) batch := by
  have hold : ∀ i, i ≠ seq → (cancelInLoop q seq).heap i = q.heap i :=
    fun i hi => cancelInLoop_heap_ne hi
  constructor
  case ordered => exact cancelInLoop_ordered h.ordered
  case key_own =>
    intro k hk
    obtain ⟨hk, hne⟩ := (mem_timers_cancelInLoop h).mp hk
    rw [hold _ hne]; exact h.key_own k hk
  case key_inQueue =>
    intro k hk
    obtain ⟨hk, hne⟩ := (mem_timers_cancelInLoop h).mp hk
    rw [hold _ hne]; exact h.key_inQueue k hk
  case key_byId =>
    intro k hk
    obtain ⟨hk, hne⟩ := (mem_timers_cancelInLoop h).mp hk
    exact mem_cancelInLoop.mpr ⟨h.key_byId k hk, hne⟩
  case byId_placed =>
    intro i hi
    obtain ⟨hi, hne⟩ := mem_cancelInLoop.mp hi
    rw [hold i hne]
    exact (h.byId_placed i hi).imp (fun hk => (mem_timers_cancelInLoop h).mpr ⟨hk, hne⟩) id
  case byId_used =>
    intro i hi
    rw [cancelInLoop_nextSequence]
    exact h.byId_used i (mem_cancelInLoop.mp hi).1
  case batch_nodup => exact h.batch_nodup
  case batch_used => intro i hi; rw [cancelInLoop_nextSequence]; exact h.batch_used i hi
  case batch_out =>
    intro i hi
    by_cases heq : i = seq
    · subst heq
      by_cases hm : i ∈ q.timersById
      · exact (cancelInLoop_self hm).2
      · simp only [cancelInLoop, hm, if_false]; exact h.batch_out i hi
    · rw [hold i heq]; exact h.batch_out i hi
  case batch_gone =>
    intro i hi hgone
    by_cases heq : i = seq
    · subst heq
      by_cases hm : i ∈ q.timersById
      · exact (cancelInLoop_self hm).1
      · simp only [cancelInLoop, hm, if_false]; exact h.batch_gone i hi hm
    · rw [hold i heq]
      exact h.batch_gone i hi (fun hm => hgone (mem_cancelInLoop.mpr ⟨hm, heq⟩))

theorem timers_split (q : Queue) (now : Int) (maxCount : Nat) :
    q.timers = expiredKeys q now maxCount ++ (getExpired q now maxCount).2.timers := by
  have htake : expiredKeys q now maxCount =
      q.timers.take (expiredKeys q now maxCount).length := by
    have hpre : expiredKeys q now maxCount <+: q.timers :=
      (List.take_prefix _ _).trans (List.takeWhile_prefix _)
    exact List.prefix_iff_eq_take.mp hpre
  calc q.timers
      = q.timers.take (expiredKeys q now maxCount).length ++
          q.timers.drop (expiredKeys q now maxCount).length := (List.take_append_drop _ _).symm
    _ = _ := by rw [← htake]; rfl

variable {now : Int}

theorem mem_getExpired (h : Good q batch) {maxCount i : Nat}
    (hi : i ∈ (getExpired q now maxCount).1) : i ∈ q.timersById := by
  obtain ⟨k, hk, rfl⟩ := List.mem_map.mp hi
  refine h.key_byId k ?_
  rw [timers_split q now maxCount]
  exact List.mem_append_left _ hk

/-- Extraction moves the taken timers from the containers' keys into the batch. -/
theorem getExpired_good (h : Good q []) (now : Int) (maxCount : Nat) :
    Good (getExpired q now maxCount).2 (getExpired q now maxCount).1 := by
  have hsplit := timers_split q now maxCount
  have hbatch : ∀ i, i ∈ (getExpired q now maxCount).1 ↔ ∃ k ∈ expiredKeys q now maxCount, k.2 = i := by
    intro i
    exact List.mem_map
  have hall : ∀ k ∈ (getExpired q now maxCount).2.timers, k ∈ q.timers := by
    intro k hk
    rw [hsplit]
    exact List.mem_append_right _ hk
  have htaken : ∀ k ∈ expiredKeys q now maxCount, k ∈ q.timers := by
    intro k hk
    rw [hsplit]
    exact List.mem_append_left _ hk
  -- one timer has one key, so a key that stays belongs to no taken timer
  have hkeyeq : ∀ k ∈ q.timers, ∀ k' ∈ q.timers, k.2 = k'.2 → k = k' := by
    intro k hk k' hk' heq
    refine Prod.ext ?_ heq
    rw [h.key_own k hk, h.key_own k' hk', heq]
  have hdisj : ∀ k ∈ (getExpired q now maxCount).2.timers, k.2 ∉ (getExpired q now maxCount).1 := by
    intro k hk hb
    obtain ⟨k', hk', heq⟩ := (hbatch _).mp hb
    have hnd := h.ordered.nodup
    rw [hsplit] at hnd
    have hkk : k' = k := hkeyeq k' (htaken k' hk') k (hall k hk) heq
    exact List.disjoint_of_nodup_append hnd hk' (hkk ▸ hk)
  have hheap : ∀ i, i ∉ (getExpired q now maxCount).1 →
      (getExpired q now maxCount).2.heap i = q.heap i := by
    intro i hi
    simp only [getExpired, Queue.unlink] at hi ⊢
    rw [if_neg hi]
  have hexp : ∀ i, ((getExpired q now maxCount).2.heap i).expiration = (q.heap i).expiration := by
    intro i
    simp only [getExpired, Queue.unlink]
    split <;> rfl
  have hbyId : ∀ i ∈ (getExpired q now maxCount).1, i ∈ q.timersById := fun i => mem_getExpired h
  constructor
  case ordered =>
    have hord := h.ordered
    rw [hsplit] at hord
    exact (List.pairwise_append.mp hord).2.1
  case key_own =>
    intro k hk
    rw [hexp]
    exact h.key_own k (hall k hk)
  case key_inQueue =>
    intro k hk
    rw [hheap _ (hdisj k hk)]
    exact h.key_inQueue k (hall k hk)
  case key_byId => exact fun k hk => h.key_byId k (hall k hk)
  case byId_placed =>
    intro i hi
    rw [hexp]
    have hk : ((q.heap i).expiration, i) ∈ q.timers := (h.byId_placed i hi).resolve_right (by simp)
    rw [hsplit] at hk
    rcases List.mem_append.mp hk with hk | hk
    · exact Or.inr ((hbatch i).mpr ⟨_, hk, rfl⟩)
    · exact Or.inl hk
  case byId_used => exact h.byId_used
  case batch_nodup =>
    have hnd := h.ordered.nodup
    rw [hsplit] at hnd
    have hnd' : (expiredKeys q now maxCount).Nodup := (List.nodup_append.mp hnd).1
    refine List.Nodup.map_on ?_ hnd'
    exact fun k hk k' hk' heq => hkeyeq k (htaken k hk) k' (htaken k' hk') heq
  case batch_used => exact fun i hi => h.byId_used i (hbyId i hi)
  case batch_out =>
    intro i hi
    simp only [getExpired, Queue.unlink] at hi ⊢
    rw [if_pos hi]
  case batch_gone => exact fun i hi hgone => absurd (hbyId i hi) hgone

theorem mem_resetOne (h : i ∈ (resetOne now q seq).timersById) :
    i ∈ q.timersById := by
  unfold resetOne at h
  split at h
  · rename_i hr
    have hseq : seq ∈ q.timersById := by
      simp only [rearms, Bool.and_eq_true, decide_eq_true_eq] at hr
      exact hr.2
    simp only [insert, Queue.modify] at h
    simpa [hseq] using h
  · exact (List.mem_filter.mp h).1

theorem resetOne_nextSequence : (resetOne now q seq).nextSequence = q.nextSequence := by
  unfold resetOne
  split <;> rfl

/-- A change of an extracted timer that neither links it nor takes a cancellation back. -/
theorem modify_good (h : Good q batch) (hb : seq ∈ batch) {f : Timer → Timer}
    (hin : ∀ t, (f t).inQueue = t.inQueue) (hc : ∀ t, t.canceled = true → (f t).canceled = true) :
    Good (q.modify seq f) batch := by
  have hkey : ∀ k ∈ q.timers, (q.modify seq f).heap k.2 = q.heap k.2 :=
    fun k hk => modify_heap_ne (h.batch_no_key hb k hk)
  constructor
  case ordered => exact h.ordered
  case key_own => intro k hk; rw [hkey k hk]; exact h.key_own k hk
  case key_inQueue => intro k hk; rw [hkey k hk]; exact h.key_inQueue k hk
  case key_byId => exact h.key_byId
  case byId_placed =>
    intro i hi
    by_cases heq : i = seq
    · exact Or.inr (heq ▸ hb)
    · rw [modify_heap_ne heq]; exact h.byId_placed i hi
  case byId_used => exact h.byId_used
  case batch_nodup => exact h.batch_nodup
  case batch_used => exact h.batch_used
  case batch_out =>
    intro i hi
    by_cases heq : i = seq
    · subst heq
      rw [modify_heap_self, hin]; exact h.batch_out i hi
    · rw [modify_heap_ne heq]; exact h.batch_out i hi
  case batch_gone =>
    intro i hi hgone
    by_cases heq : i = seq
    · subst heq
      rw [modify_heap_self]; exact hc _ (h.batch_gone i hi hgone)
    · rw [modify_heap_ne heq]; exact h.batch_gone i hi hgone

/-- The timer that `reset` does not re-arm leaves the identity map. -/
theorem retire_good (h : Good q (seq :: batch)) :
    Good { q with timersById := q.timersById.filter (· ≠ seq) } batch := by
  have hnd := List.nodup_cons.mp h.batch_nodup
  constructor
  case ordered => exact h.ordered
  case key_own => exact h.key_own
  case key_inQueue => exact h.key_inQueue
  case key_byId =>
    intro k hk
    have hne : k.2 ≠ seq := h.batch_no_key (.head _) k hk
    simpa using ⟨h.key_byId k hk, hne⟩
  case byId_placed =>
    intro i hi
    obtain ⟨hi, hne⟩ := List.mem_filter.mp hi
    refine (h.byId_placed i hi).imp id (fun hb => (List.mem_cons.mp hb).resolve_left ?_)
    simpa using hne
  case byId_used => exact fun i hi => h.byId_used i (List.mem_filter.mp hi).1
  case batch_nodup => exact hnd.2
  case batch_used => exact fun i hi => h.batch_used i (.tail _ hi)
  case batch_out => exact fun i hi => h.batch_out i (.tail _ hi)
  case batch_gone =>
    intro i hi hgone
    refine h.batch_gone i (.tail _ hi) (fun hm => hgone ?_)
    have hne : i ≠ seq := fun heq => hnd.1 (heq ▸ hi)
    simpa using ⟨hm, hne⟩

theorem resetOne_good (h : Good q (seq :: batch)) : Good (resetOne now q seq) batch := by
  have hself : seq ∈ seq :: batch := .head _
  unfold resetOne
  split
  · refine insert_good (modify_good h hself ?_ ?_) (Or.inr rfl) (h.batch_used seq hself)
      (h.batch_no_key hself) (List.nodup_cons.mp h.batch_nodup).1
    · intro t
      unfold rearm
      split <;> rfl
    · intro t ht
      unfold rearm
      split <;> exact ht
  · exact retire_good h

/-- `reset` gives every timer of the batch back or drops it. -/
theorem reset_good (h : Good q batch) : Good (reset q batch now) [] := by
  induction batch generalizing q with
  | nil => exact h
  | cons t rest ih => exact ih (resetOne_good h)

theorem mem_reset (h : i ∈ (reset q batch now).timersById) :
    i ∈ q.timersById := by
  induction batch generalizing q with
  | nil => exact h
  | cons t rest ih => exact mem_resetOne (ih h)

theorem reset_nextSequence : (reset q batch now).nextSequence = q.nextSequence := by
  induction batch generalizing q with
  | nil => rfl
  | cons t rest ih => exact ih.trans resetOne_nextSequence

/-! ## A repeating timer that nobody cancels -/

/-- A repeating timer that the identity map holds and nothing has canceled. -/
structure Live (q : Queue) (seq : Nat) : Prop where
  byId : seq ∈ q.timersById
  uncanceled : (q.heap seq).canceled = false
  repeating : 0 < (q.heap seq).interval

theorem Live.of_heap {q' : Queue} (h : Live q seq) (hm : seq ∈ q'.timersById)
    (hc : (q'.heap seq).canceled = (q.heap seq).canceled)
    (hi : (q'.heap seq).interval = (q.heap seq).interval) : Live q' seq :=
  ⟨hm, hc.trans h.uncanceled, hi ▸ h.repeating⟩

theorem Live.alloc (hg : Good q batch) (h : Live q seq) (t : Timer) : Live (q.alloc t) seq := by
  have hne : seq ≠ q.nextSequence := Nat.ne_of_lt (hg.byId_used seq h.byId)
  have hheap : (q.alloc t).heap seq = q.heap seq := Function.update_of_ne hne _ _
  exact h.of_heap h.byId (by rw [hheap]) (by rw [hheap])

theorem Live.addTimerInLoop (h : Live q seq) (hne : seq ≠ i) :
    Live (addTimerInLoop q i) seq := by
  have hheap : (TimerQueue.addTimerInLoop q i).heap seq = q.heap seq := by
    simp only [TimerQueue.addTimerInLoop, insert]
    exact modify_heap_ne hne
  exact h.of_heap (mem_addTimerInLoop.mpr (Or.inr h.byId)) (by rw [hheap]) (by rw [hheap])

theorem Live.cancelInLoop (h : Live q seq) (hne : seq ≠ i) : Live (cancelInLoop q i) seq :=
  h.of_heap (mem_cancelInLoop.mpr ⟨h.byId, hne⟩) (by rw [cancelInLoop_heap_ne hne])
    (by rw [cancelInLoop_heap_ne hne])

theorem Live.getExpired {maxCount : Nat} (h : Live q seq) :
    Live (getExpired q now maxCount).2 seq := by
  refine h.of_heap h.byId ?_ ?_ <;>
  · simp only [TimerQueue.getExpired, Queue.unlink]
    split <;> rfl

theorem rearm_interval (t : Timer) (now : Int) : (rearm t now).interval = t.interval := by
  unfold rearm
  split <;> rfl

/-- `reset` re-arms a live timer and passes over the others. -/
theorem Live.resetOne (h : Live q seq) : Live (resetOne now q i) seq := by
  by_cases heq : i = seq
  · subst heq
    have hr : rearms q i = true := by simp [rearms, Timer.repeats, h.byId, h.uncanceled, h.repeating]
    unfold TimerQueue.resetOne
    rw [if_pos hr]
    refine ⟨mem_addTimerInLoop.mpr (Or.inl rfl), ?_, ?_⟩
    · simp [insert]
    · simpa [insert, rearm_interval] using h.repeating
  · have hne : seq ≠ i := fun hs => heq hs.symm
    unfold TimerQueue.resetOne
    split
    · have hmod : Live (q.modify i (fun t => rearm t now)) seq :=
        h.of_heap h.byId (by rw [modify_heap_ne hne]) (by rw [modify_heap_ne hne])
      exact hmod.addTimerInLoop hne
    · refine ⟨?_, h.uncanceled, h.repeating⟩
      simpa using ⟨h.byId, hne⟩

theorem Live.reset (h : Live q seq) : Live (reset q batch now) seq := by
  induction batch generalizing q with
  | nil => exact h
  | cons t rest ih => exact ih h.resetOne

end

end GameNet.TimerQueue
