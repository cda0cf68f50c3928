import GameNet.Machine
import GameNet.TimerQueue

/- TimerQueue under its EventLoop: the calls `tryAddTimer` and `tryCancel` of the
   owner thread and of other threads, interleaved with the loop's steps.

   A call of another thread is a step for `nextSequence_.fetch_add`, one for the
   executor's post and, for its functor, one when the drain runs it. The owner is
   between two phases of an iteration, inside `doPendingFunctors` with the rest of
   the batch it took, or inside `handleExpired` with the extracted timers; user code
   of the owner thread runs between phases, in the functor batch and in the timer
   callback that is running.

   A cancellation takes effect when an owner-thread `tryCancel` returns Accepted or
   when its functor has run. `canceled_never_starts` says that no callback of the
   timer starts after that, in every run whose owner-thread cancellations name no
   timer whose add functor is still waiting; `canceled_timer_starts` is a run
   without that condition in which one does: the add functor runs after
   `cancelInLoop` has found nothing. -/
namespace GameNet.TimerLoop

open GameNet.TimerQueue
open Machine (Reach Any)

/-! ## The machine -/

/-- The functors a TimerQueue posts, and every other one. -/
inductive Functor where
  | add (seq : Nat)
  | cancel (seq : Nat)
  | other
  deriving DecidableEq, Repr

/-- Where the owner thread is. -/
inductive Owner where
  | between
  | draining (rest : List Functor)
  | expiring (batch rest : List Nat) (running : Option Nat)
  deriving DecidableEq, Repr

inductive Event where
  | accepted (seq : Nat)
  | cancelTook (seq : Nat)
  | started (seq : Nat)
  deriving DecidableEq, Repr

structure State where
  queue : Queue
  phase : EventLoopPhase
  accepting : Bool
  functors : List Functor
  owner : Owner
  /-- Timers that another thread's `tryAddTimer` has made and not yet posted. -/
  posting : List Nat
  /-- The valid ids that an Accepted `tryAddTimer` has returned. -/
  returned : List Nat
  log : List Event

/-- Calls and loop steps. `TimerId` has no public constructor besides the invalid one,
    so a cancellation names 0 or an id that was returned. -/
inductive Label where
  | ownerAdd (r : AddRequest)
  | ownerCancel (seq : Nat)
  | remoteAlloc (r : AddRequest)
  | remotePost (seq : Nat)
  | remoteCancel (seq : Nat)
  | otherPost
  | drain (maxCount : Nat)
  | runFunctor
  | endDrain
  | expire (now : Int) (maxCount : Nat)
  | startNext
  | callbackEnd (threw : Bool)
  | finishExpired (now : Int)
  | quit
  deriving DecidableEq, Repr

def start : State where
  queue := empty
  phase := .running
  accepting := true
  functors := []
  owner := .between
  posting := []
  returned := []
  log := []

/-- The functors that are taken and not yet run, in order, then those still queued. -/
def State.waiting (s : State) : List Functor :=
  match s.owner with
  | .draining rest => rest ++ s.functors
  | _ => s.functors

/-- The timers extracted by the running `handleExpired`. -/
def State.batch (s : State) : List Nat :=
  match s.owner with
  | .expiring batch _ _ => batch
  | _ => []

/-- The callback that `handleExpired` is running. -/
def State.running (s : State) : Option Nat :=
  match s.owner with
  | .expiring _ _ running => running
  | _ => none

/-- Whether user code of the owner thread can run here. -/
def State.userCode (s : State) : Bool :=
  match s.owner with
  | .between => true
  | .draining _ => true
  | .expiring _ _ running => running.isSome

/-- `EventLoopExecutor::postFunctor` on a live loop with `cap = maxPendingFunctors`. -/
def post (cap : Nat) (s : State) (f : Functor) : PostResult × State :=
  if s.accepting = false then (.shutdown, s)
  else if cap ≤ s.functors.length then (.queueFull, s)
  else (.accepted, { s with functors := s.functors ++ [f] })

/-- `tryAddTimer` on the owner thread, past its input checks. -/
def ownerAddTimer (s : State) (t : Timer) : PostResult × State :=
  let seq := s.queue.nextSequence
  let q := s.queue.alloc t
  if s.phase ≠ .running then (.shutdown, { s with queue := q })
  else (.accepted, { s with queue := addTimerInLoop q seq, log := .accepted seq :: s.log })

/-- `tryCancel` on the owner thread. -/
def ownerCancelTimer (s : State) (seq : Nat) : PostResult × State :=
  if seq = 0 then (.accepted, s)
  else if s.phase ≠ .running then (.shutdown, s)
  else (.accepted, { s with queue := cancelInLoop s.queue seq, log := .cancelTook seq :: s.log })

/-- One functor of the batch; user code in an `other` functor is made of owner steps. -/
def runFunctor (s : State) (f : Functor) : State :=
  match f with
  | .add seq => { s with queue := addTimerInLoop s.queue seq }
  | .cancel seq => { s with queue := cancelInLoop s.queue seq, log := .cancelTook seq :: s.log }
  | .other => s

def step (cap : Nat) (s : State) : Label → Option State
  | .ownerAdd r =>
    if s.userCode then
      match r.check with
      | .error _ => some s
      | .ok () =>
        let (result, s') := ownerAddTimer s r.timer
        if result = .accepted then
          some { s' with returned := s.queue.nextSequence :: s'.returned }
        else some s'
    else none
  | .ownerCancel seq =>
    if s.userCode ∧ (seq = 0 ∨ seq ∈ s.returned) then some (ownerCancelTimer s seq).2 else none
  | .remoteAlloc r =>
    match r.check with
    | .error _ => some s
    | .ok () => some { s with queue := s.queue.alloc r.timer
                              posting := s.queue.nextSequence :: s.posting }
  | .remotePost seq =>
    if seq ∈ s.posting then
      let (result, s') := post cap s (.add seq)
      if result = .accepted then
        some { s' with posting := s'.posting.erase seq
                       returned := seq :: s'.returned
                       log := .accepted seq :: s'.log }
      else some { s' with posting := s'.posting.erase seq }
    else none
  | .remoteCancel seq =>
    if seq = 0 then some s
    else if seq ∈ s.returned then some (post cap s (.cancel seq)).2 else none
  | .otherPost => some (post cap s .other).2
  | .drain maxCount =>
    match s.owner with
    | .between => some { s with owner := .draining (s.functors.take maxCount)
                                functors := s.functors.drop maxCount }
    | _ => none
  | .runFunctor =>
    match s.owner with
    | .draining (f :: rest) => some { runFunctor s f with owner := .draining rest }
    | _ => none
  | .endDrain =>
    match s.owner with
    | .draining [] => some { s with owner := .between }
    | _ => none
  | .expire now maxCount =>
    match s.owner with
    | .between =>
      match s.queue.timers with
      | [] => some s
      | first :: _ =>
        if now < (s.queue.heap first.2).expiration then some s
        else
          let (expired, q) := getExpired s.queue now maxCount
          some { s with queue := q, owner := .expiring expired expired none }
    | _ => none
  | .startNext =>
    match s.owner with
    | .expiring batch (t :: rest) none =>
      if (s.queue.heap t).canceled then some { s with owner := .expiring batch rest none }
      else some { s with owner := .expiring batch rest (some t), log := .started t :: s.log }
    | _ => none
  | .callbackEnd threw =>
    match s.owner with
    | .expiring batch rest (some t) =>
      let q := if threw then s.queue.modify t (fun t => { t with canceled := true }) else s.queue
      some { s with queue := q, owner := .expiring batch rest none }
    | _ => none
  | .finishExpired now =>
    match s.owner with
    | .expiring batch [] none => some { s with queue := reset s.queue batch now, owner := .between }
    | _ => none
  | .quit =>
    some { s with accepting := false
                  phase := if s.phase = .running then .quiescing else s.phase }

/-- What a step does: the calls and the loop's own moves, with what they find. -/
inductive Moved (s : State) : Label → State → Prop
  | idle (l : Label) : Moved s l s
  | refused (r : AddRequest) : Moved s (.ownerAdd r) { s with queue := s.queue.alloc r.timer }
  | added (r : AddRequest) : Moved s (.ownerAdd r) { s with
      queue := addTimerInLoop (s.queue.alloc r.timer) s.queue.nextSequence
      returned := s.queue.nextSequence :: s.returned
      log := .accepted s.queue.nextSequence :: s.log }
  | canceled {seq : Nat} (hret : seq ∈ s.returned) : Moved s (.ownerCancel seq) { s with
      queue := cancelInLoop s.queue seq, log := .cancelTook seq :: s.log }
  | made (r : AddRequest) : Moved s (.remoteAlloc r) { s with
      queue := s.queue.alloc r.timer, posting := s.queue.nextSequence :: s.posting }
  | posted {seq : Nat} (hp : seq ∈ s.posting) : Moved s (.remotePost seq) { s with
      functors := s.functors ++ [.add seq], posting := s.posting.erase seq
      returned := seq :: s.returned, log := .accepted seq :: s.log }
  | unposted (seq : Nat) : Moved s (.remotePost seq) { s with posting := s.posting.erase seq }
  | pushed {l : Label} {f : Functor} (hadd : ∀ seq, f ≠ .add seq)
      (hret : ∀ seq, f = .cancel seq → seq ∈ s.returned) :
      Moved s l { s with functors := s.functors ++ [f] }
  | drained (maxCount : Nat) (ho : s.owner = .between) : Moved s (.drain maxCount) { s with
      owner := .draining (s.functors.take maxCount), functors := s.functors.drop maxCount }
  | ran {f : Functor} {rest : List Functor} (ho : s.owner = .draining (f :: rest)) :
      Moved s .runFunctor { runFunctor s f with owner := .draining rest }
  | endDrain (ho : s.owner = .draining []) : Moved s .endDrain { s with owner := .between }
  | expired (now : Int) (maxCount : Nat) (ho : s.owner = .between) : Moved s (.expire now maxCount) { s with
      queue := (getExpired s.queue now maxCount).2
      owner := .expiring (getExpired s.queue now maxCount).1 (getExpired s.queue now maxCount).1 none }
  | skipped {batch rest : List Nat} {t : Nat} (ho : s.owner = .expiring batch (t :: rest) none) :
      Moved s .startNext { s with owner := .expiring batch rest none }
  | started {batch rest : List Nat} {t : Nat} (ho : s.owner = .expiring batch (t :: rest) none)
      (hlive : ¬(s.queue.heap t).canceled = true) : Moved s .startNext { s with
        owner := .expiring batch rest (some t), log := .started t :: s.log }
  | ended {batch rest : List Nat} {t : Nat} (threw : Bool) (ho : s.owner = .expiring batch rest (some t)) :
      Moved s (.callbackEnd threw) { s with
        queue := if threw then s.queue.modify t (fun t => { t with canceled := true }) else s.queue
        owner := .expiring batch rest none }
  | finished {batch : List Nat} (now : Int) (ho : s.owner = .expiring batch [] none) :
      Moved s (.finishExpired now) { s with queue := reset s.queue batch now, owner := .between }
  | quit : Moved s .quit { s with
      accepting := false, phase := if s.phase = .running then .quiescing else s.phase }

/-- A post either appends the functor or leaves the loop as it is. -/
theorem post_cases (cap : Nat) (s : State) (f : Functor) :
    ((post cap s f).1 = .accepted ∧ (post cap s f).2 = { s with functors := s.functors ++ [f] }) ∨
      ((post cap s f).1 ≠ .accepted ∧ (post cap s f).2 = s) := by
  unfold post
  split
  · exact Or.inr ⟨by simp, rfl⟩
  · split
    · exact Or.inr ⟨by simp, rfl⟩
    · exact Or.inl ⟨rfl, rfl⟩

theorem post_moved {cap : Nat} {s : State} {f : Functor} (l : Label) (hadd : ∀ seq, f ≠ .add seq)
    (hret : ∀ seq, f = .cancel seq → seq ∈ s.returned) : Moved s l (post cap s f).2 := by
  obtain ⟨-, heq⟩ | ⟨-, heq⟩ := post_cases cap s f <;> rw [heq]
  · exact .pushed hadd hret
  · exact .idle l

theorem step_moved {cap : Nat} {s s' : State} {l : Label} (hs : step cap s l = some s') : Moved s l s' := by
  cases l with
  | ownerAdd r =>
    simp only [step] at hs
    split at hs
    case isFalse => cases hs
    case isTrue =>
      split at hs
      · cases hs
        exact .idle _
      · by_cases hrun : s.phase = .running
        · rw [show ownerAddTimer s r.timer = (.accepted, _) from if_neg (not_not.mpr hrun)] at hs
          cases hs
          exact .added r
        · rw [show ownerAddTimer s r.timer = (.shutdown, _) from if_pos hrun] at hs
          cases hs
          exact .refused r
  | ownerCancel seq =>
    simp only [step, ownerCancelTimer] at hs
    split_ifs at hs with hu hzero
    all_goals cases hs
    · exact .idle _
    · exact .idle _
    · exact .canceled (hu.2.resolve_left hzero)
  | remoteAlloc r =>
    simp only [step] at hs
    split at hs <;> cases hs
    · exact .idle _
    · exact .made r
  | remotePost seq =>
    simp only [step] at hs
    obtain ⟨hacc, heq⟩ | ⟨hrej, heq⟩ := post_cases cap s (.add seq)
    · rw [if_pos hacc, heq] at hs
      split_ifs at hs with hp
      cases hs
      exact .posted hp
    · rw [if_neg hrej, heq] at hs
      split_ifs at hs
      cases hs
      exact .unposted seq
  | remoteCancel seq =>
    simp only [step] at hs
    split_ifs at hs with hzero hret
    all_goals cases hs
    · exact .idle _
    · exact post_moved _ (by simp) (by rintro _ ⟨⟩; exact hret)
  | otherPost =>
    cases hs
    exact post_moved _ (by simp) (by simp)
  | expire now maxCount =>
    simp only [step] at hs
    split at hs
    case h_2 => cases hs
    case h_1 ho =>
      split at hs
      · cases hs
        exact .idle _
      · split at hs <;> cases hs
        · exact .idle _
        · exact .expired now maxCount ho
  | startNext =>
    simp only [step] at hs
    split at hs
    case h_2 => cases hs
    case h_1 ho =>
      split at hs <;> cases hs
      · exact .skipped ho
      · exact .started ho ‹_›
  | quit =>
    cases hs
    exact .quit
  | _ =>
    simp only [step] at hs
    split at hs <;> cases hs
    constructor
    assumption

/-! ## What every run keeps -/

/-- An add functor stands behind no other functor of its timer. -/
def Behind (f g : Functor) : Prop := ∀ seq, f = .add seq ∨ f = .cancel seq → g ≠ .add seq

/-- The waiting functors and the calls in progress agree with the queue. -/
structure Inv (s : State) : Prop where
  good : Good s.queue s.batch
  adds_fresh : ∀ seq, .add seq ∈ s.waiting → Fresh s.queue s.batch seq
  adds_first : s.waiting.Pairwise Behind
  cancels_returned : ∀ seq, .cancel seq ∈ s.waiting → seq ∈ s.returned
  adds_returned : ∀ seq, .add seq ∈ s.waiting → seq ∈ s.returned
  posting_fresh : ∀ seq ∈ s.posting, Fresh s.queue s.batch seq
  posting_nodup : s.posting.Nodup
  posting_new : ∀ seq ∈ s.posting, seq ∉ s.returned
  returned_used : ∀ seq ∈ s.returned, seq < s.queue.nextSequence
  rest_batch : ∀ batch rest running, s.owner = .expiring batch rest running →
    (∀ i ∈ rest, i ∈ batch) ∧ ∀ t, running = some t → t ∈ batch

theorem start_inv : Inv start := by
  constructor
  case good => exact empty_good
  all_goals simp [start, State.waiting]

section
variable {cap : Nat} {s s' : State} {l : Label}

variable {q : Queue}

/-- A change of the queue alone; what it adds is nobody's new timer. -/
theorem Inv.set_queue (h : Inv s) (log : List Event) (hg : Good q s.batch)
    (hn : s.queue.nextSequence ≤ q.nextSequence)
    (hm : ∀ i ∈ q.timersById, i ∈ s.queue.timersById ∨ (.add i ∉ s.waiting ∧ i ∉ s.posting)) :
    Inv { s with queue := q, log := log } where
  good := hg
  adds_fresh := fun seq hi => (h.adds_fresh seq hi).mono hn
    (fun hq => (hm seq hq).resolve_right (fun hno => hno.1 hi)) Or.inl
  adds_first := h.adds_first
  cancels_returned := h.cancels_returned
  adds_returned := h.adds_returned
  posting_fresh := fun seq hi => (h.posting_fresh seq hi).mono hn
    (fun hq => (hm seq hq).resolve_right (fun hno => hno.2 hi)) Or.inl
  posting_nodup := h.posting_nodup
  posting_new := h.posting_new
  returned_used := fun seq hi => Nat.lt_of_lt_of_le (h.returned_used seq hi) hn
  rest_batch := h.rest_batch

variable {log : List Event}

theorem Inv.cancel {seq : Nat} (h : Inv s) :
    Inv { s with queue := cancelInLoop s.queue seq, log := log } :=
  h.set_queue log (cancelInLoop_good h.good) (Nat.le_of_eq cancelInLoop_nextSequence.symm)
    (fun _ hi => Or.inl (mem_cancelInLoop.mp hi).1)

/-- The next sequence names no timer yet. -/
theorem Inv.next_unused (h : Inv s) :
    .add s.queue.nextSequence ∉ s.waiting ∧ s.queue.nextSequence ∉ s.posting :=
  ⟨fun hi => Nat.lt_irrefl _ (h.adds_fresh _ hi).used,
    fun hi => Nat.lt_irrefl _ (h.posting_fresh _ hi).used⟩

theorem Inv.alloc (h : Inv s) (t : Timer) : Inv { s with queue := s.queue.alloc t } :=
  h.set_queue s.log (alloc_good h.good t) (Nat.le_succ _) (fun _ hi => Or.inl hi)

theorem Inv.addNew (h : Inv s) (t : Timer) :
    Inv { s with queue := addTimerInLoop (s.queue.alloc t) s.queue.nextSequence, log := log } := by
  refine h.set_queue _ (addTimerInLoop_good (alloc_good h.good t) (alloc_fresh h.good t))
    (Nat.le_succ _) (fun i hi => ?_)
  rcases mem_addTimerInLoop.mp hi with rfl | hi
  · exact Or.inr h.next_unused
  · exact Or.inl hi

/-- `tryAddTimer` on the owner thread. -/
theorem Inv.ownerAddTimer (h : Inv s) (t : Timer) : Inv (ownerAddTimer s t).2 := by
  unfold TimerLoop.ownerAddTimer
  dsimp only
  split
  · exact h.alloc t
  · exact h.addNew t

theorem Inv.set_log (h : Inv s) : Inv { s with log := log } :=
  h.set_queue log h.good (Nat.le_refl _) (fun _ => Or.inl)

/-- A call hands a new id to its caller. -/
theorem Inv.give {seq : Nat} (h : Inv s) (hused : seq < s.queue.nextSequence)
    (hp : seq ∉ s.posting) : Inv { s with returned := seq :: s.returned } :=
  { h with
    cancels_returned := fun i hi => .tail _ (h.cancels_returned i hi)
    adds_returned := fun i hi => .tail _ (h.adds_returned i hi)
    posting_new := by
      intro i hi hr
      rcases List.mem_cons.mp hr with rfl | hr
      · exact hp hi
      · exact h.posting_new i hi hr
    returned_used := by
      intro i hi
      rcases List.mem_cons.mp hi with rfl | hi
      · exact hused
      · exact h.returned_used i hi }

theorem Inv.unpost (h : Inv s) (seq : Nat) : Inv { s with posting := s.posting.erase seq } :=
  { h with
    posting_fresh := fun i hi => h.posting_fresh i (List.mem_of_mem_erase hi)
    posting_nodup := h.posting_nodup.erase _
    posting_new := fun i hi => h.posting_new i (List.mem_of_mem_erase hi) }

theorem waiting_push (f : Functor) :
    State.waiting { s with functors := s.functors ++ [f] } = s.waiting ++ [f] := by
  unfold State.waiting
  cases s.owner with
  | draining rest => simp
  | between => rfl
  | expiring batch rest running => rfl

/-- An accepted post. -/
theorem Inv.push {f : Functor} (h : Inv s) (hbehind : ∀ g ∈ s.waiting, Behind g f)
    (hadd : ∀ seq, f = .add seq → Fresh s.queue s.batch seq)
    (hret : ∀ seq, f = .add seq ∨ f = .cancel seq → seq ∈ s.returned) :
    Inv { s with functors := s.functors ++ [f] } := by
  have hmem : ∀ g, g ∈ State.waiting { s with functors := s.functors ++ [f] } ↔
      g ∈ s.waiting ∨ g = f := by
    intro g
    rw [waiting_push]
    simp
  refine { h with adds_fresh := ?_, adds_first := ?_, cancels_returned := ?_, adds_returned := ?_ }
  · intro seq hi
    rcases (hmem _).mp hi with hi | hi
    · exact h.adds_fresh seq hi
    · exact hadd seq hi.symm
  · rw [waiting_push]
    refine List.pairwise_append.mpr ⟨h.adds_first, List.pairwise_singleton _ _, ?_⟩
    intro g hg f' hf'
    rw [List.mem_singleton.mp hf']
    exact hbehind g hg
  · intro seq hi
    rcases (hmem _).mp hi with hi | hi
    · exact h.cancels_returned seq hi
    · exact hret seq (Or.inr hi.symm)
  · intro seq hi
    rcases (hmem _).mp hi with hi | hi
    · exact h.adds_returned seq hi
    · exact hret seq (Or.inl hi.symm)

theorem Inv.remotePost {seq : Nat} (h : Inv s) (hp : seq ∈ s.posting) :
    Inv { s with
      functors := s.functors ++ [.add seq], posting := s.posting.erase seq
      returned := seq :: s.returned, log := .accepted seq :: s.log } := by
  have hfresh := h.posting_fresh seq hp
  have hnew : seq ∉ s.returned := h.posting_new seq hp
  refine Inv.set_log (Inv.push (Inv.give (h.unpost seq) hfresh.used ?_) ?_ ?_ ?_)
  · exact fun hi => ((List.Nodup.mem_erase_iff h.posting_nodup).mp hi).1 rfl
  · -- its id has not been returned, so no functor of the timer is waiting
    intro g hg i hgi heq
    cases heq
    rcases hgi with rfl | rfl
    · exact hnew (h.adds_returned seq hg)
    · exact hnew (h.cancels_returned seq hg)
  · rintro i ⟨⟩
    exact hfresh
  · rintro i (heq | heq) <;> cases heq
    exact .head _

/-- The owner moves on with the queue it has and the same functors waiting. -/
theorem Inv.set_owner {o : Owner} (h : Inv s) (log : List Event) (fs : List Functor)
    (hw : ∀ f, f ∈ State.waiting { s with owner := o, functors := fs } → f ∈ s.waiting)
    (hp : (State.waiting { s with owner := o, functors := fs }).Pairwise Behind)
    (hg : Good q (State.batch { s with owner := o }))
    (hn : q.nextSequence = s.queue.nextSequence)
    (hm : ∀ i ∈ q.timersById, i ∈ s.queue.timersById)
    (hb : ∀ i ∈ State.batch { s with owner := o }, i ∈ s.batch ∨ i ∈ s.queue.timersById)
    (hr : ∀ batch rest running, o = .expiring batch rest running →
      (∀ i ∈ rest, i ∈ batch) ∧ ∀ t, running = some t → t ∈ batch) :
    Inv { s with owner := o, functors := fs, queue := q, log := log } where
  good := hg
  adds_fresh := fun seq hi =>
    (h.adds_fresh seq (hw _ hi)).mono (Nat.le_of_eq hn.symm) (hm seq) (hb seq)
  adds_first := hp
  cancels_returned := fun seq hi => h.cancels_returned seq (hw _ hi)
  adds_returned := fun seq hi => h.adds_returned seq (hw _ hi)
  posting_fresh := fun seq hi =>
    (h.posting_fresh seq hi).mono (Nat.le_of_eq hn.symm) (hm seq) (hb seq)
  posting_nodup := h.posting_nodup
  posting_new := h.posting_new
  returned_used := fun seq hi => hn ▸ h.returned_used seq hi
  rest_batch := hr

theorem Inv.drain (h : Inv s) (maxCount : Nat) (ho : s.owner = .between) :
    Inv { s with
      owner := .draining (s.functors.take maxCount), functors := s.functors.drop maxCount } := by
  have hgood : Good s.queue [] := by simpa [State.batch, ho] using h.good
  have hw : s.functors.take maxCount ++ s.functors.drop maxCount = s.waiting := by
    simp [State.waiting, ho]
  have hpair := h.adds_first
  rw [← hw] at hpair
  exact h.set_owner s.log _ (fun f hf => hw ▸ hf) hpair hgood rfl (fun _ hi => hi)
    (by simp [State.batch]) (by simp)

/-- One functor of the batch runs. -/
theorem Inv.runFunctor {f : Functor} {rest : List Functor} (h : Inv s)
    (ho : s.owner = .draining (f :: rest)) : Inv { runFunctor s f with owner := .draining rest } := by
  have hw : s.waiting = f :: (rest ++ s.functors) := by simp [State.waiting, ho]
  have hbatch : s.batch = [] := by simp [State.batch, ho]
  have hgood : Good s.queue [] := hbatch ▸ h.good
  obtain ⟨hf, hrest⟩ := List.pairwise_cons.mp (hw ▸ h.adds_first)
  have hpop : Inv { s with owner := .draining rest } :=
    h.set_owner s.log s.functors (fun g hg => hw ▸ List.mem_cons_of_mem _ hg) hrest hgood rfl
      (fun _ hi => hi) (by simp [State.batch]) (by simp)
  cases f with
  | other => exact hpop
  | cancel seq => exact hpop.cancel
  | add seq =>
    have hmem : .add seq ∈ s.waiting := hw ▸ List.mem_cons_self
    have hfresh : Fresh s.queue [] seq := hbatch ▸ h.adds_fresh seq hmem
    refine hpop.set_queue s.log (addTimerInLoop_good hgood hfresh) (Nat.le_refl _) ?_
    intro i hi
    rcases mem_addTimerInLoop.mp hi with rfl | hi
    · -- this was the timer's only add, and its id has been returned
      exact Or.inr ⟨fun hq => hf _ hq i (Or.inl rfl) rfl,
        fun hp => h.posting_new i hp (h.adds_returned i hmem)⟩
    · exact Or.inl hi

/-- Outside the drain the waiting functors are the queued ones. -/
theorem waiting_eq_functors (ho : ∀ rest, s.owner ≠ .draining rest) : s.waiting = s.functors := by
  unfold State.waiting
  split
  · rename_i heq
    exact absurd heq (ho _)
  · rfl

/-- A step of `handleExpired`: the owner moves on and no functor is touched. -/
theorem Inv.expiring {o : Owner} (h : Inv s) (log : List Event)
    (ho : ∀ rest, s.owner ≠ .draining rest) (ho' : ∀ rest, o ≠ .draining rest)
    (hg : Good q (State.batch { s with owner := o }))
    (hn : q.nextSequence = s.queue.nextSequence)
    (hm : ∀ i ∈ q.timersById, i ∈ s.queue.timersById)
    (hb : ∀ i ∈ State.batch { s with owner := o }, i ∈ s.batch ∨ i ∈ s.queue.timersById)
    (hr : ∀ batch rest running, o = .expiring batch rest running →
      (∀ i ∈ rest, i ∈ batch) ∧ ∀ t, running = some t → t ∈ batch) :
    Inv { s with owner := o, queue := q, log := log } := by
  have hw : State.waiting { s with owner := o } = s.waiting :=
    (waiting_eq_functors (s := { s with owner := o }) ho').trans (waiting_eq_functors ho).symm
  exact h.set_owner log s.functors (fun f hf => hw ▸ hf) (hw ▸ h.adds_first) hg hn hm hb hr

/-- One step keeps the invariant. -/
theorem step_inv (h : Inv s) (hs : step cap s l = some s') : Inv s' := by
  cases step_moved hs with
  | idle => exact h
  | refused r => exact h.alloc r.timer
  | added r => exact Inv.give (h.addNew r.timer) (Nat.lt_succ_self _) h.next_unused.2
  | canceled => exact h.cancel
  | made r =>
    have halloc := h.alloc r.timer
    exact
      { halloc with
        posting_fresh := by
          intro seq hi
          rcases List.mem_cons.mp hi with rfl | hi
          · exact alloc_fresh h.good _
          · exact halloc.posting_fresh seq hi
        posting_nodup := List.nodup_cons.mpr ⟨h.next_unused.2, h.posting_nodup⟩
        posting_new := by
          intro seq hi
          rcases List.mem_cons.mp hi with rfl | hi
          · exact fun hr => Nat.lt_irrefl _ (h.returned_used _ hr)
          · exact h.posting_new seq hi }
  | posted hp => exact h.remotePost hp
  | unposted seq => exact h.unpost seq
  | pushed hadd hret =>
    exact h.push (fun g _ seq _ => hadd seq) (fun seq hf => absurd hf (hadd seq))
      (fun seq hf => hret seq (hf.resolve_left (hadd seq)))
  | drained maxCount ho => exact h.drain maxCount ho
  | ran ho => exact h.runFunctor ho
  | endDrain ho =>
    have hgood : Good s.queue [] := by simpa [State.batch, ho] using h.good
    have hw : s.waiting = s.functors := by simp [State.waiting, ho]
    exact h.set_owner s.log s.functors (fun f hf => hw ▸ hf) (hw ▸ h.adds_first) hgood rfl
      (fun _ hi => hi) (by simp [State.batch]) (by simp)
  | expired now maxCount ho =>
    have hbatch : s.batch = [] := by simp [State.batch, ho]
    refine h.expiring s.log (by simp [ho]) (by simp) (getExpired_good (hbatch ▸ h.good) now maxCount)
      rfl (fun _ hi => hi) (fun i hi => Or.inr (mem_getExpired h.good hi)) ?_
    rintro batch rest running ⟨⟩
    exact ⟨fun i hi => hi, by simp⟩
  | @skipped batch rest t ho | @started batch rest t ho =>
    have hbatch : s.batch = batch := by simp [State.batch, ho]
    obtain ⟨hrest, -⟩ := h.rest_batch _ _ _ ho
    refine h.expiring _ (by simp [ho]) (by simp) (hbatch ▸ h.good) rfl (fun _ hi => hi)
      (fun i hi => Or.inl (hbatch ▸ hi)) ?_
    rintro b r u ⟨⟩
    exact ⟨fun i hi => hrest i (.tail _ hi), by simp [hrest]⟩
  | @ended batch rest t threw ho =>
    have hbatch : s.batch = batch := by simp [State.batch, ho]
    have hgood : Good s.queue batch := hbatch ▸ h.good
    obtain ⟨hrest, hrun⟩ := h.rest_batch _ _ _ ho
    refine h.expiring s.log (by simp [ho]) (by simp) ?_ ?_ ?_ (fun i hi => Or.inl (hbatch ▸ hi)) ?_
    · cases threw with
      | false => exact hgood
      | true =>
        exact modify_good (f := fun t => { t with canceled := true }) hgood (hrun t rfl)
          (fun _ => rfl) (fun _ _ => rfl)
    · cases threw <;> rfl
    · cases threw <;> exact fun _ hi => hi
    · rintro b r u ⟨⟩
      exact ⟨hrest, by simp⟩
  | @finished batch now ho =>
    have hbatch : s.batch = batch := by simp [State.batch, ho]
    exact h.expiring s.log (by simp [ho]) (by simp) (reset_good (hbatch ▸ h.good)) reset_nextSequence
      (fun _ hi => mem_reset hi) (by simp [State.batch]) (by simp)
  | quit => exact { h with }

/-! ## Cancellation is final -/

/-- A timer that the identity map holds or that an add on its way will insert. -/
def Known (s : State) (seq : Nat) : Prop :=
  seq ∈ s.queue.timersById ∨ .add seq ∈ s.waiting ∨ seq ∈ s.posting

/-- The owner moves on and the queue knows no more timers. -/
theorem Known.set_owner {seq : Nat} {o : Owner} (fs : List Functor)
    (hk : Known { s with owner := o, functors := fs, queue := q, log := log } seq)
    (hw : ∀ f, f ∈ State.waiting { s with owner := o, functors := fs } → f ∈ s.waiting)
    (hm : ∀ i ∈ q.timersById, i ∈ s.queue.timersById ∨ .add i ∈ s.waiting) : Known s seq := by
  rcases hk with hk | hk | hk
  · exact (hm seq hk).imp id Or.inl
  · exact Or.inr (Or.inl (hw _ hk))
  · exact Or.inr (Or.inr hk)

/-- A step makes no old timer known again. -/
theorem known_of_step {seq : Nat} (hs : step cap s l = some s') (hk : Known s' seq) :
    Known s seq ∨ s.queue.nextSequence ≤ seq := by
  cases step_moved hs with
  | idle | refused | quit => exact Or.inl hk
  | added r =>
    rcases hk with hk | hk
    · rcases mem_addTimerInLoop.mp hk with rfl | hk
      · exact Or.inr (Nat.le_refl _)
      · exact Or.inl (Or.inl hk)
    · exact Or.inl (Or.inr hk)
  | canceled => exact Or.inl (hk.imp (fun hi => (mem_cancelInLoop.mp hi).1) id)
  | made r =>
    rcases hk with hk | hk | hk
    · exact Or.inl (Or.inl hk)
    · exact Or.inl (Or.inr (Or.inl hk))
    · rcases List.mem_cons.mp hk with rfl | hk
      · exact Or.inr (Nat.le_refl _)
      · exact Or.inl (Or.inr (Or.inr hk))
  | posted hp =>
    refine Or.inl ?_
    rcases hk with hk | hk | hk
    · exact Or.inl hk
    · rcases List.mem_append.mp (waiting_push (s := s) _ ▸ hk) with hk | hk
      · exact Or.inr (Or.inl hk)
      · cases List.mem_singleton.mp hk
        exact Or.inr (Or.inr hp)
    · exact Or.inr (Or.inr (List.mem_of_mem_erase hk))
  | unposted => exact Or.inl (hk.imp id (Or.imp id List.mem_of_mem_erase))
  | pushed hadd =>
    refine Or.inl (hk.imp id (Or.imp (fun hk => ?_) id))
    rcases List.mem_append.mp (waiting_push (s := s) _ ▸ hk) with hk | hk
    · exact hk
    · exact absurd (List.mem_singleton.mp hk).symm (hadd seq)
  | @ran f rest ho =>
    have hw : s.waiting = f :: (rest ++ s.functors) := by simp [State.waiting, ho]
    have hpop : ∀ g, g ∈ rest ++ s.functors → g ∈ s.waiting :=
      fun g hg => hw ▸ List.mem_cons_of_mem _ hg
    refine Or.inl ?_
    cases f with
    | other => exact hk.set_owner s.functors hpop (fun _ => Or.inl)
    | cancel i => exact hk.set_owner s.functors hpop (fun _ hi => Or.inl (mem_cancelInLoop.mp hi).1)
    | add i =>
      refine hk.set_owner s.functors hpop (fun j hj => ?_)
      rcases mem_addTimerInLoop.mp hj with rfl | hj
      · exact Or.inr (hw ▸ List.mem_cons_self)
      · exact Or.inl hj
  | ended threw ho =>
    refine Or.inl (hk.set_owner s.functors (by simp [State.waiting, ho]) ?_)
    cases threw <;> exact fun _ => Or.inl
  | finished now ho =>
    exact Or.inl (hk.set_owner s.functors (by simp [State.waiting, ho]) (fun _ hi => Or.inl (mem_reset hi)))
  | drained _ ho | endDrain ho | expired _ _ ho | skipped ho | started ho =>
    exact Or.inl (hk.set_owner _ (by simp [State.waiting, ho]) (fun _ => Or.inl))

theorem nextSequence_mono (hs : step cap s l = some s') :
    s.queue.nextSequence ≤ s'.queue.nextSequence := by
  cases step_moved hs with
  | refused | added | made => exact Nat.le_succ _
  | canceled => exact Nat.le_of_eq cancelInLoop_nextSequence.symm
  | @ran f =>
    cases f with
    | add | other => exact Nat.le_refl _
    | cancel => exact Nat.le_of_eq cancelInLoop_nextSequence.symm
  | ended threw => cases threw <;> exact Nat.le_refl _
  | finished => exact Nat.le_of_eq reset_nextSequence.symm
  | _ => exact Nat.le_refl _

/-- The condition on a step: an owner-thread cancellation names no timer whose add
    functor is still waiting to run. -/
def CancelsInserted (s : State) : Label → Prop
  | .ownerCancel seq => .add seq ∉ s.waiting
  | _ => True

instance (s : State) (l : Label) : Decidable (CancelsInserted s l) := by
  cases l <;> unfold CancelsInserted <;> infer_instance

/-- A timer whose cancellation has taken effect. -/
def Dead (s : State) (seq : Nat) : Prop := ¬ Known s seq ∧ seq < s.queue.nextSequence

theorem Dead.step {seq : Nat} (h : Dead s seq) (hs : step cap s l = some s') : Dead s' seq := by
  refine ⟨fun hk => ?_, Nat.lt_of_lt_of_le h.2 (nextSequence_mono hs)⟩
  have hlt := h.2
  rcases known_of_step hs hk with hk | hge
  · exact h.1 hk
  · omega

/-- What an owner-thread cancellation leaves behind. -/
theorem dead_of_ownerCancel {seq : Nat} (h : Inv s) (hadd : .add seq ∉ s.waiting)
    (hret : seq ∈ s.returned) :
    Dead { s with queue := cancelInLoop s.queue seq, log := log } seq := by
  refine ⟨?_, ?_⟩
  · rintro (hk | hk | hk)
    · exact (mem_cancelInLoop.mp hk).2 rfl
    · exact hadd hk
    · exact h.posting_new seq hk hret
  · exact Nat.lt_of_lt_of_eq (h.returned_used seq hret) cancelInLoop_nextSequence.symm

/-- What a step adds to the log: a cancellation leaves its timer dead, and only a timer
    that is not dead starts. -/
theorem step_log (h : Inv s) (hc : CancelsInserted s l) (hs : step cap s l = some s') :
    s'.log = s.log ∨ ∃ e, s'.log = e :: s.log ∧ (∀ seq, e = .cancelTook seq → Dead s' seq) ∧
      ∀ seq, e = .started seq → ¬ Dead s seq := by
  cases step_moved hs with
  | added | posted => exact Or.inr ⟨_, rfl, by simp, by simp⟩
  | canceled hret =>
    refine Or.inr ⟨_, rfl, ?_, by simp⟩
    rintro i ⟨⟩
    exact dead_of_ownerCancel h hc hret
  | @ran f rest ho =>
    have hw : s.waiting = f :: (rest ++ s.functors) := by simp [State.waiting, ho]
    cases f with
    | other | add => exact Or.inl rfl
    | cancel seq =>
      have hret : seq ∈ s.returned := h.cancels_returned seq (hw ▸ List.mem_cons_self)
      refine Or.inr ⟨_, rfl, ?_, by simp⟩
      rintro i ⟨⟩
      -- no add of the timer stands behind its cancel
      have hno : .add seq ∉ rest ++ s.functors := by
        intro hi
        have hpair := h.adds_first
        rw [hw] at hpair
        exact (List.pairwise_cons.mp hpair).1 _ hi seq (Or.inr rfl) rfl
      refine ⟨?_, Nat.lt_of_lt_of_eq (h.returned_used seq hret) cancelInLoop_nextSequence.symm⟩
      rintro (hk | hk | hk)
      · exact (mem_cancelInLoop.mp hk).2 rfl
      · exact hno hk
      · exact h.posting_new seq hk hret
  | @started batch rest t ho hlive =>
    refine Or.inr ⟨_, rfl, by simp, ?_⟩
    rintro i ⟨⟩ hdead
    -- an extracted timer that the identity map no longer holds is canceled
    have ht : t ∈ s.batch := by
      simpa [State.batch, ho] using (h.rest_batch _ _ _ ho).1 t (.head _)
    exact hlive (h.good.batch_gone t ht (fun hm => hdead.1 (Or.inl hm)))
  | _ => exact Or.inl rfl

/-- What a run with `CancelsInserted` steps keeps. -/
structure Final (s : State) : Prop where
  inv : Inv s
  dead : ∀ seq, .cancelTook seq ∈ s.log → Dead s seq
  order : ∀ seq, Machine.NeverAfter (· = .cancelTook seq) (· = .started seq) s.log

theorem step_final (h : Final s) (hc : CancelsInserted s l) (hs : step cap s l = some s') :
    Final s' := by
  refine ⟨step_inv h.inv hs, ?_, ?_⟩
  · intro seq hi
    rcases step_log h.inv hc hs with hlog | ⟨e, hlog, hcan, _⟩ <;> rw [hlog] at hi
    · exact (h.dead seq hi).step hs
    · rcases List.mem_cons.mp hi with heq | hi
      · exact hcan seq heq.symm
      · exact (h.dead seq hi).step hs
  · intro seq
    rcases step_log h.inv hc hs with hlog | ⟨e, hlog, _, hst⟩ <;> rw [hlog]
    · exact h.order seq
    · refine (h.order seq).cons ?_
      rintro heq f hf rfl
      exact hst seq heq (h.dead seq hf)

/-- **Cancellation is final.** In every run whose owner-thread cancellations name no timer
    with a waiting add functor, no callback of a timer starts after its cancellation has
    taken effect. -/
theorem canceled_never_starts (h : Reach (· = start) (step cap) CancelsInserted s)
    (seq : Nat) : Machine.NeverAfter (· = .cancelTook seq) (· = .started seq) s.log := by
  refine Final.order (Reach.invariant (P := Final) ?_ ?_ h) seq
  · rintro s rfl
    exact ⟨start_inv, by simp [start], fun _ => .nil⟩
  · exact fun s l s' hP hc hs => step_final hP hc hs

end

/-- A repeating timer that fires once, is canceled by its own callback, and stays silent
    over a second expiry. -/
theorem canceled_never_starts_self :
    ∃ s, Reach (· = start) (step 4) CancelsInserted s ∧
      s.log = [.cancelTook 1, .started 1, .accepted 1] ∧
      Machine.NeverAfter (· = .cancelTook 1) (· = .started 1) s.log := by
  obtain ⟨s, hr, hlog⟩ := Reach.of_run (· = start) (step 4) CancelsInserted
    (fun s => s.log = [.cancelTook 1, .started 1, .accepted 1]) start rfl
    [.ownerAdd { callback := true, due := 5, interval := 5 }, .expire 6 8, .startNext,
      .ownerCancel 1, .callbackEnd false, .finishExpired 7, .expire 20 8] (by decide)
  exact ⟨s, hr, hlog, canceled_never_starts hr 1⟩

/-- **A canceled timer that fires.** Another thread's `tryAddTimer` has returned id 1 and
    its functor waits; `tryCancel(1)` on the owner thread finds nothing and returns
    Accepted; the functor then inserts the timer, which fires. -/
theorem canceled_timer_starts :
    ∃ s, Reach (· = start) (step 4) Any s ∧
      s.log = [.started 1, .cancelTook 1, .accepted 1] ∧
      ¬ Machine.NeverAfter (· = .cancelTook 1) (· = .started 1) s.log := by
  obtain ⟨s, hr, hlog⟩ := Reach.of_run (· = start) (step 4) Any
    (fun s => s.log = [.started 1, .cancelTook 1, .accepted 1]) start rfl
    [.remoteAlloc { callback := true, due := 5 }, .remotePost 1, .ownerCancel 1, .drain 8,
      .runFunctor, .endDrain, .expire 6 8, .startNext] (by decide)
  refine ⟨s, hr, hlog, fun hnever => ?_⟩
  exact hnever [.started 1] (.cancelTook 1) [.accepted 1] hlog rfl _ (.head _) rfl

/-! ## A timer whose id nobody has -/

section
variable {cap : Nat} {s s' : State} {l : Label} {seq : Nat}

/-- A repeating timer in the queue whose id no caller was given. -/
structure Held (s : State) (seq : Nat) : Prop where
  live : Live s.queue seq
  secret : seq ∉ s.returned

theorem Held.ownerAddTimer (hi : Inv s) (h : Held s seq) (t : Timer) :
    Held (ownerAddTimer s t).2 seq := by
  have halloc := h.live.alloc hi.good t
  unfold TimerLoop.ownerAddTimer
  dsimp only
  split
  · exact ⟨halloc, h.secret⟩
  · exact ⟨halloc.addTimerInLoop (Nat.ne_of_lt (hi.good.byId_used seq h.live.byId)), h.secret⟩

theorem running_congr (h : s'.owner = s.owner) : s'.running = s.running := by
  simp [State.running, h]

theorem ownerAddTimer_owner (t : Timer) : (ownerAddTimer s t).2.owner = s.owner := by
  unfold ownerAddTimer
  dsimp only
  split <;> rfl

/-- Only `startNext` brings a callback to run. -/
theorem running_of_step {i : Nat} (hs : step cap s l = some s') (hl : l ≠ .startNext)
    (hr : s'.running = some i) : s.running = some i := by
  cases step_moved hs with
  | skipped | started => exact absurd rfl hl
  | drained | ran | endDrain | expired | ended | finished => simp [State.running] at hr
  | _ => exact hr

/-- The callback that runs belongs to a timer already handed out. -/
theorem Inv.running_used {i : Nat} (h : Inv s) (hr : s.running = some i) :
    i < s.queue.nextSequence := by
  unfold State.running at hr
  split at hr
  · rename_i batch rest running ho
    refine h.good.batch_used i ?_
    simpa [State.batch, ho] using (h.rest_batch _ _ _ ho).2 i hr
  · cases hr

/-- Only a throw out of its own callback takes such a timer away. -/
theorem Held.step (hi : Inv s) (h : Held s seq) (hs : step cap s l = some s')
    (hl : l = .callbackEnd true → ∀ batch rest, s.owner ≠ .expiring batch rest (some seq)) :
    Held s' seq := by
  have hret : ∀ i ∈ s.returned, seq ≠ i := fun i hi heq => h.secret (heq ▸ hi)
  have hnew := Nat.ne_of_lt (hi.good.byId_used seq h.live.byId)
  cases step_moved hs with
  | refused r | made r => exact ⟨h.live.alloc hi.good _, h.secret⟩
  | added r =>
    refine ⟨(h.live.alloc hi.good _).addTimerInLoop hnew, fun hm => ?_⟩
    rcases List.mem_cons.mp hm with heq | hm
    · exact hnew heq
    · exact h.secret hm
  | canceled hi => exact ⟨h.live.cancelInLoop (hret _ hi), h.secret⟩
  | posted hp =>
    refine ⟨h.live, fun hm => ?_⟩
    rcases List.mem_cons.mp hm with rfl | hm
    · exact (hi.posting_fresh seq hp).not_byId h.live.byId
    · exact h.secret hm
  | @ran f rest ho =>
    have hf : f ∈ s.waiting := by simp [State.waiting, ho]
    cases f with
    | other => exact ⟨h.live, h.secret⟩
    | cancel i => exact ⟨h.live.cancelInLoop (hret i (hi.cancels_returned i hf)), h.secret⟩
    | add i =>
      refine ⟨h.live.addTimerInLoop ?_, h.secret⟩
      rintro rfl
      exact (hi.adds_fresh seq hf).not_byId h.live.byId
  | expired => exact ⟨h.live.getExpired, h.secret⟩
  | @ended batch rest t threw ho =>
    cases threw with
    | false => exact ⟨h.live, h.secret⟩
    | true =>
      have hne : seq ≠ t := by
        rintro rfl
        exact hl rfl batch rest ho
      refine ⟨h.live.of_heap h.live.byId ?_ ?_, h.secret⟩ <;> simp [modify_heap_ne hne]
  | finished => exact ⟨h.live.reset, h.secret⟩
  | _ => exact ⟨h.live, h.secret⟩

end

end GameNet.TimerLoop
