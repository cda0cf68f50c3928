import GameNet.Machine
import GameNet.Stacks
import GameNet.Broadcast.Router

/- The shared counters of BroadcastDispatcher are what the chunks hold. Which of the four counters
   a chunk is charged to follows from its stage, and every operation changes a counter by what it
   changes of that charge. So no counter passes its limit or is released below zero, and a
   dispatcher that was shut down while no reservation was being made has converged as soon as its
   global task count is zero. -/
namespace GameNet.Broadcast

open Stacks (weight weight_set le_weight_get)
open Machine (Reach Any)

/-! ## Charges -/

def Stage.holdsOwnerTask : Stage → Bool
  | .check | .ownerTask | .failed _ | .refused _ | .finished | .abandoned => false
  | .releasing .globalTasks _ | .releasing .progress _ => false
  | _ => true

def Stage.holdsOwnerBytes : Stage → Bool
  | .ownerBytes | .undoTask _ | .releasing .ownerTasks _ => false
  | stage => stage.holdsOwnerTask

def Stage.holdsGlobalBytes : Stage → Bool
  | .globalBytes | .undoBytes _ | .releasing .ownerBytes _ => false
  | stage => stage.holdsOwnerBytes

def Stage.holdsGlobalTask : Stage → Bool
  | .count | .post | .queued | .running => true
  | .releasing op _ => op != .progress
  | _ => false

/-- The shared counters: two of the dispatcher and two of each owner. -/
inductive Counter where
  | globalTasks
  | globalBytes
  | ownerTasks
  | ownerBytes
  deriving DecidableEq

namespace Counter

def all : List Counter := [.globalTasks, .globalBytes, .ownerTasks, .ownerBytes]

def others (k : Counter) : List Counter := all.filter (· ≠ k)

/-- Whether the counter of `o` has the chunks of an owner. -/
def counts (owner o : Nat) : Counter → Bool
  | .globalTasks | .globalBytes => true
  | .ownerTasks | .ownerBytes => owner == o

theorem mem_all (k : Counter) : k ∈ all := by cases k <;> decide

end Counter

def Shared.count (g : Shared) (o : Nat) : Counter → Nat
  | .globalTasks => g.globalTasks
  | .globalBytes => g.globalBytes
  | .ownerTasks => g.ownerTasks o
  | .ownerBytes => g.ownerBytes o

def Stage.holds (stage : Stage) : Counter → Bool
  | .globalTasks => stage.holdsGlobalTask
  | .globalBytes => stage.holdsGlobalBytes
  | .ownerTasks => stage.holdsOwnerTask
  | .ownerBytes => stage.holdsOwnerBytes

namespace Job

def amount (job : Job) : Counter → Nat
  | .globalTasks | .ownerTasks => 1
  | .globalBytes | .ownerBytes => job.bytes

def units (job : Job) (k : Counter) : Nat := if job.stage.holds k then job.amount k else 0

def charge (k : Counter) (o : Nat) (job : Job) : Nat := if k.counts job.owner o then job.units k else 0

end Job

/-- The counters are the charges of all chunks. -/
structure Ledger (s : State) : Prop where
  fatal : s.shared.fatal = false
  counts : ∀ k o, s.shared.count o k = weight (Job.charge k o) s.jobs

/-- No counter is past its limit. -/
structure Within (l : DispatchLimits) (g : Shared) : Prop where
  globalBytes : g.globalBytes ≤ l.maxGlobalOutstandingBytes
  ownerTasks : ∀ o, g.ownerTasks o ≤ l.maxOutstandingTasksPerOwner
  ownerBytes : ∀ o, g.ownerBytes o ≤ l.maxOutstandingBytesPerOwner

/-- The counters have what a chunk is charged. -/
structure Covers (g : Shared) (job : Job) : Prop where
  fatal : g.fatal = false
  counts : ∀ k, job.units k ≤ g.count job.owner k

/-- A chunk goes to another stage, and the counters change by the difference of its charges. -/
structure Charged (l : DispatchLimits) (g g' : Shared) (job job' : Job) : Prop where
  fatal : g'.fatal = false
  accepting : g'.accepting = g.accepting
  counts : ∀ k o, g'.count o k + job.charge k o = g.count o k + job'.charge k o
  within : Within l g → Within l g'

section
variable {l : DispatchLimits} {s : State} {g g' : Shared} {job job' : Job}

theorem Ledger.covers (h : Ledger s) {j : Nat} (hj : s.jobs[j]? = some job) :
    Covers s.shared job where
  fatal := h.fatal
  counts k := by
    have hle := le_weight_get (Job.charge k job.owner) hj
    rw [← h.counts, Job.charge, if_pos (by cases k <;> simp [Counter.counts])] at hle
    exact hle

theorem Ledger.set (h : Ledger s) {j : Nat} (hj : s.jobs[j]? = some job)
    (hc : Charged l s.shared g' job job') (dispatches : List Dispatch) :
    Ledger ⟨g', s.jobs.set j job', dispatches⟩ where
  fatal := hc.fatal
  counts k o := by
    have hset := weight_set (Job.charge k o) hj job'
    have hcharged := hc.counts k o
    have hold := h.counts k o
    show g'.count o k = weight (Job.charge k o) (s.jobs.set j job')
    omega

/-! ## One counter -/

/-- The chunk has the same owner and size. -/
def Job.Kin (job job' : Job) : Prop := job'.owner = job.owner ∧ job'.bytes = job.bytes

/-- What no counter may pass. -/
def DispatchLimits.bound (l : DispatchLimits) : Counter → Option Nat
  | .globalTasks => none
  | .globalBytes => some l.maxGlobalOutstandingBytes
  | .ownerTasks => some l.maxOutstandingTasksPerOwner
  | .ownerBytes => some l.maxOutstandingBytesPerOwner

theorem within_iff : Within l g ↔ ∀ k o, ∀ b ∈ l.bound k, g.count o k ≤ b := by
  refine ⟨fun h k o b hb => ?_, fun h =>
    ⟨h .globalBytes 0 _ rfl, fun o => h .ownerTasks o _ rfl, fun o => h .ownerBytes o _ rfl⟩⟩
  cases k <;> cases hb
  · exact h.globalBytes
  · exact h.ownerTasks o
  · exact h.ownerBytes o

/-- A counter is set. -/
def Shared.put (g : Shared) (owner n : Nat) : Counter → Shared
  | .globalTasks => { g with globalTasks := n }
  | .globalBytes => { g with globalBytes := n }
  | .ownerTasks => { g with ownerTasks := Function.update g.ownerTasks owner n }
  | .ownerBytes => { g with ownerBytes := Function.update g.ownerBytes owner n }

theorem Shared.put_count (g : Shared) (owner n o : Nat) (k k' : Counter) : (g.put owner n k).count o k' =
    if k' = k ∧ k'.counts owner o = true then n else g.count o k' := by
  cases k <;> cases k' <;>
    simp [Shared.put, Shared.count, Counter.counts, Function.update_apply, eq_comm (a := owner)]

section
variable {k : Counter} {stage stage' : Stage} (hfatal : g.fatal = false) (hkin : job.Kin job')
  (hs : job.stage = stage) (hs' : job'.stage = stage')

include hkin hs hs' in
theorem units_eq (h : stage'.holds k = stage.holds k) : job'.units k = job.units k := by
  have hamount : job'.amount k = job.amount k := by cases k <;> first | rfl | exact hkin.2
  rw [Job.units, Job.units, hs, hs', h, hamount]

include hfatal hkin hs hs'

/-- The charges of the chunk stay the same. -/
theorem Charged.same (h : Counter.all.map stage'.holds = Counter.all.map stage.holds) :
    Charged l g g job job' := by
  refine ⟨hfatal, rfl, fun k o => ?_, id⟩
  rw [Job.charge, Job.charge, units_eq hkin hs hs' (List.map_inj_left.mp h k k.mem_all), hkin.1]

/-- One counter changes, by what the chunk is charged to it. -/
theorem Charged.put {n : Nat} (hrest : k.others.map stage'.holds = k.others.map stage.holds)
    (hn : n + job.units k = g.count job.owner k + job'.units k)
    (hle : ∀ b ∈ l.bound k, g.count job.owner k ≤ b → n ≤ b) :
    Charged l g (g.put job.owner n k) job job' := by
  refine ⟨by cases k <;> exact hfatal, by cases k <;> rfl, fun k' o => ?_, fun h => within_iff.mpr ?_⟩
  · rw [Shared.put_count, Job.charge, Job.charge, hkin.1]
    by_cases hk : k' = k
    · subst hk
      cases hcounts : k'.counts job.owner o with
      | false => simp
      | true =>
        have hsame : g.count o k' = g.count job.owner k' := by
          cases k' <;> first | rfl | rw [beq_iff_eq.mp hcounts]
        simp only [and_self, if_true, hsame]
        exact hn
    · have hmem : k' ∈ k.others := List.mem_filter.mpr ⟨k'.mem_all, by simpa using hk⟩
      rw [if_neg fun h => hk h.1, units_eq hkin hs hs' (List.map_inj_left.mp hrest k' hmem)]
  · intro k' o b hb
    rw [Shared.put_count]
    split
    case isTrue hk =>
      obtain ⟨rfl, -⟩ := hk
      exact hle b hb (within_iff.mp h _ _ b hb)
    case isFalse => exact within_iff.mp h _ _ b hb

/-- A chunk is charged after and was not before. -/
theorem Charged.reserve (hold : stage.holds k = false) (hnew : stage'.holds k = true)
    (hrest : k.others.map stage'.holds = k.others.map stage.holds)
    (hle : ∀ b ∈ l.bound k, g.count job.owner k ≤ b → g.count job.owner k + job.amount k ≤ b) :
    Charged l g (g.put job.owner (g.count job.owner k + job.amount k) k) job job' := by
  refine .put hfatal hkin hs hs' hrest ?_ hle
  have hamount : job'.amount k = job.amount k := by cases k <;> first | rfl | exact hkin.2
  rw [Job.units, Job.units, hs, hs', hold, hnew, hamount]
  simp

end

theorem tryReserve_some {current amount limit n bound : Nat} (hbound : limit ≤ bound)
    (h : tryReserve current amount limit = some n) :
    n = current + amount ∧ (current ≤ bound → n ≤ bound) := by
  unfold tryReserve fitsWithin at h
  split_ifs at h with hzero hfits
  · cases h
    exact ⟨by omega, id⟩
  · cases h
    simp only [Bool.and_eq_true, decide_eq_true_eq] at hfits
    exact ⟨rfl, fun _ => by omega⟩

theorem Shared.sub_of_le {current amount : Nat} (h : amount ≤ current) (set : Nat → Shared) :
    g.sub current amount set = set (current - amount) :=
  if_neg (not_lt.mpr h)

/-- A release, of a chunk that is charged before and not after. -/
theorem Charged.release (k : Counter) {stage stage' : Stage} (hc : Covers g job) (hkin : job.Kin job')
    (hs : job.stage = stage) (hs' : job'.stage = stage') (hold : stage.holds k = true)
    (hnew : stage'.holds k = false) (hrest : k.others.map stage'.holds = k.others.map stage.holds) :
    Charged l g (g.sub (g.count job.owner k) (job.amount k) fun n => g.put job.owner n k) job job' := by
  have hunits : job.units k = job.amount k := by rw [Job.units, hs, hold, if_pos rfl]
  have hcover := hc.counts k
  rw [hunits] at hcover
  rw [Shared.sub_of_le hcover]
  refine .put hc.fatal hkin hs hs' hrest ?_ (fun b _ h => by omega)
  rw [hunits, Job.units, hs', hnew, if_neg Bool.false_ne_true]
  omega

/-! ## One step of a chunk -/

theorem reserve_charged {priority : BroadcastPriority} {stage : Stage} (hc : Covers g job)
    (hkin : job.Kin job') (hstage : job'.stage = stage)
    (h : g.reserve l priority job.owner job.bytes job.stage = some (g', stage)) :
    Charged l g g' job job' := by
  have hf := hc.fatal
  subst hstage
  cases hs : job.stage <;> rw [hs] at h <;> simp only [Shared.reserve] at h
  case check =>
    obtain ⟨rfl, hnext⟩ := Prod.mk.inj (Option.some.inj h)
    exact .same hf hkin hs hnext.symm (by split <;> rfl)
  case ownerTask =>
    split at h <;> obtain ⟨rfl, hnext⟩ := Prod.mk.inj (Option.some.inj h)
    case h_1 n hn =>
      obtain ⟨rfl, hle⟩ := tryReserve_some le_rfl hn
      exact .reserve (k := .ownerTasks) hf hkin hs hnext.symm rfl rfl rfl (fun b hb => by cases hb; exact hle)
    case h_2 => exact .same hf hkin hs hnext.symm rfl
  case ownerBytes =>
    split at h <;> obtain ⟨rfl, hnext⟩ := Prod.mk.inj (Option.some.inj h)
    case h_1 n hn =>
      obtain ⟨rfl, hle⟩ := tryReserve_some le_rfl hn
      exact .reserve (k := .ownerBytes) hf hkin hs hnext.symm rfl rfl rfl (fun b hb => by cases hb; exact hle)
    case h_2 => exact .same hf hkin hs hnext.symm rfl
  case globalBytes =>
    split at h <;> obtain ⟨rfl, hnext⟩ := Prod.mk.inj (Option.some.inj h)
    case h_1 n hn =>
      have hlimit : (if priority = .low then l.lowPriorityOutstandingBytes
          else l.maxGlobalOutstandingBytes) ≤ l.maxGlobalOutstandingBytes := by
        split
        · exact l.low_le
        · exact le_rfl
      obtain ⟨rfl, hle⟩ := tryReserve_some hlimit hn
      exact .reserve (k := .globalBytes) hf hkin hs hnext.symm rfl rfl rfl (fun b hb => by cases hb; exact hle)
    case h_2 => exact .same hf hkin hs hnext.symm rfl
  case recheck =>
    obtain ⟨rfl, hnext⟩ := Prod.mk.inj (Option.some.inj h)
    exact .same hf hkin hs hnext.symm (by split <;> rfl)
  case globalTask =>
    obtain ⟨rfl, hnext⟩ := Prod.mk.inj (Option.some.inj h)
    exact .reserve (k := .globalTasks) hf hkin hs hnext.symm rfl rfl rfl (fun b hb => by cases hb)
  case undoGlobal r =>
    obtain ⟨rfl, hnext⟩ := Prod.mk.inj (Option.some.inj h)
    exact .release .globalBytes hc hkin hs hnext.symm rfl rfl rfl
  case undoBytes r =>
    obtain ⟨rfl, hnext⟩ := Prod.mk.inj (Option.some.inj h)
    exact .release .ownerBytes hc hkin hs hnext.symm rfl rfl rfl
  case undoTask r =>
    obtain ⟨rfl, hnext⟩ := Prod.mk.inj (Option.some.inj h)
    exact .release .ownerTasks hc hkin hs hnext.symm rfl rfl rfl
  all_goals cases h

/-- The reservation was released. -/
def Stage.released : Stage → Bool
  | .releasing op _ => op != .flag
  | .refused _ | .finished => true
  | _ => false

/-- The flag is set exactly when `State::release` was entered, once. -/
def Job.Once (job : Job) : Prop :=
  job.released = job.stage.released ∧ job.releases = if job.stage.released then 1 else 0

/-- The chunk is inside `State::tryReserve`, past the first load of `accepting`. -/
def Stage.reserving : Stage → Bool
  | .ownerTask | .ownerBytes | .globalBytes | .recheck | .globalTask => true
  | .undoGlobal _ | .undoBytes _ | .undoTask _ => true
  | _ => false

/-- What a step does to a chunk and to the counters. -/
structure Step (l : DispatchLimits) (g g' : Shared) (job job' : Job) : Prop where
  charged : Charged l g g' job job'
  once : job'.Once
  dispatch : job'.dispatch = job.dispatch
  /-- A chunk that does not reserve does not begin to after the shutdown. -/
  quiet : g.accepting = false → job.stage.reserving = false → job'.stage.reserving = false ∧
    (job.stage.holdsGlobalTask = false → job'.stage.holdsGlobalTask = false)

/-- A step that leaves the counters and the flag alone. -/
theorem Step.same (hc : Covers g job) (honce : job.Once) {stage stage' : Stage}
    (hs : job.stage = stage) (hholds : Counter.all.map stage'.holds = Counter.all.map stage.holds)
    (hmarks : stage'.released = stage.released ∧ stage'.reserving = false) (endpoints : List Nat) :
    Step l g g job { job with stage := stage', endpoints := endpoints } := by
  subst hs
  obtain ⟨hreleased, hreserving⟩ := hmarks
  refine ⟨.same hc.fatal ⟨rfl, rfl⟩ rfl rfl hholds, ?_, rfl, fun _ _ => ⟨hreserving, fun hh =>
    (List.map_inj_left.mp hholds .globalTasks (Counter.mem_all _)).trans hh⟩⟩
  show job.released = stage'.released ∧ job.releases = if stage'.released then 1 else 0
  rw [hreleased]
  exact honce

theorem reserve_step {priority : BroadcastPriority} {stage : Stage} (hc : Covers g job)
    (honce : job.Once)
    (h : g.reserve l priority job.owner job.bytes job.stage = some (g', stage)) :
    Step l g g' job { job with stage := stage } := by
  refine ⟨reserve_charged hc ⟨rfl, rfl⟩ rfl h, ?_, rfl, fun hclosed hr => ?_⟩
  case refine_2 =>
    cases hs : job.stage <;> rw [hs] at h hr
    case check =>
      simp only [Shared.reserve, hclosed, Bool.false_eq_true, if_false] at h
      cases h
      exact ⟨rfl, fun _ => rfl⟩
    all_goals first | (cases hr; done) | cases h
  have hboth : job.stage.released = false ∧ stage.released = false := by
    cases hs : job.stage <;> rw [hs] at h <;> simp only [Shared.reserve] at h
    case check | recheck =>
      cases h
      exact ⟨rfl, by split <;> rfl⟩
    case ownerTask | ownerBytes | globalBytes =>
      split at h <;> cases h <;> exact ⟨rfl, rfl⟩
    all_goals first | (cases h; exact ⟨rfl, rfl⟩) | cases h
  obtain ⟨hold, hnew⟩ := hboth
  obtain ⟨hflag, hcount⟩ := honce
  show job.released = stage.released ∧ job.releases = if stage.released then 1 else 0
  rw [hnew]
  rw [hold] at hflag hcount
  exact ⟨hflag, hcount⟩

theorem release_step {d : Dispatch} {op : Release} {postFailure : Option BroadcastReason}
    (hc : Covers g job) (honce : job.Once) (hs : job.stage = .releasing op postFailure) :
    Step l g (release g job d op postFailure).1 job (release g job d op postFailure).2.1 := by
  obtain ⟨hflag, hcount⟩ := honce
  rw [hs] at hflag hcount
  -- all but the last operation are of a chunk that is counted
  have hheld {p : Prop} (hop : op ≠ .progress) (hfree : job.stage.holdsGlobalTask = false) : p := by
    rw [hs] at hfree
    cases op <;> first | exact absurd rfl hop | cases hfree
  cases op with
  | flag =>
    have hfresh : job.released = false := hflag
    have hzero : job.releases = 0 := hcount
    simp only [release, hfresh, Bool.false_eq_true, if_false, hzero]
    exact ⟨.same hc.fatal ⟨rfl, rfl⟩ hs rfl rfl, ⟨rfl, rfl⟩, rfl, fun _ _ => ⟨rfl, hheld (by simp)⟩⟩
  | globalBytes =>
    exact ⟨.release .globalBytes hc ⟨rfl, rfl⟩ hs rfl rfl rfl rfl, ⟨hflag, hcount⟩, rfl,
      fun _ _ => ⟨rfl, hheld (by simp)⟩⟩
  | ownerBytes =>
    exact ⟨.release .ownerBytes hc ⟨rfl, rfl⟩ hs rfl rfl rfl rfl, ⟨hflag, hcount⟩, rfl,
      fun _ _ => ⟨rfl, hheld (by simp)⟩⟩
  | ownerTasks =>
    exact ⟨.release .ownerTasks hc ⟨rfl, rfl⟩ hs rfl rfl rfl rfl, ⟨hflag, hcount⟩, rfl,
      fun _ _ => ⟨rfl, hheld (by simp)⟩⟩
  | globalTasks =>
    exact ⟨.release .globalTasks hc ⟨rfl, rfl⟩ hs rfl rfl rfl rfl, ⟨hflag, hcount⟩, rfl,
      fun _ _ => ⟨rfl, hheld (by simp)⟩⟩
  | progress =>
    cases postFailure <;>
      exact ⟨.same hc.fatal ⟨rfl, rfl⟩ hs rfl rfl, ⟨hflag, hcount⟩, rfl, fun _ _ => ⟨rfl, fun _ => rfl⟩⟩

theorem attempt_step {d d' : Dispatch} {chunk : List Nat} {todo : Todo} {env : DispatchEnv}
    (hc : Covers g job) (honce : job.Once)
    (h : attempt l g job d chunk todo env = some (g', job', d')) : Step l g g' job job' := by
  unfold attempt at h
  split at h
  case h_1 hs =>
    cases h
    exact Step.same hc honce hs (by rfl) ⟨by rfl, rfl⟩ _
  case h_2 hs =>
    split at h
    · cases h
      exact Step.same hc honce hs (by rfl) ⟨by rfl, rfl⟩ _
    · cases h
      exact Step.same hc honce hs (by rfl) ⟨by rfl, rfl⟩ _
  case h_3 hs =>
    cases h
    exact Step.same hc honce hs (by rfl) ⟨by rfl, rfl⟩ _
  case h_4 hs =>
    cases h
    exact Step.same hc honce hs (by rfl) ⟨by rfl, rfl⟩ _
  case h_5 op reason hs =>
    have hstep : Step l g _ job _ := release_step (d := d) hc honce hs
    rw [Option.some.inj h] at hstep
    exact hstep
  case h_11 =>
    obtain ⟨⟨g₁, stage⟩, hreserve, heq⟩ := Option.map_eq_some_iff.mp h
    cases heq
    exact reserve_step hc honce hreserve
  all_goals cases h

theorem runTask_step {d d' : Dispatch} {env : TaskEnv} (hc : Covers g job) (honce : job.Once)
    (h : runTask g job d env = some (g', job', d')) : Step l g g' job job' := by
  unfold runTask at h
  split at h
  case h_1 hs =>
    cases h
    exact Step.same hc honce hs (by rfl) ⟨by rfl, rfl⟩ _
  case h_2 hs =>
    split at h
    · cases h
      exact Step.same hc honce hs (by rfl) ⟨by rfl, rfl⟩ _
    · cases h
      exact Step.same hc honce rfl rfl ⟨rfl, by rw [hs]; rfl⟩ _
  case h_3 op hs =>
    have hstep : Step l g _ job _ := release_step (d := d) hc honce hs
    rw [Option.some.inj h] at hstep
    exact hstep
  case h_4 => cases h

/-! ## Runs -/

structure Books (l : DispatchLimits) (s : State) : Prop where
  ledger : Ledger s
  within : Within l s.shared
  once : ∀ job ∈ s.jobs, job.Once

theorem Books.advance (h : Books l s) {j : Nat} (hj : s.jobs[j]? = some job)
    (hstep : Step l s.shared g' job job') (dispatches : List Dispatch) :
    Books l ⟨g', s.jobs.set j job', dispatches⟩ where
  ledger := h.ledger.set hj hstep.charged dispatches
  within := hstep.charged.within h.within
  once x hx := by
    rcases List.mem_or_eq_of_mem_set hx with hx | rfl
    · exact h.once x hx
    · exact hstep.once

/-- A new chunk is not charged. -/
theorem Books.begin (h : Books l s) (i : Nat) (d : Dispatch) (todo : Todo) :
    Books l { s with jobs := s.jobs ++ [newJob l i d todo] } where
  ledger := by
    refine ⟨h.ledger.fatal, fun k o => ?_⟩
    have hfree : (newJob l i d todo).charge k o = 0 := by cases k <;> exact ite_self _
    simpa [hfree] using h.ledger.counts k o
  within := h.within
  once job hjob := by
    rcases List.mem_append.mp hjob with hjob | hjob
    · exact h.once job hjob
    · rw [List.mem_singleton.mp hjob]
      exact ⟨rfl, rfl⟩

end

/-- The ways a step can change the chunks. -/
inductive Change (l : DispatchLimits) (s : State) (lab : Label) (s' : State) : Prop where
  /-- The chunks and the counters stay. -/
  | idle (hshared : s'.shared = s.shared) (hjobs : s'.jobs = s.jobs)
  | closed (hlab : lab = .shutdown) (hshared : s'.shared = { s.shared with accepting := false })
      (hjobs : s'.jobs = s.jobs)
  | began (i : Nat) (d : Dispatch) (todo : Todo) (hshared : s'.shared = s.shared)
      (hjobs : s'.jobs = s.jobs ++ [newJob l i d todo])
  | attempted (j : Nat) (job job' : Job) (d d' : Dispatch) (chunk : List Nat) (todo : Todo)
      (env : DispatchEnv) (hj : s.jobs[j]? = some job)
      (h : attempt l s.shared job d chunk todo env = some (s'.shared, job', d'))
      (hjobs : s'.jobs = s.jobs.set j job')
  | ran (j : Nat) (job job' : Job) (d d' : Dispatch) (env : TaskEnv) (hj : s.jobs[j]? = some job)
      (h : runTask s.shared job d env = some (s'.shared, job', d'))
      (hjobs : s'.jobs = s.jobs.set j job')

section
variable {l : DispatchLimits} {s s' : State}

theorem step_change {lab : Label} (h : step l s lab = some s') : Change l s lab s' := by
  cases lab with
  | dispatch plan =>
    cases h
    exact .idle rfl rfl
  | shutdown =>
    cases h
    exact .closed rfl rfl rfl
  | task j env =>
    obtain ⟨job, hj, h⟩ := Option.bind_eq_some_iff.mp h
    obtain ⟨d, -, h⟩ := Option.bind_eq_some_iff.mp h
    obtain ⟨⟨g, job', d'⟩, hrun, heq⟩ := Option.map_eq_some_iff.mp h
    cases heq
    exact .ran j job job' d d' env hj hrun rfl
  | step i env =>
    obtain ⟨d, -, h⟩ := Option.bind_eq_some_iff.mp h
    split at h
    case h_1 => cases h; exact .idle rfl rfl
    case h_2 => cases h; exact .idle rfl rfl
    case h_3 todo _ =>
      split at h
      · cases h
        exact .idle rfl rfl
      · cases h
        exact .began i d todo rfl rfl
    case h_4 j chunk todo _ =>
      obtain ⟨job, hj, h⟩ := Option.bind_eq_some_iff.mp h
      obtain ⟨⟨g, job', d'⟩, hattempt, heq⟩ := Option.map_eq_some_iff.mp h
      cases heq
      exact .attempted j job job' d d' chunk todo env hj hattempt rfl
    case h_5 => cases h; exact .idle rfl rfl
    case h_6 => cases h

/-- A step moves one chunk at most. -/
theorem Books.moved {lab : Label} (hb : Books l s) (h : Change l s lab s') :
    (s'.shared = s.shared ∧ s'.jobs = s.jobs) ∨
    (lab = .shutdown ∧ s'.shared = { s.shared with accepting := false } ∧ s'.jobs = s.jobs) ∨
    (∃ i d todo, s'.shared = s.shared ∧ s'.jobs = s.jobs ++ [newJob l i d todo]) ∨
    ∃ j job job', s.jobs[j]? = some job ∧ Step l s.shared s'.shared job job' ∧ s'.jobs = s.jobs.set j job' := by
  cases h with
  | idle hshared hjobs => exact .inl ⟨hshared, hjobs⟩
  | closed hlab hshared hjobs => exact .inr (.inl ⟨hlab, hshared, hjobs⟩)
  | began i d todo hshared hjobs => exact .inr (.inr (.inl ⟨i, d, todo, hshared, hjobs⟩))
  | attempted j job job' d d' chunk todo env hj h hjobs =>
    have hstep := attempt_step (hb.ledger.covers hj) (hb.once job (List.mem_of_getElem? hj)) h
    exact .inr (.inr (.inr ⟨j, job, job', hj, hstep, hjobs⟩))
  | ran j job job' d d' env hj h hjobs =>
    have hstep := runTask_step (l := l) (hb.ledger.covers hj) (hb.once job (List.mem_of_getElem? hj)) h
    exact .inr (.inr (.inr ⟨j, job, job', hj, hstep, hjobs⟩))

theorem Books.change {lab : Label} (hb : Books l s) (h : Change l s lab s') : Books l s' := by
  obtain ⟨g', jobs', dispatches'⟩ := s'
  rcases hb.moved h with ⟨rfl, rfl⟩ | ⟨-, rfl, rfl⟩ | ⟨i, d, todo, rfl, rfl⟩ | ⟨j, job, job', hj, hstep, rfl⟩
  · exact ⟨{ hb.ledger with }, hb.within, hb.once⟩
  · refine ⟨⟨hb.ledger.fatal, fun k o => ?_⟩, { hb.within with }, hb.once⟩
    have hcounts := hb.ledger.counts k o
    cases k <;> exact hcounts
  · have hnew := hb.begin i d todo
    exact ⟨{ hnew.ledger with }, hnew.within, hnew.once⟩
  · exact hb.advance hj hstep _

theorem books_init (l : DispatchLimits) : Books l {} :=
  ⟨⟨rfl, fun k _ => by cases k <;> rfl⟩,
    ⟨Nat.zero_le _, fun _ => Nat.zero_le _, fun _ => Nat.zero_le _⟩, nofun⟩

theorem reach_books {C : State → Label → Prop} (h : Reach (· = {}) (step l) C s) :
    Books l s :=
  Reach.invariant (by rintro s rfl; exact books_init l)
    (fun _ _ _ hb _ hs => hb.change (step_change hs)) h

/-! ## Shutdown -/

/-- `shutdown` stores its flag while no chunk is inside `State::tryReserve`. -/
def QuietShutdown (s : State) : Label → Prop
  | .shutdown => ∀ job ∈ s.jobs, job.stage.reserving = false
  | _ => True

instance (s : State) (lab : Label) : Decidable (QuietShutdown s lab) := by
  cases lab <;> unfold QuietShutdown <;> infer_instance

/-- After the shutdown no chunk reserves. -/
def Shut (s : State) : Prop :=
  s.shared.accepting = false → ∀ job ∈ s.jobs, job.stage.reserving = false

/-- The dispatcher is shut down, and no chunk is charged to the global task count. -/
def Converged (s : State) : Prop :=
  s.shared.accepting = false ∧
    ∀ job ∈ s.jobs, job.stage.reserving = false ∧ job.stage.holdsGlobalTask = false

theorem Shut.change {lab : Label} (hi : Shut s) (hb : Books l s) (hc : QuietShutdown s lab)
    (hstep : step l s lab = some s') : Shut s' := by
  intro hclosed x hx
  rcases hb.moved (step_change hstep) with ⟨hshared, hjobs⟩ | ⟨rfl, -, hjobs⟩ | ⟨i, d, todo, hshared, hjobs⟩ |
    ⟨j, job, job', hj, hstep, hjobs⟩ <;> rw [hjobs] at hx
  · exact hi (hshared ▸ hclosed) x hx
  · exact hc x hx
  · rcases List.mem_append.mp hx with hx | hx
    · exact hi (hshared ▸ hclosed) x hx
    · rw [List.mem_singleton.mp hx]
      rfl
  · rw [hstep.charged.accepting] at hclosed
    rcases List.mem_or_eq_of_mem_set hx with hx | rfl
    · exact hi hclosed x hx
    · exact (hstep.quiet hclosed (hi hclosed job (List.mem_of_getElem? hj))).1

theorem Converged.change {lab : Label} (hi : Converged s) (hb : Books l s)
    (hstep : Change l s lab s') : Converged s' := by
  obtain ⟨hclosed, hall⟩ := hi
  rcases hb.moved hstep with ⟨hshared, hjobs⟩ | ⟨-, hshared, hjobs⟩ | ⟨i, d, todo, hshared, hjobs⟩ |
    ⟨j, job, job', hj, hstep, hjobs⟩ <;> rw [Converged, hjobs]
  · exact ⟨hshared ▸ hclosed, hall⟩
  · exact ⟨by rw [hshared], hall⟩
  · refine ⟨hshared ▸ hclosed, fun x hx => ?_⟩
    rcases List.mem_append.mp hx with hx | hx
    · exact hall x hx
    · rw [List.mem_singleton.mp hx]
      exact ⟨rfl, rfl⟩
  · refine ⟨hstep.charged.accepting.trans hclosed, fun x hx => ?_⟩
    rcases List.mem_or_eq_of_mem_set hx with hx | rfl
    · exact hall x hx
    · obtain ⟨hreserving, htask⟩ := hall job (List.mem_of_getElem? hj)
      exact (hstep.quiet hclosed hreserving).imp_right (· htask)

theorem reach_shut (h : Reach (· = {}) (step l) QuietShutdown s) : Shut s :=
  Reach.invariant_with (fun h => reach_books h) (by rintro s rfl; exact nofun)
    (fun _ _ _ hb hi hc hs => hi.change hb hc hs) h

/-- Nothing is charged to a counter. -/
theorem Converged.zero (hi : Converged s) (hb : Books l s) :
    s.shared.globalTasks = 0 ∧ s.shared.globalBytes = 0 ∧
      ∀ o, s.shared.ownerTasks o = 0 ∧ s.shared.ownerBytes o = 0 := by
  have hfree (job : Job) (hjob : job ∈ s.jobs) (k : Counter) : job.stage.holds k = false := by
    obtain ⟨hreserving, htask⟩ := hi.2 job hjob
    cases hs : job.stage <;> rw [hs] at hreserving htask
    case releasing op postFailure => cases op <;> first | (cases htask; done) | (cases k <;> rfl)
    all_goals first | (cases hreserving; done) | (cases htask; done) | (cases k <;> rfl)
  have hzero (k : Counter) (o : Nat) : s.shared.count o k = 0 := by
    rw [hb.ledger.counts]
    refine Stacks.weight_eq_zero fun job hjob => ?_
    rw [Job.charge, Job.units, hfree job hjob, if_neg Bool.false_ne_true, ite_self]
  exact ⟨hzero .globalTasks 0, hzero .globalBytes 0, fun o => ⟨hzero .ownerTasks o, hzero .ownerBytes o⟩⟩

/-- The dispatcher was shut down while no chunk was inside `State::tryReserve`. Once the global
    task count is zero, every counter is zero, no chunk is admitted, queued or running, and this
    stays so whatever happens. -/
theorem shutdown_converges (h : Reach (· = {}) (step l) QuietShutdown s)
    (hclosed : s.shared.accepting = false) (hzero : s.shared.globalTasks = 0)
    (h' : Reach (· = s) (step l) Any s') :
    (∀ job ∈ s'.jobs, job.stage.holdsGlobalTask = false) ∧ s'.shared.globalTasks = 0 ∧
      s'.shared.globalBytes = 0 ∧ ∀ o, s'.shared.ownerTasks o = 0 ∧ s'.shared.ownerBytes o = 0 := by
  have hb := reach_books h
  have hstart : Converged s := by
    refine ⟨hclosed, fun job hjob => ⟨reach_shut h hclosed job hjob, ?_⟩⟩
    have hle := Stacks.le_weight (Job.charge .globalTasks 0) hjob
    rw [← hb.ledger.counts, show s.shared.count 0 .globalTasks = 0 from hzero] at hle
    by_contra hcharged
    have hunits : job.units .globalTasks = 1 := if_pos (Bool.eq_true_of_not_eq_false hcharged)
    rw [show job.charge .globalTasks 0 = _ from hunits] at hle
    cases hle
  have hall : Books l s' ∧ Converged s' :=
    Reach.invariant (P := fun s => Books l s ∧ Converged s)
      (by rintro s rfl; exact ⟨hb, hstart⟩)
      (fun _ _ _ hi _ hs => ⟨hi.1.change (step_change hs), hi.2.change hi.1 (step_change hs)⟩) h'
  exact ⟨fun job hjob => (hall.2.2 job hjob).2, hall.2.zero hall.1⟩

end

theorem eight_ne_zero : 8 ≠ 0 := by decide

/-- One endpoint a task, and one task. -/
def small : DispatchLimits :=
  ⟨1, 8, 1, 8, 8, 8, Nat.one_ne_zero, eight_ne_zero, Nat.one_ne_zero, eight_ne_zero, eight_ne_zero,
    le_rfl⟩

/-- One endpoint on the loop 0. -/
def single : BroadcastPlan := routedPlan smallLimits 1 [⟨true, some ⟨5, 0, true, true⟩⟩] .normal

/-- The plan is dispatched up to the last check of `accepting`. -/
def upToRecheck : List Label :=
  .dispatch single :: List.replicate 7 (.step 0 {})

/-- A task that was admitted before the shutdown is finished after it. -/
theorem shutdown_converges_admitted :
    ∃ s : State, s.jobs.length = 1 ∧ s.shared.accepting = false ∧ s.shared.globalTasks = 0 ∧
      (∀ job ∈ s.jobs, job.stage.holdsGlobalTask = false) ∧ s.shared.globalTasks = 0 ∧
      s.shared.globalBytes = 0 ∧ ∀ o, s.shared.ownerTasks o = 0 ∧ s.shared.ownerBytes o = 0 := by
  obtain ⟨s, hreach, hjobs, hclosed, hzero⟩ := Reach.of_run (· = {}) (step small)
    QuietShutdown
    (fun s => s.jobs.length = 1 ∧ s.shared.accepting = false ∧ s.shared.globalTasks = 0) {} rfl
    (upToRecheck ++ List.replicate 3 (.step 0 {}) ++ .shutdown :: List.replicate 8 (.task 0 {}))
    (by decide +kernel)
  exact ⟨s, hjobs, hclosed, hzero, shutdown_converges hreach hclosed hzero (.start rfl)⟩

/-- The dispatcher is shut down between the last check and the global task count of a chunk: the
    count is zero, then the chunk is admitted, and its task sends. -/
theorem shutdown_overtakes_reservation :
    ∃ s s' : State, Reach (· = {}) (step small) Any s ∧
      s.shared.accepting = false ∧ s.shared.globalTasks = 0 ∧
      Reach (· = s) (step small) Any s' ∧
      s'.shared.globalTasks = 1 ∧ s'.dispatches.map Dispatch.sends = [[5]] := by
  obtain ⟨s, hreach, hclosed, hzero, hlater⟩ := Reach.of_run (· = {}) (step small)
    Any
    (fun s => s.shared.accepting = false ∧ s.shared.globalTasks = 0 ∧
      (Machine.run (step small) Any s
        (List.replicate 3 (.step 0 {}) ++ List.replicate 2 (.task 0 {}))).any
        (fun s => decide (s.shared.globalTasks = 1 ∧ s.dispatches.map Dispatch.sends = [[5]])) =
          true) {} rfl (upToRecheck ++ [.shutdown]) (by decide +kernel)
  obtain ⟨s', hreach', htask, hsent⟩ := Reach.of_run (· = s) (step small) Any
    (fun s => s.shared.globalTasks = 1 ∧ s.dispatches.map Dispatch.sends = [[5]]) s rfl _ hlater
  exact ⟨s, s', hreach, hclosed, hzero, hreach', htask, hsent⟩

end GameNet.Broadcast
