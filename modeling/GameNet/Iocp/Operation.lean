import GameNet.Machine
import Mathlib.Data.List.Basic

/- The guard of an overlapped operation (`IocpOperationState.h`): a submission is prepared, accepted
   or rejected, and retired when its completion is dequeued. A call that returns false changes nothing
   and is `none` here. The generations accepted and retired are kept as history. -/
namespace GameNet.IocpOperation

open Machine (Reach Any)

structure Operation where
  generation : Nat := 0
  terminalGeneration : Nat := 0
  submissionPrepared : Bool := false
  submissionAccepted : Bool := false
  completionObserved : Bool := false
  bytesTransferred : Nat := 0
  error : Nat := 0

def Operation.prepareIocpOperationSubmission (op : Operation) : Option Operation :=
  if op.submissionPrepared ∨ op.submissionAccepted ∨ op.generation = 2 ^ 64 - 1 then none
  else some { op with
    generation := op.generation + 1
    submissionPrepared := true, completionObserved := false, bytesTransferred := 0, error := 0 }

def Operation.commitIocpOperationSubmission (op : Operation) : Option Operation :=
  if op.submissionAccepted then none
  else (if op.submissionPrepared then some op else op.prepareIocpOperationSubmission).map fun op =>
    { op with submissionPrepared := false, submissionAccepted := true }

def Operation.rejectIocpOperationSubmission (op : Operation) : Option Operation :=
  if op.submissionPrepared = false ∨ op.submissionAccepted then none
  else some { op with submissionPrepared := false, completionObserved := false }

def Operation.retireIocpOperationSubmission (op : Operation) : Option Operation :=
  if op.submissionAccepted = false ∨ op.generation = 0 ∨ op.terminalGeneration = op.generation then none
  else some { op with
    submissionAccepted := false, submissionPrepared := false
    terminalGeneration := op.generation, completionObserved := true }

structure State where
  op : Operation := {}
  accepted : List Nat := []
  retired : List Nat := []

inductive Label where
  | prepare | commit | reject | retire

def step (s : State) : Label → Option State
  | .prepare => s.op.prepareIocpOperationSubmission.map fun op => { s with op := op }
  | .commit => s.op.commitIocpOperationSubmission.map fun op =>
    { s with op := op, accepted := s.accepted ++ [op.generation] }
  | .reject => s.op.rejectIocpOperationSubmission.map fun op => { s with op := op }
  | .retire => s.op.retireIocpOperationSubmission.map fun op =>
    { s with op := op, retired := s.retired ++ [op.generation] }

structure Inv (s : State) : Prop where
  books : s.accepted = s.retired ++ if s.op.submissionAccepted then [s.op.generation] else []
  rising : s.accepted.Pairwise (· < ·)
  bound : s.op.generation < 2 ^ 64
  used : ∀ g ∈ s.accepted, 0 < g ∧ g ≤ s.op.generation
  fresh : s.op.submissionPrepared = true → s.op.submissionAccepted = false ∧ 0 < s.op.generation ∧
    ∀ g ∈ s.accepted, g < s.op.generation
  terminal : s.op.terminalGeneration = 0 ∨ s.op.terminalGeneration ∈ s.retired

section
variable {s s' : State} {op : Operation}

theorem Inv.prepare (h : Inv s) (hop : s.op.prepareIocpOperationSubmission = some op) :
    Inv { s with op := op } ∧ op.submissionPrepared = true := by
  obtain ⟨hnot, heq⟩ := Option.ite_none_left_eq_some.mp hop
  cases heq
  simp only [not_or, Bool.not_eq_true] at hnot
  obtain ⟨-, haccepted, hlast⟩ := hnot
  refine ⟨⟨?_, h.rising, ?_, fun g hg => ?_, fun _ => ⟨haccepted, Nat.succ_pos _, ?_⟩,
    h.terminal⟩, rfl⟩
  · simpa [haccepted] using h.books
  · have := h.bound
    show s.op.generation + 1 < 2 ^ 64
    omega
  · exact ⟨(h.used g hg).1, Nat.le_succ_of_le (h.used g hg).2⟩
  · exact fun g hg => Nat.lt_succ_of_le (h.used g hg).2

/-- The second half of a commit. -/
theorem Inv.accept (h : Inv s) (hprepared : s.op.submissionPrepared = true) :
    Inv { s with
      op := { s.op with submissionPrepared := false, submissionAccepted := true }
      accepted := s.accepted ++ [s.op.generation] } := by
  obtain ⟨haccepted, hpos, hnew⟩ := h.fresh hprepared
  refine ⟨?_, ?_, h.bound, fun g hg => ?_, nofun, h.terminal⟩
  · simp [h.books, haccepted]
  · exact List.pairwise_append.mpr ⟨h.rising, List.pairwise_singleton .., by simpa using hnew⟩
  · rcases List.mem_append.mp hg with hg | hg
    · exact h.used g hg
    · rw [List.mem_singleton.mp hg]
      exact ⟨hpos, le_rfl⟩

theorem Inv.commit (h : Inv s) (hop : s.op.commitIocpOperationSubmission = some op) :
    Inv { s with op := op, accepted := s.accepted ++ [op.generation] } := by
  obtain ⟨-, hop⟩ := Option.ite_none_left_eq_some.mp hop
  obtain ⟨op, hprepare, rfl⟩ := Option.map_eq_some_iff.mp hop
  split at hprepare
  · rename_i hprepared
    cases hprepare
    exact h.accept hprepared
  · obtain ⟨hi, hprepared⟩ := h.prepare hprepare
    exact hi.accept hprepared

theorem Inv.reject (h : Inv s) (hop : s.op.rejectIocpOperationSubmission = some op) :
    Inv { s with op := op } := by
  obtain ⟨-, heq⟩ := Option.ite_none_left_eq_some.mp hop
  cases heq
  exact { h with fresh := nofun }

theorem Inv.retire (h : Inv s) (hop : s.op.retireIocpOperationSubmission = some op) :
    Inv { s with op := op, retired := s.retired ++ [op.generation] } := by
  obtain ⟨hnot, heq⟩ := Option.ite_none_left_eq_some.mp hop
  cases heq
  simp only [not_or, Bool.not_eq_false] at hnot
  refine { h with books := ?_, fresh := nofun, terminal := .inr ?_ }
  · simpa [hnot.1] using h.books
  · exact List.mem_append_right _ (List.mem_singleton_self _)

theorem step_inv (h : Inv s) (l : Label) (hs : step s l = some s') : Inv s' := by
  cases l
  all_goals obtain ⟨op, hop, rfl⟩ := Option.map_eq_some_iff.mp hs
  case prepare => exact (h.prepare hop).1
  case commit => exact h.commit hop
  case reject => exact h.reject hop
  case retire => exact h.retire hop

/-- The submission in flight has a generation that was not retired. -/
theorem Inv.inFlight (h : Inv s) (haccepted : s.op.submissionAccepted = true) :
    s.op.generation ≠ 0 ∧ s.op.terminalGeneration ≠ s.op.generation := by
  have hbooks := h.books
  rw [if_pos haccepted] at hbooks
  have hpos := (h.used s.op.generation (by simp [hbooks])).1
  refine ⟨hpos.ne', fun heq => ?_⟩
  rcases h.terminal with hzero | hretired
  · omega
  · have hlt := (List.pairwise_append.mp (hbooks ▸ h.rising)).2.2 _ hretired _
      (List.mem_singleton_self _)
    omega

end

/-- Every accepted submission but the one in flight has been retired, once and in order, under its own
    generation; the one in flight can be retired, and nothing else can. -/
theorem retired_exactly_once {s : State} (h : Reach (· = {}) step Any s) :
    s.accepted = s.retired ++ (if s.op.submissionAccepted then [s.op.generation] else []) ∧
      s.accepted.Pairwise (· < ·) ∧ (∀ g ∈ s.accepted, g < 2 ^ 64) ∧
      (s.op.submissionPrepared = true → s.op.submissionAccepted = false) ∧
      s.op.retireIocpOperationSubmission.isSome = s.op.submissionAccepted := by
  have hinv : Inv s := Reach.invariant (P := Inv)
    (by rintro _ rfl; constructor <;> simp)
    (fun _ l _ hi _ hs => step_inv hi l hs) h
  refine ⟨hinv.books, hinv.rising, fun g hg => Nat.lt_of_le_of_lt (hinv.used g hg).2 hinv.bound,
    fun hp => (hinv.fresh hp).1, ?_⟩
  have hlive := hinv.inFlight
  unfold Operation.retireIocpOperationSubmission
  cases haccepted : s.op.submissionAccepted with
  | false => simp
  | true => simp [hlive haccepted]

theorem retired_exactly_once_rejected : ∃ s : State, s.accepted = [2, 3] ∧ s.retired = [2] ∧
    s.op.retireIocpOperationSubmission.isSome = true := by
  obtain ⟨s, hr, haccepted, hretired, hop⟩ := Reach.of_run (· = {}) step Any
    (fun s => s.accepted = [2, 3] ∧ s.retired = [2] ∧ s.op.submissionAccepted = true) {} rfl
    [.prepare, .reject, .prepare, .commit, .retire, .commit] (by decide)
  exact ⟨s, haccepted, hretired, (retired_exactly_once hr).2.2.2.2.trans hop⟩

end GameNet.IocpOperation
