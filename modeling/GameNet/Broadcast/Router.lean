import Mathlib.Data.List.Induction
import Mathlib.Data.List.Nodup
import Mathlib.Tactic.SplitIfs
import GameNet.Broadcast.Model

/- BroadcastRouter (`BroadcastRouter.cc`): one scan over the targets that puts each of them into
   the batch of its owner or drops it for the first reason that applies.

   What an endpoint answers is read once for each target, so the answers are part of the target;
   two targets with one endpoint may have different ones. Counters are natural numbers: the
   accepted ones are below the fan-out limit wherever one is added. Metrics are left out.

   `verdict` is the rule the scan is compared with: it looks at the targets before, the number of
   endpoints accepted among them, and exact products instead of quotients. -/
namespace GameNet.Broadcast

/-! ## Router -/

/-- `BroadcastLimits` as the constructor accepts them. -/
structure BroadcastLimits where
  softFanout : Nat
  hardFanout : Nat
  softBytes : Nat
  hardBytes : Nat
  fanout_le : softFanout ≤ hardFanout
  bytes_le : softBytes ≤ hardBytes
  fanout_pos : hardFanout ≠ 0
  bytes_pos : hardBytes ≠ 0

/-- A TransportEndpoint and what it answers: its id, its owner executor and whether that one is
    available, and `isOpen()`. -/
structure Endpoint where
  id : Nat
  ownerExecutor : Nat
  available : Bool
  isOpen : Bool
  deriving DecidableEq, Repr

/-- A BroadcastTarget; no endpoint is a null pointer. -/
structure Target where
  eligible : Bool
  endpoint : Option Endpoint
  deriving DecidableEq, Repr

structure Batch where
  ownerExecutor : Nat
  endpoints : List Endpoint
  deriving DecidableEq, Repr

/-- The plan in the making, with the two tables of `route`. -/
structure Scan where
  batches : List Batch := []
  accepted : Nat := 0
  dropped : Nat := 0
  reasonCounts : Counts := fun _ => 0
  seen : List Nat := []
  batchIndexes : Nat → Option Nat := fun _ => none

def Scan.drop (s : Scan) (reason : BroadcastReason) : Scan :=
  { s with dropped := s.dropped + 1, reasonCounts := s.reasonCounts.add reason 1 }

def Batch.push (b : Batch) (e : Endpoint) : Batch := { b with endpoints := b.endpoints ++ [e] }

/-- The end of the loop's body: `try_emplace`, and the endpoint goes to the batch found. -/
def Scan.take (s : Scan) (e : Endpoint) : Scan :=
  match s.batchIndexes e.ownerExecutor with
  | some index =>
    { s with batches := s.batches.modify index (·.push e), accepted := s.accepted + 1 }
  | none =>
    { s with
      batchIndexes := Function.update s.batchIndexes e.ownerExecutor (some s.batches.length)
      batches := s.batches ++ [Batch.push ⟨e.ownerExecutor, []⟩ e]
      accepted := s.accepted + 1 }

/-- The loop's body for one target. -/
def Scan.target (l : BroadcastLimits) (priority : BroadcastPriority) (bytes : Nat) (s : Scan)
    (t : Target) : Scan :=
  if t.eligible = false then s.drop .offlineSession
  else match t.endpoint with
    | none => s.drop .invalidPlan
    | some e =>
      if e.id ∈ s.seen then s.drop .duplicateEndpoint
      else
        let s := { s with seen := e.id :: s.seen }
        if s.accepted ≥ l.hardFanout then s.drop .fanoutHardLimit
        else if bytes > l.hardBytes / (s.accepted + 1) then s.drop .byteHardLimit
        else if priority = .low ∧ (s.accepted ≥ l.softFanout ∨
            (s.accepted + 1 ≠ 0 ∧ bytes > l.softBytes / (s.accepted + 1))) then
          s.drop .lowPrioritySoftLimit
        else if e.available = false then s.drop .ownerUnavailable
        else if e.isOpen = false then s.drop .endpointClosed
        else s.take e

def scan (l : BroadcastLimits) (priority : BroadcastPriority) (bytes : Nat) (targets : List Target) : Scan :=
  targets.foldl (Scan.target l priority bytes) {}

/-- `BroadcastRouter::route` for a payload of that size; `none` where it throws for a null payload. -/
def route (l : BroadcastLimits) (payload : Option Nat) (targets : List Target)
    (priority : BroadcastPriority) : Option Scan :=
  payload.map fun bytes => scan l priority bytes targets

/-! ## The rule -/

/-- The endpoint's id stood in an eligible target before. -/
def knownBefore (before : List Target) (id : Nat) : Bool :=
  before.any fun t => t.eligible && (t.endpoint.map Endpoint.id == some id)

/-- Why a target is dropped after the targets `before`, of which `accepted` were accepted; `none`
    for one that is accepted. -/
def verdict (l : BroadcastLimits) (priority : BroadcastPriority) (bytes : Nat) (before : List Target)
    (accepted : Nat) (t : Target) : Option BroadcastReason :=
  if t.eligible = false then some .offlineSession
  else match t.endpoint with
    | none => some .invalidPlan
    | some e =>
      if knownBefore before e.id then some .duplicateEndpoint
      else if accepted = l.hardFanout then some .fanoutHardLimit
      else if l.hardBytes < bytes * (accepted + 1) then some .byteHardLimit
      else if priority = .low ∧ (l.softFanout ≤ accepted ∨ l.softBytes < bytes * (accepted + 1)) then
        some .lowPrioritySoftLimit
      else if e.available = false then some .ownerUnavailable
      else if e.isOpen = false then some .endpointClosed
      else none

/-- The endpoints of all batches. -/
def Scan.endpoints (s : Scan) : List Endpoint := s.batches.flatMap Batch.endpoints

/-- The endpoints that the plan has for an executor. -/
def Scan.batchOf (s : Scan) (executor : Nat) : List Endpoint :=
  (s.batches.filter (·.ownerExecutor == executor)).flatMap Batch.endpoints

/-- What a target with this verdict adds to the plan. -/
inductive Judged (t : Target) (s s' : Scan) : Option BroadcastReason → Prop
  | dropped (reason : BroadcastReason) (batches : s'.batches = s.batches)
      (accepted : s'.accepted = s.accepted) (dropped : s'.dropped = s.dropped + 1)
      (reasonCounts : s'.reasonCounts = s.reasonCounts.add reason 1) : Judged t s s' (some reason)
  | accepted (e : Endpoint) (endpoint : t.endpoint = some e)
      (batchOf : ∀ x, s'.batchOf x = s.batchOf x ++ if x = e.ownerExecutor then [e] else [])
      (accepted : s'.accepted = s.accepted + 1) (dropped : s'.dropped = s.dropped)
      (reasonCounts : s'.reasonCounts = s.reasonCounts) : Judged t s s' none

structure Routed (l : BroadcastLimits) (priority : BroadcastPriority) (bytes : Nat)
    (targets : List Target) (plan : Scan) : Prop where
  total : plan.accepted + plan.dropped = targets.length
  counted : plan.reasonCounts.total = plan.dropped
  /-- The batches contain the accepted endpoints, each once. -/
  contained : plan.endpoints.length = plan.accepted
  distinct : (plan.endpoints.map Endpoint.id).Nodup
  own : ∀ b ∈ plan.batches, ∀ e ∈ b.endpoints, e.ownerExecutor = b.ownerExecutor
  single : (plan.batches.map Batch.ownerExecutor).Nodup
  ordered : ∀ b ∈ plan.batches, b.endpoints.Sublist (targets.filterMap Target.endpoint)
  fanout : plan.accepted ≤ l.hardFanout
  withinBytes : plan.accepted * bytes ≤ l.hardBytes
  judged : ∀ before t after, targets = before ++ t :: after →
    Judged t (scan l priority bytes before) (scan l priority bytes (before ++ [t]))
      (verdict l priority bytes before (scan l priority bytes before).accepted t)

/-! ## The scan follows the rule -/

section
variable {l : BroadcastLimits} {priority : BroadcastPriority} {bytes : Nat} {before : List Target}
  {t : Target} {s : Scan} {e : Endpoint}

/-- The `seen` table after a target. -/
def noted (seen : List Nat) (t : Target) : List Nat :=
  match t.eligible, t.endpoint with
  | true, some e => if e.id ∈ seen then seen else e.id :: seen
  | _, _ => seen

theorem mem_noted {seen : List Nat} {k : Nat} :
    k ∈ noted seen t ↔ k ∈ seen ∨ t.eligible = true ∧ t.endpoint.map Endpoint.id = some k := by
  unfold noted
  split
  · rename_i e heligible hendpoint
    rw [hendpoint, heligible, Option.map_some, Option.some.injEq]
    split
    · rename_i hin
      exact ⟨.inl, fun h => h.elim id fun h => h.2 ▸ hin⟩
    · rw [List.mem_cons, eq_comm, or_comm]
      simp
  · rename_i hno
    refine ⟨.inl, fun h => h.elim id fun h => ?_⟩
    obtain ⟨e, he, -⟩ := Option.map_eq_some_iff.mp h.2
    exact absurd he (hno e h.1)

theorem knownBefore_snoc {k : Nat} : knownBefore (before ++ [t]) k = true ↔
    knownBefore before k = true ∨ t.eligible = true ∧ t.endpoint.map Endpoint.id = some k := by
  simp [knownBefore]

/-- A quotient that is too small is a product that is too large. -/
theorem gt_div_iff {limit n : Nat} : bytes > limit / (n + 1) ↔ limit < bytes * (n + 1) :=
  Nat.div_lt_iff_lt_mul (Nat.succ_pos n)

/-- The loop's body does what the rule says. -/
theorem target_eq (hseen : ∀ k, k ∈ s.seen ↔ knownBefore before k = true)
    (hfanout : s.accepted ≤ l.hardFanout) :
    s.target l priority bytes t =
      match verdict l priority bytes before s.accepted t, t.endpoint with
      | some reason, _ => { s with seen := noted s.seen t }.drop reason
      | none, some e => { s with seen := noted s.seen t }.take e
      | none, none => s := by
  unfold Scan.target verdict noted
  cases heligible : t.eligible with
  | false => rfl
  | true =>
    cases hendpoint : t.endpoint with
    | none => rfl
    | some e =>
      have hlimit : s.accepted ≥ l.hardFanout ↔ s.accepted = l.hardFanout :=
        ⟨fun h => Nat.le_antisymm hfanout h, fun h => Nat.le_of_eq h.symm⟩
      simp only [Bool.true_eq_false, if_false, ← hseen, gt_div_iff, hlimit, ne_eq, Nat.succ_ne_zero,
        not_false_eq_true, true_and, ge_iff_le]
      by_cases hin : e.id ∈ s.seen
      · simp only [hin, if_true]
      · simp only [hin, if_false]
        split_ifs <;> rfl

/-- An accepted target has an endpoint of a new id, and room below both hard limits. -/
theorem verdict_none (h : verdict l priority bytes before s.accepted t = none) :
    ∃ e, t.endpoint = some e ∧ t.eligible = true ∧ knownBefore before e.id = false ∧
      s.accepted ≠ l.hardFanout ∧ bytes * (s.accepted + 1) ≤ l.hardBytes := by
  unfold verdict at h
  cases heligible : t.eligible with
  | false => simp [heligible] at h
  | true =>
    cases hendpoint : t.endpoint with
    | none => simp [heligible, hendpoint] at h
    | some e =>
      simp only [heligible, hendpoint, Bool.true_eq_false, if_false] at h
      split_ifs at h with hknown hfull hbytes
      exact ⟨e, rfl, rfl, by simpa using hknown, hfull, Nat.not_lt.mp hbytes⟩

/-! ## Batches -/

/-- The batches after an endpoint has gone to the end of the one of its executor, which may be new. -/
def Pushed (e : Endpoint) (batches batches' : List Batch) : Prop :=
  ∃ front b back, batches' = front ++ b.push e :: back ∧ b.ownerExecutor = e.ownerExecutor ∧
    (batches = front ++ b :: back ∨ batches = front ∧ back = [] ∧ b.endpoints = [] ∧
      e.ownerExecutor ∉ front.map Batch.ownerExecutor)

theorem Pushed.perm {batches batches' : List Batch} (h : Pushed e batches batches') :
    (batches'.flatMap Batch.endpoints).Perm (e :: batches.flatMap Batch.endpoints) := by
  obtain ⟨front, b, back, rfl, -, rfl | ⟨rfl, rfl, hempty, -⟩⟩ := h
  · simp only [List.flatMap_append, List.flatMap_cons, Batch.push, List.append_assoc]
    refine (List.Perm.append_left _ ?_).trans List.perm_middle
    exact List.perm_middle
  · simp only [List.flatMap_append, List.flatMap_cons, Batch.push, hempty, List.flatMap_nil,
      List.nil_append, List.append_nil]
    exact List.perm_append_comm

theorem Pushed.executors {batches batches' : List Batch} (h : Pushed e batches batches')
    (hnodup : (batches.map Batch.ownerExecutor).Nodup) : (batches'.map Batch.ownerExecutor).Nodup := by
  obtain ⟨front, b, back, rfl, hb, rfl | ⟨rfl, rfl, -, hnew⟩⟩ := h
  · simpa [Batch.push] using hnodup
  · rw [List.map_append, List.map_singleton, show (b.push e).ownerExecutor = e.ownerExecutor from hb]
    refine List.nodup_append.mpr ⟨hnodup, List.nodup_singleton _, fun x hx y hy => ?_⟩
    rw [List.mem_singleton.mp hy]
    rintro rfl
    exact hnew hx

theorem Pushed.batchOf {batches batches' : List Batch} (h : Pushed e batches batches')
    (hnodup : (batches.map Batch.ownerExecutor).Nodup) (x : Nat) :
    (batches'.filter (·.ownerExecutor == x)).flatMap Batch.endpoints =
      (batches.filter (·.ownerExecutor == x)).flatMap Batch.endpoints ++
        if x = e.ownerExecutor then [e] else [] := by
  obtain ⟨front, b, back, rfl, hb, hwas⟩ := h
  have hpush : (b.push e).ownerExecutor = e.ownerExecutor := hb
  by_cases hx : x = e.ownerExecutor
  · subst hx
    -- no other batch has this executor
    have hback : back.filter (·.ownerExecutor == e.ownerExecutor) = [] := by
      rcases hwas with rfl | ⟨-, rfl, -⟩
      · rw [List.map_append, List.map_cons, hb] at hnodup
        have hnot := (List.nodup_cons.mp (List.nodup_append.mp hnodup).2.1).1
        rw [List.filter_eq_nil_iff]
        intro b' hb' heq
        exact hnot (List.mem_map.mpr ⟨b', hb', by simpa using heq⟩)
      · rfl
    rcases hwas with rfl | ⟨rfl, rfl, hempty, hnew⟩
    · simp [List.filter_append, hb, hback, Batch.push]
    · simp [List.filter_append, hb, hempty, Batch.push]
  · have hne : ¬ (e.ownerExecutor == x) = true := by simpa using Ne.symm hx
    rcases hwas with rfl | ⟨rfl, rfl, -, -⟩
    · simp [List.filter_append, hpush, hb, hne, hx]
    · simp [List.filter_append, hpush, hne, hx]

/-- The index table knows the batch of every executor that has one. -/
def Indexed (s : Scan) : Prop :=
  ∀ x i, s.batchIndexes x = some i ↔ (s.batches.map Batch.ownerExecutor)[i]? = some x

theorem take_pushed (h : Indexed s) : Pushed e s.batches (s.take e).batches := by
  unfold Scan.take
  cases hindex : s.batchIndexes e.ownerExecutor with
  | some i =>
    have hget := (h _ i).mp hindex
    rw [List.getElem?_map, Option.map_eq_some_iff] at hget
    obtain ⟨b, hb, hexecutor⟩ := hget
    obtain ⟨hlt, rfl⟩ := List.getElem?_eq_some_iff.mp hb
    refine ⟨s.batches.take i, s.batches[i], s.batches.drop (i + 1), ?_, hexecutor, .inl ?_⟩
    · exact List.modify_eq_take_cons_drop hlt
    · rw [← List.drop_eq_getElem_cons hlt, List.take_append_drop]
  | none =>
    refine ⟨s.batches, ⟨e.ownerExecutor, []⟩, [], rfl, rfl, .inr ⟨rfl, rfl, rfl, fun hin => ?_⟩⟩
    obtain ⟨i, hi⟩ := List.mem_iff_getElem?.mp hin
    exact absurd (((h _ i).mpr hi).symm.trans hindex) nofun

theorem take_indexed (h : Indexed s) : Indexed (s.take e) := by
  intro x i
  unfold Scan.take
  cases hindex : s.batchIndexes e.ownerExecutor with
  | some j =>
    have hsame : (s.batches.modify j (·.push e)).map Batch.ownerExecutor =
        s.batches.map Batch.ownerExecutor := by
      refine List.ext_getElem? fun k => ?_
      rw [List.getElem?_map, List.getElem?_map, List.getElem?_modify, Option.map_eq_map, Option.map_map]
      congr 1
      funext b
      by_cases hj : j = k <;> simp [hj, Batch.push]
    simp only [hsame]
    exact h x i
  | none =>
    have hlast : ∀ k, (s.batches.map Batch.ownerExecutor)[k]? ≠ some e.ownerExecutor :=
      fun k hk => absurd (((h _ k).mpr hk).symm.trans hindex) nofun
    simp only [List.map_append, List.map_singleton, List.getElem?_append, List.length_map]
    by_cases hx : x = e.ownerExecutor
    · subst hx
      rw [Function.update_self, Option.some.injEq]
      split
      · rename_i hlt
        exact ⟨fun heq => absurd heq (by omega), fun hk => absurd hk (hlast i)⟩
      · rename_i hge
        rw [List.getElem?_singleton]
        split
        · exact ⟨fun _ => rfl, fun _ => by omega⟩
        · exact ⟨fun heq => absurd heq (by omega), nofun⟩
    · rw [Function.update_of_ne hx, h x i]
      split
      · rfl
      · rename_i hge
        rw [List.getElem?_eq_none (by simpa using hge), List.getElem?_singleton]
        split
        · exact ⟨nofun, fun heq => absurd (Option.some.inj heq).symm hx⟩
        · exact Iff.rfl

/-! ## The whole scan -/

/-- What the scan has after the targets `before`. -/
structure Progress (l : BroadcastLimits) (bytes : Nat) (before : List Target) (s : Scan) : Prop where
  total : s.accepted + s.dropped = before.length
  counted : s.reasonCounts.total = s.dropped
  contained : s.endpoints.length = s.accepted
  distinct : (s.endpoints.map Endpoint.id).Nodup
  own : ∀ b ∈ s.batches, ∀ e ∈ b.endpoints, e.ownerExecutor = b.ownerExecutor
  single : (s.batches.map Batch.ownerExecutor).Nodup
  ordered : ∀ b ∈ s.batches, b.endpoints.Sublist (before.filterMap Target.endpoint)
  fanout : s.accepted ≤ l.hardFanout
  withinBytes : s.accepted * bytes ≤ l.hardBytes
  seen : ∀ k, k ∈ s.seen ↔ knownBefore before k = true
  known : ∀ e ∈ s.endpoints, e.id ∈ s.seen
  indexed : Indexed s

theorem Progress.noted (h : Progress l bytes before s) (k : Nat) :
    k ∈ noted s.seen t ↔ knownBefore (before ++ [t]) k = true := by
  rw [mem_noted, knownBefore_snoc, h.seen]

theorem Progress.ordered_snoc (h : Progress l bytes before s) {b : Batch} (hb : b ∈ s.batches) :
    b.endpoints.Sublist ((before ++ [t]).filterMap Target.endpoint) := by
  rw [List.filterMap_append]
  exact (h.ordered b hb).trans (List.sublist_append_left _ _)

theorem Progress.drop (h : Progress l bytes before s) (reason : BroadcastReason) :
    Progress l bytes (before ++ [t]) ({ s with seen := Broadcast.noted s.seen t }.drop reason) where
  total := by
    have hold := h.total
    simp only [Scan.drop, List.length_append, List.length_singleton]
    omega
  counted := by
    simp only [Scan.drop, Counts.total_add, h.counted]
  contained := h.contained
  distinct := h.distinct
  own := h.own
  single := h.single
  ordered := fun _ hb => h.ordered_snoc hb
  fanout := h.fanout
  withinBytes := h.withinBytes
  seen := h.noted
  known := fun e he => mem_noted.mpr (.inl (h.known e he))
  indexed := h.indexed

theorem Progress.take (h : Progress l bytes before s) (he : t.endpoint = some e)
    (heligible : t.eligible = true) (hnew : knownBefore before e.id = false)
    (hfanout : s.accepted ≠ l.hardFanout) (hbytes : bytes * (s.accepted + 1) ≤ l.hardBytes) :
    Progress l bytes (before ++ [t]) ({ s with seen := Broadcast.noted s.seen t }.take e) := by
  have hpushed : Pushed e s.batches ({ s with seen := Broadcast.noted s.seen t }.take e).batches :=
    take_pushed h.indexed
  have hfields : ({ s with seen := Broadcast.noted s.seen t }.take e).accepted = s.accepted + 1 ∧
      ({ s with seen := Broadcast.noted s.seen t }.take e).dropped = s.dropped ∧
      ({ s with seen := Broadcast.noted s.seen t }.take e).reasonCounts = s.reasonCounts ∧
      ({ s with seen := Broadcast.noted s.seen t }.take e).seen = Broadcast.noted s.seen t := by
    unfold Scan.take
    split <;> exact ⟨rfl, rfl, rfl, rfl⟩
  obtain ⟨haccepted, hdropped, hcounts, hseen⟩ := hfields
  have hperm := hpushed.perm
  -- a batch is an old one, or the one that the endpoint went to
  have hbatch : ∀ b ∈ ({ s with seen := Broadcast.noted s.seen t }.take e).batches, b ∈ s.batches ∨
      ∃ b₀, b = b₀.push e ∧ b₀.ownerExecutor = e.ownerExecutor ∧ (b₀ ∈ s.batches ∨ b₀.endpoints = []) := by
    obtain ⟨front, b₀, back, heq, hb₀, hwas⟩ := hpushed
    intro b hb
    rw [heq, List.mem_append, List.mem_cons] at hb
    rcases hwas with hwas | ⟨hwas, rfl, hempty, -⟩ <;> rw [hwas]
    · rcases hb with hb | rfl | hb
      · exact .inl (List.mem_append_left _ hb)
      · exact .inr ⟨b₀, rfl, hb₀, .inl (List.mem_append_right _ (.head _))⟩
      · exact .inl (List.mem_append_right _ (.tail _ hb))
    · rcases hb with hb | rfl | hb
      · exact .inl hb
      · exact .inr ⟨b₀, rfl, hb₀, .inr hempty⟩
      · cases hb
  constructor
  case total =>
    have hold := h.total
    rw [haccepted, hdropped, List.length_append, List.length_singleton]
    omega
  case counted => rw [hcounts, hdropped, h.counted]
  case contained => rw [Scan.endpoints, hperm.length_eq, List.length_cons, haccepted, ← h.contained]; rfl
  case distinct =>
    rw [Scan.endpoints, (hperm.map Endpoint.id).nodup_iff, List.map_cons, List.nodup_cons]
    refine ⟨fun hin => ?_, h.distinct⟩
    obtain ⟨e', he', hid⟩ := List.mem_map.mp hin
    have hknown := (h.seen _).mp (h.known e' he')
    rw [hid, hnew] at hknown
    cases hknown
  case own =>
    intro b hb e' he'
    rcases hbatch b hb with hold | ⟨b₀, rfl, hexecutor, hb₀⟩
    · exact h.own b hold e' he'
    · rcases List.mem_append.mp he' with he' | he'
      · rcases hb₀ with hb₀ | hempty
        · exact h.own b₀ hb₀ e' he'
        · rw [hempty] at he'
          cases he'
      · rw [List.mem_singleton.mp he']
        exact hexecutor.symm
  case single => exact hpushed.executors h.single
  case ordered =>
    intro b hb
    rcases hbatch b hb with hold | ⟨b₀, rfl, -, hb₀⟩
    · exact h.ordered_snoc hold
    · have hfront : b₀.endpoints.Sublist (before.filterMap Target.endpoint) := by
        rcases hb₀ with hb₀ | hempty
        · exact h.ordered b₀ hb₀
        · rw [hempty]
          exact List.nil_sublist _
      rw [List.filterMap_append, List.filterMap_cons, he, List.filterMap_nil]
      exact hfront.append (List.Sublist.refl [e])
  case fanout =>
    have hle := h.fanout
    rw [haccepted]
    omega
  case withinBytes =>
    rw [haccepted, Nat.mul_comm]
    exact hbytes
  case seen =>
    rw [hseen]
    exact h.noted
  case known =>
    intro e' he'
    rw [hseen, mem_noted]
    rcases List.mem_cons.mp (hperm.mem_iff.mp he') with rfl | hold
    · exact .inr ⟨heligible, by rw [he]; rfl⟩
    · exact .inl (h.known e' hold)
  case indexed => exact take_indexed h.indexed

theorem Progress.target (h : Progress l bytes before s) :
    Progress l bytes (before ++ [t]) (s.target l priority bytes t) := by
  rw [target_eq h.seen h.fanout]
  cases hv : verdict l priority bytes before s.accepted t with
  | some reason => exact h.drop reason
  | none =>
    obtain ⟨e, he, heligible, hnew, hfanout, hbytes⟩ := verdict_none hv
    rw [he]
    exact h.take he heligible hnew hfanout hbytes

theorem scan_snoc : scan l priority bytes (before ++ [t]) =
    (scan l priority bytes before).target l priority bytes t := by
  rw [scan, List.foldl_append]
  rfl

theorem scan_progress (l : BroadcastLimits) (priority : BroadcastPriority) (bytes : Nat)
    (targets : List Target) : Progress l bytes targets (scan l priority bytes targets) := by
  induction targets using List.reverseRecOn with
  | nil =>
    exact
      { total := rfl, counted := Counts.total_zero, contained := rfl, distinct := List.nodup_nil, own := nofun,
        single := List.nodup_nil, ordered := nofun, fanout := Nat.zero_le _
        withinBytes := Nat.le_trans (Nat.le_of_eq (Nat.zero_mul bytes)) (Nat.zero_le _)
        seen := fun k => ⟨nofun, nofun⟩, known := nofun, indexed := fun x i => ⟨nofun, nofun⟩ }
  | append_singleton before t ih =>
    rw [scan_snoc]
    exact ih.target

theorem Progress.judged (h : Progress l bytes before s) :
    Judged t s (s.target l priority bytes t) (verdict l priority bytes before s.accepted t) := by
  rw [target_eq h.seen h.fanout]
  cases hv : verdict l priority bytes before s.accepted t with
  | some reason => exact .dropped reason rfl rfl rfl rfl
  | none =>
    obtain ⟨e, he, -⟩ := verdict_none hv
    rw [he]
    have hpushed : Pushed e s.batches ({ s with seen := Broadcast.noted s.seen t }.take e).batches :=
      take_pushed h.indexed
    refine .accepted e he (hpushed.batchOf h.single) ?_ ?_ ?_ <;> dsimp only [Scan.take] <;> split <;> rfl

theorem route_partitions (l : BroadcastLimits) (bytes : Nat) (targets : List Target)
    (priority : BroadcastPriority) :
    ∃ plan, route l (some bytes) targets priority = some plan ∧ Routed l priority bytes targets plan := by
  have h := scan_progress l priority bytes targets
  refine ⟨_, rfl, h.total, h.counted, h.contained, h.distinct, h.own, h.single, h.ordered, h.fanout,
    h.withinBytes, ?_⟩
  intro before t after _
  rw [scan_snoc]
  exact (scan_progress l priority bytes before).judged

end

/-- A payload of three bytes fits twice. -/
def smallLimits : BroadcastLimits := ⟨1, 4, 3, 6, by decide, by decide, by decide, by decide⟩

/-- Two endpoints are accepted; one is there again, one is a null pointer, and a third one would
    exceed the byte limit. -/
theorem route_partitions_smallLimits :
    ∃ targets plan, route smallLimits (some 3) targets .normal = some plan ∧
      Routed smallLimits .normal 3 targets plan ∧
      plan.batches.map Batch.endpoints = [[⟨1, 8, true, true⟩], [⟨2, 9, true, true⟩]] ∧
      plan.reasonCounts .duplicateEndpoint = 1 ∧ plan.reasonCounts .invalidPlan = 1 ∧
      plan.reasonCounts .byteHardLimit = 1 := by
  let targets : List Target := [⟨true, some ⟨1, 8, true, true⟩⟩, ⟨true, none⟩,
    ⟨true, some ⟨1, 8, true, true⟩⟩, ⟨true, some ⟨2, 9, true, true⟩⟩, ⟨true, some ⟨3, 8, true, true⟩⟩]
  obtain ⟨plan, hroute, hrouted⟩ := route_partitions smallLimits 3 targets .normal
  obtain rfl := Option.some.inj hroute
  exact ⟨targets, _, rfl, hrouted, by decide, by decide, by decide, by decide⟩

/-! ## The plan for the dispatcher -/

/-- The batches as the dispatcher sees them: an endpoint is named by its id. -/
def Batch.named (b : Batch) : LoopBatch := ⟨b.ownerExecutor, (b.endpoints.map Endpoint.id).map some⟩

theorem named_endpoints (batches : List Batch) :
    (batches.map Batch.named).flatMap LoopBatch.endpoints =
      ((batches.flatMap Batch.endpoints).map Endpoint.id).map some := by
  induction batches with
  | nil => rfl
  | cons b batches ih =>
    rw [List.map_cons, List.flatMap_cons, ih, List.flatMap_cons, List.map_append, List.map_append]
    rfl

theorem named_distinct {s : Scan} (h : (s.endpoints.map Endpoint.id).Nodup) (k : Nat) :
    ((s.batches.map Batch.named).flatMap LoopBatch.endpoints).count (some k) ≤ 1 := by
  rw [named_endpoints]
  exact List.nodup_iff_count_le_one.mp (h.map fun _ _ => Option.some.inj) (some k)

/-- The BroadcastPlan that `route` returns. -/
def routedPlan (l : BroadcastLimits) (bytes : Nat) (targets : List Target) (priority : BroadcastPriority) :
    BroadcastPlan where
  payload := some bytes
  batches := (scan l priority bytes targets).batches.map Batch.named
  dropped := (scan l priority bytes targets).dropped
  priority := priority
  reasonCounts := (scan l priority bytes targets).reasonCounts
  counted := (scan_progress l priority bytes targets).counted
  distinct := named_distinct (scan_progress l priority bytes targets).distinct

end GameNet.Broadcast
