import Mathlib.Logic.Function.Basic
import Mathlib.Algebra.Order.Ring.Int
import GameNet.Buckets
import GameNet.Machine

/- DeadlineQueue (`DeadlineQueue.cc`): an index of keyed deadlines. Every entry is in a bucket
   of an ordered map, whose key is the deadline rounded up to the resolution, and in a hash index
   that says for each key where its entry is.

   `Holds o q m` says that the queue `q` is the map `m` from a key to its latest entry; each
   operation is specified once by what it does to `m`. A list node is named by its token, which
   no other node has. Allocation failures are left out; times are signed 64-bit counts. -/
namespace GameNet.DeadlineQueue

open Function (update update_self update_of_ne update_eq_self_iff)

/-! ## The queue -/

/-- `Timestamp::max()` and `Timestamp::min()`. -/
def maximum : Int := 2 ^ 63 - 1
def minimum : Int := -2 ^ 63

/-- `DeadlineQueueOptions` as `validate` accepts them. -/
structure Options where
  resolution : Int
  maxExpiredPerAdvance : Nat
  resolution_pos : 0 < resolution
  budget_pos : 0 < maxExpiredPerAdvance

structure Token where
  key : Nat := 0
  generation : Nat := 0
  deriving DecidableEq, Repr

def Token.valid (t : Token) : Bool := t.generation != 0

structure Entry where
  token : Token
  deadline : Int
  deriving DecidableEq, Repr

structure Location where
  bucketDeadline : Int
  /-- The list node, by the token in it. -/
  entry : Token
  deriving DecidableEq, Repr

structure Queue where
  nextGeneration : Nat := 1
  buckets : List (Int × List Entry) := []
  entries : Nat → Option Location := fun _ => none

inductive Error where
  /-- `overflow_error` -/
  | generationExhausted
  /-- The three `logic_error`s. -/
  | missingBucket
  | replacementMissingBucket
  | generationMismatch
  deriving DecidableEq, Repr

/-- The largest value of a generation. -/
def maxGeneration : Nat := 2 ^ 64 - 1

/-- `quantize`: rounded up to the resolution, or to the last time point; C++ division truncates. -/
def quantize (o : Options) (raw : Int) : Int :=
  let rounded := o.resolution * raw.tdiv o.resolution
  if rounded < raw then
    if maximum - rounded < o.resolution then maximum else rounded + o.resolution
  else rounded

/-- `Bucket::erase` of a node, and of the bucket if it is then empty. -/
def eraseNode (bucketDeadline : Int) (node : Token) (buckets : List (Int × List Entry)) :
    Option (List (Int × List Entry)) :=
  Buckets.remove bucketDeadline (fun e => e.token == node) buckets

def schedule (o : Options) (q : Queue) (key : Nat) (deadline : Int) : Except Error (Queue × Token) :=
  if q.nextGeneration = maxGeneration then .error .generationExhausted
  else
    let token : Token := ⟨key, q.nextGeneration⟩
    let bucketDeadline := quantize o deadline
    let buckets := Buckets.push bucketDeadline ⟨token, deadline⟩ q.buckets
    let entries := update q.entries key (some ⟨bucketDeadline, token⟩)
    match q.entries key with
    | some old =>
      match eraseNode old.bucketDeadline old.entry buckets with
      | none => .error .replacementMissingBucket
      | some buckets => .ok (⟨q.nextGeneration + 1, buckets, entries⟩, token)
    | none => .ok (⟨q.nextGeneration + 1, buckets, entries⟩, token)

def cancel (q : Queue) (token : Token) : Except Error (Queue × Bool) :=
  if token.valid = false then .ok (q, false)
  else
    match q.entries token.key with
    | none => .ok (q, false)
    | some location =>
      if location.entry ≠ token then .ok (q, false)
      else
        match eraseNode location.bucketDeadline location.entry q.buckets with
        | none => .error .missingBucket
        | some buckets =>
          .ok ({ q with buckets := buckets, entries := update q.entries token.key none },
            true)

structure AdvanceResult where
  expired : List Entry := []
  readyRemaining : Bool := false
  oldestReadyLatency : Int := 0
  deriving DecidableEq, Repr

/-- The loop of `advance`; the first argument is what is left of the budget. -/
def advanceLoop (now : Int) : Nat → Queue → List Entry → Except Error (Queue × List Entry)
  | 0, q, expired => .ok (q, expired)
  | n + 1, q, expired =>
    match q.buckets with
    | (bucketDeadline, entry :: _) :: _ =>
      if bucketDeadline ≤ now then
        match q.entries entry.token.key with
        | some location =>
          if location.entry ≠ entry.token then .error .generationMismatch
          else
            advanceLoop now n { q with
              buckets := Buckets.pop q.buckets
              entries := update q.entries entry.token.key none } (expired ++ [entry])
        | none => .error .generationMismatch
      else .ok (q, expired)
    | _ => .ok (q, expired)

/-- Whether the first bucket is due. -/
def ready (now : Int) : List (Int × List Entry) → Bool
  | (bucketDeadline, _) :: _ => bucketDeadline ≤ now
  | [] => false

def advance (o : Options) (q : Queue) (now : Int) : Except Error (Queue × AdvanceResult) :=
  match q.buckets with
  | [] => .ok (q, {})
  | (first, _) :: _ =>
    if now < first then .ok (q, {})
    else
      match advanceLoop now o.maxExpiredPerAdvance q [] with
      | .error e => .error e
      | .ok (q', expired) => .ok (q', ⟨expired, ready now q'.buckets, now - first⟩)

def clear (q : Queue) : Queue := { q with buckets := [], entries := fun _ => none }

/-! ## Rounding -/

/-- A deadline is rounded up by less than the resolution, and stays a time point. -/
theorem quantize_spec (o : Options) {raw : Int} (hraw : raw ≤ maximum) :
    raw ≤ quantize o raw ∧ quantize o raw < raw + o.resolution ∧ quantize o raw ≤ maximum := by
  have hpos := o.resolution_pos
  have hmod := Int.mul_tdiv_add_tmod raw o.resolution
  have hlt : raw.tmod o.resolution < o.resolution := Int.tmod_lt_of_pos raw hpos
  have hgt : -o.resolution < raw.tmod o.resolution := Int.lt_tmod_of_pos raw hpos
  -- a negative time is rounded towards zero
  have hsign : raw.tmod o.resolution < 0 → o.resolution * raw.tdiv o.resolution ≤ 0 := fun h => by
    have hneg : raw < 0 := by
      by_contra hneg
      have := Int.tmod_nonneg o.resolution (not_lt.mp hneg)
      omega
    have hquot := Int.tdiv_nonneg (a := -raw) (by omega) hpos.le
    rw [Int.neg_tdiv] at hquot
    exact mul_nonpos_of_nonneg_of_nonpos hpos.le (by omega)
  have hmax : (0 : Int) ≤ maximum := by decide
  unfold quantize
  simp only
  split_ifs with hup hclamp <;> omega

/-! ## The queue as a map -/

/-- The queue is the map `m` from a key to its latest entry. -/
structure Holds (o : Options) (q : Queue) (m : Nat → Option Entry) : Prop where
  good : Buckets.Good (fun e => quantize o e.deadline)
    (fun e e' => e.token.generation < e'.token.generation) q.buckets
  mem : ∀ e, e ∈ Buckets.flat q.buckets ↔ m e.token.key = some e
  index : ∀ key, q.entries key = (m key).map fun e => ⟨quantize o e.deadline, e.token⟩
  keyed : ∀ key e, m key = some e → e.token.key = key
  positive : 0 < q.nextGeneration
  fresh : ∀ e ∈ Buckets.flat q.buckets, 0 < e.token.generation ∧
    e.token.generation < q.nextGeneration

theorem holds_init (o : Options) : Holds o {} (fun _ => none) :=
  ⟨Buckets.good_nil, by simp, by simp, nofun, Nat.one_pos, nofun⟩

section
variable {o : Options} {q q' : Queue} {m : Nat → Option Entry}

theorem Holds.mem_of (h : Holds o q m) {key : Nat} {e : Entry} (he : m key = some e) :
    e ∈ Buckets.flat q.buckets := by
  rw [h.mem, h.keyed key e he]
  exact he

/-- Two entries of one key are the same. -/
theorem Holds.key_inj (h : Holds o q m) {e e' : Entry} (he : e ∈ Buckets.flat q.buckets)
    (he' : e' ∈ Buckets.flat q.buckets) (heq : e.token.key = e'.token.key) : e = e' := by
  have h₁ := (h.mem e).mp he
  rw [heq, (h.mem e').mp he'] at h₁
  exact (Option.some.inj h₁).symm

theorem Holds.schedule (h : Holds o q m) (hgen : q.nextGeneration ≠ maxGeneration) (key : Nat)
    (deadline : Int) :
    ∃ q', schedule o q key deadline = .ok (q', ⟨key, q.nextGeneration⟩) ∧
      q'.nextGeneration = q.nextGeneration + 1 ∧
      Holds o q' (update m key (some ⟨⟨key, q.nextGeneration⟩, deadline⟩)) := by
  have hpush := h.good.push (a := (⟨⟨key, q.nextGeneration⟩, deadline⟩ : Entry)) rfl
    fun e he => (h.fresh e he).2
  -- what holds of the index and the map whichever way the buckets are made
  have hfinish (buckets : List (Int × List Entry))
      (hgood : Buckets.Good (fun e => quantize o e.deadline)
        (fun e e' => e.token.generation < e'.token.generation) buckets)
      (hmem : ∀ e, e ∈ Buckets.flat buckets ↔ e = ⟨⟨key, q.nextGeneration⟩, deadline⟩ ∨
        e.token.key ≠ key ∧ m e.token.key = some e) :
      Holds o ⟨q.nextGeneration + 1, buckets, update q.entries key
          (some ⟨quantize o deadline, ⟨key, q.nextGeneration⟩⟩)⟩
        (update m key (some ⟨⟨key, q.nextGeneration⟩, deadline⟩)) := by
    refine ⟨hgood, fun e => ?_, fun k => ?_, fun k e he => ?_, Nat.succ_pos _, fun e he => ?_⟩
    · rw [hmem]
      by_cases hk : e.token.key = key
      · rw [hk, update_self]
        simp [eq_comm]
      · rw [update_of_ne hk]
        refine ⟨fun he => he.elim (fun heq => absurd (by rw [heq]) hk) And.right,
          fun he => .inr ⟨hk, he⟩⟩
    · by_cases hk : k = key
      · simp only [hk, update_self, Option.map_some]
      · simp only [update_of_ne hk]
        exact h.index k
    · by_cases hk : k = key
      · rw [hk, update_self] at he
        rw [← Option.some.inj he, hk]
      · rw [update_of_ne hk] at he
        exact h.keyed k e he
    · rcases (hmem e).mp he with rfl | ⟨-, he⟩
      · exact ⟨h.positive, Nat.lt_succ_self _⟩
      · obtain ⟨hpos, hlt⟩ := h.fresh e ((h.mem e).mpr he)
        exact ⟨hpos, Nat.lt_succ_of_lt hlt⟩
  unfold DeadlineQueue.schedule
  rw [if_neg hgen]
  cases hold : m key with
  | none =>
    have hindex : q.entries key = none := by rw [h.index, hold]; rfl
    simp only [hindex]
    refine ⟨_, rfl, rfl, hfinish _ hpush fun e => ?_⟩
    rw [Buckets.mem_flat_push, h.mem]
    refine or_congr_right ⟨fun he => ⟨fun hk => ?_, he⟩, And.right⟩
    rw [hk, hold] at he
    cases he
  | some old =>
    have hindex : q.entries key = some ⟨quantize o old.deadline, old.token⟩ := by
      rw [h.index, hold]
      rfl
    have hin := h.mem_of hold
    obtain ⟨buckets, hremove⟩ := hpush.remove_isSome (fun e => e.token == old.token)
      (Buckets.mem_flat_push.mpr (.inr hin))
    simp only [hindex, eraseNode, hremove]
    obtain ⟨hgood, hmem⟩ := hpush.remove hremove
    refine ⟨_, rfl, rfl, hfinish buckets hgood fun e => ?_⟩
    rw [hmem, Buckets.mem_flat_push, h.mem]
    constructor
    · rintro ⟨rfl | he, hnot⟩
      · exact .inl rfl
      · refine .inr ⟨fun hk => hnot ?_, he⟩
        rw [hk, hold] at he
        rw [Option.some.inj he]
        exact ⟨rfl, beq_self_eq_true _⟩
    · rintro (rfl | ⟨hk, he⟩)
      · refine ⟨.inl rfl, fun hsame => ?_⟩
        have hlt := (h.fresh old hin).2
        have := beq_iff_eq.mp hsame.2
        rw [← this] at hlt
        exact absurd hlt (Nat.lt_irrefl _)
      · refine ⟨.inr he, fun hsame => hk ?_⟩
        rw [beq_iff_eq.mp hsame.2]
        exact h.keyed key old hold

theorem Holds.erase (h : Holds o q m) {e : Entry} {buckets : List (Int × List Entry)}
    (hgood : Buckets.Good (fun e => quantize o e.deadline)
      (fun e e' => e.token.generation < e'.token.generation) buckets)
    (hmem : ∀ x, x ∈ Buckets.flat buckets ↔ x ∈ Buckets.flat q.buckets ∧ x ≠ e)
    (he : m e.token.key = some e) :
    Holds o { q with buckets := buckets, entries := update q.entries e.token.key none }
      (update m e.token.key none) := by
  refine ⟨hgood, fun x => ?_, fun k => ?_, fun k x hx => ?_, h.positive,
    fun x hx => h.fresh x ((hmem x).mp hx).1⟩
  · rw [hmem, h.mem]
    by_cases hk : x.token.key = e.token.key
    · rw [hk, update_self, he]
      simp [eq_comm]
    · rw [update_of_ne hk]
      exact ⟨And.left, fun hx => ⟨hx, fun heq => hk (by rw [heq])⟩⟩
  · by_cases hk : k = e.token.key
    · simp only [hk, update_self, Option.map_none]
    · simp only [update_of_ne hk]
      exact h.index k
  · by_cases hk : k = e.token.key
    · rw [hk, update_self] at hx
      cases hx
    · rw [update_of_ne hk] at hx
      exact h.keyed k x hx

theorem Holds.cancel (h : Holds o q m) (token : Token) :
    ∃ q' b, cancel q token = .ok (q', b) ∧ q'.nextGeneration = q.nextGeneration ∧
      (b = true ↔ ∃ e, m token.key = some e ∧ e.token = token) ∧
      Holds o q' (if b then update m token.key none else m) := by
  unfold DeadlineQueue.cancel
  split_ifs with hvalid
  · refine ⟨q, false, rfl, rfl, ⟨nofun, fun ⟨e, he, htoken⟩ => ?_⟩, h⟩
    have hpos := (h.fresh e (h.mem_of he)).1
    rw [htoken] at hpos
    simp only [Token.valid, bne_eq_false_iff_eq] at hvalid
    omega
  cases hm : m token.key with
  | none =>
    have hindex : q.entries token.key = none := by rw [h.index, hm]; rfl
    simp only [hindex]
    exact ⟨q, false, rfl, rfl, ⟨nofun, nofun⟩, h⟩
  | some e =>
    have hindex : q.entries token.key = some ⟨quantize o e.deadline, e.token⟩ := by
      rw [h.index, hm]
      rfl
    simp only [hindex]
    split_ifs with htoken
    · refine ⟨q, false, rfl, rfl, ⟨nofun, fun ⟨e', he', ht⟩ => ?_⟩, h⟩
      rw [← Option.some.inj he'] at ht
      exact absurd ht htoken
    have htoken : e.token = token := not_not.mp htoken
    subst htoken
    have hin := h.mem_of hm
    obtain ⟨buckets, hremove⟩ := h.good.remove_isSome (fun x => x.token == e.token) hin
    simp only [eraseNode, hremove]
    obtain ⟨hgood, hmem⟩ := h.good.remove hremove
    refine ⟨_, true, rfl, rfl, ⟨fun _ => ⟨e, rfl, rfl⟩, fun _ => rfl⟩, ?_⟩
    refine h.erase hgood (fun x => ?_) hm
    rw [hmem]
    refine and_congr_right fun hx => not_congr ⟨fun hsame => ?_, fun heq => ?_⟩
    · exact h.key_inj hx hin (congrArg Token.key (beq_iff_eq.mp hsame.2))
    · rw [heq]
      exact ⟨rfl, beq_self_eq_true _⟩

/-- The entries that are due, in the order in which they expire. -/
def due (o : Options) (q : Queue) (now : Int) : List Entry :=
  (Buckets.flat q.buckets).filter fun e => quantize o e.deadline ≤ now

theorem Holds.mem_due (h : Holds o q m) {now : Int} {e : Entry} :
    e ∈ due o q now ↔ m e.token.key = some e ∧ quantize o e.deadline ≤ now := by
  rw [due, List.mem_filter, h.mem, decide_eq_true_iff]

/-- Nothing is due if the first bucket is not. -/
theorem due_eq_nil {now first : Int} {bucket : List Entry} {rest : List (Int × List Entry)}
    (h : Holds o q m) (hbuckets : q.buckets = (first, bucket) :: rest) (hfirst : now < first) :
    due o q now = [] := by
  have hgood := h.good
  rw [due, hbuckets, List.filter_eq_nil_iff]
  rw [hbuckets] at hgood
  intro e he hdue
  rw [decide_eq_true_iff] at hdue
  rcases List.mem_append.mp he with he | he
  · have hplaced : quantize o e.deadline = first := hgood.placed _ (.head _) e he
    omega
  · have hlater : first < quantize o e.deadline := hgood.lt_flat he
    omega

/-- The map without the entries of a list. -/
def without (m : Nat → Option Entry) : List Entry → Nat → Option Entry
  | [] => m
  | e :: es => without (update m e.token.key none) es

/-- One round of the loop of `advance`: the first entry is taken out. -/
theorem Holds.pop (h : Holds o q m) {now first : Int} {e : Entry} {bucket : List Entry}
    {rest : List (Int × List Entry)} (hbuckets : q.buckets = (first, e :: bucket) :: rest)
    (hfirst : first ≤ now) :
    m e.token.key = some e ∧
      Holds o { q with
        buckets := Buckets.pop q.buckets
        entries := update q.entries e.token.key none }
        (update m e.token.key none) ∧
      due o q now = e :: due o { q with
        buckets := Buckets.pop q.buckets
        entries := update q.entries e.token.key none } now := by
  have hgood := h.good
  rw [hbuckets] at hgood
  obtain ⟨hpop, hflat⟩ := hgood.pop
  rw [← hbuckets] at hpop hflat
  have hin : e ∈ Buckets.flat q.buckets := hflat ▸ .head _
  have hm := (h.mem e).mp hin
  -- no other entry is the same one
  have hnot : e ∉ Buckets.flat (Buckets.pop q.buckets) := fun hagain => by
    have horder := h.good.flat_pairwise
    rw [hflat] at horder
    rcases List.rel_of_pairwise_cons horder hagain with hlt | ⟨-, hlt⟩
    · exact absurd hlt (lt_irrefl _)
    · exact absurd hlt (lt_irrefl _)
  refine ⟨hm, h.erase hpop (fun x => ?_) hm, ?_⟩
  · rw [hflat, List.mem_cons]
    constructor
    · exact fun hx => ⟨.inr hx, fun heq => hnot (heq ▸ hx)⟩
    · exact fun hx => hx.1.resolve_left hx.2
  · have hplaced : quantize o e.deadline = first := hgood.placed _ (.head _) e (.head _)
    rw [due, hflat, List.filter_cons_of_pos (by rw [hplaced]; exact decide_eq_true hfirst)]
    rfl

/-- The loop takes as many due entries as the budget allows. -/
theorem Holds.advanceLoop (now : Int) (n : Nat) (h : Holds o q m) (expired : List Entry) :
    ∃ q', advanceLoop now n q expired = .ok (q', expired ++ (due o q now).take n) ∧
      q'.nextGeneration = q.nextGeneration ∧ due o q' now = (due o q now).drop n ∧
      Holds o q' (without m ((due o q now).take n)) := by
  induction n generalizing q m expired with
  | zero => exact ⟨q, by simp [DeadlineQueue.advanceLoop], rfl, rfl, h⟩
  | succ n ih =>
    -- when nothing is due the loop ends
    have hstop (hdue : due o q now = []) : ∃ q', Except.ok (q, expired) =
        (Except.ok (q', expired ++ (due o q now).take (n + 1)) : Except Error _) ∧
        q'.nextGeneration = q.nextGeneration ∧ due o q' now = (due o q now).drop (n + 1) ∧
        Holds o q' (without m ((due o q now).take (n + 1))) := by
      refine ⟨q, ?_, rfl, ?_, ?_⟩
      · rw [hdue, List.take_nil, List.append_nil]
      · rw [hdue, List.drop_nil]
      · rw [hdue]
        exact h
    unfold DeadlineQueue.advanceLoop
    split
    case h_1 first e bucket rest hbuckets =>
      split_ifs with hfirst
      · obtain ⟨hm, hrest, hdue⟩ := h.pop hbuckets hfirst
        have hindex : q.entries e.token.key = some ⟨quantize o e.deadline, e.token⟩ := by
          rw [h.index, hm]
          rfl
        simp only [hindex, not_true_eq_false, if_false, ne_eq]
        obtain ⟨q', hloop, hgen, hleft, hholds⟩ := ih hrest (expired ++ [e])
        rw [hdue]
        exact ⟨q', by rw [hloop]; simp, hgen, hleft, hholds⟩
      · exact hstop (due_eq_nil h hbuckets (not_le.mp hfirst))
    case h_2 hempty =>
      apply hstop
      rcases hbuckets : q.buckets with _ | ⟨⟨first, bucket⟩, rest⟩
      · rw [due, hbuckets]
        rfl
      · rcases bucket with _ | ⟨e, bucket⟩
        · exact absurd rfl (h.good.nonempty (first, []) (by rw [hbuckets]; exact .head _))
        · exact absurd hbuckets (hempty first e bucket rest)

theorem Holds.ready_iff (h : Holds o q m) (now : Int) :
    ready now q.buckets = true ↔ due o q now ≠ [] := by
  rcases hbuckets : q.buckets with _ | ⟨⟨first, bucket⟩, rest⟩
  · simp [ready, due, hbuckets]
  · rw [ready, decide_eq_true_iff]
    constructor
    · intro hfirst
      rcases bucket with _ | ⟨e, bucket⟩
      · exact absurd rfl (h.good.nonempty (first, []) (by rw [hbuckets]; exact .head _))
      · rw [(h.pop hbuckets hfirst).2.2]
        exact List.cons_ne_nil _ _
    · intro hdue
      by_contra hfirst
      exact hdue (due_eq_nil h hbuckets (not_le.mp hfirst))

theorem Holds.advance (h : Holds o q m) (now : Int) :
    ∃ q' r, advance o q now = .ok (q', r) ∧ q'.nextGeneration = q.nextGeneration ∧
      r.expired = (due o q now).take o.maxExpiredPerAdvance ∧
      (r.readyRemaining = true ↔ o.maxExpiredPerAdvance < (due o q now).length) ∧
      Holds o q' (without m r.expired) := by
  -- nothing is due before the first bucket
  have hstop (hdue : due o q now = []) : ∃ q' r, Except.ok (q, {}) =
      (Except.ok (q', r) : Except Error (Queue × AdvanceResult)) ∧
      q'.nextGeneration = q.nextGeneration ∧
      r.expired = (due o q now).take o.maxExpiredPerAdvance ∧
      (r.readyRemaining = true ↔ o.maxExpiredPerAdvance < (due o q now).length) ∧
      Holds o q' (without m r.expired) := by
    refine ⟨q, {}, rfl, rfl, ?_, ?_, h⟩
    · rw [hdue, List.take_nil]
    · rw [hdue]
      simp
  unfold DeadlineQueue.advance
  split
  case h_1 hbuckets =>
    apply hstop
    rw [due, hbuckets]
    rfl
  case h_2 first bucket rest hbuckets =>
    split_ifs with hfirst
    · exact hstop (due_eq_nil h hbuckets hfirst)
    · obtain ⟨q', hloop, hgen, hleft, hholds⟩ := h.advanceLoop now o.maxExpiredPerAdvance []
      simp only [hloop, List.nil_append]
      refine ⟨q', _, rfl, hgen, rfl, ?_, hholds⟩
      rw [hholds.ready_iff, hleft, ne_eq, List.drop_eq_nil_iff, not_le]

theorem Holds.clear (h : Holds o q m) : Holds o (clear q) (fun _ => none) :=
  ⟨Buckets.good_nil, by simp [DeadlineQueue.clear], fun _ => rfl, nofun, h.positive, nofun⟩

theorem Holds.nodup (h : Holds o q m) : (Buckets.flat q.buckets).Nodup := by
  refine h.good.flat_pairwise.imp fun {e e'} horder heq => ?_
  subst heq
  rcases horder with hlt | ⟨-, hlt⟩
  · exact absurd hlt (lt_irrefl _)
  · exact absurd hlt (lt_irrefl _)

/-- What `advance` takes is in the queue, and of distinct keys. -/
theorem Holds.taken (h : Holds o q m) (now : Int) (n : Nat) :
    (∀ e ∈ (due o q now).take n, e ∈ Buckets.flat q.buckets) ∧
      ((due o q now).take n).Pairwise fun e e' => e.token.key ≠ e'.token.key := by
  have hin (e : Entry) (he : e ∈ (due o q now).take n) : e ∈ Buckets.flat q.buckets :=
    List.mem_of_mem_filter (List.mem_of_mem_take he)
  have hnodup : ((due o q now).take n).Nodup :=
    (h.nodup.filter _).sublist (List.take_sublist _ _)
  exact ⟨hin, hnodup.imp_of_mem fun he he' hne heq => hne (h.key_inj (hin _ he) (hin _ he') heq)⟩

end

/-! ## The queue as its owner sees it

An owner keeps the token of every key that it has scheduled. `advance` takes entries from the queue
before the owner has come to them. -/

/-- The tokens that the owner keeps: each has its entry in the queue or is in `taken`. -/
structure Tokens (o : Options) (q : Queue) (taken : List Token) (tok : Nat → Option Token) :
    Prop where
  holds : ∃ m, Holds o q m ∧
    ∀ key t, (∃ e, m key = some e ∧ e.token = t) ↔ tok key = some t ∧ t ∉ taken
  keyed : ∀ key t, tok key = some t → t.key = key
  old : ∀ t ∈ taken, t.generation < q.nextGeneration

theorem without_eq_some {m : Nat → Option Entry} {es : List Entry} {key : Nat} {e : Entry} :
    without m es key = some e ↔ m key = some e ∧ ∀ x ∈ es, x.token.key ≠ key := by
  induction es generalizing m with
  | nil => simp [without]
  | cons x es ih =>
    rw [without, ih, List.forall_mem_cons]
    by_cases hk : key = x.token.key
    · simp [hk]
    · simp [update_of_ne hk, Ne.symm hk]

section
variable {o : Options} {q : Queue} {taken : List Token} {tok : Nat → Option Token}

theorem tokens_init (o : Options) : Tokens o {} [] (fun _ => none) :=
  ⟨⟨_, holds_init o, by simp⟩, nofun, nofun⟩

theorem Tokens.schedule (h : Tokens o q taken tok) {q' : Queue} {key : Nat} {deadline : Int}
    {t : Token} (hcall : schedule o q key deadline = .ok (q', t)) :
    t ∉ taken ∧ Tokens o q' taken (update tok key (some t)) := by
  obtain ⟨⟨m, hm, hmap⟩, hkeyed, hold⟩ := h
  have hgen : q.nextGeneration ≠ maxGeneration := fun hfull => by
    rw [DeadlineQueue.schedule, if_pos hfull] at hcall
    cases hcall
  obtain ⟨q₁, hq₁, hnext, hholds⟩ := hm.schedule hgen key deadline
  rw [hq₁] at hcall
  cases hcall
  have hfresh : ⟨key, q.nextGeneration⟩ ∉ taken := fun hin => (hold _ hin).ne rfl
  refine ⟨hfresh, ⟨_, hholds, fun k t => ?_⟩, fun k t ht => ?_, fun t ht => ?_⟩
  · by_cases hk : k = key
    · rw [hk, update_self, update_self]
      constructor
      · rintro ⟨e, ⟨⟩, rfl⟩
        exact ⟨rfl, hfresh⟩
      · rintro ⟨⟨⟩, -⟩
        exact ⟨_, rfl, rfl⟩
    · rw [update_of_ne hk, update_of_ne hk]
      exact hmap k t
  · by_cases hk : k = key
    · rw [hk, update_self] at ht
      cases ht
      exact hk.symm
    · rw [update_of_ne hk] at ht
      exact hkeyed k t ht
  · rw [hnext]
    exact (hold t ht).trans (Nat.lt_succ_self _)

/-- The owner gives up a token; its entry may have been taken already. -/
theorem Tokens.cancel (h : Tokens o q taken tok) {t : Token} (ht : tok t.key = some t) :
    ∃ q' b, cancel q t = .ok (q', b) ∧ Tokens o q' taken (update tok t.key none) := by
  obtain ⟨⟨m, hm, hmap⟩, hkeyed, hold⟩ := h
  obtain ⟨q', b, hcall, hnext, hb, hholds⟩ := hm.cancel t
  have hmap' : (if b then update m t.key none else m) = update m t.key none := by
    split_ifs with hlatest
    · rfl
    · -- the key has no other entry
      rw [eq_comm, update_eq_self_iff, eq_comm, Option.eq_none_iff_forall_ne_some]
      intro e he
      have hkept := ((hmap t.key e.token).mp ⟨e, he, rfl⟩).1
      rw [ht] at hkept
      exact hlatest (hb.mpr ⟨e, he, (Option.some.inj hkept).symm⟩)
  rw [hmap'] at hholds
  refine ⟨q', b, hcall, ⟨_, hholds, fun k t' => ?_⟩, fun k t' ht' => ?_, hnext ▸ hold⟩
  · by_cases hk : k = t.key
    · simp [hk]
    · rw [update_of_ne hk, update_of_ne hk]
      exact hmap k t'
  · by_cases hk : k = t.key
    · rw [hk, update_self] at ht'
      cases ht'
    · rw [update_of_ne hk] at ht'
      exact hkeyed k t' ht'

theorem Tokens.advance (h : Tokens o q taken tok) (now : Int) :
    ∃ q' r, advance o q now = .ok (q', r) ∧
      Tokens o q' (r.expired.map Entry.token ++ taken) tok := by
  obtain ⟨⟨m, hm, hmap⟩, hkeyed, hold⟩ := h
  obtain ⟨q', r, hcall, hnext, hexpired, -, hholds⟩ := hm.advance now
  have hin (e : Entry) (he : e ∈ r.expired) : e ∈ Buckets.flat q.buckets :=
    (hm.taken now o.maxExpiredPerAdvance).1 e (hexpired ▸ he)
  refine ⟨q', r, hcall, ⟨_, hholds, fun key t => ?_⟩, hkeyed, fun t ht => ?_⟩
  · simp only [without_eq_some, List.mem_append, List.mem_map, not_or, not_exists, not_and]
    constructor
    · rintro ⟨e, ⟨he, hrest⟩, htoken⟩
      obtain ⟨ht, hfresh⟩ := (hmap key t).mp ⟨e, he, htoken⟩
      refine ⟨ht, fun x hx heq => hrest x hx ?_, hfresh⟩
      rw [heq]
      exact hkeyed key t ht
    · rintro ⟨ht, hrest, hfresh⟩
      obtain ⟨e, he, htoken⟩ := (hmap key t).mpr ⟨ht, hfresh⟩
      refine ⟨e, ⟨he, fun x hx heq => hrest x hx ?_⟩, htoken⟩
      have hx' := (hm.mem x).mp (hin x hx)
      rw [heq, he] at hx'
      rw [← Option.some.inj hx', htoken]
  · rw [hnext]
    rcases List.mem_append.mp ht with ht | ht
    · obtain ⟨e, he, rfl⟩ := List.mem_map.mp ht
      exact (hm.fresh e (hin e he)).2
    · exact hold t ht

/-- The owner has come to a taken entry and does not keep its token. -/
theorem Tokens.come {t : Token} (h : Tokens o q (t :: taken) tok) (ht : tok t.key ≠ some t) :
    Tokens o q taken tok := by
  obtain ⟨⟨m, hm, hmap⟩, hkeyed, hold⟩ := h
  refine ⟨⟨m, hm, fun key t' => (hmap key t').trans (and_congr_right fun hkept => ?_)⟩, hkeyed,
    fun t' ht' => hold t' (.tail _ ht')⟩
  have hne : t' ≠ t := fun heq => ht (by rw [← heq, hkeyed key t' hkept, hkept])
  rw [List.mem_cons, or_iff_right hne]

theorem Tokens.clear (h : Tokens o q taken tok) : Tokens o (clear q) taken (fun _ => none) := by
  obtain ⟨⟨m, hm, -⟩, -, hold⟩ := h
  exact ⟨⟨_, hm.clear, by simp⟩, nofun, hold⟩

/-- The queue has one entry for each token that was not taken, and no other entry. -/
theorem Tokens.entry (h : Tokens o q taken tok) {key : Nat} {t : Token} :
    tok key = some t ∧ t ∉ taken ↔
      ∃ e ∈ Buckets.flat q.buckets, e.token = t ∧ t.key = key := by
  obtain ⟨⟨m, hm, hmap⟩, -, -⟩ := h
  rw [← hmap]
  constructor
  · rintro ⟨e, he, rfl⟩
    exact ⟨e, hm.mem_of he, rfl, hm.keyed key e he⟩
  · rintro ⟨e, he, rfl, rfl⟩
    exact ⟨e, (hm.mem e).mp he, rfl⟩

theorem Tokens.unique (h : Tokens o q taken tok) {e e' : Entry}
    (he : e ∈ Buckets.flat q.buckets) (he' : e' ∈ Buckets.flat q.buckets)
    (hkey : e.token.key = e'.token.key) : e = e' := by
  obtain ⟨⟨m, hm, -⟩, -, -⟩ := h
  exact hm.key_inj he he' hkey

end

/-! ## Runs

What the queue was told and what it answered is written down, newest first. -/

inductive Event where
  | issued (e : Entry)
  | cancelled (t : Token)
  | expired (e : Entry)
  | cleared
  deriving DecidableEq

/-- The latest entry issued for a key, unless it has expired or has been cancelled or cleared. -/
def live : List Event → Nat → Option Entry
  | [], _ => none
  | .issued e :: log, key => if e.token.key = key then some e else live log key
  | .cancelled t :: log, key => (live log key).filter fun e => e.token ≠ t
  | .expired e' :: log, key => (live log key).filter fun e => e.token ≠ e'.token
  | .cleared :: _, _ => none

/-- The expired tokens. -/
def expirations (log : List Event) : List Token :=
  log.filterMap fun
    | .expired e => some e.token
    | _ => none

def expireAll : List Entry → List Event → List Event
  | [], log => log
  | e :: es, log => expireAll es (.expired e :: log)

structure State where
  queue : Queue := {}
  log : List Event := []

inductive Call where
  | schedule (key : Nat) (deadline : Int)
  | cancel (token : Token)
  | advance (now : Int)
  | clear

/-- A deadline is a time point. -/
def Call.timely : Call → Prop
  | .schedule _ deadline => minimum ≤ deadline ∧ deadline ≤ maximum
  | _ => True

instance (c : Call) : Decidable c.timely := by
  cases c <;> unfold Call.timely <;> infer_instance

/-- One call; a `logic_error` ends the run, an `overflow_error` leaves the queue as it was. -/
def step (o : Options) (s : State) : Call → Option State
  | .schedule key deadline =>
    match schedule o s.queue key deadline with
    | .ok (q, token) => some ⟨q, .issued ⟨token, deadline⟩ :: s.log⟩
    | .error .generationExhausted => some s
    | .error _ => none
  | .cancel token =>
    match cancel s.queue token with
    | .ok (q, true) => some ⟨q, .cancelled token :: s.log⟩
    | .ok (q, false) => some ⟨q, s.log⟩
    | .error _ => none
  | .advance now =>
    match advance o s.queue now with
    | .ok (q, r) => some ⟨q, expireAll r.expired s.log⟩
    | .error _ => none
  | .clear => some ⟨clear s.queue, .cleared :: s.log⟩

theorem live_issued (e : Entry) (log : List Event) :
    live (.issued e :: log) = update (live log) e.token.key (some e) := by
  funext key
  by_cases hk : key = e.token.key
  · rw [hk, update_self]
    exact if_pos rfl
  · rw [update_of_ne hk]
    exact if_neg (Ne.symm hk)

/-- Taking the latest entry of a key out leaves the key without one. -/
theorem filter_token {m : Nat → Option Entry} {e : Entry}
    (hkeyed : ∀ key e, m key = some e → e.token.key = key) (he : m e.token.key = some e) :
    (fun key => (m key).filter fun x => x.token ≠ e.token) =
      update m e.token.key none := by
  funext key
  by_cases hk : key = e.token.key
  · simp [hk, he]
  · rw [update_of_ne hk]
    cases hm : m key with
    | none => rfl
    | some x =>
      apply Option.filter_some_pos
      rw [decide_eq_true_iff]
      exact fun heq => hk (by rw [← hkeyed key x hm, heq])

theorem live_expireAll {es : List Entry} {log : List Event}
    (hkeyed : ∀ key e, live log key = some e → e.token.key = key)
    (hlive : ∀ e ∈ es, live log e.token.key = some e)
    (hkeys : es.Pairwise fun e e' => e.token.key ≠ e'.token.key) :
    live (expireAll es log) = without (live log) es := by
  induction es generalizing log with
  | nil => rfl
  | cons e es ih =>
    have hstep : live (.expired e :: log) = update (live log) e.token.key none :=
      filter_token hkeyed (hlive e (.head _))
    show live (expireAll es (.expired e :: log)) = without _ es
    rw [← hstep]
    refine ih (fun key x hx => ?_) (fun x hx => ?_) hkeys.of_cons
    · exact hkeyed key x (Option.filter_eq_some_iff.mp hx).1
    · rw [hstep, update_of_ne (List.rel_of_pairwise_cons hkeys hx).symm]
      exact hlive x (.tail _ hx)

theorem expirations_expireAll (es : List Entry) (log : List Event) :
    expirations (expireAll es log) = (es.map Entry.token).reverse ++ expirations log := by
  induction es generalizing log with
  | nil => rfl
  | cons e es ih =>
    show expirations (expireAll es (.expired e :: log)) = _
    rw [ih]
    simp [expirations]

/-- The queue is the map of the live entries, and a token expires once. -/
structure Inv (o : Options) (s : State) : Prop where
  holds : Holds o s.queue (live s.log)
  timely : ∀ key e, live s.log key = some e → e.deadline ≤ maximum
  once : (expirations s.log).Nodup
  spent : ∀ t ∈ expirations s.log, t.generation < s.queue.nextGeneration ∧
    ∀ e, live s.log t.key = some e → e.token ≠ t

section
variable {o : Options} {s s' : State}

/-- Entries are taken away, and none expires. -/
theorem Inv.shrink (hi : Inv o s) {q : Queue} {ev : Event}
    (hq : Holds o q (live (ev :: s.log))) (hgen : q.nextGeneration = s.queue.nextGeneration)
    (hlive : ∀ key e, live (ev :: s.log) key = some e → live s.log key = some e)
    (hev : expirations (ev :: s.log) = expirations s.log) : Inv o ⟨q, ev :: s.log⟩ where
  holds := hq
  timely key e he := hi.timely key e (hlive key e he)
  once := by
    show (expirations (ev :: s.log)).Nodup
    rw [hev]
    exact hi.once
  spent t ht := by
    rw [hev] at ht
    rw [hgen]
    exact ⟨(hi.spent t ht).1, fun e he => (hi.spent t ht).2 e (hlive t.key e he)⟩

theorem Inv.schedule (hi : Inv o s) {key : Nat} {deadline : Int} (hd : deadline ≤ maximum)
    (h : step o s (.schedule key deadline) = some s') : Inv o s' := by
  by_cases hgen : s.queue.nextGeneration = maxGeneration
  · have hfull : DeadlineQueue.schedule o s.queue key deadline = .error .generationExhausted :=
      if_pos hgen
    simp only [step, hfull] at h
    cases h
    exact hi
  obtain ⟨q, hcall, hnext, hq⟩ := hi.holds.schedule hgen key deadline
  simp only [step, hcall] at h
  cases h
  have hlive : live (.issued ⟨⟨key, s.queue.nextGeneration⟩, deadline⟩ :: s.log) =
      update (live s.log) key (some ⟨⟨key, s.queue.nextGeneration⟩, deadline⟩) :=
    live_issued _ _
  have hcases (k : Nat) (e : Entry)
      (he : live (.issued ⟨⟨key, s.queue.nextGeneration⟩, deadline⟩ :: s.log) k = some e) :
      e = ⟨⟨key, s.queue.nextGeneration⟩, deadline⟩ ∨ live s.log k = some e := by
    rw [hlive] at he
    by_cases hk : k = key
    · rw [hk, update_self] at he
      exact .inl (Option.some.inj he).symm
    · rw [update_of_ne hk] at he
      exact .inr he
  refine ⟨hlive ▸ hq, fun k e he => ?_, hi.once, fun t ht => ⟨?_, fun e he => ?_⟩⟩
  · rcases hcases k e he with rfl | he
    · exact hd
    · exact hi.timely k e he
  · rw [hnext]
    exact Nat.lt_succ_of_lt (hi.spent t ht).1
  · rcases hcases t.key e he with rfl | he
    · -- a new token is newer than every expired one
      intro heq
      have hlt := (hi.spent t ht).1
      rw [← heq] at hlt
      exact absurd hlt (lt_irrefl _)
    · exact (hi.spent t ht).2 e he

theorem Inv.cancel (hi : Inv o s) {token : Token} (h : step o s (.cancel token) = some s') :
    Inv o s' := by
  obtain ⟨q, b, hcall, hgen, hb, hq⟩ := hi.holds.cancel token
  simp only [step, hcall] at h
  cases b with
  | false =>
    cases h
    refine ⟨hq, hi.timely, hi.once, ?_⟩
    show ∀ t ∈ expirations s.log, t.generation < q.nextGeneration ∧ _
    rw [hgen]
    exact hi.spent
  | true =>
    cases h
    obtain ⟨e, he, rfl⟩ := hb.mp rfl
    have hlive : live (.cancelled e.token :: s.log) =
        update (live s.log) e.token.key none := filter_token hi.holds.keyed he
    refine hi.shrink (hlive ▸ hq) hgen (fun key x hx => ?_) rfl
    exact (Option.filter_eq_some_iff.mp hx).1

theorem Inv.advance (hi : Inv o s) {now : Int} (h : step o s (.advance now) = some s') :
    Inv o s' := by
  obtain ⟨q, r, hcall, hgen, hexpired, -, hq⟩ := hi.holds.advance now
  simp only [step, hcall] at h
  cases h
  obtain ⟨hin, hkeys⟩ := hi.holds.taken now o.maxExpiredPerAdvance
  rw [← hexpired] at hin hkeys
  have hlive : live (expireAll r.expired s.log) = without (live s.log) r.expired :=
    live_expireAll hi.holds.keyed (fun e he => (hi.holds.mem e).mp (hin e he)) hkeys
  refine ⟨hlive ▸ hq, fun key e he => ?_, ?_, fun t ht => ⟨?_, fun e he => ?_⟩⟩
  · rw [hlive] at he
    exact hi.timely key e (without_eq_some.mp he).1
  · show (expirations (expireAll r.expired s.log)).Nodup
    rw [expirations_expireAll]
    refine List.nodup_append.mpr ⟨?_, hi.once, fun t ht t' ht' heq => ?_⟩
    · rw [List.nodup_reverse]
      exact List.pairwise_map.mpr (hkeys.imp fun hne heq => hne (congrArg Token.key heq))
    · -- what expires now is live, what expired before is not
      obtain ⟨e, he, rfl⟩ := List.mem_map.mp (List.mem_reverse.mp ht)
      subst heq
      exact (hi.spent e.token ht').2 e ((hi.holds.mem e).mp (hin e he)) rfl
  · show t.generation < q.nextGeneration
    rw [hgen]
    rcases List.mem_append.mp (expirations_expireAll _ _ ▸ ht) with ht | ht
    · obtain ⟨e, he, rfl⟩ := List.mem_map.mp (List.mem_reverse.mp ht)
      exact (hi.holds.fresh e (hin e he)).2
    · exact (hi.spent t ht).1
  · rw [hlive] at he
    obtain ⟨he, hes⟩ := without_eq_some.mp he
    rcases List.mem_append.mp (expirations_expireAll _ _ ▸ ht) with ht | ht
    · obtain ⟨x, hx, rfl⟩ := List.mem_map.mp (List.mem_reverse.mp ht)
      exact absurd rfl (hes x hx)
    · exact (hi.spent t ht).2 e he

theorem Inv.step {c : Call} (hi : Inv o s) (hc : c.timely) (h : step o s c = some s') :
    Inv o s' := by
  cases c with
  | schedule key deadline => exact hi.schedule hc.2 h
  | cancel token => exact hi.cancel h
  | advance now => exact hi.advance h
  | clear =>
    cases h
    exact hi.shrink hi.holds.clear rfl nofun rfl

theorem inv_init (o : Options) : Inv o {} :=
  ⟨holds_init o, nofun, List.nodup_nil, nofun⟩

theorem reach_inv (h : Machine.Reach (· = {}) (step o) (fun _ c => c.timely) s) : Inv o s :=
  Machine.Reach.invariant (by rintro s rfl; exact inv_init o)
    (fun _ _ _ hi hc hs => hi.step hc hs) h

/-- The index and the buckets say the same: a key is in the index exactly with the place of its
    node, which is the only one of its key. No empty bucket is kept. -/
structure Linked (q : Queue) : Prop where
  index : ∀ key l, q.entries key = some l ↔
    ∃ b ∈ q.buckets, b.1 = l.bucketDeadline ∧ ∃ e ∈ b.2, e.token = l.entry ∧ e.token.key = key
  distinct : (Buckets.flat q.buckets).Pairwise fun e e' => e.token.key ≠ e'.token.key
  nonempty : ∀ b ∈ q.buckets, b.2 ≠ []

theorem Holds.linked {q : Queue} {m : Nat → Option Entry} (h : Holds o q m) : Linked q where
  index key l := by
    rw [h.index]
    constructor
    · intro hl
      obtain ⟨e, he, rfl⟩ := Option.map_eq_some_iff.mp hl
      obtain ⟨b, hb, hin⟩ := h.good.mem_flat (h.mem_of he)
      exact ⟨_, hb, rfl, e, hin, rfl, h.keyed key e he⟩
    · rintro ⟨b, hb, hplace, e, he, htoken, rfl⟩
      have hin : e ∈ Buckets.flat q.buckets := List.mem_flatMap.mpr ⟨b, hb, he⟩
      have hplaced : quantize o e.deadline = b.1 := h.good.placed b hb e he
      rw [(h.mem e).mp hin, Option.map_some, hplaced, hplace, htoken]
  distinct := h.nodup.imp_of_mem fun he he' hne heq => hne (h.key_inj he he' heq)
  nonempty := h.good.nonempty

/-- No call meets one of the `logic_error`s. -/
theorem Inv.step_isSome (hi : Inv o s) (c : Call) : (DeadlineQueue.step o s c).isSome := by
  cases c with
  | schedule key deadline =>
    by_cases hgen : s.queue.nextGeneration = maxGeneration
    · have hfull : DeadlineQueue.schedule o s.queue key deadline = .error .generationExhausted :=
        if_pos hgen
      simp only [DeadlineQueue.step, hfull, Option.isSome_some]
    · obtain ⟨q, hcall, -⟩ := hi.holds.schedule hgen key deadline
      simp only [DeadlineQueue.step, hcall, Option.isSome_some]
  | cancel token =>
    obtain ⟨q, b, hcall, -⟩ := hi.holds.cancel token
    simp only [DeadlineQueue.step, hcall]
    cases b <;> rfl
  | advance now =>
    obtain ⟨q, r, hcall, -⟩ := hi.holds.advance now
    simp only [DeadlineQueue.step, hcall, Option.isSome_some]
  | clear => rfl

/-- The entries that are ready at `now`, in the order in which they expire. -/
def Ready (o : Options) (log : List Event) (now : Int) (es : List Entry) : Prop :=
  (∀ e, e ∈ es ↔ live log e.token.key = some e ∧ quantize o e.deadline ≤ now) ∧
    es.Pairwise fun e e' => quantize o e.deadline < quantize o e'.deadline ∨
      quantize o e.deadline = quantize o e'.deadline ∧ e.token.generation < e'.token.generation

theorem Inv.ready (hi : Inv o s) (now : Int) : Ready o s.log now (due o s.queue now) :=
  ⟨fun _ => hi.holds.mem_due, hi.holds.good.flat_pairwise.filter _⟩

/-- Along every run the queue is the map of the live entries: index and buckets agree and no call
    meets a `logic_error`; `cancel` succeeds for the live tokens; `advance` takes the first of the
    ready entries, as many as its budget allows, and says whether any is left; an entry is never
    ready before its deadline and always ready a resolution after it; no token expires twice. -/
theorem queue_is_latest_map (o : Options) {s : State}
    (h : Machine.Reach (· = {}) (step o) (fun _ c => c.timely) s) :
    Linked s.queue ∧ (∀ c, (step o s c).isSome) ∧
      (∀ e, e ∈ Buckets.flat s.queue.buckets ↔ live s.log e.token.key = some e) ∧
      (∀ token, ∃ q b, cancel s.queue token = .ok (q, b) ∧
        (b = true ↔ ∃ e, live s.log token.key = some e ∧ e.token = token)) ∧
      (∀ now, ∃ q r es, advance o s.queue now = .ok (q, r) ∧ Ready o s.log now es ∧
        r.expired = es.take o.maxExpiredPerAdvance ∧
        (r.readyRemaining = true ↔ o.maxExpiredPerAdvance < es.length)) ∧
      (∀ key e now, live s.log key = some e →
        (quantize o e.deadline ≤ now → e.deadline ≤ now) ∧
        (e.deadline + o.resolution ≤ now → quantize o e.deadline ≤ now)) ∧
      (expirations s.log).Nodup := by
  have hi := reach_inv h
  refine ⟨hi.holds.linked, hi.step_isSome, hi.holds.mem, fun token => ?_, fun now => ?_,
    fun key e now he => ?_, hi.once⟩
  · obtain ⟨q, b, hcall, -, hb, -⟩ := hi.holds.cancel token
    exact ⟨q, b, hcall, hb⟩
  · obtain ⟨q, r, hcall, -, hexpired, hready, -⟩ := hi.holds.advance now
    exact ⟨q, r, _, hcall, hi.ready now, hexpired, hready⟩
  · obtain ⟨hle, hlt, -⟩ := quantize_spec o (hi.timely key e he)
    omega

/-- Two entries of one bucket, with a budget of one. -/
def coarse : Options := ⟨10, 1, by decide, by decide⟩

def twoInOneBucket : List Call :=
  [.schedule 7 3, .schedule 8 5, .schedule 7 9, .advance 10]

/-- The rescheduled entry is left for the next call. -/
theorem queue_is_latest_map_rescheduled :
    ∃ s : State, live s.log 7 = some ⟨⟨7, 3⟩, 9⟩ ∧ expirations s.log = [⟨8, 2⟩] ∧
      ∃ q b, cancel s.queue ⟨7, 1⟩ = .ok (q, b) ∧
        (b = true ↔ ∃ e, live s.log 7 = some e ∧ e.token = ⟨7, 1⟩) := by
  obtain ⟨s, hreach, hlive, hexpired⟩ := Machine.Reach.of_run (· = {}) (step coarse)
    (fun _ c => c.timely)
    (fun s => live s.log 7 = some ⟨⟨7, 3⟩, 9⟩ ∧ expirations s.log = [⟨8, 2⟩]) {} rfl
    twoInOneBucket (by decide +kernel)
  exact ⟨s, hlive, hexpired, (queue_is_latest_map coarse hreach).2.2.2.1 ⟨7, 1⟩⟩

end

end GameNet.DeadlineQueue
