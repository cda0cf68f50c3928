import GameNet.IoUring.Identity
import GameNet.Stacks

/- What the engine's books keep apart, part by part: the table of slots (`Table`, `Blocks`), the
   counters over it (`Numbers`), who holds each accepted operation (`Tokens`), the queue of
   submissions that are not booked yet (`Queue`) and the history (`History`). Each part is stated
   over the lists it is about, so that a step that leaves them alone keeps it as it is.

   A token is held by exactly one side: while its slot is active there is one request or
   completion for it outstanding, and after that there is one notice. -/
namespace GameNet.IoUring

open Stacks

/-! ## Slots under a change of one of them -/

/-- What holds of every other slot and of the new one holds of every slot. -/
theorem forall_set {P : Nat → Slot → Prop} {slots : List Slot} {i : Nat} {slot : Slot}
    (h : ∀ j s, slots[j]? = some s → j ≠ i → P j s) (hi : P i slot) :
    ∀ j s, (slots.set i slot)[j]? = some s → P j s := by
  intro j s hs
  rcases getElem?_set_cases hs with ⟨rfl, rfl⟩ | ⟨hne, hs⟩
  · exact hi
  · exact h j s hs hne.symm

/-! ## The table -/

/-- Every slot's generation fits the packed identity, no slot is active while its notice waits,
and each ready notice still has its slot, one each. -/
structure Table (o : Options) (slots : List Slot) (ready : List Notice) : Prop where
  size : slots.length = o.maxOperations
  fits : ∀ (i : Nat) (slot : Slot), slots[i]? = some slot →
    slot.generation.toNat < 2 ^ 31 ∧ (slot.active = true → 0 < slot.generation.toNat)
  apart : ∀ (i : Nat) (slot : Slot), slots[i]? = some slot → slot.active = true → slot.noticePending = false
  reserved : ∀ notice ∈ ready, notice.identity.valid = true ∧
    ∃ slot, slots[notice.identity.slot.toNat]? = some slot ∧ slot.noticePending = true ∧
      slot.generation = notice.identity.generation
  distinct : ready.Pairwise (fun n n' => n.identity.slot ≠ n'.identity.slot)

section
variable {o : Options} {slots : List Slot} {ready : List Notice} {i : Nat} {slot slot' : Slot}

theorem Table.lt (h : Table o slots ready) (ho : o.validated = true) (hi : slots[i]? = some slot) :
    i + 1 < 2 ^ 32 := by
  have hlt := (List.getElem?_eq_some_iff.mp hi).1
  have hmax : ¬2 ^ 32 - 1 < o.maxOperations := by
    intro hgt
    simp only [Options.validated, hgt] at ho
    simp at ho
  rw [h.size] at hlt
  omega

theorem Table.toNat_slot (h : Table o slots ready) (ho : o.validated = true)
    (hi : slots[i]? = some slot) : (slotIdentity i slot).slot.toNat = i := by
  have hlt := h.lt ho hi
  show (BitVec.ofNat 32 i).toNat = i
  rw [BitVec.toNat_ofNat, Nat.mod_eq_of_lt (by omega)]

theorem Table.packable (h : Table o slots ready) (ho : o.validated = true)
    (hi : slots[i]? = some slot) : (slotIdentity i slot).Packable where
  slot := by
    rw [h.toNat_slot ho hi]
    exact h.lt ho hi
  generation := (h.fits i slot hi).1

/-- One slot changes, and those of its fields a ready notice relies on do not. -/
theorem Table.set (h : Table o slots ready)
    (hfits : slot'.generation.toNat < 2 ^ 31 ∧ (slot'.active = true → 0 < slot'.generation.toNat))
    (hapart : slot'.active = true → slot'.noticePending = false)
    (hkeeps : ∀ notice ∈ ready, notice.identity.slot.toNat = i →
      slot'.noticePending = true ∧ slot'.generation = notice.identity.generation) :
    Table o (slots.set i slot') ready where
  size := by rw [List.length_set, h.size]
  fits := forall_set (fun j s hs _ => h.fits j s hs) hfits
  apart := forall_set (fun j s hs _ => h.apart j s hs) hapart
  reserved := by
    intro notice hn
    obtain ⟨hvalid, s, hs, hpend, hgen⟩ := h.reserved notice hn
    refine ⟨hvalid, ?_⟩
    by_cases hni : notice.identity.slot.toNat = i
    · obtain ⟨hp, hg⟩ := hkeeps notice hn hni
      have hlt := (List.getElem?_eq_some_iff.mp hs).1
      exact ⟨slot', by rw [← hni, List.getElem?_set_self hlt], hp, hg⟩
    · exact ⟨s, by rw [List.getElem?_set_ne (Ne.symm hni), hs], hpend, hgen⟩
  distinct := h.distinct

theorem Table.same (h : Table o slots ready) (hi : slots[i]? = some slot)
    (hg : slot'.generation = slot.generation) (ha : slot'.active = slot.active)
    (hn : slot'.noticePending = slot.noticePending) : Table o (slots.set i slot') ready := by
  refine h.set ?_ ?_ ?_
  · rw [hg, ha]
    exact h.fits i slot hi
  · rw [ha, hn]
    exact h.apart i slot hi
  · intro notice hmem hslot
    obtain ⟨-, s, hs, hpend, hgen⟩ := h.reserved notice hmem
    obtain rfl : slot = s := Option.some.inj (by rw [← hi, ← hslot, hs])
    exact ⟨hn.trans hpend, hg.trans hgen⟩

/-- No ready notice waits for a slot without one. -/
theorem Table.unclaimed (h : Table o slots ready) (hi : slots[i]? = some slot)
    (hfree : slot.noticePending = false) :
    ∀ notice ∈ ready, notice.identity.slot.toNat ≠ i := by
  intro notice hmem hslot
  obtain ⟨-, s, hs, hpend, -⟩ := h.reserved notice hmem
  obtain rfl : slot = s := Option.some.inj (by rw [← hi, ← hslot, hs])
  rw [hfree] at hpend
  cases hpend

/-- A free slot takes an operation. -/
theorem Table.start (h : Table o slots ready) (hi : slots[i]? = some slot)
    (hfree : slot.noticePending = false) (r : Request) (a : Allocation) (token : Nat) :
    Table o (slots.set i (slot.start r a token)) ready := by
  have hgen := nextGeneration_toNat (h.fits i slot hi).1
  refine h.set ⟨hgen.2, fun _ => hgen.1⟩ (fun _ => rfl) ?_
  intro notice hmem hslot
  exact absurd hslot (h.unclaimed hi hfree notice hmem)

/-- An active slot ends, and its notice waits. -/
theorem Table.finish (h : Table o slots ready) (ho : o.validated = true)
    (hi : slots[i]? = some slot) (ha : slot.active = true) (res : Int) :
    Table o (slots.set i slot.finish) (ready ++ [slot.notice (slotIdentity i slot) res]) := by
  have hslot := h.toNat_slot ho hi
  have hfree := h.unclaimed hi (h.apart i slot hi ha)
  have hfits := h.fits i slot hi
  have hset : Table o (slots.set i slot.finish) ready := by
    refine h.set ⟨hfits.1, nofun⟩ nofun ?_
    intro notice hmem hn
    exact absurd hn (hfree notice hmem)
  refine { hset with reserved := ?_, distinct := ?_ }
  · intro notice hmem
    rcases List.mem_append.mp hmem with hold | hnew
    · exact hset.reserved notice hold
    · obtain rfl := List.mem_singleton.mp hnew
      have hlt := (List.getElem?_eq_some_iff.mp hi).1
      refine ⟨valid_of_pos (hfits.2 ha), slot.finish, ?_, rfl, rfl⟩
      show (slots.set i slot.finish)[(slotIdentity i slot).slot.toNat]? = _
      rw [hslot, List.getElem?_set_self hlt]
  · refine List.pairwise_append.mpr ⟨h.distinct, List.pairwise_singleton _ _, ?_⟩
    intro notice hmem n hn heq
    obtain rfl := List.mem_singleton.mp hn
    apply hfree notice hmem
    rw [heq]
    exact hslot

/-- The first notice is taken, and its slot is free again. -/
theorem Table.take {notice : Notice} (h : Table o slots (notice :: ready))
    (hi : slots[notice.identity.slot.toNat]? = some slot) :
    Table o (slots.set notice.identity.slot.toNat { slot with noticePending := false }) ready := by
  have hrest : Table o slots ready :=
    { h with
      reserved := fun n hn => h.reserved n (.tail _ hn)
      distinct := h.distinct.of_cons }
  refine hrest.set (h.fits _ slot hi) (fun _ => rfl) ?_
  intro n hn hslot
  have hne := (List.pairwise_cons.mp h.distinct).1 n hn
  exact absurd (BitVec.eq_of_toNat_eq hslot).symm hne

/-- The slot of an identity that is still current. -/
theorem currentSlot_some {identity : OperationIdentity} :
    currentSlot slots identity = some slot ↔ identity.valid = true ∧
      slots[identity.slot.toNat]? = some slot ∧ slot.active = true ∧
      slot.generation = identity.generation := by
  unfold currentSlot
  cases hv : identity.valid with
  | false => simp
  | true =>
    cases hs : slots[identity.slot.toNat]? with
    | none => simp
    | some s =>
      by_cases hgood : s.active = true ∧ s.generation = identity.generation
      · simp only [hgood.1, hgood.2]
        simp
        rintro rfl
        exact hgood
      · have hbad : (!s.active || s.generation != identity.generation) = true := by
          by_contra hnot
          apply hgood
          simpa using hnot
        simp only [hbad]
        simp
        rintro rfl ha hg
        exact hgood ⟨ha, hg⟩

theorem currentSlot_slotIdentity (h : Table o slots ready) (ho : o.validated = true)
    (hi : slots[i]? = some slot) (ha : slot.active = true) :
    currentSlot slots (slotIdentity i slot) = some slot := by
  refine currentSlot_some.mpr ⟨valid_of_pos ((h.fits i slot hi).2 ha), ?_, ha, rfl⟩
  rw [h.toNat_slot ho hi, hi]

/-- A current identity is the identity of its slot. -/
theorem identity_of_current {identity : OperationIdentity}
    (h : currentSlot slots identity = some slot) :
    slotIdentity identity.slot.toNat slot = identity := by
  obtain ⟨-, -, -, hg⟩ := currentSlot_some.mp h
  rw [slotIdentity, hg, BitVec.ofNat_toNat, BitVec.setWidth_eq]

end

/-! ## Blocks -/

/-- No two active slots own the same block. -/
def Blocks (slots : List Slot) : Prop :=
  ∀ (address i : Nat) (slot : Slot), slots[i]? = some slot →
    ∀ (j : Nat) (slot' : Slot), slots[j]? = some slot' →
      slot.holds (some address) = true → slot'.holds (some address) = true → i = j

section
variable {slots : List Slot} {i : Nat} {slot slot' : Slot}

theorem Blocks.set (h : Blocks slots)
    (hnew : ∀ address j s, slots[j]? = some s → s.holds (some address) = true →
      slot'.holds (some address) = true → j = i) : Blocks (slots.set i slot') := by
  intro address
  refine forall_set ?_ ?_
  · intro j s hs _
    refine forall_set ?_ ?_
    · intro k s' hs' _ hh hh'
      exact h address j s hs k s' hs' hh hh'
    · intro hh hh'
      exact hnew address j s hs hh hh'
  · refine forall_set ?_ ?_
    · intro k s' hs' _ hh hh'
      exact (hnew address k s' hs' hh' hh).symm
    · intro _ _
      rfl

/-- A slot that holds no more than before. -/
theorem Blocks.same (h : Blocks slots) (hi : slots[i]? = some slot)
    (hle : ∀ block, slot'.holds block = true → slot.holds block = true) :
    Blocks (slots.set i slot') :=
  h.set fun address j s hs hh hh' => h address j s hs i slot hi hh (hle _ hh')

end

/-! ## Counters -/

def Slot.one (slot : Slot) : Nat := if slot.active then 1 else 0

def Slot.owned (slot : Slot) : Nat := if slot.active then slot.reservedBytes else 0

/-- The counters are what they count, and stay in the engine's budgets. -/
structure Numbers (o : Options) (slots : List Slot) (ready : List Notice) (active owned : Nat) :
    Prop where
  counts : active = weight Slot.one slots
  room : active + ready.length ≤ o.maxOperations
  sums : owned = weight Slot.owned slots + weight Notice.reservedBytes ready
  limit : owned ≤ o.maxOwnedBytes

section
variable {o : Options} {slots : List Slot} {ready : List Notice} {i active owned : Nat}
  {slot slot' : Slot}

theorem Numbers.same (h : Numbers o slots ready active owned) (hi : slots[i]? = some slot)
    (ha : slot'.active = slot.active) (hr : slot'.reservedBytes = slot.reservedBytes) :
    Numbers o (slots.set i slot') ready active owned := by
  have hone := weight_set Slot.one hi slot'
  have hown := weight_set Slot.owned hi slot'
  have h1 : slot'.one = slot.one := by rw [Slot.one, Slot.one, ha]
  have h2 : slot'.owned = slot.owned := by rw [Slot.owned, Slot.owned, ha, hr]
  refine { h with counts := ?_, sums := ?_ }
  · rw [h.counts]
    omega
  · rw [h.sums]
    omega

theorem Numbers.start (h : Numbers o slots ready active owned) (hi : slots[i]? = some slot)
    (hfree : slot.active = false) (ha : slot'.active = true)
    (hroom : active + ready.length < o.maxOperations)
    (hlimit : slot'.reservedBytes ≤ o.maxOwnedBytes - owned) :
    Numbers o (slots.set i slot') ready (active + 1) (owned + slot'.reservedBytes) := by
  have hone := weight_set Slot.one hi slot'
  have hown := weight_set Slot.owned hi slot'
  simp only [Slot.one, Slot.owned, hfree, ha] at hone hown
  have hactive := h.counts
  have howned := h.sums
  have hlim := h.limit
  simp only [Bool.false_eq_true, if_false, if_true] at hone hown
  exact ⟨by omega, by omega, by omega, by omega⟩

theorem Numbers.finish (h : Numbers o slots ready active owned) (hi : slots[i]? = some slot)
    (ha : slot.active = true) (identity : OperationIdentity) (res : Int) :
    Numbers o (slots.set i slot.finish) (ready ++ [slot.notice identity res]) (active - 1) owned := by
  have hone := weight_set Slot.one hi slot.finish
  have hown := weight_set Slot.owned hi slot.finish
  have h1 : slot.finish.one = 0 := rfl
  have h2 : slot.finish.owned = 0 := rfl
  have h3 : slot.one = 1 := by rw [Slot.one, ha]; rfl
  have h4 : slot.owned = slot.reservedBytes := by rw [Slot.owned, ha]; rfl
  have h5 : (slot.notice identity res).reservedBytes = slot.reservedBytes := rfl
  have hactive := h.counts
  have howned := h.sums
  have hroom := h.room
  refine ⟨by omega, ?_, ?_, h.limit⟩
  · rw [List.length_append, List.length_singleton]
    omega
  · rw [weight_append, weight_cons, weight_nil, h5]
    omega

theorem Numbers.take {notice : Notice} (h : Numbers o slots (notice :: ready) active owned)
    (hi : slots[i]? = some slot) :
    notice.reservedBytes ≤ owned ∧
      Numbers o (slots.set i { slot with noticePending := false }) ready active
        (owned - notice.reservedBytes) := by
  have howned := h.sums
  have hroom := h.room
  have hlimit := h.limit
  rw [weight_cons] at howned
  rw [List.length_cons] at hroom
  have hrest : Numbers o slots ready active (owned - notice.reservedBytes) :=
    ⟨h.counts, by omega, by omega, by omega⟩
  exact ⟨by omega, hrest.same hi rfl rfl⟩

end

/-! ## Tokens -/

/-- What a request and its completion have in common. -/
structure Tag where
  userData : BitVec 64
  token : Nat

def Sqe.tag (sqe : Sqe) : Tag := ⟨sqe.userData, sqe.token⟩
def Cqe.tag (cqe : Cqe) : Tag := ⟨cqe.userData, cqe.token⟩

/-- One if the tag, the slot or the notice stands for the operation `k`. -/
def Tag.of (k : Nat) (tag : Tag) : Nat :=
  if isCancelCqe tag.userData = false ∧ tag.token = k then 1 else 0

def Slot.of (k : Nat) (slot : Slot) : Nat := if slot.active = true ∧ slot.token = k then 1 else 0

def Notice.of (k : Nat) (notice : Notice) : Nat := if notice.token = k then 1 else 0

/-- An accepted operation is held by one active slot, for which one request or completion is
outstanding, or has one notice; a request names the identity of its own operation. -/
structure Tokens (slots : List Slot) (outstanding : List Tag) (published : List Notice)
    (accepted : List Operation) : Prop where
  located : ∀ k, weight (Tag.of k) outstanding = weight (Slot.of k) slots
  settled : ∀ k, weight (Slot.of k) slots + weight (Notice.of k) published =
    if k < accepted.length then 1 else 0
  recorded : ∀ (i : Nat) (slot : Slot), slots[i]? = some slot → slot.active = true →
    accepted[slot.token]? = some (slot.operation i)
  tagged : ∀ tag ∈ outstanding, isCancelCqe tag.userData = false →
    ∃ operation, accepted[tag.token]? = some operation ∧
      tag.userData = encodeIdentity operation.identity false

section
variable {slots : List Slot} {outstanding outstanding' : List Tag} {published : List Notice}
  {accepted : List Operation} {i : Nat} {slot slot' : Slot} {tag : Tag}

theorem Tokens.perm (h : Tokens slots outstanding published accepted)
    (hp : outstanding.Perm outstanding') : Tokens slots outstanding' published accepted :=
  { h with
    located := fun k => (weight_perm (Tag.of k) hp.symm).trans (h.located k)
    tagged := fun tag htag => h.tagged tag (hp.mem_iff.mpr htag) }

theorem Tokens.same (h : Tokens slots outstanding published accepted)
    (hi : slots[i]? = some slot) (ha : slot'.active = slot.active)
    (hop : slot'.operation i = slot.operation i) (ht : slot'.token = slot.token) :
    Tokens (slots.set i slot') outstanding published accepted := by
  have hweight : ∀ k, weight (Slot.of k) (slots.set i slot') = weight (Slot.of k) slots := by
    intro k
    have hset := weight_set (Slot.of k) hi slot'
    have heq : slot'.of k = slot.of k := by rw [Slot.of, Slot.of, ha, ht]
    omega
  refine { h with located := ?_, settled := ?_, recorded := ?_ }
  · intro k
    rw [hweight, h.located]
  · intro k
    rw [hweight, h.settled]
  · refine forall_set (fun j s hs _ => h.recorded j s hs) ?_
    intro hactive
    rw [ht, hop]
    exact h.recorded i slot hi (ha ▸ hactive)

/-- A free slot takes the next token, and its request is outstanding. -/
theorem Tokens.start (h : Tokens slots outstanding published accepted)
    (hi : slots[i]? = some slot) (hfree : slot.active = false) (ha : slot'.active = true)
    (ht : slot'.token = accepted.length) (hpack : (slotIdentity i slot').Packable) :
    Tokens (slots.set i slot')
      (⟨encodeIdentity (slotIdentity i slot') false, slot'.token⟩ :: outstanding) published
      (accepted ++ [slot'.operation i]) := by
  have hnew : ∀ k, slot'.of k = if k = accepted.length then 1 else 0 := by
    intro k
    simp only [Slot.of, ha, ht, true_and, eq_comm]
  have htag : ∀ k, Tag.of k ⟨encodeIdentity (slotIdentity i slot') false, slot'.token⟩ =
      slot'.of k := by
    intro k
    simp only [Tag.of, Slot.of, isCancelCqe_encode hpack, ha]
  have hold : ∀ k, slot.of k = 0 := fun k => by simp [Slot.of, hfree]
  have hset : ∀ k, weight (Slot.of k) (slots.set i slot') =
      weight (Slot.of k) slots + slot'.of k := by
    intro k
    have := weight_set (Slot.of k) hi slot'
    rw [hold k] at this
    omega
  refine ⟨?_, ?_, ?_, ?_⟩
  · intro k
    rw [weight_cons, htag, hset, h.located]
    omega
  · intro k
    have hsettled := h.settled k
    rw [hset, hnew, List.length_append, List.length_singleton]
    split at hsettled <;> split <;> split <;> omega
  · refine forall_set ?_ ?_
    · intro j s hs _ hactive
      have hrec := h.recorded j s hs hactive
      exact getElem?_append_of hrec _
    · intro _
      rw [ht, List.getElem?_concat_length]
  · intro tag hmem hop
    rcases List.mem_cons.mp hmem with rfl | hmem
    · exact ⟨slot'.operation i, by rw [ht, List.getElem?_concat_length], rfl⟩
    · obtain ⟨operation, hget, hdata⟩ := h.tagged tag hmem hop
      exact ⟨operation, getElem?_append_of hget _, hdata⟩

/-- A cancel request comes or goes. -/
theorem Tokens.cancel (hc : isCancelCqe tag.userData = true) :
    Tokens slots (tag :: outstanding) published accepted ↔
      Tokens slots outstanding published accepted := by
  have hzero : ∀ k, Tag.of k tag = 0 := fun k => by simp [Tag.of, hc]
  constructor
  · intro h
    refine { h with located := fun k => ?_, tagged := fun t ht => h.tagged t (.tail _ ht) }
    rw [← h.located k, weight_cons, hzero, Nat.zero_add]
  · intro h
    refine { h with located := fun k => ?_, tagged := ?_ }
    · rw [weight_cons, hzero, Nat.zero_add, h.located]
    · intro t ht hop
      rcases List.mem_cons.mp ht with rfl | ht
      · rw [hc] at hop
        cases hop
      · exact h.tagged t ht hop

/-- The slot of an operation that is outstanding. -/
theorem Tokens.find (h : Tokens slots outstanding published accepted) (hmem : tag ∈ outstanding)
    (hop : isCancelCqe tag.userData = false) :
    ∃ i slot, slots[i]? = some slot ∧ slot.active = true ∧ slot.token = tag.token ∧
      tag.userData = encodeIdentity (slotIdentity i slot) false := by
  have hone : Tag.of tag.token tag = 1 := if_pos ⟨hop, rfl⟩
  have hpos := le_weight (Tag.of tag.token) hmem
  rw [hone, h.located] at hpos
  -- some active slot has the token
  obtain ⟨slot, hslot, hne⟩ : ∃ slot ∈ slots, slot.of tag.token ≠ 0 := by
    by_contra hnone
    simp only [not_exists, not_and, not_not] at hnone
    rw [weight_eq_zero hnone] at hpos
    omega
  obtain ⟨ha, ht⟩ : slot.active = true ∧ slot.token = tag.token := by
    by_contra hnot
    exact hne (if_neg hnot)
  obtain ⟨i, hi⟩ := List.mem_iff_getElem?.mp hslot
  obtain ⟨operation, hget, hdata⟩ := h.tagged tag hmem hop
  have hrec := h.recorded i slot hi ha
  rw [ht, hget] at hrec
  obtain rfl := Option.some.inj hrec
  exact ⟨i, slot, hi, ha, ht, hdata⟩

/-- The completion of an operation ends its slot and becomes its notice. -/
theorem Tokens.finish (h : Tokens slots (tag :: outstanding) published accepted)
    (hop : isCancelCqe tag.userData = false) (hi : slots[i]? = some slot)
    (ha : slot.active = true) (ht : slot.token = tag.token) (res : Int) :
    Tokens (slots.set i slot.finish) outstanding
      (published ++ [slot.notice (slotIdentity i slot) res]) accepted := by
  have hset : ∀ k, weight (Slot.of k) (slots.set i slot.finish) + slot.of k =
      weight (Slot.of k) slots := fun k => weight_set (Slot.of k) hi slot.finish
  have htag : ∀ k, Tag.of k tag = slot.of k := by
    intro k
    simp only [Tag.of, Slot.of, hop, ha, ht]
  have hnotice : ∀ k, (slot.notice (slotIdentity i slot) res).of k = slot.of k := by
    intro k
    simp only [Slot.of, ha, true_and]
    rfl
  refine { h with located := ?_, settled := ?_, recorded := ?_
                  tagged := fun t hmem => h.tagged t (.tail _ hmem) }
  · intro k
    have hlocated := h.located k
    have := hset k
    rw [weight_cons, htag] at hlocated
    omega
  · intro k
    have hsettled := h.settled k
    have := hset k
    rw [weight_append, weight_cons, weight_nil, hnotice, ← hsettled]
    omega
  · exact forall_set (fun j s hs _ => h.recorded j s hs) nofun

/-- The token of an active slot has no notice, and no other slot has it. -/
theorem Tokens.sole (h : Tokens slots outstanding published accepted) (hi : slots[i]? = some slot)
    (ha : slot.active = true) :
    (∀ notice ∈ published, notice.token ≠ slot.token) ∧
      ∀ j s, slots[j]? = some s → s.active = true → s.token = slot.token → j = i := by
  have hone : slot.of slot.token = 1 := if_pos ⟨ha, rfl⟩
  have hsettled := h.settled slot.token
  have hle := le_weight_get (Slot.of slot.token) hi
  have hsum : weight (Slot.of slot.token) slots + weight (Notice.of slot.token) published ≤ 1 := by
    rw [hsettled]
    split <;> omega
  constructor
  · intro notice hmem heq
    have hn := le_weight (Notice.of slot.token) hmem
    rw [Notice.of, if_pos heq] at hn
    omega
  · intro j s hs hactive heq
    by_contra hne
    -- with the slot's own share taken out, another slot would still have one
    have hset := weight_set (Slot.of slot.token) hi slot.finish
    have hfin : slot.finish.of slot.token = 0 := rfl
    have hj : (slots.set i slot.finish)[j]? = some s := by
      rw [List.getElem?_set_ne (Ne.symm hne), hs]
    have hother := le_weight_get (Slot.of slot.token) hj
    have hsone : s.of slot.token = 1 := if_pos ⟨hactive, heq⟩
    omega

/-- The record of an operation after a write to the operation `k`. -/
theorem getElem?_write {j : Nat} {operation : Operation} (k : Nat) (data : List UInt8)
    (h : accepted[j]? = some operation) :
    (accepted.modify k (Operation.write data))[j]? =
      some (if k = j then operation.write data else operation) := by
  rw [List.getElem?_modify, h]
  split <;> rfl

/-- The kernel writes to the storage of an active slot. -/
theorem Tokens.write (h : Tokens slots outstanding published accepted)
    (hi : slots[i]? = some slot) (ha : slot.active = true) (data : List UInt8) :
    Tokens (slots.set i { slot with storage := slot.storage.write data }) outstanding published
      (accepted.modify slot.token (Operation.write data)) := by
  have hweight : ∀ k, weight (Slot.of k)
      (slots.set i { slot with storage := slot.storage.write data }) = weight (Slot.of k) slots := by
    intro k
    exact Nat.add_right_cancel (weight_set (Slot.of k) hi _)
  refine ⟨?_, ?_, ?_, ?_⟩
  · intro k
    rw [hweight, h.located]
  · intro k
    rw [hweight, h.settled, List.length_modify]
  · refine forall_set ?_ ?_
    · intro j s hs hne hactive
      have hrec := getElem?_write slot.token data (h.recorded j s hs hactive)
      have hother : slot.token ≠ s.token := fun heq => hne ((h.sole hi ha).2 j s hs hactive heq.symm)
      rw [hrec, if_neg hother]
    · intro _
      have hrec := getElem?_write slot.token data (h.recorded i slot hi ha)
      rw [if_pos rfl] at hrec
      exact hrec
  · intro tag hmem hop
    obtain ⟨operation, hget, hdata⟩ := h.tagged tag hmem hop
    refine ⟨_, getElem?_write _ _ hget, ?_⟩
    split <;> exact hdata

end

/-! ## The addresses of requests -/

/-- A receive names the block of its own operation. -/
def Aimed (accepted : List Operation) (sqe : Sqe) : Prop :=
  sqe.opcode = .recv → isCancelCqe sqe.userData = false ∧
    ∃ operation address, accepted[sqe.token]? = some operation ∧
      sqe.addr = .block (some address) ∧ operation.storage.block = some address

section
variable {accepted : List Operation} {sqe : Sqe}

theorem Aimed.append (h : Aimed accepted sqe) (operation : Operation) :
    Aimed (accepted ++ [operation]) sqe := by
  intro hrecv
  obtain ⟨hop, old, address, hget, haddr, hblock⟩ := h hrecv
  exact ⟨hop, old, address, getElem?_append_of hget _, haddr, hblock⟩

theorem Aimed.write (h : Aimed accepted sqe) (k : Nat) (data : List UInt8) :
    Aimed (accepted.modify k (Operation.write data)) sqe := by
  intro hrecv
  obtain ⟨hop, old, address, hget, haddr, hblock⟩ := h hrecv
  refine ⟨hop, _, address, getElem?_write _ _ hget, haddr, ?_⟩
  split <;> exact hblock

end

/-! ## Submissions that are not booked -/

def cancelOne (userData : BitVec 64) : Nat := if isCancelCqe userData then 1 else 0

/-- The first `consumed` of the pending submissions are with the kernel, the others still in the
ring; the cancels the engine waits for are those with the kernel that it has booked. -/
structure Queue (pending : List PendingSubmission) (consumed : Nat) (sq : List Sqe)
    (cancels : Nat) (later : List Tag) : Prop where
  within : consumed ≤ pending.length
  flagged : ∀ p ∈ pending, p.cancel = isCancelCqe p.userData
  queued : (pending.drop consumed).map PendingSubmission.userData = sq.map Sqe.userData
  counted : cancels + weight cancelOne ((pending.take consumed).map PendingSubmission.userData) =
    weight cancelOne (later.map Tag.userData)

section
variable {pending : List PendingSubmission} {consumed cancels n : Nat} {sq : List Sqe}
  {later later' : List Tag}

theorem Queue.perm (h : Queue pending consumed sq cancels later) (hp : later.Perm later') :
    Queue pending consumed sq cancels later' :=
  { h with counted := h.counted.trans (weight_perm cancelOne (hp.map Tag.userData)) }

theorem Queue.push (h : Queue pending consumed sq cancels later) (sqe : Sqe) :
    Queue (pending ++ [⟨sqe.userData, isCancelCqe sqe.userData⟩]) consumed (sq ++ [sqe]) cancels
      later where
  within := by
    rw [List.length_append]
    exact Nat.le_add_right_of_le h.within
  flagged := by
    intro p hp
    rcases List.mem_append.mp hp with hold | hnew
    · exact h.flagged p hold
    · obtain rfl := List.mem_singleton.mp hnew
      rfl
  queued := by
    rw [List.drop_append_of_le_length h.within, List.map_append, List.map_append, h.queued]
    rfl
  counted := by
    rw [List.take_append_of_le_length h.within]
    exact h.counted

/-- The kernel consumes the first `n` entries of the ring. -/
theorem Queue.consume (h : Queue pending 0 sq cancels later) (hn : n ≤ pending.length) :
    Queue pending n (sq.drop n) cancels (later ++ (sq.take n).map Sqe.tag) where
  within := hn
  flagged := h.flagged
  queued := by
    have hall : pending.map PendingSubmission.userData = sq.map Sqe.userData := h.queued
    rw [List.map_drop, hall, List.map_drop]
  counted := by
    have hall : pending.map PendingSubmission.userData = sq.map Sqe.userData := h.queued
    have hcounted := h.counted
    have htags : ((sq.take n).map Sqe.tag).map Tag.userData = (sq.map Sqe.userData).take n := by
      rw [List.map_map, List.map_take]
      rfl
    rw [List.take_zero, List.map_nil, weight_nil] at hcounted
    rw [List.map_append, weight_append, htags, List.map_take, hall]
    omega

/-- One of the consumed entries is booked. -/
theorem Queue.book {p : PendingSubmission} (h : Queue (p :: pending) (consumed + 1) sq cancels later) :
    Queue pending consumed sq (if p.cancel then cancels + 1 else cancels) later where
  within := Nat.le_of_succ_le_succ h.within
  flagged := fun q hq => h.flagged q (.tail _ hq)
  queued := h.queued
  counted := by
    have hcounted := h.counted
    have hflag := h.flagged p (.head _)
    rw [List.take_succ_cons, List.map_cons, weight_cons, cancelOne, ← hflag] at hcounted
    cases hp : p.cancel <;> simp only [hp] at hcounted ⊢ <;> simp at hcounted ⊢ <;> omega

/-- A completion is read: one of a cancel request was waited for. -/
theorem Queue.read {tag : Tag} (h : Queue pending 0 sq cancels (tag :: later)) :
    (isCancelCqe tag.userData = true → cancels ≠ 0) ∧
      Queue pending 0 sq (if isCancelCqe tag.userData then cancels - 1 else cancels) later := by
  have hcounted := h.counted
  rw [List.take_zero, List.map_nil, weight_nil, List.map_cons, weight_cons, cancelOne] at hcounted
  constructor
  · intro hcancel
    rw [if_pos hcancel] at hcounted
    omega
  · refine { h with counted := ?_ }
    rw [List.take_zero, List.map_nil, weight_nil]
    by_cases hcancel : isCancelCqe tag.userData = true
    · rw [if_pos hcancel] at hcounted ⊢
      omega
    · rw [if_neg hcancel] at hcounted ⊢
      omega

end

/-! ## History -/

/-- The notice is for the operation: its identity, its kind, its lease and its storage. A
successful receive is cut to what was transferred. -/
structure Delivers (operation : Operation) (notice : Notice) : Prop where
  identity : notice.identity = operation.identity
  kind : notice.kind = operation.kind
  lease : notice.lease = operation.lease
  block : notice.payload.block = operation.storage.block
  bytes : notice.payload.bytes =
    if notice.kind = .receive ∧ notice.status = .succeeded then
      operation.storage.bytes.take notice.bytesTransferred
    else operation.storage.bytes
  reservedBytes : notice.reservedBytes = operation.reservedBytes

/-- A notice as `takeNextNotice` returns it. -/
def Notice.spent (notice : Notice) : Notice := { notice with reservedBytes := 0 }

/-- Notices are taken in the order of their publication, each was published by the completion of
its own request, and each delivers its own operation. -/
structure History (accepted : List Operation) (published : List Notice) (drained : List Cqe)
    (taken ready : List Notice) : Prop where
  order : published.map Notice.spent = taken ++ ready.map Notice.spent
  completed : published.map Notice.token = drained.map Cqe.token
  own : ∀ notice ∈ published, ∃ operation, accepted[notice.token]? = some operation ∧
    Delivers operation notice

section
variable {accepted : List Operation} {published taken ready : List Notice} {drained : List Cqe}

theorem slot_delivers (slot : Slot) (i : Nat) (res : Int) :
    Delivers (slot.operation i) (slot.notice (slotIdentity i slot) res) where
  identity := rfl
  kind := rfl
  lease := rfl
  block := by
    show (if 0 ≤ res ∧ slot.kind = .receive then _ else slot.storage : Storage).block = _
    split <;> rfl
  bytes := by
    have hstatus : completionStatus res = .succeeded ↔ 0 ≤ res := by
      unfold completionStatus
      split
      · split <;> simp <;> omega
      · simp
        omega
    show (if 0 ≤ res ∧ slot.kind = .receive then _ else slot.storage : Storage).bytes =
      if slot.kind = .receive ∧ completionStatus res = .succeeded then
        slot.storage.bytes.take (if res < 0 ∨ slot.kind = .accept then 0 else res.toNat)
      else slot.storage.bytes
    by_cases hcut : 0 ≤ res ∧ slot.kind = .receive
    · have hcount : ¬(res < 0 ∨ slot.kind = .accept) := by
        rw [hcut.2]
        simp
        omega
      have hspec : slot.kind = .receive ∧ completionStatus res = .succeeded :=
        ⟨hcut.2, hstatus.mpr hcut.1⟩
      rw [if_pos hcut, if_neg hcount, if_pos hspec]
      exact List.take_eq_take_min.symm
    · rw [if_neg hcut, if_neg (fun h => hcut ⟨hstatus.mp h.2, h.1⟩)]
  reservedBytes := rfl

theorem History.accept (h : History accepted published drained taken ready)
    (operation : Operation) : History (accepted ++ [operation]) published drained taken ready :=
  { h with
    own := by
      intro notice hmem
      obtain ⟨old, hget, hdel⟩ := h.own notice hmem
      exact ⟨old, getElem?_append_of hget _, hdel⟩ }

theorem History.publish (h : History accepted published drained taken ready) {i : Nat} {slot : Slot}
    (hrec : accepted[slot.token]? = some (slot.operation i)) {cqe : Cqe}
    (ht : slot.token = cqe.token) (res : Int) :
    History accepted (published ++ [slot.notice (slotIdentity i slot) res]) (drained ++ [cqe]) taken
      (ready ++ [slot.notice (slotIdentity i slot) res]) where
  order := by
    rw [List.map_append, List.map_append, h.order, List.append_assoc]
  completed := by
    rw [List.map_append, List.map_append, h.completed, List.map_singleton, List.map_singleton, ← ht]
    rfl
  own := by
    intro notice hmem
    rcases List.mem_append.mp hmem with hold | hnew
    · exact h.own notice hold
    · obtain rfl := List.mem_singleton.mp hnew
      exact ⟨slot.operation i, hrec, slot_delivers slot i res⟩

theorem History.take {notice : Notice}
    (h : History accepted published drained taken (notice :: ready)) :
    History accepted published drained (taken ++ [notice.spent]) ready :=
  { h with order := by rw [h.order, List.map_cons, List.append_assoc]; rfl }

/-- A write to an operation without a notice. -/
theorem History.write (h : History accepted published drained taken ready) {k : Nat}
    (hk : ∀ notice ∈ published, notice.token ≠ k) (data : List UInt8) :
    History (accepted.modify k (Operation.write data)) published drained taken ready :=
  { h with
    own := by
      intro notice hmem
      obtain ⟨operation, hget, hdel⟩ := h.own notice hmem
      refine ⟨_, getElem?_write k data hget, ?_⟩
      rw [if_neg (Ne.symm (hk notice hmem))]
      exact hdel }

end

end GameNet.IoUring
