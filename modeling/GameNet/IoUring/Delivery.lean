import GameNet.IoUring.Custody

/- Every operation the engine accepts is delivered once, by its own completion.

   `Inv` puts the parts of the books together. The requests outstanding are those in the
   submission ring, those the kernel works on and the completions that are not read yet; a step
   of the kernel only moves one along, so the invariant needs them up to order. The reader's and
   the booking loop's positions are read off the activity.

   The theorem holds for every sequence of calls, of any rings and budgets, and for every
   behaviour of a kernel that consumes the ring in order and completes each request once. -/
namespace GameNet.IoUring

open Stacks
open Machine (Reach Any)

/-! ## What is outstanding -/

/-- Entries with the kernel that are not booked. -/
def Activity.consumed : Activity → Nat
  | .returned _ left _ => left
  | _ => 0

/-- Completions that are read while the ring still holds them. -/
def Activity.read : Activity → Nat
  | .reading _ taken => taken
  | _ => 0

/-- Completions that are still to be read. -/
def Activity.left : Activity → Nat
  | .reading left _ => left
  | _ => 0

def Books.unread (b : Books) : List Cqe := b.cq.contents.drop b.activity.read

/-- With the kernel, or completed and not read. -/
def Books.later (b : Books) : List Tag := b.inflight.map Sqe.tag ++ b.unread.map Cqe.tag

def Books.outstanding (b : Books) : List Tag := b.sq.contents.map Sqe.tag ++ b.later

structure Inv (o : Options) (b : Books) : Prop where
  table : Table o b.slots b.readyNotices
  blocks : Blocks b.slots
  numbers : Numbers o b.slots b.readyNotices b.activeOperations b.ownedBytes
  tokens : Tokens b.slots b.outstanding b.published b.accepted
  aimed : ∀ sqe ∈ b.sq.contents ++ b.inflight, Aimed b.accepted sqe
  queue : Queue b.pendingSubmissions b.activity.consumed b.sq.contents b.pendingCancelCompletions
    b.later
  history : History b.accepted b.published b.drained b.taken b.readyNotices
  reading : b.activity.left + b.activity.read ≤ b.cq.length
  closed : b.phase = .shutdown → b.quiescent = true
  fresh : b.staleCqes = 0
  safe : b.strayWrite = false

theorem quiescent_iff {b : Books} : b.quiescent = true ↔
    b.activeOperations = 0 ∧ b.pendingSubmissions = [] ∧ b.pendingCancelCompletions = 0 := by
  simp [Books.quiescent, and_assoc]

section
variable {o : Options} {b : Books}

variable {sq : SharedRing Sqe}

theorem start_inv (o : Options) {cq : SharedRing Cqe}
    (hsq : sq.contents = []) (hcq : cq.contents = []) : Inv o (start o sq cq).books := by
  have hslot : ∀ (i : Nat) (slot : Slot),
      (List.replicate o.maxOperations ({} : Slot))[i]? = some slot → slot = {} := by
    intro i slot hi
    exact (List.mem_replicate.mp (List.mem_of_getElem? hi)).2
  have hzero (w : Slot → Nat) (hw : w {} = 0) : weight w (List.replicate o.maxOperations {}) = 0 := by
    apply weight_eq_zero
    intro slot hmem
    rw [(List.mem_replicate.mp hmem).2, hw]
  have hout : (start o sq cq).books.outstanding = [] := by
    simp [Books.outstanding, Books.later, Books.unread, start, hsq, hcq]
  refine ⟨?_, ?_, ?_, ?_, ?_, ?_, ?_, ?_, nofun, rfl, rfl⟩
  · refine ⟨List.length_replicate, ?_, ?_, nofun, .nil⟩
    · intro i slot hi
      obtain rfl := hslot i slot hi
      exact ⟨by decide, nofun⟩
    · intro i slot hi
      obtain rfl := hslot i slot hi
      exact nofun
  · intro address i slot hi j slot' _ hh
    obtain rfl := hslot i slot hi
    cases hh
  · exact ⟨(hzero Slot.one rfl).symm, Nat.zero_le _, (hzero Slot.owned rfl).symm, Nat.zero_le _⟩
  · refine ⟨?_, ?_, ?_, ?_⟩
    · intro k
      rw [hout]
      exact (hzero (Slot.of k) rfl).symm
    · intro k
      exact hzero (Slot.of k) rfl
    · intro i slot hi ha
      obtain rfl := hslot i slot hi
      cases ha
    · rw [hout]
      exact nofun
  · intro sqe hmem
    have hnil : (start o sq cq).books.sq.contents ++ (start o sq cq).books.inflight = [] := by
      simp [start, hsq]
    rw [hnil] at hmem
    cases hmem
  · refine ⟨Nat.zero_le _, nofun, ?_, ?_⟩
    · show [] = sq.contents.map Sqe.userData
      rw [hsq]
      rfl
    · show 0 = weight cancelOne (((cq.contents.drop 0).map Cqe.tag).map Tag.userData)
      rw [hcq]
      rfl
  · exact ⟨rfl, rfl, nofun⟩
  · exact Nat.zero_le _

/-- The owner moves on without touching the books. -/
theorem Inv.settle (h : Inv o b) {activity : Activity}
    (hc : activity.consumed = b.activity.consumed) (hr : activity.read = b.activity.read)
    (hl : activity.left + activity.read ≤ b.cq.length) : Inv o { b with activity := activity } := by
  have hlater : Books.later { b with activity := activity } = b.later := by
    unfold Books.later Books.unread
    rw [hr]
  have hout : Books.outstanding { b with activity := activity } = b.outstanding := by
    unfold Books.outstanding
    rw [hlater]
  refine { h with tokens := ?_, queue := ?_, reading := hl }
  · rw [hout]
    exact h.tokens
  · rw [hlater]
    show Queue _ activity.consumed _ _ _
    rw [hc]
    exact h.queue

theorem Inv.setPhase (h : Inv o b) {phase : Phase}
    (hp : phase = .shutdown → b.quiescent = true) : Inv o { b with phase := phase } :=
  { h with closed := hp }

/-! ## The engine's steps -/

theorem publish_outstanding {sqe : Sqe} (hsq : b.sq.publish sqe = some sq) :
    (sq.contents.map Sqe.tag ++ b.later).Perm (sqe.tag :: b.outstanding) := by
  rw [SharedRing.publish_contents hsq, List.map_append, List.append_assoc]
  exact List.perm_middle

theorem sqe_tag (slot : Slot) (i : Nat) :
    (slot.sqe i).tag = ⟨encodeIdentity (slotIdentity i slot) false, slot.token⟩ := by
  unfold Slot.sqe
  cases slot.kind <;> rfl

variable {slot : Slot}

theorem sqe_recv {i : Nat} (h : (slot.sqe i).opcode = .recv) :
    slot.kind = .receive ∧ (slot.sqe i).addr = .block slot.storage.block := by
  unfold Slot.sqe at h ⊢
  cases hk : slot.kind <;> simp [hk] at h ⊢

/-- A storage has the block it was given, if it has one. -/
theorem storage_block (r : Request) (a : Allocation) :
    (r.storage a).block = if r.bytes = 0 then none else some a.address := by
  unfold Request.storage
  split
  · rfl
  · split <;> rfl

theorem Inv.accept (h : Inv o b) (ho : o.validated = true) (hphase : b.phase = .running) {i : Nat}
    (hi : b.slots[i]? = some slot) (hactive : slot.active = false)
    (hfree : slot.noticePending = false) {r : Request} {a : Allocation}
    (hvalid : r.invalid = false) (hroom : b.activeOperations + b.readyNotices.length < o.maxOperations)
    (hlimit : r.capacity a ≤ o.maxOwnedBytes - b.ownedBytes) (hown : b.owns a.address = false)
    (hsq : b.sq.publish ((slot.start r a b.accepted.length).sqe i) = some sq) :
    Inv o (b.accept i (slot.start r a b.accepted.length) sq) := by
  have htable := h.table.start hi hfree r a b.accepted.length
  have hlt := (List.getElem?_eq_some_iff.mp hi).1
  have hpack := htable.packable ho (List.getElem?_set_self hlt)
  have hcontents := SharedRing.publish_contents hsq
  have htag := sqe_tag (slot.start r a b.accepted.length) i
  have hcancel : isCancelCqe ((slot.start r a b.accepted.length).sqe i).userData = false := by
    have hdata := congrArg Tag.userData htag
    exact (congrArg isCancelCqe hdata).trans (isCancelCqe_encode hpack false)
  refine { h with table := htable, blocks := ?_, numbers := ?_, tokens := ?_, aimed := ?_, queue := ?_
                  history := h.history.accept _, closed := ?_ }
  · -- the block is not one the engine owns
    refine h.blocks.set ?_
    intro address j s hs hh hh'
    have haddress : address = a.address := by
      have hblock : (r.storage a).block = some address := by
        simpa [Slot.holds, Slot.start] using hh'
      rw [storage_block] at hblock
      split at hblock
      · cases hblock
      · exact (Option.some.inj hblock).symm
    subst haddress
    have hany : b.slots.any (·.holds (some a.address)) = true :=
      List.any_eq_true.mpr ⟨s, List.mem_of_getElem? hs, hh⟩
    rw [Books.owns, hany] at hown
    cases hown
  · exact h.numbers.start hi hactive rfl hroom hlimit
  · have htokens := h.tokens.start hi hactive rfl rfl hpack
    rw [← htag] at htokens
    exact htokens.perm (publish_outstanding hsq).symm
  · intro sqe hmem
    have hmem' : sqe ∈ b.sq.contents ++ b.inflight ∨ sqe = (slot.start r a b.accepted.length).sqe i := by
      have hmem : sqe ∈ sq.contents ++ b.inflight := hmem
      rw [hcontents] at hmem
      simp only [List.mem_append, List.mem_singleton] at hmem ⊢
      tauto
    rcases hmem' with hold | rfl
    · exact (h.aimed sqe hold).append _
    · intro hrecv
      obtain ⟨hkind, haddr⟩ := sqe_recv hrecv
      have hbytes : r.bytes ≠ 0 := by
        intro hzero
        have hk : r.kind = .receive := hkind
        simp [Request.invalid, hk, hzero] at hvalid
      have hblock : (r.storage a).block = some a.address := by
        rw [storage_block, if_neg hbytes]
      refine ⟨hcancel, (slot.start r a b.accepted.length).operation i, a.address, ?_, haddr.trans
        (congrArg Address.block hblock), hblock⟩
      have htoken : ((slot.start r a b.accepted.length).sqe i).token = b.accepted.length :=
        congrArg Tag.token htag
      rw [htoken]
      exact List.getElem?_concat_length
  · have hqueue := h.queue.push ((slot.start r a b.accepted.length).sqe i)
    rw [hcancel, ← hcontents] at hqueue
    exact hqueue
  · intro hp
    have hp : b.phase = .shutdown := hp
    rw [hphase] at hp
    cases hp

theorem Inv.requestCancel (h : Inv o b) (ho : o.validated = true) (hphase : b.phase ≠ .shutdown)
    {identity : OperationIdentity} (hs : currentSlot b.slots identity = some slot)
    (hsq : b.sq.publish (cancelSqe identity slot) = some sq) :
    Inv o (b.requestCancel identity slot sq) := by
  obtain ⟨-, hi, -, -⟩ := currentSlot_some.mp hs
  have hpack : identity.Packable := by
    rw [← identity_of_current hs]
    exact h.table.packable ho hi
  have hcancel : isCancelCqe (cancelSqe identity slot).userData = true := isCancelCqe_encode hpack true
  have hcontents := SharedRing.publish_contents hsq
  refine { h with table := h.table.same hi rfl rfl rfl, blocks := h.blocks.same hi fun _ hh => hh
                  numbers := h.numbers.same hi rfl rfl, tokens := ?_, aimed := ?_, queue := ?_
                  closed := fun hp => absurd hp hphase }
  · have htag : isCancelCqe (cancelSqe identity slot).tag.userData = true := hcancel
    have htokens := (Tokens.cancel htag).mpr h.tokens
    exact (htokens.perm (publish_outstanding hsq).symm).same hi rfl rfl rfl
  · intro sqe hmem
    have hmem : sqe ∈ sq.contents ++ b.inflight := hmem
    rw [hcontents] at hmem
    simp only [List.mem_append, List.mem_singleton] at hmem
    rcases hmem with (hold | rfl) | hold
    · exact h.aimed sqe (List.mem_append_left _ hold)
    · exact nofun
    · exact h.aimed sqe (List.mem_append_right _ hold)
  · have hqueue := h.queue.push (cancelSqe identity slot)
    rw [hcancel, ← hcontents] at hqueue
    exact hqueue

/-! ## The submission loop -/

theorem Inv.consume (h : Inv o b) {all : Bool} {n : Nat} (hc : b.activity = .calling all)
    (hn : n ≤ b.pendingSubmissions.length) :
    Inv o { b.consume n with activity := .returned all n n } := by
  have hread : b.activity.read = 0 := by rw [hc]; rfl
  have hqueue := h.queue
  rw [hc] at hqueue
  have hdrop := b.sq.advance_contents n
  have hsplit := List.take_append_drop n b.sq.contents
  have hlater : (b.later ++ (b.sq.contents.take n).map Sqe.tag).Perm
      (Books.later { b.consume n with activity := .returned all n n }) := by
    show (b.inflight.map Sqe.tag ++ (b.cq.contents.drop b.activity.read).map Cqe.tag ++ _).Perm
      ((b.inflight ++ b.sq.contents.take n).map Sqe.tag ++ (b.cq.contents.drop 0).map Cqe.tag)
    rw [hread, List.map_append, List.append_assoc, List.append_assoc]
    exact List.perm_append_comm.append_left _
  refine { h with tokens := h.tokens.perm ?_, aimed := ?_, queue := ?_, reading := Nat.zero_le _ }
  · show (b.sq.contents.map Sqe.tag ++ b.later).Perm
      ((b.sq.advance n).contents.map Sqe.tag ++ Books.later { b.consume n with activity := _ })
    refine List.Perm.trans ?_ (hlater.append_left _)
    rw [hdrop, ← List.append_assoc, List.append_assoc]
    conv_lhs => rw [← hsplit, List.map_append, List.append_assoc]
    refine List.perm_append_comm.trans ?_
    rw [List.append_assoc]
  · intro sqe hmem
    apply h.aimed
    have hmem : sqe ∈ (b.sq.advance n).contents ++ (b.inflight ++ b.sq.contents.take n) := hmem
    rw [hdrop] at hmem
    rw [← hsplit]
    simp only [List.mem_append] at hmem ⊢
    tauto
  · refine Queue.perm ?_ hlater
    show Queue _ n (b.sq.advance n).contents _ _
    rw [hdrop]
    exact hqueue.consume hn

theorem markSubmitted_cases (slots : List Slot) (identity : OperationIdentity) :
    markSubmitted slots identity = slots ∨ ∃ i slot, slots[i]? = some slot ∧
      markSubmitted slots identity = slots.set i { slot with submitted := true } := by
  unfold markSubmitted
  cases hs : currentSlot slots identity with
  | none => exact .inl rfl
  | some slot => exact .inr ⟨_, slot, (currentSlot_some.mp hs).2.1, rfl⟩

theorem Inv.markSubmitted (h : Inv o b) (identity : OperationIdentity) :
    Inv o { b with slots := markSubmitted b.slots identity } := by
  rcases markSubmitted_cases b.slots identity with heq | ⟨i, slot, hi, heq⟩
  · rw [heq]
    exact h
  · rw [heq]
    exact { h with
      table := h.table.same hi rfl rfl rfl
      blocks := h.blocks.same hi fun _ hh => hh
      numbers := h.numbers.same hi rfl rfl
      tokens := h.tokens.same hi rfl rfl rfl }

theorem Inv.bookOne (h : Inv o b) {all : Bool} {left submitted : Nat}
    (hr : b.activity = .returned all (left + 1) submitted) :
    Inv o { b.bookOne with activity := .returned all left submitted } := by
  have hqueue := h.queue
  rw [hr] at hqueue
  cases hpend : b.pendingSubmissions with
  | nil =>
    rw [hpend] at hqueue
    exact absurd hqueue.within (by simp [Activity.consumed])
  | cons p rest =>
    rw [hpend] at hqueue
    have hbooked := hqueue.book
    have hclosed : ∀ {P : Prop}, b.phase = .shutdown → P := by
      intro P hp
      have hquiet := (quiescent_iff.mp (h.closed hp)).2.1
      rw [hpend] at hquiet
      cases hquiet
    have hlater : b.later = Books.later { b with activity := .returned all left submitted } := by
      unfold Books.later Books.unread
      rw [hr]
      rfl
    have houtstanding : b.outstanding =
        Books.outstanding { b with activity := .returned all left submitted } := by
      unfold Books.outstanding
      rw [← hlater]
    have hreading : 0 ≤ b.cq.length := Nat.zero_le _
    unfold Books.bookOne
    rw [hpend]
    by_cases hcancel : p.cancel = true
    · rw [if_pos hcancel] at hbooked
      simp only [hcancel, if_true]
      refine { h with tokens := ?_, queue := ?_, reading := hreading, closed := hclosed }
      · exact houtstanding ▸ h.tokens
      · exact hlater ▸ hbooked
    · rw [if_neg hcancel] at hbooked
      simp only [hcancel]
      have hrest : Inv o { b with
          pendingSubmissions := rest, activity := .returned all left submitted } := by
        refine { h with tokens := ?_, queue := ?_, reading := hreading, closed := hclosed }
        · exact houtstanding ▸ h.tokens
        · exact hlater ▸ hbooked
      exact hrest.markSubmitted (decodeIdentity p.userData)

/-! ## The completion loop -/

variable {left taken : Nat}

/-- The completion that is read next is the first of those not read. -/
theorem unread_cons (h : Inv o b) {cqe : Cqe}
    (hr : b.activity = .reading (left + 1) taken) (hpeek : b.cq.peek taken = some cqe) :
    b.unread = cqe :: b.cq.contents.drop (taken + 1) := by
  have hreading := h.reading
  rw [hr] at hreading
  have hlt : taken < b.cq.length := by
    simp only [Activity.left, Activity.read] at hreading
    omega
  rw [SharedRing.peek_contents hlt] at hpeek
  obtain ⟨hlen, rfl⟩ := List.getElem?_eq_some_iff.mp hpeek
  rw [Books.unread, hr]
  exact List.drop_eq_getElem_cons hlen

/-- What the invariant says once a completion has been read and before it is dealt with. -/
theorem Inv.read (h : Inv o b) {cqe : Cqe}
    (hr : b.activity = .reading (left + 1) taken) (hpeek : b.cq.peek taken = some cqe) :
    ∃ later outstanding,
      Books.later { b with activity := .reading left (taken + 1) } = later ∧
      Books.outstanding { b with activity := .reading left (taken + 1) } = outstanding ∧
      Tokens b.slots (cqe.tag :: outstanding) b.published b.accepted ∧
      Queue b.pendingSubmissions 0 b.sq.contents b.pendingCancelCompletions (cqe.tag :: later) ∧
      left + (taken + 1) ≤ b.cq.length := by
  have hunread := unread_cons h hr hpeek
  have hlater : b.later.Perm
      (cqe.tag :: Books.later { b with activity := .reading left (taken + 1) }) := by
    unfold Books.later
    rw [hunread, List.map_cons]
    exact List.perm_middle
  have houtstanding : b.outstanding.Perm
      (cqe.tag :: Books.outstanding { b with activity := .reading left (taken + 1) }) :=
    (hlater.append_left _).trans List.perm_middle
  have hqueue := h.queue
  have hreading := h.reading
  rw [hr] at hqueue hreading
  refine ⟨_, _, rfl, rfl, h.tokens.perm houtstanding, hqueue.perm hlater, ?_⟩
  simp only [Activity.left, Activity.read] at hreading
  omega

theorem Inv.complete (h : Inv o b) (ho : o.validated = true) {cqe : Cqe}
    (hr : b.activity = .reading (left + 1) taken) (hpeek : b.cq.peek taken = some cqe) :
    Inv o { b.complete cqe with activity := .reading left (taken + 1) } := by
  obtain ⟨later, outstanding, hlater, hout, htokens, hqueue, hreading⟩ := h.read hr hpeek
  obtain ⟨hwaited, hqueue⟩ := hqueue.read
  have hclosed := fun hp => quiescent_iff.mp (h.closed hp)
  have htag : isCancelCqe cqe.tag.userData = isCancelCqe cqe.userData := rfl
  rw [htag] at hwaited hqueue
  unfold Books.complete
  by_cases hcancel : isCancelCqe cqe.userData = true
  · have hpos := hwaited hcancel
    rw [if_pos hcancel] at hqueue
    rw [if_pos hcancel, if_pos hpos]
    refine { h with tokens := ?_, queue := ?_, reading := hreading, closed := ?_ }
    · show Tokens _ (Books.outstanding { b with activity := .reading left (taken + 1) }) _ _
      rw [hout]
      exact (Tokens.cancel hcancel).mp htokens
    · show Queue _ 0 _ _ (Books.later { b with activity := .reading left (taken + 1) })
      rw [hlater]
      exact hqueue
    · intro hp
      exact absurd (hclosed hp).2.2 hpos
  · have hop : isCancelCqe cqe.tag.userData = false := Bool.eq_false_iff.mpr hcancel
    rw [if_neg hcancel] at hqueue
    obtain ⟨i, slot, hi, ha, ht, hdata⟩ := htokens.find (.head _) hop
    have hidentity : decodeIdentity cqe.userData = slotIdentity i slot := by
      have hdata : cqe.userData = encodeIdentity (slotIdentity i slot) false := hdata
      rw [hdata, decodeIdentity_encode (h.table.packable ho hi)]
    have hslot := h.table.toNat_slot ho hi
    rw [if_neg hcancel, hidentity]
    simp only [currentSlot_slotIdentity h.table ho hi ha]
    unfold Books.publishTerminal
    simp only [hslot]
    refine { h with table := h.table.finish ho hi ha cqe.res, blocks := h.blocks.same hi nofun
                    numbers := h.numbers.finish hi ha _ _, tokens := ?_, queue := ?_
                    history := h.history.publish (h.tokens.recorded i slot hi ha) ht cqe.res
                    reading := hreading, closed := ?_ }
    · show Tokens _ (Books.outstanding { b with activity := .reading left (taken + 1) }) _ _
      rw [hout]
      exact htokens.finish hop hi ha ht cqe.res
    · show Queue _ 0 _ _ (Books.later { b with activity := .reading left (taken + 1) })
      rw [hlater]
      exact hqueue
    · intro hp
      obtain ⟨hactive, hrest⟩ := hclosed hp
      refine quiescent_iff.mpr ⟨?_, hrest⟩
      show b.activeOperations - 1 = 0
      omega

theorem Inv.finishReading (h : Inv o b) {taken : Nat} (hr : b.activity = .reading 0 taken) :
    Inv o { b with activity := .idle, cq := b.cq.advance taken } := by
  have hunread : Books.unread { b with activity := .idle, cq := b.cq.advance taken } = b.unread := by
    unfold Books.unread
    rw [hr]
    exact b.cq.advance_contents taken
  have hlater : Books.later { b with activity := .idle, cq := b.cq.advance taken } = b.later := by
    unfold Books.later
    rw [hunread]
  have hqueue := h.queue
  rw [hr] at hqueue
  refine { h with tokens := ?_, queue := ?_, reading := Nat.zero_le _ }
  · show Tokens _ (b.sq.contents.map Sqe.tag ++ Books.later { b with activity := .idle, cq := _ }) _ _
    rw [hlater]
    exact h.tokens
  · rw [hlater]
    exact hqueue

/-! ## The kernel -/

theorem Inv.post (h : Inv o b) {b' : Books} {index : Nat} {res : Int}
    (hpost : b.post index res = some b') : Inv o b' := by
  obtain ⟨sqe, hget, hrest⟩ := Option.bind_eq_some_iff.mp hpost
  obtain ⟨cq, hcq, hb⟩ := Option.bind_eq_some_iff.mp hrest
  obtain rfl := Option.some.inj hb
  obtain ⟨hlt, hsqe⟩ := List.getElem?_eq_some_iff.mp hget
  have hcontents := SharedRing.publish_contents hcq
  have hlength : cq.length = b.cq.length + 1 := by
    rw [← SharedRing.contents_length, hcontents, List.length_append, SharedRing.contents_length]
    rfl
  have hreading := h.reading
  -- the request leaves the kernel's list and its completion comes last in the ring
  have hlater : b.later.Perm
      (Books.later { b with inflight := b.inflight.eraseIdx index, cq := cq }) := by
    have hmove : (sqe :: b.inflight.eraseIdx index).Perm b.inflight := by
      rw [← hsqe]
      exact List.getElem_cons_eraseIdx_perm hlt
    show (b.inflight.map Sqe.tag ++ _).Perm
      ((b.inflight.eraseIdx index).map Sqe.tag ++ (cq.contents.drop b.activity.read).map Cqe.tag)
    rw [hcontents, List.drop_append_of_le_length (by rw [SharedRing.contents_length]; omega),
      List.map_append, ← List.append_assoc]
    refine ((hmove.map Sqe.tag).symm.append_right _).trans ?_
    exact (List.perm_append_singleton _ _).symm
  refine { h with tokens := h.tokens.perm (hlater.append_left _), aimed := ?_
                  queue := h.queue.perm hlater, reading := ?_ }
  · intro s hmem
    apply h.aimed
    rcases List.mem_append.mp hmem with hold | hold
    · exact List.mem_append_left _ hold
    · exact List.mem_append_right _ (List.mem_of_mem_eraseIdx hold)
  · show b.activity.left + b.activity.read ≤ cq.length
    omega

/-- The slots after a write are the slots with one of them written to. -/
theorem map_write {slots : List Slot} (h : Blocks slots) {i address : Nat}
    (hi : slots[i]? = some slot) (hh : slot.holds (some address) = true) (data : List UInt8) :
    (slots.map fun s => if s.holds (some address) then { s with storage := s.storage.write data }
      else s) = slots.set i { slot with storage := slot.storage.write data } := by
  apply List.ext_getElem?
  intro j
  rw [List.getElem?_map]
  by_cases hji : j = i
  · subst hji
    have hlt := (List.getElem?_eq_some_iff.mp hi).1
    rw [List.getElem?_set_self hlt, hi, Option.map_some, if_pos hh]
  · rw [List.getElem?_set_ne (Ne.symm hji)]
    cases hs : slots[j]? with
    | none => rfl
    | some s =>
      have hnot : s.holds (some address) = false := by
        apply Bool.eq_false_iff.mpr
        intro hhs
        exact hji (h address j s hs i slot hi hhs hh)
      rw [Option.map_some, hnot]
      rfl

theorem Inv.write (h : Inv o b) {b' : Books} {index : Nat} {data : List UInt8}
    (hwrite : b.write index data = some b') : Inv o b' := by
  unfold Books.write at hwrite
  split at hwrite
  · rename_i fd block off len userData token hget
    split at hwrite
    · obtain rfl := Option.some.inj hwrite
      have hmem := List.mem_of_getElem? hget
      obtain ⟨hop, operation, address, hacc, haddr, hblock⟩ :=
        h.aimed _ (List.mem_append_right _ hmem) rfl
      obtain rfl : block = some address := Address.block.inj haddr
      -- the operation is the one of an active slot, which holds the block
      have htag : Tag.mk userData token ∈ b.outstanding :=
        List.mem_append_right _ (List.mem_append_left _ (List.mem_map_of_mem hmem))
      obtain ⟨i, slot, hi, ha, ht, -⟩ := h.tokens.find htag hop
      obtain rfl : slot.token = token := ht
      have hrec := h.tokens.recorded i slot hi ha
      rw [hacc] at hrec
      have hheld : slot.storage.block = some address := by
        rw [Option.some.inj hrec] at hblock
        exact hblock
      have hholds : slot.holds (some address) = true := by
        simp [Slot.holds, ha, hheld]
      have hany : b.slots.any (·.holds (some address)) = true :=
        List.any_eq_true.mpr ⟨slot, List.mem_of_getElem? hi, hholds⟩
      rw [map_write h.blocks hi hholds data, hany]
      exact { h with
        table := h.table.same hi rfl rfl rfl
        blocks := h.blocks.same hi fun _ hh => hh
        numbers := h.numbers.same hi rfl rfl
        tokens := h.tokens.write hi ha data
        aimed := fun sqe hsqe => (h.aimed sqe hsqe).write _ _
        history := h.history.write (h.tokens.sole hi ha).1 data
        safe := by rw [h.safe]; rfl }
    · cases hwrite
  · cases hwrite

/-- The first ready notice still has its slot and its bytes, and is taken. -/
theorem Inv.take (h : Inv o b) {notice : Notice} {rest : List Notice}
    (hready : b.readyNotices = notice :: rest) :
    ∃ slot, b.slots[notice.identity.slot.toNat]? = some slot ∧ notice.identity.valid = true ∧
      slot.generation = notice.identity.generation ∧ slot.noticePending = true ∧
      notice.reservedBytes ≤ b.ownedBytes ∧
      Inv o { b with
        readyNotices := rest
        slots := b.slots.set notice.identity.slot.toNat { slot with noticePending := false }
        ownedBytes := b.ownedBytes - notice.reservedBytes
        taken := b.taken ++ [notice.spent] } := by
  have htable := h.table
  have hnumbers := h.numbers
  have hhistory := h.history
  rw [hready] at htable hnumbers hhistory
  obtain ⟨hvalid, slot, hi, hpend, hgen⟩ := htable.reserved notice (.head _)
  obtain ⟨hbytes, hnumbers⟩ := hnumbers.take hi
  refine ⟨slot, hi, hvalid, hgen, hpend, hbytes, ?_⟩
  exact { h with
    table := htable.take hi
    blocks := h.blocks.same hi fun _ hh => hh
    numbers := hnumbers
    tokens := h.tokens.same hi rfl rfl rfl
    history := hhistory.take }

end

/-! ## The steps of the machine -/

/-- What the last call returned is no error of the engine's own, and a drained shutdown has
shut the engine down. -/
structure Answer (s : State) : Prop where
  logic : ∀ what, s.result ≠ .threw (.logic what)
  drained : s.result = .shutdown .drained → s.books.phase = .shutdown

structure Good (o : Options) (s : State) : Prop where
  inv : Inv o s.books
  answer : Answer s

/-- The results that say nothing the invariant has to answer for. -/
def Result.plain : Result → Bool
  | .threw (.logic _) | .shutdown .drained => false
  | _ => true

section
variable {o : Options} {s s' : State}

theorem Answer.of_plain (h : s.result.plain = true) : Answer s where
  logic := by
    intro what hthrew
    rw [hthrew] at h
    cases h
  drained := by
    intro hdrained
    rw [hdrained] at h
    cases h

/-- A step that leaves the books and the result. -/
theorem Good.same (h : Good o s) (hb : s'.books = s.books) (hr : s'.result = s.result) :
    Good o s' where
  inv := hb ▸ h.inv
  answer :=
    { logic := fun what => hr ▸ h.answer.logic what
      drained := fun hd => hb ▸ h.answer.drained (hr ▸ hd) }

theorem Good.plain (h : Inv o s.books) (hr : s.result.plain = true) : Good o s :=
  ⟨h, .of_plain hr⟩

/-- The owner moves on in the books' loops. -/
theorem Good.inv_of (h : Good o s) (hinv : Inv o s'.books) (hr : s'.result = s.result)
    (hp : s'.books.phase = s.books.phase) : Good o s' where
  inv := hinv
  answer :=
    { logic := fun what => hr ▸ h.answer.logic what
      drained := fun hd => hp ▸ h.answer.drained (hr ▸ hd) }

theorem Inv.idle {b : Books} (h : Inv o b) (hc : b.activity.consumed = 0)
    (hr : b.activity.read = 0) : Inv o { b with activity := .idle } :=
  h.settle hc.symm hr.symm (Nat.zero_le _)

/-! ### Calls -/

theorem reject_good (h : Inv o s.books) (result : SubmissionResult) (metrics : Metrics) :
    Good o (s.reject result metrics) :=
  .plain h rfl

theorem findFreeSlot_some {slots : List Slot} {i : Nat} (h : findFreeSlot slots = some i) :
    ∃ slot, slots[i]? = some slot ∧ slot.active = false ∧ slot.noticePending = false := by
  obtain ⟨hlt, hfree, -⟩ := List.findIdx?_eq_some_iff_getElem.mp h
  simp only [Bool.and_eq_true, Bool.not_eq_true'] at hfree
  exact ⟨slots[i], List.getElem?_eq_getElem hlt, hfree.1, hfree.2⟩

theorem enqueueStored_good (h : Inv o s.books) (ho : o.validated = true)
    (hphase : s.books.phase = .running) {r : Request} {a : Allocation} (hvalid : r.invalid = false)
    (hroom : s.books.activeOperations + s.books.readyNotices.length < o.maxOperations)
    (hspace : s.books.sq.hasRoom = true) (hown : s.books.owns a.address = false) :
    Good o (s.enqueueStored o r a) := by
  unfold State.enqueueStored
  simp only
  split
  · exact reject_good h _ _
  · rename_i hbytes
    have hlimit : r.capacity a ≤ o.maxOwnedBytes - s.books.ownedBytes := by
      simp only [Bool.or_eq_true, decide_eq_true_eq, not_or] at hbytes
      omega
    split
    · exact reject_good h _ _
    · rename_i index hfree
      obtain ⟨slot, hi, hactive, hpending⟩ := findFreeSlot_some hfree
      have hget : s.books.slots.getD index {} = slot := by
        rw [List.getD_eq_getElem?_getD, hi]
        rfl
      rw [hget]
      split
      · -- the ring had room, and the kernel only makes more
        rename_i hnone
        have hsome := SharedRing.publish_isSome (r := s.books.sq)
          ((slot.start r a s.books.accepted.length).sqe index)
        rw [hnone, hspace] at hsome
        cases hsome
      · rename_i sq hsq
        exact .plain (h.accept ho hphase hi hactive hpending hvalid hroom hlimit hown hsq) rfl

theorem enqueueFresh_good (h : Inv o s.books) (ho : o.validated = true) {r : Request}
    {a : Allocation} (hs : s.enqueueFresh o r a = some s') : Good o s' := by
  unfold State.enqueueFresh at hs
  split at hs
  · cases hs
  · rename_i hown
    obtain rfl := Option.some.inj hs
    have hown : s.books.owns a.address = false := Bool.eq_false_iff.mpr hown
    unfold State.enqueue
    simp only
    split
    · exact reject_good h _ _
    · rename_i hquiescing
      split
      · exact reject_good h _ _
      · rename_i hshutdown
        have hphase : s.books.phase = .running := by
          cases hp : s.books.phase with
          | running => rfl
          | quiescing => exact absurd hp hquiescing
          | shutdown => exact absurd hp hshutdown
        split
        · exact reject_good h _ _
        · rename_i hvalid
          split
          · exact reject_good h _ _
          · split
            · exact reject_good h _ _
            · rename_i hroom
              split
              · exact reject_good h _ _
              · rename_i hspace
                exact enqueueStored_good h ho hphase (Bool.eq_false_iff.mpr hvalid) (by omega)
                  (by simpa using hspace) hown

/-- A cancel request leaves the result, the phase and the activity. -/
theorem cancel_inv (h : Inv o s.books) (ho : o.validated = true) (identity : OperationIdentity) :
    Inv o (s.cancel identity).1.books ∧ (s.cancel identity).1.result = s.result ∧
      (s.cancel identity).1.books.phase = s.books.phase := by
  unfold State.cancel
  simp only
  split
  · exact ⟨h, rfl, rfl⟩
  · rename_i hphase
    split
    · exact ⟨h, rfl, rfl⟩
    · rename_i slot hslot
      split
      · exact ⟨h, rfl, rfl⟩
      · split
        · exact ⟨h, rfl, rfl⟩
        · split
          · exact ⟨h, rfl, rfl⟩
          · rename_i sq hsq
            exact ⟨h.requestCancel ho hphase hslot hsq, rfl, rfl⟩

theorem takeNextNotice_good (h : Inv o s.books) : Good o s.takeNextNotice := by
  unfold State.takeNextNotice
  cases hready : s.books.readyNotices with
  | nil =>
    simp only [hready]
    exact .plain h rfl
  | cons notice rest =>
    obtain ⟨slot, hi, hvalid, hgen, hpend, hbytes, hinv⟩ := h.take hready
    have hcheck : (!notice.identity.valid || slot.generation != notice.identity.generation ||
        !slot.noticePending) = false := by
      rw [hvalid, hgen, hpend, bne_self_eq_false]
      rfl
    simp only [hready, hi, hcheck, Bool.false_eq_true, if_false, Nat.not_lt.mpr hbytes]
    exact .plain hinv rfl

theorem call_good (h : Inv o s.books) (ho : o.validated = true) (hnothing : s.result = .nothing)
    (c : Call) (hs : s.call o c = some s') : Good o s' := by
  have hplain : s.result.plain = true := by
    rw [hnothing]
    rfl
  cases c with
  | enqueueAccept listenSocket lease a => exact enqueueFresh_good h ho hs
  | enqueueConnect socket peer lease a => exact enqueueFresh_good h ho hs
  | enqueueRecv socket maximumBytes lease a => exact enqueueFresh_good h ho hs
  | enqueueSend socket payload lease a => exact enqueueFresh_good h ho hs
  | flush =>
    obtain rfl := Option.some.inj hs
    exact .plain h hplain
  | cancel identity =>
    obtain rfl := Option.some.inj hs
    exact .plain (cancel_inv h ho identity).1 rfl
  | wait timeout =>
    simp only [State.call] at hs
    split at hs <;> obtain rfl := Option.some.inj hs
    · exact .plain h rfl
    · exact .plain h hplain
  | takeNextNotice =>
    obtain rfl := Option.some.inj hs
    exact takeNextNotice_good h
  | beginQuiesce =>
    simp only [State.call] at hs
    split at hs <;> obtain rfl := Option.some.inj hs
    · exact .plain h hplain
    · exact .plain (h.setPhase nofun) hplain
  | shutdown timeout =>
    simp only [State.call] at hs
    split at hs
    · rename_i hphase
      obtain rfl := Option.some.inj hs
      exact ⟨h, nofun, fun _ => hphase⟩
    · obtain rfl := Option.some.inj hs
      exact .plain (h.setPhase nofun) hplain

/-! ### The owner's thread -/

theorem throw_good (h : Inv o s.books) (hc : s.books.activity.consumed = 0)
    (hr : s.books.activity.read = 0) {e : Exception} (he : ∀ what, e ≠ .logic what) :
    Good o (s.throw e) where
  inv := h.idle hc hr
  answer :=
    { logic := fun what hthrew => he what (Result.threw.inj hthrew)
      drained := nofun }

theorem flushed_good (h : Good o s) (hc : s.books.activity.consumed = 0)
    (hr : s.books.activity.read = 0) (all : Bool) (outcome : FlushOutcome) :
    Good o (s.flushed all outcome) := by
  have hidle := h.inv.idle hc hr
  unfold State.flushed
  simp only
  split
  · exact .plain hidle rfl
  · split
    · exact throw_good hidle rfl rfl nofun
    · split
      · exact throw_good hidle rfl rfl nofun
      · exact h.inv_of hidle rfl rfl

theorem cancelled_good (h : Good o s) (hc : s.books.activity.consumed = 0)
    (hr : s.books.activity.read = 0) (result : CancelResult) (next : List Frame) :
    Good o (s.cancelled result next) := by
  unfold State.cancelled
  split
  · exact h.same rfl rfl
  · exact throw_good h.inv hc hr nofun

theorem runFrame_good (h : Good o s) (ho : o.validated = true) (hidle : s.books.activity = .idle)
    (rest : List Frame) (frame : Frame) (hs : s.runFrame o rest frame = some s') : Good o s' := by
  have hc : s.books.activity.consumed = 0 := by rw [hidle]; rfl
  have hr : s.books.activity.read = 0 := by rw [hidle]; rfl
  have hcalling (all : Bool) : Inv o { s.books with activity := .calling all } :=
    h.inv.settle hc.symm hr.symm (Nat.zero_le _)
  -- a cancel request keeps the books' loops at rest
  have hcancel (identity : OperationIdentity) : Good o (s.cancel identity).1 := by
    obtain ⟨hinv, hresult, hphase⟩ := cancel_inv h.inv ho identity
    exact h.inv_of hinv hresult hphase
  have hrest (identity : OperationIdentity) :
      (s.cancel identity).1.books.activity = s.books.activity := by
    unfold State.cancel
    simp only
    repeat' split
    all_goals rfl
  cases frame with
  | flush =>
    simp only [State.runFrame] at hs
    split at hs <;> obtain rfl := Option.some.inj hs
    · exact .plain h.inv rfl
    · exact h.inv_of (hcalling false) rfl rfl
  | flushAllOrThrow =>
    simp only [State.runFrame] at hs
    split at hs <;> obtain rfl := Option.some.inj hs
    · exact h.same rfl rfl
    · exact h.inv_of (hcalling true) rfl rfl
  | drainCompletionQueue =>
    obtain rfl := Option.some.inj hs
    refine h.inv_of (h.inv.settle hc.symm hr.symm ?_) rfl rfl
    exact Nat.min_le_left _ _
  | pollIfIdle timeout =>
    simp only [State.runFrame] at hs
    split at hs <;> obtain rfl := Option.some.inj hs <;> exact h.same rfl rfl
  | driveQuiesce =>
    simp only [State.runFrame] at hs
    split at hs <;> obtain rfl := Option.some.inj hs <;> exact h.same rfl rfl
  | cancelFrom index =>
    simp only [State.runFrame] at hs
    split at hs
    · obtain rfl := Option.some.inj hs
      exact h.same rfl rfl
    · split at hs
      · obtain rfl := Option.some.inj hs
        exact h.same rfl rfl
      · split at hs <;> obtain rfl := Option.some.inj hs
        · exact (hcancel _).same rfl rfl
        · refine cancelled_good (hcancel _) ?_ ?_ _ _
          · rw [hrest, hc]
          · rw [hrest, hr]
  | cancelAgain index identity =>
    obtain rfl := Option.some.inj hs
    refine cancelled_good (hcancel _) ?_ ?_ _ _
    · rw [hrest, hc]
    · rw [hrest, hr]
  | returnProgress =>
    obtain rfl := Option.some.inj hs
    exact .plain h.inv rfl
  | untilQuiescent deadline =>
    simp only [State.runFrame] at hs
    split at hs
    · rename_i hquiescent
      obtain rfl := Option.some.inj hs
      exact ⟨h.inv.setPhase fun _ => hquiescent, nofun, fun _ => rfl⟩
    · obtain rfl := Option.some.inj hs
      exact h.same rfl rfl
  | polling timeout => cases hs
  | setDeadline timeout => cases hs
  | checkDeadline deadline => cases hs

theorem bookOne_phase (b : Books) : b.bookOne.phase = b.phase := by
  unfold Books.bookOne
  split
  · rfl
  · split <;> rfl

theorem complete_phase (b : Books) (cqe : Cqe) : (b.complete cqe).phase = b.phase := by
  unfold Books.complete
  split
  · split <;> rfl
  · simp only
    split <;> rfl

theorem run_good (h : Good o s) (ho : o.validated = true) (hs : s.run o = some s') : Good o s' := by
  unfold State.run at hs
  cases hactivity : s.books.activity with
  | calling all =>
    rw [hactivity] at hs
    cases hs
  | returned all left submitted =>
    rw [hactivity] at hs
    cases left with
    | zero =>
      obtain rfl := Option.some.inj hs
      refine flushed_good h ?_ ?_ _ _ <;> rw [hactivity] <;> rfl
    | succ left =>
      obtain rfl := Option.some.inj hs
      exact h.inv_of (h.inv.bookOne hactivity) rfl (bookOne_phase _)
  | reading left taken =>
    rw [hactivity] at hs
    cases left with
    | zero =>
      obtain rfl := Option.some.inj hs
      exact h.inv_of (h.inv.finishReading hactivity) rfl rfl
    | succ left =>
      simp only at hs
      split at hs
      · cases hs
      · rename_i cqe hpeek
        obtain rfl := Option.some.inj hs
        exact h.inv_of (h.inv.complete ho hactivity hpeek) rfl (complete_phase _ _)
  | idle =>
    rw [hactivity] at hs
    simp only at hs
    split at hs
    · cases hs
    · exact runFrame_good h ho hactivity _ _ hs

theorem enter_good (h : Good o s) (answer : EnterAnswer) (hs : s.enter answer = some s') :
    Good o s' := by
  unfold State.enter at hs
  split at hs
  · rename_i all n hcalling
    split at hs
    · rename_i hn
      obtain rfl := Option.some.inj hs
      exact h.inv_of (h.inv.consume hcalling (by omega)) rfl rfl
    · cases hs
  · rename_i all error hcalling
    split at hs
    · cases hs
    · split at hs <;> obtain rfl := Option.some.inj hs
      · exact h
      · refine flushed_good h ?_ ?_ _ _ <;> rw [hcalling] <;> rfl
  · cases hs

theorem poll_good (h : Good o s) (answer : PollAnswer) (hs : s.poll answer = some s') :
    Good o s' := by
  unfold State.poll at hs
  split at hs
  · rename_i timeout rest error hidle _
    split at hs <;> obtain rfl := Option.some.inj hs
    · exact h
    · refine throw_good h.inv ?_ ?_ nofun <;> rw [hidle] <;> rfl
  · obtain rfl := Option.some.inj hs
    exact h.same rfl rfl
  · obtain rfl := Option.some.inj hs
    exact h.same rfl rfl
  · cases hs

theorem clock_good (h : Good o s) (now : Int) (hs : s.clock now = some s') : Good o s' := by
  unfold State.clock at hs
  split at hs
  · obtain rfl := Option.some.inj hs
    exact h.same rfl rfl
  · split at hs
    · obtain rfl := Option.some.inj hs
      exact .plain h.inv rfl
    · simp only at hs
      split at hs <;> obtain rfl := Option.some.inj hs <;> exact h.same rfl rfl
  · cases hs

theorem step_good (h : Good o s) (ho : o.validated = true) (l : Label)
    (hs : step o s l = some s') : Good o s' := by
  cases l with
  | call c =>
    simp only [step] at hs
    split at hs
    · exact call_good (s := { s with result := .nothing }) h.inv ho rfl c hs
    · cases hs
  | run => exact run_good h ho hs
  | enter answer => exact enter_good h answer hs
  | poll answer => exact poll_good h answer hs
  | clock now => exact clock_good h now hs
  | write index data =>
    obtain ⟨b, hwrite, rfl⟩ := Option.map_eq_some_iff.mp hs
    refine h.inv_of (h.inv.write hwrite) rfl ?_
    unfold Books.write at hwrite
    split at hwrite
    · split at hwrite
      · obtain rfl := Option.some.inj hwrite
        rfl
      · cases hwrite
    · cases hwrite
  | post index res =>
    obtain ⟨b, hpost, rfl⟩ := Option.map_eq_some_iff.mp hs
    refine h.inv_of (h.inv.post hpost) rfl ?_
    obtain ⟨sqe, -, hrest⟩ := Option.bind_eq_some_iff.mp hpost
    obtain ⟨cq, -, hb⟩ := Option.bind_eq_some_iff.mp hrest
    obtain rfl := Option.some.inj hb
    rfl

theorem reach_good (h : Reach (Initial o) (step o) Any s) : Good o s ∧ o.validated = true := by
  refine Reach.invariant (P := fun s => Good o s ∧ o.validated = true) ?_ ?_ h
  · rintro s ⟨ho, sq, cq, hsq, hcq, rfl⟩
    exact ⟨.plain (start_inv o hsq hcq) rfl, ho⟩
  · intro s l s' hgood _ hs
    exact ⟨step_good hgood.1 hgood.2 l hs, hgood.2⟩

end

/-! ## The whole run -/

/-- The operations that are outstanding, each by its number. -/
def Books.operations (b : Books) : List Nat :=
  (b.outstanding.filter fun tag => !isCancelCqe tag.userData).map Tag.token

theorem count_operations (k : Nat) (tags : List Tag) :
    ((tags.filter fun tag => !isCancelCqe tag.userData).map Tag.token).count k =
      weight (Tag.of k) tags := by
  induction tags with
  | nil => rfl
  | cons tag tags ih =>
    rw [weight_cons, ← ih, Tag.of]
    by_cases hcancel : isCancelCqe tag.userData = true
    · rw [List.filter_cons_of_neg (by simp [hcancel]), if_neg (by simp [hcancel]), Nat.zero_add]
    · rw [List.filter_cons_of_pos (by simp [hcancel]), List.map_cons, List.count_cons]
      by_cases htoken : tag.token = k <;> simp [hcancel, htoken, Nat.add_comm]

theorem count_notices (k : Nat) (notices : List Notice) :
    (notices.map Notice.token).count k = weight (Notice.of k) notices := by
  induction notices with
  | nil => rfl
  | cons notice notices ih =>
    rw [weight_cons, ← ih, Notice.of, List.map_cons, List.count_cons]
    by_cases htoken : notice.token = k <;> simp [htoken, Nat.add_comm]

theorem weight_active (w : Slot → Nat) (slots : List Slot) :
    weight (fun slot => if slot.active then w slot else 0) slots =
      ((slots.filter (·.active)).map w).sum := by
  induction slots with
  | nil => rfl
  | cons slot slots ih =>
    rw [weight_cons, ih]
    by_cases ha : slot.active = true
    · rw [if_pos ha, List.filter_cons_of_pos ha, List.map_cons, List.sum_cons]
    · rw [if_neg ha, List.filter_cons_of_neg ha, Nat.zero_add]

section
variable {o : Options} {b : Books}

/-- Each accepted operation is outstanding or has its notice, once. -/
theorem Inv.partition (h : Inv o b) :
    (b.operations ++ b.published.map Notice.token).Perm (List.range b.accepted.length) := by
  apply List.perm_iff_count.mpr
  intro k
  have hsettled := h.tokens.settled k
  rw [← h.tokens.located k] at hsettled
  rw [List.count_append, Books.operations, count_operations, count_notices, hsettled]
  by_cases hk : k < b.accepted.length
  · rw [if_pos hk, List.count_eq_one_of_mem List.nodup_range (List.mem_range.mpr hk)]
  · rw [if_neg hk, List.count_eq_zero_of_not_mem (fun hmem => hk (List.mem_range.mp hmem))]

/-- Nothing is outstanding when the engine says that it is quiescent. -/
theorem Inv.outstanding_nil (h : Inv o b) (hq : b.quiescent = true) : b.outstanding = [] := by
  obtain ⟨hactive, hpending, hcancels⟩ := quiescent_iff.mp hq
  have hidle : b.activity.consumed = 0 := by
    have hwithin := h.queue.within
    rw [hpending] at hwithin
    exact Nat.le_zero.mp hwithin
  have hcounted := h.queue.counted
  have hqueued := h.queue.queued
  rw [hidle, hpending] at hqueued
  rw [hidle, hcancels] at hcounted
  have hsq : b.sq.contents = [] := by simpa using hqueued.symm
  have hlater : b.later = [] := by
    apply List.eq_nil_iff_forall_not_mem.mpr
    intro tag hmem
    rcases Bool.eq_false_or_eq_true (isCancelCqe tag.userData) with hcancel | hop
    · -- a cancel with the kernel is waited for
      have hle := le_weight cancelOne (List.mem_map_of_mem (f := Tag.userData) hmem)
      rw [← hcounted, cancelOne, if_pos hcancel] at hle
      simp at hle
    · -- an operation with the kernel has an active slot
      obtain ⟨i, slot, hi, ha, -, -⟩ := h.tokens.find (List.mem_append_right _ hmem) hop
      have hle := le_weight_get Slot.one hi
      rw [← h.numbers.counts, hactive, Slot.one, if_pos ha] at hle
      omega
  rw [Books.outstanding, hsq, hlater]
  rfl

end

/-- In every run, whatever the calls and the kernel do: every accepted operation is outstanding or
has one notice, which its own completion published and which delivers its own identity, kind, lease
and storage; notices are taken in the order of publication; the counters are what they count and
stay in their budgets; the engine finds no completion stale and no error of its own, and the
kernel writes only to the storage of active operations; a drained shutdown leaves nothing. -/
theorem delivered_exactly_once (o : Options) (s : State)
    (h : Reach (Initial o) (step o) Any s) :
    (s.books.operations ++ s.books.published.map Notice.token).Perm
        (List.range s.books.accepted.length) ∧
      s.books.published.map Notice.token = s.books.drained.map Cqe.token ∧
      (∀ cqe ∈ s.books.drained, (s.books.published.map Notice.token).count cqe.token = 1) ∧
      (∀ notice ∈ s.books.published, ∃ operation,
        s.books.accepted[notice.token]? = some operation ∧ Delivers operation notice) ∧
      s.books.published.map Notice.spent = s.books.taken ++ s.books.readyNotices.map Notice.spent ∧
      s.books.activeOperations = (s.books.slots.filter (·.active)).length ∧
      s.books.activeOperations + s.books.readyNotices.length ≤ o.maxOperations ∧
      s.books.ownedBytes = ((s.books.slots.filter (·.active)).map Slot.reservedBytes).sum +
        (s.books.readyNotices.map Notice.reservedBytes).sum ∧
      s.books.ownedBytes ≤ o.maxOwnedBytes ∧
      (∀ what, s.result ≠ .threw (.logic what)) ∧
      s.books.staleCqes = 0 ∧ s.books.strayWrite = false ∧
      (s.result = .shutdown .drained → s.books.activeOperations = 0 ∧
        s.books.pendingSubmissions = [] ∧ s.books.pendingCancelCompletions = 0 ∧
        s.books.outstanding = []) := by
  obtain ⟨⟨hinv, hanswer⟩, -⟩ := reach_good h
  have hpartition := hinv.partition
  have hcompleted := hinv.history.completed
  have hactive : s.books.activeOperations = (s.books.slots.filter (·.active)).length := by
    rw [hinv.numbers.counts]
    exact (weight_active (fun _ => 1) s.books.slots).trans (by simp)
  have howned : s.books.ownedBytes = ((s.books.slots.filter (·.active)).map Slot.reservedBytes).sum +
      (s.books.readyNotices.map Notice.reservedBytes).sum := by
    rw [hinv.numbers.sums]
    exact congrArg (· + _) (weight_active Slot.reservedBytes s.books.slots)
  refine ⟨hpartition, hcompleted, ?_, hinv.history.own, hinv.history.order, hactive,
    hinv.numbers.room, howned, hinv.numbers.limit, hanswer.logic, hinv.fresh, hinv.safe, ?_⟩
  · intro cqe hmem
    have hnodup : (s.books.operations ++ s.books.published.map Notice.token).Nodup :=
      hpartition.nodup_iff.mpr List.nodup_range
    apply List.count_eq_one_of_mem (List.nodup_append.mp hnodup).2.1
    rw [hcompleted]
    exact List.mem_map_of_mem hmem
  · intro hdrained
    have hquiet := hinv.closed (hanswer.drained hdrained)
    obtain ⟨hnone, hpending, hcancels⟩ := quiescent_iff.mp hquiet
    exact ⟨hnone, hpending, hcancels, hinv.outstanding_nil hquiet⟩

/-- Two slots and rings of two entries. -/
def smallEngine : Options :=
  { entries := 2, maxOperations := 2, maxBytesPerOperation := 8, maxOwnedBytes := 16 }

def smallRings : State :=
  start smallEngine (.empty 1 (by decide) {} 0xffffffff) (.empty 1 (by decide) {} 0)

/-- A receive is submitted and cancelled, and completes all the same; its cancel completes after
it. The engine is shut down with both completions read. -/
theorem delivered_exactly_once_cancelled :
    ∃ s, Reach (Initial smallEngine) (step smallEngine) Any s ∧
      s.books.taken.map (fun notice => notice.payload.bytes) = [[7, 9]] ∧
      (s.books.published.map Notice.token).count 0 = 1 ∧ s.books.outstanding = [] := by
  obtain ⟨s, hr, htaken, hdrained, hresult⟩ := Reach.of_run (Initial smallEngine)
    (step smallEngine) Any
    (fun s => s.books.taken.map (fun notice => notice.payload.bytes) = [[7, 9]] ∧
      s.books.drained.map Cqe.token = [0] ∧ s.result = .shutdown .drained) smallRings
    ⟨by decide, _, _, by simp, by simp, rfl⟩
    [.call (.enqueueRecv 5 4 none { address := 1 }), .call .flush, .run, .enter (.consumed 1), .run,
      .run, .call (.cancel { slot := 0, generation := 1 }), .call (.wait 0), .run,
      .enter (.consumed 1), .run, .run, .run, .write 0 [7, 9], .post 0 2, .post 0 (-2), .run, .run,
      .run, .run, .run, .run, .run, .call .takeNextNotice, .call (.shutdown 1), .run, .run, .run,
      .run, .run, .run, .clock 0, .run] (by decide +kernel)
  have hmem : ∃ cqe ∈ s.books.drained, cqe.token = 0 :=
    List.mem_map.mp (hdrained ▸ List.mem_singleton_self 0)
  obtain ⟨cqe, hcqe, htoken⟩ := hmem
  have hall := delivered_exactly_once smallEngine s hr
  have hcount := hall.2.2.1 cqe hcqe
  rw [htoken] at hcount
  exact ⟨s, hr, htaken, hcount, (hall.2.2.2.2.2.2.2.2.2.2.2.2 hresult).2.2.2⟩

end GameNet.IoUring
