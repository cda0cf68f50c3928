import GameNet.PacketFramer.Model

/- The circular storage of PacketFramer refines a queue of bytes. `Reference` keeps the unread
   bytes in a list and has its own rule for the length on the wire, for the budgets and for what is
   answered; `Rep o f r` says that the framer `f` holds the bytes of the reference `r`,
   within its limit. Each function of the framer keeps the representation, and `push` answers
   what the reference answers, whatever the allocator does. -/
namespace GameNet.PacketFramer

/-! ## The reference -/

structure Reference where
  unread : List UInt8 := []
  faulted : Bool := false

namespace Reference

theorem drop_lt_frame (rest : List UInt8) (n : Nat) : (rest.drop n).length < rest.length + 1 + 1 + 1 + 1 := by
  rw [List.length_drop]
  omega

/-- The first byte of a length is the most significant one. -/
def bigEndian (b₀ b₁ b₂ b₃ : UInt8) : Nat :=
  b₀.toNat * 2 ^ 24 + (b₁.toNat * 2 ^ 16 + (b₂.toNat * 2 ^ 8 + b₃.toNat))

/-- Frames from the front of the unread bytes, as far as the budgets of one push go. -/
def decode (o : Options) (processedFrameBytes : Nat) (frames : List (List UInt8)) :
    List UInt8 → Stop × List (List UInt8) × List UInt8
  | b₀ :: b₁ :: b₂ :: b₃ :: rest =>
    let payloadBytes := bigEndian b₀ b₁ b₂ b₃
    if payloadBytes > o.maxPayloadBytes then (.frameTooLarge, frames, b₀ :: b₁ :: b₂ :: b₃ :: rest)
    else if rest.length < payloadBytes then (.drained, frames, b₀ :: b₁ :: b₂ :: b₃ :: rest)
    else if o.maxFramesPerPush ≤ frames.length ∨
        o.maxFrameBytesPerPush < processedFrameBytes + (4 + payloadBytes) then
      (.budgetExhausted, frames, b₀ :: b₁ :: b₂ :: b₃ :: rest)
    else
      decode o (processedFrameBytes + (4 + payloadBytes)) (frames ++ [rest.take payloadBytes])
        (rest.drop payloadBytes)
  | unread => (.drained, frames, unread)
termination_by unread => unread.length
decreasing_by exact drop_lt_frame _ _

/-- Frames are ready if there are any; only an exhausted budget asks for a continuation. -/
def push (o : Options) (r : Reference) (bytes : List UInt8) : Reference × FrameResult :=
  if r.faulted then (r, ⟨.faulted, [], false⟩)
  else if r.unread.length + bytes.length > o.maxBufferedBytes then
    (⟨[], true⟩, ⟨.bufferLimitExceeded, [], false⟩)
  else
    match decode o 0 [] (r.unread ++ bytes) with
    | (.frameTooLarge, _, _) => (⟨[], true⟩, ⟨.frameTooLarge, [], false⟩)
    | (.budgetExhausted, frames, unread) => (⟨unread, false⟩, ⟨.budgetExhausted, frames, true⟩)
    | (.drained, [], unread) => (⟨unread, false⟩, ⟨.needMoreData, [], false⟩)
    | (.drained, frame :: frames, unread) => (⟨unread, false⟩, ⟨.framesReady, frame :: frames, false⟩)

end Reference

/-! ## The representation -/

/-- The framer holds the bytes of the reference. -/
structure Rep (o : Options) (f : Framer) (r : Reference) : Prop where
  fits : f.bufferedBytes ≤ f.storage.length
  bounded : f.storage.length ≤ o.maxBufferedBytes
  head : f.head ≤ f.storage.length
  unread : r.unread = Ring.window f.storage f.head f.bufferedBytes
  faulted : f.faulted = r.faulted
  cleared : r.faulted = true → r.unread = []

theorem rep_init (o : Options) : Rep o {} {} :=
  ⟨le_rfl, Nat.zero_le _, le_rfl, rfl, rfl, fun _ => rfl⟩

section
variable {o : Options} {f : Framer} {r : Reference}

theorem Rep.length (h : Rep o f r) : r.unread.length = f.bufferedBytes := by
  rw [h.unread, Ring.window_length h.fits]

/-- The bytes are at the front of the new vector. -/
theorem Rep.relocate (h : Rep o f r) {size : Nat} (hsize : f.bufferedBytes ≤ size) :
    ∃ s, f.relocate size = some s ∧ s.length = size ∧
      r.unread = Ring.window s 0 f.bufferedBytes := by
  unfold Framer.relocate
  simp only
  split_ifs with hempty
  · rw [Ring.readFrom_eq h.head h.fits, Option.bind_some, ← h.unread]
    have hlen := h.length
    refine ⟨_, if_pos (by rw [List.length_replicate]; omega), ?_, ?_⟩
    · simp
      omega
    · rw [Ring.window, List.rotate_zero, List.take_zero, List.nil_append,
        List.take_append_of_le_length hlen.ge, List.take_of_length_le hlen.le]
  · have hzero : f.bufferedBytes = 0 := not_not.mp hempty
    refine ⟨_, rfl, List.length_replicate, ?_⟩
    rw [h.unread, hzero, Ring.window_zero, Ring.window_zero]

theorem Rep.trimRetainedCapacity (h : Rep o f r) (alloc : Option Nat) :
    ∃ f' b, trimRetainedCapacity o alloc f = some (f', b) ∧ Rep o f' r := by
  unfold PacketFramer.trimRetainedCapacity
  split_ifs with hkeep
  · exact ⟨f, false, rfl, h⟩
  cases alloc with
  | none => exact ⟨f, false, rfl, h⟩
  | some slack =>
    have hsize : f.bufferedBytes ≤ o.maxRetainedCapacityBytes := by
      have := o.threshold_le
      omega
    obtain ⟨s, hs, hlen, hunread⟩ := h.relocate hsize
    refine ⟨_, true, by simp only [hs, Option.map_some]; rfl, ?_⟩
    exact ⟨hlen ▸ hsize, hlen ▸ o.retained_le, Nat.zero_le _, hunread, h.faulted, h.cleared⟩

theorem Rep.clearBuffer (h : Rep o f r) (alloc : Option Nat) :
    ∃ f', clearBuffer o alloc f = some f' ∧ Rep o f' ⟨[], r.faulted⟩ := by
  have hempty : Rep o { f with head := 0, bufferedBytes := 0 } ⟨[], r.faulted⟩ :=
    ⟨Nat.zero_le _, h.bounded, Nat.zero_le _, by rw [Ring.window_zero], h.faulted, fun _ => rfl⟩
  obtain ⟨f', b, htrim, hrep⟩ := hempty.trimRetainedCapacity alloc
  exact ⟨f', by rw [PacketFramer.clearBuffer, htrim]; rfl, hrep⟩

/-- A fault leaves the framer empty. -/
theorem Rep.fault (h : Rep o f ⟨[], false⟩) : Rep o { f with faulted := true } ⟨[], true⟩ :=
  ⟨h.fits, h.bounded, h.head, h.unread, rfl, fun _ => rfl⟩

theorem Rep.reset (h : Rep o f r) (alloc : Option Nat) :
    ∃ f', reset o alloc f = some f' ∧ Rep o f' {} := by
  obtain ⟨f', hclear, hrep⟩ := h.clearBuffer alloc
  refine ⟨{ f' with faulted := false }, by rw [PacketFramer.reset, hclear]; rfl, ?_⟩
  exact ⟨hrep.fits, hrep.bounded, hrep.head, hrep.unread, rfl, fun _ => rfl⟩

/-! ## Appending -/

/-- The growth loop ends with room for what is required, within the limit. -/
theorem grow_spec {required : Nat} (hlimit : required ≤ o.maxBufferedBytes) (fuel : Nat)
    {capacity : Nat} (hcap : capacity ≤ o.maxBufferedBytes)
    (hfuel : required - capacity < fuel) :
    ∃ grown, grow o required fuel capacity = some grown ∧ required ≤ grown ∧
      grown ≤ o.maxBufferedBytes := by
  induction fuel generalizing capacity with
  | zero => omega
  | succ fuel ih =>
    unfold grow
    simp only
    split_ifs with hless hfull
    · omega
    · exact ih (by omega) (by omega)
    · exact ⟨capacity, rfl, not_lt.mp hless, hcap⟩

theorem Rep.ensureRoom (h : Rep o f r) (slack : Nat) {required : Nat}
    (hrequired : f.bufferedBytes ≤ required) (hlimit : required ≤ o.maxBufferedBytes) :
    ∃ f', ensureRoom o slack f required = some f' ∧ Rep o f' r ∧
      f'.bufferedBytes = f.bufferedBytes ∧ required ≤ f'.storage.length := by
  unfold PacketFramer.ensureRoom
  by_cases hsmall : f.storage.length < required
  case neg => exact ⟨f, if_neg hsmall, h, rfl, not_lt.mp hsmall⟩
  rw [if_pos hsmall]
  have hstart : (if f.storage = [] then min 64 o.maxBufferedBytes else f.storage.length) ≤
      o.maxBufferedBytes := by
    split_ifs
    · exact Nat.min_le_right _ _
    · exact h.bounded
  obtain ⟨grown, hgrow, hle, hmax⟩ := grow_spec hlimit (required + 1) hstart (by omega)
  obtain ⟨s, hs, hlen, hunread⟩ := h.relocate (hrequired.trans hle)
  simp only [hgrow, Option.bind_some, hs, Option.map_some]
  refine ⟨_, rfl, ⟨?_, ?_, Nat.zero_le _, hunread, h.faulted, h.cleared⟩, rfl, ?_⟩
  · show f.bufferedBytes ≤ s.length
    omega
  · show s.length ≤ o.maxBufferedBytes
    omega
  · show required ≤ s.length
    omega

theorem Rep.appendBytes (h : Rep o f r) (slack : Nat) {bytes : List UInt8} (hne : bytes ≠ [])
    (hlimit : f.bufferedBytes + bytes.length ≤ o.maxBufferedBytes) (hfault : r.faulted = false) :
    ∃ f', appendBytes o slack f bytes = some f' ∧ Rep o f' ⟨r.unread ++ bytes, false⟩ := by
  obtain ⟨g, hroom, hg, hcount, hsize⟩ := h.ensureRoom slack (Nat.le_add_right _ _) hlimit
  have hpos : 0 < bytes.length := List.length_pos_of_ne_nil hne
  have htail : (g.head + g.bufferedBytes) % g.storage.length ≤ g.storage.length :=
    (Nat.mod_lt _ (by omega)).le
  obtain ⟨s, hwrite, hlen, hrot⟩ :=
    Ring.writeFrom_eq htail (show bytes.length ≤ g.storage.length by omega)
  rw [PacketFramer.appendBytes, hroom, Option.bind_some, Ring.index_eq (by omega), Option.bind_some,
    hwrite, Option.map_some]
  refine ⟨_, rfl, ?_, hlen ▸ hg.bounded, hlen ▸ hg.head, ?_, hg.faulted.trans hfault, nofun⟩
  · show g.bufferedBytes + bytes.length ≤ s.length
    omega
  · show r.unread ++ bytes = Ring.window s g.head (g.bufferedBytes + bytes.length)
    rw [Ring.window_write hlen (by omega) hrot, hg.unread]

/-! ## Decoding -/

theorem payloadLength_eq (b₀ b₁ b₂ b₃ : UInt8) :
    payloadLength b₀ b₁ b₂ b₃ = Reference.bigEndian b₀ b₁ b₂ b₃ := by
  have h₁ := b₁.toNat_lt
  have h₂ := b₂.toNat_lt
  have h₃ := b₃.toNat_lt
  unfold payloadLength Reference.bigEndian
  rw [Nat.or_assoc, Nat.or_assoc,
    ← Nat.shiftLeft_add_eq_or_of_lt (i := 8) (by omega), Nat.shiftLeft_eq b₂.toNat,
    ← Nat.shiftLeft_add_eq_or_of_lt (i := 16) (by omega), Nat.shiftLeft_eq b₁.toNat,
    ← Nat.shiftLeft_add_eq_or_of_lt (i := 24) (by omega), Nat.shiftLeft_eq]

theorem Rep.byteAt (h : Rep o f r) {offset : Nat} {b : UInt8} (hb : r.unread[offset]? = some b) :
    byteAt f offset = some b := by
  have hlt : offset < f.bufferedBytes := by
    rw [← h.length]
    exact (List.getElem?_eq_some_iff.mp hb).1
  have hfits := h.fits
  rw [PacketFramer.byteAt, if_pos hlt, Ring.index_eq (by omega), Option.bind_some,
    Ring.window_get hlt h.fits, ← h.unread]
  exact hb

theorem Rep.copyPayload (h : Rep o f r) {offset length : Nat}
    (hlen : offset + length ≤ f.bufferedBytes) :
    copyPayload f offset length = some ((r.unread.drop offset).take length) := by
  unfold PacketFramer.copyPayload
  split_ifs with hzero
  · rw [hzero, List.take_zero]
  · have hfits := h.fits
    have hbegin : (f.head + offset) % f.storage.length ≤ f.storage.length :=
      (Nat.mod_lt _ (by omega)).le
    rw [Ring.index_eq (by omega), Option.bind_some, Ring.readFrom_eq hbegin (by omega),
      Ring.window_slice hlen h.fits, ← h.unread]

/-- The loop over the storage is the loop over the unread bytes. -/
theorem Rep.decodeLoop (h : Rep o f r) (fuel : Nat) {consumed processed : Nat}
    {frames : List (List UInt8)} (hconsumed : consumed ≤ f.bufferedBytes)
    (hfuel : f.bufferedBytes - consumed < fuel) :
    ∃ stop consumed' frames',
      decodeLoop o f fuel consumed processed frames = some (stop, consumed', frames') ∧
      consumed' ≤ f.bufferedBytes ∧
      Reference.decode o processed frames (r.unread.drop consumed) =
        (stop, frames', r.unread.drop consumed') := by
  induction fuel generalizing consumed processed frames with
  | zero => omega
  | succ fuel ih =>
    have hlength : (r.unread.drop consumed).length = f.bufferedBytes - consumed := by
      rw [List.length_drop, h.length]
    unfold PacketFramer.decodeLoop
    rcases hdrop : r.unread.drop consumed with _ | ⟨b₀, _ | ⟨b₁, _ | ⟨b₂, _ | ⟨b₃, rest⟩⟩⟩⟩
    case cons.cons.cons.cons =>
      rw [hdrop] at hlength
      simp only [List.length_cons] at hlength
      have hbyte (i : Nat) : r.unread[consumed + i]? = (b₀ :: b₁ :: b₂ :: b₃ :: rest)[i]? := by
        rw [← hdrop, List.getElem?_drop]
      have hfirst : PacketFramer.byteAt f consumed = some b₀ := h.byteAt (hbyte 0)
      rw [if_pos (by unfold kLengthBytes; omega), hfirst, Option.bind_some,
        h.byteAt (hbyte 1), Option.bind_some, h.byteAt (hbyte 2), Option.bind_some,
        h.byteAt (hbyte 3), Option.bind_some, Reference.decode]
      rw [payloadLength_eq]
      generalize Reference.bigEndian b₀ b₁ b₂ b₃ = payloadBytes
      have hless : f.bufferedBytes - consumed < kLengthBytes + payloadBytes ↔
          rest.length < payloadBytes := by
        unfold kLengthBytes
        omega
      have hbudget : kLengthBytes + payloadBytes > o.maxFrameBytesPerPush - processed ↔
          o.maxFrameBytesPerPush < processed + (4 + payloadBytes) := by
        unfold kLengthBytes
        omega
      simp only [hless, hbudget, ge_iff_le]
      split_ifs with hlarge hshort hbudget
      · exact ⟨_, _, _, rfl, hconsumed, by rw [hdrop]⟩
      · exact ⟨_, _, _, rfl, hconsumed, by rw [hdrop]⟩
      · exact ⟨_, _, _, rfl, hconsumed, by rw [hdrop]⟩
      · have hrest : r.unread.drop (consumed + kLengthBytes) = rest := by
          rw [← List.drop_drop, hdrop]
          rfl
        have hnext : r.unread.drop (consumed + (kLengthBytes + payloadBytes)) =
            rest.drop payloadBytes := by
          rw [← Nat.add_assoc, ← List.drop_drop, hrest]
        have hroom : consumed + (kLengthBytes + payloadBytes) ≤ f.bufferedBytes := by
          unfold kLengthBytes
          omega
        rw [h.copyPayload (by omega), Option.bind_some, hrest, ← hnext]
        exact ih hroom (by unfold kLengthBytes at *; omega)
    all_goals
      rw [hdrop] at hlength
      simp only [List.length_cons, List.length_nil] at hlength
      rw [if_neg (by unfold kLengthBytes; omega)]
      refine ⟨_, _, _, rfl, hconsumed, ?_⟩
      rw [hdrop]
      simp [Reference.decode]

theorem Rep.consume (h : Rep o f r) (alloc : Option Nat) {bytes : Nat}
    (hne : bytes ≠ 0) (hbytes : bytes ≤ f.bufferedBytes) (hfault : r.faulted = false) :
    ∃ f', consume o alloc f bytes = some f' ∧ Rep o f' ⟨r.unread.drop bytes, false⟩ := by
  have hfits := h.fits
  unfold PacketFramer.consume
  rw [Ring.index_eq (by omega), Option.bind_some]
  have hrep : Rep o { f with
      head := if f.bufferedBytes - bytes = 0 then 0 else (f.head + bytes) % f.storage.length
      bufferedBytes := f.bufferedBytes - bytes } ⟨r.unread.drop bytes, false⟩ := by
    refine ⟨?_, h.bounded, ?_, ?_, h.faulted.trans hfault, nofun⟩
    · show f.bufferedBytes - bytes ≤ f.storage.length
      omega
    · show (if f.bufferedBytes - bytes = 0 then 0 else (f.head + bytes) % f.storage.length) ≤
        f.storage.length
      split_ifs
      · exact Nat.zero_le _
      · exact (Nat.mod_lt _ (by omega)).le
    · show r.unread.drop bytes = Ring.window f.storage _ (f.bufferedBytes - bytes)
      split_ifs with hempty
      · rw [hempty, Ring.window_zero]
        exact List.drop_of_length_le (by rw [h.length]; omega)
      · rw [Ring.window_drop hbytes h.fits, ← h.unread]
  obtain ⟨f', b, htrim, hrep'⟩ := hrep.trimRetainedCapacity alloc
  exact ⟨f', by simp only [htrim, Option.map_some], hrep'⟩

/-- A push answers what the reference answers. -/
theorem Rep.push (h : Rep o f r) (alloc : Alloc) (bytes : List UInt8) :
    ∃ f', push o alloc f bytes = some (f', (Reference.push o r bytes).2) ∧
      Rep o f' (Reference.push o r bytes).1 := by
  obtain ⟨unread, faulted⟩ := r
  have hlength : unread.length = f.bufferedBytes := h.length
  have hbound := h.fits.trans h.bounded
  unfold PacketFramer.push Reference.push
  rw [h.faulted, hlength]
  cases faulted with
  | true => exact ⟨f, rfl, h⟩
  | false =>
    simp only [Bool.false_eq_true, if_false]
    by_cases hlimit : f.bufferedBytes + bytes.length > o.maxBufferedBytes
    · rw [if_pos (by omega), if_pos hlimit]
      obtain ⟨f', hclear, hrep⟩ := h.clearBuffer alloc.first
      exact ⟨{ f' with faulted := true }, by rw [hclear]; rfl, hrep.fault⟩
    rw [if_neg (by omega), if_neg hlimit]
    -- the bytes are appended
    obtain ⟨g, happend, hg⟩ : ∃ g, (if bytes = [] then some f
        else PacketFramer.appendBytes o alloc.growth f bytes) = some g ∧
        Rep o g ⟨unread ++ bytes, false⟩ := by
      split_ifs with hempty
      · exact ⟨f, rfl, by rw [hempty, List.append_nil]; exact h⟩
      · exact h.appendBytes alloc.growth hempty (not_lt.mp hlimit) rfl
    obtain ⟨stop, consumed, frames, hloop, hconsumed, hdecode⟩ :=
      @Rep.decodeLoop _ _ _ hg (g.bufferedBytes + 1) 0 0 [] (Nat.zero_le _) (by omega)
    rw [List.drop_zero] at hdecode
    simp only [happend, Option.bind_some, hloop, hdecode]
    by_cases hlarge : stop = .frameTooLarge
    · obtain ⟨f', hclear, hrep⟩ := hg.clearBuffer alloc.first
      subst hlarge
      exact ⟨{ f' with faulted := true }, by rw [if_pos rfl, hclear]; rfl, hrep.fault⟩
    rw [if_neg hlarge]
    -- the frames are taken out
    obtain ⟨g', hconsume, hg'⟩ : ∃ g', (if consumed ≠ 0 then
        PacketFramer.consume o alloc.first g consumed else some g) = some g' ∧
        Rep o g' ⟨(unread ++ bytes).drop consumed, false⟩ := by
      split_ifs with hzero
      · exact hg.consume alloc.first hzero hconsumed rfl
      · exact ⟨g, rfl, by rw [not_not.mp hzero, List.drop_zero]; exact hg⟩
    obtain ⟨f', b, htrim, hrep⟩ := hg'.trimRetainedCapacity alloc.second
    rw [hconsume, Option.bind_some, htrim, Option.map_some]
    cases stop with
    | frameTooLarge => exact absurd rfl hlarge
    | budgetExhausted => exact ⟨f', rfl, hrep⟩
    | drained => cases frames <;> exact ⟨f', rfl, hrep⟩

end

/-! ## Runs -/

inductive Call where
  | push (bytes : List UInt8) (alloc : Alloc)
  | reset (alloc : Option Nat)
  | trimRetainedCapacity (alloc : Option Nat)

/-- One call and what a push answered. -/
def call (o : Options) (f : Framer) : Call → Option (Framer × List FrameResult)
  | .push bytes alloc => (push o alloc f bytes).map fun (f, result) => (f, [result])
  | .reset alloc => (reset o alloc f).map fun f => (f, [])
  | .trimRetainedCapacity alloc =>
    (trimRetainedCapacity o alloc f).map fun (f, _) => (f, [])

def run (o : Options) : Framer → List Call → Option (Framer × List FrameResult)
  | f, [] => some (f, [])
  | f, c :: calls =>
    (call o f c).bind fun (f, out) => (run o f calls).map fun (f, outs) => (f, out ++ outs)

def Reference.call (o : Options) (r : Reference) : Call → Reference × List FrameResult
  | .push bytes _ => ((push o r bytes).1, [(push o r bytes).2])
  | .reset _ => ({}, [])
  | .trimRetainedCapacity _ => (r, [])

def Reference.run (o : Options) : Reference → List Call → Reference × List FrameResult
  | r, [] => (r, [])
  | r, c :: calls =>
    let (r, out) := call o r c
    let (r, outs) := run o r calls
    (r, out ++ outs)

section
variable {o : Options} {f : Framer} {r : Reference}

theorem Rep.call (h : Rep o f r) (c : Call) :
    ∃ f', call o f c = some (f', (Reference.call o r c).2) ∧ Rep o f' (Reference.call o r c).1 := by
  cases c with
  | push bytes alloc =>
    obtain ⟨f', hpush, hrep⟩ := h.push alloc bytes
    exact ⟨f', by rw [PacketFramer.call, hpush]; rfl, hrep⟩
  | reset alloc =>
    obtain ⟨f', hreset, hrep⟩ := h.reset alloc
    exact ⟨f', by rw [PacketFramer.call, hreset]; rfl, hrep⟩
  | trimRetainedCapacity alloc =>
    obtain ⟨f', b, htrim, hrep⟩ := h.trimRetainedCapacity alloc
    exact ⟨f', by rw [PacketFramer.call, htrim]; rfl, hrep⟩

theorem Rep.run (h : Rep o f r) (calls : List Call) :
    ∃ f', run o f calls = some (f', (Reference.run o r calls).2) ∧
      Rep o f' (Reference.run o r calls).1 := by
  induction calls generalizing f r with
  | nil => exact ⟨f, rfl, h⟩
  | cons c calls ih =>
    obtain ⟨g, hcall, hg⟩ := h.call c
    obtain ⟨f', hrun, hrep⟩ := ih hg
    exact ⟨f', by simp only [PacketFramer.run, hcall, Option.bind_some, hrun]; rfl, hrep⟩

/-- Only a reset ends a fault. -/
theorem Rep.sticky (h : Rep o f r) (hfault : f.faulted = true) {c : Call}
    (hc : ∀ alloc, c ≠ .reset alloc) {f' : Framer} {out : List FrameResult}
    (hcall : PacketFramer.call o f c = some (f', out)) : f'.faulted = true := by
  obtain ⟨g, hg, hrep⟩ := h.call c
  rw [hg] at hcall
  cases hcall
  rw [hrep.faulted]
  have hr : r.faulted = true := h.faulted ▸ hfault
  cases c with
  | push bytes alloc => simp [Reference.call, Reference.push, hr]
  | reset alloc => exact absurd rfl (hc alloc)
  | trimRetainedCapacity alloc => exact hr

end

/-- After every sequence of calls, with every behaviour of the allocator, the framer has answered
    what a framer over a plain list of bytes answers, and buffers as many bytes; its storage is
    within its limit; it never divides by an empty storage, accesses a byte outside its bounds or
    loops for ever; and a fault leaves it empty until a reset. -/
theorem storage_refines_queue (o : Options) (calls : List Call) :
    ∃ f outs r, run o {} calls = some (f, outs) ∧ Reference.run o {} calls = (r, outs) ∧
      f.bufferedBytes = r.unread.length ∧ f.faulted = r.faulted ∧
      f.storage.length ≤ o.maxBufferedBytes ∧
      (f.faulted = true → f.bufferedBytes = 0 ∧
        (∀ bytes alloc, push o alloc f bytes = some (f, { status := .faulted })) ∧
        ∀ c, (∀ alloc, c ≠ .reset alloc) → ∀ f' out, call o f c = some (f', out) →
          f'.faulted = true) := by
  obtain ⟨f, hrun, hrep⟩ := (rep_init o).run calls
  refine ⟨f, _, _, hrun, rfl, hrep.length.symm, hrep.faulted, hrep.bounded, fun hfault => ?_⟩
  refine ⟨?_, fun bytes alloc => if_pos hfault, fun c hc f' out => hrep.sticky hfault hc⟩
  rw [← hrep.length, hrep.cleared (hrep.faulted ▸ hfault), List.length_nil]

end GameNet.PacketFramer
