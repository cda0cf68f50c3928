import GameNet.PacketFramer.Refinement

/- PacketFramer decodes what was encoded, however the stream is cut. The reference decides it:
   `Reference.decode` of a beginning of a stream of encoded payloads gives the first payloads and
   leaves a beginning of the encodings of the others. The framer follows by the refinement. -/
namespace GameNet.PacketFramer

/-! ## The length on the wire -/

theorem toNat_byte (n k : Nat) : (UInt8.ofNat ((n >>> k) &&& 0xff)).toNat = n / 2 ^ k % 256 := by
  rw [Nat.shiftRight_eq_div_pow, show (0xff : Nat) = 2 ^ 8 - 1 from rfl,
    Nat.and_two_pow_sub_one_eq_mod, UInt8.toNat_ofNat']
  omega

/-- The length is read back as it was written. -/
theorem bigEndian_appendLength {n : Nat} (hn : n ≤ 2 ^ 32 - 1) :
    ∃ b₀ b₁ b₂ b₃, appendLength n = [b₀, b₁, b₂, b₃] ∧ Reference.bigEndian b₀ b₁ b₂ b₃ = n := by
  refine ⟨_, _, _, _, rfl, ?_⟩
  have hlow := toNat_byte n 0
  rw [Nat.shiftRight_zero] at hlow
  rw [Reference.bigEndian, toNat_byte, toNat_byte, toNat_byte, hlow]
  omega

/-! ## Decoding a beginning of the stream -/

/-- The encodings of payloads, one after the other. -/
def wire (payloads : List (List UInt8)) : List UInt8 :=
  payloads.flatMap fun p => appendLength p.length ++ p

@[simp]
theorem wire_cons (p : List UInt8) (ps : List (List UInt8)) :
    wire (p :: ps) = appendLength p.length ++ (p ++ wire ps) := by
  rw [wire, List.flatMap_cons, List.append_assoc]
  rfl

theorem appendLength_length (n : Nat) : (appendLength n).length = kLengthBytes := rfl

theorem wire_length_drop (ps : List (List UInt8)) {k : Nat} (hk : ps.take k ≠ []) :
    (wire (ps.drop k)).length < (wire ps).length := by
  have hsplit : wire ps = wire (ps.take k) ++ wire (ps.drop k) := by
    rw [wire, wire, wire, ← List.flatMap_append, List.take_append_drop]
  rcases htake : ps.take k with _ | ⟨p, rest⟩
  · exact absurd htake hk
  · rw [hsplit, htake, wire_cons, List.length_append, List.length_append, appendLength_length]
    unfold kLengthBytes
    omega

/-- The first of the payloads has not come completely. -/
def Incomplete (unread : List UInt8) (ps : List (List UInt8)) : Prop :=
  ∀ p ∈ ps.head?, unread.length < kLengthBytes + p.length

/-- A beginning of the stream is decoded to the first payloads. -/
theorem decode_wire (o : Options) {ps : List (List UInt8)}
    (hps : ∀ p ∈ ps, p.length ≤ o.maxPayloadBytes) {unread later : List UInt8}
    (hwire : unread ++ later = wire ps) (processed : Nat) (frames : List (List UInt8)) :
    ∃ k stop rest, Reference.decode o processed frames unread = (stop, frames ++ ps.take k, rest) ∧
      rest ++ later = wire (ps.drop k) ∧ stop ≠ .frameTooLarge ∧
      (stop = .drained → Incomplete rest (ps.drop k)) ∧
      (stop = .budgetExhausted → ps.take k = [] → o.maxFramesPerPush ≤ frames.length ∨
        o.maxFrameBytesPerPush - processed < kLengthBytes + o.maxPayloadBytes) := by
  induction ps generalizing unread processed frames with
  | nil =>
    obtain ⟨rfl, rfl⟩ := List.append_eq_nil_iff.mp hwire
    exact ⟨0, .drained, [], by simp [Reference.decode], rfl, by simp, by simp [Incomplete], by simp⟩
  | cons p ps ih =>
    have hp := hps p (.head _)
    -- no payload is taken
    have hwait (hshort : unread.length < kLengthBytes + p.length) (frames : List (List UInt8)) :
        ∃ k stop rest, ((Stop.drained, frames, unread) : Stop × List (List UInt8) × List UInt8) =
            (stop, frames ++ (p :: ps).take k, rest) ∧
          rest ++ later = wire ((p :: ps).drop k) ∧ stop ≠ .frameTooLarge ∧
          (stop = .drained → Incomplete rest ((p :: ps).drop k)) ∧
          (stop = .budgetExhausted → (p :: ps).take k = [] → o.maxFramesPerPush ≤ frames.length ∨
            o.maxFrameBytesPerPush - processed < kLengthBytes + o.maxPayloadBytes) := by
      refine ⟨0, .drained, unread, by simp, hwire, by simp, fun _ q hq => ?_, by simp⟩
      cases hq
      exact hshort
    obtain ⟨b₀, b₁, b₂, b₃, hbytes, hlength⟩ :=
      bigEndian_appendLength (hp.trans o.payload_le)
    rw [wire_cons, hbytes] at hwire
    rcases unread with _ | ⟨c₀, _ | ⟨c₁, _ | ⟨c₂, _ | ⟨c₃, rest⟩⟩⟩⟩
    case cons.cons.cons.cons =>
      simp only [List.cons_append, List.cons.injEq, List.nil_append] at hwire
      obtain ⟨rfl, rfl, rfl, rfl, hrest⟩ := hwire
      rw [Reference.decode, hlength]
      rw [if_neg (not_lt.mpr hp)]
      by_cases hshort : rest.length < p.length
      · rw [if_pos hshort]
        exact hwait (by simp [kLengthBytes]; omega) frames
      rw [if_neg hshort]
      -- the whole payload is there
      obtain ⟨tail, rfl⟩ : ∃ tail, rest = p ++ tail := by
        refine ⟨rest.drop p.length, ?_⟩
        have htake := congrArg (List.take p.length) hrest
        rw [List.take_append_of_le_length (not_lt.mp hshort), List.take_left] at htake
        conv_lhs => rw [← List.take_append_drop p.length rest, htake]
      rw [List.append_assoc, List.append_cancel_left_eq] at hrest
      split_ifs with hbudget
      · refine ⟨0, .budgetExhausted, _, by rw [List.take_zero, List.append_nil], ?_, by simp, by simp,
          fun _ _ => ?_⟩
        · simp [hbytes, hrest]
        · exact hbudget.imp id fun h => by unfold kLengthBytes; omega
      · rw [List.take_left, List.drop_left]
        obtain ⟨k, stop, left, hdecode, hleft, hstop, hincomplete, hexhausted⟩ :=
          ih (fun q hq => hps q (.tail _ hq)) hrest
            (processed + (4 + p.length)) (frames ++ [p])
        refine ⟨k + 1, stop, left, ?_, hleft, hstop, hincomplete, by simp⟩
        rw [hdecode, List.append_assoc]
        rfl
    all_goals
      rw [Reference.decode]
      · exact hwait (by simp [kLengthBytes]; try omega) frames
      · simp

/-! ## Feeding chunks -/

/-- A push, and pushes of nothing while the answer asks for a continuation. The first argument is
    fuel, the second counts pushes. -/
def feed (o : Options) (allocs : Nat → Alloc) :
    Nat → Nat → Framer → List UInt8 → Option (Nat × Framer × List FrameResult)
  | 0, _, _, _ => none
  | fuel + 1, t, f, bytes =>
    (push o (allocs t) f bytes).bind fun (f, result) =>
      if result.needsContinuation then
        (feed o allocs fuel (t + 1) f []).map fun (t, f, results) => (t, f, result :: results)
      else some (t + 1, f, [result])

/-- All chunks in turn. -/
def transmit (o : Options) (allocs : Nat → Alloc) :
    Nat → Framer → List (List UInt8) → Option (Framer × List FrameResult)
  | _, f, [] => some (f, [])
  | t, f, chunk :: chunks =>
    (feed o allocs (f.bufferedBytes + chunk.length + 1) t f chunk).bind fun (t, f, results) =>
      (transmit o allocs t f chunks).map fun (f, later) => (f, results ++ later)

/-- Every chunk fits the limit of buffered bytes when it is pushed. -/
def Fits (o : Options) (allocs : Nat → Alloc) : Nat → Framer → List (List UInt8) → Prop
  | _, _, [] => True
  | t, f, chunk :: chunks =>
    f.bufferedBytes + chunk.length ≤ o.maxBufferedBytes ∧
      ∀ t' f' results, feed o allocs (f.bufferedBytes + chunk.length + 1) t f chunk =
        some (t', f', results) → Fits o allocs t' f' chunks

def FrameStatus.isFault : FrameStatus → Bool
  | .frameTooLarge | .bufferLimitExceeded | .faulted => true
  | _ => false

/-- No fault, and an exhausted budget was used for at least one frame. -/
def FrameResult.Useful (result : FrameResult) : Prop :=
  result.status.isFault = false ∧ (result.status = .budgetExhausted → result.frames ≠ [])

theorem answer_false_useful (frames : List (List UInt8)) : (answer false frames).Useful := by
  unfold answer FrameResult.Useful
  simp only [Bool.false_eq_true, if_false]
  split_ifs
  · exact ⟨rfl, nofun⟩
  · exact ⟨rfl, nofun⟩

/-- The reference has the beginning of the stream of `ps` that has come and was not decoded;
    `later` is to come. -/
structure Holding (o : Options) (f : Framer) (unread later : List UInt8)
    (ps : List (List UInt8)) : Prop where
  rep : Rep o f ⟨unread, false⟩
  payloads : ∀ p ∈ ps, p.length ≤ o.maxPayloadBytes
  stream : unread ++ later = wire ps

section
variable {o : Options} {f : Framer} {unread later : List UInt8} {ps : List (List UInt8)}

/-- One push of the next bytes of the stream. -/
theorem Holding.push {bytes : List UInt8} (h : Holding o f unread (bytes ++ later) ps)
    (hfits : f.bufferedBytes + bytes.length ≤ o.maxBufferedBytes) (alloc : Alloc) :
    ∃ f' rest k result, push o alloc f bytes = some (f', result) ∧
      Holding o f' rest later (ps.drop k) ∧ result.frames = ps.take k ∧ result.Useful ∧
      (result.needsContinuation = true → rest.length < unread.length + bytes.length) ∧
      (result.needsContinuation = false → Incomplete rest (ps.drop k)) := by
  obtain ⟨f', hpush, hrep⟩ := h.rep.push alloc bytes
  have hstream : (unread ++ bytes) ++ later = wire ps := by rw [List.append_assoc, h.stream]
  obtain ⟨k, stop, rest, hdecode, hrest, hstop, hincomplete, hexhausted⟩ :=
    decode_wire o h.payloads hstream 0 []
  rw [List.nil_append] at hdecode
  have hlength : unread.length = f.bufferedBytes := h.rep.length
  have hpayloads : ∀ p ∈ ps.drop k, p.length ≤ o.maxPayloadBytes :=
    fun p hp => h.payloads p (List.mem_of_mem_drop hp)
  have hanswer : Reference.push o ⟨unread, false⟩ bytes =
      (⟨rest, false⟩, answer (stop = .budgetExhausted) (ps.take k)) := by
    unfold Reference.push
    simp only [Bool.false_eq_true, if_false]
    rw [if_neg (by omega), hdecode]
    cases stop with
    | frameTooLarge => exact absurd rfl hstop
    | budgetExhausted => rfl
    | drained =>
      generalize ps.take k = frames
      cases frames <;> rfl
  rw [hanswer] at hpush hrep
  refine ⟨f', rest, k, _, hpush, ⟨hrep, hpayloads, hrest⟩, rfl, ?_⟩
  cases stop with
  | frameTooLarge => exact absurd rfl hstop
  | drained => exact ⟨answer_false_useful _, nofun, fun _ => hincomplete rfl⟩
  | budgetExhausted =>
    -- the budgets of a push allow at least one frame
    have htaken : ps.take k ≠ [] := fun hnone => by
      rcases hexhausted rfl hnone with hframes | hbytes
      · exact o.frames_ne (Nat.le_zero.mp hframes)
      · have := o.frameBytes_ge
        omega
    refine ⟨⟨rfl, fun _ => htaken⟩, fun _ => ?_, nofun⟩
    have hless := wire_length_drop ps htaken
    rw [← hrest, ← hstream] at hless
    simp only [List.length_append] at hless
    omega

/-- A chunk is pushed until no continuation is asked for. -/
theorem Holding.feed (allocs : Nat → Alloc) (fuel t : Nat) {bytes : List UInt8}
    (h : Holding o f unread (bytes ++ later) ps)
    (hfits : f.bufferedBytes + bytes.length ≤ o.maxBufferedBytes)
    (hfuel : f.bufferedBytes + bytes.length < fuel) :
    ∃ t' f' rest k results, feed o allocs fuel t f bytes = some (t', f', results) ∧
      Holding o f' rest later (ps.drop k) ∧ results.flatMap FrameResult.frames = ps.take k ∧
      (∀ result ∈ results, result.Useful) ∧ Incomplete rest (ps.drop k) := by
  induction fuel generalizing f unread ps bytes t with
  | zero => omega
  | succ fuel ih =>
    obtain ⟨f', rest, k, result, hpush, hnext, hframes, huseful, hmore, hdone⟩ :=
      h.push hfits (allocs t)
    have hlength : unread.length = f.bufferedBytes := h.rep.length
    have hleft : rest.length = f'.bufferedBytes := hnext.rep.length
    simp only [PacketFramer.feed, hpush, Option.bind_some]
    cases hcont : result.needsContinuation with
    | false =>
      refine ⟨_, f', rest, k, [result], rfl, hnext, ?_, ?_, hdone hcont⟩
      · rw [List.flatMap_singleton, hframes]
      · intro other hother
        rw [List.mem_singleton.mp hother]
        exact huseful
    | true =>
      have hless := hmore hcont
      obtain ⟨t', g, rest', k', results, hfeed, hg, hresults, hall, hincomplete⟩ :=
        ih (t + 1) (show Holding o f' rest ([] ++ later) (ps.drop k) from hnext)
          (by rw [List.length_nil]; omega) (by rw [List.length_nil]; omega)
      simp only [if_true, hfeed, Option.map_some]
      rw [List.drop_drop] at hg hincomplete
      refine ⟨t', g, rest', k + k', result :: results, rfl, hg, ?_, ?_, hincomplete⟩
      · rw [List.flatMap_cons, hframes, hresults, List.take_add]
      · intro other hother
        rcases List.mem_cons.mp hother with rfl | hother
        · exact huseful
        · exact hall other hother

theorem Holding.transmit (allocs : Nat → Alloc) {chunks : List (List UInt8)} {t : Nat}
    (h : Holding o f unread chunks.flatten ps) (hincomplete : Incomplete unread ps)
    (hfits : Fits o allocs t f chunks) :
    ∃ f' results, transmit o allocs t f chunks = some (f', results) ∧
      (∀ result ∈ results, result.Useful) ∧ results.flatMap FrameResult.frames = ps ∧
      f'.bufferedBytes = 0 := by
  induction chunks generalizing f unread ps t with
  | nil =>
    -- all has come, so nothing is incomplete
    have hstream := h.stream
    rw [List.flatten_nil, List.append_nil] at hstream
    have hlength : unread.length = f.bufferedBytes := h.rep.length
    cases ps with
    | nil =>
      refine ⟨f, [], rfl, nofun, rfl, ?_⟩
      rw [← hlength, hstream]
      rfl
    | cons p ps =>
      have hshort := hincomplete p rfl
      rw [hstream, wire_cons, List.length_append, List.length_append, appendLength_length] at hshort
      omega
  | cons chunk chunks ih =>
    rw [List.flatten_cons] at h
    obtain ⟨t', f', rest, k, results, hfeed, hnext, hframes, huseful, hrest⟩ :=
      h.feed allocs (f.bufferedBytes + chunk.length + 1) t hfits.1 (Nat.lt_succ_self _)
    obtain ⟨g, results', htransmit, huseful', hframes', hempty⟩ :=
      ih hnext hrest (hfits.2 t' f' results hfeed)
    refine ⟨g, results ++ results', ?_, ?_, ?_, hempty⟩
    · simp only [PacketFramer.transmit, hfeed, Option.bind_some, htransmit, Option.map_some]
    · intro result hresult
      rcases List.mem_append.mp hresult with hresult | hresult
      · exact huseful result hresult
      · exact huseful' result hresult
    · rw [List.flatMap_append, hframes, hframes', List.take_append_drop]

end

/-- What `encode` accepts is the length and the payload. -/
theorem encode_eq_some {o : Options} {payload bytes : List UInt8}
    (h : encode o payload = some bytes) :
    payload.length ≤ o.maxPayloadBytes ∧ bytes = appendLength payload.length ++ payload := by
  unfold encode at h
  split_ifs at h with hlarge
  cases h
  exact ⟨by omega, rfl⟩

theorem encode_wire {o : Options} {payloads encodings : List (List UInt8)}
    (h : List.Forall₂ (fun payload bytes => encode o payload = some bytes) payloads encodings) :
    (∀ p ∈ payloads, p.length ≤ o.maxPayloadBytes) ∧ encodings.flatten = wire payloads := by
  induction h with
  | nil => exact ⟨nofun, rfl⟩
  | cons hhead _ ih =>
    obtain ⟨hlength, rfl⟩ := encode_eq_some hhead
    refine ⟨fun p hp => ?_, ?_⟩
    · rcases List.mem_cons.mp hp with rfl | hp
      · exact hlength
      · exact ih.1 p hp
    · rw [List.flatten_cons, ih.2, wire_cons, List.append_assoc]

/-- Payloads are encoded, their encodings are cut into chunks that each fit when they are pushed,
    and every chunk is pushed until no continuation is asked for. No push faults, every exhausted
    budget gave a frame, the frames are the payloads, and nothing is left buffered. -/
theorem framer_round_trip (o : Options) (allocs : Nat → Alloc)
    {payloads encodings chunks : List (List UInt8)}
    (hencode : List.Forall₂ (fun payload bytes => encode o payload = some bytes) payloads encodings)
    (hcut : chunks.flatten = encodings.flatten) (hfits : Fits o allocs 0 {} chunks) :
    ∃ f results, transmit o allocs 0 {} chunks = some (f, results) ∧
      (∀ result ∈ results, result.status.isFault = false ∧
        (result.status = .budgetExhausted → result.frames ≠ [])) ∧
      results.flatMap FrameResult.frames = payloads ∧ f.bufferedBytes = 0 := by
  obtain ⟨hpayloads, hwire⟩ := encode_wire hencode
  have hstart : Holding o {} [] chunks.flatten payloads :=
    ⟨rep_init o, hpayloads, by rw [List.nil_append, hcut, hwire]⟩
  refine hstart.transmit allocs (fun p _ => ?_) hfits
  rw [List.length_nil]
  exact Nat.lt_of_lt_of_le (Nat.zero_lt_succ 3) (Nat.le_add_right _ _)

/-- Payloads of at most one byte, one frame a push, and storage for two frames. -/
def narrow : Options :=
  ⟨1, 10, 1, 5, 0, 0, by decide, by decide, by decide, by decide, by decide, by decide⟩

/-- An empty payload and a payload at the limit, cut inside a length and after the next one. -/
theorem framer_round_trip_narrow :
    Fits narrow (fun _ => {}) 0 {} [[0, 0], [0, 0, 0, 0, 0, 1, 7]] ∧
      ∃ f results, transmit narrow (fun _ => {}) 0 {} [[0, 0], [0, 0, 0, 0, 0, 1, 7]] =
          some (f, results) ∧
        (∀ result ∈ results, result.status.isFault = false ∧
          (result.status = .budgetExhausted → result.frames ≠ [])) ∧
        results.flatMap FrameResult.frames = [[], [7]] ∧ f.bufferedBytes = 0 := by
  have hencode : List.Forall₂ (fun payload bytes => encode narrow payload = some bytes)
      [[], [7]] [[0, 0, 0, 0], [0, 0, 0, 1, 7]] := .cons rfl (.cons rfl .nil)
  have hfits : Fits narrow (fun _ => {}) 0 {} [[0, 0], [0, 0, 0, 0, 0, 1, 7]] := by
    refine ⟨by decide, fun t f results hfeed => ⟨?_, fun _ _ _ _ => trivial⟩⟩
    have hfirst : (feed narrow (fun _ => {}) 3 0 {} [0, 0]).map (fun s => s.2.1.bufferedBytes) =
        some 2 := by decide +kernel
    rw [show feed narrow (fun _ => {}) 3 0 {} [0, 0] = some (t, f, results) from hfeed] at hfirst
    have hbuffered : f.bufferedBytes = 2 := Option.some.inj hfirst
    rw [hbuffered]
    decide
  exact ⟨hfits, framer_round_trip narrow (fun _ => {}) hencode rfl hfits⟩

end GameNet.PacketFramer
