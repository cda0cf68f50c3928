import GameNet.Buffer.Model

/- The Buffer is a queue of bytes.

   1. `Inv` is what holds of the indexes and of the capacity between calls; `Ends` says how a
      call ends that keeps it: what it returns, and which bytes are readable then.
   2. Each call has one lemma. Growth is the only one that can fail: `ensureWritableBytes` throws
      and changes nothing, or there is room and the readable bytes are the same, as long as the
      sum of the writer index and the length does not wrap. When it wraps, the storage is cut
      below the writer index.
   3. Every run of calls that find memory is a run of a plain queue (`refines_fifo`). -/
namespace GameNet.Buffer

open Machine (Reach Any)

/-! ## Arithmetic of sizes -/

theorem sizeAdd_eq {a b : Nat} (h : a + b < 2 ^ 64) : sizeAdd a b = a + b := Nat.mod_eq_of_lt h

theorem sizeSub_eq {a b : Nat} (h : b ≤ a) (ha : a < 2 ^ 64) : sizeSub a b = a - b := by
  unfold sizeSub
  omega

/-! ## Moving bytes -/

/-- A copy to a lower address: the bytes below the target stay, and the target gets the bytes the
source had before the copy, also where the two overlap. -/
theorem copyDown_eq : ∀ (n src dst : Nat) (l : List UInt8), dst ≤ src → src + n ≤ l.length →
    ∃ l', copyDown n src dst l = some l' ∧ l'.length = l.length ∧ l'.take dst = l.take dst ∧
      (l'.drop dst).take n = (l.drop src).take n := by
  intro n
  induction n with
  | zero =>
    intro src dst l _ _
    exact ⟨l, rfl, rfl, rfl, by simp⟩
  | succ n ih =>
    intro src dst l hle hlen
    have hsrc : src < l.length := by omega
    have hdst : dst < l.length := by omega
    obtain ⟨l', hcopy, hlength, htake, hslice⟩ :=
      ih (src + 1) (dst + 1) (l.set dst l[src]) (by omega) (by rw [List.length_set]; omega)
    rw [List.length_set] at hlength
    refine ⟨l', ?_, hlength, ?_, ?_⟩
    · rw [copyDown, List.getElem?_eq_getElem hsrc]
      simp only [hdst, if_true]
      exact hcopy
    · -- the first byte is written at the target, not below it
      have hbelow := congrArg (List.take dst) htake
      rw [List.take_take, List.take_take, Nat.min_eq_left (by omega)] at hbelow
      rw [hbelow, List.take_set_of_le (Nat.le_refl dst)]
    · have hfirst : l'[dst]? = some l[src] := by
        have hat := congrArg (fun x => x[dst]?) htake
        simp only [List.getElem?_take_of_lt (Nat.lt_succ_self dst)] at hat
        rw [hat, List.getElem?_set_self hdst]
      have hrest : ((l.set dst l[src]).drop (src + 1)).take n = (l.drop (src + 1)).take n := by
        rw [List.drop_set_of_lt (by omega)]
      obtain ⟨hlt', hget⟩ := List.getElem?_eq_some_iff.mp hfirst
      rw [List.drop_eq_getElem_cons hlt', List.take_succ_cons, hget, hslice, hrest,
        List.drop_eq_getElem_cons hsrc, List.take_succ_cons]

theorem overwrite_some {l d : List UInt8} {o : Nat} (h : o + d.length ≤ l.length) :
    Ring.overwrite l o d = some (l.take o ++ (d ++ l.drop (o + d.length))) := by
  rw [Ring.overwrite, if_pos h]

/-! ## The invariant -/

/-- The indexes are in order, the storage fits in memory, and a capacity above the retention
target is marked for a trim. -/
structure Inv (b : Buffer) : Prop where
  prepend : kCheapPrepend ≤ b.readerIndex
  order : b.readerIndex ≤ b.writerIndex
  within : b.writerIndex ≤ b.storage.length
  stored : b.storage.length ≤ b.capacity
  bounded : b.capacity ≤ maxSize
  armed : b.trimArmed = false → b.capacity ≤ b.options.maxRetainedCapacityBytes
  valid : b.options.validate = .ok ()

section
variable {b b' : Buffer} {o : RetentionOptions}

theorem validate_ok (h : o.validate = .ok ()) :
    kCheapPrepend + kInitialSize ≤ o.maxRetainedCapacityBytes ∧
      kCheapPrepend + o.trimThresholdBytes ≤ o.maxRetainedCapacityBytes := by
  unfold RetentionOptions.validate at h
  split at h
  · cases h
  · split at h
    · cases h
    · unfold kCheapPrepend kInitialSize at *
      omega

theorem create_inv (h : o.validate = .ok ()) : Inv (create o) := by
  have hmax := (validate_ok h).1
  refine ⟨Nat.le_refl _, Nat.le_refl _, ?_, ?_, ?_, fun _ => hmax, h⟩
  · show kCheapPrepend ≤ (List.replicate (kCheapPrepend + kInitialSize) (0 : UInt8)).length
    rw [List.length_replicate]
    exact Nat.le_add_right _ _
  · exact (List.length_replicate).le
  · show kCheapPrepend + kInitialSize ≤ maxSize
    decide

@[simp]
theorem create_readable (o : RetentionOptions) : (create o).readable = [] := by
  show ((create o).storage.drop kCheapPrepend).take (kCheapPrepend - kCheapPrepend) = []
  rw [Nat.sub_self, List.take_zero]

theorem Inv.size_lt (h : Inv b) : b.storage.length < 2 ^ 63 := by
  have hstored := h.stored
  have hbounded := h.bounded
  unfold maxSize at hbounded
  omega

theorem Inv.readableBytes (h : Inv b) : b.readableBytes = b.writerIndex - b.readerIndex :=
  sizeSub_eq h.order (by have := h.size_lt; have := h.within; omega)

theorem Inv.writableBytes (h : Inv b) : b.writableBytes = b.storage.length - b.writerIndex :=
  sizeSub_eq h.within (by have := h.size_lt; omega)

theorem Inv.length_readable (h : Inv b) : b.readable.length = b.writerIndex - b.readerIndex := by
  have hwithin := h.within
  have horder := h.order
  rw [readable, List.length_take, List.length_drop]
  omega

/-- The readable bytes, as the source counts them. -/
theorem Inv.readableBytes_length (h : Inv b) : b.readableBytes = b.readable.length := by
  rw [h.readableBytes, h.length_readable]

end

/-- A call on `b` ends well: it returns `v`, and the bytes `q` are readable. -/
structure Ends {α : Type} (b : Buffer) (r : Buffer × Outcome α) (q : List UInt8) (v : α) : Prop where
  out : r.2 = .returned v
  inv : Inv r.1
  bytes : r.1.readable = q
  options : r.1.options = b.options

theorem Ends.andThen_eq {α β : Type} {b : Buffer} {r : Buffer × Outcome α} {q : List UInt8} {v : α}
    (h : Ends b r q v) (f : Buffer → α → Buffer × Outcome β) : andThen r f = f r.1 v := by
  obtain ⟨b', out⟩ := r
  obtain rfl : out = .returned v := h.out
  rfl

theorem Ends.trans {α β : Type} {b : Buffer} {r : Buffer × Outcome α} {q q' : List UInt8} {v : α}
    {w : β} (h : Ends b r q v) {f : Buffer → α → Buffer × Outcome β} (hf : Ends r.1 (f r.1 v) q' w) :
    Ends b (andThen r f) q' w := by
  rw [h.andThen_eq]
  exact { hf with options := hf.options.trans h.options }

/-! ## Growth -/

section
variable {b : Buffer} {len n : Nat} {g : Growth}

/-- The growth of a vector that finds memory. -/
def Growth.Fits (g : Growth) (n : Nat) : Prop := n ≤ maxSize ∧ g ≠ .throws

/-- `len` more bytes fit into the storage once the readable ones are moved down, they fit into the
capacity, or the allocator has more. -/
def Room (b : Buffer) (len : Nat) (g : Growth) : Prop :=
  kCheapPrepend + b.readable.length + len ≤ b.storage.length ∨ b.writerIndex + len ≤ b.capacity ∨
    g.Fits (b.writerIndex + len)

theorem resize_of_le (hn : n ≤ b.capacity) :
    b.resize n g = ({ b with storage := b.storage.take n ++ List.replicate (n - b.storage.length) 0 },
      .returned ()) := if_pos hn

theorem resize_grow (h : Inv b) (hn : b.storage.length ≤ n) (g : Growth) :
    (b.capacity < n ∧ ¬g.Fits n ∧ ∃ e, b.resize n g = (b, .threw e)) ∨
      ∃ c, n ≤ c ∧ c ≤ maxSize ∧
        b.resize n g = ({ b with storage := b.storage ++ List.replicate (n - b.storage.length) 0
                                 capacity := c }, .returned ()) := by
  have hstorage : b.storage.take n = b.storage := List.take_of_length_le hn
  by_cases hcap : n ≤ b.capacity
  · rw [resize_of_le hcap, hstorage]
    exact .inr ⟨b.capacity, hcap, h.bounded, rfl⟩
  · unfold resize
    rw [hstorage, if_neg hcap]
    have hcap := Nat.not_le.mp hcap
    split
    · rename_i hmax
      exact .inl ⟨hcap, fun hfits => absurd hfits.1 (Nat.not_le.mpr hmax), _, rfl⟩
    · rename_i hmax
      cases g with
      | throws => exact .inl ⟨hcap, fun hfits => hfits.2 rfl, _, rfl⟩
      | spare k => exact .inr ⟨min (n + k) maxSize, by omega, Nat.min_le_right _ _, rfl⟩

/-- Bytes beyond the writer index are not readable. -/
theorem readable_congr {storage : List UInt8} (h : Inv b)
    (hs : storage.take b.writerIndex = b.storage.take b.writerIndex) :
    ({ b with storage := storage } : Buffer).readable = b.readable := by
  have horder := h.order
  have hcut (l : List UInt8) : (l.drop b.readerIndex).take (b.writerIndex - b.readerIndex) =
      (l.take b.writerIndex).drop b.readerIndex := by
    rw [List.drop_take]
  show (storage.drop b.readerIndex).take (b.writerIndex - b.readerIndex) = _
  rw [readable, hcut, hcut, hs]

theorem grow_ends (h : Inv b) (hlen : b.storage.length - b.writerIndex < len) {c : Nat}
    (hle : b.writerIndex + len ≤ c) (hc : c ≤ maxSize) :
    Ends b
      (({ b with
          storage := b.storage ++ List.replicate (b.writerIndex + len - b.storage.length) 0
          capacity := c } : Buffer).updateRetentionState, .returned ()) b.readable () := by
  have hwithin := h.within
  refine ⟨rfl, ⟨h.prepend, h.order, ?_, ?_, hc, ?_, h.valid⟩, ?_, rfl⟩
  · show b.writerIndex ≤ (b.storage ++ _).length
    rw [List.length_append]
    omega
  · show (b.storage ++ _).length ≤ c
    rw [List.length_append, List.length_replicate]
    omega
  · intro hidle
    have hidle : (b.trimArmed || decide (c > b.options.maxRetainedCapacityBytes)) = false := hidle
    simp only [Bool.or_eq_false_iff, decide_eq_false_iff_not] at hidle
    exact Nat.not_lt.mp hidle.2
  · refine readable_congr h ?_
    exact List.take_append_of_le_length h.within

/-- The readable bytes are put behind the prepended part of a storage. -/
theorem placed_ends {α : Type} {v : α} (h : Inv b) {b' : Buffer}
    (hreader : b'.readerIndex = kCheapPrepend)
    (hwriter : b'.writerIndex = sizeAdd kCheapPrepend b.readableBytes)
    (hslice : (b'.storage.drop kCheapPrepend).take b.readableBytes =
      (b.storage.drop b.readerIndex).take b.readableBytes)
    (hroom : kCheapPrepend + b.readableBytes ≤ b'.storage.length)
    (hstored : b'.storage.length ≤ b'.capacity) (hbounded : b'.capacity ≤ maxSize)
    (harmed : b'.trimArmed = false → b'.capacity ≤ b'.options.maxRetainedCapacityBytes)
    (hoptions : b'.options = b.options) : Ends b (b', .returned v) b.readable v := by
  rw [sizeAdd_eq (by unfold maxSize at hbounded; omega)] at hwriter
  refine ⟨rfl, ⟨hreader.ge, ?_, ?_, hstored, hbounded, harmed, hoptions ▸ h.valid⟩, ?_, hoptions⟩
  · rw [hreader, hwriter]
    exact Nat.le_add_right _ _
  · rw [hwriter]
    exact hroom
  · rw [readable, readable, hreader, hwriter, Nat.add_sub_cancel_left, hslice, h.readableBytes]

/-- There is room for `len` bytes, or the growth has thrown and nothing has changed. -/
theorem makeSpace_ends (h : Inv b) (hlen : b.writableBytes < len)
    (hwrap : b.writerIndex + len < 2 ^ 64) (g : Growth) :
    (¬b.Room len g ∧ ∃ e, b.makeSpace len g = (b, .threw e)) ∨
      (Ends b (b.makeSpace len g) b.readable () ∧
        len ≤ (b.makeSpace len g).1.storage.length - (b.makeSpace len g).1.writerIndex) := by
  have hprepend := h.prepend
  have horder := h.order
  have hwithin := h.within
  have hsize := h.size_lt
  have hwritable := h.writableBytes
  have hreadable := h.readableBytes
  have hroom : sizeSub (sizeAdd b.writableBytes b.prependableBytes) kCheapPrepend =
      b.storage.length - b.writerIndex + b.readerIndex - kCheapPrepend := by
    rw [hwritable, prependableBytes, sizeAdd_eq (by omega), sizeSub_eq (by omega) (by omega)]
  unfold makeSpace
  rw [hroom, sizeAdd_eq hwrap]
  split
  · rcases resize_grow h (show b.storage.length ≤ b.writerIndex + len by omega) g with
      ⟨hcap, hfits, e, hresize⟩ | ⟨c, hle, hc, hresize⟩
    · refine .inl ⟨?_, e, by rw [hresize]; rfl⟩
      rw [Room, ← h.readableBytes_length, or_iff_right (by omega), or_iff_right (by omega)]
      exact hfits
    · rw [hresize]
      refine .inr ⟨grow_ends h (by omega) hle hc, ?_⟩
      show len ≤ (b.storage ++ List.replicate _ 0).length - b.writerIndex
      rw [List.length_append, List.length_replicate]
      omega
  · rename_i hfits
    obtain ⟨storage, hcopy, hlength, -, hslice⟩ := copyDown_eq b.readableBytes b.readerIndex
      kCheapPrepend b.storage hprepend (by omega)
    simp only [hcopy]
    refine .inr ⟨placed_ends h rfl rfl hslice (by show _ ≤ storage.length; omega)
      (hlength ▸ h.stored) h.bounded h.armed rfl, ?_⟩
    show len ≤ storage.length - sizeAdd kCheapPrepend b.readableBytes
    rw [sizeAdd_eq (by omega)]
    omega

theorem ensureWritableBytes_ends (h : Inv b) (hwrap : b.writerIndex + len < 2 ^ 64) (g : Growth) :
    (¬b.Room len g ∧ ∃ e, b.ensureWritableBytes len g = (b, .threw e)) ∨
      (Ends b (b.ensureWritableBytes len g) b.readable () ∧
        len ≤ (b.ensureWritableBytes len g).1.storage.length -
          (b.ensureWritableBytes len g).1.writerIndex) := by
  unfold ensureWritableBytes
  split
  · rename_i hlen
    exact makeSpace_ends h hlen hwrap g
  · rename_i hlen
    refine .inr ⟨⟨rfl, h, rfl, rfl⟩, ?_⟩
    rw [h.writableBytes] at hlen
    exact Nat.not_lt.mp hlen

/-- The buffer with `data` behind the readable bytes. -/
def filled (b : Buffer) (data : List UInt8) : Buffer :=
  { b with storage := b.storage.take b.writerIndex ++
      (data ++ b.storage.drop (b.writerIndex + data.length)) }

variable {data : List UInt8}

theorem fill_eq (h : Inv b)
    (hroom : data.length ≤ b.storage.length - b.writerIndex) :
    b.fill data = (b.filled data, .returned ()) ∧
      (b.filled data).storage.length = b.storage.length := by
  have hwithin := h.within
  constructor
  · rw [fill, overwrite_some (by omega)]
    rfl
  · show (_ ++ (data ++ _)).length = _
    rw [List.length_append, List.length_append, List.length_take, List.length_drop]
    omega

/-- The first `n` of the bytes behind the readable ones are counted in. -/
theorem filled_ends {α : Type} (h : Inv b)
    (hroom : data.length ≤ b.storage.length - b.writerIndex) (hn : n ≤ data.length) (v : α) :
    Ends b ({ b.filled data with writerIndex := b.writerIndex + n }, .returned v)
      (b.readable ++ data.take n) v := by
  have horder := h.order
  have hwithin := h.within
  have hlength := (fill_eq h hroom).2
  refine ⟨rfl, ⟨h.prepend, Nat.le_add_right_of_le horder, ?_, ?_, h.bounded, h.armed, h.valid⟩, ?_, rfl⟩
  · show b.writerIndex + n ≤ (b.filled data).storage.length
    omega
  · show (b.filled data).storage.length ≤ b.capacity
    rw [hlength]
    exact h.stored
  · -- the cut between the two parts is at the old writer index
    have hpre : (b.storage.take b.writerIndex).length = b.writerIndex := by
      rw [List.length_take]
      omega
    have hfront : ((b.storage.drop b.readerIndex).take (b.writerIndex - b.readerIndex)).length ≤
        b.writerIndex + n - b.readerIndex := by
      rw [List.length_take, List.length_drop]
      omega
    show ((b.storage.take b.writerIndex ++ (data ++ _)).drop b.readerIndex).take
      (b.writerIndex + n - b.readerIndex) = _
    rw [List.drop_append_of_le_length (by omega), List.take_append, List.drop_take,
      List.length_take, List.length_drop, List.take_of_length_le hfront,
      List.take_append_of_le_length (by omega)]
    congr 2
    omega

theorem fill_hasWritten_ends (h : Inv b)
    (hroom : data.length ≤ b.storage.length - b.writerIndex) (hn : n ≤ data.length) :
    Ends b (andThen (b.fill data) fun b _ => b.hasWritten n) (b.readable ++ data.take n) () := by
  have hwithin := h.within
  have hsize := h.size_lt
  obtain ⟨hfill, hlength⟩ := fill_eq h hroom
  have hwritable : (b.filled data).writableBytes = b.storage.length - b.writerIndex := by
    show sizeSub (b.filled data).storage.length b.writerIndex = _
    rw [hlength, sizeSub_eq hwithin (by omega)]
  rw [hfill]
  show Ends b ((b.filled data).hasWritten n) _ ()
  unfold hasWritten
  rw [hwritable, if_neg (by omega)]
  show Ends b ({ b.filled data with writerIndex := sizeAdd b.writerIndex n }, .returned ()) _ ()
  rw [sizeAdd_eq (by omega)]
  exact filled_ends h hroom hn ()

/-- Bytes are appended, or the growth has thrown and nothing has changed. -/
theorem append_ends (h : Inv b) (hdata : data.length ≤ maxSize) (g : Growth) :
    (¬b.Room data.length g ∧ ∃ e, b.append (.bytes data) g = (b, .threw e)) ∨
      Ends b (b.append (.bytes data) g) (b.readable ++ data) () := by
  have hwithin := h.within
  have hsize := h.size_lt
  unfold append
  simp only
  split
  · rename_i hnil
    obtain rfl := List.length_eq_zero_iff.mp hnil
    exact .inr ⟨rfl, h, (List.append_nil _).symm, rfl⟩
  · have hwrap : b.writerIndex + data.length < 2 ^ 64 := by
      unfold maxSize at hdata
      omega
    rcases ensureWritableBytes_ends h hwrap g with ⟨hfits, e, heq⟩ | ⟨hends, hroom⟩
    · exact .inl ⟨hfits, e, by rw [heq]; rfl⟩
    · refine .inr (hends.trans ?_)
      have hfilled := fill_hasWritten_ends hends.inv hroom (Nat.le_refl data.length)
      rw [hends.bytes, List.take_length] at hfilled
      exact hfilled

/-! ## Retrieval -/

theorem slice_some {l : List UInt8} {o k : Nat} (h : o + k ≤ l.length) :
    Ring.slice l o k = some ((l.drop o).take k) := if_pos h

/-- A trim that is due and finds memory brings the storage back to the retention target; one that
is not leaves the buffer alone. -/
theorem trim_ends (h : Inv b) (allocated : Bool) :
    ∃ replaced, Ends b (b.trimRetainedCapacity allocated) b.readable replaced ∧
      (replaced = false → (b.trimRetainedCapacity allocated).1 = b) ∧
      (allocated = true → b.options.maxRetainedCapacityBytes ≤ maxSize →
        b.readable.length ≤ b.options.trimThresholdBytes → b.trimArmed = replaced) ∧
      (replaced = true →
        (b.trimRetainedCapacity allocated).1.storage.length = b.options.maxRetainedCapacityBytes ∧
        (b.trimRetainedCapacity allocated).1.capacity = b.options.maxRetainedCapacityBytes ∧
        (b.trimRetainedCapacity allocated).1.trimArmed = false) := by
  have hkeep : Ends b (b, .returned false) b.readable false := ⟨rfl, h, rfl, rfl⟩
  unfold trimRetainedCapacity
  split
  · rename_i hidle
    refine ⟨false, hkeep, fun _ => rfl, ?_, nofun⟩
    intro _ _ hthreshold
    rw [← h.readableBytes_length] at hthreshold
    simp only [Bool.or_eq_true, Bool.not_eq_true', decide_eq_true_eq] at hidle
    rcases hidle with hidle | habove
    · exact hidle
    · omega
  · rename_i hdue
    split
    · rename_i hfails
      refine ⟨false, hkeep, fun _ => rfl, ?_, nofun⟩
      intro hallocated hmax _
      simp only [hallocated, Bool.not_true, Bool.false_or, decide_eq_true_eq] at hfails
      omega
    · rename_i hfits
      simp only [Bool.or_eq_true, Bool.not_eq_true', decide_eq_true_eq, not_or,
        Bool.not_eq_false] at hdue hfits
      obtain ⟨hprepended, hthreshold⟩ := validate_ok h.valid
      have hreadable := h.readableBytes
      have hwithin := h.within
      have horder := h.order
      have hbytes : ((b.storage.drop b.readerIndex).take b.readableBytes).length = b.readableBytes := by
        rw [List.length_take, List.length_drop]
        omega
      have hslice := slice_some (show b.readerIndex + b.readableBytes ≤ b.storage.length by omega)
      have hover := overwrite_some (l := List.replicate b.options.maxRetainedCapacityBytes 0)
        (o := kCheapPrepend) (d := (b.storage.drop b.readerIndex).take b.readableBytes)
        (by rw [hbytes, List.length_replicate]; omega)
      have hlength : ((List.replicate b.options.maxRetainedCapacityBytes (0 : UInt8)).take kCheapPrepend ++
          ((b.storage.drop b.readerIndex).take b.readableBytes ++
            (List.replicate b.options.maxRetainedCapacityBytes 0).drop (kCheapPrepend +
              ((b.storage.drop b.readerIndex).take b.readableBytes).length))).length =
          b.options.maxRetainedCapacityBytes := by
        simp only [List.length_append, List.length_take, List.length_drop, List.length_replicate]
        omega
      simp only [hslice, hover]
      refine ⟨true, placed_ends h rfl rfl ?_ ?_ ?_ ?_ (fun _ => List.length_replicate.le) rfl,
        nofun, fun _ _ _ => hdue.1, fun _ => ⟨hlength, List.length_replicate, ?_⟩⟩
      · have hfront : ((List.replicate b.options.maxRetainedCapacityBytes (0 : UInt8)).take
            kCheapPrepend).length = kCheapPrepend := by
          rw [List.length_take, List.length_replicate]
          omega
        show List.take _ (List.drop kCheapPrepend (_ ++ (_ ++ _))) = _
        rw [List.drop_append, hfront, Nat.sub_self, List.drop_of_length_le hfront.le,
          List.nil_append, List.drop_zero, List.take_append_of_le_length hbytes.ge,
          List.take_of_length_le hbytes.le]
      · show kCheapPrepend + b.readableBytes ≤ List.length _
        rw [hlength]
        omega
      · show List.length _ ≤ List.length _
        rw [hlength, List.length_replicate]
      · show List.length _ ≤ maxSize
        rw [List.length_replicate]
        exact Nat.not_lt.mp hfits.2
      · exact decide_eq_false (by rw [List.length_replicate]; exact Nat.lt_irrefl _)

/-- What a retrieval leaves behind when its trim finds memory: a storage at most as large as
the retention target, and exactly as large if it had outgrown it. -/
def Trimmed (b : Buffer) (allocated : Bool) (b' : Buffer) : Prop :=
  allocated = true → b.options.maxRetainedCapacityBytes ≤ maxSize →
    b'.readable.length ≤ b.options.trimThresholdBytes →
    b'.capacity ≤ b.options.maxRetainedCapacityBytes ∧
      (b.trimArmed = true → b'.storage.length = b.options.maxRetainedCapacityBytes)

/-- The reader has moved, and a trim follows. -/
theorem moved_ends {moved : Buffer} (h : Inv moved) (hoptions : moved.options = b.options)
    (harmed : moved.trimArmed = b.trimArmed) (allocated : Bool) :
    Ends b (andThen (moved.trimRetainedCapacity allocated) fun b _ => (b, .returned ()))
        moved.readable () ∧
      Trimmed b allocated
        (andThen (moved.trimRetainedCapacity allocated) fun b _ => (b, .returned ())).1 := by
  obtain ⟨replaced, hends, hkept, hdue, htarget⟩ := trim_ends h allocated
  rw [hends.andThen_eq]
  refine ⟨⟨rfl, hends.inv, hends.bytes, hends.options.trans hoptions⟩, ?_⟩
  intro hallocated hmax hthreshold
  have hthreshold : moved.readable.length ≤ moved.options.trimThresholdBytes := by
    rw [hoptions, ← hends.bytes]
    exact hthreshold
  have harm := hdue hallocated (hoptions ▸ hmax) hthreshold
  rw [← hoptions, ← harmed, harm]
  cases replaced with
  | true => exact ⟨(htarget rfl).2.1.le, fun _ => (htarget rfl).1⟩
  | false =>
    show (moved.trimRetainedCapacity allocated).1.capacity ≤ _ ∧ _
    rw [hkept rfl]
    exact ⟨h.armed harm, nofun⟩

theorem retrieveAll_ends (h : Inv b) (allocated : Bool) :
    Ends b (b.retrieveAll allocated) [] () ∧ Trimmed b allocated (b.retrieveAll allocated).1 := by
  have hwithin := h.within
  have horder := h.order
  have hprepend := h.prepend
  have hinv : Inv { b with readerIndex := kCheapPrepend, writerIndex := kCheapPrepend } :=
    { h with
      prepend := Nat.le_refl _
      order := Nat.le_refl _
      within := by show kCheapPrepend ≤ b.storage.length; omega }
  have hmoved := moved_ends hinv (b := b) rfl rfl allocated
  have hnil : ({ b with readerIndex := kCheapPrepend, writerIndex := kCheapPrepend } : Buffer).readable =
      [] := by
    show (b.storage.drop kCheapPrepend).take (kCheapPrepend - kCheapPrepend) = []
    rw [Nat.sub_self, List.take_zero]
  rw [hnil] at hmoved
  exact hmoved

theorem retrieve_ends (h : Inv b) (len : Nat) (allocated : Bool) :
    Ends b (b.retrieve len allocated) (b.readable.drop len) () ∧
      Trimmed b allocated (b.retrieve len allocated).1 := by
  have hwithin := h.within
  have horder := h.order
  have hsize := h.size_lt
  have hlength := h.length_readable
  unfold retrieve
  rw [h.readableBytes_length]
  split
  · rename_i hlen
    have hindex : sizeAdd b.readerIndex len = b.readerIndex + len := sizeAdd_eq (by omega)
    rw [hindex]
    have hinv : Inv { b with readerIndex := b.readerIndex + len } :=
      { h with
        prepend := Nat.le_add_right_of_le h.prepend
        order := by show b.readerIndex + len ≤ b.writerIndex; omega }
    have hmoved := moved_ends hinv (b := b) rfl rfl allocated
    have hbytes : ({ b with readerIndex := b.readerIndex + len } : Buffer).readable =
        b.readable.drop len := by
      show (b.storage.drop (b.readerIndex + len)).take (b.writerIndex - (b.readerIndex + len)) = _
      rw [readable, List.drop_take, List.drop_drop]
      congr 1
      omega
    rw [hbytes] at hmoved
    exact hmoved
  · rename_i hlen
    rw [List.drop_of_length_le (Nat.not_lt.mp hlen)]
    exact retrieveAll_ends h allocated

theorem retrieveAsString_ends (h : Inv b) (len : Nat) (allocated : Bool) :
    Ends b (b.retrieveAsString len true allocated) (b.readable.drop len) (b.readable.take len) ∧
      Trimmed b allocated (b.retrieveAsString len true allocated).1 := by
  have hwithin := h.within
  have horder := h.order
  have hlength := h.length_readable
  have hslice := slice_some (l := b.storage) (o := b.readerIndex) (k := min len b.readableBytes)
    (by rw [h.readableBytes]; omega)
  have hresult : (b.storage.drop b.readerIndex).take (min len b.readableBytes) = b.readable.take len := by
    rw [readable, List.take_take, h.readableBytes]
  have hdrop : b.readable.drop (min len b.readableBytes) = b.readable.drop len := by
    rw [h.readableBytes_length]
    by_cases hle : len ≤ b.readable.length
    · rw [Nat.min_eq_left hle]
    · rw [Nat.min_eq_right (by omega), List.drop_length, List.drop_of_length_le (by omega)]
  obtain ⟨hends, htrimmed⟩ := retrieve_ends h (min len b.readableBytes) allocated
  rw [hdrop] at hends
  have hstring : b.retrieveAsString len true allocated =
      ((b.retrieve (min len b.readableBytes) allocated).1, .returned (b.readable.take len)) := by
    unfold retrieveAsString
    simp only [hslice, hresult, Bool.not_true, Bool.false_eq_true, if_false]
    rw [hends.andThen_eq]
  rw [hstring]
  exact ⟨⟨rfl, hends.inv, hends.bytes, hends.options⟩, htrimmed⟩

/-- A string that finds no memory is not there, and nothing is retrieved. -/
theorem retrieveAsString_fails (h : Inv b) (len : Nat) (allocated : Bool) :
    b.retrieveAsString len false allocated = (b, .threw .badAlloc) := by
  have hwithin := h.within
  have horder := h.order
  have hslice := slice_some (l := b.storage) (o := b.readerIndex) (k := min len b.readableBytes)
    (by rw [h.readableBytes]; omega)
  unfold retrieveAsString
  simp only [hslice, Bool.not_false, if_true]

/-! ## Reads -/

/-- The read in terms of the room in the storage: what does not fit there is appended. -/
theorem readFd_eq (h : Inv b) {maxReadBytes : Nat} (hmax : maxReadBytes ≠ 0)
    (hdata : data.length ≤ (b.offered maxReadBytes).1 + (b.offered maxReadBytes).2) (g : Growth) :
    b.readFd true maxReadBytes (.delivered data) g =
      if data.length ≤ b.storage.length - b.writerIndex then
        ({ b.filled data with writerIndex := b.writerIndex + data.length },
          .returned (.count data.length))
      else
        andThen ({ b.filled (data.take (b.storage.length - b.writerIndex)) with
            writerIndex := b.storage.length }.append
              (.bytes (data.drop (b.storage.length - b.writerIndex))) g)
          fun b _ => (b, .returned (.count data.length)) := by
  have hwithin := h.within
  have hsize := h.size_lt
  have hwritable := h.writableBytes
  have hoffered : (b.offered maxReadBytes).1 = min b.writableBytes maxReadBytes := rfl
  have hextra : (b.offered maxReadBytes).2 =
      min extraBufferSize (maxReadBytes - min b.writableBytes maxReadBytes) := rfl
  rw [hoffered, hextra] at hdata
  unfold readFd
  simp only [Bool.not_true, Bool.false_eq_true, if_false, hmax, hoffered]
  by_cases hfits : data.length ≤ b.storage.length - b.writerIndex
  · have hle : data.length ≤ min b.writableBytes maxReadBytes := by omega
    rw [if_pos hfits, List.take_of_length_le hle, (fill_eq h hfits).1]
    show (if data.length ≤ min b.writableBytes maxReadBytes then
      (({ b.filled data with writerIndex := sizeAdd b.writerIndex data.length } : Buffer),
        Outcome.returned (ReadResult.count data.length)) else _) = _
    rw [if_pos hle, sizeAdd_eq (by omega)]
  · -- all of the room is offered, or there would be no extra part
    have hall : min b.writableBytes maxReadBytes = b.storage.length - b.writerIndex := by omega
    have hpart : (data.take (b.storage.length - b.writerIndex)).length ≤
        b.storage.length - b.writerIndex := List.length_take_le _ _
    obtain ⟨hfill, hlength⟩ := fill_eq h hpart
    rw [if_neg hfits, hall, hfill]
    show (if data.length ≤ b.storage.length - b.writerIndex then _ else
      andThen ({ b.filled (data.take (b.storage.length - b.writerIndex)) with
        writerIndex := (b.filled (data.take (b.storage.length - b.writerIndex))).storage.length }.append
          _ g) _) = _
    rw [if_neg hfits, hlength]

/-- A read that returns appends what the kernel delivered. One whose overflow part finds no
memory throws with the first part already counted in. -/
theorem readFd_ends (h : Inv b) {maxReadBytes : Nat} (hmax : maxReadBytes ≠ 0)
    (hdata : data.length ≤ (b.offered maxReadBytes).1 + (b.offered maxReadBytes).2) (g : Growth) :
    (¬b.Room data.length g ∧ b.storage.length - b.writerIndex < data.length ∧
        ∃ b' e, b.readFd true maxReadBytes (.delivered data) g = (b', .threw e) ∧ Inv b' ∧
          b'.options = b.options ∧
          b'.readable = b.readable ++ data.take (b.storage.length - b.writerIndex)) ∨
      Ends b (b.readFd true maxReadBytes (.delivered data) g) (b.readable ++ data)
        (.count data.length) := by
  have hwithin := h.within
  rw [readFd_eq h hmax hdata g]
  split
  · rename_i hfits
    have hends := filled_ends h hfits (Nat.le_refl data.length) (ReadResult.count data.length)
    rw [List.take_length] at hends
    exact .inr hends
  · rename_i hover
    have hpart : (data.take (b.storage.length - b.writerIndex)).length =
        b.storage.length - b.writerIndex := by
      rw [List.length_take]
      omega
    have hends := filled_ends h hpart.le hpart.ge ()
    have hend : b.writerIndex + (b.storage.length - b.writerIndex) = b.storage.length := by omega
    rw [List.take_of_length_le hpart.le, hend] at hends
    have hrest : (data.drop (b.storage.length - b.writerIndex)).length =
        data.length - (b.storage.length - b.writerIndex) := List.length_drop
    have hsmall : (data.drop (b.storage.length - b.writerIndex)).length ≤ maxSize := by
      have hextra : (b.offered maxReadBytes).2 ≤ extraBufferSize := Nat.min_le_left _ _
      have hfirst : (b.offered maxReadBytes).1 ≤ b.writableBytes := Nat.min_le_left _ _
      rw [h.writableBytes] at hfirst
      rw [hrest]
      unfold extraBufferSize at hextra
      unfold maxSize
      omega
    have hsum : b.storage.length + (data.length - (b.storage.length - b.writerIndex)) =
        b.writerIndex + data.length := by omega
    rcases append_ends hends.inv hsmall g with ⟨hfits, e, happend⟩ | happend
    · refine .inl ⟨fun hroom => hfits ?_, by omega, _, e, by rw [happend]; rfl, hends.inv,
        hends.options, hends.bytes⟩
      -- the room for what was delivered is the room for the overflow part behind the first one
      have hstorage := (fill_eq h hpart.le).2
      rw [Room, hends.bytes, List.length_append, hpart, hrest]
      show _ ≤ (b.filled _).storage.length ∨ b.storage.length + _ ≤ b.capacity ∨
        g.Fits (b.storage.length + _)
      rw [hstorage, hsum]
      rcases hroom with hroom | hroom
      · exact .inl (by omega)
      · exact .inr hroom
    · have hread := happend.trans (f := fun b _ => (b, .returned (ReadResult.count data.length)))
        ⟨rfl, happend.inv, happend.bytes, rfl⟩
      refine .inr ⟨hread.out, hread.inv, ?_, hread.options.trans hends.options⟩
      rw [hread.bytes, hends.bytes, List.append_assoc, List.take_append_drop]

end

/-! ## The queue of bytes -/

/-- What a call does to a plain queue. -/
def Fifo.next (q : List UInt8) : Op → List UInt8
  | .append (.bytes data) _ => q ++ data
  | .append (.null _) _ => q
  | .retrieve len _ => q.drop len
  | .retrieveUntil offset _ => if offset < 0 ∨ offset > q.length then q else q.drop offset.toNat
  | .retrieveAll _ => []
  | .retrieveAsString len constructed _ => if constructed then q.drop len else q
  | .retrieveAllAsString constructed _ => if constructed then [] else q
  | .produce _ data written _ => q ++ data.take written
  | .readFd savedErrno maxReadBytes (.delivered data) _ =>
    if savedErrno ∧ maxReadBytes ≠ 0 then q ++ data else q
  | .readFd _ _ (.failed _) _ => q
  | .trimRetainedCapacity _ => q

/-- What a call on a plain queue answers. -/
def Fifo.answer (q : List UInt8) : Op → Outcome Value
  | .append (.null len) _ =>
    if len = 0 then .returned .unit
    else .threw (.invalidArgument "Buffer append data must be non-null when length is nonzero")
  | .retrieveUntil offset _ =>
    if offset < 0 ∨ offset > q.length then
      .threw (.outOfRange "Buffer retrieveUntil endpoint is outside readable storage")
    else .returned .unit
  | .retrieveAsString len constructed _ =>
    if constructed then .returned (.string (q.take len)) else .threw .badAlloc
  | .retrieveAllAsString constructed _ =>
    if constructed then .returned (.string q) else .threw .badAlloc
  | .readFd savedErrno maxReadBytes answer _ =>
    if !savedErrno then .threw (.invalidArgument "Buffer readFd requires savedErrno storage")
    else if maxReadBytes = 0 then .returned (.read (.count 0))
    else match answer with
      | .failed error => .returned (.read (.failed error))
      | .delivered data => .returned (.read (.count data.length))
  | _ => .returned .unit

/-- The answer of a call, without what only the storage knows. -/
def Outcome.seen : Outcome Value → Outcome Value
  | .returned (.trimmed _) => .returned .unit
  | out => out

/-- The growth that a call asks for finds memory. -/
def Op.Fits (b : Buffer) : Op → Prop
  | .append (.bytes data) g => g.Fits (b.writerIndex + data.length)
  | .produce len _ _ g => g.Fits (b.writerIndex + len)
  | .readFd _ _ (.delivered data) g => g.Fits (b.writerIndex + data.length)
  | _ => True

instance (g : Growth) (n : Nat) : Decidable (g.Fits n) :=
  inferInstanceAs (Decidable (n ≤ maxSize ∧ g ≠ .throws))

instance (b : Buffer) (len : Nat) (g : Growth) : Decidable (b.Room len g) :=
  inferInstanceAs (Decidable (_ ∨ _ ∨ g.Fits (b.writerIndex + len)))

instance (b : Buffer) (op : Op) : Decidable (op.Fits b) :=
  match op with
  | .append (.bytes data) g => inferInstanceAs (Decidable (g.Fits (b.writerIndex + data.length)))
  | .produce len _ _ g => inferInstanceAs (Decidable (g.Fits (b.writerIndex + len)))
  | .readFd _ _ (.delivered data) g =>
    inferInstanceAs (Decidable (g.Fits (b.writerIndex + data.length)))
  | .append (.null _) _ | .retrieve _ _ | .retrieveUntil _ _ | .retrieveAll _
  | .retrieveAsString _ _ _ | .retrieveAllAsString _ _ | .readFd _ _ (.failed _) _
  | .trimRetainedCapacity _ => .isTrue trivial

/-- Whether a call retrieves, and then whether its trim finds memory. -/
def Op.retrieval (q : List UInt8) : Op → Option Bool
  | .retrieve _ allocated | .retrieveAll allocated => some allocated
  | .retrieveUntil offset allocated =>
    if offset < 0 ∨ offset > q.length then none else some allocated
  | .retrieveAsString _ constructed allocated | .retrieveAllAsString constructed allocated =>
    if constructed then some allocated else none
  | _ => none

/-- A call is one of the queue, and keeps the invariant. -/
structure Refines (b : Buffer) (op : Op) : Prop where
  inv : Inv (b.call op).1
  options : (b.call op).1.options = b.options
  bytes : (b.call op).1.readable = Fifo.next b.readable op
  answer : (b.call op).2.seen = Fifo.answer b.readable op
  trimmed : ∀ allocated, op.retrieval b.readable = some allocated →
    Trimmed b allocated (b.call op).1

section
variable {b : Buffer} {op : Op}

theorem Refines.of_ends {α : Type} {r : Buffer × Outcome α} {f : α → Value} {v : α}
    {q : List UInt8} (hcall : b.call op = r.map id (·.map f)) (h : Ends b r q v)
    (hbytes : Fifo.next b.readable op = q)
    (hanswer : Fifo.answer b.readable op = Outcome.seen (.returned (f v)))
    (htrimmed : ∀ allocated, op.retrieval b.readable = some allocated → Trimmed b allocated r.1) :
    Refines b op := by
  obtain ⟨b', out⟩ := r
  obtain rfl : out = .returned v := h.out
  have hfirst : (b.call op).1 = b' := by rw [hcall]; rfl
  have hsecond : (b.call op).2 = .returned (f v) := by rw [hcall]; rfl
  refine ⟨?_, ?_, ?_, ?_, ?_⟩
  · rw [hfirst]
    exact h.inv
  · rw [hfirst]
    exact h.options
  · rw [hfirst, hbytes]
    exact h.bytes
  · rw [hsecond, hanswer]
  · rw [hfirst]
    exact htrimmed

theorem Refines.of_retrieval {α : Type} {r : Buffer × Outcome α} {f : α → Value} {v : α}
    {q : List UInt8} {allocated : Bool} (hcall : b.call op = r.map id (·.map f))
    (h : Ends b r q v ∧ Trimmed b allocated r.1) (hbytes : Fifo.next b.readable op = q)
    (hanswer : Fifo.answer b.readable op = Outcome.seen (.returned (f v)))
    (hop : op.retrieval b.readable = some allocated) : Refines b op := by
  refine .of_ends hcall h.1 hbytes hanswer fun allocated' hsome => ?_
  rw [hop] at hsome
  exact Option.some.inj hsome ▸ h.2

/-- A call that throws before it does anything. -/
theorem Refines.of_threw {e : Exception} (h : Inv b) (hcall : b.call op = (b, .threw e))
    (hbytes : Fifo.next b.readable op = b.readable)
    (hanswer : Fifo.answer b.readable op = .threw e) (hnone : op.retrieval b.readable = none) :
    Refines b op := by
  refine ⟨?_, ?_, ?_, ?_, ?_⟩ <;> rw [hcall]
  · exact h
  · exact hbytes.symm
  · exact hanswer.symm
  · intro allocated hsome
    rw [hnone] at hsome
    cases hsome

theorem produce_ends (h : Inv b) {len written : Nat} {data : List UInt8} {g : Growth}
    (hwrap : b.writerIndex + len < 2 ^ 64) (hdata : data.length ≤ len) (hwritten : written ≤ data.length) :
    (¬b.Room len g ∧ ∃ e,
        (andThen (b.ensureWritableBytes len g) fun b _ =>
          andThen (b.fill data) fun b _ => b.hasWritten written) = (b, .threw e)) ∨
      Ends b (andThen (b.ensureWritableBytes len g) fun b _ =>
        andThen (b.fill data) fun b _ => b.hasWritten written) (b.readable ++ data.take written) () := by
  rcases ensureWritableBytes_ends h hwrap g with ⟨hfits, e, heq⟩ | ⟨hends, hroom⟩
  · exact .inl ⟨hfits, e, by rw [heq]; rfl⟩
  · refine .inr (hends.trans ?_)
    have hfilled := fill_hasWritten_ends hends.inv (Nat.le_trans hdata hroom) hwritten
    rw [hends.bytes] at hfilled
    exact hfilled

/-- The sum that a request for room computes does not wrap. -/
def Op.Sums (b : Buffer) : Op → Prop
  | .produce len _ _ _ => b.writerIndex + len < 2 ^ 64
  | _ => True

instance (b : Buffer) (op : Op) : Decidable (op.Sums b) :=
  match op with
  | .produce len _ _ _ => inferInstanceAs (Decidable (b.writerIndex + len < 2 ^ 64))
  | .append _ _ | .retrieve _ _ | .retrieveUntil _ _ | .retrieveAll _ | .retrieveAsString _ _ _
  | .retrieveAllAsString _ _ | .readFd _ _ _ _ | .trimRetainedCapacity _ => .isTrue trivial

/-- A call is one of the queue, or it finds no memory and still keeps the invariant. -/
theorem call_spec (h : Inv b) (hallowed : op.allowed b = true) (hsums : op.Sums b) :
    Refines b op ∨ ¬op.Fits b ∧ Inv (b.call op).1 := by
  have hthrew {r : Buffer × Outcome Unit} {e : Exception} (hr : r = (b, .threw e)) :
      Inv (r.map id (Outcome.map fun _ => Value.unit)).1 := by
    rw [hr]
    exact h
  cases op with
  | append source g =>
    cases source with
    | null len =>
      by_cases hzero : len = 0
      · subst hzero
        exact .inl (.of_ends (r := (b, .returned ())) rfl ⟨rfl, h, rfl, rfl⟩ rfl rfl (fun _ h => by cases h))
      · refine .inl (.of_threw h ?_ rfl (if_neg hzero) rfl)
        simp only [call, append, hzero, if_false]
        rfl
    | bytes data =>
      rcases append_ends h (by simpa [Op.allowed] using hallowed) g with ⟨hnot, e, heq⟩ | hends
      · exact .inr ⟨fun hfits => hnot (.inr (.inr hfits)), hthrew heq⟩
      · exact .inl (.of_ends rfl hends rfl rfl (fun _ h => by cases h))
  | retrieve len allocated => exact .inl (.of_retrieval rfl (retrieve_ends h len allocated) rfl rfl rfl)
  | retrieveUntil offset allocated =>
    have hlength := h.readableBytes_length
    by_cases hout : offset < 0 ∨ offset > b.readable.length
    · refine .inl (.of_threw h ?_ (if_pos hout) (if_pos hout) (if_pos hout))
      rw [← hlength] at hout
      simp only [call, retrieveUntil, if_pos hout]
      rfl
    · have hends := retrieve_ends h offset.toNat allocated
      have heq : b.retrieveUntil offset allocated = b.retrieve offset.toNat allocated := by
        rw [← hlength] at hout
        exact if_neg hout
      rw [← heq] at hends
      exact .inl (.of_retrieval rfl hends (if_neg hout) (if_neg hout) (if_neg hout))
  | retrieveAll allocated => exact .inl (.of_retrieval rfl (retrieveAll_ends h allocated) rfl rfl rfl)
  | retrieveAsString len constructed allocated =>
    cases constructed with
    | true => exact .inl (.of_retrieval rfl (retrieveAsString_ends h len allocated) rfl rfl rfl)
    | false =>
      refine .inl (.of_threw h ?_ rfl rfl rfl)
      simp only [call, retrieveAsString_fails h]
      rfl
  | retrieveAllAsString constructed allocated =>
    cases constructed with
    | true =>
      have hends := retrieveAsString_ends h b.readableBytes allocated
      have hall : b.readable.drop b.readableBytes = [] ∧ b.readable.take b.readableBytes = b.readable := by
        rw [h.readableBytes_length, List.drop_length, List.take_length]
        exact ⟨rfl, rfl⟩
      rw [hall.1, hall.2] at hends
      exact .inl (.of_retrieval rfl hends rfl rfl rfl)
    | false =>
      refine .inl (.of_threw h ?_ rfl rfl rfl)
      simp only [call, retrieveAllAsString, retrieveAsString_fails h]
      rfl
  | produce len data written g =>
    simp only [Op.allowed, Bool.and_eq_true, decide_eq_true_eq] at hallowed
    rcases produce_ends h hsums hallowed.1.2 hallowed.2 with ⟨hnot, e, heq⟩ | hends
    · exact .inr ⟨fun hfits => hnot (.inr (.inr hfits)), hthrew heq⟩
    · exact .inl (.of_ends rfl hends rfl rfl (fun _ h => by cases h))
  | readFd savedErrno maxReadBytes answer g =>
    cases savedErrno with
    | false => cases answer <;> exact .inl (.of_threw h rfl rfl rfl rfl)
    | true =>
      by_cases hzero : maxReadBytes = 0
      · subst hzero
        have hends : Ends b (b, .returned (ReadResult.count 0)) b.readable (.count 0) :=
          ⟨rfl, h, rfl, rfl⟩
        cases answer <;> exact .inl (.of_ends rfl hends rfl rfl (fun _ h => by cases h))
      · cases answer with
        | failed error =>
          have hcall : b.readFd true maxReadBytes (.failed error) g = (b, .returned (.failed error)) := by
            simp [readFd, hzero]
          have hends : Ends b (b.readFd true maxReadBytes (.failed error) g) b.readable
              (.failed error) := by
            rw [hcall]
            exact ⟨rfl, h, rfl, rfl⟩
          refine .inl (.of_ends rfl hends rfl ?_ (fun _ h => by cases h))
          simp [Fifo.answer, hzero]
          rfl
        | delivered data =>
          simp only [Op.allowed, Bool.and_eq_true, decide_eq_true_eq] at hallowed
          rcases readFd_ends h hzero hallowed.2 g with ⟨hnot, -, b', e, heq, hinv, -⟩ | hends
          · refine .inr ⟨fun hfits => hnot (.inr (.inr hfits)), ?_⟩
            show Inv (b.readFd true maxReadBytes (.delivered data) g).1
            rw [heq]
            exact hinv
          · refine .inl (.of_ends rfl hends ?_ ?_ (fun _ h => by cases h))
            · simp [Fifo.next, hzero]
            · simp [Fifo.answer, hzero]
              rfl
  | trimRetainedCapacity allocated =>
    obtain ⟨replaced, hends, -⟩ := trim_ends h allocated
    exact .inl (.of_ends rfl hends rfl rfl (fun _ h => by cases h))

theorem call_refines (h : Inv b) (hallowed : op.allowed b = true) (hfits : op.Fits b) :
    Refines b op := by
  have hsums : op.Sums b := by
    have hsize := h.size_lt
    cases op with
    | produce len data written g =>
      have hmax : b.writerIndex + len ≤ maxSize := hfits.1
      show b.writerIndex + len < 2 ^ 64
      unfold maxSize at hmax
      omega
    | _ => trivial
  exact (call_spec h hallowed hsums).resolve_right fun hnot => hnot.1 hfits

theorem call_inv (h : Inv b) (hallowed : op.allowed b = true) (hsums : op.Sums b) :
    Inv (b.call op).1 :=
  (call_spec h hallowed hsums).elim Refines.inv And.right

end

/-! ## Runs -/

/-- A buffer beside a queue that gets the same calls. -/
def step (s : Buffer × List UInt8) (op : Op) : Option (Buffer × List UInt8) :=
  if op.allowed s.1 then some ((s.1.call op).1, Fifo.next s.2 op) else none

theorem step_some {s s' : Buffer × List UInt8} {op : Op} (h : step s op = some s') :
    op.allowed s.1 = true ∧ s' = ((s.1.call op).1, Fifo.next s.2 op) := by
  unfold step at h
  split at h
  · rename_i hallowed
    exact ⟨hallowed, (Option.some.inj h).symm⟩
  · cases h

/-- Every run of calls whose growth finds memory is a run of a plain queue: the readable bytes are
the queue's, the indexes are in order, every call answers as the queue does; a read appends what
the kernel delivered and no more than was asked for, and a retrieval whose trim finds memory
leaves no storage above the retention target once the readable bytes are few enough. -/
theorem refines_fifo (o : RetentionOptions) (ho : o.validate = .ok ()) (s : Buffer × List UInt8)
    (h : Reach (· = (create o, [])) step (fun s op => op.Fits s.1) s) :
    s.1.readable = s.2 ∧
      (kCheapPrepend ≤ s.1.readerIndex ∧ s.1.readerIndex ≤ s.1.writerIndex ∧
        s.1.writerIndex ≤ s.1.storage.length) ∧
      (∀ op, op.allowed s.1 = true → op.Fits s.1 →
        (s.1.call op).2.seen = Fifo.answer s.2 op ∧
        (s.1.call op).1.readable = Fifo.next s.2 op ∧
        ∀ allocated, op.retrieval s.2 = some allocated → allocated = true →
          o.maxRetainedCapacityBytes ≤ maxSize →
          (s.1.call op).1.readable.length ≤ o.trimThresholdBytes →
          (s.1.call op).1.capacity ≤ o.maxRetainedCapacityBytes ∧
            (s.1.trimArmed = true →
              (s.1.call op).1.storage.length = o.maxRetainedCapacityBytes)) ∧
      (∀ maxReadBytes data g, maxReadBytes ≠ 0 →
        (Op.readFd true maxReadBytes (.delivered data) g).allowed s.1 = true →
        g.Fits (s.1.writerIndex + data.length) →
        data.length ≤ maxReadBytes ∧
          (s.1.readFd true maxReadBytes (.delivered data) g).2 = .returned (.count data.length) ∧
          (s.1.readFd true maxReadBytes (.delivered data) g).1.readable = s.2 ++ data) := by
  have hall : Inv s.1 ∧ s.1.readable = s.2 ∧ s.1.options = o := by
    refine Reach.invariant
      (P := fun s : Buffer × List UInt8 => Inv s.1 ∧ s.1.readable = s.2 ∧ s.1.options = o) ?_ ?_ h
    · rintro s rfl
      exact ⟨create_inv ho, create_readable o, rfl⟩
    · rintro s op s' ⟨hinv, hbytes, hoptions⟩ hfits hs
      obtain ⟨hallowed, rfl⟩ := step_some hs
      have hcall := call_refines hinv hallowed hfits
      exact ⟨hcall.inv, by rw [hcall.bytes, hbytes], hcall.options.trans hoptions⟩
  obtain ⟨hinv, hbytes, rfl⟩ := hall
  refine ⟨hbytes, ⟨hinv.prepend, hinv.order, hinv.within⟩, ?_, ?_⟩
  · intro op hallowed hfits
    have hcall := call_refines hinv hallowed hfits
    rw [← hbytes]
    exact ⟨hcall.answer, hcall.bytes, fun allocated hop => hcall.trimmed allocated hop⟩
  · intro maxReadBytes data g hmax hallowed hfits
    simp only [Op.allowed, Bool.and_eq_true, decide_eq_true_eq] at hallowed
    rcases readFd_ends hinv hmax hallowed.2 g with ⟨hnot, -⟩ | hends
    · exact absurd (.inr (.inr hfits)) hnot
    · refine ⟨?_, hends.out, hbytes ▸ hends.bytes⟩
      have hfirst : (s.1.offered maxReadBytes).1 ≤ maxReadBytes := Nat.min_le_right _ _
      have hsecond : (s.1.offered maxReadBytes).2 ≤ maxReadBytes - (s.1.offered maxReadBytes).1 :=
        Nat.min_le_right _ _
      omega

/-- Options that retain no more than the initial storage. -/
def tightRetention : RetentionOptions :=
  { maxRetainedCapacityBytes := kCheapPrepend + kInitialSize, trimThresholdBytes := 4 }

/-- The storage has outgrown the target for three bytes; one of them is retrieved, and the other two
are in a storage of the target's size. -/
theorem refines_fifo_trimmed :
    ∃ s, Reach (· = (create tightRetention, [])) step (fun s op => op.Fits s.1) s ∧
      s.1.storage.length = 2008 ∧
      (s.1.call (.retrieve 1 true)).1.readable = [2, 3] ∧
      (s.1.call (.retrieve 1 true)).1.storage.length = kCheapPrepend + kInitialSize := by
  obtain ⟨s, hr, hsize, hqueue, harmed⟩ := Reach.of_run (· = (create tightRetention, [])) step
    (fun s op => op.Fits s.1)
    (fun s => s.1.storage.length = 2008 ∧ s.2 = [1, 2, 3] ∧ s.1.trimArmed = true)
    (create tightRetention, []) rfl [.produce 2000 [1, 2, 3] 3 (.spare 0)] (by decide +kernel)
  obtain ⟨-, hbytes, htrim⟩ := (refines_fifo tightRetention (by decide) s hr).2.2.1 (.retrieve 1 true)
    rfl trivial
  rw [hqueue] at hbytes
  have hbytes : (s.1.call (.retrieve 1 true)).1.readable = [2, 3] := hbytes
  refine ⟨s, hr, hsize, hbytes, ?_⟩
  exact (htrim true rfl rfl (by decide) (by rw [hbytes]; decide)).2 harmed

/-- A request whose sum wraps: the vector is cut to the wrapped sum. -/
theorem ensureWritableBytes_of_wrap {b : Buffer} {len : Nat} (h : Inv b) (hlen : len < 2 ^ 64)
    (hwrap : 2 ^ 64 ≤ b.writerIndex + len) (g : Growth) :
    (b.ensureWritableBytes len g).2 = .returned () ∧
      (b.ensureWritableBytes len g).1.storage.length = b.writerIndex + len - 2 ^ 64 ∧
      (b.ensureWritableBytes len g).1.writerIndex = b.writerIndex := by
  have hprepend := h.prepend
  have horder := h.order
  have hwithin := h.within
  have hstored := h.stored
  have hbounded := h.bounded
  have hwritable := h.writableBytes
  unfold maxSize at hbounded
  have hsum : sizeAdd b.writerIndex len = b.writerIndex + len - 2 ^ 64 := by
    unfold sizeAdd
    omega
  have hroom : sizeSub (sizeAdd b.writableBytes b.prependableBytes) kCheapPrepend < len := by
    rw [hwritable, prependableBytes, sizeAdd_eq (by omega), sizeSub_eq (by omega) (by omega)]
    omega
  obtain ⟨n, hn⟩ : ∃ n, n = b.writerIndex + len - 2 ^ 64 := ⟨_, rfl⟩
  rw [ensureWritableBytes, if_pos (by omega), makeSpace, if_pos hroom, hsum, ← hn, resize_of_le (by omega)]
  refine ⟨rfl, ?_, rfl⟩
  show (b.storage.take n ++ List.replicate _ 0).length = n
  rw [List.length_append, List.length_take, List.length_replicate]
  omega

/-- From every state that calls reach without a sum that wraps, a request for room whose sum does
not wrap throws and leaves the buffer as it was, or makes the room and leaves the readable bytes
as they were. One whose sum wraps returns with a storage that ends below the writer index. -/
theorem ensureWritableBytes_safe (o : RetentionOptions) (ho : o.validate = .ok ())
    (s : Buffer × List UInt8)
    (h : Reach (· = (create o, [])) step (fun s op => op.Sums s.1) s) (len : Nat)
    (g : Growth) :
    (s.1.writerIndex + len < 2 ^ 64 →
      (∃ e, s.1.ensureWritableBytes len g = (s.1, .threw e)) ∨
      ((s.1.ensureWritableBytes len g).2 = .returned () ∧
        len ≤ (s.1.ensureWritableBytes len g).1.writableBytes ∧
        (s.1.ensureWritableBytes len g).1.readable = s.1.readable ∧
        (s.1.ensureWritableBytes len g).1.readerIndex ≤
          (s.1.ensureWritableBytes len g).1.writerIndex ∧
        (s.1.ensureWritableBytes len g).1.writerIndex ≤
          (s.1.ensureWritableBytes len g).1.storage.length)) ∧
    (len < 2 ^ 64 → 2 ^ 64 ≤ s.1.writerIndex + len →
      (s.1.ensureWritableBytes len g).2 = .returned () ∧
        (s.1.ensureWritableBytes len g).1.storage.length <
          (s.1.ensureWritableBytes len g).1.writerIndex) := by
  have hinv : Inv s.1 := by
    refine Reach.invariant (P := fun s : Buffer × List UInt8 => Inv s.1) ?_ ?_ h
    · rintro s rfl
      exact create_inv ho
    · intro s op s' hinv hsums hs
      obtain ⟨hallowed, rfl⟩ := step_some hs
      exact call_inv hinv hallowed hsums
  refine ⟨fun hsum => ?_, fun hlen hwrap => ?_⟩
  · rcases ensureWritableBytes_ends hinv hsum g with ⟨-, e, heq⟩ | ⟨hends, hroom⟩
    · exact .inl ⟨e, heq⟩
    · refine .inr ⟨hends.out, ?_, hends.bytes, hends.inv.order, hends.inv.within⟩
      rw [hends.inv.writableBytes]
      exact hroom
  · obtain ⟨hout, hlength, hwriter⟩ := ensureWritableBytes_of_wrap hinv hlen hwrap g
    rw [hlength, hwriter]
    exact ⟨hout, by omega⟩

/-- Of four bytes one is taken; two thousand more grow the storage and leave the other three, and a
request for almost `2 ^ 64` bytes cuts it. -/
theorem ensureWritableBytes_safe_grows :
    ∃ s : Buffer × List UInt8, s.1.readable = [2, 3, 4] ∧
      2000 ≤ (s.1.ensureWritableBytes 2000 (.spare 0)).1.writableBytes ∧
      (s.1.ensureWritableBytes 2000 (.spare 0)).1.readable = [2, 3, 4] ∧
      (s.1.ensureWritableBytes (2 ^ 64 - 4) .throws).1.storage.length < s.1.writerIndex := by
  obtain ⟨s, hreach, hbytes, hwriter, hout⟩ := Reach.of_run (· = (create {}, [])) step
    (fun s op => op.Sums s.1)
    (fun s => s.1.readable = [2, 3, 4] ∧ s.1.writerIndex = 12 ∧
      (s.1.ensureWritableBytes 2000 (.spare 0)).2 = .returned () ∧
      (s.1.ensureWritableBytes (2 ^ 64 - 4) .throws).1.writerIndex = s.1.writerIndex)
    (create {}, []) rfl [.append (.bytes [1, 2, 3, 4]) (.spare 0), .retrieve 1 true] (by decide +kernel)
  have hsafe := ensureWritableBytes_safe {} (by decide) s hreach
  have hcut := ((hsafe (2 ^ 64 - 4) .throws).2 (by decide) (by rw [hwriter]; decide)).2
  rw [hout.2] at hcut
  rcases (hsafe 2000 (.spare 0)).1 (by rw [hwriter]; decide) with ⟨e, hthrew⟩ | ⟨-, hroom, hkept, -⟩
  · rw [hthrew] at hout
    cases hout.1
  · exact ⟨s, hbytes, hroom, hkept.trans hbytes, hcut⟩

/-- Three bytes are readable. A request for almost `2 ^ 64` bytes returns as if there were room: the
sum of the writer index and the length has wrapped, and the storage ends below the indexes. -/
theorem ensureWritableBytes_wraps :
    ∃ s, Reach (· = (create {}, [])) step Any s ∧ s.1.readable = [1, 2, 3] ∧
      (s.1.ensureWritableBytes (2 ^ 64 - 4) .throws).2 = .returned () ∧
      (s.1.ensureWritableBytes (2 ^ 64 - 4) .throws).1.readable = [] ∧
      (s.1.ensureWritableBytes (2 ^ 64 - 4) .throws).1.storage.length <
        (s.1.ensureWritableBytes (2 ^ 64 - 4) .throws).1.writerIndex :=
  Reach.of_run _ _ _ _ (create {}, []) rfl [.append (.bytes [1, 2, 3]) (.spare 0)] (by decide +kernel)

end GameNet.Buffer
