import Mathlib.Algebra.Group.Nat.Defs
import GameNet.Ring

/- PacketFramer (`PacketFramer.cc`): cuts a byte stream into length-prefixed frames. The unread
   bytes are in circular storage that grows on demand and is trimmed when little of it is used.

   `none` is what the source must never do: an index modulo the size of an empty storage, a copy
   or a read outside the storage or the buffered bytes, a loop that does not end. An allocation of
   `n` bytes gives a capacity of `n` plus a slack that the allocator chooses; the one for trimming
   may fail. -/
namespace GameNet.PacketFramer

def kLengthBytes : Nat := 4

/-! ## Options -/

structure PacketFramerOptions where
  maxPayloadBytes : Nat := 1024 * 1024
  maxBufferedBytes : Nat := 2 * (1024 * 1024 + 4)
  maxFramesPerPush : Nat := 64
  maxFrameBytesPerPush : Nat := 1024 * 1024 + 4
  maxRetainedCapacityBytes : Option Nat := none
  trimThresholdBytes : Option Nat := none

/-- The options of a framer, as the constructor accepts and completes them. -/
structure Options where
  maxPayloadBytes : Nat
  maxBufferedBytes : Nat
  maxFramesPerPush : Nat
  maxFrameBytesPerPush : Nat
  maxRetainedCapacityBytes : Nat
  trimThresholdBytes : Nat
  payload_le : maxPayloadBytes ≤ 2 ^ 32 - 1
  buffered_ge : kLengthBytes + maxPayloadBytes ≤ maxBufferedBytes
  frames_ne : maxFramesPerPush ≠ 0
  frameBytes_ge : kLengthBytes + maxPayloadBytes ≤ maxFrameBytesPerPush
  retained_le : maxRetainedCapacityBytes ≤ maxBufferedBytes
  threshold_le : trimThresholdBytes ≤ maxRetainedCapacityBytes

inductive OptionsError where
  | wireLength
  | processingLimits
  | retention
  deriving DecidableEq

def OptionsError.what : OptionsError → String
  | .wireLength => "PacketFramer maximum exceeds uint32 wire length"
  | .processingLimits => "PacketFramer requires coherent non-zero processing limits"
  | .retention => "PacketFramer requires a coherent retention target and trim threshold"

/-- The constructor. -/
def PacketFramerOptions.accept (raw : PacketFramerOptions) : Except OptionsError Options :=
  if hpayload : raw.maxPayloadBytes > 2 ^ 32 - 1 ∨
      raw.maxPayloadBytes > 2 ^ 64 - 1 - kLengthBytes then .error .wireLength
  else
    let maximumFrameBytes := kLengthBytes + raw.maxPayloadBytes
    if hlimits : raw.maxBufferedBytes < maximumFrameBytes ∨ raw.maxFramesPerPush = 0 ∨
        raw.maxFrameBytesPerPush < maximumFrameBytes then .error .processingLimits
    else
      let retained := raw.maxRetainedCapacityBytes.getD maximumFrameBytes
      let threshold := raw.trimThresholdBytes.getD retained
      if hretention : retained > raw.maxBufferedBytes ∨ threshold > retained then
        .error .retention
      else .ok {
        maxPayloadBytes := raw.maxPayloadBytes
        maxBufferedBytes := raw.maxBufferedBytes
        maxFramesPerPush := raw.maxFramesPerPush
        maxFrameBytesPerPush := raw.maxFrameBytesPerPush
        maxRetainedCapacityBytes := retained
        trimThresholdBytes := threshold
        payload_le := by omega
        buffered_ge := by omega
        frames_ne := by omega
        frameBytes_ge := by omega
        retained_le := by omega
        threshold_le := by omega }

/-! ## The framer -/

inductive FrameStatus where
  | needMoreData
  | framesReady
  | budgetExhausted
  | frameTooLarge
  | bufferLimitExceeded
  | faulted
  deriving DecidableEq, Repr

structure FrameResult where
  status : FrameStatus := .needMoreData
  frames : List (List UInt8) := []
  needsContinuation : Bool := false
  deriving DecidableEq

structure Framer where
  storage : List UInt8 := []
  /-- `storage_.capacity()` -/
  capacity : Nat := 0
  head : Nat := 0
  bufferedBytes : Nat := 0
  peakRetainedCapacityBytes : Nat := 0
  trimCount : Nat := 0
  trimArmed : Bool := false
  faulted : Bool := false
  deriving DecidableEq

/-- What the allocator does during one call: the slack of the growth, and for each of the at most
    two attempts to trim the slack, or `none` for a failure. -/
structure Alloc where
  growth : Nat := 0
  first : Option Nat := some 0
  second : Option Nat := some 0

/-- The buffered bytes at the front of a new vector. -/
def Framer.relocate (f : Framer) (size : Nat) : Option (List UInt8) :=
  let fresh := List.replicate size (0 : UInt8)
  if f.bufferedBytes ≠ 0 then
    (Ring.readFrom f.storage f.head f.bufferedBytes).bind (Ring.overwrite fresh 0)
  else some fresh

def trimRetainedCapacity (o : Options) (alloc : Option Nat) (f : Framer) :
    Option (Framer × Bool) :=
  if f.trimArmed = false ∨ f.bufferedBytes > o.trimThresholdBytes then some (f, false)
  else
    match alloc with
    | none => some (f, false)
    | some slack =>
      (f.relocate o.maxRetainedCapacityBytes).map fun trimmed =>
        ({ f with
          storage := trimmed
          capacity := o.maxRetainedCapacityBytes + slack
          head := 0
          trimCount := f.trimCount + 1
          trimArmed := o.maxRetainedCapacityBytes + slack > o.maxRetainedCapacityBytes }, true)

/-- The growth loop; the first argument is fuel. -/
def grow (o : Options) (required : Nat) : Nat → Nat → Option Nat
  | 0, _ => none
  | fuel + 1, grownCapacity =>
    if grownCapacity < required then
      let availableGrowth := o.maxBufferedBytes - grownCapacity
      let growth := min availableGrowth (max (grownCapacity / 2) 1)
      let grown := grownCapacity + growth
      grow o required fuel
        (if grown < required ∧ grown = o.maxBufferedBytes then required else grown)
    else some grownCapacity

def updateRetentionState (o : Options) (f : Framer) : Framer :=
  { f with
    peakRetainedCapacityBytes := max f.peakRetainedCapacityBytes f.capacity
    trimArmed := if f.capacity > o.maxRetainedCapacityBytes then true else f.trimArmed }

/-- The first half of `appendBytes`: room for `required` bytes. -/
def ensureRoom (o : Options) (slack : Nat) (f : Framer) (required : Nat) : Option Framer :=
  if f.storage.length < required then
    let start := if f.storage = [] then min 64 o.maxBufferedBytes else f.storage.length
    (grow o required (required + 1) start).bind fun grownCapacity =>
      (f.relocate grownCapacity).map fun grown =>
        updateRetentionState o
          { f with storage := grown, capacity := grownCapacity + slack, head := 0 }
  else some f

def appendBytes (o : Options) (slack : Nat) (f : Framer) (bytes : List UInt8) : Option Framer :=
  (ensureRoom o slack f (f.bufferedBytes + bytes.length)).bind fun f =>
    (Ring.index f.storage f.head f.bufferedBytes).bind fun tail =>
      (Ring.writeFrom f.storage tail bytes).map fun storage =>
        { f with storage := storage, bufferedBytes := f.bufferedBytes + bytes.length }

def byteAt (f : Framer) (offset : Nat) : Option UInt8 :=
  if offset < f.bufferedBytes then
    (Ring.index f.storage f.head offset).bind (f.storage[·]?)
  else none

def copyPayload (f : Framer) (offset length : Nat) : Option (List UInt8) :=
  if length = 0 then some []
  else if offset + length ≤ f.bufferedBytes then
    (Ring.index f.storage f.head offset).bind (Ring.readFrom f.storage · length)
  else none

def consume (o : Options) (alloc : Option Nat) (f : Framer) (bytes : Nat) : Option Framer :=
  (Ring.index f.storage f.head bytes).bind fun head =>
    let left := f.bufferedBytes - bytes
    (trimRetainedCapacity o alloc
      { f with head := if left = 0 then 0 else head, bufferedBytes := left }).map Prod.fst

def clearBuffer (o : Options) (alloc : Option Nat) (f : Framer) : Option Framer :=
  (trimRetainedCapacity o alloc { f with head := 0, bufferedBytes := 0 }).map Prod.fst

/-- The big-endian length of a payload. -/
def payloadLength (b₀ b₁ b₂ b₃ : UInt8) : Nat :=
  (b₀.toNat <<< 24) ||| (b₁.toNat <<< 16) ||| (b₂.toNat <<< 8) ||| b₃.toNat

/-- Why the decoding loop ended. -/
inductive Stop where
  | drained
  | budgetExhausted
  | frameTooLarge
  deriving DecidableEq

/-- The decoding loop of `push`; the first argument is fuel. -/
def decodeLoop (o : Options) (f : Framer) :
    Nat → Nat → Nat → List (List UInt8) → Option (Stop × Nat × List (List UInt8))
  | 0, _, _, _ => none
  | fuel + 1, consumed, processedFrameBytes, frames =>
    if f.bufferedBytes - consumed ≥ kLengthBytes then
      (byteAt f consumed).bind fun b₀ =>
      (byteAt f (consumed + 1)).bind fun b₁ =>
      (byteAt f (consumed + 2)).bind fun b₂ =>
      (byteAt f (consumed + 3)).bind fun b₃ =>
      let payloadBytes := payloadLength b₀ b₁ b₂ b₃
      let frameBytes := kLengthBytes + payloadBytes
      if payloadBytes > o.maxPayloadBytes then some (.frameTooLarge, consumed, frames)
      else if f.bufferedBytes - consumed < frameBytes then some (.drained, consumed, frames)
      else if frames.length ≥ o.maxFramesPerPush ∨
          frameBytes > o.maxFrameBytesPerPush - processedFrameBytes then
        some (.budgetExhausted, consumed, frames)
      else
        (copyPayload f (consumed + kLengthBytes) payloadBytes).bind fun payload =>
          decodeLoop o f fuel (consumed + frameBytes) (processedFrameBytes + frameBytes)
            (frames ++ [payload])
    else some (.drained, consumed, frames)

/-- The answer to a push whose decoding loop ended without a fault. -/
def answer (budgetExhausted : Bool) (frames : List (List UInt8)) : FrameResult where
  status :=
    if budgetExhausted then .budgetExhausted
    else if frames = [] then .needMoreData else .framesReady
  frames := frames
  needsContinuation := budgetExhausted

def push (o : Options) (alloc : Alloc) (f : Framer) (bytes : List UInt8) :
    Option (Framer × FrameResult) :=
  if f.faulted then some (f, { status := .faulted })
  else if bytes.length > o.maxBufferedBytes - f.bufferedBytes then
    (clearBuffer o alloc.first f).map fun f =>
      ({ f with faulted := true }, { status := .bufferLimitExceeded })
  else
    (if bytes = [] then some f else appendBytes o alloc.growth f bytes).bind fun f =>
    (decodeLoop o f (f.bufferedBytes + 1) 0 0 []).bind fun (stop, consumed, frames) =>
      if stop = .frameTooLarge then
        (clearBuffer o alloc.first f).map fun f =>
          ({ f with faulted := true }, { status := .frameTooLarge })
      else
        (if consumed ≠ 0 then consume o alloc.first f consumed else some f).bind fun f =>
        (trimRetainedCapacity o alloc.second f).map fun f =>
          (f.1, answer (stop = .budgetExhausted) frames)

def reset (o : Options) (alloc : Option Nat) (f : Framer) : Option Framer :=
  (clearBuffer o alloc f).map fun f => { f with faulted := false }

def appendLength (length : Nat) : List UInt8 :=
  [UInt8.ofNat ((length >>> 24) &&& 0xff), UInt8.ofNat ((length >>> 16) &&& 0xff),
    UInt8.ofNat ((length >>> 8) &&& 0xff), UInt8.ofNat (length &&& 0xff)]

def encode (o : Options) (payload : List UInt8) : Option (List UInt8) :=
  if payload.length > o.maxPayloadBytes ∨ payload.length > 2 ^ 32 - 1 then none
  else some (appendLength payload.length ++ payload)

end GameNet.PacketFramer
