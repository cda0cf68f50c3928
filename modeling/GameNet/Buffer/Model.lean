import GameNet.Machine
import GameNet.Ring

/- Buffer: the byte container of a connection's read and write path (`Buffer.cc`, non-Windows
   build).

   The vector's bytes are the list `storage`, its length is `size()`. Sums and differences of
   `size_t` are taken modulo `2 ^ 64`. An access outside the storage is a `fault`. What the
   allocator and the kernel answer comes with the call: a growing `resize` throws or ends with
   some capacity, the trim's vector is allocated or not. A vector made of `n` bytes has
   capacity `n`. -/
namespace GameNet

/-! ## Sizes and options -/

namespace Buffer

def kCheapPrepend : Nat := 8
def kInitialSize : Nat := 1024

/-- `max_size()` of a vector of bytes. -/
def maxSize : Nat := 2 ^ 63 - 1

def sizeAdd (a b : Nat) : Nat := (a + b) % 2 ^ 64

def sizeSub (a b : Nat) : Nat := (a + (2 ^ 64 - b)) % 2 ^ 64

structure RetentionOptions where
  maxRetainedCapacityBytes : Nat := 8 + 64 * 1024
  trimThresholdBytes : Nat := 16 * 1024
  deriving DecidableEq

/-- `BufferRetentionOptions::validate`. -/
def RetentionOptions.validate (o : RetentionOptions) : Except String Unit :=
  if o.maxRetainedCapacityBytes < kCheapPrepend + kInitialSize then
    .error "Buffer retained capacity must hold the initial storage"
  else if o.trimThresholdBytes > o.maxRetainedCapacityBytes - kCheapPrepend then
    .error "Buffer trim threshold must fit below retained capacity"
  else .ok ()

inductive Exception where
  | lengthError
  | badAlloc
  | outOfRange (what : String)
  | invalidArgument (what : String)
  deriving DecidableEq

/-- How a call ends. -/
inductive Outcome (α : Type) where
  | returned (value : α)
  | threw (exception : Exception)
  | fault
  deriving DecidableEq

/-- What a growing vector gets: an exception, or room beyond the size. -/
inductive Growth where
  | throws
  | spare (n : Nat)
  deriving DecidableEq

end Buffer

structure Buffer where
  options : Buffer.RetentionOptions
  storage : List UInt8
  capacity : Nat
  readerIndex : Nat
  writerIndex : Nat
  peakRetainedCapacityBytes : Nat
  trimCount : Nat := 0
  trimArmed : Bool := false
  deriving DecidableEq

namespace Buffer

/-- The constructor, for options that `validate` accepts. -/
def create (o : RetentionOptions) : Buffer where
  options := o
  storage := List.replicate (kCheapPrepend + kInitialSize) 0
  capacity := kCheapPrepend + kInitialSize
  readerIndex := kCheapPrepend
  writerIndex := kCheapPrepend
  peakRetainedCapacityBytes := kCheapPrepend + kInitialSize

def readableBytes (b : Buffer) : Nat := sizeSub b.writerIndex b.readerIndex
def writableBytes (b : Buffer) : Nat := sizeSub b.storage.length b.writerIndex
def prependableBytes (b : Buffer) : Nat := b.readerIndex

/-- The readable bytes. -/
def readable (b : Buffer) : List UInt8 :=
  (b.storage.drop b.readerIndex).take (b.writerIndex - b.readerIndex)

/-- The next call, if the one before it has returned. -/
def andThen {α β : Type} (r : Buffer × Outcome α) (f : Buffer → α → Buffer × Outcome β) :
    Buffer × Outcome β :=
  match r with
  | (b, .returned a) => f b a
  | (b, .threw e) => (b, .threw e)
  | (b, .fault) => (b, .fault)

/-! ## Growth -/

/-- `std::copy` to a lower address of the same storage, byte by byte. -/
def copyDown : Nat → Nat → Nat → List UInt8 → Option (List UInt8)
  | 0, _, _, l => some l
  | n + 1, src, dst, l =>
    match l[src]? with
    | none => none
    | some x =>
      if dst < l.length then copyDown n (src + 1) (dst + 1) (l.set dst x) else none

/-- `buffer_.resize(n)`. -/
def resize (b : Buffer) (n : Nat) (g : Growth) : Buffer × Outcome Unit :=
  let resized := b.storage.take n ++ List.replicate (n - b.storage.length) 0
  if n ≤ b.capacity then ({ b with storage := resized }, .returned ())
  else if n > maxSize then (b, .threw .lengthError)
  else match g with
    | .throws => (b, .threw .badAlloc)
    | .spare k => ({ b with storage := resized, capacity := min (n + k) maxSize }, .returned ())

def updateRetentionState (b : Buffer) : Buffer :=
  { b with
    peakRetainedCapacityBytes := max b.peakRetainedCapacityBytes b.capacity
    trimArmed := b.trimArmed || decide (b.capacity > b.options.maxRetainedCapacityBytes) }

def makeSpace (b : Buffer) (len : Nat) (g : Growth) : Buffer × Outcome Unit :=
  if sizeSub (sizeAdd b.writableBytes b.prependableBytes) kCheapPrepend < len then
    andThen (b.resize (sizeAdd b.writerIndex len) g) fun b _ => (b.updateRetentionState, .returned ())
  else
    let readable := b.readableBytes
    match copyDown readable b.readerIndex kCheapPrepend b.storage with
    | none => (b, .fault)
    | some storage =>
      ({ b with storage := storage, readerIndex := kCheapPrepend
                writerIndex := sizeAdd kCheapPrepend readable }, .returned ())

def ensureWritableBytes (b : Buffer) (len : Nat) (g : Growth) : Buffer × Outcome Unit :=
  if b.writableBytes < len then b.makeSpace len g else (b, .returned ())

/-- The caller writes through `beginWrite()`. -/
def fill (b : Buffer) (data : List UInt8) : Buffer × Outcome Unit :=
  match Ring.overwrite b.storage b.writerIndex data with
  | none => (b, .fault)
  | some storage => ({ b with storage := storage }, .returned ())

def hasWritten (b : Buffer) (len : Nat) : Buffer × Outcome Unit :=
  if len > b.writableBytes then
    (b, .threw (.outOfRange "Buffer written length exceeds writable storage"))
  else ({ b with writerIndex := sizeAdd b.writerIndex len }, .returned ())

/-- A pointer and a length: null, or that many bytes. -/
inductive Source where
  | null (len : Nat)
  | bytes (data : List UInt8)
  deriving DecidableEq

def append (b : Buffer) (source : Source) (g : Growth) : Buffer × Outcome Unit :=
  match source with
  | .null len =>
    if len = 0 then (b, .returned ())
    else (b, .threw
      (.invalidArgument "Buffer append data must be non-null when length is nonzero"))
  | .bytes data =>
    if data.length = 0 then (b, .returned ())
    else
      andThen (b.ensureWritableBytes data.length g) fun b _ =>
        andThen (b.fill data) fun b _ => b.hasWritten data.length

/-! ## Retrieval -/

/-- `trimRetainedCapacity`; `allocated` tells whether the allocator has the new vector. -/
def trimRetainedCapacity (b : Buffer) (allocated : Bool) : Buffer × Outcome Bool :=
  if !b.trimArmed || b.readableBytes > b.options.trimThresholdBytes then (b, .returned false)
  else if !allocated || b.options.maxRetainedCapacityBytes > maxSize then (b, .returned false)
  else
    let trimmed : List UInt8 := List.replicate b.options.maxRetainedCapacityBytes 0
    let readable := b.readableBytes
    match Ring.slice b.storage b.readerIndex readable with
    | none => (b, .fault)
    | some bytes =>
      match Ring.overwrite trimmed kCheapPrepend bytes with
      | none => (b, .fault)
      | some storage =>
        ({ b with
            storage := storage
            capacity := trimmed.length
            readerIndex := kCheapPrepend
            writerIndex := sizeAdd kCheapPrepend readable
            trimCount := b.trimCount + 1
            trimArmed := decide (trimmed.length > b.options.maxRetainedCapacityBytes) },
          .returned true)

def retrieveAll (b : Buffer) (allocated : Bool) : Buffer × Outcome Unit :=
  andThen ({ b with readerIndex := kCheapPrepend, writerIndex := kCheapPrepend }.trimRetainedCapacity
    allocated) fun b _ => (b, .returned ())

def retrieve (b : Buffer) (len : Nat) (allocated : Bool) : Buffer × Outcome Unit :=
  if len < b.readableBytes then
    andThen ({ b with readerIndex := sizeAdd b.readerIndex len }.trimRetainedCapacity allocated)
      fun b _ => (b, .returned ())
  else b.retrieveAll allocated

/-- `retrieveUntil(peek() + offset)`. -/
def retrieveUntil (b : Buffer) (offset : Int) (allocated : Bool) : Buffer × Outcome Unit :=
  if offset < 0 ∨ offset > b.readableBytes then
    (b, .threw (.outOfRange "Buffer retrieveUntil endpoint is outside readable storage"))
  else b.retrieve offset.toNat allocated

/-- `retrieveAsString`; `constructed` tells whether the string is there. -/
def retrieveAsString (b : Buffer) (len : Nat) (constructed allocated : Bool) :
    Buffer × Outcome (List UInt8) :=
  let len := min len b.readableBytes
  match Ring.slice b.storage b.readerIndex len with
  | none => (b, .fault)
  | some result =>
    if !constructed then (b, .threw .badAlloc)
    else andThen (b.retrieve len allocated) fun b _ => (b, .returned result)

def retrieveAllAsString (b : Buffer) (constructed allocated : Bool) :
    Buffer × Outcome (List UInt8) :=
  b.retrieveAsString b.readableBytes constructed allocated

/-! ## Descriptors -/

/-- What `readv` answers. -/
inductive ReadAnswer where
  | failed (error : Nat)
  | delivered (data : List UInt8)
  deriving DecidableEq

/-- The result of `readFd`: a count, or the error that is saved. -/
inductive ReadResult where
  | count (n : Nat)
  | failed (error : Nat)
  deriving DecidableEq

def extraBufferSize : Nat := 65536

/-- The two parts that `readFd` offers to the kernel. -/
def offered (b : Buffer) (maxReadBytes : Nat) : Nat × Nat :=
  let writable := min b.writableBytes maxReadBytes
  (writable, min extraBufferSize (maxReadBytes - writable))

def readFd (b : Buffer) (savedErrno : Bool) (maxReadBytes : Nat) (answer : ReadAnswer) (g : Growth) :
    Buffer × Outcome ReadResult :=
  if !savedErrno then
    (b, .threw (.invalidArgument "Buffer readFd requires savedErrno storage"))
  else if maxReadBytes = 0 then (b, .returned (.count 0))
  else match answer with
    | .failed error => (b, .returned (.failed error))
    | .delivered data =>
      let writable := (b.offered maxReadBytes).1
      -- the kernel fills the storage first, then the extra buffer
      andThen (b.fill (data.take writable)) fun b _ =>
        if data.length ≤ writable then
          ({ b with writerIndex := sizeAdd b.writerIndex data.length }, .returned (.count data.length))
        else
          andThen ({ b with writerIndex := b.storage.length }.append (.bytes (data.drop writable)) g)
            fun b _ => (b, .returned (.count data.length))

/-! ## Calls -/

inductive Op where
  | append (source : Source) (g : Growth)
  | retrieve (len : Nat) (allocated : Bool)
  | retrieveUntil (offset : Int) (allocated : Bool)
  | retrieveAll (allocated : Bool)
  | retrieveAsString (len : Nat) (constructed allocated : Bool)
  | retrieveAllAsString (constructed allocated : Bool)
  /-- `ensureWritableBytes(len)`, a write of at most that much and `hasWritten`. -/
  | produce (len : Nat) (data : List UInt8) (written : Nat) (g : Growth)
  | readFd (savedErrno : Bool) (maxReadBytes : Nat) (answer : ReadAnswer) (g : Growth)
  | trimRetainedCapacity (allocated : Bool)

/-- What a call returns. -/
inductive Value where
  | unit
  | trimmed (replaced : Bool)
  | string (bytes : List UInt8)
  | read (result : ReadResult)
  deriving DecidableEq

def Outcome.map {α β : Type} (f : α → β) : Outcome α → Outcome β
  | .returned a => .returned (f a)
  | .threw e => .threw e
  | .fault => .fault

/-- A call keeps to its contract: sizes are those of objects in memory, the kernel returns at
most what it was offered, the caller writes what it has asked room for. -/
def Op.allowed (b : Buffer) : Op → Bool
  | .append (.bytes data) _ => data.length ≤ maxSize
  | .append (.null len) _ => len < 2 ^ 64
  | .produce len data written _ => len < 2 ^ 64 && data.length ≤ len && written ≤ data.length
  | .readFd _ maxReadBytes (.delivered data) _ =>
    maxReadBytes < 2 ^ 64 &&
      data.length ≤ (b.offered maxReadBytes).1 + (b.offered maxReadBytes).2
  | _ => true

def call (b : Buffer) : Op → Buffer × Outcome Value
  | .append source g => (b.append source g).map id (·.map fun _ => .unit)
  | .retrieve len allocated => (b.retrieve len allocated).map id (·.map fun _ => .unit)
  | .retrieveUntil offset allocated =>
    (b.retrieveUntil offset allocated).map id (·.map fun _ => .unit)
  | .retrieveAll allocated => (b.retrieveAll allocated).map id (·.map fun _ => .unit)
  | .retrieveAsString len constructed allocated =>
    (b.retrieveAsString len constructed allocated).map id (·.map .string)
  | .retrieveAllAsString constructed allocated =>
    (b.retrieveAllAsString constructed allocated).map id (·.map .string)
  | .produce len data written g =>
    (andThen (b.ensureWritableBytes len g) fun b _ =>
      andThen (b.fill data) fun b _ => b.hasWritten written).map id (·.map fun _ => .unit)
  | .readFd savedErrno maxReadBytes answer g =>
    (b.readFd savedErrno maxReadBytes answer g).map id (·.map .read)
  | .trimRetainedCapacity allocated =>
    (b.trimRetainedCapacity allocated).map id (·.map .trimmed)

end Buffer

end GameNet
