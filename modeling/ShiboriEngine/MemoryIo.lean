import Mathlib
import ShiboriEngine.Library.Spans
import ShiboriEngine.Resource
import ShiboriEngine.ByteIo

/-! # Memory adapters

    A source over a fixed byte string and a growing, bounded sink, both with a
    cap on one operation.  `std::size_t` has 64 bits.  Each operation is given
    what its token would answer. -/

namespace ShiboriMemoryIo

open ShiboriError ShiboriResource ShiboriByteIo Spans

/-! ## The source -/

/-- A source that reads from a vector of bytes. -/
structure MemoryByteSource where
  bytes : List UInt8
  maximumReadSize : UInt64
  position : UInt64 := 0
deriving DecidableEq, Repr

namespace MemoryByteSource

/-- A source over a copy of the bytes. -/
def copy (bytes : List UInt8) (maximumReadSize : UInt64) :
    Result MemoryByteSource :=
  if maximumReadSize = 0 then
    fail .invalidConfiguration .configure
      "memory source maximum read size must be nonzero"
  else .ok { bytes := bytes, maximumReadSize := maximumReadSize }

/-- `MemoryByteSource::read`; the second component is the destination
    afterwards. -/
def read (self : MemoryByteSource) (destination : List UInt8)
    (cancelled : Bool) :
    Result ReadOutcome × List UInt8 × MemoryByteSource :=
  if cancelled then (.error (cancelledError .read), destination, self)
  else
    let available := UInt64.ofNat self.bytes.length - self.position
    let count := min destination.length
      (min self.maximumReadSize.toNat available.toNat)
    let filled := overwrite destination 0
      (subspan self.bytes self.position.toNat count)
    let self := { self with position := self.position + UInt64.ofNat count }
    (.ok { bytesRead := count
           eof := self.position.toNat = self.bytes.length }, filled, self)

/-- The source can do everything. -/
def capabilities (_ : MemoryByteSource) : ByteSourceCapabilities :=
  ⟨true, true, true⟩

/-- The number of bytes. -/
def size (self : MemoryByteSource) : UInt64 :=
  UInt64.ofNat self.bytes.length

/-- `MemoryByteSource::seek`. -/
def seek (self : MemoryByteSource) (position : UInt64) (cancelled : Bool) :
    Status × MemoryByteSource :=
  if cancelled then (.error (cancelledError .read), self)
  else if position.toNat > self.bytes.length then
    (fail .ioReadFailed .read "memory source seek is beyond the end", self)
  else (.ok (), { self with position := position })

end MemoryByteSource

/-! ## The sink -/

/-- A sink that writes to a vector of bytes. -/
structure MemoryByteSink where
  bytes : List UInt8 := []
  position : UInt64 := 0
  maximumSize : UInt64
  maximumWriteSize : UInt64
deriving DecidableEq, Repr

namespace MemoryByteSink

/-- An empty sink. -/
def create (maximumSize maximumWriteSize : UInt64) : Result MemoryByteSink :=
  if maximumWriteSize = 0 ∨ maximumSize > u64Max then
    fail .invalidConfiguration .configure
      "memory sink size and write size must be valid"
  else
    .ok { maximumSize := maximumSize, maximumWriteSize := maximumWriteSize }

/-- `vector::resize` to a larger size. -/
def resize (bytes : List UInt8) (size : Nat) : List UInt8 :=
  bytes ++ List.replicate (size - bytes.length) 0

/-- `MemoryByteSink::write`: overwrites, and grows the vector at its end. -/
def write (self : MemoryByteSink) (source : List UInt8) (cancelled : Bool) :
    Result Nat × MemoryByteSink :=
  if cancelled then (.error (cancelledError .write), self)
  else if self.position > self.maximumSize then
    (fail .invariantViolation .write
      "memory sink position exceeds its bound", self)
  else
    let available := self.maximumSize - self.position
    if ¬ source.isEmpty ∧ available = 0 then
      (fail .limitExceeded .write
        "memory sink maximum size was reached", self)
    else
      let count := min source.length
        (min self.maximumWriteSize.toNat available.toNat)
      let last := self.position + UInt64.ofNat count
      let bytes :=
        if last.toNat > self.bytes.length then resize self.bytes last.toNat
        else self.bytes
      if count ≠ 0 then
        (.ok count,
          { self with
            bytes := overwrite bytes self.position.toNat (source.take count)
            position := last })
      else (.ok count, { self with bytes := bytes })

/-- `MemoryByteSink::seek`. -/
def seek (self : MemoryByteSink) (position : UInt64) (cancelled : Bool) :
    Status × MemoryByteSink :=
  if cancelled then (.error (cancelledError .write), self)
  else if position.toNat > self.bytes.length then
    (fail .ioWriteFailed .write
      "memory sink cannot seek beyond written bytes", self)
  else (.ok (), { self with position := position })

/-- The sink can do everything. -/
def capabilities (_ : MemoryByteSink) : ByteSinkCapabilities :=
  ⟨true, true, true⟩

/-- There is nothing to flush. -/
def flush (self : MemoryByteSink) (cancelled : Bool) :
    Status × MemoryByteSink :=
  if cancelled then (.error (cancelledError .write), self) else (.ok (), self)

end MemoryByteSink

/-! ## Adapters under a token nobody cancels -/

/-- A token that nobody cancels. -/
def uncancelled {σ : Type} : CancellationToken σ where
  isCancelled world := (false, world)

/-- A read keeps the size of the destination. -/
theorem MemoryByteSource.read_length (self : MemoryByteSource)
    (destination : List UInt8) :
    (self.read destination false).2.1.length = destination.length := by
  have hfits : (subspan self.bytes self.position.toNat
      (min destination.length (min self.maximumReadSize.toNat
        (UInt64.ofNat self.bytes.length - self.position).toNat))).length
      ≤ destination.length := by
    rw [subspan, List.length_take]
    omega
  rw [MemoryByteSource.read, if_neg Bool.false_ne_true]
  show (overwrite destination 0 _).length = destination.length
  rw [overwrite_length (Nat.zero_le _), Nat.zero_add]
  exact Nat.max_eq_left hfits

/-- The memory source as an adapter. -/
def memorySource : ByteSource MemoryByteSource where
  read source destination := source.read destination false
  read_length := MemoryByteSource.read_length
  capabilities := MemoryByteSource.capabilities
  seek source position := source.seek position false

/-- The memory sink as an adapter. -/
def memorySink : ByteSink MemoryByteSink where
  write sink source := sink.write source false
  capabilities := MemoryByteSink.capabilities
  seek sink position := sink.seek position false

end ShiboriMemoryIo
