import Mathlib
import ShiboriEngine.Error

/-! # Byte sources, byte sinks and exact transfers

    An adapter is any behaviour over a world `σ` that holds its own state, the
    cancellation token and everything else that may change between two calls.
    A source may write anything into the span it is offered and report
    anything; the span keeps its size.  `readExact` and `writeAll` retry short
    operations until the whole buffer is transferred. -/

namespace ShiboriByteIo

open ShiboriError

/-- What a source can do beside reading. -/
structure ByteSourceCapabilities where
  position : Bool
  size : Bool
  seek : Bool
deriving DecidableEq, Repr

/-- What a sink can do beside writing. -/
structure ByteSinkCapabilities where
  position : Bool
  seek : Bool
  flush : Bool
deriving DecidableEq, Repr

/-- How many bytes one call delivered, and whether it met the end. -/
structure ReadOutcome where
  bytesRead : Nat
  eof : Bool
deriving DecidableEq, Repr

/-- Observing the token may take any time, so it moves the world on. -/
structure CancellationToken (σ : Type) where
  isCancelled : σ → Bool × σ

/-- `read` gives its result, the new content of the span and the world. -/
structure ByteSource (σ : Type) where
  read : σ → List UInt8 → Result ReadOutcome × List UInt8 × σ
  read_length : ∀ world destination,
    (read world destination).2.1.length = destination.length
  capabilities : σ → ByteSourceCapabilities
  seek : σ → UInt64 → Status × σ

/-- A sink: each operation gives its result and the world after it. -/
structure ByteSink (σ : Type) where
  write : σ → List UInt8 → Result Nat × σ
  capabilities : σ → ByteSinkCapabilities
  seek : σ → UInt64 → Status × σ

/-- What a transfer that was cancelled fails with. -/
def cancelledError (operation : Operation) : Error :=
  { code := .operationCancelled, operation := operation,
    message := "byte I/O operation was cancelled" }

/-- What a missing capability fails with. -/
def unsupported (feature : String) : Status :=
  fail .unsupportedFeature .configure (feature ++ " capability is required")

/-- Fails with the first capability that is required and missing. -/
def requireSourceCapabilities (actual required : ByteSourceCapabilities) :
    Status :=
  if required.position && !actual.position then unsupported "source position"
  else if required.size && !actual.size then unsupported "source size"
  else if required.seek && !actual.seek then unsupported "source seek"
  else .ok ()

/-- Fails with the first capability that is required and missing. -/
def requireSinkCapabilities (actual required : ByteSinkCapabilities) :
    Status :=
  if required.position && !actual.position then unsupported "sink position"
  else if required.seek && !actual.seek then unsupported "sink seek"
  else if required.flush && !actual.flush then unsupported "sink flush"
  else .ok ()

variable {σ : Type}

/-! ## Reading exactly -/

/-- The loop of `read_exact`; gives the status, the buffer and the world. -/
def readExactLoop (source : ByteSource σ) (token : CancellationToken σ)
    (world : σ) (destination : List UInt8) (completed : Nat) :
    Status × List UInt8 × σ :=
  if _hmore : completed < destination.length then
    match token.isCancelled world with
    | (true, world) => (.error (cancelledError .read), destination, world)
    | (false, world) =>
        let outcome := source.read world (destination.drop completed)
        let filled := destination.take completed ++ outcome.2.1
        match outcome.1 with
        | .error error => (.error error, filled, outcome.2.2)
        | .ok read =>
            let remaining := destination.length - completed
            if read.bytesRead > remaining then
              (fail .pluginContractViolation .read
                "byte source reported more bytes than requested",
                filled, outcome.2.2)
            else if _hzero : read.bytesRead = 0 then
              (fail (if read.eof then .unexpectedEnd else .ioNoProgress) .read
                (if read.eof then "byte source ended before the requested bytes"
                  else "byte source made no progress"),
                filled, outcome.2.2)
            else if read.eof
                ∧ completed + read.bytesRead ≠ destination.length then
              (fail .unexpectedEnd .read
                "byte source ended before the requested bytes",
                filled, outcome.2.2)
            else
              readExactLoop source token outcome.2.2 filled
                (completed + read.bytesRead)
  else (.ok (), destination, world)
termination_by destination.length - completed
decreasing_by
  rw [List.length_append, source.read_length, List.length_take,
    List.length_drop]
  omega

/-- Fills the destination from where the source stands. -/
def readExact (source : ByteSource σ) (token : CancellationToken σ)
    (world : σ) (destination : List UInt8) : Status × List UInt8 × σ :=
  readExactLoop source token world destination 0

/-- Seeks, then fills the destination. -/
def readExactAt (source : ByteSource σ) (token : CancellationToken σ)
    (world : σ) (position : UInt64) (destination : List UInt8) :
    Status × List UInt8 × σ :=
  match requireSourceCapabilities (source.capabilities world)
      ⟨false, false, true⟩ with
  | .error error => (.error error, destination, world)
  | .ok () =>
      match token.isCancelled world with
      | (true, world) => (.error (cancelledError .read), destination, world)
      | (false, world) =>
          match source.seek world position with
          | (.error error, world) => (.error error, destination, world)
          | (.ok (), world) => readExact source token world destination

/-! ## Writing everything -/

/-- The loop of `write_all`. -/
def writeAllLoop (sink : ByteSink σ) (token : CancellationToken σ)
    (world : σ) (source : List UInt8) (completed : Nat) : Status × σ :=
  if _hmore : completed < source.length then
    match token.isCancelled world with
    | (true, world) => (.error (cancelledError .write), world)
    | (false, world) =>
        match sink.write world (source.drop completed) with
        | (.error error, world) => (.error error, world)
        | (.ok written, world) =>
            let remaining := source.length - completed
            if written > remaining then
              (fail .pluginContractViolation .write
                "byte sink reported more bytes than supplied", world)
            else if _hzero : written = 0 then
              (fail .ioNoProgress .write "byte sink made no progress", world)
            else
              writeAllLoop sink token world source (completed + written)
  else (.ok (), world)
termination_by source.length - completed
decreasing_by omega

/-- Writes all of the bytes where the sink stands. -/
def writeAll (sink : ByteSink σ) (token : CancellationToken σ) (world : σ)
    (source : List UInt8) : Status × σ :=
  writeAllLoop sink token world source 0

/-- Seeks, then writes all of the bytes. -/
def writeAllAt (sink : ByteSink σ) (token : CancellationToken σ) (world : σ)
    (position : UInt64) (source : List UInt8) : Status × σ :=
  match requireSinkCapabilities (sink.capabilities world)
      ⟨false, true, false⟩ with
  | .error error => (.error error, world)
  | .ok () =>
      match token.isCancelled world with
      | (true, world) => (.error (cancelledError .write), world)
      | (false, world) =>
          match sink.seek world position with
          | (.error error, world) => (.error error, world)
          | (.ok (), world) => writeAll sink token world source

end ShiboriByteIo
