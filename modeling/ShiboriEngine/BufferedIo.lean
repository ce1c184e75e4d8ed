import Mathlib
import ShiboriEngine.Library.WriteBehind
import ShiboriEngine.FileIo

/-! # The file sink over a buffered stream

    `fopen` gives a stream that writes behind its file: what `fwrite` takes is
    pending until it is written out, by a later call or at the latest by
    `fflush`, `fseeko` or `fclose`.  What the operating system makes of one
    writing out is a fault record.  An error shows at the call it happens in,
    sets the error indicator, and may drop everything pending, with bytes that
    earlier calls took.  Nobody else uses the file. -/

namespace ShiboriBufferedIo

open ShiboriError ShiboriByteIo ShiboriFileIo WriteBehind

/-! ## Stdio -/

/-- How one writing out goes: the pending bytes that reach the file at most,
    whether an error ends it, and whether that drops the others. -/
structure WriteOut where
  moved : Nat
  fails : Bool
  loses : Bool := true
  errno : String := ""
deriving DecidableEq, Repr

/-- A stream with what it has not written out yet. -/
structure BufferedStream where
  buffer : Buffer UInt8
  error : Bool := false
deriving DecidableEq, Repr

namespace BufferedStream

/-- Write out what is pending. -/
def writeOut (self : BufferedStream) (out : WriteOut) :
    Bool × BufferedStream :=
  if out.fails then
    let rest := self.buffer.drain out.moved
    (false,
      { buffer := if out.loses then rest.discard else rest, error := true })
  else (true, { self with buffer := self.buffer.flush })

/-- `fwrite` of `data`: it takes everything and may write out a part of what is
    pending then.  Only an error makes it take less, `taken` bytes at most. -/
def fwrite (self : BufferedStream) (data : List UInt8) (taken : Nat)
    (out : WriteOut) : Nat × BufferedStream :=
  if out.fails then
    let count := min taken (data.length - 1)
    let file := { self with buffer := self.buffer.put (data.take count) }
    (count, (file.writeOut out).2)
  else
    (data.length,
      { self with buffer := (self.buffer.put data).drain out.moved })

/-- `fflush`. -/
def fflush (self : BufferedStream) (out : WriteOut) : Bool × BufferedStream :=
  self.writeOut out

/-- `fseeko` from the start; it writes out before it moves. -/
def fseek (self : BufferedStream) (offset : Nat) (out : WriteOut)
    (fault : CallFault) : Bool × BufferedStream :=
  match self.writeOut out with
  | (false, file) => (false, file)
  | (true, file) =>
      if fault.fails then (false, file)
      else (true, { file with buffer := file.buffer.moveTo offset })

/-- `clearerr`. -/
def clearerr (self : BufferedStream) : BufferedStream :=
  { self with error := false }

/-- `fclose`; gives the file it leaves. -/
def fclose (self : BufferedStream) (out : WriteOut) : Bool × List UInt8 :=
  let reply := self.writeOut out
  (reply.1, reply.2.buffer.stored)

end BufferedStream

/-! ## The sink -/

/-- A file sink over a buffered stream. -/
structure BufferedSink where
  file : BufferedStream
  position : UInt64 := 0
  maximumSize : UInt64
  extent : UInt64
  maximumWriteSize : UInt64
deriving DecidableEq, Repr

namespace BufferedSink

/-- `FileByteSink::open`; `content` is the file found at `path`. -/
def open' (path : String) (content : List UInt8) (maximumSize : UInt64)
    (truncate : Bool) (maximumWriteSize : UInt64)
    (opened ended rewound : CallFault) : Result BufferedSink :=
  if path.isEmpty ∨ maximumWriteSize = 0 then
    fail .invalidConfiguration .configure
      "file sink path and write size must be valid"
  else if opened.fails then
    .error (fileError .ioWriteFailed .write "open failed" opened.errno)
  else if truncate then
    .ok { file := { buffer := { stored := [] } }, maximumSize := maximumSize
          extent := 0, maximumWriteSize := maximumWriteSize }
  else if ended.fails then
    .error (fileError .ioWriteFailed .write "size failed" ended.errno)
  else if rewound.fails then
    .error (fileError .ioWriteFailed .write "size failed" rewound.errno)
  else
    let extent := UInt64.ofNat content.length
    if extent > maximumSize then
      fail .limitExceeded .configure "existing file exceeds the sink bound"
    else
      .ok { file := { buffer := { stored := content } }
            maximumSize := maximumSize, extent := extent
            maximumWriteSize := maximumWriteSize }

/-- `FileByteSink::write`. -/
def write (self : BufferedSink) (source : List UInt8) (cancelled : Bool)
    (taken : Nat) (out : WriteOut) : Result Nat × BufferedSink :=
  if cancelled then (.error (fileCancelled .write), self)
  else
    let available := self.maximumSize - self.position
    if ¬ source.isEmpty ∧ available = 0 then
      (fail .limitExceeded .write "file sink maximum size was reached", self)
    else
      let count := min source.length
        (min self.maximumWriteSize.toNat available.toNat)
      let reply :=
        if count = 0 then (0, self.file)
        else self.file.fwrite (source.take count) taken out
      let written := reply.1
      let file := reply.2
      if written < count ∧ file.error then
        (.error (fileError .ioWriteFailed .write "file write failed"
          out.errno), { self with file := file })
      else
        let position := self.position + UInt64.ofNat written
        (.ok written,
          { self with
            file := file
            position := position
            extent := max self.extent position })

/-- `FileByteSink::seek`. -/
def seek (self : BufferedSink) (platform : Platform) (position : UInt64)
    (cancelled : Bool) (out : WriteOut) (fault : CallFault) :
    Status × BufferedSink :=
  if cancelled then (.error (fileCancelled .write), self)
  else if position > self.extent then
    (fail .ioWriteFailed .write "file sink cannot seek beyond written bytes",
      self)
  else
    match checkedOffset platform position .write with
    | .error error => (.error error, self)
    | .ok offset =>
        match self.file.fseek offset out fault with
        | (false, file) =>
            (.error (fileError .ioWriteFailed .write "file seek failed"
              (if out.fails then out.errno else fault.errno)),
              { self with file := file })
        | (true, file) =>
            (.ok (),
              { self with file := file.clearerr, position := position })

/-- `FileByteSink::flush`. -/
def flush (self : BufferedSink) (cancelled : Bool) (out : WriteOut) :
    Status × BufferedSink :=
  if cancelled then (.error (fileCancelled .write), self)
  else
    match self.file.fflush out with
    | (false, file) =>
        (.error (fileError .ioWriteFailed .write "file flush failed"
          out.errno), { self with file := file })
    | (true, file) => (.ok (), { self with file := file })

/-- `~FileByteSink`, which drops the result of `fclose`; gives the file it
    leaves.  A process that ends instead is one that writes out nothing. -/
def close (self : BufferedSink) (out : WriteOut) : List UInt8 :=
  (self.file.fclose out).2

end BufferedSink

/-! ## Calls on the sink -/

/-- A call with its arguments, the answer of its token and what the operating
    system makes of it. -/
inductive BufferedCall where
  | write (source : List UInt8) (cancelled : Bool) (taken : Nat)
      (out : WriteOut)
  | seek (position : UInt64) (cancelled : Bool) (out : WriteOut)
      (fault : CallFault)
  | flush (cancelled : Bool) (out : WriteOut)
deriving DecidableEq, Repr

/-- One call. -/
def bufferedStep (platform : Platform) :
    Machine.Step BufferedSink BufferedCall SinkReply
  | sink, .write source cancelled taken out =>
      let (result, sink) := sink.write source cancelled taken out
      (.wrote result, sink)
  | sink, .seek position cancelled out fault =>
      let (status, sink) := sink.seek platform position cancelled out fault
      (.done status, sink)
  | sink, .flush cancelled out =>
      let (status, sink) := sink.flush cancelled out
      (.done status, sink)

end ShiboriBufferedIo
