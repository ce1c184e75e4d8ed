import Mathlib
import ShiboriEngine.Library.Spans
import ShiboriEngine.Library.Machine
import ShiboriEngine.ByteIo

/-! # File adapters over a stdio stream

    A stream is the content of its file, an offset and the two sticky
    indicators.  It is taken to be unbuffered: what `fwrite` counts is in the
    file at once, and a seek or a flush that fails changes nothing of it.  A
    stream of `fopen` that keeps its buffer is in `BufferedIo`.  What the
    operating system makes of one call is a fault record: how much a transfer
    moves, whether a short one sets the error indicator, whether a seek or a
    flush fails, and the text of `errno`.  Nobody else uses the file.  Each
    operation is given what its token would answer. -/

namespace ShiboriFileIo

open ShiboriError ShiboriByteIo Spans

/-! ## Stdio -/

/-- The content of a file, the offset, and the end and error indicators. -/
structure Stream where
  content : List UInt8
  offset : Nat := 0
  eof : Bool := false
  error : Bool := false
deriving DecidableEq, Repr

/-- The largest `NativeOffset` of the platform. -/
structure Platform where
  offsetMax : UInt64
deriving DecidableEq, Repr

/-- How one transfer goes: the bytes it moves at most, and whether a short one
    sets the error indicator. -/
structure TransferFault where
  moved : Nat
  fails : Bool
  errno : String := ""
deriving DecidableEq, Repr

/-- How a call that moves no data goes. -/
structure CallFault where
  fails : Bool
  errno : String := ""
deriving DecidableEq, Repr

/-- A platform with 64-bit file offsets. -/
def offset64 : Platform := ⟨9223372036854775807⟩

/-- A call that succeeds. -/
def noFault : CallFault := { fails := false }

/-- A transfer of up to `count` bytes that moves all it is asked for. -/
def fullTransfer (count : Nat) : TransferFault :=
  { moved := count, fails := false }

namespace Stream

/-- `fwrite` of `data`; gives the number of bytes stored. -/
def fwrite (self : Stream) (data : List UInt8) (fault : TransferFault) :
    Nat × Stream :=
  let stored := min data.length fault.moved
  (stored,
    { self with
      content := overwrite self.content self.offset (data.take stored)
      offset := self.offset + stored
      error := self.error || (decide (stored < data.length) && fault.fails) })

/-- `fread` of `count` bytes; gives the bytes read.  Only a request for more
    than remains sets the end indicator. -/
def fread (self : Stream) (count : Nat) (fault : TransferFault) :
    List UInt8 × Stream :=
  let data := (subspan self.content self.offset count).take fault.moved
  (data,
    { self with
      offset := self.offset + data.length
      eof := self.eof || decide (self.content.length < self.offset + count
        ∧ data.length = self.content.length - self.offset)
      error := self.error || (decide (data.length < count) && fault.fails) })

/-- `fseeko` from the start; a failure changes nothing. -/
def fseek (self : Stream) (offset : Nat) (fault : CallFault) : Bool × Stream :=
  if fault.fails then (false, self)
  else (true, { self with offset := offset, eof := false })

/-- `clearerr`: both indicators are off. -/
def clearerr (self : Stream) : Stream :=
  { self with eof := false, error := false }

/-- `fflush`; a failure may set the error indicator. -/
def fflush (self : Stream) (fault : CallFault) (sets : Bool) : Bool × Stream :=
  if fault.fails then (false, { self with error := self.error || sets })
  else (true, self)

end Stream

/-- An error with the text of `errno`. -/
def fileError (code : ErrorCode) (operation : Operation)
    (action errno : String) : Error :=
  { code := code, operation := operation, message := action ++ ": " ++ errno }

/-- What a cancelled operation fails with. -/
def fileCancelled (operation : Operation) : Error :=
  { code := .operationCancelled, operation := operation,
    message := "file I/O operation was cancelled" }

/-- The position as a `NativeOffset`, refused when it does not fit. -/
def checkedOffset (platform : Platform) (position : UInt64)
    (operation : Operation) : Result Nat :=
  if position > platform.offsetMax then
    fail .rangeExceeded operation
      "file position exceeds the platform offset range"
  else .ok position.toNat

/-! ## The source -/

/-- A file opened for reading. -/
structure FileByteSource where
  file : Stream
  position : UInt64 := 0
  size : UInt64
  maximumReadSize : UInt64
deriving DecidableEq, Repr

namespace FileByteSource

/-- `opened`, `ended` and `rewound` are `fopen`, the seek to the end with the
    tell, and the seek back. -/
def open' (path : String) (content : List UInt8) (maximumReadSize : UInt64)
    (opened ended rewound : CallFault) : Result FileByteSource :=
  if path.isEmpty ∨ maximumReadSize = 0 then
    fail .invalidConfiguration .configure
      "file source path and read size must be valid"
  else if opened.fails then
    .error (fileError .ioReadFailed .read "open failed" opened.errno)
  else if ended.fails then
    .error (fileError .ioReadFailed .read "size failed" ended.errno)
  else if rewound.fails then
    .error (fileError .ioReadFailed .read "size failed" rewound.errno)
  else
    .ok { file := { content := content }
          size := UInt64.ofNat content.length
          maximumReadSize := maximumReadSize }

/-- `FileByteSource::read`; the second component is the destination
    afterwards. -/
def read (self : FileByteSource) (destination : List UInt8)
    (cancelled : Bool) (fault : TransferFault) :
    Result ReadOutcome × List UInt8 × FileByteSource :=
  if cancelled then (.error (fileCancelled .read), destination, self)
  else
    let available := self.size - self.position
    let count := min destination.length
      (min self.maximumReadSize.toNat available.toNat)
    let moved :=
      if count = 0 then ([], self.file) else self.file.fread count fault
    let data := moved.1
    let file := moved.2
    let filled := overwrite destination 0 data
    let read := data.length
    let self :=
      { self with file := file, position := self.position + UInt64.ofNat read }
    if read < count ∧ file.error then
      (.error (fileError .ioReadFailed .read "file read failed" fault.errno),
        filled, self)
    else
      (.ok { bytesRead := read
             eof := self.position = self.size || file.eof }, filled, self)

/-- `FileByteSource::seek`. -/
def seek (self : FileByteSource) (platform : Platform) (position : UInt64)
    (cancelled : Bool) (fault : CallFault) : Status × FileByteSource :=
  if cancelled then (.error (fileCancelled .read), self)
  else if position > self.size then
    (fail .ioReadFailed .read "file source seek is beyond the end", self)
  else
    match checkedOffset platform position .read with
    | .error error => (.error error, self)
    | .ok offset =>
        match self.file.fseek offset fault with
        | (false, file) =>
            (.error (fileError .ioReadFailed .read "file seek failed"
              fault.errno), { self with file := file })
        | (true, file) =>
            (.ok (),
              { self with file := file.clearerr, position := position })

end FileByteSource

/-! ## The sink -/

/-- A file opened for writing. -/
structure FileByteSink where
  file : Stream
  position : UInt64 := 0
  maximumSize : UInt64
  extent : UInt64
  maximumWriteSize : UInt64
deriving DecidableEq, Repr

namespace FileByteSink

/-- `content` is the file found at `path`; truncating drops it. -/
def open' (path : String) (content : List UInt8) (maximumSize : UInt64)
    (truncate : Bool) (maximumWriteSize : UInt64)
    (opened ended rewound : CallFault) : Result FileByteSink :=
  if path.isEmpty ∨ maximumWriteSize = 0 then
    fail .invalidConfiguration .configure
      "file sink path and write size must be valid"
  else if opened.fails then
    .error (fileError .ioWriteFailed .write "open failed" opened.errno)
  else if truncate then
    .ok { file := { content := [] }, maximumSize := maximumSize, extent := 0
          maximumWriteSize := maximumWriteSize }
  else if ended.fails then
    .error (fileError .ioWriteFailed .write "size failed" ended.errno)
  else if rewound.fails then
    .error (fileError .ioWriteFailed .write "size failed" rewound.errno)
  else
    let extent := UInt64.ofNat content.length
    if extent > maximumSize then
      fail .limitExceeded .configure "existing file exceeds the sink bound"
    else
      .ok { file := { content := content }, maximumSize := maximumSize
            extent := extent, maximumWriteSize := maximumWriteSize }

/-- `FileByteSink::write`; a short count with the error indicator leaves
    before the position moves. -/
def write (self : FileByteSink) (source : List UInt8) (cancelled : Bool)
    (fault : TransferFault) : Result Nat × FileByteSink :=
  if cancelled then (.error (fileCancelled .write), self)
  else
    let available := self.maximumSize - self.position
    if ¬ source.isEmpty ∧ available = 0 then
      (fail .limitExceeded .write "file sink maximum size was reached", self)
    else
      let count := min source.length
        (min self.maximumWriteSize.toNat available.toNat)
      let moved :=
        if count = 0 then (0, self.file)
        else self.file.fwrite (source.take count) fault
      let written := moved.1
      let file := moved.2
      if written < count ∧ file.error then
        -- The stored bytes are not accounted for on this exit.
        (.error (fileError .ioWriteFailed .write "file write failed"
          fault.errno), { self with file := file })
      else
        let position := self.position + UInt64.ofNat written
        (.ok written,
          { self with
            file := file
            position := position
            extent := max self.extent position })

/-- `FileByteSink::seek`. -/
def seek (self : FileByteSink) (platform : Platform) (position : UInt64)
    (cancelled : Bool) (fault : CallFault) : Status × FileByteSink :=
  if cancelled then (.error (fileCancelled .write), self)
  else if position > self.extent then
    (fail .ioWriteFailed .write "file sink cannot seek beyond written bytes",
      self)
  else
    match checkedOffset platform position .write with
    | .error error => (.error error, self)
    | .ok offset =>
        match self.file.fseek offset fault with
        | (false, file) =>
            (.error (fileError .ioWriteFailed .write "file seek failed"
              fault.errno), { self with file := file })
        | (true, file) =>
            (.ok (),
              { self with file := file.clearerr, position := position })

/-- `FileByteSink::flush`. -/
def flush (self : FileByteSink) (cancelled : Bool) (fault : CallFault)
    (sets : Bool) : Status × FileByteSink :=
  if cancelled then (.error (fileCancelled .write), self)
  else
    match self.file.fflush fault sets with
    | (false, file) =>
        (.error (fileError .ioWriteFailed .write "file flush failed"
          fault.errno), { self with file := file })
    | (true, file) => (.ok (), { self with file := file })

end FileByteSink

/-! ## Calls on a sink -/

/-- A call with its arguments, the answer of its token and what the operating
    system makes of it. -/
inductive SinkCall where
  | write (source : List UInt8) (cancelled : Bool) (fault : TransferFault)
  | seek (position : UInt64) (cancelled : Bool) (fault : CallFault)
  | flush (cancelled : Bool) (fault : CallFault) (sets : Bool)
deriving DecidableEq, Repr

/-- What a request answers. -/
inductive SinkReply where
  | wrote (result : Result Nat)
  | done (status : Status)
deriving DecidableEq

/-- The sink as a machine. -/
def sinkStep (platform : Platform) :
    Machine.Step FileByteSink SinkCall SinkReply
  | sink, .write source cancelled fault =>
      let (result, sink) := sink.write source cancelled fault
      (.wrote result, sink)
  | sink, .seek position cancelled fault =>
      let (status, sink) := sink.seek platform position cancelled fault
      (.done status, sink)
  | sink, .flush cancelled fault sets =>
      let (status, sink) := sink.flush cancelled fault sets
      (.done status, sink)

end ShiboriFileIo
