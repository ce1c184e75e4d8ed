import Mathlib
import ShiboriEngine.Library.Machine
import ShiboriEngine.Library.Slots
import ShiboriEngine.ByteIo

/-! # Cancellation sources and tokens

    Sources and tokens share a state that holds one atomic flag.  A source is
    moved but never copied; a token is copied and moved.  A moved-from object
    holds no state.  Every member function reads or writes the flag at most
    once, so concurrent clients interleave the actions below. -/

namespace ShiboriCancellation

open ShiboriError ShiboriByteIo

/-- `std::shared_ptr` to a state: its address, or null. -/
abbrev StatePtr := Option Nat

/-- All objects of a process.  `states` are the flags, by address. -/
structure World where
  states : List Bool := []
  sources : List (Option StatePtr) := []
  tokens : List (Option StatePtr) := []
deriving DecidableEq, Repr

/-- One operation on a source or a token. -/
inductive Action where
  | createSource
  | moveSource (source : Nat)
  | moveAssignSource (target source : Nat)
  | destroySource (source : Nat)
  | token (source : Nat)
  | requestCancel (source : Nat)
  | createToken
  | copyToken (token : Nat)
  | assignToken (target token : Nat)
  | moveToken (token : Nat)
  | moveAssignToken (target token : Nat)
  | destroyToken (token : Nat)
  | isCancelled (token : Nat)
deriving DecidableEq, Repr

/-- `disabled`: the action names an object that does not exist, or would write
    through a null pointer. -/
inductive Reply where
  | disabled
  | done
  | answer (cancelled : Bool)
deriving DecidableEq, Repr

/-! ## Pointers -/

/-- The move constructor: a new object takes over, `i` is left null. -/
def moveConstruct (pointers : List (Option StatePtr)) (i : Nat)
    (held : StatePtr) : List (Option StatePtr) :=
  Slots.alloc (Slots.put pointers i (some none)) held

/-- Move assignment; of an object to itself it changes nothing. -/
def moveAssign (pointers : List (Option StatePtr)) (target source : Nat)
    (held : StatePtr) : List (Option StatePtr) :=
  if target = source then pointers
  else Slots.put (Slots.put pointers source (some none)) target (some held)

namespace World

/-- `std::make_shared<State>()`. -/
def makeState (w : World) : World := { w with states := w.states ++ [false] }

/-- `CancellationToken::is_cancelled`. -/
def isCancelled (w : World) (held : StatePtr) : Bool :=
  match held with
  | none => false
  | some n => w.states.getD n false

/-- Act on an object, if it exists. -/
def on (w : World) (object : Option StatePtr)
    (f : StatePtr → Reply × World) : Reply × World :=
  match object with
  | none => (.disabled, w)
  | some held => f held

/-- What an operation answers, and the handles after it. -/
def act (w : World) : Action → Reply × World
  | .createSource =>
      (.done, { w.makeState with
        sources := Slots.alloc w.sources (some w.states.length) })
  | .moveSource source =>
      w.on (Slots.get w.sources source) fun held =>
        (.done, { w with sources := moveConstruct w.sources source held })
  | .moveAssignSource target source =>
      w.on (Slots.get w.sources target) fun _ =>
        w.on (Slots.get w.sources source) fun held =>
          (.done, { w with
            sources := moveAssign w.sources target source held })
  | .destroySource source =>
      w.on (Slots.get w.sources source) fun _ =>
        (.done, { w with sources := Slots.put w.sources source none })
  | .token source =>
      w.on (Slots.get w.sources source) fun held =>
        (.done, { w with tokens := Slots.alloc w.tokens held })
  | .requestCancel source =>
      w.on (Slots.get w.sources source) fun held =>
        match held with
        | none => (.disabled, w)
        | some n => (.done, { w with states := w.states.set n true })
  | .createToken =>
      (.done, { w.makeState with
        tokens := Slots.alloc w.tokens (some w.states.length) })
  | .copyToken token =>
      w.on (Slots.get w.tokens token) fun held =>
        (.done, { w with tokens := Slots.alloc w.tokens held })
  | .assignToken target token =>
      w.on (Slots.get w.tokens target) fun _ =>
        w.on (Slots.get w.tokens token) fun held =>
          (.done, { w with
            tokens := Slots.put w.tokens target (some held) })
  | .moveToken token =>
      w.on (Slots.get w.tokens token) fun held =>
        (.done, { w with tokens := moveConstruct w.tokens token held })
  | .moveAssignToken target token =>
      w.on (Slots.get w.tokens target) fun _ =>
        w.on (Slots.get w.tokens token) fun held =>
          (.done, { w with
            tokens := moveAssign w.tokens target token held })
  | .destroyToken token =>
      w.on (Slots.get w.tokens token) fun _ =>
        (.done, { w with tokens := Slots.put w.tokens token none })
  | .isCancelled token =>
      w.on (Slots.get w.tokens token) fun held =>
        (.answer (w.isCancelled held), w)

end World

/-- The operations as a machine. -/
def step : Machine.Step World Action Reply := World.act

end ShiboriCancellation
