import Mathlib
import ShiboriEngine.Library.Slots
import ShiboriEngine.Library.Machine
import ShiboriEngine.Resource

/-! # Hierarchical budgets and reservations

    Budget states are shared objects: handles, active reservations and child
    states own them, and a state nobody owns may be destroyed at any later
    time.  Every member function holds the state's mutex for its whole effect,
    so a concurrent execution is an interleaving of the actions below. -/

namespace ShiboriBudget

open ShiboriError ShiboriResource

/-- `detail::ResourceBudgetState`; `parent` is an address. -/
structure ResourceBudgetState where
  kind : ResourceKind
  capacity : UInt64
  used : UInt64 := 0
  parent : Option Nat := none
  parentAmount : UInt64 := 0
deriving DecidableEq, Repr

/-- `ResourceBudget::available`. -/
def ResourceBudgetState.available (self : ResourceBudgetState) : UInt64 :=
  self.capacity - self.used

/-- A reservation object.  `ticket` is ghost: it follows the granted amount
    through moves. -/
structure ResourceReservation where
  state : Option Nat
  amount : UInt64
  ticket : Nat := 0
deriving DecidableEq, Repr

/-- Ghost: one grant, and one return of a grant. -/
structure Grant where
  node : Nat
  amount : UInt64
deriving DecidableEq, Repr

/-- Capacity that went back, and the reservation it came from. -/
structure Return where
  ticket : Nat
  grant : Grant
deriving DecidableEq, Repr

/-- All objects of a process.  `granted` and `returned` are ghost logs. -/
structure World where
  states : List (Option ResourceBudgetState) := []
  handles : List (Option Nat) := []
  reservations : List (Option ResourceReservation) := []
  terminated : Bool := false
  granted : List Grant := []
  returned : List Return := []
deriving DecidableEq, Repr

/-- `allocated` is whether the system has the memory for a new state. -/
inductive Action where
  | createRoot (kind : ResourceKind) (capacity : UInt64) (allocated : Bool)
  | createChild (handle : Nat) (capacity : UInt64) (operation : Operation)
      (allocated : Bool)
  | reserve (handle : Nat) (amount : UInt64) (operation : Operation)
  | copyHandle (handle : Nat)
  | dropHandle (handle : Nat)
  | moveConstruct (reservation : Nat)
  | moveAssign (target source : Nat)
  | release (reservation : Nat)
  | destroyReservation (reservation : Nat)
  | destroyState (state : Nat)
deriving DecidableEq, Repr

/-- `disabled`: the action names an object that does not exist. -/
inductive Reply where
  | disabled
  | done
  | failed (error : Error)
deriving DecidableEq, Repr

/-- `allocate_state`: a state without a parent, or the error of an allocation
    that failed. -/
def allocateState (kind : ResourceKind) (capacity : UInt64)
    (operation : Operation) (allocated : Bool) : Result ResourceBudgetState :=
  if allocated then .ok { kind := kind, capacity := capacity }
  else
    fail .allocationFailed operation "unable to allocate resource budget state"

namespace World

/-! ## Budget handles -/

/-- `ResourceBudget::create_root`. -/
def createRoot (w : World) (kind : ResourceKind) (capacity : UInt64)
    (allocated : Bool) : Reply × World :=
  if capacity = 0 then
    (.failed
      { code := .invalidResourceLimit, operation := .configure,
        message := "root resource capacity must be greater than zero" }, w)
  else
    match allocateState kind capacity .configure allocated with
    | .error error => (.failed error, w)
    | .ok state =>
        (.done,
          { w with
            states := Slots.alloc w.states state
            handles := Slots.alloc w.handles w.states.length })

/-- `ResourceBudget::create_child` on the state `n` of a handle. -/
def createChild (w : World) (n : Nat) (state : ResourceBudgetState)
    (capacity : UInt64) (operation : Operation) (allocated : Bool) :
    Reply × World :=
  if capacity = 0 then
    (.failed
      { code := .invalidResourceLimit, operation := operation,
        message := "child resource capacity must be greater than zero" }, w)
  else
    match allocateState state.kind capacity operation allocated with
    | .error error => (.failed error, w)
    | .ok child =>
        if capacity > state.capacity - state.used then
          (.failed
            { code := .limitExceeded, operation := operation,
              message := state.kind.toString
                ++ " cannot fund the requested child budget" }, w)
        else
          let charged := { state with used := state.used + capacity }
          let child :=
            { child with parent := some n, parentAmount := capacity }
          (.done,
            { w with
              states := Slots.alloc (Slots.put w.states n (some charged)) child
              handles := Slots.alloc w.handles w.states.length })

/-- `ResourceBudget::reserve` on the state `n` of a handle. -/
def reserve (w : World) (n : Nat) (state : ResourceBudgetState)
    (amount : UInt64) (operation : Operation) : Reply × World :=
  if amount = 0 then
    (.failed
      { code := .invalidResourceLimit, operation := operation,
        message := "resource reservation must be greater than zero" }, w)
  else if amount > state.capacity - state.used then
    (.failed
      { code := .limitExceeded, operation := operation,
        message := state.kind.toString ++ " budget is exhausted" }, w)
  else
    let charged := { state with used := state.used + amount }
    let reservation : ResourceReservation :=
      { state := some n, amount := amount, ticket := w.granted.length }
    (.done,
      { w with
        states := Slots.put w.states n (some charged)
        reservations := Slots.alloc w.reservations reservation
        granted := w.granted ++ [⟨n, amount⟩] })

/-! ## Reservations -/

/-- A reservation object with no state. -/
def idle : ResourceReservation := { state := none, amount := 0 }

/-- `ResourceReservation::release` on the object `r`. -/
def release (w : World) (r : Nat) : World :=
  match Slots.get w.reservations r with
  | none => w
  | some self =>
      match self.state with
      -- an idle or moved-from object has nothing to give back
      | none => w
      | some n =>
          match Slots.get w.states n with
          | none => w
          | some state =>
              -- an inconsistent account ends the process
              if self.amount > state.used then { w with terminated := true }
              else
                let refunded := { state with used := state.used - self.amount }
                { w with
                  states := Slots.put w.states n (some refunded)
                  reservations := Slots.put w.reservations r (some idle)
                  returned := w.returned
                    ++ [⟨self.ticket, n, self.amount⟩] }

/-- The move constructor: a new object takes over, `r` is left idle. -/
def moveConstruct (w : World) (r : Nat) (self : ResourceReservation) : World :=
  { w with
    reservations :=
      Slots.alloc (Slots.put w.reservations r (some idle)) self }

/-- Move assignment: the target releases what it held, then takes over. -/
def moveAssign (w : World) (target source : Nat) : World :=
  -- self-assignment does nothing
  if target = source then w
  else
    let w := w.release target
    match Slots.get w.reservations source with
    | none => w
    | some other =>
        { w with
          reservations :=
            Slots.put (Slots.put w.reservations target (some other)) source
              (some idle) }

/-- The destructor: release, then the object is gone. -/
def destroyReservation (w : World) (r : Nat) : World :=
  let w := w.release r
  { w with reservations := Slots.put w.reservations r none }

/-! ## The end of a budget state -/

/-- Nobody owns the state: no handle, no reservation, no child. -/
def unowned (w : World) (n : Nat) : Bool :=
  w.handles.all (fun handle => handle ≠ some n)
    && w.reservations.all (fun r => r.bind (·.state) ≠ some n)
    && w.states.all (fun s => s.bind (·.parent) ≠ some n)

/-- `~ResourceBudgetState`: refund the parent, then the state is gone. -/
def destroyState (w : World) (n : Nat) (self : ResourceBudgetState) : World :=
  let gone (states : List (Option ResourceBudgetState)) : World :=
    { w with states := Slots.put states n none }
  match self.parent with
  | none => gone w.states
  | some p =>
      match Slots.get w.states p with
      | none => gone w.states
      | some parent =>
          if self.parentAmount = 0 then gone w.states
          -- as in `release`
          else if self.parentAmount > parent.used then
            { w with terminated := true }
          else
            let refunded :=
              { parent with used := parent.used - self.parentAmount }
            gone (Slots.put w.states p (some refunded))

/-! ## Interleavings -/

/-- The state a handle points to. -/
def target (w : World) (handle : Nat) : Option (Nat × ResourceBudgetState) :=
  (Slots.get w.handles handle).bind fun n =>
    (Slots.get w.states n).map fun state => (n, state)

/-- Act on an object, if it exists. -/
def on {α : Type} (w : World) (object : Option α) (f : α → Reply × World) :
    Reply × World :=
  match object with
  | none => (.disabled, w)
  | some a => f a

/-- What an operation answers, and the world after it. -/
def perform (w : World) : Action → Reply × World
  | .createRoot kind capacity allocated =>
      w.createRoot kind capacity allocated
  | .createChild handle capacity operation allocated =>
      w.on (w.target handle) fun found =>
        w.createChild found.1 found.2 capacity operation allocated
  | .reserve handle amount operation =>
      w.on (w.target handle) fun found =>
        w.reserve found.1 found.2 amount operation
  | .copyHandle handle =>
      w.on (Slots.get w.handles handle) fun n =>
        (.done, { w with handles := Slots.alloc w.handles n })
  | .dropHandle handle =>
      w.on (Slots.get w.handles handle) fun _ =>
        (.done, { w with handles := Slots.put w.handles handle none })
  | .moveConstruct r =>
      w.on (Slots.get w.reservations r) fun self =>
        (.done, w.moveConstruct r self)
  | .moveAssign target source =>
      w.on (Slots.get w.reservations target) fun _ =>
        w.on (Slots.get w.reservations source) fun _ =>
          (.done, w.moveAssign target source)
  | .release r =>
      w.on (Slots.get w.reservations r) fun _ => (.done, w.release r)
  | .destroyReservation r =>
      w.on (Slots.get w.reservations r) fun _ =>
        (.done, w.destroyReservation r)
  | .destroyState n =>
      w.on (Slots.get w.states n) fun self =>
        if w.unowned n then (.done, w.destroyState n self)
        else (.disabled, w)

/-- One action; a terminated process does nothing more. -/
def act (w : World) (action : Action) : Reply × World :=
  if w.terminated then (.disabled, w) else w.perform action

end World

/-- An event is an action taken by some client. -/
def step {Client : Type} : Machine.Step World (Client × Action) Reply :=
  fun w event => w.act event.2

end ShiboriBudget
