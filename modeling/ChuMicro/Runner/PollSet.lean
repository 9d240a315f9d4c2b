import ChuMicro.Python
import Mathlib.Logic.Function.Basic
import Mathlib.Data.Nat.Bitwise

/-!
# The poll set of a runner

`Runner._sync_poll_set`, `_unregister_descriptor` and the part of `wait` that creates the poller, of
`chumicro_runner/core.py`. A sweep asks each live entry which socket it wants to be polled for which
events, and brings the registrations of the poller up to date.

The poller is `select.poll` with its dictionary, keyed by the object (MicroPython, CircuitPython) or
by the file descriptor the object has at the time of the call (CPython, where a closed socket has
none). Sockets are numbered by their identity `id(sock)`; a slot keeps its socket alive, so that no
other object has its identity.

## Main definitions

* `Runner.Poller` — `register`, `modify` and `unregister` of a poller, with its calls.
* `Runner.World` — a runner among its services and sockets.
* `Runner.World.syncPollSet` — `_sync_poll_set`.
* `Runner.World.wait` — `wait`, as far as the poll set goes.
* `Runner.World.act` — what may happen between two sweeps.
-/

namespace ChuMicro.Runner

/-! ## Constants -/

/-- `_POLLIN`. -/
def POLLIN : ℕ := 0x001

/-- `_POLLOUT`. -/
def POLLOUT : ℕ := 0x004

/-- `IO_READ`. -/
def IO_READ : ℕ := 1

/-- `IO_WRITE`. -/
def IO_WRITE : ℕ := 2

/-- `errno.ENOENT`. -/
def ENOENT : ℕ := 2

/-! ## Sockets and services -/

/-- The life of a socket object: it is opened with a descriptor (`none` where the runtime has no
`fileno`) and closed once. -/
inductive SocketStatus where
  | absent
  | opened (descriptor : Option ℕ)
  | closed
  deriving DecidableEq, Repr

/-- All sockets by their identity. -/
abbrev Sockets := ℕ → SocketStatus

/-- What a service has as `io_socket`: a bare socket, or an adapter that holds one on `.sock`. -/
inductive IoSocket where
  | bare (sock : ℕ)
  | adapter (sock : ℕ)
  deriving DecidableEq, Repr

/-- `_pollable_of`. -/
def pollableOf : IoSocket → ℕ
  | .bare sock => sock
  | .adapter sock => sock

/-- `_fileno_of`: a closed socket answers -1. -/
def filenoOf (sockets : Sockets) (sock : ℕ) : Option ℕ :=
  match sockets sock with
  | .opened descriptor => descriptor
  | _ => none

/-- What a service reports. -/
structure Service where
  ioSocket : Option IoSocket
  ioInterest : ℕ → ℕ

/-- A `TaskHandle`: its service, unless it is a bare handler, and whether that has `io_interest`. -/
structure TaskHandle where
  service : Option ℕ
  hasInterest : Bool
  deriving DecidableEq, Repr

/-! ## Pollers -/

/-- What the dictionary of a poller is keyed by. -/
inductive Keying where
  | byObject
  | byDescriptor
  deriving DecidableEq, Repr

/-- What a poller is asked to register: a socket or a bare descriptor. -/
inductive PollArg where
  | sock (sock : ℕ)
  | descriptor (descriptor : ℕ)
  deriving DecidableEq, Repr

/-- A call of a poller. -/
inductive PollCall where
  | register (arg : PollArg) (eventmask : ℕ)
  | modify (arg : PollArg) (eventmask : ℕ)
  | unregister (arg : PollArg)
  deriving DecidableEq, Repr

/-- A poller: its dictionary and the calls it got. -/
structure Poller where
  keying : Keying
  regs : ℕ → Option ℕ
  calls : List PollCall

namespace Poller

/-- A new poller. -/
def new (keying : Keying) : Poller := { keying, regs := fun _ => none, calls := [] }

/-- The key of an argument. A socket that is closed has no descriptor any more. -/
def keyOf (sockets : Sockets) (keying : Keying) : PollArg → Except PyExn ℕ
  | .sock sock =>
    match keying with
    | .byObject => .ok sock
    | .byDescriptor =>
      match filenoOf sockets sock with
      | some descriptor => .ok descriptor
      | none => .error (.valueError "file descriptor cannot be a negative integer (-1)")
  | .descriptor descriptor =>
    match keying with
    | .byObject => .error (.keyError "")
    | .byDescriptor => .ok descriptor

/-- Note a call. -/
def noted (p : Poller) (call : PollCall) : Poller := { p with calls := p.calls ++ [call] }

/-- Change the dictionary at a key. -/
def put (p : Poller) (key : ℕ) (mask : Option ℕ) : Poller :=
  { p with regs := Function.update p.regs key mask }

/-- `register`. A key that is there already is overwritten. -/
def register (sockets : Sockets) (p : Poller) (arg : PollArg) (eventmask : ℕ) :
    Except PyExn Unit × Poller :=
  let p := p.noted (.register arg eventmask)
  match keyOf sockets p.keying arg with
  | .error e => (.error e, p)
  | .ok key => (.ok (), p.put key (some eventmask))

/-- `modify`. -/
def modify (sockets : Sockets) (p : Poller) (arg : PollArg) (eventmask : ℕ) :
    Except PyExn Unit × Poller :=
  let p := p.noted (.modify arg eventmask)
  match keyOf sockets p.keying arg with
  | .error e => (.error e, p)
  | .ok key =>
    if p.regs key = none then (.error (.osError ENOENT), p)
    else (.ok (), p.put key (some eventmask))

/-- `unregister`. -/
def unregister (sockets : Sockets) (p : Poller) (arg : PollArg) : Except PyExn Unit × Poller :=
  let p := p.noted (.unregister arg)
  match keyOf sockets p.keying arg with
  | .error e => (.error e, p)
  | .ok key =>
    if p.regs key = none then (.error (.keyError ""), p)
    else (.ok (), p.put key none)

end Poller

/-! ## The runner -/

/-- A slot of `_registered_interest`, under the identity of its socket. -/
structure Slot where
  sock : ℕ
  registeredMask : ℕ
  sweepMask : ℕ
  sweepGeneration : ℕ
  descriptor : Option ℕ
  deriving DecidableEq, Repr

/-- A runner among its services and sockets. `adapter` is the kind of poller the runtime has. -/
structure World where
  adapter : Keying
  sockets : Sockets
  services : ℕ → Service
  entries : List TaskHandle
  poller : Option Poller
  registered : List Slot
  sweepGeneration : ℕ

/-- The events of an interest. -/
def eventmaskOf (interest : ℕ) : ℕ :=
  (if interest &&& IO_READ ≠ 0 then POLLIN else 0) |||
    (if interest &&& IO_WRITE ≠ 0 then POLLOUT else 0)

namespace World

/-- What an entry wants to be polled: a socket and events. -/
def wants (w : World) (now : ℕ) (entry : TaskHandle) : Option (ℕ × ℕ) :=
  match entry.service with
  | none => none
  | some service =>
    if entry.hasInterest = false then none
    else
      match (w.services service).ioSocket with
      | none => none
      | some sock =>
        let eventmask := eventmaskOf ((w.services service).ioInterest now)
        if eventmask = 0 then none else some (pollableOf sock, eventmask)

/-- Stamp the slot of a wanted socket, or make one: the slots and the number of stamped ones. -/
def mark (sockets : Sockets) (generation sock eventmask : ℕ) (registered : List Slot) (count : ℕ) :
    List Slot × ℕ :=
  match registered.find? (·.sock = sock) with
  | none =>
    (registered ++ [⟨sock, 0, eventmask, generation, filenoOf sockets sock⟩], count + 1)
  | some slot =>
    let stamped :=
      if slot.sweepGeneration ≠ generation then
        { slot with sweepMask := eventmask, sweepGeneration := generation }
      else { slot with sweepMask := slot.sweepMask ||| eventmask }
    (registered.map fun slot' => if slot'.sock = sock then stamped else slot',
      if slot.sweepGeneration ≠ generation then count + 1 else count)

/-- The first loop of `_sync_poll_set`. -/
def markAll (w : World) (now generation : ℕ) :
    List TaskHandle → List Slot → ℕ → List Slot × ℕ
  | [], registered, count => (registered, count)
  | entry :: entries, registered, count =>
    match w.wants now entry with
    | none => markAll w now generation entries registered count
    | some (sock, eventmask) =>
      let (registered, count) := mark w.sockets generation sock eventmask registered count
      markAll w now generation entries registered count

/-- Bring the registration of a slot up to date. -/
def applySlot (sockets : Sockets) (poller : Option Poller) (slot : Slot) :
    Except PyExn Unit × Option Poller :=
  match poller with
  | none => (.ok (), none)
  | some p =>
    let (result, p) :=
      if slot.registeredMask = 0 then p.register sockets (.sock slot.sock) slot.sweepMask
      else p.modify sockets (.sock slot.sock) slot.sweepMask
    (result, some p)

/-- The second loop of `_sync_poll_set`. -/
def applyAll (sockets : Sockets) (generation : ℕ) :
    List Slot → Option Poller → Except PyExn Unit × List Slot × Option Poller
  | [], poller => (.ok (), [], poller)
  | slot :: slots, poller =>
    if slot.sweepGeneration ≠ generation ∨ slot.registeredMask = slot.sweepMask then
      let (result, slots, poller) := applyAll sockets generation slots poller
      (result, slot :: slots, poller)
    else
      match applySlot sockets poller slot with
      | (.error e, poller) => (.error e, slot :: slots, poller)
      | (.ok (), poller) =>
        let (result, slots, poller) := applyAll sockets generation slots poller
        (result, { slot with registeredMask := slot.sweepMask } :: slots, poller)

/-- `_unregister_descriptor`. -/
def unregisterDescriptor (sockets : Sockets) (registered : List Slot) (p : Poller)
    (descriptor : Option ℕ) : Poller :=
  match descriptor with
  | none => p
  | some d =>
    if registered.any (·.descriptor = some d) then p
    else (p.unregister sockets (.descriptor d)).2

/-- Drop a slot that nobody wants. The poller raises only what is caught. -/
def dropSlot (sockets : Sockets) (registered : List Slot) (poller : Option Poller) (slot : Slot) :
    Option Poller :=
  match poller with
  | none => none
  | some p =>
    match p.unregister sockets (.sock slot.sock) with
    | (.ok (), p) => some p
    | (.error _, p) => some (unregisterDescriptor sockets registered p slot.descriptor)

/-- The loop over `stale`. -/
def dropAll (sockets : Sockets) : List Slot → List Slot → Option Poller → List Slot × Option Poller
  | [], registered, poller => (registered, poller)
  | slot :: stale, registered, poller =>
    let registered := registered.filter (·.sock ≠ slot.sock)
    dropAll sockets stale registered (dropSlot sockets registered poller slot)

/-- `_sync_poll_set`. -/
def syncPollSet (w : World) (now : ℕ) : Except PyExn Unit × World :=
  let generation := w.sweepGeneration + 1
  let (marked, wantedCount) := markAll w now generation w.entries w.registered 0
  match applyAll w.sockets generation marked w.poller with
  | (.error e, registered, poller) =>
    (.error e, { w with registered, poller, sweepGeneration := generation })
  | (.ok (), registered, poller) =>
    let (registered, poller) :=
      if registered.length > wantedCount then
        dropAll w.sockets (registered.filter (·.sweepGeneration ≠ generation)) registered poller
      else (registered, poller)
    (.ok (), { w with registered, poller, sweepGeneration := generation })

/-- The loop of `wait` that registers all slots with a new poller. -/
def registerAll (sockets : Sockets) : List Slot → Poller → Except PyExn Unit × Poller
  | [], p => (.ok (), p)
  | slot :: slots, p =>
    match p.register sockets (.sock slot.sock) slot.registeredMask with
    | (.error e, p) => (.error e, p)
    | (.ok (), p) => registerAll sockets slots p

/-- The part of `wait` that creates the poller: when there is something to poll. -/
def ensurePoller (w : World) : Except PyExn Unit × World :=
  if w.registered = [] then (.ok (), w)
  else
    match w.poller with
    | some _ => (.ok (), w)
    | none =>
      let (result, p) := registerAll w.sockets w.registered (Poller.new w.adapter)
      (result, { w with poller := some p })

/-- `wait`, as far as the poll set goes: `timeout` is what `_compute_timeout` returns. What the
handlers of the events do comes after it. -/
def wait (w : World) (now : ℕ) (timeout : Option ℤ) : Except PyExn Unit × World :=
  match w.syncPollSet now with
  | (.error e, w) => (.error e, w)
  | (.ok (), w) =>
    match timeout with
    | some t => if t ≤ 0 then (.ok (), w) else w.ensurePoller
    | none => w.ensurePoller

/-- What the poller is or will be keyed by. -/
def keying (w : World) : Keying :=
  match w.poller with
  | some p => p.keying
  | none => w.adapter

/-- A runner without tasks, and no sockets yet. The poller is given or created later. -/
def start (adapter : Keying) (given : Option Keying) (services : ℕ → Service) : World where
  adapter := adapter
  sockets := fun _ => .absent
  services := services
  entries := []
  poller := given.map Poller.new
  registered := []
  sweepGeneration := 0

end World

/-! ## Histories -/

/-- What happens in a history: tasks are added and removed, sockets opened and closed, services
change what they report, and the runner waits. -/
inductive Action where
  | add (handle : TaskHandle)
  | remove (handle : TaskHandle)
  | openSocket (sock : ℕ) (descriptor : Option ℕ)
  | closeSocket (sock : ℕ)
  | report (service : ℕ) (state : Service)
  | wait (now : ℕ) (timeout : Option ℤ)

namespace World

/-- The world after an action. -/
def act (w : World) : Action → World
  | .add handle => { w with entries := w.entries ++ [handle] }
  | .remove handle => { w with entries := w.entries.erase handle }
  | .openSocket sock descriptor =>
    { w with sockets := Function.update w.sockets sock (.opened descriptor) }
  | .closeSocket sock => { w with sockets := Function.update w.sockets sock .closed }
  | .report service state => { w with services := Function.update w.services service state }
  | .wait now timeout => (w.wait now timeout).2

/-- The events the live entries want of a socket, all together. -/
def wantedMask (w : World) (now sock : ℕ) : ℕ :=
  (((w.entries.filterMap (w.wants now)).filter (·.1 = sock)).map (·.2)).foldl (· ||| ·) 0

/-- A socket is open. -/
def IsOpen (w : World) (sock : ℕ) : Prop := ∃ descriptor, w.sockets sock = .opened descriptor

/-- What the surroundings keep to: a socket object is opened once, with a descriptor no other open
socket has, where descriptors matter; only an open socket is closed; and no service reports a closed
socket when the runner waits. -/
def Allowed (w : World) : Action → Prop
  | .openSocket sock descriptor =>
    w.sockets sock = .absent ∧ (w.keying = .byDescriptor → descriptor ≠ none) ∧
      ∀ sock' d, w.sockets sock' = .opened (some d) → descriptor ≠ some d
  | .closeSocket sock => w.IsOpen sock
  | .wait now _ => ∀ sock, w.wantedMask now sock ≠ 0 → w.IsOpen sock
  | _ => True

/-- The worlds that histories lead to. -/
inductive Reachable : World → Prop where
  | start (adapter : Keying) (given : Option Keying) (services : ℕ → Service) :
    Reachable (start adapter given services)
  | act {w : World} {a : Action} : Reachable w → w.Allowed a → Reachable (w.act a)

end World

end ChuMicro.Runner
