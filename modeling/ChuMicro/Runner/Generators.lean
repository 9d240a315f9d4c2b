import ChuMicro.Python
import Mathlib.Logic.Function.Basic

/-!
# Generator tasks

`GeneratorHandle` and `_GeneratorWrapper` of `chumicro_runner/_generator.py`, with
`Runner.add_generator`, `tick`, `_dispatch_io_error` and `_record_handler_fault` of `core.py` as far
as they call them.

The body of a generator is user code, and so are the application, the handlers of other tasks and
the callback of the runner. All of it may call the runner again: a body may add generators, cancel
others or itself, and run a tick or a wait of its own. The state therefore holds the stack of calls
that are under way, and one step is one call of the code on top of it, or its end. What user code
does next is left open: an exception that a call raises into it may be caught or not, so it need not
be recorded.

What a body waits for decides only when it is resumed, which is left open as well: a tick collects
any of the entries, in their order, as long as a generator among them waits for something. The
attributes of a wait, and the checks of other tasks, do not call the runner.

Generators are numbered in the order they are added, and each is a new one, as `add_generator` asks.
As long as its entry is there, the runner keeps a generator alive. Python may finalize one that has
lost its entry while it waits at a `yield`, by a `GeneratorExit` that resumes it; no step does this.

## Main definitions

* `Generators.Generator` — a body, its handle and its wrapper.
* `Generators.Runner` — the generators, the entries, and the calls under way.
* `Generators.markDone`, `advance`, `advanceThrow`, `cancel`, `addGenerator` — the methods.
* `Generators.step` — one call of user code, its end, or one round of a tick.
* `Generators.Reaches` — the states that runs lead to.
-/

namespace ChuMicro.Generators

/-! ## Data -/

/-- What a body or a handler may raise: the `OSError` that `io_error` throws into a body, another
`Exception`, the `ReentrantTickError` that a tick does not isolate, or a `GeneratorExit` or another
`BaseException` that is no `Exception`. -/
inductive Raised where
  | socketError
  | exception (error : PyExn)
  | reentrantTick
  | generatorExit
  | baseException (tag : ℕ)
  deriving DecidableEq, Repr

/-- `isinstance(error, Exception)`. -/
def Raised.isException : Raised → Bool
  | .socketError | .exception _ | .reentrantTick => true
  | .generatorExit | .baseException _ => false

/-- How a body has ended: it returned, or it raised, or the `GeneratorExit` of `close` went through
it. -/
inductive Ending where
  | returned
  | raised (error : Raised)
  | exited
  deriving DecidableEq, Repr

/-- A generator object: it waits at a `yield`, its code is under way, or it is finished. -/
inductive Body where
  | suspended
  | running
  | ended (how : Ending)
  deriving DecidableEq, Repr

/-- A body with its `GeneratorHandle` and its `_GeneratorWrapper`. `wrapper` says that the handle
still has its `_wrapper`, `waiting` that `_wait` is not `None`, and `taskHandle` the same of
`_task_handle`. -/
structure Generator where
  body : Body
  done : Bool
  error : Option Raised
  wrapper : Bool
  waiting : Bool
  taskHandle : Bool
  deriving DecidableEq, Repr

/-- What stands for a generator that has not been added. -/
def Generator.absent : Generator where
  body := .ended .returned
  done := true
  error := none
  wrapper := false
  waiting := false
  taskHandle := false

/-- An entry of the runner: the wrapper of a generator, or another task. -/
inductive Task where
  | gen (i : ℕ)
  | other (k : ℕ)
  deriving DecidableEq, Repr

/-- Which method of the wrapper a body was resumed by: `start`, `handle`, `io_error` or `_close`. -/
inductive Via where
  | start
  | handle
  | ioError
  | close
  deriving DecidableEq, Repr

/-- A call under way: a body, a tick that has yet to fire the rest of its batch, the handler of
another task, or the callback for faults, called by a tick or by a wait. Below all of them is the
application. -/
inductive Frame where
  | body (i : ℕ) (via : Via)
  | tick (batch : List Task)
  | handler (k : ℕ)
  | callback (inTick : Bool)
  deriving DecidableEq, Repr

/-- The runner: the first `count` generators, `_entries`, and the calls under way, the last one
first. -/
structure Runner where
  count : ℕ
  gens : ℕ → Generator
  entries : List Task
  stack : List Frame

/-- A new runner. -/
def Runner.new : Runner where
  count := 0
  gens := fun _ => .absent
  entries := []
  stack := []

/-- Change one generator. -/
def Runner.update (r : Runner) (i : ℕ) (f : Generator → Generator) : Runner :=
  { r with gens := Function.update r.gens i (f (r.gens i)) }

/-- `_ticking`: it is set exactly while a tick is under way. -/
def Runner.ticking (r : Runner) : Bool :=
  r.stack.any fun frame =>
    match frame with
    | .tick _ => true
    | _ => false

/-- The entries that a tick under way has collected and not fired yet. -/
def Runner.queued (r : Runner) : List Task :=
  r.stack.flatMap fun frame =>
    match frame with
    | .tick batch => batch
    | _ => []

/-! ## The wrapper -/

/-- `_mark_done`. -/
def markDone (i : ℕ) (r : Runner) : Runner :=
  { r.update i fun g => { g with waiting := false, done := true, taskHandle := false } with
    entries := if (r.gens i).taskHandle then r.entries.erase (.gen i) else r.entries }

/-- The body of a generator goes on. -/
def resume (i : ℕ) (via : Via) (r : Runner) : Runner :=
  { r.update i fun g => { g with body := .running } with stack := .body i via :: r.stack }

/-- An exception leaves the handler that a tick has fired: the tick reports it, or is given up. -/
def raiseInTick (error : Raised) (r : Runner) : Runner :=
  if error.isException ∧ error ≠ .reentrantTick then { r with stack := .callback true :: r.stack }
  else { r with stack := r.stack.tail }

/-- An exception leaves `io_error`: the wait reports it, or is given up. -/
def raiseInWait (error : Raised) (r : Runner) : Runner :=
  if error.isException then { r with stack := .callback false :: r.stack } else r

/-- An exception leaves the method of the wrapper. The callers of `start` and `_close` are user
code. -/
def raiseOut (via : Via) (error : Raised) (r : Runner) : Runner :=
  match via with
  | .handle => raiseInTick error r
  | .ioError => raiseInWait error r
  | .start | .close => r

/-- The `except BaseException` of `_advance` and `_advance_throw`. -/
def died (i : ℕ) (via : Via) (error : Raised) (r : Runner) : Runner :=
  raiseOut via error (markDone i (r.update i fun g => { g with error := some error }))

/-- What `send`, `throw` and `close` raise if the body is under way. -/
def alreadyExecuting : Raised := .exception (.valueError "generator already executing")

/-- `handle`, as far as the body: `send` on a finished generator is a `StopIteration`. -/
def advance (i : ℕ) (r : Runner) : Runner :=
  match (r.gens i).body with
  | .suspended => resume i .handle r
  | .running => died i .handle alreadyExecuting r
  | .ended _ => markDone i r

/-- `io_error`, as far as the body: `throw` on a finished generator raises what is thrown. -/
def advanceThrow (i : ℕ) (r : Runner) : Runner :=
  match (r.gens i).body with
  | .suspended => resume i .ioError r
  | .running => died i .ioError alreadyExecuting r
  | .ended _ => died i .ioError .socketError r

/-- `_close`, as far as the body. On a body that is under way `close` raises, and the `finally`
still runs. -/
def close (i : ℕ) (r : Runner) : Runner :=
  if (r.gens i).done then r
  else
    match (r.gens i).body with
    | .suspended => resume i .close r
    | .running | .ended _ => markDone i r

/-- `GeneratorHandle.cancel`. -/
def cancel (i : ℕ) (r : Runner) : Runner :=
  if (r.gens i).wrapper then close i (r.update i fun g => { g with wrapper := false }) else r

/-- `Runner.add_generator`, as far as the body. -/
def addGenerator (r : Runner) : Runner where
  count := r.count + 1
  gens := Function.update r.gens r.count
    { body := .running, done := false, error := none, wrapper := true, waiting := false,
      taskHandle := true }
  entries := r.entries ++ [Task.gen r.count]
  stack := .body r.count .start :: r.stack

/-! ## The end of a call -/

/-- The body yields. One that answers `close` so makes it raise a `RuntimeError`. -/
def bodyYields (i : ℕ) (via : Via) (r : Runner) : Runner :=
  match via with
  | .close => markDone i (r.update i fun g => { g with body := .suspended })
  | _ => r.update i fun g => { g with body := .suspended, waiting := true }

/-- The body returns: a `StopIteration`, or the end that `close` asks for. -/
def bodyReturns (i : ℕ) (r : Runner) : Runner :=
  markDone i (r.update i fun g => { g with body := .ended .returned })

/-- The body raises. `close` lets a `GeneratorExit` pass, and `_close` keeps no error. -/
def bodyRaises (i : ℕ) (via : Via) (error : Raised) (r : Runner) : Runner :=
  match via with
  | .close =>
    let how := if error = .generatorExit then .exited else .raised error
    markDone i (r.update i fun g => { g with body := .ended how })
  | via => died i via error (r.update i fun g => { g with body := .ended (.raised error) })

/-- The callback raises: `_record_handler_fault` catches an `Exception`. -/
def callbackRaises (inTick : Bool) (error : Raised) (r : Runner) : Runner :=
  if error.isException then r
  else if inTick then { r with stack := r.stack.tail } else r

/-! ## Steps -/

/-- The calls of user code, the ways it ends, and the next round of a tick. `tick batch` is a tick
that collects `batch`; `ioError i` is a wait whose poller reports an error on the socket that
generator `i` waits for. -/
inductive Action where
  | addGenerator
  | cancel (i : ℕ)
  | add (k : ℕ)
  | remove (k : ℕ)
  | tick (batch : List Task)
  | ioError (i : ℕ)
  | yields
  | returns
  | raises (error : Raised)
  | next
  deriving DecidableEq, Repr

/-- User code is on top of the stack. -/
def Runner.inUserCode (r : Runner) : Bool :=
  match r.stack with
  | .tick _ :: _ => false
  | _ => true

/-- `check` of the wrapper says no if it has no wait; all else is left open. -/
def Runner.mayFire (r : Runner) : Task → Bool
  | .gen i => (r.gens i).waiting
  | .other _ => true

/-- A call of user code. A tick inside a tick raises and does nothing else. -/
def call (r : Runner) : Action → Option Runner
  | .addGenerator => some (addGenerator r)
  | .cancel i => if i < r.count then some (cancel i r) else none
  | .add k =>
    if .other k ∈ r.entries then none else some { r with entries := r.entries ++ [Task.other k] }
  | .remove k => some { r with entries := r.entries.erase (.other k) }
  | .tick batch =>
    if r.ticking then some r
    else if batch.Sublist r.entries ∧ batch.all r.mayFire then
      some { r with stack := .tick batch :: r.stack }
    else none
  | .ioError i =>
    if .gen i ∈ r.entries ∧ (r.gens i).waiting then some (advanceThrow i r) else none
  | _ => none

/-- The end of the user code on top of the stack. -/
def finish (r : Runner) : Action → Option Runner
  | .yields =>
    match r.stack with
    | .body i via :: stack => some (bodyYields i via { r with stack })
    | _ => none
  | .returns =>
    match r.stack with
    | .body i _ :: stack => some (bodyReturns i { r with stack })
    | .handler _ :: stack => some { r with stack }
    | .callback _ :: stack => some { r with stack }
    | _ => none
  | .raises error =>
    match r.stack with
    | .body i via :: stack => some (bodyRaises i via error { r with stack })
    | .handler _ :: stack => some (raiseInTick error { r with stack })
    | .callback inTick :: stack => some (callbackRaises inTick error { r with stack })
    | _ => none
  | _ => none

/-- The next round of the second loop of `tick`, or its end. -/
def nextRound (r : Runner) : Option Runner :=
  match r.stack with
  | .tick [] :: stack => some { r with stack }
  | .tick (.other k :: batch) :: stack =>
    some { r with stack := .handler k :: .tick batch :: stack }
  | .tick (.gen i :: batch) :: stack => some (advance i { r with stack := .tick batch :: stack })
  | _ => none

/-- One step, if it is possible. -/
def step (r : Runner) (action : Action) : Option Runner :=
  match action with
  | .next => nextRound r
  | .yields | .returns | .raises _ => finish r action
  | _ => if r.inUserCode then call r action else none

/-- The states that `allowed` steps lead to. -/
inductive Reaches (allowed : Runner → Action → Prop) : Runner → Prop
  | new : Reaches allowed .new
  | step {r r' : Runner} (action : Action) (reached : Reaches allowed r) (ok : allowed r action)
      (next : step r action = some r') : Reaches allowed r'

end ChuMicro.Generators
