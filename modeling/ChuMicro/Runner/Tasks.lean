import ChuMicro.Timing
import ChuMicro.Lib.Prog

/-!
# The tasks of a runner

`TaskHandle`, `Runner.add`, `add_periodic`, `tick`, `_record_handler_fault` and `_remove` of
`chumicro_runner/core.py`. A tick first asks every registered task that is due whether it wants to
run, and then fires the handlers of those that do, one after the other. A handler may add tasks,
remove tasks, change periods and raise.

Handles are numbered in the order `add` returns them. What user code does is given by the
environment: a check answers or raises, a handler makes some calls on the runner and then returns or
raises. A tick is named by the number of the clock reading it starts with, and within one tick each
task is asked and fired at most once, so that an answer may depend on all that happened before it. A
call that raises inside a handler is either caught, and the handler goes on, or is the last one of
the handler. A call of `tick` inside a handler raises and changes nothing, so that it shows in the
outcome of the handler only. Checks do not touch the runner. A generator is a task like any other,
whose handler removes it when the generator ends.

## Main definitions

* `Tasks.TaskHandle`, `Tasks.Runner` — a task and the runner it is registered with.
* `Tasks.Env` — the clock and the user code.
* `Tasks.add`, `Tasks.setPeriod`, `Tasks.removeHandle` — `Runner.add`, `TaskHandle.set_period` and
  `TaskHandle.remove`.
* `Tasks.tick` — `Runner.tick`.
* `Tasks.Reaches` — the states the application drives a runner to.
-/

namespace ChuMicro.Tasks

/-! ## Data -/

/-- What may be raised out of a handler: an `Exception`, the `ReentrantTickError` of a nested
`tick`, or a `BaseException` that is no `Exception`, such as `KeyboardInterrupt`. -/
inductive Exn where
  | exception (error : PyExn)
  | reentrantTick
  | baseException (tag : ℕ)
  deriving DecidableEq, Repr

/-- `TaskHandle`. `checked` says that it has a `check_function`; `limit` is the run count the task
was added with. -/
structure TaskHandle where
  checked : Bool
  periodMs : Option ℤ
  nextDueMs : Option ℤ
  runCount : Option ℤ
  preservePhase : Bool
  active : Bool
  limit : Option ℤ
  deriving DecidableEq, Repr

/-- The arguments of `add`: whether a task object and a handler are given, and the rest. -/
structure Registration where
  task : Bool
  handler : Bool
  periodMs : Option ℤ := none
  startAfterMs : Option ℤ := none
  runCount : Option ℤ := none
  preservePhase : Bool := false
  deriving DecidableEq, Repr

/-- A call on the runner or on one of its handles. -/
inductive Call where
  | add (registration : Registration)
  | addPeriodic (registration : Registration)
  | setPeriod (handle : ℕ) (periodMs nowMs : Option ℤ)
  | remove (handle : ℕ)
  deriving DecidableEq, Repr

/-- What user code does when it is called: some calls, and then it returns or raises. -/
structure Script where
  calls : List Call
  outcome : Except Exn Unit

/-- The clock and the user code. The first argument of the answers is the number of the clock
reading that the tick began with, the second one is the task. -/
structure Env where
  ticksMs : ℕ → ℤ
  check : ℕ → ℕ → Except Exn Bool
  handler : ℕ → ℕ → Script
  onHandlerError : Option (ℕ → ℕ → Script)

/-- What happened to the tasks. `waiting` are the tasks that the tick in progress has collected and
not fired yet. -/
inductive Event where
  | added (task : ℕ)
  | removed (task : ℕ) (waiting : List ℕ)
  | fired (task : ℕ) (limited : Bool) (waiting : List ℕ) (outcome : Except Exn Unit)
  | reported (task : ℕ) (limited : Bool) (waiting : List ℕ) (outcome : Except Exn Unit)

/-- `Runner`. The clock readings are counted in `reads`; `waiting` and `log` are kept for the
statements only. -/
structure Runner where
  tasks : List TaskHandle
  entries : List ℕ
  pending : List (Option ℕ)
  ticking : Bool
  handlerErrors : ℕ
  lastHandlerError : Option Exn
  reads : ℕ
  waiting : List ℕ
  log : List Event

/-- A new runner. -/
def Runner.new : Runner where
  tasks := []
  entries := []
  pending := []
  ticking := false
  handlerErrors := 0
  lastHandlerError := none
  reads := 0
  waiting := []
  log := []

/-- A computation on the runner. -/
abbrev M := Prog Runner Exn

/-- `raise ValueError(message)`. -/
def raiseValueError (message : String) : M Unit := Prog.throw (.exception (.valueError message))

/-- Change the handle of a task. -/
def Runner.withTask (r : Runner) (task : ℕ) (f : TaskHandle → TaskHandle) : Runner :=
  { r with tasks := r.tasks.modify task f }

/-- Note an event. -/
def Runner.noted (r : Runner) (event : Event) : Runner := { r with log := r.log ++ [event] }

/-! ## Registration -/

/-- `ticks_ms`. -/
def readTicks (env : Env) : M ℤ := do
  let r ← Prog.get
  Prog.modify fun r => { r with reads := r.reads + 1 }
  pure (env.ticksMs r.reads)

/-- `ticks_add`. -/
def addTicks (ticks delta : ℤ) : M ℤ :=
  Prog.lift ((ticksAdd ticks delta).mapError Exn.exception)

/-- `_initial_next_due_ms`. -/
def initialNextDueMs (env : Env) (startAfterMs periodMs : Option ℤ) : M (Option ℤ) :=
  match startAfterMs.or periodMs with
  | none => pure none
  | some delayMs => do
    let nowMs ← readTicks env
    let due ← addTicks nowMs delayMs
    pure (some due)

/-- The handle of a new task. -/
def Registration.handle (a : Registration) (nextDueMs : Option ℤ) : TaskHandle where
  checked := a.task
  periodMs := a.periodMs
  nextDueMs := nextDueMs
  runCount := a.runCount
  preservePhase := a.preservePhase
  active := true
  limit := a.runCount

/-- Append a handle to `_entries`. -/
def Runner.registered (r : Runner) (handle : TaskHandle) : Runner :=
  { r with tasks := r.tasks ++ [handle], entries := r.entries ++ [r.tasks.length] }.noted
    (.added r.tasks.length)

/-- `Runner.add`. -/
def add (env : Env) (a : Registration) : M Unit := do
  Prog.when (a.task ∧ a.handler) (raiseValueError
    ("Pass a task object OR a handler callable, not both " ++
      "(the separate check-plus-handler shape was removed; " ++
      "give the object both check() and handle(), or gate " ++
      "inside the handler)"))
  Prog.when (¬ a.task ∧ ¬ a.handler) (raiseValueError
    ("Provide a task object (with .check() and .handle()) " ++
      "or a handler callable"))
  Prog.when (a.periodMs.any (· ≤ 0)) (raiseValueError "period_ms must be greater than zero")
  Prog.when (a.runCount.any (· ≤ 0)) (raiseValueError "run_count must be greater than zero")
  Prog.when (a.preservePhase ∧ a.periodMs = none)
    (raiseValueError "preserve_phase requires period_ms")
  let nextDueMs ← initialNextDueMs env a.startAfterMs a.periodMs
  Prog.modify fun r => r.registered (a.handle nextDueMs)

/-- `Runner.add_periodic`: only a handler and a period. -/
def addPeriodic (env : Env) (a : Registration) : M Unit := do
  Prog.when (a.periodMs = none) (raiseValueError "period_ms is required for add_periodic")
  add env { a with task := false, handler := true }

/-! ## Handles -/

/-- The time a new period is counted from: the one given, or that of the clock. -/
def anchorMs (env : Env) (nowMs : Option ℤ) : M ℤ :=
  match nowMs with
  | some now => pure now
  | none => readTicks env

/-- `TaskHandle.set_period`. -/
def setPeriod (env : Env) (task : ℕ) (periodMs nowMs : Option ℤ) : M Unit := do
  Prog.when (periodMs.any (· ≤ 0)) (raiseValueError "period_ms must be greater than zero")
  Prog.modify fun r => r.withTask task fun h => { h with periodMs := periodMs }
  match periodMs with
  | none => Prog.modify fun r => r.withTask task fun h => { h with nextDueMs := none }
  | some period => do
    let now ← anchorMs env nowMs
    let due ← addTicks now period
    Prog.modify fun r => r.withTask task fun h => { h with nextDueMs := some due }

/-- `Runner._remove`. A handle is registered at most once. -/
def Runner.removed (r : Runner) (task : ℕ) : Runner :=
  { r.withTask task (fun h => { h with active := false }) with entries := r.entries.erase task }

/-- `TaskHandle.remove`. -/
def removeHandle (task : ℕ) : M Unit :=
  Prog.modify fun r => (r.removed task).noted (.removed task r.waiting)

/-- A call on the runner. Only handles that `add` has returned can be called. -/
def perform (env : Env) : Call → M Unit
  | .add a => add env a
  | .addPeriodic a => addPeriodic env a
  | .setPeriod task periodMs nowMs => do
    let r ← Prog.get
    Prog.when (task < r.tasks.length) (setPeriod env task periodMs nowMs)
  | .remove task => do
    let r ← Prog.get
    Prog.when (task < r.tasks.length) (removeHandle task)

/-! ## A tick -/

/-- The calls of user code, the exceptions they raise being caught. -/
def performAll (env : Env) : List Call → M Unit
  | [] => pure ()
  | call :: calls => do
    Prog.tryCatch (perform env call) fun _ => pure ()
    performAll env calls

/-- User code. -/
def runScript (env : Env) (script : Script) : M Unit := do
  performAll env script.calls
  Prog.lift script.outcome

/-- Whether the period gate of `tick` lets a task through. -/
def TaskHandle.isDue (h : TaskHandle) (nowMs : ℤ) : Bool :=
  match h.nextDueMs with
  | none => true
  | some due => decide (0 ≤ ticksDiff nowMs due)

/-- The next deadline of a task that is due. A period is positive, so that the division rounds
down. -/
def TaskHandle.rescheduled (h : TaskHandle) (nowMs : ℤ) : Except PyExn (Option ℤ) :=
  match h.nextDueMs with
  | none => .ok none
  | some due =>
    match h.periodMs with
    | none => .ok none
    | some period =>
      if h.preservePhase then
        let behind := ticksDiff nowMs due
        let periodsMissed := behind / period + 1
        (ticksAdd due (periodsMissed * period)).map some
      else (ticksAdd nowMs period).map some

/-- Whether a task without a check, or whose check answers yes, is to be fired. -/
def TaskHandle.asked (env : Env) (tick task : ℕ) (h : TaskHandle) : Except Exn Bool :=
  if h.checked then env.check tick task else .ok true

/-- Write a slot of `_pending`, or make one. -/
def Runner.slotted (r : Runner) (count task : ℕ) : Runner :=
  { r with
    pending :=
      if count < r.pending.length then r.pending.set count (some task)
      else r.pending ++ [some task] }

/-- One round of the first loop of `tick`: the number of slots in use after it. -/
def collectEntry (env : Env) (tick : ℕ) (nowMs : ℤ) (count task : ℕ) : M ℕ := do
  let r ← Prog.get
  match r.tasks[task]? with
  | none => Prog.throw (.exception .attributeError)
  | some h =>
    if h.isDue nowMs then do
      let due ← Prog.lift ((h.rescheduled nowMs).mapError Exn.exception)
      Prog.modify fun r => r.withTask task fun h => { h with nextDueMs := due }
      let go ← Prog.lift (h.asked env tick task)
      if go then do
        Prog.modify fun r => r.slotted count task
        pure (count + 1)
      else pure count
    else pure count

/-- The first loop of `tick`. -/
def collect (env : Env) (tick : ℕ) (nowMs : ℤ) : List ℕ → ℕ → M ℕ
  | [], count => pure count
  | task :: tasks, count => do
    let count ← collectEntry env tick nowMs count task
    collect env tick nowMs tasks count

/-- `_record_handler_fault`. What `on_error` raises is isolated as well, unless it is no
`Exception`. -/
def recordHandlerFault (env : Env) (tick task : ℕ) (limited : Bool) (error : PyExn) : M Unit := do
  Prog.modify fun r =>
    { r with
      handlerErrors := r.handlerErrors + 1
      lastHandlerError := some (.exception error) }
  match env.onHandlerError with
  | none => pure ()
  | some onError => do
    let script := onError tick task
    Prog.modify fun r => r.noted (.reported task limited r.waiting script.outcome)
    Prog.tryCatch (runScript env script) fun raised =>
      match raised with
      | .baseException tag => Prog.throw (.baseException tag)
      | callbackError =>
        Prog.modify fun r =>
          { r with
            handlerErrors := r.handlerErrors + 1
            lastHandlerError := some callbackError }

/-- The run count of a fired task, and its removal when that is used up. -/
def countRun (task : ℕ) : M Unit := do
  let r ← Prog.get
  match r.tasks[task]?.bind TaskHandle.runCount with
  | none => pure ()
  | some runCount => do
    Prog.modify fun r => r.withTask task fun h => { h with runCount := some (runCount - 1) }
    Prog.when (runCount - 1 ≤ 0) (Prog.modify fun r => r.removed task)

/-- Fire a task. -/
def fire (env : Env) (tick task : ℕ) : M Unit := do
  let r ← Prog.get
  let limited := (r.tasks[task]?.bind TaskHandle.runCount).isSome
  let script := env.handler tick task
  Prog.modify fun r =>
    { r with waiting := r.waiting.tail }.noted
      (.fired task limited r.waiting.tail script.outcome)
  Prog.tryCatch (runScript env script) fun raised =>
    match raised with
    | .exception error => recordHandlerFault env tick task limited error
    | raised => Prog.throw raised
  countRun task

/-- One round of the second loop of `tick`. A slot in use holds a task. -/
def fireSlot (env : Env) (tick index : ℕ) : M (Option Unit) := do
  let r ← Prog.get
  match r.pending[index]? with
  | some (some task) => do
    fire env tick task
    pure none
  | _ => Prog.throw (.exception .attributeError)

/-- The slots of `_pending` that are in use, as the tasks to fire. -/
def Runner.collected (r : Runner) (count : ℕ) : List ℕ := (r.pending.take count).filterMap id

/-- `Runner.tick`. -/
def tick (env : Env) : M ℤ := do
  let r ← Prog.get
  if r.ticking then Prog.throw .reentrantTick
  else do
    Prog.modify fun r => { r with ticking := true }
    Prog.tryFinally
      (do
        let nowMs ← readTicks env
        let count ← collect env r.reads nowMs r.entries 0
        Prog.modify fun r => { r with waiting := r.collected count }
        let _ ← Prog.forEach (fireSlot env r.reads) (List.range count)
        pure nowMs)
      (Prog.modify fun r =>
        { r with
          pending := r.pending.map fun _ => none
          ticking := false
          waiting := [] })

/-! ## Runs -/

/-- What the application does between ticks, and the ticks. -/
inductive Action where
  | call (call : Call)
  | tick

/-- The effect of an action, whether it returns or raises. -/
def act (env : Env) (action : Action) (r : Runner) : Runner :=
  match action with
  | .call call => (perform env call r).2
  | .tick => (tick env r).2

/-- The states the application drives a runner to. -/
inductive Reaches (env : Env) : Runner → Prop
  | new : Reaches env .new
  | step {r : Runner} (action : Action) (h : Reaches env r) : Reaches env (act env action r)

end ChuMicro.Tasks
