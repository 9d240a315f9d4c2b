import ChuMicro.Timing
import ChuMicro.Lib.Prog

/-!
# The wifi service

`WifiService` of `chumicro_wifi/service.py`: a supervisor that drives the adapter of a radio through
connecting, watching the link and reconnecting. An adapter that blocks settles an attempt within
`connect`; one that does not is asked for its link until the attempt has timed out.

The clock, the adapter and the callbacks answer by the number of the question, so that an answer may
depend on all that happened before it. A callback is a program of its own, which may call the
service back; `Env.Aloof` says that none does. The service notes what it does in a log, which only
the statements look at.

## Main definitions

* `Wifi.WifiState`, `Wifi.WifiConfig` — the states and the configuration.
* `Wifi.WifiService` — the service.
* `Wifi.Env` — the clock, the adapter and the callbacks.
* `Wifi.check`, `Wifi.handle` — `WifiService.check` and `WifiService.handle`.
* `Wifi.Reaches` — the states that calls of the application and ticks lead to.
-/

namespace ChuMicro.Wifi

/-! ## Data -/

/-- `WifiState`. -/
inductive WifiState where
  | DISCONNECTED
  | CONNECTING
  | CONNECTED
  | RECONNECTING
  | FAILED
  deriving DecidableEq, Repr

/-- `WifiConfig`, as far as the state machine reads it. -/
structure WifiConfig where
  connectTimeoutMs : ℤ := 15000
  firstConnectTimeoutMs : Option ℤ := none
  reconnectBackoffStartMs : ℤ := 1000
  reconnectBackoffMaxMs : ℤ := 60000
  reconnectMax : Option ℤ := none
  deriving DecidableEq, Repr

/-- What follows from a failed attempt: the service gives up, schedules the next attempt `delayMs`
after the clock reading `clockMs`, or cannot because `ticks_add` refuses the delay. -/
inductive Verdict where
  | gaveUp
  | retry (clockMs delayMs dueMs : ℤ)
  | unscheduled
  deriving DecidableEq, Repr

/-- What the service does. -/
inductive Event where
  | changed (old new : WifiState)
  | attempt (nowMs : ℤ)
  | succeeded
  | failed (verdict : Verdict)
  | lost (nowMs : ℤ)
  deriving DecidableEq, Repr

/-- `WifiService`. `asked` counts the questions and `log` is kept for the statements only. -/
structure WifiService where
  state : WifiState
  lastError : Option PyExn
  nextAttemptDueMs : ℤ
  currentBackoffMs : ℤ
  reconnectAttempts : ℤ
  attemptDeadlineMs : Option ℤ
  firstConnectDispatched : Bool
  stateCallbacks : List ℕ
  configured : Bool
  asked : ℕ
  log : List Event

/-- A computation on the service. -/
abbrev M := Prog WifiService PyExn

/-- The clock, the adapter and the callbacks. The last argument of an answer is the number of the
question; `configure` and the callbacks may raise. -/
structure Env where
  ticksMs : ℕ → ℤ
  configure : ℕ → Except PyExn Unit
  connect : ℤ → ℕ → Except PyExn Bool
  isLinked : ℕ → Bool
  connectBlocks : ℕ → Bool
  callback : ℕ → WifiState → WifiState → ℕ → M Unit

/-- The callbacks return or raise, and leave the service as it is. -/
def Env.Aloof (env : Env) : Prop :=
  ∀ callback old new n s, (env.callback callback old new n s).2 = s

/-- `WifiService.__init__`, which reads the clock. -/
def WifiService.new (cfg : WifiConfig) (env : Env) : WifiService where
  state := .DISCONNECTED
  lastError := none
  nextAttemptDueMs := env.ticksMs 0
  currentBackoffMs := cfg.reconnectBackoffStartMs
  reconnectAttempts := 0
  attemptDeadlineMs := none
  firstConnectDispatched := false
  stateCallbacks := []
  configured := false
  asked := 1
  log := []

/-- `on_state_change`. -/
def onStateChange (callback : ℕ) : M Unit :=
  Prog.modify fun s => { s with stateCallbacks := s.stateCallbacks ++ [callback] }

/-- An answer of the outside world. -/
def ask {α : Type} (answer : ℕ → α) : M α := do
  let s ← Prog.get
  Prog.modify fun s => { s with asked := s.asked + 1 }
  pure (answer s.asked)

/-- Note an event. -/
def note (event : Event) : M Unit := Prog.modify fun s => { s with log := s.log ++ [event] }

/-! ## Transitions -/

/-- The callbacks of a transition, those that were registered before it. An exception is recorded
into an empty slot only. -/
def notify (env : Env) (old new : WifiState) : List ℕ → M Unit
  | [] => pure ()
  | callback :: callbacks => do
    let program ← ask (env.callback callback old new)
    Prog.tryCatch program fun error =>
      Prog.modify fun s => { s with lastError := if s.lastError = none then some error else s.lastError }
    notify env old new callbacks

/-- `_transition`. -/
def transition (env : Env) (new : WifiState) : M Unit := do
  let s ← Prog.get
  if new = s.state then pure ()
  else do
    Prog.modify fun s => { s with state := new }
    note (.changed s.state new)
    notify env s.state new s.stateCallbacks

/-- `_reset_backoff`. -/
def resetBackoff (cfg : WifiConfig) : M Unit :=
  Prog.modify fun s => { s with currentBackoffMs := cfg.reconnectBackoffStartMs }

/-- `_mark_connected`. -/
def markConnected (cfg : WifiConfig) (env : Env) : M Unit := do
  Prog.modify fun s => { s with lastError := none }
  resetBackoff cfg
  Prog.modify fun s => { s with reconnectAttempts := 0 }
  Prog.modify fun s => { s with attemptDeadlineMs := none }
  note .succeeded
  transition env .CONNECTED

/-- `_register_failed_attempt`. -/
def registerFailedAttempt (cfg : WifiConfig) (env : Env) : M Unit := do
  Prog.modify fun s => { s with reconnectAttempts := s.reconnectAttempts + 1 }
  let s ← Prog.get
  if cfg.reconnectMax.any (· ≤ s.reconnectAttempts) then do
    note (.failed .gaveUp)
    transition env .FAILED
  else do
    let clock ← ask env.ticksMs
    match ticksAdd clock s.currentBackoffMs with
    | .error error => do
      note (.failed .unscheduled)
      Prog.throw error
    | .ok due => do
      note (.failed (.retry clock s.currentBackoffMs due))
      Prog.modify fun s => { s with nextAttemptDueMs := due }
      Prog.modify fun s =>
        { s with currentBackoffMs := min (s.currentBackoffMs * 2) cfg.reconnectBackoffMaxMs }

/-! ## Attempts -/

/-- `_attempt_timeout_ms`. -/
def attemptTimeoutMs (cfg : WifiConfig) (s : WifiService) : ℤ :=
  match cfg.firstConnectTimeoutMs with
  | some graceMs => if s.firstConnectDispatched then cfg.connectTimeoutMs else graceMs
  | none => cfg.connectTimeoutMs

/-- The calls of the adapter in an attempt: `configure`, once, and `connect`. -/
def dial (env : Env) (timeoutMs : ℤ) : M Bool := do
  let s ← Prog.get
  Prog.when (s.configured = false) do
    let result ← ask env.configure
    Prog.lift result
    Prog.modify fun s => { s with configured := true }
  Prog.modify fun s => { s with firstConnectDispatched := true }
  let result ← ask (env.connect timeoutMs)
  Prog.lift result

/-- `_attempt_connect`. -/
def attemptConnect (cfg : WifiConfig) (env : Env) (nowMs : ℤ) : M Unit := do
  let s ← Prog.get
  let timeoutMs := attemptTimeoutMs cfg s
  note (.attempt nowMs)
  -- `none` stands for an adapter that raised
  let ok ← Prog.tryCatch
    (do
      let ok ← dial env timeoutMs
      pure (some ok))
    fun error => do
      Prog.modify fun s => { s with lastError := some error }
      pure none
  match ok with
  | some true => markConnected cfg env
  | none => registerFailedAttempt cfg env
  | some false => do
    let blocks ← ask env.connectBlocks
    if blocks then registerFailedAttempt cfg env
    else do
      let deadline ← Prog.lift (ticksAdd nowMs timeoutMs)
      Prog.modify fun s => { s with attemptDeadlineMs := some deadline }

/-- `_poll_in_flight`. -/
def pollInFlight (cfg : WifiConfig) (env : Env) (nowMs deadlineMs : ℤ) : M Unit := do
  let linked ← ask env.isLinked
  if linked then markConnected cfg env
  else if 0 ≤ ticksDiff nowMs deadlineMs then do
    Prog.modify fun s => { s with attemptDeadlineMs := none }
    registerFailedAttempt cfg env
  else pure ()

/-! ## The service in a runner -/

/-- `WifiService.check`. -/
def check (env : Env) (nowMs : ℤ) : M Bool := do
  let s ← Prog.get
  match s.state with
  | .FAILED => pure false
  | .CONNECTED => do
    let linked ← ask env.isLinked
    pure !linked
  | _ =>
    if s.attemptDeadlineMs.isSome then pure true
    else pure (decide (0 ≤ ticksDiff nowMs s.nextAttemptDueMs))

/-- The part of `handle` for a service that is neither linked nor has given up. -/
def pursue (cfg : WifiConfig) (env : Env) (nowMs : ℤ) : M Unit := do
  let s ← Prog.get
  match s.attemptDeadlineMs with
  | some deadline => pollInFlight cfg env nowMs deadline
  | none =>
    if ticksDiff nowMs s.nextAttemptDueMs < 0 then pure ()
    else attemptConnect cfg env nowMs

/-- `WifiService.handle`. -/
def handle (cfg : WifiConfig) (env : Env) (nowMs : ℤ) : M Unit := do
  let s ← Prog.get
  match s.state with
  | .CONNECTED => do
    let linked ← ask env.isLinked
    if linked then pure ()
    else do
      resetBackoff cfg
      Prog.modify fun s => { s with nextAttemptDueMs := nowMs }
      Prog.modify fun s => { s with attemptDeadlineMs := none }
      note (.lost nowMs)
      transition env .RECONNECTING
  | .FAILED => pure ()
  | .DISCONNECTED => do
    transition env .CONNECTING
    pursue cfg env nowMs
  | _ => pursue cfg env nowMs

/-! ## Runs -/

/-- What may happen to a service: the application registers a callback, or a tick calls `check` or
`handle`. -/
inductive Action where
  | onStateChange (callback : ℕ)
  | check (nowMs : ℤ)
  | handle (nowMs : ℤ)

/-- The effect of an action, whether it returns or raises. -/
def act (cfg : WifiConfig) (env : Env) (action : Action) (s : WifiService) : WifiService :=
  match action with
  | .onStateChange callback => (onStateChange callback s).2
  | .check nowMs => (check env nowMs s).2
  | .handle nowMs => (handle cfg env nowMs s).2

/-- The states that actions lead to. -/
inductive Reaches (cfg : WifiConfig) (env : Env) : WifiService → Prop
  | new : Reaches cfg env (.new cfg env)
  | step {s : WifiService} (action : Action) (h : Reaches cfg env s) :
      Reaches cfg env (act cfg env action s)

end ChuMicro.Wifi
