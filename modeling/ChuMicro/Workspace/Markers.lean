import ChuMicro.Lib.Dict
import ChuMicro.Text

/-!
# Markers on a board's output

The marker lines of `chumicro_workspace/markers.py`, `NAME key=value ...`, and the queue on which a
host waits for them. The calls of the queue that go round a loop are given by what one round does,
as another thread may put markers between any two rounds.

## Main definitions

* `Markers.parseMarker` — `parse_marker`.
* `Markers.MarkerQueue` — the queue, with `push`, `offer_line`, `_pop_deferred` and `_defer`.
* `Markers.Watch`, `Markers.Watch.step` — the queue with the call that its consumer is in, and the
  atomic steps of the two threads.
-/

namespace ChuMicro.Markers

/-! ## Marker lines -/

/-- `Marker`. -/
structure Marker where
  name : Str
  values : List (Str × Str)
  deriving DecidableEq, Repr

/-- `_RESERVED_MARKER_NAMES`. -/
def RESERVED_MARKER_NAMES : List Str :=
  ["PASS".toList, "FAIL".toList, "SKIP".toList, "SUMMARY".toList, "HEAP".toList]

/-- `[A-Z]`. -/
def isNameStart (c : Char) : Bool := 'A' ≤ c && c ≤ 'Z'

/-- `[A-Z0-9_]`. -/
def isNameChar (c : Char) : Bool := isNameStart c || ('0' ≤ c && c ≤ '9') || c == '_'

/-- `[a-z_]`. -/
def isKeyStart (c : Char) : Bool := ('a' ≤ c && c ≤ 'z') || c == '_'

/-- `[a-z0-9_]`. -/
def isKeyChar (c : Char) : Bool := isKeyStart c || ('0' ≤ c && c ≤ '9')

/-- `_MARKER_NAME_PATTERN.match`: the name, and what comes after the white space behind it, if there
is any. The rest ends at the end of the text or at a line feed that is its last character. -/
def matchName : Str → Option (Str × Option Str)
  | [] => none
  | c :: line =>
    if isNameStart c = false then none
    else
      let name := c :: line.takeWhile isNameChar
      let tail := line.dropWhile isNameChar
      if tail = [] then some (name, none)
      else if tail.takeWhile isSpace = [] then none
      else
        let rest := tail.dropWhile isSpace
        let behind := rest.dropWhile (· ≠ '\n')
        if behind = [] ∨ behind = ['\n'] then some (name, some (rest.takeWhile (· ≠ '\n'))) else none

/-- `_KEY_VALUE_PATTERN.match` on a token without white space. -/
def matchKeyValue (token : Str) : Option (Str × Str) :=
  let key := token.takeWhile (· ≠ '=')
  match token.dropWhile (· ≠ '=') with
  | [] => none
  | _ :: value =>
    if (key.head?.any isKeyStart && key.all isKeyChar) && (value ≠ [] ∧ '=' ∉ value) then
      some (key, value)
    else none

/-- `str.split()`, with the word that is being read. -/
def splitWords : Str → Str → List Str
  | word, [] => if word = [] then [] else [word]
  | word, c :: text =>
    if isSpace c then
      if word = [] then splitWords [] text else word :: splitWords [] text
    else splitWords (word ++ [c]) text

/-- The loop of `parse_marker` over the tokens. -/
def parseValues : List (Str × Str) → List Str → Option (List (Str × Str))
  | values, [] => some values
  | values, token :: tokens =>
    match matchKeyValue token with
    | none => none
    | some (key, value) => parseValues (Dict.set key value values) tokens

/-- `parse_marker`. -/
def parseMarker (line : Str) : Option Marker :=
  match matchName line with
  | none => none
  | some (name, remainder) =>
    if name ∈ RESERVED_MARKER_NAMES then none
    else
      match remainder with
      | none => some ⟨name, []⟩
      | some remainder => (parseValues [] (splitWords [] remainder)).map (Marker.mk name)

example : parseMarker "SERVER_READY ip=192.168.1.50 port=8765\n".toList =
    some ⟨"SERVER_READY".toList,
      [("ip".toList, "192.168.1.50".toList), ("port".toList, "8765".toList)]⟩ := by decide

example : parseMarker "SUMMARY total=3 failed=0 time=0.2s".toList = none := by decide

/-! ## The queue -/

/-- `_DEFERRED_MARKER_CAP`. -/
def DEFERRED_MARKER_CAP : ℕ := 256

/-- `_MALFORMED_LINE_CAP`. -/
def MALFORMED_LINE_CAP : ℕ := 8

/-- `MarkerQueue`. -/
structure MarkerQueue where
  queue : List Marker
  deferred : List Marker
  malformed : List Str
  malformedTotal : ℕ
  deriving DecidableEq, Repr

/-- A list that drops its oldest item where it is full, with one more item. -/
def appendCapped {α : Type} (cap : ℕ) (items : List α) (item : α) : List α :=
  (if cap ≤ items.length then items.tail else items) ++ [item]

namespace MarkerQueue

/-- `MarkerQueue.__init__`. -/
def new : MarkerQueue := ⟨[], [], [], 0⟩

/-- `MarkerQueue.push`. -/
def push (q : MarkerQueue) (marker : Marker) : MarkerQueue := { q with queue := q.queue ++ [marker] }

/-- A line that is nearly a marker. -/
def isNearMiss (line : Str) : Bool :=
  match matchName line with
  | some (name, some remainder) =>
    name ∉ RESERVED_MARKER_NAMES ∧ (splitWords [] remainder).any fun token =>
      (matchKeyValue token).isSome
  | _ => false

/-- `MarkerQueue.offer_line`. -/
def offerLine (q : MarkerQueue) (line : Str) : Option Marker × MarkerQueue :=
  match parseMarker line with
  | some marker => (some marker, q.push marker)
  | none =>
    if isNearMiss line then
      (none, { q with
        malformed := appendCapped MALFORMED_LINE_CAP q.malformed line
        malformedTotal := q.malformedTotal + 1 })
    else (none, q)

/-- `MarkerQueue._pop_deferred`. -/
def popDeferred (q : MarkerQueue) (name : Str) : Option (Marker × MarkerQueue) :=
  match q.deferred.find? (·.name = name) with
  | none => none
  | some marker => some (marker, { q with deferred := q.deferred.eraseP (·.name = name) })

/-- `MarkerQueue._defer`. -/
def defer (q : MarkerQueue) (marker : Marker) : MarkerQueue :=
  { q with deferred := appendCapped DEFERRED_MARKER_CAP q.deferred marker }

end MarkerQueue

/-! ## The two threads -/

/-- A call of the consumer: `poll(name)`, or `wait_for(name)` with or without a `pump`. -/
inductive Call where
  | poll (name : Str)
  | waitFor (name : Str) (pump : Bool)
  deriving DecidableEq, Repr

/-- The name that a call asks for. -/
def Call.name : Call → Str
  | .poll name => name
  | .waitFor name _ => name

/-- What can be seen of the queue from outside. -/
inductive Event where
  | arrived (marker : Marker)
  | returned (call : Call) (marker : Marker)
  | nothing (name : Str)
  | timedOut (name : Str)
  deriving DecidableEq, Repr

/-- The queue, the call whose loop the consumer is in, and all that has happened, oldest first. -/
structure Watch extends MarkerQueue where
  call : Option Call
  history : List Event
  deriving DecidableEq, Repr

/-- An atomic step. The producer pushes a marker or offers a line; the consumer starts a call, takes
a marker in its loop, finds the queue empty (at once in `poll`, at the end of a time slice in
`wait_for`), or finds at the head of the loop of `wait_for` that its time is over. -/
inductive Action where
  | push (marker : Marker)
  | offerLine (line : Str)
  | start (call : Call)
  | get
  | empty
  | expire
  deriving DecidableEq, Repr

namespace Watch

/-- A new queue, and no call. -/
def new : Watch := { MarkerQueue.new with call := none, history := [] }

/-- The call returns or raises. -/
def finish (w : Watch) (q : MarkerQueue) (event : Event) : Watch :=
  { q with call := none, history := w.history ++ [event] }

/-- A step, where it can be taken. -/
def step (w : Watch) : Action → Option Watch
  | .push marker =>
    some { w.push marker with call := w.call, history := w.history ++ [Event.arrived marker] }
  | .offerLine line =>
    match w.offerLine line with
    | (some marker, q) => some { q with call := w.call, history := w.history ++ [Event.arrived marker] }
    | (none, q) => some { q with call := w.call, history := w.history }
  | .start call =>
    match w.call with
    | some _ => none
    | none =>
      match w.popDeferred call.name with
      | some (marker, q) => some (w.finish q (.returned call marker))
      | none => some { w with call := some call }
  | .get =>
    match w.call, w.queue with
    | some call, marker :: queue =>
      let q := { w.toMarkerQueue with queue := queue }
      if marker.name = call.name then some (w.finish q (.returned call marker))
      else some { q.defer marker with call := some call, history := w.history }
    | _, _ => none
  | .empty =>
    match w.call, w.queue with
    | some (.poll name), [] => some (w.finish w.toMarkerQueue (.nothing name))
    | some (.waitFor name false), [] => some (w.finish w.toMarkerQueue (.timedOut name))
    | some (.waitFor _ true), [] => some w
    | _, _ => none
  | .expire =>
    match w.call with
    | some (.waitFor name _) => some (w.finish w.toMarkerQueue (.timedOut name))
    | _ => none

/-- The step takes a marker that another call may want. -/
def defers (w : Watch) : Action → Bool
  | .get =>
    match w.call, w.queue with
    | some call, marker :: _ => marker.name ≠ call.name
    | _, _ => false
  | _ => false

/-- After the step no more markers are retained than the cap. -/
def Fits (w : Watch) (action : Action) : Prop :=
  w.defers action = true → w.deferred.length + 1 ≤ DEFERRED_MARKER_CAP

instance (w : Watch) (action : Action) : Decidable (w.Fits action) :=
  inferInstanceAs (Decidable (_ → _))

/-- An interleaving of steps. -/
def run (w : Watch) : List Action → Option Watch
  | [] => some w
  | action :: actions => (w.step action).bind fun w => w.run actions

/-- At every step of the interleaving no more markers are retained than the cap. -/
def Retains (w : Watch) : List Action → Prop
  | [] => True
  | action :: actions =>
    w.Fits action ∧
      match w.step action with
      | none => True
      | some w' => w'.Retains actions

instance decidableRetains : (actions : List Action) → (w : Watch) → Decidable (w.Retains actions)
  | [], _ => .isTrue trivial
  | action :: actions, w =>
    have : Decidable
        (match w.step action with
          | none => True
          | some w' => w'.Retains actions) :=
      match w.step action with
      | none => .isTrue trivial
      | some w' => decidableRetains actions w'
    inferInstanceAs (Decidable (_ ∧ _))

end Watch

end ChuMicro.Markers
