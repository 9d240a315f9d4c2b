import ChuMicro.Lib.Prog
import ChuMicro.Timing

/-!
# The SNTP client

`NTPClient` of `libraries/ntp/src/chumicro_ntp/core.py`. The socket, the transport factory and the
tick source are injected: what each of them does when a method calls it is an argument of the
method. The result objects that `query` hands out are a part of the state, in the order in which
they were made, since `handle` and `cancel` change the one that the client still holds.

## Main definitions

* `Ntp.parseResponse` — `_parse_response`.
* `Ntp.NTPClient` — the client together with every result it has handed out.
* `Ntp.NTPClient.query`, `handle`, `cancel`, `close` — its methods.

## Main results

* `Ntp.NTPClient.query_spec`, `handle_spec`, `cancel_spec`, `close_spec` — what a call can do.
-/

namespace ChuMicro.Ntp

/-! ## Constants -/

/-- `NTP_TO_UNIX`. -/
def NTP_TO_UNIX : ℤ := 2208988800

/-- `PACKET_SIZE`. -/
def PACKET_SIZE : ℕ := 48

/-- `CLIENT_FIRST_BYTE`. -/
def CLIENT_FIRST_BYTE : UInt8 := 0x23

/-- `SERVER_MODE`. -/
def SERVER_MODE : UInt8 := 4

/-- `_DRAIN_LIMIT`. -/
def DRAIN_LIMIT : ℕ := 8

/-- `_CLIENT_REQUEST`. -/
def CLIENT_REQUEST : List UInt8 := CLIENT_FIRST_BYTE :: List.replicate (PACKET_SIZE - 1) 0

/-- `_WOULD_BLOCK_ERRNOS`, on a runtime that defines `EWOULDBLOCK` or does not. -/
def WOULD_BLOCK_ERRNOS (ewouldblock : Option ℕ) : List ℕ := EAGAIN :: ewouldblock.toList

/-! ## Exceptions and responses -/

/-- The exceptions of the module. An `OSError` need not have an error number. -/
inductive Exn where
  | osError (errno : Option ℕ)
  | ntpError (message : String)
  | runtimeError (message : String)
  | valueError (message : String)
  | attributeError (message : String)
  deriving DecidableEq, Repr

/-- `_parse_response`. -/
def parseResponse (packet : List UInt8) : Except Exn ℤ :=
  if packet.length < PACKET_SIZE then
    .error (.ntpError s!"short SNTP response ({packet.length} bytes)")
  else
    let mode := packet.getD 0 0 &&& 0b111
    if mode ≠ SERVER_MODE then
      .error (.ntpError s!"unexpected SNTP mode {mode.toNat} (want {SERVER_MODE.toNat})")
    else if packet.getD 1 0 = 0 then
      .error (.ntpError "SNTP kiss-of-death (stratum=0)")
    else
      let seconds1900 : ℤ := Bytes.ofBe (Bytes.slice packet 40 44)
      if seconds1900 = 0 then .error (.ntpError "SNTP zero transmit timestamp")
      else if seconds1900 < NTP_TO_UNIX then .ok (seconds1900 + 0x100000000 - NTP_TO_UNIX)
      else .ok (seconds1900 - NTP_TO_UNIX)

/-- `NTPResult`. -/
structure NTPResult where
  ticksStartedMs : ℤ
  done : Bool := false
  seconds : Option ℤ := none
  error : Option Exn := none
  deriving DecidableEq, Repr

namespace NTPResult

/-- `NTPResult._fail`. -/
def fail (result : NTPResult) (e : Exn) : NTPResult := { result with error := some e, done := true }

/-- The end of `handle`: a response has come. -/
def succeed (result : NTPResult) (unixSeconds : ℤ) : NTPResult :=
  { result with seconds := some unixSeconds, done := true }

/-- **A result that says something**: nothing yet, or either the time or what went wrong. -/
def Sound (result : NTPResult) : Prop :=
  (result.done = false ∧ result.seconds = none ∧ result.error = none) ∨
    result.done = true ∧ (result.seconds.isSome ≠ result.error.isSome)

end NTPResult

/-! ## The socket -/

/-- What a call of `sendto`, `close` or the transport factory does. -/
inductive CallAnswer where
  | ok
  | failed (errno : Option ℕ)
  deriving DecidableEq, Repr

/-- What a call of `recvfrom_into` does: a datagram of any size is waiting, or an `OSError` is
raised. -/
inductive RecvAnswer where
  | received (datagram : List UInt8)
  | failed (errno : Option ℕ)
  deriving DecidableEq, Repr

/-- The buffer after `recvfrom_into`, which stores as much of the datagram as fits. -/
def storeDatagram (buffer datagram : List UInt8) : List UInt8 :=
  datagram.take buffer.length ++ buffer.drop datagram.length

/-! ## The client -/

/-- What `NTPClient` is constructed with. The timeout has been checked. -/
structure Settings where
  transportFactory : Bool
  server : String
  port : ℤ
  timeoutMs : ℤ
  timeout_pos : 0 < timeoutMs

/-- `NTPClient`: whether it has a socket, which of the results it holds, its buffer; and the results
that it has handed out and what it has called `sendto` with. -/
structure NTPClient where
  settings : Settings
  socket : Bool
  result : Option ℕ := none
  recvBuffer : List UInt8 := List.replicate PACKET_SIZE 0
  results : List NTPResult := []
  sent : List (List UInt8 × String × ℤ) := []

open Prog

namespace NTPClient

/-- `NTPClient.__init__`. -/
def new (socket transportFactory : Bool) (server : String) (port timeoutMs : ℤ) :
    Except Exn NTPClient :=
  if h : timeoutMs ≤ 0 then .error (.valueError "timeout_ms must be positive")
  else if socket = transportFactory then
    .error (.valueError ("provide exactly one of socket= or transport_factory= " ++
      "(the factory defers the UDP open to the first query)"))
  else .ok { settings := ⟨transportFactory, server, port, timeoutMs, not_le.mp h⟩, socket }

variable (client : NTPClient)

/-- The result that the client holds. -/
def held : Option NTPResult := client.result.bind fun index => client.results[index]?

/-- `NTPClient.busy`. -/
def busy : Bool :=
  match client.held with
  | none => false
  | some result => !result.done

/-- A change of the result that the client holds. -/
def change (result : NTPResult) : NTPClient :=
  match client.result with
  | none => client
  | some index => { client with results := client.results.set index result }

/-- `NTPClient._drain_socket`, with `rounds` rounds left: what it leaves in the buffer. -/
def drainSocket (recv : ℕ → RecvAnswer) : ℕ → List UInt8 → List UInt8
  | 0, buffer => buffer
  | rounds + 1, buffer =>
    match recv rounds with
    | .failed _ => buffer
    | .received datagram =>
      if min datagram.length buffer.length = 0 then buffer
      else drainSocket recv rounds (storeDatagram buffer datagram)

/-- `NTPClient.query`. The answers are those of the transport factory, of `recvfrom_into`, of the
tick source and of `sendto`. -/
def query (factory : CallAnswer) (recv : ℕ → RecvAnswer) (nowMs : ℤ) (sendto : CallAnswer) :
    Prog NTPClient Exn ℕ := do
  let client ← Prog.get
  if client.busy then
    Prog.throw (.runtimeError "NTP query already in flight; await result before re-querying")
  else
    Prog.when (client.socket = false) (
      if client.settings.transportFactory = false then
        Prog.throw (.runtimeError "socket closed; pass transport_factory= to reopen on demand")
      else
        match factory with
        | .failed errno => Prog.throw (.osError errno)
        | .ok => Prog.modify fun client => { client with socket := true })
    Prog.modify fun client =>
      { client with recvBuffer := drainSocket recv DRAIN_LIMIT client.recvBuffer }
    let result : NTPResult := { ticksStartedMs := nowMs }
    Prog.modify fun client =>
      let request := (CLIENT_REQUEST, client.settings.server, client.settings.port)
      { client with sent := client.sent ++ [request] }
    let result :=
      match sendto with
      | .ok => result
      | .failed errno => result.fail (.osError errno)
    Prog.modify fun client =>
      { client with results := client.results ++ [result], result := some client.results.length }
    pure client.results.length

/-- `NTPClient._check_timeout`. -/
def checkTimeout (result : NTPResult) (nowMs : ℤ) : Prog NTPClient Exn Unit :=
  Prog.modify fun client =>
    let elapsedMs := ticksDiff nowMs result.ticksStartedMs
    if elapsedMs ≥ client.settings.timeoutMs then
      client.change (result.fail (.ntpError s!"SNTP query timed out after {elapsedMs} ms"))
    else client

/-- `NTPClient.handle`. Without a socket there is nothing to call `recvfrom_into` of. -/
def handle (ewouldblock : Option ℕ) (recv : RecvAnswer) (nowMs : ℤ) : Prog NTPClient Exn Unit := do
  let client ← Prog.get
  match client.held with
  | none => pure ()
  | some result =>
    if result.done then pure ()
    else if client.socket = false then
      Prog.throw (.attributeError "'NoneType' object has no attribute 'recvfrom_into'")
    else
      match recv with
      | .failed errno =>
        if errno ∈ (WOULD_BLOCK_ERRNOS ewouldblock).map some then checkTimeout result nowMs
        else Prog.modify fun client => client.change (result.fail (.osError errno))
      | .received datagram => do
        let receivedCount := min datagram.length client.recvBuffer.length
        Prog.modify fun client =>
          { client with recvBuffer := storeDatagram client.recvBuffer datagram }
        if receivedCount = 0 then checkTimeout result nowMs
        else do
          let client ← Prog.get
          match parseResponse (client.recvBuffer.take receivedCount) with
          | .error e => Prog.modify fun client => client.change (result.fail e)
          | .ok unixSeconds => Prog.modify fun client => client.change (result.succeed unixSeconds)

/-- `NTPClient.cancel`. -/
def cancel : Prog NTPClient Exn Bool := do
  let client ← Prog.get
  match client.held with
  | none => pure false
  | some result =>
    if result.done then pure false
    else do
      Prog.modify fun client => client.change (result.fail (.ntpError "canceled"))
      pure true

/-- `NTPClient.close`. An `OSError` of the socket is passed over. -/
def close (_answer : CallAnswer) : Prog NTPClient Exn Unit :=
  Prog.modify fun client =>
    if client.socket = false then client else { client with socket := false }

/-! ## What a call can do -/

/-- The result is finished by the step, which it was not before. -/
structure Finishes (result result' : NTPResult) : Prop where
  pending : result.done = false
  done : result'.done = true
  started : result'.ticksStartedMs = result.ticksStartedMs
  sound : result.Sound → result'.Sound

lemma finishes_fail {result : NTPResult} (h : result.done = false) (e : Exn) :
    Finishes result (result.fail e) where
  pending := h
  done := rfl
  started := rfl
  sound
    | .inl ⟨_, hseconds, _⟩ => .inr ⟨rfl, by rw [NTPResult.fail, hseconds]; exact nofun⟩
    | .inr ⟨hdone, _⟩ => nomatch h.symm.trans hdone

lemma finishes_succeed {result : NTPResult} (h : result.done = false) (unixSeconds : ℤ) :
    Finishes result (result.succeed unixSeconds) where
  pending := h
  done := rfl
  started := rfl
  sound
    | .inl ⟨_, _, herror⟩ => .inr ⟨rfl, by rw [NTPResult.succeed, herror]; exact nofun⟩
    | .inr ⟨hdone, _⟩ => nomatch h.symm.trans hdone

/-- `handle` and `cancel` leave the results alone, or finish the one that the client holds. -/
def Advances (client client' : NTPClient) : Prop :=
  client'.settings = client.settings ∧ client'.socket = client.socket ∧
    client'.result = client.result ∧
      (client'.results = client.results ∨
        ∃ index result result', client.result = some index ∧
          client.results[index]? = some result ∧ Finishes result result' ∧
            client'.results = client.results.set index result')

/-- `query` hands out a result of its own, which the client holds from then on. -/
structure Asks (nowMs : ℤ) (index : ℕ) (client' : NTPClient) : Prop where
  idle : client.busy = false
  settings : client'.settings = client.settings
  socket : client'.socket = true
  index_eq : index = client.results.length
  result : client'.result = some index
  results : ∃ result : NTPResult, result.Sound ∧ result.ticksStartedMs = nowMs ∧
    client'.results = client.results ++ [result]

/-- By its ticks the timeout of the result that the client holds has elapsed: the test of
`_check_timeout`. -/
def TicksElapsed (nowMs : ℤ) : Prop :=
  ∀ result, client.held = some result →
    client.settings.timeoutMs ≤ ticksDiff nowMs result.ticksStartedMs

/-- Nothing comes: `recvfrom_into` would block, or stores no byte. -/
def Quiet (ewouldblock : Option ℕ) : RecvAnswer → Prop
  | .failed errno => errno ∈ (WOULD_BLOCK_ERRNOS ewouldblock).map some
  | .received datagram => min datagram.length client.recvBuffer.length = 0

/-- **What `handle` achieves**: when something comes the client is idle afterwards, and otherwise if
it was busy exactly when the timeout has elapsed by the ticks. -/
structure Handles (ewouldblock : Option ℕ) (recv : RecvAnswer) (nowMs : ℤ) (client' : NTPClient) :
    Prop where
  advances : client.Advances client'
  idle_of_comes : ¬ client.Quiet ewouldblock recv → client'.busy = false
  idle_of_elapsed : client.TicksElapsed nowMs → client'.busy = false
  elapsed_of_idle : client.busy = true → client.Quiet ewouldblock recv → client'.busy = false →
    client.TicksElapsed nowMs

variable {client : NTPClient} {result result' : NTPResult}

lemma busy_iff :
    client.busy = true ↔ ∃ result, client.held = some result ∧ result.done = false := by
  unfold busy
  cases client.held with
  | none => exact ⟨nofun, fun ⟨_, h, _⟩ => nomatch h⟩
  | some held =>
    constructor
    · exact fun h => ⟨held, rfl, (Bool.not_eq_true' _).mp h⟩
    · rintro ⟨_, h, hdone⟩
      cases h
      exact (Bool.not_eq_true' _).mpr hdone

lemma held_eq_some : client.held = some result ↔
    ∃ index, client.result = some index ∧ client.results[index]? = some result := by
  unfold held
  exact Option.bind_eq_some_iff

/-- A change of the held result, written out. -/
lemma change_eq {index : ℕ} (h : client.result = some index) :
    client.change result = { client with results := client.results.set index result } := by
  unfold change
  rw [h]

/-- A changed result is the one that the client holds afterwards. -/
lemma held_change (h : client.held = some result) :
    (client.change result').held = some result' := by
  obtain ⟨index, hindex, hresult⟩ := held_eq_some.mp h
  have hlt := (List.getElem?_eq_some_iff.mp hresult).1
  rw [change_eq hindex, held_eq_some]
  exact ⟨index, hindex, List.getElem?_set_self hlt⟩

/-- The held result is finished. -/
lemma advances_change (h : client.held = some result) (hfinishes : Finishes result result') :
    client.Advances (client.change result') := by
  obtain ⟨index, hindex, hresult⟩ := held_eq_some.mp h
  rw [change_eq hindex]
  exact ⟨rfl, rfl, rfl, .inr ⟨index, result, result', hindex, hresult, hfinishes, rfl⟩⟩

/-- A finished result makes the client idle. -/
lemma busy_of_held_done (h : client.held = some result) (hdone : result.done = true) :
    client.busy = false := by
  unfold busy
  rw [h]
  dsimp only
  rw [hdone]
  rfl

/-- **What `query` does**: it raises and leaves everything as it is, or it has a socket and hands
out a result. -/
lemma query_spec (client : NTPClient) (factory : CallAnswer) (recv : ℕ → RecvAnswer) (nowMs : ℤ)
    (sendto : CallAnswer) :
    wp (query factory recv nowMs sendto)
      (client.Asks nowMs) (fun _ client' => client' = client) client := by
  unfold query
  simp only [wp_bind, wp_get, wp_ite, wp_throw, wp_when, wp_modify,
    wp_pure]
  refine ⟨fun _ => trivial, fun hidle => ?_⟩
  rw [Bool.not_eq_true] at hidle
  have hnew : ∀ sendto : CallAnswer, ∃ result : NTPResult, result.Sound ∧
      result.ticksStartedMs = nowMs ∧
        (match sendto with
          | .ok => ({ ticksStartedMs := nowMs } : NTPResult)
          | .failed errno =>
            ({ ticksStartedMs := nowMs } : NTPResult).fail (.osError errno)) = result := by
    intro sendto
    cases sendto with
    | ok => exact ⟨_, .inl ⟨rfl, rfl, rfl⟩, rfl, rfl⟩
    | failed errno =>
      have hfinishes : Finishes { ticksStartedMs := nowMs } _ := finishes_fail rfl (.osError errno)
      exact ⟨_, hfinishes.sound (.inl ⟨rfl, rfl, rfl⟩), hfinishes.started, rfl⟩
  obtain ⟨result, hsound, hstarted, hresult⟩ := hnew sendto
  rw [hresult]
  constructor
  · intro hsocket
    refine ⟨fun _ => trivial, fun _ => ?_⟩
    cases factory with
    | failed errno => exact rfl
    | ok => exact ⟨hidle, rfl, rfl, rfl, rfl, _, hsound, hstarted, rfl⟩
  · intro hsocket
    rw [Bool.not_eq_false] at hsocket
    exact ⟨hidle, rfl, hsocket, rfl, rfl, _, hsound, hstarted, rfl⟩

/-- **What `_check_timeout` does.** -/
lemma checkTimeout_spec {held : NTPClient} (nowMs : ℤ) (hheld : held.held = some result)
    (hpending : result.done = false) :
    wp (checkTimeout result nowMs)
      (fun _ client' => held.Advances client' ∧ (held.TicksElapsed nowMs ↔ client'.busy = false))
      (fun _ _ => False) held := by
  unfold checkTimeout
  rw [wp_modify]
  dsimp only
  split_ifs with helapsed
  · refine ⟨advances_change hheld (finishes_fail hpending _), iff_of_true ?_ ?_⟩
    · rintro _ h
      cases hheld.symm.trans h
      exact helapsed
    · exact busy_of_held_done (held_change hheld) rfl
  · refine ⟨⟨rfl, rfl, rfl, .inl rfl⟩, iff_of_false (fun h => helapsed (h _ hheld)) ?_⟩
    rw [busy_iff.mpr ⟨result, hheld, hpending⟩]
    exact Bool.noConfusion

/-- **What `handle` does**: with a socket, or with nothing to wait for, it never raises. -/
lemma handle_spec (client : NTPClient) (ewouldblock : Option ℕ) (recv : RecvAnswer) (nowMs : ℤ) :
    wp (handle ewouldblock recv nowMs)
      (fun _ => client.Handles ewouldblock recv nowMs)
      (fun _ client' => client' = client ∧ client.busy = true ∧ client.socket = false) client := by
  have hstays : client.Advances client := ⟨rfl, rfl, rfl, .inl rfl⟩
  have hidle (h : client.busy = false) : client.Handles ewouldblock recv nowMs client :=
    ⟨hstays, fun _ => h, fun _ => h, fun hbusy => nomatch h.symm.trans hbusy⟩
  unfold handle
  rw [wp_bind, wp_get]
  cases hheld : client.held with
  | none =>
    refine hidle ?_
    unfold busy
    rw [hheld]
  | some result =>
    dsimp only
    rw [wp_ite]
    refine ⟨fun hdone => hidle (busy_of_held_done hheld hdone), fun hpending => ?_⟩
    rw [Bool.not_eq_true] at hpending
    rw [wp_ite]
    refine ⟨fun hsocket => ⟨rfl, busy_iff.mpr ⟨result, hheld, hpending⟩, hsocket⟩, fun _ => ?_⟩
    -- whatever the buffer holds, the rest finishes the result or looks at the clock
    have hfinish : ∀ buffer {result'}, ¬ client.Quiet ewouldblock recv → Finishes result result' →
        client.Handles ewouldblock recv nowMs
          (NTPClient.change { client with recvBuffer := buffer } result') := by
      intro buffer result' hquiet hfinishes
      have hheld' : ({ client with recvBuffer := buffer } : NTPClient).held = some result := hheld
      have hidle := busy_of_held_done (@held_change _ _ result' hheld') hfinishes.done
      exact ⟨advances_change hheld' hfinishes, fun _ => hidle, fun _ => hidle,
        fun _ h => absurd h hquiet⟩
    have hclock : client.Quiet ewouldblock recv → ∀ buffer,
        wp (checkTimeout result nowMs) (fun _ => client.Handles ewouldblock recv nowMs)
          (fun _ client' => client' = client ∧ client.busy = true ∧ client.socket = false)
          { client with recvBuffer := buffer } := by
      intro hquiet buffer
      have hheld' : ({ client with recvBuffer := buffer } : NTPClient).held = some result := hheld
      exact wp_mono (checkTimeout_spec nowMs hheld' hpending)
        (fun _ _ h => ⟨h.1, fun hcomes => absurd hquiet hcomes, h.2.mp, fun _ _ => h.2.mpr⟩)
        (fun _ _ h => h.elim)
    cases recv with
    | failed errno =>
      dsimp only
      rw [wp_ite]
      exact ⟨fun hquiet => hclock hquiet _, fun hquiet => hfinish _ hquiet (finishes_fail hpending _)⟩
    | received datagram =>
      dsimp only
      rw [wp_bind, wp_modify, wp_ite]
      refine ⟨fun hquiet => hclock hquiet _, fun hquiet => ?_⟩
      rw [wp_bind, wp_get]
      cases parseResponse _ with
      | error e => exact hfinish _ hquiet (finishes_fail hpending e)
      | ok unixSeconds => exact hfinish _ hquiet (finishes_succeed hpending unixSeconds)

/-- **What `cancel` does**: it never raises, and no result is pending afterwards. -/
lemma cancel_spec (client : NTPClient) :
    wp cancel
      (fun canceled client' => client.Advances client' ∧ canceled = client.busy ∧
        client'.busy = false)
      (fun _ _ => False) client := by
  have hstays : client.Advances client := ⟨rfl, rfl, rfl, .inl rfl⟩
  unfold cancel
  rw [wp_bind, wp_get]
  cases hheld : client.held with
  | none =>
    have hidle : client.busy = false := by
      unfold busy
      rw [hheld]
    exact ⟨hstays, hidle.symm, hidle⟩
  | some result =>
    dsimp only
    rw [wp_ite]
    refine ⟨fun hdone => ?_, fun hpending => ?_⟩
    · have hidle := busy_of_held_done hheld hdone
      exact ⟨hstays, hidle.symm, hidle⟩
    · rw [Bool.not_eq_true] at hpending
      refine ⟨advances_change hheld (finishes_fail hpending _), ?_, ?_⟩
      · exact (busy_iff.mpr ⟨result, hheld, hpending⟩).symm
      · exact busy_of_held_done (held_change hheld) rfl

/-- **What `close` does**: the socket is gone, and nothing else is changed. -/
lemma close_spec (client : NTPClient) (answer : CallAnswer) :
    wp (close answer) (fun _ client' => client' = { client with socket := false })
      (fun _ _ => False) client := by
  unfold close
  rw [wp_modify]
  cases hsocket : client.socket with
  | false =>
    rw [if_pos rfl, ← hsocket]
  | true => rw [if_neg (by exact nofun)]

end NTPClient

end ChuMicro.Ntp
