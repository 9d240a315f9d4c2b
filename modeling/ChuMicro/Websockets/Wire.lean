import ChuMicro.Python

/-!
# WebSocket frames

The frame codec of `chumicro_websockets/_wire.py`: `encode_frame`, the close payloads and the
streaming `FrameParser`.

The parser writes into fixed scratch buffers with cursors. Here a buffer is the list of the bytes
written to it so far and the cursor is its length: nothing reads past the cursor, and whether a
payload went to the steady buffer or to one allocated for it cannot be observed.

## Main definitions

* `Websockets.encodeFrame` — one frame as bytes.
* `Websockets.FrameParser` — the parser state, with `reset` and `feed`.
* `Websockets.encodeClosePayload`, `Websockets.parseClosePayload` — the bodies of CLOSE frames.
-/

namespace ChuMicro.Websockets

/-! ## Constants and exceptions -/

/-- `MAX_CONTROL_PAYLOAD_BYTES`. -/
def MAX_CONTROL_PAYLOAD_BYTES : ℕ := 125

/-- The opcodes. -/
def OPCODE_CONTINUATION : ℕ := 0x0
@[inherit_doc OPCODE_CONTINUATION] def OPCODE_TEXT : ℕ := 0x1
@[inherit_doc OPCODE_CONTINUATION] def OPCODE_BINARY : ℕ := 0x2
@[inherit_doc OPCODE_CONTINUATION] def OPCODE_CLOSE : ℕ := 0x8
@[inherit_doc OPCODE_CONTINUATION] def OPCODE_PING : ℕ := 0x9
@[inherit_doc OPCODE_CONTINUATION] def OPCODE_PONG : ℕ := 0xa

/-- `DATA_OPCODES`. -/
def DATA_OPCODES : List ℕ := [OPCODE_CONTINUATION, OPCODE_TEXT, OPCODE_BINARY]

/-- `CONTROL_OPCODES`. -/
def CONTROL_OPCODES : List ℕ := [OPCODE_CLOSE, OPCODE_PING, OPCODE_PONG]

/-- The close codes. -/
def CLOSE_NORMAL : ℕ := 1000
@[inherit_doc CLOSE_NORMAL] def CLOSE_PROTOCOL_ERROR : ℕ := 1002
@[inherit_doc CLOSE_NORMAL] def CLOSE_BAD_DATA : ℕ := 1007
@[inherit_doc CLOSE_NORMAL] def CLOSE_TOO_BIG : ℕ := 1009
@[inherit_doc CLOSE_NORMAL] def CLOSE_INTERNAL_ERROR : ℕ := 1011

/-- `RESERVED_CLOSE_CODES`. -/
def RESERVED_CLOSE_CODES : List ℕ := [1005, 1006, 1015]

/-- The exceptions of the library, and the built-in ones. -/
inductive Exn where
  | webSocketError (message : String)
  | protocolError (message : String)
  | handshakeError (message : String)
  | urlError (message : String)
  | timeoutError (message : String)
  | backpressureError (message : String)
  | stateError (message : String)
  | py (e : PyExn)
  deriving DecidableEq, Repr

/-- `str(error)` of the library's exceptions. -/
def Exn.message : Exn → String
  | .webSocketError m | .protocolError m | .handshakeError m | .urlError m | .timeoutError m
  | .backpressureError m | .stateError m => m
  | .py _ => ""

/-- A built-in exception in the library's terms. -/
def liftPy {α : Type} : Except PyExn α → Except Exn α
  | .ok a => .ok a
  | .error e => .error (.py e)

/-- One lower-case hexadecimal digit, as the format `x` of an opcode writes it. -/
def hexOpcode (opcode : ℕ) : String := String.ofList [(hexDigit opcode).toLower]

/-! ## Masking -/

/-- The exclusive or with the mask key, whose bytes repeat from the start of the payload. `start` is
the position of the first byte in the payload. -/
def applyMask (key : List UInt8) (start : ℕ) : List UInt8 → List UInt8
  | [] => []
  | byte :: rest => (byte ^^^ key.getD (start % 4) 0) :: applyMask key (start + 1) rest

/-! ## Encoding -/

/-- The second byte of a frame, with the mask bit and the length marker, and the length field that
follows it for payloads of 126 bytes and more. -/
def lengthField (maskBit length : ℕ) : Except Exn (List UInt8) :=
  if length < 126 then .ok [UInt8.ofNat (maskBit ||| length)]
  else if length ≤ 0xffff then do
    let packed ← liftPy (pack 2 length)
    .ok (UInt8.ofNat (maskBit ||| 126) :: packed)
  else do
    let packed ← liftPy (pack 8 length)
    .ok (UInt8.ofNat (maskBit ||| 127) :: packed)

/-- `encode_frame`. -/
def encodeFrame (opcode : ℕ) (payload : List UInt8) (fin : Bool) (mask : Option (List UInt8)) :
    Except Exn (List UInt8) :=
  if opcode ∈ CONTROL_OPCODES ∧ payload.length > MAX_CONTROL_PAYLOAD_BYTES then
    .error (.protocolError (s!"control frame opcode 0x{hexOpcode opcode} " ++
      s!"payload {payload.length} > {MAX_CONTROL_PAYLOAD_BYTES}"))
  else if mask.any fun key => key.length ≠ 4 then
    .error (.protocolError s!"mask must be 4 bytes, got {(mask.getD []).length}")
  else do
    let length ← lengthField (if mask.isSome then 0x80 else 0) payload.length
    let head := UInt8.ofNat ((if fin then 0x80 else 0) ||| (opcode &&& 0x0f)) :: length
    match mask with
    | some key => .ok (head ++ key ++ applyMask key 0 payload)
    | none => .ok (head ++ payload)

/-- `encode_close_payload`. -/
def encodeClosePayload (code : Option ℕ) (reason : String) : Except Exn (List UInt8) :=
  match code with
  | none =>
    if reason ≠ "" then .error (.protocolError "cannot send a close reason without a code")
    else .ok []
  | some code =>
    if code ∈ RESERVED_CLOSE_CODES then
      .error (.protocolError s!"close code {code} is reserved and must not be sent on the wire")
    else if 2 + (encodeUtf8 reason).length > MAX_CONTROL_PAYLOAD_BYTES then
      .error (.protocolError
        s!"close payload {2 + (encodeUtf8 reason).length} > {MAX_CONTROL_PAYLOAD_BYTES}")
    else do
      let packed ← liftPy (pack 2 code)
      .ok (packed ++ encodeUtf8 reason)

/-- `parse_close_payload`. `errorText` is `str` of the `UnicodeDecodeError` for bytes that are not
UTF-8. -/
def parseClosePayload (errorText : List UInt8 → String) (payload : List UInt8) :
    Except Exn (Option ℕ × String) :=
  if payload = [] then .ok (none, "")
  else if payload.length = 1 then
    .error (.protocolError "close payload of exactly 1 byte is forbidden by RFC 6455 §5.5.1")
  else
    let code := Bytes.ofBe (payload.take 2)
    if code ∈ RESERVED_CLOSE_CODES then
      .error (.protocolError s!"peer sent reserved close code {code}")
    else
      match decodeUtf8 (payload.drop 2) with
      | .ok reason => .ok (some code, reason)
      | .error _ =>
        .error (.protocolError s!"close reason is not valid UTF-8: {errorText (payload.drop 2)}")

/-- `validate_text_payload`. -/
def validateTextPayload (errorText : List UInt8 → String) (payload : List UInt8) :
    Except Exn String :=
  match decodeUtf8 payload with
  | .ok text => .ok text
  | .error _ =>
    .error (.protocolError s!"text payload is not valid UTF-8: {errorText payload}")

/-! ## The parser -/

/-- `FrameParseState`. -/
inductive FrameParseState where
  | readingHeader
  | readingLen16
  | readingLen64
  | readingMask
  | readingPayload
  | drainingPayload
  | frameReady
  | error
  deriving DecidableEq, Repr

/-- The fields of `FrameParser`. `header` is the part of `_header_scratch` below `_header_len`, and
`payload` the part of the payload buffer below `_payload_write_offset`. -/
structure FrameParser where
  maxPayloadBytes : ℕ
  state : FrameParseState := .readingHeader
  header : List UInt8 := []
  fin : Bool := false
  rsv : ℕ := 0
  opcode : ℕ := 0
  hadMask : Bool := false
  reportedLength : ℕ := 0
  maskKey : List UInt8 := []
  payload : List UInt8 := []
  oversized : Bool := false
  drainRemaining : ℕ := 0
  lastError : Option String := none
  deriving DecidableEq

namespace FrameParser

/-- `reset`. -/
def reset (p : FrameParser) : FrameParser :=
  { maxPayloadBytes := p.maxPayloadBytes, lastError := p.lastError }

/-- `_fail`. -/
def fail (p : FrameParser) (message : String) : Except Exn Unit × FrameParser :=
  (.error (.protocolError message), { p with lastError := some message, state := .error })

/-- `_after_mask`. -/
def afterMask (p : FrameParser) : FrameParser :=
  if p.oversized then
    if p.drainRemaining = 0 then { p with state := .frameReady }
    else { p with state := .drainingPayload }
  else if p.reportedLength = 0 then { p with state := .frameReady }
  else { p with payload := [], state := .readingPayload }

/-- The part of `_after_length` that sends a frame over the cap to the draining tier. -/
def markOversized (p : FrameParser) : FrameParser :=
  if p.reportedLength > p.maxPayloadBytes then
    { p with oversized := true, drainRemaining := p.reportedLength }
  else p

/-- `_after_length`. -/
def afterLength (p : FrameParser) : Except Exn Unit × FrameParser :=
  if p.opcode ∈ CONTROL_OPCODES ∧ p.reportedLength > MAX_CONTROL_PAYLOAD_BYTES then
    p.fail (s!"control frame opcode 0x{hexOpcode p.opcode} " ++
      s!"payload {p.reportedLength} > {MAX_CONTROL_PAYLOAD_BYTES}")
  else if p.hadMask then (.ok (), { p.markOversized with state := .readingMask })
  else (.ok (), p.markOversized.afterMask)

/-- The format `03b` of the RSV bits. -/
def rsvBits (rsv : ℕ) : String :=
  String.ofList [if rsv / 4 % 2 = 1 then '1' else '0', if rsv / 2 % 2 = 1 then '1' else '0',
    if rsv % 2 = 1 then '1' else '0']

/-- `_dispatch_header`. -/
def dispatchHeader (p : FrameParser) : Except Exn Unit × FrameParser :=
  let firstByte := (p.header.getD 0 0).toNat
  let secondByte := (p.header.getD 1 0).toNat
  let p := { p with
    fin := firstByte / 128 = 1, rsv := firstByte / 16 % 8, opcode := firstByte % 16
    hadMask := secondByte / 128 = 1 }
  let lengthMarker := secondByte % 128
  if p.rsv ≠ 0 then
    p.fail s!"non-zero RSV bits {rsvBits p.rsv} (no extensions negotiated)"
  else if p.opcode ∈ CONTROL_OPCODES ∧ p.fin = false then
    p.fail s!"control frame opcode 0x{hexOpcode p.opcode} must be FIN=1"
  else if p.opcode ∉ CONTROL_OPCODES ∧ p.opcode ∉ DATA_OPCODES then
    p.fail s!"reserved opcode 0x{hexOpcode p.opcode}"
  else
    let p := { p with header := [] }
    if lengthMarker < 126 then { p with reportedLength := lengthMarker }.afterLength
    else if lengthMarker = 126 then (.ok (), { p with state := .readingLen16 })
    else (.ok (), { p with state := .readingLen64 })

/-- `_HEADER_FIELD_SIZES`. -/
def fieldSize : FrameParseState → ℕ
  | .readingHeader => 2
  | .readingLen16 => 2
  | .readingLen64 => 8
  | .readingMask => 4
  | _ => 0

/-- What the loop of `feed` does with a header field that is complete. -/
def dispatchField (p : FrameParser) : Except Exn Unit × FrameParser :=
  match p.state with
  | .readingHeader => p.dispatchHeader
  | .readingLen16 =>
    { p with reportedLength := Bytes.ofBe (p.header.take 2), header := [] }.afterLength
  | .readingLen64 => { p with reportedLength := Bytes.ofBe p.header, header := [] }.afterLength
  | _ => (.ok (), { p with maskKey := p.header.take 4, header := [] }.afterMask)

/-- The bytes the current state still waits for. -/
def need (p : FrameParser) : ℕ :=
  match p.state with
  | .readingPayload => p.reportedLength - p.payload.length
  | .drainingPayload => p.drainRemaining
  | state => fieldSize state - p.header.length

/-- What one round of the loop of `feed` does with the bytes it takes. -/
def absorb (p : FrameParser) (taken : List UInt8) : Except Exn Unit × FrameParser :=
  match p.state with
  | .readingPayload =>
    let bytes := if p.hadMask then applyMask p.maskKey p.payload.length taken else taken
    let p := { p with payload := p.payload ++ bytes }
    (.ok (), if p.payload.length ≥ p.reportedLength then { p with state := .frameReady } else p)
  | .drainingPayload =>
    let p := { p with drainRemaining := p.drainRemaining - taken.length }
    (.ok (), if p.drainRemaining = 0 then { p with state := .frameReady } else p)
  | state =>
    let p := { p with header := p.header ++ taken }
    if p.header.length < fieldSize state then (.ok (), p) else p.dispatchField

/-- `consumed += take` for the rounds that are done, in front of what the later rounds return. -/
def addConsumed (take : ℕ) : Except Exn ℕ × FrameParser → Except Exn ℕ × FrameParser
  | (.ok consumed, p) => (.ok (take + consumed), p)
  | (.error e, p) => (.error e, p)

/-- The loop of `feed` over the bytes left. Every round takes a byte, so as many rounds as there are
bytes are enough. -/
def feedLoop : ℕ → FrameParser → List UInt8 → Except Exn ℕ × FrameParser
  | 0, p, _ => (.ok 0, p)
  | rounds + 1, p, data =>
    if data = [] ∨ p.state = .frameReady ∨ p.state = .error then (.ok 0, p)
    else
      match p.absorb (data.take p.need) with
      | (.error e, p) => (.error e, p)
      | (.ok _, p') =>
        addConsumed (min p.need data.length) (feedLoop rounds p' (data.drop p.need))

/-- `feed(chunk, start)`. -/
def feed (p : FrameParser) (chunk : List UInt8) (start : ℕ) : Except Exn ℕ × FrameParser :=
  feedLoop (chunk.length - start) p (chunk.drop start)

end FrameParser

end ChuMicro.Websockets
