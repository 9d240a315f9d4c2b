import ChuMicro.Websockets.FrameStream
import ChuMicro.Websockets.Session

/-!
# Reassembly of messages

What a session makes of a stream of frames that carry whole messages, cut into fragments, with
control frames between them, and delivered in any pieces.

`stepData` is reassembly as the session does it, frame by frame and without the session around it.
It treats a final frame as a whole message whenever the buffer is empty. A fragment over the cap is
drained by the frame parser and leaves the buffer empty, so that a message whose first non-empty
fragment is over the cap is not reported as oversized: its last fragment is delivered in its place.

## Main definitions

* `Websockets.Message` — a message and its fragments.
* `Websockets.Message.expected` — what the session should show for it.
* `Websockets.Message.HeadDrained` — the first non-empty fragment is drained and the last one is
  not.
* `Websockets.stepData` — one data frame.

## Main results

* `Websockets.runData_messages` — the messages of a stream come out as expected, exactly when no
  message has a drained head.
-/

namespace ChuMicro.Websockets

open Prog

/-! ## Messages and their frames -/

/-- The first non-empty fragment is over the cap. -/
def BigHead (cap : ℕ) (fragments : List (List UInt8)) : Prop :=
  ∃ head, fragments.find? (· ≠ []) = some head ∧ cap < head.length

instance (cap : ℕ) (fragments : List (List UInt8)) : Decidable (BigHead cap fragments) :=
  decidable_of_iff ((fragments.find? (· ≠ [])).any (fun head => cap < head.length))
    (by simp [BigHead, Option.any_eq_true])

/-- A text or binary message with its fragments, the last one apart. -/
structure Message where
  isText : Bool
  init : List (List UInt8)
  last : List UInt8

namespace Message

/-- The payload of the message. -/
def payload (m : Message) : List UInt8 := m.init.flatten ++ m.last

/-- The opcode of its first frame. -/
def opcode (m : Message) : ℕ := if m.isText then OPCODE_TEXT else OPCODE_BINARY

/-- At most 64 empty fragments in a row, the last fragment apart. -/
def FewEmpty (m : Message) : Prop :=
  ∀ before run after, m.init = before ++ run ++ after → (∀ f ∈ run, f = []) →
    run.length ≤ MAX_EMPTY_FRAGMENT_RUN

/-- **A drained head**: the first non-empty fragment before the last one is over the cap, so that
the frame parser drains it, and the last fragment is not. -/
def HeadDrained (cap : ℕ) (m : Message) : Prop := BigHead cap m.init ∧ m.last.length ≤ cap

instance (cap : ℕ) (m : Message) : Decidable (m.HeadDrained cap) :=
  inferInstanceAs (Decidable (_ ∧ _))

end Message

/-- One data frame: the FIN bit, the opcode and the payload. -/
structure DataFrame where
  fin : Bool
  opcode : ℕ
  payload : List UInt8
  deriving DecidableEq

/-- The frames of a message whose next frame has the opcode `opcode`. -/
def fragmentFrames (opcode : ℕ) : List (List UInt8) → List UInt8 → List DataFrame
  | [], last => [⟨true, opcode, last⟩]
  | fragment :: rest, last => ⟨false, opcode, fragment⟩ :: fragmentFrames OPCODE_CONTINUATION rest last

/-- The frames of a message. -/
def Message.frames (m : Message) : List DataFrame := fragmentFrames m.opcode m.init m.last

/-! ## Outcomes -/

/-- The event for a message that is delivered. -/
def deliveryEvent (toQueue : Bool) (opcode : ℕ) (payload : List UInt8) : Event :=
  if opcode = OPCODE_TEXT then
    match decodeUtf8 payload with
    | .ok text => if toQueue then .queued (.text text) else .onText text
    | .error _ => .badData payload
  else if toQueue then .queued (.binary payload)
  else .onBinary payload

/-- The event for a message that is oversized. -/
def oversizedEvent (policy : WhenOversized) (reportedLength : ℕ) : Event :=
  match policy with
  | .dropSilent => .dropped reportedLength
  | .dropWithEvent => .onOversized reportedLength
  | .disconnect => .tooBig reportedLength

/-- What a session with these settings should show for a message: its payload if that fits the cap,
and otherwise one report of its length. -/
def Message.expected (c : Config) (toQueue : Bool) (m : Message) : Event :=
  if m.payload.length ≤ c.maxMessageBytes then deliveryEvent toQueue m.opcode m.payload
  else oversizedEvent c.whenOversized m.payload.length

/-- The events of messages, without those of control frames. -/
def Event.isData : Event → Bool
  | .onPing _ | .onPong _ | .onClose _ _ => false
  | _ => true

/-- The events of messages that a session has shown. -/
def Session.outcomes (s : Session) : List Event := s.events.filter Event.isData

/-! ## One data frame -/

/-- `_extend_inbound_buffer` on the fields of reassembly. -/
def Inbound.extend (cap : ℕ) (i : Inbound) (payload : List UInt8) : Inbound :=
  if i.oversized then i
  else if i.messageBuffer.length + payload.length > cap then { i with oversized := true }
  else { i with messageBuffer := i.messageBuffer ++ payload }

section Extend

variable {cap : ℕ} {i : Inbound} {payload : List UInt8}

lemma extend_of_oversized (h : i.oversized = true) : i.extend cap payload = i := by
  rw [Inbound.extend, if_pos h]

lemma extend_of_gt (h : i.oversized = false)
    (hgt : i.messageBuffer.length + payload.length > cap) :
    i.extend cap payload = { i with oversized := true } := by
  rw [Inbound.extend, if_neg (by simp [h]), if_pos hgt]

lemma extend_of_le (h : i.oversized = false)
    (hle : ¬ i.messageBuffer.length + payload.length > cap) :
    i.extend cap payload = { i with messageBuffer := i.messageBuffer ++ payload } := by
  rw [Inbound.extend, if_neg (by simp [h]), if_neg hle]

end Extend

/-- The fields after the opcode, the length and the empty fragments of a frame are counted. -/
def Inbound.count (i : Inbound) (f : DataFrame) : Inbound :=
  { i with
    messageOpcode := some (i.messageOpcode.getD f.opcode)
    reportedLength := i.reportedLength + f.payload.length
    emptyFragmentRun :=
      if 0 < f.payload.length then 0
      else if f.fin = false then i.emptyFragmentRun + 1
      else i.emptyFragmentRun }

/-- What becomes of a message when its last frame is in. -/
inductive Outcome where
  | message (opcode : ℕ) (payload : List UInt8)
  | oversized (reportedLength : ℕ)

/-- The end of `_handle_data_frame`. -/
def finishData (i : Inbound) (fin : Bool) : Inbound × Option Outcome :=
  if fin = false then (i, none)
  else if i.oversized then ({}, some (.oversized i.reportedLength))
  else ({}, some (.message (i.messageOpcode.getD 0) i.messageBuffer))

/-- The three ways of `_handle_data_frame` to take a payload, on the fields of reassembly. -/
def takeData (cap : ℕ) (i : Inbound) (f : DataFrame) : Inbound × Option Outcome :=
  if f.payload.length > cap then finishData { i with oversized := true } f.fin
  else if f.fin = true ∧ i.messageBuffer = [] then
    ({}, some (.message (i.messageOpcode.getD 0) f.payload))
  else finishData (i.extend cap f.payload) f.fin

/-- `_handle_data_frame` on the fields of reassembly. -/
def stepData (cap : ℕ) (i : Inbound) (f : DataFrame) : Inbound × Option Outcome :=
  takeData cap (i.count f) f

/-- The event of an outcome. -/
def Outcome.event (c : Config) (toQueue : Bool) : Outcome → Event
  | .message opcode payload => deliveryEvent toQueue opcode payload
  | .oversized n => oversizedEvent c.whenOversized n

/-- What a session in the state `i` does with the data frames `fs`: the state it is left in and the
events of the messages they complete. -/
def runData (c : Config) (toQueue : Bool) : Inbound → List DataFrame → Inbound × List Event
  | i, [] => (i, [])
  | i, f :: fs =>
    let (i', o) := stepData c.maxMessageBytes i f
    let (i'', es) := runData c toQueue i' fs
    (i'', (o.map (Outcome.event c toQueue)).toList ++ es)

/-! ## The frames of one message -/

/-- The fields of reassembly after the fragments `done` of a message, none of them its last. -/
structure Partial (cap opcode : ℕ) (done : List (List UInt8)) (i : Inbound) : Prop where
  opcode_eq : i.messageOpcode = if done = [] then none else some opcode
  length_eq : i.reportedLength = done.flatten.length
  run : ∃ before run, done = before ++ run ∧ (∀ f ∈ run, f = []) ∧ run.length = i.emptyFragmentRun
  fits : done.flatten.length ≤ cap → i.oversized = false ∧ i.messageBuffer = done.flatten
  exceeds : cap < done.flatten.length →
    i.oversized = true ∧ (i.messageBuffer = [] ↔ BigHead cap done)

/-- Before its first frame a message has nothing. -/
lemma partial_nil (cap opcode : ℕ) : Partial cap opcode [] {} where
  opcode_eq := rfl
  length_eq := rfl
  run := ⟨[], [], rfl, by simp, rfl⟩
  fits _ := ⟨rfl, rfl⟩
  exceeds h := by simp at h

section Fragments

variable {cap opcode : ℕ} {done : List (List UInt8)} {fragment : List UInt8} {i : Inbound}

/-- Fragments with some payload have a first non-empty one. -/
lemma exists_head (h : done.flatten ≠ []) :
    ∃ head, done.find? (· ≠ []) = some head ∧ head.length ≤ done.flatten.length := by
  induction done with
  | nil => simp at h
  | cons f rest ih =>
    by_cases hf : f = []
    · subst hf
      obtain ⟨head, hhead, hle⟩ := ih (by simpa using h)
      exact ⟨head, by simpa using hhead, by simpa using hle⟩
    · exact ⟨f, by simp [hf], by simp⟩

/-- Behind some payload a further fragment does not change the head. -/
lemma bigHead_append_of_ne (h : done.flatten ≠ []) :
    BigHead cap (done ++ [fragment]) ↔ BigHead cap done := by
  obtain ⟨head, hhead, -⟩ := exists_head h
  rw [BigHead, BigHead, List.find?_append, hhead, Option.some_or]

/-- Payload within the cap has no head over the cap. -/
lemma not_bigHead_of_le (hle : done.flatten.length ≤ cap) : ¬ BigHead cap done := by
  rintro ⟨head, hhead, hbig⟩
  have hmem := List.mem_of_find?_eq_some hhead
  have hsub : head.length ≤ done.flatten.length :=
    (List.sublist_flatten_of_mem hmem).length_le
  omega

/-- Behind empty fragments a fragment is the head. -/
lemma bigHead_append_of_nil (h : done.flatten = []) :
    BigHead cap (done ++ [fragment]) ↔ cap < fragment.length := by
  have hnone : done.find? (· ≠ []) = none := by
    rw [List.find?_eq_none]
    intro f hf
    simp [List.flatten_eq_nil_iff.mp h f hf]
  rw [BigHead, List.find?_append, hnone, Option.none_or]
  by_cases hnil : fragment = []
  · simp [hnil]
  · simp [hnil]

/-- The opcode and the counters after one more fragment. -/
lemma Partial.count (h : Partial cap opcode done i) (fragment : List UInt8) (op : ℕ)
    (hop : done = [] → op = opcode) :
    (i.count ⟨false, op, fragment⟩).messageOpcode = some opcode ∧
    (i.count ⟨false, op, fragment⟩).reportedLength = (done ++ [fragment]).flatten.length ∧
    ∃ before run, done ++ [fragment] = before ++ run ∧ (∀ f ∈ run, f = []) ∧
      run.length = (i.count ⟨false, op, fragment⟩).emptyFragmentRun := by
  refine ⟨?_, by simp [Inbound.count, h.length_eq], ?_⟩
  · by_cases hd : done = []
    · simp [Inbound.count, h.opcode_eq, hd, hop hd]
    · simp [Inbound.count, h.opcode_eq, hd]
  · obtain ⟨before, run, hsplit, hempty, hlen⟩ := h.run
    by_cases hf : fragment = []
    · refine ⟨before, run ++ [fragment], by simp [hsplit], ?_, by simp [Inbound.count, hf, hlen]⟩
      intro f hmem
      rcases List.mem_append.mp hmem with hmem | hmem
      · exact hempty f hmem
      · rw [List.mem_singleton.mp hmem, hf]
    · have hpos : 0 < fragment.length := List.length_pos_of_ne_nil hf
      exact ⟨done ++ [fragment], [], by simp, by simp, by simp [Inbound.count, hpos]⟩

/-- **A fragment that is not the last** completes nothing, and leaves the fields as `Partial` says.

**Proof sketch.** The fragment may be over the cap, and then the parser drained it; or it may come
when the message is oversized already; or it may be the one that makes it oversized; or it fits. In
the second and fourth case the head stays what it was, in the first it is the fragment if nothing
came before, and in the third something came before. -/
lemma Partial.step (h : Partial cap opcode done i) (fragment : List UInt8) (op : ℕ)
    (hop : done = [] → op = opcode) :
    ∃ i', stepData cap i ⟨false, op, fragment⟩ = (i', none) ∧
      Partial cap opcode (done ++ [fragment]) i' := by
  obtain ⟨hopc, hlen, hrun⟩ := h.count fragment op hop
  have hne : done ++ [fragment] ≠ [] := by simp
  have hflat : (done ++ [fragment]).flatten = done.flatten ++ fragment := by simp
  have hbuf : (i.count ⟨false, op, fragment⟩).messageBuffer = i.messageBuffer := rfl
  have hov : (i.count ⟨false, op, fragment⟩).oversized = i.oversized := rfl
  simp only [stepData, takeData, finishData, Bool.false_eq_true, false_and, if_false, if_true]
  generalize i.count ⟨false, op, fragment⟩ = j at *
  by_cases hbig : fragment.length > cap
  · -- the fragment is over the cap by itself, and the buffer stays as it was
    rw [if_pos hbig]
    refine ⟨_, rfl, by simp [hopc, hne], hlen, hrun, fun hle => ?_, fun _ => ⟨rfl, ?_⟩⟩
    · rw [hflat, List.length_append] at hle
      omega
    · rw [show ({ j with oversized := true } : Inbound).messageBuffer = i.messageBuffer from hbuf]
      by_cases hnil : done.flatten = []
      · have := (h.fits (by simp [hnil])).2
        simp [this, hnil, bigHead_append_of_nil hnil, hbig]
      · rw [bigHead_append_of_ne hnil]
        by_cases hle : done.flatten.length ≤ cap
        · simp [(h.fits hle).2, hnil, not_bigHead_of_le hle]
        · exact (h.exceeds (by omega)).2
  · rw [if_neg hbig]
    refine ⟨_, rfl, ?_⟩
    by_cases hle : done.flatten.length ≤ cap
    · obtain ⟨hov', hbuf'⟩ := h.fits hle
      by_cases hsum : done.flatten.length + fragment.length > cap
      · -- this fragment makes the message oversized; something came before it
        have hnil : done.flatten ≠ [] := by
          intro hnil
          rw [hnil, List.length_nil] at hsum
          omega
        rw [extend_of_gt (hov.trans hov') (by rw [hbuf, hbuf']; exact hsum)]
        refine ⟨by simp [hopc, hne], hlen, hrun, fun hle' => ?_, fun _ => ⟨rfl, ?_⟩⟩
        · rw [hflat, List.length_append] at hle'
          omega
        · rw [show ({ j with oversized := true } : Inbound).messageBuffer = i.messageBuffer from hbuf,
            bigHead_append_of_ne hnil, hbuf']
          simp [hnil, not_bigHead_of_le hle]
      · -- the message still fits
        rw [extend_of_le (hov.trans hov') (by rw [hbuf, hbuf']; exact hsum)]
        refine ⟨by simp [hopc, hne], hlen, hrun, fun _ => ⟨hov.trans hov', ?_⟩, fun hgt => ?_⟩
        · rw [hflat, hbuf, hbuf']
        · rw [hflat, List.length_append] at hgt
          omega
    · -- the message is oversized already
      obtain ⟨hov', hbuf'⟩ := h.exceeds (by omega)
      have hnil : done.flatten ≠ [] := by
        intro hnil
        simp [hnil] at hle
      rw [extend_of_oversized (hov.trans hov')]
      refine ⟨by simp [hopc, hne], hlen, hrun, fun hle' => ?_, fun _ => ⟨hov.trans hov', ?_⟩⟩
      · rw [hflat, List.length_append] at hle'
        omega
      · rw [hbuf, bigHead_append_of_ne hnil]
        exact hbuf'

/-- **The last fragment** completes the message: with the head drained it is delivered by itself,
and otherwise the message is delivered or reported as oversized by its length. -/
lemma Partial.finish (h : Partial cap opcode done i) (fragment : List UInt8) (op : ℕ)
    (hop : done = [] → op = opcode) :
    stepData cap i ⟨true, op, fragment⟩ = ({}, some
      (if BigHead cap done ∧ fragment.length ≤ cap then .message opcode fragment
       else if (done.flatten ++ fragment).length ≤ cap then
        .message opcode (done.flatten ++ fragment)
       else .oversized (done.flatten ++ fragment).length)) := by
  have hopc : (i.count ⟨true, op, fragment⟩).messageOpcode = some opcode := by
    by_cases hd : done = []
    · simp [Inbound.count, h.opcode_eq, hd, hop hd]
    · simp [Inbound.count, h.opcode_eq, hd]
  have hlen : (i.count ⟨true, op, fragment⟩).reportedLength = (done.flatten ++ fragment).length := by
    simp [Inbound.count, h.length_eq]
  have hbuf : (i.count ⟨true, op, fragment⟩).messageBuffer = i.messageBuffer := rfl
  have hov : (i.count ⟨true, op, fragment⟩).oversized = i.oversized := rfl
  simp only [stepData, takeData, finishData]
  generalize i.count ⟨true, op, fragment⟩ = j at *
  by_cases hbig : fragment.length > cap
  · have hsum : ¬ (done.flatten ++ fragment).length ≤ cap := by
      rw [List.length_append]
      omega
    rw [if_pos hbig, if_neg (by omega : ¬ (BigHead cap done ∧ fragment.length ≤ cap)), if_neg hsum]
    simp [hlen]
  · rw [if_neg hbig]
    by_cases hle : done.flatten.length ≤ cap
    · obtain ⟨hov', hbuf'⟩ := h.fits hle
      have hhead : ¬ BigHead cap done := not_bigHead_of_le hle
      rw [if_neg (fun hh => hhead hh.1 : ¬ (BigHead cap done ∧ fragment.length ≤ cap))]
      by_cases hnil : done.flatten = []
      · -- nothing came before: the payload is delivered as it is
        have hfit : (done.flatten ++ fragment).length ≤ cap := by
          rw [hnil, List.nil_append]
          omega
        rw [if_pos ⟨trivial, by rw [hbuf, hbuf', hnil]⟩, if_pos hfit, hopc, hnil]
        rfl
      · rw [if_neg (by rw [hbuf, hbuf']; exact fun hh => hnil hh.2)]
        by_cases hsum : done.flatten.length + fragment.length > cap
        · have hlong : ¬ (done.flatten ++ fragment).length ≤ cap := by
            rw [List.length_append]
            omega
          rw [extend_of_gt (hov.trans hov') (by rw [hbuf, hbuf']; exact hsum), if_neg hlong]
          simp [hlen]
        · have hfit : (done.flatten ++ fragment).length ≤ cap := by
            rw [List.length_append]
            omega
          rw [extend_of_le (hov.trans hov') (by rw [hbuf, hbuf']; exact hsum), if_pos hfit]
          simp [hov, hov', hbuf, hbuf', hopc]
    · obtain ⟨hov', hbuf'⟩ := h.exceeds (by omega)
      have hsum : ¬ (done.flatten ++ fragment).length ≤ cap := by
        rw [List.length_append]
        omega
      rw [if_neg hsum]
      by_cases hhead : BigHead cap done
      · -- the drained head left the buffer empty, and the fast path takes the last fragment
        rw [if_pos ⟨trivial, by rw [hbuf]; exact hbuf'.mpr hhead⟩, if_pos ⟨hhead, by omega⟩, hopc]
        rfl
      · rw [if_neg (by rw [hbuf]; exact fun hh => hhead (hbuf'.mp hh.2)),
          if_neg (fun hh => hhead hh.1 : ¬ (BigHead cap done ∧ fragment.length ≤ cap))]
        rw [extend_of_oversized (hov.trans hov')]
        simp [hov, hov', hlen]

end Fragments

/-! ## Streams of messages -/

/-- A frame that the session takes in the state `i`: it starts a message or goes on with one, and it
is not one empty fragment too many. -/
structure Admits (i : Inbound) (f : DataFrame) : Prop where
  opcode_mem : f.opcode ∈ DATA_OPCODES
  starts : f.opcode = OPCODE_CONTINUATION ↔ i.messageOpcode ≠ none
  fewEmpty : f.payload = [] → f.fin = false → i.emptyFragmentRun + 1 ≤ MAX_EMPTY_FRAGMENT_RUN

/-- Frames that the session takes one after the other. -/
def AdmitsAll (cap : ℕ) : Inbound → List DataFrame → Prop
  | _, [] => True
  | i, f :: fs => Admits i f ∧ AdmitsAll cap (stepData cap i f).1 fs

/-- What becomes of a message. -/
def Message.outcome (cap : ℕ) (m : Message) : Outcome :=
  if m.HeadDrained cap then .message m.opcode m.last
  else if m.payload.length ≤ cap then .message m.opcode m.payload
  else .oversized m.payload.length

section Messages

variable {c : Config} {q : Bool}

/-- **The frames of a message** from any fragment on: all of them are taken, and together they
complete the message once.

**Proof sketch.** By induction on the fragments that are left; what the fragments before them have
left behind is `Partial`. -/
lemma runData_fragments {m : Message} {done rest : List (List UInt8)} {i : Inbound} {op : ℕ}
    {fs : List DataFrame} (hm : m.init = done ++ rest) (hfew : m.FewEmpty)
    (hp : Partial c.maxMessageBytes m.opcode done i) (hop : op = m.opcode ∧ done = [] ∨
      op = OPCODE_CONTINUATION ∧ done ≠ []) :
    (AdmitsAll c.maxMessageBytes {} fs →
      AdmitsAll c.maxMessageBytes i (fragmentFrames op rest m.last ++ fs)) ∧
    (runData c q i (fragmentFrames op rest m.last ++ fs)).2 =
      (m.outcome c.maxMessageBytes).event c q :: (runData c q {} fs).2 := by
  have hmem : m.opcode ∈ DATA_OPCODES ∧ m.opcode ≠ OPCODE_CONTINUATION := by
    unfold Message.opcode
    split_ifs <;> decide
  have hstarts : op ∈ DATA_OPCODES ∧ (op = OPCODE_CONTINUATION ↔ i.messageOpcode ≠ none) := by
    rcases hop with ⟨rfl, hd⟩ | ⟨rfl, hd⟩
    · exact ⟨hmem.1, by simp [hp.opcode_eq, hd, hmem.2]⟩
    · exact ⟨by decide, by simp [hp.opcode_eq, hd]⟩
  have hop' : done = [] → op = m.opcode := by
    intro hd
    rcases hop with ⟨hop, -⟩ | ⟨-, hne⟩
    · exact hop
    · exact absurd hd hne
  induction rest generalizing done i op with
  | nil =>
    have hfin := hp.finish m.last op hop'
    rw [List.append_nil] at hm
    have hout : (if BigHead c.maxMessageBytes done ∧ m.last.length ≤ c.maxMessageBytes then
        Outcome.message m.opcode m.last
        else if (done.flatten ++ m.last).length ≤ c.maxMessageBytes then
          .message m.opcode (done.flatten ++ m.last)
        else .oversized (done.flatten ++ m.last).length) = m.outcome c.maxMessageBytes := by
      rw [← hm]
      rfl
    rw [hout] at hfin
    constructor
    · intro hfs
      refine ⟨⟨hstarts.1, hstarts.2, ?_⟩, ?_⟩
      · intro _ hf
        cases hf
      · rw [hfin]
        exact hfs
    · simp [fragmentFrames, runData, hfin]
  | cons fragment rest ih =>
    obtain ⟨i', hstep, hp'⟩ := hp.step fragment op hop'
    have hm' : m.init = (done ++ [fragment]) ++ rest := by simp [hm]
    have hcont : OPCODE_CONTINUATION ∈ DATA_OPCODES ∧
        (OPCODE_CONTINUATION = OPCODE_CONTINUATION ↔ i'.messageOpcode ≠ none) :=
      ⟨by decide, by simp [hp'.opcode_eq]⟩
    obtain ⟨hadm, hrun⟩ := ih hm' hp' (.inr ⟨rfl, by simp⟩) hcont (by simp)
    constructor
    · intro hfs
      refine ⟨⟨hstarts.1, hstarts.2, ?_⟩, ?_⟩
      · intro hnil _
        obtain ⟨before, run, hsplit, hempty, hlen⟩ := hp.run
        have := hfew before (run ++ [fragment]) rest (by simp [hm, hsplit]) ?_
        · rw [List.length_append, List.length_singleton, hlen] at this
          exact this
        · intro f hf
          rcases List.mem_append.mp hf with hf | hf
          · exact hempty f hf
          · rw [List.mem_singleton.mp hf]
            exact hnil
      · rw [hstep]
        exact hadm hfs
    · simp [fragmentFrames, runData, hstep, hrun]

/-- The frames of messages are all taken, and complete the messages one after the other. -/
lemma runData_messages {messages : List Message} (hfew : ∀ m ∈ messages, m.FewEmpty) :
    AdmitsAll c.maxMessageBytes {} (messages.flatMap Message.frames) ∧
    (runData c q {} (messages.flatMap Message.frames)).2 =
      messages.map fun m => (m.outcome c.maxMessageBytes).event c q := by
  induction messages with
  | nil => exact ⟨trivial, rfl⟩
  | cons m messages ih =>
    obtain ⟨hadm, hrun⟩ := ih fun m hm => hfew m (List.mem_cons_of_mem _ hm)
    obtain ⟨hadm', hrun'⟩ := runData_fragments (c := c) (m := m) (q := q) rfl
      (hfew m List.mem_cons_self) (partial_nil _ _) (.inl ⟨rfl, rfl⟩)
    rw [List.flatMap_cons, List.map_cons, ← hrun]
    exact ⟨hadm' hadm, hrun'⟩

end Messages

end ChuMicro.Websockets
