import HadoopExamples.Library.Transition
import HadoopExamples.Avro.Framing

set_option autoImplicit false

/-! # Framed messages in Twisted

What `txipc.py` has in place of `FramedReader` and `FramedWriter`: `AvroProtocol` takes a response
out of its buffers as it arrives, piece by piece, and `RequestStreamingProducer` writes a request to
a consumer that may tell it to pause. -/

namespace HadoopExamples.Avro

open Python Tape Frames

/-! ## AvroProtocol -/

/-- The exception of a `Deferred` -/
inductive AlreadyCalledError where
  | mk

/-- `finished` is what the `Deferred` has been called with. -/
structure AvroProtocol where
  recvd : List UInt8
  done : Bool
  finished : Option (Except AvroException (List UInt8))
  message : List (List UInt8)

def AvroProtocol.new : AvroProtocol := ⟨[], false, none, []⟩

/-- `self.finished.callback`, and `self.finished.errback` for an error -/
def fire (p : AvroProtocol) (result : Except AvroException (List UInt8)) :
    Except AlreadyCalledError AvroProtocol :=
  match p.finished with
  | none => .ok { p with finished := some result }
  | some _ => .error .mk

/-- The loop of `dataReceived` -/
def receive (p : AvroProtocol) : Except AlreadyCalledError AvroProtocol :=
  if p.recvd.length < BUFFER_HEADER_LENGTH then .ok p
  else
    let buffer_length := ofBigEndian (p.recvd.take BUFFER_HEADER_LENGTH)
    if buffer_length = 0 then fire { p with done := true } (.ok p.message.flatten)
    else if p.recvd.length < buffer_length + BUFFER_HEADER_LENGTH then .ok p
    else receive { p with
      recvd := p.recvd.drop (buffer_length + BUFFER_HEADER_LENGTH)
      message := p.message ++ [(p.recvd.drop BUFFER_HEADER_LENGTH).take buffer_length] }
termination_by p.recvd.length
decreasing_by
  rw [List.length_drop]
  unfold BUFFER_HEADER_LENGTH at *
  omega

def dataReceived (p : AvroProtocol) (data : List UInt8) : Except AlreadyCalledError AvroProtocol :=
  receive { p with recvd := p.recvd ++ data }

def connectionLost (p : AvroProtocol) : Except AlreadyCalledError AvroProtocol :=
  if p.done then .ok p
  else fire p (.error (connectionClosedException "Reader read 0 bytes."))

section Receiving

/-- The state in which all of these bytes have arrived, and not the end of the message. -/
def received (arrived : List UInt8) : AvroProtocol :=
  ⟨(bufferFormat.split arrived).2, false, none, (bufferFormat.split arrived).1⟩

/-- The state at the end of the message. -/
def completed (arrived : List UInt8) : AvroProtocol :=
  ⟨(bufferFormat.split arrived).2, true,
    some (.ok (bufferFormat.split arrived).1.flatten), (bufferFormat.split arrived).1⟩

theorem receive_of_none {p : AvroProtocol} (h : bufferFormat.next p.recvd = none) :
    receive p = if bufferFormat.Ended p.recvd then
        fire { p with done := true } (.ok p.message.flatten)
      else .ok p := by
  unfold Format.next at h
  rw [receive]
  by_cases hheader : p.recvd.length < BUFFER_HEADER_LENGTH
  · have hended : ¬ bufferFormat.Ended p.recvd := fun hended => absurd hended.1 (Nat.not_le.2 hheader)
    rw [if_pos hheader, if_neg hended]
  · rw [if_neg hheader]
    by_cases hzero : ofBigEndian (p.recvd.take BUFFER_HEADER_LENGTH) = 0
    · have hended : bufferFormat.Ended p.recvd := ⟨Nat.not_lt.1 hheader, hzero⟩
      rw [if_pos hzero, if_pos hended]
    · have hended : ¬ bufferFormat.Ended p.recvd := fun hended => hzero hended.2
      rw [if_neg hzero, if_neg hended]
      split at h
      · contradiction
      split at h
      · contradiction
      split at h
      · rename_i hlength
        exact if_pos hlength
      · cases h

theorem receive_of_some {p : AvroProtocol} {chunk rest : List UInt8}
    (h : bufferFormat.next p.recvd = some (chunk, rest)) :
    receive p = receive { p with recvd := rest, message := p.message ++ [chunk] } := by
  unfold Format.next at h
  rw [receive]
  split at h
  · cases h
  split at h
  · cases h
  split at h
  · cases h
  rename_i hheader hzero hlength
  obtain ⟨rfl, rfl⟩ := Prod.mk.inj (Option.some.inj h)
  exact (if_neg hheader).trans ((if_neg hzero).trans (if_neg hlength))

/-- The loop takes out all the buffers that are complete. -/
theorem receive_eq (recvd : List UInt8) (message : List (List UInt8)) :
    receive ⟨recvd, false, none, message⟩
      = if bufferFormat.Ended (bufferFormat.split recvd).2 then
          .ok ⟨(bufferFormat.split recvd).2, true,
            some (.ok (message ++ (bufferFormat.split recvd).1).flatten),
            message ++ (bufferFormat.split recvd).1⟩
        else .ok ⟨(bufferFormat.split recvd).2, false, none,
          message ++ (bufferFormat.split recvd).1⟩ := by
  induction recvd using Format.split.induct (f := bufferFormat) generalizing message with
  | case1 recvd hnext =>
    rw [receive_of_none hnext, split_of_none hnext, List.append_nil]
    rfl
  | case2 recvd chunk rest hnext ih =>
    rw [receive_of_some hnext, split_of_some hnext]
    dsimp only
    rw [ih, List.append_assoc, List.singleton_append]

theorem dataReceived_received (arrived data : List UInt8) :
    dataReceived (received arrived) data
      = .ok (if bufferFormat.Ended (bufferFormat.split (arrived ++ data)).2 then
          completed (arrived ++ data)
        else received (arrived ++ data)) := by
  unfold dataReceived received completed
  dsimp only
  rw [receive_eq, split_append arrived data]
  dsimp only
  split <;> rfl

variable {chunks pieces : List (List UInt8)} {arrived : List UInt8}

theorem received_part (hfits : bufferFormat.Fits chunks)
    (hfront : arrived ++ pieces.flatten <+: bufferFormat.frames chunks)
    (hne : arrived ++ pieces.flatten ≠ bufferFormat.frames chunks) :
    pieces.foldlM dataReceived (received arrived) = .ok (received (arrived ++ pieces.flatten)) := by
  induction pieces generalizing arrived with
  | nil =>
    rw [List.flatten_nil, List.append_nil]
    rfl
  | cons piece pieces ih =>
    rw [List.flatten_cons, ← List.append_assoc] at hfront hne ⊢
    have hended : ¬ bufferFormat.Ended (bufferFormat.split (arrived ++ piece)).2 := by
      refine not_ended_of_prefix hfits ((List.prefix_append _ _).trans hfront) fun heq => hne ?_
      have hle := hfront.length_le
      rw [heq, List.length_append] at hle
      have hnil : pieces.flatten = [] := List.eq_nil_of_length_eq_zero (by omega)
      rw [hnil, List.append_nil, heq]
    rw [List.foldlM_cons, dataReceived_received, if_neg hended]
    exact ih hfront hne

/-- However a message comes in pieces, it is complete with the last one. -/
theorem received_message (hfits : bufferFormat.Fits chunks) (hpieces : ∀ piece ∈ pieces, piece ≠ [])
    (harrived : arrived ≠ bufferFormat.frames chunks)
    (heq : arrived ++ pieces.flatten = bufferFormat.frames chunks) :
    pieces.foldlM dataReceived (received arrived)
      = .ok (completed (bufferFormat.frames chunks)) := by
  have hne : pieces ≠ [] := by
    rintro rfl
    rw [List.flatten_nil, List.append_nil] at heq
    exact harrived heq
  obtain ⟨pieces, last, rfl⟩ : ∃ front last, pieces = front ++ [last] :=
    ⟨_, _, (List.dropLast_append_getLast hne).symm⟩
  have hlast := List.length_pos_of_ne_nil (hpieces last (by simp))
  rw [List.flatten_append, List.flatten_singleton, ← List.append_assoc] at heq
  have hfront : arrived ++ pieces.flatten <+: bufferFormat.frames chunks := ⟨last, heq⟩
  have hproper : arrived ++ pieces.flatten ≠ bufferFormat.frames chunks := by
    intro hfull
    have hlength := congrArg List.length heq
    rw [List.length_append, hfull] at hlength
    omega
  have hended : bufferFormat.Ended (bufferFormat.split (bufferFormat.frames chunks)).2 := by
    have hsplit := split_frames hfits []
    rw [List.append_nil] at hsplit
    rw [hsplit]
    exact ended_encode_zero []
  rw [List.foldlM_append, received_part hfits hfront hproper]
  show List.foldlM dataReceived (received (arrived ++ pieces.flatten)) [last] = _
  rw [List.foldlM_cons, dataReceived_received, heq, if_pos hended]
  rfl

theorem received_nil : received [] = AvroProtocol.new := by
  have hnext : bufferFormat.next [] = none := if_pos (by decide)
  unfold received
  rw [split_of_none hnext]
  rfl

/-- For each response the `Deferred` is called once: with the message when all of it has arrived,
    or with an error when the connection is lost before. -/
theorem finished_once (hfits : bufferFormat.Fits chunks) (hpieces : ∀ piece ∈ pieces, piece ≠ [])
    (hfront : pieces.flatten <+: bufferFormat.frames chunks) :
    ∃ p p', pieces.foldlM dataReceived AvroProtocol.new = .ok p ∧ connectionLost p = .ok p' ∧
      (p.finished.isSome ↔ pieces.flatten = bufferFormat.frames chunks) ∧
      p'.finished = if pieces.flatten = bufferFormat.frames chunks then some (.ok chunks.flatten)
        else some (.error (connectionClosedException "Reader read 0 bytes.")) := by
  rw [← received_nil]
  by_cases heq : pieces.flatten = bufferFormat.frames chunks
  · have hne : [] ≠ bufferFormat.frames chunks := by
      intro hnil
      have hlength := congrArg List.length hnil
      rw [Format.frames, List.length_append, bufferFormat.length_encode] at hlength
      exact absurd hlength (Nat.ne_of_lt (Nat.add_pos_right _ (by decide)))
    have hrun := received_message hfits hpieces hne heq
    have hmessage : (bufferFormat.split (bufferFormat.frames chunks)).1 = chunks := by
      have hsplit := split_frames hfits []
      rw [List.append_nil] at hsplit
      rw [hsplit]
    refine ⟨_, _, hrun, if_pos rfl, iff_of_true rfl heq, ?_⟩
    rw [if_pos heq, completed, hmessage]
  · have hrun := @received_part chunks pieces [] hfits hfront heq
    refine ⟨_, _, hrun, rfl, iff_of_false nofun heq, ?_⟩
    rw [if_neg heq]

/-- Two buffers in three pieces, each of which ends in the middle of something, but for the last. -/
theorem finished_once_pieces :
    ∃ p p', [[0, 0], [0, 2, 8, 9, 0], [0, 0, 1, 7, 0, 0, 0, 0]].foldlM dataReceived
        AvroProtocol.new = .ok p ∧ connectionLost p = .ok p' ∧
      (p.finished.isSome ↔ [[0, 0], [0, 2, 8, 9, 0], [0, 0, 1, 7, 0, 0, 0, 0]].flatten
        = bufferFormat.frames [[8, 9], [7]]) ∧
      p'.finished = if [[0, 0], [0, 2, 8, 9, 0], [0, 0, 1, 7, 0, 0, 0, 0]].flatten
          = bufferFormat.frames [[8, 9], [7]] then some (.ok [[8, 9], [7]].flatten)
        else some (.error (connectionClosedException "Reader read 0 bytes.")) :=
  finished_once (by simp [Format.Fits, bufferFormat]) (by decide) (by decide)

end Receiving

/-! ## RequestStreamingProducer -/

/-- `fired` is whether the `Deferred` has been called, and `consumer` is what has been written. -/
structure RequestStreamingProducer where
  message : List UInt8
  length : ℕ
  total_bytes_sent : ℕ
  paused : Bool
  stopped : Bool
  started : Bool
  fired : Bool
  consumer : List UInt8

def RequestStreamingProducer.new (message : List UInt8) : RequestStreamingProducer where
  message := message
  length := message.length + (message.length / BUFFER_SIZE + 2) * BUFFER_HEADER_LENGTH
  total_bytes_sent := 0
  paused := false
  stopped := false
  started := false
  fired := false
  consumer := []

/-- `self.consumer.write(data)`. By what it has then, the consumer may tell the producer to pause. -/
def consume (pauses : List UInt8 → Bool) (p : RequestStreamingProducer) (data : List UInt8) :
    RequestStreamingProducer :=
  { p with
    consumer := p.consumer ++ data
    paused := p.paused || pauses (p.consumer ++ data) }

/-- `RequestStreamingProducer.write_buffer` -/
def consumeBuffer (pauses : List UInt8 → Bool) (p : RequestStreamingProducer)
    (chunk : List UInt8) : RequestStreamingProducer :=
  consume pauses (consume pauses p (bigEndian chunk.length)) chunk

def bufferLength (p : RequestStreamingProducer) : ℕ :=
  if p.length - p.total_bytes_sent > BUFFER_SIZE then BUFFER_SIZE
  else p.length - p.total_bytes_sent

/-- `RequestStreamingProducer.write` -/
def produceBuffer (pauses : List UInt8 → Bool) (p : RequestStreamingProducer) :
    RequestStreamingProducer :=
  let q := consumeBuffer pauses p
    ((p.message.drop p.total_bytes_sent).take (bufferLength p))
  let q := { q with total_bytes_sent := q.total_bytes_sent + bufferLength p }
  if q.total_bytes_sent = q.length ∧ q.stopped = false then
    { consume pauses { q with stopped := true } (bigEndian 0) with fired := true }
  else q

@[simp] theorem produceBuffer_message (pauses : List UInt8 → Bool) (p : RequestStreamingProducer) :
    (produceBuffer pauses p).message = p.message := by
  unfold produceBuffer
  dsimp only
  split <;> rfl

@[simp] theorem produceBuffer_length (pauses : List UInt8 → Bool) (p : RequestStreamingProducer) :
    (produceBuffer pauses p).length = p.length := by
  unfold produceBuffer
  dsimp only
  split <;> rfl

@[simp] theorem produceBuffer_total_bytes_sent (pauses : List UInt8 → Bool)
    (p : RequestStreamingProducer) :
    (produceBuffer pauses p).total_bytes_sent = p.total_bytes_sent + bufferLength p := by
  unfold produceBuffer
  dsimp only
  split <;> rfl

/-- The loop of `startProducing` -/
def produce (pauses : List UInt8 → Bool) (p : RequestStreamingProducer) :
    RequestStreamingProducer :=
  if 0 < p.length - p.total_bytes_sent ∧ p.paused = false ∧ p.stopped = false then
    produce pauses (produceBuffer pauses p)
  else p
termination_by p.length - p.total_bytes_sent
decreasing_by
  rw [produceBuffer_length, produceBuffer_total_bytes_sent]
  unfold bufferLength BUFFER_SIZE
  split <;> omega

inductive ProducerCall where
  | startProducing
  | resumeProducing
  | pauseProducing
  | stopProducing

/-- What a call leaves. `resumeProducing` raises an exception, since it calls `write` with the
    producer as an argument too many. -/
def ProducerCall.step (pauses : List UInt8 → Bool) (p : RequestStreamingProducer) :
    ProducerCall → RequestStreamingProducer
  | .startProducing => if p.started then p else produce pauses { p with started := true }
  | .resumeProducing => { p with paused := false }
  | .pauseProducing => { p with paused := true }
  | .stopProducing => { p with stopped := true }

section Producing

variable {pauses : List UInt8 → Bool} {p : RequestStreamingProducer}

/-- Once started, a producer writes nothing in any call. -/
theorem run_of_started (hstarted : p.started = true) (calls : List ProducerCall) :
    (Transition.run (ProducerCall.step pauses) p calls).started = true ∧
      (Transition.run (ProducerCall.step pauses) p calls).consumer = p.consumer ∧
      (Transition.run (ProducerCall.step pauses) p calls).fired = p.fired := by
  induction calls generalizing p with
  | nil => exact ⟨hstarted, rfl, rfl⟩
  | cons call calls ih =>
    have hstep : (call.step pauses p).started = true ∧
        (call.step pauses p).consumer = p.consumer ∧ (call.step pauses p).fired = p.fired := by
      cases call with
      | startProducing =>
        unfold ProducerCall.step
        rw [if_pos hstarted]
        exact ⟨hstarted, rfl, rfl⟩
      | _ => exact ⟨hstarted, rfl, rfl⟩
    obtain ⟨hstarted', hconsumer, hfired⟩ := ih hstep.1
    rw [Transition.run_cons]
    exact ⟨hstarted', hconsumer.trans hstep.2.1, hfired.trans hstep.2.2⟩

theorem bufferLength_bounds (h : p.total_bytes_sent < p.length) :
    0 < bufferLength p ∧ bufferLength p ≤ BUFFER_SIZE ∧
      p.total_bytes_sent + bufferLength p ≤ p.length := by
  unfold bufferLength BUFFER_SIZE
  split <;> omega

theorem produceBuffer_of_ne (h : p.total_bytes_sent + bufferLength p ≠ p.length) :
    produceBuffer pauses p = { consumeBuffer pauses p
        ((p.message.drop p.total_bytes_sent).take (bufferLength p)) with
      total_bytes_sent := p.total_bytes_sent + bufferLength p } :=
  if_neg fun hend => h hend.1

theorem produceBuffer_of_eq (h : p.total_bytes_sent + bufferLength p = p.length)
    (hstopped : p.stopped = false) :
    produceBuffer pauses p = { consume pauses { consumeBuffer pauses p
          ((p.message.drop p.total_bytes_sent).take (bufferLength p)) with
        total_bytes_sent := p.total_bytes_sent + bufferLength p
        stopped := true } (bigEndian 0) with fired := true } :=
  if_pos ⟨h, hstopped⟩

theorem produce_of_sent (h : p.total_bytes_sent = p.length) : produce pauses p = p := by
  rw [produce, if_neg]
  rintro ⟨hpos, -⟩
  omega

/-- The loop ends with the request, or it is left for a pause. -/
theorem produce_ends (hless : p.total_bytes_sent < p.length) (hstopped : p.stopped = false)
    (hfired : p.fired = false) :
    (produce pauses p).length = p.length ∧
      ((produce pauses p).fired = true ∧ (produce pauses p).total_bytes_sent = p.length ∨
        (produce pauses p).fired = false ∧ (produce pauses p).paused = true ∧
          (produce pauses p).total_bytes_sent < p.length) := by
  fun_induction produce pauses p with
  | case1 p hloop ih =>
    obtain ⟨hpos, -, hle⟩ := bufferLength_bounds hless
    by_cases hlast : p.total_bytes_sent + bufferLength p = p.length
    · have hsent : (produceBuffer pauses p).total_bytes_sent = (produceBuffer pauses p).length := by
        rw [produceBuffer_total_bytes_sent, produceBuffer_length, hlast]
      rw [produce_of_sent hsent, produceBuffer_total_bytes_sent, produceBuffer_length]
      refine ⟨rfl, .inl ⟨?_, hlast⟩⟩
      rw [produceBuffer_of_eq hlast hstopped]
    · have hmore := @produceBuffer_of_ne pauses p hlast
      have hless' : (produceBuffer pauses p).total_bytes_sent < (produceBuffer pauses p).length := by
        rw [produceBuffer_total_bytes_sent, produceBuffer_length]
        omega
      rw [produceBuffer_length] at hless' ih
      exact ih hless' (hmore ▸ hstopped) (hmore ▸ hfired)
  | case2 p hloop =>
    have hpaused : p.paused = true := by
      by_contra hnot
      exact hloop ⟨by omega, Bool.eq_false_iff.2 hnot, hstopped⟩
    exact ⟨rfl, .inr ⟨hfired, hpaused, hless⟩⟩

theorem produce_started (h : p.started = true) : (produce pauses p).started = true := by
  fun_induction produce pauses p with
  | case1 p hloop ih =>
    refine ih ?_
    unfold produceBuffer
    dsimp only
    split <;> exact h
  | case2 p hloop => exact h

theorem new_less (message : List UInt8) : (RequestStreamingProducer.new message).total_bytes_sent
    < (RequestStreamingProducer.new message).length := by
  unfold RequestStreamingProducer.new BUFFER_HEADER_LENGTH BUFFER_SIZE
  dsimp only
  omega

/-- A request is written in the first call of `startProducing` or, when the consumer tells the
    producer to pause before its last buffer, never: no call that comes later writes anything. -/
theorem producer_run (pauses : List UInt8 → Bool) (message : List UInt8)
    (calls : List ProducerCall) :
    let p := ProducerCall.step pauses (.new message) .startProducing
    (Transition.run (ProducerCall.step pauses) p calls).consumer = p.consumer ∧
      (Transition.run (ProducerCall.step pauses) p calls).fired = p.fired ∧
      (p.fired = true ∧ p.total_bytes_sent = p.length ∨
        p.fired = false ∧ p.paused = true ∧ p.total_bytes_sent < p.length) := by
  intro p
  have hends := @produce_ends pauses { RequestStreamingProducer.new message with started := true }
    (new_less message) rfl rfl
  have hstarted : p.started = true := produce_started rfl
  obtain ⟨-, hconsumer, hfired⟩ := @run_of_started pauses p hstarted calls
  refine ⟨hconsumer, hfired, ?_⟩
  have hlength : p.length = (RequestStreamingProducer.new message).length := hends.1
  rw [hlength]
  exact hends.2

/-! ## What is written without a pause -/

/-- The buffers of the message, its end, and whatever else. -/
def BeginsWith (message bytes : List UInt8) : Prop :=
  ∃ chunks rest, BuffersOf message chunks ∧ bytes = bufferFormat.frames chunks ++ rest

theorem BeginsWith.nil (bytes : List UInt8) : BeginsWith [] (bigEndian 0 ++ bytes) :=
  ⟨[], bytes, ⟨rfl, nofun⟩, rfl⟩

theorem BeginsWith.cons {chunk message bytes : List UInt8} (hne : chunk ≠ [])
    (hsize : chunk.length ≤ BUFFER_SIZE) (h : BeginsWith message bytes) :
    BeginsWith (chunk ++ message) (bufferFormat.frame chunk ++ bytes) := by
  obtain ⟨chunks, rest, ⟨rfl, hchunks⟩, rfl⟩ := h
  refine ⟨chunk :: chunks, rest, ⟨rfl, List.forall_mem_cons.2 ⟨⟨hne, hsize⟩, hchunks⟩⟩, ?_⟩
  rw [frames_cons, List.append_assoc]

/-- Beyond the end of the message, the buffers are empty, and the first of them ends it. -/
theorem BeginsWith.drop {message bytes : List UInt8} {total n : ℕ} (hpos : 0 < n)
    (hsize : n ≤ BUFFER_SIZE) (h : BeginsWith (message.drop (total + n)) bytes) :
    BeginsWith (message.drop total)
      (bufferFormat.frame ((message.drop total).take n) ++ bytes) := by
  by_cases hnil : message.drop total = []
  · rw [hnil, List.take_nil]
    exact BeginsWith.nil bytes
  · have hsplit : message.drop total
        = (message.drop total).take n ++ message.drop (total + n) := by
      rw [← List.drop_drop, List.take_append_drop]
    have hne : (message.drop total).take n ≠ [] := by
      rw [Ne, List.take_eq_nil_iff, not_or]
      exact ⟨Nat.ne_of_gt hpos, hnil⟩
    have hcons := BeginsWith.cons hne (le_trans (List.length_take_le _ _) hsize) h
    rwa [← hsplit] at hcons

end Producing

end HadoopExamples.Avro
