import Elura.Core.Protocol

/-!
A connection's read loop over the stream decoder: bytes arrive in arbitrary
chunks, are appended to the buffer, and `decode` runs until it asks for more.
-/

namespace Elura.FrameCodec

open List

section Loop

theorem decode_consumes {codec : FrameCodec} {source rest : List UInt8} {frame : Frame}
    (decoded : codec.decode.call source = (.ok (some frame), rest)) :
    rest.length < source.length := by
  obtain ⟨_, split⟩ := decode_ok decoded
  have positive : 0 < (frameBytes frame).length := by simp [frameBytes, headerLen]
  rw [split, length_append]
  omega

def decodeAll (codec : FrameCodec) (buffer : List UInt8) :
    Except IoError (List Frame) × List UInt8 :=
  match _decoded : codec.decode.call buffer with
  | (.error error, rest) => (.error error, rest)
  | (.ok none, rest) => (.ok [], rest)
  | (.ok (some frame), rest) =>
    let (frames, final) := decodeAll codec rest
    (frames.map (frame :: ·), final)
termination_by buffer.length
decreasing_by exact decode_consumes _decoded

def feedChunks (codec : FrameCodec) : List (List UInt8) → List UInt8 →
    Except IoError (List Frame) × List UInt8
  | [], buffer => (.ok [], buffer)
  | chunk :: chunks, buffer =>
    match codec.decodeAll (buffer ++ chunk) with
    | (.error error, rest) => (.error error, rest)
    | (.ok frames, rest) =>
      let (later, final) := feedChunks codec chunks rest
      (later.map (frames ++ ·), final)

def encodeAll (codec : FrameCodec) : List Frame → Fallible (List UInt8) IoError Unit
  | [] => pure ()
  | frame :: frames => do
      codec.encode frame
      codec.encodeAll frames

end Loop

section Stream

variable {codec : FrameCodec} {buffer : List UInt8}

def streamBytes (frames : List Frame) : List UInt8 := (frames.map frameBytes).flatten

theorem encodeAll_eq_ok (frames : List Frame) (destination encoded : List UInt8) :
    (codec.encodeAll frames).call destination = (.ok (), encoded) ↔
      (∀ frame ∈ frames, frame.validate codec.maxPayload = .ok ()) ∧
        encoded = destination ++ streamBytes frames := by
  induction frames generalizing destination with
  | nil => simp [encodeAll, streamBytes, eq_comm]
  | cons frame _ ih =>
    simp only [encodeAll, Fallible.call_bind]
    rcases written : (codec.encode frame).call destination with ⟨outcome, middle⟩
    cases outcome with
    | error =>
      have invalid : frame.validate codec.maxPayload ≠ .ok () := by
        intro valid
        rw [encode_eq_ok.mpr ⟨valid, rfl⟩] at written
        cases written
      simp [invalid]
    | ok =>
      obtain ⟨valid, rfl⟩ := encode_eq_ok.mp written
      simp only [ih, forall_mem_cons, valid]
      simp [streamBytes]

theorem decodeAll_none {rest : List UInt8}
    (undecided : codec.decode.call buffer = (.ok none, rest)) :
    codec.decodeAll buffer = (.ok [], rest) := by
  rw [decodeAll]
  split <;> simp_all

theorem decodeAll_some {rest : List UInt8} {frame : Frame}
    (decoded : codec.decode.call buffer = (.ok (some frame), rest)) :
    codec.decodeAll buffer =
      ((codec.decodeAll rest).1.map (frame :: ·), (codec.decodeAll rest).2) := by
  rw [decodeAll]
  split <;> simp_all

structure Waiting (codec : FrameCodec) (buffer missing : List UInt8) (frames : List Frame) :
    Prop where
  idle : codec.decode.call buffer = (.ok none, buffer)
  stream : buffer ++ missing = streamBytes frames
  accepted : ∀ frame ∈ frames, frame.validate codec.maxPayload = .ok ()

theorem decode_nil (codec : FrameCodec) : codec.decode.call [] = (.ok none, []) := by
  rw [call_decode]
  rfl

theorem Waiting.finished {frames : List Frame} (waiting : Waiting codec buffer [] frames) :
    frames = [] ∧ buffer = [] := by
  have stream := waiting.stream
  rw [append_nil] at stream
  cases frames with
  | nil => exact ⟨rfl, stream⟩
  | cons frame frames =>
    have decoded : codec.decode.call buffer = (.ok (some frame), streamBytes frames) := by
      rw [stream]
      exact decode_frameBytes (streamBytes frames) (waiting.accepted frame (by simp))
    rw [waiting.idle] at decoded
    cases decoded

/-- Draining the buffer takes off exactly the frames that are complete in it. -/
theorem decodeAll_stream (frames : List Frame)
    (accepted : ∀ frame ∈ frames, frame.validate codec.maxPayload = .ok ())
    (buffer missing : List UInt8) (stream : buffer ++ missing = streamBytes frames) :
    ∃ complete later rest, frames = complete ++ later ∧
      codec.decodeAll buffer = (.ok complete, rest) ∧ Waiting codec rest missing later := by
  induction frames generalizing buffer with
  | nil =>
    have empty : buffer = [] := (append_eq_nil_iff.mp stream).1
    subst buffer
    exact ⟨[], [], [], rfl, decodeAll_none (decode_nil codec), decode_nil codec, stream, accepted⟩
  | cons frame frames ih =>
    have valid := accepted frame (by simp)
    have split : buffer ++ missing = frameBytes frame ++ streamBytes frames := stream
    rcases append_eq_append_iff.mp split with ⟨tail, whole, rest⟩ | ⟨tail, whole, rest⟩
    · by_cases incomplete : tail = []
      · subst tail
        rw [append_nil] at whole
        rw [nil_append] at rest
        obtain ⟨complete, later, final, joined, drained, waiting⟩ :=
          ih (fun other member => accepted other (by simp [member])) [] rest
        have decoded : codec.decode.call (frameBytes frame ++ []) = (.ok (some frame), []) :=
          decode_frameBytes [] valid
        rw [append_nil, whole] at decoded
        refine ⟨frame :: complete, later, final, by rw [joined, cons_append], ?_, waiting⟩
        rw [decodeAll_some decoded, drained]
        rfl
      · have idle := decode_partial valid incomplete whole.symm
        exact ⟨[], frame :: frames, buffer, rfl, decodeAll_none idle, idle, stream, accepted⟩
    · obtain ⟨complete, later, final, joined, drained, waiting⟩ :=
        ih (fun other member => accepted other (by simp [member])) tail rest.symm
      have decoded : codec.decode.call buffer = (.ok (some frame), tail) := by
        rw [whole]
        exact decode_frameBytes tail valid
      refine ⟨frame :: complete, later, final, by rw [joined, cons_append], ?_, waiting⟩
      rw [decodeAll_some decoded, drained]
      rfl

theorem feedChunks_waiting (chunks : List (List UInt8)) (frames : List Frame) (buffer : List UInt8)
    (waiting : Waiting codec buffer chunks.flatten frames) :
    codec.feedChunks chunks buffer = (.ok frames, []) := by
  induction chunks generalizing frames buffer with
  | nil =>
    obtain ⟨rfl, rfl⟩ := waiting.finished
    rfl
  | cons chunk chunks ih =>
    have stream := waiting.stream
    rw [flatten_cons, ← append_assoc] at stream
    obtain ⟨complete, later, rest, rfl, drained, remaining⟩ :=
      decodeAll_stream frames waiting.accepted (buffer ++ chunk) chunks.flatten stream
    simp only [feedChunks, drained, ih later rest remaining]
    rfl

/-- However the stream is cut, the read loop returns the encoded frames in order. -/
theorem chunking_independent (codec : FrameCodec) (frames : List Frame) (encoded : List UInt8)
    (written : (codec.encodeAll frames).call [] = (.ok (), encoded))
    (chunks : List (List UInt8)) (cut : chunks.flatten = encoded) :
    codec.feedChunks chunks [] = (.ok frames, []) ∧
    ∀ buffer rest, codec.decode.call buffer = (.ok none, rest) → rest = buffer := by
  obtain ⟨accepted, stream⟩ := (encodeAll_eq_ok frames [] encoded).mp written
  refine ⟨feedChunks_waiting chunks frames [] ⟨decode_nil codec, ?_, accepted⟩, ?_⟩
  · rw [cut, nil_append, stream, nil_append]
  · intro buffer rest undecided
    exact decode_ok undecided

def samplePushes : List Frame :=
  [{ kind := .push, flags := 0, route := 100, requestId := 0, sequence := 1, payload := [7] },
   { kind := .push, flags := 0, route := 100, requestId := 0, sequence := 2, payload := [] }]

theorem chunking_independent_samplePushes :
    FrameCodec.default.feedChunks
      [(streamBytes samplePushes).take 40, (streamBytes samplePushes).drop 40] [] =
    (.ok samplePushes, []) :=
  (chunking_independent .default samplePushes (streamBytes samplePushes) (by decide) _
    (by decide)).1

end Stream

end Elura.FrameCodec
