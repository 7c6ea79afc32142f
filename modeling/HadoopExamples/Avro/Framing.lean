import HadoopExamples.Library.Frames
import HadoopExamples.Avro.BinaryCodec

set_option autoImplicit false

/-! # Framed messages

`FramedWriter` and `FramedReader` of `ipc.py`, which put a message into buffers, each with its length
in front, and take it out of them. -/

namespace HadoopExamples.Avro

open Python Tape Frames

def BUFFER_HEADER_LENGTH : ℕ := 4

def BUFFER_SIZE : ℕ := 8192

def bigEndian (n : ℕ) : List UInt8 := (Varint.littleEndian BUFFER_HEADER_LENGTH n).reverse

def ofBigEndian (bytes : List UInt8) : ℕ := Varint.ofLittleEndian bytes.reverse

def connectionClosedException (fail_msg : String) : AvroException :=
  .error (.connectionClosedException (failMsg fail_msg []))

/-! ## FramedWriter -/

theorem pow_width : 256 ^ BUFFER_HEADER_LENGTH = 2 ^ 32 := by decide

theorem length_bigEndian (n : ℕ) : (bigEndian n).length = BUFFER_HEADER_LENGTH := by
  unfold bigEndian
  rw [List.length_reverse, Varint.length_littleEndian]

theorem ofBigEndian_bigEndian {n : ℕ} (h : n < 2 ^ 32) : ofBigEndian (bigEndian n) = n := by
  unfold ofBigEndian bigEndian
  rw [List.reverse_reverse, Varint.ofLittleEndian_littleEndian (pow_width ▸ h)]

def bufferFormat : Format UInt8 where
  width := BUFFER_HEADER_LENGTH
  bound := 2 ^ 32
  encode := bigEndian
  decode := ofBigEndian
  bound_pos := by decide
  length_encode := length_bigEndian
  decode_encode _ := ofBigEndian_bigEndian

/-- The buffers that a message is written in. -/
structure BuffersOf (message : List UInt8) (chunks : List (List UInt8)) : Prop where
  flatten : chunks.flatten = message
  size : ∀ chunk ∈ chunks, chunk ≠ [] ∧ chunk.length ≤ BUFFER_SIZE

theorem BuffersOf.fits {message : List UInt8} {chunks : List (List UInt8)}
    (h : BuffersOf message chunks) : bufferFormat.Fits chunks := by
  intro chunk hchunk
  obtain ⟨hne, hsize⟩ := h.size chunk hchunk
  exact ⟨hne, lt_of_le_of_lt hsize (by decide)⟩

section Reading

variable {most rounds : ℕ} {part : List UInt8}

theorem BuffersOf.length_le {message : List UInt8} {chunks : List (List UInt8)}
    (h : BuffersOf message chunks) : chunks.length ≤ message.length := by
  obtain ⟨rfl, hsize⟩ := h
  induction chunks with
  | nil => exact le_rfl
  | cons chunk chunks ih =>
    obtain ⟨⟨hne, -⟩, hrest⟩ := List.forall_mem_cons.1 hsize
    have hpos := List.length_pos_of_ne_nil hne
    have hle := ih hrest
    rw [List.flatten_cons, List.length_append, List.length_cons]
    omega

end Reading

end HadoopExamples.Avro
