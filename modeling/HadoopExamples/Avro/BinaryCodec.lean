import HadoopExamples.Library.Tape
import HadoopExamples.Library.Varint
import HadoopExamples.Avro.Schema

set_option autoImplicit false

/-! # Leaf values

`BinaryEncoder` and `BinaryDecoder` of `io.py`. An encoder adds bytes to what its writer has; a
decoder reads a file or a `StringIO` at its position. For every leaf there is what it writes, as
bytes, and the lemma that these are read and skipped. -/

namespace HadoopExamples.Avro

open Python

abbrev Encoder := EStateM AvroException (List UInt8)

abbrev Decoder := EStateM AvroException (Tape UInt8)

/-- What depends on the host that Python runs on: the conversions of numbers, which are those of C
    (a double as a float and back, and an integer as a double, where `none` is a number that is too
    large, a double as an integer, and what `int`, `long` and `float` read in a text), and the order
    in which a dictionary is gone through whose entries were put in in another one. -/
structure Host where
  toSingle : UInt64 → Option UInt32
  ofSingle : UInt32 → UInt64
  ofInt : ℤ → Option UInt64
  truncate : UInt64 → Except AvroException ℤ
  parseInt : PyString → Option ℤ
  parseLong : PyString → Option ℤ
  parseFloat : PyString → Option UInt64
  items {α : Type} : List (Key × α) → List (Key × α)
  items_perm {α : Type} (entries : List (Key × α)) : (items entries).Perm entries

/-- A host for data without numbers, where what was put in last comes first -/
def Host.plain : Host where
  toSingle _ := Option.none
  ofSingle _ := 0
  ofInt _ := Option.none
  truncate _ := .error .valueError
  parseInt _ := Option.none
  parseLong _ := Option.none
  parseFloat _ := Option.none
  items := List.reverse
  items_perm := List.reverse_perm

/-! ## BinaryEncoder -/

def write (bytes : List UInt8) : Encoder Unit := modify (· ++ bytes)

def write_null : Encoder Unit := return ()

def booleanBytes (datum : Bool) : List UInt8 := [if datum then 1 else 0]

def write_boolean (datum : Bool) : Encoder Unit := write (booleanBytes datum)

/-- The code is never negative, so that the loop of `write_long` ends. -/
def longBytes (datum : ℤ) : List UInt8 := Varint.encode (Varint.zigzag 63 datum).toNat

def write_long (datum : ℤ) : Encoder Unit := write (longBytes datum)

def write_int (datum : ℤ) : Encoder Unit := write_long datum

/-- The double that `struct.pack` makes of an object. -/
def toDouble (host : Host) : PyObj → Except AvroException UInt64
  | .float bits => .ok bits
  | .int n => match host.ofInt n with
    | some bits => .ok bits
    | none => .error .structError
  | .bool b => match host.ofInt (if b then 1 else 0) with
    | some bits => .ok bits
    | none => .error .structError
  | _ => .error .structError

def toSingle (host : Host) (datum : PyObj) : Except AvroException UInt32 := do
  match host.toSingle (← toDouble host datum) with
  | some bits => .ok bits
  | none => .error .overflowError

def floatBytes (bits : UInt32) : List UInt8 := Varint.littleEndian 4 bits.toNat

def doubleBytes (bits : UInt64) : List UInt8 := Varint.littleEndian 8 bits.toNat

def write_float (host : Host) (datum : PyObj) : Encoder Unit := do
  write (floatBytes (← ofExcept (toSingle host datum)))

def write_double (host : Host) (datum : PyObj) : Encoder Unit := do
  write (doubleBytes (← ofExcept (toDouble host datum)))

def bytesBytes (datum : List UInt8) : List UInt8 := longBytes datum.length ++ datum

def write_bytes (datum : List UInt8) : Encoder Unit := do
  write_long (← ofExcept (len datum))
  write datum

/-- `datum.encode("utf-8")`, which takes a `str` for ASCII characters -/
def encodeString : PyObj → Except AvroException (List UInt8)
  | .unicode chars => .ok (encodeUtf8 chars)
  | .str bytes => if bytes.all (· < 128) then .ok bytes else .error .unicodeError
  | _ => .error .attributeError

def write_utf8 (datum : PyObj) : Encoder Unit := do
  write_bytes (← ofExcept (encodeString datum))

/-! ## BinaryDecoder -/

/-- `read(n)`; for a negative number it is all that there is. -/
def read (n : ℤ) : Decoder (List UInt8) := fun t =>
  if n < 0 then Tape.read t.rest.length t else Tape.read n.toNat t

/-- `ord(self.read(1))` -/
def readByte : Decoder UInt8 := do
  match ← read 1 with
  | [b] => return b
  | _ => throw .typeError

def read_null : Decoder PyObj := return .none

def read_boolean : Decoder Bool := return (← readByte) = 1

/-- The loop of `read_long` ends at a byte without high bit, or fails behind the last byte. -/
def read_long : Decoder ℤ := fun t =>
  match Varint.decode t.rest with
  | some (n, rest) =>
    .ok (Varint.unzigzag n) { t with position := t.position + (t.rest.length - rest.length) }
  | none => .error .typeError { t with position := t.position + t.rest.length }

def read_int : Decoder ℤ := read_long

/-- The bits of `k` bytes, read one by one -/
def readBits (k : ℕ) : Decoder ℕ := do
  let bytes ← Tape.repeatM (fun bytes => do return bytes ++ [← readByte]) k []
  return Varint.ofLittleEndian bytes

def read_float (host : Host) : Decoder PyObj := do
  return .float (host.ofSingle (UInt32.ofNat (← readBits 4)))

def read_double : Decoder PyObj := do
  return .float (UInt64.ofNat (← readBits 8))

def read_bytes : Decoder (List UInt8) := do
  read (← read_long)

def read_utf8 : Decoder PyString := do
  match decodeUtf8 (← read_bytes) with
  | some chars => return chars
  | none => throw .unicodeError

def skip (n : ℤ) : Decoder Unit := do
  let position ← Tape.tell
  if position + n < 0 then throw .ioError else Tape.seek (position + n).toNat

def skip_null : Decoder Unit := return ()

def skip_boolean : Decoder Unit := skip 1

def skip_long : Decoder Unit := fun t =>
  match Varint.skip t.rest with
  | some rest => .ok () { t with position := t.position + (t.rest.length - rest.length) }
  | none => .error .typeError { t with position := t.position + t.rest.length }

def skip_int : Decoder Unit := skip_long

def skip_float : Decoder Unit := skip 4

def skip_double : Decoder Unit := skip 8

def skip_bytes : Decoder Unit := do
  skip (← read_long)

def skip_utf8 : Decoder Unit := skip_bytes

/-! ## What is read and skipped -/

open Tape

/-- Numbers of 64 bits, as `validate` lets them pass. -/
def IsLong (n : ℤ) : Prop := -2 ^ 63 ≤ n ∧ n < 2 ^ 63

theorem isLong_of_length {α : Type} {l : List α} (h : l.length < 2 ^ 63) : IsLong l.length := by
  unfold IsLong
  omega

theorem isLong_neg_of_length {α : Type} {l : List α} (h : l.length < 2 ^ 63) :
    IsLong (-l.length) := by
  unfold IsLong
  omega

theorem longBytes_ne_nil (n : ℤ) : longBytes n ≠ [] := Varint.encode_ne_nil _

theorem answers_readByte (b : UInt8) : Answers readByte [b] (.ok b) := by
  have h : Answers readByte ([b] ++ []) (.ok b) :=
    Answers.andThen (answers_read [b]) (Answers.pure b)
  rwa [List.append_nil] at h

theorem answers_read_boolean (b : Bool) :
    Answers read_boolean (booleanBytes b) (.ok b) := by
  have h := Answers.map (g := fun byte : UInt8 => decide (byte = 1))
    (answers_readByte (if b then 1 else 0))
  cases b <;> exact h

theorem answers_of_decode {α : Type} {p : Decoder α} {part : List UInt8} {a : α}
    (h : ∀ t : Tape UInt8, ∀ back, t.rest = part ++ back →
      p t = .ok a { t with position := t.position + part.length }) : Answers p part (.ok a) := by
  intro front back
  rw [h _ back (rest_before front part back)]
  unfold before behind
  rw [List.length_append]

theorem answers_read_long {n : ℤ} (hn : IsLong n) : Answers read_long (longBytes n) (.ok n) := by
  refine answers_of_decode fun t back hrest => ?_
  unfold read_long
  rw [hrest, longBytes, Varint.decode_encode, List.length_append]
  simp only [(Varint.unzigzag_zigzag_iff 63 n).2 hn, Nat.add_sub_cancel]

theorem answers_skip_long (n : ℤ) : Answers skip_long (longBytes n) (.ok ()) := by
  refine answers_of_decode fun t back hrest => ?_
  unfold skip_long
  rw [hrest, longBytes, ← Varint.map_decode, Varint.decode_encode, List.length_append]
  simp only [Option.map_some, Nat.add_sub_cancel]

theorem answers_readBits {k n : ℕ} (hn : n < 256 ^ k) :
    Answers (readBits k) (Varint.littleEndian k n) (.ok n) := by
  have hloop : Answers (repeatM (fun bytes => do return bytes ++ [← readByte])
      (Varint.littleEndian k n).length []) ((Varint.littleEndian k n).flatMap fun b => [b])
      ((Varint.littleEndian k n).foldlM (fun bytes b => Except.ok (bytes ++ [b])) []) :=
    Answers.repeatM (fun b _ bytes => Answers.map (answers_readByte b)) []
  have hbytes : ∀ (l done : List UInt8), l.foldlM (fun bytes b => Except.ok (bytes ++ [b])) done
      = (Except.ok (done ++ l) : Except AvroException _) := by
    intro l
    induction l with
    | nil =>
      intro done
      rw [List.append_nil]
      rfl
    | cons b l ih =>
      intro done
      rw [List.append_cons]
      exact ih (done ++ [b])
  rw [hbytes, Varint.length_littleEndian, List.flatMap_singleton', List.nil_append] at hloop
  have h : Answers (readBits k) (Varint.littleEndian k n) (.ok (Varint.ofLittleEndian _)) :=
    Answers.map hloop
  rwa [Varint.ofLittleEndian_littleEndian hn] at h

theorem answers_read_float (host : Host) (bits : UInt32) :
    Answers (read_float host) (floatBytes bits) (.ok (.float (host.ofSingle bits))) := by
  have h : Answers (read_float host) (floatBytes bits)
      (.ok (.float (host.ofSingle (UInt32.ofNat bits.toNat)))) :=
    Answers.map (answers_readBits (k := 4) bits.toNat_lt)
  rwa [UInt32.ofNat_toNat] at h

theorem answers_read_double (bits : UInt64) :
    Answers read_double (doubleBytes bits) (.ok (.float bits)) := by
  have h : Answers read_double (doubleBytes bits) (.ok (.float (UInt64.ofNat bits.toNat))) :=
    Answers.map (answers_readBits (k := 8) bits.toNat_lt)
  rwa [UInt64.ofNat_toNat] at h

theorem answers_read_length (bytes : List UInt8) :
    Answers (read bytes.length) bytes (.ok bytes) := by
  have hread : ∀ t, read bytes.length t = Tape.read bytes.length t := by
    intro t
    unfold read
    rw [if_neg (by omega), Int.toNat_natCast]
  intro front back
  rw [hread]
  exact answers_read bytes front back

theorem answers_read_bytes {bytes : List UInt8} (h : bytes.length < 2 ^ 63) :
    Answers read_bytes (bytesBytes bytes) (.ok bytes) :=
  Answers.andThen (answers_read_long (isLong_of_length h)) (answers_read_length bytes)

theorem answers_read_utf8 {s : PyString} (h : (encodeUtf8 s).length < 2 ^ 63) :
    Answers read_utf8 (bytesBytes (encodeUtf8 s)) (.ok s) := by
  have hread : Answers read_utf8 (bytesBytes (encodeUtf8 s) ++ []) (.ok s) := by
    refine Answers.andThen (answers_read_bytes h) ?_
    rw [decodeUtf8_encodeUtf8]
    exact Answers.pure s
  rwa [List.append_nil] at hread

theorem answers_skip_length (bytes : List UInt8) :
    Answers (skip bytes.length) bytes (.ok ()) := by
  have hskip : ∀ t, skip bytes.length t
      = (do let n ← tell; seek (n + bytes.length) : Decoder Unit) t := by
    intro t
    show (if (t.position : ℤ) + bytes.length < 0 then throw .ioError
      else seek ((t.position : ℤ) + bytes.length).toNat : Decoder Unit) t = _
    rw [if_neg (by omega)]
    rfl
  intro front back
  rw [hskip]
  exact answers_skip bytes front back

theorem answers_skip_bytes {bytes : List UInt8} (h : bytes.length < 2 ^ 63) :
    Answers skip_bytes (bytesBytes bytes) (.ok ()) :=
  Answers.andThen (answers_read_long (isLong_of_length h)) (answers_skip_length bytes)

end HadoopExamples.Avro
