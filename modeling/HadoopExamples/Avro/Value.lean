import HadoopExamples.Avro.BinaryCodec

set_option autoImplicit false

/-! # The binary format

What the format is about, apart from the objects of any language: the values of a schema
(`HasType`) and the bytes that stand for a value (`Encodes`). A value may have several encodings,
since the items of an array or a map come in blocks of any size, each with its length in bytes or
without. `Represents` is the table of Python types at the head of `io.py`. -/

namespace HadoopExamples.Avro

open Python

inductive Value where
  | null
  | boolean (b : Bool)
  | long (n : ℤ)
  | float (bits : UInt32)
  | double (bits : UInt64)
  | bytes (bytes : List UInt8)
  | string (chars : PyString)
  | fixed (bytes : List UInt8)
  | enum (index : ℕ)
  | array (items : List Value)
  | map (entries : List (PyString × Value))
  | union (index : ℕ) (value : Value)
  | record (fields : List Value)

def INT_MIN_VALUE : ℤ := -2 ^ 31
def INT_MAX_VALUE : ℤ := 2 ^ 31 - 1
def LONG_MIN_VALUE : ℤ := -2 ^ 63
def LONG_MAX_VALUE : ℤ := 2 ^ 63 - 1

/-- The values of a schema. -/
inductive HasType (store : Store) : Schema → Value → Prop
  | null : HasType store (.primitive .null) .null
  | boolean (b : Bool) : HasType store (.primitive .boolean) (.boolean b)
  | int {n : ℤ} (h : INT_MIN_VALUE ≤ n ∧ n ≤ INT_MAX_VALUE) :
    HasType store (.primitive .int) (.long n)
  | long {n : ℤ} (h : LONG_MIN_VALUE ≤ n ∧ n ≤ LONG_MAX_VALUE) :
    HasType store (.primitive .long) (.long n)
  | float (bits : UInt32) : HasType store (.primitive .float) (.float bits)
  | double (bits : UInt64) : HasType store (.primitive .double) (.double bits)
  | bytes (bytes : List UInt8) : HasType store (.primitive .bytes) (.bytes bytes)
  | string (chars : PyString) : HasType store (.primitive .string) (.string chars)
  | fixed {name : PyString} {size : ℤ} {bytes : List UInt8}
    (hname : store.definition? name = some (.fixed size)) (hsize : bytes.length = size) :
    HasType store (.named name) (.fixed bytes)
  | enum {name : PyString} {symbols : List PyString} {index : ℕ}
    (hname : store.definition? name = some (.enum symbols)) (hindex : index < symbols.length) :
    HasType store (.named name) (.enum index)
  | array {s : Schema} {items : List Value} (h : ∀ v ∈ items, HasType store s v) :
    HasType store (.array s) (.array items)
  | map {s : Schema} {entries : List (PyString × Value)}
    (h : ∀ entry ∈ entries, HasType store s entry.2) : HasType store (.map s) (.map entries)
  | union {schemas : List Schema} {index : ℕ} {s : Schema} {v : Value}
    (hindex : schemas[index]? = some s) (h : HasType store s v) :
    HasType store (.union schemas) (.union index v)
  | record {name : PyString} {fields : List Field} {values : List Value}
    (hname : store.fields? name = some fields) (hlength : values.length = fields.length)
    (h : ∀ pair ∈ fields.zip values, HasType store pair.1.type pair.2) :
    HasType store (.named name) (.record values)

/-- A block of items, with its length in bytes or without. -/
structure Block (ι : Type) where
  sized : Bool
  items : List ι

/-- What stands in front of a block; it is negative where the length in bytes is next. -/
def Block.count {ι : Type} (block : Block ι) : ℤ :=
  if block.sized then -block.items.length else block.items.length

/-- A block whose items have the bytes `bytes`, behind its count. -/
def Block.content {ι : Type} (bytes : ι → List UInt8) (block : Block ι) : List UInt8 :=
  if block.sized then longBytes (block.items.flatMap bytes).length ++ block.items.flatMap bytes
  else block.items.flatMap bytes

def Block.bytes {ι : Type} (bytes : ι → List UInt8) (block : Block ι) : List UInt8 :=
  longBytes block.count ++ block.content bytes

/-- No number in the block is too large to be read. -/
structure Block.Fits {ι : Type} (bytes : ι → List UInt8) (block : Block ι) : Prop where
  nonempty : block.items ≠ []
  length : block.items.length < 2 ^ 63
  size : block.sized = true → (block.items.flatMap bytes).length < 2 ^ 63

/-- The items of the blocks, one block behind the other. -/
abbrev itemsOf {ι : Type} (blocks : List (Block ι)) : List ι := blocks.flatMap Block.items

/-- The bytes of the blocks, with the block of no items that ends them. -/
def blocksBytes {ι : Type} (bytes : ι → List UInt8) (blocks : List (Block ι)) : List UInt8 :=
  blocks.flatMap (Block.bytes bytes) ++ longBytes 0

/-- The bytes of an entry of a map. -/
def entryBytes (entry : (PyString × Value) × List UInt8) : List UInt8 :=
  bytesBytes (encodeUtf8 entry.1.1) ++ entry.2

/-- The bytes that stand for a value. -/
inductive Encodes : Value → List UInt8 → Prop
  | null : Encodes .null []
  | boolean (b : Bool) : Encodes (.boolean b) (booleanBytes b)
  | long {n : ℤ} (h : IsLong n) : Encodes (.long n) (longBytes n)
  | float (bits : UInt32) : Encodes (.float bits) (floatBytes bits)
  | double (bits : UInt64) : Encodes (.double bits) (doubleBytes bits)
  | bytes {bytes : List UInt8} (h : bytes.length < 2 ^ 63) :
    Encodes (.bytes bytes) (bytesBytes bytes)
  | string {chars : PyString} (h : (encodeUtf8 chars).length < 2 ^ 63) :
    Encodes (.string chars) (bytesBytes (encodeUtf8 chars))
  | fixed (bytes : List UInt8) : Encodes (.fixed bytes) bytes
  | enum {index : ℕ} (h : index < 2 ^ 63) : Encodes (.enum index) (longBytes index)
  | array {blocks : List (Block (Value × List UInt8))}
    (hfits : ∀ block ∈ blocks, block.Fits Prod.snd)
    (h : ∀ item ∈ itemsOf blocks, Encodes item.1 item.2) :
    Encodes (.array ((itemsOf blocks).map Prod.fst)) (blocksBytes Prod.snd blocks)
  | map {blocks : List (Block ((PyString × Value) × List UInt8))}
    (hfits : ∀ block ∈ blocks, block.Fits entryBytes)
    (hkeys : ∀ entry ∈ itemsOf blocks, (encodeUtf8 entry.1.1).length < 2 ^ 63)
    (h : ∀ entry ∈ itemsOf blocks, Encodes entry.1.2 entry.2) :
    Encodes (.map ((itemsOf blocks).map Prod.fst)) (blocksBytes entryBytes blocks)
  | union {index : ℕ} {v : Value} {bytes : List UInt8} (hindex : index < 2 ^ 63)
    (h : Encodes v bytes) : Encodes (.union index v) (longBytes index ++ bytes)
  | record {parts : List (Value × List UInt8)} (h : ∀ part ∈ parts, Encodes part.1 part.2) :
    Encodes (.record (parts.map Prod.fst)) (parts.flatMap Prod.snd)

/-- A value in Python: records, with all their fields, and maps are `dict`s, arrays lists, strings
    and symbols unicode, bytes and fixed ones `str`, and numbers `int`s and floats. -/
inductive Represents (store : Store) (host : Host) : Schema → Value → PyObj → Prop
  | null : Represents store host (.primitive .null) .null .none
  | boolean (b : Bool) : Represents store host (.primitive .boolean) (.boolean b) (.bool b)
  | int (n : ℤ) : Represents store host (.primitive .int) (.long n) (.int n)
  | long (n : ℤ) : Represents store host (.primitive .long) (.long n) (.int n)
  | float (bits : UInt32) :
    Represents store host (.primitive .float) (.float bits) (.float (host.ofSingle bits))
  | double (bits : UInt64) :
    Represents store host (.primitive .double) (.double bits) (.float bits)
  | bytes (bytes : List UInt8) :
    Represents store host (.primitive .bytes) (.bytes bytes) (.str bytes)
  | string (chars : PyString) :
    Represents store host (.primitive .string) (.string chars) (.unicode chars)
  | fixed {name : PyString} {size : ℤ} {bytes : List UInt8}
    (hname : store.definition? name = some (.fixed size)) :
    Represents store host (.named name) (.fixed bytes) (.str bytes)
  | enum {name : PyString} {symbols : List PyString} {index : ℕ} {symbol : PyString}
    (hname : store.definition? name = some (.enum symbols))
    (hsymbol : symbols[index]? = some symbol) :
    Represents store host (.named name) (.enum index) (.unicode symbol)
  | array {s : Schema} {parts : List (Value × PyObj)}
    (h : ∀ part ∈ parts, Represents store host s part.1 part.2) :
    Represents store host (.array s) (.array (parts.map Prod.fst)) (.list (parts.map Prod.snd))
  | map {s : Schema} {parts : List ((PyString × Value) × PyObj)}
    (h : ∀ part ∈ parts, Represents store host s part.1.2 part.2) :
    Represents store host (.map s) (.map (parts.map Prod.fst))
      (.dict (dictOf (parts.map fun part => (part.1.1, part.2))))
  | union {schemas : List Schema} {index : ℕ} {s : Schema} {v : Value} {datum : PyObj}
    (hindex : schemas[index]? = some s) (h : Represents store host s v datum) :
    Represents store host (.union schemas) (.union index v) datum
  | record {name : PyString} {parts : List ((Field × Value) × PyObj)}
    (hname : store.fields? name = some (parts.map fun part => part.1.1))
    (h : ∀ part ∈ parts, Represents store host part.1.1.type part.1.2 part.2) :
    Represents store host (.named name) (.record (parts.map fun part => part.1.2))
      (.dict (parts.map fun part => (.unicode part.1.1.name, part.2)))

end HadoopExamples.Avro
