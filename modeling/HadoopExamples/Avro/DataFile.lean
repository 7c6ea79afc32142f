import HadoopExamples.Avro.DatumReader

set_option autoImplicit false

/-! # Object container files

`DataFileWriter` and `DataFileReader` of `datafile.py`. A writer has its file, which it only adds
to, and a buffer for the block that it is at; a reader has its file with the position in it, and a
place of its own to read the data of a compressed block from. -/

namespace HadoopExamples.Avro

open Python

def MAGIC : List UInt8 := [0x4F, 0x62, 0x6A, 1]

def SYNC_SIZE : ℕ := 16

def SYNC_INTERVAL : ℕ := 1000 * SYNC_SIZE

/-- The JSON of `META_SCHEMA` -/
def META_SCHEMA_JSON : PyObj :=
  let unicode (s : String) : PyObj := .unicode s.toList
  let obj (entries : List (String × PyObj)) : PyObj :=
    .dict (entries.map fun entry => (.unicode entry.1.toList, entry.2))
  obj [("type", unicode "record"), ("name", unicode "org.apache.avro.file.Header"),
    ("fields", .list [
      obj [("name", unicode "magic"), ("type", obj [("type", unicode "fixed"),
        ("name", unicode "magic"), ("size", .int MAGIC.length)])],
      obj [("name", unicode "meta"), ("type", obj [("type", unicode "map"),
        ("values", unicode "bytes")])],
      obj [("name", unicode "sync"), ("type", obj [("type", unicode "fixed"),
        ("name", unicode "sync"), ("size", .int SYNC_SIZE)])]])]

def headerField (name : String) (type : Schema) : Field :=
  { type, name := name.toList, has_default := false, default := .none, order := none }

def MAGIC_NAME : PyString := "org.apache.avro.file.magic".toList

def SYNC_NAME : PyString := "org.apache.avro.file.sync".toList

def HEADER_NAME : PyString := "org.apache.avro.file.Header".toList

def HEADER_FIELDS : List Field :=
  [headerField "magic" (.named MAGIC_NAME), headerField "meta" (.map (.primitive .bytes)),
    headerField "sync" (.named SYNC_NAME)]

def META_SCHEMA : SchemaObject :=
  { schema := .named HEADER_NAME
    store := [(HEADER_NAME, ⟨HEADER_NAME, none, .record HEADER_FIELDS⟩),
      (MAGIC_NAME, ⟨"magic".toList, none, .fixed 4⟩),
      (SYNC_NAME, ⟨"sync".toList, none, .fixed 16⟩)] }

theorem parse_META_SCHEMA (limit : ℕ) :
    parse (limit + 3) (some META_SCHEMA_JSON) = .ok META_SCHEMA := by
  rfl

def CODEC_KEY : PyString := "avro.codec".toList

def SCHEMA_KEY : PyString := "avro.schema".toList

def VALID_CODECS : List PyString := ["null".toList, "deflate".toList]

def dataFileException (format : String) (args : List PyObj) : AvroException :=
  .error (.dataFileException (failMsg format args))

/-- What is taken from outside: `zlib.compress(s)`, `zlib.decompress(s, -15)`, where `none` is an
    error, and `json.loads`. -/
structure Imports where
  compress : List UInt8 → List UInt8
  decompress : List UInt8 → Option (List UInt8)
  loads : List UInt8 → Option PyObj

/-! ## DataFileWriter -/

structure DataFileWriter where
  writer : List UInt8
  buffer_writer : List UInt8
  block_count : ℕ
  metadata : List (Key × PyObj)
  sync_marker : List UInt8
  writers_schema : SchemaObject

abbrev FileWriter := EStateM AvroException DataFileWriter

/-- A step of the encoder of the file. -/
def encoder (p : Encoder Unit) : FileWriter Unit := fun w => match p w.writer with
  | .ok _ writer => .ok () { w with writer }
  | .error e writer => .error e { w with writer }

def buffer_encoder (p : Encoder Unit) : FileWriter Unit := fun w => match p w.buffer_writer with
  | .ok _ buffer_writer => .ok () { w with buffer_writer }
  | .error e buffer_writer => .error e { w with buffer_writer }

/-- The data of a block as the file has them, by the codec. The first two characters and the last
    one of what `zlib` returns are left out. -/
def compressData (imports : Imports) (codec : PyObj) (uncompressed_data : List UInt8) :
    Except AvroException (List UInt8) :=
  if codec.asString = some "null".toList then .ok uncompressed_data
  else if codec.asString = some "deflate".toList then
    .ok ((imports.compress uncompressed_data).drop 2).dropLast
  else .error (dataFileException "\"%s\" codec is not supported." [codec])

/-- `_write_block` -/
def write_block (imports : Imports) : FileWriter Unit := do
  let w ← get
  if w.block_count > 0 then
    encoder (write_long w.block_count)
    let compressed_data ←
      ofExcept (compressData imports (.get w.metadata CODEC_KEY) w.buffer_writer)
    encoder (write_long (← ofExcept (len compressed_data)))
    encoder (write compressed_data)
    encoder (write w.sync_marker)
    modify fun w => { w with buffer_writer := [], block_count := 0 }

def append (host : Host) (imports : Imports) (limit : ℕ) (datum : PyObj) : FileWriter Unit := do
  let w ← get
  buffer_encoder (writeDatum host w.writers_schema.store limit w.writers_schema.schema datum)
  modify fun w => { w with block_count := w.block_count + 1 }
  if (← get).buffer_writer.length ≥ SYNC_INTERVAL then
    write_block imports

/-- The position that is returned is the end of the file. -/
def sync (imports : Imports) : FileWriter ℕ := do
  write_block imports
  return (← get).writer.length

def flush (imports : Imports) : FileWriter Unit := write_block imports

/-- `_write_header`, to a file of this content; the metadata are written as the dictionary is gone
    through. -/
def write_header (host : Host) (limit : ℕ) (metadata : List (Key × PyObj))
    (sync_marker : List UInt8) : Encoder Unit :=
  write_data host META_SCHEMA.store limit META_SCHEMA.schema (.dict [
    (.str ("magic".toList.map fun c => c.val.toUInt8), .str MAGIC),
    (.str ("meta".toList.map fun c => c.val.toUInt8), .dict (host.items metadata)),
    (.str ("sync".toList.map fun c => c.val.toUInt8), .str sync_marker)])

/-- `DataFileWriter.__init__` with a schema, whose text is `schema_text`, for a new file. -/
def DataFileWriter.new (host : Host) (limit : ℕ) (writers_schema : SchemaObject)
    (schema_text : List UInt8) (codec : PyObj) (sync_marker : List UInt8) :
    Except AvroException DataFileWriter := do
  if codec.asString.all (· ∉ VALID_CODECS) then
    throw (dataFileException "Unknown codec: %r" [codec])
  let metadata := dictSet (dictSet [] CODEC_KEY codec) SCHEMA_KEY (.str schema_text)
  match write_header host limit metadata sync_marker [] with
  | .ok _ writer =>
    return { writer, buffer_writer := [], block_count := 0, metadata, sync_marker, writers_schema }
  | .error e _ => throw e

/-! ## DataFileReader -/

structure DataFileReader where
  reader : Tape UInt8
  /-- Where the data of the block are, if not in the file. -/
  datum_decoder : Option (Tape UInt8)
  block_count : ℤ
  metadata : List (Key × PyObj)
  sync_marker : List UInt8
  codec : PyString
  file_length : ℕ
  writers_schema : SchemaObject
  readers_schema : Option SchemaObject

abbrev FileReader := EStateM AvroException DataFileReader

/-- A step of the decoder of the file. -/
def raw_decoder {α : Type} (p : Decoder α) : FileReader α := fun r => match p r.reader with
  | .ok a reader => .ok a { r with reader }
  | .error e reader => .error e { r with reader }

/-- A step of the decoder of the block. -/
def datumDecoder {α : Type} (p : Decoder α) : FileReader α := fun r => match r.datum_decoder with
  | none => raw_decoder p r
  | some t => match p t with
    | .ok a t => .ok a { r with datum_decoder := some t }
    | .error e t => .error e { r with datum_decoder := some t }

/-- What `_read_header` leaves, the metadata and the sync marker. -/
def read_header (host : Host) (limit : ℕ) :
    Decoder (List (Key × PyObj) × List UInt8) := do
  Tape.seek 0
  let header ← ofExcept (asDict (← read_data host META_SCHEMA.store META_SCHEMA.store limit
    META_SCHEMA.schema META_SCHEMA.schema))
  match PyObj.get header "magic".toList, PyObj.get header "meta".toList,
    PyObj.get header "sync".toList with
  | .str magic, .dict metadata, .str sync_marker =>
    if magic ≠ MAGIC then
      throw (avroException "Not an Avro data file: %s doesn't match %s." [.str magic, .str MAGIC])
    return (metadata, sync_marker)
  | _, _, _ => throw .typeError

/-- `DataFileReader.__init__`; `readers_schema` is the one of the datum reader, if it has one. -/
def DataFileReader.new (host : Host) (imports : Imports) (limit : ℕ) (content : List UInt8)
    (readers_schema : Option SchemaObject) : Except AvroException DataFileReader := do
  match read_header host limit ⟨content, 0⟩ with
  | .error e _ => throw e
  | .ok (metadata, sync_marker) reader =>
    let codec ← match PyObj.get metadata CODEC_KEY with
      | .none => pure "null".toList
      | codec => match codec.asString with
        | some name => if name ∈ VALID_CODECS then pure name else
            throw (dataFileException "Unknown codec: %s." [codec])
        | none => throw (dataFileException "Unknown codec: %s." [codec])
    let json_data := match PyObj.get metadata SCHEMA_KEY with
      | .str text => imports.loads text
      | _ => none
    let writers_schema ← parse limit json_data
    return { reader, datum_decoder := none, block_count := 0, metadata, sync_marker, codec,
             file_length := content.length, writers_schema, readers_schema }

def is_EOF : FileReader Bool := do
  let r ← get
  return r.reader.position = r.file_length

/-- `_skip_sync` -/
def skip_sync : FileReader Bool := do
  let proposed_sync_marker ← raw_decoder (read SYNC_SIZE)
  if proposed_sync_marker ≠ (← get).sync_marker then
    raw_decoder (skip (-SYNC_SIZE))
    return false
  else return true

/-- `_read_block_header`; where the data are not compressed, their length makes no difference. -/
def read_block_header (imports : Imports) : FileReader Unit := do
  let block_count ← raw_decoder read_long
  modify fun r => { r with block_count }
  if (← get).codec = "null".toList then
    raw_decoder skip_long
    modify fun r => { r with datum_decoder := none }
  else
    let data ← raw_decoder read_bytes
    match imports.decompress data with
    | some uncompressed => modify fun r => { r with datum_decoder := some ⟨uncompressed, 0⟩ }
    | none => throw .zlibError

/-- `DatumReader.read`, which takes the writer's schema where there is no other. -/
def readDatum (host : Host) (limit : ℕ) : FileReader PyObj := do
  let r ← get
  let readers_schema := r.readers_schema.getD r.writers_schema
  modify fun r => { r with readers_schema := some readers_schema }
  datumDecoder (read_data host r.writers_schema.store readers_schema.store limit
    r.writers_schema.schema readers_schema.schema)

/-- What `next` does where no datum is left of a block. -/
def nextBlock (imports : Imports) : FileReader Unit := do
  if ← is_EOF then throw .stopIteration
  else if ← skip_sync then
    if ← is_EOF then throw .stopIteration
    read_block_header imports
  else read_block_header imports

def next (host : Host) (imports : Imports) (limit : ℕ) : FileReader PyObj := do
  if (← get).block_count = 0 then nextBlock imports
  let datum ← readDatum host limit
  modify fun r => { r with block_count := r.block_count - 1 }
  return datum

/-- `list(reader)`, for at most `rounds` data -/
def readAll (next : FileReader PyObj) : ℕ → FileReader (List PyObj)
  | 0 => throw .runtimeError
  | rounds + 1 => fun r => match next r with
    | .ok datum r => match readAll next rounds r with
      | .ok data r => .ok (datum :: data) r
      | .error e r => .error e r
    | .error .stopIteration r => .ok [] r
    | .error e r => .error e r

/-- `DataFileWriter.__init__` without a schema, for a file that there is. -/
def DataFileWriter.reopen (host : Host) (imports : Imports) (limit : ℕ) (content : List UInt8) :
    Except AvroException DataFileWriter := do
  let dfr ← DataFileReader.new host imports limit content none
  let schema_from_file := PyObj.get dfr.metadata SCHEMA_KEY
  let metadata := dictSet (dictSet [] CODEC_KEY (.get dfr.metadata CODEC_KEY)) SCHEMA_KEY
    schema_from_file
  return { writer := content, buffer_writer := [], block_count := 0, metadata,
           sync_marker := dfr.sync_marker, writers_schema := dfr.writers_schema }

end HadoopExamples.Avro
