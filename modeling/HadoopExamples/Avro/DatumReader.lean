import HadoopExamples.Avro.DatumWriter

set_option autoImplicit false

/-! # Reading data

`DatumReader` of `io.py`, which reads data of the writer's schema as the reader's schema has it. -/

namespace HadoopExamples.Avro

open Python

/-! ## Matching schemas -/

/-- The promotions -/
def promotes : PrimitiveType → PrimitiveType → Bool
  | .int, .long => true
  | .int, .float => true
  | .int, .double => true
  | .long, .float => true
  | .long, .double => true
  | .float, .double => true
  | _, _ => false

def matchDefinitions (w_name r_name : PyString) : Option Definition → Option Definition → Bool
  | some (.record _), some (.record _) => w_name = r_name
  | some (.error _), some (.error _) => w_name = r_name
  | some (.fixed w_size), some (.fixed r_size) => w_name = r_name ∧ w_size = r_size
  | some (.enum _), some (.enum _) => w_name = r_name
  | _, _ => false

/-- `match_schemas`, where the objects with names are in `writers` and `readers`. -/
def match_schemas (writers readers : Store) (writers_schema readers_schema : Schema) : Bool :=
  match writers_schema, readers_schema with
  | .union _, _ => true
  | _, .union _ => true
  | .primitive w_type, .primitive r_type => w_type = r_type || promotes w_type r_type
  | .named w_name, .named r_name =>
    matchDefinitions w_name r_name (writers.definition? w_name) (readers.definition? r_name)
  | .map w_values, .map r_values => w_values.type writers = r_values.type readers
  | .array w_items, .array r_items => w_items.type writers = r_items.type readers
  | _, _ => false

/-! ## Loops over blocks -/

section Loops

variable {σ : Type}

/-- `for i in range(n)` -/
def forRange (n : ℤ) (step : σ → Decoder σ) (s : σ) : Decoder σ :=
  if n < 2 ^ 63 then Tape.repeatM step n.toNat s else throw .overflowError

/-- `while block_count != 0`, for at most `limit` blocks: a skipped block may lead back. -/
def forBlocks (block : ℤ → σ → Decoder σ) : ℕ → σ → Decoder σ
  | 0, _ => throw .runtimeError
  | limit + 1, s => do
    let block_count ← read_long
    if block_count = 0 then return s
    forBlocks block limit (← block block_count s)

/-- The size of a block is read, but makes no difference. -/
def readBlock (step : σ → Decoder σ) (block_count : ℤ) (s : σ) : Decoder σ := do
  if block_count < 0 then
    let _block_size ← read_long
    forRange (-block_count) step s
  else forRange block_count step s

def skipBlock (step : Decoder Unit) (block_count : ℤ) (_ : Unit) : Decoder Unit := do
  if block_count < 0 then skip (← read_long) else forRange block_count (fun _ => step) ()

end Loops

/-! ## Skipping -/

/-- `str(None)` is no JSON, which the exception fails at. -/
def skip_union (skip_data : Schema → Decoder Unit) (schemas : List Schema) : Decoder Unit := do
  let index_of_schema ← read_long
  if index_of_schema ≥ schemas.length then throw .valueError
  skip_data (← ofExcept (getItem schemas index_of_schema))

def skip_record (skip_data : Schema → Decoder Unit) (fields : List Field) : Decoder Unit :=
  fields.forM fun field => skip_data field.type

/-- `skip_data(writers_schema, decoder)`, with at most `limit` calls one in the other. -/
def skip_data (store : Store) : ℕ → Schema → Decoder Unit
  | 0, _ => throw .runtimeError
  | limit + 1, writers_schema => match writers_schema with
    | .primitive .null => skip_null
    | .primitive .boolean => skip_boolean
    | .primitive .string => skip_utf8
    | .primitive .int => skip_int
    | .primitive .long => skip_long
    | .primitive .float => skip_float
    | .primitive .double => skip_double
    | .primitive .bytes => skip_bytes
    | .named name => match store.definition? name with
      | some (.fixed size) => skip size
      | some (.enum _) => skip_int
      | some (.record fields) => skip_record (skip_data store limit) fields
      | some (.error fields) => skip_record (skip_data store limit) fields
      | none => throw .attributeError
    | .array items => forBlocks (skipBlock (skip_data store limit items)) limit ()
    | .map values =>
      forBlocks (skipBlock (do skip_utf8; skip_data store limit values)) limit ()
    | .union schemas => skip_union (skip_data store limit) schemas

/-! ## Default values -/

/-- `int(obj)` and `long(obj)` -/
def toInt (host : Host) (parse : PyString → Option ℤ) (obj : PyObj) : Except AvroException ℤ :=
  match obj with
  | .int n => .ok n
  | .bool b => .ok (if b then 1 else 0)
  | .float bits => host.truncate bits
  | .str _ => match obj.asString.bind parse with
    | some n => .ok n
    | none => .error .valueError
  | .unicode chars => match parse chars with
    | some n => .ok n
    | none => .error .valueError
  | _ => .error .typeError

/-- `float(n)` -/
def intToFloat (host : Host) (n : ℤ) : Except AvroException UInt64 :=
  match host.ofInt n with
  | some bits => .ok bits
  | none => .error .overflowError

/-- `float(obj)` -/
def toFloat (host : Host) (obj : PyObj) : Except AvroException UInt64 :=
  match obj with
  | .str _ => match obj.asString.bind host.parseFloat with
    | some bits => .ok bits
    | none => .error .valueError
  | .unicode chars => match host.parseFloat chars with
    | some bits => .ok bits
    | none => .error .valueError
  | .int n => intToFloat host n
  | .bool b => intToFloat host (if b then 1 else 0)
  | .float bits => .ok bits
  | _ => .error .typeError

/-- `for item in obj` -/
def iterate : PyObj → Except AvroException (List PyObj)
  | .list items => .ok items
  | .unicode chars => .ok (chars.map fun c => .unicode [c])
  | .str bytes => .ok (bytes.map fun b => .str [b])
  | .dict entries => .ok (entries.map fun entry => keyObj entry.1)
  | _ => .error .typeError

/-- For a record; what the default does not give comes from the defaults of the fields. -/
def readDefaultRecord (read_default_value : Schema → PyObj → Except AvroException PyObj)
    (fields : List Field) (default_value : PyObj) : Except AvroException PyObj := do
  let read_record ← fields.foldlM (fun read_record field => do
    let json_val := PyObj.get (← asDict default_value) field.name
    let json_val := match json_val with
      | .none => field.default
      | _ => json_val
    return dictSet read_record field.name (← read_default_value field.type json_val)) []
  return .dict read_record

/-- `_read_default_value(field_schema, default_value)`, with at most `limit` calls one in the
    other. -/
def read_default_value (host : Host) (store : Store) :
    ℕ → Schema → PyObj → Except AvroException PyObj
  | 0, _, _ => throw .runtimeError
  | limit + 1, field_schema, default_value => match field_schema with
    | .primitive .null => return .none
    | .primitive .boolean => return .bool default_value.truthy
    | .primitive .int => return .int (← toInt host host.parseInt default_value)
    | .primitive .long => return .int (← toInt host host.parseLong default_value)
    | .primitive .float => return .float (← toFloat host default_value)
    | .primitive .double => return .float (← toFloat host default_value)
    | .primitive .string => return default_value
    | .primitive .bytes => return default_value
    | .named name => match store.definition? name with
      | some (.enum _) => return default_value
      | some (.fixed _) => return default_value
      | some (.record fields) =>
        readDefaultRecord (read_default_value host store limit) fields default_value
      -- an `error` is a record everywhere else
      | some (.error _) => throw (avroException "Unknown type: %s" [.unicode "error".toList])
      | none => throw .attributeError
    | .array items => do
      let read_array ← (← iterate default_value).mapM (read_default_value host store limit items)
      return .list read_array
    | .map values => do
      let read_map ← (← asDict default_value).mapM fun (key, json_val) => do
        return (key, ← read_default_value host store limit values json_val)
      return .dict read_map
    | .union schemas => do
      read_default_value host store limit (← getItem schemas 0) default_value

/-! ## Reading -/

def resolutionException (format : String) (args : List PyObj)
    (writers_schema readers_schema : Schema) : AvroException :=
  .error (.schemaResolutionException (failMsg format args) writers_schema readers_schema)

def resolveSymbol (writers_schema readers_schema : Schema) (readers_symbols : List PyString)
    (read_symbol : PyString) : Except AvroException PyObj :=
  if read_symbol ∈ readers_symbols then .ok (.unicode read_symbol)
  else .error (resolutionException "Symbol %s not present in Reader's Schema"
    [.unicode read_symbol] writers_schema readers_schema)

def read_enum (writers_schema readers_schema : Schema) (symbols readers_symbols : List PyString) :
    Decoder PyObj := do
  let index_of_symbol ← read_int
  if index_of_symbol ≥ symbols.length then
    throw (resolutionException "Can't access enum index %d for enum with %d symbols"
      [.int index_of_symbol, .int symbols.length] writers_schema readers_schema)
  let read_symbol ← ofExcept (getItem symbols index_of_symbol)
  ofExcept (resolveSymbol writers_schema readers_schema readers_symbols read_symbol)

def read_array (read_item : Decoder PyObj) (limit : ℕ) : Decoder PyObj := do
  let read_items ← forBlocks (readBlock fun read_items => do
    return read_items ++ [← read_item]) limit []
  return .list read_items

def read_map (read_value : Decoder PyObj) (limit : ℕ) : Decoder PyObj := do
  let read_items ← forBlocks (readBlock fun read_items => do
    let key ← read_utf8
    return dictSet read_items key (← read_value)) limit []
  return .dict read_items

def read_union (read_data : Schema → Schema → Decoder PyObj) (schemas : List Schema)
    (readers_schema : Schema) : Decoder PyObj := do
  let index_of_schema ← read_long
  if index_of_schema ≥ schemas.length then
    throw (resolutionException "Can't access branch index %d for union with %d branches"
      [.int index_of_schema, .int schemas.length] (.union schemas) readers_schema)
  read_data (← ofExcept (getItem schemas index_of_schema)) readers_schema

def fields_dict (fields : List Field) : List (Key × Field) :=
  dictOf (fields.map fun field => (field.name, field))

/-- The second loop of `read_record`. -/
def fillDefaults (host : Host) (read_default_value : Schema → PyObj → Except AvroException PyObj)
    (writers_schema readers_schema : Schema) (writers_fields readers_fields : List Field)
    (read_record : List (Key × PyObj)) : Except AvroException PyObj := do
  let readers_fields_dict := fields_dict readers_fields
  if readers_fields_dict.length > read_record.length then
    let writers_fields_dict := fields_dict writers_fields
    let read_record ← (host.items readers_fields_dict).foldlM (fun read_record (_, field) => do
      if (dictGet writers_fields_dict field.name).isSome then return read_record
      else if field.has_default then
        return dictSet read_record field.name (← read_default_value field.type field.default)
      else throw (resolutionException "No default value for field %s" [.unicode field.name]
        writers_schema readers_schema)) read_record
    return .dict read_record
  else return .dict read_record

def read_record (host : Host) (read_data : Schema → Schema → Decoder PyObj)
    (skip_data : Schema → Decoder Unit)
    (read_default_value : Schema → PyObj → Except AvroException PyObj)
    (writers_schema readers_schema : Schema) (writers_fields readers_fields : List Field) :
    Decoder PyObj := do
  let readers_fields_dict := fields_dict readers_fields
  let read_record ← writers_fields.foldlM (fun read_record field => do
    match dictGet readers_fields_dict field.name with
    | some readers_field =>
      return dictSet read_record field.name (← read_data field.type readers_field.type)
    | none => do
      skip_data field.type
      return read_record) []
  ofExcept (fillDefaults host read_default_value writers_schema readers_schema writers_fields
    readers_fields read_record)

/-- What `read_data` does with the definitions of two names that match. -/
def readDefinitions (host : Host) (read_data : Schema → Schema → Decoder PyObj)
    (skip_data : Schema → Decoder Unit)
    (read_default_value : Schema → PyObj → Except AvroException PyObj)
    (writers_schema readers_schema : Schema) :
    Option Definition → Option Definition → Decoder PyObj
  | some (.fixed size), _ => do return .str (← read size)
  | some (.enum symbols), some (.enum readers_symbols) =>
    read_enum writers_schema readers_schema symbols readers_symbols
  | some (.record fields), some (.record readers_fields) =>
    read_record host read_data skip_data read_default_value writers_schema readers_schema fields
      readers_fields
  | some (.error fields), some (.error readers_fields) =>
    read_record host read_data skip_data read_default_value writers_schema readers_schema fields
      readers_fields
  | _, _ => throw .attributeError

/-- `read_data(writers_schema, readers_schema, decoder)`, with at most `limit` calls one in the
    other. -/
def read_data (host : Host) (writers readers : Store) : ℕ → Schema → Schema → Decoder PyObj
  | 0, _, _ => throw .runtimeError
  | limit + 1, writers_schema, readers_schema =>
    if match_schemas writers readers writers_schema readers_schema = false then
      throw (resolutionException "Schemas do not match." [] writers_schema readers_schema)
    else match writers_schema, readers_schema with
    | .union schemas, _ =>
      read_union (read_data host writers readers limit) schemas readers_schema
    | _, .union schemas =>
      match schemas.find? (match_schemas writers readers writers_schema) with
      | some s => read_data host writers readers limit writers_schema s
      | none =>
        throw (resolutionException "Schemas do not match." [] writers_schema readers_schema)
    | .primitive .null, _ => read_null
    | .primitive .boolean, _ => do return .bool (← read_boolean)
    | .primitive .string, _ => do return .unicode (← read_utf8)
    | .primitive .int, _ => do return .int (← read_int)
    | .primitive .long, _ => do return .int (← read_long)
    | .primitive .float, _ => read_float host
    | .primitive .double, _ => read_double
    | .primitive .bytes, _ => do return .str (← read_bytes)
    | .named name, .named readers_name =>
      readDefinitions host (read_data host writers readers limit) (skip_data writers limit)
        (read_default_value host readers limit) writers_schema readers_schema
        (writers.definition? name) (readers.definition? readers_name)
    | .array items, .array readers_items =>
      read_array (read_data host writers readers limit items readers_items) limit
    | .map values, .map readers_values =>
      read_map (read_data host writers readers limit values readers_values) limit
    | _, _ => throw .attributeError

end HadoopExamples.Avro
