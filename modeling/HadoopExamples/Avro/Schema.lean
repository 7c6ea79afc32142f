import HadoopExamples.Platform.PythonObjects

set_option autoImplicit false

/-! # Avro schemas

The schema objects of `schema.py` and how `make_avsc_object` builds them from JSON. Objects with a
name are shared and may contain themselves, so they are kept in a store of their own, under their
full names, and a schema refers to them by these; the other objects are a tree. -/

namespace HadoopExamples.Avro

open Python

/-- The equality of strings that is decided is their equality. -/
scoped instance : LawfulBEq PyString := inferInstanceAs (LawfulBEq (List Char))

inductive PrimitiveType where
  | null
  | boolean
  | string
  | bytes
  | int
  | long
  | float
  | double
deriving DecidableEq

inductive SchemaType where
  | primitive (type : PrimitiveType)
  | fixed
  | enum
  | record
  | error
  | array
  | map
  | union
  | request
  | error_union
deriving DecidableEq

def PRIMITIVE_TYPES : List (PyString × PrimitiveType) :=
  [("null".toList, .null), ("boolean".toList, .boolean), ("string".toList, .string),
   ("bytes".toList, .bytes), ("int".toList, .int), ("long".toList, .long),
   ("float".toList, .float), ("double".toList, .double)]

def NAMED_TYPES : List (PyString × SchemaType) :=
  [("fixed".toList, .fixed), ("enum".toList, .enum), ("record".toList, .record),
   ("error".toList, .error)]

def VALID_TYPES : List (PyString × SchemaType) :=
  PRIMITIVE_TYPES.map (fun entry => (entry.1, .primitive entry.2)) ++ NAMED_TYPES ++
    [("array".toList, .array), ("map".toList, .map), ("union".toList, .union),
     ("request".toList, .request), ("error_union".toList, .error_union)]

def VALID_FIELD_SORT_ORDERS : List PyString :=
  ["ascending".toList, "descending".toList, "ignore".toList]

/-- A schema object; one with a name stands for the object of that full name. -/
inductive Schema where
  | primitive (type : PrimitiveType)
  | array (items : Schema)
  | map (values : Schema)
  | union (schemas : List Schema)
  | named (fullname : PyString)

structure Field where
  type : Schema
  name : PyString
  has_default : Bool
  default : PyObj
  order : Option PyString

/-- What an object with a name has besides it. -/
inductive Definition where
  | fixed (size : ℤ)
  | enum (symbols : List PyString)
  | record (fields : List Field)
  | error (fields : List Field)

/-- An object with a name, as the schema gives the name, and the property `namespace`. -/
structure NamedSchema where
  name : PyString
  space : Option PyString
  definition : Definition

/-- The objects with names. -/
abbrev Store := List (PyString × NamedSchema)

def Store.definition? (store : Store) (fullname : PyString) : Option Definition :=
  (store.lookup fullname).map NamedSchema.definition

/-- The fields of a record or an error -/
def Definition.fields? : Definition → Option (List Field)
  | .record fields => some fields
  | .error fields => some fields
  | _ => none

def Store.fields? (store : Store) (fullname : PyString) : Option (List Field) :=
  (store.definition? fullname).bind Definition.fields?

def Definition.type : Definition → SchemaType
  | .fixed _ => .fixed
  | .enum _ => .enum
  | .record _ => .record
  | .error _ => .error

/-- `schema.type`; `none` for the name of no object. -/
def Schema.type (store : Store) : Schema → Option SchemaType
  | .primitive type => some (.primitive type)
  | .array _ => some .array
  | .map _ => some .map
  | .union _ => some .union
  | .named fullname => (store.definition? fullname).map Definition.type

/-! ## Exceptions -/

/-- A format with the objects for it, and the message of another exception that comes last. -/
inductive FailMsg where
  | mk (format : PyString) (args : List PyObj) (cause : Option FailMsg)

inductive AvroError where
  | avroException (fail_msg : FailMsg)
  | schemaParseException (fail_msg : FailMsg)
  | avroTypeException (expected_schema : Schema) (datum : PyObj)
  | schemaResolutionException (fail_msg : FailMsg) (writers_schema readers_schema : Schema)
  | dataFileException (fail_msg : FailMsg)
  | connectionClosedException (fail_msg : FailMsg)
  | protocolParseException (fail_msg : FailMsg)

abbrev AvroException := PyException AvroError

def failMsg (format : String) (args : List PyObj) : FailMsg := .mk format.toList args none

/-- `str(e)`, where the message is one of this module. -/
def AvroException.fail_msg : AvroException → Option FailMsg
  | .error (.avroException m) => some m
  | .error (.schemaParseException m) => some m
  | .error (.dataFileException m) => some m
  | _ => none

def schemaParseException (format : String) (args : List PyObj) : AvroException :=
  .error (.schemaParseException (failMsg format args))

def avroException (format : String) (args : List PyObj) : AvroException :=
  .error (.avroException (failMsg format args))

/-! ## Names -/

/-- The full name of a `Name`. -/
def fullname (name_attr : PyString) (space_attr default_space : Option PyString) : PyString :=
  if name_attr.contains '.' then name_attr
  else match space_attr, default_space with
    | some (c :: space), _ => c :: space ++ '.' :: name_attr
    | _, some (c :: space) => c :: space ++ '.' :: name_attr
    | _, _ => name_attr

/-- `get_space` of a `Name` -/
def get_space (full : PyString) : PyString :=
  if 0 < full.idxOf '.' ∧ full.contains '.' then full.take (full.length - 1 - full.reverse.idxOf '.')
  else []

example : get_space "a.b.C".toList = "a.b".toList := by decide

structure Names where
  names : Store
  default_namespace : Option PyString

abbrev Parser := EStateM AvroException Names

def has_name (name_attr : PyString) : Parser Bool := do
  if name_attr = [] then throw (schemaParseException "Name must be non-empty string or None." [])
  let names ← get
  return (names.names.lookup (fullname name_attr none names.default_namespace)).isSome

def get_name (name_attr : PyString) : Parser Schema := do
  let names ← get
  return .named (fullname name_attr none names.default_namespace)

def add_name (name_attr : PyString) (space_attr : Option PyString) (definition : Definition) :
    Parser PyString := do
  let names ← get
  let full := fullname name_attr space_attr names.default_namespace
  if (VALID_TYPES.lookup full).isSome then
    throw (schemaParseException "%s is a reserved type name." [.unicode full])
  if (names.names.lookup full).isSome then
    throw (schemaParseException "The name \"%s\" is already in use." [.unicode full])
  let new_schema : NamedSchema :=
    { name := name_attr, space := space_attr.map fun _ => get_space full, definition }
  set { names with names := names.names ++ [(full, new_schema)] }
  return full

/-! ## Building the objects -/

/-- `NamedSchema.__init__` -/
def initNamedSchema (name namespace_ : PyObj) (definition : Definition) : Parser PyString := do
  if name.truthy = false then
    throw (schemaParseException "Named Schemas must have a non-empty name." [])
  match name.asString, namespace_, namespace_.asString with
  | none, _, _ => throw (schemaParseException "The name property must be a string." [])
  | some name, .none, _ => add_name name none definition
  | some name, _, some space => add_name name (some space) definition
  | some _, _, none => throw (schemaParseException "The namespace property must be a string." [])

/-- `except` for the exceptions that `catches` tells, with another one raised. -/
def reraise {α : Type} (p : Parser α) (catches : AvroException → Bool)
    (raise : AvroException → Names → AvroException) : Parser α := fun names => match p names with
  | .ok a names => .ok a names
  | .error e names => .error (if catches e then raise e names else e) names

/-- A type property: the name of an object that there is already, or else a schema. -/
def resolveType (make_avsc_object : PyObj → Parser Schema) (catches : AvroException → Bool)
    (raise : AvroException → Names → AvroException) (type : PyObj) : Parser Schema := do
  if let some name := type.asString then
    if (← has_name name) then
      return (← get_name name)
  reraise (make_avsc_object type) catches raise

def isSchemaParseException : AvroException → Bool
  | .error (.schemaParseException _) => true
  | _ => false

/-- `raise SchemaParseException(format % (args, e))` -/
def raiseWith (format : String) (args : List PyObj) (e : AvroException) : AvroException :=
  .error (.schemaParseException (.mk format.toList args e.fail_msg))

def checkOrder (order : PyObj) : Except AvroException (Option PyString) :=
  match order, order.asString with
  | .none, _ => .ok none
  | _, some o => if o ∈ VALID_FIELD_SORT_ORDERS then .ok (some o) else
      .error (schemaParseException "The order property %s is not valid." [order])
  | _, none => .error (schemaParseException "The order property %s is not valid." [order])

/-- `Field.__init__` -/
def initField (make_avsc_object : PyObj → Parser Schema) (type name : PyObj) (has_default : Bool)
    (default order : PyObj) : Parser Field := do
  if name.truthy = false then
    throw (schemaParseException "Fields must have a non-empty name." [])
  let some name := name.asString
    | throw (schemaParseException "The name property must be a string." [])
  let order ← ofExcept (checkOrder order)
  let type ← resolveType make_avsc_object (fun _ => true)
    (fun e _ => raiseWith "Type property \"%s\" not a valid Avro schema: %s" [type] e) type
  return { type, name, has_default, default := if has_default then default else .none, order }

def make_field_objects (make_avsc_object : PyObj → Parser Schema) :
    List Field → List PyObj → Parser (List Field)
  | field_objects, [] => return field_objects
  | field_objects, .dict field :: field_data => do
    let has_default := (dictGet field "default".toList).isSome
    let new_field ← initField make_avsc_object (.get field "type".toList) (.get field "name".toList)
      has_default (.get field "default".toList) (.get field "order".toList)
    if new_field.name ∈ field_objects.map Field.name then
      throw (schemaParseException "Field name %s already in use." [.unicode new_field.name])
    make_field_objects make_avsc_object (field_objects ++ [new_field]) field_data
  | _, field :: _ => throw (schemaParseException "Not a valid field: %s" [field])

/-- `set_prop('fields', field_objects)` on the object of a record -/
def Store.setDefinition (store : Store) (full : PyString) (definition : Definition) : Store :=
  store.map fun entry =>
    (entry.1, if entry.1 = full then { entry.2 with definition } else entry.2)

/-- Only a `record`, and no `error`, is the default namespace of what it contains. -/
def setDefaultNamespace (schema_type : SchemaType) (default_namespace : Option PyString) :
    Parser Unit :=
  modify fun names => { names with
    default_namespace := if schema_type = .record then default_namespace
      else names.default_namespace }

/-- `RecordSchema.__init__` -/
def initRecordSchema (make_avsc_object : PyObj → Parser Schema) (schema_type : SchemaType)
    (definition : List Field → Definition) (name namespace_ fields : PyObj) : Parser Schema := do
  match fields with
  | .none => throw (schemaParseException "Record schema requires a non-empty fields property." [])
  | .list fields =>
    let full ← initNamedSchema name namespace_ (definition [])
    let old_default := (← get).default_namespace
    setDefaultNamespace schema_type (some (get_space full))
    let field_objects ← make_field_objects make_avsc_object [] fields
    modify fun names =>
      { names with names := names.names.setDefinition full (definition field_objects) }
    setDefaultNamespace schema_type old_default
    return .named full
  | _ => throw (schemaParseException "Fields property must be a list of Avro schemas." [])

/-- An `int` of Python 2 has 64 bits, and a `bool` is one. -/
def checkSize : PyObj → Except AvroException ℤ
  | .int n => if -2 ^ 63 ≤ n ∧ n < 2 ^ 63 then .ok n else
      .error (avroException "Fixed Schema requires a valid integer for size property." [])
  | .bool b => .ok (if b then 1 else 0)
  | _ => .error (avroException "Fixed Schema requires a valid integer for size property." [])

/-- `FixedSchema.__init__` -/
def initFixedSchema (name namespace_ size : PyObj) : Parser Schema := do
  let size ← ofExcept (checkSize size)
  return .named (← initNamedSchema name namespace_ (.fixed size))

/-- `EnumSchema.__init__` -/
def initEnumSchema (name namespace_ symbols : PyObj) : Parser Schema := do
  let .list symbols := symbols
    | throw (avroException "Enum Schema requires a JSON array for the symbols property." [])
  let some names := symbols.mapM PyObj.asString
    | throw (avroException "Enum Schems requires All symbols to be JSON strings." [])
  if ¬ names.Nodup then
    throw (avroException "Duplicate symbol: %s" [.list symbols])
  return .named (← initNamedSchema name namespace_ (.enum names))

def isNamedType : SchemaType → Bool
  | .fixed | .enum | .record | .error => true
  | _ => false

/-- The loop of `UnionSchema.__init__` over the schemas -/
def makeUnion (make_avsc_object : PyObj → Parser Schema) :
    List Schema → List PyObj → Parser (List Schema)
  | schema_objects, [] => return schema_objects
  | schema_objects, schema :: schemas => do
    let new_schema ← resolveType make_avsc_object (fun _ => true)
      (fun e _ => raiseWith "Union item must be a valid Avro schema: %s" [] e) schema
    let names := (← get).names
    let type := new_schema.type names
    if type.all isNamedType = false ∧ type ∈ schema_objects.map (Schema.type names) then
      throw (schemaParseException "%s type already in Union" [])
    else if type = some .union then
      throw (schemaParseException "Unions cannot contain other unions." [])
    else makeUnion make_avsc_object (schema_objects ++ [new_schema]) schemas

/-- `UnionSchema.__init__` -/
def initUnionSchema (make_avsc_object : PyObj → Parser Schema) (schemas : PyObj) :
    Parser Schema := do
  let .list schemas := schemas
    | throw (schemaParseException "Union schema requires a list of schemas." [])
  return .union (← makeUnion make_avsc_object [] schemas)

/-- `ErrorUnionSchema.__init__`: a union, which is of type `union` too, with "string" for system
    errors in front. -/
def initErrorUnionSchema (make_avsc_object : PyObj → Parser Schema) (schemas : PyObj) :
    Parser Schema := do
  let .list schemas := schemas | throw .typeError
  initUnionSchema make_avsc_object (.list (.unicode "string".toList :: schemas))

/-- `make_avsc_object(json_data, names)`, with at most `limit` calls one in the other. -/
def make_avsc_object : ℕ → PyObj → Parser Schema
  | 0, _ => throw .runtimeError
  | limit + 1, .dict json_data => do
    let type : PyObj := .get json_data "type".toList
    let prop (key : String) : PyObj := .get json_data key.toList
    match type.asString.bind fun name => VALID_TYPES.lookup name with
    | some (.primitive p) => return .primitive p
    | some .fixed => initFixedSchema (prop "name") (prop "namespace") (prop "size")
    | some .enum => initEnumSchema (prop "name") (prop "namespace") (prop "symbols")
    | some .record =>
      initRecordSchema (make_avsc_object limit) .record Definition.record (prop "name")
        (prop "namespace") (prop "fields")
    | some .error =>
      initRecordSchema (make_avsc_object limit) .error Definition.error (prop "name")
        (prop "namespace") (prop "fields")
    | some .array =>
      -- the other exceptions of the items come through as they are
      return .array (← resolveType (make_avsc_object limit) isSchemaParseException
        (fun e names => raiseWith
          "Items schema (%s) not a valid Avro schema: %s (known names: %s)"
          [prop "items", .list (names.names.map fun entry => .unicode entry.1)] e)
        (prop "items"))
    | some .map =>
      return .map (← resolveType (make_avsc_object limit) (fun _ => true)
        (fun _ _ => schemaParseException "Values schema not a valid Avro schema." [])
        (prop "values"))
    | some .error_union => initErrorUnionSchema (make_avsc_object limit) (prop "declared_errors")
    | some .union => throw (schemaParseException "Unknown Valid Type: %s" [type])
    | some .request => throw (schemaParseException "Unknown Valid Type: %s" [type])
    | none => match type with
      | .none => throw (schemaParseException "No \"type\" property: %s" [.dict json_data])
      | _ => throw (schemaParseException "Undefined type: %s" [type])
  | limit + 1, .list schemas => initUnionSchema (make_avsc_object limit) (.list schemas)
  | _ + 1, json_data => match json_data.asString.bind fun name => PRIMITIVE_TYPES.lookup name with
    | some p => return .primitive p
    | none => throw (schemaParseException "Could not make an Avro Schema object from %s." [json_data])

/-- A schema with the objects it refers to. -/
structure SchemaObject where
  schema : Schema
  store : Store

/-- `parse`, from the JSON text on: `none` is a text that is no JSON. -/
def parse (limit : ℕ) (json_data : Option PyObj) : Except AvroException SchemaObject :=
  match json_data with
  | none => .error (schemaParseException "Error parsing JSON: %s" [])
  | some json_data => match make_avsc_object limit json_data ⟨[], none⟩ with
    | .ok schema names => .ok ⟨schema, names.names⟩
    | .error e _ => .error e

end HadoopExamples.Avro
