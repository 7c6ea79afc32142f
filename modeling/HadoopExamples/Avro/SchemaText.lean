import HadoopExamples.Avro.BinaryCodec
import HadoopExamples.Avro.CheckedSchema

set_option autoImplicit false

/-! # The text of a schema

`str(schema)` is the JSON that `to_json` makes of it: an object with a name is written out where it
comes first, and is a reference from then on, by its own name where its JSON had no namespace
(`name_ref`). A reference is looked up in the namespace of the record where it stands, so that not
every schema is read back from its text. `Printable` says for which ones this goes well
(`parse_to_json`). -/

namespace HadoopExamples.Avro

open Python

/-! ## Printing -/

/-- What `json.loads` makes of the text of a dictionary with these entries -/
def jsonObject (host : Host) (entries : List (String × PyObj)) : PyObj :=
  .dict (host.items (entries.map fun entry => (.unicode entry.1.toList, entry.2)))

def PrimitiveType.name : PrimitiveType → PyString
  | .null => "null".toList
  | .boolean => "boolean".toList
  | .string => "string".toList
  | .bytes => "bytes".toList
  | .int => "int".toList
  | .long => "long".toList
  | .float => "float".toList
  | .double => "double".toList

/-- `name_ref`, where the default namespace of the printed names is never set -/
def name_ref (full : PyString) (obj : NamedSchema) : PyString :=
  match obj.space with
  | none => obj.name
  | some _ => full

/-- The properties of an object with a name, the last of them being the one that its type has -/
def NamedSchema.props (host : Host) (obj : NamedSchema) (type key : String) (value : PyObj) :
    PyObj :=
  jsonObject host ([("type", .unicode type.toList), ("name", .unicode obj.name)] ++
    (match obj.space with
      | none => []
      | some space => [("namespace", .unicode space)]) ++ [(key, value)])

/-- The properties of a field, with the JSON of its type -/
def Field.props (host : Host) (field : Field) (type : PyObj) : PyObj :=
  jsonObject host ([("type", type), ("name", .unicode field.name)] ++
    (if field.has_default then [("default", field.default)] else []) ++
    (match field.order with
      | none => []
      | some order => [("order", .unicode order)]))

/-- A printer keeps the names that it has written out. -/
abbrev Printer := EStateM AvroException (List PyString)

/-- The JSON of the fields of a record -/
def fieldsToJson (host : Host) (to_json : Schema → Printer PyObj) (fields : List Field) :
    Printer (List PyObj) :=
  fields.mapM fun field => do return field.props host (← to_json field.type)

/-- `to_json`, with at most `limit` calls one in the other. Unions are those of `UnionSchema`: of one
    with declared errors the `string` in front is not printed. -/
def to_json (host : Host) (store : Store) : ℕ → Schema → Printer PyObj
  | 0, _ => throw .runtimeError
  | _ + 1, .primitive type => return .unicode type.name
  | limit + 1, .array items => do
    let items ← to_json host store limit items
    return jsonObject host [("type", .unicode "array".toList), ("items", items)]
  | limit + 1, .map values => do
    let values ← to_json host store limit values
    return jsonObject host [("type", .unicode "map".toList), ("values", values)]
  | limit + 1, .union schemas => return .list (← schemas.mapM (to_json host store limit))
  | limit + 1, .named full => do
    let some obj := store.lookup full | throw .attributeError
    if full ∈ (← get) then return .unicode (name_ref full obj)
    -- before its fields, which may refer to it
    modify (· ++ [full])
    match obj.definition with
    | .fixed size => return obj.props host "fixed" "size" (.int size)
    | .enum symbols => return obj.props host "enum" "symbols" (.list (symbols.map .unicode))
    | .record fields => do
      let fields ← fieldsToJson host (to_json host store limit) fields
      return obj.props host "record" "fields" (.list fields)
    | .error fields => do
      let fields ← fieldsToJson host (to_json host store limit) fields
      return obj.props host "error" "fields" (.list fields)

/-- `str(schema)`, up to the text of the JSON -/
def SchemaObject.toJson (host : Host) (limit : ℕ) (object : SchemaObject) :
    Except AvroException PyObj :=
  match to_json host object.store limit object.schema [] with
  | .ok json _ => .ok json
  | .error e _ => .error e

/-! ## Which schemas are read back -/

/-- Goes through a schema as it is printed, in the default namespace that there is when it is read,
    and checks that each name stands for its object and no name of a primitive type for another
    one. -/
def printable (store : Store) : ℕ → Option PyString → Schema → List PyString →
    Option (List PyString)
  | 0, _, _, _ => none
  | _ + 1, default_namespace, .primitive type, seen =>
    if fullname type.name none default_namespace ∈ seen then none else some seen
  | limit + 1, default_namespace, .array items, seen =>
    printable store limit default_namespace items seen
  | limit + 1, default_namespace, .map values, seen =>
    printable store limit default_namespace values seen
  | limit + 1, default_namespace, .union schemas, seen =>
    schemas.foldlM (fun seen s => printable store limit default_namespace s seen) seen
  | limit + 1, default_namespace, .named full, seen => do
    let obj ← store.lookup full
    if full ∈ seen then
      if fullname (name_ref full obj) none default_namespace = full then some seen else none
    else if fullname obj.name obj.space default_namespace = full then
      match obj.definition with
      | .fixed _ => some (seen ++ [full])
      | .enum _ => some (seen ++ [full])
      | .record fields => fields.foldlM (fun seen field =>
          printable store limit (some (get_space full)) field.type seen) (seen ++ [full])
      -- an error leaves the default namespace as it is
      | .error fields => fields.foldlM (fun seen field =>
          printable store limit default_namespace field.type seen) (seen ++ [full])
    else none

/-- All objects of the schema come up in it, in their order, and are found again. -/
def SchemaObject.Printable (object : SchemaObject) : Prop :=
  ∃ limit, printable object.store limit none object.schema [] = some (object.store.map Prod.fst)

/-- A record with an object of type `F` in its JSON, and a record of another name with the same one:
    what is printed for the second is `F`, in the namespace of that record. -/
def twoRecords (second : String) (space : String) : SchemaObject :=
  let field : Field := ⟨.named "q.F".toList, "f".toList, false, .none, none⟩
  { schema := .union [.named "q.A".toList, .named second.toList]
    store := [("q.A".toList, ⟨"A".toList, some "q".toList, .record [field]⟩),
      ("q.F".toList, ⟨"F".toList, none, .fixed 1⟩),
      (second.toList, ⟨"B".toList, some space.toList, .record [field]⟩)] }

example : (twoRecords "q.B" "q").Printable := ⟨3, by decide⟩

example : let object := twoRecords "r.B" "r"
    printable object.store 3 none object.schema [] = none := by decide

/-! ## Objects that are read -/

section Objects

variable {host : Host} {limit : ℕ}

/-- Whatever the order of the entries, they are found under their keys. -/
theorem dictGet_jsonObject {entries : List (String × PyObj)}
    (hnodup : (entries.map Prod.fst).Nodup) :
    ∃ json_data, jsonObject host entries = .dict json_data ∧ ∀ key, dictGet json_data key
      = dictGet (entries.map fun entry => (.unicode entry.1.toList, entry.2)) key := by
  have hkeys : ((entries.map fun entry => (Key.unicode entry.1.toList, entry.2)).map
      fun entry => entry.1.asString).Nodup := by
    have h : ((entries.map Prod.fst).map fun key => some key.toList).Nodup :=
      hnodup.map fun _ _ h => String.toList_injective (Option.some.inj h)
    rw [List.map_map] at h ⊢
    exact h
  refine ⟨_, rfl, fun key => ?_⟩
  exact dictGet_perm (host.items_perm _) (((host.items_perm _).map _).nodup_iff.2 hkeys) key

theorem get_jsonObject {entries : List (String × PyObj)}
    (hnodup : (entries.map Prod.fst).Nodup) :
    ∃ json_data, jsonObject host entries = .dict json_data ∧ ∀ key, PyObj.get json_data key
      = .get (entries.map fun entry => (.unicode entry.1.toList, entry.2)) key := by
  obtain ⟨json_data, heq, hget⟩ := @dictGet_jsonObject host entries hnodup
  exact ⟨json_data, heq, fun key => congrArg (fun value => Option.getD value PyObj.none) (hget key)⟩

/-- The property `namespace`, `None` where there is none -/
def NamedSchema.namespaceProp (obj : NamedSchema) : PyObj :=
  match obj.space with
  | none => .none
  | some space => .unicode space

theorem NamedSchema.props_eq (obj : NamedSchema) (type : String) {key : String} (value : PyObj)
    (hkey : key ∈ ["size", "symbols", "fields"]) :
    ∃ json_data, obj.props host type key value = .dict json_data ∧
      PyObj.get json_data "type".toList = .unicode type.toList ∧
      PyObj.get json_data "name".toList = .unicode obj.name ∧
      PyObj.get json_data "namespace".toList = obj.namespaceProp ∧
      PyObj.get json_data key.toList = value := by
  obtain ⟨name, space, definition⟩ := obj
  simp only [List.mem_cons, List.not_mem_nil, or_false] at hkey
  cases space with
  | none =>
    have hnodup : ["type", "name", key].Nodup := by
      rcases hkey with rfl | rfl | rfl <;> decide
    obtain ⟨json_data, heq, hget⟩ := @get_jsonObject host [("type", .unicode type.toList),
      ("name", .unicode name), (key, value)] hnodup
    refine ⟨json_data, heq, ?_⟩
    simp only [hget, List.map_cons, List.map_nil]
    rcases hkey with rfl | rfl | rfl <;> exact ⟨rfl, rfl, rfl, rfl⟩
  | some space =>
    have hnodup : ["type", "name", "namespace", key].Nodup := by
      rcases hkey with rfl | rfl | rfl <;> decide
    obtain ⟨json_data, heq, hget⟩ := @get_jsonObject host [("type", .unicode type.toList),
      ("name", .unicode name), ("namespace", .unicode space), (key, value)] hnodup
    refine ⟨json_data, heq, ?_⟩
    simp only [hget, List.map_cons, List.map_nil]
    rcases hkey with rfl | rfl | rfl <;> exact ⟨rfl, rfl, rfl, rfl⟩

theorem make_avsc_object_primitive (type : PrimitiveType) (names : Names) :
    make_avsc_object (limit + 1) (.unicode type.name) names = .ok (.primitive type) names := by
  cases type <;> rfl

theorem make_avsc_object_array (items : PyObj) : ∃ raise,
    make_avsc_object (limit + 1) (jsonObject host
        [("type", .unicode "array".toList), ("items", items)])
      = do return .array (← resolveType (make_avsc_object limit) isSchemaParseException raise
          items) := by
  obtain ⟨json_data, heq, hget⟩ := @get_jsonObject host
    [("type", .unicode "array".toList), ("items", items)]
    (show ["type", "items"].Nodup by decide)
  rw [heq]
  unfold make_avsc_object
  simp only [hget, List.map_cons, List.map_nil]
  exact ⟨_, rfl⟩

theorem make_avsc_object_map (values : PyObj) : ∃ raise,
    make_avsc_object (limit + 1) (jsonObject host
        [("type", .unicode "map".toList), ("values", values)])
      = do return .map (← resolveType (make_avsc_object limit) (fun _ => true) raise
          values) := by
  obtain ⟨json_data, heq, hget⟩ := @get_jsonObject host
    [("type", .unicode "map".toList), ("values", values)]
    (show ["type", "values"].Nodup by decide)
  rw [heq]
  unfold make_avsc_object
  simp only [hget, List.map_cons, List.map_nil]
  exact ⟨_, rfl⟩

theorem make_avsc_object_fixed (obj : NamedSchema) (size : ℤ) :
    make_avsc_object (limit + 1) (obj.props host "fixed" "size" (.int size))
      = initFixedSchema (.unicode obj.name) obj.namespaceProp (.int size) := by
  obtain ⟨json_data, heq, htype, hname, hspace, hvalue⟩ :=
    @NamedSchema.props_eq host obj "fixed" "size" (.int size) (by decide)
  rw [heq]
  unfold make_avsc_object
  dsimp only
  rw [htype, hname, hspace, hvalue]
  rfl

theorem make_avsc_object_enum (obj : NamedSchema) (symbols : PyObj) :
    make_avsc_object (limit + 1) (obj.props host "enum" "symbols" symbols)
      = initEnumSchema (.unicode obj.name) obj.namespaceProp symbols := by
  obtain ⟨json_data, heq, htype, hname, hspace, hvalue⟩ :=
    @NamedSchema.props_eq host obj "enum" "symbols" symbols (by decide)
  rw [heq]
  unfold make_avsc_object
  dsimp only
  rw [htype, hname, hspace, hvalue]
  rfl

theorem make_avsc_object_record (obj : NamedSchema) (fields : PyObj) :
    make_avsc_object (limit + 1) (obj.props host "record" "fields" fields)
      = initRecordSchema (make_avsc_object limit) .record Definition.record (.unicode obj.name)
        obj.namespaceProp fields := by
  obtain ⟨json_data, heq, htype, hname, hspace, hvalue⟩ :=
    @NamedSchema.props_eq host obj "record" "fields" fields (by decide)
  rw [heq]
  unfold make_avsc_object
  dsimp only
  rw [htype, hname, hspace, hvalue]
  rfl

theorem make_avsc_object_error (obj : NamedSchema) (fields : PyObj) :
    make_avsc_object (limit + 1) (obj.props host "error" "fields" fields)
      = initRecordSchema (make_avsc_object limit) .error Definition.error (.unicode obj.name)
        obj.namespaceProp fields := by
  obtain ⟨json_data, heq, htype, hname, hspace, hvalue⟩ :=
    @NamedSchema.props_eq host obj "error" "fields" fields (by decide)
  rw [heq]
  unfold make_avsc_object
  dsimp only
  rw [htype, hname, hspace, hvalue]
  rfl

end Objects

/-! ## A schema that is half read -/

/-- A record or an error without its fields -/
def Definition.empty : Definition → Definition
  | .record _ => .record []
  | .error _ => .error []
  | definition => definition

/-- The objects of these names, where those in `opened` do not have their fields yet. -/
def Store.part (store : Store) (opened seen : List PyString) : Store :=
  seen.filterMap fun full => (store.lookup full).map fun obj =>
    (full, if full ∈ opened then { obj with definition := obj.definition.empty } else obj)

section Part

variable {store : Store} {opened seen : List PyString} {full : PyString} {obj : NamedSchema}

theorem lookup_part (store : Store) (opened seen : List PyString) (full : PyString) :
    (store.part opened seen).lookup full = if full ∈ seen then (store.lookup full).map fun obj =>
      if full ∈ opened then { obj with definition := obj.definition.empty } else obj
    else none := by
  unfold Store.part
  induction seen with
  | nil => rfl
  | cons name seen ih =>
    rw [List.filterMap_cons]
    by_cases hname : full = name
    · subst hname
      rw [if_pos List.mem_cons_self]
      cases hobj : store.lookup full with
      | none =>
        rw [hobj] at ih
        rw [Option.map_none, ih, Option.map_none, ite_self]
      | some obj => exact List.lookup_cons_self
    · have hmem : full ∈ name :: seen ↔ full ∈ seen := by
        rw [List.mem_cons, or_iff_right hname]
      simp only [hmem]
      cases store.lookup name with
      | none => exact ih
      | some obj =>
        rw [Option.map_some]
        dsimp only
        rw [List.lookup_cons, beq_false_of_ne hname]
        exact ih

theorem part_append (hobj : store.lookup full = some obj) (hnew : full ∉ opened) :
    store.part opened (seen ++ [full]) = store.part opened seen ++ [(full, obj)] := by
  unfold Store.part
  rw [List.filterMap_append, List.filterMap_cons, hobj, Option.map_some, if_neg hnew]
  rfl

theorem part_open (hobj : store.lookup full = some obj) (hnew : full ∉ seen) :
    store.part (full :: opened) (seen ++ [full])
      = store.part opened seen
        ++ [(full, { obj with definition := obj.definition.empty })] := by
  unfold Store.part
  rw [List.filterMap_append, List.filterMap_cons, hobj, Option.map_some,
    if_pos List.mem_cons_self]
  refine congrArg (· ++ _) (List.filterMap_congr fun name hname => ?_)
  have hne : name ≠ full := fun heq => hnew (heq ▸ hname)
  simp only [List.mem_cons, hne, false_or]

/-- The object that has been read last gets its fields. -/
theorem setDefinition_part (hobj : store.lookup full = some obj) (hnew : full ∉ opened) :
    (store.part (full :: opened) seen).setDefinition full obj.definition
      = store.part opened seen := by
  unfold Store.part Store.setDefinition
  rw [List.map_filterMap]
  refine List.filterMap_congr fun name _ => ?_
  rw [Option.map_map]
  by_cases hname : name = full
  · subst hname
    rw [hobj, Option.map_some, Option.map_some, if_neg hnew]
    simp
  · cases store.lookup name with
    | none => rfl
    | some obj' => simp [hname]

theorem lookup_of_mem (hnodup : (store.map Prod.fst).Nodup) {entry : PyString × NamedSchema}
    (hmem : entry ∈ store) : store.lookup entry.1 = some entry.2 := by
  obtain ⟨before, behind, rfl⟩ := List.append_of_mem hmem
  refine List.lookup_eq_some_iff.2 ⟨before, behind, rfl, fun entry' hmem' => ?_⟩
  rw [List.map_append, List.map_cons] at hnodup
  exact bne_iff_ne.2 fun heq => (List.nodup_append.1 hnodup).2.2 _ (List.mem_map_of_mem hmem') _
    List.mem_cons_self heq.symm

theorem part_nil (hnodup : (store.map Prod.fst).Nodup) :
    store.part [] (store.map Prod.fst) = store := by
  unfold Store.part
  rw [List.filterMap_map]
  refine (List.filterMap_congr fun entry hentry => ?_).trans List.filterMap_some
  show (store.lookup entry.1).map _ = some entry
  rw [lookup_of_mem hnodup hentry]
  rfl

/-- The type of an object that is there does not depend on its fields. -/
theorem type_part {s : Schema} (hs : ∀ full, s = .named full → full ∈ seen) :
    s.type (store.part opened seen) = s.type store := by
  cases s with
  | named full =>
    show ((Store.part store opened seen).definition? full).map _
      = (store.definition? full).map _
    unfold Store.definition?
    rw [lookup_part, if_pos (hs full rfl)]
    cases store.lookup full with
    | none => rfl
    | some obj =>
      rw [Option.map_some, Option.map_some]
      split
      · cases hdefinition : obj.definition <;> simp [Definition.empty, Definition.type, hdefinition]
      · rfl
  | _ => rfl

end Part

/-! ## The constructors -/

section Constructors

variable {host : Host}

/-- The object gets the name under which it has been printed. -/
theorem initNamedSchema_printed {obj : NamedSchema} {full : PyString} (h : obj.Checked full)
    {names : Names} (hfull : fullname obj.name obj.space names.default_namespace = full)
    (hnew : names.names.lookup full = none) (definition : Definition) :
    initNamedSchema (.unicode obj.name) obj.namespaceProp definition names
      = .ok full { names with names := names.names ++ [(full, { obj with definition })] } := by
  obtain ⟨name, space, definition'⟩ := obj
  have htruthy : ¬ (PyObj.unicode name).truthy = false := by
    show ¬ (!name.isEmpty) = false
    simpa using h.name
  have hadd : add_name name space definition names
      = .ok full { names with names := names.names ++ [(full, ⟨name, space, definition⟩)] } := by
    have hspace : (space.map fun _ => get_space full) = space := by
      cases space with
      | none => rfl
      | some space => rw [Option.map_some, ← h.space space rfl]
    dsimp only at hfull
    subst hfull
    unfold add_name
    refine (Hoare.bind_of_ok rfl).trans ?_
    dsimp only
    rw [h.free, hnew, hspace]
    rfl
  unfold initNamedSchema
  rw [if_neg htruthy]
  cases space with
  | none => exact hadd
  | some space => exact hadd

/-- The property `order`, `None` where there is none -/
def Field.orderProp (field : Field) : PyObj :=
  match field.order with
  | none => .none
  | some order => .unicode order

theorem Field.props_eq {field : Field} (h : field.Checked) (type : PyObj) :
    ∃ json_data, field.props host type = .dict json_data ∧
      PyObj.get json_data "type".toList = type ∧
      PyObj.get json_data "name".toList = .unicode field.name ∧
      (dictGet json_data "default".toList).isSome = field.has_default ∧
      PyObj.get json_data "default".toList = field.default ∧
      PyObj.get json_data "order".toList = field.orderProp := by
  obtain ⟨type', name, has_default, default, order⟩ := field
  unfold PyObj.get
  cases has_default with
  | false =>
    obtain rfl : default = .none := h.default rfl
    cases order with
    | none =>
      obtain ⟨json_data, heq, hget⟩ := @dictGet_jsonObject host [("type", type),
        ("name", .unicode name)] (show ["type", "name"].Nodup by decide)
      refine ⟨json_data, heq, ?_⟩
      simp only [hget, List.map_cons, List.map_nil]
      exact ⟨rfl, rfl, rfl, rfl, rfl⟩
    | some order =>
      obtain ⟨json_data, heq, hget⟩ := @dictGet_jsonObject host [("type", type),
        ("name", .unicode name), ("order", .unicode order)]
        (show ["type", "name", "order"].Nodup by decide)
      refine ⟨json_data, heq, ?_⟩
      simp only [hget, List.map_cons, List.map_nil]
      exact ⟨rfl, rfl, rfl, rfl, rfl⟩
  | true =>
    cases order with
    | none =>
      obtain ⟨json_data, heq, hget⟩ := @dictGet_jsonObject host [("type", type),
        ("name", .unicode name), ("default", default)]
        (show ["type", "name", "default"].Nodup by decide)
      refine ⟨json_data, heq, ?_⟩
      simp only [hget, List.map_cons, List.map_nil]
      exact ⟨rfl, rfl, rfl, rfl, rfl⟩
    | some order =>
      obtain ⟨json_data, heq, hget⟩ := @dictGet_jsonObject host [("type", type),
        ("name", .unicode name), ("default", default), ("order", .unicode order)]
        (show ["type", "name", "default", "order"].Nodup by decide)
      refine ⟨json_data, heq, ?_⟩
      simp only [hget, List.map_cons, List.map_nil]
      exact ⟨rfl, rfl, rfl, rfl, rfl⟩

theorem checkOrder_orderProp {field : Field} (h : field.Checked) :
    checkOrder field.orderProp = .ok field.order := by
  obtain ⟨type, name, has_default, default, order⟩ := field
  cases order with
  | none => rfl
  | some order => exact if_pos (h.order order rfl)

/-- A field whose type is read back is read back. -/
theorem initField_printed {make_avsc_object : PyObj → Parser Schema} {field : Field}
    (h : field.Checked) {type : PyObj} {names names' : Names}
    (hread : ∀ catches raise, resolveType make_avsc_object catches raise type names
      = .ok field.type names') :
    initField make_avsc_object type (.unicode field.name) field.has_default field.default
      field.orderProp names = .ok field names' := by
  have htruthy : ¬ (PyObj.unicode field.name).truthy = false := by
    show ¬ (!field.name.isEmpty) = false
    simpa using h.name
  unfold initField
  rw [if_neg htruthy, checkOrder_orderProp h]
  refine (Hoare.bind_of_ok rfl).trans ((Hoare.bind_of_ok (hread _ _)).trans ?_)
  obtain ⟨type, name, has_default, default, order⟩ := field
  cases has_default with
  | false =>
    obtain rfl : default = .none := h.default rfl
    rfl
  | true => rfl

end Constructors

end HadoopExamples.Avro
