import HadoopExamples.Avro.DatumWriter
import HadoopExamples.Avro.WellFormed

set_option autoImplicit false

/-! # Protocols

The protocols of `protocol.py`: types with names, and messages, each with the parameters of its
request, its response and its errors. All of them share one store. A request is a record without a
name, which is not in the store; only its fields are kept. -/

namespace HadoopExamples.Avro

open Python

structure Message where
  name : Key
  request : List Field
  response : Schema
  errors : Option Schema

structure Protocol where
  name : PyString
  space : Option PyString
  types : Option (List Schema)
  messages : Option (List (Key × Message))
  store : Store

def VALID_TYPE_SCHEMA_TYPES : List SchemaType := [.enum, .record, .error, .fixed]

def protocolParseException (format : String) (args : List PyObj) : AvroException :=
  .error (.protocolParseException (failMsg format args))

section Parsing

variable (limit : ℕ)

/-- `_parse_types` -/
def parse_types : List Schema → List PyObj → Parser (List Schema)
  | type_objects, [] => return type_objects
  | type_objects, type :: types => do
    let type_object ← make_avsc_object limit type
    if (type_object.type (← get).names).all (· ∉ VALID_TYPE_SCHEMA_TYPES) then
      throw (protocolParseException "Type %s not an enum, fixed, record, or error." [type])
    parse_types (type_objects ++ [type_object]) types

/-! ## Messages -/

/-- `_parse_request`, with the part of `RecordSchema.__init__` for a request -/
def parse_request : PyObj → Parser (List Field)
  | .list request => make_field_objects (make_avsc_object limit) [] request
  | request => throw (protocolParseException "Request property not a list: %s" [request])

/-- `_parse_response` -/
def parse_response (response : PyObj) : Parser Schema :=
  resolveType (make_avsc_object limit) (fun _ => false) (fun e _ => e) response

/-- `_parse_errors` -/
def parse_errors : PyObj → Parser Schema
  | .list errors => make_avsc_object limit (.dict [
      (.str (encodeUtf8 "type".toList), .str (encodeUtf8 "error_union".toList)),
      (.str (encodeUtf8 "declared_errors".toList), .list errors)])
  | errors => throw (protocolParseException "Errors property not a list: %s" [errors])

/-- `Message.__init__` -/
def initMessage (name : Key) (request response errors : PyObj) : Parser Message := do
  let request ← parse_request limit request
  let response ← parse_response limit response
  match errors with
  | .none => return { name, request, response, errors := none }
  | errors => do
    let errors ← parse_errors limit errors
    return { name, request, response, errors := some errors }

/-- `_parse_messages` -/
def parse_messages : List (Key × Message) → List (Key × PyObj) → Parser (List (Key × Message))
  | message_objects, [] => return message_objects
  | message_objects, (name, body) :: messages => do
    -- the keys of a dictionary differ, so that Python never comes to raise this one
    if name ∈ message_objects.map Prod.fst then
      throw (protocolParseException "Message name \"%s\" repeated." [keyObj name])
    match body with
    | .dict body => do
      let message ← initMessage limit name (.get body "request".toList)
        (.get body "response".toList) (.get body "errors".toList)
      parse_messages (message_objects ++ [(name, message)]) messages
    | body => throw (protocolParseException "Message name \"%s\" has non-object body %s."
        [keyObj name, body])

/-! ## The whole protocol -/

/-- A property that is only parsed if there is one -/
def parseProperty {α β : Type} (parse : α → Parser β) : Option α → Parser (Option β)
  | none => return none
  | some a => do return some (← parse a)

def checkNamespace (namespace_ : PyObj) : Except AvroException (Option PyString) :=
  match namespace_, namespace_.asString with
  | .none, _ => .ok none
  | _, some space => .ok (some space)
  | _, none => .error (protocolParseException "The namespace property must be a string." [])

def checkTypes : PyObj → Except AvroException (Option (List PyObj))
  | .none => .ok none
  | .list types => .ok (some types)
  | _ => .error (protocolParseException "The types property must be a list." [])

def checkMessages : PyObj → Except AvroException (Option (List (Key × PyObj)))
  | .none => .ok none
  | .dict messages => .ok (some messages)
  | _ => .error (protocolParseException "The messages property must be a JSON object." [])

/-- The types and messages of `Protocol.__init__`, the messages with the names of the types -/
def parseProperties (types : Option (List PyObj)) (messages : Option (List (Key × PyObj))) :
    Parser (Option (List Schema) × Option (List (Key × Message))) := do
  let types ← parseProperty (parse_types limit []) types
  let messages ← parseProperty (parse_messages limit []) messages
  return (types, messages)

/-- `Protocol.__init__`, up to the digest of the text -/
def initProtocol (name namespace_ types messages : PyObj) : Except AvroException Protocol := do
  if name.truthy = false then
    throw (protocolParseException "Protocols must have a non-empty name." [])
  let some name := name.asString
    | throw (protocolParseException "The name property must be a string." [])
  let space ← checkNamespace namespace_
  let types ← checkTypes types
  let messages ← checkMessages messages
  -- `Names()`, whose default namespace is the one of the protocol for all that follows
  match parseProperties limit types messages ⟨[], space⟩ with
  | .ok (types, messages) names => return { name, space, types, messages, store := names.names }
  | .error e _ => throw e

def make_avpr_object : PyObj → Except AvroException Protocol
  | .dict json_data =>
    initProtocol limit (.get json_data "protocol".toList) (.get json_data "namespace".toList)
      (.get json_data "types".toList) (.get json_data "messages".toList)
  | json_data => throw (protocolParseException "Not a JSON object: %s" [json_data])

/-- `parse`, from the JSON text on: `none` is a text that is no JSON. -/
def parseProtocol : Option PyObj → Except AvroException Protocol
  | none => throw (protocolParseException "Error parsing JSON: %s" [])
  | some json_data => make_avpr_object limit json_data

end Parsing

/-! ## Protocols that are parsed -/

structure Message.WellFormed (message : Message) (store : Store) : Prop where
  request : FieldsWellFormed message.request store
  response : message.response.WellFormed store
  errors : ∀ s, message.errors = some s → s.WellFormed store

/-- All that the messages refer to is there, and each of them is under its name. -/
structure Protocol.WellFormed (p : Protocol) : Prop where
  store : p.store.WellFormed
  types : ∀ types, p.types = some types → ∀ s ∈ types,
    s.WellFormed p.store ∧ ∃ type ∈ VALID_TYPE_SCHEMA_TYPES, s.type p.store = some type
  names : ∀ messages, p.messages = some messages → (messages.map Prod.fst).Nodup
  messages : ∀ messages, p.messages = some messages → ∀ entry ∈ messages,
    entry.2.name = entry.1 ∧ entry.2.WellFormed p.store

section Steps

variable {limit : ℕ}

def TypesWellFormed (types : List Schema) (store : Store) : Prop :=
  ∀ s ∈ types, s.WellFormed store ∧ ∃ type ∈ VALID_TYPE_SCHEMA_TYPES, s.type store = some type

theorem TypesWellFormed.grows (types : List Schema) (store store' : Store)
    (h : TypesWellFormed types store) (hgrows : store.Grows store') :
    TypesWellFormed types store' := by
  intro s hs
  obtain ⟨hwf, type, hvalid, htype⟩ := h s hs
  exact ⟨hwf.grows hgrows, type, hvalid, (hwf.type_eq hgrows).trans htype⟩

def MessagesWellFormed (messages : List (Key × Message)) (store : Store) : Prop :=
  (messages.map Prod.fst).Nodup ∧
    ∀ entry ∈ messages, entry.2.name = entry.1 ∧ entry.2.WellFormed store

theorem Message.WellFormed.grows {message : Message} {store store' : Store}
    (h : message.WellFormed store) (hgrows : store.Grows store') : message.WellFormed store' where
  request := FieldsWellFormed.grows _ _ _ h.request hgrows
  response := h.response.grows hgrows
  errors s hs := (h.errors s hs).grows hgrows

theorem MessagesWellFormed.grows (messages : List (Key × Message)) (store store' : Store)
    (h : MessagesWellFormed messages store) (hgrows : store.Grows store') :
    MessagesWellFormed messages store' :=
  ⟨h.1, fun entry hentry => ⟨(h.2 entry hentry).1, (h.2 entry hentry).2.grows hgrows⟩⟩

theorem parses_parse_types (type_objects : List Schema) (types : List PyObj) :
    Parses (TypesWellFormed type_objects) (parse_types limit type_objects types)
      TypesWellFormed := by
  induction types generalizing type_objects with
  | nil => exact Parses.pure fun _ h => h
  | cons type types ih =>
    unfold parse_types
    refine Parses.bind (((parses_make_avsc_object limit type).frame
      (TypesWellFormed.grows type_objects)).weaken (fun _ h => ⟨trivial, h⟩) fun _ _ h => h)
      fun type_object => ?_
    refine Parses.bind parses_get fun names => ?_
    dsimp only
    split
    · exact Parses.throw_bind _
    · rename_i hvalid
      refine (ih (type_objects ++ [type_object])).weaken ?_ fun _ _ h => h
      rintro _ ⟨⟨hwf, htypes⟩, rfl⟩ s hs
      rcases List.mem_append.1 hs with hold | hlast
      · exact htypes s hold
      · rw [List.mem_singleton.1 hlast]
        refine ⟨hwf, ?_⟩
        cases htype : type_object.type names.names with
        | none =>
          rw [htype] at hvalid
          exact absurd rfl hvalid
        | some type =>
          rw [htype] at hvalid
          refine ⟨type, ?_, rfl⟩
          by_contra hmem
          exact hvalid (decide_eq_true hmem)

theorem parses_parse_request (request : PyObj) :
    Parses (fun _ => True) (parse_request limit request) FieldsWellFormed := by
  cases request with
  | list request =>
    exact (parses_make_field_objects (parses_make_avsc_object limit) [] request).weaken
      (fun store _ => .nil store) fun _ _ h => h
  | _ => exact Parses.throw _

theorem parses_parse_errors (errors : PyObj) :
    Parses (fun _ => True) (parse_errors limit errors) fun s store => s.WellFormed store := by
  cases errors with
  | list errors => exact parses_make_avsc_object limit _
  | _ => exact Parses.throw _

theorem parses_initMessage (name : Key) (request response errors : PyObj) :
    Parses (fun _ => True) (initMessage limit name request response errors) fun message store =>
      message.name = name ∧ message.WellFormed store := by
  unfold initMessage
  refine Parses.bind (parses_parse_request request) fun fields => ?_
  refine Parses.bind (((parses_resolveType (parses_make_avsc_object limit) _ _ response).frame
    (FieldsWellFormed.grows fields)).weaken (fun _ h => ⟨trivial, h⟩) fun _ _ h => h)
    fun response => ?_
  split
  · exact Parses.pure fun store h => ⟨rfl, h.2, h.1, fun s hs => by cases hs⟩
  · refine Parses.bind (((parses_parse_errors _).frame
      (F := fun store => response.WellFormed store ∧ FieldsWellFormed fields store)
      fun store store' h hgrows =>
        ⟨h.1.grows hgrows, FieldsWellFormed.grows _ _ _ h.2 hgrows⟩).weaken
      (fun _ h => ⟨trivial, h⟩) fun _ _ h => h) fun errors => ?_
    exact Parses.pure fun store h => ⟨rfl, h.2.2, h.2.1, fun s hs => by cases hs; exact h.1⟩

theorem parses_parse_messages (message_objects : List (Key × Message))
    (messages : List (Key × PyObj)) :
    Parses (MessagesWellFormed message_objects) (parse_messages limit message_objects messages)
      MessagesWellFormed := by
  induction messages generalizing message_objects with
  | nil => exact Parses.pure fun _ h => h
  | cons entry messages ih =>
    obtain ⟨name, body⟩ := entry
    unfold parse_messages
    dsimp only
    split
    · exact Parses.throw_bind _
    · rename_i hnew
      cases body with
      | dict body =>
        refine Parses.bind (((parses_initMessage name _ _ _).frame
          (MessagesWellFormed.grows message_objects)).weaken (fun _ h => ⟨trivial, h⟩)
          fun _ _ h => h) fun message => ?_
        refine (ih (message_objects ++ [(name, message)])).weaken ?_ fun _ _ h => h
        rintro store ⟨hmessage, hnodup, hmessages⟩
        refine ⟨?_, fun entry hentry => ?_⟩
        · rw [List.map_append, List.map_singleton, ← List.concat_eq_append]
          exact hnodup.concat hnew
        · rcases List.mem_append.1 hentry with hold | hlast
          · exact hmessages entry hold
          · rw [List.mem_singleton.1 hlast]
            exact hmessage
      | _ => exact Parses.throw _

/-- A property that there is has what its parser gives it. -/
theorem parses_parseProperty {α β : Type} {parse : α → Parser β} {P : Store → Prop}
    {Q : β → Store → Prop} (h : ∀ a, Parses P (parse a) Q) (property : Option α) :
    Parses P (parseProperty parse property) fun b store => ∀ b', b = some b' → Q b' store := by
  cases property with
  | none => exact Parses.pure fun _ _ _ h => by cases h
  | some a =>
    exact Parses.bind (h a) fun b => Parses.pure fun store hb b' heq => by cases heq; exact hb

theorem parses_parseProperties (types : Option (List PyObj))
    (messages : Option (List (Key × PyObj))) :
    Parses (fun _ => True) (parseProperties limit types messages) fun properties store =>
      (∀ types, properties.1 = some types → TypesWellFormed types store) ∧
      ∀ messages, properties.2 = some messages → MessagesWellFormed messages store := by
  have htypes := parses_parseProperty (fun types => (@parses_parse_types limit [] types).weaken
    (F := fun _ => True) (fun _ _ _ h => absurd h List.not_mem_nil) fun _ _ h => h) types
  have hmessages := parses_parseProperty (fun messages =>
    (@parses_parse_messages limit [] messages).weaken (F := fun _ => True)
      (fun _ _ => ⟨List.nodup_nil, fun _ h => absurd h List.not_mem_nil⟩) fun _ _ h => h) messages
  refine Parses.bind htypes fun types => ?_
  refine Parses.bind ((hmessages.frame (F := fun store => ∀ types', types = some types' →
      TypesWellFormed types' store) fun store store' h hgrows types' heq =>
    TypesWellFormed.grows types' _ _ (h types' heq) hgrows).weaken (fun _ h => ⟨trivial, h⟩)
    fun _ _ h => h) fun messages => ?_
  exact Parses.pure fun store h => ⟨h.2, h.1⟩

end Steps

/-- The types and messages of a protocol are parsed from its namespace. -/
theorem parseProperties_of_initProtocol {limit : ℕ} {name namespace_ types messages : PyObj}
    {p : Protocol} (h : initProtocol limit name namespace_ types messages = .ok p) :
    ∃ types messages names, parseProperties limit types messages ⟨[], p.space⟩
      = .ok (p.types, p.messages) names ∧ p.store = names.names := by
  unfold initProtocol at h
  dsimp only at h
  split at h
  · cases h
  · split at h
    · obtain ⟨space, -, h⟩ := of_bind_eq_ok h
      obtain ⟨types, -, h⟩ := of_bind_eq_ok h
      obtain ⟨messages, -, h⟩ := of_bind_eq_ok h
      cases hrun : parseProperties limit types messages ⟨[], space⟩ with
      | error e names =>
        rw [hrun] at h
        cases h
      | ok properties names =>
        rw [hrun] at h
        cases h
        exact ⟨types, messages, names, hrun, rfl⟩
    · cases h

theorem wellFormed_of_initProtocol {limit : ℕ} {name namespace_ types messages : PyObj}
    {p : Protocol} (h : initProtocol limit name namespace_ types messages = .ok p) :
    p.WellFormed := by
  obtain ⟨types, messages, names, hrun, hstore⟩ := parseProperties_of_initProtocol h
  have hempty : Store.WellFormed [] := fun _ _ hname => by cases hname
  obtain ⟨hwf, -, htypes, hmessages⟩ :=
    parses_parseProperties types messages _ _ _ hempty trivial hrun
  rw [← hstore] at hwf htypes hmessages
  exact ⟨hwf, htypes, fun messages heq => (hmessages messages heq).1,
    fun messages heq => (hmessages messages heq).2⟩

theorem initProtocol_of_parseProtocol {limit : ℕ} {json_data : Option PyObj} {p : Protocol}
    (h : parseProtocol limit json_data = .ok p) :
    ∃ name namespace_ types messages,
      initProtocol limit name namespace_ types messages = .ok p := by
  cases json_data with
  | none => cases h
  | some json_data =>
    cases json_data with
    | dict json_data => exact ⟨_, _, _, _, h⟩
    | _ => cases h

/-- What `parse` returns is well-formed: its types are enums, fixed ones, records and errors, its
    messages have different names, and every name in them stands for an object. -/
theorem wellFormed_of_parseProtocol {limit : ℕ} {json_data : Option PyObj} {p : Protocol}
    (h : parseProtocol limit json_data = .ok p) : p.WellFormed := by
  obtain ⟨name, namespace_, types, messages, hinit⟩ := initProtocol_of_parseProtocol h
  exact wellFormed_of_initProtocol hinit

/-- The JSON of a protocol with a record of that name and one message, which has errors. -/
def SEND_JSON (name : String) : PyObj :=
  let unicode (s : String) : PyObj := .unicode s.toList
  let obj (entries : List (String × PyObj)) : PyObj :=
    .dict (entries.map fun entry => (.unicode entry.1.toList, entry.2))
  obj [("protocol", unicode "Mail"), ("namespace", unicode "example.proto"),
    ("types", .list [obj [("type", unicode "record"), ("name", unicode name),
      ("fields", .list [obj [("name", unicode "to"), ("type", unicode "bytes")]])]]),
    ("messages", obj [("send", obj [
      ("request", .list [obj [("name", unicode "message"), ("type", unicode name)]]),
      ("response", unicode "null"), ("errors", .list [])])])]

theorem wellFormed_of_parseProtocol_send :
    ∃ p, parseProtocol 3 (some (SEND_JSON "Message")) = .ok p ∧ p.WellFormed :=
  ⟨_, rfl, @wellFormed_of_parseProtocol 3 (some (SEND_JSON "Message")) _ rfl⟩

end HadoopExamples.Avro
