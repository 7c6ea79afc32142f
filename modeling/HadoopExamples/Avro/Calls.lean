import HadoopExamples.Avro.RoundTrip
import HadoopExamples.Avro.SystemErrors

set_option autoImplicit false

/-! # Calls

What follows a handshake of `ipc.py`: a requestor writes the name of a message and the datum of its
request, and a responder answers with the response or with an error. -/

namespace HadoopExamples.Avro

open Python Tape Filter

/-- `META_SCHEMA` of `ipc.py` -/
def CALL_META_SCHEMA : Schema := .map (.primitive .bytes)

def SYSTEM_ERROR_SCHEMA : Schema := .union [.primitive .string]

/-- The record of a request is without a name: it is under the empty one, as no other object. -/
def REQUEST_SCHEMA : Schema := .named []

def Protocol.requestStore (p : Protocol) (message : Message) : Store :=
  p.store ++ [([], ⟨[], none, .record message.request⟩)]

/-- `protocol.messages.get(message_name)` -/
def Protocol.message (p : Protocol) (message_name : PyString) :
    Except AvroException (Option Message) :=
  match p.messages with
  | some messages => .ok (dictGet messages message_name)
  | none => .error .attributeError

/-- The message of that name, or the exception for none of that name. -/
def Protocol.getMessage (p : Protocol) (format : String) (message_name : PyString) :
    Except AvroException Message := do
  match ← p.message message_name with
  | some message => return message
  | none => throw (avroException format [.unicode message_name])

section Calls

variable (host : Host) (limit : ℕ)

def write_call_request (local_protocol : Protocol) (message_name : PyString)
    (request_datum : PyObj) : Encoder Unit := do
  writeDatum host [] limit CALL_META_SCHEMA (.dict [])
  let message ← ofExcept (local_protocol.getMessage "Unknown message: %s" message_name)
  write_utf8 (keyObj message.name)
  writeDatum host (local_protocol.requestStore message) limit REQUEST_SCHEMA request_datum

/-- The part of `respond` that reads the request, with the message of the local protocol -/
def read_call_request (remote_protocol local_protocol : Protocol) :
    Decoder (Message × PyObj) := do
  let _request_metadata ← read_data host [] [] limit CALL_META_SCHEMA CALL_META_SCHEMA
  let remote_message_name ← read_utf8
  let remote_message ←
    ofExcept (remote_protocol.getMessage "Unknown remote message: %s" remote_message_name)
  let local_message ←
    ofExcept (local_protocol.getMessage "Unknown local message: %s" remote_message_name)
  let request ← read_data host (remote_protocol.requestStore remote_message)
    (local_protocol.requestStore local_message) limit REQUEST_SCHEMA REQUEST_SCHEMA
  return (local_message, request)

/-- `write_error`; there is no `type` of `None`. -/
def write_error (store : Store) (writers_schema : Option Schema) (error : List UInt8) :
    Encoder Unit :=
  match writers_schema with
  | some writers_schema => writeDatum host store limit writers_schema (.str error)
  | none => throw .attributeError

/-- The part of `respond` that writes what the server has come to: a response, or an error, which is
    its text. -/
def write_call_response (local_protocol : Protocol) (local_message : Message)
    (outcome : Except (List UInt8) PyObj) : Encoder Unit := do
  writeDatum host [] limit CALL_META_SCHEMA (.dict [])
  match outcome with
  | .ok response => do
    write_boolean false
    writeDatum host local_protocol.store limit local_message.response response
  | .error error => do
    write_boolean true
    write_error host limit local_protocol.store local_message.errors error

def isAvroException : AvroException → Bool
  | .error _ => true
  | _ => false

/-- What becomes of an exception: the error of the system goes to an encoder of its own, and what
    is returned is what the first one has written. -/
def systemError (str : AvroException → List UInt8) (e : AvroException) (buffer : List UInt8) :
    Except AvroException (List UInt8) :=
  let system : Encoder Unit := do
    writeDatum host [] limit CALL_META_SCHEMA (.dict [])
    write_boolean true
    write_error host limit [] (some SYSTEM_ERROR_SCHEMA) (str e)
  if isAvroException e then
    match system [] with
    | .ok () _ => .ok buffer
    | .error e' _ => .error e'
  else .error e

/-- `respond` behind the handshake, with what is written of it in front. `invoke` gives the response
    or the text of what it raises; `str` is `str(e)`. -/
def respondCall (str : AvroException → List UInt8)
    (invoke : Message → PyObj → Except (List UInt8) PyObj)
    (remote_protocol local_protocol : Protocol) (buffer_decoder : Tape UInt8)
    (buffer : List UInt8) : Except AvroException (List UInt8) :=
  match read_call_request host limit remote_protocol local_protocol buffer_decoder with
  | .error e _ => systemError host limit str e buffer
  | .ok (local_message, request) _ =>
    match write_call_response host limit local_protocol local_message
      (invoke local_message request) buffer with
    | .ok () buffer => .ok buffer
    | .error e buffer => systemError host limit str e buffer

/-- `read_error`; without errors of its own the reader takes the writer's. -/
def read_error (remote_store local_store : Store) (writers_schema readers_schema : Option Schema) :
    Decoder PyObj :=
  match writers_schema, readers_schema with
  | some writers_schema, some readers_schema =>
    read_data host remote_store local_store limit writers_schema readers_schema
  | some writers_schema, none =>
    read_data host remote_store remote_store limit writers_schema writers_schema
  | none, _ => throw .attributeError

/-- An error of the responder's is raised as an `AvroRemoteException`. -/
def read_call_response (remote_protocol local_protocol : Protocol) (message_name : PyString) :
    Decoder (Except PyObj PyObj) := do
  let _response_metadata ← read_data host [] [] limit CALL_META_SCHEMA CALL_META_SCHEMA
  let remote_message_schema ←
    ofExcept (remote_protocol.getMessage "Unknown remote message: %s" message_name)
  let local_message_schema ←
    ofExcept (local_protocol.getMessage "Unknown local message: %s" message_name)
  if !(← read_boolean) then
    return .ok (← read_data host remote_protocol.store local_protocol.store limit
      remote_message_schema.response local_message_schema.response)
  else
    return .error (← read_error host limit remote_protocol.store local_protocol.store
      remote_message_schema.errors local_message_schema.errors)

end Calls

/-! ## Messages of a protocol -/

section Messages

variable {p : Protocol} {message_name : PyString} {message : Message}

theorem of_getMessage {format : String} (h : p.getMessage format message_name = .ok message) :
    p.message message_name = .ok (some message) := by
  unfold Protocol.getMessage at h
  obtain ⟨found, hfound, h⟩ := of_bind_eq_ok h
  cases found with
  | some message' =>
    cases h
    exact hfound
  | none => cases h

theorem getMessage_eq (h : p.message message_name = .ok (some message)) (format : String) :
    p.getMessage format message_name = .ok message := by
  unfold Protocol.getMessage
  rw [h]
  rfl

theorem Protocol.WellFormed.of_message (hp : p.WellFormed)
    (h : p.message message_name = .ok (some message)) :
    message.name.asString = some message_name ∧ message.WellFormed p.store := by
  unfold Protocol.message at h
  split at h
  · rename_i messages hmessages
    obtain ⟨entry, hfind, rfl⟩ := Option.map_eq_some_iff.1 (Except.ok.inj h)
    obtain ⟨hname, hmessage⟩ := hp.messages messages hmessages entry
      (List.mem_of_find?_eq_some hfind)
    have hkey := List.find?_some hfind
    rw [hname]
    exact ⟨of_decide_eq_true hkey, hmessage⟩
  · cases h

/-- With the record of a request, the store is still well-formed. -/
theorem wellFormed_requestStore (hp : p.WellFormed) (hunnamed : p.store.lookup [] = none)
    (hmessage : message.WellFormed p.store) :
    (p.requestStore message).WellFormed ∧
      Schema.WellFormed (p.requestStore message) REQUEST_SCHEMA := by
  have hgrows : p.store.Grows (p.requestStore message) := Store.Grows.append hunnamed _
  have hrequest : (p.requestStore message).definition? [] = some (.record message.request) :=
    (definition?_append hunnamed _ []).trans (if_pos rfl)
  exact ⟨hp.store.append hunnamed ((IsRecord.record.wellFormed hmessage.request).grows hgrows),
    .named hrequest⟩

end Messages

/-! ## What comes back -/

section ComesBack

variable {host : Host} {p : Protocol} {message_name : PyString}

theorem appends_call_meta (limit : ℕ) :
    Appends (writeDatum host [] limit CALL_META_SCHEMA (.dict [])) fun bytes =>
      ∃ metadata, ComesBack host [] CALL_META_SCHEMA (.dict []) metadata bytes :=
  appends_comesBack (fun _ _ hname => by cases hname) (.map (.primitive .bytes)) limit _

/-- What a responder with the protocol `q` reads of a request: a message of its own, with the
    parameters as this one has them. -/
def readRequest (host : Host) (limit : ℕ) (p q : Protocol) (message_name : PyString)
    (message : Message) (v : Value) : Except AvroException (Message × PyObj) := do
  let local_message ← q.getMessage "Unknown local message: %s" message_name
  return (local_message, ← resolve host (p.requestStore message) (q.requestStore local_message)
    limit REQUEST_SCHEMA REQUEST_SCHEMA v)

theorem appends_write_call_request (hp : p.WellFormed) (limit : ℕ) (request_datum : PyObj) :
    Appends (write_call_request host limit p message_name request_datum) fun bytes =>
      ∃ message v, p.message message_name = .ok (some message) ∧
        Takes host (p.requestStore message) REQUEST_SCHEMA request_datum v ∧
        HasType (p.requestStore message) REQUEST_SCHEMA v ∧
        ∀ q, ∀ᶠ limit in atTop, Answers (read_call_request host limit p q) bytes
          (readRequest host limit p q message_name message v) := by
  have hrest : Appends (do
      let message ← ofExcept (p.getMessage "Unknown message: %s" message_name)
      write_utf8 (keyObj message.name)
      writeDatum host (p.requestStore message) limit REQUEST_SCHEMA request_datum : Encoder Unit)
      fun bytes => ∃ message back, p.message message_name = .ok (some message) ∧
        bytes = bytesBytes (encodeUtf8 message_name) ++ back ∧
        (encodeUtf8 message_name).length < 2 ^ 63 ∧
        Written host (p.requestStore message) REQUEST_SCHEMA request_datum back := by
    refine Appends.ofExcept fun message hmessage => ?_
    have hfound := of_getMessage hmessage
    refine (Appends.seq (appends_write_utf8 _) (appends_writeDatum limit _ _)).weaken ?_
    rintro _ ⟨_, back, ⟨chars, hchars, hlength, rfl⟩, hwritten, rfl⟩
    rw [keyObj_asString, (hp.of_message hfound).1] at hchars
    cases hchars
    exact ⟨message, back, hfound, rfl, hlength, hwritten⟩
  refine (Appends.seq (appends_call_meta limit) hrest).weaken ?_
  rintro _ ⟨front, _, ⟨metadata, -, hmeta⟩,
    ⟨message, back, hfound, rfl, hlength, ⟨v, htakes, htype, hencodes⟩⟩, rfl⟩
  refine ⟨message, v, hfound, htakes, htype, fun q => ?_⟩
  have hmessage : ∀ᶠ limit in atTop, Answers (do
      let local_message ← ofExcept (q.getMessage "Unknown local message: %s" message_name)
      let request ← read_data host (p.requestStore message) (q.requestStore local_message) limit
        REQUEST_SCHEMA REQUEST_SCHEMA
      return (local_message, request)) ([] ++ back)
      (readRequest host limit p q message_name message v) := by
    cases hlocal : q.getMessage "Unknown local message: %s" message_name with
    | error e =>
      refine Eventually.of_forall fun limit => ?_
      unfold readRequest
      rw [hlocal]
      exact Answers.throw e _
    | ok local_message =>
      have hreads : Reads host (p.requestStore message) (q.requestStore local_message)
          REQUEST_SCHEMA REQUEST_SCHEMA v back := answers_read_data htype hencodes _
      filter_upwards [hreads] with limit hread
      unfold readRequest
      rw [hlocal]
      exact Answers.map hread
  filter_upwards [hmeta, hmessage] with limit hmeta hmessage
  refine Answers.andThen hmeta (Answers.andThen (answers_read_utf8 hlength) ?_)
  exact Answers.okThen (getMessage_eq hfound _) hmessage

/-- With the same protocol, it is the message and an object for the parameters. -/
theorem readRequest_self (hp : p.WellFormed) (hunnamed : p.store.lookup [] = none)
    {message : Message} (hfound : p.message message_name = .ok (some message)) {v : Value}
    (htype : HasType (p.requestStore message) REQUEST_SCHEMA v) :
    ∃ request, Represents (p.requestStore message) host REQUEST_SCHEMA v request ∧
      ∀ᶠ limit in atTop,
        readRequest host limit p p message_name message v = .ok (message, request) := by
  obtain ⟨hstore, hs⟩ := wellFormed_requestStore hp hunnamed (hp.of_message hfound).2
  obtain ⟨request, hrepresents, hresolves⟩ := @exists_resolvesTo _ host hstore _ hs v htype
  refine ⟨request, hrepresents, ?_⟩
  filter_upwards [hresolves.self hs] with limit hresolve
  unfold readRequest
  rw [getMessage_eq hfound]
  dsimp only [Bind.bind, Except.bind]
  rw [hresolve]
  rfl

/-- The schema of what the server has come to, and the datum that is written of it. -/
def Answer (message : Message) (outcome : Except (List UInt8) PyObj) (s : Schema)
    (datum : PyObj) : Prop :=
  match outcome with
  | .ok response => s = message.response ∧ datum = response
  | .error error => message.errors = some s ∧ datum = .str error

/-- The requestor returns the response, or raises the error. -/
def answered (outcome : Except (List UInt8) PyObj) (datum : PyObj) : Except PyObj PyObj :=
  match outcome with
  | .ok _ => .ok datum
  | .error _ => .error datum

/-- An error is only written for a message that has errors. -/
theorem appends_write_error (hp : p.WellFormed) {message : Message}
    (hmessage : message.WellFormed p.store) (limit : ℕ) (error : List UInt8) :
    Appends (write_error host limit p.store message.errors error) fun bytes =>
      ∃ errors datum', message.errors = some errors ∧
        ComesBack host p.store errors (.str error) datum' bytes := by
  cases herrors : message.errors with
  | none => exact Appends.throw _
  | some errors =>
    refine (appends_comesBack hp.store (hmessage.errors errors herrors) limit _).weaken ?_
    rintro bytes ⟨datum', hcomesBack⟩
    exact ⟨errors, datum', rfl, hcomesBack⟩

theorem appends_write_call_response (hp : p.WellFormed) {message : Message}
    (hfound : p.message message_name = .ok (some message)) (limit : ℕ)
    (outcome : Except (List UInt8) PyObj) :
    Appends (write_call_response host limit p message outcome) fun bytes =>
      ∃ s datum v datum', Answer message outcome s datum ∧ Takes host p.store s datum v ∧
        Represents p.store host s v datum' ∧ ∀ᶠ limit in atTop,
          Answers (read_call_response host limit p p message_name) bytes
            (.ok (answered outcome datum')) := by
  obtain ⟨-, hmessage⟩ := hp.of_message hfound
  cases outcome with
  | ok response =>
    refine (Appends.seq (appends_call_meta limit) (Appends.seq (Appends.append (booleanBytes false))
      (appends_comesBack hp.store hmessage.response limit response))).weaken ?_
    rintro _ ⟨front, _, ⟨metadata, -, hmeta⟩, ⟨_, back, rfl,
      ⟨datum', ⟨v, htakes, hrepresents⟩, hread⟩, rfl⟩, rfl⟩
    refine ⟨message.response, response, v, datum', ⟨rfl, rfl⟩, htakes, hrepresents, ?_⟩
    filter_upwards [hmeta, hread] with limit hmeta hread
    refine Answers.andThen hmeta (Answers.okThen (getMessage_eq hfound _)
      (Answers.okThen (getMessage_eq hfound _) ?_))
    exact Answers.andThen (answers_read_boolean false) (Answers.map hread)
  | error error =>
    refine (Appends.seq (appends_call_meta limit) (Appends.seq (Appends.append (booleanBytes true))
      (appends_write_error hp hmessage limit error))).weaken ?_
    rintro _ ⟨front, _, ⟨metadata, -, hmeta⟩, ⟨_, back, rfl,
      ⟨errors, datum', herrors, ⟨v, htakes, hrepresents⟩, hread⟩, rfl⟩, rfl⟩
    refine ⟨errors, .str error, v, datum', ⟨herrors, rfl⟩, htakes, hrepresents, ?_⟩
    filter_upwards [hmeta, hread] with limit hmeta hread
    refine Answers.andThen hmeta (Answers.okThen (getMessage_eq hfound _)
      (Answers.okThen (getMessage_eq hfound _) ?_))
    refine Answers.andThen (answers_read_boolean true) ?_
    show Answers (do return Except.error (← read_error host limit p.store p.store message.errors
      message.errors)) back _
    rw [herrors]
    exact Answers.map hread

end ComesBack

/-- Where the responder can write the response or the error that the server comes to for this
    request, that is what it returns, and the requestor gets an object for it. -/
def Serves (host : Host) (p : Protocol) (message_name : PyString) (message : Message)
    (request : PyObj) (front bytes : List UInt8) : Prop :=
  ∀ᶠ limit in atTop, ∀ str invoke buffer response,
    write_call_response host limit p message (invoke message request) buffer = .ok () response →
      respondCall host limit str invoke p p (before front bytes []) buffer = .ok response ∧
      ∃ part s datum v answer, response = buffer ++ part ∧
        Answer message (invoke message request) s datum ∧ Takes host p.store s datum v ∧
        Represents p.store host s v answer ∧ ∀ᶠ limit in atTop,
          Answers (read_call_response host limit p p message_name) part
            (.ok (answered (invoke message request) answer))

/-- A call of a message of the protocol that both sides have: the server gets an object for what the
    datum of the request was taken for, and the requestor one for what the server has come to. -/
theorem call_answered {n : ℕ} {json_data : Option PyObj} {p : Protocol}
    (h : parseProtocol n json_data = .ok p) {host : Host} {limit : ℕ} {message_name : PyString}
    {request_datum : PyObj} {front call_request : List UInt8}
    (hwrite : write_call_request host limit p message_name request_datum front
      = .ok () call_request) :
    ∃ bytes message v request, call_request = front ++ bytes ∧
      p.message message_name = .ok (some message) ∧
      Takes host (p.requestStore message) REQUEST_SCHEMA request_datum v ∧
      Represents (p.requestStore message) host REQUEST_SCHEMA v request ∧
      (∀ᶠ limit in atTop,
        Answers (read_call_request host limit p p) bytes (.ok (message, request))) ∧
      Serves host p message_name message request front bytes := by
  obtain ⟨_, _, _, _, hinit⟩ := initProtocol_of_parseProtocol h
  have hp := wellFormed_of_initProtocol hinit
  obtain ⟨bytes, ⟨message, v, hfound, htakes, htype, hreads⟩, rfl⟩ :=
    appends_write_call_request hp limit request_datum front call_request hwrite
  obtain ⟨request, hrepresents, hself⟩ :=
    @readRequest_self host p message_name hp (unnamed_of_parseProtocol h) message hfound v htype
  have hread : ∀ᶠ limit in atTop,
      Answers (read_call_request host limit p p) bytes (.ok (message, request)) := by
    filter_upwards [hreads p, hself] with limit hanswers heq
    rwa [heq] at hanswers
  refine ⟨bytes, message, v, request, rfl, hfound, htakes, hrepresents, hread, ?_⟩
  unfold Serves
  filter_upwards [hread] with limit hread str invoke buffer response hresponse
  refine ⟨?_, ?_⟩
  · unfold respondCall
    rw [hread front []]
    dsimp only
    rw [hresponse]
  · obtain ⟨part, ⟨s, datum, v', answer, hanswer, htakes', hrepresents', hread'⟩, rfl⟩ :=
      appends_write_call_response hp hfound limit (invoke message request) buffer response hresponse
    exact ⟨part, s, datum, v', answer, rfl, hanswer, htakes', hrepresents', hread'⟩

/-- The parameters of "send": a record with the field "to" -/
def SEND_DATUM : PyObj :=
  .dict [(.unicode "message".toList, .dict [(.unicode "to".toList, .str [74, 111])])]

theorem call_answered_send : ∃ p call_request,
    parseProtocol 3 (some (SEND_JSON "Message")) = .ok p ∧
    write_call_request Host.plain 3 p "send".toList SEND_DATUM [] = .ok () call_request ∧
    ∃ bytes message v request, call_request = [] ++ bytes ∧
      p.message "send".toList = .ok (some message) ∧
      Takes Host.plain (p.requestStore message) REQUEST_SCHEMA SEND_DATUM v ∧
      Represents (p.requestStore message) Host.plain REQUEST_SCHEMA v request ∧
      (∀ᶠ limit in atTop,
        Answers (read_call_request Host.plain limit p p) bytes (.ok (message, request))) ∧
      Serves Host.plain p "send".toList message request [] bytes :=
  ⟨_, _, rfl, rfl, @call_answered 3 (some (SEND_JSON "Message")) _ rfl Host.plain 3 "send".toList
    SEND_DATUM [] _ rfl⟩

/-! ## Errors of the system -/

section SystemErrors

variable {host : Host} {limit : ℕ}

theorem read_long_nothing (front : List UInt8) :
    ∃ t, read_long (before front [] []) = .error .typeError t := by
  unfold read_long
  rw [rest_before]
  exact ⟨_, rfl⟩

theorem read_meta_nothing (front : List UInt8) :
    ∃ t, read_data host [] [] (limit + 2) CALL_META_SCHEMA CALL_META_SCHEMA (before front [] [])
      = .error .typeError t := by
  obtain ⟨t, ht⟩ := read_long_nothing front
  exact ⟨t, Hoare.bind_of_error (Hoare.bind_of_error ht)⟩

theorem read_call_response_nothing (host : Host) (limit : ℕ)
    (remote_protocol local_protocol : Protocol) (message_name : PyString) (response : List UInt8) :
    ∃ t, read_call_response host (limit + 2) remote_protocol local_protocol message_name
      (before response [] []) = .error .typeError t := by
  obtain ⟨t, ht⟩ := @read_meta_nothing host limit response
  exact ⟨t, Hoare.bind_of_error ht⟩

section Lost

variable {str : AvroException → List UInt8} {invoke : Message → PyObj → Except (List UInt8) PyObj}
  {remote_protocol local_protocol : Protocol} {t t' : Tape UInt8} {e : AvroException}
  {buffer response : List UInt8}

theorem respondCall_of_error
    (hread : read_call_request host limit remote_protocol local_protocol t = .error e t') :
    respondCall host limit str invoke remote_protocol local_protocol t buffer
      = systemError host limit str e buffer := by
  unfold respondCall
  rw [hread]

theorem of_systemError (h : systemError host limit str e buffer = .ok response) :
    isAvroException e = true ∧ response = buffer := by
  unfold systemError at h
  dsimp only at h
  split at h
  · rename_i he
    split at h
    · exact ⟨he, (Except.ok.inj h).symm⟩
    · cases h
  · cases h

/-- The error of a request that cannot be read gets lost: what is returned ends behind the
    handshake, where the requestor finds no error but the end of what it reads. -/
theorem system_error_lost
    (hread : read_call_request host limit remote_protocol local_protocol t = .error e t')
    (h : respondCall host limit str invoke remote_protocol local_protocol t buffer
      = .ok response) :
    isAvroException e = true ∧ response = buffer ∧
      ∀ host limit remote_protocol local_protocol message_name, ∃ t,
        read_call_response host (limit + 2) remote_protocol local_protocol message_name
          (before response [] []) = .error .typeError t := by
  rw [respondCall_of_error hread] at h
  obtain ⟨he, hresponse⟩ := of_systemError h
  refine ⟨he, hresponse, fun host limit remote_protocol local_protocol message_name => ?_⟩
  exact read_call_response_nothing host limit remote_protocol local_protocol message_name response

def EMPTY_PROTOCOL : Protocol := ⟨"Mail".toList, none, none, some [], []⟩

theorem system_error_lost_unknown : ∃ e t',
    read_call_request Host.plain 3 EMPTY_PROTOCOL EMPTY_PROTOCOL (before [1] [0, 2, 65] [])
      = .error e t' ∧
    respondCall Host.plain 3 (fun _ => []) (fun _ request => .ok request) EMPTY_PROTOCOL
      EMPTY_PROTOCOL (before [1] [0, 2, 65] []) [0] = .ok [0] ∧
    isAvroException e = true ∧ ([0] : List UInt8) = [0] ∧
      ∀ host limit remote_protocol local_protocol message_name, ∃ t,
        read_call_response host (limit + 2) remote_protocol local_protocol message_name
          (before [0] [] []) = .error .typeError t :=
  ⟨_, _, rfl, rfl, @system_error_lost Host.plain 3 (fun _ => []) (fun _ request => .ok request)
    EMPTY_PROTOCOL EMPTY_PROTOCOL (before [1] [0, 2, 65] []) _ _ [0] [0] rfl rfl⟩

end Lost

/-! ## Requests that are refused -/

/-- Why a responder with the protocol `q` cannot read a request: it has no such message, or the
    parameters are none of the message that it has. -/
inductive Refuses (host : Host) (limit : ℕ) (p q : Protocol) (message_name : PyString)
    (message : Message) (v : Value) : AvroException → Prop
  | unknown (h : q.message message_name = .ok none) :
    Refuses host limit p q message_name message v
      (avroException "Unknown local message: %s" [.unicode message_name])
  | unresolved {local_message : Message} {e : AvroException}
    (h : q.message message_name = .ok (some local_message))
    (he : resolve host (p.requestStore message) (q.requestStore local_message) limit
      REQUEST_SCHEMA REQUEST_SCHEMA v = .error e) :
    Refuses host limit p q message_name message v e

theorem Refuses.readRequest {p q : Protocol} {message_name : PyString} {message : Message}
    {v : Value} {e : AvroException} (h : Refuses host limit p q message_name message v e) :
    readRequest host limit p q message_name message v = .error e := by
  unfold Avro.readRequest
  cases h with
  | unknown h =>
    unfold Protocol.getMessage
    rw [h]
    rfl
  | unresolved h he =>
    rw [getMessage_eq h]
    dsimp only [Bind.bind, Except.bind]
    rw [he]

end SystemErrors

end HadoopExamples.Avro
