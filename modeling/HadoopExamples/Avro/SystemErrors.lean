import HadoopExamples.Avro.Protocol

set_option autoImplicit false

/-! # System errors

The errors of a message are a union with "string" in front, for system errors. "string" is looked up
as any other name, though: in a protocol with a namespace it can be a type of that namespace. -/

namespace HadoopExamples.Avro

open Python Hoare

/-! ## What the parser restores -/

/-- The default namespace, names that have an object, and no object without a name or under the name
    of a type of Avro's own. -/
structure Within (space : Option PyString) (known : PyString → Prop) (names : Names) : Prop where
  space : names.default_namespace = space
  known : ∀ full, known full → (names.names.lookup full).isSome = true
  unreserved : ∀ full, (VALID_TYPES.lookup full).isSome = true → names.names.lookup full = none
  unnamed : names.names.lookup [] = none

/-- When the parser returns, the default namespace is the one it has begun with, and the names that
    had an object have one. -/
def Restores {α : Type} (p : Parser α) : Prop :=
  ∀ space known, Triple (Within space known) p (fun _ => Within space known) fun _ _ => True

section Restores

variable {α β : Type} {p : Parser α} {next : α → Parser β}

theorem Restores.pure (a : α) : Restores (pure a : Parser α) := fun _ _ => Triple.pure fun _ h => h

theorem Restores.throw (e : AvroException) : Restores (throw e : Parser α) :=
  fun _ _ _ _ => trivial

theorem Restores.throw_bind (e : AvroException) :
    Restores ((MonadExcept.throw e : Parser α) >>= next) :=
  fun _ _ _ _ => trivial

theorem Restores.bind (hp : Restores p) (hnext : ∀ a, Restores (next a)) : Restores (p >>= next) :=
  fun space known => Triple.bind (hp space known) fun a => hnext a space known

theorem Restores.ofExcept (e : Except AvroException α) : Restores (ofExcept e : Parser α) := by
  cases e with
  | error e => exact Restores.throw e
  | ok a => exact Restores.pure a

theorem Restores.get : Restores get := fun _ _ _ h => h

theorem Restores.reraise (hp : Restores p) (catches : AvroException → Bool)
    (raise : AvroException → Names → AvroException) : Restores (reraise p catches raise) := by
  intro space known names h
  have hrun := hp space known names h
  unfold Avro.reraise
  cases hcase : p names with
  | ok a names' =>
    rw [hcase] at hrun
    exact hrun
  | error e names' => trivial

end Restores

section Steps

theorem restores_has_name (name : PyString) : Restores (has_name name) := by
  unfold has_name
  split
  · exact Restores.throw_bind _
  · exact Restores.bind Restores.get fun _ => Restores.pure _

theorem restores_get_name (name : PyString) : Restores (get_name name) :=
  Restores.bind Restores.get fun _ => Restores.pure _

theorem Within.append {space : Option PyString} {known : PyString → Prop} {names : Names}
    (h : Within space known names) {full : PyString} (hfull : full ≠ [])
    (hreserved : VALID_TYPES.lookup full = none) (new_schema : NamedSchema) :
    Within space known { names with names := names.names ++ [(full, new_schema)] } where
  space := h.space
  known full' hfull' := by
    rw [List.lookup_append]
    obtain ⟨schema, hschema⟩ := Option.isSome_iff_exists.1 (h.known full' hfull')
    rw [hschema]
    rfl
  unreserved full' hfull' := by
    rw [List.lookup_append, h.unreserved full' hfull', Option.none_or, List.lookup_cons]
    have hne : full' ≠ full := by
      rintro rfl
      rw [hreserved] at hfull'
      cases hfull'
    rw [beq_false_of_ne hne]
    rfl
  unnamed := by
    rw [List.lookup_append, h.unnamed, Option.none_or, List.lookup_cons, beq_false_of_ne hfull.symm]
    rfl

theorem Within.setDefinition {space : Option PyString} {known : PyString → Prop} {names : Names}
    (h : Within space known names) (full : PyString) (definition : Definition) :
    Within space known { names with names := names.names.setDefinition full definition } where
  space := h.space
  known full' hfull' := (lookup_setDefinition _ _ _ _).trans (h.known full' hfull')
  unreserved full' hfull' := by
    rw [← Option.not_isSome_iff_eq_none, lookup_setDefinition, Option.not_isSome_iff_eq_none]
    exact h.unreserved full' hfull'
  unnamed := by
    rw [← Option.not_isSome_iff_eq_none, lookup_setDefinition, Option.not_isSome_iff_eq_none]
    exact h.unnamed

theorem restores_initNamedSchema (name namespace_ : PyObj) (definition : Definition) :
    Restores (initNamedSchema name namespace_ definition) := by
  intro space known names h
  cases hrun : initNamedSchema name namespace_ definition names with
  | ok full names' =>
    obtain ⟨hfull, hreserved, -, name, space, -, rfl⟩ := of_initNamedSchema hrun
    exact h.append hfull hreserved _
  | error e names' => trivial

theorem restores_named (name namespace_ : PyObj) (definition : Definition) :
    Restores (do return Schema.named (← initNamedSchema name namespace_ definition)) :=
  Restores.bind (restores_initNamedSchema _ _ _) fun _ => Restores.pure _

theorem restores_initEnumSchema (name namespace_ symbols : PyObj) :
    Restores (initEnumSchema name namespace_ symbols) := by
  unfold initEnumSchema
  cases symbols with
  | list symbols =>
    dsimp only
    cases symbols.mapM PyObj.asString with
    | none => exact Restores.throw _
    | some names =>
      dsimp only
      split
      · exact Restores.throw_bind _
      · exact restores_named _ _ _
  | _ => exact Restores.throw _

variable {f : PyObj → Parser Schema}

theorem restores_resolveType (hf : ∀ json_data, Restores (f json_data))
    (catches : AvroException → Bool) (raise : AvroException → Names → AvroException)
    (type : PyObj) : Restores (resolveType f catches raise type) := by
  unfold resolveType
  cases type.asString with
  | none => exact (hf type).reraise catches raise
  | some name =>
    refine Restores.bind (restores_has_name name) fun known => ?_
    cases known with
    | true => exact Restores.bind (restores_get_name name) fun s => Restores.pure s
    | false => exact (hf type).reraise catches raise

theorem restores_initField (hf : ∀ json_data, Restores (f json_data)) (type name : PyObj)
    (has_default : Bool) (default order : PyObj) :
    Restores (initField f type name has_default default order) := by
  unfold initField
  dsimp only
  split
  · exact Restores.throw_bind _
  · split
    · exact Restores.bind (Restores.ofExcept _) fun order =>
        Restores.bind (restores_resolveType hf _ _ _) fun type => Restores.pure _
    · exact Restores.throw _

theorem restores_make_field_objects (hf : ∀ json_data, Restores (f json_data))
    (field_objects : List Field) (field_data : List PyObj) :
    Restores (make_field_objects f field_objects field_data) := by
  induction field_data generalizing field_objects with
  | nil => exact Restores.pure _
  | cons field field_data ih =>
    cases field with
    | dict field =>
      unfold make_field_objects
      dsimp only
      refine Restores.bind (restores_initField hf _ _ _ _ _) fun new_field => ?_
      split
      · exact Restores.throw_bind _
      · exact ih _
    | _ => exact Restores.throw _

theorem triple_setDefaultNamespace (space default_namespace : Option PyString)
    (known : PyString → Prop) (schema_type : SchemaType) :
    Triple (Within space known) (setDefaultNamespace schema_type default_namespace)
      (fun _ => Within (if schema_type = .record then default_namespace else space) known)
      fun _ _ => True := by
  intro names h
  exact ⟨congrArg (fun space => if schema_type = .record then default_namespace else space) h.space,
    h.known, h.unreserved, h.unnamed⟩

theorem triple_setDefinition (space : Option PyString) (known : PyString → Prop) (full : PyString)
    (definition : Definition) :
    Triple (Within space known)
      (modify fun names => { names with names := names.names.setDefinition full definition } :
        Parser Unit)
      (fun _ => Within space known) fun _ _ => True :=
  fun _ h => h.setDefinition full definition

/-- A record gives back the default namespace that it has taken. -/
theorem restores_initRecordSchema (hf : ∀ json_data, Restores (f json_data))
    (schema_type : SchemaType) (definition : List Field → Definition)
    (name namespace_ fields : PyObj) :
    Restores (initRecordSchema f schema_type definition name namespace_ fields) := by
  unfold initRecordSchema
  cases fields with
  | list fields =>
    refine Restores.bind (restores_initNamedSchema _ _ _) fun full space known names h => ?_
    -- the namespace to go back to is read first, so that it is the one at the beginning
    rw [bind_of_ok (rfl : (get : Parser Names) names = .ok names names)]
    refine (Triple.bind (triple_setDefaultNamespace space _ known schema_type) fun _ =>
      Triple.bind (restores_make_field_objects hf [] fields _ known) fun field_objects =>
      Triple.bind (triple_setDefinition _ known full _) fun _ =>
      Triple.bind (triple_setDefaultNamespace _ _ known schema_type) fun _ =>
      Triple.pure fun names' h' => ?_) names h
    rw [h.space] at h'
    split at h'
    · exact h'
    · exact h'
  | _ => exact Restores.throw _

/-- The schemas that are there stay in front. -/
theorem triple_makeUnion (hf : ∀ json_data, Restores (f json_data)) (space : Option PyString)
    (known : PyString → Prop) (schema_objects : List Schema) (schemas : List PyObj) :
    Triple (Within space known) (makeUnion f schema_objects schemas)
      (fun objects names => Within space known names ∧ ∃ more, objects = schema_objects ++ more)
      fun _ _ => True := by
  induction schemas generalizing schema_objects with
  | nil => exact Triple.pure fun names h => ⟨h, [], (List.append_nil _).symm⟩
  | cons schema schemas ih =>
    unfold makeUnion
    refine Triple.bind (restores_resolveType hf _ _ _ space known) fun new_schema => ?_
    refine Triple.bind (Restores.get space known) fun names => ?_
    dsimp only
    split
    · exact fun _ _ => trivial
    · split
      · exact fun _ _ => trivial
      · refine (ih (schema_objects ++ [new_schema])).weaken (fun _ h => h) ?_ fun _ _ h => h
        rintro objects names ⟨h, more, rfl⟩
        exact ⟨h, new_schema :: more, List.append_assoc _ _ _⟩

theorem restores_initUnionSchema (hf : ∀ json_data, Restores (f json_data)) (schemas : PyObj) :
    Restores (initUnionSchema f schemas) := by
  unfold initUnionSchema
  cases schemas with
  | list schemas =>
    refine Restores.bind (fun space known => ?_) fun _ => Restores.pure _
    exact (triple_makeUnion hf space known [] schemas).weaken (fun _ h => h) (fun _ _ h => h.1)
      fun _ _ h => h
  | _ => exact Restores.throw _

theorem restores_initErrorUnionSchema (hf : ∀ json_data, Restores (f json_data))
    (schemas : PyObj) : Restores (initErrorUnionSchema f schemas) := by
  unfold initErrorUnionSchema
  cases schemas with
  | list schemas => exact restores_initUnionSchema hf _
  | _ => exact Restores.throw _

theorem restores_make_avsc_object (limit : ℕ) (json_data : PyObj) :
    Restores (make_avsc_object limit json_data) := by
  induction limit generalizing json_data with
  | zero => exact Restores.throw _
  | succ limit ih =>
    unfold make_avsc_object
    cases json_data with
    | dict json_data =>
      dsimp only
      split
      · exact Restores.pure _
      · exact Restores.bind (Restores.ofExcept _) fun size => restores_named _ _ _
      · exact restores_initEnumSchema _ _ _
      · exact restores_initRecordSchema ih _ _ _ _ _
      · exact restores_initRecordSchema ih _ _ _ _ _
      · exact Restores.bind (restores_resolveType ih _ _ _) fun s => Restores.pure _
      · exact Restores.bind (restores_resolveType ih _ _ _) fun s => Restores.pure _
      · exact restores_initErrorUnionSchema ih _
      · exact Restores.throw _
      · exact Restores.throw _
      · split <;> exact Restores.throw _
    | list schemas => exact restores_initUnionSchema ih _
    | _ =>
      dsimp only
      split
      · exact Restores.pure _
      · exact Restores.throw _

end Steps

/-! ## The errors of a message -/

/-- The schema that stands for system errors: "string", or the type of that name -/
structure IsSystemError (space : Option PyString) (known : PyString → Prop) (s : Schema) :
    Prop where
  cases : s = .primitive .string ∨ s = .named (fullname "string".toList none space)
  known : known (fullname "string".toList none space) →
    s = .named (fullname "string".toList none space)
  unreserved : (VALID_TYPES.lookup (fullname "string".toList none space)).isSome = true →
    s = .primitive .string

def HasSystemErrors (space : Option PyString) (known : PyString → Prop) (errors : Schema) : Prop :=
  ∃ s declared, errors = .union (s :: declared) ∧ IsSystemError space known s

section Errors

variable {space : Option PyString} {known : PyString → Prop} {limit : ℕ}

theorem resolveType_string (catches : AvroException → Bool)
    (raise : AvroException → Names → AvroException) (names : Names) :
    resolveType (make_avsc_object limit) catches raise (.unicode "string".toList) names
      = if (names.names.lookup (fullname "string".toList none names.default_namespace)).isSome then
          .ok (.named (fullname "string".toList none names.default_namespace)) names
        else reraise (make_avsc_object limit (.unicode "string".toList)) catches raise names := by
  have hname : has_name "string".toList names = .ok
      (names.names.lookup (fullname "string".toList none names.default_namespace)).isSome names :=
    rfl
  unfold resolveType
  dsimp only [PyObj.asString]
  rw [bind_of_ok hname]
  cases (names.names.lookup (fullname "string".toList none names.default_namespace)).isSome <;> rfl

theorem make_avsc_object_string {names names' : Names} {s : Schema}
    (h : make_avsc_object limit (.unicode "string".toList) names = .ok s names') :
    s = .primitive .string ∧ names' = names := by
  cases limit with
  | zero => cases h
  | succ limit =>
    cases h
    exact ⟨rfl, rfl⟩

theorem triple_resolveType_string (catches : AvroException → Bool)
    (raise : AvroException → Names → AvroException) :
    Triple (Within space known)
      (resolveType (make_avsc_object limit) catches raise (.unicode "string".toList))
      (fun s names => Within space known names ∧ IsSystemError space known s)
      fun _ _ => True := by
  intro names h
  rw [resolveType_string, h.space]
  cases hlookup : (names.names.lookup (fullname "string".toList none space)).isSome with
  | true =>
    -- there is a type of that name, which then is not the plain "string", a reserved name
    rw [if_pos rfl]
    refine ⟨h, Or.inr rfl, fun _ => rfl, fun hreserved => ?_⟩
    rw [h.unreserved _ hreserved] at hlookup
    cases hlookup
  | false =>
    rw [if_neg Bool.false_ne_true]
    unfold reraise
    cases hrun : make_avsc_object limit (.unicode "string".toList) names with
    | error e names' => trivial
    | ok s names' =>
      obtain ⟨rfl, rfl⟩ := make_avsc_object_string hrun
      refine ⟨h, Or.inl rfl, fun hknown => ?_, fun _ => rfl⟩
      rw [h.known _ hknown] at hlookup
      cases hlookup

theorem triple_makeUnion_string (declared_errors : List PyObj) :
    Triple (Within space known)
      (makeUnion (make_avsc_object limit) [] (.unicode "string".toList :: declared_errors))
      (fun objects names => Within space known names ∧
        ∃ s declared, objects = s :: declared ∧ IsSystemError space known s)
      fun _ _ => True := by
  unfold makeUnion
  refine Triple.bind (triple_resolveType_string _ _) fun s => ?_
  have hget : Triple (fun names => Within space known names ∧ IsSystemError space known s)
      (get : Parser Names) (fun _ names => Within space known names ∧ IsSystemError space known s)
      fun _ _ => True := fun _ h => h
  refine Triple.bind hget fun names => ?_
  dsimp only
  split
  · exact fun _ _ => trivial
  · split
    · exact fun _ _ => trivial
    · rintro names' ⟨h, hs⟩
      refine ((triple_makeUnion (restores_make_avsc_object limit) space known [s]
        declared_errors).weaken (fun _ h => h) ?_ fun _ _ h => h) names' h
      rintro objects names' ⟨h', declared, rfl⟩
      exact ⟨h', s, declared, rfl, hs⟩

theorem triple_parse_errors (errors : PyObj) :
    Triple (Within space known) (parse_errors limit errors)
      (fun s names => Within space known names ∧ HasSystemErrors space known s)
      fun _ _ => True := by
  cases errors with
  | list errors =>
    cases limit with
    | zero => exact fun _ _ => trivial
    | succ limit =>
      have hunion : parse_errors (limit + 1) (.list errors) = (do
          return Schema.union (← makeUnion (make_avsc_object limit) []
            (.unicode "string".toList :: errors))) := rfl
      rw [hunion]
      refine Triple.bind (triple_makeUnion_string errors) fun objects => Triple.pure ?_
      rintro names ⟨h, s, declared, rfl, hs⟩
      exact ⟨h, s, declared, rfl, hs⟩
  | _ => exact fun _ _ => trivial

theorem restores_parse_request (request : PyObj) : Restores (parse_request limit request) := by
  cases request with
  | list request => exact restores_make_field_objects (restores_make_avsc_object limit) [] request
  | _ => exact Restores.throw _

/-- Whatever errors the message has, the one for system errors comes first. -/
def Message.HasSystemErrors (space : Option PyString) (known : PyString → Prop)
    (message : Message) : Prop :=
  ∀ errors, message.errors = some errors → Avro.HasSystemErrors space known errors

theorem triple_initMessage (name : Key) (request response errors : PyObj) :
    Triple (Within space known) (initMessage limit name request response errors)
      (fun message names => Within space known names ∧ message.HasSystemErrors space known)
      fun _ _ => True := by
  unfold initMessage
  refine Triple.bind (restores_parse_request request space known) fun request => ?_
  refine Triple.bind (restores_resolveType (restores_make_avsc_object limit) _ _ response space
    known) fun response => ?_
  split
  · exact Triple.pure fun names h => ⟨h, fun errors herrors => by cases herrors⟩
  · refine Triple.bind (triple_parse_errors _) fun errors => Triple.pure ?_
    rintro names ⟨h, herrors⟩
    refine ⟨h, fun errors' heq => ?_⟩
    cases heq
    exact herrors

theorem triple_parse_messages (message_objects : List (Key × Message))
    (messages : List (Key × PyObj))
    (hobjects : ∀ entry ∈ message_objects, entry.2.HasSystemErrors space known) :
    Triple (Within space known) (parse_messages limit message_objects messages)
      (fun objects names => Within space known names ∧
        ∀ entry ∈ objects, entry.2.HasSystemErrors space known)
      fun _ _ => True := by
  induction messages generalizing message_objects with
  | nil => exact Triple.pure fun _ h => ⟨h, hobjects⟩
  | cons entry messages ih =>
    obtain ⟨name, body⟩ := entry
    unfold parse_messages
    dsimp only
    split
    · exact fun _ _ => trivial
    · cases body with
      | dict body =>
        refine Triple.bind (triple_initMessage name _ _ _) fun message => ?_
        rintro names ⟨h, hmessage⟩
        refine ih (message_objects ++ [(name, message)]) (fun entry hentry => ?_) names h
        rcases List.mem_append.1 hentry with hold | hlast
        · exact hobjects entry hold
        · rw [List.mem_singleton.1 hlast]
          exact hmessage
      | _ => exact fun _ _ => trivial

theorem restores_parse_types (type_objects : List Schema) (types : List PyObj) :
    Restores (parse_types limit type_objects types) := by
  induction types generalizing type_objects with
  | nil => exact Restores.pure _
  | cons type types ih =>
    unfold parse_types
    refine Restores.bind (restores_make_avsc_object limit type) fun type_object => ?_
    refine Restores.bind Restores.get fun names => ?_
    dsimp only
    split
    · exact Restores.throw_bind _
    · exact ih _

theorem Within.empty (space : Option PyString) : Within space (fun _ => False) ⟨[], space⟩ :=
  ⟨rfl, fun _ h => h.elim, fun _ _ => rfl, rfl⟩

end Errors

/-- One of the types of the protocol has that full name. -/
def Protocol.Declares (p : Protocol) (full : PyString) : Prop :=
  ∃ types, p.types = some types ∧ .named full ∈ types

section Parsed

variable {limit : ℕ} {space : Option PyString} {names : Names}

theorem restores_parseProperty_types (types : Option (List PyObj)) :
    Restores (parseProperty (parse_types limit []) types) := by
  cases types with
  | none => exact Restores.pure _
  | some types => exact Restores.bind (restores_parse_types [] types) fun _ => Restores.pure _

/-- The messages are parsed with the types in the store. -/
theorem within_of_parse_types {types : Option (List PyObj)} {type_objects : Option (List Schema)}
    (h : parseProperty (parse_types limit []) types ⟨[], space⟩ = .ok type_objects names) :
    Within space (fun full => ∃ types, type_objects = some types ∧ .named full ∈ types) names := by
  have hwithin := (restores_parseProperty_types types _ _).of_ok (Within.empty space) h
  obtain ⟨-, -, htypes⟩ := parses_parseProperty (Q := TypesWellFormed) (P := fun _ => True)
    (fun types => (parses_parse_types [] types).weaken
      (fun _ _ _ h => absurd h List.not_mem_nil) fun _ _ h => h) types _ _ _
    (fun _ _ hname => by cases hname) trivial h
  -- what is in the store is known from now on, since nothing is ever taken out
  refine ⟨hwithin.space, ?_, hwithin.unreserved, hwithin.unnamed⟩
  rintro full ⟨types', heq, hmem⟩
  exact isSome_of_named (htypes types' heq _ hmem).1

theorem hasSystemErrors_of_parseProperties {types : Option (List PyObj)}
    {messages : Option (List (Key × PyObj))} {type_objects : Option (List Schema)}
    {message_objects : List (Key × Message)}
    (h : parseProperties limit types messages ⟨[], space⟩
      = .ok (type_objects, some message_objects) names) :
    ∀ entry ∈ message_objects, entry.2.HasSystemErrors space
      fun full => ∃ types, type_objects = some types ∧ .named full ∈ types := by
  obtain ⟨type_objects', names₁, htypes, hrest⟩ := ok_of_bind h
  obtain ⟨message_objects', names₂, hmessages, hret⟩ := ok_of_bind hrest
  cases hret
  cases messages with
  | none => cases hmessages
  | some messages =>
    obtain ⟨message_objects', names₃, hparse, hret⟩ := ok_of_bind hmessages
    cases hret
    exact ((triple_parse_messages [] messages fun _ h => absurd h List.not_mem_nil).of_ok
      (within_of_parse_types htypes) hparse).2

theorem restores_parseProperties (types : Option (List PyObj))
    (messages : Option (List (Key × PyObj))) : Restores (parseProperties limit types messages) := by
  refine Restores.bind (restores_parseProperty_types types) fun types => ?_
  refine Restores.bind ?_ fun messages => Restores.pure _
  cases messages with
  | none => exact Restores.pure _
  | some messages =>
    refine Restores.bind (fun space known => ?_) fun messages => Restores.pure _
    exact (triple_parse_messages [] messages fun _ h => absurd h List.not_mem_nil).weaken
      (fun _ h => h) (fun _ _ h => h.1) fun _ _ h => h

end Parsed

/-- No object of a protocol has the empty name. -/
theorem unnamed_of_parseProtocol {limit : ℕ} {json_data : Option PyObj} {p : Protocol}
    (h : parseProtocol limit json_data = .ok p) : p.store.lookup [] = none := by
  obtain ⟨name, namespace_, types, messages, hinit⟩ := initProtocol_of_parseProtocol h
  obtain ⟨types, messages, names, hrun, hstore⟩ := parseProperties_of_initProtocol hinit
  rw [hstore]
  exact ((restores_parseProperties types messages _ _).of_ok (Within.empty p.space) hrun).unnamed

theorem hasSystemErrors_of_initProtocol {limit : ℕ} {name namespace_ types messages : PyObj}
    {p : Protocol} (h : initProtocol limit name namespace_ types messages = .ok p)
    {message_objects : List (Key × Message)} (hmessages : p.messages = some message_objects) :
    ∀ entry ∈ message_objects, entry.2.HasSystemErrors p.space p.Declares := by
  obtain ⟨types, messages, names, hrun, -⟩ := parseProperties_of_initProtocol h
  rw [hmessages] at hrun
  exact hasSystemErrors_of_parseProperties hrun

/-- The name under which "string" is looked up in the protocol -/
def Protocol.stringName (p : Protocol) : PyString := fullname "string".toList none p.space

theorem stringName_of_unnamespaced {p : Protocol} (h : p.space = none ∨ p.space = some []) :
    (VALID_TYPES.lookup p.stringName).isSome = true := by
  unfold Protocol.stringName
  rcases h with h | h
  · rw [h]
    rfl
  · rw [h]
    rfl

/-- In front of the errors of a message stands "string", if the protocol declares no type of that
    name, or else the type that its namespace has under that name. -/
theorem systemErrors_of_parseProtocol {limit : ℕ} {json_data : Option PyObj} {p : Protocol}
    (h : parseProtocol limit json_data = .ok p) {messages : List (Key × Message)}
    (hmessages : p.messages = some messages) {entry : Key × Message} (hentry : entry ∈ messages)
    {errors : Schema} (herrors : entry.2.errors = some errors) :
    ∃ s declared, errors = .union (s :: declared) ∧
      (s = .primitive .string ∧ ¬ p.Declares p.stringName ∨
        s = .named p.stringName ∧ p.space ≠ none ∧ p.space ≠ some [] ∧
          (p.store.lookup p.stringName).isSome = true) := by
  obtain ⟨name, namespace_, types, bodies, hinit⟩ := initProtocol_of_parseProtocol h
  obtain ⟨s, declared, rfl, hs⟩ :=
    hasSystemErrors_of_initProtocol hinit hmessages entry hentry errors herrors
  refine ⟨s, declared, rfl, ?_⟩
  rcases hs.cases with rfl | hnamed
  · refine Or.inl ⟨rfl, fun hdeclares => ?_⟩
    cases hs.known hdeclares
  · subst hnamed
    have hspace : ¬(p.space = none ∨ p.space = some []) := fun hspace => by
      cases hs.unreserved (stringName_of_unnamespaced hspace)
    have hunion := (((wellFormed_of_initProtocol hinit).messages messages hmessages entry
      hentry).2.errors _ herrors)
    refine Or.inr ⟨rfl, fun h => hspace (.inl h), fun h => hspace (.inr h), ?_⟩
    cases hunion with
    | union hschemas _ _ => exact isSome_of_named (hschemas _ List.mem_cons_self)

theorem systemErrors_of_parseProtocol_send : ∃ p messages entry errors,
    parseProtocol 3 (some (SEND_JSON "string")) = .ok p ∧ p.messages = some messages ∧
      entry ∈ messages ∧ entry.2.errors = some errors ∧
      errors = .union [.named "example.proto.string".toList] ∧
      ∃ s declared, errors = .union (s :: declared) ∧
        (s = .primitive .string ∧ ¬ p.Declares p.stringName ∨
          s = .named p.stringName ∧ p.space ≠ none ∧ p.space ≠ some [] ∧
            (p.store.lookup p.stringName).isSome = true) :=
  ⟨_, _, _, _, rfl, rfl, List.mem_singleton_self _, rfl, rfl,
    @systemErrors_of_parseProtocol 3 (some (SEND_JSON "string")) _ rfl _ rfl _
      (List.mem_singleton_self _) _ rfl⟩

end HadoopExamples.Avro
