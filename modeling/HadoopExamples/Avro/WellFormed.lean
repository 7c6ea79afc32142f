import HadoopExamples.Library.Hoare
import HadoopExamples.Avro.Schema

set_option autoImplicit false

/-! # Schemas that the parser builds

Every name in a schema that `parse` returns stands for an object, no two fields of a record and no
two symbols of an enum have one name, and a union has no union and no two schemas of one type
without a name in it. A record is in the store before its fields are, so the store grows while the
objects in it change; what they are of stays (`Store.Grows`). -/

namespace HadoopExamples.Avro

open Python

inductive Schema.WellFormed (store : Store) : Schema → Prop
  | primitive (type : PrimitiveType) : WellFormed store (.primitive type)
  | array {items : Schema} (h : WellFormed store items) : WellFormed store (.array items)
  | map {values : Schema} (h : WellFormed store values) : WellFormed store (.map values)
  | union {schemas : List Schema} (h : ∀ s ∈ schemas, WellFormed store s)
    (hunion : ∀ s ∈ schemas, s.type store ≠ some .union)
    (htypes : schemas.Pairwise fun s s' =>
      s'.type store = s.type store → (s'.type store).all isNamedType = true) :
    WellFormed store (.union schemas)
  | named {name : PyString} {definition : Definition}
    (h : store.definition? name = some definition) : WellFormed store (.named name)

structure Definition.WellFormed (store : Store) (definition : Definition) : Prop where
  symbols : ∀ symbols, definition = .enum symbols → symbols.Nodup
  names : ∀ fields, definition.fields? = some fields → (fields.map Field.name).Nodup
  types : ∀ fields, definition.fields? = some fields →
    ∀ field ∈ fields, field.type.WellFormed store

def Store.WellFormed (store : Store) : Prop :=
  ∀ name definition, store.definition? name = some definition → definition.WellFormed store

theorem Store.WellFormed.of_fields? {store : Store} (h : store.WellFormed) {name : PyString}
    {fields : List Field} (hname : store.fields? name = some fields) :
    (fields.map Field.name).Nodup ∧ ∀ field ∈ fields, field.type.WellFormed store := by
  unfold Store.fields? at hname
  obtain ⟨definition, hdefinition, hfields⟩ := Option.bind_eq_some_iff.1 hname
  exact ⟨(h name definition hdefinition).names fields hfields,
    (h name definition hdefinition).types fields hfields⟩

/-- The objects of `store` are still there, and of the types that they were of. -/
def Store.Grows (store store' : Store) : Prop :=
  ∀ name definition, store.definition? name = some definition →
    ∃ definition', store'.definition? name = some definition' ∧ definition'.type = definition.type

/-! ## Growing stores -/

section Grows

variable {store store' store'' : Store}

theorem Store.Grows.refl (store : Store) : store.Grows store :=
  fun _ definition h => ⟨definition, h, rfl⟩

theorem Store.Grows.trans (h : store.Grows store') (h' : store'.Grows store'') :
    store.Grows store'' := by
  intro name definition hname
  obtain ⟨definition', hname', htype⟩ := h name definition hname
  obtain ⟨definition'', hname'', htype'⟩ := h' name definition' hname'
  exact ⟨definition'', hname'', htype'.trans htype⟩

theorem Schema.WellFormed.type_eq {s : Schema} (hs : s.WellFormed store)
    (h : store.Grows store') : s.type store' = s.type store := by
  cases hs with
  | named hname =>
    obtain ⟨definition', hname', htype⟩ := h _ _ hname
    show (store'.definition? _).map _ = (store.definition? _).map _
    rw [hname, hname', Option.map_some, Option.map_some, htype]
  | _ => rfl

theorem Schema.WellFormed.grows {s : Schema} (hs : s.WellFormed store)
    (h : store.Grows store') : s.WellFormed store' := by
  induction hs with
  | primitive type => exact .primitive type
  | array _ ih => exact .array ih
  | map _ ih => exact .map ih
  | union hs hunion htypes ih =>
    refine .union ih (fun s hmem => ?_) (htypes.imp_of_mem fun {s s'} hmem hmem' htype => ?_)
    · rw [(hs s hmem).type_eq h]
      exact hunion s hmem
    · rw [(hs s hmem).type_eq h, (hs s' hmem').type_eq h]
      exact htype
  | named hname =>
    obtain ⟨definition', hname', -⟩ := h _ _ hname
    exact .named hname'

theorem Definition.WellFormed.grows {definition : Definition}
    (hdefinition : definition.WellFormed store) (h : store.Grows store') :
    definition.WellFormed store' :=
  { hdefinition with
    types := fun fields hfields field hmem => (hdefinition.types fields hfields field hmem).grows h }

end Grows

/-! ## The two ways in which the store changes -/

section Changes

variable {store : Store} {full : PyString}

theorem definition?_append (hnew : store.lookup full = none) (new_schema : NamedSchema)
    (name : PyString) :
    Store.definition? (store ++ [(full, new_schema)]) name
      = if name = full then some new_schema.definition else store.definition? name := by
  unfold Store.definition?
  rw [List.lookup_append]
  split
  · rename_i heq
    rw [heq, hnew, List.lookup_cons_self]
    rfl
  · rename_i hne
    rw [List.lookup_cons, beq_false_of_ne hne, List.lookup_nil, Option.or_none]

theorem definition?_setDefinition (store : Store) (full : PyString) (definition : Definition)
    (name : PyString) : (store.setDefinition full definition).definition? name
      = if name = full then (store.definition? name).map fun _ => definition
        else store.definition? name := by
  induction store with
  | nil =>
    show none = if name = full then none else none
    rw [ite_self]
  | cons entry store ih =>
    unfold Store.definition? Store.setDefinition at ih ⊢
    rw [List.map_cons, List.lookup_cons, List.lookup_cons]
    cases hkey : name == entry.1 with
    | false => exact ih
    | true =>
      rw [← eq_of_beq hkey]
      dsimp only
      split <;> rfl

theorem lookup_setDefinition (store : Store) (full full' : PyString) (definition : Definition) :
    ((store.setDefinition full definition).lookup full').isSome = (store.lookup full').isSome := by
  rw [Store.setDefinition]
  induction store with
  | nil => rfl
  | cons entry store ih =>
    rw [List.map_cons, List.lookup_cons, List.lookup_cons]
    cases full' == entry.1 with
    | true => rfl
    | false => exact ih

theorem Store.Grows.append (hnew : store.lookup full = none) (new_schema : NamedSchema) :
    store.Grows (store ++ [(full, new_schema)]) := by
  intro name definition hname
  refine ⟨definition, ?_, rfl⟩
  rw [definition?_append hnew, if_neg, hname]
  rintro rfl
  unfold Store.definition? at hname
  rw [hnew] at hname
  cases hname

theorem Store.WellFormed.append (h : store.WellFormed) (hnew : store.lookup full = none)
    {new_schema : NamedSchema}
    (hdefinition : new_schema.definition.WellFormed (store ++ [(full, new_schema)])) :
    Store.WellFormed (store ++ [(full, new_schema)]) := by
  intro name definition hname
  rw [definition?_append hnew] at hname
  split at hname
  · cases hname
    exact hdefinition
  · exact (h name definition hname).grows (Store.Grows.append hnew new_schema)

theorem Store.WellFormed.setDefinition (h : store.WellFormed) {old definition : Definition}
    (hold : store.definition? full = some old) (htype : definition.type = old.type)
    (hdefinition : definition.WellFormed store) :
    (store.setDefinition full definition).WellFormed ∧
      store.Grows (store.setDefinition full definition) := by
  have hgrows : store.Grows (store.setDefinition full definition) := by
    intro name definition' hname
    rw [definition?_setDefinition]
    split
    · rename_i heq
      subst heq
      rw [hname] at hold ⊢
      cases hold
      exact ⟨definition, rfl, htype⟩
    · exact ⟨definition', hname, rfl⟩
  refine ⟨fun name definition' hname => ?_, hgrows⟩
  rw [definition?_setDefinition] at hname
  split at hname
  · rename_i heq
    subst heq
    rw [hold] at hname
    cases hname
    exact hdefinition.grows hgrows
  · exact (h name definition' hname).grows hgrows

end Changes

/-! ## Steps of the parser -/

/-- From a well-formed store with `P`, the step lets it grow, stays well-formed and returns with
    `Q`. -/
def Parses {α : Type} (P : Store → Prop) (p : Parser α) (Q : α → Store → Prop) : Prop :=
  ∀ names names' a, names.names.WellFormed → P names.names → p names = .ok a names' →
    names'.names.WellFormed ∧ names.names.Grows names'.names ∧ Q a names'.names

section Parses

variable {α β : Type} {P F : Store → Prop} {Q Q' : α → Store → Prop} {R : β → Store → Prop}
  {p : Parser α} {next : α → Parser β}

theorem Parses.pure {a : α} (h : ∀ store, P store → Q a store) : Parses P (pure a) Q := by
  intro names names' a' hwf hP hrun
  cases hrun
  exact ⟨hwf, Store.Grows.refl _, h _ hP⟩

theorem Parses.throw (e : AvroException) : Parses P (throw e) Q := nofun

theorem Parses.throw_bind (e : AvroException) :
    Parses P ((MonadExcept.throw e : Parser α) >>= next) R := nofun

theorem Parses.ofExcept (e : Except AvroException α) :
    Parses P (ofExcept e) fun _ store => P store := by
  intro names names' a hwf hP hrun
  cases e with
  | error e => cases hrun
  | ok a =>
    cases hrun
    exact ⟨hwf, Store.Grows.refl _, hP⟩

theorem Parses.bind (hp : Parses P p Q) (hnext : ∀ a, Parses (Q a) (next a) R) :
    Parses P (p >>= next) R := by
  intro names names' b hwf hP hrun
  obtain ⟨a, names₁, hfirst, hsecond⟩ := Hoare.ok_of_bind hrun
  obtain ⟨hwf₁, hgrows₁, hQ⟩ := hp _ _ _ hwf hP hfirst
  obtain ⟨hwf', hgrows', hR⟩ := hnext a _ _ _ hwf₁ hQ hsecond
  exact ⟨hwf', hgrows₁.trans hgrows', hR⟩

theorem Parses.weaken (hp : Parses P p Q) (hPF : ∀ store, F store → P store)
    (hQ : ∀ a store, Q a store → Q' a store) : Parses F p Q' := by
  intro names names' a hwf hF hrun
  obtain ⟨hwf', hgrows, hpost⟩ := hp _ _ _ hwf (hPF _ hF) hrun
  exact ⟨hwf', hgrows, hQ _ _ hpost⟩

/-- What growing keeps is kept by every step. -/
theorem Parses.frame (hp : Parses P p Q)
    (hF : ∀ store store', F store → Store.Grows store store' → F store') :
    Parses (fun store => P store ∧ F store) p fun a store => Q a store ∧ F store := by
  intro names names' a hwf hP hrun
  obtain ⟨hwf', hgrows, hQ⟩ := hp _ _ _ hwf hP.1 hrun
  exact ⟨hwf', hgrows, hQ, hF _ _ hP.2 hgrows⟩

end Parses

theorem of_has_name {name : PyString} {names names' : Names} {known : Bool}
    (h : has_name name names = .ok known names') : names' = names ∧
      known = (names.names.lookup (fullname name none names.default_namespace)).isSome := by
  unfold has_name at h
  by_cases hempty : name = []
  · rw [if_pos hempty] at h
    cases h
  · rw [if_neg hempty] at h
    obtain ⟨hknown, hnames⟩ := EStateM.Result.ok.inj h
    exact ⟨hnames.symm, hknown.symm⟩

theorem definition?_of_isSome {store : Store} {full : PyString}
    (h : (store.lookup full).isSome = true) :
    ∃ definition, store.definition? full = some definition := by
  obtain ⟨schema, hschema⟩ := Option.isSome_iff_exists.1 h
  exact ⟨schema.definition, by rw [Store.definition?, hschema]; rfl⟩

theorem isSome_of_named {full : PyString} {store : Store}
    (h : Schema.WellFormed store (.named full)) : (store.lookup full).isSome = true := by
  cases h with
  | named hdefinition =>
    rw [Store.definition?] at hdefinition
    obtain ⟨schema, hschema, -⟩ := Option.map_eq_some_iff.1 hdefinition
    rw [hschema]
    rfl

/-- A parser for any JSON whose schemas are well-formed. -/
def ParsesSchemas (make_avsc_object : PyObj → Parser Schema) : Prop :=
  ∀ json_data, Parses (fun _ => True) (make_avsc_object json_data) fun s store =>
    s.WellFormed store

theorem parses_resolveType {f : PyObj → Parser Schema} (hf : ParsesSchemas f)
    (catches : AvroException → Bool) (raise : AvroException → Names → AvroException)
    (type : PyObj) :
    Parses (fun _ => True) (resolveType f catches raise type) fun s store =>
      s.WellFormed store := by
  have hmake : Parses (fun _ => True) (reraise (f type) catches raise)
      fun s store => s.WellFormed store := by
    intro names names' s hwf hP hrun
    unfold reraise at hrun
    cases hmake : f type names with
    | ok s' names₁ =>
      rw [hmake] at hrun
      cases hrun
      exact hf type _ _ _ hwf hP hmake
    | error e names₁ =>
      rw [hmake] at hrun
      cases hrun
  unfold resolveType
  cases htype : type.asString with
  | none => exact hmake
  | some name =>
    dsimp only
    intro names names' s hwf hP hrun
    obtain ⟨known, names₁, hhas, hrest⟩ := Hoare.ok_of_bind hrun
    obtain ⟨rfl, hknown⟩ := of_has_name hhas
    cases known with
    | true =>
      cases hrest
      obtain ⟨definition, hdefinition⟩ := definition?_of_isSome hknown.symm
      exact ⟨hwf, Store.Grows.refl _, .named hdefinition⟩
    | false => exact hmake _ _ _ hwf trivial hrest

/-! ## Objects with names -/

theorem of_add_name {name : PyString} {space : Option PyString} {definition : Definition}
    {names names' : Names} {full : PyString}
    (h : add_name name space definition names = .ok full names') :
    full = fullname name space names.default_namespace ∧ VALID_TYPES.lookup full = none ∧
      names.names.lookup full = none ∧
      names' = { names with names := names.names ++
        [(full, ⟨name, space.map fun _ => get_space full, definition⟩)] } := by
  unfold add_name at h
  obtain ⟨names₁, names₂, hget, hrest⟩ := Hoare.ok_of_bind h
  cases hget
  dsimp only at hrest
  split at hrest
  · cases hrest
  · rename_i hreserved
    split at hrest
    · cases hrest
    · rename_i hnew
      cases hrest
      exact ⟨rfl, Option.not_isSome_iff_eq_none.1 hreserved,
        Option.not_isSome_iff_eq_none.1 hnew, rfl⟩

theorem fullname_ne_nil {name_attr : PyString} (h : name_attr ≠ [])
    (space_attr default_space : Option PyString) :
    fullname name_attr space_attr default_space ≠ [] := by
  unfold fullname
  split
  · exact h
  · split
    · exact List.cons_ne_nil _ _
    · exact List.cons_ne_nil _ _
    · exact h

theorem asString_ne_nil {name : PyObj} (htruthy : ¬ name.truthy = false) {chars : PyString}
    (h : name.asString = some chars) : chars ≠ [] := by
  rintro rfl
  cases name with
  | str bytes =>
    have hascii : decodeAscii bytes = some [] := h
    unfold decodeAscii at hascii
    split at hascii
    · obtain rfl := List.map_eq_nil_iff.1 (Option.some.inj hascii)
      exact htruthy rfl
    · cases hascii
  | unicode chars =>
    cases h
    exact htruthy rfl
  | _ => cases h

theorem of_initNamedSchema {name namespace_ : PyObj} {definition : Definition}
    {names names' : Names} {full : PyString}
    (h : initNamedSchema name namespace_ definition names = .ok full names') :
    full ≠ [] ∧ VALID_TYPES.lookup full = none ∧ names.names.lookup full = none ∧
      ∃ (name : PyString) (space : Option PyString), name ≠ [] ∧
        names' = { names with names := names.names ++
          [(full, ⟨name, space.map fun _ => get_space full, definition⟩)] } := by
  unfold initNamedSchema at h
  split at h
  · cases h
  · rename_i htruthy
    split at h
    · cases h
    · rename_i hname
      obtain ⟨rfl, hfree, hnew, hnames⟩ := of_add_name h
      have hne := asString_ne_nil htruthy hname
      exact ⟨fullname_ne_nil hne _ _, hfree, hnew, _, _, hne, hnames⟩
    · rename_i hname _ _
      obtain ⟨rfl, hfree, hnew, hnames⟩ := of_add_name h
      have hne := asString_ne_nil htruthy hname
      exact ⟨fullname_ne_nil hne _ _, hfree, hnew, _, _, hne, hnames⟩
    · cases h

theorem parses_initNamedSchema {definition : Definition}
    (hdefinition : ∀ store, definition.WellFormed store) (name namespace_ : PyObj) :
    Parses (fun _ => True) (initNamedSchema name namespace_ definition) fun full store =>
      store.definition? full = some definition := by
  intro names names' full hwf _ hrun
  obtain ⟨-, -, hnew, name, space, -, rfl⟩ := of_initNamedSchema hrun
  exact ⟨hwf.append hnew (hdefinition _), Store.Grows.append hnew _,
    (definition?_append hnew _ full).trans (if_pos rfl)⟩

/-- An object that contains no other -/
theorem parses_named {definition : Definition}
    (hdefinition : ∀ store, definition.WellFormed store) (name namespace_ : PyObj) :
    Parses (fun _ => True) (do return Schema.named (← initNamedSchema name namespace_ definition))
      fun s store => Schema.WellFormed store s :=
  Parses.bind (parses_initNamedSchema hdefinition name namespace_) fun _ =>
    Parses.pure fun _ hfull => .named hfull

theorem Definition.WellFormed.fixed (store : Store) (size : ℤ) :
    Definition.WellFormed store (.fixed size) where
  symbols _ h := by cases h
  names _ h := by cases h
  types _ h := by cases h

theorem Definition.WellFormed.enum (store : Store) {symbols : List PyString}
    (h : symbols.Nodup) : Definition.WellFormed store (.enum symbols) where
  symbols _ heq := by cases heq; exact h
  names _ h := by cases h
  types _ h := by cases h

theorem parses_initFixedSchema (name namespace_ size : PyObj) :
    Parses (fun _ => True) (initFixedSchema name namespace_ size) fun s store =>
      s.WellFormed store :=
  Parses.bind (Parses.ofExcept _) fun size =>
    parses_named (fun store => .fixed store size) name namespace_

theorem parses_initEnumSchema (name namespace_ symbols : PyObj) :
    Parses (fun _ => True) (initEnumSchema name namespace_ symbols) fun s store =>
      s.WellFormed store := by
  unfold initEnumSchema
  cases symbols with
  | list symbols =>
    dsimp only
    cases symbols.mapM PyObj.asString with
    | none => exact Parses.throw _
    | some names =>
      dsimp only
      split
      · exact Parses.throw_bind _
      · rename_i hnodup
        exact parses_named (fun store => .enum store (not_not.1 hnodup)) name namespace_
  | _ => exact Parses.throw _

/-! ## Records -/

def FieldsWellFormed (fields : List Field) (store : Store) : Prop :=
  (fields.map Field.name).Nodup ∧ ∀ field ∈ fields, field.type.WellFormed store

theorem FieldsWellFormed.nil (store : Store) : FieldsWellFormed [] store :=
  ⟨List.nodup_nil, nofun⟩

theorem FieldsWellFormed.grows (fields : List Field) (store store' : Store)
    (h : FieldsWellFormed fields store) (hgrows : store.Grows store') :
    FieldsWellFormed fields store' :=
  ⟨h.1, fun field hmem => (h.2 field hmem).grows hgrows⟩

theorem parses_initField {f : PyObj → Parser Schema} (hf : ParsesSchemas f) (type name : PyObj)
    (has_default : Bool) (default order : PyObj) :
    Parses (fun _ => True) (initField f type name has_default default order) fun field store =>
      field.type.WellFormed store := by
  unfold initField
  dsimp only
  split
  · exact Parses.throw_bind _
  · cases name.asString with
    | none => exact Parses.throw _
    | some name =>
      exact Parses.bind (Parses.ofExcept _) fun order =>
        Parses.bind (parses_resolveType hf _ _ _) fun s => Parses.pure fun _ h => h

theorem parses_make_field_objects {f : PyObj → Parser Schema} (hf : ParsesSchemas f)
    (field_objects : List Field) (field_data : List PyObj) :
    Parses (FieldsWellFormed field_objects) (make_field_objects f field_objects field_data)
      FieldsWellFormed := by
  induction field_data generalizing field_objects with
  | nil => exact Parses.pure fun _ h => h
  | cons field field_data ih =>
    cases field with
    | dict field =>
      unfold make_field_objects
      dsimp only
      refine Parses.bind (((parses_initField hf _ _ _ _ _).frame
        (FieldsWellFormed.grows field_objects)).weaken (fun _ h => ⟨trivial, h⟩) fun _ _ h => h)
        fun new_field => ?_
      split
      · exact Parses.throw_bind _
      · rename_i hnew
        refine (ih (field_objects ++ [new_field])).weaken ?_ fun _ _ h => h
        rintro store ⟨htype, hnodup, htypes⟩
        refine ⟨?_, fun field hmem => ?_⟩
        · rw [List.map_append, List.map_singleton]
          exact List.nodup_append.2 ⟨hnodup, List.nodup_singleton _, fun name hmem name' hmem' => by
            rw [List.mem_singleton.1 hmem']
            rintro rfl
            exact hnew hmem⟩
        · rcases List.mem_append.1 hmem with hold | hlast
          · exact htypes field hold
          · rw [List.mem_singleton.1 hlast]
            exact htype
    | _ => exact Parses.throw _

/-- The two definitions that have fields. -/
structure IsRecord (definition : List Field → Definition) : Prop where
  fields : ∀ fields, (definition fields).fields? = some fields
  symbols : ∀ fields symbols, definition fields ≠ .enum symbols
  type : ∀ fields fields', (definition fields).type = (definition fields').type

theorem IsRecord.record : IsRecord Definition.record := ⟨fun _ => rfl, nofun, fun _ _ => rfl⟩

theorem IsRecord.error : IsRecord Definition.error := ⟨fun _ => rfl, nofun, fun _ _ => rfl⟩

theorem IsRecord.wellFormed {definition : List Field → Definition} (h : IsRecord definition)
    {fields : List Field} {store : Store} (hfields : FieldsWellFormed fields store) :
    (definition fields).WellFormed store where
  symbols symbols heq := absurd heq (h.symbols fields symbols)
  names fields' heq := by
    rw [h.fields] at heq
    cases heq
    exact hfields.1
  types fields' heq := by
    rw [h.fields] at heq
    cases heq
    exact hfields.2

theorem parses_get {P : Store → Prop} :
    Parses P get fun names store => P store ∧ names.names = store := by
  intro names names' _ hwf hP hrun
  cases hrun
  exact ⟨hwf, Store.Grows.refl _, hP, rfl⟩

theorem parses_setDefaultNamespace {P : Store → Prop} (schema_type : SchemaType)
    (default_namespace : Option PyString) :
    Parses P (setDefaultNamespace schema_type default_namespace) fun _ store => P store := by
  intro names names' _ hwf hP hrun
  cases hrun
  exact ⟨hwf, Store.Grows.refl _, hP⟩

theorem parses_setDefinition {definition : List Field → Definition} (h : IsRecord definition)
    (full : PyString) (fields : List Field) :
    Parses (fun store => FieldsWellFormed fields store ∧
        ∃ old, store.definition? full = some old ∧ old.type = (definition []).type)
      (modify fun names =>
        { names with names := names.names.setDefinition full (definition fields) })
      fun _ store => ∃ new, store.definition? full = some new := by
  rintro names names' _ hwf ⟨hfields, old, hold, htype⟩ hrun
  cases hrun
  obtain ⟨hwf', hgrows⟩ := hwf.setDefinition hold ((h.type fields []).trans htype.symm)
    (h.wellFormed hfields)
  obtain ⟨new, hnew, -⟩ := hgrows full old hold
  exact ⟨hwf', hgrows, new, hnew⟩

theorem parses_initRecordSchema {f : PyObj → Parser Schema} (hf : ParsesSchemas f)
    (schema_type : SchemaType) {definition : List Field → Definition} (h : IsRecord definition)
    (name namespace_ fields : PyObj) :
    Parses (fun _ => True) (initRecordSchema f schema_type definition name namespace_ fields)
      fun s store => s.WellFormed store := by
  unfold initRecordSchema
  cases fields with
  | list fields =>
    refine Parses.bind (parses_initNamedSchema (fun store => h.wellFormed (.nil store)) name
      namespace_) fun full => ?_
    refine Parses.bind (parses_get.weaken (fun _ h => h) fun _ _ h => h.1) fun _ => ?_
    refine Parses.bind (parses_setDefaultNamespace _ _) fun _ => ?_
    -- while the fields are built, the object of the record is in the store without them
    have hobjects := ((parses_make_field_objects hf [] fields).frame
      (F := fun store => ∃ old, store.definition? full = some old ∧
        old.type = (definition []).type) fun store store' hold hgrows => by
      obtain ⟨old, hname, htype⟩ := hold
      obtain ⟨old', hname', htype'⟩ := hgrows full old hname
      exact ⟨old', hname', htype'.trans htype⟩).weaken
      (fun store hfull => ⟨FieldsWellFormed.nil store, definition [], hfull, rfl⟩)
      fun _ _ hpost => hpost
    refine Parses.bind hobjects fun field_objects => ?_
    refine Parses.bind (parses_setDefinition h full field_objects) fun _ => ?_
    refine Parses.bind (parses_setDefaultNamespace _ _) fun _ => ?_
    exact Parses.pure fun store ⟨new, hnew⟩ => .named hnew
  | _ => exact Parses.throw _

/-! ## Unions -/

def UnionWellFormed (schemas : List Schema) (store : Store) : Prop :=
  Schema.WellFormed store (.union schemas)

theorem UnionWellFormed.grows (schemas : List Schema) (store store' : Store)
    (h : UnionWellFormed schemas store) (hgrows : store.Grows store') :
    UnionWellFormed schemas store' :=
  Schema.WellFormed.grows h hgrows

theorem UnionWellFormed.snoc {schemas : List Schema} {new_schema : Schema} {store : Store}
    (h : UnionWellFormed schemas store) (hnew : new_schema.WellFormed store)
    (hunion : new_schema.type store ≠ some .union)
    (htype : ¬((new_schema.type store).all isNamedType = false ∧
      new_schema.type store ∈ schemas.map (Schema.type store))) :
    UnionWellFormed (schemas ++ [new_schema]) store := by
  cases h with
  | union hs hunions htypes =>
    refine .union (fun s hmem => ?_) (fun s hmem => ?_) (List.pairwise_append.2
      ⟨htypes, List.pairwise_singleton _ _, fun s hmem s' hmem' heq => ?_⟩)
    · rcases List.mem_append.1 hmem with hold | hlast
      · exact hs s hold
      · rwa [List.mem_singleton.1 hlast]
    · rcases List.mem_append.1 hmem with hold | hlast
      · exact hunions s hold
      · rwa [List.mem_singleton.1 hlast]
    · rw [List.mem_singleton.1 hmem'] at heq ⊢
      by_contra hunnamed
      exact htype ⟨Bool.eq_false_iff.2 hunnamed, heq ▸ List.mem_map_of_mem hmem⟩

theorem parses_makeUnion {f : PyObj → Parser Schema} (hf : ParsesSchemas f)
    (schema_objects : List Schema) (schemas : List PyObj) :
    Parses (UnionWellFormed schema_objects) (makeUnion f schema_objects schemas)
      UnionWellFormed := by
  induction schemas generalizing schema_objects with
  | nil => exact Parses.pure fun _ h => h
  | cons schema schemas ih =>
    unfold makeUnion
    refine Parses.bind (((parses_resolveType hf _ _ _).frame
      (UnionWellFormed.grows schema_objects)).weaken (fun _ h => ⟨trivial, h⟩) fun _ _ h => h)
      fun new_schema => ?_
    refine Parses.bind parses_get fun names => ?_
    dsimp only
    split
    · exact Parses.throw _
    · rename_i htype
      split
      · exact Parses.throw _
      · rename_i hunion
        refine (ih (schema_objects ++ [new_schema])).weaken ?_ fun _ _ h => h
        rintro _ ⟨⟨hnew, hobjects⟩, rfl⟩
        exact UnionWellFormed.snoc hobjects hnew hunion htype

theorem parses_initUnionSchema {f : PyObj → Parser Schema} (hf : ParsesSchemas f)
    (schemas : PyObj) :
    Parses (fun _ => True) (initUnionSchema f schemas) fun s store => s.WellFormed store := by
  unfold initUnionSchema
  cases schemas with
  | list schemas =>
    exact Parses.bind ((parses_makeUnion hf [] schemas).weaken
      (fun store _ => .union nofun nofun List.Pairwise.nil) fun _ _ h => h) fun schema_objects =>
        Parses.pure fun _ h => h
  | _ => exact Parses.throw _

theorem parses_initErrorUnionSchema {f : PyObj → Parser Schema} (hf : ParsesSchemas f)
    (schemas : PyObj) :
    Parses (fun _ => True) (initErrorUnionSchema f schemas) fun s store => s.WellFormed store := by
  unfold initErrorUnionSchema
  cases schemas with
  | list schemas => exact parses_initUnionSchema hf _
  | _ => exact Parses.throw _

/-! ## All schemas -/

theorem parses_make_avsc_object (limit : ℕ) : ParsesSchemas (make_avsc_object limit) := by
  induction limit with
  | zero => exact fun _ => Parses.throw _
  | succ limit ih =>
    intro json_data
    unfold make_avsc_object
    cases json_data with
    | dict json_data =>
      dsimp only
      split
      · exact Parses.pure fun _ _ => .primitive _
      · exact parses_initFixedSchema _ _ _
      · exact parses_initEnumSchema _ _ _
      · exact parses_initRecordSchema ih _ .record _ _ _
      · exact parses_initRecordSchema ih _ .error _ _ _
      · exact Parses.bind (parses_resolveType ih _ _ _) fun s => Parses.pure fun _ h => .array h
      · exact Parses.bind (parses_resolveType ih _ _ _) fun s => Parses.pure fun _ h => .map h
      · exact parses_initErrorUnionSchema ih _
      · exact Parses.throw _
      · exact Parses.throw _
      · split <;> exact Parses.throw _
    | list schemas => exact parses_initUnionSchema ih _
    | _ =>
      dsimp only
      split
      · exact Parses.pure fun _ _ => .primitive _
      · exact Parses.throw _

/-- What `parse` returns is well-formed. -/
theorem SchemaObject.wellFormed_of_parse {limit : ℕ} {json_data : Option PyObj}
    {object : SchemaObject} (h : parse limit json_data = .ok object) :
    object.schema.WellFormed object.store ∧ object.store.WellFormed := by
  unfold parse at h
  cases json_data with
  | none => cases h
  | some json_data =>
    dsimp only at h
    cases hrun : make_avsc_object limit json_data ⟨[], none⟩ with
    | error e names =>
      rw [hrun] at h
      cases h
    | ok schema names =>
      rw [hrun] at h
      cases h
      have hempty : Store.WellFormed [] := fun _ _ hname => by cases hname
      obtain ⟨hwf, -, hschema⟩ :=
        parses_make_avsc_object limit json_data _ _ _ hempty trivial hrun
      exact ⟨hschema, hwf⟩

end HadoopExamples.Avro
