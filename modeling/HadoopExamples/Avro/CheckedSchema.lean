import HadoopExamples.Avro.WellFormed

set_option autoImplicit false

/-! # What the constructors have checked

The names, sizes, orders and defaults of the objects that `parse` returns. -/

namespace HadoopExamples.Avro

open Python

/-! ## What the constructors check -/

structure Field.Checked (field : Field) : Prop where
  name : field.name ≠ []
  default : field.has_default = false → field.default = .none
  order : ∀ order, field.order = some order → order ∈ VALID_FIELD_SORT_ORDERS

structure Definition.Checked (definition : Definition) : Prop where
  size : ∀ size, definition = .fixed size → -2 ^ 63 ≤ size ∧ size < 2 ^ 63
  fields : ∀ fields, definition.fields? = some fields → ∀ field ∈ fields, field.Checked

structure NamedSchema.Checked (full : PyString) (obj : NamedSchema) : Prop where
  name : obj.name ≠ []
  nonempty : full ≠ []
  free : VALID_TYPES.lookup full = none
  space : ∀ space, obj.space = some space → space = get_space full
  definition : obj.definition.Checked

def Store.Checked (store : Store) : Prop := ∀ entry ∈ store, entry.2.Checked entry.1

theorem Store.Checked.of_lookup {store : Store} (h : store.Checked) {full : PyString}
    {obj : NamedSchema} (hobj : store.lookup full = some obj) : obj.Checked full := by
  obtain ⟨before, behind, rfl, -⟩ := List.lookup_eq_some_iff.1 hobj
  exact h (full, obj) (List.mem_append_right _ List.mem_cons_self)

/-! ## Schemas that are parsed -/

/-- From a store whose objects have been checked, the step comes to such a store, and returns with
    `Q`. -/
def ParsesChecked {α : Type} (p : Parser α) (Q : α → Prop) : Prop :=
  Hoare.Triple (fun names => names.names.Checked) p (fun a names => Q a ∧ names.names.Checked)
    fun _ _ => True

section Parsed

variable {α β : Type} {Q : α → Prop} {R : β → Prop} {p : Parser α} {next : α → Parser β}
  {f : PyObj → Parser Schema}

theorem ParsesChecked.pure {a : α} (h : Q a) : ParsesChecked (pure a) Q :=
  Hoare.Triple.pure fun _ hnames => ⟨h, hnames⟩

theorem ParsesChecked.throw (e : AvroException) : ParsesChecked (throw e : Parser α) Q :=
  fun _ _ => trivial

theorem ParsesChecked.bind (hp : ParsesChecked p Q)
    (hnext : ∀ a, Q a → ParsesChecked (next a) R) : ParsesChecked (p >>= next) R :=
  Hoare.Triple.bind hp fun a names hnames => hnext a hnames.1 names hnames.2

theorem ParsesChecked.throw_bind (e : AvroException) :
    ParsesChecked ((MonadExcept.throw e : Parser α) >>= next) R :=
  fun _ _ => trivial

theorem ParsesChecked.ofExcept {e : Except AvroException α} (h : ∀ a, e = .ok a → Q a) :
    ParsesChecked (ofExcept e) Q := by
  cases e with
  | error e => exact .throw e
  | ok a => exact .pure (h a rfl)

theorem parsesChecked_resolveType
    (h : ∀ json_data, ParsesChecked (f json_data) fun _ => True)
    (catches : AvroException → Bool) (raise : AvroException → Names → AvroException)
    (type : PyObj) :
    ParsesChecked (resolveType f catches raise type) fun _ => True := by
  have hmake : ParsesChecked (reraise (f type) catches raise) fun _ => True := by
    intro names hnames
    have hrun := h type names hnames
    unfold reraise
    cases hmake : f type names with
    | ok s names' =>
      rw [hmake] at hrun
      exact hrun
    | error e names' => trivial
  unfold resolveType
  cases type.asString with
  | none => exact hmake
  | some name =>
    refine ParsesChecked.bind (Q := fun _ => True) ?_ fun known _ => ?_
    · unfold has_name
      split
      · exact .throw_bind _
      · exact fun _ hnames => ⟨trivial, hnames⟩
    · cases known with
      | true => exact fun _ hnames => ⟨trivial, hnames⟩
      | false => exact hmake

theorem parsesChecked_initNamedSchema (name namespace_ : PyObj) {definition : Definition}
    (h : definition.Checked) :
    ParsesChecked (initNamedSchema name namespace_ definition) fun _ => True := by
  intro names hnames
  cases hrun : initNamedSchema name namespace_ definition names with
  | error e names' => trivial
  | ok full names' =>
    obtain ⟨hfull, hfree, -, name, space, hname, rfl⟩ := of_initNamedSchema hrun
    -- only the object that is added last is new
    refine ⟨trivial, List.forall_mem_append.2 ⟨hnames, List.forall_mem_singleton.2 ?_⟩⟩
    refine ⟨hname, hfull, hfree, fun space' hspace => ?_, h⟩
    obtain ⟨-, -, rfl⟩ := Option.map_eq_some_iff.1 hspace
    rfl

theorem parsesChecked_named (name namespace_ : PyObj) {definition : Definition}
    (h : definition.Checked) :
    ParsesChecked (do return Schema.named (← initNamedSchema name namespace_ definition))
      fun _ => True :=
  .bind (parsesChecked_initNamedSchema name namespace_ h) fun _ _ => .pure trivial

theorem of_checkSize {size : PyObj} {n : ℤ} (h : checkSize size = .ok n) :
    -2 ^ 63 ≤ n ∧ n < 2 ^ 63 := by
  unfold checkSize at h
  split at h
  · split at h
    · rename_i hsize
      cases h
      exact hsize
    · cases h
  · rename_i b
    cases h
    cases b <;> decide
  · cases h

theorem parsesChecked_initFixedSchema (name namespace_ size : PyObj) :
    ParsesChecked (initFixedSchema name namespace_ size) fun _ => True := by
  unfold initFixedSchema
  refine .bind (.ofExcept fun n h => of_checkSize h) fun n hn => parsesChecked_named _ _ ⟨?_, ?_⟩
  · rintro _ ⟨⟩
    exact hn
  · rintro _ ⟨⟩

theorem parsesChecked_initEnumSchema (name namespace_ symbols : PyObj) :
    ParsesChecked (initEnumSchema name namespace_ symbols) fun _ => True := by
  unfold initEnumSchema
  cases symbols with
  | list symbols =>
    dsimp only
    cases symbols.mapM PyObj.asString with
    | none => exact .throw _
    | some names =>
      dsimp only
      split
      · exact .throw_bind _
      · refine parsesChecked_named _ _ ⟨?_, ?_⟩
        · rintro _ ⟨⟩
        · rintro _ ⟨⟩
  | _ => exact .throw _

theorem of_checkOrder {order : PyObj} {checked : Option PyString}
    (h : checkOrder order = .ok checked) :
    ∀ o, checked = some o → o ∈ VALID_FIELD_SORT_ORDERS := by
  unfold checkOrder at h
  split at h
  · cases h
    nofun
  · split at h
    · rename_i hvalid
      cases h
      rintro _ ⟨⟩
      exact hvalid
    · cases h
  · cases h

theorem parsesChecked_initField
    (h : ∀ json_data, ParsesChecked (f json_data) fun _ => True)
    (type name : PyObj) (has_default : Bool) (default order : PyObj) :
    ParsesChecked (initField f type name has_default default order)
      Field.Checked := by
  unfold initField
  dsimp only
  split
  · exact .throw_bind _
  · rename_i htruthy
    cases hname : name.asString with
    | none => exact .throw _
    | some name =>
      refine .bind (.ofExcept fun _ horder => of_checkOrder horder) fun order horder => ?_
      refine .bind (parsesChecked_resolveType h _ _ _) fun s _ => .pure ⟨?_, ?_, horder⟩
      · exact asString_ne_nil htruthy hname
      · rintro rfl
        rfl

theorem parsesChecked_make_field_objects
    (h : ∀ json_data, ParsesChecked (f json_data) fun _ => True)
    {field_objects : List Field} (hdone : ∀ field ∈ field_objects, field.Checked)
    (field_data : List PyObj) :
    ParsesChecked (make_field_objects f field_objects field_data)
      fun fields => ∀ field ∈ fields, field.Checked := by
  induction field_data generalizing field_objects with
  | nil => exact .pure hdone
  | cons field field_data ih =>
    cases field with
    | dict field =>
      unfold make_field_objects
      dsimp only
      refine .bind (parsesChecked_initField h _ _ _ _ _) fun new_field hfield => ?_
      split
      · exact .throw_bind _
      · exact ih (List.forall_mem_append.2 ⟨hdone, List.forall_mem_singleton.2 hfield⟩)
    | _ => exact .throw _

theorem Store.Checked.setDefinition {store : Store} (h : store.Checked) (full : PyString)
    {definition : Definition} (hdefinition : definition.Checked) :
    (store.setDefinition full definition).Checked := by
  refine List.forall_mem_map.2 fun entry hentry => ?_
  dsimp only
  split
  · exact { h entry hentry with definition := hdefinition }
  · exact h entry hentry

theorem parsesChecked_initRecordSchema
    (h : ∀ json_data, ParsesChecked (f json_data) fun _ => True)
    (schema_type : SchemaType) {definition : List Field → Definition}
    (hrecord : IsRecord definition) (hsize : ∀ fields size, definition fields ≠ .fixed size)
    (name namespace_ fields : PyObj) :
    ParsesChecked (initRecordSchema f schema_type definition name namespace_ fields)
      fun _ => True := by
  have hchecked : ∀ fields : List Field, (∀ field ∈ fields, field.Checked) →
      (definition fields).Checked := by
    refine fun fields hfields => ⟨fun size heq => absurd heq (hsize fields size), ?_⟩
    rw [hrecord.fields]
    rintro _ ⟨⟩
    exact hfields
  unfold initRecordSchema
  cases fields with
  | list fields =>
    have hnone : ∀ field ∈ ([] : List Field), field.Checked := fun _ h => absurd h List.not_mem_nil
    refine .bind (parsesChecked_initNamedSchema _ _ (hchecked [] hnone)) fun full _ => ?_
    refine .bind (Q := fun _ => True) (fun _ hnames => ⟨trivial, hnames⟩) fun names _ => ?_
    refine .bind (Q := fun _ => True) (fun _ hnames => ⟨trivial, hnames⟩) fun _ _ => ?_
    refine .bind (parsesChecked_make_field_objects h hnone fields) fun field_objects hfields => ?_
    refine .bind (Q := fun _ => True) (fun names hnames =>
      ⟨trivial, hnames.setDefinition full (hchecked field_objects hfields)⟩) fun _ _ => ?_
    exact fun _ hnames => ⟨trivial, hnames⟩
  | _ => exact .throw _

theorem parsesChecked_makeUnion
    (h : ∀ json_data, ParsesChecked (f json_data) fun _ => True)
    (schema_objects : List Schema) (schemas : List PyObj) :
    ParsesChecked (makeUnion f schema_objects schemas) fun _ => True := by
  induction schemas generalizing schema_objects with
  | nil => exact .pure trivial
  | cons schema schemas ih =>
    unfold makeUnion
    refine .bind (parsesChecked_resolveType h _ _ _) fun new_schema _ => ?_
    refine .bind (Q := fun _ => True) (fun _ hnames => ⟨trivial, hnames⟩) fun names _ => ?_
    dsimp only
    split
    · exact .throw _
    · split
      · exact .throw _
      · exact ih (schema_objects ++ [new_schema])

theorem parsesChecked_initUnionSchema
    (h : ∀ json_data, ParsesChecked (f json_data) fun _ => True)
    (schemas : PyObj) :
    ParsesChecked (initUnionSchema f schemas) fun _ => True := by
  unfold initUnionSchema
  cases schemas with
  | list schemas =>
    exact .bind (parsesChecked_makeUnion h [] schemas) fun _ _ => .pure trivial
  | _ => exact .throw _

theorem parsesChecked_make_avsc_object (limit : ℕ) (json_data : PyObj) :
    ParsesChecked (make_avsc_object limit json_data) fun _ => True := by
  induction limit generalizing json_data with
  | zero => exact .throw _
  | succ limit ih =>
    unfold make_avsc_object
    cases json_data with
    | dict json_data =>
      dsimp only
      split
      · exact .pure trivial
      · exact parsesChecked_initFixedSchema _ _ _
      · exact parsesChecked_initEnumSchema _ _ _
      · exact parsesChecked_initRecordSchema ih _ .record nofun _ _ _
      · exact parsesChecked_initRecordSchema ih _ .error nofun _ _ _
      · exact .bind (parsesChecked_resolveType ih _ _ _) fun _ _ => .pure trivial
      · exact .bind (parsesChecked_resolveType ih _ _ _) fun _ _ => .pure trivial
      · unfold initErrorUnionSchema
        split
        · exact parsesChecked_initUnionSchema ih _
        · exact .throw _
      · exact .throw _
      · exact .throw _
      · split <;> exact .throw _
    | list schemas => exact parsesChecked_initUnionSchema ih _
    | _ =>
      dsimp only
      split
      · exact .pure trivial
      · exact .throw _

theorem SchemaObject.checked_of_parse {limit : ℕ} {json_data : Option PyObj}
    {object : SchemaObject} (h : parse limit json_data = .ok object) : object.store.Checked := by
  unfold parse at h
  cases json_data with
  | none => cases h
  | some json_data =>
    have hmake := parsesChecked_make_avsc_object limit json_data ⟨[], none⟩ nofun
    dsimp only at h
    cases hrun : make_avsc_object limit json_data ⟨[], none⟩ with
    | error e names =>
      rw [hrun] at h
      cases h
    | ok schema names =>
      rw [hrun] at h hmake
      cases h
      exact hmake.2

end Parsed

end HadoopExamples.Avro
