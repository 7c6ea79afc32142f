import Mathlib.Order.Filter.AtTopBot.Finite
import HadoopExamples.Avro.SchemaText

set_option autoImplicit false

/-! # Schemas that are read back from their text

What is printed of a schema is read step by step as it was printed: behind the same objects, in the
same default namespace, with the same schema as the result (`ReadsBack`). So a schema that has been
parsed and is `Printable` is what `parse` makes of its own text (`parse_to_json`). -/

namespace HadoopExamples.Avro

open Python Filter

section ReadBack

variable {host : Host} {store : Store} {limit : ℕ} {default_namespace : Option PyString}

/-- Printed after `seen`, the schema is read as it is where the objects in `seen` are there. -/
structure ReadsBack (host : Host) (store : Store) (limit : ℕ) (default_namespace : Option PyString)
    (seen : List PyString) (s : Schema) (json : PyObj) (seen' : List PyString) : Prop where
  printed : ∀ n ≥ limit, to_json host store n s seen = .ok json seen'
  resolved : ∀ n ≥ limit, ∀ opened ⊆ seen, ∀ catches raise,
    resolveType (make_avsc_object n) catches raise json ⟨store.part opened seen, default_namespace⟩
      = .ok s ⟨store.part opened seen', default_namespace⟩
  made : (∀ full, s = .named full → full ∉ seen) → ∀ n ≥ limit, ∀ opened ⊆ seen,
    make_avsc_object n json ⟨store.part opened seen, default_namespace⟩
      = .ok s ⟨store.part opened seen', default_namespace⟩
  subset : seen ⊆ seen'
  nodup : seen.Nodup → seen'.Nodup
  known : ∀ full, s = .named full → full ∈ seen'

/-- One schema after the other. -/
inductive AllReadBack (host : Host) (store : Store) (limit : ℕ)
    (default_namespace : Option PyString) :
    List PyString → List Schema → List PyObj → List PyString → Prop
  | nil (seen : List PyString) : AllReadBack host store limit default_namespace seen [] [] seen
  | cons {seen seen₁ seen' : List PyString} {s : Schema} {schemas : List Schema} {json : PyObj}
    {jsons : List PyObj} (h : ReadsBack host store limit default_namespace seen s json seen₁)
    (hs : AllReadBack host store limit default_namespace seen₁ schemas jsons seen') :
    AllReadBack host store limit default_namespace seen (s :: schemas) (json :: jsons) seen'

section Many

variable {seen seen' : List PyString} {schemas : List Schema} {jsons : List PyObj}

theorem AllReadBack.subset
    (h : AllReadBack host store limit default_namespace seen schemas jsons seen') :
    seen ⊆ seen' := by
  induction h with
  | nil seen => exact List.Subset.refl seen
  | cons h _ ih => exact List.Subset.trans h.subset ih

theorem AllReadBack.nodup
    (h : AllReadBack host store limit default_namespace seen schemas jsons seen') :
    seen.Nodup → seen'.Nodup := by
  induction h with
  | nil seen => exact id
  | cons h _ ih => exact ih ∘ h.nodup

theorem AllReadBack.printed {n : ℕ} (hn : n ≥ limit)
    (h : AllReadBack host store limit default_namespace seen schemas jsons seen') :
    schemas.mapM (to_json host store n) seen = .ok jsons seen' := by
  induction h with
  | nil seen => rfl
  | cons h _ ih =>
    rw [List.mapM_cons]
    exact (Hoare.bind_of_ok (h.printed n hn)).trans ((Hoare.bind_of_ok ih).trans rfl)

theorem AllReadBack.printed_fields {n : ℕ} (hn : n ≥ limit) {fields : List Field}
    (h : AllReadBack host store limit default_namespace seen (fields.map Field.type) jsons seen') :
    fieldsToJson host (to_json host store n) fields seen
      = .ok (List.zipWith (Field.props host) fields jsons) seen' := by
  unfold fieldsToJson
  induction fields generalizing seen jsons with
  | nil =>
    cases h
    rfl
  | cons field fields ih =>
    cases h with
    | cons h hs =>
      rename_i seen₁ json jsons
      have hfield : (do return field.props host (← to_json host store n field.type) :
          Printer PyObj) seen = .ok (field.props host json) seen₁ :=
        Hoare.bind_of_ok (h.printed n hn)
      rw [List.mapM_cons]
      exact (Hoare.bind_of_ok hfield).trans ((Hoare.bind_of_ok (ih hs)).trans rfl)

theorem AllReadBack.read_fields {n : ℕ} (hn : n ≥ limit) {opened : List PyString}
    {done fields : List Field} (hchecked : ∀ field ∈ fields, field.Checked)
    (hnodup : ((done ++ fields).map Field.name).Nodup) (hopened : opened ⊆ seen)
    (h : AllReadBack host store limit default_namespace seen (fields.map Field.type) jsons seen') :
    make_field_objects (make_avsc_object n) done (List.zipWith (Field.props host) fields jsons)
        ⟨store.part opened seen, default_namespace⟩
      = .ok (done ++ fields) ⟨store.part opened seen', default_namespace⟩ := by
  induction fields generalizing done seen jsons with
  | nil =>
    cases h
    rw [List.append_nil]
    rfl
  | cons field fields ih =>
    cases h with
    | cons h hs =>
      rename_i seen₁ json jsons
      obtain ⟨hfield, hfields⟩ := List.forall_mem_cons.1 hchecked
      obtain ⟨json_data, heq, htype, hname, hhas, hdefault, horder⟩ :=
        @Field.props_eq host field hfield json
      rw [List.zipWith_cons_cons, heq]
      unfold make_field_objects
      rw [htype, hname, hhas, hdefault, horder]
      refine (Hoare.bind_of_ok (initField_printed hfield (h.resolved n hn opened hopened))).trans ?_
      rw [List.append_cons] at hnodup
      have hnew : field.name ∉ done.map Field.name := by
        rw [List.map_append, List.map_append, List.map_singleton] at hnodup
        intro hmem
        exact (List.nodup_append.1 (List.nodup_append.1 hnodup).1).2.2 _ hmem _
          List.mem_cons_self rfl
      rw [if_neg hnew]
      have hrest := ih hfields hnodup (List.Subset.trans hopened h.subset) hs
      rwa [List.append_assoc, List.singleton_append] at hrest

theorem AllReadBack.read_union {n : ℕ} (hn : n ≥ limit) {opened : List PyString}
    {done : List Schema}
    (hunion : Schema.WellFormed store (.union (done ++ schemas))) (hopened : opened ⊆ seen)
    (hdone : ∀ s ∈ done, ∀ full, s = .named full → full ∈ seen)
    (h : AllReadBack host store limit default_namespace seen schemas jsons seen') :
    makeUnion (make_avsc_object n) done jsons ⟨store.part opened seen, default_namespace⟩
      = .ok (done ++ schemas) ⟨store.part opened seen', default_namespace⟩ := by
  induction h generalizing done with
  | nil seen =>
    rw [List.append_nil]
    rfl
  | cons h hs ih =>
    rename_i seen seen₁ seen' s schemas json jsons
    unfold makeUnion
    refine (Hoare.bind_of_ok (h.resolved n hn opened hopened _ _)).trans ?_
    refine (Hoare.bind_of_ok rfl).trans ?_
    have hdone' : ∀ s' ∈ done ++ [s], ∀ full, s' = .named full → full ∈ seen₁ := by
      refine List.forall_mem_append.2 ⟨fun s' hs' full heq => h.subset (hdone s' hs' full heq), ?_⟩
      exact List.forall_mem_singleton.2 h.known
    have htypes : done.map (Schema.type (store.part opened seen₁))
        = done.map (Schema.type store) :=
      List.map_congr_left fun s' hs' => type_part (hdone' s' (List.mem_append_left _ hs'))
    cases hunion with
    | union hwf hnounion hpairs =>
      dsimp only
      -- the checks are on types in the half read store, which are those in the whole one
      rw [htypes, type_part h.known, if_neg, if_neg (hnounion s (by simp))]
      · have hrest := @ih (done ++ [s]) (by
          rw [List.append_assoc, List.singleton_append]
          exact .union hwf hnounion hpairs) (List.Subset.trans hopened h.subset) hdone'
        rwa [List.append_assoc, List.singleton_append] at hrest
      · rintro ⟨hunnamed, hmem⟩
        obtain ⟨s', hs', htype⟩ := List.mem_map.1 hmem
        have hpair := (List.pairwise_append.1 hpairs).2.2 s' hs' s List.mem_cons_self htype.symm
        rw [hunnamed] at hpair
        cases hpair

theorem AllReadBack.of_foldlM
    (h : ∀ s ∈ schemas, ∀ seen seen', printable store limit default_namespace s seen = some seen' →
      ∃ json, ReadsBack host store limit default_namespace seen s json seen')
    (hfold : schemas.foldlM (fun seen s => printable store limit default_namespace s seen) seen
      = some seen') :
    ∃ jsons, AllReadBack host store limit default_namespace seen schemas jsons seen' := by
  induction schemas generalizing seen with
  | nil =>
    cases hfold
    exact ⟨[], .nil _⟩
  | cons s schemas ih =>
    rw [List.foldlM_cons] at hfold
    obtain ⟨seen₁, hfirst, hrest⟩ := Option.bind_eq_some_iff.1 hfold
    obtain ⟨hs, hschemas⟩ := List.forall_mem_cons.1 h
    obtain ⟨json, hjson⟩ := hs seen seen₁ hfirst
    obtain ⟨jsons, hjsons⟩ := ih hschemas hrest
    exact ⟨json :: jsons, .cons hjson hjsons⟩

theorem AllReadBack.of_fields {fields : List Field}
    (h : ∀ field ∈ fields, ∀ seen seen',
      printable store limit default_namespace field.type seen = some seen' →
      ∃ json, ReadsBack host store limit default_namespace seen field.type json seen')
    (hfold : fields.foldlM (fun seen field =>
      printable store limit default_namespace field.type seen) seen = some seen') :
    ∃ jsons, AllReadBack host store limit default_namespace seen (fields.map Field.type) jsons
      seen' :=
  AllReadBack.of_foldlM (List.forall_mem_map.2 h) (List.foldlM_map.trans hfold)

end Many

/-! ## All of it -/

section All

variable {seen seen' : List PyString} {s : Schema} {json : PyObj} {full : PyString}

theorem resolveType_of_made {make_avsc_object : PyObj → Parser Schema}
    {names names' : Names} (h : make_avsc_object json names = .ok s names')
    (hname : ∀ name, json.asString = some name →
      name ≠ [] ∧ names.names.lookup (fullname name none names.default_namespace) = none)
    (catches : AvroException → Bool) (raise : AvroException → Names → AvroException) :
    resolveType make_avsc_object catches raise json names = .ok s names' := by
  have hmake : reraise (make_avsc_object json) catches raise names = .ok s names' := by
    unfold reraise
    rw [h]
  unfold resolveType
  cases hjson : json.asString with
  | none => exact hmake
  | some name =>
    obtain ⟨hne, hnone⟩ := hname name hjson
    have hhas : has_name name names = .ok false names := by
      unfold has_name
      rw [if_neg hne]
      refine (Hoare.bind_of_ok rfl).trans ?_
      rw [hnone]
      rfl
    exact (Hoare.bind_of_ok hhas).trans hmake

/-- The JSON of an object, which is no name, is read where the types are too. -/
theorem ReadsBack.of_made (hjson : json.asString = none)
    (printed : ∀ n ≥ limit, to_json host store n s seen = .ok json seen')
    (made : ∀ n ≥ limit, ∀ opened ⊆ seen,
      make_avsc_object n json ⟨store.part opened seen, default_namespace⟩
        = .ok s ⟨store.part opened seen', default_namespace⟩)
    (subset : seen ⊆ seen') (nodup : seen.Nodup → seen'.Nodup)
    (known : ∀ full, s = .named full → full ∈ seen') :
    ReadsBack host store limit default_namespace seen s json seen' where
  printed := printed
  resolved n hn opened hopened := by
    refine resolveType_of_made (made n hn opened hopened) fun name hname => ?_
    rw [hjson] at hname
    cases hname
  made _ := made
  subset := subset
  nodup := nodup
  known := known

theorem lookup_part_of_notMem {opened : List PyString} (h : full ∉ seen) :
    (store.part opened seen).lookup full = none := by
  rw [lookup_part, if_neg h]

theorem exists_succ {n : ℕ} (hn : n ≥ limit + 1) : ∃ k, n = k + 1 ∧ k ≥ limit :=
  ⟨n - 1, by omega, by omega⟩

theorem readsBack_primitive {type : PrimitiveType}
    (hfree : fullname type.name none default_namespace ∉ seen) :
    ReadsBack host store (limit + 1) default_namespace seen (.primitive type)
      (.unicode type.name) seen where
  printed n hn := by
    obtain ⟨k, rfl, -⟩ := exists_succ hn
    rfl
  resolved n hn opened hopened := by
    obtain ⟨k, rfl, -⟩ := exists_succ hn
    refine resolveType_of_made (make_avsc_object_primitive type _) fun name hname => ?_
    obtain rfl := Option.some.inj hname
    exact ⟨by cases type <;> decide, lookup_part_of_notMem hfree⟩
  made _ n hn opened hopened := by
    obtain ⟨k, rfl, -⟩ := exists_succ hn
    exact make_avsc_object_primitive type _
  subset := List.Subset.refl seen
  nodup := id
  known := nofun

theorem readsBack_array {items : Schema}
    (h : ReadsBack host store limit default_namespace seen items json seen') :
    ReadsBack host store (limit + 1) default_namespace seen (.array items)
      (jsonObject host [("type", .unicode "array".toList), ("items", json)]) seen' := by
  refine .of_made rfl (fun n hn => ?_) (fun n hn opened hopened => ?_) h.subset h.nodup nofun
  · obtain ⟨k, rfl, hk⟩ := exists_succ hn
    exact Hoare.bind_of_ok (h.printed k hk)
  · obtain ⟨k, rfl, hk⟩ := exists_succ hn
    obtain ⟨raise, hmake⟩ := @make_avsc_object_array host k json
    rw [hmake]
    exact Hoare.bind_of_ok (h.resolved k hk opened hopened _ _)

theorem readsBack_map {values : Schema}
    (h : ReadsBack host store limit default_namespace seen values json seen') :
    ReadsBack host store (limit + 1) default_namespace seen (.map values)
      (jsonObject host [("type", .unicode "map".toList), ("values", json)]) seen' := by
  refine .of_made rfl (fun n hn => ?_) (fun n hn opened hopened => ?_) h.subset h.nodup nofun
  · obtain ⟨k, rfl, hk⟩ := exists_succ hn
    exact Hoare.bind_of_ok (h.printed k hk)
  · obtain ⟨k, rfl, hk⟩ := exists_succ hn
    obtain ⟨raise, hmake⟩ := @make_avsc_object_map host k json
    rw [hmake]
    exact Hoare.bind_of_ok (h.resolved k hk opened hopened _ _)

theorem readsBack_union {schemas : List Schema} {jsons : List PyObj}
    (hs : Schema.WellFormed store (.union schemas))
    (h : AllReadBack host store limit default_namespace seen schemas jsons seen') :
    ReadsBack host store (limit + 1) default_namespace seen (.union schemas) (.list jsons)
      seen' := by
  refine .of_made rfl (fun n hn => ?_) (fun n hn opened hopened => ?_) h.subset h.nodup nofun
  · obtain ⟨k, rfl, hk⟩ := exists_succ hn
    exact Hoare.bind_of_ok (h.printed hk)
  · obtain ⟨k, rfl, hk⟩ := exists_succ hn
    exact Hoare.bind_of_ok (h.read_union hk hs hopened nofun)

/-! ### Objects with names -/

section Named

variable {obj : NamedSchema}

theorem readsBack_seen (hobj : store.lookup full = some obj) (h : obj.Checked full)
    (hseen : full ∈ seen)
    (href : fullname (name_ref full obj) none default_namespace = full) :
    ReadsBack host store (limit + 1) default_namespace seen (.named full)
      (.unicode (name_ref full obj)) seen where
  printed n hn := by
    obtain ⟨k, rfl, -⟩ := exists_succ hn
    unfold to_json
    rw [hobj]
    refine (Hoare.bind_of_ok rfl).trans ?_
    rw [if_pos hseen]
    rfl
  resolved n hn opened hopened catches raise := by
    have hne : name_ref full obj ≠ [] := by
      unfold name_ref
      split
      · exact h.name
      · exact h.nonempty
    have hsome : ((store.part opened seen).lookup full).isSome = true := by
      rw [lookup_part, if_pos hseen, hobj]
      rfl
    have hhas : has_name (name_ref full obj) ⟨store.part opened seen, default_namespace⟩
        = .ok true ⟨store.part opened seen, default_namespace⟩ := by
      unfold has_name
      rw [if_neg hne]
      refine (Hoare.bind_of_ok rfl).trans ?_
      rw [href, hsome]
      rfl
    refine (Hoare.bind_of_ok hhas).trans ?_
    show EStateM.Result.ok (Schema.named (fullname (name_ref full obj) none default_namespace)) _
      = _
    rw [href]
  made hnew := absurd hseen (hnew full rfl)
  subset := List.Subset.refl seen
  nodup := id
  known full' heq := by
    cases heq
    exact hseen

/-- An object that has none of its own to be read first. -/
theorem readsBack_leaf (hobj : store.lookup full = some obj) (h : obj.Checked full)
    (hnew : full ∉ seen) (hfull : fullname obj.name obj.space default_namespace = full)
    (hjson : json.asString = none)
    (hprint : ∀ k, to_json host store (k + 1) (.named full) seen = .ok json (seen ++ [full]))
    (hmake : ∀ k names names', initNamedSchema (.unicode obj.name) obj.namespaceProp
      obj.definition names = .ok full names' →
      make_avsc_object (k + 1) json names = .ok (.named full) names') :
    ReadsBack host store (limit + 1) default_namespace seen (.named full) json
      (seen ++ [full]) := by
  refine .of_made hjson (fun n hn => ?_) (fun n hn opened hopened => ?_)
    (List.subset_append_left _ _) (fun h => List.concat_eq_append ▸ h.concat hnew)
    fun full' heq => ?_
  · obtain ⟨k, rfl, -⟩ := exists_succ hn
    exact hprint k
  · obtain ⟨k, rfl, -⟩ := exists_succ hn
    refine hmake k _ _ ?_
    rw [part_append hobj fun hmem => hnew (hopened hmem)]
    exact initNamedSchema_printed h hfull (lookup_part_of_notMem hnew) obj.definition
  · cases heq
    exact List.mem_append_right _ (List.mem_singleton_self full)

theorem readsBack_fixed {size : ℤ} (hobj : store.lookup full = some obj) (h : obj.Checked full)
    (hdefinition : obj.definition = .fixed size) (hnew : full ∉ seen)
    (hfull : fullname obj.name obj.space default_namespace = full) :
    ReadsBack host store (limit + 1) default_namespace seen (.named full)
      (obj.props host "fixed" "size" (.int size)) (seen ++ [full]) := by
  refine readsBack_leaf hobj h hnew hfull rfl (fun k => ?_) fun k names names' hinit => ?_
  · unfold to_json
    rw [hobj]
    refine (Hoare.bind_of_ok rfl).trans ?_
    rw [if_neg hnew]
    refine (Hoare.bind_of_ok rfl).trans ?_
    rw [hdefinition]
    rfl
  · have hsize : checkSize (.int size) = .ok size := if_pos (h.definition.size size hdefinition)
    rw [make_avsc_object_fixed]
    unfold initFixedSchema
    rw [hsize]
    rw [hdefinition] at hinit
    exact (Hoare.bind_of_ok rfl).trans (Hoare.bind_of_ok hinit)

theorem mapM_asString (symbols : List PyString) :
    (symbols.map PyObj.unicode).mapM PyObj.asString = some symbols := by
  induction symbols with
  | nil => rfl
  | cons symbol symbols ih =>
    rw [List.map_cons, List.mapM_cons, ih]
    rfl

theorem readsBack_enum {symbols : List PyString} (hobj : store.lookup full = some obj)
    (h : obj.Checked full) (hdefinition : obj.definition = .enum symbols)
    (hnodup : symbols.Nodup) (hnew : full ∉ seen)
    (hfull : fullname obj.name obj.space default_namespace = full) :
    ReadsBack host store (limit + 1) default_namespace seen (.named full)
      (obj.props host "enum" "symbols" (.list (symbols.map .unicode))) (seen ++ [full]) := by
  refine readsBack_leaf hobj h hnew hfull rfl (fun k => ?_) fun k names names' hinit => ?_
  · unfold to_json
    rw [hobj]
    refine (Hoare.bind_of_ok rfl).trans ?_
    rw [if_neg hnew]
    refine (Hoare.bind_of_ok rfl).trans ?_
    rw [hdefinition]
    rfl
  · rw [make_avsc_object_enum]
    unfold initEnumSchema
    dsimp only
    rw [mapM_asString]
    dsimp only
    rw [if_neg (not_not.2 hnodup)]
    rw [hdefinition] at hinit
    exact Hoare.bind_of_ok hinit

/-- While the fields are read, the object is there without them. -/
theorem initRecordSchema_printed {make_avsc_object : PyObj → Parser Schema}
    {schema_type : SchemaType} {definition : List Field → Definition} {fields : List Field}
    {opened : List PyString} {jsons : List PyObj}
    (hobj : store.lookup full = some obj) (h : obj.Checked full)
    (hdefinition : obj.definition = definition fields)
    (hempty : (definition fields).empty = definition []) (hnew : full ∉ seen)
    (hfull : fullname obj.name obj.space default_namespace = full) (hopened : opened ⊆ seen)
    (hfields : make_field_objects make_avsc_object [] jsons
        ⟨store.part (full :: opened) (seen ++ [full]),
          if schema_type = .record then some (get_space full) else default_namespace⟩
      = .ok fields ⟨store.part (full :: opened) seen',
          if schema_type = .record then some (get_space full) else default_namespace⟩) :
    initRecordSchema make_avsc_object schema_type definition (.unicode obj.name)
        obj.namespaceProp (.list jsons) ⟨store.part opened seen, default_namespace⟩
      = .ok (.named full) ⟨store.part opened seen', default_namespace⟩ := by
  -- the object comes into the store without its fields, and gets them at the end
  have hinit := @initNamedSchema_printed obj full h ⟨store.part opened seen, default_namespace⟩
    hfull (lookup_part_of_notMem hnew) (definition [])
  have hopen := @part_open store opened seen full obj hobj hnew
  rw [hdefinition, hempty] at hopen
  dsimp only at hinit
  rw [← hopen] at hinit
  have hclose := @setDefinition_part store opened seen' full obj hobj
    fun hmem => hnew (hopened hmem)
  unfold initRecordSchema
  refine (Hoare.bind_of_ok hinit).trans ((Hoare.bind_of_ok rfl).trans ?_)
  refine (Hoare.bind_of_ok rfl).trans ((Hoare.bind_of_ok hfields).trans ?_)
  refine (Hoare.bind_of_ok rfl).trans ((Hoare.bind_of_ok rfl).trans ?_)
  show EStateM.Result.ok _ (Names.mk
    ((store.part (full :: opened) seen').setDefinition full (definition fields))
    (if schema_type = .record then default_namespace
      else if schema_type = .record then some (get_space full) else default_namespace)) = _
  rw [← hdefinition, hclose]
  split <;> rfl

theorem to_json_record {type : String} {definition : List Field → Definition}
    {fields : List Field} {k : ℕ}
    (hobj : store.lookup full = some obj) (hdefinition : obj.definition = definition fields)
    (hkind : type = "record" ∧ definition = .record ∨ type = "error" ∧ definition = .error)
    (hnew : full ∉ seen) {jsons : List PyObj}
    (hfields : fieldsToJson host (to_json host store k) fields (seen ++ [full])
      = .ok jsons seen') :
    to_json host store (k + 1) (.named full) seen
      = .ok (obj.props host type "fields" (.list jsons)) seen' := by
  unfold to_json
  rw [hobj]
  refine (Hoare.bind_of_ok rfl).trans ?_
  rw [if_neg hnew]
  refine (Hoare.bind_of_ok rfl).trans ?_
  rw [hdefinition]
  obtain ⟨rfl, rfl⟩ | ⟨rfl, rfl⟩ := hkind
  · exact Hoare.bind_of_ok hfields
  · exact Hoare.bind_of_ok hfields

/-- An object whose fields are read back, in the default namespace that they are read in. -/
theorem readsBack_fields {schema_type : SchemaType} {type : String}
    {definition : List Field → Definition} {fields : List Field} {jsons : List PyObj}
    (hobj : store.lookup full = some obj) (h : obj.Checked full)
    (hdefinition : obj.definition = definition fields)
    (hkind : schema_type = .record ∧ type = "record" ∧ definition = .record ∨
      schema_type = .error ∧ type = "error" ∧ definition = .error)
    (hnames : (fields.map Field.name).Nodup) (hnew : full ∉ seen)
    (hfull : fullname obj.name obj.space default_namespace = full)
    (hfields : AllReadBack host store limit
      (if schema_type = .record then some (get_space full) else default_namespace)
      (seen ++ [full]) (fields.map Field.type) jsons seen') :
    ReadsBack host store (limit + 1) default_namespace seen (.named full)
      (obj.props host type "fields" (.list (List.zipWith (Field.props host) fields jsons)))
      seen' := by
  have hhas : (definition fields).fields? = some fields ∧
      (definition fields).empty = definition [] := by
    obtain ⟨-, -, rfl⟩ | ⟨-, -, rfl⟩ := hkind <;> exact ⟨rfl, rfl⟩
  have hchecked := h.definition.fields fields (hdefinition ▸ hhas.1)
  refine .of_made rfl (fun n hn => ?_) (fun n hn opened hopened => ?_)
    (List.Subset.trans (List.subset_append_left _ _) hfields.subset)
    (fun h => hfields.nodup (List.concat_eq_append ▸ h.concat hnew)) fun full' heq => ?_
  · obtain ⟨k, rfl, hk⟩ := exists_succ hn
    exact to_json_record hobj hdefinition (hkind.imp And.right And.right) hnew
      (hfields.printed_fields hk)
  · obtain ⟨k, rfl, hk⟩ := exists_succ hn
    have hread := initRecordSchema_printed hobj h hdefinition hhas.2 hnew hfull hopened
      (hfields.read_fields hk hchecked hnames (List.cons_subset.2
        ⟨List.mem_append_right _ (List.mem_singleton_self full),
          List.Subset.trans hopened (List.subset_append_left _ _)⟩))
    obtain ⟨rfl, rfl, rfl⟩ | ⟨rfl, rfl, rfl⟩ := hkind
    · rwa [make_avsc_object_record]
    · rwa [make_avsc_object_error]
  · cases heq
    exact hfields.subset (List.mem_append_right _ (List.mem_singleton_self full))

end Named

theorem readsBack_of_printable (hstore : store.WellFormed) (hchecked : store.Checked)
    (hs : s.WellFormed store)
    (h : printable store limit default_namespace s seen = some seen') :
    ∃ json, ReadsBack host store limit default_namespace seen s json seen' := by
  induction limit generalizing s default_namespace seen seen' with
  | zero => cases h
  | succ limit ih =>
    cases hs with
    | primitive type =>
      unfold printable at h
      split at h
      · cases h
      · rename_i hfree
        cases h
        exact ⟨_, readsBack_primitive hfree⟩
    | array hitems =>
      obtain ⟨json, hjson⟩ := ih hitems h
      exact ⟨_, readsBack_array hjson⟩
    | map hvalues =>
      obtain ⟨json, hjson⟩ := ih hvalues h
      exact ⟨_, readsBack_map hjson⟩
    | union hschemas hunion htypes =>
      obtain ⟨jsons, hjsons⟩ := AllReadBack.of_foldlM (fun s hmem _ _ => ih (hschemas s hmem)) h
      exact ⟨_, readsBack_union (.union hschemas hunion htypes) hjsons⟩
    | named hname =>
      rename_i full definition
      obtain ⟨obj, hobj, rfl⟩ := Option.map_eq_some_iff.1 hname
      have hwf := hstore full obj.definition hname
      have hobjChecked := hchecked.of_lookup hobj
      unfold printable at h
      rw [hobj] at h
      dsimp only [Bind.bind, Option.bind] at h
      split at h
      -- written out before: what is read is a reference
      · rename_i hseen
        split at h
        · rename_i href
          cases h
          exact ⟨_, readsBack_seen hobj hobjChecked hseen href⟩
        · cases h
      · rename_i hnew
        split at h
        · rename_i hfull
          cases hdefinition : obj.definition with
          | fixed size =>
            rw [hdefinition] at h
            cases h
            exact ⟨_, readsBack_fixed hobj hobjChecked hdefinition hnew hfull⟩
          | enum symbols =>
            rw [hdefinition] at h
            cases h
            exact ⟨_, readsBack_enum hobj hobjChecked hdefinition
              (hwf.symbols symbols hdefinition) hnew hfull⟩
          | record fields =>
            rw [hdefinition] at h hwf
            obtain ⟨jsons, hjsons⟩ := AllReadBack.of_fields
              (fun field hmem _ _ => ih (hwf.types fields rfl field hmem)) h
            exact ⟨_, readsBack_fields hobj hobjChecked hdefinition (.inl ⟨rfl, rfl, rfl⟩)
              (hwf.names fields rfl) hnew hfull hjsons⟩
          | error fields =>
            rw [hdefinition] at h hwf
            obtain ⟨jsons, hjsons⟩ := AllReadBack.of_fields
              (fun field hmem _ _ => ih (hwf.types fields rfl field hmem)) h
            exact ⟨_, readsBack_fields hobj hobjChecked hdefinition (.inr ⟨rfl, rfl, rfl⟩)
              (hwf.names fields rfl) hnew hfull hjsons⟩
        · cases h

/-- A schema that has been parsed is read back from its text, whatever the order in which its
    dictionaries are gone through. -/
theorem parse_to_json (host : Host) {n : ℕ} {json_data : Option PyObj} {object : SchemaObject}
    (hparse : parse n json_data = .ok object) (h : object.Printable) :
    ∃ json, (∀ᶠ limit in atTop, object.toJson host limit = .ok json) ∧
      ∀ᶠ limit in atTop, parse limit (some json) = .ok object := by
  obtain ⟨hs, hstore⟩ := SchemaObject.wellFormed_of_parse hparse
  obtain ⟨limit, hprintable⟩ := h
  obtain ⟨json, hjson⟩ := @readsBack_of_printable host _ _ _ _ _ _ hstore
    (SchemaObject.checked_of_parse hparse) hs hprintable
  refine ⟨json, ?_, ?_⟩
  · filter_upwards [eventually_ge_atTop limit] with n hn
    unfold SchemaObject.toJson
    rw [hjson.printed n hn]
  · filter_upwards [eventually_ge_atTop limit] with n hn
    -- at the top nothing has been read yet, and at the end nothing is half read
    have hmade := hjson.made (fun _ _ => List.not_mem_nil) n hn [] (List.Subset.refl [])
    rw [part_nil (hjson.nodup List.nodup_nil)] at hmade
    have hempty : Store.part object.store [] [] = [] := rfl
    rw [hempty] at hmade
    unfold parse
    dsimp only
    rw [hmade]

end All

end ReadBack

end HadoopExamples.Avro
