import HadoopExamples.Avro.SchemaResolution
import HadoopExamples.Avro.WellFormed

set_option autoImplicit false

/-! # Records of different fields

What becomes of a record that was written with other fields than it is read with, as the
documentation of `read_record` has it, but as one equation: first the fields that both have, in the
order of the writer, then the defaults of those that only the reader has, in the order in which its
dictionary is gone through. -/

namespace HadoopExamples.Avro

open Python Tape Filter

/-- The fields of the writer that the reader has too, each with its value and the reader's field -/
def commonFields (readers_fields : List Field) (parts : List (Field × Value)) :
    List ((Field × Value) × Field) :=
  parts.filterMap fun part =>
    (readers_fields.find? fun field => field.name = part.1.name).map fun field => (part, field)

/-- The fields of the reader as its dictionary is gone through -/
def dictFields (host : Host) (readers_fields : List Field) : List Field :=
  (host.items (fields_dict readers_fields)).map Prod.snd

/-- The fields among these that the writer does not have -/
def missingFields (writers_fields readers_fields : List Field) : List Field :=
  readers_fields.filter fun field => field.name ∉ writers_fields.map Field.name

def resolveCommon (resolve : Schema → Schema → Value → Except AvroException PyObj)
    (part : (Field × Value) × Field) : Except AvroException (PyString × PyObj) := do
  return (part.1.1.name, ← resolve part.1.1.type part.2.type part.1.2)

def resolveMissing (read_default_value : Schema → PyObj → Except AvroException PyObj)
    (writers_schema readers_schema : Schema) (field : Field) :
    Except AvroException (PyString × PyObj) := do
  if field.has_default then
    return (field.name, ← read_default_value field.type field.default)
  else throw (resolutionException "No default value for field %s" [.unicode field.name]
    writers_schema readers_schema)

/-- The entries of a record, with names that are unicode strings -/
def entriesOf (entries : List (PyString × PyObj)) : List (Key × PyObj) :=
  entries.map fun entry => (.unicode entry.1, entry.2)

/-- The record that is read of a record with the values `parts`. -/
def resolvedRecord (host : Host)
    (resolve : Schema → Schema → Value → Except AvroException PyObj)
    (read_default_value : Schema → PyObj → Except AvroException PyObj)
    (writers_schema readers_schema : Schema) (writers_fields readers_fields : List Field)
    (values : List Value) : Except AvroException PyObj := do
  let common ← (commonFields readers_fields (writers_fields.zip values)).mapM
    (resolveCommon resolve)
  let missing ← (missingFields writers_fields (dictFields host readers_fields)).mapM
    (resolveMissing read_default_value writers_schema readers_schema)
  return .dict (entriesOf (common ++ missing))

/-! ## The dictionaries of fields -/

section Fields

variable {fields writers_fields readers_fields : List Field}

theorem dictGet_fields_dict (hnodup : (fields.map Field.name).Nodup) (name : PyString) :
    dictGet (fields_dict fields) name = fields.find? fun field => field.name = name := by
  unfold fields_dict
  rw [dictOf_eq (by rwa [List.map_map])]
  unfold dictGet
  rw [List.map_map, List.find?_map, Option.map_map]
  show Option.map id (fields.find? fun field => decide (some field.name = some name)) = _
  simp only [Option.some.injEq, Option.map_id, id_eq]

theorem isSome_dictGet_fields_dict (hnodup : (fields.map Field.name).Nodup) (name : PyString) :
    (dictGet (fields_dict fields) name).isSome = true ↔ name ∈ fields.map Field.name := by
  rw [dictGet_fields_dict hnodup, List.find?_isSome]
  simp only [decide_eq_true_eq, List.mem_map]

/-- The dictionary has every field once. -/
theorem perm_dictFields (host : Host) (hnodup : (fields.map Field.name).Nodup) :
    (dictFields host fields).Perm fields := by
  have hdict : (fields_dict fields).map Prod.snd = fields := by
    unfold fields_dict
    rw [dictOf_eq (by rwa [List.map_map]), List.map_map, List.map_map]
    exact List.map_id'' (fun _ => rfl) fields
  have hperm := (host.items_perm (fields_dict fields)).map Prod.snd
  rwa [hdict] at hperm

theorem names_commonFields (parts : List (Field × Value)) :
    (commonFields readers_fields parts).map (fun part => part.2.name)
      = ((parts.map Prod.fst).map Field.name).filter (· ∈ readers_fields.map Field.name) := by
  induction parts with
  | nil => rfl
  | cons part parts ih =>
    unfold commonFields at ih ⊢
    rw [List.map_cons, List.map_cons]
    cases hfind : readers_fields.find? fun field => field.name = part.1.name with
    | none =>
      rw [List.filterMap_cons_none (by rw [hfind]; rfl), List.filter_cons_of_neg, ih]
      intro hmem
      obtain ⟨field, hfield, hname⟩ := List.mem_map.1 (of_decide_eq_true hmem)
      exact List.find?_eq_none.1 hfind field hfield (decide_eq_true hname)
    | some field =>
      have hequal := List.find?_some hfind
      have hname : field.name = part.1.name := of_decide_eq_true hequal
      rw [List.filterMap_cons_some (b := (part, field)) (by rw [hfind]; rfl), List.map_cons,
        List.filter_cons_of_pos, ih, hname]
      exact decide_eq_true (hname ▸ List.mem_map_of_mem (List.mem_of_find?_eq_some hfind))

/-- A field of the reader either has the name of a field of the writer, or is missing. -/
theorem length_commonFields {parts : List (Field × Value)}
    (hwriters : ((parts.map Prod.fst).map Field.name).Nodup)
    (hreaders : (readers_fields.map Field.name).Nodup) :
    (commonFields readers_fields parts).length
        + (missingFields (parts.map Prod.fst) readers_fields).length
      = readers_fields.length := by
  have hperm : List.Perm ((commonFields readers_fields parts).map fun part => part.2.name)
      ((readers_fields.map Field.name).filter (· ∈ (parts.map Prod.fst).map Field.name)) := by
    rw [names_commonFields]
    refine (List.perm_ext_iff_of_nodup (hwriters.filter _) (hreaders.filter _)).2 fun name => ?_
    simp only [List.mem_filter, decide_eq_true_eq]
    exact and_comm
  have hlength := hperm.length_eq
  rw [List.length_map, List.filter_map, List.length_map] at hlength
  have hsplit := readers_fields.length_eq_length_filter_add
    fun field => decide (field.name ∈ (parts.map Prod.fst).map Field.name)
  rw [hlength, hsplit, missingFields]
  simp only [decide_not]
  rfl

end Fields

/-! ## The two loops -/

section Loops

variable {w r : Schema} {resolve : Schema → Schema → Value → Except AvroException PyObj}
  {read_default : Schema → PyObj → Except AvroException PyObj} {readers_fields : List Field}

/-- An entry that is read first. -/
theorem entriesOf_cons (read : List (PyString × PyObj)) (entry : PyString × PyObj)
    (rest : Except AvroException (List (PyString × PyObj))) :
    (do
      let entries ← rest
      return entriesOf (read ++ [entry] ++ entries)) = (do
      let entries ← (do
        let entries ← rest
        return entry :: entries)
      return entriesOf (read ++ entries)) := by
  cases rest with
  | error e => rfl
  | ok entries =>
    show Except.ok _ = Except.ok _
    rw [List.append_assoc, List.singleton_append]

theorem foldlM_resolveField (hreaders : (readers_fields.map Field.name).Nodup)
    (parts : List (Field × Value)) (read : List (PyString × PyObj))
    (hnodup : (read.map Prod.fst ++ (parts.map Prod.fst).map Field.name).Nodup) :
    parts.foldlM (resolveField resolve readers_fields) (entriesOf read) = (do
      let common ← (commonFields readers_fields parts).mapM (resolveCommon resolve)
      return entriesOf (read ++ common)) := by
  induction parts generalizing read with
  | nil =>
    show Except.ok (entriesOf read) = Except.ok (entriesOf (read ++ []))
    rw [List.append_nil]
  | cons part parts ih =>
    rw [List.map_cons, List.map_cons] at hnodup
    rw [List.foldlM_cons, resolveField, dictGet_fields_dict hreaders]
    unfold commonFields
    cases hfind : readers_fields.find? fun field => field.name = part.1.name with
    | none =>
      rw [List.filterMap_cons_none (by rw [hfind]; rfl)]
      exact ih read ((List.nodup_middle.1 hnodup).of_cons)
    | some field =>
      rw [List.filterMap_cons_some (b := (part, field)) (by rw [hfind]; rfl), List.mapM_cons,
        resolveCommon]
      dsimp only
      cases resolve part.1.type field.type part.2 with
      | error e => rfl
      | ok datum =>
        have hnew : part.1.name ∉ read.map Prod.fst := fun hmem =>
          (List.nodup_append.1 hnodup).2.2 _ hmem _ List.mem_cons_self rfl
        show parts.foldlM _ (dictSet (entriesOf read) part.1.name datum) = _
        rw [entriesOf, dictSet_of_notMem datum hnew]
        have hrest := ih (read ++ [(part.1.name, datum)]) (by
          rwa [List.map_append, List.append_assoc])
        refine hrest.trans ?_
        exact entriesOf_cons read (part.1.name, datum) _

theorem foldlM_missing {writers_fields : List Field}
    (hwriters : (writers_fields.map Field.name).Nodup) (fields : List Field)
    (read : List (PyString × PyObj))
    (hnodup : (fields.map Field.name).Nodup)
    (hread : ∀ name ∈ read.map Prod.fst, name ∈ fields.map Field.name →
      name ∈ writers_fields.map Field.name) :
    fields.foldlM (fun read_record field => do
      if (dictGet (fields_dict writers_fields) field.name).isSome then return read_record
      else if field.has_default then
        return dictSet read_record field.name (← read_default field.type field.default)
      else throw (resolutionException "No default value for field %s" [.unicode field.name] w r))
      (entriesOf read) = (do
        let missing ← (missingFields writers_fields fields).mapM (resolveMissing read_default w r)
        return entriesOf (read ++ missing)) := by
  induction fields generalizing read with
  | nil =>
    show Except.ok (entriesOf read) = Except.ok (entriesOf (read ++ []))
    rw [List.append_nil]
  | cons field fields ih =>
    rw [List.map_cons, List.nodup_cons] at hnodup
    rw [List.foldlM_cons]
    unfold missingFields
    by_cases hwritten : field.name ∈ writers_fields.map Field.name
    · rw [if_pos ((isSome_dictGet_fields_dict hwriters field.name).2 hwritten),
        List.filter_cons_of_neg (by rw [decide_eq_true_eq]; exact not_not.2 hwritten)]
      exact ih read hnodup.2 fun name hmem hfield =>
        hread name hmem (List.mem_cons_of_mem _ hfield)
    · rw [if_neg fun h => hwritten ((isSome_dictGet_fields_dict hwriters field.name).1 h),
        List.filter_cons_of_pos (by rw [decide_eq_true_eq]; exact hwritten), List.mapM_cons,
        resolveMissing]
      split
      · cases read_default field.type field.default with
        | error e => rfl
        | ok datum =>
          have hnew : field.name ∉ read.map Prod.fst := fun hmem =>
            hwritten (hread _ hmem List.mem_cons_self)
          show List.foldlM _ (dictSet (entriesOf read) field.name datum) _ = _
          rw [entriesOf, dictSet_of_notMem datum hnew]
          refine (ih (read ++ [(field.name, datum)]) hnodup.2 fun name hmem hfield => ?_).trans ?_
          · rw [List.map_append, List.mem_append] at hmem
            rcases hmem with hold | hlast
            · exact hread name hold (List.mem_cons_of_mem _ hfield)
            · rw [List.mem_singleton.1 hlast] at hfield
              exact absurd hfield hnodup.1
          · exact entriesOf_cons read (field.name, datum) _
      · rfl

end Loops

/-! ## The whole record -/

section Records

variable {host : Host} {w r : Schema}
  {resolve : Schema → Schema → Value → Except AvroException PyObj}
  {read_default : Schema → PyObj → Except AvroException PyObj} {readers_fields : List Field}

theorem names_of_mapM_ok {parts : List ((Field × Value) × Field)}
    {common : List (PyString × PyObj)} (h : parts.mapM (resolveCommon resolve) = .ok common) :
    common.map Prod.fst = parts.map fun part => part.1.1.name := by
  induction parts generalizing common with
  | nil =>
    cases h
    rfl
  | cons part parts ih =>
    rw [List.mapM_cons, resolveCommon] at h
    cases hpart : resolve part.1.1.type part.2.type part.1.2 with
    | error e =>
      rw [hpart] at h
      cases h
    | ok datum =>
      cases hrest : parts.mapM (resolveCommon resolve) with
      | error e =>
        rw [hpart, hrest] at h
        cases h
      | ok rest =>
        rw [hpart, hrest] at h
        cases h
        rw [List.map_cons, List.map_cons, ih hrest]

/-- The number of fields tells whether a field is missing. -/
theorem resolveRecord_eq {parts : List (Field × Value)}
    (hwriters : ((parts.map Prod.fst).map Field.name).Nodup)
    (hreaders : (readers_fields.map Field.name).Nodup) :
    resolveRecord host resolve read_default w r (parts.map Prod.fst) readers_fields
        (parts.map Prod.snd)
      = resolvedRecord host resolve read_default w r (parts.map Prod.fst) readers_fields
        (parts.map Prod.snd) := by
  have hzip : (parts.map Prod.fst).zip (parts.map Prod.snd) = parts := by
    rw [List.zip_map', List.map_id'']
    exact fun _ => rfl
  unfold resolveRecord resolvedRecord
  rw [hzip]
  have hloop := @foldlM_resolveField resolve readers_fields hreaders parts [] (by
    rwa [List.map_nil])
  show (do
    let read_record ← parts.foldlM (resolveField resolve readers_fields) (entriesOf [])
    fillDefaults host read_default w r (parts.map Prod.fst) readers_fields read_record) = _
  rw [hloop]
  cases hcommon : (commonFields readers_fields parts).mapM (resolveCommon resolve) with
  | error e => rfl
  | ok common =>
    have hnames := names_of_mapM_ok hcommon
    have hperm := perm_dictFields host hreaders
    have hcount : common.length
        + (missingFields (parts.map Prod.fst) (dictFields host readers_fields)).length
          = readers_fields.length := by
      have hlength := congrArg List.length hnames
      have hmissing := (hperm.filter fun field =>
        decide (field.name ∉ (parts.map Prod.fst).map Field.name)).length_eq
      rw [List.length_map, List.length_map] at hlength
      rw [hlength, missingFields, hmissing, ← missingFields,
        length_commonFields hwriters hreaders]
    have hdict : (fields_dict readers_fields).length = readers_fields.length := by
      unfold fields_dict
      rw [length_dictOf (by rwa [List.map_map]), List.length_map]
    show fillDefaults host read_default w r (parts.map Prod.fst) readers_fields
        (entriesOf common) = do
      let missing ← (missingFields (parts.map Prod.fst) (dictFields host readers_fields)).mapM
        (resolveMissing read_default w r)
      return .dict (entriesOf (common ++ missing))
    unfold fillDefaults
    dsimp only
    rw [hdict, entriesOf, List.length_map]
    split
    · have hread : ∀ name ∈ common.map Prod.fst,
          name ∈ (dictFields host readers_fields).map Field.name →
            name ∈ (parts.map Prod.fst).map Field.name := by
        rintro name hmem -
        rw [hnames] at hmem
        obtain ⟨part, hpart, rfl⟩ := List.mem_map.1 hmem
        obtain ⟨part', hpart', heq⟩ := List.mem_filterMap.1 hpart
        obtain ⟨field, -, rfl⟩ := Option.map_eq_some_iff.1 heq
        exact List.mem_map_of_mem (List.mem_map_of_mem hpart')
      have hfill := @foldlM_missing w r read_default _ hwriters (dictFields host readers_fields)
        common ((hperm.map Field.name).nodup_iff.2 hreaders) hread
      rw [entriesOf, dictFields, List.foldlM_map] at hfill
      rw [hfill, bind_assoc]
      rfl
    · have hnone : missingFields (parts.map Prod.fst) (dictFields host readers_fields) = [] :=
        List.eq_nil_of_length_eq_zero (by omega)
      rw [hnone, List.mapM_nil]
      show Except.ok _ = Except.ok (PyObj.dict (entriesOf (common ++ [])))
      rw [List.append_nil]
      rfl

/-- A record that is read with another definition of its name. -/
theorem answers_read_resolved {writers readers : Store}
    (hwriters : writers.WellFormed) (hreaders : readers.WellFormed) {name : PyString}
    {writers_fields readers_fields : List Field}
    (hname : writers.definition? name = some (.record writers_fields))
    (hname' : readers.definition? name = some (.record readers_fields)) {values : List Value}
    {bytes : List UInt8} (htype : HasType writers (.named name) (.record values))
    (hbytes : Encodes (.record values) bytes) :
    ∀ᶠ limit in atTop,
      Answers (read_data host writers readers (limit + 1) (.named name) (.named name)) bytes
        (resolvedRecord host (Avro.resolve host writers readers limit)
          (read_default_value host readers limit) (.named name) (.named name) writers_fields
          readers_fields values) := by
  have hfields : writers.fields? name = some writers_fields := by
    rw [Store.fields?, hname]
    rfl
  have hfields' : readers.fields? name = some readers_fields := by
    rw [Store.fields?, hname']
    rfl
  have hreads : Reads host writers readers (.named name) (.named name) (.record values) bytes :=
    answers_read_data htype hbytes _
  cases htype with
  | record hname'' hlength _ =>
    rw [hfields] at hname''
    cases hname''
    obtain ⟨parts, rfl, rfl⟩ := exists_pairs hlength
    filter_upwards [(tendsto_add_atTop_nat 1).eventually hreads] with limit hlimit
    rw [← resolveRecord_eq (hwriters.of_fields? hfields).1 (hreaders.of_fields? hfields').1]
    have hresolve : Avro.resolve host writers readers (limit + 1) (.named name) (.named name)
        (.record (parts.map Prod.snd))
          = resolveRecord host (Avro.resolve host writers readers limit)
            (read_default_value host readers limit) (.named name) (.named name)
            (parts.map Prod.fst) readers_fields (parts.map Prod.snd) := by
      have hmatch : match_schemas writers readers (.named name) (.named name) = true := by
        show matchDefinitions name name (writers.definition? name) (readers.definition? name) = true
        rw [hname, hname']
        exact decide_eq_true rfl
      rw [Avro.resolve, if_neg (by rw [hmatch]; decide), hname, hname']
      rfl
    rwa [hresolve] at hlimit

/-- The JSON of a record `User` with these fields -/
def userJson (fields : List (List (Key × PyObj))) : PyObj :=
  .dict [(.unicode "type".toList, .unicode "record".toList),
    (.unicode "name".toList, .unicode "User".toList),
    (.unicode "fields".toList, .list (fields.map PyObj.dict))]

def stringField (name : PyString) : List (Key × PyObj) :=
  [(.unicode "name".toList, .unicode name), (.unicode "type".toList, .unicode "string".toList)]

def userStore (fields : List Field) : Store :=
  [("User".toList, ⟨"User".toList, none, .record fields⟩)]

def nameAndMail : List Field :=
  [⟨.primitive .string, "name".toList, false, .none, none⟩,
    ⟨.primitive .string, "mail".toList, false, .none, none⟩]

def colorAndName : List Field :=
  [⟨.primitive .string, "color".toList, true, .unicode "red".toList, none⟩,
    ⟨.primitive .string, "name".toList, false, .none, none⟩]

/-- Read with a field `color` in place of `mail`, with a default. -/
theorem answers_read_resolved_user :
    ∀ᶠ limit in atTop,
      Answers (read_data Host.plain (userStore nameAndMail) (userStore colorAndName) (limit + 1)
          (.named "User".toList) (.named "User".toList))
        (bytesBytes (encodeUtf8 "Jo".toList) ++ bytesBytes (encodeUtf8 "jo@".toList))
        (.ok (.dict [(.unicode "name".toList, .unicode "Jo".toList),
          (.unicode "color".toList, .unicode "red".toList)])) := by
  have hwriters : (userStore nameAndMail).WellFormed :=
    (@SchemaObject.wellFormed_of_parse 2
      (some (userJson [stringField "name".toList, stringField "mail".toList]))
      ⟨.named "User".toList, userStore nameAndMail⟩ rfl).2
  have hreaders : (userStore colorAndName).WellFormed :=
    (@SchemaObject.wellFormed_of_parse 2
      (some (userJson [stringField "color".toList ++
        [(.unicode "default".toList, .unicode "red".toList)], stringField "name".toList]))
      ⟨.named "User".toList, userStore colorAndName⟩ rfl).2
  have hvalues : HasType (userStore nameAndMail) (.named "User".toList)
      (.record [.string "Jo".toList, .string "jo@".toList]) := by
    refine @HasType.record _ _ nameAndMail _ rfl rfl ?_
    simp only [nameAndMail, List.zip_cons_cons, List.zip_nil_right, List.forall_mem_cons]
    exact ⟨.string _, .string _, nofun⟩
  have hbytes : Encodes (.record [.string "Jo".toList, .string "jo@".toList])
      (bytesBytes (encodeUtf8 "Jo".toList) ++ bytesBytes (encodeUtf8 "jo@".toList)) := by
    have h := @Encodes.record [(.string "Jo".toList, bytesBytes (encodeUtf8 "Jo".toList)),
      (.string "jo@".toList, bytesBytes (encodeUtf8 "jo@".toList))] (by
        simp only [List.forall_mem_cons]
        exact ⟨.string (by decide), .string (by decide), nofun⟩)
    rwa [List.flatMap_cons, List.flatMap_singleton] at h
  have h := @answers_read_resolved Host.plain _ _ hwriters hreaders "User".toList _ _ rfl rfl _ _
    hvalues hbytes
  filter_upwards [h, eventually_ge_atTop 1] with limit hanswers hlimit
  obtain ⟨limit, rfl⟩ := Nat.exists_eq_add_of_le' hlimit
  exact hanswers

end Records

end HadoopExamples.Avro
