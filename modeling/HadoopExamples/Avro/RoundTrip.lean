import HadoopExamples.Avro.SchemaResolution
import HadoopExamples.Avro.WellFormed

set_option autoImplicit false

/-! # Writing and reading with one schema

A schema that `parse` returns resolves with itself: what is read of a value is the object that
represents it. So a datum comes back as what the writer has taken it for. -/

namespace HadoopExamples.Avro

open Python Tape Filter

section Matching

variable {store : Store}

theorem eq_of_matchDefinitions {name name' : PyString} {d d' : Option Definition}
    (h : matchDefinitions name name' d d' = true) : name = name' := by
  unfold matchDefinitions at h
  split at h
  · exact of_decide_eq_true h
  · exact of_decide_eq_true h
  · exact (of_decide_eq_true h).1
  · exact of_decide_eq_true h
  · cases h

theorem match_schemas_self {s : Schema} (hs : s.WellFormed store) :
    match_schemas store store s s = true := by
  cases hs with
  | primitive type => exact Bool.or_eq_true_iff.2 (.inl (decide_eq_true rfl))
  | array _ => exact decide_eq_true rfl
  | map _ => exact decide_eq_true rfl
  | union _ _ _ => rfl
  | named hname =>
    rename_i name definition
    show matchDefinitions name name (store.definition? name) (store.definition? name) = true
    rw [hname]
    cases definition with
    | fixed size => exact decide_eq_true ⟨rfl, rfl⟩
    | _ => exact decide_eq_true rfl

/-- Schemas of which values are read alike: those of primitive types may have been promoted. -/
def Alike (s r : Schema) : Prop :=
  r = s ∨ ∃ p q, s = .primitive p ∧ r = .primitive q

theorem eq_of_type_eq {schemas : List Schema} (h : Schema.WellFormed store (.union schemas))
    {s s' : Schema} (hs : s ∈ schemas) (hs' : s' ∈ schemas) (htype : s'.type store = s.type store)
    (hunnamed : (s.type store).all isNamedType = false) : s' = s := by
  cases h with
  | union _ _ htypes =>
    by_contra hne
    have : Std.Symm fun s s' : Schema => s'.type store = s.type store →
        (s'.type store).all isNamedType = true := ⟨fun _ _ h heq => heq ▸ h heq.symm⟩
    have hnamed := htypes.forall hs hs' (Ne.symm hne) htype
    rw [htype, hunnamed] at hnamed
    cases hnamed

/-- Of the schemas of a union, the first one that matches one of them -/
theorem alike_of_find? {schemas : List Schema} (h : Schema.WellFormed store (.union schemas))
    {s s' : Schema} (hs : s ∈ schemas)
    (hfind : schemas.find? (match_schemas store store s) = some s') : Alike s s' := by
  have hmatch := List.find?_some hfind
  have hs' := List.mem_of_find?_eq_some hfind
  have hunion : ∀ schemas', s ≠ .union schemas' ∧ s' ≠ .union schemas' := by
    cases h with
    | union _ hunions _ =>
      intro schemas'
      constructor
      · rintro rfl
        exact hunions _ hs rfl
      · rintro rfl
        exact hunions _ hs' rfl
  cases s with
  | union schemas' => exact absurd rfl (hunion schemas').1
  | primitive p =>
    cases s' with
    | primitive q => exact .inr ⟨p, q, rfl, rfl⟩
    | union schemas' => exact absurd rfl (hunion schemas').2
    | _ => cases hmatch
  | named name =>
    cases s' with
    | named name' => exact .inl (congrArg Schema.named (eq_of_matchDefinitions hmatch).symm)
    | union schemas' => exact absurd rfl (hunion schemas').2
    | _ => cases hmatch
  | array items =>
    cases s' with
    | array items' => exact .inl (eq_of_type_eq h hs hs' rfl rfl)
    | union schemas' => exact absurd rfl (hunion schemas').2
    | _ => cases hmatch
  | map values =>
    cases s' with
    | map values' => exact .inl (eq_of_type_eq h hs hs' rfl rfl)
    | union schemas' => exact absurd rfl (hunion schemas').2
    | _ => cases hmatch

end Matching

/-! ## What is made of a value -/

section Resolving

variable {store : Store} {host : Host}

/-- The object that `resolve` makes of a value, with every schema that is like its own. -/
def ResolvesTo (host : Host) (store : Store) (s : Schema) (v : Value) (datum : PyObj) : Prop :=
  ∀ r, Alike s r → match_schemas store store s r = true →
    ∀ᶠ limit in atTop, resolve host store store limit s r v = .ok datum

theorem ResolvesTo.primitive {p : PrimitiveType} {v : Value} {datum : PyObj}
    (h : Represents store host (.primitive p) v datum) :
    ResolvesTo host store (.primitive p) v datum := by
  rintro r halike hmatch
  have hr : ∃ q, r = .primitive q := by
    rcases halike with rfl | ⟨_, q, -, rfl⟩
    · exact ⟨p, rfl⟩
    · exact ⟨q, rfl⟩
  obtain ⟨q, rfl⟩ := hr
  refine eventually_of_succ fun limit => ?_
  unfold resolve
  rw [if_neg (by rw [hmatch]; decide)]
  cases h <;> rfl

/-- With no schema but its own -/
theorem ResolvesTo.of_self {s : Schema} {v : Value} {datum : PyObj}
    (hs : ∀ p, s ≠ .primitive p)
    (h : match_schemas store store s s = true →
      ∀ᶠ limit in atTop, resolve host store store limit s s v = .ok datum) :
    ResolvesTo host store s v datum := by
  rintro r (rfl | ⟨p, _, rfl, -⟩) hmatch
  · exact h hmatch
  · exact absurd rfl (hs p)

theorem ResolvesTo.array {s : Schema} {parts : List (Value × PyObj)}
    (h : ∀ part ∈ parts, ∀ᶠ limit in atTop,
      resolve host store store limit s s part.1 = .ok part.2) :
    ResolvesTo host store (.array s) (.array (parts.map Prod.fst))
      (.list (parts.map Prod.snd)) := by
  refine ResolvesTo.of_self (s := .array s) nofun fun hmatch => ?_
  refine eventually_succ (eventually_forall h) fun limit hlimit => ?_
  unfold resolve
  rw [if_neg (by rw [hmatch]; decide)]
  dsimp only
  rw [mapM_ok hlimit]
  rfl

theorem ResolvesTo.map {s : Schema} {parts : List ((PyString × Value) × PyObj)}
    (h : ∀ part ∈ parts, ∀ᶠ limit in atTop,
      resolve host store store limit s s part.1.2 = .ok part.2) :
    ResolvesTo host store (.map s) (.map (parts.map Prod.fst))
      (.dict (dictOf (parts.map fun part => (part.1.1, part.2)))) := by
  refine ResolvesTo.of_self (s := .map s) nofun fun hmatch => ?_
  refine eventually_succ (eventually_forall h) fun limit hlimit => ?_
  unfold resolve
  rw [if_neg (by rw [hmatch]; decide)]
  dsimp only
  rw [List.foldlM_map, dictOf, List.foldl_map,
    foldlM_ok (g := fun read_items part => dictSet read_items part.1.1 part.2)
      (fun part hmem read_items => by rw [hlimit part hmem]; rfl)]
  rfl

/-! ## Records -/

theorem fields_dict_eq {fields : List Field} {field : Field}
    (hnodup : (fields.map Field.name).Nodup) (hmem : field ∈ fields) :
    dictGet (fields_dict fields) field.name = some field := by
  have hentry : (field.name, field) ∈ fields.map fun field => (field.name, field) :=
    List.mem_map.2 ⟨field, hmem, rfl⟩
  exact dictGet_dictOf (by rwa [List.map_map]) hentry

theorem resolveRecord_self {w r : Schema}
    {resolve : Schema → Schema → Value → Except AvroException PyObj}
    {read_default : Schema → PyObj → Except AvroException PyObj} {fields : List Field}
    {parts : List ((Field × Value) × PyObj)} (hfields : fields = parts.map fun part => part.1.1)
    (hnodup : (fields.map Field.name).Nodup)
    (h : ∀ part ∈ parts, resolve part.1.1.type part.1.1.type part.1.2 = .ok part.2) :
    resolveRecord host resolve read_default w r fields fields (parts.map fun part => part.1.2)
      = .ok (.dict (parts.map fun part => (.unicode part.1.1.name, part.2))) := by
  have hnames : ((parts.map fun part => (part.1.1.name, part.2)).map Prod.fst).Nodup := by
    rw [hfields, List.map_map] at hnodup
    rw [List.map_map]
    exact hnodup
  have hdict : dictOf (parts.map fun part => (part.1.1.name, part.2))
      = parts.map fun part => (.unicode part.1.1.name, part.2) := by
    rw [dictOf_eq hnames, List.map_map]
    rfl
  have hlength : (fields_dict fields).length = parts.length := by
    unfold fields_dict
    rw [length_dictOf (by rwa [List.map_map]), List.length_map, hfields, List.length_map]
  have hstep : ∀ part ∈ parts, ∀ read_record,
      resolveField resolve fields read_record part.1
        = .ok (dictSet read_record part.1.1.name part.2) := by
    intro part hmem read_record
    have hfield : part.1.1 ∈ fields := hfields ▸ List.mem_map.2 ⟨part, hmem, rfl⟩
    unfold resolveField
    rw [fields_dict_eq hnodup hfield]
    dsimp only
    rw [h part hmem]
    rfl
  have hloop : (parts.map Prod.fst).foldlM (resolveField resolve fields) []
      = .ok (parts.map fun part => (.unicode part.1.1.name, part.2)) := by
    rw [List.foldlM_map, foldlM_ok hstep, ← hdict, dictOf, List.foldl_map]
  have hzip : fields.zip (parts.map fun part => part.1.2) = parts.map Prod.fst := by
    rw [hfields, List.zip_map']
  unfold resolveRecord
  rw [hzip, hloop]
  show fillDefaults _ _ _ _ _ _ _ = _
  unfold fillDefaults
  dsimp only
  rw [if_neg]
  · rfl
  · rw [hlength, List.length_map]
    exact lt_irrefl _

theorem ResolvesTo.record {name : PyString} {parts : List ((Field × Value) × PyObj)}
    (hname : store.fields? name = some (parts.map fun part => part.1.1))
    (hnodup : ((parts.map fun part => part.1.1).map Field.name).Nodup)
    (h : ∀ part ∈ parts, ∀ᶠ limit in atTop,
      resolve host store store limit part.1.1.type part.1.1.type part.1.2 = .ok part.2) :
    ResolvesTo host store (.named name) (.record (parts.map fun part => part.1.2))
      (.dict (parts.map fun part => (.unicode part.1.1.name, part.2))) := by
  refine ResolvesTo.of_self (s := .named name) nofun fun hmatch => ?_
  refine eventually_succ (eventually_forall h) fun limit hlimit => ?_
  unfold resolve
  rw [if_neg (by rw [hmatch]; decide)]
  dsimp only
  rcases of_fields? hname with hname' | hname' <;> rw [hname'] <;>
    exact resolveRecord_self rfl hnodup hlimit

theorem ResolvesTo.fixed {name : PyString} {size : ℤ}
    (hname : store.definition? name = some (.fixed size)) (bytes : List UInt8) :
    ResolvesTo host store (.named name) (.fixed bytes) (.str bytes) := by
  refine ResolvesTo.of_self (s := .named name) nofun fun hmatch => ?_
  refine eventually_of_succ fun limit => ?_
  unfold resolve
  rw [if_neg (by rw [hmatch]; decide)]
  dsimp only
  rw [hname]
  rfl

theorem ResolvesTo.enum {name : PyString} {symbols : List PyString} {index : ℕ} {symbol : PyString}
    (hname : store.definition? name = some (.enum symbols))
    (hsymbol : symbols[index]? = some symbol) :
    ResolvesTo host store (.named name) (.enum index) (.unicode symbol) := by
  refine ResolvesTo.of_self (s := .named name) nofun fun hmatch => ?_
  refine eventually_of_succ fun limit => ?_
  unfold resolve
  rw [if_neg (by rw [hmatch]; decide)]
  dsimp only
  rw [hname]
  unfold resolveDefinitions
  dsimp only
  rw [getItem_natCast hsymbol]
  exact if_pos (List.mem_of_getElem? hsymbol)

theorem ResolvesTo.self {s : Schema} (hs : s.WellFormed store) {v : Value} {datum : PyObj}
    (h : ResolvesTo host store s v datum) :
    ∀ᶠ limit in atTop, resolve host store store limit s s v = .ok datum :=
  h s (.inl rfl) (match_schemas_self hs)

/-- The value of a union is read with the first schema that matches the one of the value. -/
theorem ResolvesTo.union {schemas : List Schema} (hunion : Schema.WellFormed store (.union schemas))
    {index : ℕ} {s : Schema} (hindex : schemas[index]? = some s) {v : Value} {datum : PyObj}
    (hs : s.WellFormed store) (h : ResolvesTo host store s v datum) :
    ResolvesTo host store (.union schemas) (.union index v) datum := by
  have hmem := List.mem_of_getElem? hindex
  have hfirst : ∃ s', schemas.find? (match_schemas store store s) = some s' :=
    Option.isSome_iff_exists.1 (List.find?_isSome.2 ⟨s, hmem, match_schemas_self hs⟩)
  obtain ⟨s', hs'⟩ := hfirst
  have hnot : ∀ schemas', s ≠ .union schemas' := by
    cases hunion with
    | union _ hunions _ =>
      rintro schemas' rfl
      exact hunions _ hmem rfl
  have hread := h s' (alike_of_find? hunion hmem hs') (List.find?_some hs')
  refine ResolvesTo.of_self (s := .union schemas) nofun fun _ => ?_
  refine eventually_succ (eventually_succ (Q := fun limit =>
    resolve host store store limit s (.union schemas) v = .ok datum) hread fun limit hlimit => ?_)
    fun limit hlimit => ?_
  · rw [resolve_union hnot, hs']
    exact hlimit
  · rw [resolve_of_union, getItem_natCast hindex]
    exact hlimit

/-! ## One object for a value -/

theorem parts_eq {α β : Type} {parts parts' : List (α × β)} {R : α → β → Prop}
    (hfst : parts.map Prod.fst = parts'.map Prod.fst)
    (h : ∀ part ∈ parts, ∀ b, R part.1 b → part.2 = b) (h' : ∀ part ∈ parts', R part.1 part.2) :
    parts = parts' := by
  induction parts generalizing parts' with
  | nil => exact (List.map_eq_nil_iff.1 hfst.symm).symm
  | cons part parts ih =>
    cases parts' with
    | nil => cases hfst
    | cons part' parts' =>
      obtain ⟨hhead, htail⟩ := List.cons.inj hfst
      have hsnd := h part List.mem_cons_self part'.2 (hhead ▸ h' part' List.mem_cons_self)
      rw [Prod.ext hhead hsnd, ih htail (fun p hp => h p (List.mem_cons_of_mem _ hp))
        fun p hp => h' p (List.mem_cons_of_mem _ hp)]

theorem Represents.unique {s : Schema} {v : Value} {datum datum' : PyObj}
    (h : Represents store host s v datum) (h' : Represents store host s v datum') :
    datum = datum' := by
  induction h generalizing datum' with
  | null => cases h'; rfl
  | boolean b => cases h'; rfl
  | int n => cases h'; rfl
  | long n => cases h'; rfl
  | float bits => cases h'; rfl
  | double bits => cases h'; rfl
  | bytes bytes => cases h'; rfl
  | string chars => cases h'; rfl
  | fixed hname => cases h'; rfl
  | enum hname hsymbol =>
    cases h' with
    | enum hname' hsymbol' =>
      rw [hname] at hname'
      cases hname'
      rw [hsymbol] at hsymbol'
      cases hsymbol'
      rfl
  | array h ih =>
    rename_i s parts
    generalize hv : Value.array (parts.map Prod.fst) = v at h'
    cases h' with
    | array hparts' =>
      rw [parts_eq (Value.array.inj hv) (fun part hpart b => ih part hpart) hparts']
  | map h ih =>
    rename_i s parts
    generalize hv : Value.map (parts.map Prod.fst) = v at h'
    cases h' with
    | map hparts' =>
      rw [parts_eq (R := fun entry => Represents store host s entry.2) (Value.map.inj hv)
        (fun part hpart b => ih part hpart) hparts']
  | union hindex h ih =>
    cases h' with
    | union hindex' hrest =>
      rw [hindex] at hindex'
      cases hindex'
      exact ih hrest
  | record hname h ih =>
    rename_i name parts
    generalize hv : Value.record (parts.map fun part => part.1.2) = v at h'
    cases h' with
    | record hname' hparts' =>
      rename_i parts'
      rw [hname] at hname'
      have hfst : parts.map Prod.fst = parts'.map Prod.fst := by
        have hzip := congrArg₂ List.zip (Option.some.inj hname') (Value.record.inj hv)
        rwa [List.zip_map', List.zip_map'] at hzip
      rw [parts_eq (R := fun pair => Represents store host pair.1.type pair.2) hfst
        (fun part hpart b => ih part hpart) hparts']
    | fixed _ => cases hv
    | enum _ _ => cases hv

/-! ## All schemas -/

theorem exists_parts {α β : Type} {l : List α} {R : α → β → Prop} (h : ∀ a ∈ l, ∃ b, R a b) :
    ∃ parts : List (α × β), l = parts.map Prod.fst ∧ ∀ part ∈ parts, R part.1 part.2 := by
  induction l with
  | nil => exact ⟨[], rfl, nofun⟩
  | cons a l ih =>
    obtain ⟨b, hb⟩ := h a List.mem_cons_self
    obtain ⟨parts, rfl, hparts⟩ := ih fun a' h' => h a' (List.mem_cons_of_mem _ h')
    exact ⟨(a, b) :: parts, rfl, List.forall_mem_cons.2 ⟨hb, hparts⟩⟩

/-- A value is read as the object that represents it. -/
theorem exists_resolvesTo (hstore : store.WellFormed) {s : Schema} (hs : s.WellFormed store)
    {v : Value} (htype : HasType store s v) :
    ∃ datum, Represents store host s v datum ∧ ResolvesTo host store s v datum := by
  induction htype with
  | null => exact ⟨_, .null, .primitive .null⟩
  | boolean b => exact ⟨_, .boolean b, .primitive (.boolean b)⟩
  | int _ => exact ⟨_, .int _, .primitive (.int _)⟩
  | long _ => exact ⟨_, .long _, .primitive (.long _)⟩
  | float bits => exact ⟨_, .float bits, .primitive (.float bits)⟩
  | double bits => exact ⟨_, .double bits, .primitive (.double bits)⟩
  | bytes bytes => exact ⟨_, .bytes bytes, .primitive (.bytes bytes)⟩
  | string chars => exact ⟨_, .string chars, .primitive (.string chars)⟩
  | fixed hname hsize => exact ⟨_, .fixed hname, .fixed hname _⟩
  | enum hname hindex =>
    have hsymbol := List.getElem?_eq_getElem hindex
    exact ⟨_, .enum hname hsymbol, .enum hname hsymbol⟩
  | array h ih =>
    cases hs with
    | array hitems =>
      obtain ⟨parts, rfl, hparts⟩ := exists_parts fun v hv => ih v hv hitems
      exact ⟨_, .array fun part hpart => (hparts part hpart).1,
        .array fun part hpart => (hparts part hpart).2.self hitems⟩
  | map h ih =>
    cases hs with
    | map hvalues =>
      obtain ⟨parts, rfl, hparts⟩ := exists_parts fun entry hentry => ih entry hentry hvalues
      exact ⟨_, .map fun part hpart => (hparts part hpart).1,
        .map fun part hpart => (hparts part hpart).2.self hvalues⟩
  | union hindex h ih =>
    have hunion := hs
    cases hs with
    | union hschemas _ _ =>
      have hs' := hschemas _ (List.mem_of_getElem? hindex)
      obtain ⟨datum, hrepresents, hresolves⟩ := ih hs'
      exact ⟨datum, .union hindex hrepresents, .union hunion hindex hs' hresolves⟩
  | record hname hlength h ih =>
    obtain ⟨pairs, rfl, rfl⟩ := exists_pairs hlength
    obtain ⟨hnodup, htypes⟩ := hstore.of_fields? hname
    have hwf : ∀ pair ∈ pairs, pair.1.type.WellFormed store := fun pair hpair =>
      htypes pair.1 (List.mem_map_of_mem hpair)
    have hread : ∀ pair ∈ pairs, ∃ datum, Represents store host pair.1.type pair.2 datum ∧
        ResolvesTo host store pair.1.type pair.2 datum := fun pair hpair =>
      ih pair (by rw [List.zip_map']; exact List.mem_map.2 ⟨pair, hpair, rfl⟩) (hwf pair hpair)
    obtain ⟨parts, rfl, hparts⟩ := exists_parts hread
    have hfields : (parts.map Prod.fst).map Prod.fst = parts.map fun part => part.1.1 :=
      List.map_map
    rw [hfields] at hname hnodup
    rw [List.map_map]
    exact ⟨_, .record hname fun part hpart => (hparts part hpart).1,
      .record hname hnodup fun part hpart =>
        (hparts part hpart).2.self (hwf part.1 (List.mem_map_of_mem hpart))⟩

/-! ## Reading what is written -/

/-- A datum that is written to these bytes, and the object that is read of them. -/
def ComesBack (host : Host) (store : Store) (s : Schema) (datum datum' : PyObj)
    (bytes : List UInt8) : Prop :=
  (∃ v, Takes host store s datum v ∧ Represents store host s v datum') ∧
    ∀ᶠ limit in atTop, Answers (read_data host store store limit s s) bytes (.ok datum')

theorem appends_comesBack (hstore : store.WellFormed) {s : Schema} (hs : s.WellFormed store)
    (limit : ℕ) (datum : PyObj) : Appends (writeDatum host store limit s datum) fun bytes =>
      ∃ datum', ComesBack host store s datum datum' bytes := by
  refine (appends_writeDatum limit s datum).weaken ?_
  rintro bytes ⟨v, htakes, htype, hbytes⟩
  obtain ⟨datum', hrepresents, hresolves⟩ := @exists_resolvesTo store host hstore s hs v htype
  refine ⟨datum', ⟨v, htakes, hrepresents⟩, ?_⟩
  have hreads : Reads host store store s s v bytes := answers_read_data htype hbytes s
  filter_upwards [hreads, hresolves.self hs] with limit hanswers hresolve
  rwa [hresolve] at hanswers

/-- What is read where a datum has been written: the object for the value that the writer has taken
    the datum for. It is the datum itself just where the datum represents the value. -/
theorem read_written (hstore : store.WellFormed) {s : Schema} (hs : s.WellFormed store)
    {limit : ℕ} {datum : PyObj} {buffer buffer' : List UInt8}
    (hwrite : writeDatum host store limit s datum buffer = .ok () buffer') :
    ∃ bytes v datum', buffer' = buffer ++ bytes ∧ Takes host store s datum v ∧
      Represents store host s v datum' ∧ (datum' = datum ↔ Represents store host s v datum) ∧
      ∀ᶠ limit in atTop, Answers (read_data host store store limit s s) bytes (.ok datum') := by
  obtain ⟨bytes, ⟨datum', ⟨v, htakes, hrepresents⟩, hreads⟩, hbuffer⟩ :=
    appends_comesBack hstore hs limit datum buffer buffer' hwrite
  have hsame : datum' = datum ↔ Represents store host s v datum :=
    ⟨fun heq => heq ▸ hrepresents, hrepresents.unique⟩
  exact ⟨bytes, v, datum', hbuffer, htakes, hrepresents, hsame, hreads⟩

/-- A list with a string in unicode and one as a `str` -/
theorem read_written_names : ∃ buffer', writeDatum Host.plain [] 2 (.array (.primitive .string))
      (.list [.unicode "Jo".toList, .str [66, 101, 110]]) [] = .ok () buffer' ∧
    ∃ bytes v datum', buffer' = [] ++ bytes ∧
      Takes Host.plain [] (.array (.primitive .string))
        (.list [.unicode "Jo".toList, .str [66, 101, 110]]) v ∧
      Represents [] Host.plain (.array (.primitive .string)) v datum' ∧
      (datum' = .list [.unicode "Jo".toList, .str [66, 101, 110]] ↔
        Represents [] Host.plain (.array (.primitive .string)) v
          (.list [.unicode "Jo".toList, .str [66, 101, 110]])) ∧
      ∀ᶠ limit in atTop, Answers (read_data Host.plain [] [] limit (.array (.primitive .string))
        (.array (.primitive .string))) bytes (.ok datum') := by
  have hstore : Store.WellFormed [] := fun _ _ hname => by cases hname
  exact ⟨_, rfl, @read_written [] Host.plain hstore _ (.array (.primitive .string)) 2 _ _ _ rfl⟩

/-- Bytes that are the front of a file in two ways are the same, and stand for the same object: a
    datum needs no mark for its end. -/
theorem encodes_prefix_free (hstore : store.WellFormed) {s : Schema} (hs : s.WellFormed store)
    {v v' : Value} {bytes bytes' back back' : List UInt8} (htype : HasType store s v)
    (htype' : HasType store s v') (hbytes : Encodes v bytes) (hbytes' : Encodes v' bytes')
    (heq : bytes ++ back = bytes' ++ back') :
    bytes = bytes' ∧
      ∃ datum, Represents store host s v datum ∧ Represents store host s v' datum := by
  obtain ⟨datum, hrepresents, hresolves⟩ := @exists_resolvesTo store host hstore s hs v htype
  obtain ⟨datum', hrepresents', hresolves'⟩ := @exists_resolvesTo store host hstore s hs v' htype'
  have hreads : Reads host store store s s v bytes := answers_read_data htype hbytes s
  have hreads' : Reads host store store s s v' bytes' := answers_read_data htype' hbytes' s
  obtain ⟨limit, ⟨hread, hread'⟩, hresolve, hresolve'⟩ :=
    ((hreads.and hreads').and ((hresolves.self hs).and (hresolves'.self hs))).exists
  rw [hresolve] at hread
  rw [hresolve'] at hread'
  obtain ⟨hsame, rfl⟩ := Answers.prefix_free hread hread' heq
  exact ⟨hsame, datum, hrepresents, hrepresents'⟩

/-- Two maps of flags in the same two blocks, with one byte after each -/
theorem encodes_prefix_free_flags :
    blocksBytes entryBytes flagBlocks = blocksBytes entryBytes flagBlocks ∧
      ∃ datum,
        Represents [] Host.plain (.map (.primitive .boolean))
          (.map ((itemsOf flagBlocks).map Prod.fst)) datum ∧
        Represents [] Host.plain (.map (.primitive .boolean))
          (.map ((itemsOf flagBlocks).map Prod.fst)) datum :=
  @encodes_prefix_free [] Host.plain (fun _ _ hname => by cases hname) _
    (.map (.primitive .boolean)) _ _ _ _ [2] [2] hasType_flagBlocks hasType_flagBlocks
    encodes_flagBlocks encodes_flagBlocks rfl

end Resolving

end HadoopExamples.Avro
