import HadoopExamples.Avro.Value

set_option autoImplicit false

/-! # Writing data

`validate` and `DatumWriter` of `io.py`. What the writer takes a datum for is a value
(`Takes`): by `write_encodes`, what it has written when it returns is an encoding of that value. -/

namespace HadoopExamples.Avro

open Python

/-! ## validate -/

/-- `False not in [validate(a) for a in l]` -/
def validateAll {α : Type} (validate : α → Except AvroException Bool) (l : List α) :
    Except AvroException Bool := do
  return !(← l.mapM validate).contains false

def validatePrimitive : PrimitiveType → PyObj → Bool
  | .null, .none => true
  | .boolean, .bool _ => true
  | .string, .str _ => true
  | .string, .unicode _ => true
  | .bytes, .str _ => true
  -- a `bool` is an `int`
  | .int, .int n => INT_MIN_VALUE ≤ n ∧ n ≤ INT_MAX_VALUE
  | .int, .bool _ => true
  | .long, .int n => LONG_MIN_VALUE ≤ n ∧ n ≤ LONG_MAX_VALUE
  | .long, .bool _ => true
  | .float, .int _ => true
  | .float, .bool _ => true
  | .float, .float _ => true
  | .double, .int _ => true
  | .double, .bool _ => true
  | .double, .float _ => true
  | _, _ => false

/-- For the fields of a record, an error or a request -/
def validateFields (validate : Schema → PyObj → Except AvroException Bool) (fields : List Field) :
    PyObj → Except AvroException Bool
  | .dict datum => validateAll (fun f : Field => validate f.type (.get datum f.name)) fields
  | _ => return false

/-- `validate(expected_schema, datum)`, with at most `limit` calls one in the other. -/
def validate (store : Store) : ℕ → Schema → PyObj → Except AvroException Bool
  | 0, _, _ => throw .runtimeError
  | limit + 1, expected_schema, datum => match expected_schema with
    | .primitive type => return validatePrimitive type datum
    | .named name => match store.definition? name with
      | some (.fixed size) => match datum with
        | .str bytes => return (← len bytes) = size
        | _ => return false
      | some (.enum symbols) => return symbols.any fun symbol => datum.asString = some symbol
      | some (.record fields) => validateFields (validate store limit) fields datum
      | some (.error fields) => validateFields (validate store limit) fields datum
      | none => throw .attributeError
    | .array items => match datum with
      | .list l => validateAll (validate store limit items) l
      | _ => return false
    | .map values => match datum with
      | .dict entries =>
        if entries.all (·.1.isBasestring) then
          validateAll (fun entry => validate store limit values entry.2) entries
        else return false
      | _ => return false
    | .union schemas => return (← schemas.mapM fun s => validate store limit s datum).contains true

/-! ## DatumWriter -/

/-- An `int`, or a `bool` as one -/
def asInt : PyObj → Except AvroException ℤ
  | .int n => .ok n
  | .bool b => .ok (if b then 1 else 0)
  | _ => .error .typeError

def asBytes : PyObj → Except AvroException (List UInt8)
  | .str bytes => .ok bytes
  | _ => .error .structError

def asList : PyObj → Except AvroException (List PyObj)
  | .list items => .ok items
  | _ => .error .typeError

def asDict : PyObj → Except AvroException (List (Key × PyObj))
  | .dict entries => .ok entries
  | _ => .error .attributeError

def keyObj : Key → PyObj
  | .str bytes => .str bytes
  | .unicode chars => .unicode chars
  | .other _ => .none

def write_fixed (datum : PyObj) : Encoder Unit := do
  write (← ofExcept (asBytes datum))

def write_enum (symbols : List PyString) (datum : PyObj) : Encoder Unit := do
  match (← ofExcept (enumerate symbols)).find? fun symbol => datum.asString = some symbol.1 with
  | some (_, index_of_datum) => write_int index_of_datum
  | none => throw .valueError

def write_array (write_item : PyObj → Encoder Unit) (datum : PyObj) : Encoder Unit := do
  let items ← ofExcept (asList datum)
  let length ← ofExcept (len items)
  if length > 0 then
    write_long length
    items.forM write_item
  write_long 0

def write_map (write_value : PyObj → Encoder Unit) (datum : PyObj) : Encoder Unit := do
  let entries ← ofExcept (asDict datum)
  let length ← ofExcept (len entries)
  if length > 0 then
    write_long length
    entries.forM fun (key, val) => do
      write_utf8 (keyObj key)
      write_value val
  write_long 0

/-- The last schema of the union that is valid for the datum, or -1. -/
def indexOfSchema (validate : Schema → PyObj → Except AvroException Bool) (schemas : List Schema)
    (datum : PyObj) : Except AvroException ℤ := do
  (← enumerate schemas).foldlM (fun index_of_schema (candidate_schema, i) => do
    return if ← validate candidate_schema datum then (i : ℤ) else index_of_schema) (-1)

def write_union (validate : Schema → PyObj → Except AvroException Bool)
    (write_data : Schema → PyObj → Encoder Unit) (schemas : List Schema) (datum : PyObj) :
    Encoder Unit := do
  let index_of_schema ← ofExcept (indexOfSchema validate schemas datum)
  if index_of_schema < 0 then throw (.error (.avroTypeException (.union schemas) datum))
  write_long index_of_schema
  write_data (← ofExcept (getItem schemas index_of_schema)) datum

def write_record (write_data : Schema → PyObj → Encoder Unit) (fields : List Field)
    (datum : PyObj) : Encoder Unit := do
  let entries ← ofExcept (asDict datum)
  fields.forM fun field => write_data field.type (.get entries field.name)

/-- `write_data(writers_schema, datum, encoder)`, with at most `limit` calls one in the other. -/
def write_data (host : Host) (store : Store) : ℕ → Schema → PyObj → Encoder Unit
  | 0, _, _ => throw .runtimeError
  | limit + 1, writers_schema, datum => match writers_schema with
    | .primitive .null => write_null
    | .primitive .boolean => write_boolean datum.truthy
    | .primitive .string => write_utf8 datum
    | .primitive .int => do write_int (← ofExcept (asInt datum))
    | .primitive .long => do write_long (← ofExcept (asInt datum))
    | .primitive .float => write_float host datum
    | .primitive .double => write_double host datum
    | .primitive .bytes => do write_bytes (← ofExcept (asBytes datum))
    | .named name => match store.definition? name with
      | some (.fixed _) => write_fixed datum
      | some (.enum symbols) => write_enum symbols datum
      | some (.record fields) => write_record (write_data host store limit) fields datum
      | some (.error fields) => write_record (write_data host store limit) fields datum
      | none => throw .attributeError
    | .array items => write_array (write_data host store limit items) datum
    | .map values => write_map (write_data host store limit values) datum
    | .union schemas =>
      write_union (validate store limit) (write_data host store limit) schemas datum

/-- `DatumWriter.write` -/
def writeDatum (host : Host) (store : Store) (limit : ℕ) (writers_schema : Schema)
    (datum : PyObj) : Encoder Unit := do
  if !(← ofExcept (validate store limit writers_schema datum)) then
    throw (.error (.avroTypeException writers_schema datum))
  write_data host store limit writers_schema datum

/-! ## What a datum is taken for -/

/-- `validate` comes to this result. -/
def Validates (store : Store) (s : Schema) (datum : PyObj) (valid : Bool) : Prop :=
  ∃ limit, validate store limit s datum = .ok valid

/-- The value for which the writer takes a datum: of the schemas of a union it is of the last one
    that is valid for the datum, and of a record it has the fields that the schema names, those
    that are missing as `None`. -/
inductive Takes (host : Host) (store : Store) : Schema → PyObj → Value → Prop
  | null : Takes host store (.primitive .null) .none .null
  | boolean (b : Bool) : Takes host store (.primitive .boolean) (.bool b) (.boolean b)
  | int {datum : PyObj} {n : ℤ} (h : asInt datum = .ok n) :
    Takes host store (.primitive .int) datum (.long n)
  | long {datum : PyObj} {n : ℤ} (h : asInt datum = .ok n) :
    Takes host store (.primitive .long) datum (.long n)
  | float {datum : PyObj} {bits : UInt32} (h : toSingle host datum = .ok bits) :
    Takes host store (.primitive .float) datum (.float bits)
  | double {datum : PyObj} {bits : UInt64} (h : toDouble host datum = .ok bits) :
    Takes host store (.primitive .double) datum (.double bits)
  | bytes (bytes : List UInt8) :
    Takes host store (.primitive .bytes) (.str bytes) (.bytes bytes)
  | string {datum : PyObj} {chars : PyString} (h : datum.asString = some chars) :
    Takes host store (.primitive .string) datum (.string chars)
  | fixed {name : PyString} {size : ℤ} {bytes : List UInt8}
    (hname : store.definition? name = some (.fixed size)) :
    Takes host store (.named name) (.str bytes) (.fixed bytes)
  | enum {name : PyString} {symbols : List PyString} {index : ℕ} {datum : PyObj}
    (hname : store.definition? name = some (.enum symbols))
    (hsymbol : datum.asString = symbols[index]?) (hindex : index < symbols.length) :
    Takes host store (.named name) datum (.enum index)
  | array {s : Schema} {parts : List (PyObj × Value)}
    (h : ∀ part ∈ parts, Takes host store s part.1 part.2) :
    Takes host store (.array s) (.list (parts.map Prod.fst)) (.array (parts.map Prod.snd))
  | map {s : Schema} {parts : List ((Key × PyObj) × (PyString × Value))}
    (hkeys : ∀ part ∈ parts, part.1.1.asString = some part.2.1)
    (h : ∀ part ∈ parts, Takes host store s part.1.2 part.2.2) :
    Takes host store (.map s) (.dict (parts.map Prod.fst)) (.map (parts.map Prod.snd))
  | union {schemas : List Schema} {index : ℕ} {s : Schema} {datum : PyObj} {v : Value}
    (hindex : schemas[index]? = some s) (hvalid : Validates store s datum true)
    (hlast : ∀ i s', index < i → schemas[i]? = some s' → Validates store s' datum false)
    (h : Takes host store s datum v) : Takes host store (.union schemas) datum (.union index v)
  | record {name : PyString} {entries : List (Key × PyObj)} {parts : List (Field × Value)}
    (hname : store.fields? name = some (parts.map Prod.fst))
    (h : ∀ part ∈ parts, Takes host store part.1.type (.get entries part.1.name) part.2) :
    Takes host store (.named name) (.dict entries) (.record (parts.map Prod.snd))

/-- What the writer writes for a datum. -/
def Written (host : Host) (store : Store) (s : Schema) (datum : PyObj) (bytes : List UInt8) :
    Prop :=
  ∃ v, Takes host store s datum v ∧ HasType store s v ∧ Encodes v bytes

section Writing

variable {host : Host} {store : Store}

/-! ## What validate tells -/

theorem of_validateAll {α : Type} {f : α → Except AvroException Bool} {l : List α}
    (h : validateAll f l = .ok true) : ∀ a ∈ l, f a = .ok true := by
  unfold validateAll at h
  cases hl : l.mapM f with
  | error e =>
    rw [hl] at h
    cases h
  | ok results =>
    rw [hl] at h
    have hnone : (!results.contains false) = true := Except.ok.inj h
    intro a ha
    obtain ⟨valid, hvalid, hfa⟩ := mem_of_mapM_ok hl ha
    cases valid with
    | true => exact hfa
    | false =>
      rw [List.contains_iff_mem.2 hvalid] at hnone
      cases hnone

theorem of_validateFields {f : Schema → PyObj → Except AvroException Bool} {fields : List Field}
    {datum : PyObj} (h : validateFields f fields datum = .ok true) :
    ∃ entries, datum = .dict entries ∧
      ∀ field ∈ fields, f field.type (.get entries field.name) = .ok true := by
  cases datum with
  | dict entries => exact ⟨entries, rfl, of_validateAll h⟩
  | _ => cases h

/-- The search for the last schema that is valid, from a place on. -/
theorem of_foldlM_indexOfSchema {f : Schema → PyObj → Except AvroException Bool}
    {datum : PyObj} (schemas : List Schema) {first : ℕ} {index_of_schema n : ℤ}
    (h : (schemas.zipIdx first).foldlM (fun index_of_schema (candidate_schema, i) => do
      return if ← f candidate_schema datum then (i : ℤ) else index_of_schema) index_of_schema
        = .ok n) :
    (n = index_of_schema ∧ ∀ s ∈ schemas, f s datum = .ok false) ∨
      ∃ i s, n = (first + i : ℕ) ∧ schemas[i]? = some s ∧ f s datum = .ok true ∧
        ∀ j s', i < j → schemas[j]? = some s' → f s' datum = .ok false := by
  induction schemas generalizing first index_of_schema with
  | nil =>
    cases h
    exact .inl ⟨rfl, nofun⟩
  | cons s schemas ih =>
    rw [List.zipIdx_cons, List.foldlM_cons] at h
    dsimp only at h
    cases hs : f s datum with
    | error e =>
      rw [hs] at h
      cases h
    | ok valid =>
      rw [hs] at h
      rcases ih h with ⟨hn, hrest⟩ | ⟨i, s', hn, hget, htrue, hlast⟩
      · cases valid with
        | false => exact .inl ⟨hn, List.forall_mem_cons.2 ⟨hs, hrest⟩⟩
        | true =>
          refine .inr ⟨0, s, hn, rfl, hs, fun j s' hj hget => ?_⟩
          obtain ⟨j, rfl⟩ := Nat.exists_eq_add_of_lt hj
          exact hrest s' (List.mem_of_getElem? hget)
      · refine .inr ⟨i + 1, s', ?_, hget, htrue, fun j s'' hj hget' => ?_⟩
        · rw [hn]
          congr 1
          omega
        · obtain ⟨j, rfl⟩ := Nat.exists_eq_add_of_lt (Nat.zero_lt_of_lt hj)
          rw [Nat.zero_add] at hj hget'
          exact hlast j s'' (Nat.lt_of_succ_lt_succ hj) hget'

theorem of_indexOfSchema {f : Schema → PyObj → Except AvroException Bool} {schemas : List Schema}
    {datum : PyObj} {n : ℤ} (h : indexOfSchema f schemas datum = .ok n) (hn : 0 ≤ n) :
    ∃ i s, n = (i : ℕ) ∧ i < 2 ^ 63 ∧ schemas[i]? = some s ∧ f s datum = .ok true ∧
      ∀ j s', i < j → schemas[j]? = some s' → f s' datum = .ok false := by
  unfold indexOfSchema enumerate at h
  by_cases hlength : schemas.length < 2 ^ 63
  · rw [if_pos hlength] at h
    rcases of_foldlM_indexOfSchema schemas h with ⟨rfl, -⟩ | ⟨i, s, rfl, hget, hrest⟩
    · omega
    · obtain ⟨hi, -⟩ := List.getElem?_eq_some_iff.1 hget
      rw [Nat.zero_add]
      exact ⟨i, s, rfl, by omega, hget, hrest⟩
  · rw [if_neg hlength] at h
    cases h

/-! ## Leaf values -/

theorem appends_write_bytes (bytes : List UInt8) :
    Appends (write_bytes bytes) fun part => bytes.length < 2 ^ 63 ∧ part = bytesBytes bytes := by
  refine Appends.ofExcept fun n hn => ?_
  obtain ⟨rfl, hlength⟩ := of_len hn
  refine (Appends.seq (Appends.append _) (Appends.append bytes)).weaken ?_
  rintro _ ⟨_, _, rfl, rfl, rfl⟩
  exact ⟨hlength, rfl⟩

theorem of_encodeString {datum : PyObj} {bytes : List UInt8} (h : encodeString datum = .ok bytes) :
    ∃ chars, datum.asString = some chars ∧ bytes = encodeUtf8 chars := by
  cases datum with
  | unicode chars => exact ⟨chars, rfl, (Except.ok.inj h).symm⟩
  | str bytes' =>
    by_cases hascii : bytes'.all (· < 128) = true
    · have heq : bytes' = bytes := Except.ok.inj ((if_pos hascii).symm.trans h)
      subst heq
      have hchars : decodeAscii bytes' = some (bytes'.map fun b => Char.ofNat b.toNat) :=
        if_pos hascii
      exact ⟨_, hchars, (encodeUtf8_of_decodeAscii hchars).symm⟩
    · exact absurd ((if_neg hascii).symm.trans h) nofun
  | _ => cases h

theorem appends_write_utf8 (datum : PyObj) :
    Appends (write_utf8 datum) fun part => ∃ chars, datum.asString = some chars ∧
      (encodeUtf8 chars).length < 2 ^ 63 ∧ part = bytesBytes (encodeUtf8 chars) := by
  refine Appends.ofExcept fun bytes hbytes => ?_
  obtain ⟨chars, hchars, rfl⟩ := of_encodeString hbytes
  exact (appends_write_bytes _).weaken fun part hpart => ⟨chars, hchars, hpart⟩

theorem isLong_of_int {n : ℤ} (h : INT_MIN_VALUE ≤ n ∧ n ≤ INT_MAX_VALUE) : IsLong n := by
  unfold INT_MIN_VALUE INT_MAX_VALUE at h
  unfold IsLong
  omega

theorem isLong_of_long {n : ℤ} (h : LONG_MIN_VALUE ≤ n ∧ n ≤ LONG_MAX_VALUE) : IsLong n := by
  unfold LONG_MIN_VALUE LONG_MAX_VALUE at h
  unfold IsLong
  omega

theorem range_of_validatePrimitive_int {datum : PyObj} {n : ℤ}
    (h : validatePrimitive .int datum = true) (hn : asInt datum = .ok n) :
    INT_MIN_VALUE ≤ n ∧ n ≤ INT_MAX_VALUE := by
  cases datum with
  | int m =>
    cases hn
    exact of_decide_eq_true h
  | bool b =>
    cases hn
    cases b <;> decide
  | _ => cases h

theorem range_of_validatePrimitive_long {datum : PyObj} {n : ℤ}
    (h : validatePrimitive .long datum = true) (hn : asInt datum = .ok n) :
    LONG_MIN_VALUE ≤ n ∧ n ≤ LONG_MAX_VALUE := by
  cases datum with
  | int m =>
    cases hn
    exact of_decide_eq_true h
  | bool b =>
    cases hn
    cases b <;> decide
  | _ => cases h

/-- What is written of the leaves, given `validate`. -/
theorem write_primitive {type : PrimitiveType} {datum : PyObj} {limit : ℕ}
    (h : validatePrimitive type datum = true) :
    Appends (write_data host store (limit + 1) (.primitive type) datum)
      (Written host store (.primitive type) datum) := by
  cases type with
  | null =>
    cases datum with
    | none =>
      exact Appends.nothing.weaken fun _ hpart => ⟨.null, .null, .null, hpart ▸ .null⟩
    | _ => cases h
  | boolean =>
    cases datum with
    | bool b =>
      exact (Appends.append _).weaken fun _ hpart =>
        ⟨.boolean b, .boolean b, .boolean b, hpart ▸ .boolean b⟩
    | _ => cases h
  | string =>
    refine (appends_write_utf8 datum).weaken ?_
    rintro _ ⟨chars, hchars, hlength, rfl⟩
    exact ⟨.string chars, .string hchars, .string chars, .string hlength⟩
  | bytes =>
    cases datum with
    | str bytes =>
      refine (appends_write_bytes bytes).weaken ?_
      rintro _ ⟨hlength, rfl⟩
      exact ⟨.bytes bytes, .bytes bytes, .bytes bytes, .bytes hlength⟩
    | _ => cases h
  | int =>
    refine Appends.ofExcept fun n hn => (Appends.append _).weaken fun part hpart => ?_
    have hrange := range_of_validatePrimitive_int h hn
    exact ⟨.long n, .int hn, .int hrange, hpart ▸ .long (isLong_of_int hrange)⟩
  | long =>
    refine Appends.ofExcept fun n hn => (Appends.append _).weaken fun part hpart => ?_
    have hrange := range_of_validatePrimitive_long h hn
    exact ⟨.long n, .long hn, .long hrange, hpart ▸ .long (isLong_of_long hrange)⟩
  | float =>
    refine Appends.ofExcept fun bits hbits => (Appends.append _).weaken fun part hpart => ?_
    exact ⟨.float bits, .float hbits, .float bits, hpart ▸ .float bits⟩
  | double =>
    refine Appends.ofExcept fun bits hbits => (Appends.append _).weaken fun part hpart => ?_
    exact ⟨.double bits, .double hbits, .double bits, hpart ▸ .double bits⟩

/-! ## Blocks -/

/-- One block for all items, and none where there are no items. -/
def oneBlock {ι : Type} (items : List ι) : List (Block ι) :=
  if items = [] then [] else [⟨false, items⟩]

theorem itemsOf_oneBlock {ι : Type} (items : List ι) : itemsOf (oneBlock items) = items := by
  unfold oneBlock
  split
  · rename_i h
    exact h.symm
  · exact List.flatMap_singleton _ _

theorem oneBlock_fits {ι : Type} {bytes : ι → List UInt8} {items : List ι}
    (h : items.length < 2 ^ 63) : ∀ block ∈ oneBlock items, block.Fits bytes := by
  unfold oneBlock
  split
  · exact nofun
  · rename_i hne
    rintro block hblock
    obtain rfl := List.mem_singleton.1 hblock
    exact ⟨hne, h, nofun⟩

theorem blocksBytes_oneBlock {ι : Type} {bytes : ι → List UInt8} {items : List ι}
    (h : items ≠ []) : blocksBytes bytes (oneBlock items)
      = longBytes items.length ++ items.flatMap bytes ++ longBytes 0 := by
  unfold oneBlock
  rw [if_neg h]
  unfold blocksBytes
  rw [List.flatMap_singleton]
  rfl

/-- A loop over a list, with its length in front and zero behind. -/
theorem appends_blocks {α γ : Type} {items : List α} {f : α → Encoder Unit} {R : α → γ → Prop}
    {bytes : γ → List UInt8}
    (h : ∀ item ∈ items, Appends (f item) fun part => ∃ c, R item c ∧ part = bytes c) :
    Appends (do
        let length ← ofExcept (len items)
        if length > 0 then
          write_long length
          items.forM f
        write_long 0) fun part => ∃ parts : List (α × γ), parts.map Prod.fst = items ∧
      parts.length < 2 ^ 63 ∧ (∀ p ∈ parts, R p.1 p.2) ∧
        part = blocksBytes bytes (oneBlock (parts.map Prod.snd)) := by
  refine Appends.ofExcept fun n hn => ?_
  obtain ⟨rfl, hlength⟩ := of_len hn
  dsimp only
  split
  · rename_i hpos
    refine (Appends.seq (Appends.append (longBytes items.length))
      (Appends.seq (Appends.forM h) (Appends.append (longBytes 0)))).weaken ?_
    rintro _ ⟨_, _, rfl, ⟨_, _, ⟨parts, rfl, hparts, rfl⟩, rfl, rfl⟩, rfl⟩
    rw [List.length_map] at hlength
    refine ⟨parts, rfl, hlength, hparts, ?_⟩
    have hne : parts.map Prod.snd ≠ [] := by
      rintro hnil
      rw [List.map_eq_nil_iff.1 hnil] at hpos
      exact absurd hpos (lt_irrefl _)
    rw [blocksBytes_oneBlock hne, List.length_map, List.length_map, List.append_assoc]
  · rename_i hzero
    obtain rfl : items = [] := List.eq_nil_of_length_eq_zero (by omega)
    refine (Appends.append (longBytes 0)).weaken ?_
    rintro _ rfl
    exact ⟨[], rfl, hlength, nofun, rfl⟩

/-- `Written`, with the value and the bytes as a pair. -/
theorem Appends.written {p : Encoder Unit} {s : Schema} {datum : PyObj}
    (h : Appends p (Written host store s datum)) :
    Appends p fun part => ∃ c : Value × List UInt8,
      (Takes host store s datum c.1 ∧ HasType store s c.1 ∧ Encodes c.1 c.2) ∧ part = c.2 :=
  h.weaken fun part ⟨v, hv⟩ => ⟨(v, part), hv, rfl⟩

theorem appends_write_array {f : PyObj → Encoder Unit} {s : Schema} {items : List PyObj}
    (h : ∀ item ∈ items, Appends (f item) (Written host store s item)) :
    Appends (write_array f (.list items)) (Written host store (.array s) (.list items)) := by
  refine Appends.ofExcept fun items' hitems => ?_
  cases hitems
  refine (appends_blocks fun item hitem => Appends.written (h item hitem)).weaken ?_
  rintro _ ⟨parts, rfl, hlength, hparts, rfl⟩
  refine ⟨.array (parts.map fun p => p.2.1), ?_, ?_, ?_⟩
  · have htakes := @Takes.array host store s (parts.map fun p => (p.1, p.2.1))
      (List.forall_mem_map.2 fun p hp => (hparts p hp).1)
    rwa [List.map_map, List.map_map] at htakes
  · exact HasType.array (List.forall_mem_map.2 fun p hp => (hparts p hp).2.1)
  · have hbytes := @Encodes.array (oneBlock (parts.map Prod.snd))
      (oneBlock_fits (by rwa [List.length_map]))
      (by
        rw [itemsOf_oneBlock]
        exact List.forall_mem_map.2 fun p hp => (hparts p hp).2.2)
    rwa [itemsOf_oneBlock, List.map_map] at hbytes

theorem keyObj_asString (key : Key) : (keyObj key).asString = key.asString := by
  cases key <;> rfl

theorem appends_write_map {f : PyObj → Encoder Unit} {s : Schema} {entries : List (Key × PyObj)}
    (h : ∀ entry ∈ entries, Appends (f entry.2) (Written host store s entry.2)) :
    Appends (write_map f (.dict entries)) (Written host store (.map s) (.dict entries)) := by
  refine Appends.ofExcept fun entries' hentries => ?_
  cases hentries
  have hentry : ∀ entry ∈ entries, Appends (do write_utf8 (keyObj entry.1); f entry.2)
      fun part => ∃ c : (PyString × Value) × List UInt8,
        (entry.1.asString = some c.1.1 ∧ (encodeUtf8 c.1.1).length < 2 ^ 63 ∧
          Takes host store s entry.2 c.1.2 ∧ HasType store s c.1.2 ∧ Encodes c.1.2 c.2) ∧
        part = entryBytes c := by
    intro entry hentry
    refine (Appends.seq (appends_write_utf8 _) (h entry hentry)).weaken ?_
    rintro _ ⟨_, bytes, ⟨chars, hchars, hlength, rfl⟩, ⟨v, hv⟩, rfl⟩
    rw [keyObj_asString] at hchars
    exact ⟨((chars, v), bytes), ⟨hchars, hlength, hv⟩, rfl⟩
  refine (appends_blocks hentry).weaken ?_
  rintro _ ⟨parts, rfl, hlength, hparts, rfl⟩
  refine ⟨.map (parts.map fun p => p.2.1), ?_, ?_, ?_⟩
  · have htakes := @Takes.map host store s (parts.map fun p => (p.1, p.2.1))
      (List.forall_mem_map.2 fun p hp => (hparts p hp).1)
      (List.forall_mem_map.2 fun p hp => (hparts p hp).2.2.1)
    rwa [List.map_map, List.map_map] at htakes
  · exact HasType.map (List.forall_mem_map.2 fun p hp => (hparts p hp).2.2.2.1)
  · have hbytes := @Encodes.map (oneBlock (parts.map Prod.snd))
      (oneBlock_fits (by rwa [List.length_map]))
      (by
        rw [itemsOf_oneBlock]
        exact List.forall_mem_map.2 fun p hp => (hparts p hp).2.1)
      (by
        rw [itemsOf_oneBlock]
        exact List.forall_mem_map.2 fun p hp => (hparts p hp).2.2.2.2)
    rwa [itemsOf_oneBlock, List.map_map] at hbytes

/-! ## Records, enums and unions -/

theorem appends_write_record {f : Schema → PyObj → Encoder Unit} {name : PyString}
    {fields : List Field} {entries : List (Key × PyObj)} (hname : store.fields? name = some fields)
    (h : ∀ field ∈ fields, Appends (f field.type (.get entries field.name))
      (Written host store field.type (.get entries field.name))) :
    Appends (write_record f fields (.dict entries))
      (Written host store (.named name) (.dict entries)) := by
  refine Appends.ofExcept fun entries' hentries => ?_
  cases hentries
  refine (Appends.forM fun field hfield => Appends.written (h field hfield)).weaken ?_
  rintro _ ⟨parts, rfl, hparts, rfl⟩
  refine ⟨.record (parts.map fun p => p.2.1), ?_, ?_, ?_⟩
  · have htakes := @Takes.record host store name entries (parts.map fun p => (p.1, p.2.1))
      (by rw [hname, List.map_map]; rfl) (List.forall_mem_map.2 fun p hp => (hparts p hp).1)
    rwa [List.map_map] at htakes
  · refine HasType.record hname (by rw [List.length_map, List.length_map]) ?_
    rw [List.zip_map']
    exact List.forall_mem_map.2 fun p hp => (hparts p hp).2.1
  · have hbytes := @Encodes.record (parts.map Prod.snd)
      (List.forall_mem_map.2 fun p hp => (hparts p hp).2.2)
    rwa [List.map_map] at hbytes

theorem appends_write_fixed {name : PyString} {size : ℤ} {bytes : List UInt8}
    (hname : store.definition? name = some (.fixed size))
    (hsize : (do return decide ((← len bytes) = size)) = (.ok true : Except AvroException Bool)) :
    Appends (write_fixed (.str bytes)) (Written host store (.named name) (.str bytes)) := by
  refine Appends.ofExcept fun bytes' hbytes => ?_
  cases hbytes
  have hlength : bytes.length = size := by
    cases hlen : (len bytes : Except AvroException ℤ) with
    | error e =>
      rw [hlen] at hsize
      cases hsize
    | ok n =>
      rw [hlen] at hsize
      rw [← (of_len hlen).1]
      exact of_decide_eq_true (Except.ok.inj hsize)
  refine (Appends.append bytes).weaken ?_
  rintro _ rfl
  exact ⟨.fixed _, .fixed hname, .fixed hname hlength, .fixed _⟩

theorem appends_write_enum {name : PyString} {symbols : List PyString} {datum : PyObj}
    (hname : store.definition? name = some (.enum symbols)) :
    Appends (write_enum symbols datum) (Written host store (.named name) datum) := by
  refine Appends.ofExcept fun numbered hnumbered => ?_
  unfold enumerate at hnumbered
  split at hnumbered
  · rename_i hlength
    cases hnumbered
    cases hfind : symbols.zipIdx.find? fun symbol => datum.asString = some symbol.1 with
    | none => exact Appends.throw _
    | some found =>
      obtain ⟨symbol, index⟩ := found
      have hget := List.mem_zipIdx_iff_getElem?.1 (List.mem_of_find?_eq_some hfind)
      obtain ⟨hindex, -⟩ := List.getElem?_eq_some_iff.1 hget
      have hequal := List.find?_some hfind
      have hdatum : datum.asString = symbols[index]? :=
        (of_decide_eq_true hequal).trans hget.symm
      refine (Appends.append _).weaken ?_
      rintro _ rfl
      exact ⟨.enum index, .enum hname hdatum hindex, .enum hname hindex, .enum (by omega)⟩
  · cases hnumbered

theorem appends_write_union {limit : ℕ} {f : Schema → PyObj → Encoder Unit}
    {schemas : List Schema} {datum : PyObj}
    (h : ∀ s, validate store limit s datum = .ok true →
      Appends (f s datum) (Written host store s datum)) :
    Appends (write_union (validate store limit) f schemas datum)
      (Written host store (.union schemas) datum) := by
  refine Appends.ofExcept fun n hn => ?_
  dsimp only
  split
  · exact Appends.throw _
  · rename_i hpos
    obtain ⟨i, s, rfl, hi, hget, htrue, hlast⟩ := of_indexOfSchema hn (by omega)
    rw [getItem_natCast hget]
    refine (Appends.seq (Appends.append (longBytes i)) (h s htrue)).weaken ?_
    rintro _ ⟨_, bytes, rfl, ⟨v, htakes, htype, hbytes⟩, rfl⟩
    exact ⟨.union i v, .union hget ⟨limit, htrue⟩ (fun j s' hj hget' => ⟨limit, hlast j s' hj hget'⟩)
      htakes, .union hget htype, .union hi hbytes⟩

/-! ## All schemas -/

/-- `write_data` goes down a schema as `validate` does, with the same limit. -/
theorem appends_write_data (limit : ℕ) {s : Schema} {datum : PyObj}
    (h : validate store limit s datum = .ok true) :
    Appends (write_data host store limit s datum) (Written host store s datum) := by
  induction limit generalizing s datum with
  | zero => cases h
  | succ limit ih =>
    cases s with
    | primitive type => exact write_primitive (Except.ok.inj h)
    | named name =>
      unfold validate at h
      unfold write_data
      dsimp only at h ⊢
      cases hname : store.definition? name with
      | none =>
        rw [hname] at h
        cases h
      | some definition =>
        rw [hname] at h
        cases definition with
        | fixed size =>
          cases datum with
          | str bytes => exact appends_write_fixed hname h
          | _ => cases h
        | enum symbols => exact appends_write_enum hname
        | record fields =>
          obtain ⟨entries, rfl, hfields⟩ := of_validateFields h
          have hname' : store.fields? name = some fields := by rw [Store.fields?, hname]; rfl
          exact appends_write_record hname' fun field hfield => ih (hfields field hfield)
        | error fields =>
          obtain ⟨entries, rfl, hfields⟩ := of_validateFields h
          have hname' : store.fields? name = some fields := by rw [Store.fields?, hname]; rfl
          exact appends_write_record hname' fun field hfield => ih (hfields field hfield)
    | array items =>
      cases datum with
      | list l => exact appends_write_array fun item hitem => ih (of_validateAll h item hitem)
      | _ => cases h
    | map values =>
      cases datum with
      | dict entries =>
        unfold validate at h
        dsimp only at h
        split at h
        · exact appends_write_map fun entry hentry => ih (of_validateAll h entry hentry)
        · cases h
      | _ => cases h
    | union schemas => exact appends_write_union fun s htrue => ih htrue

/-- What the writer has written when it returns. -/
theorem appends_writeDatum (limit : ℕ) (s : Schema) (datum : PyObj) :
    Appends (writeDatum host store limit s datum) (Written host store s datum) := by
  refine Appends.ofExcept fun valid hvalid => ?_
  cases valid with
  | false => exact Appends.throw _
  | true => exact appends_write_data limit hvalid

end Writing

end HadoopExamples.Avro
