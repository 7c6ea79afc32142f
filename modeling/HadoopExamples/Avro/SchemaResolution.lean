import Mathlib.Order.Filter.AtTopBot.Finite
import HadoopExamples.Avro.DatumReader

set_option autoImplicit false

/-! # Schema resolution

What the reader makes of a value of the writer's schema (`resolve`); by `answers_read_data`, this is
what it reads wherever there is an encoding of the value. The limit for calls is a number that is
large enough: a value, unlike the default of a field, is never too deep. -/

namespace HadoopExamples.Avro

open Python

/-! ## What a value is read as -/

/-- What a field of the writer adds to the record. -/
def resolveField (resolve : Schema → Schema → Value → Except AvroException PyObj)
    (readers_fields : List Field) (read_record : List (Key × PyObj)) (part : Field × Value) :
    Except AvroException (List (Key × PyObj)) := do
  match dictGet (fields_dict readers_fields) part.1.name with
  | some readers_field =>
    return dictSet read_record part.1.name
      (← resolve part.1.type readers_field.type part.2)
  | none => return read_record

def resolveRecord (host : Host) (resolve : Schema → Schema → Value → Except AvroException PyObj)
    (read_default_value : Schema → PyObj → Except AvroException PyObj)
    (writers_schema readers_schema : Schema) (writers_fields readers_fields : List Field)
    (values : List Value) : Except AvroException PyObj := do
  let read_record ← (writers_fields.zip values).foldlM (resolveField resolve readers_fields) []
  fillDefaults host read_default_value writers_schema readers_schema writers_fields readers_fields
    read_record

def resolveDefinitions (host : Host) (resolve : Schema → Schema → Value → Except AvroException PyObj)
    (read_default_value : Schema → PyObj → Except AvroException PyObj)
    (writers_schema readers_schema : Schema) :
    Option Definition → Option Definition → Value → Except AvroException PyObj
  | some (.fixed _), _, .fixed bytes => return .str bytes
  | some (.enum symbols), some (.enum readers_symbols), .enum index => do
    resolveSymbol writers_schema readers_schema readers_symbols (← getItem symbols index)
  | some (.record fields), some (.record readers_fields), .record values =>
    resolveRecord host resolve read_default_value writers_schema readers_schema fields
      readers_fields values
  | some (.error fields), some (.error readers_fields), .record values =>
    resolveRecord host resolve read_default_value writers_schema readers_schema fields
      readers_fields values
  | _, _, _ => throw .attributeError

/-- What is made of a value of the writer's schema, with at most `limit` calls one in the other. -/
def resolve (host : Host) (writers readers : Store) :
    ℕ → Schema → Schema → Value → Except AvroException PyObj
  | 0, _, _, _ => throw .runtimeError
  | limit + 1, writers_schema, readers_schema, value =>
    if match_schemas writers readers writers_schema readers_schema = false then
      throw (resolutionException "Schemas do not match." [] writers_schema readers_schema)
    else match writers_schema, readers_schema, value with
    | .union schemas, _, .union index value => do
      resolve host writers readers limit (← getItem schemas index) readers_schema value
    | .union _, _, _ => throw .attributeError
    | _, .union schemas, _ =>
      match schemas.find? (match_schemas writers readers writers_schema) with
      | some s => resolve host writers readers limit writers_schema s value
      | none =>
        throw (resolutionException "Schemas do not match." [] writers_schema readers_schema)
    | .named name, .named readers_name, _ =>
      resolveDefinitions host (resolve host writers readers limit)
        (read_default_value host readers limit) writers_schema readers_schema
        (writers.definition? name) (readers.definition? readers_name) value
    | .array items, .array readers_items, .array values => do
      return .list (← values.mapM (resolve host writers readers limit items readers_items))
    | .map values, .map readers_values, .map entries => do
      let read_items ← entries.foldlM (fun read_items (key, value) => do
        return dictSet read_items key
          (← resolve host writers readers limit values readers_values value)) []
      return .dict read_items
    | .primitive _, _, .null => return .none
    | .primitive _, _, .boolean b => return .bool b
    | .primitive _, _, .long n => return .int n
    | .primitive _, _, .float bits => return .float (host.ofSingle bits)
    | .primitive _, _, .double bits => return .float bits
    | .primitive _, _, .bytes bytes => return .str bytes
    | .primitive _, _, .string chars => return .unicode chars
    | _, _, _ => throw .attributeError

/-! ## Loops over the blocks of a value -/

open Tape Filter

section Loops

variable {ι σ : Type} {bytes : ι → List UInt8} {f : σ → ι → Except AvroException σ}

theorem answers_forRange {step : σ → Decoder σ} {items : List ι} (hlength : items.length < 2 ^ 63)
    (hstep : ∀ item ∈ items, ∀ s, Answers (step s) (bytes item) (f s item)) (s : σ) :
    Answers (forRange items.length step s) (items.flatMap bytes) (items.foldlM f s) := by
  unfold forRange
  rw [if_pos (by omega), Int.toNat_natCast]
  exact Answers.repeatM hstep s

theorem Block.Fits.count_ne_zero {block : Block ι} (h : block.Fits bytes) : block.count ≠ 0 := by
  have hpos := List.length_pos_of_ne_nil h.nonempty
  unfold Block.count
  split <;> omega

theorem Block.Fits.isLong_count {block : Block ι} (h : block.Fits bytes) : IsLong block.count := by
  unfold Block.count
  split
  · exact isLong_neg_of_length h.length
  · exact isLong_of_length h.length

/-- A loop that goes over the blocks as `block` does over one. -/
theorem answers_forBlocks {block : ℤ → σ → Decoder σ} {blocks : List (Block ι)}
    (hfits : ∀ b ∈ blocks, b.Fits bytes)
    (hblock : ∀ b ∈ blocks, ∀ s, Answers (block b.count s) (b.content bytes) (b.items.foldlM f s))
    {limit : ℕ} (hlimit : blocks.length < limit) (s : σ) :
    Answers (forBlocks block limit s) (blocksBytes bytes blocks)
      ((itemsOf blocks).foldlM f s) := by
  induction blocks generalizing limit s with
  | nil =>
    cases limit with
    | zero => exact absurd hlimit (lt_irrefl _)
    | succ limit =>
      have h : Answers (forBlocks block (limit + 1) s) (longBytes 0 ++ []) (.ok s) := by
        refine Answers.andThen (answers_read_long ⟨by decide, by decide⟩) ?_
        rw [if_pos rfl]
        exact Answers.pure s
      rwa [List.append_nil] at h
  | cons b blocks ih =>
    cases limit with
    | zero => exact absurd hlimit (Nat.not_lt_zero _)
    | succ limit =>
      have hb := hfits b List.mem_cons_self
      have hbytes : blocksBytes bytes (b :: blocks)
          = longBytes b.count ++ (b.content bytes ++ blocksBytes bytes blocks) := by
        unfold blocksBytes
        rw [List.flatMap_cons, Block.bytes, List.append_assoc, List.append_assoc]
      rw [hbytes, itemsOf, List.flatMap_cons, List.foldlM_append]
      refine Answers.andThen (answers_read_long hb.isLong_count) ?_
      rw [if_neg hb.count_ne_zero]
      refine Answers.bind (hblock b List.mem_cons_self s) fun s' _ => ?_
      exact ih (fun b' h => hfits b' (List.mem_cons_of_mem _ h))
        (fun b' h => hblock b' (List.mem_cons_of_mem _ h)) (Nat.lt_of_succ_lt_succ hlimit) s'

/-- Both kinds of blocks are read the same way. -/
theorem answers_readBlock {step : σ → Decoder σ} {block : Block ι} (hfits : block.Fits bytes)
    (hstep : ∀ item ∈ block.items, ∀ s, Answers (step s) (bytes item) (f s item)) (s : σ) :
    Answers (readBlock step block.count s) (block.content bytes) (block.items.foldlM f s) := by
  have hpos := List.length_pos_of_ne_nil hfits.nonempty
  have hloop := answers_forRange hfits.length hstep s
  unfold readBlock Block.count Block.content
  cases hsized : block.sized with
  | true =>
    rw [if_pos rfl, if_pos rfl, if_pos (by omega), neg_neg]
    exact Answers.andThen (answers_read_long (isLong_of_length (hfits.size hsized))) hloop
  | false =>
    rw [if_neg Bool.false_ne_true, if_neg Bool.false_ne_true, if_neg (by omega)]
    exact hloop

theorem foldlM_unit (items : List ι) :
    items.foldlM (fun (_ : Unit) _ => (.ok () : Except AvroException Unit)) () = .ok () := by
  induction items with
  | nil => rfl
  | cons item items ih => exact ih

/-- A block with its length is skipped as a whole. -/
theorem answers_skipBlock {step : Decoder Unit} {block : Block ι} (hfits : block.Fits bytes)
    (hstep : ∀ item ∈ block.items, Answers step (bytes item) (.ok ())) :
    Answers (skipBlock step block.count ()) (block.content bytes) (.ok ()) := by
  have hpos := List.length_pos_of_ne_nil hfits.nonempty
  have hloop := answers_forRange (f := fun _ _ => .ok ()) hfits.length
    (fun item hitem _ => hstep item hitem) ()
  rw [foldlM_unit] at hloop
  unfold skipBlock Block.count Block.content
  cases hsized : block.sized with
  | true =>
    rw [if_pos rfl, if_pos rfl, if_pos (by omega)]
    exact Answers.andThen (answers_read_long (isLong_of_length (hfits.size hsized)))
      (answers_skip_length _)
  | false =>
    rw [if_neg Bool.false_ne_true, if_neg Bool.false_ne_true, if_neg (by omega)]
    exact hloop

theorem answers_skipBlocks {step : Decoder Unit} {blocks : List (Block ι)}
    (hfits : ∀ b ∈ blocks, b.Fits bytes)
    (hstep : ∀ item ∈ itemsOf blocks, Answers step (bytes item) (.ok ())) {limit : ℕ}
    (hlimit : blocks.length < limit) :
    Answers (forBlocks (skipBlock step) limit ()) (blocksBytes bytes blocks) (.ok ()) := by
  have hblock : ∀ b ∈ blocks, ∀ u : Unit, Answers (skipBlock step b.count u) (b.content bytes)
      (b.items.foldlM (fun _ _ => .ok ()) u) := fun b hb _ => by
    rw [foldlM_unit]
    exact answers_skipBlock (hfits b hb) fun item hitem =>
      hstep item (List.mem_flatMap.2 ⟨b, hb, hitem⟩)
  have hloop := answers_forBlocks hfits hblock hlimit ()
  rwa [foldlM_unit] at hloop

theorem answers_readBlocks {step : σ → Decoder σ} {blocks : List (Block ι)}
    (hfits : ∀ b ∈ blocks, b.Fits bytes)
    (hstep : ∀ item ∈ itemsOf blocks, ∀ s, Answers (step s) (bytes item) (f s item)) {limit : ℕ}
    (hlimit : blocks.length < limit) (s : σ) :
    Answers (forBlocks (readBlock step) limit s) (blocksBytes bytes blocks)
      ((itemsOf blocks).foldlM f s) :=
  answers_forBlocks hfits (fun b hb s => answers_readBlock (hfits b hb) (fun item hitem =>
    hstep item (List.mem_flatMap.2 ⟨b, hb, hitem⟩)) s) hlimit s

end Loops

/-! ## Limits that are large enough -/

theorem eventually_succ {P Q : ℕ → Prop} (hP : ∀ᶠ n in atTop, P n) (h : ∀ n, P n → Q (n + 1)) :
    ∀ᶠ n in atTop, Q n := by
  obtain ⟨least, hleast⟩ := eventually_atTop.1 hP
  refine eventually_atTop.2 ⟨least + 1, fun n hn => ?_⟩
  obtain ⟨k, rfl⟩ := Nat.exists_eq_add_of_le' hn
  exact h (k + least) (hleast (k + least) (Nat.le_add_left _ _))

theorem eventually_forall {α : Type} {l : List α} {P : α → ℕ → Prop}
    (h : ∀ a ∈ l, ∀ᶠ n in atTop, P a n) : ∀ᶠ n in atTop, ∀ a ∈ l, P a n :=
  (eventually_all_finite l.finite_toSet).2 h

theorem eventually_option {α : Type} {o : Option α} {P : α → ℕ → Prop}
    (h : ∀ a, o = some a → ∀ᶠ n in atTop, P a n) :
    ∀ᶠ n in atTop, ∀ a, o = some a → P a n := by
  cases o with
  | none => exact Eventually.of_forall nofun
  | some a =>
    refine (h a rfl).mono fun n hn a' ha' => ?_
    cases ha'
    exact hn

/-- A step for every limit, from what holds of the limits before it -/
theorem eventually_of_succ {Q : ℕ → Prop} (h : ∀ n, Q (n + 1)) : ∀ᶠ n in atTop, Q n :=
  eventually_succ (Eventually.of_forall fun _ => trivial) fun n _ => h n

/-! ## Skipping -/

section Skipping

variable {store : Store}

theorem of_fields? {name : PyString} {fields : List Field} (h : store.fields? name = some fields) :
    store.definition? name = some (.record fields) ∨
      store.definition? name = some (.error fields) := by
  unfold Store.fields? at h
  obtain ⟨definition, hname, hfields⟩ := Option.bind_eq_some_iff.1 h
  cases definition with
  | record fields' =>
    cases hfields
    exact .inl hname
  | error fields' =>
    cases hfields
    exact .inr hname
  | _ => cases hfields

/-- The parts of a record, each with its field. -/
theorem exists_pairs {α β : Type} {l : List α} {l' : List β} (hlength : l'.length = l.length) :
    ∃ pairs : List (α × β), l = pairs.map Prod.fst ∧ l' = pairs.map Prod.snd :=
  ⟨l.zip l', (List.map_fst_zip hlength.ge).symm, (List.map_snd_zip hlength.le).symm⟩

theorem answers_skip_record {skip : Schema → Decoder Unit}
    {pairs : List (Field × Value × List UInt8)}
    (h : ∀ pair ∈ pairs, Answers (skip pair.1.type) pair.2.2 (.ok ())) :
    Answers (skip_record skip (pairs.map Prod.fst)) ((pairs.map Prod.snd).flatMap Prod.snd)
      (.ok ()) := by
  have hloop : skip_record skip (pairs.map Prod.fst) = pairs.forM fun pair => skip pair.1.type :=
    List.forM_map
  rw [hloop, List.flatMap_map]
  exact Answers.forM h

/-- Every encoding of a value is skipped, to the byte. -/
theorem answers_skip_data {s : Schema} {v : Value} {bytes : List UInt8} (htype : HasType store s v)
    (hbytes : Encodes v bytes) :
    ∀ᶠ limit in atTop, Answers (skip_data store limit s) bytes (.ok ()) := by
  induction hbytes generalizing s with
  | null =>
    cases htype
    exact eventually_of_succ fun _ => Answers.pure ()
  | boolean b =>
    cases htype
    exact eventually_of_succ fun _ => answers_skip_length (booleanBytes b)
  | long h =>
    cases htype <;> exact eventually_of_succ fun _ => answers_skip_long _
  | float bits =>
    cases htype
    exact eventually_of_succ fun _ => answers_skip_length (floatBytes bits)
  | double bits =>
    cases htype
    exact eventually_of_succ fun _ => answers_skip_length (doubleBytes bits)
  | bytes h =>
    cases htype
    exact eventually_of_succ fun _ => answers_skip_bytes h
  | string h =>
    cases htype
    exact eventually_of_succ fun _ => answers_skip_bytes h
  | fixed bytes =>
    cases htype with
    | fixed hname hsize =>
      refine eventually_of_succ fun _ => ?_
      unfold skip_data
      dsimp only
      rw [hname, ← hsize]
      exact answers_skip_length bytes
  | enum h =>
    cases htype with
    | enum hname hindex =>
      refine eventually_of_succ fun _ => ?_
      unfold skip_data
      dsimp only
      rw [hname]
      exact answers_skip_long _
  | array hfits _ ih =>
    rename_i blocks _
    cases htype with
    | array hitems =>
      have hskip := eventually_forall fun item hitem =>
        ih item hitem (hitems item.1 (List.mem_map_of_mem hitem))
      refine eventually_succ (hskip.and (eventually_gt_atTop blocks.length)) fun limit hlimit => ?_
      exact answers_skipBlocks hfits hlimit.1 hlimit.2
  | map hfits hkeys _ ih =>
    rename_i blocks _
    cases htype with
    | map hentries =>
      have hskip := eventually_forall fun entry hentry =>
        ih entry hentry (hentries entry.1 (List.mem_map_of_mem hentry))
      refine eventually_succ (hskip.and (eventually_gt_atTop blocks.length)) fun limit hlimit => ?_
      exact answers_skipBlocks hfits (fun entry hentry =>
        Answers.andThen (answers_skip_bytes (hkeys entry hentry)) (hlimit.1 entry hentry)) hlimit.2
  | union hindex _ ih =>
    cases htype with
    | union hget hv =>
      obtain ⟨hlt, -⟩ := List.getElem?_eq_some_iff.1 hget
      refine eventually_succ (ih hv) fun limit hlimit => ?_
      refine Answers.andThen (answers_read_long ⟨by omega, by omega⟩) ?_
      rw [if_neg (by omega), getItem_natCast hget]
      exact hlimit
  | record _ ih =>
    rename_i parts _
    cases htype with
    | record hname hlength hfields =>
      rename_i name fields
      rw [List.length_map] at hlength
      obtain ⟨pairs, rfl, rfl⟩ := exists_pairs hlength
      rw [List.map_map, List.zip_map'] at hfields
      have hskip := eventually_forall fun pair hpair =>
        ih pair.2 (List.mem_map_of_mem hpair) (hfields _ (List.mem_map_of_mem hpair))
      refine eventually_succ hskip fun limit hlimit => ?_
      have hrecord := answers_skip_record hlimit
      unfold skip_data
      dsimp only
      rcases of_fields? hname with hname' | hname' <;> rw [hname'] <;> exact hrecord

end Skipping

/-! ## Reading -/

section Reading

variable {host : Host} {writers readers : Store}

theorem answers_read_primitive {p : PrimitiveType} {v : Value} {bytes : List UInt8}
    (htype : HasType writers (.primitive p) v) (hbytes : Encodes v bytes) {r : Schema}
    (hr : ∀ schemas, r ≠ .union schemas) (limit : ℕ) :
    Answers (read_data host writers readers (limit + 1) (.primitive p) r) bytes
      (resolve host writers readers (limit + 1) (.primitive p) r v) := by
  unfold read_data resolve
  split
  · exact Answers.throw _ _
  · rename_i hmatch
    cases r with
    | primitive q =>
      cases htype with
      | null =>
        cases hbytes
        exact Answers.pure _
      | boolean b =>
        cases hbytes
        exact Answers.map (answers_read_boolean b)
      | int _ =>
        cases hbytes with
        | long h => exact Answers.map (answers_read_long h)
      | long _ =>
        cases hbytes with
        | long h => exact Answers.map (answers_read_long h)
      | float bits =>
        cases hbytes
        exact answers_read_float host bits
      | double bits =>
        cases hbytes
        exact answers_read_double bits
      | bytes bytes =>
        cases hbytes with
        | bytes h => exact Answers.map (answers_read_bytes h)
      | string chars =>
        cases hbytes with
        | string h => exact Answers.map (answers_read_utf8 h)
    | union schemas => exact absurd rfl (hr schemas)
    | array _ => exact absurd rfl hmatch
    | map _ => exact absurd rfl hmatch
    | named _ => exact absurd rfl hmatch

theorem answers_read_enum {w r : Schema} {symbols readers_symbols : List PyString} {index : ℕ}
    (hindex : index < symbols.length) (hsize : index < 2 ^ 63) :
    Answers (read_enum w r symbols readers_symbols) (longBytes index) (do
      resolveSymbol w r readers_symbols (← getItem symbols index)) := by
  rw [getItem_natCast (List.getElem?_eq_getElem hindex)]
  have h : Answers (read_enum w r symbols readers_symbols) (longBytes index ++ [])
      (resolveSymbol w r readers_symbols symbols[index]) := by
    refine Answers.andThen (answers_read_long ⟨by omega, by omega⟩) ?_
    rw [if_neg (by omega), getItem_natCast (List.getElem?_eq_getElem hindex)]
    exact Answers.ofExcept _
  rwa [List.append_nil] at h

theorem answers_read_record {w r : Schema} {read : Schema → Schema → Decoder PyObj}
    {skip : Schema → Decoder Unit}
    {resolve : Schema → Schema → Value → Except AvroException PyObj}
    {read_default : Schema → PyObj → Except AvroException PyObj}
    {readers_fields : List Field} {pairs : List (Field × Value × List UInt8)}
    (hread : ∀ pair ∈ pairs, ∀ field : Field,
      dictGet (fields_dict readers_fields) pair.1.name = some field →
      Answers (read pair.1.type field.type) pair.2.2 (resolve pair.1.type field.type pair.2.1))
    (hskip : ∀ pair ∈ pairs, Answers (skip pair.1.type) pair.2.2 (.ok ())) :
    Answers (read_record host read skip read_default w r (pairs.map Prod.fst) readers_fields)
      ((pairs.map Prod.snd).flatMap Prod.snd)
      (resolveRecord host resolve read_default w r (pairs.map Prod.fst) readers_fields
        ((pairs.map Prod.snd).map Prod.fst)) := by
  unfold read_record resolveRecord
  dsimp only
  rw [List.map_map, List.zip_map', List.foldlM_map, List.foldlM_map, List.flatMap_map]
  rw [← List.append_nil (pairs.flatMap _)]
  refine Answers.bind (Answers.foldlM (fun pair hpair read_record => ?_) []) fun read_record _ =>
    Answers.ofExcept _
  unfold resolveField
  dsimp only [Function.comp_apply]
  cases hfield : dictGet (fields_dict readers_fields) pair.1.name with
  | some field => exact Answers.map (hread pair hpair field hfield)
  | none => exact Answers.map (hskip pair hpair)

/-- The field of the reader's record, if it is one, with this name -/
def readersField (readers_definition : Option Definition) (name : PyString) : Option Field := do
  dictGet (fields_dict (← (← readers_definition).fields?)) name

/-- What is read of a name, whatever the reader's definition is. -/
theorem answers_readDefinitions {w r : Schema} {read : Schema → Schema → Decoder PyObj}
    {skip : Schema → Decoder Unit}
    {resolve : Schema → Schema → Value → Except AvroException PyObj}
    {read_default : Schema → PyObj → Except AvroException PyObj}
    {pairs : List (Field × Value × List UInt8)} {definition : Definition}
    (hfields : definition.fields? = some (pairs.map Prod.fst))
    (readers_definition : Option Definition)
    (hread : ∀ pair ∈ pairs, ∀ field, readersField readers_definition pair.1.name = some field →
      Answers (read pair.1.type field.type) pair.2.2 (resolve pair.1.type field.type pair.2.1))
    (hskip : ∀ pair ∈ pairs, Answers (skip pair.1.type) pair.2.2 (.ok ())) :
    Answers (readDefinitions host read skip read_default w r (some definition) readers_definition)
      ((pairs.map Prod.snd).flatMap Prod.snd)
      (resolveDefinitions host resolve read_default w r (some definition) readers_definition
        (.record ((pairs.map Prod.snd).map Prod.fst))) := by
  cases definition with
  | record fields' =>
    cases hfields
    match readers_definition with
    | some (.record readers_fields) =>
      exact answers_read_record hread hskip
    | some (.fixed _) => exact Answers.throw _ _
    | some (.enum _) => exact Answers.throw _ _
    | some (.error _) => exact Answers.throw _ _
    | none => exact Answers.throw _ _
  | error fields' =>
    cases hfields
    match readers_definition with
    | some (.error readers_fields) =>
      exact answers_read_record hread hskip
    | some (.fixed _) => exact Answers.throw _ _
    | some (.enum _) => exact Answers.throw _ _
    | some (.record _) => exact Answers.throw _ _
    | none => exact Answers.throw _ _
  | fixed _ => cases hfields
  | enum _ => cases hfields

/-! ## Unions -/

theorem read_data_of_union (limit : ℕ) (schemas : List Schema) (r : Schema) :
    read_data host writers readers (limit + 1) (.union schemas) r
      = read_union (read_data host writers readers limit) schemas r := rfl

theorem resolve_of_union (limit index : ℕ) (schemas : List Schema) (r : Schema) (v : Value) :
    resolve host writers readers (limit + 1) (.union schemas) r (.union index v)
      = (do resolve host writers readers limit (← getItem schemas index) r v) := rfl

theorem read_data_union {w : Schema} (hw : ∀ schemas, w ≠ .union schemas) (limit : ℕ)
    (schemas : List Schema) :
    read_data host writers readers (limit + 1) w (.union schemas)
      = match schemas.find? (match_schemas writers readers w) with
        | some s => read_data host writers readers limit w s
        | none => throw (resolutionException "Schemas do not match." [] w (.union schemas)) := by
  cases w with
  | union _ => exact absurd rfl (hw _)
  | primitive p => rfl
  | _ => rfl

theorem resolve_union {w : Schema} (hw : ∀ schemas, w ≠ .union schemas) (limit : ℕ)
    (schemas : List Schema) (v : Value) :
    resolve host writers readers (limit + 1) w (.union schemas) v
      = match schemas.find? (match_schemas writers readers w) with
        | some s => resolve host writers readers limit w s v
        | none => throw (resolutionException "Schemas do not match." [] w (.union schemas)) := by
  cases w with
  | union _ => exact absurd rfl (hw _)
  | primitive p => rfl
  | _ => rfl

/-- `read_data` does as `resolve` does, wherever there is an encoding. -/
def Reads (host : Host) (writers readers : Store) (w r : Schema) (v : Value)
    (bytes : List UInt8) : Prop :=
  ∀ᶠ limit in atTop, Answers (read_data host writers readers limit w r) bytes
    (resolve host writers readers limit w r v)

theorem Reads.union {w : Schema} {v : Value} {bytes : List UInt8}
    (hw : ∀ schemas, w ≠ .union schemas)
    (h : ∀ r : Schema, (∀ schemas, r ≠ .union schemas) →
      Reads host writers readers w r v bytes) (r : Schema) :
    Reads host writers readers w r v bytes :=
  match r with
  | .primitive _ => h _ nofun
  | .array _ => h _ nofun
  | .map _ => h _ nofun
  | .named _ => h _ nofun
  | .union schemas => by
    cases hfind : schemas.find? (match_schemas writers readers w) with
    | none =>
      refine eventually_of_succ fun limit => ?_
      rw [read_data_union hw, resolve_union hw, hfind]
      exact Answers.throw _ _
    | some s =>
      have hmem := List.mem_of_find?_eq_some hfind
      refine eventually_succ (Reads.union hw h s) fun limit hlimit => ?_
      rw [read_data_union hw, resolve_union hw, hfind]
      exact hlimit
termination_by sizeOf r
decreasing_by
  have := List.sizeOf_lt_of_mem hmem
  simp only [Schema.union.sizeOf_spec]
  omega

/-! ## All schemas -/

theorem Reads.named {name : PyString} {v : Value} {bytes : List UInt8}
    (h : ∀ readers_name, ∀ᶠ limit in atTop,
      Answers
        (readDefinitions host (read_data host writers readers limit) (skip_data writers limit)
          (read_default_value host readers limit) (.named name) (.named readers_name)
          (writers.definition? name) (readers.definition? readers_name)) bytes
        (resolveDefinitions host (resolve host writers readers limit)
          (read_default_value host readers limit) (.named name) (.named readers_name)
          (writers.definition? name) (readers.definition? readers_name) v)) (r : Schema) :
    Reads host writers readers (.named name) r v bytes := by
  refine Reads.union (w := .named name) nofun (fun r hr => ?_) r
  cases r with
  | named readers_name =>
    refine eventually_succ (h readers_name) fun limit hlimit => ?_
    unfold read_data resolve
    split
    · exact Answers.throw _ _
    · exact hlimit
  | union schemas => exact absurd rfl (hr schemas)
  | _ => exact eventually_of_succ fun limit => Answers.throw _ _

theorem Reads.primitive {p : PrimitiveType} {v : Value} {bytes : List UInt8}
    (htype : HasType writers (.primitive p) v) (hbytes : Encodes v bytes) (r : Schema) :
    Reads host writers readers (.primitive p) r v bytes :=
  Reads.union (w := .primitive p) nofun
    (fun _ hr => eventually_of_succ (answers_read_primitive htype hbytes hr)) r

theorem Reads.array {s : Schema} {items : List Value} {bytes : List UInt8}
    (h : ∀ readers_items, ∀ᶠ limit in atTop,
      Answers (read_array (read_data host writers readers limit s readers_items) limit) bytes (do
        return .list (← items.mapM (resolve host writers readers limit s readers_items))))
    (r : Schema) : Reads host writers readers (.array s) r (.array items) bytes := by
  refine Reads.union (w := .array s) nofun (fun r hr => ?_) r
  cases r with
  | array readers_items =>
    refine eventually_succ (h readers_items) fun limit hlimit => ?_
    unfold read_data resolve
    split
    · exact Answers.throw _ _
    · exact hlimit
  | union schemas => exact absurd rfl (hr schemas)
  | _ => exact eventually_of_succ fun limit => Answers.throw _ _

theorem Reads.map {s : Schema} {entries : List (PyString × Value)} {bytes : List UInt8}
    (h : ∀ readers_values, ∀ᶠ limit in atTop,
      Answers (read_map (read_data host writers readers limit s readers_values) limit) bytes (do
        let read_items ← entries.foldlM (fun read_items (key, value) => do
          return dictSet read_items key
            (← resolve host writers readers limit s readers_values value)) []
        return .dict read_items))
    (r : Schema) : Reads host writers readers (.map s) r (.map entries) bytes := by
  refine Reads.union (w := .map s) nofun (fun r hr => ?_) r
  cases r with
  | map readers_values =>
    refine eventually_succ (h readers_values) fun limit hlimit => ?_
    unfold read_data resolve
    split
    · exact Answers.throw _ _
    · exact hlimit
  | union schemas => exact absurd rfl (hr schemas)
  | _ => exact eventually_of_succ fun limit => Answers.throw _ _

/-- A list built from the front. -/
theorem foldlM_append_singleton {ε α β : Type} (f : α → Except ε β) (l : List α) :
    l.foldlM (fun bs a => do return bs ++ [← f a]) [] = l.mapM f := by
  have hfold : ∀ (l : List α) (done : List β),
      l.foldlM (fun bs a => do return bs ++ [← f a]) done = (done ++ ·) <$> l.mapM f := by
    intro l
    induction l with
    | nil =>
      intro done
      show Except.ok done = Except.ok (done ++ [])
      rw [List.append_nil]
    | cons a l ih =>
      intro done
      rw [List.foldlM_cons, List.mapM_cons]
      cases f a with
      | error e => rfl
      | ok b =>
        show l.foldlM _ (done ++ [b]) = _
        rw [ih]
        cases l.mapM f with
        | error e => rfl
        | ok bs =>
          show Except.ok (done ++ [b] ++ bs) = Except.ok (done ++ b :: bs)
          rw [List.append_assoc, List.singleton_append]
  rw [hfold]
  cases l.mapM f <;> rfl

/-- The reader reads every encoding of a value, to the byte, as `resolve` says. -/
theorem answers_read_data {w : Schema} {v : Value} {bytes : List UInt8}
    (htype : HasType writers w v) (hbytes : Encodes v bytes) (r : Schema) :
    Reads host writers readers w r v bytes := by
  induction hbytes generalizing w r with
  | null =>
    cases htype
    exact Reads.primitive .null .null r
  | boolean b =>
    cases htype
    exact Reads.primitive (.boolean b) (.boolean b) r
  | long h =>
    cases htype with
    | int hrange => exact Reads.primitive (.int hrange) (.long h) r
    | long hrange => exact Reads.primitive (.long hrange) (.long h) r
  | float bits =>
    cases htype
    exact Reads.primitive (.float bits) (.float bits) r
  | double bits =>
    cases htype
    exact Reads.primitive (.double bits) (.double bits) r
  | bytes h =>
    cases htype
    exact Reads.primitive (.bytes _) (.bytes h) r
  | string h =>
    cases htype
    exact Reads.primitive (.string _) (.string h) r
  | fixed bytes =>
    cases htype with
    | fixed hname hsize =>
      refine Reads.named (fun _ => Eventually.of_forall fun _ => ?_) r
      rw [hname, ← hsize]
      exact Answers.map (answers_read_length bytes)
  | enum h =>
    cases htype with
    | enum hname hindex =>
      refine Reads.named (fun readers_name => Eventually.of_forall fun _ => ?_) r
      rw [hname]
      match readers.definition? readers_name with
      | some (.enum readers_symbols) => exact answers_read_enum hindex h
      | some (.fixed _) => exact Answers.throw _ _
      | some (.record _) => exact Answers.throw _ _
      | some (.error _) => exact Answers.throw _ _
      | none => exact Answers.throw _ _
  | array hfits _ ih =>
    rename_i blocks _
    cases htype with
    | array hitems =>
      refine Reads.array (fun items => ?_) r
      have hread := eventually_forall fun item hitem =>
        ih item hitem (hitems item.1 (List.mem_map_of_mem hitem)) items
      refine (hread.and (eventually_gt_atTop blocks.length)).mono fun limit hlimit => ?_
      rw [← foldlM_append_singleton, List.foldlM_map]
      refine Answers.map (answers_readBlocks hfits (fun item hitem read_items => ?_) hlimit.2 [])
      exact Answers.map (hlimit.1 item hitem)
  | map hfits hkeys _ ih =>
    rename_i blocks _
    cases htype with
    | map hentries =>
      refine Reads.map (fun values => ?_) r
      have hread := eventually_forall fun entry hentry =>
        ih entry hentry (hentries entry.1 (List.mem_map_of_mem hentry)) values
      refine (hread.and (eventually_gt_atTop blocks.length)).mono fun limit hlimit => ?_
      rw [List.foldlM_map]
      refine Answers.map (answers_readBlocks hfits (fun entry hentry read_items => ?_) hlimit.2 [])
      exact Answers.andThen (answers_read_utf8 (hkeys entry hentry))
        (Answers.map (hlimit.1 entry hentry))
  | union hindex _ ih =>
    cases htype with
    | union hget hv =>
      obtain ⟨hlt, -⟩ := List.getElem?_eq_some_iff.1 hget
      refine eventually_succ (ih hv r) fun limit hlimit => ?_
      rw [read_data_of_union, resolve_of_union, getItem_natCast hget]
      refine Answers.andThen (answers_read_long ⟨by omega, by omega⟩) ?_
      rw [if_neg (by omega), getItem_natCast hget]
      exact hlimit
  | record hparts ih =>
    rename_i parts
    cases htype with
    | record hname hlength hfields =>
      rename_i name fields
      rw [List.length_map] at hlength
      obtain ⟨pairs, rfl, rfl⟩ := exists_pairs hlength
      rw [List.map_map, List.zip_map'] at hfields
      have htypes : ∀ pair ∈ pairs, HasType writers pair.1.type pair.2.1 := fun pair hpair =>
        hfields _ (List.mem_map_of_mem hpair)
      refine Reads.named (fun readers_name => ?_) r
      have hskip := eventually_forall fun pair hpair =>
        answers_skip_data (htypes pair hpair) (hparts pair.2 (List.mem_map_of_mem hpair))
      have hread : ∀ᶠ limit in atTop, ∀ pair ∈ pairs, ∀ field,
          readersField (readers.definition? readers_name) pair.1.name = some field →
          Answers (read_data host writers readers limit pair.1.type field.type) pair.2.2
            (resolve host writers readers limit pair.1.type field.type pair.2.1) :=
        eventually_forall fun pair hpair => eventually_option fun field _ =>
          ih pair.2 (List.mem_map_of_mem hpair) (htypes pair hpair) field.type
      refine (hread.and hskip).mono fun limit hlimit => ?_
      unfold Store.fields? at hname
      obtain ⟨definition, hname, hdefinition⟩ := Option.bind_eq_some_iff.1 hname
      rw [hname]
      exact answers_readDefinitions hdefinition _ hlimit.1 hlimit.2

/-- Wherever the reader reads a datum, with any schema of its own, `skip_data` goes as far. -/
theorem skip_as_read {w : Schema} {v : Value} {bytes : List UInt8} (htype : HasType writers w v)
    (hbytes : Encodes v bytes) (r : Schema) (front back : List UInt8) :
    ∀ᶠ limit in atTop, ∀ datum t,
      read_data host writers readers limit w r (before front bytes back) = .ok datum t →
      skip_data writers limit w (before front bytes back) = .ok () t := by
  have hreads : Reads host writers readers w r v bytes := answers_read_data htype hbytes r
  filter_upwards [hreads, answers_skip_data htype hbytes] with limit hread hskip
  intro datum t hrun
  cases hresolve : resolve host writers readers limit w r v with
  | error e =>
    rw [hresolve] at hread
    obtain ⟨t', ht'⟩ := hread front back
    cases ht'.symm.trans hrun
  | ok datum' =>
    rw [hresolve] at hread
    obtain ⟨-, rfl⟩ := EStateM.Result.ok.inj ((hread front back).symm.trans hrun)
    exact hskip front back

/-- The entries of a map in two blocks, of which the second has its length in bytes. -/
def flagBlocks : List (Block ((PyString × Value) × List UInt8)) :=
  [⟨false, [((['a'], .boolean true), booleanBytes true)]⟩,
    ⟨true, [((['b'], .boolean false), booleanBytes false),
      ((['c'], .boolean true), booleanBytes true)]⟩]

theorem hasType_flagBlocks :
    HasType [] (.map (.primitive .boolean)) (.map ((itemsOf flagBlocks).map Prod.fst)) := by
  refine .map (List.forall_mem_map.2 fun entry hentry => ?_)
  simp only [itemsOf, flagBlocks, List.flatMap_cons, List.flatMap_nil, List.cons_append,
    List.nil_append, List.mem_cons, List.not_mem_nil, or_false] at hentry
  rcases hentry with rfl | rfl | rfl
  · exact .boolean true
  · exact .boolean false
  · exact .boolean true

theorem encodes_flagBlocks : Encodes (.map ((itemsOf flagBlocks).map Prod.fst))
    (blocksBytes entryBytes flagBlocks) := by
  have hlong : longBytes 1 = [2] := by
    unfold longBytes Varint.encode
    rfl
  have hentry : ∀ (c : Char) (b : Bool), encodeUtf8 [c] = [c.val.toUInt8] →
      entryBytes (([c], .boolean b), booleanBytes b) = [2, c.val.toUInt8, if b then 1 else 0] := by
    intro c b hc
    rw [entryBytes, bytesBytes, hc, List.append_assoc]
    exact congrArg (· ++ [c.val.toUInt8, if b then 1 else 0]) hlong
  refine .map ?_ ?_ ?_
  · have hsize : (((Block.mk true [((['b'], Value.boolean false), booleanBytes false),
        ((['c'], .boolean true), booleanBytes true)]).items).flatMap entryBytes).length
          < 2 ^ 63 := by
      rw [List.flatMap_cons, List.flatMap_singleton]
      rw [hentry 'b' false (by decide), hentry 'c' true (by decide)]
      decide
    simp only [flagBlocks, List.forall_mem_cons]
    exact ⟨⟨List.cons_ne_nil _ _, by decide, fun h => absurd h Bool.false_ne_true⟩,
      ⟨List.cons_ne_nil _ _, by decide, fun _ => hsize⟩, nofun⟩
  · decide
  · intro entry hentry
    simp only [itemsOf, flagBlocks, List.flatMap_cons, List.flatMap_nil, List.cons_append,
      List.nil_append, List.mem_cons, List.not_mem_nil, or_false] at hentry
    rcases hentry with rfl | rfl | rfl
    · exact .boolean true
    · exact .boolean false
    · exact .boolean true

theorem skip_as_read_flags : ∀ᶠ limit in atTop, ∀ datum t,
    read_data Host.plain [] [] limit (.map (.primitive .boolean))
        (.union [.primitive .null, .map (.primitive .boolean)])
        (before [1] (blocksBytes entryBytes flagBlocks) [2]) = .ok datum t →
      skip_data [] limit (.map (.primitive .boolean))
        (before [1] (blocksBytes entryBytes flagBlocks) [2]) = .ok () t :=
  skip_as_read hasType_flagBlocks encodes_flagBlocks _ [1] [2]

end Reading

end HadoopExamples.Avro
