import HadoopExamples.Avro.DataFile
import HadoopExamples.Avro.RoundTrip
import HadoopExamples.Avro.SchemaReadBack

set_option autoImplicit false

/-! # The header of a file

A `Container` is what a file keeps from its first byte to its last one. The header that a new writer
starts its file with is the encoding of a value of `META_SCHEMA`, so that what is read of it, by a
reader or by a writer that goes on with the file, follows from the format. -/

namespace HadoopExamples.Avro

open Python Tape Filter

structure Container where
  codec : PyString
  schema_text : List UInt8
  sync_marker : List UInt8
  writers_schema : SchemaObject
  valid : codec ∈ VALID_CODECS
  fits : schema_text.length < 2 ^ 63
  size : sync_marker.length = SYNC_SIZE

namespace Container

variable (c : Container) {host : Host} {imports : Imports}

/-- The metadata as a writer puts them in -/
def metadata : List (Key × PyObj) :=
  [(.unicode CODEC_KEY, .str (encodeUtf8 c.codec)), (.unicode SCHEMA_KEY, .str c.schema_text)]

/-- The metadata as they are in the header -/
def headerMetadata (host : Host) : List (Key × PyObj) := host.items c.metadata

def header (host : Host) : List (Key × PyObj) :=
  [(.unicode "magic".toList, .str MAGIC), (.unicode "meta".toList, .dict (c.headerMetadata host)),
    (.unicode "sync".toList, .str c.sync_marker)]

/-- An entry of the metadata, as a text with bytes -/
def metadataEntry (entry : Key × PyObj) : PyString × List UInt8 :=
  (entry.1.asString.getD [], match entry.2 with
    | .str bytes => bytes
    | _ => [])

/-- The metadata in the header, as texts with bytes -/
def headerEntries (host : Host) : List (PyString × List UInt8) :=
  (c.headerMetadata host).map metadataEntry

/-- The entries of the metadata, with their bytes. -/
def metadataParts (host : Host) : List ((PyString × Value) × List UInt8) :=
  (c.headerEntries host).map fun entry => ((entry.1, .bytes entry.2), bytesBytes entry.2)

def headerParts (host : Host) : List (Value × List UInt8) :=
  [(.fixed MAGIC, MAGIC),
    (.map ((c.metadataParts host).map Prod.fst),
      blocksBytes entryBytes [⟨false, c.metadataParts host⟩]),
    (.fixed c.sync_marker, c.sync_marker)]

def headerValue (host : Host) : Value := .record ((c.headerParts host).map Prod.fst)

def headerBytes (host : Host) : List UInt8 := (c.headerParts host).flatMap Prod.snd

theorem codec_cases : c.codec = "null".toList ∨ c.codec = "deflate".toList := by
  have h := c.valid
  simpa [VALID_CODECS] using h

theorem asString_codec : (PyObj.str (encodeUtf8 c.codec)).asString = some c.codec := by
  rcases c.codec_cases with h | h <;> rw [h] <;> decide

theorem length_codec : (encodeUtf8 c.codec).length < 2 ^ 63 := by
  rcases c.codec_cases with h | h <;> rw [h] <;> decide

/-! ## The metadata -/

theorem length_CODEC_KEY : (encodeUtf8 CODEC_KEY).length < 2 ^ 63 := by decide

theorem length_SCHEMA_KEY : (encodeUtf8 SCHEMA_KEY).length < 2 ^ 63 := by decide

theorem perm_headerEntries : (c.headerEntries host).Perm
    [(CODEC_KEY, encodeUtf8 c.codec), (SCHEMA_KEY, c.schema_text)] :=
  (host.items_perm c.metadata).map metadataEntry

theorem headerMetadata_eq : c.headerMetadata host
    = (c.headerEntries host).map fun entry => (.unicode entry.1, .str entry.2) := by
  unfold headerEntries
  rw [List.map_map]
  refine ((List.map_congr_left fun entry hentry => ?_).trans (List.map_id _)).symm
  have hmem := (host.items_perm c.metadata).mem_iff.1 hentry
  simp only [metadata, List.mem_cons, List.not_mem_nil, or_false] at hmem
  rcases hmem with rfl | rfl <;> rfl

theorem length_headerEntries : (c.headerEntries host).length = 2 :=
  c.perm_headerEntries.length_eq

theorem nodup_headerEntries : ((c.headerEntries host).map Prod.fst).Nodup :=
  (c.perm_headerEntries.map Prod.fst).nodup_iff.2 (show [CODEC_KEY, SCHEMA_KEY].Nodup by decide)

theorem headerEntries_fit : ∀ entry ∈ c.headerEntries host,
    (encodeUtf8 entry.1).length < 2 ^ 63 ∧ entry.2.length < 2 ^ 63 := by
  intro entry hentry
  have hmem := c.perm_headerEntries.mem_iff.1 hentry
  simp only [List.mem_cons, List.not_mem_nil, or_false] at hmem
  rcases hmem with rfl | rfl
  · exact ⟨length_CODEC_KEY, c.length_codec⟩
  · exact ⟨length_SCHEMA_KEY, c.fits⟩

theorem get_headerMetadata {entry : PyString × List UInt8}
    (h : entry ∈ [(CODEC_KEY, encodeUtf8 c.codec), (SCHEMA_KEY, c.schema_text)]) :
    PyObj.get (c.headerMetadata host) entry.1 = .str entry.2 := by
  have hnodup : (((c.headerEntries host).map fun entry => (entry.1, PyObj.str entry.2)).map
      Prod.fst).Nodup := by
    rw [List.map_map]
    exact c.nodup_headerEntries
  have hget := dictGet_dictOf hnodup (List.mem_map_of_mem (c.perm_headerEntries.mem_iff.2 h))
  rw [dictOf_eq hnodup, List.map_map] at hget
  rw [PyObj.get, headerMetadata_eq]
  exact congrArg (·.getD .none) hget

theorem get_codec : PyObj.get (c.headerMetadata host) CODEC_KEY = .str (encodeUtf8 c.codec) :=
  c.get_headerMetadata List.mem_cons_self

theorem get_schema : PyObj.get (c.headerMetadata host) SCHEMA_KEY = .str c.schema_text :=
  c.get_headerMetadata (List.mem_cons_of_mem _ List.mem_cons_self)

/-! ## The value of the header -/

theorem encodes_headerValue : Encodes (c.headerValue host) (c.headerBytes host) := by
  refine Encodes.record fun part hpart => ?_
  have hlength : (c.metadataParts host).length = 2 := by
    rw [metadataParts, List.length_map, length_headerEntries]
  have hfits : (c.metadataParts host).length < 2 ^ 63 := by
    rw [hlength]
    decide
  have hmeta : Encodes (.map ((c.metadataParts host).map Prod.fst))
      (blocksBytes entryBytes [⟨false, c.metadataParts host⟩]) := by
    have h := @Encodes.map [⟨false, c.metadataParts host⟩]
    rw [itemsOf, List.flatMap_singleton] at h
    refine h ?_ ?_ ?_
    · exact List.forall_mem_singleton.2 ⟨List.ne_nil_of_length_eq_add_one hlength, hfits,
        fun h => absurd h Bool.false_ne_true⟩
    · exact List.forall_mem_map.2 fun entry hentry => (c.headerEntries_fit entry hentry).1
    · exact List.forall_mem_map.2 fun entry hentry =>
        .bytes (c.headerEntries_fit entry hentry).2
  simp only [headerParts, List.mem_cons, List.not_mem_nil, or_false] at hpart
  rcases hpart with rfl | rfl | rfl
  · exact .fixed MAGIC
  · exact hmeta
  · exact .fixed c.sync_marker

theorem definition?_MAGIC_NAME :
    META_SCHEMA.store.definition? MAGIC_NAME = some (.fixed MAGIC.length) := rfl

theorem definition?_SYNC_NAME :
    META_SCHEMA.store.definition? SYNC_NAME = some (.fixed SYNC_SIZE) := rfl

theorem fields?_HEADER_NAME : META_SCHEMA.store.fields? HEADER_NAME = some HEADER_FIELDS := rfl

theorem hasType_headerValue :
    HasType META_SCHEMA.store META_SCHEMA.schema (c.headerValue host) := by
  refine HasType.record fields?_HEADER_NAME rfl ?_
  simp only [headerParts, HEADER_FIELDS, List.map_cons, List.map_nil, List.zip_cons_cons,
    List.zip_nil_right, List.forall_mem_cons]
  refine ⟨.fixed definition?_MAGIC_NAME rfl, .map ?_, .fixed definition?_SYNC_NAME ?_, nofun⟩
  · rw [metadataParts, List.map_map]
    exact List.forall_mem_map.2 fun entry _ => .bytes _
  · rw [c.size]

theorem represents_headerValue : Represents META_SCHEMA.store host META_SCHEMA.schema
    (c.headerValue host) (.dict (c.header host)) := by
  have hmeta : Represents META_SCHEMA.store host (.map (.primitive .bytes))
      (.map ((c.metadataParts host).map Prod.fst)) (.dict (c.headerMetadata host)) := by
    have h := @Represents.map META_SCHEMA.store host (.primitive .bytes)
      ((c.headerEntries host).map fun entry => ((entry.1, .bytes entry.2), .str entry.2))
      (List.forall_mem_map.2 fun entry _ => .bytes _)
    rw [dictOf_eq (by rw [List.map_map, List.map_map]; exact c.nodup_headerEntries),
      List.map_map, List.map_map, List.map_map] at h
    rw [metadataParts, List.map_map, headerMetadata_eq]
    exact h
  refine @Represents.record _ _ HEADER_NAME
    [((headerField "magic" (.named MAGIC_NAME), .fixed MAGIC), .str MAGIC),
      ((headerField "meta" (.map (.primitive .bytes)), _), .dict (c.headerMetadata host)),
      ((headerField "sync" (.named SYNC_NAME), .fixed c.sync_marker), .str c.sync_marker)] rfl ?_
  simp only [List.forall_mem_cons]
  exact ⟨.fixed definition?_MAGIC_NAME, hmeta, .fixed definition?_SYNC_NAME, nofun⟩

/-! ## Writing the header -/

theorem writes_write_bytes {bytes : List UInt8} (h : bytes.length < 2 ^ 63) :
    Writes (write_bytes bytes) (bytesBytes bytes) :=
  Writes.ofExcept (if_pos h) (Writes.seq (Writes.append (longBytes bytes.length))
    (Writes.append bytes))

theorem writes_write_utf8 {chars : PyString} (h : (encodeUtf8 chars).length < 2 ^ 63) :
    Writes (write_utf8 (.unicode chars)) (bytesBytes (encodeUtf8 chars)) :=
  Writes.ofExcept rfl (writes_write_bytes h)

theorem writes_write_header (limit : ℕ) : Writes
    (write_header host (limit + 3) c.metadata c.sync_marker) (c.headerBytes host) := by
  have hlength : (c.headerMetadata host).length = 2 := (host.items_perm c.metadata).length_eq
  have hlen : (len (c.headerMetadata host) : Except AvroException ℤ) = .ok 2 := by
    rw [len, hlength]
    rfl
  have hblock : blocksBytes entryBytes [⟨false, c.metadataParts host⟩]
      = longBytes 2 ++ ((c.metadataParts host).flatMap entryBytes ++ longBytes 0) := by
    unfold blocksBytes
    rw [List.flatMap_singleton, Block.bytes, List.append_assoc, Block.count, metadataParts,
      List.length_map, length_headerEntries]
    rfl
  have hmap : Writes (write_map (write_data host META_SCHEMA.store (limit + 1)
      (.primitive .bytes)) (.dict (c.headerMetadata host)))
      (blocksBytes entryBytes [⟨false, c.metadataParts host⟩]) := by
    rw [hblock]
    refine Writes.ofExcept rfl (Writes.ofExcept hlen ?_)
    refine Writes.seq (Writes.append (longBytes 2)) (Writes.seq ?_ (Writes.append (longBytes 0)))
    rw [headerMetadata_eq, metadataParts, List.flatMap_map, List.forM_eq_forM, List.forM_map]
    exact Writes.forM fun entry hentry => Writes.seq
      (writes_write_utf8 (c.headerEntries_fit entry hentry).1)
      (writes_write_bytes (c.headerEntries_fit entry hentry).2)
  have hfields : Writes (HEADER_FIELDS.forM fun field => write_data host META_SCHEMA.store
      (limit + 2) field.type (.get (c.header host) field.name)) (c.headerBytes host) := by
    exact Writes.seq (Writes.append MAGIC) (Writes.seq hmap
      (Writes.seq (Writes.append c.sync_marker) Writes.nothing))
  exact hfields

/-! ## Reading the header -/

theorem answers_read_header : ∀ᶠ limit in atTop,
    Answers (read_data host META_SCHEMA.store META_SCHEMA.store limit META_SCHEMA.schema
      META_SCHEMA.schema) (c.headerBytes host) (.ok (.dict (c.header host))) := by
  obtain ⟨hs, hstore⟩ := SchemaObject.wellFormed_of_parse (parse_META_SCHEMA 0)
  obtain ⟨datum, hrepresents, hresolves⟩ :=
    @exists_resolvesTo META_SCHEMA.store host hstore _ hs _ c.hasType_headerValue
  obtain rfl := hrepresents.unique c.represents_headerValue
  have hreads : Reads host META_SCHEMA.store META_SCHEMA.store META_SCHEMA.schema
      META_SCHEMA.schema (c.headerValue host) (c.headerBytes host) :=
    answers_read_data c.hasType_headerValue c.encodes_headerValue _
  filter_upwards [hreads, hresolves.self hs] with limit hanswers hresolve
  rwa [hresolve] at hanswers

theorem eventually_read_header : ∀ᶠ limit in atTop, ∀ back,
    read_header host limit ⟨c.headerBytes host ++ back, 0⟩
      = .ok (c.headerMetadata host, c.sync_marker)
        ⟨c.headerBytes host ++ back, (c.headerBytes host).length⟩ := by
  filter_upwards [@answers_read_header c host] with limit hanswers back
  have hseek : (seek 0 : Decoder Unit) ⟨c.headerBytes host ++ back, 0⟩
      = .ok () (before [] (c.headerBytes host) back) := rfl
  exact (Hoare.bind_of_ok hseek).trans (Hoare.bind_of_ok (hanswers [] back))

/-! ## Opening a file -/

/-- The text of the schema is read as the schema. -/
def Loads (imports : Imports) : Prop :=
  ∀ᶠ limit in atTop, parse limit (imports.loads c.schema_text) = .ok c.writers_schema

/-- The text is the one of the schema, and `json.loads` reads it. -/
def IsText (host : Host) (imports : Imports) : Prop :=
  ∀ limit json, c.writers_schema.toJson host limit = .ok json →
    imports.loads c.schema_text = some json

/-- A schema that has been parsed is loaded from its text, if its references are found again. -/
theorem loads_of_printable (htext : c.IsText host imports) {n : ℕ} {json_data : Option PyObj}
    (hparse : parse n json_data = .ok c.writers_schema) (h : c.writers_schema.Printable) :
    c.Loads imports := by
  obtain ⟨json, hprint, hread⟩ := parse_to_json host hparse h
  obtain ⟨limit, hjson⟩ := hprint.exists
  unfold Loads
  rwa [htext limit json hjson]

/-- A writer for a file with this content. -/
def opened (content : List UInt8) : DataFileWriter where
  writer := content
  buffer_writer := []
  block_count := 0
  metadata := c.metadata
  sync_marker := c.sync_marker
  writers_schema := c.writers_schema

theorem new_writer : ∀ᶠ limit in atTop,
    DataFileWriter.new host limit c.writers_schema c.schema_text (.str (encodeUtf8 c.codec))
      c.sync_marker = .ok (c.opened (c.headerBytes host)) := by
  filter_upwards [eventually_ge_atTop 3] with limit hlimit
  obtain ⟨limit, rfl⟩ := Nat.exists_eq_add_of_le' hlimit
  have hvalid : ((PyObj.str (encodeUtf8 c.codec)).asString.all (· ∉ VALID_CODECS)) = false := by
    rw [c.asString_codec]
    exact decide_eq_false (not_not_intro c.valid)
  have hheader := @writes_write_header c host limit []
  unfold DataFileWriter.new
  rw [hvalid]
  have hmetadata : dictSet (dictSet [] CODEC_KEY (.str (encodeUtf8 c.codec))) SCHEMA_KEY
      (.str c.schema_text) = c.metadata := rfl
  dsimp only
  rw [hmetadata, hheader]
  rfl

/-- A reader at the end of the header. -/
def reader (host : Host) (back : List UInt8) (readers_schema : Option SchemaObject) :
    DataFileReader where
  reader := ⟨c.headerBytes host ++ back, (c.headerBytes host).length⟩
  datum_decoder := none
  block_count := 0
  metadata := c.headerMetadata host
  sync_marker := c.sync_marker
  codec := c.codec
  file_length := (c.headerBytes host ++ back).length
  writers_schema := c.writers_schema
  readers_schema := readers_schema

theorem new_reader (h : c.Loads imports) : ∀ᶠ limit in atTop, ∀ back readers_schema,
    DataFileReader.new host imports limit (c.headerBytes host ++ back) readers_schema
      = .ok (c.reader host back readers_schema) := by
  filter_upwards [h, @eventually_read_header c host] with limit hparse hheader back R
  unfold DataFileReader.new
  rw [hheader back]
  dsimp only
  rw [get_codec, get_schema]
  dsimp only
  rw [c.asString_codec]
  dsimp only
  rw [if_pos c.valid, hparse]
  rfl

theorem reopen_writer (h : c.Loads imports) : ∀ᶠ limit in atTop, ∀ back,
    DataFileWriter.reopen host imports limit (c.headerBytes host ++ back)
      = .ok (c.opened (c.headerBytes host ++ back)) := by
  filter_upwards [@new_reader c host imports h] with limit hreader back
  unfold DataFileWriter.reopen
  rw [hreader back none]
  show Except.ok { c.opened (c.headerBytes host ++ back) with
    metadata := dictSet (dictSet [] CODEC_KEY (.get (c.headerMetadata host) CODEC_KEY)) SCHEMA_KEY
      (.get (c.headerMetadata host) SCHEMA_KEY) } = _
  rw [get_codec, get_schema]
  rfl

end Container

end HadoopExamples.Avro
