import HadoopExamples.Avro.DataFileReader

set_option autoImplicit false

/-! # A file of users

`write_bunch_of_users.py` and `read_users.py`: a dictionary goes into a file, word by word, up to the
first one that is greater than "l", and that one too; and all of it is read back. -/

namespace HadoopExamples.Avro

open Python Filter

/-! ## The programs -/

/-- The JSON of `user.avsc` -/
def USER_JSON : PyObj :=
  let unicode (s : String) : PyObj := .unicode s.toList
  let obj (entries : List (String × PyObj)) : PyObj :=
    .dict (entries.map fun entry => (.unicode entry.1.toList, entry.2))
  obj [("namespace", unicode "example.avro"), ("type", unicode "record"), ("name", unicode "User"),
    ("fields", .list [
      obj [("name", unicode "fullname"), ("type", unicode "string")],
      obj [("name", unicode "favorite_number"), ("type", .list [unicode "int", unicode "null"])],
      obj [("name", unicode "favorite_color"), ("type", .list [unicode "string", unicode "null"])]])]

def USER_FIELDS : List Field :=
  [headerField "fullname" (.primitive .string),
    headerField "favorite_number" (.union [.primitive .int, .primitive .null]),
    headerField "favorite_color" (.union [.primitive .string, .primitive .null])]

def USER_NAME : PyString := "example.avro.User".toList

def USER_SCHEMA : SchemaObject :=
  { schema := .named USER_NAME
    store := [(USER_NAME, ⟨"User".toList, some "example.avro".toList, .record USER_FIELDS⟩)] }

theorem parse_USER_SCHEMA (limit : ℕ) : parse (limit + 3) (some USER_JSON) = .ok USER_SCHEMA := by
  rfl

/-- `{"fullname": word, "favorite_number": len(word)}` -/
def user (word : List UInt8) : PyObj :=
  .dict [(.str (encodeUtf8 "fullname".toList), .str word),
    (.str (encodeUtf8 "favorite_number".toList), .int word.length)]

/-- The loop over the dictionary, which ends behind the first word that is greater than "l". -/
def addWords (host : Host) (imports : Imports) (limit : ℕ) : List (List UInt8) → FileWriter Unit
  | [] => return ()
  | word :: dictionary_file => do
    append host imports limit (user word)
    if word > encodeUtf8 "l".toList then return () else addWords host imports limit dictionary_file

/-- `write_bunch_of_users.py`, with what it leaves in `users.avro`; `str` is `str(schema)`. -/
def write_bunch_of_users (host : Host) (imports : Imports) (limit : ℕ)
    (str : SchemaObject → List UInt8) (sync_marker user_avsc : List UInt8)
    (dictionary_file : List (List UInt8)) : Except AvroException (List UInt8) := do
  let schema ← parse limit (imports.loads user_avsc)
  let writer ← DataFileWriter.new host limit schema (str schema)
    (.str (encodeUtf8 "null".toList)) sync_marker
  match (do addWords host imports limit dictionary_file; flush imports : FileWriter Unit) writer with
  | .ok _ writer => return writer.writer
  | .error e _ => throw e

/-- `read_users.py`, with the users that it prints -/
def read_users (host : Host) (imports : Imports) (limit rounds : ℕ) (users_avro : List UInt8) :
    Except AvroException (List PyObj) := do
  let reader ← DataFileReader.new host imports limit users_avro none
  match readAll (next host imports limit) rounds reader with
  | .ok users _ => return users
  | .error e _ => throw e

/-! ## One user -/

/-- What `validate` tells of a word, and what can be written of it -/
structure Addable (word : List UInt8) : Prop where
  length : word.length ≤ INT_MAX_VALUE
  ascii : word.all (· < 128)

/-- The bytes of a user: the union of its number has the schema of numbers first, and the union of
    its color the one for none last. -/
def userBytes (word : List UInt8) : List UInt8 :=
  bytesBytes word ++ ((longBytes 0 ++ longBytes word.length) ++ longBytes 1)

section User

variable {host : Host} (word : List UInt8) (limit : ℕ)

theorem validatePrimitive_length :
    validatePrimitive .int (.int word.length) = decide (word.length ≤ INT_MAX_VALUE) := by
  have hmin : INT_MIN_VALUE ≤ (word.length : ℤ) := le_trans (by decide) (Int.natCast_nonneg _)
  exact decide_eq_decide.2 (and_iff_right hmin)

theorem validate_user : validate USER_SCHEMA.store (limit + 3) USER_SCHEMA.schema (user word)
    = .ok (decide (word.length ≤ INT_MAX_VALUE)) := by
  have hnumber : validate USER_SCHEMA.store (limit + 2) (.union [.primitive .int, .primitive .null])
      (.int word.length) = .ok (decide (word.length ≤ INT_MAX_VALUE)) := by
    have hrun : validate USER_SCHEMA.store (limit + 2) (.union [.primitive .int, .primitive .null])
        (.int word.length)
          = .ok ([validatePrimitive .int (.int word.length), false].contains true) := rfl
    rw [hrun, validatePrimitive_length]
    cases decide ((word.length : ℤ) ≤ INT_MAX_VALUE) <;> rfl
  have hfields : validate USER_SCHEMA.store (limit + 3) USER_SCHEMA.schema (user word) = (do
      let valid ← validate USER_SCHEMA.store (limit + 2)
        (.union [.primitive .int, .primitive .null]) (.int word.length)
      return !([true, valid, true].contains false)) := rfl
  rw [hfields, hnumber]
  cases decide ((word.length : ℤ) ≤ INT_MAX_VALUE) <;> rfl

theorem indexOfSchema_number (h : word.length ≤ INT_MAX_VALUE) :
    indexOfSchema (validate USER_SCHEMA.store (limit + 1)) [.primitive .int, .primitive .null]
      (.int word.length) = .ok 0 := by
  have hrun : indexOfSchema (validate USER_SCHEMA.store (limit + 1))
      [.primitive .int, .primitive .null] (.int word.length)
        = .ok (if validatePrimitive .int (.int word.length) then 0 else -1) := rfl
  rw [hrun, validatePrimitive_length, decide_eq_true h]
  rfl

theorem writes_user (h : Addable word) :
    Writes (write_data host USER_SCHEMA.store (limit + 3) USER_SCHEMA.schema (user word))
      (userBytes word) := by
  have hlength : word.length < 2 ^ 63 := by
    have hmax := h.length
    unfold INT_MAX_VALUE at hmax
    omega
  have hfullname : Writes (write_utf8 (.str word)) (bytesBytes word) :=
    Writes.ofExcept (if_pos h.ascii) (Container.writes_write_bytes hlength)
  have hnumber : Writes (write_union (validate USER_SCHEMA.store (limit + 1))
      (write_data host USER_SCHEMA.store (limit + 1)) [.primitive .int, .primitive .null]
      (.int word.length)) (longBytes 0 ++ longBytes word.length) :=
    Writes.ofExcept (indexOfSchema_number word limit h.length)
      (Writes.seq (Writes.append (longBytes 0)) (Writes.append (longBytes word.length)))
  have hcolor : Writes (write_union (validate USER_SCHEMA.store (limit + 1))
      (write_data host USER_SCHEMA.store (limit + 1)) [.primitive .string, .primitive .null]
      .none) (longBytes 1) :=
    Writes.append (longBytes 1)
  have hfields := Writes.seq hfullname (Writes.seq hnumber (Writes.seq hcolor Writes.nothing))
  rw [List.append_nil] at hfields
  exact hfields

theorem writeDatum_user (h : Addable word) :
    Writes (writeDatum host USER_SCHEMA.store (limit + 3) USER_SCHEMA.schema (user word))
      (userBytes word) := by
  refine Writes.ofExcept (validate_user word limit) ?_
  rw [decide_eq_true h.length]
  exact writes_user word limit h

/-- Nothing is written of a word that cannot be added. -/
theorem writeDatum_user_error (h : ¬ Addable word) (buffer : List UInt8) :
    ∃ e, writeDatum host USER_SCHEMA.store (limit + 3) USER_SCHEMA.schema (user word) buffer
      = .error e buffer := by
  unfold writeDatum
  rw [validate_user]
  by_cases hlength : word.length ≤ INT_MAX_VALUE
  · have hascii : ¬ word.all (· < 128) = true := fun hascii => h ⟨hlength, hascii⟩
    have hfullname : write_utf8 (.str word) buffer = .error .unicodeError buffer := by
      have hencode : encodeString (.str word) = .error .unicodeError := if_neg hascii
      unfold write_utf8
      rw [hencode]
      rfl
    have hdata : write_data host USER_SCHEMA.store (limit + 3) USER_SCHEMA.schema (user word)
        buffer = .error .unicodeError buffer := by
      unfold USER_SCHEMA write_data
      exact (Hoare.bind_of_ok rfl).trans (Hoare.bind_of_error hfullname)
    rw [decide_eq_true hlength]
    exact ⟨_, hdata⟩
  · rw [decide_eq_false hlength]
    exact ⟨_, rfl⟩

theorem length_longBytes_le {n : ℕ} (h : n < 2 ^ 63) : (longBytes n).length ≤ 2 * n + 1 := by
  unfold longBytes
  rw [Varint.zigzag_natCast h, Int.toNat_natCast]
  exact Varint.length_encode_le (2 * n)

theorem length_userBytes_le (h : word.length ≤ INT_MAX_VALUE) :
    (userBytes word).length < 2 ^ 34 := by
  unfold INT_MAX_VALUE at h
  have hword := @length_longBytes_le word.length (by omega)
  have hnumber := @length_longBytes_le 0 (by omega)
  have hcolor := @length_longBytes_le 1 (by omega)
  unfold userBytes bytesBytes
  simp only [List.length_append, Nat.cast_zero, Nat.cast_one] at *
  omega

end User

/-! ## The loop -/

/-- What is added of a dictionary: the words up to the first one that is greater than "l". -/
def added (dictionary_file : List (List UInt8)) : List (List UInt8) :=
  dictionary_file.take (dictionary_file.findIdx (fun word => word > encodeUtf8 "l".toList) + 1)

theorem added_cons (word : List UInt8) (dictionary_file : List (List UInt8)) :
    added (word :: dictionary_file)
      = word :: if word > encodeUtf8 "l".toList then [] else added dictionary_file := by
  unfold added
  rw [List.findIdx_cons]
  by_cases h : word > encodeUtf8 "l".toList
  · rw [decide_eq_true h, if_pos h]
    rfl
  · rw [decide_eq_false h, if_neg h]
    rfl

theorem null_mem_VALID_CODECS : "null".toList ∈ VALID_CODECS := by decide

/-- A file of users, with the null codec -/
def usersFile (schema_text sync_marker : List UInt8) (hfits : schema_text.length < 2 ^ 63)
    (hsize : sync_marker.length = SYNC_SIZE) : Container where
  codec := "null".toList
  schema_text := schema_text
  sync_marker := sync_marker
  writers_schema := USER_SCHEMA
  valid := null_mem_VALID_CODECS
  fits := hfits
  size := hsize

/-- The file is one of users, and its blocks are not compressed. -/
structure IsUsers (c : Container) : Prop where
  codec : c.codec = "null".toList
  schema : c.writers_schema = USER_SCHEMA

/-- What holds of the writer between two words. -/
structure Adding (host : Host) (imports : Imports) (c : Container) (data : List PyObj)
    (w : DataFileWriter) : Prop where
  holds : c.Holds host imports data w
  buffer : w.buffer_writer.length < SYNC_INTERVAL

section File

variable {host : Host} {imports : Imports} {c : Container} {data : List PyObj}
  {w : DataFileWriter} {word : List UInt8} {blocks : List (List Part)} {pending : List Part}

/-- A block that is not compressed is written if it is not too large itself. -/
theorem write_users (hc : IsUsers c) (hne : pending ≠ [])
    (hlength : (pending.flatMap Prod.snd).length < 2 ^ 63) :
    write_block imports (c.state host imports blocks pending)
      = .ok () (c.state host imports (blocks ++ [pending]) []) := by
  have hdata : c.compressed imports (pending.flatMap Prod.snd) = pending.flatMap Prod.snd :=
    if_pos hc.codec
  rw [Container.write_block_of_ne_nil _ hne, hdata, if_pos hlength]

theorem writes_user_datum (hc : IsUsers c) (limit : ℕ) (hword : Addable word) :
    Writes (writeDatum host c.writers_schema.store (limit + 3) c.writers_schema.schema (user word))
      (userBytes word) := by
  rw [hc.schema]
  exact writeDatum_user word limit hword

/-- The buffer is below the size of a block, so a word more does not make it too large. -/
theorem Adding.append (h : Adding host imports c data w) (hc : IsUsers c) (limit : ℕ)
    (hlength : (data ++ [user word]).length < 2 ^ 63) (hword : Addable word) :
    ∃ w', append host imports (limit + 3) (user word) w = .ok () w' ∧
      Adding host imports c (data ++ [user word]) w' := by
  obtain ⟨hholds, hbuffer⟩ := h
  have hrun : ∃ w', Avro.append host imports (limit + 3) (user word) w = .ok () w' ∧
      w'.buffer_writer.length < SYNC_INTERVAL := by
    obtain ⟨blocks, pending, -, rfl⟩ := hholds
    have hpending : ((pending ++ [(user word, userBytes word)]).flatMap Prod.snd).length
        < SYNC_INTERVAL + 2 ^ 34 := by
      have hbuffer' : (pending.flatMap Prod.snd).length < SYNC_INTERVAL := hbuffer
      rw [List.flatMap_append, List.flatMap_singleton, List.length_append]
      exact Nat.add_lt_add hbuffer' (length_userBytes_le word hword.length)
    have hne : pending ++ [(user word, userBytes word)] ≠ [] :=
      List.append_ne_nil_of_right_ne_nil _ (List.cons_ne_nil _ _)
    rw [Container.append_eq _ (writes_user_datum hc limit hword)]
    split
    · exact ⟨_, write_users hc hne (lt_trans hpending (by decide)), Nat.zero_lt_of_lt hbuffer⟩
    · rename_i hless
      exact ⟨_, rfl, Nat.lt_of_not_le hless⟩
  obtain ⟨w', hrun, hbuffer'⟩ := hrun
  exact ⟨w', hrun, hholds.append hlength hrun, hbuffer'⟩

theorem append_user_error (h : Adding host imports c data w) (hc : IsUsers c) (limit : ℕ)
    (hword : ¬ Addable word) : ∃ e, append host imports (limit + 3) (user word) w = .error e w := by
  obtain ⟨⟨blocks, pending, -, rfl⟩, -⟩ := h
  obtain ⟨e, he⟩ := @writeDatum_user_error host word limit hword
    (c.state host imports blocks pending).buffer_writer
  rw [← hc.schema] at he
  have hbuffer : buffer_encoder (writeDatum host c.writers_schema.store (limit + 3)
      c.writers_schema.schema (user word)) (c.state host imports blocks pending)
        = .error e (c.state host imports blocks pending) := by
    unfold buffer_encoder
    rw [he]
  exact ⟨e, (Hoare.bind_of_ok rfl).trans (Hoare.bind_of_error hbuffer)⟩

/-- The loop is through with all words that are to be added, or it stops at one that cannot be. -/
theorem addWords_ends (hc : IsUsers c) (limit : ℕ) (dictionary_file : List (List UInt8))
    (h : Adding host imports c data w)
    (hlength : (data ++ (added dictionary_file).map user).length < 2 ^ 63) :
    ((∀ word ∈ added dictionary_file, Addable word) ∧
      ∃ w', addWords host imports (limit + 3) dictionary_file w = .ok () w' ∧
        Adding host imports c (data ++ (added dictionary_file).map user) w') ∨
    ((∃ word ∈ added dictionary_file, ¬ Addable word) ∧
      ∃ e w', addWords host imports (limit + 3) dictionary_file w = .error e w') := by
  induction dictionary_file generalizing data w with
  | nil =>
    refine .inl ⟨fun word hmem => absurd hmem List.not_mem_nil, w, rfl, ?_⟩
    rwa [show (added []).map user = [] from rfl, List.append_nil]
  | cons word dictionary_file ih =>
    rw [added_cons, List.map_cons] at hlength ⊢
    by_cases hword : Addable word
    · have hshort : (data ++ [user word]).length < 2 ^ 63 := by
        rw [List.length_append, List.length_cons] at hlength
        rw [List.length_append, List.length_singleton]
        omega
      obtain ⟨w₁, hrun, hadding⟩ := h.append hc limit hshort hword
      have hloop : addWords host imports (limit + 3) (word :: dictionary_file) w
          = (if word > encodeUtf8 "l".toList then return () else
              addWords host imports (limit + 3) dictionary_file : FileWriter Unit) w₁ :=
        Hoare.bind_of_ok hrun
      rw [hloop]
      by_cases hbreak : word > encodeUtf8 "l".toList
      · rw [if_pos hbreak, if_pos hbreak]
        exact .inl ⟨List.forall_mem_singleton.2 hword, w₁, rfl, hadding⟩
      · rw [if_neg hbreak, List.append_cons] at hlength
        rw [if_neg hbreak, if_neg hbreak, List.append_cons]
        rcases ih hadding hlength with ⟨hall, hrest⟩ | ⟨⟨bad, hmem, hbad⟩, hrest⟩
        · exact .inl ⟨List.forall_mem_cons.2 ⟨hword, hall⟩, hrest⟩
        · exact .inr ⟨⟨bad, List.mem_cons_of_mem _ hmem, hbad⟩, hrest⟩
    · obtain ⟨e, he⟩ := append_user_error h hc limit hword
      exact .inr ⟨⟨word, List.mem_cons_self, hword⟩, e, w, Hoare.bind_of_error he⟩

theorem Adding.flush (h : Adding host imports c data w) (hc : IsUsers c)
    (hlength : data.length < 2 ^ 63) : ∃ blocks,
      flush imports w = .ok () (c.state host imports blocks []) ∧
      c.Contents host imports data blocks [] := by
  obtain ⟨hholds, hbuffer⟩ := h
  have hrun : ∃ w', Avro.flush imports w = .ok () w' := by
    obtain ⟨blocks, pending, -, rfl⟩ := hholds
    rcases eq_or_ne pending [] with rfl | hne
    · exact ⟨_, rfl⟩
    · exact ⟨_, write_users hc hne (lt_trans hbuffer (by decide))⟩
  obtain ⟨w', hrun⟩ := hrun
  obtain ⟨blocks, hcontents, rfl⟩ := hholds.write_block hlength hrun
  exact ⟨blocks, hrun, hcontents⟩

theorem adding_opened : Adding host imports c [] (c.opened (c.headerBytes host)) := by
  refine ⟨Container.holds_opened, ?_⟩
  show 0 < SYNC_INTERVAL
  decide

theorem IsUsers.inflates (hc : IsUsers c) : c.Inflates imports := by
  intro hdeflate
  rw [hc.codec] at hdeflate
  exact absurd hdeflate (by decide)

end File

/-! ## What is read -/

/-- The characters of a word -/
def wordChars (word : List UInt8) : PyString := word.map fun b => Char.ofNat b.toNat

/-- A user as it is read: the name is unicode, and there is a color. -/
def readUser (word : List UInt8) : PyObj :=
  .dict [(.unicode "fullname".toList, .unicode (wordChars word)),
    (.unicode "favorite_number".toList, .int word.length),
    (.unicode "favorite_color".toList, .none)]

def userValue (word : List UInt8) : Value :=
  .record [.string (wordChars word), .union 0 (.long word.length), .union 1 .null]

section Reading

variable {host : Host} {store : Store} {word : List UInt8} {v : Value}

theorem not_validates {type : PrimitiveType} {datum : PyObj}
    (h : validatePrimitive type datum = false) :
    ¬ Validates store (.primitive type) datum true := by
  rintro ⟨limit, hlimit⟩
  cases limit with
  | zero => cases hlimit
  | succ limit =>
    have hvalid : validatePrimitive type datum = true := Except.ok.inj hlimit
    rw [h] at hvalid
    cases hvalid

theorem takes_fullname (h : Takes host store (.primitive .string) (.str word) v) :
    v = .string (wordChars word) := by
  cases h with
  | string hchars =>
    have hascii : decodeAscii word = some _ := hchars
    unfold decodeAscii at hascii
    split at hascii
    · cases hascii
      rfl
    · cases hascii

theorem takes_number {n : ℤ}
    (h : Takes host store (.union [.primitive .int, .primitive .null]) (.int n) v) :
    v = .union 0 (.long n) := by
  cases h with
  | union hindex hvalid hlast h =>
    rename_i index s v
    rcases index with _ | _ | index
    · cases hindex
      cases h with
      | int hn =>
        cases hn
        rfl
    · cases hindex
      exact absurd hvalid (not_validates rfl)
    · cases hindex

theorem takes_color
    (h : Takes host store (.union [.primitive .string, .primitive .null]) .none v) :
    v = .union 1 .null := by
  cases h with
  | union hindex hvalid hlast h =>
    rename_i index s v
    rcases index with _ | _ | index
    · cases hindex
      exact absurd hvalid (not_validates rfl)
    · cases hindex
      cases h
      rfl
    · cases hindex

theorem fields?_USER_NAME : USER_SCHEMA.store.fields? USER_NAME = some USER_FIELDS := rfl

theorem takes_user (h : Takes host USER_SCHEMA.store USER_SCHEMA.schema (user word) v) :
    v = userValue word := by
  have hdefinition : USER_SCHEMA.store.definition? USER_NAME = some (.record USER_FIELDS) := rfl
  cases h with
  | enum hname _ _ =>
    rw [hdefinition] at hname
    cases hname
  | record hname hparts =>
    rename_i parts
    rw [fields?_USER_NAME, Option.some_inj] at hname
    obtain ⟨fullname, parts, rfl, hfullname, hname⟩ := List.map_eq_cons_iff.1 hname.symm
    obtain ⟨number, parts, rfl, hnumber, hname⟩ := List.map_eq_cons_iff.1 hname
    obtain ⟨color, parts, rfl, hcolor, hname⟩ := List.map_eq_cons_iff.1 hname
    obtain rfl := List.map_eq_nil_iff.1 hname
    simp only [List.forall_mem_cons] at hparts
    obtain ⟨hfirst, hsecond, hthird, -⟩ := hparts
    rw [hfullname] at hfirst
    rw [hnumber] at hsecond
    rw [hcolor] at hthird
    rw [List.map_cons, List.map_cons, List.map_cons, List.map_nil, takes_fullname hfirst,
      takes_number hsecond, takes_color hthird]
    rfl

theorem represents_user : Represents USER_SCHEMA.store host USER_SCHEMA.schema (userValue word)
    (readUser word) := by
  refine @Represents.record _ _ USER_NAME
    [((headerField "fullname" (.primitive .string), _), .unicode (wordChars word)),
      ((headerField "favorite_number" (.union [.primitive .int, .primitive .null]), _),
        .int word.length),
      ((headerField "favorite_color" (.union [.primitive .string, .primitive .null]), _), .none)]
    rfl ?_
  simp only [List.forall_mem_cons]
  exact ⟨.string _, .union rfl (.int _), .union rfl .null, fun _ h => absurd h List.not_mem_nil⟩

end Reading

/-! ## Both programs -/

section Programs

variable {host : Host} {imports : Imports} {limit : ℕ} {str : SchemaObject → List UInt8}
  {sync_marker user_avsc : List UInt8}

section Writing

variable {w : DataFileWriter} {dictionary_file : List (List UInt8)}
  (hjson : imports.loads user_avsc = some USER_JSON)
  (hnew : DataFileWriter.new host (limit + 3) USER_SCHEMA (str USER_SCHEMA)
    (.str (encodeUtf8 "null".toList)) sync_marker = .ok w)

include hjson hnew

theorem write_bunch_of_users_of_ok {w' : DataFileWriter}
    (hrun : (do addWords host imports (limit + 3) dictionary_file; flush imports :
      FileWriter Unit) w = .ok () w') :
    write_bunch_of_users host imports (limit + 3) str sync_marker user_avsc dictionary_file
      = .ok w'.writer := by
  unfold write_bunch_of_users
  rw [hjson, parse_USER_SCHEMA]
  dsimp only [Bind.bind, Except.bind] at hrun ⊢
  rw [hnew]
  dsimp only
  rw [hrun]
  rfl

theorem write_bunch_of_users_of_error {e : AvroException} {w' : DataFileWriter}
    (hrun : addWords host imports (limit + 3) dictionary_file w = .error e w') :
    write_bunch_of_users host imports (limit + 3) str sync_marker user_avsc dictionary_file
      = .error e := by
  have hboth : (do addWords host imports (limit + 3) dictionary_file; flush imports :
      FileWriter Unit) w = .error e w' := Hoare.bind_of_error hrun
  unfold write_bunch_of_users
  rw [hjson, parse_USER_SCHEMA]
  dsimp only [Bind.bind, Except.bind] at hboth ⊢
  rw [hnew]
  dsimp only
  rw [hboth]
  rfl

end Writing

theorem read_users_of_ok {rounds : ℕ} {users_avro : List UInt8} {r r' : DataFileReader}
    {users : List PyObj}
    (hnew : DataFileReader.new host imports limit users_avro none = .ok r)
    (hread : readAll (next host imports limit) rounds r = .ok users r') :
    read_users host imports limit rounds users_avro = .ok users := by
  unfold read_users
  rw [hnew]
  dsimp only [Bind.bind, Except.bind]
  rw [hread]
  rfl

theorem eq_of_forall₂_represents {words : List (List UInt8)} {data' : List PyObj}
    (h : List.Forall₂ (fun datum datum' => ∃ v,
      Takes host USER_SCHEMA.store USER_SCHEMA.schema datum v ∧
      Represents USER_SCHEMA.store host USER_SCHEMA.schema v datum') (words.map user) data') :
    data' = words.map readUser := by
  have hequal : List.Forall₂ (· = ·) (words.map readUser) data' := by
    rw [List.forall₂_map_left_iff] at h ⊢
    refine h.imp ?_
    rintro word datum' ⟨v, htakes, hrepresents⟩
    obtain rfl := takes_user htakes
    exact represents_user.unique hrepresents
  exact (List.forall₂_eq_eq_eq ▸ hequal : words.map readUser = data').symm

/-- `write_bunch_of_users.py` gets to its end exactly if all words that it adds are ASCII, and short
    enough for their lengths to be an `int`. What `read_users.py` then prints is a user for each of
    them, in their order, if the file behind its header does not begin with the sync marker. -/
theorem read_users_written (hjson : imports.loads user_avsc = some USER_JSON)
    (hstr : imports.loads (str USER_SCHEMA) = some USER_JSON)
    (hfits : (str USER_SCHEMA).length < 2 ^ 63) (hsize : sync_marker.length = SYNC_SIZE) :
    ∀ᶠ limit in atTop, ∀ dictionary_file, (added dictionary_file).length < 2 ^ 63 →
      ((∃ users_avro, write_bunch_of_users host imports limit str sync_marker user_avsc
          dictionary_file = .ok users_avro) ↔ ∀ word ∈ added dictionary_file, Addable word) ∧
      ∀ users_avro, write_bunch_of_users host imports limit str sync_marker user_avsc
          dictionary_file = .ok users_avro →
        ¬ sync_marker <+: users_avro.drop
          ((usersFile (str USER_SCHEMA) sync_marker hfits hsize).headerBytes host).length →
        ∀ᶠ limit in atTop, ∀ rounds, (added dictionary_file).length < rounds →
          read_users host imports limit rounds users_avro
            = .ok ((added dictionary_file).map readUser) := by
  have hc : IsUsers (usersFile (str USER_SCHEMA) sync_marker hfits hsize) := ⟨rfl, rfl⟩
  have hloads : (usersFile (str USER_SCHEMA) sync_marker hfits hsize).Loads imports := by
    filter_upwards [eventually_ge_atTop 3] with limit hlimit
    obtain ⟨limit, rfl⟩ := Nat.exists_eq_add_of_le' hlimit
    show parse (limit + 3) (imports.loads (str USER_SCHEMA)) = _
    rw [hstr, parse_USER_SCHEMA]
    rfl
  filter_upwards [eventually_ge_atTop 3, @Container.new_writer
    (usersFile (str USER_SCHEMA) sync_marker hfits hsize) host] with limit hlimit hnew
  intro dictionary_file hlength
  obtain ⟨limit, rfl⟩ := Nat.exists_eq_add_of_le' hlimit
  have hwords : ([] ++ (added dictionary_file).map user).length < 2 ^ 63 := by
    rwa [List.nil_append, List.length_map]
  rcases addWords_ends hc limit dictionary_file (@adding_opened host imports _) hwords with
    ⟨hall, w, hrun, hadding⟩ | ⟨⟨word, hmem, hword⟩, e, w, hrun⟩
  · obtain ⟨blocks, hflush, hcontents⟩ := hadding.flush hc hwords
    have hwrite := write_bunch_of_users_of_ok hjson hnew ((Hoare.bind_of_ok hrun).trans hflush)
    refine ⟨⟨fun _ => hall, fun _ => ⟨_, hwrite⟩⟩, ?_⟩
    rintro _ hcontent hstart
    obtain rfl := Except.ok.inj (hwrite.symm.trans hcontent)
    rw [Container.drop_writer] at hstart
    obtain ⟨data', hdata', hread⟩ := Container.read_own_blocks hloads hc.inflates hcontents hstart
    rw [List.nil_append] at hdata' hread
    rw [List.length_map] at hread
    obtain rfl := eq_of_forall₂_represents hdata'
    filter_upwards [hread] with limit hlimit rounds hrounds
    obtain ⟨r, r', hreader, hall⟩ := hlimit rounds hrounds
    exact read_users_of_ok hreader hall
  · have hwrite := write_bunch_of_users_of_error hjson hnew hrun
    refine ⟨⟨?_, fun hall => absurd (hall word hmem) hword⟩, ?_⟩
    · rintro ⟨users_avro, hcontent⟩
      cases hwrite.symm.trans hcontent
    · rintro users_avro hcontent
      cases hwrite.symm.trans hcontent

/-! ## Three words -/

/-- A text of `USER_JSON` -/
@[irreducible] def USER_TEXT : List UInt8 := encodeUtf8 ("\x7b\"type\": \"record\", \"namespace\": "
  ++ "\"example.avro\", \"name\": \"User\", \"fields\": [\x7b\"type\": \"string\", \"name\": "
  ++ "\"fullname\"\x7d, \x7b\"type\": [\"int\", \"null\"], \"name\": \"favorite_number\"\x7d, "
  ++ "\x7b\"type\": [\"string\", \"null\"], \"name\": \"favorite_color\"\x7d]\x7d").toList

def userImports : Imports where
  compress := id
  decompress := some
  loads text := if text = USER_TEXT then some USER_JSON else none

def threeWords : List (List UInt8) :=
  [encodeUtf8 "aardvark\n".toList, encodeUtf8 "lion\n".toList, encodeUtf8 "zebra\n".toList]

theorem added_threeWords :
    added threeWords = [encodeUtf8 "aardvark\n".toList, encodeUtf8 "lion\n".toList] := by
  decide

theorem read_users_written_threeWords : ∃ limit users_avro,
    write_bunch_of_users Host.plain userImports limit (fun _ => USER_TEXT)
      (List.replicate SYNC_SIZE 7) USER_TEXT threeWords = .ok users_avro ∧
    ∀ᶠ limit in atTop, ∀ rounds, (added threeWords).length < rounds →
      read_users Host.plain userImports limit rounds users_avro
        = .ok ((added threeWords).map readUser) := by
  have hjson : userImports.loads USER_TEXT = some USER_JSON := by
    unfold userImports
    dsimp only
    rw [if_pos rfl]
  have hfits : USER_TEXT.length < 2 ^ 63 := by decide +kernel
  have hsize : (List.replicate SYNC_SIZE (7 : UInt8)).length = SYNC_SIZE := rfl
  have hread := @read_users_written Host.plain userImports (fun _ => USER_TEXT) _ USER_TEXT hjson
    hjson hfits hsize
  obtain ⟨limit, ⟨hlimit, hnew⟩, hread⟩ := (((eventually_ge_atTop 3).and
    (@Container.new_writer (usersFile USER_TEXT _ hfits hsize) Host.plain)).and hread).exists
  obtain ⟨limit, rfl⟩ := Nat.exists_eq_add_of_le' hlimit
  have hwords : (added threeWords).length < 2 ^ 63 := by
    rw [added_threeWords]
    decide
  have hall : ∀ word ∈ added threeWords, Addable word := by
    rw [added_threeWords]
    simp only [List.forall_mem_cons]
    exact ⟨⟨by decide, by decide⟩, ⟨by decide, by decide⟩, fun _ h => absurd h List.not_mem_nil⟩
  have hdata : ([] ++ (added threeWords).map user).length < 2 ^ 63 := by
    rwa [List.nil_append, List.length_map]
  have hc : IsUsers (usersFile USER_TEXT _ hfits hsize) := ⟨rfl, rfl⟩
  rcases addWords_ends hc limit threeWords (@adding_opened Host.plain userImports _) hdata with
    ⟨-, w, hrun, hadding⟩ | ⟨⟨word, hmem, hword⟩, -⟩
  · obtain ⟨blocks, hflush, hcontents⟩ := hadding.flush hc hdata
    have hwrite := @write_bunch_of_users_of_ok Host.plain userImports limit (fun _ => USER_TEXT) _
      USER_TEXT _ _ hjson hnew _ ((Hoare.bind_of_ok hrun).trans hflush)
    refine ⟨limit + 3, _, hwrite, (hread threeWords hwords).2 _ hwrite ?_⟩
    rw [Container.drop_writer]
    exact Container.not_prefix_blocks hcontents.fits rfl (by decide)
  · exact absurd (hall word hmem) hword

end Programs

end HadoopExamples.Avro
