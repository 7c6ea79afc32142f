import HadoopExamples.Avro.DataFileWriter

set_option autoImplicit false

/-! # Reading a file

A reader goes through the blocks of a file and returns what it reads for each datum. A part is here
what is read and the bytes that it is read from; where the reader is, `Inside` says. -/

namespace HadoopExamples.Avro

open Python Tape Filter

namespace Container

variable (c : Container) {host : Host} {imports : Imports} {limit : ℕ}

/-- What `zlib.compress` returns, without its first two bytes and its last one, is decompressed. -/
def Inflates (imports : Imports) : Prop :=
  c.codec = "deflate".toList →
    ∀ data, imports.decompress ((imports.compress data).drop 2).dropLast = some data

/-- The reader with `front` behind it and `back` ahead of it. -/
def readerAt (host : Host) (front back : List UInt8) (datum_decoder : Option (Tape UInt8))
    (block_count : ℤ) (readers_schema : Option SchemaObject) : DataFileReader where
  reader := ⟨front ++ back, front.length⟩
  datum_decoder := datum_decoder
  block_count := block_count
  metadata := c.headerMetadata host
  sync_marker := c.sync_marker
  codec := c.codec
  file_length := (front ++ back).length
  writers_schema := c.writers_schema
  readers_schema := readers_schema

section Steps

variable {front back part : List UInt8} {d : Option (Tape UInt8)} {n : ℤ} {R : Option SchemaObject}

@[simp] theorem readerAt_sync_marker :
    (c.readerAt host front back d n R).sync_marker = c.sync_marker := rfl

@[simp] theorem readerAt_codec : (c.readerAt host front back d n R).codec = c.codec := rfl

@[simp] theorem readerAt_block_count : (c.readerAt host front back d n R).block_count = n := rfl

theorem raw_decoder_eq {α : Type} {p : Decoder α} {a : α} (h : Answers p part (.ok a)) :
    raw_decoder p (c.readerAt host front (part ++ back) d n R)
      = .ok a (c.readerAt host (front ++ part) back d n R) := by
  have hrun := h front back
  unfold before behind at hrun
  unfold raw_decoder readerAt
  rw [← List.append_assoc, hrun]

theorem is_EOF_eq : is_EOF (c.readerAt host front back d n R)
    = .ok (decide (back = [])) (c.readerAt host front back d n R) := by
  have h : (front.length = (front ++ back).length) ↔ back = [] := by
    rw [List.length_append]
    exact ⟨fun h => List.eq_nil_of_length_eq_zero (by omega), fun h => by rw [h]; rfl⟩
  have hrun : is_EOF (c.readerAt host front back d n R)
      = .ok (decide (front.length = (front ++ back).length)) (c.readerAt host front back d n R) :=
    rfl
  rw [hrun]
  simp only [h]

theorem set_block_count (block_count : ℤ) :
    (modify fun r => { r with block_count } : FileReader Unit) (c.readerAt host front back d n R)
      = .ok () (c.readerAt host front back d block_count R) := rfl

theorem answers_read_sync {part : List UInt8} (h : part.length = SYNC_SIZE) :
    Answers (read SYNC_SIZE) part (.ok part) :=
  h ▸ answers_read_length part

theorem skip_sync_eq : skip_sync (c.readerAt host front (c.sync_marker ++ back) d n R)
    = .ok true (c.readerAt host (front ++ c.sync_marker) back d n R) := by
  unfold skip_sync
  refine (Hoare.bind_of_ok (c.raw_decoder_eq (answers_read_sync c.size))).trans ?_
  refine (Hoare.bind_of_ok rfl).trans ?_
  rw [readerAt_sync_marker, if_neg (not_not_intro rfl)]
  rfl

/-- Where there is no sync marker, the reader goes back to where it was. -/
theorem skip_sync_of_not (hlength : SYNC_SIZE ≤ back.length) (h : ¬ c.sync_marker <+: back) :
    skip_sync (c.readerAt host front back d n R)
      = .ok false (c.readerAt host front back d n R) := by
  obtain ⟨proposed, rest, rfl, hproposed⟩ : ∃ proposed rest, back = proposed ++ rest ∧
      proposed.length = SYNC_SIZE :=
    ⟨back.take SYNC_SIZE, back.drop SYNC_SIZE, (List.take_append_drop _ _).symm,
      List.length_take_of_le hlength⟩
  have hne : proposed ≠ c.sync_marker := by
    rintro rfl
    exact h (List.prefix_append _ _)
  have hback : raw_decoder (skip (-SYNC_SIZE)) (c.readerAt host (front ++ proposed) rest d n R)
      = .ok () (c.readerAt host front (proposed ++ rest) d n R) := by
    have hposition : ((front ++ proposed).length : ℤ) + -SYNC_SIZE = front.length := by
      rw [List.length_append, hproposed]
      omega
    have hskip : skip (-SYNC_SIZE) ⟨front ++ proposed ++ rest, (front ++ proposed).length⟩
        = .ok () ⟨front ++ (proposed ++ rest), front.length⟩ := by
      unfold skip
      refine (Hoare.bind_of_ok rfl).trans ?_
      rw [hposition, if_neg (by omega), Int.toNat_natCast, ← List.append_assoc]
      rfl
    unfold raw_decoder readerAt
    rw [hskip, List.append_assoc]
  unfold skip_sync
  refine (Hoare.bind_of_ok (c.raw_decoder_eq (answers_read_sync hproposed))).trans ?_
  refine (Hoare.bind_of_ok rfl).trans ?_
  rw [readerAt_sync_marker, if_pos hne]
  exact Hoare.bind_of_ok hback

theorem read_block_header_of_null (hcodec : c.codec = "null".toList) {block : List Part}
    (hfits : c.Fits imports block) :
    read_block_header imports (c.readerAt host front (c.blockBytes imports block ++ back) d n R)
      = .ok () (c.readerAt host (front ++ longBytes block.length
        ++ longBytes (block.flatMap Prod.snd).length)
        (block.flatMap Prod.snd ++ (c.sync_marker ++ back)) none block.length R) := by
  have hbytes : c.blockBytes imports block ++ back = longBytes block.length
      ++ (longBytes (block.flatMap Prod.snd).length
        ++ (block.flatMap Prod.snd ++ (c.sync_marker ++ back))) := by
    simp only [blockBytes, bytesBytes, compressed, if_pos hcodec, List.append_assoc]
  have hcount := answers_read_long (isLong_of_length hfits.length)
  rw [hbytes]
  unfold read_block_header
  refine (Hoare.bind_of_ok (c.raw_decoder_eq hcount)).trans ?_
  refine (Hoare.bind_of_ok (c.set_block_count _)).trans ?_
  refine (Hoare.bind_of_ok rfl).trans ?_
  rw [readerAt_codec, if_pos hcodec]
  exact Hoare.bind_of_ok (c.raw_decoder_eq (answers_skip_long _))

theorem read_block_header_of_deflate (hcodec : c.codec = "deflate".toList) {block : List Part}
    (hfits : c.Fits imports block) (hinflates : c.Inflates imports) :
    read_block_header imports (c.readerAt host front (c.blockBytes imports block ++ back) d n R)
      = .ok () (c.readerAt host (front ++ longBytes block.length
        ++ bytesBytes (c.compressed imports (block.flatMap Prod.snd)))
        (c.sync_marker ++ back) (some ⟨block.flatMap Prod.snd, 0⟩) block.length R) := by
  have hnull : c.codec ≠ "null".toList := by
    rw [hcodec]
    decide
  have hcompressed : c.compressed imports (block.flatMap Prod.snd)
      = ((imports.compress (block.flatMap Prod.snd)).drop 2).dropLast := if_neg hnull
  have hcount := answers_read_long (isLong_of_length hfits.length)
  unfold read_block_header blockBytes
  rw [List.append_assoc, List.append_assoc]
  refine (Hoare.bind_of_ok (c.raw_decoder_eq hcount)).trans ?_
  refine (Hoare.bind_of_ok (c.set_block_count _)).trans ?_
  refine (Hoare.bind_of_ok rfl).trans ?_
  rw [readerAt_codec, if_neg hnull]
  refine (Hoare.bind_of_ok (c.raw_decoder_eq (answers_read_bytes hfits.size))).trans ?_
  rw [hcompressed, hinflates hcodec]
  rfl

end Steps

/-! ## Going through the blocks -/

/-- The reader has these data of a block ahead of it, in the file or in a place of their own, and
    then these blocks. -/
inductive Inside (host : Host) (imports : Imports) (R : SchemaObject) (pending : List Part)
    (blocks : List (List Part)) : DataFileReader → Prop
  | file {front : List UInt8} {readers_schema : Option SchemaObject}
    (h : readers_schema.getD c.writers_schema = R) :
    Inside host imports R pending blocks (c.readerAt host front
      (pending.flatMap Prod.snd ++ (c.sync_marker ++ blocks.flatMap (c.blockBytes imports)))
      none pending.length readers_schema)
  | inflated {front front' : List UInt8} {readers_schema : Option SchemaObject}
    (h : readers_schema.getD c.writers_schema = R) :
    Inside host imports R pending blocks (c.readerAt host front
      (c.sync_marker ++ blocks.flatMap (c.blockBytes imports))
      (some ⟨front' ++ pending.flatMap Prod.snd, front'.length⟩) pending.length readers_schema)

variable {R : SchemaObject} {part : Part} {pending : List Part} {blocks : List (List Part)}
  {r : DataFileReader}

/-- What is read with the schema `R` where the bytes of a part are. -/
def PartAnswers (host : Host) (limit : ℕ) (R : SchemaObject) (part : Part) : Prop :=
  Answers (read_data host c.writers_schema.store R.store limit c.writers_schema.schema R.schema)
    part.2 (.ok part.1)

/-- What `next` comes to where no datum is left of a block. -/
def Boundary (host : Host) (imports : Imports) (limit : ℕ) (R : SchemaObject)
    (blocks : List (List Part)) (r : DataFileReader) : Prop :=
  match blocks with
  | [] => ∃ r', Avro.next host imports limit r = .error .stopIteration r'
  | block :: blocks => ∃ r', c.Inside host imports R block blocks r' ∧
      Avro.next host imports limit r = Avro.next host imports limit r'

variable {c}

theorem next_of_pos (h : r.block_count ≠ 0) : next host imports limit r
    = (do
      let datum ← readDatum host limit
      modify fun r => { r with block_count := r.block_count - 1 }
      return datum : FileReader PyObj) r := by
  unfold next
  refine (Hoare.bind_of_ok rfl).trans ?_
  rw [if_neg h]

theorem readDatum_of_file {front back : List UInt8} {n : ℤ} {readers_schema : Option SchemaObject}
    (h : readers_schema.getD c.writers_schema = R) (hread : c.PartAnswers host limit R part) :
    readDatum host limit (c.readerAt host front (part.2 ++ back) none n readers_schema)
      = .ok part.1 (c.readerAt host (front ++ part.2) back none n (some R)) := by
  subst h
  unfold readDatum
  refine (Hoare.bind_of_ok rfl).trans ?_
  exact c.raw_decoder_eq hread

theorem readDatum_of_inflated {front back front' back' : List UInt8} {n : ℤ}
    {readers_schema : Option SchemaObject} (h : readers_schema.getD c.writers_schema = R)
    (hread : c.PartAnswers host limit R part) :
    readDatum host limit (c.readerAt host front back
        (some ⟨front' ++ (part.2 ++ back'), front'.length⟩) n readers_schema)
      = .ok part.1 (c.readerAt host front back
        (some ⟨front' ++ part.2 ++ back', (front' ++ part.2).length⟩) n (some R)) := by
  subst h
  have hrun := hread front' back'
  unfold before behind at hrun
  rw [← List.append_assoc]
  unfold readDatum
  refine (Hoare.bind_of_ok rfl).trans ?_
  refine (Hoare.bind_of_ok rfl).trans ?_
  unfold datumDecoder readerAt
  dsimp only
  rw [hrun]

theorem Inside.next (h : c.Inside host imports R (part :: pending) blocks r)
    (hread : c.PartAnswers host limit R part) :
    ∃ r', Avro.next host imports limit r = .ok part.1 r' ∧
      c.Inside host imports R pending blocks r' := by
  have hcount : ((part :: pending).length : ℤ) - 1 = pending.length := by
    rw [List.length_cons]
    omega
  have hpos : ((part :: pending).length : ℤ) ≠ 0 := by
    rw [List.length_cons]
    omega
  have hdone : ∀ front back d R', (do
        modify fun r => { r with block_count := r.block_count - 1 }
        return part.1 : FileReader PyObj) (c.readerAt host front back d (part :: pending).length R')
      = .ok part.1 (c.readerAt host front back d pending.length R') := by
    intro front back d R'
    rw [← hcount]
    rfl
  cases h with
  | file hR =>
    rw [List.flatMap_cons, List.append_assoc, next_of_pos hpos]
    refine ⟨_, (Hoare.bind_of_ok (readDatum_of_file hR hread)).trans (hdone ..), ?_⟩
    exact @Inside.file c host imports R pending blocks _ (some R) rfl
  | inflated hR =>
    rw [List.flatMap_cons, next_of_pos hpos]
    refine ⟨_, (Hoare.bind_of_ok (readDatum_of_inflated hR hread)).trans (hdone ..), ?_⟩
    exact @Inside.inflated c host imports R pending blocks _ _ (some R) rfl

/-! ## From block to block -/

theorem next_of_nextBlock {r₁ : DataFileReader} (hzero : r.block_count = 0)
    (h : nextBlock imports r = .ok () r₁) (hpos : r₁.block_count ≠ 0) :
    Avro.next host imports limit r = Avro.next host imports limit r₁ := by
  rw [next_of_pos hpos]
  unfold Avro.next
  refine (Hoare.bind_of_ok rfl).trans ?_
  rw [if_pos hzero]
  exact Hoare.bind_of_ok h

theorem next_of_error {r₁ : DataFileReader} {e : AvroException} (hzero : r.block_count = 0)
    (h : nextBlock imports r = .error e r₁) :
    Avro.next host imports limit r = .error e r₁ := by
  unfold Avro.next
  refine (Hoare.bind_of_ok rfl).trans ?_
  rw [if_pos hzero]
  exact Hoare.bind_of_error h

section Boundary

variable {front : List UInt8} {d : Option (Tape UInt8)} {n : ℤ} {R' : Option SchemaObject}
  {block : List Part}

theorem inside_of_header (hfits : c.Fits imports block) (hinflates : c.Inflates imports)
    (hR : R'.getD c.writers_schema = R) :
    ∃ r', read_block_header imports (c.readerAt host front
        ((block :: blocks).flatMap (c.blockBytes imports)) d n R') = .ok () r' ∧
      c.Inside host imports R block blocks r' := by
  rw [List.flatMap_cons]
  rcases c.codec_cases with hcodec | hcodec
  · exact ⟨_, c.read_block_header_of_null hcodec hfits, .file hR⟩
  · exact ⟨_, c.read_block_header_of_deflate hcodec hfits hinflates,
      @Inside.inflated c host imports R block blocks _ [] R' hR⟩

theorem length_blockBytes : SYNC_SIZE ≤ (c.blockBytes imports block).length := by
  unfold blockBytes
  rw [List.length_append, List.length_append, c.size]
  omega

theorem blockBytes_ne_nil : (block :: blocks).flatMap (c.blockBytes imports) ≠ [] := by
  rw [List.flatMap_cons]
  intro h
  exact longBytes_ne_nil _ (List.append_eq_nil_iff.1 (List.append_eq_nil_iff.1 h).1).1

/-- Where the first block begins. The reader would take a sync marker in its place for one. -/
theorem nextBlock_of_start
    (h : ¬ c.sync_marker <+: (block :: blocks).flatMap (c.blockBytes imports)) :
    nextBlock imports
        (c.readerAt host front ((block :: blocks).flatMap (c.blockBytes imports)) d n R')
      = read_block_header imports (c.readerAt host front
        ((block :: blocks).flatMap (c.blockBytes imports)) d n R') := by
  have hlength : SYNC_SIZE ≤ ((block :: blocks).flatMap (c.blockBytes imports)).length := by
    rw [List.flatMap_cons, List.length_append]
    exact le_trans length_blockBytes (Nat.le_add_right _ _)
  unfold nextBlock
  refine (Hoare.bind_of_ok c.is_EOF_eq).trans ?_
  rw [if_neg (by rw [decide_eq_true_iff]; exact blockBytes_ne_nil)]
  exact Hoare.bind_of_ok (c.skip_sync_of_not hlength h)

theorem sync_append_ne_nil (back : List UInt8) : c.sync_marker ++ back ≠ [] := by
  intro h
  have hsize := c.size
  rw [(List.append_eq_nil_iff.1 h).1] at hsize
  cases hsize

theorem nextBlock_of_sync :
    nextBlock imports (c.readerAt host front
        (c.sync_marker ++ (block :: blocks).flatMap (c.blockBytes imports)) d n R')
      = read_block_header imports (c.readerAt host (front ++ c.sync_marker)
        ((block :: blocks).flatMap (c.blockBytes imports)) d n R') := by
  unfold nextBlock
  refine (Hoare.bind_of_ok c.is_EOF_eq).trans ?_
  rw [if_neg (by rw [decide_eq_true_iff]; exact sync_append_ne_nil _)]
  refine (Hoare.bind_of_ok c.skip_sync_eq).trans ?_
  rw [if_pos rfl]
  refine (Hoare.bind_of_ok c.is_EOF_eq).trans ?_
  rw [if_neg (by rw [decide_eq_true_iff]; exact blockBytes_ne_nil)]

theorem nextBlock_of_nil :
    nextBlock imports (c.readerAt host front [] d n R')
      = .error .stopIteration (c.readerAt host front [] d n R') :=
  Hoare.bind_of_ok c.is_EOF_eq

theorem nextBlock_of_last :
    nextBlock imports (c.readerAt host front (c.sync_marker ++ []) d n R')
      = .error .stopIteration (c.readerAt host (front ++ c.sync_marker) [] d n R') := by
  unfold nextBlock
  refine (Hoare.bind_of_ok c.is_EOF_eq).trans ?_
  rw [if_neg (by rw [decide_eq_true_iff]; exact sync_append_ne_nil [])]
  refine (Hoare.bind_of_ok c.skip_sync_eq).trans ?_
  rw [if_pos rfl]
  exact Hoare.bind_of_ok c.is_EOF_eq

end Boundary

/-! ## All of a file -/

theorem Inside.block_count (h : c.Inside host imports R pending blocks r) :
    r.block_count = pending.length := by
  cases h <;> rfl

theorem Fits.count_ne_zero {block : List Part} (h : c.Fits imports block) :
    (block.length : ℤ) ≠ 0 := by
  have hpos := List.length_pos_of_ne_nil h.nonempty
  omega

theorem boundary_of_start {front : List UInt8} {R' : Option SchemaObject}
    (hfits : ∀ block ∈ blocks, c.Fits imports block) (hinflates : c.Inflates imports)
    (hR : R'.getD c.writers_schema = R)
    (hstart : blocks ≠ [] → ¬ c.sync_marker <+: blocks.flatMap (c.blockBytes imports)) :
    c.Boundary host imports limit R blocks
      (c.readerAt host front (blocks.flatMap (c.blockBytes imports)) none 0 R') := by
  cases blocks with
  | nil => exact ⟨_, next_of_error rfl nextBlock_of_nil⟩
  | cons block blocks =>
    have hblock := hfits block List.mem_cons_self
    obtain ⟨r', hheader, hinside⟩ := inside_of_header hblock hinflates hR
    refine ⟨r', hinside, next_of_nextBlock rfl ?_ (hinside.block_count ▸ hblock.count_ne_zero)⟩
    rw [nextBlock_of_start (hstart nofun)]
    exact hheader

theorem boundary_of_sync {front : List UInt8} {d : Option (Tape UInt8)} {R' : Option SchemaObject}
    (hfits : ∀ block ∈ blocks, c.Fits imports block) (hinflates : c.Inflates imports)
    (hR : R'.getD c.writers_schema = R) :
    c.Boundary host imports limit R blocks
      (c.readerAt host front (c.sync_marker ++ blocks.flatMap (c.blockBytes imports)) d 0 R') := by
  cases blocks with
  | nil => exact ⟨_, next_of_error rfl nextBlock_of_last⟩
  | cons block blocks =>
    have hblock := hfits block List.mem_cons_self
    obtain ⟨r', hheader, hinside⟩ := inside_of_header hblock hinflates hR
    refine ⟨r', hinside, next_of_nextBlock rfl ?_ (hinside.block_count ▸ hblock.count_ne_zero)⟩
    rw [nextBlock_of_sync]
    exact hheader

theorem Inside.boundary (h : c.Inside host imports R [] blocks r)
    (hfits : ∀ block ∈ blocks, c.Fits imports block) (hinflates : c.Inflates imports) :
    c.Boundary host imports limit R blocks r := by
  cases h with
  | file hR => exact boundary_of_sync hfits hinflates hR
  | inflated hR => exact boundary_of_sync hfits hinflates hR

theorem readAll_cons {next : FileReader PyObj} {rounds : ℕ} {datum : PyObj} {data : List PyObj}
    {r' r'' : DataFileReader} (hnext : next r = .ok datum r')
    (hrest : readAll next rounds r' = .ok data r'') :
    readAll next (rounds + 1) r = .ok (datum :: data) r'' := by
  unfold readAll
  rw [hnext]
  dsimp only
  rw [hrest]

theorem readAll_nil {next : FileReader PyObj} {rounds : ℕ} {r' : DataFileReader}
    (hnext : next r = .error .stopIteration r') : readAll next (rounds + 1) r = .ok [] r' := by
  unfold readAll
  rw [hnext]

theorem readAll_congr {next : FileReader PyObj} {rounds : ℕ} {r' : DataFileReader}
    (hnext : next r = next r') :
    readAll next (rounds + 1) r = readAll next (rounds + 1) r' := by
  unfold readAll
  rw [hnext]

/-- What is left of a file. -/
theorem Inside.readAll (hinflates : c.Inflates imports) {rounds : ℕ}
    (h : c.Inside host imports R pending blocks r) (hfits : ∀ block ∈ blocks, c.Fits imports block)
    (hread : ∀ part ∈ pending ++ blocks.flatten, c.PartAnswers host limit R part)
    (hrounds : (pending ++ blocks.flatten).length < rounds) :
    ∃ r', Avro.readAll (Avro.next host imports limit) rounds r
      = .ok ((pending ++ blocks.flatten).map Prod.fst) r' := by
  induction rounds generalizing r pending blocks with
  | zero => exact absurd hrounds (Nat.not_lt_zero _)
  | succ rounds ih =>
    -- a block begins with its first datum, so that the rounds go down there too
    have hdatum : ∀ (part : Part) (pending : List Part) (blocks : List (List Part))
        (r : DataFileReader), c.Inside host imports R (part :: pending) blocks r →
        (∀ block ∈ blocks, c.Fits imports block) →
        (∀ p ∈ part :: pending ++ blocks.flatten, c.PartAnswers host limit R p) →
        (part :: pending ++ blocks.flatten).length < rounds + 1 →
        ∃ r', Avro.readAll (Avro.next host imports limit) (rounds + 1) r
          = .ok ((part :: pending ++ blocks.flatten).map Prod.fst) r' := by
      intro part pending blocks r h hfits hread hrounds
      obtain ⟨r₁, hnext, hinside⟩ := h.next (hread part List.mem_cons_self)
      obtain ⟨r₂, hrest⟩ := ih hinside hfits (fun p hp => hread p (List.mem_cons_of_mem _ hp))
        (Nat.lt_of_succ_lt_succ hrounds)
      exact ⟨r₂, readAll_cons hnext hrest⟩
    cases pending with
    | cons part pending => exact hdatum part pending blocks r h hfits hread hrounds
    | nil =>
      have hboundary : c.Boundary host imports limit R blocks r := h.boundary hfits hinflates
      cases blocks with
      | nil =>
        obtain ⟨r', hstop⟩ := hboundary
        exact ⟨r', readAll_nil hstop⟩
      | cons block blocks =>
        obtain ⟨r', hinside, hnext⟩ := hboundary
        obtain ⟨hblock, hblocks⟩ := List.forall_mem_cons.1 hfits
        obtain ⟨part, rest, rfl⟩ := List.exists_cons_of_ne_nil hblock.nonempty
        rw [readAll_congr hnext]
        exact hdatum part rest blocks r' hinside hblocks hread hrounds

theorem Boundary.readAll (hinflates : c.Inflates imports) {rounds : ℕ}
    (h : c.Boundary host imports limit R blocks r) (hfits : ∀ block ∈ blocks, c.Fits imports block)
    (hread : ∀ part ∈ blocks.flatten, c.PartAnswers host limit R part)
    (hrounds : blocks.flatten.length < rounds) :
    ∃ r', Avro.readAll (Avro.next host imports limit) rounds r
      = .ok (blocks.flatten.map Prod.fst) r' := by
  obtain ⟨rounds, rfl⟩ := Nat.exists_eq_add_of_lt (Nat.zero_lt_of_lt hrounds)
  rw [Nat.zero_add] at hrounds ⊢
  cases blocks with
  | nil =>
    obtain ⟨r', hstop⟩ := h
    exact ⟨r', readAll_nil hstop⟩
  | cons block blocks =>
    obtain ⟨r', hinside, hnext⟩ := h
    rw [readAll_congr hnext]
    exact hinside.readAll hinflates (fun b hb => hfits b (List.mem_cons_of_mem _ hb)) hread hrounds

/-! ## Reading what has been written -/

/-- What is made, with the schema `R`, of a value that has been written. -/
def ResolvedAs (c : Container) (host : Host) (R : SchemaObject) (v : Value) (datum : PyObj) :
    Prop :=
  ∀ᶠ limit in atTop, resolve host c.writers_schema.store R.store limit c.writers_schema.schema
    R.schema v = .ok datum

/-- The blocks with these objects in place of the data. -/
def withData (f : Part → PyObj) (blocks : List (List Part)) : List (List Part) :=
  blocks.map fun block => block.map fun part => (f part, part.2)

theorem flatten_withData (f : Part → PyObj) (blocks : List (List Part)) :
    (withData f blocks).flatten = blocks.flatten.map fun part => (f part, part.2) := by
  unfold withData
  rw [List.map_flatten]

theorem flatMap_snd_map (f : Part → PyObj) (block : List Part) :
    (block.map fun part => (f part, part.2)).flatMap Prod.snd = block.flatMap Prod.snd :=
  List.flatMap_map _ _ _

theorem flatMap_withData (f : Part → PyObj) (blocks : List (List Part)) :
    (withData f blocks).flatMap (c.blockBytes imports) = blocks.flatMap (c.blockBytes imports) := by
  unfold withData
  rw [List.flatMap_map]
  refine List.flatMap_congr fun block _ => ?_
  unfold blockBytes
  rw [flatMap_snd_map, List.length_map]

theorem fits_withData {f : Part → PyObj} (hfits : ∀ block ∈ blocks, c.Fits imports block) :
    ∀ block ∈ withData f blocks, c.Fits imports block := by
  refine List.forall_mem_map.2 fun block hblock => ?_
  obtain ⟨hnonempty, hlength, hsize⟩ := hfits block hblock
  refine ⟨fun h => hnonempty (List.map_eq_nil_iff.1 h), ?_, ?_⟩
  · rwa [List.length_map]
  · rwa [flatMap_snd_map]

/-- The file of a writer whose last block is in it, if an object with `Q` is made of each value. -/
theorem read_blocks {Q : Value → PyObj → Prop} (readers_schema : Option SchemaObject)
    (hloads : c.Loads imports) (hinflates : c.Inflates imports) {data : List PyObj}
    (hcontents : c.Contents host imports data blocks [])
    (hstart : ¬ c.sync_marker <+: blocks.flatMap (c.blockBytes imports))
    (hresolve : ∀ datum ∈ data, ∀ v,
      Takes host c.writers_schema.store c.writers_schema.schema datum v →
      HasType c.writers_schema.store c.writers_schema.schema v →
      ∃ datum', Q v datum' ∧ c.ResolvedAs host (readers_schema.getD c.writers_schema) v datum') :
    ∃ data', List.Forall₂ (fun datum datum' => ∃ v,
        Takes host c.writers_schema.store c.writers_schema.schema datum v ∧ Q v datum')
        data data' ∧
      ∀ᶠ limit in atTop, ∀ rounds, data.length < rounds → ∃ r r',
        DataFileReader.new host imports limit (c.state host imports blocks []).writer readers_schema
          = .ok r ∧
        readAll (next host imports limit) rounds r = .ok data' r' := by
  obtain ⟨hdata, hfits, hwritten⟩ := hcontents
  rw [List.append_nil] at hdata hwritten
  have hparts : ∀ part : Part, ∃ datum', part ∈ blocks.flatten →
      (∃ v, Takes host c.writers_schema.store c.writers_schema.schema part.1 v ∧ Q v datum') ∧
      ∀ᶠ limit in atTop, c.PartAnswers host limit (readers_schema.getD c.writers_schema)
        (datum', part.2) := by
    intro part
    by_cases hpart : part ∈ blocks.flatten
    · obtain ⟨v, htakes, htype, hencodes⟩ := hwritten part hpart
      have hmem : part.1 ∈ data := hdata ▸ List.mem_map_of_mem hpart
      obtain ⟨datum', hQ, hdatum'⟩ := hresolve part.1 hmem v htakes htype
      have hreads : Reads host c.writers_schema.store (readers_schema.getD c.writers_schema).store
          c.writers_schema.schema (readers_schema.getD c.writers_schema).schema v part.2 :=
        answers_read_data htype hencodes _
      refine ⟨datum', fun _ => ⟨⟨v, htakes, hQ⟩, ?_⟩⟩
      filter_upwards [hreads, hdatum'] with limit hanswers heq
      rwa [heq] at hanswers
    · exact ⟨.none, fun h => absurd h hpart⟩
  choose f hf using hparts
  refine ⟨blocks.flatten.map f, ?_, ?_⟩
  · rw [← hdata, List.forall₂_map_left_iff, List.forall₂_map_right_iff, List.forall₂_same]
    exact fun part hpart => (hf part hpart).1
  have hanswers : ∀ᶠ limit in atTop, ∀ part ∈ blocks.flatten, c.PartAnswers host limit
      (readers_schema.getD c.writers_schema) (f part, part.2) :=
    eventually_forall fun part hpart => (hf part hpart).2
  filter_upwards [hanswers, @new_reader c host imports hloads] with limit hread hnew rounds hrounds
  have hlength : (withData f blocks).flatten.length < rounds := by
    rwa [flatten_withData, List.length_map, ← List.length_map Prod.fst, hdata]
  have hboundary : c.Boundary host imports limit (readers_schema.getD c.writers_schema)
      (withData f blocks)
      (c.reader host (blocks.flatMap (c.blockBytes imports)) readers_schema) := by
    have h := @boundary_of_start c host imports limit _ (withData f blocks) (c.headerBytes host)
      readers_schema (fits_withData hfits) hinflates rfl
    rw [flatMap_withData] at h
    exact h fun _ => hstart
  obtain ⟨r', hr'⟩ := hboundary.readAll hinflates (fits_withData hfits)
    (by
      rw [flatten_withData]
      exact List.forall_mem_map.2 hread) hlength
  rw [flatten_withData, List.map_map] at hr'
  exact ⟨_, r', hnew _ readers_schema, hr'⟩

theorem head_longBytes {n : ℕ} (h : n < 2 ^ 63) : ∃ b bytes, longBytes n = b :: bytes ∧
    (b.toNat % 2 = 0 ∨ 128 ≤ b.toNat) := by
  unfold longBytes
  rw [Varint.zigzag_natCast h, Int.toNat_natCast, Varint.encode]
  split
  · refine ⟨_, _, rfl, .inl ?_⟩
    rw [Nat.toUInt8_eq, UInt8.toNat_ofNat']
    omega
  · refine ⟨_, _, rfl, .inr ?_⟩
    rw [Nat.toUInt8_eq, UInt8.toNat_ofNat']
    omega

/-- The count of a block never begins with a byte that is odd and has no high bit. -/
theorem not_prefix_blocks {blocks : List (List Part)} {b : UInt8}
    {bytes : List UInt8} (hblocks : ∀ block ∈ blocks, c.Fits imports block)
    (hmarker : c.sync_marker = b :: bytes) (hb : b.toNat % 2 = 1 ∧ b.toNat < 128) :
    ¬ c.sync_marker <+: blocks.flatMap (c.blockBytes imports) := by
  rw [hmarker]
  rintro ⟨rest, hrest⟩
  cases blocks with
  | nil => cases hrest
  | cons block blocks =>
    obtain ⟨b', bytes', hlong, hb'⟩ := head_longBytes (hblocks block List.mem_cons_self).length
    rw [List.flatMap_cons, blockBytes, hlong] at hrest
    obtain rfl : b = b' := List.head_eq_of_cons_eq hrest
    omega

theorem drop_writer : (c.state host imports blocks []).writer.drop (c.headerBytes host).length
    = blocks.flatMap (c.blockBytes imports) := List.drop_left

/-- A reader that has a schema of its own returns all that has been appended, in its order, as its
    schema has it. -/
theorem read_file_resolved (hloads : c.Loads imports) (hinflates : c.Inflates imports)
    (R : SchemaObject) : ∀ᶠ limit in atTop, ∀ w data w',
    c.Reached host imports limit w data → data.length < 2 ^ 63 →
    flush imports w = .ok () w' →
    ¬ c.sync_marker <+: w'.writer.drop (c.headerBytes host).length →
    (∀ datum ∈ data, ∀ v, Takes host c.writers_schema.store c.writers_schema.schema datum v →
      HasType c.writers_schema.store c.writers_schema.schema v →
      ∃ datum', c.ResolvedAs host R v datum') →
    ∃ data', List.Forall₂ (fun datum datum' => ∃ v,
        Takes host c.writers_schema.store c.writers_schema.schema datum v ∧
        c.ResolvedAs host R v datum') data data' ∧
      ∀ᶠ limit in atTop, ∀ rounds, data.length < rounds → ∃ r r',
        DataFileReader.new host imports limit w'.writer (some R) = .ok r ∧
        readAll (next host imports limit) rounds r = .ok data' r' := by
  filter_upwards [@holds_of_reached c host imports hloads] with limit hholds
  intro w data w' hreached hlength hflush hstart hresolve
  obtain ⟨blocks, hcontents, rfl⟩ := (hholds w data hreached hlength).write_block hlength hflush
  rw [drop_writer] at hstart
  refine read_blocks (some R) hloads hinflates hcontents hstart ?_
  intro datum hdatum v htakes htype
  obtain ⟨datum', hdatum'⟩ := hresolve datum hdatum v htakes htype
  exact ⟨datum', hdatum', hdatum'⟩

/-- Without a reader's schema, an object for the value is made of each value. -/
theorem read_own_blocks (hloads : c.Loads imports) (hinflates : c.Inflates imports)
    {data : List PyObj} (hcontents : c.Contents host imports data blocks [])
    (hstart : ¬ c.sync_marker <+: blocks.flatMap (c.blockBytes imports)) :
    ∃ data', List.Forall₂ (fun datum datum' => ∃ v,
        Takes host c.writers_schema.store c.writers_schema.schema datum v ∧
        Represents c.writers_schema.store host c.writers_schema.schema v datum') data data' ∧
      ∀ᶠ limit in atTop, ∀ rounds, data.length < rounds → ∃ r r',
        DataFileReader.new host imports limit (c.state host imports blocks []).writer none = .ok r ∧
        readAll (next host imports limit) rounds r = .ok data' r' := by
  obtain ⟨limit, hparse⟩ := hloads.exists
  obtain ⟨hs, hstore⟩ := SchemaObject.wellFormed_of_parse hparse
  refine read_blocks none hloads hinflates hcontents hstart fun datum _ v _ htype => ?_
  obtain ⟨datum', hrepresents, hresolves⟩ := @exists_resolvesTo _ host hstore _ hs v htype
  exact ⟨datum', hrepresents, hresolves.self hs⟩

/-- A reader without one returns each datum as the object for the value that the writer has taken
    it for. -/
theorem read_file (hloads : c.Loads imports) (hinflates : c.Inflates imports) :
    ∀ᶠ limit in atTop, ∀ w data w',
    c.Reached host imports limit w data → data.length < 2 ^ 63 →
    flush imports w = .ok () w' →
    ¬ c.sync_marker <+: w'.writer.drop (c.headerBytes host).length →
    ∃ data', List.Forall₂ (fun datum datum' => ∃ v,
        Takes host c.writers_schema.store c.writers_schema.schema datum v ∧
        Represents c.writers_schema.store host c.writers_schema.schema v datum') data data' ∧
      ∀ᶠ limit in atTop, ∀ rounds, data.length < rounds → ∃ r r',
        DataFileReader.new host imports limit w'.writer none = .ok r ∧
        readAll (next host imports limit) rounds r = .ok data' r' := by
  filter_upwards [@holds_of_reached c host imports hloads] with limit hholds
  intro w data w' hreached hlength hflush hstart
  obtain ⟨blocks, hcontents, rfl⟩ := (hholds w data hreached hlength).write_block hlength hflush
  rw [drop_writer] at hstart
  exact read_own_blocks hloads hinflates hcontents hstart

/-! ## A file of names -/

/-- Blocks of names, each with what `zlib.compress` returns for it -/
def zlibTable : List (List UInt8 × List UInt8) :=
  [([4, 74, 111, 4, 65, 108], [120, 156, 99, 241, 202, 103, 113, 204, 1, 0, 4, 70, 1, 111]),
    ([4, 66, 111], [120, 156, 99, 113, 202, 7, 0, 1, 2, 0, 182]),
    ([4, 67, 121, 4, 68, 105], [120, 156, 99, 113, 174, 100, 113, 201, 4, 0, 4, 78, 1, 114])]

/-- What is not in the table stays as it is, between other bytes. -/
def namesImports : Imports where
  compress data := match zlibTable.find? fun entry => entry.1 = data with
    | some entry => entry.2
    | none => [120, 156, 255] ++ data ++ [0]
  decompress data := match zlibTable.find? fun entry => (entry.2.drop 2).dropLast = data with
    | some entry => some entry.1
    | none => some data.tail
  loads text :=
    if text = encodeUtf8 "\"string\"".toList then some (.unicode "string".toList) else none

def namesFile : Container where
  codec := "deflate".toList
  schema_text := encodeUtf8 "\"string\"".toList
  sync_marker := List.replicate SYNC_SIZE 7
  writers_schema := ⟨.primitive .string, []⟩
  valid := by decide
  fits := by decide
  size := rfl

theorem isText_namesFile : namesFile.IsText Host.plain namesImports := by
  intro limit json hjson
  cases limit with
  | zero => cases hjson
  | succ limit =>
    cases hjson
    rfl

theorem loads_namesFile : namesFile.Loads namesImports :=
  @loads_of_printable namesFile Host.plain namesImports isText_namesFile 1
    (some (.unicode "string".toList)) rfl ⟨1, rfl⟩

theorem inflates_namesFile : namesFile.Inflates namesImports := by
  rintro - data
  unfold namesImports
  dsimp only
  cases hfind : zlibTable.find? fun entry => entry.1 = data with
  | some entry =>
    have hequal := List.find?_some hfind
    obtain rfl := of_decide_eq_true hequal
    have hall : ∀ entry ∈ zlibTable, zlibTable.find? (fun entry' =>
        (entry'.2.drop 2).dropLast = (entry.2.drop 2).dropLast) = some entry := by decide
    rw [hall entry (List.mem_of_find?_eq_some hfind)]
  | none =>
    have hdata : (([120, 156, 255] ++ data ++ [0]).drop 2).dropLast = 255 :: data :=
      @List.dropLast_concat _ (255 :: data) 0
    have hnone : zlibTable.find? (fun entry => (entry.2.drop 2).dropLast = 255 :: data)
        = none := by
      refine List.find?_eq_none.2 fun entry hentry hequal => ?_
      have hhead : ∀ entry ∈ zlibTable, ((entry.2.drop 2).dropLast).head? ≠ some 255 := by decide
      exact hhead entry hentry (by rw [of_decide_eq_true hequal]; rfl)
    dsimp only
    rw [hdata, hnone]
    rfl

/-- A name of two letters, with its bytes -/
def namePart (a b : Char) : Part := (.unicode [a, b], [4, a.val.toUInt8, b.val.toUInt8])

/-- The number is no name, and `reopen` goes on with a file that has two blocks. -/
def namesCalls : List WriterCall :=
  [.append (namePart 'J' 'o').1, .append (.int 3), .append (namePart 'A' 'l').1, .sync,
    .append (namePart 'B' 'o').1, .reopen, .append (namePart 'C' 'y').1,
    .append (namePart 'D' 'i').1]

def names : List PyObj :=
  [(namePart 'J' 'o').1, (namePart 'A' 'l').1, (namePart 'B' 'o').1, (namePart 'C' 'y').1,
    (namePart 'D' 'i').1]

/-- The writer at the end of the calls, before `flush` -/
def namesWriter : DataFileWriter :=
  namesFile.state Host.plain namesImports
    [[namePart 'J' 'o', namePart 'A' 'l'], [namePart 'B' 'o']]
    [namePart 'C' 'y', namePart 'D' 'i']

theorem writes_name (limit : ℕ) {a b : Char}
    (h : encodeUtf8 [a, b] = [a.val.toUInt8, b.val.toUInt8]) :
    Writes (writeDatum Host.plain namesFile.writers_schema.store (limit + 1)
      namesFile.writers_schema.schema (namePart a b).1) (namePart a b).2 := by
  have hlong : longBytes 2 = [4] := by
    unfold longBytes Varint.encode
    rfl
  have hbytes : bytesBytes (encodeUtf8 [a, b]) = (namePart a b).2 := by
    rw [h]
    exact congrArg (· ++ [a.val.toUInt8, b.val.toUInt8]) hlong
  rw [← hbytes]
  have hlength : (encodeUtf8 [a, b]).length < 2 ^ 63 := by
    rw [h, List.length_cons, List.length_singleton]
    decide
  exact writes_write_utf8 hlength

/-- The calls complete, one after the other. -/
theorem run_namesCalls {limit : ℕ} (hreopen : ∀ back, DataFileWriter.reopen Host.plain namesImports
      (limit + 1) (namesFile.headerBytes Host.plain ++ back)
        = .ok (namesFile.opened (namesFile.headerBytes Host.plain ++ back))) :
    Transition.Guarded (WriterCall.step Host.plain namesImports (limit + 1))
      (WriterCall.Completes Host.plain namesImports (limit + 1))
      (namesFile.opened (namesFile.headerBytes Host.plain), []) namesCalls ∧
    Transition.run (WriterCall.step Host.plain namesImports (limit + 1))
      (namesFile.opened (namesFile.headerBytes Host.plain), []) namesCalls
      = (namesWriter, names) := by
  rw [@opened_eq_state namesFile Host.plain namesImports]
  refine WriterCall.Leads.cons (leads_append (writes_name limit (by decide)) (by decide)) ?_
  refine WriterCall.Leads.cons (leads_invalid rfl) ?_
  refine WriterCall.Leads.cons (leads_append (writes_name limit (by decide)) (by decide)) ?_
  refine WriterCall.Leads.cons (leads_sync (List.cons_ne_nil _ _) (by decide)) ?_
  refine WriterCall.Leads.cons (leads_append (writes_name limit (by decide)) (by decide)) ?_
  refine WriterCall.Leads.cons (leads_reopen hreopen (List.cons_ne_nil _ _) (by decide)) ?_
  refine WriterCall.Leads.cons (leads_append (writes_name limit (by decide)) (by decide)) ?_
  refine WriterCall.Leads.cons (leads_append (writes_name limit (by decide)) (by decide)) ?_
  exact ⟨trivial, rfl⟩

theorem flush_namesWriter : ∃ w', flush namesImports namesWriter = .ok () w' ∧
    ¬ namesFile.sync_marker <+: w'.writer.drop (namesFile.headerBytes Host.plain).length := by
  refine ⟨_, flush_state (List.cons_ne_nil _ _) (by decide), ?_⟩
  rw [drop_writer]
  refine not_prefix_blocks ?_ rfl (by decide)
  have hblock : ∀ block ∈ [[namePart 'J' 'o', namePart 'A' 'l'], [namePart 'B' 'o']]
      ++ [[namePart 'C' 'y', namePart 'D' 'i']], block ≠ [] ∧ block.length < 2 ^ 63 ∧
        (namesFile.compressed namesImports (block.flatMap Prod.snd)).length < 2 ^ 63 := by
    simp only [List.cons_append, List.nil_append, List.forall_mem_cons]
    decide
  exact fun block hmem => ⟨(hblock block hmem).1, (hblock block hmem).2.1, (hblock block hmem).2.2⟩

theorem read_file_names :
    ∃ limit w', (Transition.Guarded (WriterCall.step Host.plain namesImports limit)
        (WriterCall.Completes Host.plain namesImports limit)
        (namesFile.opened (namesFile.headerBytes Host.plain), []) namesCalls ∧
      Transition.run (WriterCall.step Host.plain namesImports limit)
        (namesFile.opened (namesFile.headerBytes Host.plain), []) namesCalls
        = (namesWriter, names)) ∧
    flush namesImports namesWriter = .ok () w' ∧
    ∃ data', List.Forall₂ (fun datum datum' => ∃ v,
        Takes Host.plain namesFile.writers_schema.store namesFile.writers_schema.schema datum v ∧
        Represents namesFile.writers_schema.store Host.plain namesFile.writers_schema.schema v
          datum') names data' ∧
      ∀ᶠ limit in atTop, ∀ rounds, names.length < rounds → ∃ r r',
        DataFileReader.new Host.plain namesImports limit w'.writer none = .ok r ∧
        readAll (next Host.plain namesImports limit) rounds r = .ok data' r' := by
  have hread := @read_file namesFile Host.plain namesImports loads_namesFile inflates_namesFile
  obtain ⟨limit, hlimit, hnew, hreopen, hread⟩ := ((eventually_ge_atTop 1).and
    ((@new_writer namesFile Host.plain).and
      ((@reopen_writer namesFile Host.plain namesImports loads_namesFile).and hread))).exists
  obtain ⟨limit, rfl⟩ := Nat.exists_eq_add_of_le' hlimit
  obtain ⟨w', hflush, hstart⟩ := flush_namesWriter
  have hcalls := run_namesCalls hreopen
  exact ⟨_, w', hcalls, hflush, hread _ _ _ ⟨_, _, hnew, hcalls.1, hcalls.2⟩ (by decide) hflush
    hstart⟩

/-- The schema of a reader that takes a name, or nothing -/
def nameOrNull : SchemaObject := ⟨.union [.primitive .null, .primitive .string], []⟩

theorem resolvedAs_nameOrNull {v : Value} (h : HasType [] (.primitive .string) v) :
    ∃ datum', namesFile.ResolvedAs Host.plain nameOrNull v datum' := by
  cases h with
  | string chars =>
    refine ⟨.unicode chars, ?_⟩
    unfold ResolvedAs
    filter_upwards [eventually_ge_atTop 2] with limit hlimit
    obtain ⟨limit, rfl⟩ := Nat.exists_eq_add_of_le' hlimit
    rfl

theorem read_file_resolved_names :
    ∃ limit w', (Transition.Guarded (WriterCall.step Host.plain namesImports limit)
        (WriterCall.Completes Host.plain namesImports limit)
        (namesFile.opened (namesFile.headerBytes Host.plain), []) namesCalls ∧
      Transition.run (WriterCall.step Host.plain namesImports limit)
        (namesFile.opened (namesFile.headerBytes Host.plain), []) namesCalls
        = (namesWriter, names)) ∧
    flush namesImports namesWriter = .ok () w' ∧
    ∃ data', List.Forall₂ (fun datum datum' => ∃ v,
        Takes Host.plain namesFile.writers_schema.store namesFile.writers_schema.schema datum v ∧
        namesFile.ResolvedAs Host.plain nameOrNull v datum') names data' ∧
      ∀ᶠ limit in atTop, ∀ rounds, names.length < rounds → ∃ r r',
        DataFileReader.new Host.plain namesImports limit w'.writer (some nameOrNull) = .ok r ∧
        readAll (next Host.plain namesImports limit) rounds r = .ok data' r' := by
  have hread := @read_file_resolved namesFile Host.plain namesImports loads_namesFile
    inflates_namesFile nameOrNull
  obtain ⟨limit, hlimit, hnew, hreopen, hread⟩ := ((eventually_ge_atTop 1).and
    ((@new_writer namesFile Host.plain).and
      ((@reopen_writer namesFile Host.plain namesImports loads_namesFile).and hread))).exists
  obtain ⟨limit, rfl⟩ := Nat.exists_eq_add_of_le' hlimit
  obtain ⟨w', hflush, hstart⟩ := flush_namesWriter
  have hcalls := run_namesCalls hreopen
  exact ⟨_, w', hcalls, hflush, hread _ _ _ ⟨_, _, hnew, hcalls.1, hcalls.2⟩ (by decide) hflush
    hstart fun _ _ _ _ htype => resolvedAs_nameOrNull htype⟩

end Container

end HadoopExamples.Avro
