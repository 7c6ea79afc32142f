import HadoopExamples.Library.Transition
import HadoopExamples.Avro.DataFileHeader

set_option autoImplicit false

/-! # Writing a file

The calls on a writer, one after the other, with the data that have been appended. What holds of a
writer after any of them is `Container.Holds`: the data are in the blocks of the file and in the
buffer, in their order, each with bytes that have been written for it. -/

namespace HadoopExamples.Avro

open Python Filter

/-- A datum and the bytes that have been written for it. -/
abbrev Part := PyObj × List UInt8

namespace Container

variable (c : Container) {host : Host} {imports : Imports}

/-! ## Blocks -/

def compressed (imports : Imports) (data : List UInt8) : List UInt8 :=
  if c.codec = "null".toList then data else ((imports.compress data).drop 2).dropLast

def blockBytes (imports : Imports) (block : List Part) : List UInt8 :=
  longBytes block.length
    ++ (bytesBytes (c.compressed imports (block.flatMap Prod.snd)) ++ c.sync_marker)

/-- No number in the block is too large to be read. -/
structure Fits (imports : Imports) (block : List Part) : Prop where
  nonempty : block ≠ []
  length : block.length < 2 ^ 63
  size : (c.compressed imports (block.flatMap Prod.snd)).length < 2 ^ 63

/-- The writer with these blocks in the file and these data in the buffer. -/
def state (host : Host) (imports : Imports) (blocks : List (List Part)) (pending : List Part) :
    DataFileWriter where
  writer := c.headerBytes host ++ blocks.flatMap (c.blockBytes imports)
  buffer_writer := pending.flatMap Prod.snd
  block_count := pending.length
  metadata := c.metadata
  sync_marker := c.sync_marker
  writers_schema := c.writers_schema

theorem compressData_eq (data : List UInt8) :
    compressData imports (.get c.metadata CODEC_KEY) data = .ok (c.compressed imports data) := by
  have hcodec : PyObj.get c.metadata CODEC_KEY = .str (encodeUtf8 c.codec) := rfl
  unfold compressData compressed
  rw [hcodec, c.asString_codec]
  rcases c.codec_cases with h | h
  · rw [h, if_pos rfl, if_pos rfl]
  · rw [h, if_neg (by decide), if_pos rfl, if_neg (by decide)]

theorem encoder_eq {p : Encoder Unit} {part : List UInt8} (h : Writes p part) (w : DataFileWriter) :
    encoder p w = .ok () { w with writer := w.writer ++ part } := by
  unfold encoder
  rw [h]

theorem buffer_encoder_eq {p : Encoder Unit} {part : List UInt8} (h : Writes p part)
    (w : DataFileWriter) :
    buffer_encoder p w = .ok () { w with buffer_writer := w.buffer_writer ++ part } := by
  unfold buffer_encoder
  rw [h]

theorem state_append {blocks : List (List Part)} {pending : List Part} (datum : PyObj)
    (bytes : List UInt8) :
    { c.state host imports blocks pending with
      buffer_writer := (c.state host imports blocks pending).buffer_writer ++ bytes
      block_count := (c.state host imports blocks pending).block_count + 1 }
    = c.state host imports blocks (pending ++ [(datum, bytes)]) := by
  unfold state
  simp

/-- A datum goes to the buffer, and a block is made of it once it is large enough. -/
theorem append_eq {limit : ℕ} {datum : PyObj} {bytes : List UInt8} {blocks : List (List Part)}
    {pending : List Part} (h : Writes (writeDatum host c.writers_schema.store limit
      c.writers_schema.schema datum) bytes) :
    append host imports limit datum (c.state host imports blocks pending)
      = (if (c.state host imports blocks (pending ++ [(datum, bytes)])).buffer_writer.length
          ≥ SYNC_INTERVAL then write_block imports else return () : FileWriter Unit)
        (c.state host imports blocks (pending ++ [(datum, bytes)])) := by
  rw [← state_append]
  unfold append
  refine (Hoare.bind_of_ok rfl).trans ?_
  exact (Hoare.bind_of_ok (buffer_encoder_eq h _)).trans (Hoare.bind_of_ok rfl)

/-- A block that is too large is left with its count only. -/
theorem write_block_of_ne_nil {blocks : List (List Part)} {pending : List Part}
    (hne : pending ≠ []) : write_block imports (c.state host imports blocks pending)
      = if (c.compressed imports (pending.flatMap Prod.snd)).length < 2 ^ 63 then
          .ok () (c.state host imports (blocks ++ [pending]) [])
        else .error .overflowError { c.state host imports blocks pending with
          writer := (c.state host imports blocks pending).writer ++ longBytes pending.length } := by
  have hcount : (c.state host imports blocks pending).block_count > 0 :=
    List.length_pos_of_ne_nil hne
  have hdata : ∀ w : DataFileWriter, (ofExcept (compressData imports (.get c.metadata CODEC_KEY)
      (pending.flatMap Prod.snd)) : FileWriter _) w
        = .ok (c.compressed imports (pending.flatMap Prod.snd)) w := fun w => by
    rw [compressData_eq]
    rfl
  unfold write_block
  refine (Hoare.bind_of_ok rfl).trans ?_
  rw [if_pos hcount]
  refine (Hoare.bind_of_ok (encoder_eq (Writes.append _) _)).trans ?_
  refine (Hoare.bind_of_ok (hdata _)).trans ?_
  split
  · rename_i hsize
    have hlen : ∀ w : DataFileWriter, (ofExcept (len (c.compressed imports
        (pending.flatMap Prod.snd))) : FileWriter ℤ) w
          = .ok (c.compressed imports (pending.flatMap Prod.snd)).length w := fun w => by
      rw [len, if_pos hsize]
      rfl
    have hwriter : c.headerBytes host ++ (blocks ++ [pending]).flatMap (c.blockBytes imports)
        = c.headerBytes host ++ blocks.flatMap (c.blockBytes imports) ++ longBytes pending.length
          ++ longBytes (c.compressed imports (pending.flatMap Prod.snd)).length
          ++ c.compressed imports (pending.flatMap Prod.snd) ++ c.sync_marker := by
      simp only [List.flatMap_append, List.flatMap_singleton, blockBytes, bytesBytes,
        List.append_assoc]
    refine (Hoare.bind_of_ok (hlen _)).trans ?_
    refine (Hoare.bind_of_ok (encoder_eq (Writes.append _) _)).trans ?_
    refine (Hoare.bind_of_ok (encoder_eq (Writes.append _) _)).trans ?_
    refine (Hoare.bind_of_ok (encoder_eq (Writes.append _) _)).trans ?_
    unfold state
    rw [hwriter]
    rfl
  · rename_i hsize
    have hlen : ∀ w : DataFileWriter, (ofExcept (len (c.compressed imports
        (pending.flatMap Prod.snd))) : FileWriter ℤ) w = .error .overflowError w := fun w => by
      rw [len, if_neg hsize]
      rfl
    exact Hoare.bind_of_error (hlen _)

/-! ## The data of a writer -/

/-- The data are in these blocks and these that are pending. -/
structure Contents (host : Host) (imports : Imports) (data : List PyObj)
    (blocks : List (List Part)) (pending : List Part) : Prop where
  data : (blocks.flatten ++ pending).map Prod.fst = data
  fits : ∀ block ∈ blocks, c.Fits imports block
  written : ∀ part ∈ blocks.flatten ++ pending,
    Written host c.writers_schema.store c.writers_schema.schema part.1 part.2

/-- What holds of a writer to which these data have been appended. -/
def Holds (host : Host) (imports : Imports) (data : List PyObj) (w : DataFileWriter) : Prop :=
  ∃ blocks pending, c.Contents host imports data blocks pending ∧
    w = c.state host imports blocks pending

variable {c} {data : List PyObj} {w w' : DataFileWriter}

theorem Holds.write_block (h : c.Holds host imports data w) (hlength : data.length < 2 ^ 63)
    (hrun : write_block imports w = .ok () w') :
    ∃ blocks, c.Contents host imports data blocks [] ∧ w' = c.state host imports blocks [] := by
  obtain ⟨blocks, pending, hcontents, rfl⟩ := h
  rcases eq_or_ne pending [] with rfl | hne
  · exact ⟨blocks, hcontents, (EStateM.Result.ok.inj hrun).2.symm⟩
  · rw [c.write_block_of_ne_nil hne] at hrun
    split at hrun
    on_goal 2 => cases hrun
    rename_i hsize
    have hflatten : (blocks ++ [pending]).flatten ++ [] = blocks.flatten ++ pending := by simp
    refine ⟨blocks ++ [pending], ⟨?_, ?_, ?_⟩, (EStateM.Result.ok.inj hrun).2.symm⟩
    · rw [hflatten]
      exact hcontents.data
    · have hcount : pending.length ≤ data.length := by
        rw [← hcontents.data, List.length_map, List.length_append]
        omega
      intro block hblock
      rcases List.mem_append.1 hblock with hold | hnew
      · exact hcontents.fits block hold
      · obtain rfl := List.mem_singleton.1 hnew
        exact ⟨hne, by omega, hsize⟩
    · rw [hflatten]
      exact hcontents.written

theorem Contents.append {blocks : List (List Part)} {pending : List Part} {datum : PyObj}
    {bytes : List UInt8} (h : c.Contents host imports data blocks pending)
    (hwritten : Written host c.writers_schema.store c.writers_schema.schema datum bytes) :
    c.Contents host imports (data ++ [datum]) blocks (pending ++ [(datum, bytes)]) where
  data := by rw [← List.append_assoc, List.map_append, h.data]; rfl
  fits := h.fits
  written := by
    rw [← List.append_assoc]
    intro part hpart
    rcases List.mem_append.1 hpart with hold | hnew
    · exact h.written part hold
    · obtain rfl := List.mem_singleton.1 hnew
      exact hwritten

theorem Holds.append {limit : ℕ} {datum : PyObj} (h : c.Holds host imports data w)
    (hlength : (data ++ [datum]).length < 2 ^ 63)
    (hrun : append host imports limit datum w = .ok () w') :
    c.Holds host imports (data ++ [datum]) w' := by
  obtain ⟨blocks, pending, hcontents, rfl⟩ := h
  unfold Avro.append at hrun
  obtain ⟨_, _, hget, hrun⟩ := Hoare.ok_of_bind hrun
  cases hget
  obtain ⟨_, w₁, hbuffer, hrun⟩ := Hoare.ok_of_bind hrun
  unfold buffer_encoder at hbuffer
  split at hbuffer
  · rename_i buffer hwrite
    obtain ⟨bytes, hwritten, rfl⟩ := appends_writeDatum limit _ datum _ _ hwrite
    have hcontents' := hcontents.append hwritten
    have hstate : { w₁ with block_count := w₁.block_count + 1 }
        = c.state host imports blocks (pending ++ [(datum, bytes)]) := by
      obtain ⟨-, rfl⟩ := EStateM.Result.ok.inj hbuffer
      unfold state
      simp
    obtain ⟨_, _, hmodify, hrun⟩ := Hoare.ok_of_bind hrun
    cases hmodify
    obtain ⟨_, _, hget, hrun⟩ := Hoare.ok_of_bind hrun
    cases hget
    have hholds : c.Holds host imports (data ++ [datum])
        { w₁ with block_count := w₁.block_count + 1 } := ⟨blocks, _, hcontents', hstate⟩
    dsimp only at hrun
    split at hrun
    · obtain ⟨blocks', hblocks', rfl⟩ := hholds.write_block hlength hrun
      exact ⟨blocks', [], hblocks', rfl⟩
    · obtain ⟨-, rfl⟩ := EStateM.Result.ok.inj hrun
      exact hholds
  · cases hbuffer

/-- A datum that is not valid leaves the writer as it is. -/
theorem append_invalid {limit : ℕ} {datum : PyObj}
    (h : validate w.writers_schema.store limit w.writers_schema.schema datum ≠ .ok true) :
    ∃ e, append host imports limit datum w = .error e w := by
  have hwrite : ∃ e, writeDatum host w.writers_schema.store limit w.writers_schema.schema datum
      w.buffer_writer = .error e w.buffer_writer := by
    unfold writeDatum
    cases hvalid : validate w.writers_schema.store limit w.writers_schema.schema datum with
    | error e => exact ⟨e, rfl⟩
    | ok valid =>
      cases valid with
      | false => exact ⟨_, rfl⟩
      | true => exact absurd hvalid h
  obtain ⟨e, he⟩ := hwrite
  have hbuffer : buffer_encoder (writeDatum host w.writers_schema.store limit
      w.writers_schema.schema datum) w = .error e w := by
    unfold buffer_encoder
    rw [he]
  exact ⟨e, (Hoare.bind_of_ok rfl).trans (Hoare.bind_of_error hbuffer)⟩

end Container

/-! ## Runs -/

inductive WriterCall where
  | append (datum : PyObj)
  | sync
  | flush
  /-- `close`, and a new writer that goes on with the file. -/
  | reopen

/-- What a call makes of the writer, and of the data that have been appended. -/
def WriterCall.step (host : Host) (imports : Imports) (limit : ℕ)
    (s : DataFileWriter × List PyObj) : WriterCall → DataFileWriter × List PyObj
  | .append datum => match Avro.append host imports limit datum s.1 with
    | .ok _ w => (w, s.2 ++ [datum])
    | .error _ w => (w, s.2)
  | .sync => match Avro.sync imports s.1 with
    | .ok _ w => (w, s.2)
    | .error _ w => (w, s.2)
  | .flush => match Avro.flush imports s.1 with
    | .ok _ w => (w, s.2)
    | .error _ w => (w, s.2)
  | .reopen => match Avro.flush imports s.1 with
    | .ok _ w => match DataFileWriter.reopen host imports limit w.writer with
      | .ok w => (w, s.2)
      | .error _ => (w, s.2)
    | .error _ w => (w, s.2)

/-- The call does not stop in the middle of what it writes. -/
def WriterCall.Completes (host : Host) (imports : Imports) (limit : ℕ)
    (s : DataFileWriter × List PyObj) : WriterCall → Prop
  | .append datum =>
    validate s.1.writers_schema.store limit s.1.writers_schema.schema datum ≠ .ok true ∨
      ∃ w, Avro.append host imports limit datum s.1 = .ok () w
  | _ => ∃ w, Avro.flush imports s.1 = .ok () w

/-- The call completes, and makes the second of the first. -/
def WriterCall.Leads (host : Host) (imports : Imports) (limit : ℕ) (call : WriterCall)
    (s s' : DataFileWriter × List PyObj) : Prop :=
  call.Completes host imports limit s ∧ call.step host imports limit s = s'

theorem WriterCall.Leads.cons {host : Host} {imports : Imports} {limit : ℕ}
    {s s₁ s' : DataFileWriter × List PyObj} {call : WriterCall} {calls : List WriterCall}
    (hcall : call.Leads host imports limit s s₁)
    (hcalls : Transition.Guarded (WriterCall.step host imports limit)
        (WriterCall.Completes host imports limit) s₁ calls ∧
      Transition.run (WriterCall.step host imports limit) s₁ calls = s') :
    Transition.Guarded (WriterCall.step host imports limit)
        (WriterCall.Completes host imports limit) s (call :: calls) ∧
      Transition.run (WriterCall.step host imports limit) s (call :: calls) = s' := by
  obtain ⟨hcompletes, rfl⟩ := hcall
  exact ⟨⟨hcompletes, hcalls.1⟩, hcalls.2⟩

namespace Container

variable {c : Container} {host : Host} {imports : Imports} {limit : ℕ}

theorem Holds.step {s : DataFileWriter × List PyObj} {call : WriterCall}
    (hreopen : ∀ back, DataFileWriter.reopen host imports limit (c.headerBytes host ++ back)
      = .ok (c.opened (c.headerBytes host ++ back)))
    (h : c.Holds host imports s.2 s.1) (hcompletes : call.Completes host imports limit s)
    (hlength : (call.step host imports limit s).2.length < 2 ^ 63) :
    c.Holds host imports (call.step host imports limit s).2
      (call.step host imports limit s).1 := by
  obtain ⟨w, data⟩ := s
  have hflush : ∀ w', flush imports w = .ok () w' → data.length < 2 ^ 63 →
      c.Holds host imports data w' ∧ ∃ back, w' = c.opened (c.headerBytes host ++ back) := by
    intro w' hrun hdata
    obtain ⟨blocks, hcontents, rfl⟩ := h.write_block hdata hrun
    exact ⟨⟨blocks, [], hcontents, rfl⟩, _, rfl⟩
  cases call with
  | append datum =>
    unfold WriterCall.step at hlength ⊢
    dsimp only at hlength ⊢
    cases hrun : Avro.append host imports limit datum w with
    | ok _ w' =>
      rw [hrun] at hlength
      exact h.append hlength hrun
    | error e w' =>
      rcases hcompletes with hinvalid | ⟨w'', hreturns⟩
      · obtain ⟨e', he'⟩ := @append_invalid host imports _ _ _ hinvalid
        obtain ⟨-, rfl⟩ := EStateM.Result.error.inj (hrun.symm.trans he')
        exact h
      · cases hrun.symm.trans hreturns
  | sync =>
    obtain ⟨w', hrun⟩ := hcompletes
    have hsync : Avro.sync imports w = .ok w'.writer.length w' := Hoare.bind_of_ok hrun
    unfold WriterCall.step at hlength ⊢
    rw [hsync] at hlength ⊢
    exact (hflush w' hrun hlength).1
  | flush =>
    obtain ⟨w', hrun⟩ := hcompletes
    unfold WriterCall.step at hlength ⊢
    rw [hrun] at hlength ⊢
    exact (hflush w' hrun hlength).1
  | reopen =>
    obtain ⟨w', hrun⟩ := hcompletes
    unfold WriterCall.step at hlength ⊢
    rw [hrun] at hlength ⊢
    dsimp only at hlength ⊢
    have hdata : data.length < 2 ^ 63 := by split at hlength <;> exact hlength
    obtain ⟨hholds, back, rfl⟩ := hflush w' hrun hdata
    have hcontent : (c.opened (c.headerBytes host ++ back)).writer
        = c.headerBytes host ++ back := rfl
    rw [hcontent, hreopen back]
    exact hholds

theorem opened_eq_state : c.opened (c.headerBytes host) = c.state host imports [] [] := by
  unfold opened state
  simp

section Calls

variable {blocks : List (List Part)} {pending : List Part} {data : List PyObj} {datum : PyObj}

theorem leads_append {bytes : List UInt8} (h : Writes (writeDatum host c.writers_schema.store limit
      c.writers_schema.schema datum) bytes)
    (hless : ((pending ++ [(datum, bytes)]).flatMap Prod.snd).length < SYNC_INTERVAL) :
    (WriterCall.append datum).Leads host imports limit (c.state host imports blocks pending, data)
      (c.state host imports blocks (pending ++ [(datum, bytes)]), data ++ [datum]) := by
  have hrun : append host imports limit datum (c.state host imports blocks pending)
      = .ok () (c.state host imports blocks (pending ++ [(datum, bytes)])) := by
    have hbuffer : ¬ (c.state host imports blocks
        (pending ++ [(datum, bytes)])).buffer_writer.length ≥ SYNC_INTERVAL := Nat.not_le.2 hless
    rw [c.append_eq h, if_neg hbuffer]
    rfl
  refine ⟨.inr ⟨_, hrun⟩, ?_⟩
  unfold WriterCall.step
  dsimp only
  rw [hrun]

theorem leads_invalid {w : DataFileWriter}
    (h : validate w.writers_schema.store limit w.writers_schema.schema datum = .ok false) :
    (WriterCall.append datum).Leads host imports limit (w, data) (w, data) := by
  have hinvalid : validate w.writers_schema.store limit w.writers_schema.schema datum
      ≠ .ok true := fun htrue => by cases h.symm.trans htrue
  obtain ⟨e, he⟩ := @append_invalid host imports _ _ _ hinvalid
  refine ⟨.inl hinvalid, ?_⟩
  unfold WriterCall.step
  dsimp only
  rw [he]

theorem flush_state (hne : pending ≠ [])
    (hsize : (c.compressed imports (pending.flatMap Prod.snd)).length < 2 ^ 63) :
    flush imports (c.state host imports blocks pending)
      = .ok () (c.state host imports (blocks ++ [pending]) []) := by
  unfold flush
  rw [c.write_block_of_ne_nil hne, if_pos hsize]

theorem leads_sync (hne : pending ≠ [])
    (hsize : (c.compressed imports (pending.flatMap Prod.snd)).length < 2 ^ 63) :
    WriterCall.sync.Leads host imports limit (c.state host imports blocks pending, data)
      (c.state host imports (blocks ++ [pending]) [], data) := by
  refine ⟨⟨_, flush_state hne hsize⟩, ?_⟩
  have hsync : sync imports (c.state host imports blocks pending) = .ok _ _ :=
    Hoare.bind_of_ok (flush_state hne hsize)
  unfold WriterCall.step
  rw [hsync]

theorem leads_reopen (hreopen : ∀ back, DataFileWriter.reopen host imports limit
      (c.headerBytes host ++ back) = .ok (c.opened (c.headerBytes host ++ back)))
    (hne : pending ≠ [])
    (hsize : (c.compressed imports (pending.flatMap Prod.snd)).length < 2 ^ 63) :
    WriterCall.reopen.Leads host imports limit (c.state host imports blocks pending, data)
      (c.state host imports (blocks ++ [pending]) [], data) := by
  refine ⟨⟨_, flush_state hne hsize⟩, ?_⟩
  have hcontent : (c.state host imports (blocks ++ [pending]) []).writer
      = c.headerBytes host ++ (blocks ++ [pending]).flatMap (c.blockBytes imports) := rfl
  unfold WriterCall.step
  dsimp only
  rw [flush_state hne hsize]
  dsimp only
  rw [hcontent, hreopen]
  rfl

end Calls

theorem length_step (s : DataFileWriter × List PyObj) (call : WriterCall) :
    s.2.length ≤ (call.step host imports limit s).2.length := by
  cases call with
  | append datum =>
    unfold WriterCall.step
    dsimp only
    split
    · exact (List.length_append ▸ Nat.le_add_right _ _)
    · exact le_rfl
  | sync => unfold WriterCall.step; dsimp only; split <;> exact le_rfl
  | flush => unfold WriterCall.step; dsimp only; split <;> exact le_rfl
  | reopen =>
    unfold WriterCall.step
    dsimp only
    split
    · split <;> exact le_rfl
    · exact le_rfl

theorem holds_opened : c.Holds host imports [] (c.opened (c.headerBytes host)) :=
  ⟨[], [], ⟨rfl, nofun, nofun⟩, opened_eq_state⟩

/-- The data only get more. -/
theorem guarded_length {s : DataFileWriter × List PyObj} {calls : List WriterCall}
    (h : (Transition.run (WriterCall.step host imports limit) s calls).2.length < 2 ^ 63) :
    Transition.Guarded (WriterCall.step host imports limit)
      (fun s call => (call.step host imports limit s).2.length < 2 ^ 63) s calls := by
  have hback : ∀ (s : DataFileWriter × List PyObj) (call : WriterCall),
      (call.step host imports limit s).2.length < 2 ^ 63 → s.2.length < 2 ^ 63 :=
    fun s call => lt_of_le_of_lt (length_step s call)
  exact @Transition.guarded_of_final _ _ (WriterCall.step host imports limit)
    (fun s => s.2.length < 2 ^ 63) hback s calls h

/-- From a new writer, calls that completed have led to this writer, with these data. -/
def Reached (c : Container) (host : Host) (imports : Imports) (limit : ℕ) (w : DataFileWriter)
    (data : List PyObj) : Prop :=
  ∃ w₀ calls, DataFileWriter.new host limit c.writers_schema c.schema_text
      (.str (encodeUtf8 c.codec)) c.sync_marker = .ok w₀ ∧
    Transition.Guarded (WriterCall.step host imports limit)
      (WriterCall.Completes host imports limit) (w₀, []) calls ∧
    Transition.run (WriterCall.step host imports limit) (w₀, []) calls = (w, data)

theorem holds_of_reached (h : c.Loads imports) : ∀ᶠ limit in atTop, ∀ w data,
    c.Reached host imports limit w data → data.length < 2 ^ 63 → c.Holds host imports data w := by
  filter_upwards [@new_writer c host, @reopen_writer c host imports h] with limit hnew hreopen
  rintro w data ⟨w₀, calls, hw₀, hguard, hrun⟩ hlength
  obtain rfl := Except.ok.inj (hw₀.symm.trans hnew)
  have hfinal : (Transition.run (WriterCall.step host imports limit)
      (c.opened (c.headerBytes host), []) calls).2.length < 2 ^ 63 := by
    rw [hrun]
    exact hlength
  have hholds := @Transition.run_invariant _ _ _ _
    (fun s : DataFileWriter × List PyObj => c.Holds host imports s.2 s.1)
    (fun s call hstep hs => hs.step hreopen hstep.1 hstep.2) _ _ holds_opened
    (hguard.and (guarded_length hfinal))
  rwa [hrun] at hholds

end Container

end HadoopExamples.Avro
