import Mathlib.Data.String.Basic
import HadoopExamples.Platform.Python

set_option autoImplicit false

/-! # Python objects

Data of Python 2 whose type is only known at run time, as `json.loads` returns them and as
`isinstance` tells them apart. `int` and `long` are one type here, and a float is known by the bits
of its double. -/

namespace HadoopExamples.Python

/-- A key of a `dict`; of keys that are no strings it only matters which are equal. -/
inductive Key where
  | str (bytes : List UInt8)
  | unicode (chars : PyString)
  | other (id : ℕ)
deriving DecidableEq

inductive PyObj where
  | none
  | bool (b : Bool)
  | int (n : ℤ)
  | float (bits : UInt64)
  | str (bytes : List UInt8)
  | unicode (chars : PyString)
  | list (items : List PyObj)
  | dict (entries : List (Key × PyObj))

/-- A function raises one of these. An exception of a module's own is an `error`. -/
inductive PyException (ε : Type) where
  | typeError
  | attributeError
  | valueError
  | indexError
  | overflowError
  | structError
  | zlibError
  | unicodeError
  | runtimeError
  | ioError
  | stopIteration
  | error (e : ε)

/-! ## Strings -/

/-- `s.encode("utf-8")` for a unicode string. -/
def encodeUtf8 (s : PyString) : List UInt8 := s.flatMap String.utf8EncodeChar

/-- `unicode(bytes, "utf-8")` -/
def decodeUtf8 (bytes : List UInt8) : Option PyString :=
  bytes.toByteArray.utf8Decode?.map Array.toList

theorem decodeUtf8_encodeUtf8 (s : PyString) : decodeUtf8 (encodeUtf8 s) = some s := by
  unfold decodeUtf8 encodeUtf8
  have h := @List.utf8Decode?_utf8Encode s
  rw [List.utf8Encode] at h
  rw [h]
  rfl

/-- The characters of a `str`, where Python wants a unicode string and gets a `str`. -/
def decodeAscii (bytes : List UInt8) : Option PyString :=
  if bytes.all (· < 128) then some (bytes.map fun b => Char.ofNat b.toNat) else none

theorem encodeUtf8_of_decodeAscii {bytes : List UInt8} {s : PyString}
    (h : decodeAscii bytes = some s) : encodeUtf8 s = bytes := by
  unfold decodeAscii at h
  split at h
  · rename_i hascii
    cases h
    have hbyte : ∀ b ∈ bytes, String.utf8EncodeChar (Char.ofNat b.toNat) = [b] := by
      intro b hb
      have hlt : b.toNat < 128 :=
        UInt8.lt_iff_toNat_lt.1 (of_decide_eq_true (List.all_eq_true.1 hascii b hb))
      have hval : (Char.ofNat b.toNat).val.toNat = b.toNat := by
        unfold Char.ofNat
        rw [dif_pos (Or.inl (by omega))]
        rfl
      unfold String.utf8EncodeChar
      rw [hval, if_pos (by omega), UInt8.ofNat_toNat]
    unfold encodeUtf8
    rw [List.flatMap_map]
    rw [List.flatMap_congr hbyte, List.flatMap_singleton']
  · cases h

/-- The string that a key or an object is equal to. -/
def Key.asString : Key → Option PyString
  | .str bytes => decodeAscii bytes
  | .unicode chars => some chars
  | .other _ => Option.none

def Key.isBasestring : Key → Bool
  | .other _ => false
  | _ => true

def PyObj.asString : PyObj → Option PyString
  | .str bytes => decodeAscii bytes
  | .unicode chars => some chars
  | _ => Option.none

/-! ## Functions that raise -/

theorem of_bind_eq_ok {ε α β : Type} {r : Except ε α} {next : α → Except ε β} {b : β}
    (h : (r >>= next) = .ok b) : ∃ a, r = .ok a ∧ next a = .ok b := by
  cases r with
  | error e => cases h
  | ok a => exact ⟨a, rfl, h⟩

theorem mapM_ok {ε α β : Type} {f : α → Except ε β} {parts : List (α × β)}
    (h : ∀ part ∈ parts, f part.1 = .ok part.2) :
    (parts.map Prod.fst).mapM f = .ok (parts.map Prod.snd) := by
  induction parts with
  | nil => rfl
  | cons part parts ih =>
    rw [List.map_cons, List.mapM_cons, h part List.mem_cons_self,
      ih fun part' h' => h part' (List.mem_cons_of_mem _ h')]
    rfl

/-- A loop of which every pass succeeds. -/
theorem foldlM_ok {ε α σ : Type} {f : σ → α → Except ε σ} {g : σ → α → σ} {l : List α}
    (h : ∀ a ∈ l, ∀ s, f s a = .ok (g s a)) (s : σ) : l.foldlM f s = .ok (l.foldl g s) := by
  induction l generalizing s with
  | nil => rfl
  | cons a l ih =>
    rw [List.foldlM_cons, h a List.mem_cons_self]
    exact ih (fun a' h' => h a' (List.mem_cons_of_mem _ h')) (g s a)

theorem mem_of_mapM_ok {ε α β : Type} {f : α → Except ε β} {l : List α} {bs : List β}
    (h : l.mapM f = .ok bs) {a : α} (ha : a ∈ l) : ∃ b ∈ bs, f a = .ok b := by
  induction l generalizing bs with
  | nil => cases ha
  | cons a' l ih =>
    rw [List.mapM_cons] at h
    cases ha' : f a' with
    | error e =>
      rw [ha'] at h
      cases h
    | ok b' =>
      cases hl : l.mapM f with
      | error e =>
        rw [ha', hl] at h
        cases h
      | ok bs' =>
        rw [ha', hl] at h
        cases h
        rcases List.mem_cons.1 ha with rfl | hmem
        · exact ⟨b', List.mem_cons_self, ha'⟩
        · obtain ⟨b, hb, hfa⟩ := ih hl hmem
          exact ⟨b, List.mem_cons_of_mem _ hb, hfa⟩

/-! ## Containers -/

section Containers

variable {ε α : Type}

/-- `len(l)`. No list or string has more than `sys.maxsize` elements. -/
def len (l : List α) : Except (PyException ε) ℤ :=
  if l.length < 2 ^ 63 then .ok l.length else .error .overflowError

theorem of_len {l : List α} {n : ℤ} (h : (len l : Except (PyException ε) ℤ) = .ok n) :
    n = l.length ∧ l.length < 2 ^ 63 := by
  unfold len at h
  split at h
  · exact ⟨(Except.ok.inj h).symm, by assumption⟩
  · cases h

/-- `enumerate(l)` -/
def enumerate (l : List α) : Except (PyException ε) (List (α × ℕ)) :=
  if l.length < 2 ^ 63 then .ok l.zipIdx else .error .overflowError

/-- `l[i]`, where a negative index counts from the end. -/
def getItem (l : List α) (i : ℤ) : Except (PyException ε) α :=
  if 0 ≤ i then
    match l[i.toNat]? with
    | some a => .ok a
    | none => .error .indexError
  else if -i ≤ l.length then
    match l[(l.length + i).toNat]? with
    | some a => .ok a
    | none => .error .indexError
  else .error .indexError

theorem getItem_natCast {l : List α} {i : ℕ} {a : α} (h : l[i]? = some a) :
    (getItem l i : Except (PyException ε) α) = .ok a := by
  unfold getItem
  rw [if_pos (Int.natCast_nonneg i), Int.toNat_natCast, h]

end Containers

section Dicts

variable {α : Type}

/-- `d.get(name)` for a unicode string -/
def dictGet (entries : List (Key × α)) (name : PyString) : Option α :=
  (entries.find? fun entry => entry.1.asString = some name).map Prod.snd

/-- `d[name] = value` for a unicode string; a new key comes last. -/
def dictSet (entries : List (Key × α)) (name : PyString) (value : α) : List (Key × α) :=
  if entries.any fun entry => entry.1.asString = some name then
    entries.map fun entry => if entry.1.asString = some name then (entry.1, value) else entry
  else entries ++ [(.unicode name, value)]

/-- The `dict` with these entries, each under its name, the first of two names that are equal
    keeping its place and the last its value. -/
def dictOf (entries : List (PyString × α)) : List (Key × α) :=
  entries.foldl (fun d entry => dictSet d entry.1 entry.2) []

theorem dictSet_of_notMem {entries : List (PyString × α)} {name : PyString} (value : α)
    (hname : name ∉ entries.map Prod.fst) :
    dictSet (entries.map fun entry => (.unicode entry.1, entry.2)) name value
      = (entries ++ [(name, value)]).map fun entry => (.unicode entry.1, entry.2) := by
  have hnone : ¬ (entries.map fun entry => (Key.unicode entry.1, entry.2)).any
      (fun entry => entry.1.asString = some name) = true := by
    rw [List.any_map, List.any_eq_true]
    rintro ⟨entry, hentry, heq⟩
    refine hname (List.mem_map.2 ⟨entry, hentry, ?_⟩)
    exact Option.some.inj (of_decide_eq_true heq)
  unfold dictSet
  rw [if_neg hnone, List.map_append]
  rfl

/-- Different names stay as they are. -/
theorem dictOf_eq {entries : List (PyString × α)} (hnodup : (entries.map Prod.fst).Nodup) :
    dictOf entries = entries.map fun entry => (.unicode entry.1, entry.2) := by
  have hfold : ∀ todo done : List (PyString × α), ((done ++ todo).map Prod.fst).Nodup →
      todo.foldl (fun d entry => dictSet d entry.1 entry.2)
          (done.map fun entry => (.unicode entry.1, entry.2))
        = (done ++ todo).map fun entry => (.unicode entry.1, entry.2) := by
    intro todo
    induction todo with
    | nil =>
      intro done _
      rw [List.append_nil]
      rfl
    | cons entry todo ih =>
      intro done hnodup
      have hnew : entry.1 ∉ done.map Prod.fst := by
        rw [List.map_append, List.map_cons] at hnodup
        exact fun hmem => (List.nodup_append.1 hnodup).2.2 _ hmem _ List.mem_cons_self rfl
      rw [List.foldl_cons, dictSet_of_notMem entry.2 hnew]
      rw [List.append_cons] at hnodup
      rw [ih (done ++ [entry]) hnodup, List.append_assoc, List.singleton_append]
  exact hfold entries [] hnodup

theorem dictGet_dictOf {entries : List (PyString × α)} (hnodup : (entries.map Prod.fst).Nodup)
    {entry : PyString × α} (hmem : entry ∈ entries) :
    dictGet (dictOf entries) entry.1 = some entry.2 := by
  rw [dictOf_eq hnodup]
  unfold dictGet
  induction entries with
  | nil => cases hmem
  | cons first entries ih =>
    rw [List.map_cons, List.nodup_cons] at hnodup
    rw [List.map_cons]
    rcases List.mem_cons.1 hmem with rfl | hrest
    · rw [List.find?_cons_of_pos]
      · rfl
      · exact decide_eq_true rfl
    · rw [List.find?_cons_of_neg]
      · exact ih hnodup.2 hrest
      · intro heq
        have hname : first.1 = entry.1 := Option.some.inj (of_decide_eq_true heq)
        exact hnodup.1 (hname ▸ List.mem_map_of_mem hrest)

/-- The order of the entries makes no difference. -/
theorem dictGet_perm {entries entries' : List (Key × α)} (h : entries.Perm entries')
    (hnodup : (entries.map fun entry => entry.1.asString).Nodup) (name : PyString) :
    dictGet entries name = dictGet entries' name := by
  induction h with
  | nil => rfl
  | cons entry _ ih =>
    unfold dictGet at ih ⊢
    rw [List.find?_cons, List.find?_cons]
    split
    · rfl
    · exact ih (List.nodup_cons.1 hnodup).2
  | swap entry entry' entries =>
    unfold dictGet
    rw [List.find?_cons, List.find?_cons, List.find?_cons, List.find?_cons]
    by_cases hkey : entry.1.asString = some name
    · have hkey' : ¬ entry'.1.asString = some name := fun hkey' =>
        (List.nodup_cons.1 hnodup).1 (List.mem_cons.2 (.inl (hkey'.trans hkey.symm)))
      rw [decide_eq_true hkey, decide_eq_false hkey']
    · rw [decide_eq_false hkey]
  | trans h _ ih ih' => exact (ih hnodup).trans (ih' ((h.map _).nodup_iff.1 hnodup))

theorem length_dictOf {entries : List (PyString × α)} (hnodup : (entries.map Prod.fst).Nodup) :
    (dictOf entries).length = entries.length := by
  rw [dictOf_eq hnodup, List.length_map]

end Dicts

/-- `d.get(name)` for an object that is a `dict`; `None` where there is no such key. -/
def PyObj.get (entries : List (Key × PyObj)) (name : PyString) : PyObj :=
  (dictGet entries name).getD .none

/-- `if obj:` -/
def PyObj.truthy : PyObj → Bool
  | .none => false
  | .bool b => b
  | .int n => n ≠ 0
  | .float bits => bits ≠ 0 ∧ bits ≠ 0x8000000000000000
  | .str bytes => !bytes.isEmpty
  | .unicode chars => !chars.isEmpty
  | .list items => !items.isEmpty
  | .dict entries => !entries.isEmpty

end HadoopExamples.Python
