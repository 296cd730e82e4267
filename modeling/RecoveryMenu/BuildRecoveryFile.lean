import Mathlib.Algebra.BigOperators.Group.List.Lemmas
import Mathlib.Logic.Function.Basic
import RecoveryMenu.Foundations.ByteMemory

set_option relaxedAutoImplicit false
set_option autoImplicit false

/-!
# The recovery file (`build_recovery_file.py`)

The build script collects sections and writes them to one file: a header with a record for each
of up to 14 sections, and then the data of the sections. A section gets its offset when it is
added; the bytes are put together later, in `pack`.

Sections are objects that the script changes in place, so the model keeps them in a store and a
file holds references to them.

## Main definitions

* `RecoveryMenu.BuildRecoveryFile.addSection`, `RecoveryMenu.BuildRecoveryFile.pack`.
* `RecoveryMenu.BuildRecoveryFile.Layout`: the bytes of a file for given sections.

## Main results

* `RecoveryMenu.BuildRecoveryFile.addSections_objects`: the offsets that adding sections gives them.
* `RecoveryMenu.BuildRecoveryFile.pack_layout`: `pack` after adding sections has that layout.

## References

* `build_recovery_file.py`, lines 6-65.
-/

namespace RecoveryMenu

namespace BuildRecoveryFile

open ByteMemory

/-! ## The model -/

/-- An exception. -/
inductive PyError
  | runtimeError (message : String)
  | structError
  | attributeError
  deriving DecidableEq, Repr

/-- `RecoverySection`. `offset` is only set when the section is added to a file. -/
structure RecoverySection where
  data : List UInt8
  vaddr : ℕ
  paddr : ℕ
  offset : Option ℕ
  deriving DecidableEq, Repr

/-- The section objects, by reference. -/
abbrev Objects := ℕ → RecoverySection

/-- `RecoveryFile`, whose `sections` are references. -/
structure RecoveryFile where
  entry : ℕ
  sections : List ℕ
  curOffset : ℕ
  deriving DecidableEq, Repr

/-- `MAX_RECOVERY_SECTIONS`. -/
def maxRecoverySections : ℕ := 14

/-- `RECOVERY_HEADER_SIZE`. -/
def recoveryHeaderSize : ℕ := 0xec

/-- `RecoveryFile(entry)`. -/
def init (entry : ℕ) : RecoveryFile := ⟨entry, [], recoveryHeaderSize⟩

/-- The section objects and a file. -/
structure State where
  objects : Objects
  file : RecoveryFile

/-- The section gets its offset and is appended. -/
def State.add (s : State) (ref : ℕ) : State where
  objects := Function.update s.objects ref
    { s.objects ref with offset := some s.file.curOffset }
  file := { s.file with
    curOffset := s.file.curOffset + (s.objects ref).data.length
    sections := s.file.sections ++ [ref] }

/-- `file.add_section(section)`: the exception raised, if any, and the state after it. -/
def addSection (s : State) (ref : ℕ) : Option PyError × State :=
  if s.file.sections.length ≥ maxRecoverySections then
    (some (.runtimeError "too many sections"), s)
  else (none, s.add ref)

/-- `add_section` for each of the given sections in order, up to the first exception. -/
def addSections (s : State) : List ℕ → Option PyError × State
  | [] => (none, s)
  | ref :: refs =>
    match addSection s ref with
    | (some e, s') => (some e, s')
    | (none, s') => addSections s' refs

/-- `struct.pack('>I..', *values)`. -/
def structPack (values : List ℕ) : Except PyError (List UInt8) :=
  if ∀ n ∈ values, n < 2 ^ 32 then .ok (values.flatMap (BigEndian.ofNat 4))
  else .error .structError

/-- `section.pack()`. -/
def RecoverySection.pack (s : RecoverySection) : Except PyError (List UInt8) :=
  match s.offset with
  | none => .error .attributeError
  | some offset => structPack [s.vaddr, s.paddr, s.data.length, offset]

/-- `file.pack()`. -/
def pack (s : State) : Except PyError (List UInt8) := do
  let magic : List UInt8 := [0x52, 0x45, 0x43, 0]
  let head ← structPack [s.file.entry, s.file.sections.length]
  let headers ← s.file.sections.mapM fun ref => (s.objects ref).pack
  let padding ← (List.range (maxRecoverySections - s.file.sections.length)).mapM
    fun _ => structPack [0, 0, 0, 0]
  return magic ++ head ++ headers.flatten ++ padding.flatten ++
    (s.file.sections.map fun ref => (s.objects ref).data).flatten

/-! ## Adding sections -/

/-- The size of the data of some sections. -/
def dataSize (objects : Objects) (refs : List ℕ) : ℕ :=
  (refs.map fun ref => (objects ref).data.length).sum

/-- The section that is added gets its offset. -/
lemma add_objects_self (s : State) (ref : ℕ) :
    (s.add ref).objects ref = { s.objects ref with offset := some s.file.curOffset } :=
  Function.update_self _ _ _

/-- Other sections stay as they are. -/
lemma add_objects_of_ne (s : State) {ref x : ℕ} (h : x ≠ ref) :
    (s.add ref).objects x = s.objects x :=
  Function.update_of_ne h _ _

/-- One more section. -/
@[simp] lemma length_add (s : State) (ref : ℕ) :
    (s.add ref).file.sections.length = s.file.sections.length + 1 :=
  List.length_append

/-- Adding a section changes no data. -/
@[simp] lemma data_add (s : State) (ref x : ℕ) :
    ((s.add ref).objects x).data = (s.objects x).data := by
  by_cases h : x = ref
  · rw [h, add_objects_self]
  · rw [add_objects_of_ne s h]

/-- Adding a section changes the size of no data. -/
@[simp] lemma dataSize_add (s : State) (ref : ℕ) (refs : List ℕ) :
    dataSize (s.add ref).objects refs = dataSize s.objects refs := by
  simp only [dataSize, data_add]

/-- Adding sections to a file with room for them. -/
lemma addSections_cons {s : State} {ref : ℕ} {refs : List ℕ}
    (h : s.file.sections.length < maxRecoverySections) :
    addSections s (ref :: refs) = addSections (s.add ref) refs := by
  rw [addSections, addSection, if_neg (by omega)]

/-- The file after adding sections.

**Proof sketch.** Induction on the sections, for every state. -/
lemma addSections_file {s : State} {refs : List ℕ}
    (h : s.file.sections.length + refs.length ≤ maxRecoverySections) :
    (addSections s refs).1 = none ∧ (addSections s refs).2.file =
      { s.file with
        curOffset := s.file.curOffset + dataSize s.objects refs
        sections := s.file.sections ++ refs } := by
  induction refs generalizing s with
  | nil => simp [addSections, dataSize]
  | cons ref refs ih =>
    rw [List.length_cons] at h
    have hroom : (s.add ref).file.sections.length + refs.length ≤ maxRecoverySections := by
      rw [length_add]
      omega
    rw [addSections_cons (by omega)]
    refine ⟨(ih hroom).1, (ih hroom).2.trans ?_⟩
    rw [dataSize_add]
    simp only [State.add, dataSize, List.map_cons, List.sum_cons, List.append_assoc,
      List.singleton_append, Nat.add_assoc]

/-- Sections that are not added stay as they are. -/
lemma addSections_objects_of_notMem {s : State} {refs : List ℕ} {x : ℕ} (hx : x ∉ refs)
    (h : s.file.sections.length + refs.length ≤ maxRecoverySections) :
    (addSections s refs).2.objects x = s.objects x := by
  induction refs generalizing s with
  | nil => rfl
  | cons ref refs ih =>
    rw [List.length_cons] at h
    rw [List.mem_cons, not_or] at hx
    have hroom : (s.add ref).file.sections.length + refs.length ≤ maxRecoverySections := by
      rw [length_add]
      omega
    rw [addSections_cons (by omega), ih hx.2 hroom, add_objects_of_ne s hx.1]

/-- **The offsets.** Each of the added sections gets the offset at which the data of those before
it ends.

**Proof sketch.** Induction on the sections, for every state: the first one is not changed by
adding the others, which are different objects. -/
lemma addSections_objects {s : State} {refs : List ℕ} (hnodup : refs.Nodup)
    (h : s.file.sections.length + refs.length ≤ maxRecoverySections) {i : ℕ}
    (hi : i < refs.length) :
    (addSections s refs).2.objects refs[i] =
      { s.objects refs[i] with
        offset := some (s.file.curOffset + dataSize s.objects (refs.take i)) } := by
  induction refs generalizing s i with
  | nil => cases hi
  | cons ref refs ih =>
    obtain ⟨hnot, hnodup⟩ := List.nodup_cons.mp hnodup
    rw [List.length_cons] at h
    have hroom : (s.add ref).file.sections.length + refs.length ≤ maxRecoverySections := by
      rw [length_add]
      omega
    rw [addSections_cons (by omega)]
    cases i with
    | zero =>
      rw [List.getElem_cons_zero, addSections_objects_of_notMem hnot hroom, add_objects_self]
      rfl
    | succ i =>
      have hi : i < refs.length := Nat.lt_of_succ_lt_succ hi
      have hne : refs[i] ≠ ref := fun heq => hnot (heq ▸ List.getElem_mem hi)
      rw [List.getElem_cons_succ, ih hnodup hroom hi, dataSize_add, List.take_succ_cons,
        add_objects_of_ne s hne]
      simp only [State.add, dataSize, List.map_cons, List.sum_cons, Nat.add_assoc]

/-! ## Packing -/

/-- Numbers below `2 ^ 32` are packed as words. -/
lemma structPack_eq {values : List ℕ} (h : ∀ n ∈ values, n < 2 ^ 32) :
    structPack values = .ok ((values.map UInt32.ofNat).flatMap bytesOfWord) := by
  rw [structPack, if_pos h, List.flatMap_map]
  congr 1
  refine List.flatMap_congr fun n hn => ?_
  rw [bytesOfWord, UInt32.toNat_ofNat', Nat.mod_eq_of_lt (h n hn)]

/-- A loop whose turns all succeed. -/
lemma mapM_eq_ok {α β : Type} {f : α → Except PyError β} {g : α → β} {l : List α}
    (h : ∀ x ∈ l, f x = .ok (g x)) : l.mapM f = .ok (l.map g) := by
  induction l with
  | nil => rfl
  | cons x l ih =>
    rw [List.mapM_cons, h x List.mem_cons_self, ih fun y hy => h y (List.mem_cons_of_mem _ hy)]
    rfl

/-- The four words of the record of a section. -/
def recordWords (s : RecoverySection) : List UInt32 :=
  [s.vaddr, s.paddr, s.data.length, s.offset.getD 0].map UInt32.ofNat

/-- The words of the header of a file. -/
def headerWords (s : State) : List UInt32 :=
  [0x52454300, s.file.entry, s.file.sections.length].map UInt32.ofNat ++
    (s.file.sections.flatMap fun ref => recordWords (s.objects ref)) ++
    List.replicate (4 * (maxRecoverySections - s.file.sections.length)) 0

/-- The data of all sections. -/
def allData (s : State) : List UInt8 :=
  (s.file.sections.map fun ref => (s.objects ref).data).flatten

/-- The numbers in the record of a section fit into words, and it has an offset. -/
def RecoverySection.Packable (s : RecoverySection) : Prop :=
  s.vaddr < 2 ^ 32 ∧ s.paddr < 2 ^ 32 ∧ s.data.length < 2 ^ 32 ∧
    ∃ offset, s.offset = some offset ∧ offset < 2 ^ 32

/-- The record of a section. -/
lemma pack_section {s : RecoverySection} (h : s.Packable) :
    s.pack = .ok ((recordWords s).flatMap bytesOfWord) := by
  obtain ⟨hvaddr, hpaddr, hlength, offset, hoffset, hlt⟩ := h
  have hall : ∀ n ∈ [s.vaddr, s.paddr, s.data.length, offset], n < 2 ^ 32 := by
    simp only [List.forall_mem_cons]
    exact ⟨hvaddr, hpaddr, hlength, hlt, List.forall_mem_nil _⟩
  rw [RecoverySection.pack, hoffset, recordWords, hoffset]
  exact structPack_eq hall

/-- What `pack` returns. -/
lemma pack_eq {s : State} (hentry : s.file.entry < 2 ^ 32)
    (hcount : s.file.sections.length ≤ maxRecoverySections)
    (hsections : ∀ ref ∈ s.file.sections, (s.objects ref).Packable) :
    pack s = .ok ((headerWords s).flatMap bytesOfWord ++ allData s) := by
  have hlt : s.file.sections.length < 2 ^ 32 := lt_of_le_of_lt hcount (by decide)
  have hhead : structPack [s.file.entry, s.file.sections.length] =
      .ok (([s.file.entry, s.file.sections.length].map UInt32.ofNat).flatMap bytesOfWord) := by
    apply structPack_eq
    simp only [List.forall_mem_cons]
    exact ⟨hentry, hlt, List.forall_mem_nil _⟩
  have hheaders := mapM_eq_ok fun ref href => pack_section (hsections ref href)
  have hrecords : (s.file.sections.map fun ref =>
      (recordWords (s.objects ref)).flatMap bytesOfWord).flatten =
        (s.file.sections.flatMap fun ref => recordWords (s.objects ref)).flatMap bytesOfWord := by
    rw [List.flatMap_assoc, List.flatMap_def]
  have hpadding (k : ℕ) : (List.range k).mapM (fun _ => structPack [0, 0, 0, 0]) =
      .ok ((List.range k).map fun _ => (List.replicate 4 0).flatMap bytesOfWord) :=
    mapM_eq_ok fun _ _ => structPack_eq (by decide)
  have hzeros (k : ℕ) : ((List.range k).map fun _ =>
      (List.replicate 4 0).flatMap bytesOfWord).flatten =
        (List.replicate (4 * k) 0).flatMap bytesOfWord := by
    induction k with
    | zero => rfl
    | succ k ih =>
      rw [List.range_succ, List.map_append, List.flatten_append, ih, Nat.mul_succ,
        List.replicate_add, List.flatMap_append, List.map_singleton, List.flatten_singleton]
  have hfirst : [0x52, 0x45, 0x43, 0] ++
      ([s.file.entry, s.file.sections.length].map UInt32.ofNat).flatMap bytesOfWord =
        ([0x52454300, s.file.entry, s.file.sections.length].map UInt32.ofNat).flatMap
          bytesOfWord := by
    have hmagic : [0x52, 0x45, 0x43, 0] = bytesOfWord (UInt32.ofNat 0x52454300) := by decide
    rw [hmagic]
    rfl
  rw [pack, hhead, hheaders]
  simp only [bind, Except.bind, pure, Except.pure, hpadding]
  rw [hfirst, hrecords, hzeros, headerWords, List.flatMap_append, List.flatMap_append, allData]

/-! ## Reading the file back -/

/-- An element of a list made of pieces of one length.

**Proof sketch.** Induction on the pieces. -/
lemma getElem?_flatMap_of_length {α β : Type} {f : α → List β} {c : ℕ}
    (hf : ∀ x, (f x).length = c) (l : List α) (i : ℕ) {k : ℕ} (hk : k < c) :
    (l.flatMap f)[c * i + k]? = l[i]?.bind fun x => (f x)[k]? := by
  induction l generalizing i with
  | nil => rfl
  | cons x l ih =>
    rw [List.flatMap_cons]
    cases i with
    | zero =>
      rw [Nat.mul_zero, Nat.zero_add, List.getElem?_append_left (by rw [hf]; exact hk)]
      rfl
    | succ i =>
      have hidx : c * (i + 1) + k - (f x).length = c * i + k := by
        rw [hf, Nat.mul_succ]
        omega
      rw [List.getElem?_append_right (by rw [hf, Nat.mul_succ]; omega), hidx, ih,
        List.getElem?_cons_succ]

/-- A record has four words. -/
lemma length_recordWords (s : RecoverySection) : (recordWords s).length = 4 := rfl

/-- All records have four words each. -/
lemma length_records (s : State) :
    (s.file.sections.flatMap fun ref => recordWords (s.objects ref)).length =
      4 * s.file.sections.length := by
  rw [List.length_flatMap]
  simp only [length_recordWords, List.map_const', List.sum_replicate_nat, Nat.mul_comm]

/-- The header has 59 words. -/
lemma length_headerWords {s : State} (h : s.file.sections.length ≤ maxRecoverySections) :
    (headerWords s).length = 59 := by
  rw [headerWords, List.length_append, List.length_append, length_records, List.length_map,
    List.length_replicate]
  simp only [maxRecoverySections, List.length_cons, List.length_nil] at h ⊢
  omega

/-- The words of the record of a section. -/
lemma headerWords_record (s : State) {i k : ℕ} (hi : i < s.file.sections.length) (hk : k < 4) :
    (headerWords s)[3 + (4 * i + k)]? = (recordWords (s.objects s.file.sections[i]))[k]? := by
  rw [headerWords, List.append_assoc, List.getElem?_append_right (by simp),
    List.getElem?_append_left (by rw [length_records, List.length_map, List.length_cons,
      List.length_cons, List.length_singleton]; omega)]
  rw [List.length_map, List.length_cons, List.length_cons, List.length_singleton,
    Nat.add_sub_cancel_left, getElem?_flatMap_of_length (fun _ => length_recordWords _) _ _ hk,
    List.getElem?_eq_getElem hi, Option.bind_some]

/-- The words of an unused record. -/
lemma headerWords_unused (s : State) {i k : ℕ} (hi : s.file.sections.length ≤ i)
    (hlt : i < maxRecoverySections) (hk : k < 4) :
    (headerWords s)[3 + (4 * i + k)]? = some 0 := by
  have hlength := length_records s
  rw [headerWords, List.getElem?_append_right (by rw [List.length_append, length_records,
    List.length_map, List.length_cons, List.length_cons, List.length_singleton]; omega)]
  rw [List.length_append, length_records, List.length_map, List.length_cons, List.length_cons,
    List.length_singleton, List.getElem?_replicate, if_pos]
  omega

/-- The data of a section among that of all sections. -/
lemma slice_allData (s : State) {i : ℕ} (hi : i < s.file.sections.length) :
    ((allData s).drop (dataSize s.objects (s.file.sections.take i))).take
      (s.objects s.file.sections[i]).data.length = (s.objects s.file.sections[i]).data := by
  have hdrop := List.drop_sum_flatten (s.file.sections.map fun ref => (s.objects ref).data) i
  have hsize : (((s.file.sections.map fun ref => (s.objects ref).data).map List.length).take
      i).sum = dataSize s.objects (s.file.sections.take i) := by
    rw [List.map_map, ← List.map_take, dataSize]
    rfl
  rw [hsize] at hdrop
  rw [allData, hdrop, ← List.map_drop, List.drop_eq_getElem_cons hi, List.map_cons,
    List.flatten_cons, List.take_left]

/-- A number of the record of section `i` in the bytes of a file. -/
def recordField (bytes : List UInt8) (i k : ℕ) : ℕ := (wordAt bytes (3 + (4 * i + k))).toNat

/-- The bytes of a file with the given entry point and sections: the header, a record for each
section with its addresses, its length and the place of its data, the data one after another
from the end of the header to the end of the file, and no other record. -/
structure Layout (objects : Objects) (entry : ℕ) (refs : List ℕ) (bytes : List UInt8) :
    Prop where
  length : bytes.length = recoveryHeaderSize + dataSize objects refs
  magic : bytes.take 4 = [0x52, 0x45, 0x43, 0]
  entry : (wordAt bytes 1).toNat = entry
  count : (wordAt bytes 2).toNat = refs.length
  record : ∀ i (hi : i < refs.length), recordField bytes i 0 = (objects refs[i]).vaddr ∧
    recordField bytes i 1 = (objects refs[i]).paddr ∧
    recordField bytes i 2 = (objects refs[i]).data.length
  slice : ∀ i (hi : i < refs.length),
    (bytes.drop (recordField bytes i 3)).take (objects refs[i]).data.length =
      (objects refs[i]).data
  first : 0 < refs.length → recordField bytes 0 3 = recoveryHeaderSize
  next : ∀ i, i + 1 < refs.length →
    recordField bytes (i + 1) 3 = recordField bytes i 3 + recordField bytes i 2
  last : ∀ i, i + 1 = refs.length → recordField bytes i 3 + recordField bytes i 2 = bytes.length
  unused : ∀ i, refs.length ≤ i → i < maxRecoverySections → ∀ k < 4, recordField bytes i k = 0

/-- One more section adds the size of its data. -/
lemma dataSize_take_succ (objects : Objects) {refs : List ℕ} {i : ℕ} (hi : i < refs.length) :
    dataSize objects (refs.take (i + 1)) =
      dataSize objects (refs.take i) + (objects refs[i]).data.length := by
  rw [dataSize, List.take_add_one, List.getElem?_eq_getElem hi, List.map_append, List.sum_append]
  simp [dataSize]

/-- The first sections are not larger than all of them. -/
lemma dataSize_take_le (objects : Objects) (refs : List ℕ) (i : ℕ) :
    dataSize objects (refs.take i) ≤ dataSize objects refs := by
  have hsplit := congrArg (fun l => dataSize objects l) (List.take_append_drop i refs)
  simp only [dataSize, List.map_append, List.sum_append] at hsplit ⊢
  omega

/-- The size of sections with the same data. -/
lemma dataSize_congr {objects objects' : Objects} {refs : List ℕ}
    (h : ∀ ref ∈ refs, (objects ref).data = (objects' ref).data) :
    dataSize objects refs = dataSize objects' refs := by
  unfold dataSize
  congr 1
  exact List.map_congr_left fun ref href => by rw [h ref href]

/-- The header has the size that the offsets count from. -/
lemma length_headerBytes {s : State} (h : s.file.sections.length ≤ maxRecoverySections) :
    ((headerWords s).flatMap bytesOfWord).length = recoveryHeaderSize := by
  rw [length_flatMap_bytesOfWord, length_headerWords h]
  rfl

/-- The words of the header are read back from a file. -/
lemma wordAt_header {s : State} {j : ℕ} {w : UInt32} (h : (headerWords s)[j]? = some w) :
    wordAt ((headerWords s).flatMap bytesOfWord ++ allData s) j = w := by
  obtain ⟨hj, rfl⟩ := List.getElem?_eq_some_iff.mp h
  exact wordAt_flatMap _ hj

/-- The numbers of the records that fit into a word are read back from a file. -/
lemma recordField_eq {s : State} {i k n : ℕ} (hi : i < s.file.sections.length) (hk : k < 4)
    (hn : n < 2 ^ 32)
    (h : (recordWords (s.objects s.file.sections[i]))[k]? = some (UInt32.ofNat n)) :
    recordField ((headerWords s).flatMap bytesOfWord ++ allData s) i k = n := by
  rw [← headerWords_record s hi hk] at h
  rw [recordField, wordAt_header h, UInt32.toNat_ofNat', Nat.mod_eq_of_lt hn]

/-! ## The layout of a packed file -/

/-- Every section has the offset of its data, and is otherwise as it was. -/
def HasOffsets (objects : Objects) (s : State) : Prop :=
  ∀ i (hi : i < s.file.sections.length), s.objects s.file.sections[i] =
    { objects s.file.sections[i] with
      offset := some (recoveryHeaderSize + dataSize objects (s.file.sections.take i)) }

/-- The bytes of the header and the data of all sections. -/
def packed (s : State) : List UInt8 := (headerWords s).flatMap bytesOfWord ++ allData s

/-- The offsets leave the data of the sections alone. -/
lemma HasOffsets.data {objects : Objects} {s : State} (h : HasOffsets objects s) {ref : ℕ}
    (href : ref ∈ s.file.sections) : (s.objects ref).data = (objects ref).data := by
  obtain ⟨i, hi, rfl⟩ := List.mem_iff_getElem.mp href
  rw [h i hi]

/-- The offsets leave the size of the data of some sections alone. -/
lemma HasOffsets.dataSize_eq {objects : Objects} {s : State} (h : HasOffsets objects s)
    {refs : List ℕ} (hrefs : ∀ ref ∈ refs, ref ∈ s.file.sections) :
    dataSize s.objects refs = dataSize objects refs :=
  dataSize_congr fun ref href => h.data (hrefs ref href)

/-- The offset in the record of a section. -/
lemma HasOffsets.recordField_offset {objects : Objects} {s : State} (h : HasOffsets objects s)
    {i : ℕ} (hi : i < s.file.sections.length)
    (hpackable : (s.objects s.file.sections[i]).Packable) :
    recordField (packed s) i 3 =
      recoveryHeaderSize + dataSize objects (s.file.sections.take i) := by
  obtain ⟨-, -, -, offset, hsome, hlt⟩ := hpackable
  have heq : offset = recoveryHeaderSize + dataSize objects (s.file.sections.take i) := by
    rw [h i hi] at hsome
    exact (Option.some_injective _ hsome).symm
  rw [← heq]
  refine recordField_eq hi (by omega) hlt ?_
  rw [recordWords, hsome]
  rfl

/-- The length in the record of a section. -/
lemma HasOffsets.recordField_length {objects : Objects} {s : State} (h : HasOffsets objects s)
    {i : ℕ} (hi : i < s.file.sections.length)
    (hpackable : (s.objects s.file.sections[i]).Packable) :
    recordField (packed s) i 2 = (objects s.file.sections[i]).data.length := by
  rw [← h.data (List.getElem_mem hi)]
  exact recordField_eq (k := 2) hi (by omega) hpackable.2.2.1 rfl

/-- Where the data of a section end. -/
lemma HasOffsets.recordField_end {objects : Objects} {s : State} (h : HasOffsets objects s)
    {i : ℕ} (hi : i < s.file.sections.length)
    (hpackable : (s.objects s.file.sections[i]).Packable) :
    recordField (packed s) i 3 + recordField (packed s) i 2 =
      recoveryHeaderSize + dataSize objects (s.file.sections.take (i + 1)) := by
  rw [h.recordField_offset hi hpackable, h.recordField_length hi hpackable,
    dataSize_take_succ objects hi, Nat.add_assoc]

/-- The length of the bytes. -/
lemma HasOffsets.length_packed {objects : Objects} {s : State} (h : HasOffsets objects s)
    (hcount : s.file.sections.length ≤ maxRecoverySections) :
    (packed s).length = recoveryHeaderSize + dataSize objects s.file.sections := by
  rw [packed, List.length_append, length_headerBytes hcount, allData, List.length_flatten,
    List.map_map, ← h.dataSize_eq fun _ href => href]
  rfl

/-- What a file holds whose sections have the offsets of their data.

**Proof sketch.** The words of the header are read back from the start of the file
(`wordAt_flatMap`); the data begin after the 59 words of the header, so that an offset less the
size of the header is the place among the data. -/
lemma layout_of_offsets {objects : Objects} {s : State}
    (hcount : s.file.sections.length ≤ maxRecoverySections) (hentry : s.file.entry < 2 ^ 32)
    (hobjects : HasOffsets objects s)
    (hpackable : ∀ ref ∈ s.file.sections, (s.objects ref).Packable) :
    Layout objects s.file.entry s.file.sections (packed s) := by
  have hheader := length_headerBytes hcount
  have htotal := hobjects.length_packed hcount
  have hrecord (i : ℕ) (hi : i < s.file.sections.length) :=
    hpackable _ (List.getElem_mem hi)
  have hoffset (i : ℕ) (hi : i < s.file.sections.length) :=
    hobjects.recordField_offset hi (hrecord i hi)
  have hnext (i : ℕ) (hi : i < s.file.sections.length) :=
    hobjects.recordField_end hi (hrecord i hi)
  constructor
  · exact htotal
  · rw [packed, List.take_append_of_le_length (by rw [hheader]; decide), headerWords,
      List.append_assoc]
    rfl
  · rw [packed, wordAt_header (w := UInt32.ofNat s.file.entry) rfl, UInt32.toNat_ofNat',
      Nat.mod_eq_of_lt hentry]
  · have hlt : s.file.sections.length < 2 ^ 32 := lt_of_le_of_lt hcount (by decide)
    rw [packed, wordAt_header (w := UInt32.ofNat s.file.sections.length) rfl,
      UInt32.toNat_ofNat', Nat.mod_eq_of_lt hlt]
  · intro i hi
    have hvaddr := recordField_eq (k := 0) hi (by omega) (hrecord i hi).1 rfl
    have hpaddr := recordField_eq (k := 1) hi (by omega) (hrecord i hi).2.1 rfl
    rw [packed, hvaddr, hpaddr, ← packed, hobjects.recordField_length hi (hrecord i hi),
      hobjects i hi]
    exact ⟨rfl, rfl, rfl⟩
  · intro i hi
    rw [hoffset i hi, packed, ← hheader, List.drop_append,
      List.drop_eq_nil_of_le (Nat.le_add_right _ _), List.nil_append, Nat.add_sub_cancel_left,
      ← hobjects.data (List.getElem_mem hi),
      ← hobjects.dataSize_eq fun _ href => List.mem_of_mem_take href]
    exact slice_allData s hi
  · intro hne
    rw [hoffset 0 hne]
    rfl
  · intro i hi
    rw [hnext i (by omega), hoffset (i + 1) hi]
  · intro i hi
    rw [hnext i (by omega), htotal, hi, List.take_length]
  · intro i hi hlt k hk
    rw [packed, recordField, wordAt_header (headerWords_unused s hi hlt hk)]
    rfl

/-- An entry point that does not fit into a word cannot be packed. -/
lemma pack_error {s : State} (h : ¬ s.file.entry < 2 ^ 32) : pack s = .error .structError := by
  have hhead : structPack [s.file.entry, s.file.sections.length] = .error .structError := by
    rw [structPack, if_neg]
    exact fun hall => h (hall _ List.mem_cons_self)
  rw [pack, hhead]
  rfl

/-- **The layout of a recovery file.** For every entry point and every list of at most 14
different sections with arbitrary data, with addresses below `2 ^ 32` and a total size below
`2 ^ 32`: adding them in order to an empty file raises nothing; `pack` then returns bytes exactly
if the entry point fits into a word, and the bytes have the layout of the sections; and with 14
sections, adding another one raises and changes nothing.

**Proof sketch.** Adding the sections gives them the offsets of their data
(`addSections_objects`), and with these offsets the bytes put together by `pack` have the layout
(`layout_of_offsets`). -/
theorem pack_layout (objects : Objects) (entry : ℕ) (refs : List ℕ) (hnodup : refs.Nodup)
    (hcount : refs.length ≤ maxRecoverySections)
    (haddresses : ∀ ref ∈ refs, (objects ref).vaddr < 2 ^ 32 ∧ (objects ref).paddr < 2 ^ 32)
    (hsize : recoveryHeaderSize + dataSize objects refs < 2 ^ 32) :
    (addSections ⟨objects, init entry⟩ refs).1 = none ∧
      ((∃ bytes, pack (addSections ⟨objects, init entry⟩ refs).2 = .ok bytes) ↔
        entry < 2 ^ 32) ∧
      (∀ bytes, pack (addSections ⟨objects, init entry⟩ refs).2 = .ok bytes →
        Layout objects entry refs bytes) ∧
      (refs.length = maxRecoverySections → ∀ ref,
        addSection (addSections ⟨objects, init entry⟩ refs).2 ref =
          (some (.runtimeError "too many sections"),
            (addSections ⟨objects, init entry⟩ refs).2)) := by
  have hroom : (init entry).sections.length + refs.length ≤ maxRecoverySections := by
    rw [init, List.length_nil, Nat.zero_add]
    exact hcount
  obtain ⟨hnone, hfile⟩ := addSections_file (s := ⟨objects, init entry⟩) hroom
  have hobject (i : ℕ) (hi : i < refs.length) :=
    addSections_objects (s := ⟨objects, init entry⟩) hnodup hroom hi
  generalize (addSections ⟨objects, init entry⟩ refs).2 = s at hfile hobject ⊢
  have hsections : s.file.sections = refs := by
    rw [hfile]
    rfl
  have hentry : s.file.entry = entry := by
    rw [hfile]
    rfl
  subst hsections hentry
  have hpackable (ref : ℕ) (href : ref ∈ s.file.sections) : (s.objects ref).Packable := by
    obtain ⟨i, hi, rfl⟩ := List.mem_iff_getElem.mp href
    have hsum := dataSize_take_succ objects hi
    have hle := dataSize_take_le objects s.file.sections (i + 1)
    obtain ⟨hvaddr, hpaddr⟩ := haddresses _ href
    rw [hobject i hi]
    refine ⟨hvaddr, hpaddr, ?_, _, rfl, ?_⟩
    · show (objects s.file.sections[i]).data.length < 2 ^ 32
      omega
    · show recoveryHeaderSize + dataSize objects (s.file.sections.take i) < 2 ^ 32
      omega
  refine ⟨hnone, ?_, ?_, ?_⟩
  · constructor
    · rintro ⟨bytes, hpack⟩
      by_contra hlarge
      rw [pack_error hlarge] at hpack
      cases hpack
    · exact fun hlt => ⟨_, pack_eq hlt hcount hpackable⟩
  · intro bytes hpack
    by_cases hlt : s.file.entry < 2 ^ 32
    · rw [pack_eq hlt hcount hpackable] at hpack
      obtain rfl := Except.ok.inj hpack
      exact layout_of_offsets hcount hlt hobject hpackable
    · rw [pack_error hlt] at hpack
      cases hpack
  · intro hfull ref
    rw [addSection, if_pos (ge_of_eq hfull)]

/-- Two sections, the first one empty, with the addresses of the build script. -/
def twoSections : Objects := fun ref =>
  if ref = 0 then ⟨[], 0x08136000, 0x08136000, none⟩ else ⟨[1, 2, 3], 0x05116000, 0x13d96000, none⟩

/-- The layout of a file with two sections. -/
theorem pack_twoSections :
    ∃ bytes, pack (addSections ⟨twoSections, init 0x08136000⟩ [0, 1]).2 = .ok bytes ∧
      Layout twoSections 0x08136000 [0, 1] bytes := by
  obtain ⟨-, hok, hlayout, -⟩ :=
    pack_layout twoSections 0x08136000 [0, 1] (by decide) (by decide) (by decide) (by decide)
  obtain ⟨bytes, hpack⟩ := hok.mpr (by decide)
  exact ⟨bytes, hpack, hlayout bytes hpack⟩

end BuildRecoveryFile

end RecoveryMenu
