import Mathlib.Algebra.Order.BigOperators.Group.List
import RecoveryMenu.Options.LoadBoot1Payload.Payload

set_option relaxedAutoImplicit false
set_option autoImplicit false

/-!
# The payload in MEM1 (`ios_mcp/source/options/LoadBoot1Payload.c`)

`loadBoot1Payload` reads the body of the image in pieces of up to `0x40` bytes and writes each of
them to MEM1 in whole words. Behind a piece that ends within a word, the next one starts at the next
word, and what was in the buffer before stands between them.

## Main definitions

* `RecoveryMenu.LoadBoot1Payload.memoryAfter`: the memory after the writes of a run.
* `RecoveryMenu.LoadBoot1Payload.imageBytes`: the bytes that the loop writes.
* `RecoveryMenu.LoadBoot1Payload.CopiesImage`: the body stands in MEM1, for every image that is
  read in pieces of some lengths.

## Main results

* `RecoveryMenu.LoadBoot1Payload.exists_loadImage_eq`: where the loop is in a run.
* `RecoveryMenu.LoadBoot1Payload.memoryAfter_readBody`: what the loop leaves in the memory.
* `RecoveryMenu.LoadBoot1Payload.copiesImage_iff`: when that is the body.

## References

* `ios_mcp/source/options/LoadBoot1Payload.c`, lines 198-260.
* `ios_mcp/source/utils.c`, lines 80-88.
-/

namespace RecoveryMenu

namespace LoadBoot1Payload

open ByteMemory Menu

/-! ## The writes of a run -/

/-- The memory after an event. -/
def writeEvent (m : Memory) : Event PayloadCall → Memory
  | .call (.kernWrite32 address value) => m.store address (bytesOfWord value)
  | _ => m

/-- The memory after the writes of a run. -/
def memoryAfter (m : Memory) (events : List (Event PayloadCall)) : Memory :=
  events.foldl writeEvent m

/-- The bytes of the words that a piece of some length takes. -/
def padded (length : ℕ) : ℕ := 4 * ((length + 3) / 4)

/-- The buffer after some pieces. -/
def bufferAfter (dataBuffer : Frame) (chunks : List Chunk) : Frame :=
  chunks.foldl (fun buf chunk => buf.store 0 chunk.bytes) dataBuffer

/-- The words that the loop writes. -/
def imageWords : List Chunk → Frame → List UInt32
  | [], _ => []
  | chunk :: chunks, dataBuffer =>
    let dataBuffer := dataBuffer.store 0 chunk.bytes
    (List.range ((chunk.bytes.length + 3) / 4)).map dataBuffer.word ++
      imageWords chunks dataBuffer

/-- The bytes that the loop writes. -/
def imageBytes (chunks : List Chunk) (dataBuffer : Frame) : List UInt8 :=
  (imageWords chunks dataBuffer).flatMap bytesOfWord

/-- The body of the image. -/
def Results.body (r : Results) : List UInt8 := r.chunks.flatMap Chunk.bytes

/-- `dataBuffer` with the header of the image. -/
def Results.headerBuffer (r : Results) : Frame := r.dataBuffer.store 0 r.header

/-- `bodySize`. -/
def Results.bodySize (r : Results) : UInt32 := r.headerBuffer.word 0x6B

/-- The read loop of a run. -/
def Results.bodyEvents (r : Results) : List (Event PayloadCall) :=
  readBody r.fileHandle r.lastRead r.chunks r.headerBuffer 0x50

/-- The run gets to the read loop. -/
structure Results.ReachesBody (r : Results) : Prop where
  openFile : 0 ≤ r.openFile
  heapAlloc : r.heapAlloc = true
  readHeader : r.readHeader = 0x200
  length_header : r.header.length = 0x200
  magic : r.headerBuffer.word 0 = 0xEFA282D9
  unencrypted : (r.headerBuffer.word 0x68 >>> 16) &&& 1 ≠ 0

/-- The length of a piece. -/
abbrev ChunkLength := {n : ℕ // 0 < n ∧ n ≤ 0x40}

/-- The length of a piece. -/
def Chunk.length (chunk : Chunk) : ChunkLength :=
  ⟨chunk.bytes.length, List.length_pos_iff.mpr chunk.bytes_ne_nil, chunk.bytes_le⟩

/-- For every image that is read in pieces of the given lengths, whatever stands in the memory
before: behind the loop the memory has the body at `0x50`, and if the body has the size that the
header gives, then all of it. -/
structure CopiesImage (split : List ChunkLength) : Prop where
  image : ∀ r : Results, r.ReachesBody → r.lastRead = 0 → r.chunks.map Chunk.length = split →
    ∀ m : Memory, (memoryAfter m r.bodyEvents).load 0x50 r.bytesRead = r.body
  complete : ∀ r : Results, r.ReachesBody → r.lastRead = 0 → r.chunks.map Chunk.length = split →
    ∀ m : Memory, ¬ UInt32.ofNat r.bytesRead < r.bodySize →
      r.bodySize.toNat ≤ r.body.length ∧
        (memoryAfter m r.bodyEvents).load 0x50 r.bodySize.toNat = r.body.take r.bodySize.toNat

/-! ## What the loop writes -/

/-- The read loop is part of a run that gets to it, and nothing is written before it. -/
theorem exists_loadImage_eq {r : Results} (h : r.ReachesBody) (filePath : String)
    (boootInfoOffset : UInt32) :
    ∃ before after, loadImage r filePath boootInfoOffset = before ++ r.bodyEvents ++ after ∧
      ∀ m, memoryAfter m before = m := by
  have hmagic : (r.dataBuffer.store 0 r.header).word 0 = 0xEFA282D9 := h.magic
  have hflag : ¬ ((r.dataBuffer.store 0 r.header).word 0x68 >>> 16) &&& 1 = 0 := h.unencrypted
  rw [loadImage, if_neg (not_lt.mpr h.openFile), if_neg (not_not.mpr h.heapAlloc),
    if_neg (not_not.mpr h.readHeader)]
  dsimp only
  rw [if_neg (not_not.mpr hmagic), if_neg hflag, List.append_assoc, List.append_assoc,
    List.append_assoc]
  exact ⟨[.call (.fsa (.openFile filePath "r" r.openFile r.fileHandle)),
    .call (.fsa (.heapAlloc 0x200 r.heapAlloc)),
    .call (.fsa (.readFile 0x200 r.fileHandle r.readHeader)), .call (.readData 0),
    .call (.readData 0x68), .call (.readData 0x6B)], _, rfl, fun _ => rfl⟩

/-- One list of events after another. -/
lemma memoryAfter_append (m : Memory) (a b : List (Event PayloadCall)) :
    memoryAfter m (a ++ b) = memoryAfter (memoryAfter m a) b :=
  List.foldl_append

/-- The words of a piece are written one behind another.

**Proof sketch.** Induction on the number of words. -/
lemma memoryAfter_words (m : Memory) (dataBuffer : Frame) (payloadOffset n : ℕ) :
    memoryAfter m ((List.range n).flatMap fun i =>
        [.call (.readData i),
          .call (.kernWrite32 (UInt32.ofNat (payloadOffset + 4 * i)) (dataBuffer.word i))]) =
      m.storeWords (UInt32.ofNat payloadOffset) ((List.range n).map dataBuffer.word) := by
  induction n with
  | zero => rfl
  | succ n ih =>
    rw [List.range_succ, List.flatMap_append, memoryAfter_append, ih, List.map_append,
      Memory.storeWords_append, List.length_map, List.length_range, ← UInt32.ofNat_add]
    rfl

/-- **What the loop leaves.** The loop writes the words of all pieces one behind another.

**Proof sketch.** Induction on the pieces. -/
theorem memoryAfter_readBody (fileHandle lastRead : ℤ) (chunks : List Chunk) (dataBuffer : Frame)
    (payloadOffset : ℕ) (m : Memory) :
    memoryAfter m (readBody fileHandle lastRead chunks dataBuffer payloadOffset) =
      m.storeWords (UInt32.ofNat payloadOffset) (imageWords chunks dataBuffer) := by
  induction chunks generalizing dataBuffer payloadOffset m with
  | nil => rfl
  | cons chunk chunks ih =>
    rw [readBody, List.cons_append, imageWords, Memory.storeWords_append, List.length_map,
      List.length_range, ← UInt32.ofNat_add, ← memoryAfter_words, ← ih, ← memoryAfter_append]
    rfl

/-- The bytes of no pieces. -/
@[simp] lemma imageBytes_nil (dataBuffer : Frame) : imageBytes [] dataBuffer = [] := rfl

/-- The bytes of a piece and of those behind it. -/
lemma imageBytes_cons (chunk : Chunk) (chunks : List Chunk) (dataBuffer : Frame) :
    imageBytes (chunk :: chunks) dataBuffer =
      (dataBuffer.store 0 chunk.bytes).load 0 (padded chunk.bytes.length) ++
        imageBytes chunks (dataBuffer.store 0 chunk.bytes) := by
  rw [imageBytes, imageWords, List.flatMap_append, Frame.flatMap_bytesOfWord_word]
  rfl

/-- The bytes of some pieces and of those behind them. -/
lemma imageBytes_append (a b : List Chunk) (dataBuffer : Frame) :
    imageBytes (a ++ b) dataBuffer =
      imageBytes a dataBuffer ++ imageBytes b (bufferAfter dataBuffer a) := by
  induction a generalizing dataBuffer with
  | nil => rfl
  | cons chunk a ih =>
    rw [List.cons_append, imageBytes_cons, imageBytes_cons, ih, List.append_assoc]
    rfl

/-- The number of the bytes. -/
lemma length_imageBytes (chunks : List Chunk) (dataBuffer : Frame) :
    (imageBytes chunks dataBuffer).length =
      (chunks.map fun chunk => padded chunk.bytes.length).sum := by
  induction chunks generalizing dataBuffer with
  | nil => rfl
  | cons chunk chunks ih =>
    rw [imageBytes_cons, List.length_append, Frame.length_load, ih, List.map_cons, List.sum_cons]

/-- A byte behind the loop, unless it is overwritten by bytes that come `2 ^ 32` bytes behind
it. -/
lemma memoryAfter_bodyEvents (r : Results) (m : Memory) {j : ℕ}
    (hj : j < (imageBytes r.chunks r.headerBuffer).length)
    (hlast : (imageBytes r.chunks r.headerBuffer).length ≤ j + 2 ^ 32) :
    memoryAfter m r.bodyEvents (0x50 + UInt32.ofNat j) =
      (imageBytes r.chunks r.headerBuffer).getD j 0 := by
  rw [imageBytes, length_flatMap_bytesOfWord] at hj hlast
  rw [Results.bodyEvents, memoryAfter_readBody]
  exact Memory.storeWords_apply m 0x50 hj hlast

/-! ## Images that are copied -/

/-- The length of the body is what was read. -/
lemma length_body (r : Results) : r.body.length = r.bytesRead := List.length_flatMap

/-- Where every piece but the last ends at a word, the body is written, and up to three bytes behind
it.

**Proof sketch.** Induction on the pieces: a piece that ends at a word is all that is written of the
buffer. -/
lemma exists_imageBytes_eq {chunks : List Chunk} (dataBuffer : Frame)
    (h : ∀ l ∈ (chunks.map Chunk.length).dropLast, 4 ∣ l.val) :
    ∃ rest, imageBytes chunks dataBuffer = chunks.flatMap Chunk.bytes ++ rest ∧
      rest.length ≤ 3 := by
  induction chunks generalizing dataBuffer with
  | nil => exact ⟨[], rfl, Nat.zero_le 3⟩
  | cons chunk chunks ih =>
    have hload (k : ℕ) : (dataBuffer.store 0 chunk.bytes).load 0 (chunk.bytes.length + k) =
        chunk.bytes ++ (dataBuffer.store 0 chunk.bytes).load (0 + chunk.bytes.length) k := by
      rw [Frame.load_add, Frame.load_store_self]
    rw [imageBytes_cons, List.flatMap_cons]
    cases chunks with
    | nil =>
      obtain ⟨k, hk⟩ : ∃ k, padded chunk.bytes.length = chunk.bytes.length + k ∧ k ≤ 3 := by
        unfold padded
        exact ⟨_, (Nat.add_sub_cancel' (by omega)).symm, by omega⟩
      refine ⟨(dataBuffer.store 0 chunk.bytes).load (0 + chunk.bytes.length) k, ?_,
        (Frame.length_load _ _ _).trans_le hk.2⟩
      rw [hk.1, hload, imageBytes_nil, List.flatMap_nil, List.append_nil, List.append_nil]
    | cons chunk' chunks =>
      rw [List.map_cons, List.map_cons, List.dropLast_cons_cons, List.forall_mem_cons] at h
      obtain ⟨rest, hrest, hlength⟩ := ih (dataBuffer.store 0 chunk.bytes) h.2
      have hpadded : padded chunk.bytes.length = chunk.bytes.length + 0 := by
        have hdvd : 4 ∣ chunk.bytes.length := h.1
        unfold padded
        omega
      refine ⟨rest, ?_, hlength⟩
      rw [hpadded, hload, hrest, ← List.append_assoc]
      simp [Frame.load]

/-- A body of up to `2 ^ 32` bytes stands in the memory behind the loop, if every piece but the last
ends at a word. -/
lemma load_memoryAfter (r : Results) (m : Memory)
    (h : ∀ l ∈ (r.chunks.map Chunk.length).dropLast, 4 ∣ l.val) (hle : r.bytesRead ≤ 2 ^ 32) :
    (memoryAfter m r.bodyEvents).load 0x50 r.bytesRead = r.body := by
  obtain ⟨rest, himage, hrest⟩ := exists_imageBytes_eq r.headerBuffer h
  have hlength : (imageBytes r.chunks r.headerBuffer).length = r.bytesRead + rest.length := by
    rw [himage, List.length_append, ← length_body]
    rfl
  -- the last word ends at an address of the same residue
  have hwords : (imageBytes r.chunks r.headerBuffer).length ≤ 2 ^ 32 := by
    have hfour := length_flatMap_bytesOfWord (imageWords r.chunks r.headerBuffer)
    rw [← imageBytes] at hfour
    omega
  apply List.ext_getElem
  · rw [Memory.length_load, length_body]
  · intro i h₁ h₂
    rw [Memory.length_load] at h₁
    simp only [Memory.load, List.getElem_map, List.getElem_range]
    rw [memoryAfter_bodyEvents r m (by omega) (by omega), himage, ← Results.body,
      List.getD_append _ _ _ _ h₂, List.getD_eq_getElem _ _ h₂]

/-- The lengths of the pieces add up to what was read. -/
lemma sum_length (r : Results) :
    ((r.chunks.map Chunk.length).map Subtype.val).sum = r.bytesRead := by
  rw [List.map_map]
  rfl

/-! ## Images that are not copied -/

/-- A byte that is not in the header. -/
def marker : UInt8 := 0x55

/-- A piece of zeros. -/
def zeroChunk (l : ChunkLength) : Chunk where
  bytes := List.replicate l.val 0
  bytes_ne_nil := by
    rw [ne_eq, List.replicate_eq_nil_iff]
    exact l.prop.1.ne'
  bytes_le := by
    rw [List.length_replicate]
    exact l.prop.2

/-- A piece of zeros behind the marker. -/
def markedChunk (l : ChunkLength) : Chunk where
  bytes := marker :: List.replicate (l.val - 1) 0
  bytes_ne_nil := List.cons_ne_nil _ _
  bytes_le := by
    have hpos := l.prop.1
    have hle := l.prop.2
    rw [List.length_cons, List.length_replicate]
    omega

/-- Pieces of zeros, and among them one that starts with the marker. -/
def markedChunks (pre : List ChunkLength) (l : ChunkLength) (post : List ChunkLength) :
    List Chunk :=
  pre.map zeroChunk ++ markedChunk l :: post.map zeroChunk

/-- The header of an image that is not encrypted. -/
def plainHeader : List UInt8 :=
  [0xEF, 0xA2, 0x82, 0xD9] ++ List.replicate 0x19d 0 ++ [1] ++ List.replicate 0x5e 0

/-- A run with the given pieces. -/
def runOf (chunks : List Chunk) : Results where
  openFile := 0
  fileHandle := 1
  heapAlloc := true
  dataBuffer _ := 0
  readHeader := 0x200
  header := plainHeader
  chunks := chunks
  lastRead := Fsa.endOfFile
  lastRead_le := Int.le_refl Fsa.endOfFile
  memory _ := 0
  ivAlloc := true
  encryptPrsh m := (0, m)

/-- The length of the header. -/
lemma length_plainHeader : plainHeader.length = 0x200 := by
  simp only [plainHeader, List.length_append, List.length_replicate, List.length_cons,
    List.length_nil]

/-- Such a run gets to the read loop. -/
lemma reachesBody_runOf (chunks : List Chunk) : (runOf chunks).ReachesBody where
  openFile := le_refl 0
  heapAlloc := rfl
  readHeader := rfl
  length_header := length_plainHeader
  magic := by
    show (Frame.store (fun _ => 0) 0 plainHeader).word 0 = _
    rw [Frame.word_store_zero _ (by rw [length_plainHeader]; omega)]
    decide
  unencrypted := by
    show ((Frame.store (fun _ => 0) 0 plainHeader).word 0x68 >>> 16) &&& 1 ≠ 0
    rw [Frame.word_store_zero _ (by rw [length_plainHeader]; omega)]
    decide +kernel

/-- The marker does not stand behind the first byte. -/
def Clean (f : Frame) : Prop := ∀ i, 0 < i → f i ≠ marker

/-- The buffer is clean behind the header. -/
lemma clean_headerBuffer_runOf (chunks : List Chunk) : Clean (runOf chunks).headerBuffer := by
  have hheader : marker ∉ plainHeader := by decide +kernel
  intro i _
  show (plainHeader[i]?).getD 0 ≠ marker
  cases hget : plainHeader[i]? with
  | none => decide
  | some b =>
    rintro rfl
    exact hheader (List.mem_of_getElem? hget)

/-- Behind a piece, the marker can only stand in its first byte. -/
lemma eq_zero_of_store_eq_marker {f : Frame} (hf : Clean f) {chunk : Chunk}
    (hchunk : marker ∉ chunk.bytes.tail) {i : ℕ} (h : f.store 0 chunk.bytes i = marker) :
    i = 0 ∧ marker ∈ chunk.bytes := by
  rw [Frame.store_of_le f _ (Nat.zero_le i), Nat.sub_zero] at h
  cases hbytes : chunk.bytes with
  | nil => exact absurd hbytes chunk.bytes_ne_nil
  | cons b bs =>
    rw [hbytes] at h hchunk
    cases i with
    | zero =>
      obtain rfl : b = marker := h
      exact ⟨rfl, List.mem_cons_self⟩
    | succ i =>
      rw [List.getElem?_cons_succ] at h
      cases hget : bs[i]? with
      | none =>
        rw [hget] at h
        exact absurd h (hf _ (Nat.succ_pos i))
      | some c =>
        rw [hget] at h
        obtain rfl : c = marker := h
        exact absurd (List.mem_of_getElem? hget) hchunk

/-- Pieces of zeros leave a clean buffer clean, and are written without the marker.

**Proof sketch.** Induction on the pieces. -/
lemma clean_zeroChunks (split : List ChunkLength) {f : Frame} (hf : Clean f) :
    Clean (bufferAfter f (split.map zeroChunk)) ∧
      marker ∉ imageBytes (split.map zeroChunk) f := by
  induction split generalizing f with
  | nil => exact ⟨hf, List.not_mem_nil⟩
  | cons l split ih =>
    have hzero : marker ∉ (zeroChunk l).bytes := by simp [zeroChunk, marker]
    have hstore (i : ℕ) : f.store 0 (zeroChunk l).bytes i ≠ marker := fun h =>
      hzero (eq_zero_of_store_eq_marker hf (mt List.mem_of_mem_tail hzero) h).2
    obtain ⟨hclean, hrest⟩ := ih fun i _ => hstore i
    refine ⟨hclean, ?_⟩
    rw [List.map_cons, imageBytes_cons, List.mem_append]
    rintro (hmem | hmem)
    · obtain ⟨i, -, hi⟩ := List.mem_map.mp hmem
      exact hstore _ hi
    · exact hrest hmem

/-- In what is written, the marker only stands where its piece starts. -/
lemma eq_length_of_marker {pre post : List ChunkLength} {l : ChunkLength} {f : Frame}
    (hf : Clean f) {j : ℕ}
    (h : (imageBytes (markedChunks pre l post) f)[j]? = some marker) :
    j = (imageBytes (pre.map zeroChunk) f).length := by
  obtain ⟨hclean, hpre⟩ := clean_zeroChunks pre hf
  have htail : marker ∉ (markedChunk l).bytes.tail := by simp [markedChunk, marker]
  have hclean' : Clean ((bufferAfter f (pre.map zeroChunk)).store 0 (markedChunk l).bytes) :=
    fun i hi hmarker => hi.ne' (eq_zero_of_store_eq_marker hclean htail hmarker).1
  rw [markedChunks, imageBytes_append, imageBytes_cons] at h
  by_contra hne
  rcases Nat.lt_or_gt_of_ne hne with hlt | hgt
  · rw [List.getElem?_append_left hlt] at h
    exact hpre (List.mem_of_getElem? h)
  · rw [List.getElem?_append_right hgt.le, List.getElem?_append] at h
    split_ifs at h with hin
    · rw [Frame.length_load] at hin
      rw [List.getElem?_eq_getElem (by rwa [Frame.length_load]), Option.some.injEq] at h
      simp only [Frame.load, List.getElem_map, List.getElem_range, Nat.zero_add] at h
      have hzero := (eq_zero_of_store_eq_marker hclean htail h).1
      omega
    · exact (clean_zeroChunks post hclean').2 (List.mem_of_getElem? h)

/-- The last of some bytes whose address is the one of byte `i`. -/
lemma exists_last {i n : ℕ} (h : i < n) :
    ∃ j < n, n ≤ j + 2 ^ 32 ∧ UInt32.ofNat j = UInt32.ofNat i := by
  refine ⟨i + 2 ^ 32 * ((n - 1 - i) / 2 ^ 32), by omega, by omega, ?_⟩
  rw [← UInt32.toNat_inj, UInt32.toNat_ofNat', UInt32.toNat_ofNat', Nat.add_mul_mod_self_left]

/-- The bytes of the words that pieces of some lengths take. -/
def paddedSum (split : List ChunkLength) : ℕ := (split.map fun l => padded l.val).sum

/-- The words of a piece hold it. -/
lemma le_padded (n : ℕ) : n ≤ padded n := by
  unfold padded
  omega

/-- The words of some pieces hold them. -/
lemma sum_le_paddedSum (split : List ChunkLength) :
    (split.map Subtype.val).sum ≤ paddedSum split :=
  List.sum_le_sum fun l _ => le_padded l.val

/-- The number of the bytes that the loop writes, by the lengths of the pieces. -/
lemma length_imageBytes_eq (chunks : List Chunk) (dataBuffer : Frame) :
    (imageBytes chunks dataBuffer).length = paddedSum (chunks.map Chunk.length) := by
  rw [length_imageBytes, paddedSum, List.map_map]
  rfl

/-- The length of a piece of zeros. -/
@[simp] lemma length_zeroChunk (l : ChunkLength) : (zeroChunk l).length = l :=
  Subtype.ext (List.length_replicate)

/-- The length of a piece behind the marker. -/
@[simp] lemma length_markedChunk (l : ChunkLength) : (markedChunk l).length = l := by
  apply Subtype.ext
  have hpos := l.prop.1
  show (marker :: List.replicate (l.val - 1) 0).length = l.val
  rw [List.length_cons, List.length_replicate]
  omega

/-- The lengths of such pieces. -/
lemma map_length_markedChunks (pre : List ChunkLength) (l : ChunkLength)
    (post : List ChunkLength) :
    (markedChunks pre l post).map Chunk.length = pre ++ l :: post := by
  simp [markedChunks, Function.comp_def]

/-- Where the marker stands in the body of such pieces. -/
lemma getElem?_body_markedChunks (pre : List ChunkLength) (l : ChunkLength)
    (post : List ChunkLength) :
    (runOf (markedChunks pre l post)).body[(pre.map Subtype.val).sum]? = some marker := by
  have hpre : ((pre.map zeroChunk).flatMap Chunk.bytes).length = (pre.map Subtype.val).sum := by
    simp [List.length_flatMap, zeroChunk, Function.comp_def]
  show ((markedChunks pre l post).flatMap Chunk.bytes)[_]? = _
  rw [markedChunks, List.flatMap_append, List.flatMap_cons, List.getElem?_append_right hpre.le,
    hpre, Nat.sub_self]
  rfl

/-- Where images read in pieces of some lengths are copied, the words of the pieces before one end
where the piece belongs, and are not overwritten.

**Proof sketch.** The memory has the marker where the piece belongs, and the loop only writes it
where the words of the piece start. -/
lemma CopiesImage.marked {pre post : List ChunkLength} {l : ChunkLength}
    (h : CopiesImage (pre ++ l :: post)) :
    UInt32.ofNat (paddedSum pre) = UInt32.ofNat (pre.map Subtype.val).sum ∧
      paddedSum (pre ++ l :: post) ≤ paddedSum pre + 2 ^ 32 := by
  have hsplit : (runOf (markedChunks pre l post)).chunks.map Chunk.length = pre ++ l :: post :=
    map_length_markedChunks pre l post
  have himage := h.image (runOf (markedChunks pre l post)) (reachesBody_runOf _) rfl hsplit
    fun _ => 0
  have hbody := getElem?_body_markedChunks pre l post
  obtain ⟨hlt, -⟩ := List.getElem?_eq_some_iff.mp hbody
  rw [← himage, List.getElem?_eq_getElem (by rwa [himage]), Option.some.injEq] at hbody
  simp only [Memory.load, List.getElem_map, List.getElem_range] at hbody
  have hlength := length_imageBytes_eq (runOf (markedChunks pre l post)).chunks
    (runOf (markedChunks pre l post)).headerBuffer
  rw [hsplit] at hlength
  rw [length_body, ← sum_length, hsplit] at hlt
  obtain ⟨j, hj, hlast, haddress⟩ := exists_last (hlt.trans_le (sum_le_paddedSum _))
  rw [← haddress, memoryAfter_bodyEvents _ _ (by rwa [hlength]) (by rwa [hlength]),
    List.getD_eq_getElem _ _ (by rwa [hlength])] at hbody
  have hstart := eq_length_of_marker (clean_headerBuffer_runOf _)
    (List.getElem?_eq_some_iff.mpr ⟨hj.trans_eq hlength.symm, hbody⟩)
  rw [length_imageBytes_eq, List.map_map, Function.comp_def] at hstart
  simp only [length_zeroChunk, List.map_id'] at hstart
  rw [← hstart]
  exact ⟨haddress, hlast⟩

/-- Where images are copied, every piece but the last has whole words.

**Proof sketch.** The words before the piece end where it belongs, and so do those before the next
one. -/
lemma CopiesImage.dvd {split : List ChunkLength} (h : CopiesImage split) {l : ChunkLength}
    (hl : l ∈ split.dropLast) : 4 ∣ l.val := by
  obtain ⟨pre, post, hdrop⟩ := List.append_of_mem hl
  have hne : split ≠ [] := by
    rintro rfl
    exact List.not_mem_nil hl
  obtain ⟨l', post', hpost⟩ : ∃ l' post', post ++ [split.getLast hne] = l' :: post' :=
    List.exists_cons_of_ne_nil (List.append_ne_nil_of_right_ne_nil _ (List.cons_ne_nil _ _))
  rw [← List.dropLast_append_getLast hne, hdrop, List.append_assoc, List.cons_append, hpost] at h
  -- the marker in the piece, and the marker in the one behind it
  have hpre := h.marked.1
  rw [List.append_cons] at h
  have hnext := h.marked.1
  rw [← UInt32.toNat_inj, UInt32.toNat_ofNat', UInt32.toNat_ofNat'] at hpre hnext
  simp only [paddedSum, List.map_append, List.sum_append, List.map_singleton,
    List.sum_singleton, padded] at hpre hnext
  have hle := l.prop.2
  omega

/-- Where images are copied, nothing is written over their first piece. -/
lemma CopiesImage.sum_le {split : List ChunkLength} (h : CopiesImage split) :
    (split.map Subtype.val).sum ≤ 2 ^ 32 := by
  cases split with
  | nil => exact Nat.zero_le _
  | cons l post =>
    have hmarked : CopiesImage ([] ++ l :: post) := h
    have hlast : paddedSum (l :: post) ≤ paddedSum [] + 2 ^ 32 := hmarked.marked.2
    exact (sum_le_paddedSum _).trans hlast

/-- Images are copied whose pieces but the last have whole words. -/
lemma copiesImage_of_dvd {split : List ChunkLength} (hwords : ∀ l ∈ split.dropLast, 4 ∣ l.val)
    (hsum : (split.map Subtype.val).sum ≤ 2 ^ 32) : CopiesImage split := by
  refine ⟨?_, ?_⟩
  · rintro r - - rfl m
    rw [sum_length] at hsum
    exact load_memoryAfter r m hwords hsum
  · rintro r - - rfl m hbody
    rw [sum_length] at hsum
    have hle : r.bodySize.toNat ≤ r.bytesRead := by
      rw [UInt32.lt_iff_toNat_lt, UInt32.toNat_ofNat', not_lt] at hbody
      exact hbody.trans (Nat.mod_le _ _)
    refine ⟨hle.trans_eq (length_body r).symm, ?_⟩
    rw [← load_memoryAfter r m hwords hsum]
    simp only [Memory.load, ← List.map_take, List.take_range, Nat.min_eq_left hle]

/-- **The payload in MEM1.** The body stands in the memory behind the read loop, for every image and
whatever stood there before, exactly if every piece but the last has whole words and the body has at
most `2 ^ 32` bytes.

**Proof sketch.** If it does, the words of the pieces before one piece end where the piece belongs,
and so do those before the next one: the words of the piece hold nothing else. -/
theorem copiesImage_iff (split : List ChunkLength) :
    CopiesImage split ↔
      (∀ l ∈ split.dropLast, 4 ∣ l.val) ∧ (split.map Subtype.val).sum ≤ 2 ^ 32 :=
  ⟨fun h => ⟨fun _ hl => h.dvd hl, h.sum_le⟩, fun h => copiesImage_of_dvd h.1 h.2⟩

/-- The body of an image that is read in pieces of three and then four bytes is not copied. -/
theorem not_copiesImage : ¬ ∀ split, CopiesImage split := by
  intro h
  have hmarked := (h ([⟨3, by decide⟩] ++ ⟨4, by decide⟩ :: [])).marked.1
  exact absurd hmarked (by decide)

end LoadBoot1Payload

end RecoveryMenu
