import CommandApi.Store.Decode

/-!
# Paging through output

The loop of a client: it starts at offset 0, asks for the next chunk at the `next_offset` of the
last one, and is done when a chunk says `eof`.  The limits are the client's choice and may differ
from call to call.

Every call of the loop is answered, and the answers follow one another without a gap, so all that
can go wrong is that a call reads nothing.  `pagesThrough_iff` says when this happens: when the file
does not fit `usize`, and in UTF-16, where only whole units are read, when the file ends in half a
unit or the limit is a single byte.
-/

set_option autoImplicit false

namespace CommandApi

open Text

variable (codec : OutputCodec) (id : Uuid) (stream : OutputStream) (s : TaskSnapshot)
  (file : List UInt8) (limits : ℕ → ℕ)

/-- Where the loop goes on behind these chunks. -/
def nextOffset (chunks : List OutputChunk) : ℕ := (chunks.getLast?.map (·.nextOffset)).getD 0

/-- The chunks of the first `n` calls. -/
def page : ℕ → Except String (List OutputChunk)
  | 0 => .ok []
  | n + 1 => do
    let chunks ← page n
    let chunk ← outputChunk codec ⟨id, stream, nextOffset chunks, limits n⟩ s file.length file
    pure (chunks ++ [chunk])

/-- The loop gets to the end, with every byte of the file once, and each of its calls in front of
the end goes forward. -/
structure PagesThrough : Prop where
  ends : ∃ n chunks last, page codec id stream s file limits n = .ok (chunks ++ [last]) ∧
    last.eof = true ∧ (∀ c ∈ chunks, c.eof = false) ∧
    (chunks ++ [last]).flatMap (·.raw file) = file
  progress : ∀ n chunks chunk, page codec id stream s file limits n = .ok (chunks ++ [chunk]) →
    chunk.offset < file.length → chunk.offset < chunk.nextOffset

/-! ## Offsets -/

variable {codec id stream s file limits}

section

variable (bits : ℕ) (encoding : OutputEncoding) (size : ℕ) (limits : ℕ → ℕ)

/-- The offset of call `n`. -/
def pageOffset : ℕ → ℕ
  | 0 => 0
  | n + 1 => pageOffset n + readLimit bits encoding (limits n) size (pageOffset n)

end

theorem readLimit_le_mod (bits : ℕ) (encoding : OutputEncoding) (limit size offset : ℕ) :
    readLimit bits encoding limit size offset ≤ (size - offset) % 2 ^ bits := by
  have := Nat.min_le_right limit ((size - offset) % 2 ^ bits)
  simp only [readLimit]
  split_ifs <;> omega

theorem readLimit_le (bits : ℕ) (encoding : OutputEncoding) (limit size offset : ℕ) :
    readLimit bits encoding limit size offset ≤ size - offset :=
  (readLimit_le_mod bits encoding limit size offset).trans (Nat.mod_le _ _)

/-- A call that reads nothing: nothing is left, as far as `usize` goes, or less than a unit. -/
theorem readLimit_pos_iff {bits : ℕ} {encoding : OutputEncoding} {limit size offset : ℕ} :
    0 < readLimit bits encoding limit size offset ↔
      1 ≤ limit ∧ 1 ≤ (size - offset) % 2 ^ bits ∧
        (encoding = .utf16le → 2 ≤ limit ∧ 2 ≤ (size - offset) % 2 ^ bits) := by
  simp only [readLimit]
  generalize (size - offset) % 2 ^ bits = r
  by_cases h : encoding = .utf16le
  · simp only [h, true_and, forall_const]
    split_ifs <;> omega
  · simp only [h, false_and, if_false, false_implies, and_true]
    omega

section

variable {bits : ℕ} {encoding : OutputEncoding} {size : ℕ}

theorem pageOffset_le (n : ℕ) : pageOffset bits encoding size limits n ≤ size := by
  induction n with
  | zero => exact Nat.zero_le _
  | succ n ih =>
    have := readLimit_le bits encoding (limits n) size (pageOffset bits encoding size limits n)
    rw [pageOffset]
    omega

/-- What is left of a file that does not fit `usize` never does. -/
theorem pageOffset_of_large (h : 2 ^ bits ≤ size) (n : ℕ) :
    pageOffset bits encoding size limits n + 2 ^ bits ≤ size := by
  induction n with
  | zero => rwa [pageOffset, Nat.zero_add]
  | succ n ih =>
    have hread := readLimit_le_mod bits encoding (limits n) size
      (pageOffset bits encoding size limits n)
    have hdiv : 1 ≤ (size - pageOffset bits encoding size limits n) / 2 ^ bits :=
      (Nat.one_le_div_iff (by positivity)).mpr (by omega)
    have hmul := Nat.le_mul_of_pos_right (2 ^ bits) hdiv
    have := Nat.mod_add_div (size - pageOffset bits encoding size limits n) (2 ^ bits)
    rw [pageOffset]
    omega

/-- In UTF-16 every call starts at a unit. -/
theorem pageOffset_even (n : ℕ) : pageOffset bits .utf16le size limits n % 2 = 0 := by
  induction n with
  | zero => rfl
  | succ n ih =>
    simp only [pageOffset, readLimit, true_and]
    split_ifs <;> omega

/-- … and they go on by whole units, until the end of the file. -/
theorem pageOffset_utf16le (hfit : size < 2 ^ bits) (heven : Even size) (n : ℕ) :
    pageOffset bits .utf16le size limits n =
      min size (∑ i ∈ Finset.range n, 2 * (limits i / 2)) := by
  induction n with
  | zero => simp [pageOffset]
  | succ n ih =>
    have hmod : (size - pageOffset bits .utf16le size limits n) % 2 ^ bits =
      size - pageOffset bits .utf16le size limits n := Nat.mod_eq_of_lt (by omega)
    have hsize : size % 2 = 0 := Nat.even_iff.mp heven
    have hoff : pageOffset bits .utf16le size limits n % 2 = 0 := pageOffset_even n
    simp only [pageOffset, readLimit, true_and, hmod, Finset.sum_range_succ]
    split_ifs <;> omega

/-- If each call goes forward, the end is reached. -/
theorem exists_pageOffset_eq
    (h : ∀ n, pageOffset bits encoding size limits n < size →
      0 < readLimit bits encoding (limits n) size (pageOffset bits encoding size limits n)) :
    ∃ n, pageOffset bits encoding size limits n = size := by
  have hmin : ∀ n, min n size ≤ pageOffset bits encoding size limits n := by
    intro n
    induction n with
    | zero => simp
    | succ n ih =>
      rw [pageOffset]
      rcases (pageOffset_le n).lt_or_eq with hlt | heq
      · have := h n hlt
        omega
      · omega
  exact ⟨size, le_antisymm (pageOffset_le size) (by simpa using hmin size)⟩

/-- **When every call goes forward.** -/
theorem progress_iff (hlimits : ∀ n, 1 ≤ limits n) :
    (∀ n, pageOffset bits encoding size limits n < size →
      0 < readLimit bits encoding (limits n) size (pageOffset bits encoding size limits n)) ↔
    size < 2 ^ bits ∧ (encoding = .utf16le → Even size ∧
      ∀ n, ∑ i ∈ Finset.range n, 2 * (limits i / 2) < size → 2 ≤ limits n) := by
  constructor
  · intro h
    obtain ⟨m, hm⟩ := exists_pageOffset_eq h
    have hfit : size < 2 ^ bits := by
      by_contra hlarge
      have : pageOffset bits encoding size limits m + 2 ^ bits ≤ size :=
        pageOffset_of_large (not_lt.mp hlarge) m
      have hpos : 0 < 2 ^ bits := by positivity
      omega
    refine ⟨hfit, ?_⟩
    rintro rfl
    have heven : Even size := by
      rw [Nat.even_iff, ← hm]
      exact pageOffset_even m
    refine ⟨heven, fun n hn ↦ ?_⟩
    have hoff : pageOffset bits .utf16le size limits n = min size _ :=
      pageOffset_utf16le hfit heven n
    exact ((readLimit_pos_iff.mp (h n (by omega))).2.2 rfl).1
  · rintro ⟨hfit, hunits⟩ n hn
    have hmod : (size - pageOffset bits encoding size limits n) % 2 ^ bits =
      size - pageOffset bits encoding size limits n := Nat.mod_eq_of_lt (by omega)
    rw [readLimit_pos_iff, hmod]
    refine ⟨hlimits n, by omega, ?_⟩
    rintro rfl
    obtain ⟨heven, hlim⟩ := hunits rfl
    have hoff : pageOffset bits .utf16le size limits n = min size _ :=
      pageOffset_utf16le hfit heven n
    have hpar : pageOffset bits .utf16le size limits n % 2 = 0 := pageOffset_even n
    have hsize : size % 2 = 0 := Nat.even_iff.mp heven
    exact ⟨hlim n (by omega), by omega⟩

end

/-! ## Chunks -/

section

variable (codec id stream s file limits)

/-- The offset of call `n` in this file. -/
abbrev fileOffset (n : ℕ) : ℕ :=
  pageOffset codec.usizeBits s.outputEncoding file.length limits n

/-- What call `n` reads. -/
def dataAt (n : ℕ) : List UInt8 :=
  (file.drop (fileOffset codec s file limits n)).take (readLimit codec.usizeBits s.outputEncoding
    (limits n) file.length (fileOffset codec s file limits n))

/-- What call `n` answers. -/
def chunkAt (n : ℕ) : OutputChunk :=
  chunkOf codec ⟨id, stream, fileOffset codec s file limits n, limits n⟩ s file.length
    (dataAt codec s file limits n)

end

theorem length_dataAt (n : ℕ) :
    (dataAt codec s file limits n).length = readLimit codec.usizeBits s.outputEncoding (limits n)
      file.length (fileOffset codec s file limits n) := by
  rw [dataAt, List.length_take, List.length_drop]
  exact min_eq_left (readLimit_le ..)

theorem nextOffset_chunkAt (n : ℕ) :
    (chunkAt codec id stream s file limits n).nextOffset =
      fileOffset codec s file limits (n + 1) := by
  show fileOffset codec s file limits n + (dataAt codec s file limits n).length = _
  rw [length_dataAt]
  rfl

theorem raw_chunkAt (n : ℕ) :
    (chunkAt codec id stream s file limits n).raw file = dataAt codec s file limits n :=
  raw_chunkOf codec _

theorem eof_chunkAt (hs : s.status.isFinished = true) (n : ℕ) :
    (chunkAt codec id stream s file limits n).eof = true ↔
      fileOffset codec s file limits (n + 1) = file.length := by
  have h : (chunkAt codec id stream s file limits n).eof = (s.status.isFinished &&
    decide (file.length ≤ (chunkAt codec id stream s file limits n).nextOffset)) := rfl
  have hle : fileOffset codec s file limits (n + 1) ≤ file.length := pageOffset_le (n + 1)
  rw [h, hs, nextOffset_chunkAt, Bool.true_and, decide_eq_true_iff]
  omega

/-- A call of the loop is answered. -/
theorem outputChunk_page (hstream : checkStream s.outputMode stream = .ok ())
    (hlimits : ∀ n, 1 ≤ limits n ∧ limits n ≤ maxLimit) (n : ℕ) :
    outputChunk codec ⟨id, stream, fileOffset codec s file limits n, limits n⟩ s file.length file =
      .ok (chunkAt codec id stream s file limits n) := by
  obtain ⟨h1, h2⟩ := hlimits n
  have hlimit : checkLimit (limits n) = .ok () := if_neg (by omega)
  have hoff : ¬ file.length < fileOffset codec s file limits n := not_lt.mpr (pageOffset_le n)
  have hlen : ¬ (dataAt codec s file limits n).length < readLimit codec.usizeBits s.outputEncoding
    (limits n) file.length (fileOffset codec s file limits n) := by rw [length_dataAt]; omega
  rw [dataAt] at hlen
  simp only [outputChunk, hlimit, hstream, bind, Except.bind, pure, Except.pure, if_neg hoff,
    if_neg hlen]
  rfl

/-- The first calls, all of which are answered. -/
theorem page_eq (hstream : checkStream s.outputMode stream = .ok ())
    (hlimits : ∀ n, 1 ≤ limits n ∧ limits n ≤ maxLimit) (n : ℕ) :
    page codec id stream s file limits n =
      .ok ((List.range n).map (chunkAt codec id stream s file limits)) := by
  induction n with
  | zero => rfl
  | succ n ih =>
    have hnext : nextOffset ((List.range n).map (chunkAt codec id stream s file limits)) =
        fileOffset codec s file limits n := by
      cases n with
      | zero => rfl
      | succ n => simp [nextOffset, List.range_succ, nextOffset_chunkAt]
    rw [page, ih]
    show (do
      let chunk ← outputChunk codec ⟨id, stream, nextOffset _, limits n⟩ s file.length file
      pure (_ ++ [chunk])) = _
    rw [hnext, outputChunk_page hstream hlimits, List.range_succ, List.map_append]
    rfl

/-- What the first calls read is the file up to the next offset. -/
theorem flatMap_raw (n : ℕ) :
    ((List.range n).map (chunkAt codec id stream s file limits)).flatMap (·.raw file) =
      file.take (fileOffset codec s file limits n) := by
  induction n with
  | zero => simp [pageOffset]
  | succ n ih =>
    rw [List.range_succ, List.map_append, List.flatMap_append, ih]
    simp only [List.map_singleton, List.flatMap_singleton, raw_chunkAt]
    rw [dataAt, fileOffset, fileOffset, pageOffset, List.take_add]

/-- The loop gets through if each of its calls reads something. -/
theorem pagesThrough_iff_progress (hs : s.status.isFinished = true)
    (hstream : checkStream s.outputMode stream = .ok ())
    (hlimits : ∀ n, 1 ≤ limits n ∧ limits n ≤ maxLimit) :
    PagesThrough codec id stream s file limits ↔
      ∀ n, fileOffset codec s file limits n < file.length →
        0 < readLimit codec.usizeBits s.outputEncoding (limits n) file.length
          (fileOffset codec s file limits n) := by
  have hpage : ∀ n, page codec id stream s file limits n =
    .ok ((List.range n).map (chunkAt codec id stream s file limits)) := page_eq hstream hlimits
  constructor
  · rintro ⟨-, hprogress⟩ n hn
    have := hprogress (n + 1) _ (chunkAt codec id stream s file limits n)
      (by rw [hpage, List.range_succ, List.map_append]; rfl) hn
    rw [nextOffset_chunkAt, fileOffset, pageOffset] at this
    exact Nat.lt_add_right_iff_pos.mp this
  · intro h
    refine ⟨?_, ?_⟩
    · -- the first call that reaches the end
      have hex : ∃ n, fileOffset codec s file limits (n + 1) = file.length := by
        obtain ⟨n, hn⟩ := exists_pageOffset_eq h
        refine ⟨n, le_antisymm (pageOffset_le (n + 1)) ?_⟩
        rw [fileOffset, pageOffset, hn]
        exact Nat.le_add_right _ _
      refine ⟨Nat.find hex + 1, _, chunkAt codec id stream s file limits (Nat.find hex),
        by rw [hpage, List.range_succ, List.map_append]; rfl,
        (eof_chunkAt hs _).mpr (Nat.find_spec hex), ?_, ?_⟩
      · intro c hc
        obtain ⟨i, hi, rfl⟩ := List.mem_map.mp hc
        rw [Bool.eq_false_iff, Ne, eof_chunkAt hs]
        exact Nat.find_min hex (List.mem_range.mp hi)
      · have hraw : ((List.range (Nat.find hex + 1)).map
          (chunkAt codec id stream s file limits)).flatMap (·.raw file) = _ := flatMap_raw _
        rw [Nat.find_spec hex, List.take_length, List.range_succ, List.map_append] at hraw
        exact hraw
    · intro n chunks chunk hn hlt
      rw [hpage] at hn
      cases n with
      | zero => simp at hn
      | succ n =>
        rw [List.range_succ, List.map_append] at hn
        obtain ⟨-, rfl⟩ : _ ∧ chunkAt codec id stream s file limits n = chunk := by
          simpa using List.append_inj' (Except.ok.inj hn) rfl
        rw [nextOffset_chunkAt, fileOffset, pageOffset]
        exact Nat.lt_add_of_pos_right (h n hlt)

/-- Which calls go forward, at any offset. -/
theorem outputChunk_progress_iff {q : ChunkRequest} {chunk : OutputChunk}
    (h : outputChunk codec q s file.length file = .ok chunk) :
    q.offset < chunk.nextOffset ↔ 1 ≤ q.limit ∧
      1 ≤ (file.length - q.offset) % 2 ^ codec.usizeBits ∧ (s.outputEncoding = .utf16le →
        2 ≤ q.limit ∧ 2 ≤ (file.length - q.offset) % 2 ^ codec.usizeBits) := by
  have hle := readLimit_le codec.usizeBits s.outputEncoding q.limit file.length q.offset
  rw [(outputChunk_ok h).2, ← readLimit_pos_iff]
  simp only [chunkOf, List.length_take, List.length_drop]
  omega

/-- **Paging through the output of a finished task.**  The loop comes to the end, with every byte,
exactly if the file fits `usize` and, in UTF-16, has no half unit and is not asked for a single byte
before the end.  Other calls go forward if what is left and what is asked for is at least a unit. -/
theorem pagesThrough_iff (hs : s.status.isFinished = true)
    (hstream : checkStream s.outputMode stream = .ok ())
    (hlimits : ∀ n, 1 ≤ limits n ∧ limits n ≤ maxLimit) :
    (PagesThrough codec id stream s file limits ↔
      file.length < 2 ^ codec.usizeBits ∧ (s.outputEncoding = .utf16le → Even file.length ∧
        ∀ n, ∑ i ∈ Finset.range n, 2 * (limits i / 2) < file.length → 2 ≤ limits n)) ∧
    ∀ q chunk, outputChunk codec q s file.length file = .ok chunk →
      (q.offset < chunk.nextOffset ↔ 1 ≤ q.limit ∧
        1 ≤ (file.length - q.offset) % 2 ^ codec.usizeBits ∧ (s.outputEncoding = .utf16le →
          2 ≤ q.limit ∧ 2 ≤ (file.length - q.offset) % 2 ^ codec.usizeBits)) := by
  refine ⟨?_, fun q chunk ↦ outputChunk_progress_iff⟩
  rw [pagesThrough_iff_progress hs hstream hlimits]
  exact progress_iff fun n ↦ (hlimits n).1

/-- A finished task that wrote UTF-16. -/
def exampleUtf16 : TaskSnapshot :=
  { exampleUtf8 with outputEncoding := .utf16le, status := .succeeded }

/-- Two units, with limits that grow from 2. -/
theorem pagesThrough_utf16 :
    PagesThrough (outputCodec 32 exampleEncodingRs) 1 .stdout exampleUtf16
      [0x61, 0x00, 0x62, 0x00] fun n ↦ min (n + 2) maxLimit := by
  refine (pagesThrough_iff rfl rfl fun n ↦ ?_).1.mpr ⟨?_, fun _ ↦ ⟨?_, fun n _ ↦ ?_⟩⟩
  · simp only [maxLimit]
    omega
  · simp [outputCodec]
  · decide
  · simp only [maxLimit]
    omega

/-- One byte of UTF-16 is never read. -/
theorem half_unit_not_paged :
    ¬ PagesThrough (outputCodec 64 exampleEncodingRs) 1 .stdout exampleUtf16 [0x61]
      fun _ ↦ 65536 := by
  have hlimit : ∀ _ : ℕ, 1 ≤ 65536 ∧ 65536 ≤ maxLimit := fun _ ↦ by decide
  rw [pagesThrough_iff_progress rfl rfl hlimit]
  intro h
  exact absurd (h 0 (by decide)) (by decide)

end CommandApi
