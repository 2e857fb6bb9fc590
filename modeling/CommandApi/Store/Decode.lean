import CommandApi.Store.Output
import CommandApi.Text.Base64
import CommandApi.Text.Unicode

/-!
# Decoding output

`decode_output` of `src/store.rs`, and the Base64 of a chunk.  `Encoding::decode` looks for a byte
order mark first, and a chunk may start at any byte of the file, so what looks like a mark is taken
for one in the middle of the output as well.  `recoverable_iff` says when the bytes of the file can
be had back from a chunk: exactly when it is not a mark followed by text in the encoding of the
mark.  If anything behind a mark is malformed, the raw bytes are in `content_base64`.
-/

set_option autoImplicit false

namespace CommandApi

open Text

/-- What is left open of `encoding_rs`: GBK, and the text with replacement characters that stands
for malformed bytes. -/
structure EncodingRs where
  decodeGbk : List UInt8 → String × Bool
  lossy : Unicode → List UInt8 → String

/-- The encoding, if it is one of Unicode. -/
def OutputEncoding.unicode? : OutputEncoding → Option Unicode
  | utf8 => some .utf8
  | gbk => none
  | utf16le => some (.utf16 .little)

/-- `Encoding::decode_without_bom_handling` -/
def EncodingRs.decodeUnicode (E : EncodingRs) (u : Unicode) (data : List UInt8) : String × Bool :=
  match u.decode data with
  | some cs => (String.ofList cs, false)
  | none => (E.lossy u data, true)

/-- The text, and whether there was anything malformed.  A mark decides over the encoding of the
task. -/
def decodeOutput (E : EncodingRs) (encoding : OutputEncoding) (data : List UInt8) :
    String × Bool :=
  match Unicode.sniff data with
  | some (u, rest) => E.decodeUnicode u rest
  | none =>
    match encoding.unicode? with
    | some u => E.decodeUnicode u data
    | none => E.decodeGbk data

/-- The codec of a target with this `usize`. -/
def outputCodec (bits : ℕ) (E : EncodingRs) : OutputCodec where
  usizeBits := bits
  decode := decodeOutput E
  base64 data := String.ofList (encodeBase64 data)

namespace OutputChunk

/-- The bytes from `offset` to `next_offset`. -/
def raw (chunk : OutputChunk) (file : List UInt8) : List UInt8 :=
  (file.drop chunk.offset).take (chunk.nextOffset - chunk.offset)

/-- The client can rebuild the bytes of the file: from the text, or from `content_base64` if there
were errors. -/
def Recoverable (chunk : OutputChunk) (u : Unicode) (file : List UInt8) : Prop :=
  (chunk.decodingErrors = false → u.encode chunk.content.toList = chunk.raw file) ∧
    (chunk.decodingErrors = true → ∃ text, chunk.contentBase64 = some text ∧
      decodeBase64 text.toList = some (chunk.raw file))

/-- The bytes are a byte order mark and text in the encoding it names. -/
def Marked (chunk : OutputChunk) (file : List UInt8) : Prop :=
  ∃ v cs, chunk.raw file = Unicode.bom v ++ v.encode cs

/-- The chunk is about the bytes of the file in its range. -/
structure Shows (codec : OutputCodec) (encoding : OutputEncoding) (chunk : OutputChunk)
    (file : List UInt8) : Prop where
  range : chunk.nextOffset = chunk.offset + (chunk.raw file).length
  text : (chunk.content, chunk.decodingErrors) = codec.decode encoding (chunk.raw file)
  base64 : chunk.decodingErrors = true →
    chunk.contentBase64 = some (codec.base64 (chunk.raw file))

/-- The bytes a client makes of the answer, in the encoding of the task. -/
def rebuilt (u : Unicode) (chunk : OutputChunk) : Option (List UInt8) :=
  if chunk.decodingErrors then chunk.contentBase64.bind fun text ↦ decodeBase64 text.toList
  else some (u.encode chunk.content.toList)

theorem rebuilt_eq_some_iff {chunk : OutputChunk} {u : Unicode} {file : List UInt8} :
    chunk.rebuilt u = some (chunk.raw file) ↔ chunk.Recoverable u file := by
  rw [rebuilt, Recoverable]
  cases chunk.decodingErrors with
  | false => simp
  | true => simp [Option.bind_eq_some_iff]

end OutputChunk

section

variable {E : EncodingRs} {bits : ℕ} {q : ChunkRequest} {s : TaskSnapshot} {size : ℕ}
  {data file : List UInt8} {u : Unicode}

/-- The bytes a chunk is about are the bytes that were read. -/
theorem raw_chunkOf (codec : OutputCodec) (n : ℕ) :
    (chunkOf codec q s size ((file.drop q.offset).take n)).raw file =
      (file.drop q.offset).take n := by
  simp only [OutputChunk.raw, chunkOf, Nat.add_sub_cancel_left, List.length_take]
  rw [← List.take_take, List.take_length]

/-- … and the chunk shows them. -/
theorem shows_chunkOf (codec : OutputCodec) (n : ℕ) :
    (chunkOf codec q s size ((file.drop q.offset).take n)).Shows codec s.outputEncoding file := by
  refine ⟨?_, ?_, fun h ↦ ?_⟩
  · rw [raw_chunkOf]
    rfl
  · rw [raw_chunkOf]
    rfl
  · rw [raw_chunkOf]
    exact if_pos h

/-- Decoding finds no error in the encoding of a text. -/
theorem decodeUnicode_encode (cs : List Char) :
    E.decodeUnicode u (u.encode cs) = (String.ofList cs, false) := by
  rw [EncodingRs.decodeUnicode, Unicode.decode_eq_some_iff.mpr rfl]

/-- … and nowhere else. -/
theorem encode_of_decodeUnicode (h : (E.decodeUnicode u data).2 = false) :
    u.encode (E.decodeUnicode u data).1.toList = data := by
  rw [EncodingRs.decodeUnicode] at h ⊢
  split at h
  · rename_i cs hcs
    rw [String.toList_ofList, Unicode.decode_eq_some_iff.mp hcs]
  · cases h

namespace OutputChunk.Shows

variable {encoding : OutputEncoding} {chunk : OutputChunk}

/-- A chunk with errors can always be recovered. -/
theorem recoverable_of_errors (h : chunk.Shows (outputCodec bits E) encoding file)
    (herr : chunk.decodingErrors = true) : chunk.Recoverable u file := by
  refine ⟨fun hfalse ↦ ?_, fun _ ↦ ⟨_, h.base64 herr, ?_⟩⟩
  · rw [herr] at hfalse
    cases hfalse
  · rw [outputCodec, String.toList_ofList, decodeBase64_encodeBase64]

/-- A chunk without errors can be recovered if its text is encoded as its bytes. -/
theorem recoverable_iff_encode (h : chunk.Shows (outputCodec bits E) encoding file)
    (herr : (decodeOutput E encoding (chunk.raw file)).2 = false) :
    chunk.Recoverable u file ↔
      u.encode (decodeOutput E encoding (chunk.raw file)).1.toList = chunk.raw file := by
  have htext : (chunk.content, chunk.decodingErrors) = decodeOutput E encoding (chunk.raw file) :=
    h.text
  rw [← htext] at herr ⊢
  rw [Recoverable, show chunk.decodingErrors = false from herr]
  simp

/-- **A chunk can be recovered unless it is marked.** -/
theorem recoverable_iff_not_marked (h : chunk.Shows (outputCodec bits E) encoding file)
    (hu : encoding.unicode? = some u) : chunk.Recoverable u file ↔ ¬ chunk.Marked file := by
  have hbig : u ≠ .utf16 .big := by
    rintro rfl
    revert hu
    cases encoding <;> decide
  constructor
  · rintro hrec ⟨v, cs, hdata⟩
    have hdec : decodeOutput E encoding (chunk.raw file) = (String.ofList cs, false) := by
      rw [decodeOutput, hdata, Unicode.sniff_bom]
      exact decodeUnicode_encode cs
    rw [h.recoverable_iff_encode (by rw [hdec]), hdec, String.toList_ofList, hdata] at hrec
    exact Unicode.encode_ne_bom_encode hbig v cs hrec
  · intro hnot
    by_cases herr : (decodeOutput E encoding (chunk.raw file)).2 = true
    · exact h.recoverable_of_errors ((congrArg Prod.snd h.text).trans herr)
    rw [Bool.not_eq_true] at herr
    rw [h.recoverable_iff_encode herr]
    cases hsniff : Unicode.sniff (chunk.raw file) with
    | none =>
      simp only [decodeOutput, hsniff, hu] at herr ⊢
      exact encode_of_decodeUnicode herr
    | some p =>
      obtain ⟨v, rest⟩ := p
      simp only [decodeOutput, hsniff] at herr
      refine absurd ⟨v, (E.decodeUnicode v rest).1.toList, ?_⟩ hnot
      rw [encode_of_decodeUnicode herr, ← Unicode.eq_bom_append_of_sniff hsniff]

/-- A file that grows behind the chunk leaves it as it is. -/
theorem raw_eq {codec : OutputCodec} {file' : List UInt8} (h : chunk.Shows codec encoding file)
    (hf : file <+: file') : chunk.raw file' = chunk.raw file := by
  obtain ⟨tail, rfl⟩ := hf
  have hlen := h.range
  simp only [raw, List.length_take, List.length_drop] at hlen ⊢
  rw [List.drop_append, List.take_append_of_le_length]
  rw [List.length_drop]
  omega

theorem grow {codec : OutputCodec} {file' : List UInt8} (h : chunk.Shows codec encoding file)
    (hf : file <+: file') : chunk.Shows codec encoding file' := by
  have hraw : chunk.raw file' = chunk.raw file := h.raw_eq hf
  exact ⟨hraw ▸ h.range, hraw ▸ h.text, hraw ▸ h.base64⟩

end OutputChunk.Shows

/-- **When the raw output can be recovered**: unless the bytes that are read are a byte order mark
and text in the encoding it names. -/
theorem recoverable_iff {chunk : OutputChunk} (hu : s.outputEncoding.unicode? = some u)
    (h : outputChunk (outputCodec bits E) q s size file = .ok chunk) :
    chunk.Recoverable u file ↔
      ¬ ∃ v cs, (file.drop q.offset).take (readLimit bits s.outputEncoding q.limit size q.offset) =
        Unicode.bom v ++ v.encode cs := by
  rw [(outputChunk_ok h).2, (shows_chunkOf ..).recoverable_iff_not_marked hu, OutputChunk.Marked,
    raw_chunkOf]
  rfl

end

/-- `encoding_rs` on ASCII in GBK, and on bytes with one malformed sequence. -/
def exampleEncodingRs : EncodingRs where
  decodeGbk data := (String.ofList (data.map fun b ↦ .ofNat b.toNat), false)
  lossy _ _ := "\uFFFD"

/-- A query for the standard output of the task, from the start. -/
def exampleQuery (limit : ℕ) : ChunkRequest := ⟨1, .stdout, 0, limit⟩

/-- A task that writes UTF-8. -/
def exampleUtf8 : TaskSnapshot := .created 1 "/deploy" .separate .utf8 "2025-01-01T00:00:00Z"

/-- The first byte of `é` alone is malformed, and is recovered. -/
theorem recoverable_cut :
    ∃ chunk, outputChunk (outputCodec 64 exampleEncodingRs) (exampleQuery 1) exampleUtf8 2
        [0xC3, 0xA9] = .ok chunk ∧ chunk.Recoverable .utf8 [0xC3, 0xA9] := by
  obtain ⟨chunk, h⟩ : ∃ chunk, outputChunk (outputCodec 64 exampleEncodingRs) (exampleQuery 1)
    exampleUtf8 2 [0xC3, 0xA9] = .ok chunk := ⟨_, rfl⟩
  refine ⟨chunk, h, (recoverable_iff rfl h).mpr ?_⟩
  rintro ⟨_ | _ | _, cs, hdata⟩ <;>
    simp [Unicode.bom, exampleQuery, exampleUtf8, TaskSnapshot.created, readLimit] at hdata

/-- A byte order mark is gone from the text, and there is no error. -/
theorem bom_not_recoverable :
    ∃ chunk, outputChunk (outputCodec 64 exampleEncodingRs) (exampleQuery 4) exampleUtf8 4
        [0xEF, 0xBB, 0xBF, 0x61] = .ok chunk ∧
      ¬ chunk.Recoverable .utf8 [0xEF, 0xBB, 0xBF, 0x61] := by
  have hdec : decodeOutput exampleEncodingRs .utf8 [0xEF, 0xBB, 0xBF, 0x61] =
      (String.ofList ['a'], false) :=
    decodeUnicode_encode (E := exampleEncodingRs) (u := .utf8) ['a']
  refine ⟨_, rfl, ?_⟩
  rintro ⟨htext, -⟩
  have henc := htext (congrArg Prod.snd hdec)
  rw [raw_chunkOf] at henc
  have hcontent : (decodeOutput exampleEncodingRs .utf8 [0xEF, 0xBB, 0xBF, 0x61]).1.toList =
      ['a'] := by rw [hdec, String.toList_ofList]
  have : Unicode.utf8.encode ['a'] = [0xEF, 0xBB, 0xBF, 0x61] := by
    rw [← hcontent]
    exact henc
  exact absurd this (by decide)

end CommandApi
