import CommandApi.Model

/-!
# Reading output

`TaskStore::output_chunk` of `src/store.rs`.  The call looks at the world three times: it reads the
snapshot, then the size of the log file, then the bytes.  `outputChunk` is what it makes of the
three answers, with its errors in the order in which it checks; whoever runs it says what may
happen in between.

Decoding and Base64 belong to other crates and are arguments, and so is the width of `usize`.
-/

set_option autoImplicit false

namespace CommandApi

/-- What `output_chunk` uses of the target and of other crates. -/
structure OutputCodec where
  /-- The width of `usize`. -/
  usizeBits : ℕ
  /-- `decode_output`: the text, and whether there was anything malformed. -/
  decode : OutputEncoding → List UInt8 → String × Bool
  /-- `BASE64.encode`. -/
  base64 : List UInt8 → String

/-- The arguments of a call. -/
structure ChunkRequest where
  id : Uuid
  stream : OutputStream
  offset : ℕ
  limit : ℕ
  deriving DecidableEq, Repr

def maxLimit : ℕ := 1024 * 1024

/-- The check of the limit. -/
def checkLimit (limit : ℕ) : Except String Unit :=
  if limit = 0 ∨ maxLimit < limit then .error s!"limit 必须在 1 到 {maxLimit} 之间" else .ok ()

/-- The check that the stream is one of the task's. -/
def checkStream : OutputMode → OutputStream → Except String Unit
  | .separate, .combined => .error "该任务使用分离输出模式"
  | .combined, .stdout | .combined, .stderr => .error "该任务使用合并输出模式"
  | _, _ => .ok ()

/-- How many bytes are read. -/
def readLimit (bits : ℕ) (encoding : OutputEncoding) (limit size offset : ℕ) : ℕ :=
  let n := min limit ((size - offset) % 2 ^ bits)
  if encoding = .utf16le ∧ ¬ n % 2 = 0 then n - 1 else n

/-- The answer with these bytes. -/
def chunkOf (codec : OutputCodec) (q : ChunkRequest) (s : TaskSnapshot) (size : ℕ)
    (data : List UInt8) : OutputChunk :=
  let (content, decodingErrors) := codec.decode s.outputEncoding data
  { success := true
    taskId := q.id
    stream := q.stream
    encoding := s.outputEncoding.label
    offset := q.offset
    nextOffset := q.offset + data.length
    eof := s.status.isFinished && decide (size ≤ q.offset + data.length)
    content
    decodingErrors
    contentBase64 := if decodingErrors then some (codec.base64 data) else none }

/-- What `output_chunk` answers for a task that exists, from the snapshot it has read, the size of
the file and, later, the bytes of the file. -/
def outputChunk (codec : OutputCodec) (q : ChunkRequest) (s : TaskSnapshot) (size : ℕ)
    (file : List UInt8) : Except String OutputChunk := do
  checkLimit q.limit
  checkStream s.outputMode q.stream
  if size < q.offset then
    throw s!"offset {q.offset} 超过当前输出大小 {size}"
  let n := readLimit codec.usizeBits s.outputEncoding q.limit size q.offset
  let data := (file.drop q.offset).take n
  if data.length < n then
    throw "failed to fill whole buffer"
  pure (chunkOf codec q s size data)

section

variable {codec : OutputCodec} {q : ChunkRequest} {s : TaskSnapshot} {size : ℕ} {file : List UInt8}
  {chunk : OutputChunk}

/-- An answer is a chunk of the bytes behind the offset. -/
theorem outputChunk_ok (h : outputChunk codec q s size file = .ok chunk) :
    q.offset ≤ size ∧ chunk = chunkOf codec q s size ((file.drop q.offset).take
      (readLimit codec.usizeBits s.outputEncoding q.limit size q.offset)) := by
  simp only [outputChunk, bind, Except.bind, pure, Except.pure, throw, throwThe,
    MonadExceptOf.throw] at h
  repeat' split at h
  all_goals cases h
  rename_i hoff _
  exact ⟨by omega, rfl⟩

theorem outputChunk_stream (h : outputChunk codec q s size file = .ok chunk) :
    chunk.stream = q.stream := by
  rw [(outputChunk_ok h).2]
  rfl

/-- A chunk that says it is the last one was read from a finished task, and reaches the size. -/
theorem outputChunk_eof (h : outputChunk codec q s size file = .ok chunk) (he : chunk.eof = true) :
    s.status.isFinished = true ∧ size ≤ chunk.nextOffset := by
  rw [(outputChunk_ok h).2] at he ⊢
  simpa [chunkOf] using he

end

end CommandApi
