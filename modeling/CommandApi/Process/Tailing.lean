import CommandApi.Process.Eof
import CommandApi.Process.Logging
import CommandApi.Store.Paging

/-!
# Following the output of a running task

A client reads a stream from its beginning while the task is running: it asks for the next chunk at
the `next_offset` of the last one, again and again, with whatever limits it likes.  A call of
`output_chunk` looks at the snapshot, at the size of the file and at its bytes, one after the other,
and anything may happen in between: the threads write, the runner publishes the end of the task.  A
call may also fail, and the client tries again.

`CommandApi.Store.Paging` is about the same loop when the task is over and nothing moves.

* `Adjoin` and `rebuilt` speak about the answers alone: the byte ranges of the chunks follow one
  another from the beginning, and the client makes bytes of their text or of `content_base64`.
* `Onward` is all that the client has to know about a step of the task: files grow, a finished
  snapshot stays as it is, and so do the files unless the error handler has finished the task.
* `tail_exact`: the ranges are those of a beginning of the log file, and what the client makes of
  the answers is that beginning unless one of them is about a byte order mark and text in its
  encoding.  Once a chunk has said `eof` the ranges cover the whole file, and will; if nothing was
  truncated that is what the script wrote.
-/

set_option autoImplicit false

namespace CommandApi

open Async Relation Text

/-! ## The answers -/

/-- The ranges of the chunks follow one another from this offset on. -/
def Adjoin : ℕ → List OutputChunk → Prop
  | _, [] => True
  | offset, chunk :: rest => chunk.offset = offset ∧ Adjoin chunk.nextOffset rest

/-- The bytes a client makes of the answers. -/
def rebuilt (u : Unicode) (chunks : List OutputChunk) : Option (List UInt8) :=
  (chunks.mapM (OutputChunk.rebuilt u)).map List.flatten

section

variable {chunks : List OutputChunk} {chunk : OutputChunk} {codec : OutputCodec}
  {encoding : OutputEncoding} {file : List UInt8} {u : Unicode}

theorem nextOffset_concat : nextOffset (chunks ++ [chunk]) = chunk.nextOffset := by
  simp [nextOffset]

theorem adjoin_concat {offset : ℕ} : Adjoin offset (chunks ++ [chunk]) ↔
    Adjoin offset chunks ∧ chunk.offset = (chunks.getLast?.map (·.nextOffset)).getD offset := by
  induction chunks generalizing offset with
  | nil => simp [Adjoin]
  | cons first rest ih =>
    rw [List.cons_append, Adjoin, ih, Adjoin, and_assoc]
    cases rest <;> simp [List.getLast?_cons]

/-- The next chunk starts where the last one ended. -/
theorem Adjoin.concat (h : Adjoin 0 chunks) (hc : chunk.offset = nextOffset chunks) :
    Adjoin 0 (chunks ++ [chunk]) :=
  adjoin_concat.mpr ⟨h, hc⟩

/-- **Chunks that adjoin cover a beginning of the file.** -/
theorem Adjoin.flatMap_raw (h : Adjoin 0 chunks)
    (hshow : ∀ chunk ∈ chunks, chunk.Shows codec encoding file) :
    nextOffset chunks ≤ file.length ∧
      chunks.flatMap (·.raw file) = file.take (nextOffset chunks) := by
  induction chunks using List.reverseRecOn with
  | nil => simp [nextOffset]
  | append_singleton before chunk ih =>
    obtain ⟨hbefore, hoff⟩ := adjoin_concat.mp h
    obtain ⟨hle, hflat⟩ := ih hbefore fun c hc ↦ hshow c (List.mem_append_left _ hc)
    have hchunk := hshow chunk (List.mem_append_right _ List.mem_cons_self)
    have hoff' : chunk.offset = nextOffset before := hoff
    have hrange := hchunk.range
    have hlen : (chunk.raw file).length ≤ file.length - chunk.offset := by
      rw [OutputChunk.raw, List.length_take, List.length_drop]
      exact min_le_right _ _
    rw [nextOffset_concat]
    refine ⟨by omega, ?_⟩
    rw [List.flatMap_append, hflat, List.flatMap_singleton, OutputChunk.raw, hoff']
    rw [← List.take_add]
    congr 1
    omega

/-- **What a client makes of chunks that it can recover is what they are about.** -/
theorem rebuilt_eq (h : ∀ chunk ∈ chunks, chunk.Recoverable u file) :
    rebuilt u chunks = some (chunks.flatMap (·.raw file)) := by
  have hmap : chunks.mapM (OutputChunk.rebuilt u) = some (chunks.map (·.raw file)) := by
    induction chunks with
    | nil => rfl
    | cons chunk rest ih =>
      have hfirst : chunk.rebuilt u = some (chunk.raw file) :=
        OutputChunk.rebuilt_eq_some_iff.mpr (h chunk List.mem_cons_self)
      have hrest := ih fun c hc ↦ h c (List.mem_cons_of_mem _ hc)
      rw [List.mapM_cons, hfirst, hrest]
      rfl
  rw [rebuilt, hmap, Option.map_some, List.flatMap]

end

/-! ## The client -/

/-- A client that follows a stream. -/
structure Follower where
  chunks : List OutputChunk
  call : ChunkCall

/-- Nothing has been asked for so far. -/
def Follower.start : Follower := ⟨[], .idle⟩

/-- The client goes on from where its last chunk ended. -/
inductive Tails (codec : OutputCodec) (id : Uuid) (stream : OutputStream) (d : Copying) :
    Follower → Follower → Prop
  | ask {f : Follower} (limit : ℕ) (h : f.call = .idle) :
      Tails codec id stream d f
        { f with call := .opened ⟨id, stream, nextOffset f.chunks, limit⟩ d.world.visible }
  | size {f : Follower} {q : ChunkRequest} {s : TaskSnapshot} (h : f.call = .opened q s) :
      Tails codec id stream d f { f with call := .sized q s (d.world.files q.stream).length }
  | answer {f : Follower} {q : ChunkRequest} {s : TaskSnapshot} {size : ℕ} {chunk : OutputChunk}
      (h : f.call = .sized q s size)
      (hc : outputChunk codec q s size (d.world.files q.stream) = .ok chunk) :
      Tails codec id stream d f { chunks := f.chunks ++ [chunk], call := .idle }
  /-- The call fails, at any point, or the client gives it up. -/
  | fail {f : Follower} : Tails codec id stream d f { f with call := .idle }

/-- A task, its threads, and a client. -/
def tailedMachine (P : Platform) (line : TaskSnapshot → List UInt8) (limit : ℕ)
    (codec : OutputCodec) (id : Uuid) (stream : OutputStream) :
    Machine runner (Copying × Follower) :=
  (copyingMachine P line limit).observe (Tails codec id stream)

/-! ## What a step of the task does to the files -/

/-- The task is finished, and it was not the error handler that finished it. -/
def Concluded (s : TaskSnapshot) : Prop := s.status.isFinished = true ∧ ¬ ByErrorHandler s

/-- What a client may rely on while the task goes on. -/
structure Onward (d d' : Copying) : Prop where
  files : ∀ s, d.world.files s <+: d'.world.files s
  encoding : d'.world.snapshot.outputEncoding = d.world.snapshot.outputEncoding
  finished : d.world.snapshot.status.isFinished = true →
    d'.world.snapshot =
      { d.world.snapshot with outputTruncated := d'.world.snapshot.outputTruncated }
  concluded : Concluded d.world.snapshot → d'.world.files = d.world.files

section

variable {P : Platform} {route : ResolvedRoute} {line : TaskSnapshot → List UInt8} {limit : ℕ}
  {mode : OutputMode} {source : OutputStream → List UInt8} {todo : List OutputStream}
  {φ ψ : Phase} {o : Op} {r : runner.Resp o} {d d' : Copying} {w : World}

/-- A file is written to by a thread that is in its loop. -/
theorem CopyingStep.files (hd : Linked d) (h : CopyingStep P limit d d') :
    d'.world.files = d.world.files ∨
      ∃ s x, d.stage s = .copying ∧
        d'.world.files = Function.update d.world.files s (d.world.files s ++ x) := by
  cases h with
  | elsewhere h hw => exact .inl hw.files
  | @copy s r c h hc =>
    refine .inr ⟨s, ?_⟩
    have hstored : ∃ x, r.file = d.world.files s ++ x := by
      rw [hd.files]
      rcases hc.stores with ⟨x, hfile, -⟩ | ⟨hfile, -⟩
      · exact ⟨x, hfile⟩
      · exact ⟨[], by rw [hfile, List.append_nil]⟩
    obtain ⟨x, hx⟩ := hstored
    exact ⟨x, h, by rw [← hx]; rfl⟩
  | @copyError s error written h hw =>
    refine .inr ⟨s, written, h, ?_⟩
    rw [hd.files]
    rfl
  | _ => exact .inl rfl

/-- No thread is in its loop once all have returned. -/
theorem ReaderThreads.not_copying (h : ReaderThreads limit mode source todo d)
    (hall : AllReturned mode d) (s : OutputStream) : d.stage s ≠ .copying := by
  intro hs
  by_cases hm : s ∈ mode.streams
  · rw [hall s hm] at hs
    cases hs
  · rw [(h.outside s hm).1] at hs
    cases hs

theorem Answered.allReturned (h : Answered mode φ d) (hs : Concluded d.world.snapshot) :
    AllReturned mode d :=
  ((h.conclusive hs.1).resolve_left hs.2).1

theorem Onward.env (ht : ReaderThreads limit mode source todo d) (ha : Answered mode φ d)
    (hs : CopyingStep P limit d d') : Onward d d' := by
  refine ⟨fun s ↦ ?_, by rw [hs.snapshot], fun _ ↦ by rw [hs.snapshot], fun hset ↦ ?_⟩
  · rcases hs.files ht.linked with h | ⟨t, x, -, h⟩
    · rw [h]
    · rw [h, Function.update_apply]
      split
      · rename_i hst
        rw [hst]
        exact List.prefix_append _ _
      · exact List.prefix_rfl
  · refine (hs.files ht.linked).resolve_right ?_
    rintro ⟨s, x, hcopying, -⟩
    exact ht.not_copying (ha.allReturned hset) s hcopying

theorem Onward.act (hfacts : Facts φ d.world.snapshot) (hm : Moves P route φ o r ψ)
    (ha : taskEffect P line o d.world r w) : Onward d (d.afterOp o w) := by
  have hfiles : (d.afterOp o w).world.files = d.world.files := (taskEffect_shape ha).files
  obtain ⟨s', hc, hs'⟩ := taskEffect_changes ha
  refine ⟨fun s ↦ by rw [hfiles], ?_, fun hfin ↦ ?_, fun _ ↦ hfiles⟩
  · have horigin : s'.origin = d.world.snapshot.origin := origin_move hm hc
    have hencoding : s'.outputEncoding = d.world.snapshot.outputEncoding :=
      congrArg (·.2.2.2.1) horigin
    rw [show (d.afterOp o w).world.snapshot = _ from hs']
    exact hencoding
  · rw [finished_move hm hfacts hfin hc] at hs'
    exact hs'

/-! ## What the client knows -/

/-- The task is finished, and its file has no more than `n` bytes unless the error handler has
finished it. -/
def Exhausted (d : Copying) (stream : OutputStream) (n : ℕ) : Prop :=
  d.world.snapshot.status.isFinished = true ∧
    (¬ ByErrorHandler d.world.snapshot → (d.world.files stream).length ≤ n)

/-- What a call has been told is still so. -/
def ChunkCall.Current (d : Copying) (stream : OutputStream) (offset : ℕ) : ChunkCall → Prop
  | .idle => True
  | .opened q s => q.stream = stream ∧ q.offset = offset ∧
      s.outputEncoding = d.world.snapshot.outputEncoding ∧
      (s.status.isFinished = true → d.world.snapshot.status.isFinished = true)
  | .sized q s size => q.stream = stream ∧ q.offset = offset ∧
      s.outputEncoding = d.world.snapshot.outputEncoding ∧
      (s.status.isFinished = true → Exhausted d stream size)
  | .answered _ => False

/-- The client has been shown the beginning of the file, and knows where it goes on. -/
structure Follower.Exact (codec : OutputCodec) (stream : OutputStream) (d : Copying)
    (f : Follower) : Prop where
  adjoin : Adjoin 0 f.chunks
  shown : ∀ chunk ∈ f.chunks,
    chunk.Shows codec d.world.snapshot.outputEncoding (d.world.files stream)
  call : f.call.Current d stream (nextOffset f.chunks)
  eof : (∃ chunk ∈ f.chunks, chunk.eof = true) → Exhausted d stream (nextOffset f.chunks)

variable {stream : OutputStream} {f f' : Follower} {codec : OutputCodec} {id : Uuid}

theorem Onward.isFinished (h : Onward d d') (hf : d.world.snapshot.status.isFinished = true) :
    d'.world.snapshot.status.isFinished = true := by
  rw [h.finished hf]
  exact hf

theorem Exhausted.onward {n : ℕ} (h : Exhausted d stream n) (hd : Onward d d') :
    Exhausted d' stream n := by
  refine ⟨hd.isFinished h.1, fun hok ↦ ?_⟩
  have hok' : ¬ ByErrorHandler d.world.snapshot := by
    rw [hd.finished h.1] at hok
    exact hok
  rw [hd.concluded ⟨h.1, hok'⟩]
  exact h.2 hok'

theorem Exhausted.mono {m n : ℕ} (h : Exhausted d stream m) (hmn : m ≤ n) :
    Exhausted d stream n :=
  ⟨h.1, fun hok ↦ (h.2 hok).trans hmn⟩

/-- The task goes on. -/
theorem Follower.Exact.onward (h : f.Exact codec stream d) (hd : Onward d d') :
    f.Exact codec stream d' := by
  refine ⟨h.adjoin, fun chunk hmem ↦ ?_, ?_, fun he ↦ (h.eof he).onward hd⟩
  · rw [hd.encoding]
    exact (h.shown chunk hmem).grow (hd.files stream)
  have hcall := h.call
  cases hc : f.call with
  | idle => exact trivial
  | opened q s =>
    rw [hc] at hcall
    obtain ⟨hq, hoff, henc, hfin⟩ := hcall
    exact ⟨hq, hoff, henc.trans hd.encoding.symm, fun hf ↦ hd.isFinished (hfin hf)⟩
  | sized q s size =>
    rw [hc] at hcall
    obtain ⟨hq, hoff, henc, hfin⟩ := hcall
    exact ⟨hq, hoff, henc.trans hd.encoding.symm, fun hf ↦ (hfin hf).onward hd⟩
  | answered chunk =>
    rw [hc] at hcall
    exact hcall.elim

/-- A chunk read at the end of what has been read before. -/
theorem Follower.Exact.answer (h : f.Exact codec stream d) {q : ChunkRequest} {s : TaskSnapshot}
    {size : ℕ} {chunk : OutputChunk} (hcall : f.call = .sized q s size)
    (hc : outputChunk codec q s size (d.world.files q.stream) = .ok chunk) :
    Follower.Exact codec stream d { chunks := f.chunks ++ [chunk], call := .idle } := by
  have hcur := h.call
  rw [hcall] at hcur
  obtain ⟨rfl, hoff, henc, hsize⟩ := hcur
  have hchunk := (outputChunk_ok hc).2
  have hoffset : chunk.offset = nextOffset f.chunks := by
    rw [hchunk, ← hoff]
    rfl
  have hshow : chunk.Shows codec d.world.snapshot.outputEncoding (d.world.files q.stream) := by
    rw [hchunk, ← henc]
    exact shows_chunkOf ..
  have hle : nextOffset f.chunks ≤ nextOffset (f.chunks ++ [chunk]) := by
    rw [nextOffset_concat, hshow.range, hoffset]
    exact Nat.le_add_right _ _
  refine ⟨h.adjoin.concat hoffset, fun c hmem ↦ ?_, trivial, ?_⟩
  · rcases List.mem_append.mp hmem with hold | hnew
    · exact h.shown c hold
    · obtain rfl := List.mem_singleton.mp hnew
      exact hshow
  · rintro ⟨c, hmem, heof⟩
    rcases List.mem_append.mp hmem with hold | hnew
    · exact (h.eof ⟨c, hold, heof⟩).mono hle
    · obtain rfl := List.mem_singleton.mp hnew
      obtain ⟨hfin, hreach⟩ := outputChunk_eof hc heof
      exact (hsize hfin).mono (hreach.trans nextOffset_concat.ge)

theorem Follower.Exact.look (h : f.Exact codec stream d) (hl : Tails codec id stream d f f') :
    f'.Exact codec stream d := by
  cases hl with
  | ask limit hidle => exact ⟨h.adjoin, h.shown, ⟨rfl, rfl, rfl, fun hf ↦ hf⟩, h.eof⟩
  | size hopened =>
    have hcall := h.call
    rw [hopened] at hcall
    obtain ⟨rfl, hoff, henc, hfin⟩ := hcall
    exact ⟨h.adjoin, h.shown, ⟨rfl, hoff, henc, fun hf ↦ ⟨hfin hf, fun _ ↦ le_rfl⟩⟩, h.eof⟩
  | answer hsized hc => exact h.answer hsized hc
  | fail => exact ⟨h.adjoin, h.shown, trivial, h.eof⟩

/-- What is known of the task, its threads and the client. -/
theorem tailed_invariant (htotal : totalRead route.outputMode source < 2 ^ 64) :
    Invariant (tailedMachine P line limit codec id stream) ((Moves P route).prod Starts) fun φ u ↦
      (ReaderThreads limit route.outputMode source φ.2 u.1 ∧ Answered route.outputMode φ.1 u.1) ∧
        u.2.Exact codec stream u.1 := by
  refine (copying_invariant htotal).observe
    (B := fun d f ↦ Follower.Exact codec stream d f) ?_ ?_ ?_
  · exact fun φ d d' f h hs hf ↦ hf.onward (.env h.1 h.2 hs)
  · rintro φ o d r d' ψ f h ⟨w, hw, rfl⟩ hm hf
    exact hf.onward (.act h.2.facts hm.1 hw)
  · exact fun φ d f f' h hf hl ↦ hf.look hl

end

/-! ## Executions -/

section

variable (P : Platform) (route : ResolvedRoute) (args : List String)
  (line : TaskSnapshot → List UInt8) (limit : ℕ) (source : OutputStream → List UInt8) (id : Uuid)
  (now : String) (bits : ℕ) (E : EncodingRs) (stream : OutputStream)
  (c : Task Unit × Copying × Follower)

/-- **Following a stream gives the stream.**  At any moment of any execution the chunks are about a
beginning of the log file, without a gap, and in a Unicode encoding each of them can be recovered
unless it is marked; if none is, the client has that beginning.  If one of the chunks has said
`eof` the task is finished; unless the error handler has finished it, the chunks are about the
whole file, which is a beginning of what the script wrote, and all of it if `output_truncated` is
not set. -/
theorem tail_exact (htotal : totalRead route.outputMode source < 2 ^ 64)
    (hstream : stream ∈ route.outputMode.streams)
    (hr : (tailedMachine P line limit (outputCodec bits E) id stream).Run
      (startTask P route args, .start (startedWorld line route id now) route.outputMode source,
        .start) c) :
    Adjoin 0 c.2.2.chunks ∧
    nextOffset c.2.2.chunks ≤ (c.2.1.world.files stream).length ∧
    (∀ u, c.2.1.world.visible.outputEncoding.unicode? = some u →
      (∀ chunk ∈ c.2.2.chunks, chunk.Recoverable u (c.2.1.world.files stream) ↔
        ¬ chunk.Marked (c.2.1.world.files stream)) ∧
      ((∀ chunk ∈ c.2.2.chunks, ¬ chunk.Marked (c.2.1.world.files stream)) →
        rebuilt u c.2.2.chunks =
          some ((c.2.1.world.files stream).take (nextOffset c.2.2.chunks)))) ∧
    ((∃ chunk ∈ c.2.2.chunks, chunk.eof = true) →
      c.2.1.world.visible.status.isFinished = true ∧
      (¬ ByErrorHandler c.2.1.world.visible →
        nextOffset c.2.2.chunks = (c.2.1.world.files stream).length ∧
        c.2.1.world.files stream <+: source stream ∧
        (c.2.1.world.visible.outputTruncated = false →
          c.2.1.world.files stream = source stream))) := by
  have hstart : Follower.Exact (outputCodec bits E) stream
      (.start (startedWorld line route id now) route.outputMode source) .start :=
    ⟨trivial, fun _ hmem ↦ (nomatch hmem), trivial, fun ⟨_, hmem, _⟩ ↦ (nomatch hmem)⟩
  obtain ⟨φ, -, ⟨ht, ha⟩, hf⟩ := (tailed_invariant htotal).run
    ⟨(.starting, route.outputMode.streams),
      (startTask_follows P route args).prod (startTask_starts args),
      copying_start line id now, hstart⟩ hr
  obtain ⟨hle, hflat⟩ := hf.adjoin.flatMap_raw hf.shown
  refine ⟨hf.adjoin, hle, fun u hu ↦ ?_, fun heof ↦ ?_⟩
  · have hrec : ∀ chunk ∈ c.2.2.chunks, chunk.Recoverable u (c.2.1.world.files stream) ↔
        ¬ chunk.Marked (c.2.1.world.files stream) := fun chunk hmem ↦
      (hf.shown chunk hmem).recoverable_iff_not_marked hu
    refine ⟨hrec, fun hnot ↦ ?_⟩
    rw [rebuilt_eq fun chunk hmem ↦ (hrec chunk hmem).mpr (hnot chunk hmem), hflat]
  obtain ⟨hfin, hlen⟩ := hf.eof heof
  refine ⟨hfin, fun hok ↦ ?_⟩
  have hall := ha.allReturned ⟨hfin, hok⟩
  have hpiped : piped route.outputMode source stream = source stream := if_pos hstream
  refine ⟨hle.antisymm (hlen hok), ?_, fun htr ↦ ?_⟩
  · rw [← hpiped]
    exact (ht.complete htotal hall).2.2.2.1 stream
  · rw [ht.untruncated htotal hall htr, hpiped]

/-- A call that nothing disturbs. -/
theorem run_tail {P : Platform} {line : TaskSnapshot → List UInt8} {limit : ℕ}
    {codec : OutputCodec} {id : Uuid} {stream : OutputStream} {d : Copying} {f : Follower}
    {n : ℕ} {chunk : OutputChunk} (hidle : f.call = .idle)
    (hc : outputChunk codec ⟨id, stream, nextOffset f.chunks, n⟩ d.world.visible
      (d.world.files stream).length (d.world.files stream) = .ok chunk) (p : Task Unit) :
    (tailedMachine P line limit codec id stream).Run (p, d, f)
      (p, d, ⟨f.chunks ++ [chunk], .idle⟩) := by
  let q : ChunkRequest := ⟨id, stream, nextOffset f.chunks, n⟩
  let f₁ : Follower := { f with call := .opened q d.world.visible }
  let f₂ : Follower := { f with call := .sized q d.world.visible (d.world.files stream).length }
  have hask : Tails codec id stream d f f₁ := .ask n hidle
  have hsize : Tails codec id stream d f₁ f₂ := .size rfl
  have hanswer : Tails codec id stream d f₂ _ := .answer rfl hc
  have hlook : ∀ {g g' : Follower}, Tails codec id stream d g g' →
      (tailedMachine P line limit codec id stream).Step (p, d, g) (p, d, g') :=
    fun h ↦ .env (.inr ⟨rfl, h⟩)
  exact .head (hlook hask) (.head (hlook hsize) (.single (hlook hanswer)))

end

/-- A client reads what the script of the last section has printed. -/
theorem tail_exact_printed :
    ∃ c, (tailedMachine .unix snapshotCodec.line 4 (outputCodec 64 exampleEncodingRs) 1
        .stdout).Run
        (startTask .unix exampleRoute [], .start
          (startedWorld snapshotCodec.line exampleRoute 1 "2026-01-01T00:00:00Z")
          exampleRoute.outputMode examplePrinted, .start) c ∧
      (∃ chunk ∈ c.2.2.chunks, chunk.eof = true) ∧
      rebuilt .utf8 c.2.2.chunks = some [111, 107] := by
  obtain ⟨⟨p, d⟩, hr, hstatus, hmode, hencoding⟩ := exists_examplePrinted 4
  have hfin : d.world.visible.status.isFinished = true := by rw [hstatus]; rfl
  have hok : ¬ ByErrorHandler d.world.visible := by
    rintro ⟨hfailed, -⟩
    rw [hstatus] at hfailed
    cases hfailed
  have htotal : totalRead exampleRoute.outputMode examplePrinted < 2 ^ 64 := by decide
  obtain ⟨φ, todo, ht, ha⟩ := copying_run htotal hr
  have hall : AllReturned exampleRoute.outputMode d := ha.allReturned ⟨hfin, hok⟩
  have htr : d.world.outputTruncated = false := by
    rw [Bool.eq_false_iff, Ne, (ht.complete htotal hall).2.2.2.2]
    decide
  have hfile : d.world.files .stdout = [111, 107] := ht.untruncated htotal hall htr .stdout
  -- one call with a limit of a kilobyte
  let limits : ℕ → ℕ := fun _ ↦ 1024
  let chunk := chunkAt (outputCodec 64 exampleEncodingRs) 1 .stdout d.world.visible
    (d.world.files .stdout) limits 0
  have hlimits : ∀ n, 1 ≤ limits n ∧ limits n ≤ maxLimit := fun _ ↦ by decide
  have hchunk : outputChunk (outputCodec 64 exampleEncodingRs) ⟨1, .stdout, 0, 1024⟩
      d.world.visible (d.world.files .stdout).length (d.world.files .stdout) = .ok chunk :=
    outputChunk_page (by rw [hmode]; rfl) hlimits 0
  have heof : chunk.eof = true := by
    refine (eof_chunkAt hfin 0).mpr ?_
    rw [fileOffset, hencoding, hfile]
    rfl
  have hseen : (tailedMachine .unix snapshotCodec.line 4 (outputCodec 64 exampleEncodingRs) 1
      .stdout).Run (_, _, Follower.start) (p, d, Follower.start) :=
    (Machine.Run.observe (E := fun _ _ ↦ True) hr Follower.start fun _ _ ↦ trivial).of_restrict
  have hrun := hseen.trans (run_tail rfl hchunk p)
  have hmem : ∃ c ∈ Follower.start.chunks ++ [chunk], c.eof = true :=
    ⟨chunk, List.mem_append_right _ List.mem_cons_self, heof⟩
  obtain ⟨-, -, htext, h⟩ := tail_exact .unix exampleRoute [] snapshotCodec.line 4 examplePrinted 1
    "2026-01-01T00:00:00Z" 64 exampleEncodingRs .stdout _ htotal (by decide) hrun
  have hlen := ((h hmem).2 hok).1
  have hraw : chunk.raw (d.world.files .stdout) = [111, 107] := by
    rw [OutputChunk.raw, show chunk.nextOffset = (d.world.files .stdout).length from hlen]
    exact (List.take_length).trans hfile
  have hunmarked : ∀ c ∈ Follower.start.chunks ++ [chunk], ¬ c.Marked (d.world.files .stdout) := by
    intro c hc
    rw [List.mem_singleton.mp hc, OutputChunk.Marked, hraw]
    rintro ⟨_ | _ | _, cs, hdata⟩ <;> simp [Unicode.bom] at hdata
  refine ⟨_, hrun, hmem, ?_⟩
  have hbytes := (htext .utf8 (by rw [hencoding]; rfl)).2 hunmarked
  rw [hlen, List.take_length] at hbytes
  exact hbytes.trans (congrArg some hfile)

end CommandApi
