import CommandApi.Process.Lifecycle
import CommandApi.Store.Output

/-!
# The end of the output

`output_chunk` says `eof` when the task it looked at was finished and the chunk reaches the size of
the file.  A client that stops there has all the output only if no reader writes any more.  On its
normal path `run_task` joins both readers before the terminal status becomes visible, but every
early error exit lets `start_task` publish `Failed` while the readers, and the script, may still be
running: `eof_then_output` is such an execution.

`eof_final` says that this is the only way: if the error handler never makes its change while a
reader is running (`ReportsQuietly`), then a file never grows beyond a chunk that said `eof`,
however the calls of `output_chunk`, each of which looks three times, are interleaved with the
runner and the readers.
-/

set_option autoImplicit false

namespace CommandApi

open Async Relation

/-! ## Calls next to the runner -/

/-- How far a call of `output_chunk` has come. -/
inductive ChunkCall
  | idle
  | opened (q : ChunkRequest) (s : TaskSnapshot)
  | sized (q : ChunkRequest) (s : TaskSnapshot) (size : ℕ)
  | answered (chunk : OutputChunk)

/-- One of any number of calls looks at the world.  A call that fails stays where it is. -/
inductive Asks (codec : OutputCodec) (w : World) : (ℕ → ChunkCall) → (ℕ → ChunkCall) → Prop
  | snapshot {calls : ℕ → ChunkCall} (i : ℕ) (q : ChunkRequest) (h : calls i = .idle) :
      Asks codec w calls (Function.update calls i (.opened q w.snapshot))
  | size {calls : ℕ → ChunkCall} (i : ℕ) {q : ChunkRequest} {s : TaskSnapshot}
      (h : calls i = .opened q s) :
      Asks codec w calls (Function.update calls i (.sized q s (w.files q.stream).length))
  | answer {calls : ℕ → ChunkCall} (i : ℕ) {q : ChunkRequest} {s : TaskSnapshot} {size : ℕ}
      {chunk : OutputChunk} (h : calls i = .sized q s size)
      (hc : outputChunk codec q s size (w.files q.stream) = .ok chunk) :
      Asks codec w calls (Function.update calls i (.answered chunk))

/-- The runner next to its surroundings and to clients that read its output. -/
def outputMachine (P : Platform) (line : TaskSnapshot → List UInt8) (codec : OutputCodec) :
    Machine runner (World × (ℕ → ChunkCall)) :=
  (taskMachine P line).observe (Asks codec)

/-- No reader is running. -/
def World.Silent (w : World) : Prop := ∀ s, w.readers s ≠ .running

/-- The error handler makes its change only when no reader is running. -/
def ReportsQuietly (o : Op) (u : World × (ℕ → ChunkCall)) (_ : runner.Resp o) : Prop :=
  ∀ f, o = .update .executorError f → u.1.Silent

/-! ## The readers in each phase -/

/-- The readers that may be running in a phase. -/
def MayRun (route : ResolvedRoute) : Phase → OutputStream → Prop
  | .ending todo _ _, s => s ∈ todo
  | .released _ _, _ | .published, _ | .returned, _ => False
  | .failed _, _ | .crashed _, _ | .reported, _ | .marking, _ | .marked, _ | .done, _ => True
  | _, s => s ∈ route.outputMode.streams

section

variable {P : Platform} {route : ResolvedRoute} {line : TaskSnapshot → List UInt8} {w w' : World}
  {φ ψ : Phase} {o : Op} {r : runner.Resp o}

/-- No operation but the starting of a reader makes one run, and joining one waits for its end. -/
theorem mayRun_move (hm : Moves P route φ o r ψ) (ha : taskEffect P line o w r w')
    (h : ∀ s, ¬ MayRun route φ s → w.readers s ≠ .running) (s : OutputStream)
    (hs : ¬ MayRun route ψ s) : w'.readers s ≠ .running := by
  by_cases ho : ∃ stream, o = .startReader stream
  · obtain ⟨stream, rfl⟩ := ho
    cases hm with
    | startReader hstream =>
      obtain rfl : w' = _ := ha
      have hne : s ≠ stream := fun heq ↦ hs (heq ▸ hstream)
      simpa [World.setReader, hne] using h s hs
  · rw [(taskEffect_shape ha).readers fun stream hstream ↦ ho ⟨stream, hstream⟩]
    cases hm with
    | startReader hstream => exact absurd ⟨_, rfl⟩ ho
    | joined stream todo reason status =>
      by_cases heq : s = stream
      · rw [heq, ha.1]
        exact nofun
      · exact h s fun hmem ↦ (List.mem_cons.mp hmem).elim heq hs
    | dropPermits reason status => exact h s (List.not_mem_nil)
    | _ => first | exact h s hs | exact absurd trivial hs

/-- A task becomes finished in its last transition or in the error handler. -/
theorem finishing_move {s s' : TaskSnapshot} (hm : Moves P route φ o r ψ) (hs : Facts φ s)
    (hc : Changes o s s') (hf : s'.status.isFinished = true) :
    s.status.isFinished = true ∨ (∃ reason status, φ = .released reason status) ∨
      ∃ f, o = .update .executorError f := by
  cases hm with
  | toRunning | forceNow | toGraceful _ | toForced _ _ | toLate _ =>
    obtain ⟨now, rfl⟩ := hc
    exact absurd hf (by simp [toRunning, toForced, toGraceful, toDescendantsForced,
      TaskStatus.isFinished])
  | toFinal reason status => exact .inr (.inl ⟨reason, status, rfl⟩)
  | toError error => exact .inr (.inr ⟨_, rfl⟩)
  | _ =>
    obtain rfl : s' = s := hc
    exact .inl hf

/-! ## Tasks that are over -/

/-- The task is finished, and no reader is running. -/
def World.Over (w : World) : Prop := w.snapshot.status.isFinished = true ∧ w.Silent

/-- What is known about the readers: who may be running, and that nobody is once the task is
finished. -/
structure Watched (route : ResolvedRoute) (φ : Phase) (w : World) : Prop where
  facts : Facts φ w.snapshot
  mayRun : ∀ s, ¬ MayRun route φ s → w.readers s ≠ .running
  silent : w.snapshot.status.isFinished = true → w.Silent

/-- The surroundings start no reader. -/
theorem Surroundings.readers (he : Surroundings P w w') {s : OutputStream}
    (h : w.readers s ≠ .running) : w'.readers s ≠ .running := by
  cases he with
  | readerEnds result hs | readerCrashes error hs =>
    simp only [World.setReader]
    split
    · exact nofun
    · exact h
  | _ => exact h

theorem Watched.env (h : Watched route φ w) (he : Surroundings P w w') : Watched route φ w' := by
  have hsnap := he.frame.1
  refine ⟨hsnap ▸ h.facts, fun s hs ↦ he.readers (h.mayRun s hs), fun hf s ↦ ?_⟩
  exact he.readers (h.silent (hsnap ▸ hf) s)

/-- Once a task is finished, no operation starts a reader. -/
theorem Facts.not_startReader (h : Facts φ w.snapshot) (hm : Moves P route φ o r ψ)
    (hf : w.snapshot.status.isFinished = true) (s : OutputStream) : o ≠ .startReader s := by
  rintro rfl
  cases hm with
  | startReader hs =>
    rw [h.1.status] at hf
    cases hf

theorem Watched.act (h : Watched route φ w) (hm : Moves P route φ o r ψ)
    (ha : taskEffect P line o w r w') (hq : ∀ f, o = .update .executorError f → w.Silent) :
    Watched route ψ w' := by
  have hfacts : Facts ψ w'.snapshot := facts_invariant.act φ o w r w' ψ h.facts ha hm
  refine ⟨hfacts, mayRun_move hm ha h.mayRun, fun hf ↦ ?_⟩
  have hstart : ∀ s, o ≠ .startReader s := by
    rintro s rfl
    cases hm with
    | startReader hs =>
      rw [hfacts.1.status] at hf
      cases hf
  rw [World.Silent, (taskEffect_shape ha).readers hstart]
  obtain ⟨s', hc, hs'⟩ := taskEffect_changes ha
  rw [hs'] at hf
  rcases finishing_move hm h.facts hc hf with hf | ⟨reason, status, rfl⟩ | ⟨f, ho⟩
  · exact h.silent hf
  · exact fun s ↦ h.mayRun s id
  · exact hq f ho

/-- A task that is over stays over, and its files stay as they are. -/
theorem World.Over.env (h : w.Over) (he : Surroundings P w w') : w'.Over ∧ w'.files = w.files := by
  refine ⟨⟨he.frame.1 ▸ h.1, fun s ↦ he.readers (h.2 s)⟩, ?_⟩
  cases he with
  | output block hr => exact absurd hr (h.2 _)
  | _ => rfl

theorem World.Over.act (h : w.Over) (hφ : Facts φ w.snapshot) (hm : Moves P route φ o r ψ)
    (ha : taskEffect P line o w r w') : w'.Over ∧ w'.files = w.files := by
  have hshape := taskEffect_shape ha
  obtain ⟨s', hc, hs'⟩ := taskEffect_changes ha
  obtain rfl := finished_move hm hφ h.1 hc
  refine ⟨⟨?_, ?_⟩, hshape.files⟩
  · rw [hs']
    exact h.1
  · rw [World.Silent, hshape.readers (hφ.not_startReader hm h.1)]
    exact h.2

/-! ## What a call has been told -/

/-- What a call has been told about a finished task still holds. -/
def ChunkCall.Holds (w : World) : ChunkCall → Prop
  | .idle => True
  | .opened _ s => s.status.isFinished = true → w.Over
  | .sized q s size => s.status.isFinished = true → w.Over ∧ (w.files q.stream).length ≤ size
  | .answered chunk =>
      chunk.eof = true → w.Over ∧ (w.files chunk.stream).length ≤ chunk.nextOffset

/-- A step that keeps a task over, and its files as they are, keeps what a call has been told. -/
theorem ChunkCall.Holds.step {call : ChunkCall} (h : call.Holds w)
    (hw : w.Over → w'.Over ∧ w'.files = w.files) : call.Holds w' := by
  have hkeep : ∀ {stream : OutputStream} {n : ℕ}, w.Over ∧ (w.files stream).length ≤ n →
      w'.Over ∧ (w'.files stream).length ≤ n := by
    rintro stream n ⟨hover, hlen⟩
    obtain ⟨hover', hfiles⟩ := hw hover
    exact ⟨hover', hfiles ▸ hlen⟩
  cases call with
  | idle => trivial
  | opened q s => exact fun hf ↦ (hw (h hf)).1
  | sized q s size => exact fun hf ↦ hkeep (h hf)
  | answered chunk => exact fun he ↦ hkeep (h he)

/-- What a call is told holds when it is told. -/
theorem Asks.holds {codec : OutputCodec} {calls calls' : ℕ → ChunkCall}
    (ha : Asks codec w calls calls') (hw : w.snapshot.status.isFinished = true → w.Silent)
    (h : ∀ i, (calls i).Holds w) (i : ℕ) : (calls' i).Holds w := by
  have hset : ∀ (j : ℕ) (call : ChunkCall), call.Holds w →
      (Function.update calls j call i).Holds w := by
    intro j call hcall
    by_cases hij : i = j
    · rw [hij, Function.update_self]
      exact hcall
    · rw [Function.update_of_ne hij]
      exact h i
  cases ha with
  | snapshot j q _ => exact hset j _ fun hf ↦ ⟨hf, hw hf⟩
  | size j hj =>
    have hopened := h j
    rw [hj] at hopened
    exact hset j _ fun hf ↦ ⟨hopened hf, le_rfl⟩
  | answer j hj hc =>
    have hsized := h j
    rw [hj] at hsized
    refine hset j _ fun he ↦ ?_
    obtain ⟨hf, hsize⟩ := outputChunk_eof hc he
    obtain ⟨hover, hlen⟩ := hsized hf
    rw [outputChunk_stream hc]
    exact ⟨hover, hlen.trans hsize⟩

/-- An answer is not taken back. -/
theorem Asks.answered {codec : OutputCodec} {calls calls' : ℕ → ChunkCall} {i : ℕ}
    {chunk : OutputChunk} (ha : Asks codec w calls calls') (h : calls i = .answered chunk) :
    calls' i = .answered chunk := by
  have hne : ∀ {j : ℕ} (call : ChunkCall), calls j ≠ .answered chunk →
      Function.update calls j call i = .answered chunk := by
    intro j call hj
    rw [Function.update_of_ne (by rintro rfl; exact hj h)]
    exact h
  cases ha with
  | snapshot j q hj | size j hj | answer j hj _ => exact hne _ (by rw [hj]; exact nofun)

end

/-! ## Executions -/

section

variable {P : Platform} {route : ResolvedRoute} {line : TaskSnapshot → List UInt8}
  {codec : OutputCodec}

theorem watched_invariant :
    Invariant ((outputMachine P line codec).restrict ReportsQuietly fun _ _ ↦ True) (Moves P route)
      fun φ u ↦ Watched route φ u.1 ∧ ∀ i, (u.2 i).Holds u.1 where
  env φ u u' h he := by
    obtain ⟨hw, hcalls⟩ := h
    obtain ⟨⟨he, hsame⟩ | ⟨hsame, ha⟩, -⟩ := he
    · rw [hsame]
      exact ⟨hw.env he, fun i ↦ (hcalls i).step fun ho ↦ ho.env he⟩
    · rw [hsame]
      exact ⟨hw, ha.holds hw.silent hcalls⟩
  act φ o u r u' ψ h ha hm := by
    obtain ⟨hw, hcalls⟩ := h
    obtain ⟨⟨ha, hsame⟩, hq⟩ := ha
    rw [hsame]
    exact ⟨hw.act hm ha hq, fun i ↦ (hcalls i).step fun ho ↦ ho.act hw.facts hm ha⟩

theorem answered_run {α : Type} {A : (o : Op) → World × (ℕ → ChunkCall) → runner.Resp o → Prop}
    {E : World × (ℕ → ChunkCall) → World × (ℕ → ChunkCall) → Prop}
    {c c' : Task α × World × (ℕ → ChunkCall)} {i : ℕ} {chunk : OutputChunk}
    (hr : ((outputMachine P line codec).restrict A E).Run c c')
    (h : c.2.2 i = .answered chunk) : c'.2.2 i = .answered chunk := by
  induction hr with
  | refl => exact h
  | tail _ hs ih =>
    cases hs with
    | act ha =>
      rw [ha.1.2]
      exact ih
    | env he =>
      obtain ⟨⟨-, hsame⟩ | ⟨-, ha⟩, -⟩ := he
      · rw [hsame]
        exact ih
      · exact ha.answered ih

end

/-- **`eof` is final** when the error handler makes its change only while no reader is running. -/
theorem eof_final (P : Platform) (route : ResolvedRoute) (args : List String)
    (line : TaskSnapshot → List UInt8) (codec : OutputCodec) (w₀ : World) (hw : Fresh w₀)
    (c c' : Task Unit × World × (ℕ → ChunkCall))
    (hr : ((outputMachine P line codec).restrict ReportsQuietly fun _ _ ↦ True).Run
      (startTask P route args, (w₀, fun _ ↦ .idle)) c)
    (hr' : ((outputMachine P line codec).restrict ReportsQuietly fun _ _ ↦ True).Run c c')
    (i : ℕ) (chunk : OutputChunk) (hi : c.2.2 i = .answered chunk) (he : chunk.eof = true) :
    (c'.2.1.files chunk.stream).length ≤ chunk.nextOffset := by
  have hstart : Tracked (Moves P route) (fun φ (u : World × (ℕ → ChunkCall)) ↦
        Watched route φ u.1 ∧ ∀ i, (u.2 i).Holds u.1) (fun _ φ ↦ φ = .done)
      (startTask P route args, (w₀, fun _ ↦ .idle)) := by
    refine ⟨.starting, startTask_follows P route args, ⟨hw.facts, ?_, ?_⟩, fun _ ↦ trivial⟩
    · intro s _
      rw [hw.readers]
      exact nofun
    · intro hf
      rw [hw.status] at hf
      cases hf
  obtain ⟨φ, -, -, hcalls⟩ := watched_invariant.run hstart (hr.trans hr')
  have hi' := hcalls i
  rw [answered_run hr' hi] at hi'
  exact (hi' he).2

/-! ## Two executions -/

theorem run_asks {P : Platform} {line : TaskSnapshot → List UInt8} {codec : OutputCodec} {w : World}
    {A : (o : Op) → World × (ℕ → ChunkCall) → runner.Resp o → Prop} (p : Task Unit)
    {calls calls' : ℕ → ChunkCall} (h : Asks codec w calls calls') :
    ((outputMachine P line codec).restrict A fun _ _ ↦ True).Run (p, (w, calls))
      (p, (w, calls')) :=
  .single (.env ⟨.inr ⟨rfl, h⟩, trivial⟩)

/-- A call that nothing disturbs. -/
theorem run_call {P : Platform} {line : TaskSnapshot → List UInt8} {codec : OutputCodec} {w : World}
    {q : ChunkRequest} {chunk : OutputChunk}
    (hc : outputChunk codec q w.snapshot (w.files q.stream).length (w.files q.stream) = .ok chunk)
    {A : (o : Op) → World × (ℕ → ChunkCall) → runner.Resp o → Prop} (p : Task Unit) :
    ∃ calls, calls 0 = .answered chunk ∧
      ((outputMachine P line codec).restrict A fun _ _ ↦ True).Run (p, (w, fun _ ↦ .idle))
        (p, (w, calls)) := by
  let calls₁ : ℕ → ChunkCall := Function.update (fun _ ↦ .idle) 0 (.opened q w.snapshot)
  let calls₂ : ℕ → ChunkCall :=
    Function.update calls₁ 0 (.sized q w.snapshot (w.files q.stream).length)
  have hopen : Asks codec w (fun _ ↦ .idle) calls₁ := .snapshot 0 q rfl
  have hsize : Asks codec w calls₁ calls₂ := .size 0 (Function.update_self ..)
  have hanswer : Asks codec w calls₂ (Function.update calls₂ 0 (.answered chunk)) :=
    .answer 0 (Function.update_self ..) hc
  exact ⟨_, Function.update_self 0 _ calls₂,
    ((run_asks p hopen).trans (run_asks p hsize)).trans (run_asks p hanswer)⟩

/-- A decoder that is right about ASCII. -/
def exampleCodec : OutputCodec where
  usizeBits := 64
  decode _ data := (String.ofList (data.map fun b ↦ .ofNat b.toNat), false)
  base64 _ := ""

/-- A client asks for the first byte of the standard output. -/
def exampleRequest : ChunkRequest := ⟨exampleTask.taskId, .stdout, 0, 1⟩

/-- The answer of a failed task that has written nothing so far. -/
def exampleChunk : OutputChunk where
  success := true
  taskId := exampleTask.taskId
  stream := .stdout
  encoding := "utf-8"
  offset := 0
  nextOffset := 0
  eof := true
  content := ""
  decodingErrors := false
  contentBase64 := none

theorem exampleChunk_failed {w : World} (hfile : w.files .stdout = [])
    (hmode : w.snapshot.outputMode = .separate) (hencoding : w.snapshot.outputEncoding = .utf8)
    (hstatus : w.snapshot.status = .failed) :
    outputChunk exampleCodec exampleRequest w.snapshot (w.files exampleRequest.stream).length
      (w.files exampleRequest.stream) = .ok exampleChunk := by
  have hstream : exampleRequest.stream = .stdout := rfl
  rw [hstream, hfile]
  simp only [outputChunk, hmode, hencoding, chunkOf, hstatus]
  rfl

/-- The answer of a failed task that has printed two bytes. -/
def printedChunk : OutputChunk := { exampleChunk with nextOffset := 2, content := "ok" }

theorem printedChunk_failed {w : World} (hfile : w.files .stdout = [111, 107])
    (hmode : w.snapshot.outputMode = .separate) (hencoding : w.snapshot.outputEncoding = .utf8)
    (hstatus : w.snapshot.status = .failed) :
    outputChunk exampleCodec ⟨exampleTask.taskId, .stdout, 0, 1024⟩ w.snapshot
      (w.files .stdout).length (w.files .stdout) = .ok printedChunk := by
  rw [hfile]
  simp only [outputChunk, hmode, hencoding, chunkOf, hstatus]
  rfl

/-- The runner, as long as the error handler makes no change. -/
def ownMachine (P : Platform) (line : TaskSnapshot → List UInt8) : Machine runner World :=
  (taskMachine P line).restrict (fun o _ _ ↦ o.Own) fun _ _ ↦ True

theorem ownMachine_allows {P : Platform} {line : TaskSnapshot → List UInt8} :
    Allows P line (ownMachine P line) :=
  fun _ _ _ _ h _ hown ↦ ⟨h, hown⟩

/-- It reports nothing, so it reports quietly. -/
theorem run_own {P : Platform} {line : TaskSnapshot → List UInt8} {codec : OutputCodec}
    {p q : Task Unit} {w v : World} (h : (ownMachine P line).Run (p, w) (q, v))
    (calls : ℕ → ChunkCall) :
    ((outputMachine P line codec).restrict ReportsQuietly fun _ _ ↦ True).Run (p, (w, calls))
      (q, (v, calls)) := by
  let N := (outputMachine P line codec).restrict ReportsQuietly fun _ _ ↦ True
  have hact : ∀ o w r w' u, u = (w, calls) → (ownMachine P line).act o w r w' →
      ∃ u', N.act o u r u' ∧ u' = (w', calls) := by
    rintro o w r w' _ rfl ⟨ha, hown⟩
    exact ⟨(w', calls), ⟨⟨ha, rfl⟩, fun f ho ↦ absurd ho (hown f)⟩, rfl⟩
  have henv : ∀ w w' u, u = (w, calls) → (ownMachine P line).env w w' →
      ∃ u', N.env u u' ∧ u' = (w', calls) := by
    rintro w w' _ rfl ⟨he, -⟩
    exact ⟨(w', calls), ⟨.inl ⟨he, rfl⟩, trivial⟩, rfl⟩
  obtain ⟨_, hrun, rfl⟩ := h.simulate hact henv rfl
  exact hrun

/-- The script prints two bytes, its readers end, and waiting for the worker fails.  The client is
told that the output has ended, and the runner writes its event and is done. -/
theorem eof_final_printed :
    ∃ c c' : Task Unit × World × (ℕ → ChunkCall),
      ((outputMachine .unix snapshotCodec.line exampleCodec).restrict ReportsQuietly
        fun _ _ ↦ True).Run (startTask .unix exampleRoute [], (exampleWorld, fun _ ↦ .idle)) c ∧
      ((outputMachine .unix snapshotCodec.line exampleCodec).restrict ReportsQuietly
        fun _ _ ↦ True).Run c c' ∧
      c.2.2 0 = .answered printedChunk ∧ c'.1 = .ret () ∧ c'.2.1.files .stdout = [111, 107] ∧
      (c'.2.1.files printedChunk.stream).length ≤ printedChunk.nextOffset := by
  let N := (outputMachine .unix snapshotCodec.line exampleCodec).restrict ReportsQuietly
    fun _ _ ↦ True
  let e : String := "No child processes (os error 10)"
  let text : String := "等待 Worker 退出失败: No child processes (os error 10)"
  let w₁ := exampleWorld.looping snapshotCodec.line exampleRoute "2026-01-01T00:00:01Z"
  let w₂ : World := { w₁.append .stdout [111, 107] with worker := .exited (.exited 0) }
  let w₃ := (w₂.setReader .stdout (.ended (.ok ()))).setReader .stderr (.ended (.ok ()))
  let w₄ := w₃.reported .unix text "2026-01-01T00:00:02Z"
  have hloop : N.Run (startTask .unix exampleRoute [], (exampleWorld, fun _ ↦ .idle))
      (atMainLoop .unix exampleRoute, (w₁, fun _ ↦ .idle)) :=
    run_own (run_mainLoop ownMachine_allows "2026-01-01T00:00:01Z" exampleWorld) _
  have henv : ∀ {w w' : World} {p : Task Unit}, Surroundings .unix w w' →
      N.Step (p, (w, fun _ ↦ .idle)) (p, (w', fun _ ↦ .idle)) :=
    fun h ↦ .env ⟨.inl ⟨h, rfl⟩, trivial⟩
  have hread : N.Run (atMainLoop .unix exampleRoute, (w₁, fun _ ↦ .idle))
      (atMainLoop .unix exampleRoute, (w₃, fun _ ↦ .idle)) := by
    have hprint : Surroundings .unix w₁ (w₁.append .stdout [111, 107]) := .output [111, 107] rfl
    have hexit : Surroundings .unix (w₁.append .stdout [111, 107]) w₂ :=
      .workerExit (.exited 0) rfl fun _ ↦ rfl
    have hout : Surroundings .unix w₂ (w₂.setReader .stdout (.ended (.ok ()))) :=
      .readerEnds (.ok ()) rfl
    have herr : Surroundings .unix (w₂.setReader .stdout (.ended (.ok ()))) w₃ :=
      .readerEnds (.ok ()) rfl
    exact .head (henv hprint) (.head (henv hexit) (.head (henv hout) (.single (henv herr))))
  have hsilent : w₃.Silent := fun s ↦ by cases s <;> exact nofun
  have hwait : N.act .selectMain (w₃, fun _ ↦ .idle) (.exited (.error e)) (w₃, fun _ ↦ .idle) :=
    ⟨⟨rfl, rfl⟩, nofun⟩
  have hleave : N.act .leaveRunTask (w₃, fun _ ↦ .idle) () (w₃.left .unix, fun _ ↦ .idle) :=
    ⟨⟨rfl, rfl⟩, nofun⟩
  have hreport : N.act (.update .executorError (toExecutorError text))
      (w₃.left .unix, fun _ ↦ .idle) () (w₄, fun _ ↦ .idle) :=
    ⟨⟨⟨"2026-01-01T00:00:02Z", rfl⟩, rfl⟩, fun _ _ ↦ hsilent⟩
  obtain ⟨calls, h0, hcall⟩ := run_call (P := .unix) (w := w₄) (A := ReportsQuietly)
    (q := ⟨exampleTask.taskId, .stdout, 0, 1024⟩) (printedChunk_failed rfl rfl rfl rfl) afterReport
  have hrun : N.Run (startTask .unix exampleRoute [], (exampleWorld, fun _ ↦ .idle))
      (afterReport, (w₄, calls)) :=
    (hloop.trans hread).trans
      (.head (.act hwait) (.head (.act hleave) (.head (.act hreport) hcall)))
  have hpersist : N.act (.fallible .persist) (w₄, calls) (.ok ())
      (w₄.persisted snapshotCodec.line, calls) := ⟨⟨rfl, rfl⟩, nofun⟩
  have hmark : N.act .markFinished (w₄.persisted snapshotCodec.line, calls) ()
      ({ w₄.persisted snapshotCodec.line with marked := true }, calls) := ⟨⟨rfl, rfl⟩, nofun⟩
  have hdrop : N.act .dropStore ({ w₄.persisted snapshotCodec.line with marked := true }, calls) ()
      ({ w₄.persisted snapshotCodec.line with marked := true, storeHeld := false }, calls) :=
    ⟨⟨rfl, rfl⟩, nofun⟩
  have hlater : N.Run (afterReport, (w₄, calls)) (.ret (), _) :=
    .head (.act hpersist) (.head (.act hmark) (.single (.act hdrop)))
  exact ⟨_, _, hrun, hlater, h0, rfl, rfl, eof_final .unix exampleRoute [] _ _ exampleWorld
    exampleWorld_fresh _ _ hrun hlater 0 printedChunk h0 rfl⟩

/-- The event of the running task cannot be written: the task is reported as failed, the client is
told that its output has ended, and then the script writes a byte. -/
theorem eof_then_output :
    ∃ c c' : Task Unit × World × (ℕ → ChunkCall),
      (outputMachine .unix snapshotCodec.line exampleCodec).Run
        (startTask .unix exampleRoute [], (exampleWorld, fun _ ↦ .idle)) c ∧
      (outputMachine .unix snapshotCodec.line exampleCodec).Run c c' ∧
      c.2.2 0 = .answered exampleChunk ∧ exampleChunk.eof = true ∧
      exampleChunk.nextOffset < (c'.2.1.files exampleChunk.stream).length := by
  let w : World :=
    (exampleWorld.begun exampleRoute "2026-01-01T00:00:01Z").torn snapshotCodec.line 0
  let e : String := "No space left on device (os error 28)"
  let v : World := w.reported .unix e "2026-01-01T00:00:02Z"
  have hrun : (taskMachine .unix snapshotCodec.line).Run
      (startTask .unix exampleRoute [], exampleWorld) (afterReport, v) :=
    (run_persist_error e _ exampleWorld).trans (run_reportError e _ w)
  have hseen : (outputMachine .unix snapshotCodec.line exampleCodec).Run
      (startTask .unix exampleRoute [], (exampleWorld, fun _ ↦ .idle))
      (afterReport, (v, fun _ ↦ .idle)) :=
    (Machine.Run.observe (E := fun _ _ ↦ True) hrun _ fun _ _ ↦ trivial).of_restrict
  obtain ⟨calls, h0, hcall⟩ := run_call (P := .unix)
    (A := fun _ _ _ ↦ True) (exampleChunk_failed (w := v) rfl rfl rfl rfl) afterReport
  have hoc : Surroundings .unix v (v.append .stdout [120]) := .output [120] rfl
  refine ⟨_, (afterReport, (v.append .stdout [120], calls)), hseen.trans hcall.of_restrict,
    .single (.env (.inl ⟨hoc, rfl⟩)), h0, rfl, ?_⟩
  show 0 < 1
  decide

end CommandApi
