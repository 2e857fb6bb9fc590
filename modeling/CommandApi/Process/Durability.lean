import CommandApi.Process.Lifecycle
import CommandApi.Store.Reopen

/-!
# What a client has seen is kept

A transition makes the new snapshot visible before it appends the event, and leaves it visible when
the append fails.  So a client may be told that a task has finished by a process that then ends with
an older event at the end of the log, and the next process will call the task interrupted
(`terminal_status_lost`).

`terminal_status_durable` says that this is the only way: if every read that returns a finished
status happens when the last line of the log is whole and is the line of the snapshot that is
returned (`Saved`), then the status is kept, whatever is appended after that, wherever the process
ends, and however often the store is reopened.
-/

set_option autoImplicit false

namespace CommandApi

open Async Text Relation

/-! ## Logs that end with a status -/

/-- The two snapshots are of one task, in one status, reached at one time. -/
structure Agrees (e s : TaskSnapshot) : Prop where
  taskId : e.taskId = s.taskId
  status : e.status = s.status
  finishedAt : e.finishedAt = s.finishedAt

/-- Somewhere the log has a whole line that agrees with `s`, and behind it only pieces of such
lines. -/
def EndsWith (codec : LineCodec TaskSnapshot) (s : TaskSnapshot) (file : List UInt8) : Prop :=
  ∃ pre e ps, Clean pre ∧ file = pre ++ codec.line e ++ codec.pieces ps ∧ Agrees e s ∧
    ∀ p ∈ ps, Agrees p.1 s

section

variable {codec : LineCodec TaskSnapshot} {s e : TaskSnapshot} {file : List UInt8}

theorem EndsWith.append (h : EndsWith codec s file) (he : Agrees e s) (n : ℕ) :
    EndsWith codec s (file ++ (codec.line e).take n) := by
  obtain ⟨pre, e₀, ps, hpre, rfl, he₀, hps⟩ := h
  refine ⟨pre, e₀, ps ++ [(e, n)], hpre, ?_, he₀, ?_⟩
  · simp [LineCodec.pieces]
  · intro p hp
    rcases List.mem_append.mp hp with hp | hp
    · exact hps p hp
    · rw [List.mem_singleton.mp hp]
      exact he

/-- Such a log reads as an event that agrees with `s`. -/
theorem EndsWith.latest (h : EndsWith codec s file) {r : Option TaskSnapshot}
    (hr : codec.readLatest file = .ok r) : ∃ e, r = some e ∧ Agrees e s := by
  obtain ⟨pre, e₀, ps, hpre, rfl, he₀, hps⟩ := h
  have hclean : Clean (pre ++ codec.line e₀) := hpre.append (LineCodec.clean_line e₀)
  obtain ⟨latest, hlatest⟩ := LineCodec.exists_readLatest_of_append hclean hr
  have hsome := LineCodec.readLatest_append_line hpre hlatest
  rcases LineCodec.readLatest_pieces hclean hlatest hr with h | ⟨p, hp, h⟩
  · exact ⟨e₀, h.trans hsome, he₀⟩
  · exact ⟨p.1, h, hps p hp⟩

end

/-! ## Reads next to the runner -/

/-- `GET /tasks/{id}`: the client is shown the visible snapshot, and remembers it. -/
def Reads (w : World) (seen seen' : List TaskSnapshot) : Prop := seen' = w.visible :: seen

/-- The last line of the log is whole, and is the line of the visible snapshot. -/
def Saved (codec : LineCodec TaskSnapshot) (w : World) : Prop :=
  ∃ pre, Clean pre ∧ w.events = pre ++ codec.line w.visible

/-- A step of the environment that is no read, or a read that returns an unfinished status, or one
that returns what has been saved. -/
def ReadsSaved (codec : LineCodec TaskSnapshot) (u u' : World × List TaskSnapshot) : Prop :=
  u'.2 ≠ u.2 → u.1.visible.status.isFinished = true → Saved codec u.1

/-- The runner next to its surroundings and to clients that read its status. -/
def readMachine (P : Platform) (codec : LineCodec TaskSnapshot) :
    Machine runner (World × List TaskSnapshot) :=
  (taskMachine P codec.line).observe Reads

section

variable {P : Platform} {route : ResolvedRoute} {codec : LineCodec TaskSnapshot}
  {s : TaskSnapshot} {w w' : World}

/-- What a client has seen of a finished task is still visible, and the log ends with it. -/
def Kept (codec : LineCodec TaskSnapshot) (s : TaskSnapshot) (w : World) : Prop :=
  Agrees w.visible s ∧ EndsWith codec s w.events

theorem Saved.kept (h : Saved codec w) : Kept codec w.visible w := by
  obtain ⟨pre, hpre, he⟩ := h
  exact ⟨⟨rfl, rfl, rfl⟩, pre, w.visible, [], hpre, by simpa [LineCodec.pieces] using he,
    ⟨rfl, rfl, rfl⟩, by simp⟩

/-- A line that is written behind the end of a line is saved. -/
theorem saved_of_clean (h : Clean w.events) :
    Saved codec { w with events := w.events ++ codec.line w.visible } :=
  ⟨w.events, h, rfl⟩

/-- The environment keeps what has been seen. -/
theorem Kept.env (h : Kept codec s w) (he : Surroundings P w w') : Kept codec s w' := by
  obtain ⟨hsnap, hev⟩ := he.frame
  refine ⟨⟨?_, ?_, ?_⟩, hev ▸ h.2⟩
  · exact (congrArg TaskSnapshot.taskId hsnap).trans h.1.taskId
  · exact (congrArg TaskSnapshot.status hsnap).trans h.1.status
  · exact (congrArg TaskSnapshot.finishedAt hsnap).trans h.1.finishedAt

/-- The runner keeps what has been seen. -/
theorem Kept.act {φ ψ : Phase} {o : Op} {r : runner.Resp o} (h : Kept codec s w)
    (hs : s.status.isFinished = true) (hφ : Facts φ w.snapshot) (hm : Moves P route φ o r ψ)
    (ha : taskEffect P codec.line o w r w') : Kept codec s w' := by
  have hf : w.snapshot.status.isFinished = true :=
    (congrArg TaskStatus.isFinished h.1.status).trans hs
  obtain ⟨s₁, hc, hs₁⟩ := taskEffect_changes ha
  obtain rfl := finished_move hm hφ hf hc
  constructor
  · refine ⟨?_, ?_, ?_⟩
    · exact (congrArg TaskSnapshot.taskId hs₁).trans h.1.taskId
    · exact (congrArg TaskSnapshot.status hs₁).trans h.1.status
    · exact (congrArg TaskSnapshot.finishedAt hs₁).trans h.1.finishedAt
  · rcases taskEffect_events ha with he | ⟨n, he⟩
    · rw [he]
      exact h.2
    · rw [he]
      exact h.2.append h.1 n

/-- Everything a client has been told about a finished task is kept. -/
theorem kept_invariant :
    Invariant ((readMachine P codec).restrict (fun _ _ _ ↦ True) (ReadsSaved codec))
      (Moves P route)
      fun φ u ↦ Facts φ u.1.snapshot ∧
        ∀ s ∈ u.2, s.status.isFinished = true → Kept codec s u.1 where
  env φ u u' h he := by
    obtain ⟨hfacts, hkept⟩ := h
    obtain ⟨he | ⟨hw, hread⟩, hsaved⟩ := he
    · obtain ⟨he, hseen⟩ := he
      refine ⟨he.frame.1 ▸ hfacts, fun s hs hf ↦ ?_⟩
      exact (hkept s (hseen ▸ hs) hf).env he
    · rw [hw]
      refine ⟨hfacts, fun s hs hf ↦ ?_⟩
      rw [hread] at hs
      rcases List.mem_cons.mp hs with rfl | hs
      · exact (hsaved (by rw [hread]; exact List.cons_ne_self _ _) hf).kept
      · exact hkept s hs hf
  act φ o u r u' ψ h ha hm := by
    obtain ⟨hfacts, hkept⟩ := h
    obtain ⟨⟨ha, hseen⟩, -⟩ := ha
    refine ⟨facts_invariant.act φ o u.1 r u'.1 ψ hfacts ha hm, fun s hs hf ↦ ?_⟩
    rw [hseen] at hs
    exact (hkept s hs hf).act hf hfacts hm ha

end

/-! ## Reopening -/

section

variable {codec : LineCodec TaskSnapshot} {parse : String → Option ℤ} {retention : ℕ}
  {name : String} {s : TaskSnapshot} {dir dir' : TaskDir} {store : TaskStore}

/-- A directory whose log ends with a finished status. -/
def DirEndsWith (codec : LineCodec TaskSnapshot) (s : TaskSnapshot) (dir : TaskDir) : Prop :=
  ∃ file, dir.events = some file ∧ EndsWith codec s file

theorem Agrees.shown {e : TaskSnapshot} (h : Agrees e s) (hf : s.status.isFinished = true)
    (now : String) : Agrees (shown now e) s := by
  rw [shown_of_isFinished (by rw [h.status]; exact hf)]
  exact ⟨h.taskId, h.status, h.finishedAt⟩

theorem DirEndsWith.recoveredDir {e : TaskSnapshot} (h : DirEndsWith codec s dir)
    (he : Agrees e s) (hf : s.status.isFinished = true) (now : String) :
    DirEndsWith codec s (recoveredDir codec now dir e) := by
  obtain ⟨file, hfile, hends⟩ := h
  rw [CommandApi.recoveredDir]
  split
  · have hline := hends.append (he.shown hf now) (codec.line (shown now e)).length
    rw [List.take_length] at hline
    exact ⟨_, by rw [TaskDir.persist, hfile, Option.getD_some, recoverRecord_visible], hline⟩
  · exact ⟨file, hfile, hends⟩

/-- Reopening shows the status, and leaves it at the end of the log. -/
theorem DirEndsWith.reopens (h : DirEndsWith codec s dir) (hf : s.status.isFinished = true)
    (ho : Reopens codec parse retention name s dir store dir') :
    (∀ now, ∃ v, store.view parse now s.taskId = some v ∧ v.task.status = s.status) ∧
      DirEndsWith codec s dir' := by
  obtain ⟨o, disk, disk', hd, hopen, hexp, hm⟩ := ho
  obtain ⟨rs, hrs, -⟩ := openStore_inv hopen
  obtain ⟨latest, hlatest⟩ := recoverTask_ok_of_mem hrs hd.mem
  obtain ⟨file, hfile, hends⟩ := h
  have hread : codec.readLatest file = .ok latest := by
    rwa [readLatestSnapshot, hfile] at hlatest
  obtain ⟨e, rfl, he⟩ := hends.latest hread
  have hfin : interruptUnfinished (o.clock name) e = e :=
    interruptUnfinished_of_isFinished (by rw [he.status]; exact hf) _
  have hexp' : expired parse retention o.now
      (recoverRecord (o.clock name) dir e).snapshot = false := by
    rw [recoverRecord_snapshot, hfin, expired, he.finishedAt]
    exact hexp
  obtain ⟨hget, hdir⟩ := openStore_get hd hopen (recoverTask_of_ok hlatest)
    ((recoverRecord_id ..).trans he.taskId) hexp'
  refine ⟨fun now ↦ ⟨_, by rw [TaskStore.view, hget, Option.map_some], ?_⟩, ?_⟩
  · exact (he.shown hf (o.clock name)).status
  · rw [hdir dir' hm]
    exact DirEndsWith.recoveredDir ⟨file, hfile, hends⟩ he hf _

theorem DirEndsWith.cycles (h : DirEndsWith codec s dir) (hf : s.status.isFinished = true)
    (hc : Cycles codec parse retention name s dir dir') : DirEndsWith codec s dir' := by
  induction hc with
  | refl => exact h
  | tail _ hs ih =>
    obtain ⟨store, ho⟩ := hs
    exact (ih.reopens hf ho).2

end

/-- **A finished status that was saved when a client saw it is never lost.** -/
theorem terminal_status_durable (P : Platform) (route : ResolvedRoute) (args : List String)
    (codec : LineCodec TaskSnapshot) (w₀ : World) (hw : Fresh w₀)
    (c : Task Unit × World × List TaskSnapshot)
    (hr : ((readMachine P codec).restrict (fun _ _ _ ↦ True) (ReadsSaved codec)).Run
      (startTask P route args, (w₀, [])) c)
    (s : TaskSnapshot) (hs : s ∈ c.2.2) (hf : s.status.isFinished = true)
    (output : OutputStream → Option (List UInt8)) (parse : String → Option ℤ) (retention : ℕ)
    (name : String) (dir dir' : TaskDir) (store : TaskStore)
    (hc : Cycles codec parse retention name s ⟨some c.2.1.events, output⟩ dir)
    (ho : Reopens codec parse retention name s dir store dir') (now : ℤ) :
    ∃ v, store.view parse now s.taskId = some v ∧ v.task.status = s.status := by
  have hstart : Tracked (Moves P route)
      (fun φ (u : World × List TaskSnapshot) ↦ Facts φ u.1.snapshot ∧
        ∀ s ∈ u.2, s.status.isFinished = true → Kept codec s u.1) (fun _ φ ↦ φ = .done)
      (startTask P route args, (w₀, [])) :=
    ⟨.starting, startTask_follows P route args, hw.facts, by simp⟩
  obtain ⟨φ, -, -, hkept⟩ := kept_invariant.run hstart hr
  have hends : DirEndsWith codec s ⟨some c.2.1.events, output⟩ := ⟨_, rfl, (hkept s hs hf).2⟩
  exact ((hends.cycles hf hc).reopens hf ho).1 now

/-! ## Two executions

The runner cannot make the pipe for the output, and reports the task as failed. -/

/-- The task is visible as failed, and the event is not written. -/
def exampleReported : World :=
  exampleWorld.reported .unix "Too many open files (os error 24)" "2026-01-01T00:00:02Z"

/-- The event is written. -/
def exampleSaved : World :=
  { exampleReported with
    events := exampleReported.events ++ snapshotCodec.line exampleReported.visible }

theorem exampleReported_events : exampleReported.events = snapshotCodec.line exampleTask := rfl

theorem exampleSaved_visible : exampleSaved.visible = exampleReported.visible := by
  simp only [World.visible, exampleSaved]

theorem exampleSaved_saved : Saved snapshotCodec exampleSaved := by
  refine saved_of_clean ?_
  rw [exampleReported_events]
  exact LineCodec.clean_line exampleTask

theorem run_exampleReported : (taskMachine .unix snapshotCodec.line).Run
    (startTask .unix exampleRoute [], exampleWorld) (afterReport, exampleReported) :=
  (run_pipe_error _ exampleWorld).trans (run_reportError _ _ exampleWorld)

theorem run_exampleSaved : (taskMachine .unix snapshotCodec.line).Run
    (startTask .unix exampleRoute [], exampleWorld)
    (perform .markFinished >>= fun _ ↦ perform .dropStore, exampleSaved) :=
  run_exampleReported.trans (run_afterReport exampleReported)

/-- The directory the process leaves behind. -/
def exampleLeft (w : World) : TaskDir := ⟨some w.events, fun _ ↦ some []⟩

theorem latest_exampleReported :
    readLatestSnapshot snapshotCodec (exampleLeft exampleReported) = .ok (some exampleTask) := by
  rw [exampleLeft, readLatestSnapshot_some, exampleReported_events]
  exact LineCodec.readLatest_line exampleTask

theorem latest_exampleSaved :
    readLatestSnapshot snapshotCodec (exampleLeft exampleSaved) =
      .ok (some exampleReported.visible) := by
  have hlines : exampleSaved.events =
      [exampleTask, exampleReported.visible].flatMap snapshotCodec.line := by
    rw [exampleSaved, exampleReported_events]
    simp
  rw [exampleLeft, readLatestSnapshot_some, hlines, LineCodec.readLatest_lines]
  rfl

/-- A client that reads the status after the event was written. -/
theorem terminal_status_durable_failed :
    ∃ store dir' v, Reopens snapshotCodec (fun _ ↦ none) 3600 "task" exampleSaved.visible
        (exampleLeft exampleSaved) store dir' ∧
      store.view (fun _ ↦ none) 0 exampleSaved.visible.taskId = some v ∧
      v.task.status = .failed := by
  have hrun : ((readMachine .unix snapshotCodec).restrict (fun _ _ _ ↦ True)
      (ReadsSaved snapshotCodec)).Run (startTask .unix exampleRoute [], (exampleWorld, [])) _ :=
    Machine.Run.observe run_exampleSaved [] fun _ _ h ↦ absurd rfl h
  have hread : ((readMachine .unix snapshotCodec).restrict (fun _ _ _ ↦ True)
      (ReadsSaved snapshotCodec)).env (exampleSaved, []) (exampleSaved, [exampleSaved.visible]) :=
    ⟨.inr ⟨rfl, rfl⟩, fun _ _ ↦ exampleSaved_saved⟩
  obtain ⟨store, dir', ho, -⟩ := exists_reopens (fun _ ↦ none) 3600 "task" 0 ""
    (s := exampleReported.visible) latest_exampleSaved rfl rfl rfl
  rw [← exampleSaved_visible] at ho
  obtain ⟨v, hv, hstatus⟩ := terminal_status_durable .unix exampleRoute [] snapshotCodec
    exampleWorld exampleWorld_fresh _ (hrun.tail (.env hread)) exampleSaved.visible
    List.mem_cons_self rfl (fun _ ↦ some []) _ _ _ _ dir' store .refl ho 0
  exact ⟨store, dir', v, ho, hv, hstatus⟩

/-- A client that reads the status before the event is written, and a process that ends there. -/
theorem terminal_status_lost :
    ∃ c s store dir' v, (readMachine .unix snapshotCodec).Run
        (startTask .unix exampleRoute [], (exampleWorld, [])) c ∧
      s ∈ c.2.2 ∧ s.status = .failed ∧
      Reopens snapshotCodec (fun _ ↦ none) 3600 "task" s (exampleLeft c.2.1) store dir' ∧
      store.view (fun _ ↦ none) 0 s.taskId = some v ∧ v.task.status = .interrupted := by
  have hrun : (readMachine .unix snapshotCodec).Run
      (startTask .unix exampleRoute [], (exampleWorld, [])) _ :=
    (Machine.Run.observe (E := fun _ _ ↦ True) run_exampleReported [] fun _ _ ↦ trivial).of_restrict
  have hread : (readMachine .unix snapshotCodec).env (exampleReported, [])
      (exampleReported, [exampleReported.visible]) := .inr ⟨rfl, rfl⟩
  obtain ⟨store, dir', ho, hv⟩ := exists_reopens (fun _ ↦ none) 3600 "task" 0 "2026-01-01T00:01:00Z"
    (s := exampleReported.visible) latest_exampleReported rfl rfl rfl
  exact ⟨_, exampleReported.visible, store, dir', _, hrun.tail (.env hread), List.mem_cons_self,
    rfl, ho, hv 0, rfl⟩

end CommandApi
