import Mathlib
import CommandApi.Store.Events

/-!
# Opening the store

`src/store.rs`: the records of the store and how they are rebuilt from the task directories when the
store is opened.  A directory holds the event log and the output files; a record holds the snapshot
and, beside it, what is kept in atomics (the byte counters and the truncation flag), which `recover`
rebuilds from defaults and file sizes.

A disk is the listing of `root/tasks` in the order `read_dir` gives it; an entry that is not a
directory is `none`.  Reading the clock is an argument: each directory is visited once, so a clock
that may answer anything for each directory covers every run.  The lock on the log directory is the
subject of `CommandApi.Server.Restart`; here it is free.
-/

set_option autoImplicit false

namespace CommandApi

open Text

/-! ## Records -/

/-- A task directory. -/
structure TaskDir where
  /-- `events.jsonl`, if it exists. -/
  events : Option (List UInt8)
  output : OutputStream → Option (List UInt8)

/-- The listing of `root/tasks`. -/
abbrev Disk := List (String × Option TaskDir)

structure TaskRecord where
  id : Uuid
  snapshot : TaskSnapshot
  stdoutBytes : ℕ
  stderrBytes : ℕ
  combinedBytes : ℕ
  capturedBytes : ℕ
  outputTruncated : Bool
  deriving DecidableEq

namespace TaskRecord

/-- `TaskRecord::new`. -/
def new (snapshot : TaskSnapshot) : TaskRecord where
  id := snapshot.taskId
  snapshot
  stdoutBytes := 0
  stderrBytes := 0
  combinedBytes := 0
  capturedBytes := 0
  outputTruncated := false

/-- `TaskRecord::snapshot`: the snapshot with the flag of the record. -/
def visible (r : TaskRecord) : TaskSnapshot :=
  { r.snapshot with outputTruncated := r.outputTruncated }

def links (r : TaskRecord) : TaskLinks :=
  let base := s!"/tasks/{r.id.text}"
  match r.visible.outputMode with
  | .separate =>
    { status := base
      stdout := some s!"{base}/output?stream=stdout"
      stderr := some s!"{base}/output?stream=stderr"
      combined := none
      cancel := s!"{base}/cancel"
      kill := s!"{base}/kill" }
  | .combined =>
    { status := base
      stdout := none
      stderr := none
      combined := some s!"{base}/output?stream=combined"
      cancel := s!"{base}/cancel"
      kill := s!"{base}/kill" }

def outputBytes (r : TaskRecord) : OutputSizes :=
  match r.visible.outputMode with
  | .separate =>
    { stdout := some r.stdoutBytes, stderr := some r.stderrBytes, combined := none }
  | .combined => { stdout := none, stderr := none, combined := some r.combinedBytes }

/-- `TaskRecord::view`.  `parse` and `now` are the clock of `elapsedMs`. -/
def view (parse : String → Option ℤ) (now : ℤ) (r : TaskRecord) : TaskView where
  success := r.visible.status == .succeeded
  task := r.visible
  durationMs := elapsedMs parse now (r.visible.startedAt.getD r.visible.createdAt)
    r.visible.finishedAt
  outputBytes := r.outputBytes
  links := r.links

/-- `refresh_output_sizes`: a file whose size cannot be read leaves its counter alone. -/
def refreshOutputSizes (dir : TaskDir) (r : TaskRecord) : TaskRecord :=
  let size := fun stream ↦ (dir.output stream).map List.length
  let total := [OutputStream.stdout, .stderr, .combined].foldl
    (fun total stream ↦ min (total + (size stream).getD 0) (2 ^ 64 - 1)) 0
  { r with
    stdoutBytes := (size .stdout).getD r.stdoutBytes
    stderrBytes := (size .stderr).getD r.stderrBytes
    combinedBytes := (size .combined).getD r.combinedBytes
    capturedBytes := total }

end TaskRecord

/-! ## Recovery -/

variable (codec : LineCodec TaskSnapshot)

/-- `read_latest_snapshot`: no file, no snapshot. -/
def readLatestSnapshot (dir : TaskDir) : Except String (Option TaskSnapshot) :=
  match dir.events with
  | none => .ok none
  | some file => codec.readLatest file

/-- `TaskRecord::persist`, when the write succeeds. -/
def TaskDir.persist (r : TaskRecord) (dir : TaskDir) : TaskDir :=
  { dir with events := some (dir.events.getD [] ++ codec.line r.visible) }

/-- What `recover` makes of a snapshot that is not finished. -/
def interruptUnfinished (now : String) (s : TaskSnapshot) : TaskSnapshot :=
  if s.status.isFinished then s
  else
    { s with
      status := .interrupted
      finishedAt := some now
      error := some "服务重启时任务仍处于未完成状态" }

/-- The record `recover` builds from a snapshot. -/
def recoverRecord (now : String) (dir : TaskDir) (s : TaskSnapshot) : TaskRecord :=
  (TaskRecord.new (interruptUnfinished now s)).refreshOutputSizes dir

/-- The body of the loop of `recover`: the record of a directory, and the directory as it is left.
An interrupted task is written back. -/
def recoverTask (now : String) (dir : TaskDir) : Except String (Option (TaskRecord × TaskDir)) :=
  match readLatestSnapshot codec dir with
  | .error e => .error e
  | .ok none => .ok none
  | .ok (some s) =>
    let r := recoverRecord now dir s
    .ok (some (r, if r.snapshot.status = .interrupted then dir.persist codec r else dir))

/-- `recoverTask` at an entry of the listing; what is not a directory is passed over. -/
def recoverEntry (clock : String → String) :
    String × Option TaskDir → Except String (Option TaskRecord × Option TaskDir)
  | (_, none) => .ok (none, none)
  | (name, some dir) => match recoverTask codec (clock name) dir with
    | .error e => .error e
    | .ok none => .ok (none, some dir)
    | .ok (some (r, dir')) => .ok (some r, some dir')

/-- `TaskStore::recover`: the disk as it is left, and the records in the order they were found, each
with the name of its directory.  The first directory that cannot be read ends the recovery; what has
been written before that stays. -/
def recover (clock : String → String) : Disk → Disk × Except String (List (String × TaskRecord))
  | [] => ([], .ok [])
  | entry :: disk => match recoverEntry codec clock entry with
    | .error e => (entry :: disk, .error e)
    | .ok (r, dir) =>
      ((entry.1, dir) :: (recover clock disk).1,
        (recover clock disk).2.map fun rs ↦ (r.toList.map fun r ↦ (entry.1, r)) ++ rs)

variable {codec}

theorem readLatestSnapshot_some (file : List UInt8) (output : OutputStream → Option (List UInt8)) :
    readLatestSnapshot codec ⟨some file, output⟩ = codec.readLatest file := rfl

/-! ### What is written is read -/

/-- A record that shows this snapshot. -/
def TaskRecord.showing (s : TaskSnapshot) : TaskRecord :=
  { TaskRecord.new s with outputTruncated := s.outputTruncated }

theorem TaskRecord.visible_showing (s : TaskSnapshot) : (showing s).visible = s := rfl

/-- The directory of a task after these snapshots have been persisted, one after the other. -/
def TaskDir.persistAll (codec : LineCodec TaskSnapshot) (es : List TaskSnapshot)
    (dir : TaskDir) : TaskDir :=
  es.foldl (fun dir s ↦ dir.persist codec (.showing s)) dir

theorem TaskDir.persistAll_some (es : List TaskSnapshot) (file : List UInt8)
    (output : OutputStream → Option (List UInt8)) :
    TaskDir.persistAll codec es ⟨some file, output⟩ =
      ⟨some (file ++ es.flatMap codec.line), output⟩ := by
  induction es generalizing file with
  | nil => rw [List.flatMap_nil, List.append_nil]; rfl
  | cons e es ih =>
    have hstep : TaskDir.persist codec (.showing e) ⟨some file, output⟩ =
        ⟨some (file ++ codec.line e), output⟩ := by
      rw [persist, TaskRecord.visible_showing, Option.getD_some]
    rw [persistAll, List.foldl_cons, hstep, ← persistAll, ih, List.flatMap_cons, List.append_assoc]

/-- **A log that was written without a crash reads back as its last snapshot**, whatever is in the
snapshots. -/
theorem readLatestSnapshot_persistAll (es : List TaskSnapshot) (hes : es ≠ [])
    (output : OutputStream → Option (List UInt8)) :
    readLatestSnapshot snapshotCodec (TaskDir.persistAll snapshotCodec es ⟨none, output⟩) =
      .ok (some (es.getLast hes)) := by
  cases es with
  | nil => exact absurd rfl hes
  | cons e es =>
    -- the first line makes the file, the others are appended to it
    have hdir : TaskDir.persistAll snapshotCodec (e :: es) ⟨none, output⟩ =
        ⟨some ((e :: es).flatMap snapshotCodec.line), output⟩ :=
      TaskDir.persistAll_some es (snapshotCodec.line e) output
    rw [hdir, readLatestSnapshot_some, LineCodec.readLatest_lines,
      List.getLast?_eq_some_getLast hes]

/-- A snapshot whose texts have line breaks, quotes and control characters in them. -/
def awkwardTask : TaskSnapshot :=
  { exampleTask with
    route := "/jobs/\"\\"
    status := .timedOut
    outputEncoding := .utf16le
    exitCode := some (-2147483648)
    termination := some
      { reason := .forceKilled
        gracefulAttempted := true
        forced := true
        method := "\x00\x1f\x7f"
        signal := none
        message := some "a\r\nb\n" }
    error := some "\n\x7b\u2028😀"
    outputTruncated := true }

theorem readLatestSnapshot_persistAll_awkward :
    readLatestSnapshot snapshotCodec
        (TaskDir.persistAll snapshotCodec [exampleTask, awkwardTask] ⟨none, fun _ ↦ none⟩) =
      .ok (some awkwardTask) :=
  readLatestSnapshot_persistAll [exampleTask, awkwardTask] (by simp) _

/-! ### What is recovered -/

@[simp] theorem recoverRecord_snapshot (now : String) (dir : TaskDir) (s : TaskSnapshot) :
    (recoverRecord now dir s).snapshot = interruptUnfinished now s := rfl

theorem recoverRecord_id (now : String) (dir : TaskDir) (s : TaskSnapshot) :
    (recoverRecord now dir s).id = s.taskId := by
  change (interruptUnfinished now s).taskId = s.taskId
  rw [interruptUnfinished]
  split <;> rfl

/-- A recovered record shows its snapshot with the flag cleared. -/
def shown (now : String) (s : TaskSnapshot) : TaskSnapshot :=
  { interruptUnfinished now s with outputTruncated := false }

@[simp] theorem recoverRecord_visible (now : String) (dir : TaskDir) (s : TaskSnapshot) :
    (recoverRecord now dir s).visible = shown now s := rfl

@[simp] theorem interruptUnfinished_of_isFinished {s : TaskSnapshot}
    (h : s.status.isFinished = true) (now : String) : interruptUnfinished now s = s := by
  rw [interruptUnfinished, if_pos h]

theorem interruptUnfinished_status_of_not {s : TaskSnapshot} (h : s.status.isFinished = false)
    (now : String) : (interruptUnfinished now s).status = .interrupted := by
  rw [interruptUnfinished, h]
  rfl

theorem interruptUnfinished_isFinished (now : String) (s : TaskSnapshot) :
    (interruptUnfinished now s).status.isFinished = true := by
  rw [interruptUnfinished]
  split
  · assumption
  · rfl

@[simp] theorem interruptUnfinished_shown (now now' : String) (s : TaskSnapshot) :
    interruptUnfinished now (shown now' s) = shown now' s :=
  interruptUnfinished_of_isFinished (s := shown now' s) (interruptUnfinished_isFinished now' s) now

@[simp] theorem shown_shown (now now' : String) (s : TaskSnapshot) :
    shown now (shown now' s) = shown now' s := by
  rw [shown, interruptUnfinished_shown]
  rfl

theorem shown_of_isFinished {s : TaskSnapshot} (h : s.status.isFinished = true) (now : String) :
    shown now s = { s with outputTruncated := false } := by
  rw [shown, interruptUnfinished_of_isFinished h]

theorem shown_finishedAt_of_not {s : TaskSnapshot} (h : s.status.isFinished = false)
    (now : String) : (shown now s).finishedAt = some now := by
  rw [shown, interruptUnfinished, h]
  rfl

/-- The directory as `recover` leaves it when the latest snapshot is `s`. -/
def recoveredDir (codec : LineCodec TaskSnapshot) (now : String) (dir : TaskDir)
    (s : TaskSnapshot) : TaskDir :=
  if (interruptUnfinished now s).status = .interrupted
    then dir.persist codec (recoverRecord now dir s) else dir

theorem recoverTask_of_ok {now : String} {dir : TaskDir} {s : TaskSnapshot}
    (h : readLatestSnapshot codec dir = .ok (some s)) :
    recoverTask codec now dir =
      .ok (some (recoverRecord now dir s, recoveredDir codec now dir s)) := by
  rw [recoverTask, h]
  rfl

theorem recoverTask_inv {now : String} {dir dir' : TaskDir} {r : TaskRecord}
    (h : recoverTask codec now dir = .ok (some (r, dir'))) :
    ∃ s, readLatestSnapshot codec dir = .ok (some s) ∧ r = recoverRecord now dir s ∧
      dir' = recoveredDir codec now dir s := by
  cases hl : readLatestSnapshot codec dir with
  | error e => rw [recoverTask, hl] at h; exact absurd h (by simp)
  | ok latest =>
    cases latest with
    | none => rw [recoverTask, hl] at h; exact absurd h (by simp)
    | some s =>
      rw [recoverTask_of_ok hl] at h
      obtain ⟨rfl, rfl⟩ : recoverRecord now dir s = r ∧ recoveredDir codec now dir s = dir' := by
        simpa using h
      exact ⟨s, rfl, rfl, rfl⟩

theorem recover_cons_of_ok {clock : String → String} {entry : String × Option TaskDir}
    {out : Option TaskRecord × Option TaskDir} (h : recoverEntry codec clock entry = .ok out)
    (disk : Disk) :
    recover codec clock (entry :: disk) = ((entry.1, out.2) :: (recover codec clock disk).1,
      (recover codec clock disk).2.map fun rs ↦ (out.1.toList.map fun r ↦ (entry.1, r)) ++ rs) := by
  rw [recover, h]

/-- What a successful recovery has done with its first entry. -/
theorem recover_cons_inv {clock : String → String} {entry : String × Option TaskDir} {disk : Disk}
    {rs : List (String × TaskRecord)} (h : (recover codec clock (entry :: disk)).2 = .ok rs) :
    ∃ out rs', recoverEntry codec clock entry = .ok out ∧
      (recover codec clock disk).2 = .ok rs' ∧
      rs = (out.1.toList.map fun r ↦ (entry.1, r)) ++ rs' := by
  cases he : recoverEntry codec clock entry with
  | error e => rw [recover, he] at h; exact absurd h (by simp)
  | ok out =>
    rw [recover_cons_of_ok he] at h
    cases hd : (recover codec clock disk).2 with
    | error e => simp [hd, Except.map] at h
    | ok rs' =>
      simp only [hd, Except.map, Except.ok.injEq] at h
      exact ⟨out, rs', rfl, rfl, h.symm⟩

theorem recoverEntry_some {clock : String → String} {name : String} {dir dir' : TaskDir}
    {r : TaskRecord} (h : recoverTask codec (clock name) dir = .ok (some (r, dir'))) :
    recoverEntry codec clock (name, some dir) = .ok (some r, some dir') := by
  rw [recoverEntry, h]

/-- A record comes from a directory. -/
theorem recoverEntry_inv {clock : String → String} {entry : String × Option TaskDir}
    {r : TaskRecord} {dir : Option TaskDir}
    (h : recoverEntry codec clock entry = .ok (some r, dir)) :
    ∃ dir₀ dir', entry.2 = some dir₀ ∧
      recoverTask codec (clock entry.1) dir₀ = .ok (some (r, dir')) := by
  match entry with
  | (_, none) => exact absurd h (by simp [recoverEntry])
  | (name, some dir₀) =>
    rw [recoverEntry] at h
    split at h
    · exact absurd h (by simp)
    · exact absurd h (by simp)
    · rename_i r' dir' hr
      obtain ⟨rfl, -⟩ : r' = r ∧ _ := by simpa using h
      exact ⟨dir₀, dir', rfl, hr⟩

/-- One directory does not affect how the others are recovered. -/
theorem recover_append {clock : String → String} {disk₁ disk₂ : Disk}
    {rs₁ rs₂ : List (String × TaskRecord)} (h₁ : (recover codec clock disk₁).2 = .ok rs₁)
    (h₂ : (recover codec clock disk₂).2 = .ok rs₂) :
    (recover codec clock (disk₁ ++ disk₂)).2 = .ok (rs₁ ++ rs₂) := by
  induction disk₁ generalizing rs₁ with
  | nil =>
    obtain rfl : [] = rs₁ := Except.ok.inj h₁
    exact h₂
  | cons entry disk ih =>
    obtain ⟨out, rs, he, hd, rfl⟩ := recover_cons_inv h₁
    rw [List.cons_append, recover_cons_of_ok he, ih hd, List.append_assoc]
    rfl

/-- Every directory that has a snapshot is loaded. -/
theorem recover_mem {clock : String → String} {disk : Disk} {rs : List (String × TaskRecord)}
    (h : (recover codec clock disk).2 = .ok rs) {name : String} {dir : TaskDir}
    (hm : (name, some dir) ∈ disk) {r : TaskRecord} {dir' : TaskDir}
    (hr : recoverTask codec (clock name) dir = .ok (some (r, dir'))) :
    (name, r) ∈ rs ∧ (name, some dir') ∈ (recover codec clock disk).1 := by
  induction disk generalizing rs with
  | nil => exact absurd hm (by simp)
  | cons entry disk ih =>
    obtain ⟨out, rs', he, hd, rfl⟩ := recover_cons_inv h
    rw [recover_cons_of_ok he]
    rcases List.mem_cons.mp hm with rfl | hm
    · rw [recoverEntry_some hr] at he
      rw [← Except.ok.inj he]
      exact ⟨by simp, by simp⟩
    · obtain ⟨hin, hin'⟩ := ih hd hm
      exact ⟨List.mem_append_right _ hin, List.mem_cons_of_mem _ hin'⟩

/-- A recovery that succeeds has read every directory. -/
theorem recoverTask_ok_of_mem {clock : String → String} {disk : Disk}
    {rs : List (String × TaskRecord)} (h : (recover codec clock disk).2 = .ok rs) {name : String}
    {dir : TaskDir} (hm : (name, some dir) ∈ disk) :
    ∃ latest, readLatestSnapshot codec dir = .ok latest := by
  induction disk generalizing rs with
  | nil => exact absurd hm (by simp)
  | cons entry disk ih =>
    obtain ⟨out, rs', he, hd, rfl⟩ := recover_cons_inv h
    rcases List.mem_cons.mp hm with rfl | hm
    · rw [recoverEntry, recoverTask] at he
      cases hl : readLatestSnapshot codec dir with
      | error e => rw [hl] at he; exact absurd he (by simp)
      | ok latest => exact ⟨latest, rfl⟩
    · exact ih hd hm

/-- Every record comes from a directory. -/
theorem exists_of_mem_recover {clock : String → String} {disk : Disk}
    {rs : List (String × TaskRecord)} (h : (recover codec clock disk).2 = .ok rs) {name : String}
    {r : TaskRecord} (hm : (name, r) ∈ rs) :
    ∃ dir dir', (name, some dir) ∈ disk ∧
      recoverTask codec (clock name) dir = .ok (some (r, dir')) := by
  induction disk generalizing rs with
  | nil =>
    obtain rfl : [] = rs := Except.ok.inj h
    exact absurd hm (by simp)
  | cons entry disk ih =>
    obtain ⟨⟨out, dir⟩, rs', he, hd, rfl⟩ := recover_cons_inv h
    rcases List.mem_append.mp hm with hm | hm
    · obtain ⟨r', hr', heq⟩ := List.mem_map.mp hm
      obtain ⟨rfl, rfl⟩ : entry.1 = name ∧ r' = r := by simpa using heq
      obtain rfl : out = some r' := by simpa using hr'
      obtain ⟨dir₀, dir', hdir, hr⟩ := recoverEntry_inv he
      exact ⟨dir₀, dir', by rw [← hdir]; exact List.mem_cons_self, hr⟩
    · obtain ⟨dir, dir', hin, hr⟩ := ih hd hm
      exact ⟨dir, dir', List.mem_cons_of_mem entry hin, hr⟩

end CommandApi
