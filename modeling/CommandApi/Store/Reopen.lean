import Mathlib
import CommandApi.Store.Recovery

/-!
# Closing and reopening the store

`TaskStore::open` recovers the tasks and removes those whose retention is over.  `Reopens` is any
number of such cycles as one task sees them: between two of them the other directories may have
changed in any way, and this one has not.

`view_reopen_iff`: a finished task whose events and output were all written looks the same after
every one of them, and its log still ends with the same snapshot, exactly if its output was not
truncated.  The flag is part of the snapshot in the log, but a record shows the one beside it, which
`recover` starts at `false` — and an interrupted task is written back with it.
-/

set_option autoImplicit false

namespace CommandApi

open Text Relation

/-! ## `TaskStore::open` -/

structure TaskStore where
  /-- The tasks, with the names of their directories, the latest insertion last. -/
  tasks : List (String × TaskRecord)

namespace TaskStore

def get (store : TaskStore) (id : Uuid) : Option TaskRecord :=
  (store.tasks.reverse.find? fun t ↦ t.2.id = id).map Prod.snd

/-- `TaskStore::view`. -/
def view (parse : String → Option ℤ) (now : ℤ) (store : TaskStore) (id : Uuid) :
    Option TaskView :=
  (store.get id).map (TaskRecord.view parse now)

end TaskStore

/-- A `u64` cast to `i64`. -/
def asI64 (n : ℕ) : ℤ := if n % 2 ^ 64 < 2 ^ 63 then n % 2 ^ 64 else n % 2 ^ 64 - 2 ^ 64

/-- The test of `cleanup_expired`, on times in nanoseconds. -/
def expired (parse : String → Option ℤ) (retention : ℕ) (now : ℤ) (s : TaskSnapshot) : Bool :=
  match s.finishedAt.bind parse with
  | none => false
  | some t => decide (asI64 retention ≤ (now - t).tdiv 1000000000)

/-- How one call of `open` finds the world: the clock when a directory is recovered, the clock when
the expired tasks are collected, and which directories cannot be deleted. -/
structure Opening where
  clock : String → String
  now : ℤ
  stuck : String → Bool

variable (codec : LineCodec TaskSnapshot) (parse : String → Option ℤ) (retention : ℕ)

/-- `cleanup_expired`: the expired tasks are forgotten, and their directories deleted. -/
def cleanupExpired (o : Opening) (disk : Disk) (store : TaskStore) : Disk × TaskStore :=
  let gone := store.tasks.filter fun t ↦ expired parse retention o.now t.2.snapshot
  (disk.filter fun e ↦ !(gone.any fun t ↦ t.1 = e.1 && !o.stuck t.1),
    ⟨store.tasks.filter fun t ↦ !expired parse retention o.now t.2.snapshot⟩)

/-- `TaskStore::open`, with the lock free. -/
def openStore (o : Opening) (disk : Disk) : Disk × Except String TaskStore :=
  match recover codec o.clock disk with
  | (disk, .error e) => (disk, .error e)
  | (disk, .ok rs) =>
    let (disk, store) := cleanupExpired parse retention o disk ⟨rs⟩
    (disk, .ok store)

variable {codec parse retention}

/-- What `open` has done when it succeeds. -/
theorem openStore_inv {o : Opening} {disk disk' : Disk} {store : TaskStore}
    (h : openStore codec parse retention o disk = (disk', .ok store)) :
    ∃ rs, (recover codec o.clock disk).2 = .ok rs ∧
      (disk', store) = cleanupExpired parse retention o (recover codec o.clock disk).1 ⟨rs⟩ := by
  rw [openStore] at h
  split at h
  · exact absurd h (by simp)
  · rename_i disk₁ rs hr
    rw [hr]
    obtain ⟨rfl, hs⟩ : _ = disk' ∧ _ = Except.ok store := Prod.mk.inj h
    exact ⟨rs, rfl, by rw [← Except.ok.inj hs]; rfl⟩

theorem recover_names (clock : String → String) (disk : Disk) :
    (recover codec clock disk).1.map Prod.fst = disk.map Prod.fst := by
  induction disk with
  | nil => rfl
  | cons entry disk ih =>
    rw [recover]
    split
    · rfl
    · rw [List.map_cons, List.map_cons, ih]

/-- A name stands for one directory. -/
theorem eq_of_nodup_names {disk : Disk} (h : (disk.map Prod.fst).Nodup) {name : String}
    {d₁ d₂ : Option TaskDir} (h₁ : (name, d₁) ∈ disk) (h₂ : (name, d₂) ∈ disk) : d₁ = d₂ :=
  congrArg Prod.snd (List.inj_on_of_nodup_map h h₁ h₂ rfl)

/-! ## One task over many cycles -/

variable (codec parse retention) (name : String) (id : Uuid)

/-- The disk holds the task `id` in the directory `name`, and in no other. -/
structure Holds (disk : Disk) (dir : TaskDir) : Prop where
  mem : (name, some dir) ∈ disk
  nodup : (disk.map Prod.fst).Nodup
  own : ∀ n d s, (n, some d) ∈ disk → readLatestSnapshot codec d = .ok (some s) → s.taskId = id →
    n = name

variable {codec parse retention name id}

/-- What `open` makes of the task. -/
theorem openStore_get {o : Opening} {disk disk' : Disk} {store : TaskStore} {dir dir' : TaskDir}
    {r : TaskRecord} (hd : Holds codec name id disk dir)
    (ho : openStore codec parse retention o disk = (disk', .ok store))
    (hr : recoverTask codec (o.clock name) dir = .ok (some (r, dir'))) (hid : r.id = id)
    (he : expired parse retention o.now r.snapshot = false) :
    store.get id = some r ∧ ∀ d, (name, some d) ∈ disk' → d = dir' := by
  obtain ⟨rs, hrs, hc⟩ := openStore_inv ho
  obtain ⟨hmem, hmem'⟩ := recover_mem hrs hd.mem hr
  obtain ⟨rfl, rfl⟩ := Prod.mk.injEq .. ▸ hc
  constructor
  · have hfound : ∀ t ∈ rs, t.2.id = id → t.2 = r := by
      rintro ⟨n, r₁⟩ ht hid₁
      obtain ⟨d, d', hmd, hr₁⟩ := exists_of_mem_recover hrs ht
      obtain ⟨s, hs, rfl, -⟩ := recoverTask_inv hr₁
      have hn : n = name := hd.own n d s hmd hs (by
        rw [← hid₁]
        exact (recoverRecord_id ..).symm)
      subst hn
      obtain rfl : d = dir := Option.some.inj (eq_of_nodup_names hd.nodup hmd hd.mem)
      rw [hr₁] at hr
      exact congrArg Prod.fst (Option.some.inj (Except.ok.inj hr))
    rw [TaskStore.get, Option.map_eq_some_iff]
    have hsome : ((rs.filter fun t ↦ !expired parse retention o.now t.2.snapshot).reverse.find?
        fun t ↦ t.2.id = id).isSome := by
      rw [List.find?_isSome]
      exact ⟨(name, r), by simp [hmem, he], by simp [hid]⟩
    obtain ⟨t, ht⟩ := Option.isSome_iff_exists.mp hsome
    refine ⟨t, ht, hfound t ?_ (by simpa using List.find?_some ht)⟩
    have := List.mem_of_find?_eq_some ht
    simp at this
    exact this.1
  · intro d hm
    have hnodup : ((recover codec o.clock disk).1.map Prod.fst).Nodup := by
      rw [recover_names]
      exact hd.nodup
    exact Option.some.inj (eq_of_nodup_names hnodup (List.mem_of_mem_filter hm) hmem')

variable (codec parse retention name)

/-- The store is opened on a disk that holds the task of `s`, within its retention, and leaves its
directory at `dir'`. -/
def Reopens (s : TaskSnapshot) (dir : TaskDir) (store : TaskStore) (dir' : TaskDir) : Prop :=
  ∃ o disk disk', Holds codec name s.taskId disk dir ∧
    openStore codec parse retention o disk = (disk', .ok store) ∧
    expired parse retention o.now s = false ∧ (name, some dir') ∈ disk'

/-- Any number of cycles. -/
def Cycles (s : TaskSnapshot) : TaskDir → TaskDir → Prop :=
  ReflTransGen fun dir dir' ↦ ∃ store, Reopens codec parse retention name s dir store dir'

/-- The byte counter of a stream. -/
def TaskRecord.bytes (r : TaskRecord) : OutputStream → ℕ
  | .stdout => r.stdoutBytes
  | .stderr => r.stderrBytes
  | .combined => r.combinedBytes

/-- The record of a finished task, all of whose events and output have been written. -/
structure Stored (dir : TaskDir) (r : TaskRecord) : Prop where
  finished : r.snapshot.status.isFinished = true
  id : r.id = r.snapshot.taskId
  events : ∃ es, dir.events = some ((es ++ [r.visible]).flatMap codec.line)
  output : ∀ stream ∈ r.snapshot.outputMode.streams,
    (dir.output stream).map List.length = some (r.bytes stream)

/-- The task looks the same after every reopening, and so does its log. -/
structure SurvivesReopening (dir : TaskDir) (r : TaskRecord) : Prop where
  view : ∀ dir₁ store dir₂, Cycles codec parse retention name r.visible dir dir₁ →
    Reopens codec parse retention name r.visible dir₁ store dir₂ →
    ∀ now, store.view parse now r.id = some (r.view parse now)
  latest : ∀ dir₁, Cycles codec parse retention name r.visible dir dir₁ →
    readLatestSnapshot codec dir₁ = .ok (some r.visible)

variable {codec parse retention name}

theorem Stored.latest {dir : TaskDir} {r : TaskRecord} (h : Stored codec dir r) :
    readLatestSnapshot codec dir = .ok (some r.visible) := by
  obtain ⟨es, hes⟩ := h.events
  rw [readLatestSnapshot, hes]
  exact (LineCodec.readLatest_lines _).trans (by rw [List.getLast?_concat])

/-- What `recover` shows of a stored task is its snapshot without the flag. -/
theorem Stored.shown_visible {dir : TaskDir} {r : TaskRecord} (h : Stored codec dir r)
    (now : String) : shown now r.visible = { r.visible with outputTruncated := false } :=
  shown_of_isFinished (s := r.visible) h.finished now

/-- The counters are rebuilt from the files. -/
theorem Stored.outputBytes_recoverRecord {dir : TaskDir} {r : TaskRecord}
    (h : Stored codec dir r) (now : String) :
    (recoverRecord now dir r.visible).outputBytes = r.outputBytes := by
  have hfin : interruptUnfinished now r.visible = r.visible :=
    interruptUnfinished_of_isFinished (s := r.visible) h.finished now
  have hout := h.output
  have hv : (recoverRecord now dir r.visible).visible.outputMode = r.snapshot.outputMode := by
    rw [recoverRecord_visible, shown, hfin]
    rfl
  rw [TaskRecord.outputBytes, TaskRecord.outputBytes, hv,
    show r.visible.outputMode = r.snapshot.outputMode from rfl]
  cases hm : r.snapshot.outputMode with
  | separate =>
    have h1 := hout .stdout (by simp [hm, OutputMode.streams])
    have h2 := hout .stderr (by simp [hm, OutputMode.streams])
    simp [recoverRecord, TaskRecord.refreshOutputSizes, h1, h2, TaskRecord.bytes]
  | combined =>
    have h1 := hout .combined (by simp [hm, OutputMode.streams])
    simp [recoverRecord, TaskRecord.refreshOutputSizes, h1, TaskRecord.bytes]

/-- A stored task that was not truncated is rebuilt as it was. -/
theorem Stored.view_recoverRecord {dir : TaskDir} {r : TaskRecord} (h : Stored codec dir r)
    (ht : r.outputTruncated = false) (clock : String) (now : ℤ) :
    (recoverRecord clock dir r.visible).view parse now = r.view parse now := by
  have hv : (recoverRecord clock dir r.visible).visible = r.visible := by
    rw [recoverRecord_visible, h.shown_visible, TaskRecord.visible, ht]
  have hid : (recoverRecord clock dir r.visible).id = r.id := by
    rw [recoverRecord_id, h.id]
    rfl
  rw [TaskRecord.view, TaskRecord.view, h.outputBytes_recoverRecord, TaskRecord.links,
    TaskRecord.links, hv, hid]

/-- Recovery leaves a stored task stored. -/
theorem Stored.recoveredDir {dir : TaskDir} {r : TaskRecord} (h : Stored codec dir r)
    (ht : r.outputTruncated = false) (now : String) :
    Stored codec (recoveredDir codec now dir r.visible) r := by
  rw [CommandApi.recoveredDir]
  split
  · refine ⟨h.finished, h.id, ?_, h.output⟩
    obtain ⟨es, hes⟩ := h.events
    have hv : (recoverRecord now dir r.visible).visible = r.visible := by
      rw [recoverRecord_visible, h.shown_visible, TaskRecord.visible, ht]
    exact ⟨es ++ [r.visible], by simp [TaskDir.persist, hes, hv]⟩
  · exact h

/-- One reopening of a stored task. -/
theorem Stored.reopens {dir dir' : TaskDir} {r : TaskRecord} {store : TaskStore}
    (h : Stored codec dir r) (ho : Reopens codec parse retention name r.visible dir store dir') :
    ∃ clock, store.get r.id = some (recoverRecord clock dir r.visible) ∧
      dir' = CommandApi.recoveredDir codec clock dir r.visible := by
  obtain ⟨o, disk, disk', hd, hopen, he, hm⟩ := ho
  have hrec : recoverTask codec (o.clock name) dir = _ := recoverTask_of_ok h.latest
  have hfin : interruptUnfinished (o.clock name) r.visible = r.visible :=
    interruptUnfinished_of_isFinished (s := r.visible) h.finished _
  have he' : expired parse retention o.now
      (recoverRecord (o.clock name) dir r.visible).snapshot = false := by
    rw [recoverRecord_snapshot, hfin]
    exact he
  obtain ⟨hget, hdir⟩ := openStore_get hd hopen hrec (recoverRecord_id ..) he'
  rw [h.id]
  exact ⟨o.clock name, hget, hdir dir' hm⟩

theorem Stored.cycles {dir dir' : TaskDir} {r : TaskRecord} (h : Stored codec dir r)
    (ht : r.outputTruncated = false) (hc : Cycles codec parse retention name r.visible dir dir') :
    Stored codec dir' r := by
  induction hc with
  | refl => exact h
  | tail _ hs ih =>
    obtain ⟨store, ho⟩ := hs
    obtain ⟨clock, -, rfl⟩ := ih.reopens ho
    exact ih.recoveredDir ht clock

/-- There is always a time at which a task is not yet expired. -/
theorem exists_not_expired (parse : String → Option ℤ) (retention : ℕ) (s : TaskSnapshot) :
    ∃ now, expired parse retention now s = false := by
  cases h : s.finishedAt.bind parse with
  | none => exact ⟨0, by rw [expired, h]⟩
  | some t =>
    refine ⟨t + (asI64 retention - 1) * 1000000000, ?_⟩
    rw [expired, h]
    simp only [decide_eq_false_iff_not, add_sub_cancel_left]
    rw [Int.mul_tdiv_cancel _ (by decide)]
    omega

/-- Opening a store with one directory. -/
theorem openStore_single {o : Opening} {name : String} {dir dir' : TaskDir} {r : TaskRecord}
    (hr : recoverTask codec (o.clock name) dir = .ok (some (r, dir')))
    (he : expired parse retention o.now r.snapshot = false) :
    openStore codec parse retention o [(name, some dir)] =
      ([(name, some dir')], .ok ⟨[(name, r)]⟩) := by
  have hrec : recover codec o.clock [(name, some dir)] =
      ([(name, some dir')], .ok [(name, r)]) := by
    rw [recover_cons_of_ok (recoverEntry_some hr)]
    rfl
  rw [openStore, hrec]
  simp [cleanupExpired, he]

theorem holds_single {dir : TaskDir} {id : Uuid} : Holds codec name id [(name, some dir)] dir where
  mem := List.mem_singleton_self _
  nodup := List.nodup_singleton _
  own _ _ _ hm _ _ := congrArg Prod.fst (List.mem_singleton.mp hm)

/-- A directory that can be read can be reopened on its own, while its task is not expired. -/
theorem exists_reopens (parse : String → Option ℤ) (retention : ℕ) (name : String) (now : ℤ)
    (clock : String) {dir : TaskDir} {s e : TaskSnapshot}
    (h : readLatestSnapshot codec dir = .ok (some e)) (hid : e.taskId = s.taskId)
    (he : expired parse retention now (interruptUnfinished clock e) = false)
    (hs : expired parse retention now s = false) :
    ∃ store dir', Reopens codec parse retention name s dir store dir' ∧
      ∀ now, store.view parse now s.taskId =
        some ((recoverRecord clock dir e).view parse now) := by
  have ho : openStore codec parse retention ⟨fun _ ↦ clock, now, fun _ ↦ false⟩
      [(name, some dir)] = _ := openStore_single (recoverTask_of_ok h) he
  refine ⟨_, _, ⟨_, _, _, holds_single, ho, hs, List.mem_singleton_self _⟩, fun now ↦ ?_⟩
  have hid' : (recoverRecord clock dir e).id = s.taskId := (recoverRecord_id ..).trans hid
  simp [TaskStore.view, TaskStore.get, hid']

/-- A stored task can be reopened, and then shows no truncation. -/
theorem Stored.exists_reopens {dir : TaskDir} {r : TaskRecord} (h : Stored codec dir r)
    (parse : String → Option ℤ) (retention : ℕ) (name : String) :
    ∃ store dir', Reopens codec parse retention name r.visible dir store dir' ∧
      ∀ now, (store.view parse now r.id).map (fun v ↦ v.task.outputTruncated) = some false := by
  obtain ⟨now, hnow⟩ := exists_not_expired parse retention r.visible
  have hfin : interruptUnfinished "" r.visible = r.visible :=
    interruptUnfinished_of_isFinished (s := r.visible) h.finished _
  obtain ⟨store, dir', ho, hv⟩ := CommandApi.exists_reopens parse retention name now "" h.latest rfl
    (by rw [hfin]; exact hnow) hnow
  refine ⟨store, dir', ho, fun now ↦ ?_⟩
  rw [h.id, show r.snapshot.taskId = r.visible.taskId from rfl, hv]
  rfl

/-- A task that was truncated does not look the same when the store is reopened. -/
theorem Stored.not_truncated {dir : TaskDir} {r : TaskRecord} (h : Stored codec dir r)
    (hs : SurvivesReopening codec parse retention name dir r) : r.outputTruncated = false := by
  obtain ⟨store, dir', ho, hv⟩ := h.exists_reopens parse retention name
  have := hv 0
  rw [hs.view dir store dir' .refl ho 0] at this
  exact Option.some.inj this

/-- **Reopening the store preserves what a client sees of a finished task, exactly if its output was
not truncated.** -/
theorem view_reopen_iff (codec : LineCodec TaskSnapshot) (parse : String → Option ℤ)
    (retention : ℕ) (name : String) (dir : TaskDir) (r : TaskRecord) (h : Stored codec dir r) :
    SurvivesReopening codec parse retention name dir r ↔ r.outputTruncated = false := by
  refine ⟨h.not_truncated, fun ht ↦ ?_⟩
  refine ⟨fun dir₁ store dir₂ hc ho now ↦ ?_, fun dir₁ hc ↦ (h.cycles ht hc).latest⟩
  obtain ⟨clock, hget, -⟩ := (h.cycles ht hc).reopens ho
  rw [TaskStore.view, hget, Option.map_some, (h.cycles ht hc).view_recoverRecord ht]

/-- The record of a task that has succeeded, with empty output. -/
def exampleRecord : TaskRecord :=
  .new { exampleTask with
    status := .succeeded
    startedAt := some "2026-01-01T00:00:01Z"
    finishedAt := some "2026-01-01T00:00:09Z"
    exitCode := some 0 }

/-- A directory with its last event. -/
def exampleDir (r : TaskRecord) : TaskDir where
  events := some (snapshotCodec.line r.visible)
  output := fun _ ↦ some []

theorem exampleDir_stored (truncated : Bool) :
    Stored snapshotCodec (exampleDir { exampleRecord with outputTruncated := truncated })
      { exampleRecord with outputTruncated := truncated } where
  finished := rfl
  id := rfl
  events := ⟨[], by simp [exampleDir]⟩
  output stream _ := by cases stream <;> rfl

/-- A task whose output fitted. -/
theorem view_reopen_untruncated :
    SurvivesReopening snapshotCodec (fun _ ↦ none) 3600 "00000000-0000-0000-0000-000000000001"
      (exampleDir { exampleRecord with outputTruncated := false })
      { exampleRecord with outputTruncated := false } :=
  (view_reopen_iff _ _ _ _ _ _ (exampleDir_stored false)).mpr rfl

/-- A task whose output was cut off at the limit. -/
theorem view_reopen_truncated :
    Stored snapshotCodec (exampleDir { exampleRecord with outputTruncated := true })
        { exampleRecord with outputTruncated := true } ∧
      ¬ SurvivesReopening snapshotCodec (fun _ ↦ none) 3600 "00000000-0000-0000-0000-000000000001"
        (exampleDir { exampleRecord with outputTruncated := true })
        { exampleRecord with outputTruncated := true } :=
  ⟨exampleDir_stored true, fun h ↦ absurd ((exampleDir_stored true).not_truncated h) (by decide)⟩

end CommandApi
