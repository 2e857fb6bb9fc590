import CommandApi.Async.Control
import CommandApi.Store.Reopen

/-!
# Task directories and the tasks map

`TaskStore::create`, `recover` and `cleanup_expired` once more, this time as programs that perform
one file operation after the other, each of which may fail.  The future of `create` may be dropped
at any of its awaits, which leaves the disk as the operations before it did.

A directory is an orphan if no record stands for it and recovering would not make one: retention
never applies to it.  `create` makes the directory first and registers the record last, and returns
early on every failure in between; `cleanup_expired` forgets the record before it deletes the
directory.  `no_orphans` says that these are the only ways: if an error or a drop does not hit
`create` between the directory and its first event, a directory is not deleted halfway, and what
fails to be appended to a log is not cut inside a character, then nothing is ever orphaned, and a
`create` that fails leaves no trace.  Without failures the program `recover` does what the function
of `CommandApi.Store.Recovery` says (`run_recover`).
-/

set_option autoImplicit false

namespace CommandApi

open Async Relation Text

/-! ## The operations -/

/-- What the store keeps: the listing of `root/tasks`, the map, and `active_count`. -/
structure Storage where
  disk : Disk
  /-- The records, with the names of their directories. -/
  tasks : List (String × TaskRecord)
  active : ℕ

inductive StoreOp
  | now
  | createDir (name : String)
  | writeOutput (name : String) (stream : OutputStream)
  /-- `TaskRecord::persist` -/
  | persist (name : String) (r : TaskRecord)
  | insert (name : String) (r : TaskRecord)
  /-- `active_count.fetch_add` -/
  | increment
  | readDir
  | nextEntry
  | isDir (name : String)
  /-- `read_latest_snapshot` -/
  | readLatest (name : String)
  /-- The files whose sizes `refresh_output_sizes` finds. -/
  | readOutput (name : String)
  /-- The expired tasks. -/
  | collect (now : ℤ)
  | remove (id : Uuid)
  | removeDirAll (name : String)

/-- The effects of the store. -/
abbrev fileOps : Signature where
  Op := StoreOp
  Resp
    | .now => String
    | .createDir _ | .writeOutput _ _ | .persist _ _ | .nextEntry | .removeDirAll _ =>
      Except String Unit
    | .insert _ _ | .increment => Unit
    | .readDir => Except String (List String)
    | .isDir _ => Except String Bool
    | .readLatest _ => Except String (Option TaskSnapshot)
    | .readOutput _ => OutputStream → Option (List UInt8)
    | .collect _ => List Uuid
    | .remove _ => Option String

/-- Change the directory with this name. -/
def Disk.modify (name : String) (f : TaskDir → TaskDir) (disk : Disk) : Disk :=
  disk.map fun e ↦ if e.1 = name then (e.1, e.2.map f) else e

namespace TaskDir

/-- A directory that has just been made. -/
def empty : TaskDir := ⟨none, fun _ ↦ none⟩

/-- An empty output file is written. -/
def touch (stream : OutputStream) (dir : TaskDir) : TaskDir :=
  { dir with output := Function.update dir.output stream (some []) }

/-- Bytes are appended to `events.jsonl`. -/
def append (p : List UInt8) (dir : TaskDir) : TaskDir :=
  { dir with events := some (dir.events.getD [] ++ p) }

end TaskDir

namespace Storage

def onDisk (w : Storage) (f : Disk → Disk) : Storage := { w with disk := f w.disk }

/-- The map after an insertion. -/
def insertTask (name : String) (r : TaskRecord) (tasks : List (String × TaskRecord)) :
    List (String × TaskRecord) :=
  tasks.filter (fun t ↦ t.2.id ≠ r.id) ++ [(name, r)]

end Storage

section

variable (codec : LineCodec TaskSnapshot) (parse : String → Option ℤ) (retention : ℕ)

/-- What an operation may answer and do.  A failed write may have written any part, and a failed
deletion may have deleted any part. -/
def fileAct : (o : StoreOp) → Storage → fileOps.Resp o → Storage → Prop
  | .now, w, _, w' => w' = w
  | .createDir name, w, .ok (), w' =>
    name ∉ w.disk.map Prod.fst ∧ w' = w.onDisk (· ++ [(name, some .empty)])
  | .createDir _, w, .error _, w' => w' = w
  | .writeOutput name stream, w, .ok (), w' => w' = w.onDisk (.modify name (.touch stream))
  | .writeOutput name stream, w, .error _, w' =>
    w' = w ∨ w' = w.onDisk (.modify name (.touch stream))
  | .persist name r, w, .ok (), w' =>
    (∃ dir, (name, some dir) ∈ w.disk) ∧
      w' = w.onDisk (.modify name (.append (codec.line r.visible)))
  | .persist name r, w, .error _, w' =>
    w' = w ∨ ∃ p, p <+: codec.line r.visible ∧ w' = w.onDisk (.modify name (.append p))
  | .insert name r, w, _, w' => w' = { w with tasks := Storage.insertTask name r w.tasks }
  | .increment, w, _, w' => w' = { w with active := w.active + 1 }
  | .readDir, w, .ok names, w' => names = w.disk.map Prod.fst ∧ w' = w
  | .readDir, w, .error _, w' => w' = w
  | .nextEntry, w, _, w' => w' = w
  | .isDir name, w, .ok b, w' => (b = true ↔ ∃ dir, (name, some dir) ∈ w.disk) ∧ w' = w
  | .isDir _, w, .error _, w' => w' = w
  | .readLatest name, w, .ok s, w' =>
    (∃ dir, (name, some dir) ∈ w.disk ∧ readLatestSnapshot codec dir = .ok s) ∧ w' = w
  | .readLatest _, w, .error _, w' => w' = w
  | .readOutput name, w, files, w' =>
    (∀ s f, files s = some f → ∃ dir, (name, some dir) ∈ w.disk ∧ dir.output s = some f) ∧ w' = w
  | .collect now, w, ids, w' =>
    ids = (w.tasks.filter fun t ↦ expired parse retention now t.2.snapshot).map (·.2.id) ∧ w' = w
  | .remove id, w, name, w' =>
    name = (w.tasks.find? fun t ↦ t.2.id = id).map Prod.fst ∧
      w' = { w with tasks := w.tasks.filter fun t ↦ t.2.id ≠ id }
  | .removeDirAll name, w, .ok (), w' => w' = w.onDisk (·.filter fun e ↦ e.1 ≠ name)
  | .removeDirAll name, w, .error _, w' =>
    w' = w.onDisk (·.filter fun e ↦ e.1 ≠ name) ∨
      ∃ events : Bool, ∃ outputs : OutputStream → Bool, w' = w.onDisk (.modify name fun dir ↦
        ⟨if events then dir.events else none,
          fun s ↦ if outputs s then dir.output s else none⟩)

end

/-! ## The programs -/

namespace TaskStore

/-- The output files of the mode, all empty. -/
def writeOutputs (name : String) : List OutputStream → Prog fileOps String Unit
  | [] => pure ()
  | stream :: rest => do
    Prog.ofExcept (← Prog.perform (S := fileOps) (.writeOutput name stream))
    writeOutputs name rest

/-- `TaskStore::create`, for the identifier that was drawn and the path of its directory. -/
def create (path : String) (id : Uuid) (route : String) (mode : OutputMode)
    (encoding : OutputEncoding) : Prog fileOps String TaskRecord := do
  let made ← Prog.perform (S := fileOps) (.createDir id.text)
  (Prog.ofExcept made).context s!"无法创建任务日志目录 {path}"
  let now ← Prog.perform (S := fileOps) .now
  writeOutputs id.text mode.streams
  let r := TaskRecord.new (.created id route mode encoding now)
  Prog.ofExcept (← Prog.perform (S := fileOps) (.persist id.text r))
  Prog.perform (S := fileOps) (.insert id.text r)
  Prog.perform (S := fileOps) .increment
  pure r

/-- The record of a snapshot is built, written back if the task was interrupted, and inserted. -/
def register (name : String) (s : TaskSnapshot) (now : String) : Prog fileOps String Unit := do
  let output ← Prog.perform (S := fileOps) (.readOutput name)
  let r := recoverRecord now ⟨none, output⟩ s
  if r.snapshot.status = .interrupted then
    Prog.ofExcept (← Prog.perform (S := fileOps) (.persist name r))
  Prog.perform (S := fileOps) (.insert name r)

/-- The body of the loop of `recover`. -/
def recoverEntry (name : String) : Prog fileOps String Unit := do
  let isDir ← Prog.perform (S := fileOps) (.isDir name)
  if !(← Prog.ofExcept isDir) then return ()
  let latest ← Prog.perform (S := fileOps) (.readLatest name)
  match ← Prog.ofExcept latest with
  | none => return ()
  | some s => if s.status.isFinished then register name s "" else
    register name s (← Prog.perform (S := fileOps) .now)

def recoverEntries : List String → Prog fileOps String Unit
  | [] => do Prog.ofExcept (← Prog.perform (S := fileOps) .nextEntry)
  | name :: names => do
    Prog.ofExcept (← Prog.perform (S := fileOps) .nextEntry)
    recoverEntry name
    recoverEntries names

def recover : Prog fileOps String Unit := do
  let names ← Prog.perform (S := fileOps) .readDir
  recoverEntries (← Prog.ofExcept names)

/-- The loop of `cleanup_expired`.  A directory that cannot be deleted is passed over. -/
def removeDirs : List Uuid → Prog fileOps String Unit
  | [] => pure ()
  | id :: ids => do
    match ← Prog.perform (S := fileOps) (.remove id) with
    | none => pure ()
    | some name => do
      let _ ← Prog.perform (S := fileOps) (.removeDirAll name)
    removeDirs ids

def cleanupExpired (now : ℤ) : Prog fileOps String Unit := do
  removeDirs (← Prog.perform (S := fileOps) (.collect now))

/-- What `TaskStore::open` does behind the lock. -/
def reopen (now : ℤ) : Prog fileOps String Unit := do
  recover
  cleanupExpired now

end TaskStore

/-! ## Runs of the store -/

/-- What is asked of the operations of `create`, of all others, and of where `create` is left. -/
structure Care where
  creating : (o : StoreOp) → Storage → fileOps.Resp o → Storage → Prop
  later : (o : StoreOp) → Storage → fileOps.Resp o → Storage → Prop
  left : Prog fileOps String TaskRecord → Prop

/-- `create` has returned, or waits for one of these operations. -/
def LeftAt (at' : StoreOp → Prop) : Prog fileOps String TaskRecord → Prop
  | .ret _ | .fail _ => True
  | .call o _ => at' o

/-- The awaits of `create`. -/
def Awaits : StoreOp → Prop
  | .createDir _ | .writeOutput _ _ | .persist _ _ | .insert _ _ => True
  | _ => False

/-- Anything may happen. -/
def Care.none : Care := ⟨fun _ _ _ _ ↦ True, fun _ _ _ _ ↦ True, LeftAt Awaits⟩

section

variable (codec : LineCodec TaskSnapshot) (parse : String → Option ℤ) (retention : ℕ) (care : Care)

def creatingMachine : Machine fileOps Storage where
  act o w r w' := fileAct codec parse retention o w r w' ∧ care.creating o w r w'
  env _ _ := False

def laterMachine : Machine fileOps Storage where
  act o w r w' := fileAct codec parse retention o w r w' ∧ care.later o w r w'
  env _ _ := False

/-- One thing that happens to the store.  It is closed and opened again at any time, which may fail;
the runner of a task changes its snapshot and writes it to the log. -/
inductive StoreStep : Storage → Storage → Prop
  | create {w w' : Storage} {path route : String} {id : Uuid} {mode : OutputMode}
      {encoding : OutputEncoding} {p : Prog fileOps String TaskRecord}
      (h : (creatingMachine codec parse retention care).Run
        (TaskStore.create path id route mode encoding, w) (p, w')) (hp : care.left p) :
      StoreStep w w'
  | cleanup {w w' : Storage} {now : ℤ} {p : Prog fileOps String Unit}
      (h : (laterMachine codec parse retention care).Run (TaskStore.cleanupExpired now, w)
        (p, w')) : StoreStep w w'
  | reopen {w w' : Storage} {now : ℤ}
      (h : (laterMachine codec parse retention care).Run
        (TaskStore.reopen now, { w with tasks := [], active := 0 }) (.ret (), w')) :
      StoreStep w w'
  | notOpened {w w' : Storage} {now : ℤ} {p : Prog fileOps String Unit}
      (h : (laterMachine codec parse retention care).Run
        (TaskStore.reopen now, { w with tasks := [], active := 0 }) (p, w')) :
      StoreStep w { w' with tasks := [], active := 0 }
  | transition {w w' : Storage} {name : String} {r : TaskRecord} {s : TaskSnapshot}
      {x : Except String Unit} (hr : (name, r) ∈ w.tasks) (hs : s.taskId = r.id)
      (h : (laterMachine codec parse retention care).act (.persist name { r with snapshot := s })
        { w with tasks := Storage.insertTask name { r with snapshot := s } w.tasks } x w') :
      StoreStep w w'

/-- The map that inserting these records one after the other makes. -/
def insertAll (rs : List (String × TaskRecord)) : List (String × TaskRecord) :=
  rs.foldl (fun tasks t ↦ Storage.insertTask t.1 t.2 tasks) []

/-- The next `recover` makes a record for this directory. -/
def Rebuilt (disk : Disk) (name : String) : Prop :=
  ∀ clock, ∃ rs, (recover codec clock disk).2 = .ok rs ∧ name ∈ (insertAll rs).map Prod.fst

/-- Every directory has a record, or will have one. -/
def NoOrphan (w : Storage) : Prop :=
  ∀ name dir, (name, some dir) ∈ w.disk → name ∈ w.tasks.map Prod.fst ∨ Rebuilt codec w.disk name

end

/-! ## Recovering -/

section

variable {codec : LineCodec TaskSnapshot} {parse : String → Option ℤ} {retention : ℕ}
  {name : String} {pre post : Disk} {tasks : List (String × TaskRecord)} {n : ℕ}

/-- One operation, and what follows it. -/
theorem run_op {α : Type} {o : StoreOp} {w w' : Storage}
    {k : fileOps.Resp o → Prog fileOps String α} {c : Prog fileOps String α × Storage}
    (r : fileOps.Resp o)
    (h : fileAct codec parse retention o w r w')
    (hk : (laterMachine codec parse retention .none).Run (k r, w') c) :
    (laterMachine codec parse retention .none).Run (.call o k, w) c :=
  .head (.act ⟨h, trivial⟩) hk

theorem modify_of_notMem {disk : Disk} (h : name ∉ disk.map Prod.fst) (f : TaskDir → TaskDir) :
    disk.modify name f = disk := by
  refine (List.map_congr_left fun e he ↦ ?_).trans (List.map_id disk)
  rw [if_neg fun hn ↦ h (List.mem_map.mpr ⟨e, he, hn⟩), id_eq]

/-- The names are distinct, so a change hits one entry. -/
theorem modify_split (hpre : name ∉ pre.map Prod.fst) (hpost : name ∉ post.map Prod.fst)
    (f : TaskDir → TaskDir) (dir : TaskDir) :
    Disk.modify name f (pre ++ (name, some dir) :: post) = pre ++ (name, some (f dir)) :: post := by
  have h₁ := modify_of_notMem hpre f
  have h₂ := modify_of_notMem hpost f
  rw [Disk.modify] at h₁ h₂ ⊢
  rw [List.map_append, List.map_cons, h₁, h₂]
  simp

theorem mem_split_iff (hpre : name ∉ pre.map Prod.fst) (hpost : name ∉ post.map Prod.fst)
    {entry : Option TaskDir} {dir : TaskDir} :
    (name, some dir) ∈ pre ++ (name, entry) :: post ↔ entry = some dir := by
  have hout : ∀ disk : Disk, name ∉ disk.map Prod.fst → (name, some dir) ∉ disk :=
    fun disk h hm ↦ h (List.mem_map.mpr ⟨_, hm, rfl⟩)
  simp [hout pre hpre, hout post hpost, eq_comm]

theorem run_register (hpre : name ∉ pre.map Prod.fst) (hpost : name ∉ post.map Prod.fst)
    (dir : TaskDir) (s : TaskSnapshot) (now : String) :
    (laterMachine codec parse retention .none).Run
      (TaskStore.register name s now, ⟨pre ++ (name, some dir) :: post, tasks, n⟩)
      (.ret (), ⟨pre ++ (name, some (recoveredDir codec now dir s)) :: post,
        Storage.insertTask name (recoverRecord now dir s) tasks, n⟩) := by
  have hmem : (name, some dir) ∈ pre ++ (name, some dir) :: post := by simp
  refine run_op dir.output ⟨fun t f hf ↦ ⟨dir, hmem, hf⟩, rfl⟩ ?_
  show (laterMachine codec parse retention .none).Run
    (if (recoverRecord now dir s).snapshot.status = .interrupted then _ else _, _) _
  rw [recoveredDir, recoverRecord_snapshot]
  split
  · refine run_op (.ok ()) ⟨⟨dir, hmem⟩, rfl⟩ ?_
    rw [Storage.onDisk, modify_split hpre hpost]
    exact run_op () rfl .refl
  · exact run_op () rfl .refl

theorem run_recoverEntry (hpre : name ∉ pre.map Prod.fst) (hpost : name ∉ post.map Prod.fst)
    {clock : String → String} {entry dir' : Option TaskDir} {r : Option TaskRecord}
    (h : recoverEntry codec clock (name, entry) = .ok (r, dir')) :
    (laterMachine codec parse retention .none).Run
      (TaskStore.recoverEntry name, ⟨pre ++ (name, entry) :: post, tasks, n⟩)
      (.ret (), ⟨pre ++ (name, dir') :: post,
        r.toList.foldl (fun tasks r ↦ Storage.insertTask name r tasks) tasks, n⟩) := by
  cases entry with
  | none =>
    cases h
    refine run_op (.ok false) ⟨?_, rfl⟩ .refl
    simp [mem_split_iff hpre hpost]
  | some dir =>
    have hmem : (name, some dir) ∈ pre ++ (name, some dir) :: post := by simp
    refine run_op (.ok true) ⟨by simp [mem_split_iff hpre hpost], rfl⟩ ?_
    cases hl : readLatestSnapshot codec dir with
    | error e => simp [recoverEntry, recoverTask, hl] at h
    | ok latest =>
      refine run_op (.ok latest) ⟨⟨dir, hmem, hl⟩, rfl⟩ ?_
      cases latest with
      | none =>
        obtain ⟨rfl, rfl⟩ : none = r ∧ some dir = dir' := by
          simpa [recoverEntry, recoverTask, hl] using h
        exact .refl
      | some s =>
        rw [recoverEntry, recoverTask_of_ok hl] at h
        cases h
        show (laterMachine codec parse retention .none).Run
          (if s.status.isFinished then _ else _, _) _
        split
        · rename_i hfin
          have hnow : interruptUnfinished "" s = interruptUnfinished (clock name) s := by
            rw [interruptUnfinished, if_pos hfin, interruptUnfinished, if_pos hfin]
          have hrun : (laterMachine codec parse retention .none).Run
              (TaskStore.register name s "", ⟨_, tasks, n⟩) _ := run_register hpre hpost dir s ""
          simpa [recoveredDir, recoverRecord, hnow] using hrun
        · exact run_op (clock name) rfl (run_register hpre hpost dir s _)

/-- `pre` is what the loop has been through. -/
theorem run_recoverEntries {clock : String → String} {todo : Disk} {rs : List (String × TaskRecord)}
    (hnodup : ((pre ++ todo).map Prod.fst).Nodup) (h : (recover codec clock todo).2 = .ok rs) :
    (laterMachine codec parse retention .none).Run
      (TaskStore.recoverEntries (todo.map Prod.fst), ⟨pre ++ todo, tasks, n⟩)
      (.ret (), ⟨pre ++ (recover codec clock todo).1,
        rs.foldl (fun tasks t ↦ Storage.insertTask t.1 t.2 tasks) tasks, n⟩) := by
  induction todo generalizing pre tasks rs with
  | nil =>
    cases h
    exact run_op (.ok ()) rfl .refl
  | cons e todo ih =>
    obtain ⟨name, entry⟩ := e
    refine run_op (.ok ()) rfl ?_
    have hnames : (pre.map Prod.fst ++ name :: todo.map Prod.fst).Nodup := by simpa using hnodup
    have hpre : name ∉ pre.map Prod.fst := fun hm ↦
      (List.nodup_append.mp hnames).2.2 _ hm _ List.mem_cons_self rfl
    have hpost : name ∉ todo.map Prod.fst :=
      (List.nodup_cons.mp (List.nodup_append.mp hnames).2.1).1
    cases hentry : recoverEntry codec clock (name, entry) with
    | error e => simp [recover, hentry] at h
    | ok out =>
      obtain ⟨r, dir'⟩ := out
      cases hrest : (recover codec clock todo).2 with
      | error e => simp [recover, hentry, hrest, Except.map] at h
      | ok rs' =>
        obtain rfl : (r.toList.map fun r ↦ (name, r)) ++ rs' = rs := by
          simpa [recover, hentry, hrest, Except.map] using h
        have hnodup' : (((pre ++ [(name, dir')]) ++ todo).map Prod.fst).Nodup := by
          simpa using hnodup
        have hdisk : (recover codec clock ((name, entry) :: todo)).1 =
            (name, dir') :: (recover codec clock todo).1 := by
          rw [recover, hentry]
        have hrun : (laterMachine codec parse retention .none).Run
            (TaskStore.recoverEntry name, ⟨pre ++ (name, entry) :: todo, tasks, n⟩) _ :=
          run_recoverEntry hpre hpost hentry
        refine (hrun.bind fun _ ↦ TaskStore.recoverEntries (todo.map Prod.fst)).trans ?_
        rw [hdisk, List.foldl_append, List.foldl_map]
        simpa using ih hnodup' hrest

/-- **Without failures**, the program does what the function says. -/
theorem run_recover {clock : String → String} {disk : Disk} {rs : List (String × TaskRecord)}
    (hnodup : (disk.map Prod.fst).Nodup) (h : (recover codec clock disk).2 = .ok rs) :
    (laterMachine codec parse retention .none).Run (TaskStore.recover, ⟨disk, [], n⟩)
      (.ret (), ⟨(recover codec clock disk).1, insertAll rs, n⟩) := by
  have hrun : (laterMachine codec parse retention .none).Run
      (TaskStore.recoverEntries (disk.map Prod.fst), ⟨[] ++ disk, [], n⟩) _ :=
    run_recoverEntries hnodup h
  exact run_op (.ok _) ⟨rfl, rfl⟩ hrun

end

/-! ## Care -/

/-- Behind the directory, `create` does not fail. -/
def Whole : (o : StoreOp) → Storage → fileOps.Resp o → Storage → Prop
  | .writeOutput _ _, _, x, _ | .persist _ _, _, x, _ => x = .ok ()
  | _, _, _, _ => True

/-- What is appended is not cut inside a character, and what is deleted is gone, or still has its
log. -/
def Intact (codec : LineCodec TaskSnapshot) :
    (o : StoreOp) → Storage → fileOps.Resp o → Storage → Prop
  | .persist name r, w, _, w' => w' = w ∨ ∃ p, p <+: codec.line r.visible ∧
      (decodeUtf8 p).isSome ∧ w' = w.onDisk (.modify name (.append p))
  | .removeDirAll name, w, _, w' => ∀ dir', (name, some dir') ∈ w'.disk →
      ∃ dir, (name, some dir) ∈ w.disk ∧ dir'.events = dir.events
  | _, _, _, _ => True

/-- Where `create` is dropped: before there is a directory, or behind the first event. -/
def AroundLog : StoreOp → Prop
  | .createDir _ | .insert _ _ => True
  | _ => False

/-- The condition on what happens. -/
def Care.full (codec : LineCodec TaskSnapshot) : Care := ⟨Whole, Intact codec, LeftAt AroundLog⟩

/-- A log that reads back: a whole event, and then pieces of events, none of them cut inside a
character, all of the task that the directory is named after. -/
def GoodLog (codec : LineCodec TaskSnapshot) (name : String) (dir : TaskDir) : Prop :=
  ∃ e ps, dir.events = some (codec.line e ++ codec.pieces ps) ∧
    (∀ s ∈ e :: ps.map Prod.fst, s.taskId.text = name) ∧
    (decodeUtf8 (codec.line e ++ codec.pieces ps)).isSome

/-- What careful steps keep up. -/
structure Tidy (codec : LineCodec TaskSnapshot) (w : Storage) : Prop where
  logs : ∀ name dir, (name, some dir) ∈ w.disk → GoodLog codec name dir
  records : ∀ t ∈ w.tasks, t.2.id.text = t.1 ∧ t.2.snapshot.taskId = t.2.id

section

variable {codec : LineCodec TaskSnapshot} {name : String} {dir : TaskDir}

theorem line_eq_encodeUtf8 (e : TaskSnapshot) :
    codec.line e = encodeUtf8 (codec.print e ++ ['\n']) := by
  rw [encodeUtf8_append]
  rfl

theorem isSome_decodeUtf8_append {a b : List UInt8} (ha : (decodeUtf8 a).isSome)
    (hb : (decodeUtf8 b).isSome) : (decodeUtf8 (a ++ b)).isSome := by
  obtain ⟨cs, hcs⟩ := Option.isSome_iff_exists.mp ha
  obtain ⟨ds, hds⟩ := Option.isSome_iff_exists.mp hb
  rw [decodeUtf8_eq_some_iff] at hcs hds
  rw [hcs, hds, ← encodeUtf8_append, decodeUtf8_encodeUtf8]
  rfl

/-- A log with one event. -/
theorem goodLog_line {e : TaskSnapshot} (he : e.taskId.text = name)
    (hd : dir.events = some (codec.line e)) : GoodLog codec name dir := by
  refine ⟨e, [], by simpa [LineCodec.pieces] using hd, by simpa using he, ?_⟩
  rw [LineCodec.pieces, List.flatMap_nil, List.append_nil, line_eq_encodeUtf8,
    decodeUtf8_encodeUtf8]
  rfl

/-- Appending a piece of an event. -/
theorem GoodLog.append (h : GoodLog codec name dir) {e : TaskSnapshot} (he : e.taskId.text = name)
    {p : List UInt8} (hp : p <+: codec.line e) (hd : (decodeUtf8 p).isSome) :
    GoodLog codec name (dir.append p) := by
  obtain ⟨e₀, ps, hev, hids, hdec⟩ := h
  have hpieces : codec.pieces (ps ++ [(e, p.length)]) = codec.pieces ps ++ p := by
    rw [LineCodec.pieces, LineCodec.pieces, List.flatMap_append, List.flatMap_singleton,
      ← List.prefix_iff_eq_take.mp hp]
  refine ⟨e₀, ps ++ [(e, p.length)], ?_, ?_, ?_⟩
  · rw [TaskDir.append, hev, Option.getD_some, hpieces, List.append_assoc]
  · simp only [List.map_append, List.mem_cons, List.mem_append] at hids ⊢
    rintro s (rfl | hs | hs)
    · exact hids _ (.inl rfl)
    · exact hids _ (.inr hs)
    · obtain rfl : s = e := by simpa using hs
      exact he
  · rw [hpieces, ← List.append_assoc]
    exact isSome_decodeUtf8_append hdec hd

/-- **A good log reads back**, as an event of its task. -/
theorem GoodLog.readLatest (h : GoodLog codec name dir) :
    ∃ s, readLatestSnapshot codec dir = .ok (some s) ∧ s.taskId.text = name := by
  obtain ⟨e, ps, hev, hids, hdec⟩ := h
  obtain ⟨cs, hcs⟩ := Option.isSome_iff_exists.mp hdec
  obtain ⟨r, hr⟩ : ∃ r, codec.readLatest (encodeUtf8 cs) = .ok r :=
    LineCodec.exists_readLatest_encodeUtf8 cs
  rw [← decodeUtf8_eq_some_iff.mp hcs] at hr
  rw [readLatestSnapshot, hev]
  rcases LineCodec.readLatest_pieces (LineCodec.clean_line e) (LineCodec.readLatest_line e) hr with
    rfl | ⟨p, hp, rfl⟩
  · exact ⟨e, hr, hids _ List.mem_cons_self⟩
  · exact ⟨p.1, hr, hids _ (List.mem_cons_of_mem _ (List.mem_map_of_mem hp))⟩

/-- Where every log reads back, recovery succeeds. -/
theorem exists_recover {disk : Disk}
    (h : ∀ name dir, (name, some dir) ∈ disk → ∃ s, readLatestSnapshot codec dir = .ok (some s))
    (clock : String → String) : ∃ rs, (recover codec clock disk).2 = .ok rs := by
  induction disk with
  | nil => exact ⟨[], rfl⟩
  | cons entry disk ih =>
    obtain ⟨rs, hrs⟩ := ih fun name dir hm ↦ h name dir (List.mem_cons_of_mem _ hm)
    obtain ⟨out, hout⟩ : ∃ out, recoverEntry codec clock entry = .ok out := by
      obtain ⟨name, _ | dir⟩ := entry
      · exact ⟨_, rfl⟩
      · obtain ⟨s, hs⟩ := h name dir List.mem_cons_self
        exact ⟨_, recoverEntry_some (recoverTask_of_ok hs)⟩
    rw [recover_cons_of_ok hout, hrs]
    exact ⟨_, rfl⟩

/-- An insertion adds a name, and drops none that belongs to its record. -/
theorem mem_insertTask {tasks : List (String × TaskRecord)} {r : TaskRecord} {n : String}
    (htasks : ∀ t ∈ tasks, t.2.id.text = t.1) (hr : r.id.text = name)
    (hn : n = name ∨ n ∈ tasks.map Prod.fst) :
    n ∈ (Storage.insertTask name r tasks).map Prod.fst := by
  rw [Storage.insertTask, List.map_append, List.mem_append]
  by_cases h : n = name
  · exact .inr (by simp [h])
  · obtain ⟨t, ht, rfl⟩ := List.mem_map.mp (hn.resolve_left h)
    refine .inl (List.mem_map_of_mem (List.mem_filter.mpr ⟨ht, ?_⟩))
    rw [decide_eq_true_iff]
    intro hid
    exact h (by rw [← htasks t ht, hid, hr])

theorem mem_insertAll {rs : List (String × TaskRecord)} (hrs : ∀ t ∈ rs, t.2.id.text = t.1)
    {t : String × TaskRecord} (ht : t ∈ rs) : t.1 ∈ (insertAll rs).map Prod.fst := by
  suffices h : ∀ (rs acc : List (String × TaskRecord)), (∀ t ∈ rs, t.2.id.text = t.1) →
      (∀ t ∈ acc, t.2.id.text = t.1) → ∀ n, n ∈ acc.map Prod.fst ∨ n ∈ rs.map Prod.fst →
      n ∈ (rs.foldl (fun tasks t ↦ Storage.insertTask t.1 t.2 tasks) acc).map Prod.fst from
    h rs [] hrs (by simp) t.1 (.inr (List.mem_map_of_mem ht))
  intro rs
  induction rs with
  | nil => simp
  | cons r rs ih =>
    intro acc hrs hacc n hn
    have hr := hrs r List.mem_cons_self
    refine ih _ (fun t ht ↦ hrs t (List.mem_cons_of_mem _ ht)) (fun t ht ↦ ?_) n ?_
    · rcases List.mem_append.mp ht with ht | ht
      · exact hacc t (List.mem_of_mem_filter ht)
      · obtain rfl := List.mem_singleton.mp ht
        exact hr
    · rw [List.map_cons, List.mem_cons] at hn
      rcases hn with hn | rfl | hn
      · exact .inl (mem_insertTask hacc hr (.inr hn))
      · exact .inl (mem_insertTask hacc hr (.inl rfl))
      · exact .inr hn

/-- **A tidy store has no orphans**: each directory is rebuilt. -/
theorem Tidy.noOrphan {w : Storage} (h : Tidy codec w) : NoOrphan codec w := by
  intro name dir hm
  refine .inr fun clock ↦ ?_
  obtain ⟨rs, hrs⟩ := exists_recover (fun name dir hm ↦ by
    obtain ⟨s, hs, -⟩ := (h.logs name dir hm).readLatest
    exact ⟨s, hs⟩) clock
  obtain ⟨s, hs, -⟩ := (h.logs name dir hm).readLatest
  have hids : ∀ t ∈ rs, t.2.id.text = t.1 := by
    rintro ⟨n, r⟩ ht
    obtain ⟨d, d', hd, hr⟩ := exists_of_mem_recover hrs ht
    obtain ⟨s', hs', rfl, -⟩ := recoverTask_inv hr
    obtain ⟨s'', hs'', hid⟩ := (h.logs n d hd).readLatest
    obtain rfl : s' = s'' := Option.some.inj (Except.ok.inj (hs'.symm.trans hs''))
    rw [recoverRecord_id]
    exact hid
  exact ⟨rs, hrs, mem_insertAll hids (recover_mem hrs hm (recoverTask_of_ok hs)).1⟩

/-! ## Recovering and removing -/

theorem mem_modify {f : TaskDir → TaskDir} {disk : Disk} {n : String} {d : TaskDir}
    (h : (n, some d) ∈ disk.modify name f) :
    (n ≠ name ∧ (n, some d) ∈ disk) ∨ n = name ∧ ∃ d₀, (n, some d₀) ∈ disk ∧ d = f d₀ := by
  obtain ⟨⟨m, e⟩, hm, he⟩ := List.mem_map.mp h
  by_cases hmn : m = name
  · rw [if_pos hmn] at he
    obtain ⟨rfl, hd⟩ := Prod.mk.inj he
    obtain ⟨d₀, hd₀, rfl⟩ := Option.map_eq_some_iff.mp hd
    exact .inr ⟨hmn, d₀, hd₀ ▸ hm, rfl⟩
  · rw [if_neg hmn] at he
    obtain ⟨rfl, rfl⟩ := Prod.mk.inj he
    exact .inl ⟨hmn, hm⟩

/-- Appending to a log. -/
theorem Tidy.persist {w w' : Storage} (h : Tidy codec w) {r : TaskRecord}
    (hr : r.snapshot.taskId.text = name) {x : Except String Unit}
    (hi : Intact codec (.persist name r) w x w') : Tidy codec w' := by
  rcases hi with rfl | ⟨p, hp, hd, rfl⟩
  · exact h
  · refine ⟨fun n d hm ↦ ?_, h.records⟩
    rcases mem_modify hm with ⟨-, hold⟩ | ⟨rfl, d₀, hold, rfl⟩
    · exact h.logs n d hold
    · exact (h.logs n d₀ hold).append (e := r.visible) hr hp hd

theorem Tidy.insert {w : Storage} (h : Tidy codec w) {r : TaskRecord} (hr : r.id.text = name)
    (hs : r.snapshot.taskId = r.id) :
    Tidy codec { w with tasks := Storage.insertTask name r w.tasks } := by
  refine ⟨h.logs, fun t ht ↦ ?_⟩
  rcases List.mem_append.mp ht with ht | ht
  · exact h.records t (List.mem_of_mem_filter ht)
  · obtain rfl := List.mem_singleton.mp ht
    exact ⟨hr, hs⟩

/-- What is on a disk that has lost something was there before. -/
theorem Tidy.shrink {w w' : Storage} (h : Tidy codec w)
    (hdisk : ∀ n d', (n, some d') ∈ w'.disk →
      ∃ d, (n, some d) ∈ w.disk ∧ d'.events = d.events)
    (htasks : ∀ t ∈ w'.tasks, t ∈ w.tasks) : Tidy codec w' := by
  refine ⟨fun n d' hm ↦ ?_, fun t ht ↦ h.records t (htasks t ht)⟩
  obtain ⟨d, hd, hev⟩ := hdisk n d' hm
  rw [GoodLog, hev]
  exact h.logs n d hd

/-- Where `recover` is: it may have read this snapshot from this directory. -/
abbrev Reading := Option (String × TaskSnapshot)

/-- What `recover` and `cleanup_expired` do: only what was read from a directory is written to it
and inserted. -/
def RecoverMoves : ControlGraph fileOps Reading
  | φ, .persist name r, _, ψ | φ, .insert name r, _, ψ =>
    (∃ now dir s, φ = some (name, s) ∧ r = recoverRecord now dir s) ∧ ψ = φ
  | _, .readLatest name, .ok (some s), ψ => ψ = some (name, s)
  | _, .createDir _, _, _ | _, .writeOutput _ _, _, _ => False
  | φ, _, _, ψ => ψ = φ

theorem register_follows (name : String) (s : TaskSnapshot) (now : String) :
    Follows RecoverMoves (some (name, s)) (TaskStore.register name s now) fun _ _ ↦ True := by
  intro output
  refine ⟨some (name, s), rfl, ?_⟩
  show Follows RecoverMoves _ (if (recoverRecord now ⟨none, output⟩ s).snapshot.status =
    .interrupted then _ else _) _
  split
  · rintro (e | _)
    · exact ⟨_, ⟨⟨now, _, s, rfl, rfl⟩, rfl⟩, trivial⟩
    · exact ⟨_, ⟨⟨now, _, s, rfl, rfl⟩, rfl⟩, fun _ ↦ ⟨_, ⟨⟨now, _, s, rfl, rfl⟩, rfl⟩, trivial⟩⟩
  · exact fun _ ↦ ⟨_, ⟨⟨now, _, s, rfl, rfl⟩, rfl⟩, trivial⟩

theorem recoverEntry_follows (φ : Reading) (name : String) :
    Follows RecoverMoves φ (TaskStore.recoverEntry name) fun _ _ ↦ True := by
  rintro (e | _ | _)
  · exact ⟨φ, rfl, trivial⟩
  · exact ⟨φ, rfl, trivial⟩
  refine ⟨φ, rfl, ?_⟩
  rintro (e | _ | s)
  · exact ⟨φ, rfl, trivial⟩
  · exact ⟨φ, rfl, trivial⟩
  refine ⟨some (name, s), rfl, ?_⟩
  show Follows RecoverMoves _ (if s.status.isFinished then _ else _) _
  split
  · exact register_follows name s ""
  · exact fun now ↦ ⟨_, rfl, register_follows name s now⟩

theorem recoverEntries_follows (φ : Reading) (names : List String) :
    Follows RecoverMoves φ (TaskStore.recoverEntries names) fun _ _ ↦ True := by
  induction names generalizing φ with
  | nil =>
    rintro (e | _)
    · exact ⟨φ, rfl, trivial⟩
    · exact ⟨φ, rfl, trivial⟩
  | cons name names ih =>
    rintro (e | _)
    · exact ⟨φ, rfl, trivial⟩
    · refine ⟨φ, rfl, ?_⟩
      show Follows RecoverMoves φ (TaskStore.recoverEntry name >>= fun _ ↦ _) _
      refine .bind (B := fun _ _ ↦ True) ?_ fun _ ψ _ ↦ ih ψ
      exact (recoverEntry_follows φ name).mono fun x _ _ ↦ by cases x <;> trivial

theorem removeDirs_follows (φ : Reading) (ids : List Uuid) :
    Follows RecoverMoves φ (TaskStore.removeDirs ids) fun _ _ ↦ True := by
  induction ids generalizing φ with
  | nil => trivial
  | cons id ids ih =>
    rintro (_ | name)
    · exact ⟨φ, rfl, ih φ⟩
    · exact ⟨φ, rfl, fun _ ↦ ⟨φ, rfl, ih φ⟩⟩

theorem cleanupExpired_follows (φ : Reading) (now : ℤ) :
    Follows RecoverMoves φ (TaskStore.cleanupExpired now) fun _ _ ↦ True :=
  fun ids ↦ ⟨φ, rfl, removeDirs_follows φ ids⟩

theorem reopen_follows (φ : Reading) (now : ℤ) :
    Follows RecoverMoves φ (TaskStore.reopen now) fun _ _ ↦ True := by
  refine .bind (B := fun _ _ ↦ True) ?_ fun _ ψ _ ↦ cleanupExpired_follows ψ now
  rintro (e | names)
  · exact ⟨φ, rfl, trivial⟩
  · refine ⟨φ, rfl, (recoverEntries_follows φ names).mono fun x _ _ ↦ ?_⟩
    cases x <;> trivial

variable {parse : String → Option ℤ} {retention : ℕ}

/-- A deletion that is careful. -/
theorem Tidy.removeDirAll {w w' : Storage} (h : Tidy codec w) {x : Except String Unit}
    (ha : fileAct codec parse retention (.removeDirAll name) w x w')
    (hi : Intact codec (.removeDirAll name) w x w') : Tidy codec w' := by
  have hfilter : Tidy codec (w.onDisk (·.filter fun e ↦ e.1 ≠ name)) :=
    h.shrink (fun n d hm ↦ ⟨d, List.mem_of_mem_filter hm, rfl⟩) fun t ht ↦ ht
  rcases x with e | _
  · rcases ha with rfl | ⟨events, outputs, rfl⟩
    · exact hfilter
    · refine h.shrink (fun n d hm ↦ ?_) fun t ht ↦ ht
      rcases mem_modify hm with ⟨-, hold⟩ | ⟨rfl, -⟩
      · exact ⟨d, hold, rfl⟩
      · exact hi d hm
  · obtain rfl := ha
    exact hfilter

/-- What is kept up where `recover` is. -/
def TidyAt (codec : LineCodec TaskSnapshot) (φ : Reading) (w : Storage) : Prop :=
  Tidy codec w ∧ ∀ name s, φ = some (name, s) → s.taskId.text = name

theorem tidy_invariant :
    Invariant (laterMachine codec parse retention (.full codec)) RecoverMoves (TidyAt codec) where
  env _ _ _ _ h := h.elim
  act φ o w x w' ψ hφ ha hg := by
    obtain ⟨h, hread⟩ := hφ
    obtain ⟨ha, hi⟩ := ha
    cases o with
    | persist name r =>
      obtain ⟨⟨now, dir, s, rfl, rfl⟩, rfl⟩ := hg
      refine ⟨h.persist (x := x) ?_ hi, hread⟩
      rw [← hread name s rfl, ← recoverRecord_id now dir s]
      rfl
    | insert name r =>
      obtain ⟨⟨now, dir, s, rfl, rfl⟩, rfl⟩ := hg
      obtain rfl := ha
      refine ⟨h.insert ?_ rfl, hread⟩
      rw [← hread name s rfl, recoverRecord_id now dir s]
    | readLatest name =>
      rcases x with e | _ | s
      · obtain rfl : w' = w := ha
        obtain rfl := hg
        exact ⟨h, hread⟩
      · obtain ⟨-, rfl⟩ := ha
        obtain rfl := hg
        exact ⟨h, hread⟩
      · obtain ⟨⟨dir, hdir, hs⟩, rfl⟩ := ha
        refine ⟨h, fun n s' hn ↦ ?_⟩
        obtain ⟨rfl, rfl⟩ : name = n ∧ s = s' := by
          rw [show ψ = some (name, s) from hg] at hn
          simpa using hn
        obtain ⟨s'', hs'', hid⟩ := (h.logs name dir hdir).readLatest
        obtain rfl : s = s'' := Option.some.inj (Except.ok.inj (hs.symm.trans hs''))
        exact hid
    | removeDirAll name =>
      obtain rfl : ψ = φ := by cases x <;> exact hg
      exact ⟨h.removeDirAll ha hi, hread⟩
    | remove id =>
      obtain ⟨-, rfl⟩ := ha
      obtain rfl := hg
      exact ⟨h.shrink (fun n d hm ↦ ⟨d, hm, rfl⟩) fun t ht ↦ List.mem_of_mem_filter ht, hread⟩
    | increment =>
      obtain rfl := ha
      obtain rfl := hg
      exact ⟨⟨h.logs, h.records⟩, hread⟩
    | now =>
      obtain rfl := ha
      obtain rfl := hg
      exact ⟨h, hread⟩
    | nextEntry =>
      obtain rfl := ha
      obtain rfl : ψ = φ := by cases x <;> exact hg
      exact ⟨h, hread⟩
    | readDir | isDir name =>
      obtain rfl : w' = w := by
        rcases x with e | _
        · exact ha
        · exact ha.2
      obtain rfl : ψ = φ := by cases x <;> exact hg
      exact ⟨h, hread⟩
    | readOutput name | collect now =>
      obtain ⟨-, rfl⟩ := ha
      obtain rfl := hg
      exact ⟨h, hread⟩
    | createDir name | writeOutput name stream => cases x <;> exact hg.elim

/-! ## Creating -/

/-- Where `create` is. -/
inductive Creation
  /-- There is no directory. -/
  | before
  /-- There is a directory without a log. -/
  | made
  /-- Something has failed behind that. -/
  | broken
  /-- The first event has been written. -/
  | logged

/-- What `create` does. -/
inductive CreateMoves (id : Uuid) : ControlGraph fileOps Creation
  | refused {e : String} : CreateMoves id .before (.createDir id.text) (.error e) .before
  | make : CreateMoves id .before (.createDir id.text) (.ok ()) .made
  | now {now : String} : CreateMoves id .made .now now .made
  | write {stream : OutputStream} :
      CreateMoves id .made (.writeOutput id.text stream) (.ok ()) .made
  | notWritten {stream : OutputStream} {e : String} :
      CreateMoves id .made (.writeOutput id.text stream) (.error e) .broken
  | log {r : TaskRecord} (h : r.snapshot.taskId = id) :
      CreateMoves id .made (.persist id.text r) (.ok ()) .logged
  | notLogged {r : TaskRecord} {e : String} :
      CreateMoves id .made (.persist id.text r) (.error e) .broken
  | insert {r : TaskRecord} (h : r.id = id ∧ r.snapshot.taskId = id) :
      CreateMoves id .logged (.insert id.text r) () .logged
  | increment : CreateMoves id .logged .increment () .logged

/-- Where `create` is when it may be dropped without harm. -/
theorem CreateMoves.phase {id : Uuid} {φ ψ : Creation} {o : StoreOp} {x : fileOps.Resp o}
    (h : CreateMoves id φ o x ψ) :
    match o with
    | .createDir _ => φ = .before
    | .insert _ _ => φ = .logged
    | _ => True := by
  cases h <;> trivial

/-- Where `create` ends. -/
def CreateEnds : Except String TaskRecord → Creation → Prop
  | .ok _, φ => φ = .logged
  | .error _, φ => φ = .before ∨ φ = .broken

theorem writeOutputs_follows (id : Uuid) (streams : List OutputStream) :
    Follows (CreateMoves id) .made (TaskStore.writeOutputs id.text streams) fun x φ ↦
      match x with
      | .ok _ => φ = .made
      | .error e => CreateEnds (.error e) φ := by
  induction streams with
  | nil => rfl
  | cons stream rest ih =>
    rintro (e | _)
    · exact ⟨.broken, .notWritten, .inr rfl⟩
    · exact ⟨.made, .write, ih⟩

theorem create_follows (path : String) (id : Uuid) (route : String) (mode : OutputMode)
    (encoding : OutputEncoding) :
    Follows (CreateMoves id) .before (TaskStore.create path id route mode encoding) CreateEnds := by
  rintro (e | _)
  · exact ⟨.before, .refused, .inl rfl⟩
  refine ⟨.made, .make, fun now ↦ ⟨.made, .now, ?_⟩⟩
  show Follows (CreateMoves id) .made (TaskStore.writeOutputs id.text mode.streams >>= fun _ ↦ _) _
  refine .bind (B := fun _ φ ↦ φ = Creation.made)
    ((writeOutputs_follows id mode.streams).mono fun x _ hx ↦ by cases x <;> exact hx) ?_
  rintro - _ rfl
  rintro (e | _)
  · exact ⟨.broken, .notLogged, .inr rfl⟩
  · exact ⟨.logged, .log rfl, fun _ ↦ ⟨.logged, .insert ⟨rfl, rfl⟩, fun _ ↦
      ⟨.logged, .increment, rfl⟩⟩⟩

/-- What `create` has done to the store `w₀`. -/
def CreatedFrom (codec : LineCodec TaskSnapshot) (id : Uuid) (w₀ : Storage) :
    Creation → Storage → Prop
  | .before, w => w = w₀
  | .made, w => id.text ∉ w₀.disk.map Prod.fst ∧
      ∃ output, w = w₀.onDisk (· ++ [(id.text, some ⟨none, output⟩)])
  | .broken, _ => False
  | .logged, w => Tidy codec w

/-- A directory at the end is the only one with its name. -/
theorem modify_append_of_notMem {disk : Disk} (h : name ∉ disk.map Prod.fst)
    (f : TaskDir → TaskDir) (dir : TaskDir) :
    (disk ++ [(name, some dir)]).modify name f = disk ++ [(name, some (f dir))] :=
  modify_split h List.not_mem_nil f dir

theorem create_invariant {id : Uuid} {w₀ : Storage} (h₀ : Tidy codec w₀) :
    Invariant (creatingMachine codec parse retention (.full codec)) (CreateMoves id)
      (CreatedFrom codec id w₀) where
  env _ _ _ _ h := h.elim
  act φ o w x w' ψ hφ ha hg := by
    obtain ⟨ha, hw⟩ := ha
    cases hg with
    | refused =>
      obtain rfl : w' = w := ha
      exact hφ
    | make =>
      obtain rfl := hφ
      exact ⟨ha.1, _, ha.2⟩
    | now =>
      obtain rfl := ha
      exact hφ
    | write =>
      rename_i stream
      obtain ⟨hnew, output, rfl⟩ := hφ
      obtain rfl := ha
      refine ⟨hnew, Function.update output stream (some []), ?_⟩
      simp only [Storage.onDisk, modify_append_of_notMem hnew]
      rfl
    | notWritten => cases hw
    | notLogged => cases hw
    | log hr =>
      rename_i r
      obtain ⟨hnew, output, rfl⟩ := hφ
      obtain ⟨-, rfl⟩ := ha
      refine ⟨fun n d hm ↦ ?_, h₀.records⟩
      simp only [Storage.onDisk, modify_append_of_notMem hnew] at hm
      rcases List.mem_append.mp hm with hm | hm
      · exact h₀.logs n d hm
      · obtain ⟨rfl, rfl⟩ : n = id.text ∧ d = _ := by simpa using hm
        exact goodLog_line (e := r.visible) (congrArg Uuid.text hr) rfl
    | insert hr =>
      obtain rfl := ha
      exact Tidy.insert hφ (by rw [hr.1]) (hr.2.trans hr.1.symm)
    | increment =>
      obtain rfl := ha
      have hw : Tidy codec w := hφ
      exact ⟨hw.logs, hw.records⟩

/-- **A careful `create`** is left with a tidy store; if it fails, it has done nothing. -/
theorem create_run {path route : String} {id : Uuid} {mode : OutputMode}
    {encoding : OutputEncoding} {w w' : Storage} {p : Prog fileOps String TaskRecord}
    (h : Tidy codec w)
    (hrun : (creatingMachine codec parse retention (.full codec)).Run
      (TaskStore.create path id route mode encoding, w) (p, w')) :
    (LeftAt AroundLog p → Tidy codec w') ∧ ∀ e, p = .fail e → w' = w := by
  have hinv : Invariant (creatingMachine codec parse retention (.full codec)) (CreateMoves id)
    (CreatedFrom codec id w) := create_invariant h
  have hstart : Tracked (CreateMoves id) (CreatedFrom codec id w) CreateEnds
    (TaskStore.create path id route mode encoding, w) :=
    ⟨.before, create_follows path id route mode encoding, rfl⟩
  obtain ⟨φ, hf, hφ⟩ := hinv.run hstart hrun
  constructor
  · intro hleft
    cases p with
    | ret r =>
      obtain rfl : φ = .logged := hf
      exact hφ
    | fail e =>
      obtain rfl | rfl : φ = .before ∨ φ = .broken := hf
      · obtain rfl : w' = w := hφ
        exact h
      · exact hφ.elim
    | call o k =>
      cases o with
      | createDir name =>
        obtain ⟨ψ, hg, -⟩ := hf (.ok ())
        obtain rfl : φ = .before := hg.phase
        obtain rfl : w' = w := hφ
        exact h
      | insert name r =>
        obtain ⟨ψ, hg, -⟩ := hf ()
        obtain rfl : φ = .logged := hg.phase
        exact hφ
      | _ => exact hleft.elim
  · rintro e rfl
    obtain rfl | rfl : φ = .before ∨ φ = .broken := hf
    · exact hφ
    · exact hφ.elim

/-! ## Whole runs -/

/-- One careful step. -/
theorem Tidy.step {w w' : Storage} (h : Tidy codec w)
    (hs : StoreStep codec parse retention (.full codec) w w') : Tidy codec w' := by
  have hclosed : Tidy codec { w with tasks := [], active := 0 } := ⟨h.logs, by simp⟩
  cases hs with
  | create hrun hp => exact (create_run h hrun).1 hp
  | cleanup hrun =>
    obtain ⟨φ, -, hφ⟩ := tidy_invariant.run
      ⟨none, cleanupExpired_follows none _, h, fun _ _ hn ↦ by cases hn⟩ hrun
    exact hφ.1
  | reopen hrun =>
    obtain ⟨φ, -, hφ⟩ := tidy_invariant.run
      ⟨none, reopen_follows none _, hclosed, fun _ _ hn ↦ by cases hn⟩ hrun
    exact hφ.1
  | notOpened hrun =>
    obtain ⟨φ, -, hφ⟩ := tidy_invariant.run
      ⟨none, reopen_follows none _, hclosed, fun _ _ hn ↦ by cases hn⟩ hrun
    exact ⟨hφ.1.logs, by simp⟩
  | transition hr hs hact =>
    rename_i name r s x
    obtain ⟨hid, -⟩ := h.records _ hr
    have hinsert := h.insert (r := { r with snapshot := s }) hid hs
    exact hinsert.persist (x := x) (by rw [hs]; exact hid) hact.2

/-- **No orphaned directory**: in every run without a failure or drop of `create` between the
directory and its first event, without a deletion that stops halfway, and without a line cut inside
a character.  A `create` that fails then has changed nothing. -/
theorem no_orphans {w : Storage}
    (hrun : ReflTransGen (StoreStep codec parse retention (.full codec)) ⟨[], [], 0⟩ w) :
    NoOrphan codec w ∧ ∀ path id route mode encoding e w',
      (creatingMachine codec parse retention (.full codec)).Run
          (TaskStore.create path id route mode encoding, w) (.fail e, w') →
        w'.tasks = w.tasks ∧ w'.active = w.active ∧
          w'.disk.map Prod.fst = w.disk.map Prod.fst := by
  have h : Tidy codec w := by
    induction hrun with
    | refl => exact ⟨by simp, by simp⟩
    | tail _ hs ih => exact ih.step hs
  refine ⟨h.noOrphan, fun path id route mode encoding e w' hcreate ↦ ?_⟩
  obtain rfl := (create_run h hcreate).2 e rfl
  exact ⟨rfl, rfl, rfl⟩

/-- Care only forbids. -/
theorem run_of_full {α : Type} {M N : Machine fileOps Storage}
    (hM : ∀ o w x w', M.act o w x w' → N.act o w x w') (henv : ∀ w w', ¬ M.env w w')
    {c c' : Prog fileOps String α × Storage} (h : M.Run c c') : N.Run c c' := by
  obtain ⟨v, hrun, rfl⟩ := h.simulate (R := Eq)
    (fun o w x w' v hv ha ↦ ⟨w', hM o v x w' (hv ▸ ha), rfl⟩)
    (fun w w' _ _ he ↦ absurd he (henv w w')) rfl
  exact hrun

/-- Careful steps are steps. -/
theorem StoreStep.of_full {w w' : Storage}
    (h : StoreStep codec parse retention (.full codec) w w') :
    StoreStep codec parse retention .none w w' := by
  have hlater : ∀ o w x w', (laterMachine codec parse retention (.full codec)).act o w x w' →
      (laterMachine codec parse retention .none).act o w x w' := fun _ _ _ _ h ↦ ⟨h.1, trivial⟩
  have hcreating : ∀ o w x w', (creatingMachine codec parse retention (.full codec)).act o w x w' →
      (creatingMachine codec parse retention .none).act o w x w' := fun _ _ _ _ h ↦ ⟨h.1, trivial⟩
  cases h with
  | create hrun hp =>
    refine .create (run_of_full hcreating (fun _ _ h ↦ h) hrun) ?_
    revert hp
    rename_i p
    cases p with
    | call o k => cases o <;> first | exact fun _ ↦ trivial | exact id
    | ret r => exact id
    | fail e => exact id
  | cleanup hrun => exact .cleanup (run_of_full hlater (fun _ _ h ↦ h) hrun)
  | reopen hrun => exact .reopen (run_of_full hlater (fun _ _ h ↦ h) hrun)
  | notOpened hrun => exact .notOpened (run_of_full hlater (fun _ _ h ↦ h) hrun)
  | transition hr hs hact => exact .transition hr hs (hlater _ _ _ _ hact)

end

/-- The record of a task that has just been created. -/
def newRecord : TaskRecord :=
  .new (.created 1 "/deploy" .combined .utf8 "2026-01-01T00:00:00Z")

/-- A task is created in an empty store. -/
theorem no_orphans_created :
    ∃ w dir, StoreStep snapshotCodec (fun _ ↦ none) 3600 (.full snapshotCodec) ⟨[], [], 0⟩ w ∧
      (Uuid.text 1, some dir) ∈ w.disk ∧ NoOrphan snapshotCodec w := by
  have hrun : (creatingMachine snapshotCodec (fun _ ↦ none) 3600 (.full snapshotCodec)).Run
      (TaskStore.create "tasks/1" 1 "/deploy" .combined .utf8, ⟨[], [], 0⟩)
      (.ret newRecord, ⟨[(Uuid.text 1, some ((TaskDir.touch .combined .empty).append
        (snapshotCodec.line newRecord.visible)))], [(Uuid.text 1, newRecord)], 1⟩) := by
    refine .head (.act (S := fileOps) (o := .createDir (Uuid.text 1)) (r := .ok ())
      ⟨⟨by simp, rfl⟩, trivial⟩) ?_
    refine .head (.act (S := fileOps) (o := .now) (r := "2026-01-01T00:00:00Z") ⟨rfl, trivial⟩) ?_
    refine .head (.act (S := fileOps) (o := .writeOutput (Uuid.text 1) .combined) (r := .ok ())
      ⟨rfl, rfl⟩) ?_
    refine .head (.act (S := fileOps) (o := .persist (Uuid.text 1) newRecord) (r := .ok ())
      ⟨⟨⟨_, List.mem_singleton_self _⟩, rfl⟩, rfl⟩) ?_
    refine .head (.act (S := fileOps) (o := .insert (Uuid.text 1) newRecord) (r := ())
      ⟨rfl, trivial⟩) ?_
    exact .single (.act (S := fileOps) (o := .increment) (r := ()) ⟨rfl, trivial⟩)
  have hstep := StoreStep.create hrun trivial
  exact ⟨_, _, hstep, List.mem_singleton_self _, (no_orphans (.single hstep)).1⟩

/-- The output file cannot be written: `create` fails, and leaves a directory that nobody knows. -/
theorem create_leaves_orphan :
    ∃ w e, (creatingMachine snapshotCodec (fun _ ↦ none) 3600 .none).Run
        (TaskStore.create "tasks/1" 1 "/deploy" .combined .utf8, ⟨[], [], 0⟩) (.fail e, w) ∧
      StoreStep snapshotCodec (fun _ ↦ none) 3600 .none ⟨[], [], 0⟩ w ∧
      ¬ NoOrphan snapshotCodec w ∧ w.disk ≠ [] := by
  have hrun : (creatingMachine snapshotCodec (fun _ ↦ none) 3600 .none).Run
      (TaskStore.create "tasks/1" 1 "/deploy" .combined .utf8, ⟨[], [], 0⟩)
      (.fail "No space left on device", ⟨[(Uuid.text 1, some .empty)], [], 0⟩) := by
    refine .head (.act (S := fileOps) (o := .createDir (Uuid.text 1)) (r := .ok ())
      ⟨⟨by simp, rfl⟩, trivial⟩) ?_
    refine .head (.act (S := fileOps) (o := .now) (r := "2026-01-01T00:00:00Z") ⟨rfl, trivial⟩) ?_
    exact .single (.act (S := fileOps) (o := .writeOutput (Uuid.text 1) .combined)
      (r := .error "No space left on device") ⟨.inl rfl, trivial⟩)
  refine ⟨_, _, hrun, .create hrun trivial, fun h ↦ ?_, List.cons_ne_nil _ _⟩
  rcases h _ _ (List.mem_singleton_self _) with hm | hm
  · exact absurd hm (by simp)
  · obtain ⟨rs, hrs, hm⟩ := hm fun _ ↦ ""
    obtain rfl : [] = rs := Except.ok.inj hrs
    exact absurd hm (by simp [insertAll])

end CommandApi
