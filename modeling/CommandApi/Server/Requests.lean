import CommandApi.Async.Threads
import CommandApi.Server.Retention
import CommandApi.Server.Teardown

/-!
# Requests about a task

`get_task`, `cancel_task` and `kill_task` next to the runners, to `create` and to the passes of
`cleanup_expired`, any number of each at any time.  A handler looks a task up in the map more than
once, and reads its record at some other moment; in between, the task may go on, finish, expire and
be removed.

What a client is told about a task never goes back: an answer to a request that was made after
another one had been answered says the same as the other or more (`answers_move_forward`).
-/

set_option autoImplicit false

namespace CommandApi

open Async Text Relation

/-! ## How a record goes on -/

/-- `s'` may be seen after `s`. -/
structure Continues (s s' : TaskSnapshot) : Prop where
  origin : s'.origin = s.origin
  status : Forward s.status s'.status
  startedAt : s.startedAt.isSome = true → s'.startedAt = s.startedAt
  outputTruncated : s.outputTruncated = true → s'.outputTruncated = true
  finished : s.status.isFinished = true → s' = { s with outputTruncated := s'.outputTruncated }

namespace Continues

theorem refl (s : TaskSnapshot) : Continues s s :=
  ⟨rfl, .refl _, fun _ ↦ rfl, id, fun _ ↦ rfl⟩

theorem trans {s₁ s₂ s₃ : TaskSnapshot} (h₁ : Continues s₁ s₂) (h₂ : Continues s₂ s₃) :
    Continues s₁ s₃ where
  origin := h₂.origin.trans h₁.origin
  status := h₁.status.trans h₂.status
  startedAt h := by
    have h' := h₁.startedAt h
    rw [h₂.startedAt (by rwa [h']), h']
  outputTruncated := h₂.outputTruncated ∘ h₁.outputTruncated
  finished h := by
    have hs := h₁.finished h
    have hs' := h₂.finished (by rw [hs]; exact h)
    rw [hs', hs]

/-- A task that is finished stays so. -/
theorem isFinished {s s' : TaskSnapshot} (h : Continues s s') (hs : s.status.isFinished = true) :
    s'.status.isFinished = true := by
  rw [h.status.2 hs]
  exact hs

end Continues

section

variable {P : Platform} {route : ResolvedRoute} {line : TaskSnapshot → List UInt8}
  {s s' : TaskSnapshot} {w w' : World} {φ ψ : Phase} {o : Op} {r : runner.Resp o}

/-- The transition to `Running` is made by a task that has not been started. -/
theorem startedAt_kept (hm : Moves P route φ o r ψ) (hs : Facts φ s) (hc : Changes o s s')
    (h : s.startedAt.isSome = true) : s'.startedAt = s.startedAt := by
  cases hm with
  | toRunning => exact absurd rfl (hs.1.startedAt.mp h)
  | forceNow | toGraceful _ | toForced _ _ | toLate _ | toFinal _ _ =>
    obtain ⟨now, rfl⟩ := hc
    rfl
  | toError error =>
    obtain ⟨now, rfl⟩ := hc
    rw [toExecutorError]
    split <;> rfl
  | _ => exact congrArg TaskSnapshot.startedAt hc

/-- **A move of the runner continues the snapshot**, whatever the flag of the record is. -/
theorem continues_move (hm : Moves P route φ o r ψ) (hs : Facts φ s) (hc : Changes o s s')
    (flag : Bool) :
    Continues { s with outputTruncated := flag } { s' with outputTruncated := flag } := by
  have horigin : s'.origin = s.origin := origin_move hm hc
  have hstatus : Forward s.status s'.status := forward_move hm hs hc
  have hstarted : s.startedAt.isSome = true → s'.startedAt = s.startedAt := startedAt_kept hm hs hc
  refine ⟨horigin, hstatus, hstarted, id, fun h ↦ ?_⟩
  rw [finished_move hm hs h hc]

theorem Surroundings.outputTruncated (h : Surroundings P w w') (hw : w.outputTruncated = true) :
    w'.outputTruncated = true := by
  cases h with
  | truncate => rfl
  | _ => exact hw

theorem Surroundings.stop_isSome (h : Surroundings P w w') (hw : w.stop.isSome = true) :
    w'.stop.isSome = true := by
  cases h with
  | requestStop => rfl
  | _ => exact hw

/-- `w'` may follow `w`. -/
structure World.Continues (w w' : World) : Prop where
  visible : CommandApi.Continues w.visible w'.visible
  /-- The stop cell is not emptied. -/
  stop : w.stop.isSome = true → w'.stop.isSome = true

theorem continues_run {j : Job} {q : Task Unit} (h : j.OnTrack P)
    (hr : (taskMachine P line).Run (j.program, j.world) (q, w')) : j.world.Continues w' := by
  refine settled_invariant.run_rel (R := World.Continues) (fun w ↦ ⟨.refl _, id⟩)
    (fun _ _ _ h₁ h₂ ↦ ⟨h₁.visible.trans h₂.visible, h₂.stop ∘ h₁.stop⟩) ?_ ?_ h hr
  · intro φ w w' _ he
    refine ⟨?_, he.stop_isSome⟩
    rw [World.visible, World.visible, he.frame.1]
    exact ⟨rfl, .refl _, fun _ ↦ rfl, he.outputTruncated, fun _ ↦ rfl⟩
  · intro φ o w r w' ψ h ha hm
    have hshape := taskEffect_shape ha
    obtain ⟨s', hc, hs'⟩ := taskEffect_changes ha
    refine ⟨?_, by rw [hshape.stop]; exact id⟩
    rw [World.visible, World.visible, hs', hshape.outputTruncated]
    exact continues_move hm h.1 hc _

end

/-! ## The records and the map -/

def Entry.visible : Entry → TaskSnapshot
  | recovered r => r.visible
  | created j => j.world.visible

/-- `send_replace` on the stop cell of the record.  Nobody reads the cell of a rebuilt one. -/
def Entry.requestStop (reason : StopReason) : Entry → Entry
  | recovered r => recovered r
  | created j => created { j with world := j.world.requestStop reason }

/-- The records there are, and the keys of the tasks map.  A handler may hold a record that is not
in the map any more. -/
structure Board where
  records : List Entry
  mapped : List Uuid

namespace Board

/-- The map `TaskStore::open` returns. -/
def opened (store : TaskStore) : Board where
  records := (store.tasks.map (·.2.id)).dedup.filterMap fun id ↦ (store.get id).map .recovered
  mapped := (store.tasks.map (·.2.id)).dedup

def requestStop (b : Board) (id : Uuid) (reason : StopReason) : Board :=
  { b with records := b.records.map fun e ↦ if e.id = id then e.requestStop reason else e }

/-- There is a record of the task. -/
def Known (b : Board) (id : Uuid) : Prop := ∃ e ∈ b.records, e.id = id

/-- The task has been created since the store was opened. -/
def Created (b : Board) (id : Uuid) : Prop := ∃ j, .created j ∈ b.records ∧ j.taskId = id

/-- … and its stop cell has been written. -/
def Requested (b : Board) (id : Uuid) : Prop :=
  ∃ j, .created j ∈ b.records ∧ j.taskId = id ∧ j.world.stop.isSome = true

/-- The task is over. -/
def Finished (b : Board) (id : Uuid) : Prop := ∃ e ∈ b.records, e.id = id ∧ e.finished = true

/-- The records, as a pass of `cleanup_expired` takes them. -/
def shelf (b : Board) : Shelf := ⟨b.records, [], []⟩

end Board

/-- A runner makes a step, or a task is created. -/
inductive Background (P : Platform) (line : TaskSnapshot → List UInt8) : Board → Board → Prop
  | run {b : Board} {pre post : List Entry} {route : ResolvedRoute} {p q : Task Unit} {w v : World}
      (h : b.records = pre ++ .created ⟨route, p, w⟩ :: post)
      (hs : (taskMachine P line).Step (p, w) (q, v)) :
      Background P line b { b with records := pre ++ .created ⟨route, q, v⟩ :: post }
  | create {b : Board} (route : ResolvedRoute) (args : List String) (id : Uuid) (now : String)
      (h : id ∉ b.records.map Entry.id) :
      Background P line b
        ⟨.created ⟨route, startTask P route args, route.world line id now⟩ :: b.records,
          id :: b.mapped⟩

/-! ## The handlers -/

/-- What `cancel_task` and `kill_task` differ in. -/
structure StopEndpoint where
  reason : StopReason
  accepted : String
  finished : String
  deriving DecidableEq, Repr

def cancelTask : StopEndpoint where
  reason := .cancelled
  accepted := "已请求任务平滑退出"
  finished := "任务已经结束，无法取消"

def killTask : StopEndpoint where
  reason := .forceKilled
  accepted := "已请求立即强制终止整个任务进程树"
  finished := "任务已经结束，无法强制终止"

def taskNotFound : ApiError := ⟨404, "task_not_found", "任务不存在或已经过期"⟩

def StopEndpoint.taskFinished (endpoint : StopEndpoint) : ApiError :=
  ⟨409, "task_finished", endpoint.finished⟩

inductive Answer
  | task (view : TaskView)
  /-- With status 202. -/
  | accepted (message : String)
  | refused (error : ApiError)
  deriving DecidableEq, Repr

/-- Where a handler is, or a pass of `cleanup_expired`. -/
inductive Handler
  /-- `get_task` before it looks the task up, … -/
  | viewing (id : Uuid)
  /-- … and with the record. -/
  | viewed (id : Uuid)
  /-- `cancel_task` or `kill_task` before it looks the task up, … -/
  | stopping (endpoint : StopEndpoint) (id : Uuid)
  /-- … before `request_stop` does, … -/
  | found (endpoint : StopEndpoint) (id : Uuid)
  /-- … with the record, … -/
  | held (endpoint : StopEndpoint) (id : Uuid)
  /-- … and when it has seen that the task is not finished. -/
  | checked (endpoint : StopEndpoint) (id : Uuid)
  | answered (id : Uuid) (answer : Answer)
  | cleaning
  /-- The pass has read the time; these are yet to be looked at, and those are expired. -/
  | examining (now : ℤ) (todo due : List Uuid)
  | cleaned

/-- How a handler begins. -/
inductive Handler.Begins : Handler → Prop
  | view (id : Uuid) : Begins (.viewing id)
  | cancel (id : Uuid) : Begins (.stopping cancelTask id)
  | kill (id : Uuid) : Begins (.stopping killTask id)
  | cleanup : Begins .cleaning

/-- One step of a handler.  The byte counters of a view are read one after the other while the
readers count: they may be anything. -/
inductive HandlerStep (parse : String → Option ℤ) (retention : ℕ) :
    Board → Handler → Board → Handler → Prop
  | viewMissing {b : Board} {id : Uuid} (h : id ∉ b.mapped) :
      HandlerStep parse retention b (.viewing id) b (.answered id (.refused taskNotFound))
  | viewFound {b : Board} {id : Uuid} (h : id ∈ b.mapped) :
      HandlerStep parse retention b (.viewing id) b (.viewed id)
  | view {b : Board} {id : Uuid} {e : Entry} (now : ℤ) (r : TaskRecord) (he : e ∈ b.records)
      (hid : e.id = id) (hr : r.id = id) (hv : r.visible = e.visible) :
      HandlerStep parse retention b (.viewed id) b (.answered id (.task (r.view parse now)))
  | stopMissing {b : Board} {endpoint : StopEndpoint} {id : Uuid} (h : id ∉ b.mapped) :
      HandlerStep parse retention b (.stopping endpoint id) b
        (.answered id (.refused taskNotFound))
  | stopFound {b : Board} {endpoint : StopEndpoint} {id : Uuid} (h : id ∈ b.mapped) :
      HandlerStep parse retention b (.stopping endpoint id) b (.found endpoint id)
  /-- The task is removed between the two lookups. -/
  | foundMissing {b : Board} {endpoint : StopEndpoint} {id : Uuid} (h : id ∉ b.mapped) :
      HandlerStep parse retention b (.found endpoint id) b
        (.answered id (.refused endpoint.taskFinished))
  | hold {b : Board} {endpoint : StopEndpoint} {id : Uuid} (h : id ∈ b.mapped) :
      HandlerStep parse retention b (.found endpoint id) b (.held endpoint id)
  | late {b : Board} {endpoint : StopEndpoint} {id : Uuid} {e : Entry} (he : e ∈ b.records)
      (hid : e.id = id) (hf : e.visible.status.isFinished = true) :
      HandlerStep parse retention b (.held endpoint id) b
        (.answered id (.refused endpoint.taskFinished))
  | check {b : Board} {endpoint : StopEndpoint} {id : Uuid} {e : Entry} (he : e ∈ b.records)
      (hid : e.id = id) (hf : e.visible.status.isFinished = false) :
      HandlerStep parse retention b (.held endpoint id) b (.checked endpoint id)
  | stop {b : Board} {endpoint : StopEndpoint} {id : Uuid} :
      HandlerStep parse retention b (.checked endpoint id) (b.requestStop id endpoint.reason)
        (.answered id (.accepted endpoint.accepted))
  | collect {b : Board} (now : ℤ) (todo : List Uuid) (h : todo.Perm b.mapped) :
      HandlerStep parse retention b .cleaning b (.examining now todo [])
  | examine {b : Board} {now : ℤ} {id : Uuid} {todo due : List Uuid} {e : Entry}
      (he : e ∈ b.records) (hid : e.id = id) :
      HandlerStep parse retention b (.examining now (id :: todo) due) b
        (.examining now todo
          (if expired parse retention now e.snapshot then due ++ [id] else due))
  /-- The map is locked from the first removal to the last. -/
  | remove {b : Board} {now : ℤ} {due : List Uuid} :
      HandlerStep parse retention b (.examining now [] due)
        { b with mapped := b.mapped.filter (· ∉ due) } .cleaned

/-- The handlers next to the runners. -/
def api (P : Platform) (line : TaskSnapshot → List UInt8) (parse : String → Option ℤ)
    (retention : ℕ) : Threads Board Handler where
  act := HandlerStep parse retention
  arrives _ t := t.Begins
  env := Background P line

/-! ## What no step takes back -/

section

variable {P : Platform} {line : TaskSnapshot → List UInt8} {parse : String → Option ℤ}
  {retention : ℕ} {b b' : Board} {id : Uuid} {e e' : Entry} {t t' : Handler}

variable (P b) in
/-- The records are in order, and only finished ones have been removed from the map. -/
structure Board.Sound : Prop where
  shelf : b.shelf.Sound P
  unmapped : ∀ e ∈ b.records, e.id ∉ b.mapped → e.finished = true

variable (P line b b') in
/-- `b'` may follow `b`. -/
structure Board.Next : Prop where
  later : ∀ e ∈ b.records, ∃ e' ∈ b'.records, e.Later P line e'
  unmapped : ∀ e ∈ b.records, e.id ∉ b.mapped → e.id ∉ b'.mapped

/-- What the handlers know: a task that was not finished has a runner, and what a pass takes for
expired is finished. -/
def Handler.Sound (b : Board) : Handler → Prop
  | checked _ id => b.Created id
  | examining _ _ due => ∀ id ∈ due, b.Finished id
  | _ => True

theorem Entry.Later.continues (h : e.Later P line e') (he : e.Sound P) :
    Continues e.visible e'.visible := by
  cases e with
  | recovered r =>
    obtain rfl : e' = _ := h
    exact .refl _
  | created j =>
    obtain ⟨q, v, hr, rfl⟩ := h
    exact (continues_run he hr).visible

theorem Board.Next.refl (b : Board) : b.Next P line b :=
  ⟨fun e he ↦ ⟨e, he, .refl e⟩, fun _ _ h ↦ h⟩

theorem Board.Finished.next (h : b.Finished id) (hb : b.Sound P) (hn : b.Next P line b') :
    b'.Finished id := by
  obtain ⟨e, he, rfl, hfin⟩ := h
  obtain ⟨e', he', hl⟩ := hn.later e he
  obtain ⟨-, hid, hstays⟩ := hl.facts (hb.shelf.sound e he)
  exact ⟨e', he', hid, (hstays hfin).1⟩

theorem Board.Known.next (h : b.Known id) (hb : b.Sound P) (hn : b.Next P line b') :
    b'.Known id := by
  obtain ⟨e, he, rfl⟩ := h
  obtain ⟨e', he', hl⟩ := hn.later e he
  exact ⟨e', he', (hl.facts (hb.shelf.sound e he)).2.1⟩

theorem Entry.Later.created {j : Job} (h : Entry.Later P line (.created j) e') (hj : j.OnTrack P) :
    ∃ j', e' = .created j' ∧ j'.taskId = j.taskId ∧ j.world.Continues j'.world := by
  have hid := (h.facts hj).2.1
  obtain ⟨q, v, hr, rfl⟩ := h
  exact ⟨_, rfl, hid, continues_run hj hr⟩

theorem Board.Created.next (h : b.Created id) (hb : b.Sound P) (hn : b.Next P line b') :
    b'.Created id := by
  obtain ⟨j, hj, rfl⟩ := h
  obtain ⟨e', he', hl⟩ := hn.later _ hj
  obtain ⟨j', rfl, hid, -⟩ := hl.created (hb.shelf.sound _ hj)
  exact ⟨j', he', hid⟩

theorem Board.Requested.next (h : b.Requested id) (hb : b.Sound P) (hn : b.Next P line b') :
    b'.Requested id := by
  obtain ⟨j, hj, rfl, hstop⟩ := h
  obtain ⟨e', he', hl⟩ := hn.later _ hj
  obtain ⟨j', rfl, hid, hc⟩ := hl.created (hb.shelf.sound _ hj)
  exact ⟨j', he', hid, hc.stop hstop⟩

theorem Handler.Sound.next (h : t.Sound b) (hb : b.Sound P) (hn : b.Next P line b') :
    t.Sound b' := by
  cases t with
  | checked endpoint id => exact Board.Created.next h hb hn
  | examining now todo due => exact fun id hid ↦ Board.Finished.next (h id hid) hb hn
  | _ => trivial

/-- A record that is not in the map is finished. -/
theorem Board.Sound.finished_of_unmapped (hb : b.Sound P) (hk : b.Known id) (h : id ∉ b.mapped) :
    b.Finished id := by
  obtain ⟨e, he, rfl⟩ := hk
  exact ⟨e, he, rfl, hb.unmapped e he h⟩

theorem Background.meanwhile (h : Background P line b b') :
    Meanwhile P line b.shelf b'.shelf := by
  cases h with
  | run h hs => exact .run h hs
  | create route args id now h => exact .create route args id now h

/-- The records are in order still, if those that are not in the map were finished before. -/
theorem Board.Next.sound (hn : b.Next P line b') (hb : b.Sound P) (hshelf : b'.shelf.Sound P)
    (h : ∀ e' ∈ b'.records, e'.id ∉ b'.mapped → b.Finished e'.id) : b'.Sound P := by
  refine ⟨hshelf, fun e' he' hnot ↦ ?_⟩
  obtain ⟨e, he, hid, hfin⟩ := (h e' he' hnot).next hb hn
  obtain rfl := hshelf.unique he he' hid
  exact hfin

/-- A record that is new is in the map. -/
theorem Background.mapped (h : Background P line b b') (hb : b.Sound P) :
    (∀ e ∈ b.records, e.id ∉ b.mapped → e.id ∉ b'.mapped) ∧
      ∀ e' ∈ b'.records, e'.id ∉ b'.mapped → b.Known e'.id ∧ e'.id ∉ b.mapped := by
  cases h with
  | @run pre post route p q w v h hs =>
    refine ⟨fun _ _ hnot ↦ hnot, fun e' he' hnot ↦ ⟨?_, hnot⟩⟩
    rcases List.mem_append.mp he' with he' | he'
    · exact ⟨e', by rw [h]; exact List.mem_append_left _ he', rfl⟩
    · rcases List.mem_cons.mp he' with rfl | he'
      · have hold : .created ⟨route, p, w⟩ ∈ b.records := by
          rw [h]
          exact List.mem_append_right _ List.mem_cons_self
        have htrack : Job.OnTrack P ⟨route, p, w⟩ := hb.shelf.sound _ hold
        exact ⟨_, hold, (htrack.step hs).2.1.symm⟩
      · exact ⟨e', by rw [h]; exact List.mem_append_right _ (List.mem_cons_of_mem _ he'), rfl⟩
  | create route args id now hnew =>
    constructor
    · intro e he hnot hmem
      rcases List.mem_cons.mp hmem with rfl | hmem
      · exact hnew (List.mem_map_of_mem he)
      · exact hnot hmem
    · intro e' he' hnot
      rcases List.mem_cons.mp he' with rfl | he'
      · exact absurd List.mem_cons_self hnot
      · exact ⟨⟨e', he', rfl⟩, fun h ↦ hnot (List.mem_cons_of_mem _ h)⟩

/-- **What the others keep.** -/
theorem Background.next (h : Background P line b b') (hb : b.Sound P) :
    b'.Sound P ∧ b.Next P line b' := by
  obtain ⟨hstays, hold⟩ := h.mapped hb
  have hn : b.Next P line b' := ⟨h.meanwhile.later.2.2, hstays⟩
  refine ⟨hn.sound hb (hb.shelf.env h.meanwhile) fun e' he' hnot ↦ ?_, hn⟩
  obtain ⟨hk, hnot'⟩ := hold e' he' hnot
  exact hb.finished_of_unmapped hk hnot'

theorem Entry.later_requestStop (e : Entry) (reason : StopReason) :
    e.Later P line (e.requestStop reason) := by
  cases e with
  | recovered r => exact rfl
  | created j => exact ⟨_, _, .single (.env (.requestStop reason)), rfl⟩

variable (line) in
theorem Board.Sound.requestStop (hb : b.Sound P) (id : Uuid) (reason : StopReason) :
    (b.requestStop id reason).Sound P ∧ b.Next P line (b.requestStop id reason) := by
  have hlater (e : Entry) : e.Later P line (if e.id = id then e.requestStop reason else e) := by
    split
    · exact e.later_requestStop reason
    · exact .refl e
  have hfacts (e : Entry) (he : e ∈ b.records) := (hlater e).facts (hb.shelf.sound e he)
  have hn : b.Next P line (b.requestStop id reason) :=
    ⟨fun e he ↦ ⟨_, List.mem_map_of_mem he, hlater e⟩, fun _ _ hnot ↦ hnot⟩
  have hshelf : (b.requestStop id reason).shelf.Sound P := by
    constructor
    · have hids : (b.requestStop id reason).records.map Entry.id = b.records.map Entry.id := by
        rw [Board.requestStop, List.map_map]
        exact List.map_congr_left fun e he ↦ (hfacts e he).2.1
      exact hids ▸ hb.shelf.nodup
    · intro e' he'
      obtain ⟨e, he, rfl⟩ := List.mem_map.mp he'
      exact (hfacts e he).1
  refine ⟨hn.sound hb hshelf fun e' he' hnot ↦ hb.finished_of_unmapped ?_ hnot, hn⟩
  obtain ⟨e, he, rfl⟩ := List.mem_map.mp he'
  exact ⟨e, he, (hfacts e he).2.1.symm⟩

variable (line) in
/-- **What a step of a handler keeps.** -/
theorem HandlerStep.next (h : HandlerStep parse retention b t b' t') (hb : b.Sound P)
    (ht : t.Sound b) : b'.Sound P ∧ b.Next P line b' ∧ t'.Sound b' := by
  cases h with
  | stop =>
    obtain ⟨hb', hn⟩ := hb.requestStop line _ _
    exact ⟨hb', hn, trivial⟩
  | @check endpoint id e he hid hf =>
    refine ⟨hb, .refl b, ?_⟩
    cases e with
    | recovered r =>
      have hfin : r.visible.status.isFinished = true := hb.shelf.sound _ he
      exact absurd (hfin.symm.trans hf) (by decide)
    | created j => exact ⟨j, he, hid⟩
  | collect now todo h => exact ⟨hb, .refl b, fun _ h ↦ absurd h List.not_mem_nil⟩
  | @examine now id todo due e he hid =>
    refine ⟨hb, .refl b, fun x hx ↦ ?_⟩
    split at hx
    · rename_i hexp
      rcases List.mem_append.mp hx with hx | hx
      · exact ht x hx
      · rw [List.mem_singleton.mp hx]
        exact ⟨e, he, hid, (hb.shelf.sound e he).finished_of_expired hexp⟩
    · exact ht x hx
  | @remove now due =>
    have hn : b.Next P line { b with mapped := b.mapped.filter (· ∉ due) } :=
      ⟨fun e he ↦ ⟨e, he, .refl e⟩, fun _ _ hnot hmem ↦ hnot (List.mem_of_mem_filter hmem)⟩
    refine ⟨hn.sound hb ⟨hb.shelf.nodup, hb.shelf.sound⟩ fun e he hnot ↦ ?_, hn, trivial⟩
    by_cases hmem : e.id ∈ b.mapped
    · have hdue : e.id ∈ due := by
        by_contra h
        exact hnot (List.mem_filter.mpr ⟨hmem, decide_eq_true h⟩)
      exact ht _ hdue
    · exact hb.finished_of_unmapped ⟨e, he, rfl⟩ hmem
  | _ => exact ⟨hb, .refl b, trivial⟩

theorem api_interference : (api P line parse retention).Interference (Board.Sound P)
    fun b t ↦ t.Sound b where
  own b t b' t' hb ht ha := by
    obtain ⟨hb', -, ht'⟩ := HandlerStep.next line ha hb ht
    exact ⟨hb', ht'⟩
  other b t b' t' u hb ht ha hu := by
    obtain ⟨-, hn, -⟩ := HandlerStep.next line ha hb ht
    exact hu.next hb hn
  arrive b t _ h := by cases h <;> trivial
  env b b' hb he := by
    obtain ⟨hb', hn⟩ := Background.next he hb
    exact ⟨hb', fun u hu ↦ hu.next hb hn⟩

/-- The map a store is opened with. -/
theorem opened_sound {codec : LineCodec TaskSnapshot} {o : Opening} {disk disk' : Disk}
    {store : TaskStore} (h : openStore codec parse retention o disk = (disk', .ok store)) :
    (Board.opened store).Sound P := by
  have hrecord : ∀ id e, (store.get id).map Entry.recovered = some e →
      e.id = id ∧ e.Sound P ∧ id ∈ (store.tasks.map (·.2.id)).dedup := by
    intro id e he
    obtain ⟨r, hget, rfl⟩ := Option.map_eq_some_iff.mp he
    obtain ⟨t, ht, rfl⟩ := Option.map_eq_some_iff.mp hget
    have hid : t.2.id = id := by simpa using List.find?_some ht
    have hmem := List.mem_reverse.mp (List.mem_of_find?_eq_some ht)
    exact ⟨hid, openStore_finished h t hmem,
      List.mem_dedup.mpr (List.mem_map.mpr ⟨t, hmem, hid⟩)⟩
  refine ⟨⟨?_, fun e he ↦ ?_⟩, fun e he hnot ↦ ?_⟩
  · rw [Board.shelf, Board.opened, List.map_filterMap]
    refine (List.nodup_dedup _).filterMap fun id id' x hx hx' ↦ ?_
    obtain ⟨e, he, rfl⟩ := Option.map_eq_some_iff.mp hx
    obtain ⟨e', he', hid⟩ := Option.map_eq_some_iff.mp hx'
    rw [← (hrecord id e he).1, ← (hrecord id' e' he').1, hid]
  · obtain ⟨id, -, he⟩ := List.mem_filterMap.mp he
    exact (hrecord id e he).2.1
  · obtain ⟨id, hid, he⟩ := List.mem_filterMap.mp he
    exact absurd ((hrecord id e he).1 ▸ hid) hnot

/-! ## Answers -/

/-- The answer says that the task is over.  A refusal does, for a task there is. -/
def Answer.Ended : Answer → Prop
  | task view => view.task.status.isFinished = true
  | accepted _ => False
  | refused _ => True

variable (b id) in
/-- What an answer about a task says is so, and stays so. -/
structure Answer.Stands (a : Answer) : Prop where
  task : ∀ view, a = .task view → ∃ e ∈ b.records, e.id = id ∧ Continues view.task e.visible
  accepted : ∀ message, a = .accepted message → b.Requested id
  ended : a.Ended → b.Finished id
  gone : a = .refused taskNotFound → id ∉ b.mapped

/-- A request that is made when `a` has been answered may be answered with `a'`. -/
structure Answer.Precedes (a a' : Answer) : Prop where
  task : ∀ view view', a = .task view → a' = .task view' → Continues view.task view'.task
  ended : a.Ended → a'.Ended
  gone : a = .refused taskNotFound → a' = .refused taskNotFound

variable {a a' : Answer}

theorem Answer.Stands.next (h : a.Stands b id) (hb : b.Sound P) (hk : b.Known id)
    (hn : b.Next P line b') : a.Stands b' id where
  task view ha := by
    obtain ⟨e, he, rfl, hc⟩ := h.task view ha
    obtain ⟨e', he', hl⟩ := hn.later e he
    have hsound := hb.shelf.sound e he
    exact ⟨e', he', (hl.facts hsound).2.1, hc.trans (hl.continues hsound)⟩
  accepted message ha := (h.accepted message ha).next hb hn
  ended ha := (h.ended ha).next hb hn
  gone ha := by
    obtain ⟨e, he, rfl⟩ := hk
    exact hn.unmapped e he (h.gone ha)

/-- The task is known. -/
theorem known_interference (id : Uuid) : (api P line parse retention).Interference
    (fun b ↦ b.Sound P ∧ b.Known id) fun b t ↦ t.Sound b :=
  api_interference.and
    (fun _ _ _ _ hb ht hk ha ↦ hk.next hb (HandlerStep.next line ha hb ht).2.1)
    fun _ _ hb hk he ↦ hk.next hb (Background.next he hb).2

theorem Entry.visible_status (e : Entry) : e.visible.status = e.snapshot.status := by
  cases e <;> rfl

theorem StopEndpoint.taskFinished_ne (endpoint : StopEndpoint) :
    endpoint.taskFinished ≠ taskNotFound := by
  simp [StopEndpoint.taskFinished, taskNotFound]

theorem Answer.Stands.refused {error : ApiError} (h : b.Finished id)
    (hgone : error = taskNotFound → id ∉ b.mapped) : (Answer.refused error).Stands b id :=
  ⟨by simp, by simp, fun _ ↦ h, fun herror ↦ hgone (Answer.refused.inj herror)⟩

/-- An answer is right when it is given. -/
theorem HandlerStep.stands (h : HandlerStep parse retention b t b' t') (hb : b.Sound P)
    (hk : b.Known id) (ht : t.Sound b) {a : Answer} (ht' : t' = .answered id a) :
    a.Stands b' id := by
  cases h with
  | viewMissing hnot | stopMissing hnot =>
    obtain ⟨rfl, rfl⟩ := Handler.answered.inj ht'
    exact .refused (hb.finished_of_unmapped hk hnot) fun _ ↦ hnot
  | foundMissing hnot =>
    obtain ⟨rfl, rfl⟩ := Handler.answered.inj ht'
    exact .refused (hb.finished_of_unmapped hk hnot) fun _ ↦ hnot
  | @late endpoint _ e he hid hf =>
    obtain ⟨rfl, rfl⟩ := Handler.answered.inj ht'
    refine .refused ⟨e, he, hid, ?_⟩ fun h ↦ absurd h endpoint.taskFinished_ne
    rw [Entry.finished, ← e.visible_status]
    exact hf
  | @view _ e now r he hid hr hv =>
    obtain ⟨rfl, rfl⟩ := Handler.answered.inj ht'
    refine ⟨fun view hview ↦ ⟨e, he, hid, ?_⟩, by simp, fun hend ↦ ⟨e, he, hid, ?_⟩, by simp⟩
    · obtain rfl := Answer.task.inj hview
      exact hv ▸ .refl _
    · rw [Entry.finished, ← e.visible_status, ← hv]
      exact hend
  | stop =>
    obtain ⟨rfl, rfl⟩ := Handler.answered.inj ht'
    obtain ⟨j, hj, hid⟩ := ht
    refine ⟨by simp, fun _ _ ↦ ?_, False.elim, by simp⟩
    exact ⟨_, List.mem_map.mpr ⟨_, hj, if_pos hid⟩, hid, rfl⟩
  | _ => exact absurd ht' (by simp)

theorem stands_newcomers (id : Uuid) : (api P line parse retention).Newcomers
    (fun b ↦ b.Sound P ∧ b.Known id) (fun b t ↦ t.Sound b)
    fun b t ↦ ∀ a, t = .answered id a → a.Stands b id where
  own b t b' t' hb ht _ ha a ht' := HandlerStep.stands ha hb.1 hb.2 ht ht'
  other b t b' t' u hb ht ha hu a hu' :=
    (hu a hu').next hb.1 hb.2 (HandlerStep.next line ha hb.1 ht).2.1
  arrive b t _ h a ht := by
    subst ht
    cases h
  env b b' u hb he hu a hu' := (hu a hu').next hb.1 hb.2 (Background.next he hb.1).2

/-- What a handler knows when it has begun after `a` was given. -/
def Handler.After (a : Answer) (id : Uuid) : Handler → Prop
  | viewed id' | found _ id' | held _ id' => id' = id → a ≠ .refused taskNotFound
  | checked _ id' => id' = id → ¬ a.Ended
  | answered id' a' => id' = id → a.Precedes a'
  | _ => True

theorem Answer.Precedes.refused {error : ApiError}
    (h : a = .refused taskNotFound → error = taskNotFound) : a.Precedes (.refused error) :=
  ⟨by simp, fun _ ↦ trivial, fun ha ↦ congrArg _ (h ha)⟩

/-- Every step of a handler, after `a`. -/
theorem HandlerStep.after (h : HandlerStep parse retention b t b' t') (hb : b.Sound P)
    (hstands : a.Stands b id) (ht : t.After a id) : t'.After a id := by
  have hmapped : ∀ id', id' ∈ b.mapped → id' = id → a ≠ .refused taskNotFound := by
    rintro id' hmem rfl ha
    exact hstands.gone ha hmem
  have hfinished : ∀ e ∈ b.records, e.id = id → a.Ended → e.visible.status.isFinished = true := by
    intro e he hid ha
    obtain ⟨e₁, he₁, hid₁, hfin⟩ := hstands.ended ha
    obtain rfl := hb.shelf.unique he he₁ (hid.trans hid₁.symm)
    rw [e.visible_status]
    exact hfin
  cases h with
  | viewMissing | stopMissing => exact fun _ ↦ .refused fun _ ↦ rfl
  | viewFound hmem | stopFound hmem => exact hmapped _ hmem
  | foundMissing | late => exact fun hid ↦ .refused fun ha ↦ absurd ha (ht hid)
  | hold => exact ht
  | @check _ _ e he hid hf =>
    intro hid' ha
    exact absurd (hfinished e he (hid.trans hid') ha) (by simp [hf])
  | stop =>
    exact fun hid ↦ ⟨by simp, fun ha ↦ absurd ha (ht hid), fun ha ↦ absurd (ha ▸ trivial) (ht hid)⟩
  | @view _ e now r he hid hr hv =>
    intro hid'
    refine ⟨fun view view' ha ha' ↦ ?_, fun ha ↦ ?_, fun ha ↦ absurd ha (ht hid')⟩
    · obtain ⟨e₁, he₁, hid₁, hc⟩ := hstands.task view ha
      obtain rfl := hb.shelf.unique he he₁ ((hid.trans hid').trans hid₁.symm)
      obtain rfl := Answer.task.inj ha'
      show Continues view.task r.visible
      rwa [hv]
    · show r.visible.status.isFinished = true
      rw [hv]
      exact hfinished e he (hid.trans hid') ha
  | _ => trivial

theorem after_newcomers (a : Answer) (id : Uuid) : (api P line parse retention).Newcomers
    (fun b ↦ (b.Sound P ∧ b.Known id) ∧ a.Stands b id) (fun b t ↦ t.Sound b)
    fun _ t ↦ t.After a id where
  own b t b' t' hb _ ht ha := HandlerStep.after ha hb.1.1 hb.2 ht
  other b t b' t' u _ _ _ hu := hu
  arrive b t _ h := by cases h <;> trivial
  env b b' u _ _ hu := hu

/-- `a` goes on to stand. -/
theorem stands_interference (a : Answer) (id : Uuid) : (api P line parse retention).Interference
    (fun b ↦ (b.Sound P ∧ b.Known id) ∧ a.Stands b id) fun b t ↦ t.Sound b :=
  (known_interference id).and
    (fun _ _ _ _ hb ht hstands ha ↦
      hstands.next hb.1 hb.2 (HandlerStep.next line ha hb.1 ht).2.1)
    fun _ _ hb hstands he ↦ hstands.next hb.1 hb.2 (Background.next he hb.1).2

end

/-- **What clients are told about a task never goes back.**  The task is in the map at `c₁`; one
request about it is made after that and has been answered at `c₂`, and another is made after that
and has been answered at `c₃`, while handlers, runners and the passes of `cleanup_expired` go on in
any order.  Each answer says what is so when it is given and from then on, and the second one agrees
with the first. -/
theorem answers_move_forward (P : Platform) (codec : LineCodec TaskSnapshot)
    (parse : String → Option ℤ) (retention : ℕ) (o : Opening) (disk disk' : Disk)
    (store : TaskStore) (hopen : openStore codec parse retention o disk = (disk', .ok store))
    (id : Uuid) (c₁ c₂ c₃ : Board × List Handler)
    (h₁ : (api P codec.line parse retention).Run (.opened store, []) c₁) (hknown : c₁.1.Known id)
    (h₂ : (api P codec.line parse retention).Run c₁ c₂)
    (h₃ : (api P codec.line parse retention).Run c₂ c₃) (i j : ℕ) (a a' : Answer)
    (hi : c₁.2.length ≤ i) (ha : c₂.2[i]? = some (.answered id a))
    (hj : c₂.2.length ≤ j) (ha' : c₃.2[j]? = some (.answered id a')) :
    a.Stands c₂.1 id ∧ a'.Stands c₃.1 id ∧ a.Precedes a' := by
  obtain ⟨hb₁, hL₁⟩ := api_interference.run h₁ (opened_sound hopen)
    fun t ht ↦ absurd ht List.not_mem_nil
  obtain ⟨hb₂, hL₂⟩ := (known_interference id).run h₂ ⟨hb₁, hknown⟩ hL₁
  have hstands {c} (hr : (api P codec.line parse retention).Run c₁ c) :=
    (stands_newcomers id).run (known_interference id) hr ⟨hb₁, hknown⟩ hL₁
  have hi₂ : a.Stands c₂.1 id := hstands h₂ i _ hi ha a rfl
  obtain ⟨hlt, -⟩ := List.getElem?_eq_some_iff.mp ha
  refine ⟨hi₂, hstands (h₂.trans h₃) j _ (hi.trans (hlt.le.trans hj)) ha' a' rfl, ?_⟩
  exact (after_newcomers a id).run (stands_interference a id) h₃ ⟨hb₂, hi₂⟩ hL₂ j _ hj ha' rfl

/-! ## Two requests

A task has just been created; a client asks for it, and when that has been answered, kills it. -/

/-- The task, with nothing done by its runner. -/
def exampleBoard : Board where
  records := [.created ⟨exampleRoute, startTask .unix exampleRoute [],
    exampleRoute.world snapshotCodec.line 1 "2026-01-01T00:00:00Z"⟩]
  mapped := [1]

/-- What the client gets to see. -/
def exampleView : TaskView :=
  (TaskRecord.new (.created 1 exampleRoute.path exampleRoute.outputMode exampleRoute.outputEncoding
    "2026-01-01T00:00:00Z")).view (fun _ ↦ none) 0

/-- The steps of the handler that has come last. -/
theorem run_last {T : Threads Board Handler} {threads : List Handler} {b b' b'' : Board}
    {t t' t'' : Handler} (h : T.Run (b, threads ++ [t]) (b', threads ++ [t']))
    (ha : T.act b' t' b'' t'') : T.Run (b, threads ++ [t]) (b'', threads ++ [t'']) :=
  h.tail (@Threads.Step.act _ _ T b' b'' t' t'' threads [] ha)

/-- The view stands when the kill is accepted, which is written to the stop cell. -/
theorem answers_move_forward_killed :
    exampleView.task.status = .starting ∧
    ∃ c, (api .unix snapshotCodec.line (fun _ ↦ none) 3600).Run (.opened ⟨[]⟩, []) c ∧
      c = (exampleBoard.requestStop 1 .forceKilled,
        [.answered 1 (.task exampleView), .answered 1 (.accepted killTask.accepted)]) ∧
      (Answer.accepted killTask.accepted).Stands c.1 1 ∧
      (Answer.task exampleView).Precedes (.accepted killTask.accepted) := by
  let T := api .unix snapshotCodec.line (fun _ ↦ none) 3600
  have hopen : openStore snapshotCodec (fun _ ↦ none) 3600 ⟨fun _ ↦ "", 0, fun _ ↦ false⟩ [] =
      ([], .ok ⟨[]⟩) := rfl
  have hmem := List.mem_singleton_self (1 : Uuid)
  have he := List.mem_singleton_self (a := exampleBoard.records.head (by decide))
  have h₁ : T.Run (.opened ⟨[]⟩, []) (exampleBoard, []) :=
    .single (.env (.create exampleRoute [] 1 "2026-01-01T00:00:00Z" List.not_mem_nil))
  have h₂ : T.Run (exampleBoard, []) (exampleBoard, [] ++ [.answered 1 (.task exampleView)]) :=
    (ReflTransGen.single (.arrive (.view 1))).trans
      (run_last (run_last .refl (.viewFound hmem)) (.view 0 _ he rfl rfl rfl))
  have hcheck : T.act exampleBoard (.held killTask 1) exampleBoard (.checked killTask 1) :=
    .check he rfl rfl
  have hstop : T.act exampleBoard (.checked killTask 1) (exampleBoard.requestStop 1 .forceKilled)
      (.answered 1 (.accepted killTask.accepted)) := .stop
  have h₃ : T.Run (exampleBoard, [.answered 1 (.task exampleView)])
      (exampleBoard.requestStop 1 .forceKilled,
        [.answered 1 (.task exampleView)] ++ [.answered 1 (.accepted killTask.accepted)]) :=
    (ReflTransGen.single (.arrive (.kill 1))).trans
      (run_last (run_last (run_last (run_last .refl (.stopFound hmem)) (.hold hmem)) hcheck) hstop)
  obtain ⟨-, hstands, hprecedes⟩ := answers_move_forward .unix snapshotCodec _ _ _ _ _ _ hopen 1 _
    _ _ h₁ ⟨_, he, rfl⟩ h₂ h₃ 0 1 _ _ le_rfl rfl le_rfl rfl
  exact ⟨rfl, _, (h₁.trans h₂).trans h₃, rfl, hstands, hprecedes⟩

end CommandApi
