import CommandApi.Process.Capture
import CommandApi.Process.Outcome

/-!
# The output readers next to the runner

`CommandApi.Process.World` lets the readers of a task write, end and fail as they like, and
`CommandApi.Process.Capture` has `copy_output` with writes that succeed.  Here are the threads
`Capture::start_readers` makes, with everything that can go wrong in them: the log file cannot be
opened, the pipe cannot be read, a write stores only a part of what it was given.  A thread that
fails asks for `LoggingFailure` through the stop cell and then returns the error, which is two
steps, and the runner may be anywhere in between.

* `copying_refines`: none of this is news to `taskMachine`.
* `Budget` is what the threads keep up although some of them fail.
* `startTask_starts`: each thread is started once, which the control graph of the runner does not
  say.
* `ReaderThreads` is what holds of the threads in every execution.  Nothing in it is about what the
  runner makes of a failure; that is in `CommandApi.Process.Logging`.
-/

set_option autoImplicit false

namespace CommandApi

open Async Relation

/-! ## The threads -/

/-- How far the thread of a reader has come. -/
inductive Stage
  | idle
  /-- The log file is opened next. -/
  | opening
  /-- In the loop of `copy_output`. -/
  | copying
  /-- `copy_output` has failed; `request_stop_now` is next. -/
  | failing (error : String)
  /-- … and has been called; the error is returned next. -/
  | failed (error : String)
  | returned (result : Except String Unit)
  | panicked (error : String)

/-- What the runner can see of a thread. -/
def Stage.reader : Stage → Reader
  | .idle => .idle
  | .opening | .copying | .failing _ | .failed _ => .running
  | .returned result => .ended result
  | .panicked error => .crashed error

/-- A task with its reader threads. -/
structure Copying where
  world : World
  /-- The loops of the threads, with the counters they share. -/
  capture : Capture
  stage : OutputStream → Stage

namespace Copying

/-- A thread has come to another stage. -/
def setStage (d : Copying) (s : OutputStream) (stage : Stage) : Copying :=
  { d with
    world := d.world.setReader s stage.reader
    stage := Function.update d.stage s stage }

/-- The loop of a thread has taken a step. -/
def setCopier (d : Copying) (s : OutputStream) (r : Copier) (c : Captured) : Copying :=
  { d with
    world :=
      { d.world with
        files := Function.update d.world.files s r.file
        outputTruncated := c.truncated }
    capture := ⟨Function.update d.capture.readers s r, c⟩ }

/-- `copy_output` has left its loop after a write of which `n` bytes are in the file. -/
def leaveLoop (d : Copying) (s : OutputStream) (written : List UInt8) : Copying :=
  d.setCopier s
    { d.capture.readers s with
      pc := .ended, file := (d.capture.readers s).file ++ written }
    d.capture.shared

end Copying

/-- The reasons the server itself writes to the stop cell. -/
def StopReason.fromServer : StopReason → Bool
  | .cancelled | .forceKilled | .serverShutdown | .serverRestart => true
  | .timeout | .parentExited | .loggingFailure => false

/-- A step of the surroundings in which no reader has a part. -/
structure Elsewhere (w w' : World) : Prop where
  readers : w'.readers = w.readers
  files : w'.files = w.files
  truncated : w'.outputTruncated = w.outputTruncated
  stop : w'.stop = w.stop ∨ ∃ reason, reason.fromServer = true ∧ w'.stop = some reason

/-- What a failing call of `copy_output` may have stored: nothing when the pipe cannot be read, and
any part of what it was given when a write or its flush fails. -/
def CopierPc.Stores : CopierPc → List UInt8 → Prop
  | .reading, written => written = []
  | .writing block n, written => ∃ m, written = (block.take n).take m
  | _, _ => False

/-- What happens around the runner, thread by thread. -/
inductive CopyingStep (P : Platform) (limit : ℕ) : Copying → Copying → Prop
  | elsewhere {d : Copying} {w : World} (h : Surroundings P d.world w)
      (hw : Elsewhere d.world w) : CopyingStep P limit d { d with world := w }
  | opened {d : Copying} {s : OutputStream} (h : d.stage s = .opening) :
      CopyingStep P limit d (d.setStage s .copying)
  | openError {d : Copying} {s : OutputStream} (error : String) (h : d.stage s = .opening) :
      CopyingStep P limit d (d.setStage s (.failing error))
  | copy {d : Copying} {s : OutputStream} {r : Copier} {c : Captured}
      (h : d.stage s = .copying)
      (hc : CopyStep limit (d.capture.readers s, d.capture.shared) (r, c)) :
      CopyingStep P limit d (d.setCopier s r c)
  | finished {d : Copying} {s : OutputStream} (h : d.stage s = .copying)
      (hpc : (d.capture.readers s).pc = .ended) :
      CopyingStep P limit d (d.setStage s (.returned (.ok ())))
  | copyError {d : Copying} {s : OutputStream} (error : String) {written : List UInt8}
      (h : d.stage s = .copying) (hw : (d.capture.readers s).pc.Stores written) :
      CopyingStep P limit d ((d.leaveLoop s written).setStage s (.failing error))
  | request {d : Copying} {s : OutputStream} {error : String} (h : d.stage s = .failing error) :
      CopyingStep P limit d
        { d.setStage s (.failed error) with
          world := (d.setStage s (.failed error)).world.requestStop .loggingFailure }
  | returnError {d : Copying} {s : OutputStream} {error : String} (h : d.stage s = .failed error) :
      CopyingStep P limit d (d.setStage s (.returned (.error error)))
  | panic {d : Copying} {s : OutputStream} (error : String)
      (h : (d.stage s).reader = .running) :
      CopyingStep P limit d (d.setStage s (.panicked error))

/-- `Capture::start_readers` starts a thread. -/
def Copying.afterOp (d : Copying) (o : Op) (w : World) : Copying :=
  { d with
    world := w
    stage := match o with
      | .startReader s => Function.update d.stage s .opening
      | _ => d.stage }

/-- The runner next to its readers. -/
def copyingMachine (P : Platform) (line : TaskSnapshot → List UInt8) (limit : ℕ) :
    Machine runner Copying where
  act o d r d' := ∃ w, taskEffect P line o d.world r w ∧ d' = d.afterOp o w
  env := CopyingStep P limit

/-- The readers of a task that is about to be started.  `source` is what will come through the
pipes. -/
def Copying.start (w : World) (mode : OutputMode) (source : OutputStream → List UInt8) :
    Copying where
  world := w
  capture := .start mode source
  stage := fun _ ↦ .idle

/-! ## The threads and the world

The world has a copy of what the threads own: whether they run, their log files, the flag. -/

/-- The world agrees with the threads. -/
structure Linked (d : Copying) : Prop where
  readers : ∀ s, d.world.readers s = (d.stage s).reader
  files : ∀ s, d.world.files s = (d.capture.readers s).file
  truncated : d.world.outputTruncated = d.capture.shared.truncated

section

variable {P : Platform} {route : ResolvedRoute} {line : TaskSnapshot → List UInt8} {limit : ℕ}
  {d d' : Copying} {s : OutputStream}

theorem World.setReader_self {w : World} {reader : Reader} (h : w.readers s = reader) :
    w.setReader s reader = w := by
  have hsame : (fun t ↦ if t = s then reader else w.readers t) = w.readers := by
    funext t
    split
    · rename_i ht
      rw [ht, h]
    · rfl
  rw [World.setReader, hsame]

/-- A thread that goes on. -/
theorem Copying.world_setStage {stage : Stage} (hs : d.world.readers s = .running)
    (h : stage.reader = .running) : (d.setStage s stage).world = d.world :=
  World.setReader_self (hs.trans h.symm)

/-- A step of a loop that leaves the flag alone appends something to the file. -/
theorem Copying.world_setCopier {r : Copier} {c : Captured} {x : List UInt8} (hd : Linked d)
    (hfile : r.file = (d.capture.readers s).file ++ x)
    (hc : c.truncated = d.capture.shared.truncated) :
    (d.setCopier s r c).world = d.world.append s x := by
  have hfiles : Function.update d.world.files s r.file =
      fun t ↦ if t = s then d.world.files t ++ x else d.world.files t := by
    funext t
    rw [Function.update_apply]
    split
    · rename_i ht
      rw [ht, hfile, hd.files]
    · rfl
  rw [Copying.setCopier, World.append, hfiles, hc, ← hd.truncated]

theorem Linked.setStage (hd : Linked d) (stage : Stage) : Linked (d.setStage s stage) := by
  refine ⟨fun t ↦ ?_, hd.files, hd.truncated⟩
  show (if t = s then stage.reader else d.world.readers t) =
    (Function.update d.stage s stage t).reader
  rw [Function.update_apply]
  split
  · rfl
  · exact hd.readers t

theorem Linked.setCopier (hd : Linked d) (r : Copier) (c : Captured) :
    Linked (d.setCopier s r c) := by
  refine ⟨hd.readers, fun t ↦ ?_, rfl⟩
  show Function.update d.world.files s r.file t = (Function.update d.capture.readers s r t).file
  rw [Function.update_apply, Function.update_apply]
  split
  · rfl
  · exact hd.files t

/-- What a step of a loop does to its file and to the flag. -/
theorem CopyStep.stores {r r' : Copier} {c c' : Captured} (h : CopyStep limit (r, c) (r', c')) :
    (∃ x, r'.file = r.file ++ x ∧ c'.truncated = c.truncated) ∨
      r'.file = r.file ∧ c'.truncated = true := by
  cases h with
  | write hpc => exact .inl ⟨_, rfl, rfl⟩
  | @flag _ _ read n hpc =>
    by_cases hn : n < read
    · exact .inr ⟨rfl, by simp [hn]⟩
    · exact .inl ⟨[], by simp, by simp [hn]⟩
  | _ => exact .inl ⟨[], by simp, rfl⟩

/-- **What the threads do is something readers may do.** -/
theorem CopyingStep.surroundings (hd : Linked d) (hs : CopyingStep P limit d d') :
    ReflTransGen (Surroundings P) d.world d'.world ∧ Linked d' := by
  have hrunning : ∀ {s}, (d.stage s).reader = .running → d.world.readers s = .running :=
    fun h ↦ (hd.readers _).trans h
  cases hs with
  | elsewhere h hw =>
    refine ⟨.single h, fun s ↦ ?_, fun s ↦ ?_, ?_⟩
    · rw [hw.readers, hd.readers]
    · rw [hw.files, hd.files]
    · rw [hw.truncated, hd.truncated]
  | @opened s h =>
    refine ⟨?_, hd.setStage _⟩
    rw [Copying.world_setStage (hrunning (by rw [h]; rfl)) rfl]
  | @openError s error h =>
    refine ⟨?_, hd.setStage _⟩
    rw [Copying.world_setStage (hrunning (by rw [h]; rfl)) rfl]
  | @copy s r c h hc =>
    refine ⟨?_, hd.setCopier r c⟩
    have hrun := hrunning (s := s) (by rw [h]; rfl)
    rcases hc.stores with ⟨x, hfile, htr⟩ | ⟨hfile, htr⟩
    · rw [Copying.world_setCopier hd hfile htr]
      exact .single (.output x hrun)
    · rw [Copying.setCopier, hfile, ← hd.files, Function.update_eq_self, htr]
      exact .single (.truncate hrun)
  | @finished s h hpc =>
    exact ⟨.single (.readerEnds _ (hrunning (by rw [h]; rfl))), hd.setStage _⟩
  | @copyError s error written h hw =>
    have hrun := hrunning (s := s) (by rw [h]; rfl)
    have hleft : Linked (d.leaveLoop s written) := hd.setCopier _ _
    refine ⟨?_, hleft.setStage _⟩
    have hworld : (d.leaveLoop s written).world = d.world.append s written :=
      Copying.world_setCopier hd rfl rfl
    rw [Copying.world_setStage (by rw [hworld]; exact hrun) rfl, hworld]
    exact .single (.output written hrun)
  | @request s error h =>
    have hlink := hd.setStage (s := s) (.failed error)
    refine ⟨?_, hlink.readers, hlink.files, hlink.truncated⟩
    rw [Copying.world_setStage (hrunning (by rw [h]; rfl)) rfl]
    exact .single (.requestStop _)
  | @returnError s error h =>
    exact ⟨.single (.readerEnds _ (hrunning (by rw [h]; rfl))), hd.setStage _⟩
  | @panic s error h => exact ⟨.single (.readerCrashes _ (hrunning h)), hd.setStage _⟩

/-- The runner touches no thread but the one it starts. -/
theorem Linked.afterOp {o : Op} {r : runner.Resp o} {w : World} (hd : Linked d)
    (h : taskEffect P line o d.world r w) : Linked (d.afterOp o w) := by
  have hshape := taskEffect_shape h
  refine ⟨fun t ↦ ?_, fun t ↦ ?_, ?_⟩
  · by_cases ho : ∃ s, o = .startReader s
    · obtain ⟨s, rfl⟩ := ho
      obtain rfl : w = d.world.setReader s .running := h
      exact (hd.setStage (s := s) .opening).readers t
    · rw [show (d.afterOp o w).world.readers = d.world.readers from
        hshape.readers fun s hs ↦ ho ⟨s, hs⟩, hd.readers]
      cases o with
      | startReader s => exact absurd ⟨s, rfl⟩ ho
      | _ => rfl
  · rw [show (d.afterOp o w).world.files = d.world.files from hshape.files]
    exact hd.files t
  · rw [show (d.afterOp o w).world.outputTruncated = d.world.outputTruncated from
      hshape.outputTruncated]
    exact hd.truncated

/-- **An execution with its threads is an execution of the task.** -/
theorem copying_refines {c c' : Task Unit × Copying} (hd : Linked c.2)
    (hr : (copyingMachine P line limit).Run c c') :
    (taskMachine P line).Run (c.1, c.2.world) (c'.1, c'.2.world) ∧ Linked c'.2 := by
  induction hr with
  | refl => exact ⟨.refl, hd⟩
  | tail _ hs ih =>
    obtain ⟨ih, hlink⟩ := ih
    cases hs with
    | act ha =>
      obtain ⟨w, hw, rfl⟩ := ha
      exact ⟨ih.tail (.act hw), hlink.afterOp hw⟩
    | env he =>
      obtain ⟨hsurr, hlink'⟩ := he.surroundings hlink
      exact ⟨ih.trans (Machine.Run.env hsurr), hlink'⟩

end

/-! ## The threads, one step at a time -/

/-- How a thread gets on. -/
inductive Stage.Next : Stage → Stage → Prop
  | opened : Next .opening .copying
  | openError (error : String) : Next .opening (.failing error)
  | finished : Next .copying (.returned (.ok ()))
  | copyError (error : String) : Next .copying (.failing error)
  | request (error : String) : Next (.failing error) (.failed error)
  | returnError (error : String) : Next (.failed error) (.returned (.error error))
  | panic {stage : Stage} (h : stage.reader = .running) (error : String) :
      Next stage (.panicked error)

/-- The thread has gone wrong. -/
def Stage.Bad : Stage → Prop
  | .failing _ | .failed _ | .returned (.error _) | .panicked _ => True
  | _ => False

/-- The thread has gone wrong, and whoever joins it will know. -/
def Stage.Told : Stage → Prop
  | .failed _ | .returned (.error _) | .panicked _ => True
  | _ => False

theorem Stage.Next.bad {a b : Stage} (h : a.Next b) (ha : a.Bad) : b.Bad := by
  cases h with
  | opened | finished => exact ha
  | _ => exact trivial

theorem Stage.Next.told {a b : Stage} (h : a.Next b) (ha : a.Told) : b.Told := by
  cases h with
  | returnError _ | panic _ _ => exact trivial
  | _ => exact ha.elim

theorem Stage.Next.not_returned {b : Stage} {result : Except String Unit}
    (h : Next (.returned result) b) : False := by
  cases h with
  | panic h _ => cases h

theorem Stage.eq_returned {stage : Stage} {result : Except String Unit}
    (h : stage.reader = .ended result) : stage = .returned result := by
  cases stage with
  | returned r => exact congrArg _ (Reader.ended.inj h)
  | _ => cases h

section

variable {P : Platform} {limit : ℕ} {d d' : Copying} {s : OutputStream}

/-- A step of the surroundings leaves the threads where they are, or one of them gets on. -/
theorem CopyingStep.stages (h : CopyingStep P limit d d') :
    d'.stage = d.stage ∨
      ∃ s stage, (d.stage s).Next stage ∧ d'.stage = Function.update d.stage s stage := by
  cases h with
  | elsewhere h hw => exact .inl rfl
  | copy h hc => exact .inl rfl
  | opened h => exact .inr ⟨_, _, by rw [h]; exact .opened, rfl⟩
  | openError error h => exact .inr ⟨_, _, by rw [h]; exact .openError error, rfl⟩
  | finished h hpc => exact .inr ⟨_, _, by rw [h]; exact .finished, rfl⟩
  | copyError error h hw => exact .inr ⟨_, _, by rw [h]; exact .copyError error, rfl⟩
  | request h => exact .inr ⟨_, _, by rw [h]; exact .request _, rfl⟩
  | returnError h => exact .inr ⟨_, _, by rw [h]; exact .returnError _, rfl⟩
  | panic error h => exact .inr ⟨_, _, .panic h error, rfl⟩

/-- What a thread never leaves again. -/
theorem CopyingStep.stage_kept {p : Stage → Prop} (hp : ∀ a b, a.Next b → p a → p b)
    (h : CopyingStep P limit d d') (hs : p (d.stage s)) : p (d'.stage s) := by
  rcases h.stages with h | ⟨t, stage, hnext, h⟩
  · rw [h]
    exact hs
  · rw [h, Function.update_apply]
    split
    · rename_i hst
      exact hp _ _ (hst ▸ hnext) hs
    · exact hs

/-- What a step of the surroundings does to the loops. -/
theorem CopyingStep.loops (h : CopyingStep P limit d d') :
    d'.capture = d.capture ∨ (CaptureStep limit d.capture d'.capture ∧ d'.stage = d.stage) ∨
      ∃ s written, (d.capture.readers s).pc.Stores written ∧
        d'.capture = (d.leaveLoop s written).capture ∧ (d'.stage s).Bad := by
  cases h with
  | copy h hc => exact .inr (.inl ⟨.reader _ hc, rfl⟩)
  | copyError error h hw =>
    refine .inr (.inr ⟨_, _, hw, rfl, ?_⟩)
    show (Function.update d.stage _ (Stage.failing error) _).Bad
    rw [Function.update_self]
    exact trivial
  | _ => exact .inl rfl

end

/-! ## The budget, whatever fails -/

/-- The counter of a reader never runs ahead of its file. -/
def Copier.Lags (r : Copier) : Prop :=
  match r.pc with
  | .writing block n => r.counter ≤ r.file.length ∧ n ≤ block.length
  | .counting _ n => r.counter + n ≤ r.file.length
  | _ => r.counter ≤ r.file.length

/-- What the readers keep up although some of them fail. -/
structure Budget (limit total : ℕ) (C : Capture) : Prop where
  claimed : C.shared.bytes + ∑ s, (C.readers s).unclaimed.length ≤ total
  granted : ∑ s, (C.readers s).granted.length ≤ min limit C.shared.bytes
  lags : ∀ s, (C.readers s).Lags

section

variable {limit total : ℕ} {C C' : Capture} {s : OutputStream} {r r' : Copier} {c c' : Captured}

theorem CopyStep.lags (h : CopyStep limit (r, c) (r', c')) (hr : r.Lags) : r'.Lags := by
  cases h with
  | read hpc => simpa [Copier.Lags, hpc] using hr
  | eof hpc hpipe => simpa [Copier.Lags, hpc] using hr
  | claim hpc =>
    simp only [Copier.Lags, hpc] at hr
    simp only [Copier.Lags, afterClaim]
    split_ifs
    · exact ⟨hr, min_le_right _ _⟩
    · exact hr
  | write hpc =>
    simp only [Copier.Lags, hpc] at hr
    simp only [Copier.Lags, List.length_append, List.length_take]
    omega
  | count hpc =>
    simp only [Copier.Lags, hpc] at hr
    exact (Nat.mod_le _ _).trans hr
  | flag hpc => simpa [Copier.Lags, hpc] using hr

/-- A claim is granted what is left of the limit. -/
theorem Budget.claim (h : Budget limit total C) (htotal : total < 2 ^ 64) (hlags : r.Lags)
    {block : List UInt8} (hu : (C.readers s).unclaimed = block ++ r.unclaimed)
    (hg : r.granted =
      (C.readers s).granted ++ block.take (allowed limit C.shared.bytes block.length)) :
    Budget limit total ⟨Function.update C.readers s r,
      { C.shared with bytes := (C.shared.bytes + block.length) % 2 ^ 64 }⟩ := by
  have hunclaimed := sum_update (·.unclaimed.length) C.readers s r
  have hgranted := sum_update (·.granted.length) C.readers s r
  have hclaimed := h.claimed
  have hgrant := h.granted
  have hle : allowed limit C.shared.bytes block.length ≤ block.length := min_le_right _ _
  have hmin := min_add_allowed limit C.shared.bytes block.length
  simp only [hu, List.length_append] at hunclaimed
  simp only [hg, List.length_append, List.length_take, min_eq_left hle] at hgranted
  have hmod : (C.shared.bytes + block.length) % 2 ^ 64 = C.shared.bytes + block.length :=
    Nat.mod_eq_of_lt (by omega)
  rw [hmod]
  refine ⟨?_, ?_, forall_update h.lags hlags⟩
  · show C.shared.bytes + block.length +
      ∑ x, (Function.update C.readers s r x).unclaimed.length ≤ total
    omega
  · show ∑ x, (Function.update C.readers s r x).granted.length ≤
      min limit (C.shared.bytes + block.length)
    omega

/-- Any other step grants nothing. -/
theorem Budget.update (h : Budget limit total C) (hlags : r.Lags)
    (hu : r.unclaimed.length ≤ (C.readers s).unclaimed.length)
    (hg : r.granted.length ≤ (C.readers s).granted.length) (hc : c.bytes = C.shared.bytes) :
    Budget limit total ⟨Function.update C.readers s r, c⟩ := by
  have hunclaimed := sum_update (·.unclaimed.length) C.readers s r
  have hgranted := sum_update (·.granted.length) C.readers s r
  have hclaimed := h.claimed
  have hgrant := h.granted
  refine ⟨?_, ?_, forall_update h.lags hlags⟩
  · show c.bytes + ∑ x, (Function.update C.readers s r x).unclaimed.length ≤ total
    omega
  · show ∑ x, (Function.update C.readers s r x).granted.length ≤ min limit c.bytes
    omega

theorem Budget.step (h : Budget limit total C) (htotal : total < 2 ^ 64)
    (hs : CaptureStep limit C C') : Budget limit total C' := by
  obtain ⟨s, hstep⟩ := hs
  have hlags := hstep.lags (h.lags s)
  cases hstep.effect with
  | quiet hu hg hsh hc =>
    subst hc
    exact h.update hlags (by rw [hu]) (by rw [hg]) rfl
  | claim hu hg hold hsh hc =>
    subst hc
    exact h.claim htotal hlags hu hg
  | flag hu hg hsh hc =>
    subst hc
    exact h.update hlags (by rw [hu]) (by rw [hg]) rfl

/-- A write that fails stores no more than it was granted. -/
theorem Budget.leaveLoop {d : Copying} {written : List UInt8} (h : Budget limit total d.capture)
    (hw : (d.capture.readers s).pc.Stores written) :
    Budget limit total (d.leaveLoop s written).capture := by
  have hlags := h.lags s
  cases hpc : (d.capture.readers s).pc with
  | reading =>
    rw [hpc] at hw
    obtain rfl : written = [] := hw
    simp only [Copier.Lags, hpc] at hlags
    refine h.update ?_ ?_ ?_ rfl
    · simpa [Copier.Lags] using hlags
    · simp [Copier.unclaimed, hpc]
    · simp [Copier.granted, hpc]
  | writing block n =>
    rw [hpc] at hw
    obtain ⟨m, rfl⟩ := hw
    simp only [Copier.Lags, hpc] at hlags
    refine h.update ?_ ?_ ?_ rfl
    · simp only [Copier.Lags, List.length_append]
      omega
    · simp [Copier.unclaimed, hpc]
    · simp only [Copier.granted, hpc, List.length_append, List.length_take]
      omega
  | _ =>
    rw [hpc] at hw
    exact hw.elim

end

/-! ## Every thread is started once -/

/-- The readers that have yet to be started.  The worker is spawned when there are none. -/
def Starts : ControlGraph runner (List OutputStream) := fun todo o _ rest ↦
  match o with
  | .startReader s => todo = s :: rest
  | .fallible .spawn => todo = [] ∧ rest = []
  | _ => rest = todo

/-- The operation starts a thread or the worker. -/
def Op.starts : Op → Bool
  | .startReader _ | .fallible .spawn => true
  | _ => false

theorem Starts.same {o : Op} {r : runner.Resp o} {todo rest : List OutputStream}
    (h : Starts todo o r rest) (ho : ∀ s, o ≠ .startReader s) : rest = todo := by
  cases o with
  | startReader s => exact absurd rfl (ho s)
  | fallible c =>
    cases c with
    | spawn => exact h.2.trans h.1.symm
    | _ => exact h
  | _ => exact h

theorem starts_self {o : Op} {r : runner.Resp o} {todo : List OutputStream}
    (h : o.starts = false) : Starts todo o r todo := by
  cases o with
  | startReader s => cases h
  | fallible c =>
    cases c with
    | spawn => cases h
    | _ => exact rfl
  | _ => exact rfl

section

variable {P : Platform} {route : ResolvedRoute}

/-- The program starts neither a thread nor the worker. -/
abbrev Steady {ε α : Type} (p : Prog runner ε α) : Prop := p.Only fun o : Op ↦ o.starts = false

theorem steady_perform {o : Op} (h : o.starts = false) : Steady (perform o) := .perform h

theorem steady_attemptCall (c : Fallible) (h : (Op.fallible c).starts = false) :
    Steady (attemptCall c) := only_attemptCall h

theorem steady_supervise : Steady (supervise P route) := by
  refine supervises_supervise.mono fun o ho ↦ ?_
  cases o with
  | startReader s => cases ho
  | fallible c =>
    cases c with
    | spawn => cases ho
    | _ => rfl
  | _ => rfl

/-- A program that starts nothing, behind one that does. -/
theorem Steady.bind_follows {α β : Type} {todo : List OutputStream} {p : Task α} {f : α → Task β}
    (hp : Follows Starts todo p fun _ _ ↦ True) (hf : ∀ a, Steady (f a)) :
    Follows Starts todo (p >>= f) fun _ _ ↦ True := by
  refine Follows.bind (B := fun _ _ ↦ True) (hp.mono fun r ψ _ ↦ ?_) fun a ψ _ ↦ ?_
  · cases r <;> exact trivial
  · exact (Follows.of_only (hf a) fun _ _ h ↦ starts_self h).mono fun _ _ _ ↦ trivial

/-- … and in front of one. -/
theorem Steady.follows_bind {α β : Type} {todo : List OutputStream} {p : Task α} {f : α → Task β}
    (hp : Steady p) (hf : ∀ a, Follows Starts todo (f a) fun _ _ ↦ True) :
    Follows Starts todo (p >>= f) fun _ _ ↦ True :=
  .only_bind hp (fun _ _ h ↦ starts_self h) (fun _ ↦ trivial) hf

theorem startReaders_starts (streams : List OutputStream) :
    Follows Starts streams (startReaders streams) fun r todo ↦ ∀ u, r = .ok u → todo = [] := by
  induction streams with
  | nil => exact fun _ _ ↦ rfl
  | cons s rest ih =>
    refine .only_bind (steady_attemptCall .cloneReader rfl) (fun _ _ h ↦ starts_self h)
      (fun _ ↦ nofun) fun _ ↦ ?_
    exact fun _ ↦ ⟨rest, rfl, ih⟩

theorem launch_starts (streams : List OutputStream) (spec : WorkerSpec) :
    Follows Starts streams (launch streams spec) fun _ _ ↦ True := by
  have hspawn : Follows Starts [] ((attemptCall .spawn).context "无法启动内部任务 Worker")
      fun _ _ ↦ True := by
    intro r
    refine ⟨[], ⟨rfl, rfl⟩, ?_⟩
    cases r <;> exact trivial
  refine (steady_attemptCall .pipe rfl).follows_bind fun _ ↦ ?_
  refine Follows.bind (B := fun _ todo ↦ todo = [])
    ((startReaders_starts streams).mono fun r todo h ↦ ?_) fun _ todo htodo ↦ ?_
  · cases r with
    | ok u => exact h u rfl
    | error e => exact trivial
  · subst htodo
    refine Steady.follows_bind ((steady_attemptCall .currentExe rfl).mapError _) fun _ ↦ ?_
    refine (steady_attemptCall .treeNew rfl).follows_bind fun _ ↦ ?_
    refine Steady.bind_follows hspawn fun _ ↦ ?_
    refine (steady_attemptCall .attach rfl).bind fun _ ↦ ?_
    refine ((steady_attemptCall .takeStdin rfl).mapError _).bind fun _ ↦ ?_
    refine (steady_attemptCall .encodeSpec rfl).bind fun _ ↦ ?_
    refine ((steady_attemptCall (.writeSpec spec) rfl).mapError _).bind fun _ ↦ ?_
    exact steady_attemptCall .flushSpec rfl

theorem runTask_starts (args : List String) :
    Follows Starts route.outputMode.streams (runTask P route args) fun _ _ ↦ True := by
  rw [runTask_eq]
  exact Steady.bind_follows (launch_starts _ _) fun _ ↦ steady_supervise

/-- The runner starts the readers of its mode, each once. -/
theorem startTask_starts (args : List String) :
    Follows Starts route.outputMode.streams (startTask P route args) fun _ _ ↦ True := by
  refine Steady.bind_follows (Follows.attempt (runTask_starts args)) fun result ↦ ?_
  have hreport : Steady (reportError result) := only_reportError result (fun _ ↦ rfl) rfl
  refine (steady_perform rfl).bind fun _ ↦ hreport.bind fun _ ↦ ?_
  exact (steady_perform rfl).bind fun _ ↦ steady_perform rfl

end

/-! ## What the threads keep up -/

/-- The threads of a task, some of which have yet to be started. -/
structure ReaderThreads (limit : ℕ) (mode : OutputMode) (source : OutputStream → List UInt8)
    (todo : List OutputStream) (d : Copying) : Prop where
  linked : Linked d
  budget : Budget limit (totalRead mode source) d.capture
  /-- If nothing has gone wrong the loops are where `copy_output` can get. -/
  exact : (∀ s, ¬ (d.stage s).Bad) →
    ReflTransGen (CaptureStep limit) (.start mode source) d.capture
  ended : ∀ s, d.stage s = .returned (.ok ()) → (d.capture.readers s).pc = .ended
  /-- No thread is started twice. -/
  nodup : todo.Nodup
  idle : ∀ s ∈ todo, d.stage s = .idle
  streams : ∀ s ∈ todo, s ∈ mode.streams
  outside : ∀ s ∉ mode.streams, d.stage s = .idle ∧ (d.capture.readers s).pc = .ended

section

variable {P : Platform} {line : TaskSnapshot → List UInt8} {limit : ℕ} {mode : OutputMode}
  {source : OutputStream → List UInt8} {todo todo' : List OutputStream} {d d' : Copying}
  {s : OutputStream}

theorem budget_start (limit : ℕ) (mode : OutputMode) (source : OutputStream → List UInt8) :
    Budget limit (totalRead mode source) (.start mode source) := by
  have h := accounts_start limit mode source
  refine ⟨?_, h.granted.le, fun s ↦ ?_⟩
  · rw [h.claimed, sum_piped]
  · by_cases hs : s ∈ mode.streams <;> simp [Capture.start, hs, Copier.Lags]

/-- A loop that has ended takes no step. -/
theorem CopyStep.not_ended {r r' : Copier} {c c' : Captured} (h : CopyStep limit (r, c) (r', c')) :
    r.pc ≠ .ended := by
  intro hpc
  cases h with
  | read h | eof h | claim h | write h | count h | flag h => exact absurd (hpc.symm.trans h) nofun

theorem CaptureStep.pc_ended {C C' : Capture} (h : CaptureStep limit C C')
    (hs : (C.readers s).pc = .ended) : (C'.readers s).pc = .ended := by
  obtain ⟨t, hc⟩ := h
  show (Function.update C.readers t _ s).pc = .ended
  rw [Function.update_of_ne]
  · exact hs
  · rintro rfl
    exact hc.not_ended hs

/-- A thread that has left its loop does not come back to it. -/
theorem CopyingStep.pc_ended (h : CopyingStep P limit d d')
    (hs : (d.capture.readers s).pc = .ended) : (d'.capture.readers s).pc = .ended := by
  rcases h.loops with h | ⟨hc, -⟩ | ⟨t, written, hw, h, -⟩
  · rw [h]
    exact hs
  · exact hc.pc_ended hs
  · rw [h]
    show (Function.update d.capture.readers t _ s).pc = .ended
    rw [Function.update_apply]
    split
    · rfl
    · exact hs

/-- A thread that returns without an error has left its loop at the end of the pipe. -/
theorem CopyingStep.returned (h : CopyingStep P limit d d')
    (hs : d'.stage s = .returned (.ok ())) (hne : d.stage s ≠ .returned (.ok ())) :
    (d'.capture.readers s).pc = .ended := by
  have hkept : ∀ {t stage}, stage ≠ Stage.returned (.ok ()) →
      Function.update d.stage t stage s ≠ .returned (.ok ()) := by
    intro t stage hstage
    rw [Function.update_apply]
    split
    · exact hstage
    · exact hne
  cases h with
  | elsewhere h hw => exact absurd hs hne
  | copy h hc => exact absurd hs hne
  | @finished t h hpc =>
    by_cases hst : s = t
    · rw [hst]
      exact hpc
    · refine absurd ?_ hne
      rw [← hs]
      exact (Function.update_of_ne hst ..).symm
  | _ => exact absurd hs (hkept nofun)

theorem ReaderThreads.env (h : ReaderThreads limit mode source todo d)
    (htotal : totalRead mode source < 2 ^ 64) (hs : CopyingStep P limit d d') :
    ReaderThreads limit mode source todo d' := by
  have hidle : ∀ s, d.stage s = .idle → d'.stage s = .idle := fun s hi ↦
    hs.stage_kept (p := fun a ↦ a = .idle)
      (fun a b hn ha ↦ by subst ha; cases hn with | panic h _ => cases h) hi
  refine ⟨(hs.surroundings h.linked).2, ?_, fun hgood ↦ ?_, fun s hret ↦ ?_, h.nodup,
    fun s hm ↦ hidle s (h.idle s hm), h.streams,
    fun s hm ↦ ⟨hidle s (h.outside s hm).1, hs.pc_ended (h.outside s hm).2⟩⟩
  · rcases hs.loops with hc | ⟨hc, -⟩ | ⟨t, written, hw, hc, -⟩
    · rw [hc]
      exact h.budget
    · exact h.budget.step htotal hc
    · rw [hc]
      exact h.budget.leaveLoop hw
  · have hgood' : ∀ s, ¬ (d.stage s).Bad := fun s hb ↦
      hgood s (hs.stage_kept (p := Stage.Bad) (fun _ _ hn ↦ hn.bad) hb)
    rcases hs.loops with hc | ⟨hc, -⟩ | ⟨t, written, hw, hc, hbad⟩
    · rw [hc]
      exact h.exact hgood'
    · exact (h.exact hgood').tail hc
    · exact absurd hbad (hgood t)
  · by_cases hne : d.stage s = .returned (.ok ())
    · exact hs.pc_ended (h.ended s hne)
    · exact hs.returned hret hne

theorem ReaderThreads.act {o : Op} {r : runner.Resp o} {w : World}
    (h : ReaderThreads limit mode source todo d) (ha : taskEffect P line o d.world r w)
    (hg : Starts todo o r todo') : ReaderThreads limit mode source todo' (d.afterOp o w) := by
  have hlinked := h.linked.afterOp ha
  by_cases ho : ∃ s, o = .startReader s
  · obtain ⟨s, rfl⟩ := ho
    obtain rfl : todo = s :: todo' := hg
    have hstage : ∀ t, (d.afterOp (.startReader s) w).stage t =
        if t = s then .opening else d.stage t := fun t ↦ Function.update_apply ..
    have hs : d.stage s = .idle := h.idle s List.mem_cons_self
    obtain ⟨hnot, hnodup⟩ := List.nodup_cons.mp h.nodup
    refine ⟨hlinked, h.budget, fun hgood ↦ h.exact fun t hb ↦ ?_, fun t ht ↦ ?_, hnodup,
      fun t ht ↦ ?_, fun t ht ↦ h.streams t (List.mem_cons_of_mem s ht), fun t ht ↦ ?_⟩
    · by_cases hts : t = s
      · rw [hts, hs] at hb
        exact hb
      · exact hgood t (by rw [hstage, if_neg hts]; exact hb)
    · rw [hstage] at ht
      split at ht
      · cases ht
      · exact h.ended t ht
    · have hts : t ≠ s := fun hts ↦ hnot (hts ▸ ht)
      rw [hstage, if_neg hts]
      exact h.idle t (List.mem_cons_of_mem s ht)
    · have hts : t ≠ s := fun hts ↦ ht (hts ▸ h.streams s List.mem_cons_self)
      rw [hstage, if_neg hts]
      exact h.outside t ht
  · have hstage : (d.afterOp o w).stage = d.stage := by
      cases o with
      | startReader s => exact absurd ⟨s, rfl⟩ ho
      | _ => rfl
    obtain rfl : todo' = todo := hg.same fun s hs ↦ ho ⟨s, hs⟩
    refine ⟨hlinked, h.budget, ?_, ?_, h.nodup, ?_, h.streams, ?_⟩
    · rw [hstage]
      exact h.exact
    · rw [hstage]
      exact h.ended
    · rw [hstage]
      exact h.idle
    · rw [hstage]
      exact h.outside

end

end CommandApi
