import CommandApi.Process.Readers

/-!
# A log that cannot be written

What the runner makes of a reader that fails (`CommandApi.Process.Readers`).

* `output_within_budget`: the log files never hold more than the limit, whatever fails.
* `published_output_complete`: a status that is not the error handler's stands for the whole
  output.  The threads have returned without an error and the pipes are empty, also where the
  limit cut something off, and the files have as much of what came as the limit allows.
* `logging_failure_reported`: a task stopped because its log could not be written ends with the
  error of the thread, and never with the text `run_task` keeps for `LoggingFailure`: the runner
  joins the thread that failed before it looks at the reason it stopped for.

The argument is in `Fated`: whoever stops for `LoggingFailure` has yet to join a reader that will
answer with an error, until it has joined it and is on its way to the error handler.
-/

set_option autoImplicit false

namespace CommandApi

open Async Relation

/-! ## What the runner makes of a failure -/

/-- A reader of the mode has gone wrong, and whoever joins it will know. -/
def Condemned (mode : OutputMode) (d : Copying) : Prop := ∃ s ∈ mode.streams, (d.stage s).Told

/-- Who stops for `LoggingFailure` does so because of a reader that it has yet to join. -/
def Fated (mode : OutputMode) (d : Copying) : Phase → Prop
  | .stop reason | .grace reason | .waiting reason | .drain reason _ | .overdue reason _
  | .forced reason _ | .stopped reason _ => reason = .loggingFailure → Condemned mode d
  | .ending todo reason _ => reason = some .loggingFailure → ∃ s ∈ todo, (d.stage s).Told
  | .released reason _ => reason ≠ some .loggingFailure
  | _ => True

/-- All readers of the mode have returned without an error. -/
def AllReturned (mode : OutputMode) (d : Copying) : Prop :=
  ∀ s ∈ mode.streams, d.stage s = .returned (.ok ())

/-- The readers that have been joined have returned without an error. -/
def Joined (mode : OutputMode) (d : Copying) : Phase → Prop
  | .ending todo _ _ => ∀ s ∈ mode.streams, s ∉ todo → d.stage s = .returned (.ok ())
  | .released _ _ | .published | .returned => AllReturned mode d
  | _ => True

/-- The snapshot is the error handler's. -/
def ByErrorHandler (s : TaskSnapshot) : Prop :=
  s.status = .failed ∧ s.exitCode = none ∧ ∃ error : String, s.error = some s!"任务执行器异常: {error}"

/-- A finished task is the error handler's, or has the whole output. -/
def Conclusive (mode : OutputMode) (d : Copying) (s : TaskSnapshot) : Prop :=
  s.status.isFinished = true → ByErrorHandler s ∨
    AllReturned mode d ∧ ∀ t, s.termination = some t → t.reason ≠ .loggingFailure

/-- The error `run_task` keeps for a task that it stopped for `LoggingFailure`. -/
def loggingFailureText : String := failureText (some .loggingFailure) none

/-- What is known about a failure of the readers. -/
structure Answered (mode : OutputMode) (φ : Phase) (d : Copying) : Prop where
  facts : Facts φ d.world.snapshot
  code : d.world.snapshot.status.isFinished = false → d.world.snapshot.exitCode = none
  asked : d.world.stop = some .loggingFailure → Condemned mode d
  fated : Fated mode d φ
  joined : Joined mode d φ
  conclusive : Conclusive mode d d.world.snapshot
  text : d.world.snapshot.error ≠ some loggingFailureText

section

variable {P : Platform} {route : ResolvedRoute} {line : TaskSnapshot → List UInt8} {limit : ℕ}
  {source : OutputStream → List UInt8} {todo todo' : List OutputStream} {φ ψ : Phase} {o : Op}
  {r : runner.Resp o} {d d' : Copying} {w : World} {s s' : TaskSnapshot}

theorem Condemned.mono {mode : OutputMode} (h : Condemned mode d)
    (hkeep : ∀ s, (d.stage s).Told → (d'.stage s).Told) : Condemned mode d' := by
  obtain ⟨s, hs, ht⟩ := h
  exact ⟨s, hs, hkeep s ht⟩

theorem Fated.mono {mode : OutputMode} (h : Fated mode d φ)
    (hkeep : ∀ s, (d.stage s).Told → (d'.stage s).Told) : Fated mode d' φ := by
  cases φ with
  | stop _ | grace _ | waiting _ | drain _ _ | overdue _ _ | forced _ _ | stopped _ _ =>
    exact fun hr ↦ (h hr).mono hkeep
  | ending todo _ _ =>
    intro hr
    obtain ⟨s, hs, ht⟩ := h hr
    exact ⟨s, hs, hkeep s ht⟩
  | released _ _ => exact h
  | _ => exact trivial

theorem Joined.mono {mode : OutputMode} (h : Joined mode d φ)
    (hkeep : ∀ s, d.stage s = .returned (.ok ()) → d'.stage s = .returned (.ok ())) :
    Joined mode d' φ := by
  cases φ with
  | ending todo _ _ => exact fun s hs hn ↦ hkeep s (h s hs hn)
  | released _ _ | published | returned => exact fun s hs ↦ hkeep s (h s hs)
  | _ => exact trivial

theorem Conclusive.mono {mode : OutputMode} (h : Conclusive mode d s)
    (hkeep : ∀ s, d.stage s = .returned (.ok ()) → d'.stage s = .returned (.ok ())) :
    Conclusive mode d' s := fun hf ↦
  (h hf).imp_right fun ⟨hall, ht⟩ ↦ ⟨fun s hs ↦ hkeep s (hall s hs), ht⟩

/-- A reason to stop for `LoggingFailure` is a reader that has been joined with an error, or will
be. -/
theorem Fated.move (h : Fated route.outputMode d φ)
    (hasked : d.world.stop = some .loggingFailure → Condemned route.outputMode d)
    (hlinked : Linked d) (hm : Moves P route φ o r ψ) (ha : taskEffect P line o d.world r w) :
    Fated route.outputMode d ψ := by
  cases hm with
  | deadline => exact fun hr ↦ nomatch hr
  | stop reason => exact fun hr ↦ hasked (hr ▸ ha.2.1)
  | forceNow | graceForce _ | drainForce _ _ => exact fun hr ↦ nomatch hr
  | stoppedEmpty reason status =>
    intro hr
    obtain rfl := Option.some.inj hr
    exact h rfl
  | exitedEmpty status result => exact fun hr ↦ nomatch hr
  | lateEmpty status => exact fun hr ↦ nomatch hr
  | joined stream rest reason status =>
    intro hr
    obtain ⟨s, hs, ht⟩ := h hr
    have hstage : d.stage stream = .returned (.ok ()) :=
      Stage.eq_returned ((hlinked.readers stream).symm.trans ha.1)
    rcases List.mem_cons.mp hs with rfl | hs
    · rw [hstage] at ht
      exact ht.elim
    · exact ⟨s, hs, ht⟩
  | dropPermits reason status =>
    intro hr
    obtain ⟨s, hs, -⟩ := h hr
    cases hs
  | exited _ | exitedLate _ | toLate _ | toFinal _ _ | persistFinal | leave | leaveError _
  | toError _ | persistError _ | markFinished | dropStore | spawn | toRunning => exact trivial
  | error _ e e' | spawnError e e' | exitedError e e' | graceError _ e e' | drainError _ _ e e'
  | childWaitError _ e e' | forceEmptyError _ _ e e' | stoppedError _ _ e e' | lateError _ e e'
  | joinError _ _ _ _ e e' | joinCrashed _ _ _ _ e e' | persistFinalError e e' => exact trivial
  | _ => exact h

theorem Joined.move (h : Joined route.outputMode d φ) (hlinked : Linked d)
    (hm : Moves P route φ o r ψ) (ha : taskEffect P line o d.world r w) :
    Joined route.outputMode d ψ := by
  cases hm with
  | stoppedEmpty _ _ | exitedEmpty _ _ | lateEmpty _ => exact fun s hs hn ↦ absurd hs hn
  | joined stream rest reason status =>
    intro s hs hn
    by_cases hst : s = stream
    · rw [hst]
      exact Stage.eq_returned ((hlinked.readers stream).symm.trans ha.1)
    · exact h s hs fun hmem ↦ (List.mem_cons.mp hmem).elim hst hn
  | dropPermits reason status => exact fun s hs ↦ h s hs (List.not_mem_nil)
  | leave | leaveError _ | toError _ | persistError _ | markFinished | dropStore => exact trivial
  | error _ e e' | spawnError e e' | exitedError e e' | graceError _ e e' | drainError _ _ e e'
  | childWaitError _ e e' | forceEmptyError _ _ e e' | stoppedError _ _ e e' | lateError _ e e'
  | joinError _ _ _ _ e e' | joinCrashed _ _ _ _ e e' | persistFinalError e e' => exact trivial
  | toFinal _ _ | persistFinal => exact h
  | dropControl _ _ _ => exact h
  | quiet hq => cases hq <;> exact trivial
  | _ => exact trivial

/-- **A transition to a finished status is the error handler's, or comes after the readers.** -/
theorem Conclusive.move (h : Conclusive route.outputMode d s) (hf : Facts φ s)
    (hcode : s.status.isFinished = false → s.exitCode = none)
    (hfated : Fated route.outputMode d φ) (hjoined : Joined route.outputMode d φ)
    (hm : Moves P route φ o r ψ) (hc : Changes o s s') : Conclusive route.outputMode d s' := by
  cases hm with
  | toRunning | forceNow | toGraceful _ | toForced _ _ | toLate _ =>
    obtain ⟨now, rfl⟩ := hc
    exact fun hfin ↦ nomatch hfin
  | toFinal reason status =>
    obtain ⟨now, rfl⟩ := hc
    refine fun _ ↦ .inr ⟨hjoined, fun t ht hr ↦ ?_⟩
    cases reason with
    | none => exact absurd (hf.2.symm.trans ht) nofun
    | some reason =>
      obtain ⟨-, u, hu, hreason, -⟩ := hf
      obtain rfl := Option.some.inj (hu.symm.trans ht)
      exact hfated (congrArg some (hreason.symm.trans hr))
  | toError error =>
    obtain ⟨now, rfl⟩ := hc
    rw [toExecutorError]
    split
    · exact h
    · rename_i hnot
      exact fun _ ↦ .inl ⟨rfl, hcode (by simpa using hnot), error, rfl⟩
  | _ =>
    obtain rfl : s' = s := hc
    exact h

theorem failureText_ne {reason : Option StopReason} (h : reason ≠ some .loggingFailure)
    (code : Option Int32) : failureText reason code ≠ loggingFailureText := by
  have htext : ∀ x : String, "脚本退出码非零: " ++ x ≠ "写入任务日志失败，任务已终止" := by
    intro x hx
    have hhead := congrArg (fun s : String ↦ s.toList.head?) hx
    simp at hhead
  cases reason with
  | none => exact htext _
  | some reason =>
    cases reason with
    | loggingFailure => exact absurd rfl h
    | _ => exact htext _

theorem executorErrorText_ne (error : String) :
    s!"任务执行器异常: {error}" ≠ loggingFailureText := by
  intro hx
  have hhead := congrArg (fun s : String ↦ s.toList.head?)
    (show "任务执行器异常: " ++ error = "写入任务日志失败，任务已终止" from hx)
  simp at hhead

/-- No transition writes the text of `LoggingFailure`. -/
theorem error_move (h : s.error ≠ some loggingFailureText) (hfated : Fated route.outputMode d φ)
    (hm : Moves P route φ o r ψ) (hc : Changes o s s') :
    s'.error ≠ some loggingFailureText := by
  cases hm with
  | toRunning | forceNow | toGraceful _ | toForced _ _ | toLate _ =>
    obtain ⟨now, rfl⟩ := hc
    exact h
  | toFinal reason status =>
    obtain ⟨now, rfl⟩ := hc
    simp only [toFinal]
    split
    · exact fun he ↦ failureText_ne hfated status.code (Option.some.inj he)
    · exact h
  | toError error =>
    obtain ⟨now, rfl⟩ := hc
    rw [toExecutorError]
    split
    · exact h
    · exact fun he ↦ executorErrorText_ne error (Option.some.inj he)
  | _ =>
    obtain rfl : s' = s := hc
    exact h

theorem CopyingStep.snapshot (h : CopyingStep P limit d d') :
    d'.world.snapshot = d.world.snapshot := by
  cases h with
  | elsewhere h hw => exact h.frame.1
  | _ => rfl

/-- `LoggingFailure` is asked for by a reader that will be joined with an error. -/
theorem Answered.asked_env {mode : OutputMode} (h : Answered mode φ d)
    (ht : ReaderThreads limit mode source todo d)
    (hs : CopyingStep P limit d d') (hstop : d'.world.stop = some .loggingFailure) :
    Condemned mode d' := by
  have hkeep : ∀ s, (d.stage s).Told → (d'.stage s).Told := fun s ↦
    hs.stage_kept (p := Stage.Told) fun _ _ hn ↦ hn.told
  cases hs with
  | elsewhere hsurr hw =>
    rcases hw.stop with hsame | ⟨reason, hr, hsome⟩
    · exact h.asked (hsame ▸ hstop)
    · obtain rfl := Option.some.inj (hsome.symm.trans hstop)
      cases hr
  | @request s error hstage =>
    refine ⟨s, ?_, ?_⟩
    · by_contra hnot
      have hidle := (ht.outside s hnot).1
      rw [hstage] at hidle
      cases hidle
    · show (Function.update d.stage s (Stage.failed error) s).Told
      rw [Function.update_self]
      exact trivial
  | _ => exact (h.asked hstop).mono hkeep

theorem Answered.env {mode : OutputMode} (h : Answered mode φ d)
    (ht : ReaderThreads limit mode source todo d) (hs : CopyingStep P limit d d') :
    Answered mode φ d' := by
  have hkeep : ∀ s, (d.stage s).Told → (d'.stage s).Told := fun s ↦
    hs.stage_kept (p := Stage.Told) fun _ _ hn ↦ hn.told
  have hret : ∀ s, d.stage s = .returned (.ok ()) → d'.stage s = .returned (.ok ()) := fun s ↦
    hs.stage_kept (p := fun a ↦ a = .returned (.ok ()))
      fun _ _ hn ha ↦ (Stage.Next.not_returned (ha ▸ hn)).elim
  refine ⟨?_, ?_, h.asked_env ht hs, h.fated.mono hkeep, h.joined.mono hret, ?_, ?_⟩
  · rw [hs.snapshot]
    exact h.facts
  · rw [hs.snapshot]
    exact h.code
  · rw [hs.snapshot]
    exact h.conclusive.mono hret
  · rw [hs.snapshot]
    exact h.text

/-- Starting a thread that was idle changes nothing about the others. -/
theorem Copying.afterOp_stage {p : Stage → Prop} (hidle : ¬ p .idle)
    (ht : ReaderThreads limit route.outputMode source todo d) (hg : Starts todo o r todo')
    {t : OutputStream} (h : p (d.stage t)) : p ((d.afterOp o w).stage t) := by
  cases o with
  | startReader s =>
    obtain rfl : todo = s :: todo' := hg
    have hts : t ≠ s := by
      rintro rfl
      exact hidle (ht.idle t List.mem_cons_self ▸ h)
    rw [show (d.afterOp (.startReader s) w).stage t = d.stage t from Function.update_of_ne hts ..]
    exact h
  | _ => exact h

theorem Answered.act (h : Answered route.outputMode φ d)
    (ht : ReaderThreads limit route.outputMode source todo d)
    (hm : Moves P route φ o r ψ) (hg : Starts todo o r todo')
    (ha : taskEffect P line o d.world r w) :
    Answered route.outputMode ψ (d.afterOp o w) := by
  obtain ⟨s', hc, hs'⟩ := taskEffect_changes ha
  have hkeep : ∀ s, (d.stage s).Told → ((d.afterOp o w).stage s).Told := fun s hs ↦
    Copying.afterOp_stage (p := Stage.Told) (fun hn ↦ hn) ht hg hs
  have hret : ∀ s, d.stage s = .returned (.ok ()) →
      (d.afterOp o w).stage s = .returned (.ok ()) := fun s hs ↦
    Copying.afterOp_stage (p := fun a ↦ a = .returned (.ok ())) nofun ht hg hs
  refine ⟨?_, ?_, ?_, (h.fated.move h.asked ht.linked hm ha).mono hkeep,
    (h.joined.move ht.linked hm ha).mono hret, ?_, ?_⟩
  · rw [show (d.afterOp o w).world.snapshot = _ from hs']
    exact (facts_move hm h.facts hc).withFlag _
  · rw [show (d.afterOp o w).world.snapshot = _ from hs']
    have hcode := exitCode_move hm h.facts hc h.code
    exact hcode
  · rw [show (d.afterOp o w).world.stop = _ from (taskEffect_shape ha).stop]
    exact fun hstop ↦ (h.asked hstop).mono hkeep
  · rw [show (d.afterOp o w).world.snapshot = _ from hs']
    have := h.conclusive.move h.facts h.code h.fated h.joined hm hc
    exact this.mono hret
  · rw [show (d.afterOp o w).world.snapshot = _ from hs']
    have htext := error_move h.text h.fated hm hc
    exact htext

/-- What is known of the runner and of the threads. -/
theorem copying_invariant (htotal : totalRead route.outputMode source < 2 ^ 64) :
    Invariant (copyingMachine P line limit) ((Moves P route).prod Starts) fun φ d ↦
      ReaderThreads limit route.outputMode source φ.2 d ∧ Answered route.outputMode φ.1 d where
  env _ _ _ h hs := ⟨h.1.env htotal hs, h.2.env h.1 hs⟩
  act φ o d r d' ψ h ha hm := by
    obtain ⟨w, hw, rfl⟩ := ha
    exact ⟨h.1.act hw hm.2, h.2.act h.1 hm.1 hm.2 hw⟩

theorem OutputMode.streams_nodup (mode : OutputMode) : mode.streams.Nodup := by
  cases mode <;> decide

theorem copying_start (line : TaskSnapshot → List UInt8) (id : Uuid) (now : String) :
    ReaderThreads limit route.outputMode source route.outputMode.streams
        (.start (startedWorld line route id now) route.outputMode source) ∧
      Answered route.outputMode .starting
        (.start (startedWorld line route id now) route.outputMode source) := by
  have hw : Fresh (startedWorld line route id now) := World.created_fresh ..
  refine ⟨⟨⟨hw.readers, fun s ↦ ?_, rfl⟩, budget_start _ _ _, fun _ ↦ .refl,
    fun s hs ↦ (nomatch hs), route.outputMode.streams_nodup, fun _ _ ↦ rfl, fun _ hs ↦ hs,
    fun s hs ↦ ⟨rfl, ?_⟩⟩,
    ⟨hw.facts, fun _ ↦ rfl, fun h ↦ (nomatch h), trivial, trivial, fun h ↦ (nomatch h), nofun⟩⟩
  · by_cases hs : s ∈ route.outputMode.streams <;>
      simp [Copying.start, Capture.start, hs, startedWorld, World.created]
  · simp [Copying.start, Capture.start, hs]

theorem copying_run (htotal : totalRead route.outputMode source < 2 ^ 64) {args : List String}
    {id : Uuid} {now : String} {c : Task Unit × Copying}
    (hr : (copyingMachine P line limit).Run
      (startTask P route args, .start (startedWorld line route id now) route.outputMode source) c) :
    ∃ φ todo, ReaderThreads limit route.outputMode source todo c.2 ∧
      Answered route.outputMode φ c.2 := by
  obtain ⟨φ, -, h⟩ := (copying_invariant htotal).run
    ⟨(.starting, route.outputMode.streams),
      (startTask_follows P route args).prod (startTask_starts args), copying_start line id now⟩ hr
  exact ⟨φ.1, φ.2, h⟩

end

/-! ## Executions -/

section

variable (P : Platform) (route : ResolvedRoute) (args : List String)
  (line : TaskSnapshot → List UInt8) (limit : ℕ) (source : OutputStream → List UInt8) (id : Uuid)
  (now : String) (c : Task Unit × Copying)

/-- **The log files never hold more than the limit**, at any moment and whatever fails, and no
counter is ahead of its file. -/
theorem output_within_budget (htotal : totalRead route.outputMode source < 2 ^ 64)
    (hr : (copyingMachine P line limit).Run
      (startTask P route args, .start (startedWorld line route id now) route.outputMode source) c) :
    ∑ s, (c.2.world.files s).length ≤ limit ∧
      ∀ s, (c.2.capture.readers s).counter ≤ (c.2.world.files s).length := by
  obtain ⟨φ, todo, h, -⟩ := copying_run htotal hr
  simp only [h.linked.files]
  constructor
  · calc ∑ s, (c.2.capture.readers s).file.length
        ≤ ∑ s, (c.2.capture.readers s).granted.length :=
          Finset.sum_le_sum fun s _ ↦ (c.2.capture.readers s).length_file_le
      _ ≤ min limit c.2.capture.shared.bytes := h.budget.granted
      _ ≤ limit := min_le_left _ _
  · intro s
    have hlags := h.budget.lags s
    cases hpc : (c.2.capture.readers s).pc <;> simp only [Copier.Lags, hpc] at hlags <;> omega

/-- Threads that have all returned without an error have copied everything that came through the
pipes, as far as the limit allows. -/
theorem ReaderThreads.complete {limit : ℕ} {mode : OutputMode}
    {source : OutputStream → List UInt8} {todo : List OutputStream} {d : Copying}
    (h : ReaderThreads limit mode source todo d) (htotal : totalRead mode source < 2 ^ 64)
    (hall : AllReturned mode d) :
    (∀ s, (d.capture.readers s).pc = .ended ∧ (d.capture.readers s).pipe = []) ∧
    ∑ s, (d.world.files s).length = min limit (totalRead mode source) ∧
    (∀ s, (d.capture.readers s).counter = (d.world.files s).length) ∧
    (∀ s, d.world.files s <+: piped mode source s) ∧
    (d.world.outputTruncated = true ↔ limit < totalRead mode source) := by
  have hgood : ∀ s, ¬ (d.stage s).Bad := by
    intro s hb
    by_cases hs : s ∈ mode.streams
    · rw [hall s hs] at hb
      exact hb
    · rw [(h.outside s hs).1] at hb
      exact hb
  have hended : ∀ s, (d.capture.readers s).pc = .ended := by
    intro s
    by_cases hs : s ∈ mode.streams
    · exact h.ended s (hall s hs)
    · exact (h.outside s hs).2
  have hpiped := sum_piped mode source
  have hacc := (accounts_start limit mode source).run (hpiped ▸ htotal) (h.exact hgood)
  obtain ⟨hpipes, hsum, hcounter, hfiles, htr⟩ := hacc.ended hended
  simp only [h.linked.files]
  refine ⟨fun s ↦ ⟨hended s, hpipes s⟩, hpiped ▸ hsum, hcounter, hfiles, ?_⟩
  rw [h.linked.truncated, ← hpiped]
  exact htr

/-- … and if nothing was truncated, that is all of it. -/
theorem ReaderThreads.untruncated {limit : ℕ} {mode : OutputMode}
    {source : OutputStream → List UInt8} {todo : List OutputStream} {d : Copying}
    (h : ReaderThreads limit mode source todo d) (htotal : totalRead mode source < 2 ^ 64)
    (hall : AllReturned mode d) (htr : d.world.outputTruncated = false) (s : OutputStream) :
    d.world.files s = piped mode source s := by
  obtain ⟨-, hsum, -, hfiles, hiff⟩ := h.complete htotal hall
  have hlimit : totalRead mode source ≤ limit := by
    by_contra hlt
    rw [hiff.mpr (not_le.mp hlt)] at htr
    cases htr
  rw [min_eq_right hlimit, ← sum_piped] at hsum
  have hlen := (Finset.sum_eq_sum_iff_of_le fun s _ ↦ (hfiles s).length_le).mp hsum
  exact (hfiles s).eq_of_length (hlen s (Finset.mem_univ s))

/-- **A finished status stands for the whole output**, unless it is the error handler's: each
reader has come to the end of its pipe and returned without an error, with nothing left in the
pipe; the log files have as much of what came through as the limit allows, each a beginning of its
stream, and `output_truncated` says whether that is all. -/
theorem published_output_complete (htotal : totalRead route.outputMode source < 2 ^ 64)
    (hr : (copyingMachine P line limit).Run
      (startTask P route args, .start (startedWorld line route id now) route.outputMode source) c)
    (hfin : c.2.world.visible.status.isFinished = true)
    (hok : ¬ ByErrorHandler c.2.world.visible) :
    (∀ s ∈ route.outputMode.streams, c.2.stage s = .returned (.ok ()) ∧
      (c.2.capture.readers s).pc = .ended ∧ (c.2.capture.readers s).pipe = []) ∧
    ∑ s, (c.2.world.files s).length = min limit (totalRead route.outputMode source) ∧
    (∀ s, (c.2.capture.readers s).counter = (c.2.world.files s).length) ∧
    (∀ s ∈ route.outputMode.streams, c.2.world.files s <+: source s) ∧
    (c.2.world.visible.outputTruncated = true ↔ limit < totalRead route.outputMode source) := by
  obtain ⟨φ, todo, ht, ha⟩ := copying_run htotal hr
  obtain ⟨hall, -⟩ := (ha.conclusive hfin).resolve_left hok
  obtain ⟨hended, hsum, hcounter, hfiles, htr⟩ := ht.complete htotal hall
  refine ⟨fun s hs ↦ ⟨hall s hs, hended s⟩, hsum, hcounter, fun s hs ↦ ?_, htr⟩
  have := hfiles s
  rwa [piped, if_pos hs] at this

/-- **A failure to write the log is reported as such.**  A task one of whose readers has failed, or
that was stopped for it, ends with the error handler's status and no exit code; the text that
`run_task` has for `LoggingFailure` is never shown. -/
theorem logging_failure_reported (htotal : totalRead route.outputMode source < 2 ^ 64)
    (hr : (copyingMachine P line limit).Run
      (startTask P route args, .start (startedWorld line route id now) route.outputMode source) c) :
    (c.2.world.visible.status.isFinished = true →
      (∃ s ∈ route.outputMode.streams, (c.2.stage s).Bad) ∨
        (∃ t, c.2.world.visible.termination = some t ∧ t.reason = .loggingFailure) →
      ByErrorHandler c.2.world.visible) ∧
    c.2.world.visible.error ≠ some loggingFailureText := by
  obtain ⟨φ, todo, ht, ha⟩ := copying_run htotal hr
  refine ⟨fun hfin hbad ↦ (ha.conclusive hfin).resolve_right ?_, ha.text⟩
  rintro ⟨hall, hreason⟩
  rcases hbad with ⟨s, hs, hb⟩ | ⟨t, htt, htr⟩
  · rw [hall s hs] at hb
    exact hb
  · exact hreason t htt htr

end

/-! ## Two executions

A script that prints more than the limit, and a log file that cannot be opened. -/

section

variable {P : Platform} {line : TaskSnapshot → List UInt8} {limit : ℕ}

/-- The runner alone. -/
def aloneMachine (P : Platform) (line : TaskSnapshot → List UInt8) : Machine runner World :=
  (taskMachine P line).restrict (fun _ _ _ ↦ True) fun _ _ ↦ False

theorem aloneMachine_allows : Allows P line (aloneMachine P line) :=
  fun _ _ _ _ h _ _ ↦ ⟨h, trivial⟩

/-- What the runner can do alone it can do next to threads that wait; it may start some. -/
theorem run_alone {p q : Task Unit} {w v : World} (h : (aloneMachine P line).Run (p, w) (q, v))
    {d : Copying} (hd : d.world = w) :
    ∃ d', (copyingMachine P line limit).Run (p, d) (q, d') ∧ d'.world = v ∧
      d'.capture = d.capture ∧ ∀ s, d'.stage s = d.stage s ∨ d'.stage s = .opening := by
  refine Machine.Run.simulate (N := copyingMachine P line limit)
    (R := fun u d' ↦ d'.world = u ∧ d'.capture = d.capture ∧
      ∀ s, d'.stage s = d.stage s ∨ d'.stage s = .opening)
    ?_ ?_ h ⟨hd, rfl, fun _ ↦ .inl rfl⟩
  · rintro o u r u' e ⟨rfl, hcap, hstage⟩ ⟨ha, -⟩
    refine ⟨e.afterOp o u', ⟨u', ha, rfl⟩, rfl, hcap, fun s ↦ ?_⟩
    cases o with
    | startReader t =>
      rw [show (e.afterOp (.startReader t) u').stage s = _ from Function.update_apply ..]
      split
      · exact .inr rfl
      · exact hstage s
    | _ => exact hstage s
  · rintro u u' e - ⟨-, hfalse⟩
    exact hfalse.elim

/-- Every loop that has not ended has its thread in it. -/
def Copying.Looping (d : Copying) : Prop :=
  ∀ s, d.stage s = .copying ∨ (d.capture.readers s).pc = .ended

/-- The loops may take their steps while their threads are in them. -/
theorem run_loops {d : Copying} {C : Capture} (h : ReflTransGen (CaptureStep limit) d.capture C)
    (hd : d.Looping) :
    ∃ files truncated, ReflTransGen (CopyingStep P limit) d
      { world := { d.world with files, outputTruncated := truncated }
        capture := C
        stage := d.stage } := by
  suffices h : ∃ e : Copying, ReflTransGen (CopyingStep P limit) d e ∧ e.capture = C ∧
      e.stage = d.stage ∧ e.Looping ∧
      ∃ files truncated, e.world = { d.world with files, outputTruncated := truncated } by
    obtain ⟨⟨w, _, _⟩, he, rfl, rfl, -, files, truncated, rfl⟩ := h
    exact ⟨files, truncated, he⟩
  induction h with
  | refl => exact ⟨d, .refl, rfl, rfl, hd, _, _, rfl⟩
  | tail _ hs ih =>
    obtain ⟨e, he, rfl, hst, hloop, files, truncated, hw⟩ := ih
    obtain ⟨s, hc⟩ := hs
    rename_i r c
    have hcopying := (hloop s).resolve_right hc.not_ended
    refine ⟨e.setCopier s r c, he.tail (.copy hcopying hc), rfl, hst, fun t ↦ ?_,
      Function.update e.world.files s r.file, c.truncated, ?_⟩
    · exact (hloop t).imp_right (CaptureStep.reader s hc).pc_ended
    · rw [Copying.setCopier, hw]

/-- The script prints two lines; a byte of each fits. -/
def examplePrinted : OutputStream → List UInt8
  | .stdout => [111, 107]
  | .stderr => [110, 111]
  | .combined => []

/-- The task in its main loop, with its threads about to open their log files. -/
theorem exists_exampleReading (limit : ℕ) :
    ∃ d, (copyingMachine .unix snapshotCodec.line limit).Run
        (startTask .unix exampleRoute [], .start
          (startedWorld snapshotCodec.line exampleRoute 1 "2026-01-01T00:00:00Z") .separate
          examplePrinted)
        (atMainLoop .unix exampleRoute, d) ∧
      d.world = (startedWorld snapshotCodec.line exampleRoute 1 "2026-01-01T00:00:00Z").looping
        snapshotCodec.line exampleRoute "2026-01-01T00:00:01Z" ∧
      d.capture = .start .separate examplePrinted ∧ d.stage .stdout = .opening ∧
      d.stage .stderr = .opening := by
  have hloop : (aloneMachine .unix snapshotCodec.line).Run
      (startTask .unix exampleRoute [],
        startedWorld snapshotCodec.line exampleRoute 1 "2026-01-01T00:00:00Z")
      (atMainLoop .unix exampleRoute, _) :=
    run_mainLoop aloneMachine_allows "2026-01-01T00:00:01Z" _
  obtain ⟨d, hr, hw, hcap, hstage⟩ : ∃ d,
      (copyingMachine .unix snapshotCodec.line limit).Run _ (_, d) ∧ _ :=
    run_alone hloop (d := .start _ .separate examplePrinted) rfl
  have hstart : ReaderThreads limit exampleRoute.outputMode examplePrinted _ _ :=
    (copying_start snapshotCodec.line 1 "2026-01-01T00:00:00Z").1
  have hlinked : Linked d := (copying_refines hstart.linked hr).2
  have hopen : ∀ s, d.world.readers s = .running → d.stage s = .opening := by
    intro s hs
    refine (hstage s).resolve_left fun hidle ↦ ?_
    rw [hlinked.readers, hidle] at hs
    cases hs
  exact ⟨d, hr, hw, hcap, hopen _ (by rw [hw]; rfl), hopen _ (by rw [hw]; rfl)⟩

/-- The worker has exited and the readers have returned: the runner goes on to its last
transition. -/
theorem run_published {w : World} (hworker : w.worker = .exited (.exited 0))
    (hout : w.readers .stdout = .ended (.ok ())) (herr : w.readers .stderr = .ended (.ok ())) :
    (aloneMachine .unix line).Run (atMainLoop .unix exampleRoute, w)
      ((attemptCall .persist).attempt >>= handleResult,
        World.update { w with permits := false }
          (toFinal none (.exited 0) "2026-01-01T00:00:02Z")) := by
  let M := aloneMachine .unix line
  have hexit : M.act .selectMain w (.exited (.ok (.exited 0))) w := ⟨⟨hworker, rfl⟩, trivial⟩
  have hempty : M.act .waitEmptyUntilDeadline w (some (.ok ())) w := ⟨⟨.inl rfl, rfl⟩, trivial⟩
  have hcontrol : M.act .dropControl w () w := ⟨rfl, trivial⟩
  have hjoinOut : M.act (.joinReader .stdout) w (.ended (.ok ())) w := ⟨⟨hout, rfl⟩, trivial⟩
  have hjoinErr : M.act (.joinReader .stderr) w (.ended (.ok ())) w := ⟨⟨herr, rfl⟩, trivial⟩
  have hpermits : M.act .dropPermits w () { w with permits := false } := ⟨rfl, trivial⟩
  have hfinal : M.act (.update .final (toFinal none (.exited 0))) { w with permits := false } ()
      (World.update { w with permits := false }
        (toFinal none (.exited 0) "2026-01-01T00:00:02Z")) :=
    ⟨⟨_, rfl⟩, trivial⟩
  refine .head (.act hexit) (.head (.act hempty) (.head (.act hcontrol) ?_))
  refine .head (.act hjoinOut) (.head (.act hjoinErr) (.head (.act hpermits) ?_))
  exact .single (.act hfinal)

/-- The whole of it. -/
theorem exists_examplePrinted (limit : ℕ) :
    ∃ c, (copyingMachine .unix snapshotCodec.line limit).Run
        (startTask .unix exampleRoute [], .start
          (startedWorld snapshotCodec.line exampleRoute 1 "2026-01-01T00:00:00Z")
          exampleRoute.outputMode examplePrinted) c ∧
      c.2.world.visible.status = .succeeded ∧ c.2.world.visible.outputMode = .separate ∧
      c.2.world.visible.outputEncoding = .utf8 := by
  obtain ⟨d, hr, hw, hcap, hout, herr⟩ := exists_exampleReading limit
  -- the threads open their files, copy what comes and return
  let d₁ := (d.setStage .stdout .copying).setStage .stderr .copying
  have hopen : ReflTransGen (CopyingStep .unix limit) d d₁ :=
    .head (.opened hout) (.single (.opened herr))
  obtain ⟨C, hC, hended⟩ := exists_allEnded limit (.start .separate examplePrinted)
  have hloop : d₁.Looping := by
    intro s
    cases s with
    | stdout => exact .inl rfl
    | stderr => exact .inl rfl
    | combined => exact .inr (by rw [show d₁.capture = _ from hcap]; rfl)
  have hC' : ReflTransGen (CaptureStep limit) d₁.capture C := by
    rw [show d₁.capture = _ from hcap]
    exact hC
  obtain ⟨files, truncated, hcopy⟩ := run_loops (P := .unix) hC' hloop
  let d₂ : Copying := ⟨{ d₁.world with files, outputTruncated := truncated }, C, d₁.stage⟩
  let d₃ := (d₂.setStage .stdout (.returned (.ok ()))).setStage .stderr (.returned (.ok ()))
  have hreturn : ReflTransGen (CopyingStep .unix limit) d₂ d₃ :=
    .head (.finished rfl (hended .stdout)) (.single (.finished rfl (hended .stderr)))
  -- the worker exits
  let d₄ : Copying := { d₃ with world := { d₃.world with worker := .exited (.exited 0) } }
  have halive : d₃.world.worker = .alive := by
    show d.world.worker = .alive
    rw [hw]
    rfl
  have hothers : d₃.world.others = false := by
    show d.world.others = false
    rw [hw]
    rfl
  have hexit : CopyingStep .unix limit d₃ d₄ :=
    .elsewhere (.workerExit (.exited 0) halive fun _ ↦ hothers) ⟨rfl, rfl, rfl, .inl rfl⟩
  obtain ⟨e, hfin, he, -⟩ : ∃ e,
      (copyingMachine .unix snapshotCodec.line limit).Run _ (_, e) ∧ _ :=
    run_alone (run_published (w := d₄.world) rfl rfl rfl) (d := d₄) rfl
  refine ⟨_, (hr.trans (Machine.Run.env ((hopen.trans hcopy).trans
    (hreturn.tail hexit)))).trans hfin, ?_⟩
  rw [he]
  refine ⟨rfl, ?_, ?_⟩
  · show d.world.snapshot.outputMode = .separate
    rw [hw]
    rfl
  · show d.world.snapshot.outputEncoding = .utf8
    rw [hw]
    rfl

/-- The readers have emptied the pipes, two of the four bytes are kept, and the task says that
something is missing. -/
theorem published_output_complete_two :
    ∃ c, (copyingMachine .unix snapshotCodec.line 2).Run
        (startTask .unix exampleRoute [], .start
          (startedWorld snapshotCodec.line exampleRoute 1 "2026-01-01T00:00:00Z")
          exampleRoute.outputMode examplePrinted) c ∧
      c.2.world.visible.status = .succeeded ∧ (c.2.capture.readers .stderr).pipe = [] ∧
      ∑ s, (c.2.world.files s).length = 2 ∧ c.2.world.visible.outputTruncated = true := by
  obtain ⟨c, hr, hs, -⟩ := exists_examplePrinted 2
  have hfin : c.2.world.visible.status.isFinished = true := by rw [hs]; rfl
  have hok : ¬ ByErrorHandler c.2.world.visible := by
    rintro ⟨hfailed, -⟩
    rw [hs] at hfailed
    cases hfailed
  obtain ⟨hended, hsum, -, -, htr⟩ := published_output_complete .unix exampleRoute []
    snapshotCodec.line 2 examplePrinted 1 "2026-01-01T00:00:00Z" c (by decide) hr hfin hok
  exact ⟨c, hr, hs, (hended .stderr (by decide)).2.2, hsum.trans (by decide), htr.mpr (by decide)⟩

/-- The same execution, about the budget alone. -/
theorem output_within_budget_two :
    ∃ c, (copyingMachine .unix snapshotCodec.line 2).Run
        (startTask .unix exampleRoute [], .start
          (startedWorld snapshotCodec.line exampleRoute 1 "2026-01-01T00:00:00Z")
          exampleRoute.outputMode examplePrinted) c ∧
      ∑ s, (c.2.world.files s).length ≤ 2 := by
  obtain ⟨c, hr, -⟩ := exists_examplePrinted 2
  exact ⟨c, hr, (output_within_budget .unix exampleRoute [] snapshotCodec.line 2 examplePrinted 1
    "2026-01-01T00:00:00Z" c (by decide) hr).1⟩

/-- A log file cannot be opened, and waiting for the worker fails as well. -/
theorem logging_failure_reported_full :
    ∃ c, (copyingMachine .unix snapshotCodec.line 2).Run
        (startTask .unix exampleRoute [], .start
          (startedWorld snapshotCodec.line exampleRoute 1 "2026-01-01T00:00:00Z")
          exampleRoute.outputMode examplePrinted) c ∧
      (c.2.stage .stdout).Bad ∧ ByErrorHandler c.2.world.visible := by
  obtain ⟨d, hr, hw, hcap, hout, herr⟩ := exists_exampleReading 2
  let d₁ := d.setStage .stdout (.failing "No space left on device")
  have hfail : CopyingStep .unix 2 d d₁ := .openError _ hout
  let w := d₁.world.reported .unix "等待 Worker 退出失败: No child processes" "2026-01-01T00:00:02Z"
  have hwait : (copyingMachine .unix snapshotCodec.line 2).act .selectMain d₁
      (.exited (.error "No child processes")) d₁ := ⟨d₁.world, rfl, rfl⟩
  have hleave : (copyingMachine .unix snapshotCodec.line 2).act .leaveRunTask d₁ ()
      { d₁ with world := d₁.world.left .unix } := ⟨_, rfl, rfl⟩
  have hreport : (copyingMachine .unix snapshotCodec.line 2).act
      (.update .executorError (toExecutorError "等待 Worker 退出失败: No child processes"))
      { d₁ with world := d₁.world.left .unix } () { d₁ with world := w } :=
    ⟨w, ⟨"2026-01-01T00:00:02Z", rfl⟩, rfl⟩
  have hrun : (copyingMachine .unix snapshotCodec.line 2).Run
      (startTask .unix exampleRoute [], .start
        (startedWorld snapshotCodec.line exampleRoute 1 "2026-01-01T00:00:00Z")
        exampleRoute.outputMode examplePrinted) (afterReport, { d₁ with world := w }) := by
    refine (hr.tail (.env hfail)).trans ?_
    exact .head (.act hwait) (.head (.act hleave) (.single (.act hreport)))
  have hstatus : w.visible.status = .failed := by
    have hrunning : (d₁.world.left .unix).snapshot.status = .running := by
      show d.world.snapshot.status = .running
      rw [hw]
      rfl
    show (toExecutorError _ _ _).status = .failed
    rw [toExecutorError, if_neg (by rw [hrunning]; decide)]
  have hbad : (d₁.stage .stdout).Bad := trivial
  refine ⟨_, hrun, hbad, ?_⟩
  refine (logging_failure_reported .unix exampleRoute [] snapshotCodec.line 2 examplePrinted 1
    "2026-01-01T00:00:00Z" _ (by decide) hrun).1 ?_ (.inl ⟨.stdout, by decide, hbad⟩)
  show w.visible.status.isFinished = true
  rw [hstatus]
  rfl

end

end CommandApi
