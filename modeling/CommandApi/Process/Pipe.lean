import CommandApi.Async.Control
import CommandApi.Process.Runs
import CommandApi.Process.Worker

/-!
# The control pipe

What `run_task` writes to the standard input of its worker, and what the worker makes of it.  A
write may stop halfway, the pipe is closed when `run_task` ends or when the service itself is gone,
and the worker sees the bytes as they arrive.

`startTask_sends` is a walk through the source that looks at nothing but the pipe, and `pipe_run`
what follows for every execution: the pipe holds a part of one line with the specification and one
line with `terminate`, in this order.  `delivered_of_part` is the other end of the pipe.
-/

set_option autoImplicit false

namespace CommandApi

open Async Text

/-! ## Programs that do not write -/

/-- The operation writes to the pipe. -/
def Op.writes : Op → Bool
  | .fallible (.writeSpec _) | .writeTerminate => true
  | _ => false

/-- The operation closes the pipe. -/
def Op.closes : Op → Bool
  | .dropControl | .leaveRunTask => true
  | _ => false

/-- The program writes nothing to the pipe. -/
abbrev Silent {ε α : Type} (p : Prog runner ε α) : Prop := p.Only fun o : Op ↦ o.writes = false

section

variable {ε α β : Type}

theorem silent_perform {o : Op} (h : o.writes = false) : Silent (perform o) := ⟨h, fun _ ↦ trivial⟩

theorem silent_ofExcept (x : Except ε α) : Silent (Prog.ofExcept (S := runner) x) :=
  .ofExcept x

theorem silent_attemptCall {c : Fallible} (h : (Op.fallible c).writes = false) :
    Silent (attemptCall c) :=
  only_attemptCall h

theorem silent_transition (site : Site) (f : String → TaskSnapshot → TaskSnapshot) :
    Silent (transition site f) :=
  only_transition f (fun _ ↦ rfl) rfl

theorem silent_startReaders (streams : List OutputStream) : Silent (startReaders streams) :=
  only_startReaders streams rfl fun _ ↦ rfl

theorem silent_forcedStatus (status : Option ExitStatus) : Silent (forcedStatus status) := by
  cases status with
  | some s => exact trivial
  | none => exact (silent_perform rfl).bind fun _ ↦ (silent_ofExcept _).mapError _

variable (P : Platform) (route : ResolvedRoute)

theorem silent_forceStopProcess (reason : StopReason) (attempted : Bool)
    (status : Option ExitStatus) : Silent (forceStopProcess P reason attempted status) := by
  refine (silent_transition _ _).bind fun _ ↦ (silent_attemptCall rfl).bind fun _ ↦ ?_
  refine (silent_forcedStatus status).bind fun _ ↦ (silent_perform rfl).bind fun _ ↦ ?_
  exact (silent_ofExcept _).bind fun _ ↦ trivial

theorem silent_stopDescendants (reason : StopReason) (status : Option ExitStatus) :
    Silent (stopDescendants P reason status) := by
  cases status with
  | none => exact (silent_forceStopProcess P _ _ _).bind fun _ ↦ trivial
  | some s =>
    refine (silent_perform rfl).bind fun r ↦ ?_
    match r with
    | .empty result => exact (silent_ofExcept _).bind fun _ ↦ trivial
    | .elapsed => exact (silent_forceStopProcess P _ _ _).bind fun _ ↦ trivial
    | .force => exact (silent_forceStopProcess P _ _ _).bind fun _ ↦ trivial

theorem silent_awaitTree (reason : Option StopReason) : Silent (awaitTree P reason) := by
  cases reason with
  | some reason =>
    refine (silent_perform rfl).bind fun _ ↦ ?_
    exact (silent_ofExcept _).bind fun _ ↦ trivial
  | none =>
    refine (silent_perform rfl).bind fun r ↦ ?_
    match r with
    | some _ => exact trivial
    | none =>
      refine (silent_attemptCall rfl).bind fun _ ↦ (silent_transition _ _).bind fun _ ↦ ?_
      exact (silent_perform rfl).bind fun _ ↦ (silent_ofExcept _).bind fun _ ↦ trivial

theorem silent_finish (streams : List OutputStream) (reason : Option StopReason)
    (status : ExitStatus) : Silent (finish streams reason status) :=
  only_finish streams reason status rfl (fun _ ↦ rfl) rfl (fun _ ↦ rfl) rfl

theorem silent_reportError (result : Except String Unit) : Silent (reportError result) :=
  only_reportError result (fun _ ↦ rfl) rfl

/-! ## What is written -/

/-- How much the runner has written. -/
inductive Sent
  | nothing
  /-- The specification, but not all of it. -/
  | torn
  | spec
  /-- … and `terminate`. -/
  | told

/-- The control graph of `startTask`, as far as the pipe is concerned. -/
inductive Sends (spec : WorkerSpec) : ControlGraph runner Sent
  | silent {φ : Sent} {o : Op} {r : runner.Resp o} (h : o.writes = false) : Sends spec φ o r φ
  | spec : Sends spec .nothing (.fallible (.writeSpec spec)) (.ok ()) .spec
  | torn (e : String) : Sends spec .nothing (.fallible (.writeSpec spec)) (.error e) .torn
  | told : Sends spec .spec .writeTerminate () .told

variable {spec : WorkerSpec} {φ : Sent}

theorem Silent.follows {p : Prog runner ε α} (hp : Silent p) :
    Follows (Sends spec) φ p fun _ ψ ↦ ψ = φ :=
  .of_only hp fun _ _ ↦ .silent

/-- A program that does not write, in front of another one. -/
theorem Silent.follows_bind {p : Prog runner ε α} {f : α → Prog runner ε β}
    {Q : Except ε β → Sent → Prop} (hp : Silent p) (hQ : ∀ e, Q (.error e) φ)
    (hf : ∀ a, Follows (Sends spec) φ (f a) Q) : Follows (Sends spec) φ (p >>= f) Q :=
  .only_bind hp (fun _ _ ↦ .silent) hQ hf

/-- … and behind another one. -/
theorem Silent.bind_follows {p : Prog runner ε α} {f : α → Prog runner ε β}
    (hp : Follows (Sends spec) φ p fun _ _ ↦ True) (hf : ∀ a, Silent (f a)) :
    Follows (Sends spec) φ (p >>= f) fun _ _ ↦ True := by
  refine Follows.bind (B := fun _ _ ↦ True) (hp.mono fun r ψ _ ↦ ?_) fun a ψ _ ↦ ?_
  · cases r <;> exact trivial
  · exact (hf a).follows.mono fun _ _ _ ↦ trivial

theorem launch_sends (streams : List OutputStream) :
    Follows (Sends spec) .nothing (launch streams spec)
      fun r ψ ↦ ∀ u, r = .ok u → ψ = .spec := by
  refine (silent_attemptCall rfl).follows_bind (by simp) fun _ ↦ ?_
  refine (silent_startReaders streams).follows_bind (by simp) fun _ ↦ ?_
  refine Silent.follows_bind ((silent_attemptCall rfl).mapError _) (by simp) fun _ ↦ ?_
  refine (silent_attemptCall rfl).follows_bind (by simp) fun _ ↦ ?_
  refine Silent.follows_bind ((silent_attemptCall rfl).mapError _) (by simp) fun _ ↦ ?_
  refine (silent_attemptCall rfl).follows_bind (by simp) fun _ ↦ ?_
  refine Silent.follows_bind ((silent_attemptCall rfl).mapError _) (by simp) fun _ ↦ ?_
  refine (silent_attemptCall rfl).follows_bind (by simp) fun _ ↦ ?_
  intro r
  cases r with
  | ok u =>
    refine ⟨.spec, .spec, ?_⟩
    exact (silent_attemptCall rfl).follows.mono fun _ _ hψ _ _ ↦ hψ
  | error e =>
    refine ⟨.torn, .torn e, ?_⟩
    rintro u ⟨⟩

theorem stopProcess_sends (reason : StopReason) :
    Follows (Sends spec) .spec (stopProcess P route reason) fun _ _ ↦ True := by
  rw [stopProcess]
  split
  · refine Follows.mono (fun _ _ _ ↦ trivial) (Silent.follows ?_)
    exact (silent_forceStopProcess P _ _ _).bind fun _ ↦ trivial
  · refine (silent_transition _ _).follows_bind (fun _ ↦ trivial) fun _ ↦ ?_
    -- everything behind the message is silent
    refine fun _ ↦ ⟨.told, .told, Follows.mono (fun _ _ _ ↦ trivial) (Silent.follows ?_)⟩
    refine (silent_attemptCall rfl).bind fun _ ↦ (silent_perform rfl).bind fun _ ↦ ?_
    refine (silent_perform rfl).bind fun r ↦ ?_
    match r with
    | .exited result =>
      refine ((silent_ofExcept _).mapError _).bind fun _ ↦ ?_
      exact silent_stopDescendants P _ _
    | .elapsed => exact silent_stopDescendants P _ _
    | .force => exact (silent_forceStopProcess P _ _ _).bind fun _ ↦ trivial

theorem mainLoop_sends : Follows (Sends spec) .spec (mainLoop P route) fun _ _ ↦ True := by
  refine (silent_perform rfl).follows_bind (fun _ ↦ trivial) fun r ↦ ?_
  match r with
  | .exited result =>
    refine Follows.mono (fun _ _ _ ↦ trivial) (Silent.follows ?_)
    exact ((silent_ofExcept _).mapError _).bind fun _ ↦ trivial
  | .deadline => exact Silent.bind_follows (stopProcess_sends P route _) fun _ ↦ trivial
  | .stop reason => exact Silent.bind_follows (stopProcess_sends P route _) fun _ ↦ trivial

theorem afterRunning_sends : Follows (Sends spec) .spec (afterRunning P route) fun _ _ ↦ True := by
  refine (silent_perform rfl).follows_bind (fun _ ↦ trivial) fun _ ↦ ?_
  refine Silent.bind_follows (mainLoop_sends P route) fun x ↦ ?_
  exact (silent_awaitTree P _).bind fun _ ↦ silent_finish _ _ _

theorem runTask_sends (args : List String) :
    Follows (Sends (workerSpec route args)) .nothing (runTask P route args) fun _ _ ↦ True := by
  refine Follows.bind (B := fun _ ψ ↦ ψ = .spec) ((launch_sends _).mono fun r ψ hψ ↦ ?_) ?_
  · cases r with
    | ok u => exact hψ u rfl
    | error e => exact trivial
  · rintro _ ψ rfl
    refine (silent_transition _ _).follows_bind (fun _ ↦ trivial) fun _ ↦ ?_
    exact afterRunning_sends P route

/-- **The specification is written first, and once**, and after it nothing but `terminate`. -/
theorem startTask_sends (args : List String) :
    Follows (Sends (workerSpec route args)) .nothing (startTask P route args) fun _ _ ↦ True := by
  refine Silent.bind_follows (Follows.attempt (runTask_sends P route args)) fun result ↦ ?_
  refine (silent_perform rfl).bind fun _ ↦ (silent_reportError result).bind fun _ ↦ ?_
  exact (silent_perform rfl).bind fun _ ↦ silent_perform rfl

end

/-! ## The pipe -/

/-- The pipe: all that was written to it, and whether it is closed. -/
structure Pipe where
  bytes : List UInt8
  ended : Bool
  deriving DecidableEq, Repr

section

variable {W : Type} (M : Machine runner W) (spelling : Spelling)

/-- The line with a specification. -/
def specLine (spec : WorkerSpec) : List UInt8 := workerCodec.line (spec.message spelling)

/-- What an operation does to the pipe.  The result of writing `terminate` is ignored. -/
inductive Pipe.Effect : (o : Op) → Pipe → runner.Resp o → Pipe → Prop
  | spec (spec : WorkerSpec) (pipe : Pipe) :
      Effect (.fallible (.writeSpec spec)) pipe (.ok ())
        { pipe with bytes := pipe.bytes ++ specLine spelling spec }
  | torn (spec : WorkerSpec) (pipe : Pipe) (e : String) {part : List UInt8}
      (h : part <+: specLine spelling spec) :
      Effect (.fallible (.writeSpec spec)) pipe (.error e) { pipe with bytes := pipe.bytes ++ part }
  | terminate (pipe : Pipe) {part : List UInt8} (h : part <+: terminateLine) :
      Effect .writeTerminate pipe () { pipe with bytes := pipe.bytes ++ part }
  | silent (o : Op) (r : runner.Resp o) (pipe : Pipe) (h : o.writes = false) :
      Effect o pipe r { pipe with ended := pipe.ended || o.closes }

/-- A machine with the pipe.  If the service is gone, nobody writes any more. -/
def pipedMachine : Machine runner (W × Pipe) where
  act o w r w' := M.act o w.1 r w'.1 ∧ Pipe.Effect spelling o w.2 r w'.2
  env w w' := (M.env w.1 w'.1 ∧ w'.2 = w.2) ∨ (w'.1 = w.1 ∧ w'.2 = { w.2 with ended := true })

/-- What is in the pipe. -/
def Sent.Holds (line bytes : List UInt8) : Sent → Prop
  | nothing => bytes = []
  | torn => bytes <+: line
  | spec => bytes = line
  | told => ∃ part, part <+: terminateLine ∧ bytes = line ++ part

variable {M spelling}

theorem holds_invariant {spec : WorkerSpec} :
    Invariant (pipedMachine M spelling) (Sends spec)
      fun φ w ↦ φ.Holds (specLine spelling spec) w.2.bytes where
  env φ w w' h henv := by
    rcases henv with ⟨-, hp⟩ | ⟨-, hp⟩
    · rw [hp]
      exact h
    · rw [hp]
      exact h
  act φ o w r w' ψ h hact hmove := by
    obtain ⟨u, bytes, ended⟩ := w
    obtain ⟨u', pipe⟩ := w'
    obtain ⟨-, heffect⟩ := hact
    cases hmove with
    | silent ho =>
      cases heffect with
      | silent => exact h
      | _ => cases ho
    | spec =>
      obtain rfl : bytes = [] := h
      cases heffect with
      | spec => exact List.nil_append _
      | silent _ _ _ ho => cases ho
    | torn e =>
      obtain rfl : bytes = [] := h
      cases heffect with
      | torn _ _ _ hpart => exact hpart
      | silent _ _ _ ho => cases ho
    | told =>
      obtain rfl : bytes = specLine spelling spec := h
      cases heffect with
      | terminate _ hpart => exact ⟨_, hpart, rfl⟩
      | silent _ _ _ ho => cases ho

theorem Sent.Holds.part {φ : Sent} {line bytes : List UInt8} (h : φ.Holds line bytes) :
    bytes <+: line ++ terminateLine := by
  cases φ with
  | nothing =>
    obtain rfl : bytes = [] := h
    exact List.nil_prefix
  | torn => exact List.IsPrefix.trans h ⟨terminateLine, rfl⟩
  | spec =>
    obtain rfl : bytes = line := h
    exact ⟨terminateLine, rfl⟩
  | told =>
    obtain ⟨part, hpart, rfl⟩ := h
    exact (List.prefix_append_right_inj line).mpr hpart

/-- **In every execution**, the pipe holds a part of the two lines. -/
theorem pipe_run {P : Platform} {route : ResolvedRoute} {args : List String} {w v : W}
    {p : Task Unit} {pipe : Pipe}
    (hr : (pipedMachine M spelling).Run (startTask P route args, w, ⟨[], false⟩) (p, v, pipe)) :
    pipe.bytes <+: specLine spelling (workerSpec route args) ++ terminateLine := by
  have hstart : Tracked (Sends (workerSpec route args))
      (fun φ (u : W × Pipe) ↦ φ.Holds (specLine spelling (workerSpec route args)) u.2.bytes)
      (fun _ _ ↦ True) (startTask P route args, w, ⟨[], false⟩) :=
    ⟨.nothing, startTask_sends P route args, rfl⟩
  obtain ⟨φ, -, hholds⟩ := holds_invariant.run hstart hr
  exact hholds.part

theorem Pipe.exists_effect (o : Op) (r : runner.Resp o) (pipe : Pipe) :
    ∃ pipe', Pipe.Effect spelling o pipe r pipe' := by
  by_cases h : o.writes = false
  · exact ⟨_, .silent o r pipe h⟩
  · match o, r with
    | .fallible (.writeSpec spec), .ok () => exact ⟨_, .spec spec pipe⟩
    | .fallible (.writeSpec spec), .error e => exact ⟨_, .torn spec pipe e List.nil_prefix⟩
    | .writeTerminate, () => exact ⟨_, .terminate pipe List.nil_prefix⟩

/-- An execution is one with the pipe. -/
theorem exists_run_piped {α : Type} {p q : Task α} {w v : W} (hr : M.Run (p, w) (q, v))
    (pipe : Pipe) : ∃ pipe', (pipedMachine M spelling).Run (p, w, pipe) (q, v, pipe') := by
  refine hr.extend (fun o _ r _ pipe hact ↦ ?_) (fun _ _ pipe henv ↦ ?_) pipe
  · obtain ⟨pipe', heffect⟩ : ∃ pipe', Pipe.Effect spelling o pipe r pipe' :=
      Pipe.exists_effect o r pipe
    exact ⟨pipe', hact, heffect⟩
  · exact ⟨pipe, .inl ⟨henv, rfl⟩⟩

/-- There are executions in which the whole line is written. -/
theorem exists_run_specLine (P : Platform) (line : TaskSnapshot → List UInt8)
    (spelling : Spelling) (route : ResolvedRoute) (args : List String) (w : World) :
    ∃ p v pipe, (pipedMachine (taskMachine P line) spelling).Run
        (startTask P route args, w, ⟨[], false⟩) (p, v, pipe) ∧
      pipe.bytes = specLine spelling (workerSpec route args) := by
  have hallows : Allows P line (taskMachine P line) := taskMachine_allows
  have hlaunch := run_launch hallows route.outputMode.streams (workerSpec route args) w
  obtain ⟨pipe, hrun⟩ : ∃ pipe, (pipedMachine (taskMachine P line) spelling).Run _ (_, _, pipe) :=
    exists_run_piped hlaunch ⟨[], false⟩
  have hstart : Tracked (Sends (workerSpec route args))
      (fun φ (u : World × Pipe) ↦ φ.Holds (specLine spelling (workerSpec route args)) u.2.bytes)
      (fun r ψ ↦ ∀ u, r = .ok u → ψ = .spec)
      (launch route.outputMode.streams (workerSpec route args), w, ⟨[], false⟩) :=
    ⟨.nothing, launch_sends _, rfl⟩
  obtain ⟨φ, hfollows, hholds⟩ := holds_invariant.run hstart hrun
  obtain rfl : φ = .spec := hfollows () rfl
  exact ⟨_, _, pipe, ((hrun.bind _).attempt).bind _, hholds⟩

/-! ## The other end -/

/-- What the worker makes of the bytes it has seen. -/
structure Delivered (m : WorkerMessage) (ended : Bool) (seen : List UInt8) : Prop where
  /-- If it starts anything, then what it was told to, and nothing of the message is left for the
  control thread, which hears `terminate` only if that was sent. -/
  only : ∀ spec rest, runWorker ended seen = .started spec rest →
    spec = m ∧ rest <+: terminateLine ∧
      stopRequested ended rest = (ended || decide (seen = workerCodec.line m ++ terminateLine))
  /-- … and it does so when the line has arrived. -/
  starts : workerCodec.line m <+: seen → ∃ rest, runWorker ended seen = .started m rest

theorem delivered_of_part {m : WorkerMessage} {seen : List UInt8} (ended : Bool)
    (h : seen <+: workerCodec.line m ++ terminateLine) : Delivered m ended seen := by
  by_cases hall : workerCodec.line m <+: seen
  · obtain ⟨rest, rfl⟩ := hall
    have hrest : rest <+: terminateLine := (List.prefix_append_right_inj _).mp h
    have hstart := runWorker_line ended m rest
    refine ⟨fun spec rest' hrun ↦ ?_, fun _ ↦ ⟨rest, hstart⟩⟩
    rw [hstart] at hrun
    cases hrun
    refine ⟨rfl, hrest, ?_⟩
    simp only [stopRequested_eq hrest, List.append_right_inj]
  · have hpart : seen <+: encodeUtf8 (workerCodec.print m) := by
      rcases List.prefix_or_prefix_of_prefix h ⟨terminateLine, rfl⟩ with hpart | hline
      · refine (List.prefix_concat_iff.mp hpart).resolve_left fun heq ↦ hall ?_
        rw [heq]
        exact List.prefix_rfl
      · exact absurd hline hall
    refine ⟨fun spec rest hrun ↦ ?_, fun hline ↦ absurd hline hall⟩
    obtain ⟨rfl, rfl, rfl, -⟩ := runWorker_part hpart hrun
    exact ⟨rfl, List.nil_prefix, rfl⟩

end

end CommandApi
