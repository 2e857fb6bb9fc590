import CommandApi.Server.Start

/-!
# Stopping and restarting the service

`stop_service` and `restart_service` of `src/app.rs`, and the task of `src/runtime.rs` that waits
for them or for the signal from outside.  A request sets `lifecycle_state`, sends its action through
a channel with room for one, and takes the flag back if the channel is closed; the watcher takes one
action, or the signal, and drops its end of the channel.  All of them run side by side, and the next
generation begins with a flag, a channel and a watcher of its own.  Only the cell of the signal
lasts.

`one_action_per_generation` says what comes of it in every order of the steps.  The handlers do not
await, so a request is not dropped halfway, and `run` holds on to the application while it waits, so
the channel is not closed by the senders.
-/

set_option autoImplicit false

namespace CommandApi

open Relation

/-! ## Requests -/

/-- The first half of `restart_service`. -/
def reloadConfig {F : Type} (host : Host F) (fs : F) (app : App) :
    Except ApiError (ResolvedConfig × F) := do
  let (config, fs) ← (load host fs app.configPath).mapError fun error ↦
    ⟨409, "restart_config_invalid", s!"重新加载配置失败，服务保持运行: {error}"⟩
  if config.logging.directory ≠ app.loggingDirectory then
    .error ⟨409, "restart_log_directory_changed",
      "运行时重启不允许修改 logging.directory；请先停止服务，再通过外部管理器启动"⟩
  else pure (config, fs)

def transitionInProgress : ApiError :=
  ⟨409, "service_transition_in_progress", "服务停止或重启操作已经开始"⟩

def controlUnavailable : ApiError :=
  ⟨503, "service_control_unavailable", "服务管理通道不可用"⟩

/-- Where a request is. -/
inductive Request
  /-- A restart before `Config::load`. -/
  | loading
  /-- In front of `compare_exchange`. -/
  | ready (action : ManagementAction)
  /-- In front of `try_send`. -/
  | sending (action : ManagementAction)
  /-- The channel is closed; the flag has to be taken back. -/
  | failing (action : ManagementAction)
  /-- Answered 202. -/
  | accepted (action : ManagementAction)
  /-- Answered 409 or 503. -/
  | refused (error : ApiError)
  deriving DecidableEq, Repr

namespace Request

/-- The request has set the flag, and has not taken it back. -/
def holds : Request → Bool
  | sending _ | failing _ | accepted _ => true
  | _ => false

/-- The request holds the flag and has no answer yet. -/
def isOpen : Request → Bool
  | sending _ | failing _ => true
  | _ => false

def isAccepted : Request → Bool
  | accepted _ => true
  | _ => false

end Request

section

variable {F : Type} (host : Host F)

/-- The steps of a request.  The configuration may be loaded from any state of the files. -/
inductive RequestStep (app : App) : Request × Management → Request × Management → Prop
  | reload {m : Management} {fs fs' : F} {config : ResolvedConfig}
      (h : reloadConfig host fs app = .ok (config, fs')) :
      RequestStep app (.loading, m) (.ready (.restart config), m)
  | reloadFails {m : Management} {fs : F} {e : ApiError} (h : reloadConfig host fs app = .error e) :
      RequestStep app (.loading, m) (.refused e, m)
  | exchange {m : Management} {action : ManagementAction} (h : m.lifecycleState = 0) :
      RequestStep app (.ready action, m) (.sending action, { m with lifecycleState := 1 })
  | busy {m : Management} {action : ManagementAction} (h : m.lifecycleState ≠ 0) :
      RequestStep app (.ready action, m) (.refused transitionInProgress, m)
  | send {m : Management} {action : ManagementAction} (hp : m.pending = none)
      (hr : m.receiver = true) :
      RequestStep app (.sending action, m) (.accepted action, { m with pending := some action })
  | sendFails {m : Management} {action : ManagementAction}
      (h : m.pending ≠ none ∨ m.receiver = false) :
      RequestStep app (.sending action, m) (.failing action, m)
  | reset {m : Management} {action : ManagementAction} :
      RequestStep app (.failing action, m)
        (.refused controlUnavailable, { m with lifecycleState := 0 })

/-! ## The watcher, and generations -/

/-- Where the watcher is.  `seen` is the version of the cell that its receiver has seen. -/
inductive Watcher
  /-- In front of `borrow`. -/
  | checking (seen : ℕ)
  /-- In `select!`. -/
  | selecting (seen : ℕ)
  /-- It has an action, and the receiver still. -/
  | chosen (action : ManagementAction)
  /-- It has sent the action and is gone. -/
  | ended (action : ManagementAction)
  deriving DecidableEq, Repr

/-- What the watcher has chosen. -/
def Watcher.action? : Watcher → Option ManagementAction
  | chosen action | ended action => some action
  | _ => none

/-- One turn of the loop of `run`. -/
structure Turn where
  config : ResolvedConfig
  app : App
  requests : List Request
  management : Management
  watcher : Watcher

/-- `run`, with the cell of the external shutdown. -/
structure Runtime where
  shutdown : Bool
  /-- How often the cell has been written. -/
  version : ℕ
  /-- The version that `run`'s own receiver has seen; it never looks. -/
  seen : ℕ
  turn : Turn
  /-- How many generations were before this one. -/
  index : ℕ

/-- The beginning of a turn. -/
def Turn.begin (config : ResolvedConfig) (app : App) (seen : ℕ) : Turn where
  config
  app
  requests := []
  management := ⟨0, none, true⟩
  watcher := .checking seen

def Runtime.start (config : ResolvedConfig) (app : App) : Runtime where
  shutdown := false
  version := 0
  seen := 0
  turn := .begin config app 0
  index := 0

/-- What happens next. -/
inductive RuntimeStep : Runtime → Runtime → Prop
  | stopArrives {σ : Runtime} :
      RuntimeStep σ { σ with turn.requests := σ.turn.requests ++ [.ready .stop] }
  | restartArrives {σ : Runtime} :
      RuntimeStep σ { σ with turn.requests := σ.turn.requests ++ [.loading] }
  | request {σ : Runtime} {pre post : List Request} {r r' : Request} {m : Management}
      (hr : σ.turn.requests = pre ++ r :: post)
      (h : RequestStep host σ.turn.app (r, σ.turn.management) (r', m)) :
      RuntimeStep σ
        { σ with turn.requests := pre ++ r' :: post, turn.management := m }
  | borrow {σ : Runtime} {seen : ℕ} (h : σ.turn.watcher = .checking seen) :
      RuntimeStep σ
        { σ with turn.watcher := if σ.shutdown then .chosen .stop else .selecting seen }
  | changed {σ : Runtime} {seen : ℕ} (h : σ.turn.watcher = .selecting seen)
      (hv : σ.version ≠ seen) : RuntimeStep σ { σ with turn.watcher := .chosen .stop }
  | recv {σ : Runtime} {seen : ℕ} {action : ManagementAction}
      (h : σ.turn.watcher = .selecting seen) (hp : σ.turn.management.pending = some action) :
      RuntimeStep σ
        { σ with turn.watcher := .chosen action, turn.management.pending := none }
  | finish {σ : Runtime} {action : ManagementAction} (h : σ.turn.watcher = .chosen action) :
      RuntimeStep σ
        { σ with
          turn.watcher := .ended action
          turn.management.pending := none
          turn.management.receiver := false }
  | shutdown {σ : Runtime} (h : σ.shutdown = false) :
      RuntimeStep σ { σ with shutdown := true, version := σ.version + 1 }
  | next {σ : Runtime} {config : ResolvedConfig} {app : App}
      (h : σ.turn.watcher = .ended (.restart config)) (hpath : app.configPath = config.sourcePath)
      (hdir : app.loggingDirectory = config.logging.directory) :
      RuntimeStep σ { σ with turn := .begin config app σ.seen, index := σ.index + 1 }

/-! ## One generation -/

/-- What the steps keep up: one request at most holds the flag, and what is in the channel or was
taken out of it was accepted. -/
structure Turn.Sound (t : Turn) (shutdown : Bool) : Prop where
  flag : t.management.lifecycleState = 0 ∨ t.management.lifecycleState = 1
  holders : t.requests.countP Request.holds = t.management.lifecycleState.toNat
  pending : ∀ a, t.management.pending = some a → .accepted a ∈ t.requests
  receiver : t.management.receiver = false ↔ ∃ a, t.watcher = .ended a
  failing : ∀ a, .failing a ∈ t.requests → t.management.receiver = false
  chosen : ∀ a, t.watcher.action? = some a → a = .stop ∧ shutdown = true ∨ .accepted a ∈ t.requests

variable {host} {t : Turn} {shutdown : Bool}

theorem Turn.Sound.holders_le (h : t.Sound shutdown) : t.requests.countP Request.holds ≤ 1 := by
  rw [h.holders]
  rcases h.flag with hf | hf <;> rw [hf] <;> decide

theorem Turn.Sound.receiver_true (h : t.Sound shutdown) (hw : ∀ a, t.watcher ≠ .ended a) :
    t.management.receiver = true := by
  rw [← Bool.not_eq_false, h.receiver]
  rintro ⟨a, ha⟩
  exact hw a ha

/-- Two requests that hold the flag are the same. -/
theorem Turn.Sound.holder_unique (h : t.Sound shutdown) {r r' : Request} (hr : r ∈ t.requests)
    (hr' : r' ∈ t.requests) (hh : r.holds = true) (hh' : r'.holds = true) : r' = r := by
  obtain ⟨pre, post, ht⟩ := List.append_of_mem hr
  have hle := h.holders_le
  rw [ht, List.countP_append, List.countP_cons_of_pos hh] at hle
  rw [ht, List.mem_append, List.mem_cons] at hr'
  rcases hr' with hm | hm | hm
  · have := List.countP_pos_iff.mpr ⟨r', hm, hh'⟩
    omega
  · exact hm
  · have := List.countP_pos_iff.mpr ⟨r', hm, hh'⟩
    omega

/-- While a request is sending, there is nothing in the channel. -/
theorem Turn.Sound.pending_none {action : ManagementAction} (h : t.Sound shutdown)
    (hs : .sending action ∈ t.requests) : t.management.pending = none := by
  rw [Option.eq_none_iff_forall_ne_some]
  intro a ha
  cases h.holder_unique hs (h.pending a ha) rfl rfl

/-- What is accepted stays so, when one request moves on. -/
theorem mem_accepted_of_step {app : App} {pre post : List Request} {r r' : Request}
    {m m' : Management} {a : ManagementAction} (hs : RequestStep host app (r, m) (r', m'))
    (ha : .accepted a ∈ pre ++ r :: post) : .accepted a ∈ pre ++ r' :: post := by
  rw [List.mem_append, List.mem_cons] at ha ⊢
  rcases ha with ha | rfl | ha
  · exact .inl ha
  · cases hs
  · exact .inr (.inr ha)

/-- A request moves on. -/
theorem Turn.Sound.request {pre post : List Request} {r r' : Request} {m : Management}
    (h : t.Sound shutdown) (ht : t.requests = pre ++ r :: post)
    (hs : RequestStep host t.app (r, t.management) (r', m)) :
    Turn.Sound { t with requests := pre ++ r' :: post, management := m } shutdown := by
  have hacc : ∀ a, .accepted a ∈ t.requests → .accepted a ∈ pre ++ r' :: post :=
    fun a ha ↦ mem_accepted_of_step hs (ht ▸ ha)
  have hchosen : ∀ a, t.watcher.action? = some a →
      a = .stop ∧ shutdown = true ∨ .accepted a ∈ pre ++ r' :: post :=
    fun a ha ↦ (h.chosen a ha).imp_right (hacc a)
  have hcount := h.holders
  rw [ht, List.countP_append, List.countP_cons] at hcount
  -- who is failing was failing before, or has just found the channel closed
  have hfailing : (∀ a, r' = .failing a → t.management.receiver = false) →
      ∀ a, .failing a ∈ pre ++ r' :: post → t.management.receiver = false := by
    intro hr' a ha
    rw [List.mem_append, List.mem_cons] at ha
    rcases ha with ha | ha | ha
    · exact h.failing a (by rw [ht]; exact List.mem_append_left _ ha)
    · exact hr' a ha.symm
    · exact h.failing a (by rw [ht]; exact List.mem_append_right _ (List.mem_cons_of_mem _ ha))
  cases hs with
  | reload hload =>
    refine ⟨h.flag, ?_, fun a ha ↦ hacc a (h.pending a ha), h.receiver, hfailing (by simp), hchosen⟩
    simpa [List.countP_append, List.countP_cons, Request.holds] using hcount
  | reloadFails hload =>
    refine ⟨h.flag, ?_, fun a ha ↦ hacc a (h.pending a ha), h.receiver, hfailing (by simp), hchosen⟩
    simpa [List.countP_append, List.countP_cons, Request.holds] using hcount
  | exchange hzero =>
    refine ⟨.inr rfl, ?_, fun a ha ↦ hacc a (h.pending a ha), h.receiver, hfailing (by simp),
      hchosen⟩
    have hnone : pre.countP Request.holds + post.countP Request.holds = 0 := by
      rw [hzero] at hcount
      exact hcount
    rw [List.countP_append, List.countP_cons_of_pos rfl, ← Nat.add_assoc, hnone]
    rfl
  | busy hone =>
    refine ⟨h.flag, ?_, fun a ha ↦ hacc a (h.pending a ha), h.receiver, hfailing (by simp), hchosen⟩
    simpa [List.countP_append, List.countP_cons, Request.holds] using hcount
  | send hp hr =>
    refine ⟨h.flag, ?_, fun a ha ↦ ?_, h.receiver, hfailing (by simp), hchosen⟩
    · simpa [List.countP_append, List.countP_cons, Request.holds] using hcount
    · obtain rfl := Option.some.inj ha
      simp
  | sendFails hfail =>
    have hnone := h.pending_none (ht ▸ List.mem_append_right pre List.mem_cons_self)
    have hr : t.management.receiver = false := hfail.resolve_left fun hne ↦ hne hnone
    refine ⟨h.flag, ?_, fun a ha ↦ hacc a (h.pending a ha), h.receiver, hfailing fun _ _ ↦ hr,
      hchosen⟩
    simpa [List.countP_append, List.countP_cons, Request.holds] using hcount
  | reset =>
    refine ⟨.inl rfl, ?_, fun a ha ↦ hacc a (h.pending a ha), h.receiver, hfailing (by simp),
      hchosen⟩
    have hle := h.holders_le
    rw [ht, List.countP_append, List.countP_cons_of_pos rfl] at hle
    rw [List.countP_append, List.countP_cons_of_neg (by simp [Request.holds])]
    show _ = 0
    omega

/-- Another request arrives. -/
theorem Turn.Sound.arrive {r : Request} (h : t.Sound shutdown) (hr : r.holds = false)
    (hf : ∀ a, r ≠ .failing a) : Turn.Sound { t with requests := t.requests ++ [r] } shutdown := by
  refine ⟨h.flag, ?_, fun a ha ↦ List.mem_append_left _ (h.pending a ha), h.receiver,
    fun a ha ↦ ?_, fun a ha ↦ (h.chosen a ha).imp_right (List.mem_append_left _)⟩
  · rw [List.countP_append, List.countP_singleton, hr]
    exact h.holders
  · rcases List.mem_append.mp ha with ha | ha
    · exact h.failing a ha
    · exact absurd (List.mem_singleton.mp ha).symm (hf a)

theorem Turn.sound_begin (config : ResolvedConfig) (app : App) (seen : ℕ) (shutdown : Bool) :
    (Turn.begin config app seen).Sound shutdown :=
  ⟨.inl rfl, rfl, by simp [Turn.begin], by simp [Turn.begin], by simp [Turn.begin],
    by simp [Turn.begin, Watcher.action?]⟩

/-! ## Every generation -/

/-- What holds of the service. -/
structure Runtime.Sound (σ : Runtime) : Prop where
  turn : σ.turn.Sound σ.shutdown
  version : σ.version = if σ.shutdown then 1 else 0
  seen : σ.seen = 0
  /-- No receiver has seen the signal. -/
  unseen : ∀ n, σ.turn.watcher = .checking n ∨ σ.turn.watcher = .selecting n → n = 0

variable {σ σ' : Runtime}

theorem Runtime.sound_start (config : ResolvedConfig) (app : App) :
    (Runtime.start config app).Sound :=
  ⟨Turn.sound_begin config app 0 false, rfl, rfl, by simp [Runtime.start, Turn.begin]⟩

/-- **One step.** -/
theorem Runtime.Sound.step (h : σ.Sound) (hs : RuntimeStep host σ σ') : σ'.Sound := by
  have ht := h.turn
  cases hs with
  | stopArrives => exact ⟨ht.arrive rfl (by simp), h.version, h.seen, h.unseen⟩
  | restartArrives => exact ⟨ht.arrive rfl (by simp), h.version, h.seen, h.unseen⟩
  | request hr hstep => exact ⟨ht.request hr hstep, h.version, h.seen, h.unseen⟩
  | @borrow n hw =>
    have hrec : σ.turn.management.receiver = true := ht.receiver_true (by simp [hw])
    by_cases hd : σ.shutdown = true
    · refine ⟨⟨ht.flag, ht.holders, ht.pending, ?_, ht.failing, ?_⟩, h.version, h.seen, ?_⟩
      · simp [hrec, hd]
      · intro a ha
        simp only [hd, if_true, Watcher.action?, Option.some.injEq] at ha
        exact .inl ⟨ha.symm, hd⟩
      · simp [hd]
    · refine ⟨⟨ht.flag, ht.holders, ht.pending, ?_, ht.failing, ?_⟩, h.version, h.seen, ?_⟩
      · simp [hrec, hd]
      · simp [hd, Watcher.action?]
      · intro k hk
        obtain rfl : n = k := by simpa [hd] using hk
        exact h.unseen n (.inl hw)
  | changed hw hv =>
    have hrec : σ.turn.management.receiver = true := ht.receiver_true (by simp [hw])
    have hd : σ.shutdown = true := by
      by_contra hd
      rw [h.unseen _ (.inr hw), h.version, if_neg hd] at hv
      exact hv rfl
    refine ⟨⟨ht.flag, ht.holders, ht.pending, ?_, ht.failing, ?_⟩, h.version, h.seen, by simp⟩
    · simp [hrec]
    · intro a ha
      exact .inl ⟨(Option.some.inj ha).symm, hd⟩
  | recv hw hp =>
    have hrec : σ.turn.management.receiver = true := ht.receiver_true (by simp [hw])
    refine ⟨⟨ht.flag, ht.holders, by simp, ?_, ht.failing, ?_⟩, h.version, h.seen, by simp⟩
    · simp [hrec]
    · intro a ha
      obtain rfl := Option.some.inj ha
      exact .inr (ht.pending _ hp)
  | finish hw =>
    refine ⟨⟨ht.flag, ht.holders, by simp, by simp, fun _ _ ↦ rfl, ?_⟩, h.version, h.seen, by simp⟩
    intro a ha
    exact ht.chosen a (by rw [hw]; exact ha)
  | shutdown hd =>
    have hver : σ.version + 1 = 1 := by rw [h.version, hd]; rfl
    refine ⟨⟨ht.flag, ht.holders, ht.pending, ht.receiver, ht.failing, ?_⟩, hver, h.seen, h.unseen⟩
    exact fun a ha ↦ (ht.chosen a ha).imp_left fun ha ↦ ⟨ha.1, rfl⟩
  | next hw hpath hdir =>
    refine ⟨Turn.sound_begin _ _ _ _, h.version, h.seen, ?_⟩
    intro n hn
    obtain rfl : σ.seen = n := by simpa [Turn.begin] using hn
    exact h.seen

theorem Runtime.Sound.run (h : σ.Sound) (hr : ReflTransGen (RuntimeStep host) σ σ') :
    σ'.Sound := by
  induction hr with
  | refl => exact h
  | tail _ hs ih => exact ih.step hs

/-- What is accepted stays accepted, until the next generation. -/
theorem accepted_run {a : ManagementAction} (hr : ReflTransGen (RuntimeStep host) σ σ')
    (ha : .accepted a ∈ σ.turn.requests) :
    (σ'.index = σ.index ∧ .accepted a ∈ σ'.turn.requests) ∨ σ.index < σ'.index := by
  induction hr with
  | refl => exact .inl ⟨rfl, ha⟩
  | tail _ hs ih =>
    rcases ih with ⟨hidx, hacc⟩ | hlt
    · cases hs with
      | stopArrives | restartArrives => exact .inl ⟨hidx, List.mem_append_left _ hacc⟩
      | request hreq hstep => exact .inl ⟨hidx, mem_accepted_of_step hstep (hreq ▸ hacc)⟩
      | borrow | changed | recv | finish | shutdown => exact .inl ⟨hidx, hacc⟩
      | next => exact .inr (by simp only; omega)
    · refine .inr (hlt.trans_le ?_)
      cases hs with
      | next => exact Nat.le_succ _
      | _ => exact le_rfl

/-- The signal has come, and the watcher has not looked past it. -/
def Runtime.Doomed (σ : Runtime) : Prop :=
  σ.shutdown = true ∧ ((∃ n, σ.turn.watcher = .checking n) ∨ σ.turn.watcher.action? = some .stop)

/-- Then the generation ends with `Stop`. -/
theorem Runtime.Doomed.step (h : σ.Doomed) (hs : RuntimeStep host σ σ') :
    σ'.Doomed ∧ σ'.index = σ.index := by
  obtain ⟨hd, hw⟩ := h
  cases hs with
  | stopArrives | restartArrives | request => exact ⟨⟨hd, hw⟩, rfl⟩
  | borrow => exact ⟨⟨hd, .inr (by simp [hd, Watcher.action?])⟩, rfl⟩
  | changed => exact ⟨⟨hd, .inr rfl⟩, rfl⟩
  | recv hsel => simp [hsel, Watcher.action?] at hw
  | finish hcho =>
    refine ⟨⟨hd, .inr ?_⟩, rfl⟩
    simpa [hcho, Watcher.action?] using hw
  | shutdown hnot => simp [hd] at hnot
  | next hend => simp [hend, Watcher.action?] at hw

/-- When the signal has come, this generation or the next one is the last. -/
theorem shutdown_run (hd : σ.shutdown = true) (hr : ReflTransGen (RuntimeStep host) σ σ') :
    σ'.shutdown = true ∧ (σ'.index = σ.index ∨ σ'.index = σ.index + 1 ∧ σ'.Doomed) := by
  induction hr with
  | refl => exact ⟨hd, .inl rfl⟩
  | @tail τ τ' _ hs ih =>
    obtain ⟨hd', hidx | ⟨hidx, hdoom⟩⟩ := ih
    · cases hs with
      | next => exact ⟨hd', .inr ⟨congrArg (· + 1) hidx, hd', .inl ⟨_, rfl⟩⟩⟩
      | shutdown => exact ⟨rfl, .inl hidx⟩
      | _ => exact ⟨hd', .inl hidx⟩
    · obtain ⟨hdoom', hsame⟩ := hdoom.step hs
      exact ⟨hdoom'.1, .inr ⟨hsame.trans hidx, hdoom'⟩⟩

theorem doomed_run (h : σ.Doomed) (hr : ReflTransGen (RuntimeStep host) σ σ') : σ'.Doomed := by
  induction hr with
  | refl => exact h
  | tail _ hs ih => exact (ih.step hs).1

/-- What is chosen when the signal has come is `Stop`. -/
theorem Runtime.Doomed.action (h : σ.Doomed) {a : ManagementAction}
    (ha : σ.turn.watcher.action? = some a) : a = .stop := by
  rcases h.2 with ⟨n, hw⟩ | hw
  · simp [hw, Watcher.action?] at ha
  · exact (Option.some.inj (hw.symm.trans ha)).symm

theorem index_le_of_shutdown (hd : σ.shutdown = true)
    (hr : ReflTransGen (RuntimeStep host) σ σ') : σ'.index ≤ σ.index + 1 := by
  have hidx := (shutdown_run hd hr).2
  omega

/-- What is chosen behind the signal is `Stop`: in the next generation, and in this one if the
watcher had not looked yet. -/
theorem stop_of_shutdown (hd : σ.shutdown = true) (hr : ReflTransGen (RuntimeStep host) σ σ')
    (h : σ'.index = σ.index + 1 ∨ ∃ n, σ.turn.watcher = .checking n) :
    ∀ a, σ'.turn.watcher.action? = some a → a = .stop := by
  intro a ha
  rcases h with hnext | ⟨n, hw⟩
  · rcases (shutdown_run hd hr).2 with hsame | ⟨-, hdoom⟩
    · omega
    · exact hdoom.action ha
  · exact (doomed_run ⟨hd, .inl ⟨n, hw⟩⟩ hr).action ha

/-- The watcher can hear the signal until it has chosen. -/
theorem Runtime.Sound.heard (h : σ.Sound) (hd : σ.shutdown = true)
    (hnone : σ.turn.watcher.action? = none) :
    ∃ σ', RuntimeStep host σ σ' ∧ σ'.index = σ.index ∧ σ'.turn.watcher = .chosen .stop := by
  cases hw : σ.turn.watcher with
  | checking n => exact ⟨_, .borrow hw, rfl, by simp [hd]⟩
  | selecting n =>
    refine ⟨_, .changed hw ?_, rfl, rfl⟩
    rw [h.version, if_pos hd, h.unseen n (.inr hw)]
    decide
  | chosen a => simp [hw, Watcher.action?] at hnone
  | ended a => simp [hw, Watcher.action?] at hnone

/-! ## The contract -/

/-- `restart_service` is its two halves. -/
theorem restartService_eq (host : Host F) (fs : F) (app : App) (m : Management) :
    restartService host fs app m = (do
      let (config, fs) ← reloadConfig host fs app
      let m ← requestManagementAction m (.restart config)
      pure (m, fs)) := by
  rw [restartService, reloadConfig]
  cases load host fs app.configPath with
  | error e => rfl
  | ok p =>
    by_cases hdir : p.1.logging.directory ≠ app.loggingDirectory
    · simp only [Except.mapError, bind, Except.bind, if_pos hdir]
    · simp only [Except.mapError, bind, Except.bind, if_neg hdir]
      rfl

/-- A request that nobody interrupts is `request_management_action`, and if it is refused, the flag
and the channel are as before. -/
theorem request_alone (host : Host F) (app : App) (m : Management) (action : ManagementAction) :
    match requestManagementAction m action with
    | .ok m' => ReflTransGen (RequestStep host app) (.ready action, m) (.accepted action, m')
    | .error e => ReflTransGen (RequestStep host app) (.ready action, m) (.refused e, m) := by
  obtain ⟨flag, pending, receiver⟩ := m
  by_cases hflag : flag = 0
  · subst hflag
    by_cases hclosed : pending.isSome ∨ receiver = false
    · rw [requestManagementAction, if_neg (by simp), if_pos hclosed]
      refine .head (.exchange rfl) (.head (.sendFails ?_) (.single .reset))
      exact hclosed.imp_left fun h ↦ Option.isSome_iff_ne_none.mp h
    · rw [requestManagementAction, if_neg (by simp), if_neg hclosed]
      obtain ⟨hp, hr⟩ := not_or.mp hclosed
      exact .head (.exchange rfl) (.single (.send (by simpa using hp) (by simpa using hr)))
  · rw [requestManagementAction, if_pos hflag]
    exact .single (.busy hflag)

variable (host) in
/-- What is promised of a generation, in every state. -/
structure OneAction (σ : Runtime) : Prop where
  /-- At most one request is answered 202. -/
  once : σ.turn.requests.countP Request.isAccepted ≤ 1
  /-- The flag is up for what was accepted, or for a request without an answer: one that was refused
  leaves no trace. -/
  flag : σ.turn.management.lifecycleState ≠ 0 ↔ ∃ r ∈ σ.turn.requests, r.holds = true
  /-- Only an accepted request puts anything into the channel. -/
  refused : ∀ r r' m, RequestStep host σ.turn.app (r, σ.turn.management) (r', m) →
    (∀ a, r' ≠ .accepted a) →
      m.pending = σ.turn.management.pending ∧ m.receiver = σ.turn.management.receiver
  /-- When no other is on its way, a request is refused because one was accepted, or because the
  watcher is gone. -/
  later : (∀ r ∈ σ.turn.requests, r.isOpen = false) → ∀ action,
    requestManagementAction σ.turn.management action =
      if σ.turn.requests.any Request.isAccepted then .error transitionInProgress
      else if σ.turn.management.receiver = false then .error controlUnavailable
      else .ok ⟨1, some action, true⟩
  /-- After one was accepted, all others find the flag up. -/
  persists : ∀ a, .accepted a ∈ σ.turn.requests → ∀ σ', ReflTransGen (RuntimeStep host) σ σ' →
    σ'.index = σ.index → σ'.turn.management.lifecycleState ≠ 0
  /-- Without the signal, the generation ends with what was accepted. -/
  ending : σ.shutdown = false → ∀ a, σ.turn.watcher.action? = some a →
    .accepted a ∈ σ.turn.requests ∧ ∀ b, .accepted b ∈ σ.turn.requests → b = a
  /-- … and the next one has the configuration that request loaded. -/
  config : σ.shutdown = false → ∀ σ', RuntimeStep host σ σ' → σ'.index = σ.index + 1 →
    .accepted (.restart σ'.turn.config) ∈ σ.turn.requests
  /-- Once the signal has come, the next generation is the last one and ends with `Stop`, and so
  does this one if the watcher had not looked yet. -/
  notLost : σ.shutdown = true → ∀ σ', ReflTransGen (RuntimeStep host) σ σ' →
    σ'.index ≤ σ.index + 1 ∧ ((σ'.index = σ.index + 1 ∨ ∃ n, σ.turn.watcher = .checking n) →
      ∀ a, σ'.turn.watcher.action? = some a → a = .stop)
  /-- Nothing keeps the watcher from it. -/
  heard : σ.shutdown = true → σ.turn.watcher.action? = none →
    ∃ σ', RuntimeStep host σ σ' ∧ σ'.index = σ.index ∧ σ'.turn.watcher = .chosen .stop

theorem Turn.Sound.flag_iff (h : t.Sound shutdown) :
    t.management.lifecycleState ≠ 0 ↔ ∃ r ∈ t.requests, r.holds = true := by
  rw [← List.countP_pos_iff, h.holders]
  rcases h.flag with hf | hf <;> simp [hf]

/-- Without a request on its way, what was accepted decides, and then the watcher. -/
theorem Turn.Sound.later (h : t.Sound shutdown) (hopen : ∀ r ∈ t.requests, r.isOpen = false)
    (action : ManagementAction) :
    requestManagementAction t.management action =
      if t.requests.any Request.isAccepted then .error transitionInProgress
      else if t.management.receiver = false then .error controlUnavailable
      else .ok ⟨1, some action, true⟩ := by
  by_cases hacc : t.requests.any Request.isAccepted = true
  · obtain ⟨r, hr, hra⟩ := List.any_eq_true.mp hacc
    have hholds : r.holds = true := by
      cases r with
      | accepted a => rfl
      | _ => cases hra
    rw [requestManagementAction, if_pos (h.flag_iff.mpr ⟨r, hr, hholds⟩), if_pos hacc]
    rfl
  · have hnone : ∀ a, .accepted a ∉ t.requests :=
      fun a ha ↦ hacc (List.any_eq_true.mpr ⟨_, ha, rfl⟩)
    -- whoever holds the flag is on its way or was accepted
    have hflag : ¬ t.management.lifecycleState ≠ 0 := by
      rw [h.flag_iff]
      rintro ⟨r, hr, hholds⟩
      cases r with
      | sending a | failing a => exact absurd (hopen _ hr) (by simp [Request.isOpen])
      | accepted a => exact hnone a hr
      | _ => cases hholds
    have hpending : t.management.pending = none :=
      Option.eq_none_iff_forall_ne_some.mpr fun a ha ↦ hnone a (h.pending a ha)
    rw [requestManagementAction, if_neg hflag, if_neg hacc, hpending]
    by_cases hrec : t.management.receiver = false
    · rw [if_pos (.inr hrec), if_pos hrec]
      rfl
    · rw [if_neg (by simp [hrec]), if_neg hrec, eq_true_of_ne_false hrec]

/-- **One management action per generation.** -/
theorem one_action_per_generation {config : ResolvedConfig} {app : App}
    (hr : ReflTransGen (RuntimeStep host) (.start config app) σ) : OneAction host σ := by
  have h := (Runtime.sound_start config app).run hr
  have ht := h.turn
  have hle : σ.turn.requests.countP Request.isAccepted ≤ 1 :=
    (List.countP_mono_left fun r _ ↦ by cases r <;> simp [Request.isAccepted, Request.holds]).trans
      ht.holders_le
  have hending : σ.shutdown = false → ∀ a, σ.turn.watcher.action? = some a →
      .accepted a ∈ σ.turn.requests :=
    fun hd a ha ↦ (ht.chosen a ha).resolve_left (by simp [hd])
  refine ⟨hle, ht.flag_iff, ?_, ?_, ?_, ?_, ?_, ?_, ?_⟩
  · intro r r' m hs hna
    cases hs with
    | send => exact absurd rfl (hna _)
    | _ => exact ⟨rfl, rfl⟩
  · exact ht.later
  · intro a ha σ' hrun hidx
    rcases accepted_run hrun ha with ⟨-, hacc⟩ | hlt
    · exact (h.run hrun).turn.flag_iff.mpr ⟨_, hacc, rfl⟩
    · omega
  · intro hd a ha
    refine ⟨hending hd a ha, fun b hb ↦ ?_⟩
    exact Request.accepted.inj (ht.holder_unique (hending hd a ha) hb rfl rfl)
  · intro hd σ' hs hidx
    cases hs with
    | next hw => exact hending hd _ (by rw [hw]; rfl)
    | _ => exact absurd hidx (by simp)
  · exact fun hd σ' hrun ↦ ⟨index_le_of_shutdown hd hrun, stop_of_shutdown hd hrun⟩
  · exact h.heard

end

/-- A restart is accepted while a stop comes second, and the generation ends with the restart. -/
theorem one_action_restart :
    ∃ σ, ReflTransGen (RuntimeStep exampleHost)
        (.start (exampleResolved 16) exampleStarted.app) σ ∧
      σ.turn.requests = [.accepted (.restart (exampleResolved 16)), .refused transitionInProgress] ∧
      σ.turn.watcher = .ended (.restart (exampleResolved 16)) ∧ OneAction exampleHost σ := by
  have hload : reloadConfig exampleHost (exampleYaml "16") exampleStarted.app =
      .ok (exampleResolved 16, exampleYaml "16") := by
    rw [reloadConfig, show exampleStarted.app.configPath = ⟨true, ["srv", "config.yaml"]⟩ from rfl,
      load_example]
    rfl
  have hrun : ReflTransGen (RuntimeStep exampleHost)
      (.start (exampleResolved 16) exampleStarted.app) _ :=
    .head .restartArrives <| .head .stopArrives <| .head (.borrow rfl) <|
    .head (@RuntimeStep.request _ _ _ [] _ _ _ _ rfl (.reload hload)) <|
    .head (@RuntimeStep.request _ _ _ [] _ _ _ _ rfl (.exchange rfl)) <|
    .head (@RuntimeStep.request _ _ _ [_] _ _ _ _ rfl (.busy (by decide))) <|
    .head (@RuntimeStep.request _ _ _ [] _ _ _ _ rfl (.send rfl rfl)) <|
    .head (.recv rfl rfl) <| .single (.finish rfl)
  exact ⟨_, hrun, rfl, rfl, one_action_per_generation hrun⟩

end CommandApi
