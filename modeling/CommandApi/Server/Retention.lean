import CommandApi.Server.Conservation
import CommandApi.Server.Start
import CommandApi.Store.Reopen

/-!
# Removing expired tasks

`cleanup_expired` next to the runners and to `create`.  The pass collects the records under the read
lock, looks at them one after the other, and then removes those it found expired under the write
lock; in between, runners go on and tasks are created.

A task is removed only if it was finished when the pass looked at it, and then it still is.  Whether
the right ones are found is a matter of one comparison: `retention.as_secs() as i64` is negative
from `2 ^ 63` seconds on.  `cleanup_exact_iff` says that this is the only way the pass goes wrong.
-/

set_option autoImplicit false

namespace CommandApi

open Async Relation

/-! ## The records -/

/-- A record of the map: rebuilt when the store was opened, or created since. -/
inductive Entry
  | recovered (r : TaskRecord)
  | created (j : Job)

namespace Entry

def id : Entry → Uuid
  | recovered r => r.id
  | created j => j.taskId

def snapshot : Entry → TaskSnapshot
  | recovered r => r.snapshot
  | created j => j.world.snapshot

def finished (e : Entry) : Bool := e.snapshot.status.isFinished

/-- A rebuilt record is finished, and every other one has a runner. -/
def Sound (P : Platform) : Entry → Prop
  | recovered r => r.snapshot.status.isFinished = true
  | created j => j.OnTrack P

/-- What the runner of a record may have made of it. -/
def Later (P : Platform) (line : TaskSnapshot → List UInt8) : Entry → Entry → Prop
  | recovered r, e => e = recovered r
  | created j, e => ∃ q v, (taskMachine P line).Run (j.program, j.world) (q, v) ∧
      e = created ⟨j.route, q, v⟩

end Entry

/-- The tasks map. -/
structure Shelf where
  tasks : List Entry
  /-- What the pass has read so far. -/
  examined : List (Uuid × TaskSnapshot)
  /-- What the pass has removed so far. -/
  removed : List Entry

/-! ## The pass -/

inductive CleanupOp
  | collect
  | examine (id : Uuid)
  | remove (id : Uuid)

/-- The effects of the pass. -/
abbrev cleaner : Signature where
  Op := CleanupOp
  Resp
    | .collect => List Uuid
    | .examine _ => TaskSnapshot
    | .remove _ => Unit

section

variable (parse : String → Option ℤ) (retention : ℕ) (now : ℤ)

/-- The loop over the records. -/
def examineAll (found : List Uuid) : List Uuid → Prog cleaner String (List Uuid)
  | [] => pure found
  | id :: ids => do
    let s ← Prog.perform (S := cleaner) (.examine id)
    examineAll (if expired parse retention now s then found ++ [id] else found) ids

/-- The loop that removes them. -/
def removeAll : List Uuid → Prog cleaner String Unit
  | [] => pure ()
  | id :: ids => do
    Prog.perform (S := cleaner) (.remove id)
    removeAll ids

/-- `cleanup_expired`, with the time it has read. -/
def cleanupPass : Prog cleaner String Unit := do
  let records ← Prog.perform (S := cleaner) .collect
  let found ← examineAll parse retention now [] records
  removeAll found

end

/-- What the operations of the pass do. -/
def cleanerEffect : (o : CleanupOp) → Shelf → cleaner.Resp o → Shelf → Prop
  | .collect, W, ids, W' => ids = W.tasks.map Entry.id ∧ W' = W
  | .examine id, W, s, W' => (∃ e ∈ W.tasks, e.id = id ∧ e.snapshot = s) ∧
      W' = { W with examined := W.examined ++ [(id, s)] }
  | .remove id, W, _, W' => W' =
      { W with
        tasks := W.tasks.filter fun e ↦ e.id ≠ id
        removed := W.removed ++ W.tasks.filter fun e ↦ e.id = id }

/-- What happens meanwhile: a runner makes a step, or a task is created. -/
inductive Meanwhile (P : Platform) (line : TaskSnapshot → List UInt8) : Shelf → Shelf → Prop
  | run {W : Shelf} {pre post : List Entry} {route : ResolvedRoute} {p q : Task Unit} {w v : World}
      (h : W.tasks = pre ++ .created ⟨route, p, w⟩ :: post)
      (hs : (taskMachine P line).Step (p, w) (q, v)) :
      Meanwhile P line W { W with tasks := pre ++ .created ⟨route, q, v⟩ :: post }
  | create {W : Shelf} (route : ResolvedRoute) (args : List String) (id : Uuid) (now : String)
      (h : id ∉ W.tasks.map Entry.id) :
      Meanwhile P line W
        { W with
          tasks := .created ⟨route, startTask P route args, route.world line id now⟩ :: W.tasks }

/-- The pass next to the runners. -/
def cleanupMachine (P : Platform) (line : TaskSnapshot → List UInt8) : Machine cleaner Shelf where
  act := cleanerEffect
  env := Meanwhile P line

/-! ## Where the pass is -/

inductive CleanupPhase
  | collecting
  /-- These are yet to be looked at, and those to be removed. -/
  | holding (todo found : List Uuid)

inductive CleanupMoves (parse : String → Option ℤ) (retention : ℕ) (now : ℤ) :
    ControlGraph cleaner CleanupPhase
  | collect (ids : List Uuid) :
      CleanupMoves parse retention now .collecting .collect ids (.holding ids [])
  | examine (id : Uuid) (todo found : List Uuid) (s : TaskSnapshot) :
      CleanupMoves parse retention now (.holding (id :: todo) found) (.examine id) s
        (.holding todo (if expired parse retention now s then found ++ [id] else found))
  | remove (id : Uuid) (found : List Uuid) :
      CleanupMoves parse retention now (.holding [] (id :: found)) (.remove id) ()
        (.holding [] found)

section

variable {parse : String → Option ℤ} {retention : ℕ} {now : ℤ}

theorem examineAll_follows (found todo : List Uuid) :
    Follows (CleanupMoves parse retention now) (.holding todo found)
      (examineAll parse retention now found todo)
      fun r φ ↦ ∃ ids, r = .ok ids ∧ φ = .holding [] ids := by
  induction todo generalizing found with
  | nil => exact ⟨found, rfl, rfl⟩
  | cons id todo ih => exact fun s ↦ ⟨_, .examine id todo found s, ih _⟩

theorem removeAll_follows (found : List Uuid) :
    Follows (CleanupMoves parse retention now) (.holding [] found) (removeAll found)
      fun _ φ ↦ φ = .holding [] [] := by
  induction found with
  | nil => exact rfl
  | cons id found ih => exact fun _ ↦ ⟨_, .remove id found, ih⟩

theorem cleanupPass_follows :
    Follows (CleanupMoves parse retention now) .collecting (cleanupPass parse retention now)
      fun _ φ ↦ φ = .holding [] [] := by
  refine Follows.perform_bind fun ids ↦ ⟨.holding ids [], .collect ids, ?_⟩
  refine Follows.bind (B := fun found φ ↦ φ = .holding [] found) ?_ fun found φ hφ ↦ ?_
  · refine (examineAll_follows [] ids).mono ?_
    rintro r φ ⟨found, rfl, rfl⟩
    exact rfl
  · subst hφ
    exact removeAll_follows found

end

/-! ## Records and their runners -/

section

variable {P : Platform} {line : TaskSnapshot → List UInt8} {e e' : Entry}

theorem Entry.Later.refl (e : Entry) : e.Later P line e := by
  cases e with
  | recovered r => exact rfl
  | created j => exact ⟨_, _, .refl, rfl⟩

theorem Entry.Later.trans {e₁ e₂ e₃ : Entry} (h₁ : e₁.Later P line e₂)
    (h₂ : e₂.Later P line e₃) : e₁.Later P line e₃ := by
  cases e₁ with
  | recovered r =>
    obtain rfl : e₂ = _ := h₁
    exact h₂
  | created j =>
    obtain ⟨q, v, hr, rfl⟩ := h₁
    obtain ⟨q', v', hr', rfl⟩ := h₂
    exact ⟨q', v', hr.trans hr', rfl⟩

/-- A snapshot with a finishing time is finished. -/
theorem Job.OnTrack.lawful {j : Job} (h : j.OnTrack P) : Lawful j.world.snapshot := by
  obtain ⟨φ, -, hf, -⟩ := h
  exact hf.lawful

/-- A finished record is not changed any more, but for the flag. -/
theorem Job.OnTrack.finished_step {route : ResolvedRoute} {p q : Task Unit} {w v : World}
    (h : Job.OnTrack P ⟨route, p, w⟩) (hs : (taskMachine P line).Step (p, w) (q, v))
    (hfin : w.snapshot.status.isFinished = true) :
    v.snapshot.status.isFinished = true ∧ v.snapshot.finishedAt = w.snapshot.finishedAt := by
  obtain ⟨φ, hf, hfacts, -⟩ := h
  cases hs with
  | env he => rw [he.frame.1]; exact ⟨hfin, rfl⟩
  | @act o k _ _ r ha =>
    obtain ⟨ψ, hm, -⟩ := hf r
    obtain ⟨s', hc, hs'⟩ := taskEffect_changes ha
    have hsame := finished_move hm hfacts hfin hc
    subst hsame
    rw [hs']
    exact ⟨hfin, rfl⟩

theorem Job.OnTrack.finished_run {route : ResolvedRoute} {p q : Task Unit} {w v : World}
    (h : Job.OnTrack P ⟨route, p, w⟩) (hr : (taskMachine P line).Run (p, w) (q, v)) :
    Job.OnTrack P ⟨route, q, v⟩ ∧ v.snapshot.taskId = w.snapshot.taskId ∧
      (w.snapshot.status.isFinished = true → v.snapshot.status.isFinished = true ∧
        v.snapshot.finishedAt = w.snapshot.finishedAt) := by
  generalize hc : (p, w) = c at hr
  generalize hc' : (q, v) = c' at hr
  induction hr generalizing q v with
  | refl =>
    obtain ⟨rfl, rfl⟩ := Prod.mk.inj (hc.trans hc'.symm)
    exact ⟨h, rfl, fun hfin ↦ ⟨hfin, rfl⟩⟩
  | @tail c₁ c₂ _ hs ih =>
    obtain ⟨p₁, w₁⟩ := c₁
    subst hc'
    obtain ⟨htrack, hid, hfin⟩ := ih rfl
    obtain ⟨htrack', hid', -⟩ := htrack.step hs
    refine ⟨htrack', hid'.trans hid, fun hw ↦ ?_⟩
    obtain ⟨hw₁, ht₁⟩ := hfin hw
    obtain ⟨hv, ht⟩ := htrack.finished_step hs hw₁
    exact ⟨hv, ht.trans ht₁⟩

theorem Entry.Later.facts (h : e.Later P line e') (he : e.Sound P) :
    e'.Sound P ∧ e'.id = e.id ∧
      (e.finished = true →
        e'.finished = true ∧ e'.snapshot.finishedAt = e.snapshot.finishedAt) := by
  cases e with
  | recovered r =>
    obtain rfl : e' = _ := h
    exact ⟨he, rfl, fun hfin ↦ ⟨hfin, rfl⟩⟩
  | created j =>
    obtain ⟨q, v, hr, rfl⟩ := h
    have hj : Job.OnTrack P ⟨j.route, j.program, j.world⟩ := he
    exact hj.finished_run hr

/-- What the pass takes for expired is finished. -/
theorem Entry.Sound.finished_of_expired {parse : String → Option ℤ} {retention : ℕ} {now : ℤ}
    (he : e.Sound P) (h : expired parse retention now e.snapshot = true) : e.finished = true := by
  cases e with
  | recovered r => exact he
  | created j =>
    refine he.lawful.finishedAt.mp ?_
    cases ht : j.world.snapshot.finishedAt with
    | some t => rfl
    | none => simp [expired, Entry.snapshot, ht] at h

end

/-! ## What the pass knows -/

section

variable {P : Platform} {line : TaskSnapshot → List UInt8} {parse : String → Option ℤ}
  {retention : ℕ} {now : ℤ} {W₀ W W' : Shelf} {todo found : List Uuid}

/-- The map, with no identifier twice. -/
structure Shelf.Sound (P : Platform) (W : Shelf) : Prop where
  nodup : (W.tasks.map Entry.id).Nodup
  sound : ∀ e ∈ W.tasks, e.Sound P

/-- The records that were in the map in the beginning, wherever they are now. -/
def StillThere (P : Platform) (line : TaskSnapshot → List UInt8) (W₀ W : Shelf) : Prop :=
  ∀ e₀ ∈ W₀.tasks, ∃ e, (e ∈ W.tasks ∨ e ∈ W.removed) ∧ e₀.Later P line e

variable (parse retention now W₀ todo found W) in
/-- What has been read, found and removed. -/
structure Cleaning : Prop where
  collected : ∀ e₀ ∈ W₀.tasks, e₀.id ∈ W.examined.map Prod.fst ++ todo
  nodup : (W.examined.map Prod.fst ++ todo).Nodup
  expired : ∀ id, id ∈ W.removed.map Entry.id ∨ id ∈ found ↔
    ∃ s, (id, s) ∈ W.examined ∧ expired parse retention now s = true
  known : ∀ p ∈ W.examined, ∀ e₀ ∈ W₀.tasks, e₀.id = p.1 → e₀.finished = true →
    p.2.finishedAt = e₀.snapshot.finishedAt
  nodup_found : found.Nodup
  due : ∀ id ∈ found, ∃ e ∈ W.tasks, e.id = id ∧ e.finished = true
  removed : ∀ e ∈ W.removed, e.finished = true

/-- Two records of one identifier are one. -/
theorem Shelf.Sound.unique (h : W.Sound P) {e e' : Entry} (he : e ∈ W.tasks) (he' : e' ∈ W.tasks)
    (hid : e.id = e'.id) : e = e' :=
  List.inj_on_of_nodup_map h.nodup he he' hid

/-- Records stay where they are while the pass does nothing. -/
theorem Meanwhile.later (hs : Meanwhile P line W W') :
    W'.examined = W.examined ∧ W'.removed = W.removed ∧
      ∀ e ∈ W.tasks, ∃ e' ∈ W'.tasks, e.Later P line e' := by
  cases hs with
  | create route args id now h =>
    exact ⟨rfl, rfl, fun e he ↦ ⟨e, List.mem_cons_of_mem _ he, .refl e⟩⟩
  | @run pre post route p q w v h hs =>
    refine ⟨rfl, rfl, fun e he ↦ ?_⟩
    rw [h] at he
    rcases List.mem_append.mp he with he | he
    · exact ⟨e, List.mem_append_left _ he, .refl e⟩
    · rcases List.mem_cons.mp he with rfl | he
      · exact ⟨_, List.mem_append_right _ List.mem_cons_self, _, _, .single hs, rfl⟩
      · exact ⟨e, List.mem_append_right _ (List.mem_cons_of_mem _ he), .refl e⟩

theorem Shelf.Sound.env (h : W.Sound P) (hs : Meanwhile P line W W') : W'.Sound P := by
  cases hs with
  | create route args id now hid =>
    refine ⟨List.nodup_cons.mpr ⟨hid, h.nodup⟩, ?_⟩
    rintro e he
    rcases List.mem_cons.mp he with rfl | he
    · exact ⟨.starting, startTask_follows P route args, (World.created_fresh ..).facts, trivial⟩
    · exact h.sound e he
  | @run pre post route p q w v hW hs =>
    obtain ⟨hnodup, hsound⟩ := h
    rw [hW] at hnodup hsound
    have htrack : Job.OnTrack P ⟨route, p, w⟩ :=
      hsound _ (List.mem_append_right _ List.mem_cons_self)
    obtain ⟨htrack', hid, -⟩ := htrack.step hs
    constructor
    · have hsame : Entry.id (.created ⟨route, q, v⟩) = Entry.id (.created ⟨route, p, w⟩) := hid
      simpa [hsame] using hnodup
    · intro e he
      rcases List.mem_append.mp he with he | he
      · exact hsound e (List.mem_append_left _ he)
      · rcases List.mem_cons.mp he with rfl | he
        · exact htrack'
        · exact hsound e (List.mem_append_right _ (List.mem_cons_of_mem _ he))

theorem StillThere.env (h : StillThere P line W₀ W) (hs : Meanwhile P line W W') :
    StillThere P line W₀ W' := by
  intro e₀ he₀
  obtain ⟨e, he, hlater⟩ := h e₀ he₀
  obtain ⟨-, hremoved, hstay⟩ := hs.later
  rcases he with he | he
  · obtain ⟨e', he', hl⟩ := hstay e he
    exact ⟨e', .inl he', hlater.trans hl⟩
  · exact ⟨e, .inr (by rwa [hremoved]), hlater⟩

theorem Cleaning.env (h : Cleaning parse retention now W₀ W todo found) (hW : W.Sound P)
    (hs : Meanwhile P line W W') : Cleaning parse retention now W₀ W' todo found := by
  obtain ⟨hexamined, hremoved, hstay⟩ := hs.later
  refine ⟨?_, ?_, ?_, ?_, h.nodup_found, ?_, ?_⟩
  · rw [hexamined]; exact h.collected
  · rw [hexamined]; exact h.nodup
  · rw [hexamined, hremoved]; exact h.expired
  · rw [hexamined]; exact h.known
  · intro id hid
    obtain ⟨e, he, rfl, hfin⟩ := h.due id hid
    obtain ⟨e', he', hl⟩ := hstay e he
    obtain ⟨-, hid', hstays⟩ := hl.facts (hW.sound e he)
    exact ⟨e', he', hid', (hstays hfin).1⟩
  · rw [hremoved]; exact h.removed

theorem Cleaning.collect (h₀ : W₀.Sound P) (hkept : StillThere P line W₀ W) (hW : W.Sound P)
    (hexamined : W.examined = []) (hremoved : W.removed = []) :
    Cleaning parse retention now W₀ W (W.tasks.map Entry.id) [] where
  collected e₀ he₀ := by
    obtain ⟨e, he, hlater⟩ := hkept e₀ he₀
    rw [hremoved] at he
    have hid := (hlater.facts (h₀.sound e₀ he₀)).2.1
    rw [hexamined, ← hid]
    exact List.mem_map_of_mem (he.resolve_right (by simp))
  nodup := by rw [hexamined]; exact hW.nodup
  expired id := by simp [hexamined, hremoved]
  known p hp := by simp [hexamined] at hp
  nodup_found := List.nodup_nil
  due id hid := by simp at hid
  removed e he := by simp [hremoved] at he

theorem Cleaning.examine {id : Uuid} {e : Entry}
    (h : Cleaning parse retention now W₀ W (id :: todo) found) (h₀ : W₀.Sound P)
    (hkept : StillThere P line W₀ W) (hW : W.Sound P) (he : e ∈ W.tasks) (hid : e.id = id) :
    Cleaning parse retention now W₀ { W with examined := W.examined ++ [(id, e.snapshot)] } todo
      (if CommandApi.expired parse retention now e.snapshot then found ++ [id] else found) := by
  have hnew : id ∉ W.examined.map Prod.fst := by
    intro hmem
    exact (List.nodup_append.mp h.nodup).2.2 id hmem id List.mem_cons_self rfl
  have hfresh : id ∉ W.removed.map Entry.id ∧ id ∉ found := by
    rw [← not_or, h.expired id]
    rintro ⟨s, hs, -⟩
    exact hnew (List.mem_map_of_mem hs)
  refine ⟨?_, ?_, ?_, ?_, ?_, ?_, h.removed⟩
  · intro e₀ he₀
    simpa using h.collected e₀ he₀
  · simpa using h.nodup
  · intro x
    have hx := h.expired x
    split
    · rename_i hexp
      by_cases hxid : x = id
      · subst hxid
        simp [hexp]
      · simpa [hxid] using hx
    · rename_i hexp
      by_cases hxid : x = id
      · subst hxid
        simpa [hexp] using hx
      · simpa [hxid] using hx
  · intro p hp e₀ he₀ hid₀ hfin
    rcases List.mem_append.mp hp with hp | hp
    · exact h.known p hp e₀ he₀ hid₀ hfin
    · rw [List.mem_singleton.mp hp] at hid₀ ⊢
      obtain ⟨e₁, he₁, hlater⟩ := hkept e₀ he₀
      obtain ⟨-, hid₁, hstays⟩ := hlater.facts (h₀.sound e₀ he₀)
      have hid₂ : e₁.id = id := hid₁.trans hid₀
      rcases he₁ with he₁ | he₁
      · obtain rfl := hW.unique he₁ he (hid₂.trans hid.symm)
        exact (hstays hfin).2
      · exact absurd (hid₂ ▸ List.mem_map_of_mem he₁) hfresh.1
  · split
    · exact List.nodup_append.mpr ⟨h.nodup_found, List.nodup_singleton _, by
        rintro x hx y hy rfl
        rw [List.mem_singleton.mp hy] at hx
        exact hfresh.2 hx⟩
    · exact h.nodup_found
  · intro x hx
    split at hx
    · rename_i hexp
      rcases List.mem_append.mp hx with hx | hx
      · exact h.due x hx
      · rw [List.mem_singleton.mp hx]
        exact ⟨e, he, hid, (hW.sound e he).finished_of_expired hexp⟩
    · exact h.due x hx

theorem Cleaning.remove {id : Uuid} (h : Cleaning parse retention now W₀ W [] (id :: found))
    (hW : W.Sound P) :
    Cleaning parse retention now W₀
      { W with
        tasks := W.tasks.filter fun e ↦ e.id ≠ id
        removed := W.removed ++ W.tasks.filter fun e ↦ e.id = id } [] found := by
  obtain ⟨e, he, hid, hfin⟩ := h.due id List.mem_cons_self
  obtain ⟨hnew, hnodup⟩ := List.nodup_cons.mp h.nodup_found
  refine ⟨h.collected, h.nodup, fun x ↦ ?_, h.known, hnodup, fun x hx ↦ ?_, fun e' he' ↦ ?_⟩
  · rw [← h.expired x]
    by_cases hx : x = id
    · subst hx
      simp only [List.mem_map, List.mem_append, List.mem_filter, decide_eq_true_eq,
        List.mem_cons, true_or, or_true, iff_true]
      exact .inl ⟨e, .inr ⟨he, hid⟩, hid⟩
    · simp only [List.mem_map, List.mem_append, List.mem_filter, decide_eq_true_eq,
        List.mem_cons, hx, false_or]
      refine or_congr_left ⟨?_, ?_⟩
      · rintro ⟨e', he' | ⟨-, he'⟩, rfl⟩
        · exact ⟨e', he', rfl⟩
        · exact absurd he' hx
      · rintro ⟨e', he', rfl⟩
        exact ⟨e', .inl he', rfl⟩
  · obtain ⟨e', he', hid', hfin'⟩ := h.due x (List.mem_cons_of_mem _ hx)
    refine ⟨e', List.mem_filter.mpr ⟨he', ?_⟩, hid', hfin'⟩
    simp only [hid', ne_eq, decide_eq_true_eq]
    rintro rfl
    exact hnew hx
  · rcases List.mem_append.mp he' with he' | he'
    · exact h.removed e' he'
    · obtain ⟨hmem, hid'⟩ := List.mem_filter.mp he'
      rw [hW.unique hmem he ((of_decide_eq_true hid').trans hid.symm)]
      exact hfin

theorem Shelf.Sound.remove (h : W.Sound P) (id : Uuid) (removed : List Entry) :
    Shelf.Sound P { W with tasks := W.tasks.filter fun e ↦ e.id ≠ id, removed } :=
  ⟨h.nodup.sublist (List.filter_sublist.map _), fun e he ↦ h.sound e (List.mem_of_mem_filter he)⟩

theorem StillThere.remove (h : StillThere P line W₀ W) (id : Uuid) :
    StillThere P line W₀
      { W with
        tasks := W.tasks.filter fun e ↦ e.id ≠ id
        removed := W.removed ++ W.tasks.filter fun e ↦ e.id = id } := by
  intro e₀ he₀
  obtain ⟨e, he, hlater⟩ := h e₀ he₀
  refine ⟨e, ?_, hlater⟩
  by_cases hid : e.id = id
  · rcases he with he | he
    · exact .inr (List.mem_append_right _ (List.mem_filter.mpr ⟨he, decide_eq_true hid⟩))
    · exact .inr (List.mem_append_left _ he)
  · rcases he with he | he
    · exact .inl (List.mem_filter.mpr ⟨he, by simpa using hid⟩)
    · exact .inr (List.mem_append_left _ he)

/-- When the pass is over, what was removed is what was found expired. -/
theorem removed_iff_expired (h : Cleaning parse retention now W₀ W [] []) :
    ∀ p ∈ W.examined,
      (p.1 ∈ W.removed.map Entry.id ↔ expired parse retention now p.2 = true) := by
  rintro ⟨id, s⟩ hp
  have hid := h.expired id
  simp only [List.not_mem_nil, or_false] at hid
  rw [hid]
  refine ⟨?_, fun hexp ↦ ⟨s, hp, hexp⟩⟩
  rintro ⟨s', hp', hexp⟩
  have hnodup : (W.examined.map Prod.fst).Nodup := by simpa using h.nodup
  have := List.inj_on_of_nodup_map hnodup hp hp' rfl
  rwa [(Prod.mk.inj this).2]

variable (P line parse retention now W₀) in
/-- What is known in each phase. -/
def Cleaned : CleanupPhase → Shelf → Prop
  | .collecting, W => W.examined = [] ∧ W.removed = []
  | .holding todo found, W => Cleaning parse retention now W₀ W todo found

theorem cleaned_invariant (h₀ : W₀.Sound P) :
    Invariant (cleanupMachine P line) (CleanupMoves parse retention now)
      fun φ W ↦ W.Sound P ∧ StillThere P line W₀ W ∧ Cleaned parse retention now W₀ φ W where
  env φ W W' h hs := by
    obtain ⟨hW, hkept, hφ⟩ := h
    refine ⟨hW.env hs, hkept.env hs, ?_⟩
    cases φ with
    | collecting =>
      obtain ⟨hexamined, hremoved, -⟩ := hs.later
      exact ⟨hexamined.trans hφ.1, hremoved.trans hφ.2⟩
    | holding todo found => exact Cleaning.env hφ hW hs
  act φ o W r W' ψ h ha hm := by
    obtain ⟨hW, hkept, hφ⟩ := h
    cases hm with
    | collect ids =>
      obtain ⟨rfl, rfl⟩ := ha
      exact ⟨hW, hkept, Cleaning.collect h₀ hkept hW hφ.1 hφ.2⟩
    | examine id todo found s =>
      obtain ⟨⟨e, he, hid, rfl⟩, rfl⟩ := ha
      exact ⟨⟨hW.nodup, hW.sound⟩, hkept, Cleaning.examine hφ h₀ hkept hW he hid⟩
    | remove id found =>
      obtain rfl : W' = _ := ha
      exact ⟨hW.remove id _, hkept.remove id, Cleaning.remove hφ hW⟩

end

/-! ## The comparison -/

/-- The task has been finished for the retention, in whole seconds. -/
def Due (parse : String → Option ℤ) (retention : ℕ) (now : ℤ) (s : TaskSnapshot) : Prop :=
  ∃ t, s.finishedAt.bind parse = some t ∧ (retention : ℤ) ≤ (now - t).tdiv 1000000000

/-- The retention is compared as a signed number. -/
theorem asI64_of_lt {n : ℕ} (h : n < 2 ^ 63) : asI64 n = n := by
  rw [asI64, if_pos (by omega)]
  omega

theorem asI64_of_le {n : ℕ} (h : 2 ^ 63 ≤ n) (h' : n < 2 ^ 64) : asI64 n = n - 2 ^ 64 := by
  rw [asI64, if_neg (by omega)]
  omega

theorem expired_iff {parse : String → Option ℤ} {retention : ℕ} {now : ℤ} {s : TaskSnapshot} :
    expired parse retention now s = true ↔
      ∃ t, s.finishedAt.bind parse = some t ∧ asI64 retention ≤ (now - t).tdiv 1000000000 := by
  rw [expired]
  cases s.finishedAt.bind parse <;> simp

/-- The test is the right one for a snapshot, exactly if its age is not on the wrong side. -/
theorem expired_iff_due {parse : String → Option ℤ} {retention : ℕ} {now : ℤ} {s : TaskSnapshot}
    (h : retention < 2 ^ 64) :
    (expired parse retention now s = true ↔ Due parse retention now s) ↔
      retention < 2 ^ 63 ∨ ∀ t, s.finishedAt.bind parse = some t →
        ¬ ((retention : ℤ) - 2 ^ 64 ≤ (now - t).tdiv 1000000000 ∧
          (now - t).tdiv 1000000000 < retention) := by
  rw [expired_iff, Due]
  rcases lt_or_ge retention (2 ^ 63) with hlt | hge
  · exact iff_of_true (by rw [asI64_of_lt hlt]) (.inl hlt)
  · rw [asI64_of_le hge h]
    cases hparse : s.finishedAt.bind parse with
    | none => simp
    | some t =>
      simp only [Option.some.injEq, exists_eq_left', forall_eq', not_lt.mpr hge, false_or]
      omega

/-- … and for all of them. -/
theorem forall_expired_iff_due {parse : String → Option ℤ} {retention : ℕ} {now : ℤ}
    (h : retention < 2 ^ 64) (examined : List (Uuid × TaskSnapshot)) :
    (∀ p ∈ examined, (expired parse retention now p.2 = true ↔ Due parse retention now p.2)) ↔
      retention < 2 ^ 63 ∨ ∀ p ∈ examined, ∀ t, p.2.finishedAt.bind parse = some t →
        ¬ ((retention : ℤ) - 2 ^ 64 ≤ (now - t).tdiv 1000000000 ∧
          (now - t).tdiv 1000000000 < retention) := by
  simp only [expired_iff_due h]
  rcases lt_or_ge retention (2 ^ 63) with hlt | hge
  · exact iff_of_true (fun _ _ ↦ .inl hlt) (.inl hlt)
  · simp only [not_lt.mpr hge, false_or]

/-- A map of rebuilt records and of tasks created since, whatever their runners have done. -/
structure Shelf.Ready (P : Platform) (line : TaskSnapshot → List UInt8) (W : Shelf) : Prop where
  nodup : (W.tasks.map Entry.id).Nodup
  recovered : ∀ r, .recovered r ∈ W.tasks → r.snapshot.status.isFinished = true
  created : ∀ j, .created j ∈ W.tasks → ∃ args id now, (taskMachine P line).Run
    (startTask P j.route args, j.route.world line id now) (j.program, j.world)
  examined : W.examined = []
  removed : W.removed = []

theorem Shelf.Ready.sound {P : Platform} {line : TaskSnapshot → List UInt8} {W : Shelf}
    (h : W.Ready P line) : W.Sound P := by
  refine ⟨h.nodup, fun e he ↦ ?_⟩
  cases e with
  | recovered r => exact h.recovered r he
  | created j =>
    obtain ⟨args, id, now, hr⟩ := h.created j he
    have hstart : Tracked (Moves P j.route) (fun φ w ↦ Facts φ w.snapshot ∧ Settled φ w)
        (fun _ φ ↦ φ = .done) (startTask P j.route args, j.route.world line id now) :=
      ⟨.starting, startTask_follows P j.route args, (World.created_fresh ..).facts, trivial⟩
    exact settled_invariant.run hstart hr

/-- The pass that ended in `W` has removed exactly the expired records.  It looks at a record at one
moment, while others go on; a record that was finished in the beginning looks the same then. -/
structure RemovesExpired (P : Platform) (line : TaskSnapshot → List UInt8)
    (parse : String → Option ℤ) (retention : ℕ) (now : ℤ) (W₀ W : Shelf) : Prop where
  examined : ∀ e₀ ∈ W₀.tasks, ∃ s, (e₀.id, s) ∈ W.examined ∧
    (e₀.finished = true → s.finishedAt = e₀.snapshot.finishedAt)
  exact : ∀ p ∈ W.examined, p.1 ∈ W.removed.map Entry.id ↔ Due parse retention now p.2
  only : ∀ e ∈ W.removed, e.finished = true ∧ e.id ∈ W.examined.map Prod.fst
  rest : ∀ e₀ ∈ W₀.tasks, e₀.id ∉ W.removed.map Entry.id → ∃ e ∈ W.tasks, e₀.Later P line e

/-- **Retention removes exactly the expired tasks**, exactly if no task it looks at is younger than
a retention of `2 ^ 63` seconds or more. -/
theorem cleanup_exact_iff (P : Platform) (line : TaskSnapshot → List UInt8)
    (parse : String → Option ℤ) (retention : ℕ) (h64 : retention < 2 ^ 64) (now : ℤ) (W₀ W : Shelf)
    (hready : W₀.Ready P line) (hr : (cleanupMachine P line).Run
      (cleanupPass parse retention now, W₀) (.ret (), W)) :
    RemovesExpired P line parse retention now W₀ W ↔
      retention < 2 ^ 63 ∨ ∀ p ∈ W.examined, ∀ t, p.2.finishedAt.bind parse = some t →
        ¬ ((retention : ℤ) - 2 ^ 64 ≤ (now - t).tdiv 1000000000 ∧
          (now - t).tdiv 1000000000 < retention) := by
  have hstart : Tracked (CleanupMoves parse retention now)
      (fun φ W ↦ W.Sound P ∧ StillThere P line W₀ W ∧ Cleaned parse retention now W₀ φ W)
      (fun _ φ ↦ φ = .holding [] []) (cleanupPass parse retention now, W₀) :=
    ⟨.collecting, cleanupPass_follows, hready.sound, fun e he ↦ ⟨e, .inl he, .refl e⟩,
      hready.examined, hready.removed⟩
  obtain ⟨φ, hf, -, hkept, hclean⟩ := (cleaned_invariant hready.sound).run hstart hr
  obtain rfl : φ = .holding [] [] := hf
  have hgone := removed_iff_expired hclean
  refine Iff.trans ?_ (forall_expired_iff_due h64 W.examined)
  refine ⟨fun h p hp ↦ (hgone p hp).symm.trans (h.exact p hp), fun hexact ↦
    ⟨fun e₀ he₀ ↦ ?_, fun p hp ↦ (hgone p hp).trans (hexact p hp), fun e he ↦ ⟨?_, ?_⟩, ?_⟩⟩
  · have hmem := Cleaning.collected hclean e₀ he₀
    rw [List.append_nil, List.mem_map] at hmem
    obtain ⟨⟨id, s⟩, hp, rfl⟩ := hmem
    exact ⟨s, hp, Cleaning.known hclean _ hp e₀ he₀ rfl⟩
  · exact Cleaning.removed hclean e he
  · obtain ⟨s, hs, -⟩ := (Cleaning.expired hclean e.id).mp (.inl (List.mem_map_of_mem he))
    exact List.mem_map_of_mem hs
  · intro e₀ he₀ hnot
    obtain ⟨e, he, hlater⟩ := hkept e₀ he₀
    rcases he with he | he
    · exact ⟨e, he, hlater⟩
    · have hid := (hlater.facts (hready.sound.sound e₀ he₀)).2.1
      exact absurd (hid ▸ List.mem_map_of_mem he) hnot

/-! ## Two passes

One record, of a task that has succeeded nine seconds into the year. -/

/-- The map with that record. -/
def exampleShelf : Shelf := ⟨[.recovered exampleRecord], [], []⟩

/-- The time at which it finished, in nanoseconds of that year. -/
def exampleParse (text : String) : Option ℤ :=
  if text = "2026-01-01T00:00:09Z" then some 9000000000 else none

theorem exampleShelf_ready : exampleShelf.Ready .unix snapshotCodec.line where
  nodup := List.nodup_singleton _
  recovered r hr := by
    cases List.mem_singleton.mp hr
    rfl
  created j hj := by cases List.mem_singleton.mp hj
  examined := rfl
  removed := rfl

/-- What is left when the record is removed. -/
def exampleEmptied : Shelf :=
  ⟨[], [(exampleRecord.id, exampleRecord.snapshot)], [.recovered exampleRecord]⟩

theorem run_exampleShelf {retention : ℕ} {now : ℤ}
    (h : expired exampleParse retention now exampleRecord.snapshot = true) :
    (cleanupMachine .unix snapshotCodec.line).Run
      (cleanupPass exampleParse retention now, exampleShelf) (.ret (), exampleEmptied) := by
  let M := cleanupMachine .unix snapshotCodec.line
  let examined : Shelf :=
    ⟨[.recovered exampleRecord], [(exampleRecord.id, exampleRecord.snapshot)], []⟩
  have hcollect : M.Step (cleanupPass exampleParse retention now, exampleShelf)
      (examineAll exampleParse retention now [] [exampleRecord.id] >>= removeAll, exampleShelf) :=
    .act (S := cleaner) (o := .collect) (r := [exampleRecord.id]) ⟨rfl, rfl⟩
  have hexamine : M.Step
      (examineAll exampleParse retention now [] [exampleRecord.id] >>= removeAll, exampleShelf)
      (removeAll (if expired exampleParse retention now exampleRecord.snapshot
        then [exampleRecord.id] else []), examined) :=
    .act (S := cleaner) (o := .examine exampleRecord.id) (r := exampleRecord.snapshot)
      ⟨⟨_, List.mem_singleton_self _, rfl, rfl⟩, rfl⟩
  have hremove : M.Step (removeAll [exampleRecord.id], examined) (.ret (), exampleEmptied) :=
    .act (S := cleaner) (o := .remove exampleRecord.id) (r := ()) rfl
  rw [if_pos h] at hexamine
  exact ((ReflTransGen.single hcollect).tail hexamine).tail hremove

/-- An hour later, with a retention of an hour. -/
theorem cleanup_exact_hour :
    RemovesExpired .unix snapshotCodec.line exampleParse 3600 3609000000000 exampleShelf
      exampleEmptied :=
  (cleanup_exact_iff .unix _ exampleParse 3600 (by decide) _ _ _ exampleShelf_ready
    (run_exampleShelf (by decide))).mpr (.inl (by decide))

/-- A configuration that keeps tasks as long as possible. -/
def forever : Config :=
  { exampleConfig 16 with
    logging := { directory := ⟨false, [".", "logs"]⟩, retentionSeconds := 2 ^ 63 } }

/-- A retention of `2 ^ 63` seconds, which `resolve` takes: a second later the task is gone. -/
theorem cleanup_removes_young :
    (∃ r, resolve exampleHost "" forever ⟨true, ["srv", "config.yaml"]⟩ = .ok r ∧
      r.1.logging.retentionSeconds = 2 ^ 63) ∧
    (cleanupMachine .unix snapshotCodec.line).Run
      (cleanupPass exampleParse (2 ^ 63) 10000000000, exampleShelf) (.ret (), exampleEmptied) ∧
    ¬ RemovesExpired .unix snapshotCodec.line exampleParse (2 ^ 63) 10000000000 exampleShelf
      exampleEmptied := by
  refine ⟨⟨_, rfl, rfl⟩, run_exampleShelf (by decide), fun h ↦ ?_⟩
  obtain ⟨t, ht, hle⟩ := (h.exact _ (List.mem_singleton_self _)).mp (List.mem_singleton_self _)
  have h9 : exampleRecord.snapshot.finishedAt.bind exampleParse = some 9000000000 := rfl
  rw [h9] at ht
  cases ht
  revert hle
  decide

end CommandApi
