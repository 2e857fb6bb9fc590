import CommandApi.Model

/-!
# Capturing output

`copy_output` of `src/process/mod.rs`: one blocking reader for each pipe, with its own log file and
its own counter.  The readers share a budget.  `captured_bytes` counts what they have read, also
past the limit, and a reader keeps of each block what the limit leaves behind the bytes that were
captured before it.

The readers' steps are interleaved in every way.  `Accounts` is what they keep up: the bytes that
have been granted are the limit or all that was captured, and a reader that has dropped something
is never granted anything again, because the counter does not fall.  `capture_exact` is the result.
-/

set_option autoImplicit false

namespace CommandApi

open Relation

instance : Fintype OutputStream where
  elems := {.stdout, .stderr, .combined}
  complete s := by cases s <;> decide

/-! ## The readers -/

/-- Where a reader is in its loop. -/
inductive CopierPc
  /-- About to read a block, or to find that there is none. -/
  | reading
  /-- It has this block, and adds its length to `captured_bytes` next. -/
  | claiming (block : List UInt8)
  /-- It writes the first `allowed` bytes of the block next. -/
  | writing (block : List UInt8) (allowed : ℕ)
  /-- It adds what it has written of a block to its counter next. -/
  | counting (read allowed : ℕ)
  /-- It sets `output_truncated` next, if it has dropped something. -/
  | flagging (read allowed : ℕ)
  | ended
  deriving DecidableEq, Repr

/-- The reader of a stream, with what only it touches. -/
structure Copier where
  pc : CopierPc
  /-- What is still to come from the pipe. -/
  pipe : List UInt8
  /-- The log file. -/
  file : List UInt8
  /-- `stdout_bytes`, `stderr_bytes` or `combined_bytes`. -/
  counter : ℕ
  deriving DecidableEq, Repr

/-- What the readers of a task share. -/
structure Captured where
  /-- `captured_bytes` -/
  bytes : ℕ
  /-- `output_truncated` -/
  truncated : Bool
  deriving DecidableEq, Repr

/-- How much of a block is kept. -/
def allowed (limit already read : ℕ) : ℕ := min (limit - already) read

/-- Nothing is written if nothing is kept. -/
def afterClaim (block : List UInt8) (allowed : ℕ) : CopierPc :=
  if 0 < allowed then .writing block allowed else .flagging block.length allowed

/-- The steps of `copy_output`.  The writes succeed. -/
inductive CopyStep (limit : ℕ) : Copier × Captured → Copier × Captured → Prop
  | read {r : Copier} {c : Captured} {block rest : List UInt8} (hpc : r.pc = .reading)
      (hpipe : r.pipe = block ++ rest) (hne : block ≠ []) (hlen : block.length ≤ 8192) :
      CopyStep limit (r, c) ({ r with pc := .claiming block, pipe := rest }, c)
  | eof {r : Copier} {c : Captured} (hpc : r.pc = .reading) (hpipe : r.pipe = []) :
      CopyStep limit (r, c) ({ r with pc := .ended }, c)
  | claim {r : Copier} {c : Captured} {block : List UInt8} (hpc : r.pc = .claiming block) :
      CopyStep limit (r, c)
        ({ r with pc := afterClaim block (allowed limit c.bytes block.length) },
          { c with bytes := (c.bytes + block.length) % 2 ^ 64 })
  | write {r : Copier} {c : Captured} {block : List UInt8} {n : ℕ} (hpc : r.pc = .writing block n) :
      CopyStep limit (r, c)
        ({ r with pc := .counting block.length n, file := r.file ++ block.take n }, c)
  | count {r : Copier} {c : Captured} {read n : ℕ} (hpc : r.pc = .counting read n) :
      CopyStep limit (r, c)
        ({ r with pc := .flagging read n, counter := (r.counter + n) % 2 ^ 64 }, c)
  | flag {r : Copier} {c : Captured} {read n : ℕ} (hpc : r.pc = .flagging read n) :
      CopyStep limit (r, c)
        ({ r with pc := .reading }, { c with truncated := c.truncated || decide (n < read) })

/-- The readers of a task. -/
structure Capture where
  readers : OutputStream → Copier
  shared : Captured

/-- A step of one of the readers. -/
inductive CaptureStep (limit : ℕ) : Capture → Capture → Prop
  | reader {C : Capture} (stream : OutputStream) {r : Copier} {c : Captured}
      (h : CopyStep limit (C.readers stream, C.shared) (r, c)) :
      CaptureStep limit C ⟨Function.update C.readers stream r, c⟩

/-- The readers at the start, for the pipes of the mode and what comes through them. -/
def Capture.start (mode : OutputMode) (source : OutputStream → List UInt8) : Capture where
  readers stream :=
    if stream ∈ mode.streams then ⟨.reading, source stream, [], 0⟩ else ⟨.ended, [], [], 0⟩
  shared := ⟨0, false⟩

/-! ## What a step does -/

namespace Copier

/-- What has not been counted as captured. -/
def unclaimed (r : Copier) : List UInt8 :=
  match r.pc with
  | .claiming block => block ++ r.pipe
  | _ => r.pipe

/-- What has been written or may be. -/
def granted (r : Copier) : List UInt8 :=
  match r.pc with
  | .writing block n => r.file ++ block.take n
  | _ => r.file

/-- The reader has dropped something and not said so. -/
def short (r : Copier) : Bool :=
  match r.pc with
  | .writing block n => decide (n < block.length)
  | .counting read n | .flagging read n => decide (n < read)
  | _ => false

/-- The counter lags behind the file only between the write and the update, and the reader ends
only when nothing is left. -/
def Counts (r : Copier) : Prop :=
  match r.pc with
  | .writing block n => r.counter = r.file.length ∧ n ≤ block.length
  | .counting _ n => r.counter + n = r.file.length
  | .ended => r.counter = r.file.length ∧ r.pipe = []
  | _ => r.counter = r.file.length

end Copier

/-- What a step does to the accounts: nothing, or a claim, or the flag. -/
inductive Effect (limit : ℕ) (r r' : Copier) (c c' : Captured) : Prop
  | quiet (hunclaimed : r'.unclaimed = r.unclaimed) (hgranted : r'.granted = r.granted)
      (hshort : r'.short = r.short) (hc : c' = c)
  | claim {block : List UInt8} (hunclaimed : r.unclaimed = block ++ r'.unclaimed)
      (hgranted : r'.granted = r.granted ++ block.take (allowed limit c.bytes block.length))
      (hold : r.short = false)
      (hshort : r'.short = decide (allowed limit c.bytes block.length < block.length))
      (hc : c' = { c with bytes := (c.bytes + block.length) % 2 ^ 64 })
  | flag (hunclaimed : r'.unclaimed = r.unclaimed) (hgranted : r'.granted = r.granted)
      (hshort : r'.short = false) (hc : c' = { c with truncated := c.truncated || r.short })

theorem CopyStep.effect {limit : ℕ} {r r' : Copier} {c c' : Captured}
    (h : CopyStep limit (r, c) (r', c')) : Effect limit r r' c c' := by
  cases h with
  | read hpc hpipe hne hlen =>
    exact .quiet (by simp [Copier.unclaimed, hpc, hpipe]) (by simp [Copier.granted, hpc])
      (by simp [Copier.short, hpc]) rfl
  | eof hpc hpipe =>
    exact .quiet (by simp [Copier.unclaimed, hpc]) (by simp [Copier.granted, hpc])
      (by simp [Copier.short, hpc]) rfl
  | claim hpc =>
    rename_i block
    by_cases h0 : 0 < allowed limit c.bytes block.length
    · exact .claim (by simp [Copier.unclaimed, hpc, afterClaim, h0])
        (by simp [Copier.granted, hpc, afterClaim, h0]) (by simp [Copier.short, hpc])
        (by simp [Copier.short, afterClaim, h0]) rfl
    · have h0' : allowed limit c.bytes block.length = 0 := by omega
      exact .claim (by simp [Copier.unclaimed, hpc, afterClaim, h0'])
        (by simp [Copier.granted, hpc, afterClaim, h0']) (by simp [Copier.short, hpc])
        (by simp [Copier.short, afterClaim, h0']) rfl
  | write hpc =>
    exact .quiet (by simp [Copier.unclaimed, hpc]) (by simp [Copier.granted, hpc])
      (by simp [Copier.short, hpc]) rfl
  | count hpc =>
    exact .quiet (by simp [Copier.unclaimed, hpc]) (by simp [Copier.granted, hpc])
      (by simp [Copier.short, hpc]) rfl
  | flag hpc =>
    exact .flag (by simp [Copier.unclaimed, hpc]) (by simp [Copier.granted, hpc])
      (by simp [Copier.short]) (by simp [Copier.short, hpc])

theorem CopyStep.counts {limit : ℕ} {r r' : Copier} {c c' : Captured}
    (h : CopyStep limit (r, c) (r', c')) (hr : r.Counts) (hfile : r.file.length < 2 ^ 64) :
    r'.Counts := by
  cases h with
  | read hpc => simpa [Copier.Counts, hpc] using hr
  | eof hpc hpipe => simpa [Copier.Counts, hpc, hpipe] using hr
  | claim hpc =>
    simp only [Copier.Counts, hpc] at hr
    simp only [Copier.Counts, afterClaim]
    split_ifs
    · exact ⟨hr, min_le_right _ _⟩
    · exact hr
  | write hpc =>
    simp only [Copier.Counts, hpc] at hr
    simp only [Copier.Counts, List.length_append, List.length_take]
    omega
  | count hpc =>
    simp only [Copier.Counts, hpc] at hr
    simp only [Copier.Counts, hr]
    exact Nat.mod_eq_of_lt hfile
  | flag hpc => simpa [Copier.Counts, hpc] using hr

/-! ## The accounts -/

/-- What is granted never goes over the limit, and stays under it only while everything is. -/
theorem min_add_allowed (limit already read : ℕ) :
    min limit already + allowed limit already read = min limit (already + read) := by
  rw [allowed]
  omega

/-- A reader has kept all that it claimed, or the limit is reached. -/
def Copier.Kept (limit bytes : ℕ) (source : List UInt8) (r : Copier) : Prop :=
  ∃ taken, source = taken ++ r.unclaimed ∧ r.granted <+: taken ∧ (r.granted = taken ∨ limit ≤ bytes)

/-- What the readers keep up. -/
structure Accounts (limit : ℕ) (source : OutputStream → List UInt8)
    (readers : OutputStream → Copier) (c : Captured) : Prop where
  claimed : c.bytes + ∑ s, (readers s).unclaimed.length = ∑ s, (source s).length
  granted : ∑ s, (readers s).granted.length = min limit c.bytes
  counts : ∀ s, (readers s).Counts
  kept : ∀ s, (readers s).Kept limit c.bytes (source s)
  flagged : c.truncated = true → limit < c.bytes
  dropped : ∀ s, (readers s).short = true → limit < c.bytes
  /-- Who went past the limit has said so, or is about to. -/
  noticed : limit < c.bytes → c.truncated = true ∨ ∃ s, (readers s).short = true

section

variable {limit : ℕ} {source : OutputStream → List UInt8} {readers : OutputStream → Copier}
  {c : Captured} {s : OutputStream} {r : Copier}

/-- A sum over the readers when one of them has changed. -/
theorem sum_update (f : Copier → ℕ) (readers : OutputStream → Copier) (s : OutputStream)
    (r : Copier) :
    ∑ x, f (Function.update readers s r x) + f (readers s) = ∑ x, f (readers x) + f r := by
  rw [← Finset.add_sum_erase _ _ (Finset.mem_univ s),
    ← Finset.add_sum_erase _ (fun x ↦ f (readers x)) (Finset.mem_univ s), Function.update_self]
  have : ∑ x ∈ Finset.univ.erase s, f (Function.update readers s r x) =
      ∑ x ∈ Finset.univ.erase s, f (readers x) :=
    Finset.sum_congr rfl fun x hx ↦ by rw [Function.update_of_ne (Finset.ne_of_mem_erase hx)]
  omega

/-- What holds of the other readers and of the one that has changed. -/
theorem forall_update {p : OutputStream → Copier → Prop} (h : ∀ x, p x (readers x)) (hr : p s r)
    (x : OutputStream) : p x (Function.update readers s r x) := by
  by_cases hx : x = s
  · rw [hx, Function.update_self]
    exact hr
  · rw [Function.update_of_ne hx]
    exact h x

theorem Copier.length_file_le (r : Copier) : r.file.length ≤ r.granted.length := by
  rw [Copier.granted]
  split
  · rw [List.length_append]
    exact Nat.le_add_right _ _
  · exact le_rfl

namespace Accounts

/-- The files are what has been granted, or less. -/
theorem sum_file_le (h : Accounts limit source readers c) :
    ∑ s, (readers s).file.length ≤ min limit c.bytes := by
  rw [← h.granted]
  exact Finset.sum_le_sum fun s _ ↦ (readers s).length_file_le

theorem file_lt (h : Accounts limit source readers c) (htotal : ∑ s, (source s).length < 2 ^ 64)
    (s : OutputStream) : (readers s).file.length < 2 ^ 64 := by
  have hle : (readers s).file.length ≤ ∑ s, (readers s).file.length :=
    Finset.single_le_sum (f := fun s ↦ (readers s).file.length) (fun _ _ ↦ Nat.zero_le _)
      (Finset.mem_univ s)
  have hsum := h.sum_file_le
  have hclaimed := h.claimed
  omega

/-- A step that touches no account. -/
theorem quiet (h : Accounts limit source readers c) (hcounts : r.Counts)
    (hu : r.unclaimed = (readers s).unclaimed) (hg : r.granted = (readers s).granted)
    (hsh : r.short = (readers s).short) :
    Accounts limit source (Function.update readers s r) c := by
  have hunclaimed := sum_update (·.unclaimed.length) readers s r
  have hgranted := sum_update (·.granted.length) readers s r
  rw [hu] at hunclaimed
  rw [hg] at hgranted
  have hshort : ∀ x, (Function.update readers s r x).short = (readers x).short :=
    forall_update (p := fun x r ↦ r.short = (readers x).short) (fun _ ↦ rfl) hsh
  refine ⟨?_, ?_, forall_update h.counts hcounts, forall_update h.kept ?_, h.flagged, ?_, ?_⟩
  · rw [Nat.add_right_cancel hunclaimed, h.claimed]
  · rw [Nat.add_right_cancel hgranted, h.granted]
  · rw [Copier.Kept, hu, hg]
    exact h.kept s
  · simpa only [hshort] using h.dropped
  · simpa only [hshort] using h.noticed

/-- A claim. -/
theorem claim (h : Accounts limit source readers c) (htotal : ∑ s, (source s).length < 2 ^ 64)
    (hcounts : r.Counts) {block : List UInt8} (hu : (readers s).unclaimed = block ++ r.unclaimed)
    (hg : r.granted = (readers s).granted ++ block.take (allowed limit c.bytes block.length))
    (hold : (readers s).short = false)
    (hsh : r.short = decide (allowed limit c.bytes block.length < block.length)) :
    Accounts limit source (Function.update readers s r)
      { c with bytes := (c.bytes + block.length) % 2 ^ 64 } := by
  have hunclaimed := sum_update (·.unclaimed.length) readers s r
  have hgranted := sum_update (·.granted.length) readers s r
  have hclaimed := h.claimed
  have hgrant := h.granted
  have hle : allowed limit c.bytes block.length ≤ block.length := min_le_right _ _
  have hmin := min_add_allowed limit c.bytes block.length
  simp only [hu, List.length_append] at hunclaimed
  simp only [hg, List.length_append, List.length_take, min_eq_left hle] at hgranted
  have hmod : (c.bytes + block.length) % 2 ^ 64 = c.bytes + block.length :=
    Nat.mod_eq_of_lt (by omega)
  rw [hmod]
  have hlater : ∀ {n}, n ≤ c.bytes → n ≤ c.bytes + block.length := fun h ↦
    h.trans (Nat.le_add_right _ _)
  refine ⟨?_, ?_, forall_update h.counts hcounts, forall_update (fun x ↦ ?_) ?_, ?_,
    forall_update (p := fun _ r ↦ r.short = true → _) (fun x hx ↦ ?_) ?_, fun hlt ↦ ?_⟩
  · show c.bytes + block.length + _ = _
    omega
  · show _ = min limit (c.bytes + block.length)
    omega
  · obtain ⟨taken, hsource, hpre, hkept⟩ := h.kept x
    exact ⟨taken, hsource, hpre, hkept.imp_right hlater⟩
  · obtain ⟨taken, hsource, hpre, hkept⟩ := h.kept s
    refine ⟨taken ++ block, by rw [hsource, hu, List.append_assoc], ?_⟩
    rw [hg]
    rcases hkept with heq | hfull
    · rw [heq]
      refine ⟨(List.prefix_append_right_inj taken).mpr (List.take_prefix _ _), ?_⟩
      by_cases hall : allowed limit c.bytes block.length = block.length
      · exact .inl (by rw [hall, List.take_length])
      · exact .inr (by rw [allowed] at hall; show limit ≤ c.bytes + block.length; omega)
    · have hnone : allowed limit c.bytes block.length = 0 := by rw [allowed]; omega
      rw [hnone, List.take_zero, List.append_nil]
      exact ⟨hpre.trans (List.prefix_append _ _), .inr (hlater hfull)⟩
  · exact fun htr ↦ hlater (h.flagged htr)
  · exact hlater (h.dropped x hx)
  · rw [hsh, decide_eq_true_iff, allowed]
    show _ → limit < c.bytes + block.length
    omega
  · -- who crosses the limit drops something; if nobody does now, somebody did before
    by_cases hr : r.short = true
    · exact .inr ⟨s, by rw [Function.update_self, hr]⟩
    · rw [hsh, decide_eq_true_iff, allowed] at hr
      have hlt' : limit < c.bytes + block.length := hlt
      refine (h.noticed (by omega)).imp_right ?_
      rintro ⟨x, hx⟩
      have hxs : x ≠ s := by
        rintro rfl
        simp [hold] at hx
      exact ⟨x, by rw [Function.update_of_ne hxs, hx]⟩

/-- The flag. -/
theorem flag (h : Accounts limit source readers c) (hcounts : r.Counts)
    (hu : r.unclaimed = (readers s).unclaimed) (hg : r.granted = (readers s).granted)
    (hsh : r.short = false) :
    Accounts limit source (Function.update readers s r)
      { c with truncated := c.truncated || (readers s).short } := by
  have hunclaimed := sum_update (·.unclaimed.length) readers s r
  have hgranted := sum_update (·.granted.length) readers s r
  rw [hu] at hunclaimed
  rw [hg] at hgranted
  refine ⟨?_, ?_, forall_update h.counts hcounts, forall_update h.kept ?_, ?_,
    forall_update (p := fun _ r ↦ r.short = true → _) h.dropped ?_, fun hlt ↦ ?_⟩
  · rw [Nat.add_right_cancel hunclaimed, h.claimed]
  · rw [Nat.add_right_cancel hgranted, h.granted]
  · rw [Copier.Kept, hu, hg]
    exact h.kept s
  · simp only [Bool.or_eq_true]
    rintro (htr | hs)
    · exact h.flagged htr
    · exact h.dropped s hs
  · simp [hsh]
  · simp only [Bool.or_eq_true]
    rcases h.noticed hlt with htr | ⟨x, hx⟩
    · exact .inl (.inl htr)
    · by_cases hxs : x = s
      · exact .inl (.inr (hxs ▸ hx))
      · exact .inr ⟨x, by rw [Function.update_of_ne hxs, hx]⟩

/-- **One step keeps the accounts.** -/
theorem step {C C' : Capture} (h : Accounts limit source C.readers C.shared)
    (htotal : ∑ s, (source s).length < 2 ^ 64) (hs : CaptureStep limit C C') :
    Accounts limit source C'.readers C'.shared := by
  obtain ⟨s, hstep⟩ := hs
  have hcounts := hstep.counts (h.counts s) (h.file_lt htotal s)
  cases hstep.effect with
  | quiet hu hg hsh hc =>
    subst hc
    exact h.quiet hcounts hu hg hsh
  | claim hu hg hold hsh hc =>
    subst hc
    exact h.claim htotal hcounts hu hg hold hsh
  | flag hu hg hsh hc =>
    subst hc
    exact h.flag hcounts hu hg hsh

theorem run {C C' : Capture} (h : Accounts limit source C.readers C.shared)
    (htotal : ∑ s, (source s).length < 2 ^ 64) (hs : ReflTransGen (CaptureStep limit) C C') :
    Accounts limit source C'.readers C'.shared := by
  induction hs with
  | refl => exact h
  | tail _ hstep ih => exact ih.step htotal hstep

/-- **Readers that have all ended have emptied their pipes** and kept what the limit allows. -/
theorem ended (h : Accounts limit source readers c) (hended : ∀ s, (readers s).pc = .ended) :
    (∀ s, (readers s).pipe = []) ∧
    ∑ s, (readers s).file.length = min limit (∑ s, (source s).length) ∧
    (∀ s, (readers s).counter = (readers s).file.length) ∧
    (∀ s, (readers s).file <+: source s) ∧
    (c.truncated = true ↔ limit < ∑ s, (source s).length) := by
  have hcounts : ∀ s, (readers s).counter = (readers s).file.length ∧ (readers s).pipe = [] := by
    intro s
    have := h.counts s
    simpa only [Copier.Counts, hended s] using this
  have hunclaimed : ∀ s, (readers s).unclaimed = [] := fun s ↦ by
    simp [Copier.unclaimed, hended s, (hcounts s).2]
  have hgranted : ∀ s, (readers s).granted = (readers s).file := fun s ↦ by
    simp [Copier.granted, hended s]
  have hshort : ∀ s, (readers s).short = false := fun s ↦ by simp [Copier.short, hended s]
  have hbytes : c.bytes = ∑ s, (source s).length := by
    have := h.claimed
    simpa [hunclaimed] using this
  refine ⟨fun s ↦ (hcounts s).2, ?_, fun s ↦ (hcounts s).1, fun s ↦ ?_, ?_⟩
  · have := h.granted
    simpa only [hgranted, hbytes] using this
  · obtain ⟨taken, hsource, hpre, -⟩ := h.kept s
    rw [hunclaimed, List.append_nil] at hsource
    rw [hsource, ← hgranted]
    exact hpre
  · rw [← hbytes]
    refine ⟨h.flagged, fun hlt ↦ (h.noticed hlt).resolve_right ?_⟩
    rintro ⟨s, hs⟩
    simp [hshort s] at hs

end Accounts

end

/-! ## Whole runs -/

section

variable {limit : ℕ} {mode : OutputMode} {source : OutputStream → List UInt8} {C : Capture}

/-- What comes through the pipes of the mode. -/
def piped (mode : OutputMode) (source : OutputStream → List UInt8) (s : OutputStream) :
    List UInt8 :=
  if s ∈ mode.streams then source s else []

/-- How much comes through the pipes in all. -/
def totalRead (mode : OutputMode) (source : OutputStream → List UInt8) : ℕ :=
  (mode.streams.map fun s ↦ (source s).length).sum

theorem sum_piped (mode : OutputMode) (source : OutputStream → List UInt8) :
    ∑ s, (piped mode source s).length = totalRead mode source := by
  show ∑ s ∈ ({.stdout, .stderr, .combined} : Finset OutputStream), (piped mode source s).length = _
  cases mode <;> simp [piped, totalRead, OutputMode.streams]

theorem accounts_start (limit : ℕ) (mode : OutputMode) (source : OutputStream → List UInt8) :
    Accounts limit (piped mode source) (Capture.start mode source).readers
      (Capture.start mode source).shared := by
  have hreader : ∀ s, ((Capture.start mode source).readers s).unclaimed = piped mode source s ∧
      ((Capture.start mode source).readers s).granted = [] ∧
      ((Capture.start mode source).readers s).short = false ∧
      ((Capture.start mode source).readers s).Counts := by
    intro s
    by_cases hs : s ∈ mode.streams <;>
      simp [Capture.start, hs, piped, Copier.unclaimed, Copier.granted, Copier.short, Copier.Counts]
  refine ⟨?_, ?_, fun s ↦ (hreader s).2.2.2, fun s ↦ ?_, ?_, fun s hs ↦ ?_, ?_⟩
  · simp only [hreader]
    exact Nat.zero_add _
  · simp only [hreader]
    simp [Capture.start]
  · obtain ⟨hu, hg, -⟩ := hreader s
    exact ⟨[], hu.symm, hg ▸ List.prefix_rfl, .inl hg⟩
  · simp [Capture.start]
  · simp [hreader] at hs
  · simp [Capture.start]

/-- **The budget is exact, and cuts only at the end.**  The log files never hold more than the
limit.  When the readers have ended, the counters are the lengths of the files and add up to the
limit or to everything that came, each file is a beginning of its stream, and `output_truncated`
says whether anything is missing. -/
theorem capture_exact (htotal : totalRead mode source < 2 ^ 64)
    (hrun : ReflTransGen (CaptureStep limit) (.start mode source) C) :
    ∑ s, (C.readers s).file.length ≤ limit ∧
    ((∀ s, (C.readers s).pc = .ended) →
      ∑ s, (C.readers s).counter = min limit (totalRead mode source) ∧
      (∀ s, (C.readers s).counter = (C.readers s).file.length) ∧
      (∀ s ∈ mode.streams, (C.readers s).file <+: source s) ∧
      (C.shared.truncated = true ↔ limit < totalRead mode source)) := by
  rw [← sum_piped] at htotal
  have h := (accounts_start limit mode source).run htotal hrun
  refine ⟨h.sum_file_le.trans (min_le_left _ _), fun hended ↦ ?_⟩
  obtain ⟨-, hsum, hcounter, hfiles, htr⟩ := h.ended hended
  rw [sum_piped] at hsum htr
  refine ⟨?_, hcounter, fun s hs ↦ ?_, htr⟩
  · simpa only [hcounter] using hsum
  · have := hfiles s
    rwa [piped, if_pos hs] at this

/-! ## Readers end -/

/-- The reader gets back to its read with this pipe. -/
def Returns (limit : ℕ) (r : Copier) (c : Captured) : Prop :=
  ∃ r' c', ReflTransGen (CopyStep limit) (r, c) (r', c') ∧ r'.pc = .reading ∧ r'.pipe = r.pipe

theorem Returns.head {r r' : Copier} {c c' : Captured} (h : Returns limit r' c')
    (hs : CopyStep limit (r, c) (r', c')) (hp : r'.pipe = r.pipe) : Returns limit r c := by
  obtain ⟨r'', c'', hrun, hpc, hpipe⟩ := h
  exact ⟨r'', c'', .head hs hrun, hpc, hpipe.trans hp⟩

theorem returns_of_flagging {r : Copier} {c : Captured} {read n : ℕ}
    (hpc : r.pc = .flagging read n) : Returns limit r c :=
  ⟨_, _, .single (.flag hpc), rfl, rfl⟩

theorem returns_of_counting {r : Copier} {c : Captured} {read n : ℕ}
    (hpc : r.pc = .counting read n) : Returns limit r c :=
  (returns_of_flagging rfl).head (.count hpc) rfl

theorem returns_of_writing {r : Copier} {c : Captured} {block : List UInt8} {n : ℕ}
    (hpc : r.pc = .writing block n) : Returns limit r c :=
  (returns_of_counting rfl).head (.write hpc) rfl

theorem returns_of_claiming {r : Copier} {c : Captured} {block : List UInt8}
    (hpc : r.pc = .claiming block) : Returns limit r c := by
  refine Returns.head ?_ (.claim hpc) rfl
  by_cases h : 0 < allowed limit c.bytes block.length
  · exact returns_of_writing (if_pos h)
  · exact returns_of_flagging (if_neg h)

/-- From its read, a reader gets to the end of its pipe. -/
theorem exists_ended_of_reading (r : Copier) (c : Captured) (hr : r.pc = .reading) :
    ∃ r' c', ReflTransGen (CopyStep limit) (r, c) (r', c') ∧ r'.pc = .ended := by
  induction hn : r.pipe.length using Nat.strong_induction_on generalizing r c with
  | _ n ih =>
    by_cases hpipe : r.pipe = []
    · exact ⟨_, _, .single (.eof hr hpipe), rfl⟩
    · have hpos : 0 < r.pipe.length := List.length_pos_iff.mpr hpipe
      have hread : CopyStep limit (r, c)
          ({ r with pc := .claiming (r.pipe.take 8192), pipe := r.pipe.drop 8192 }, c) := by
        refine .read hr (List.take_append_drop 8192 r.pipe).symm ?_ (List.length_take_le _ _)
        simp [hpipe]
      obtain ⟨r', c', hrun, hpc, hrest⟩ : Returns limit
        { r with pc := .claiming (r.pipe.take 8192), pipe := r.pipe.drop 8192 } c :=
        returns_of_claiming rfl
      have hlt : r'.pipe.length < n := by
        rw [hrest, ← hn, List.length_drop]
        omega
      obtain ⟨r'', c'', hrun', hend⟩ := ih _ hlt r' c' hpc rfl
      exact ⟨r'', c'', .head hread (hrun.trans hrun'), hend⟩

/-- **A reader can always end**, whatever it is doing. -/
theorem exists_ended (limit : ℕ) (r : Copier) (c : Captured) :
    ∃ r' c', ReflTransGen (CopyStep limit) (r, c) (r', c') ∧ r'.pc = .ended := by
  have hreturns : Returns limit r c → ∃ r' c', ReflTransGen (CopyStep limit) (r, c) (r', c') ∧
      r'.pc = .ended := by
    rintro ⟨r', c', hrun, hpc, -⟩
    obtain ⟨r'', c'', hrun', hend⟩ := exists_ended_of_reading r' c' hpc
    exact ⟨r'', c'', hrun.trans hrun', hend⟩
  cases hpc : r.pc with
  | reading => exact exists_ended_of_reading r c hpc
  | claiming block => exact hreturns (returns_of_claiming hpc)
  | writing block n => exact hreturns (returns_of_writing hpc)
  | counting read n => exact hreturns (returns_of_counting hpc)
  | flagging read n => exact hreturns (returns_of_flagging hpc)
  | ended => exact ⟨r, c, .refl, hpc⟩

/-- The steps of one reader are steps of them all. -/
theorem captureRun_of_copyRun (s : OutputStream) {r : Copier} {c : Captured}
    (h : ReflTransGen (CopyStep limit) (C.readers s, C.shared) (r, c)) :
    ReflTransGen (CaptureStep limit) C ⟨Function.update C.readers s r, c⟩ := by
  generalize hx : (r, c) = x at h
  induction h generalizing r c with
  | refl =>
    obtain ⟨rfl, rfl⟩ := Prod.mk.inj hx
    rw [Function.update_eq_self]
  | @tail y z _ hs ih =>
    subst hx
    have hy : Function.update C.readers s y.1 s = y.1 := Function.update_self _ _ _
    have hstep := CaptureStep.reader (C := ⟨Function.update C.readers s y.1, y.2⟩) s (r := r)
      (c := c) (by simpa only [hy] using hs)
    rw [Function.update_idem] at hstep
    exact (ih rfl).tail hstep

/-- … and so can several. -/
theorem exists_listEnded (C : Capture) (streams : List OutputStream) :
    ∃ C', ReflTransGen (CaptureStep limit) C C' ∧ ∀ s ∈ streams, (C'.readers s).pc = .ended := by
  induction streams with
  | nil => exact ⟨C, .refl, by simp⟩
  | cons s streams ih =>
    obtain ⟨C', hrun, hended⟩ := ih
    obtain ⟨r, c, hcopy, hr⟩ := exists_ended limit (C'.readers s) C'.shared
    refine ⟨_, hrun.trans (captureRun_of_copyRun s hcopy), fun x hx ↦ ?_⟩
    by_cases hxs : x = s
    · simp [hxs, hr]
    · simp only [Function.update_of_ne hxs]
      exact hended x ((List.mem_cons.mp hx).resolve_left hxs)

theorem exists_allEnded (limit : ℕ) (C : Capture) :
    ∃ C', ReflTransGen (CaptureStep limit) C C' ∧ ∀ s, (C'.readers s).pc = .ended := by
  obtain ⟨C', hrun, hended⟩ := exists_listEnded C [.stdout, .stderr, .combined]
  exact ⟨C', hrun, fun s ↦ hended s (by cases s <;> simp)⟩

/-- Three bytes and two bytes, with a limit of four. -/
theorem capture_exact_four :
    ∃ C, ReflTransGen (CaptureStep 4)
        (.start .separate fun s ↦ if s = .stdout then [97, 98, 99] else [100, 101]) C ∧
      (∀ s, (C.readers s).pc = .ended) ∧
      ∑ s, (C.readers s).counter = 4 ∧ C.shared.truncated = true := by
  obtain ⟨C, hrun, hended⟩ := exists_allEnded 4
    (.start .separate fun s ↦ if s = .stdout then [97, 98, 99] else [100, 101])
  obtain ⟨hsum, -, -, htr⟩ := (capture_exact (by decide) hrun).2 hended
  exact ⟨C, hrun, hended, hsum.trans (by decide), htr.mpr (by decide)⟩

end

end CommandApi
