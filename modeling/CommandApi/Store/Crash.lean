import CommandApi.Store.Recovery

/-!
# A log that a crash has cut off

A crash may stop `persist` at any byte of the line it is writing.  `ToleratesCrash` says what the
store should make of the file it leaves: the reader ignores the torn line and finds the last event
before it (or the event itself, when only its newline is missing), the directory does not keep the
others from being loaded, and recovering twice shows the same snapshot.

`recover_crashed_iff` says when that is so.  A line that is cut inside a character makes the whole
file unreadable, because `BufRead::lines` fails before the parser sees the line.  And what `recover`
appends lands behind the torn bytes, on the same line, and is lost with them; that shows whenever
the snapshot `recover` has made up, or has found in the torn line, is not the one in front of it.
-/

set_option autoImplicit false

namespace CommandApi

open Text

variable (codec : LineCodec TaskSnapshot)

/-- A task directory whose log has the events `es` and behind them the bytes `p`. -/
def crashedDir (es : List TaskSnapshot) (p : List UInt8)
    (output : OutputStream → Option (List UInt8)) : TaskDir :=
  ⟨some (es.flatMap codec.line ++ p), output⟩

/-- The log with the events `es` and `last`, and behind them the first bytes `p` of the line of `e`,
is read as it should be. -/
structure ToleratesCrash (es : List TaskSnapshot) (last e : TaskSnapshot) (p : List UInt8)
    (output : OutputStream → Option (List UInt8)) : Prop where
  /-- The latest event is found. -/
  latest : readLatestSnapshot codec (crashedDir codec (es ++ [last]) p output) =
    .ok (some (if p = encodeUtf8 (codec.print e) then e else last))
  /-- Every other task is loaded. -/
  loads : ∀ (clock : String → String) (name : String) (disk₁ disk₂ : Disk)
    (rs₁ rs₂ : List (String × TaskRecord)), (recover codec clock disk₁).2 = .ok rs₁ →
      (recover codec clock disk₂).2 = .ok rs₂ →
      ∃ r, (recover codec clock (disk₁ ++
        (name, some (crashedDir codec (es ++ [last]) p output)) :: disk₂)).2 =
          .ok (rs₁ ++ (name, r) :: rs₂)
  /-- Recovering again shows the same snapshot. -/
  idempotent : ∀ (now₁ now₂ : String) (r₁ : TaskRecord) (dir₁ : TaskDir),
    recoverTask codec now₁ (crashedDir codec (es ++ [last]) p output) = .ok (some (r₁, dir₁)) →
      ∃ r₂ dir₂, recoverTask codec now₂ dir₁ = .ok (some (r₂, dir₂)) ∧ r₂.visible = r₁.visible

/-- When a torn log is read as it should be. -/
def CrashSafe (last e : TaskSnapshot) (p : List UInt8) : Prop :=
  (decodeUtf8 p).isSome ∧
    (p = [] ∨
      if p = encodeUtf8 (codec.print e) then
        e.status.isFinished = true ∧ (e.status = .interrupted → last.status.isFinished = true ∧
          { last with outputTruncated := false } = { e with outputTruncated := false })
      else last.status.isFinished = true)

variable {codec}

/-- A strict part of a line is a part of its text. -/
theorem prefix_print_of_torn {e : TaskSnapshot} {p : List UInt8} (hp : p <+: codec.line e)
    (hne : p ≠ codec.line e) : p <+: encodeUtf8 (codec.print e) := by
  rcases List.prefix_concat_iff.mp hp with h | h
  · exact absurd h hne
  · exact h

theorem exists_text_of_torn {e : TaskSnapshot} {p : List UInt8}
    (hp : p <+: encodeUtf8 (codec.print e)) (hd : (decodeUtf8 p).isSome) :
    ∃ cs, p = encodeUtf8 cs ∧ cs <+: codec.print e := by
  obtain ⟨cs, hcs⟩ := Option.isSome_iff_exists.mp hd
  have hp' := decodeUtf8_eq_some_iff.mp hcs
  obtain ⟨t, ht⟩ := hp
  exact ⟨cs, hp', prefix_of_encodeUtf8_append (by rw [← hp', ht])⟩

section

variable {es : List TaskSnapshot} {last e : TaskSnapshot} {p : List UInt8}
  {output : OutputStream → Option (List UInt8)}

/-- What the reader finds in a torn log that it can read. -/
theorem latest_crashed (es : List TaskSnapshot) (last : TaskSnapshot)
    (output : OutputStream → Option (List UInt8)) {cs : List Char} (hcs : cs <+: codec.print e) :
    readLatestSnapshot codec (crashedDir codec (es ++ [last]) (encodeUtf8 cs) output) =
      .ok (some (if encodeUtf8 cs = encodeUtf8 (codec.print e) then e else last)) := by
  rw [crashedDir, readLatestSnapshot_some]
  by_cases h : cs = codec.print e
  · subst h
    rw [LineCodec.readLatest_torn_whole, if_pos rfl]
  · rw [LineCodec.readLatest_torn_part _ hcs h, if_neg fun he ↦ h (encodeUtf8_injective he),
      List.getLast?_concat]

theorem latest_crashed_invalid (hp : p <+: encodeUtf8 (codec.print e)) (hd : decodeUtf8 p = none) :
    readLatestSnapshot codec (crashedDir codec es p output) =
      .error "stream did not contain valid UTF-8" :=
  LineCodec.readLatest_torn_invalid es hp hd

/-- What is appended to a whole log is found. -/
theorem latest_persist_nil (r : TaskRecord) :
    readLatestSnapshot codec ((crashedDir codec es [] output).persist codec r) =
      .ok (some r.visible) := by
  have hlines : es.flatMap codec.line ++ codec.line r.visible =
      (es ++ [r.visible]).flatMap codec.line := by
    rw [List.flatMap_append, List.flatMap_singleton]
  rw [TaskDir.persist, readLatestSnapshot_some, crashedDir, List.append_nil, Option.getD_some,
    hlines, LineCodec.readLatest_lines, List.getLast?_concat]

/-- What is appended to a torn log is lost. -/
theorem latest_persist_torn {cs : List Char} (hcs : cs <+: codec.print e) (hne : cs ≠ [])
    (r : TaskRecord) :
    readLatestSnapshot codec
      ((crashedDir codec (es ++ [last]) (encodeUtf8 cs) output).persist codec r) =
        .ok (some last) := by
  rw [TaskDir.persist, readLatestSnapshot_some, crashedDir]
  exact (LineCodec.readLatest_torn_line _ hcs hne _).trans (by rw [List.getLast?_concat])

end

/-- Recovering twice, in terms of what is read. -/
theorem idempotent_iff {dir : TaskDir} {s : TaskSnapshot}
    (h : readLatestSnapshot codec dir = .ok (some s)) :
    (∀ (now₁ now₂ : String) (r₁ : TaskRecord) (dir₁ : TaskDir),
      recoverTask codec now₁ dir = .ok (some (r₁, dir₁)) →
        ∃ r₂ dir₂, recoverTask codec now₂ dir₁ = .ok (some (r₂, dir₂)) ∧
          r₂.visible = r₁.visible) ↔
      ∀ now₁ now₂, ∃ s₂, readLatestSnapshot codec (recoveredDir codec now₁ dir s) =
        .ok (some s₂) ∧ shown now₂ s₂ = shown now₁ s := by
  constructor
  · intro hi now₁ now₂
    obtain ⟨r₂, dir₂, hr₂, hv⟩ := hi now₁ now₂ _ _ (recoverTask_of_ok h)
    obtain ⟨s₂, hs₂, rfl, -⟩ := recoverTask_inv hr₂
    exact ⟨s₂, hs₂, hv⟩
  · intro hi now₁ now₂ r₁ dir₁ hr₁
    obtain ⟨s', hs', rfl, rfl⟩ := recoverTask_inv hr₁
    obtain rfl : s = s' := by simpa [h] using hs'
    obtain ⟨s₂, hs₂, hv⟩ := hi now₁ now₂
    exact ⟨_, _, recoverTask_of_ok hs₂, hv⟩

theorem recoveredDir_of_not {now : String} {dir : TaskDir} {s : TaskSnapshot}
    (hf : s.status.isFinished = true) (hi : s.status ≠ .interrupted) :
    recoveredDir codec now dir s = dir := by
  rw [recoveredDir, interruptUnfinished_of_isFinished hf, if_neg hi]

theorem recoveredDir_of_interrupted {now : String} {dir : TaskDir} {s : TaskSnapshot}
    (h : s.status.isFinished = false ∨ s.status = .interrupted) :
    recoveredDir codec now dir s = dir.persist codec (recoverRecord now dir s) := by
  rw [recoveredDir, if_pos]
  rcases h with h | h
  · exact interruptUnfinished_status_of_not h now
  · rw [interruptUnfinished_of_isFinished (by rw [h]; rfl), h]

/-- A snapshot whose status keeps `recover` from writing, or makes it write. -/
theorem finished_or_written (s : TaskSnapshot) :
    (s.status.isFinished = true ∧ s.status ≠ .interrupted) ∨
      s.status.isFinished = false ∨ s.status = .interrupted := by
  cases h : s.status <;> simp [TaskStatus.isFinished]

/-- What recovering again finds, when the latest snapshot is `s`. -/
def Rereads (codec : LineCodec TaskSnapshot) (dir : TaskDir) (s : TaskSnapshot) : Prop :=
  ∀ now₁ now₂, ∃ s₂, readLatestSnapshot codec (recoveredDir codec now₁ dir s) = .ok (some s₂) ∧
    shown now₂ s₂ = shown now₁ s

theorem rereads_of_not_written {dir : TaskDir} {s : TaskSnapshot}
    (h : readLatestSnapshot codec dir = .ok (some s)) (hf : s.status.isFinished = true)
    (hi : s.status ≠ .interrupted) : Rereads codec dir s := by
  intro now₁ now₂
  refine ⟨s, by rw [recoveredDir_of_not hf hi, h], ?_⟩
  rw [shown_of_isFinished hf, shown_of_isFinished hf]

section

variable {es : List TaskSnapshot} {last e s : TaskSnapshot}
  {output : OutputStream → Option (List UInt8)}

/-- A whole log is recovered for good. -/
theorem rereads_nil : Rereads codec (crashedDir codec (es ++ [last]) [] output) last := by
  rcases finished_or_written last with ⟨hf, hi⟩ | hw
  · refine rereads_of_not_written ?_ hf hi
    have h := latest_crashed es last output (List.nil_prefix (l := codec.print last))
    obtain ⟨t, ht⟩ := LineCodec.encodeUtf8_print_head codec last
    rwa [encodeUtf8_nil, if_neg (by simp [ht])] at h
  · intro now₁ now₂
    refine ⟨shown now₁ last, ?_, shown_shown now₂ now₁ last⟩
    rw [recoveredDir_of_interrupted hw, latest_persist_nil, recoverRecord_visible]

/-- A torn log is recovered for good when nothing is written to it, or nothing is lost by it. -/
theorem rereads_torn_iff {cs : List Char} (hcs : cs <+: codec.print e) (hne : cs ≠ [])
    (h : readLatestSnapshot codec (crashedDir codec (es ++ [last]) (encodeUtf8 cs) output) =
      .ok (some s)) :
    Rereads codec (crashedDir codec (es ++ [last]) (encodeUtf8 cs) output) s ↔
      s.status.isFinished = true ∧ (s.status = .interrupted → last.status.isFinished = true ∧
        { last with outputTruncated := false } = { s with outputTruncated := false }) := by
  rcases finished_or_written s with ⟨hf, hi⟩ | hw
  · exact iff_of_true (rereads_of_not_written h hf hi) ⟨hf, fun h ↦ absurd h hi⟩
  -- the second recovery finds the last whole event
  have hread : Rereads codec (crashedDir codec (es ++ [last]) (encodeUtf8 cs) output) s ↔
      ∀ now₁ now₂, shown now₂ last = shown now₁ s := by
    refine forall_congr' fun now₁ ↦ forall_congr' fun now₂ ↦ ?_
    rw [recoveredDir_of_interrupted hw, latest_persist_torn hcs hne]
    simp
  rw [hread]
  rcases hw with hu | hi
  · refine iff_of_false (fun h ↦ ?_) fun h ↦ absurd h.1 (by simp [hu])
    have h0 := (h "0" "").symm.trans (h "1" "")
    have := congrArg TaskSnapshot.finishedAt h0
    rw [shown_finishedAt_of_not hu, shown_finishedAt_of_not hu] at this
    exact absurd this (by decide)
  · have hf : s.status.isFinished = true := by rw [hi]; rfl
    constructor
    · intro h
      refine ⟨hf, fun _ ↦ ?_⟩
      have hlast : last.status.isFinished = true := by
        by_contra hl
        have hu : last.status.isFinished = false := by simpa using hl
        have h0 := (h "" "0").trans (h "" "1").symm
        have := congrArg TaskSnapshot.finishedAt h0
        rw [shown_finishedAt_of_not hu, shown_finishedAt_of_not hu] at this
        exact absurd this (by decide)
      refine ⟨hlast, ?_⟩
      have h0 := h "" ""
      rwa [shown_of_isFinished hlast, shown_of_isFinished hf] at h0
    · rintro ⟨-, h⟩ now₁ now₂
      obtain ⟨hl, heq⟩ := h hi
      rw [shown_of_isFinished hl, shown_of_isFinished hf, heq]

end

/-- A directory that can be read does not stop the others from being loaded. -/
theorem recover_between {dir : TaskDir} {s : TaskSnapshot}
    (h : readLatestSnapshot codec dir = .ok (some s)) {clock : String → String} (name : String)
    {disk₁ disk₂ : Disk} {rs₁ rs₂ : List (String × TaskRecord)}
    (h₁ : (recover codec clock disk₁).2 = .ok rs₁) (h₂ : (recover codec clock disk₂).2 = .ok rs₂) :
    ∃ r, (recover codec clock (disk₁ ++ (name, some dir) :: disk₂)).2 =
      .ok (rs₁ ++ (name, r) :: rs₂) := by
  refine ⟨recoverRecord (clock name) dir s, recover_append h₁ ?_⟩
  rw [recover_cons_of_ok (recoverEntry_some (recoverTask_of_ok h)), h₂]
  rfl

/-- **When a crash in the middle of a line is tolerated.** -/
theorem recover_crashed_iff (codec : LineCodec TaskSnapshot) (es : List TaskSnapshot)
    (last e : TaskSnapshot) (p : List UInt8) (output : OutputStream → Option (List UInt8))
    (hp : p <+: codec.line e) (hne : p ≠ codec.line e) :
    ToleratesCrash codec es last e p output ↔ CrashSafe codec last e p := by
  have hpre := prefix_print_of_torn hp hne
  by_cases hd : (decodeUtf8 p).isSome
  swap
  · -- a character is cut: the file cannot be read
    have hnone : decodeUtf8 p = none := by simpa using hd
    refine iff_of_false (fun h ↦ ?_) fun h ↦ hd h.1
    have := h.latest
    rw [latest_crashed_invalid hpre hnone] at this
    exact absurd this (by simp)
  obtain ⟨cs, rfl, hcs⟩ := exists_text_of_torn hpre hd
  have hlatest := latest_crashed es last output hcs
  have htol : ToleratesCrash codec es last e (encodeUtf8 cs) output ↔
      Rereads codec (crashedDir codec (es ++ [last]) (encodeUtf8 cs) output)
        (if encodeUtf8 cs = encodeUtf8 (codec.print e) then e else last) := by
    rw [Rereads, ← idempotent_iff hlatest]
    exact ⟨fun h ↦ h.idempotent, fun h ↦
      ⟨hlatest, fun clock name _ _ _ _ h₁ h₂ ↦ recover_between hlatest name h₁ h₂, h⟩⟩
  rw [htol, CrashSafe]
  by_cases h0 : cs = []
  · subst h0
    obtain ⟨t, ht⟩ := LineCodec.encodeUtf8_print_head codec e
    rw [encodeUtf8_nil, if_neg (by simp [ht])]
    exact iff_of_true rereads_nil ⟨hd, .inl rfl⟩
  · have hp0 : encodeUtf8 cs ≠ [] := fun h ↦ h0 (encodeUtf8_eq_nil h)
    rw [rereads_torn_iff hcs h0 hlatest]
    split
    · simp [hp0]
    · simpa [hp0] using fun h _ ↦ h

/-- A crash after one byte of the next event, behind a finished one. -/
theorem recover_crashed_brace :
    ToleratesCrash snapshotCodec [] { exampleTask with status := .succeeded } exampleTask
      (encodeUtf8 ['{']) fun _ ↦ none := by
  refine (recover_crashed_iff _ _ _ _ _ _ ?_ ?_).mpr ⟨by simp, .inr ?_⟩
  · exact ⟨(snapshotCodec.line exampleTask).drop 1, by decide +kernel⟩
  · decide +kernel
  · rw [if_neg (by decide +kernel)]
    rfl

/-- The last event of a task whose script has failed. -/
def exampleFailed : TaskSnapshot :=
  { exampleTask with
    status := .failed
    startedAt := some "2026-01-01T00:00:01Z"
    finishedAt := some "2026-01-01T00:00:09Z"
    exitCode := some 1
    error := some "脚本退出码非零: 1" }

/-- The bytes of its line up to the first byte of the error text. -/
def exampleTorn : List UInt8 := (snapshotCodec.line exampleFailed).take 276

/-- A crash inside of the error text makes the log unreadable. -/
theorem recover_crashed_cut_character :
    exampleTorn <+: snapshotCodec.line exampleFailed ∧
      exampleTorn ≠ snapshotCodec.line exampleFailed ∧
      ¬ ToleratesCrash snapshotCodec [] exampleTask exampleFailed exampleTorn fun _ ↦ none := by
  have hpre : exampleTorn <+: snapshotCodec.line exampleFailed := List.take_prefix _ _
  have hne : exampleTorn ≠ snapshotCodec.line exampleFailed := by decide +kernel
  refine ⟨hpre, hne, fun h ↦ ?_⟩
  have hcut : exampleTorn =
      encodeUtf8 ((snapshotCodec.print exampleFailed).take 275) ++ [0xE8] := by
    decide +kernel
  have hnone : decodeUtf8 exampleTorn = none := by
    rw [hcut]
    exact decodeUtf8_cut (by decide) (by decide) _
  have hlatest := h.latest
  rw [latest_crashed_invalid (prefix_print_of_torn hpre hne) hnone] at hlatest
  exact absurd hlatest (by simp)

end CommandApi
