import CommandApi.Config.Resolve
import CommandApi.Process.Program
import CommandApi.Store.Events

/-!
# The worker

The process that `run_task` starts: `run_worker` and `build_script_command` of `src/process/mod.rs`.
It reads one line from its standard input, which is the `WorkerSpec` as JSON, and starts the script;
what comes after that line is for a second thread, which waits for `terminate` or the end.

`runWorker` is what the worker has made of the bytes that have arrived, so what it does while more
of them arrive is `runWorker` on longer and longer lists.  `runWorker_line` and `runWorker_part` say
what that is for a line of `run_task`, whatever is in it: all of it is read, and nothing of it is
left for the second thread.
-/

set_option autoImplicit false

namespace CommandApi

open Text Std

/-! ## The message -/

/-- `WorkerSpec` as the two processes have it.  A path is its text here, not its components. -/
structure WorkerMessage where
  executor : Executor
  program : String
  script : String
  fixedArgs : List String
  requestArgs : List String
  workingDirectory : String
  env : ExtTreeMap String String compare
  gracefulShutdownSeconds : UInt64

/-- The texts of the paths of a specification. -/
structure Spelling where
  program : Path → String
  script : Path → String
  workingDirectory : Path → String

def WorkerSpec.message (spelling : Spelling) (spec : WorkerSpec) : WorkerMessage where
  executor := spec.executor
  program := spelling.program spec.program
  script := spelling.script spec.script
  fixedArgs := spec.fixedArgs
  requestArgs := spec.requestArgs
  workingDirectory := spelling.workingDirectory spec.workingDirectory
  env := .ofList spec.env compare
  gracefulShutdownSeconds := .ofNat spec.gracefulShutdownSeconds

/-! ## JSON -/

def Executor.name : Executor → String
  | sh => "sh"
  | bash => "bash"
  | zsh => "zsh"
  | pwsh => "pwsh"
  | powershell => "powershell"
  | cmd => "cmd"

def Executor.all : List Executor := [.sh, .bash, .zsh, .pwsh, .powershell, .cmd]

def readUInt64 : Json → Option UInt64
  | .num n => if 0 ≤ n ∧ n < 2 ^ 64 then some (.ofNat n.toNat) else none
  | _ => none

def readStrings : Json → Option (List String)
  | .arr items => items.mapM readString
  | _ => none

/-- A map; the last of several entries with one key counts. -/
def readMap : Json → Option (ExtTreeMap String String compare)
  | .obj fields => (fields.mapM fun f ↦ (readString f.2).map fun value ↦ (f.1, value)).map
      fun entries ↦ .ofList entries compare
  | _ => none

theorem readEnum_executor (e : Executor) :
    readEnum Executor.all Executor.name (.str e.name) = some e := by
  cases e <;> decide

theorem readUInt64_toNat (n : UInt64) : readUInt64 (.num n.toNat) = some n := by
  have hlt : n.toNat < 2 ^ 64 := n.toNat_lt
  rw [readUInt64, if_pos ⟨by omega, by exact_mod_cast hlt⟩, Int.toNat_natCast, UInt64.ofNat_toNat]

/-- What is written one by one is read one by one. -/
theorem mapM_map_of {α β : Type} (write : α → β) (read : β → Option α)
    (h : ∀ a, read (write a) = some a) (l : List α) : (l.map write).mapM read = some l := by
  induction l with
  | nil => rfl
  | cons a rest ih =>
    rw [List.map_cons, List.mapM_cons, h, ih]
    rfl

theorem readStrings_arr (texts : List String) :
    readStrings (.arr (texts.map .str)) = some texts :=
  mapM_map_of Json.str readString (fun _ ↦ rfl) texts

/-- A map is given by its entries. -/
theorem ofList_toList (m : ExtTreeMap String String compare) :
    ExtTreeMap.ofList m.toList compare = m := by
  refine ExtTreeMap.ext_getElem? fun k ↦ ?_
  cases h : m[k]? with
  | some v =>
    rw [← ExtTreeMap.mem_toList_iff_getElem?_eq_some] at h
    exact ExtTreeMap.getElem?_ofList_of_mem (by simp) m.distinct_keys_toList h
  | none =>
    refine ExtTreeMap.getElem?_ofList_of_contains_eq_false ?_
    rw [ExtTreeMap.map_fst_toList_eq_keys, ExtTreeMap.contains_keys]
    rw [ExtTreeMap.contains_eq_isSome_getElem?, h]
    rfl

theorem readMap_obj (m : ExtTreeMap String String compare) :
    readMap (.obj (m.toList.map fun e ↦ (e.1, .str e.2))) = some m := by
  have hentries := mapM_map_of (fun e : String × String ↦ (e.1, Json.str e.2))
    (fun f ↦ (readString f.2).map fun value ↦ (f.1, value)) (fun _ ↦ rfl) m.toList
  rw [readMap, hentries, Option.map_some, ofList_toList]

namespace WorkerMessage

def toJson (m : WorkerMessage) : Json :=
  .obj [("executor", .str m.executor.name), ("program", .str m.program), ("script", .str m.script),
    ("fixed_args", .arr (m.fixedArgs.map .str)), ("request_args", .arr (m.requestArgs.map .str)),
    ("working_directory", .str m.workingDirectory),
    ("env", .obj (m.env.toList.map fun e ↦ (e.1, .str e.2))),
    ("graceful_shutdown_seconds", .num m.gracefulShutdownSeconds.toNat)]

def fromJson : Json → Option WorkerMessage
  | .obj fs => do
    let executor ← readField fs "executor" (readEnum Executor.all Executor.name)
    let program ← readField fs "program" readString
    let script ← readField fs "script" readString
    let fixedArgs ← readField fs "fixed_args" readStrings
    let requestArgs ← readField fs "request_args" readStrings
    let workingDirectory ← readField fs "working_directory" readString
    let env ← readField fs "env" readMap
    let gracefulShutdownSeconds ← readField fs "graceful_shutdown_seconds" readUInt64
    return { executor, program, script, fixedArgs, requestArgs, workingDirectory, env,
             gracefulShutdownSeconds }
  | _ => none

theorem fromJson_toJson (m : WorkerMessage) : fromJson m.toJson = some m := by
  obtain ⟨executor, program, script, fixedArgs, requestArgs, workingDirectory, env, seconds⟩ := m
  rw [toJson, fromJson]
  rw [readField_of (by simp; rfl), readEnum_executor, readField_of (by simp; rfl),
    readField_of (by simp; rfl), readField_of (by simp; rfl), readStrings_arr,
    readField_of (by simp; rfl), readStrings_arr, readField_of (by simp; rfl),
    readField_of (by simp; rfl), readMap_obj, readField_of (by simp; rfl), readUInt64_toNat]
  rfl

theorem keyed_toJson (m : WorkerMessage) : m.toJson.Keyed := Json.keyed_obj rfl (by decide) _ _

end WorkerMessage

/-- The line format of the message. -/
def workerCodec : LineCodec WorkerMessage :=
  .ofJson WorkerMessage.toJson WorkerMessage.fromJson WorkerMessage.fromJson_toJson
    WorkerMessage.keyed_toJson

/-! ## The standard input -/

/-- The first line, with its newline, and what follows it. -/
def splitLine : List UInt8 → Option (List UInt8 × List UInt8)
  | [] => none
  | b :: bs => if b = 10 then some ([10], bs) else (splitLine bs).map fun p ↦ (b :: p.1, p.2)

/-- `read_line`, when these bytes have arrived and the stream may have ended.  Without a line it
waits. -/
def readLine (ended : Bool) (bytes : List UInt8) : Option (List UInt8 × List UInt8) :=
  match splitLine bytes with
  | some p => some p
  | none => if ended then some (bytes, []) else none

/-- `str::trim_end`. -/
def trimEnd (cs : List Char) : List Char := cs.rdropWhile whiteSpace

/-- `str::trim`. -/
def trim (cs : List Char) : List Char := trimEnd (cs.dropWhile whiteSpace)

/-- What the worker has made of its standard input.  `rest` is for the control thread. -/
inductive WorkerStart
  | waiting
  | failed (error : String)
  | started (spec : WorkerMessage) (rest : List UInt8)

/-- `run_worker`, until the script is started; the text of `serde_json`'s error is left out. -/
def runWorker (ended : Bool) (bytes : List UInt8) : WorkerStart :=
  match readLine ended bytes with
  | none => .waiting
  | some (initial, rest) =>
    if initial = [] then .failed "未收到 Worker 初始化消息"
    else match decodeUtf8 initial with
      | none => .failed "stream did not contain valid UTF-8"
      | some cs => match workerCodec.parse (trimEnd cs) with
        | none => .failed "Worker 初始化消息无效"
        | some spec => .started spec rest

/-- The line is the message, or it cannot be read. -/
def isTerminate (raw : List UInt8) : Bool :=
  match decodeUtf8 raw with
  | none => true
  | some cs => trim cs = "terminate".toList

/-- The loop of the control thread on these lines: has it set `stop_requested`? -/
def controlThread (ended : Bool) : List (List UInt8) → Bool
  | [] => ended
  | raw :: rest =>
    if raw.getLast? ≠ some 10 ∧ ended = false then false
    else isTerminate raw || controlThread ended rest

/-- … on these bytes. -/
def stopRequested (ended : Bool) (bytes : List UInt8) : Bool := controlThread ended (rawLines bytes)

/-- What `stop_process` writes. -/
def terminateLine : List UInt8 := encodeUtf8 "terminate".toList ++ [10]

/-! ## The script -/

inductive Stdio
  | null
  | inherit
  deriving DecidableEq, Repr

/-- A `std::process::Command`. -/
structure ScriptCommand where
  program : String
  args : List String
  currentDir : String
  envs : List (String × String)
  stdin : Stdio
  stdout : Stdio
  stderr : Stdio
  deriving DecidableEq, Repr

def buildScriptCommand (spec : WorkerMessage) : ScriptCommand where
  program := spec.program
  args := spec.executor.launcherArgs ++ [spec.script] ++ spec.fixedArgs ++ spec.requestArgs
  currentDir := spec.workingDirectory
  envs := spec.env.toList
  stdin := .null
  stdout := .inherit
  stderr := .inherit

/-! ## What is read -/

section

variable {b bytes : List UInt8} {m spec : WorkerMessage} {ended : Bool}

theorem splitLine_append (hb : 10 ∉ b) (t : List UInt8) :
    splitLine (b ++ 10 :: t) = some (b ++ [10], t) := by
  induction b with
  | nil => rfl
  | cons x b ih =>
    rw [List.mem_cons, not_or] at hb
    rw [List.cons_append, splitLine, if_neg (Ne.symm hb.1), ih hb.2]
    rfl

theorem splitLine_none (hb : 10 ∉ b) : splitLine b = none := by
  induction b with
  | nil => rfl
  | cons x b ih =>
    rw [List.mem_cons, not_or] at hb
    rw [splitLine, if_neg (Ne.symm hb.1), ih hb.2]
    rfl

/-- The text of a message ends in a brace. -/
theorem trimEnd_print (m : WorkerMessage) :
    trimEnd (workerCodec.print m) = workerCodec.print m := by
  rw [trimEnd, List.rdropWhile_eq_self_iff]
  intro hne
  have hlast := m.keyed_toJson.last
  have hget : (workerCodec.print m).getLast hne = '}' :=
    Option.some.inj ((List.getLast?_eq_some_getLast hne).symm.trans hlast)
  rw [hget]
  decide

/-- **A line is read back**, whatever is in it, and what follows it is left. -/
theorem runWorker_line (ended : Bool) (m : WorkerMessage) (rest : List UInt8) :
    runWorker ended (workerCodec.line m ++ rest) = .started m rest := by
  have hline : workerCodec.line m = encodeUtf8 (workerCodec.print m ++ ['\n']) := by
    rw [encodeUtf8_append]
    rfl
  have hread : readLine ended (workerCodec.line m ++ rest) = some (workerCodec.line m, rest) := by
    rw [readLine, LineCodec.line, List.append_assoc, List.singleton_append,
      splitLine_append (LineCodec.newline_notMem_print m)]
  have hne : workerCodec.line m ≠ [] := by simp [LineCodec.line]
  have htrim : trimEnd (workerCodec.print m ++ ['\n']) = workerCodec.print m := by
    rw [trimEnd, List.rdropWhile_concat_pos _ _ _ (by decide)]
    exact trimEnd_print m
  simp only [runWorker, hread]
  rw [if_neg hne, hline, decodeUtf8_encodeUtf8]
  simp only [htrim, workerCodec.parse_print]

/-- A text that is only the beginning of a message is not one. -/
theorem parse_part {cs : List Char} (hcs : cs <+: workerCodec.print m)
    (h : workerCodec.parse cs = some spec) : spec = m ∧ cs = workerCodec.print m := by
  by_cases hne : cs = []
  · subst hne
    have hnone := workerCodec.parse_pieces [] spec (by simp) (by simpa using h)
    cases hnone
  · have hone := workerCodec.parse_pieces [(m, cs)] spec (by simpa using ⟨hne, hcs⟩)
      (by simpa using h)
    obtain ⟨rfl, rfl⟩ : m = spec ∧ cs = workerCodec.print spec := by simpa using hone
    exact ⟨rfl, rfl⟩

/-- **Of a line that has not arrived in full**, the worker makes nothing, unless only the newline is
missing. -/
theorem runWorker_part (hb : bytes <+: encodeUtf8 (workerCodec.print m)) {rest : List UInt8}
    (h : runWorker ended bytes = .started spec rest) :
    spec = m ∧ rest = [] ∧ ended = true ∧ bytes = encodeUtf8 (workerCodec.print m) := by
  have hnl : 10 ∉ bytes := LineCodec.newline_notMem_of_part hb
  rw [runWorker, readLine, splitLine_none hnl] at h
  cases ended with
  | false => cases h
  | true =>
    simp only [if_true] at h
    split at h
    · cases h
    · cases hd : decodeUtf8 bytes with
      | none => rw [hd] at h; cases h
      | some cs =>
        obtain rfl := decodeUtf8_eq_some_iff.mp hd
        obtain ⟨t, ht⟩ := hb
        have hcs : cs <+: workerCodec.print m := prefix_of_encodeUtf8_append ht
        have htrim : trimEnd cs <+: cs := List.rdropWhile_prefix ..
        simp only [hd] at h
        cases hp : workerCodec.parse (trimEnd cs) with
        | none => rw [hp] at h; cases h
        | some found =>
          rw [hp] at h
          cases h
          obtain ⟨rfl, hall⟩ := parse_part (htrim.trans hcs) hp
          rw [hall] at htrim
          exact ⟨rfl, rfl, rfl, by rw [hcs.eq_of_length_le htrim.length_le]⟩

/-- The control thread waits for the whole message, or for the end. -/
theorem stopRequested_eq (hb : bytes <+: terminateLine) :
    stopRequested ended bytes = (ended || decide (bytes = terminateLine)) := by
  have hall : ∀ e, ∀ part ∈ terminateLine.inits,
      stopRequested e part = (e || decide (part = terminateLine)) := by
    decide +kernel
  exact hall ended bytes ((List.mem_inits _ _).mpr hb)

end

end CommandApi
