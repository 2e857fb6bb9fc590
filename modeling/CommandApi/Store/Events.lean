import CommandApi.Model
import CommandApi.Text.LineLog

/-!
# The events of a task

`events.jsonl` holds one snapshot a line, written and read by `serde_json` through the derived
`Serialize` and `Deserialize` of `src/model.rs`.  Here are these two: the fields in the order of the
structure, an absent option left out, an enumeration as its `snake_case` name, an identifier in its
hyphenated form.  `snapshotCodec` is the resulting line format; that a snapshot reads back as itself
is `TaskSnapshot.fromJson_toJson`.

A field the reader does not know is ignored, a field that comes twice is an error, and an option may
be absent or `null`.
-/

set_option autoImplicit false

namespace CommandApi

open Text

/-! ## Fields of an object -/

/-- A field that is left out when there is no value. -/
def optField {α : Type} (key : String) (write : α → Json) (value : Option α) :
    List (String × Json) :=
  value.toList.map fun a ↦ (key, write a)

/-- The values of the fields with this key. -/
def fieldValues (fields : List (String × Json)) (key : String) : List Json :=
  (fields.filter fun f ↦ f.1 = key).map Prod.snd

/-- A field that has to be there. -/
def readField {α : Type} (fields : List (String × Json)) (key : String) (read : Json → Option α) :
    Option α :=
  match fieldValues fields key with
  | [j] => read j
  | _ => none

/-- A field that may be absent. -/
def readOptField {α : Type} (fields : List (String × Json)) (key : String)
    (read : Json → Option α) : Option (Option α) :=
  match fieldValues fields key with
  | [] => some none
  | [.null] => some none
  | [j] => (read j).map some
  | _ => none

@[simp] theorem fieldValues_nil (key : String) : fieldValues [] key = [] := rfl

@[simp] theorem fieldValues_cons (k key : String) (j : Json) (fs : List (String × Json)) :
    fieldValues ((k, j) :: fs) key =
      if k = key then j :: fieldValues fs key else fieldValues fs key := by
  by_cases h : k = key <;> simp [fieldValues, h]

@[simp] theorem fieldValues_append (fs gs : List (String × Json)) (key : String) :
    fieldValues (fs ++ gs) key = fieldValues fs key ++ fieldValues gs key := by
  simp [fieldValues]

@[simp] theorem fieldValues_optField {α : Type} (k key : String) (write : α → Json)
    (value : Option α) : fieldValues (optField k write value) key =
      if k = key then value.toList.map write else [] := by
  cases value <;> simp [optField]

theorem readField_of {α : Type} {fields : List (String × Json)} {key : String}
    {read : Json → Option α} {j : Json} (h : fieldValues fields key = [j]) :
    readField fields key read = read j := by
  rw [readField, h]

theorem readOptField_of {α : Type} {fields : List (String × Json)} {key : String}
    {read : Json → Option α} (write : α → Json) (value : Option α)
    (h : fieldValues fields key = value.toList.map write) (hn : ∀ a, write a ≠ .null)
    (hr : ∀ a, read (write a) = some a) : readOptField fields key read = some value := by
  rw [readOptField, h]
  cases value with
  | none => rfl
  | some a =>
    have ha := hr a
    cases hw : write a <;> simp_all

/-! ## Values -/

def readString : Json → Option String
  | .str s => some s
  | _ => none

def readBool : Json → Option Bool
  | .bool b => some b
  | _ => none

def readInt32 : Json → Option Int32
  | .num n => if -2 ^ 31 ≤ n ∧ n < 2 ^ 31 then some (Int32.ofInt n) else none
  | _ => none

/-- A value of an enumeration, by its name. -/
def readEnum {α : Type} (all : List α) (name : α → String) : Json → Option α
  | .str s => all.find? fun a ↦ name a = s
  | _ => none

theorem readInt32_toInt (c : Int32) : readInt32 (.num c.toInt) = some c := by
  have h1 := Int32.le_toInt c
  have h2 := Int32.toInt_lt c
  rw [readInt32, if_pos ⟨by omega, by omega⟩, Int32.ofInt_toInt]

def TaskStatus.name : TaskStatus → String
  | starting => "starting"
  | running => "running"
  | stopping => "stopping"
  | succeeded => "succeeded"
  | failed => "failed"
  | timedOut => "timed_out"
  | cancelled => "cancelled"
  | killed => "killed"
  | interrupted => "interrupted"

def TaskStatus.all : List TaskStatus :=
  [.starting, .running, .stopping, .succeeded, .failed, .timedOut, .cancelled, .killed,
    .interrupted]

def OutputMode.name : OutputMode → String
  | separate => "separate"
  | combined => "combined"

/-- The names an encoding is read under: its own, and its aliases. -/
def readEncoding : Json → Option OutputEncoding
  | .str s =>
    if s = "utf-8" ∨ s = "utf8" then some .utf8
    else if s = "gbk" then some .gbk
    else if s = "utf-16le" ∨ s = "utf16le" then some .utf16le
    else none
  | _ => none

def StopReason.name : StopReason → String
  | timeout => "timeout"
  | cancelled => "cancelled"
  | forceKilled => "force_killed"
  | serverShutdown => "server_shutdown"
  | serverRestart => "server_restart"
  | parentExited => "parent_exited"
  | loggingFailure => "logging_failure"

def StopReason.all : List StopReason :=
  [.timeout, .cancelled, .forceKilled, .serverShutdown, .serverRestart, .parentExited,
    .loggingFailure]

theorem readEnum_status (s : TaskStatus) :
    readEnum TaskStatus.all TaskStatus.name (.str s.name) = some s := by
  cases s <;> decide

theorem readEnum_mode (m : OutputMode) :
    readEnum [.separate, .combined] OutputMode.name (.str m.name) = some m := by
  cases m <;> decide

theorem readEnum_reason (r : StopReason) :
    readEnum StopReason.all StopReason.name (.str r.name) = some r := by
  cases r <;> decide

theorem readEncoding_label (e : OutputEncoding) : readEncoding (.str e.label) = some e := by
  cases e <;> decide

/-! ## Identifiers -/

/-- The last `width` hexadecimal digits of a number. -/
def hexDigits : ℕ → ℕ → List Char
  | 0, _ => []
  | width + 1, n => hexDigits width (n / 16) ++ [(n % 16).digitChar]

def readHex (cs : List Char) : Option ℕ :=
  cs.foldlM (fun n c ↦ (Json.hexDigit? c).map (16 * n + ·)) 0

/-- Put a hyphen behind each group of these lengths. -/
def hyphenate : List ℕ → List Char → List Char
  | [], cs => cs
  | g :: gs, cs => cs.take g ++ '-' :: hyphenate gs (cs.drop g)

def unhyphenate : List ℕ → List Char → Option (List Char)
  | [], cs => some cs
  | g :: gs, cs => match cs.drop g with
    | '-' :: rest => (unhyphenate gs rest).map (cs.take g ++ ·)
    | _ => none

/-- The hyphenated form of an identifier. -/
def Uuid.text (id : Uuid) : String :=
  String.ofList (hyphenate [8, 4, 4, 4] (hexDigits 32 id.toNat))

def readUuid : Json → Option Uuid
  | .str s => (unhyphenate [8, 4, 4, 4] s.toList).bind fun cs ↦
    if cs.length = 32 then (readHex cs).map (BitVec.ofNat 128) else none
  | _ => none

theorem length_hexDigits (width n : ℕ) : (hexDigits width n).length = width := by
  induction width generalizing n with
  | zero => rfl
  | succ width ih => rw [hexDigits, List.length_append, ih, List.length_singleton]

theorem readHex_concat {cs : List Char} {c : Char} {n d : ℕ} (hn : readHex cs = some n)
    (hd : Json.hexDigit? c = some d) : readHex (cs ++ [c]) = some (16 * n + d) := by
  rw [readHex] at hn
  simp [readHex, List.foldlM_append, hn, hd]

theorem readHex_hexDigits (width n : ℕ) : readHex (hexDigits width n) = some (n % 16 ^ width) := by
  induction width generalizing n with
  | zero => simp [hexDigits, readHex, Nat.mod_one]
  | succ width ih =>
    have hd := Json.hexDigit?_digitChar (n % 16) (Nat.mod_lt n (by decide))
    rw [hexDigits, readHex_concat (ih (n / 16)) hd, Nat.pow_succ', Nat.mod_mul, Nat.add_comm]

theorem unhyphenate_hyphenate (gs : List ℕ) (cs : List Char) (h : gs.sum ≤ cs.length) :
    unhyphenate gs (hyphenate gs cs) = some cs := by
  induction gs generalizing cs with
  | nil => rfl
  | cons g gs ih =>
    rw [List.sum_cons] at h
    have hg : (cs.take g).length = g := by rw [List.length_take]; omega
    rw [hyphenate, unhyphenate, List.drop_left' hg]
    simp only
    rw [ih _ (by rw [List.length_drop]; omega), List.take_left' hg, Option.map_some,
      List.take_append_drop]

theorem readUuid_text (id : Uuid) : readUuid (.str id.text) = some id := by
  have hlen : (hexDigits 32 id.toNat).length = 32 := length_hexDigits 32 _
  have hlt : id.toNat < 16 ^ 32 := lt_of_lt_of_eq id.isLt (by norm_num)
  have hsum : [8, 4, 4, 4].sum ≤ (hexDigits 32 id.toNat).length := by rw [hlen]; decide
  rw [readUuid, Uuid.text, String.toList_ofList, unhyphenate_hyphenate _ _ hsum, Option.bind_some,
    if_pos hlen, readHex_hexDigits, Nat.mod_eq_of_lt hlt, Option.map_some, BitVec.ofNat_toNat,
    BitVec.setWidth_eq]

/-! ## Snapshots -/

namespace Termination

def toJson (t : Termination) : Json :=
  .obj (("reason", .str t.reason.name) :: ("graceful_attempted", .bool t.gracefulAttempted) ::
    ("forced", .bool t.forced) :: ("method", .str t.method) ::
    (optField "signal" .str t.signal ++ optField "message" .str t.message))

def fromJson : Json → Option Termination
  | .obj fs => do
    let reason ← readField fs "reason" (readEnum StopReason.all StopReason.name)
    let gracefulAttempted ← readField fs "graceful_attempted" readBool
    let forced ← readField fs "forced" readBool
    let method ← readField fs "method" readString
    let signal ← readOptField fs "signal" readString
    let message ← readOptField fs "message" readString
    return { reason, gracefulAttempted, forced, method, signal, message }
  | _ => none

theorem fromJson_toJson (t : Termination) : fromJson t.toJson = some t := by
  obtain ⟨reason, gracefulAttempted, forced, method, signal, message⟩ := t
  rw [toJson, fromJson]
  rw [readField_of (by simp; rfl), readEnum_reason, readField_of (by simp; rfl),
    readField_of (by simp; rfl), readField_of (by simp; rfl),
    readOptField_of .str signal (by simp) (by simp) (fun _ ↦ rfl),
    readOptField_of .str message (by simp) (by simp) (fun _ ↦ rfl)]
  rfl

end Termination

namespace TaskSnapshot

def toJson (s : TaskSnapshot) : Json :=
  .obj (("task_id", .str s.taskId.text) :: ("route", .str s.route) ::
    ("status", .str s.status.name) :: ("output_mode", .str s.outputMode.name) ::
    ("output_encoding", .str s.outputEncoding.label) :: ("created_at", .str s.createdAt) ::
    (optField "started_at" .str s.startedAt ++ optField "finished_at" .str s.finishedAt ++
      optField "exit_code" (fun c ↦ .num (Int32.toInt c)) s.exitCode ++
      optField "termination" Termination.toJson s.termination ++ optField "error" .str s.error ++
      [("output_truncated", .bool s.outputTruncated)]))

def fromJson : Json → Option TaskSnapshot
  | .obj fs => do
    let taskId ← readField fs "task_id" readUuid
    let route ← readField fs "route" readString
    let status ← readField fs "status" (readEnum TaskStatus.all TaskStatus.name)
    let outputMode ← readField fs "output_mode" (readEnum [.separate, .combined] OutputMode.name)
    let outputEncoding ← readField fs "output_encoding" readEncoding
    let createdAt ← readField fs "created_at" readString
    let startedAt ← readOptField fs "started_at" readString
    let finishedAt ← readOptField fs "finished_at" readString
    let exitCode ← readOptField fs "exit_code" readInt32
    let termination ← readOptField fs "termination" Termination.fromJson
    let error ← readOptField fs "error" readString
    let outputTruncated ← readField fs "output_truncated" readBool
    return { taskId, route, status, outputMode, outputEncoding, createdAt, startedAt, finishedAt,
             exitCode, termination, error, outputTruncated }
  | _ => none

theorem fromJson_toJson (s : TaskSnapshot) : fromJson s.toJson = some s := by
  obtain ⟨taskId, route, status, outputMode, outputEncoding, createdAt, startedAt, finishedAt,
    exitCode, termination, error, outputTruncated⟩ := s
  rw [toJson, fromJson]
  rw [readField_of (by simp; rfl), readUuid_text, readField_of (by simp; rfl),
    readField_of (by simp; rfl), readEnum_status, readField_of (by simp; rfl), readEnum_mode,
    readField_of (by simp; rfl), readEncoding_label, readField_of (by simp; rfl),
    readOptField_of .str startedAt (by simp) (by simp) (fun _ ↦ rfl),
    readOptField_of .str finishedAt (by simp) (by simp) (fun _ ↦ rfl),
    readOptField_of (fun c ↦ .num (Int32.toInt c)) exitCode (by simp) (by simp) readInt32_toInt,
    readOptField_of Termination.toJson termination (by simp) (by simp [Termination.toJson])
      Termination.fromJson_toJson,
    readOptField_of .str error (by simp) (by simp) (fun _ ↦ rfl), readField_of (by simp; rfl)]
  rfl

theorem keyed_toJson (s : TaskSnapshot) : s.toJson.Keyed :=
  Json.keyed_obj rfl (by decide) _ _

end TaskSnapshot

/-- The line format of `events.jsonl`. -/
def snapshotCodec : LineCodec TaskSnapshot :=
  .ofJson TaskSnapshot.toJson TaskSnapshot.fromJson TaskSnapshot.fromJson_toJson
    TaskSnapshot.keyed_toJson

/-- The first event of a task. -/
def exampleTask : TaskSnapshot :=
  .created 1 "/jobs/nightly" .separate .utf8 "2026-01-01T00:00:00Z"

end CommandApi
