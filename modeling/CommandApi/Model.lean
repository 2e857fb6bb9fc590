import Mathlib

/-!
# The task model

The data the rest of the development moves around: the status of a task, the reason it was
stopped, the snapshot that is written to the event log and shown to clients, and the view built
from it.  This is `src/model.rs`, with the enumerations of `src/config.rs` that a snapshot
mentions.

Times are the RFC 3339 texts the program stores.  Nothing here parses them; the one function that
has to (`elapsedMs`) takes the parser as an argument, because it belongs to the `time` crate.
-/

set_option autoImplicit false

namespace CommandApi

/-- A task identifier: 128 bits. -/
abbrev Uuid := BitVec 128

inductive TaskStatus
  | starting
  | running
  | stopping
  | succeeded
  | failed
  | timedOut
  | cancelled
  | killed
  | interrupted
  deriving DecidableEq, Repr

namespace TaskStatus

def isFinished : TaskStatus → Bool
  | succeeded | failed | timedOut | cancelled | killed | interrupted => true
  | starting | running | stopping => false

/-- How far along `starting`, `running`, `stopping`, terminal a status is. -/
def rank : TaskStatus → ℕ
  | starting => 0
  | running => 1
  | stopping => 2
  | succeeded | failed | timedOut | cancelled | killed | interrupted => 3

end TaskStatus

inductive OutputMode
  | separate
  | combined
  deriving DecidableEq, Repr

inductive OutputEncoding
  | utf8
  | gbk
  | utf16le
  deriving DecidableEq, Repr

def OutputEncoding.label : OutputEncoding → String
  | utf8 => "utf-8"
  | gbk => "gbk"
  | utf16le => "utf-16le"

inductive StopReason
  | timeout
  | cancelled
  | forceKilled
  | serverShutdown
  | serverRestart
  | parentExited
  | loggingFailure
  deriving DecidableEq, Repr

/-- The record of how a task was stopped. -/
structure Termination where
  reason : StopReason
  gracefulAttempted : Bool
  forced : Bool
  method : String
  signal : Option String
  message : Option String
  deriving DecidableEq, Repr

/-- What is known about a task: one event of its log, and what a client is shown. -/
structure TaskSnapshot where
  taskId : Uuid
  route : String
  status : TaskStatus
  outputMode : OutputMode
  outputEncoding : OutputEncoding
  createdAt : String
  startedAt : Option String
  finishedAt : Option String
  exitCode : Option Int32
  termination : Option Termination
  error : Option String
  outputTruncated : Bool
  deriving DecidableEq, Repr

/-- The snapshot `TaskStore::create` starts a task with. -/
def TaskSnapshot.created (id : Uuid) (route : String) (mode : OutputMode)
    (encoding : OutputEncoding) (now : String) : TaskSnapshot where
  taskId := id
  route
  status := .starting
  outputMode := mode
  outputEncoding := encoding
  createdAt := now
  startedAt := none
  finishedAt := none
  exitCode := none
  termination := none
  error := none
  outputTruncated := false

structure OutputSizes where
  stdout : Option ℕ
  stderr : Option ℕ
  combined : Option ℕ
  deriving DecidableEq, Repr

structure TaskLinks where
  status : String
  stdout : Option String
  stderr : Option String
  combined : Option String
  cancel : String
  kill : String
  deriving DecidableEq, Repr

/-- The answer to `GET /tasks/{id}`. -/
structure TaskView where
  success : Bool
  task : TaskSnapshot
  durationMs : ℕ
  outputBytes : OutputSizes
  links : TaskLinks
  deriving DecidableEq, Repr

inductive OutputStream
  | stdout
  | stderr
  | combined
  deriving DecidableEq, Repr

def OutputStream.fileName : OutputStream → String
  | stdout => "stdout.log"
  | stderr => "stderr.log"
  | combined => "output.log"

/-- The answer to `GET /tasks/{id}/output`. -/
structure OutputChunk where
  success : Bool
  taskId : Uuid
  stream : OutputStream
  encoding : String
  offset : ℕ
  nextOffset : ℕ
  eof : Bool
  content : String
  decodingErrors : Bool
  contentBase64 : Option String
  deriving DecidableEq, Repr

/-- How a process ended: with a code, or — on Unix — by a signal. -/
inductive ExitStatus
  | exited (code : Int32)
  | signaled (signal : ℕ)
  deriving DecidableEq, Repr

namespace ExitStatus

def code : ExitStatus → Option Int32
  | exited c => some c
  | signaled _ => none

def success (s : ExitStatus) : Bool := s.code == some 0

end ExitStatus

/-- The streams whose pipes are opened for an output mode, in the order they are read. -/
def OutputMode.streams : OutputMode → List OutputStream
  | separate => [.stdout, .stderr]
  | combined => [.combined]

/-- `elapsed_ms`: whole milliseconds from `start` to `stop`, or to now while there is no end.
`parse` reads an RFC 3339 text as nanoseconds; a start that does not parse counts as zero. -/
def elapsedMs (parse : String → Option ℤ) (now : ℤ) (start : String) (stop : Option String) : ℕ :=
  match parse start with
  | none => 0
  | some t => (((stop.bind parse).getD now - t).tdiv 1000000).toNat

end CommandApi
