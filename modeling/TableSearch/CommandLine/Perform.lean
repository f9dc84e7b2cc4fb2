import TableSearch.CommandLine.Arguments
import TableSearch.Header
import TableSearch.ImageFile
import TableSearch.Json.Execution

/-!
# Performing commands

A command reads and writes files and comes to an outcome: the lines that it prints, the records of
what it did, and, where it failed, the reason. Nothing is printed unless the whole command
succeeds. Making an image writes the image before its header.
-/

namespace TableSearch.CommandLine

/-- Why a command failed: what it was doing, and the causes, each behind the one before it. -/
structure Complaint where
  text : String
  causes : List String
  deriving DecidableEq

/-- The text of a complaint. A single cause stands alone, and several are counted from zero. -/
def Complaint.render (c : Complaint) : String :=
  let causes : String := match c.causes with
    | [] => ""
    | [cause] => s!"\n\nCaused by:\n    {cause}"
    | causes => "\n\nCaused by:" ++
        String.join (causes.zipIdx.map fun (cause, index) => s!"\n    {index}: {cause}")
  s!"Error: {c.text}{causes}\n"

/-- What comes of a command. -/
structure Outcome where
  /-- The lines that are printed, in bytes without their ends. -/
  lines : List (List UInt8) := []
  /-- What was done, in order. -/
  log : List LogRecord := []
  complaint? : Option Complaint := none

namespace Outcome

/-- The exit code of the program. -/
def exitCode (o : Outcome) : UInt8 := if o.complaint?.isSome then 1 else 0

/-- The bytes of the lines that are printed. -/
def output (o : Outcome) : List UInt8 := o.lines.flatMap fun line => line ++ [ascii '\n']

/-- The lines of the records that pass their thresholds, and the complaint. -/
def errorOutput (thresholds : List Threshold) (o : Outcome) : String :=
  String.join ((o.log.filter (·.passes thresholds)).map fun r => r.line ++ "\n") ++
    (o.complaint?.map Complaint.render).getD ""

/-- A command that failed. -/
def failed (log : List LogRecord) (text : String) (causes : List String) : Outcome :=
  { log, complaint? := some ⟨text, causes⟩ }

end Outcome

/-- The record of something that the command line did. -/
def done (message : String) (details : List (String × Detail)) : LogRecord :=
  ⟨.info, "bsearch_host", message, details⟩

/-- The record of an image that was written. -/
def wroteImage (path : String) (m : Image) : LogRecord :=
  done "Wrote search image"
    [("output", .plain path), ("entries", .count m.table.size), ("right", .count m.right.toNat),
      ("failed", .count m.failed.toNat), ("digest", .plain m.digestHex)]

/-- The record of a header that was written. -/
def wroteHeader (path : String) : LogRecord :=
  done "Wrote configuration header" [("output", .plain path)]

/-- The record of an image that was read. -/
def loadedImage (path : String) (m : Image) : LogRecord :=
  done "Loaded search image"
    [("image", .plain path), ("entries", .count m.table.size), ("digest", .plain m.digestHex)]

/-- An execution as it is printed: without its probes unless they are traced. -/
def shown (trace : Bool) (e : Execution) : Execution :=
  if trace then e else { e with probes := [] }

/-- Searches an image that was read from `path` for each public value. -/
def searchAll (path : String) (m : Image) (publicValues privateValues : List UInt64)
    (trace : Bool) : Outcome :=
  let (registration, env) := (Environment.ofImage m).register publicValues privateValues
  let (events, outcome) := env.invokeTimes publicValues.length
  let log := loadedImage path m :: registration.record :: events.map Event.record
  match outcome with
  | .error e => .failed log e.message e.chain.tail
  | .ok executions =>
    { lines := executions.map fun e => Json.Written.ofExecution (shown trace e) .compact, log }

variable {m : Type → Type} [Monad m] [Files m]

/-- Makes an image, and perhaps its header. -/
def performGenerate (size : UInt32) (output : String) (header? : Option String) : m Outcome := do
  match Image.sequential size with
  | .error rejection => return .failed [] rejection.message []
  | .ok image =>
    match ← image.save output with
    | .error e => return .failed [] s!"writing image to {output}" e.chain
    | .ok () =>
      let log := [wroteImage output image]
      match header? with
      | none => return { log }
      | some path =>
        match ← Files.write path (Utf8.encode (Header.render image)) with
        | .error e => return .failed log s!"writing header to {path}" [e.message]
        | .ok () => return { log := log ++ [wroteHeader path] }

/-- Searches the image in a file. -/
def performRun (image : String) (publicValues privateValues : List UInt64) (trace : Bool) :
    m Outcome := do
  match ← Image.load image with
  | .error e => return .failed [] s!"loading image from {image}" e.chain
  | .ok loaded => return searchAll image loaded publicValues privateValues trace

/-- Performs a command. -/
def Command.perform : Command → m Outcome
  | .generate size output header? => performGenerate size output header?
  | .run image publicValues privateValues trace => performRun image publicValues privateValues trace

end TableSearch.CommandLine
