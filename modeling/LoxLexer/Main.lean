import LoxLexer.Command.Run

/-!
# The command

Reads what the run needs from the world, runs, and writes what the run gives. A session is written
as it is typed: each line that is read takes it one `Session.step` further, and what the step writes
is written before the next line is read.
-/

namespace LoxLexer

/-- The time since the program started, in seconds. -/
def elapsedText (nanoseconds : Nat) : String :=
  let fraction := String.ofList ((Nat.toDigits 10 (nanoseconds / 1000 % 1000000)).leftpad 6 '0')
  toString (nanoseconds / 1000000000) ++ "." ++ fraction ++ "s"

/-- Writes an output at once; `started` is when the program started, `spent` the time of the
scan. -/
def write (started spent : Nat) (output : Output) : IO Unit := do
  let now ← IO.monoNanosNow
  let stdout ← IO.getStdout
  stdout.putStr output.stdout
  stdout.flush
  (← IO.getStderr).putStr (output.stderr ⟨elapsedText (now - started), elapsedText spent⟩)

/-- Evaluates outputs and what comes with them, and writes the outputs in order. -/
def writeAll {α : Type} (started : Nat) (result : Unit → List Output × α) : IO α := do
  let before ← IO.monoNanosNow
  let (outputs, value) ← IO.lazyPure result
  let after ← IO.monoNanosNow
  outputs.forM (write started (after - before))
  return value

/-- Why a read failed. The system's error number comes with either sign: 20 for a path through
something that is no directory, 21 for a directory, 36 for a name that is too long. -/
def readFault : IO.Error → ReadFault
  | .noFileOrDirectory .. => .notFound
  | error@(.inappropriateType _ number _) =>
    if number = 21 ∨ number = -21 then .isDirectory
    else if number = 20 ∨ number = -20 then .notADirectory
    else .other (toString error)
  | error@(.invalidArgument _ number _) =>
    if number = 36 ∨ number = -36 then .nameTooLong else .other (toString error)
  | error => .other (toString error)

def readBytes (path : String) : IO (Except ReadFault ByteArray) := do
  try return .ok (← IO.FS.readBinFile path)
  catch error => return .error (readFault error)

/-- Reads up to the next line feed or the end of the input. -/
partial def readLine (input : IO.FS.Stream) (line : ByteArray) : IO ByteArray := do
  let byte ← input.read 1
  if byte.isEmpty then return line
  else if byte.toList = [lineFeed] then return line ++ byte
  else readLine input (line ++ byte)

/-- Takes a session a step further with each line, until it ends. -/
partial def converse (started : Nat) (settings : LogSettings) (input : IO.FS.Stream) : IO Unit := do
  let line ← readLine input ByteArray.empty
  let goesOn ← writeAll started fun _ =>
    Session.step settings (if line.isEmpty then none else some line.toList)
  if goesOn then converse started settings input

/-- Writes the outcome of a run and gives its exit code. -/
def writeOutcome (started : Nat) (outcome : Unit → Outcome) : IO Nat :=
  writeAll started fun _ =>
    let outcome := outcome ()
    (outcome.outputs, outcome.exitCode)

def perform (started : Nat) (invocation : Invocation) (host : Host) : IO Nat := do
  match invocation.mode with
  | .session =>
    writeAll started fun _ => (invocation.complaints host ++ [Session.prompt], ())
    converse started (invocation.logSettings host) (← IO.getStdin)
    return 0
  | .file path =>
    let content ← readBytes path
    writeOutcome started fun _ => invocation.run { host with read := fun _ => content }
  | .sample => writeOutcome started fun _ => invocation.run host

end LoxLexer

open LoxLexer in
def main (args : List String) : IO UInt32 := do
  let started ← IO.monoNanosNow
  let host : Host := ⟨fun _ => .error .notFound, [], ← IO.getEnv "RUST_LOG"⟩
  match Request.ofWords args with
  | .invoke invocation => return UInt32.ofNat (← perform started invocation host)
  | _ => return UInt32.ofNat (← writeOutcome started fun _ => run args host)
