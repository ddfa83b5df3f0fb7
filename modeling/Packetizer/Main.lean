import Packetizer.Codec.Escape
import Packetizer.Command.Run

/-!
# `Packetizer.Main`: the command line

Opens the files that the arguments name, runs the command on what was
read and writes what it leaves behind.
-/

set_option autoImplicit false

namespace Packetizer.Command

/-- What the system answered, as an error of a file. -/
def systemError : IO.Error → SystemError
  | .noFileOrDirectory _ _ _ => .notFound
  | .permissionDenied _ _ _ => .permissionDenied
  | .inappropriateType _ 20 _ => .notADirectory
  | .inappropriateType _ _ _ => .isADirectory
  | .resourceExhausted _ 28 _ => .storageFull
  | .invalidArgument _ 36 _ => .nameTooLong
  | error => .other 5 (toString error)

/-- An action on files, with its failure as a value. -/
def attempt {α : Type} (action : IO α) : IO (Except SystemError α) := do
  try return .ok (← action)
  catch error => return .error (systemError error)

/-- Reads a stream to its end, or up to a failure. -/
partial def readAll (stream : IO.FS.Stream) (read : ByteArray) : IO InputFile := do
  match ← attempt (stream.read 65536) with
  | .error e => return ⟨read.toList, some e⟩
  | .ok block =>
      if block.isEmpty then return .ofBytes read.toList
      else readAll stream (read ++ block)

/-- Opens the input of that name. -/
def openStream (name : String) : IO IO.FS.Stream := do
  if name = standardStream then IO.getStdin
  else return .ofHandle (← IO.FS.Handle.mk name .read)

/-- Creates the output of that name. -/
def createStream (name : String) : IO IO.FS.Stream := do
  if name = standardStream then IO.getStdout
  else return .ofHandle (← IO.FS.Handle.mk name .write)

/-- What opening the files of a job gave. -/
structure Opened where
  input : Except SystemError InputFile
  output : Except SystemError IO.FS.Stream

/-- The files of a job, opened in order: the input once the codec is
known, the output once the input is there. The input is read last, when
an output of the same name has emptied it. -/
def openFiles (job : Job) : IO Opened := do
  match CodecKind.parse job.codec with
  | .error _ => return ⟨.error .notFound, .error .notFound⟩
  | .ok _ =>
      match ← attempt (openStream job.input) with
      | .error e => return ⟨.error e, .error e⟩
      | .ok input =>
          match ← attempt (createStream job.output) with
          | .error e => return ⟨.ok (.ofBytes []), .error e⟩
          | .ok output => return ⟨.ok (← readAll input .empty), .ok output⟩

/-- The opened files as the command looks at them. -/
def Opened.files (o : Opened) : Files InputFile where
  openInput _ := o.input
  createOutput _ _ input := o.output.map fun _ => (input, .empty)

/-- Runs the command on the files of the system. -/
def run (arguments : List String) : IO UInt32 := do
  let opened ← match Request.parse arguments with
    | some (.encode job) => openFiles job
    | _ => pure ⟨.error .notFound, .error .notFound⟩
  let execution := execute arguments opened.files
  IO.print execution.printed
  for line in execution.lines do IO.eprintln line
  match execution.output, opened.output with
  | some (_, bytes), .ok stream =>
      match ← attempt (do stream.write ⟨bytes⟩; stream.flush) with
      | .ok () => return UInt32.ofNat execution.exit
      | .error e =>
          IO.eprintln s!"Error: {shownSystem e}"
          return 1
  | _, _ => return UInt32.ofNat execution.exit

end Packetizer.Command

/-- The command line. -/
def main (arguments : List String) : IO UInt32 := Packetizer.Command.run arguments
