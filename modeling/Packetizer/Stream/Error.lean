/-!
# `Packetizer.Stream.Error`: failures of files, sources and sinks

A `SystemError` is what the system answers about a file, and a
`StreamError` says what went wrong while bytes were read or written. An
interruption is the one that asks for another try.
-/

set_option autoImplicit false

namespace Packetizer

/-- Why the system refuses to open, read or write a file. -/
inductive SystemError where
  /-- There is no such file, or no such directory to put it in. -/
  | notFound
  /-- The file belongs to somebody else. -/
  | permissionDenied
  /-- A file is used like a directory. -/
  | notADirectory
  /-- A directory is used like a file. -/
  | isADirectory
  /-- The device has no room for more bytes. -/
  | storageFull
  /-- The path or a part of it is too long. -/
  | nameTooLong
  /-- Any other refusal. -/
  | other (number : Nat) (reason : String)
  deriving DecidableEq

namespace SystemError

/-- The number of an error. -/
def number : SystemError → Nat
  | notFound => 2
  | permissionDenied => 13
  | notADirectory => 20
  | isADirectory => 21
  | storageFull => 28
  | nameTooLong => 36
  | other number _ => number

/-- The system's own wording. -/
def message : SystemError → String
  | notFound => "No such file or directory"
  | permissionDenied => "Permission denied"
  | notADirectory => "Not a directory"
  | isADirectory => "Is a directory"
  | storageFull => "No space left on device"
  | nameTooLong => "File name too long"
  | other _ reason => reason

end SystemError

/-- The kind under which a failure is reported. -/
inductive StreamErrorKind where
  | unexpectedEnd
  | writeZero
  | interrupted
  | system (error : SystemError)
  | other
  deriving DecidableEq

/-- What went wrong while bytes were read or written. -/
inductive StreamError where
  /-- The input ended inside a field of fixed size. -/
  | endInsideField
  /-- The input ended inside bytes to be skipped. -/
  | truncatedChunk
  /-- The sink took none of the bytes that were left. -/
  | nothingAccepted
  /-- The call did nothing and may be repeated. -/
  | interrupted
  /-- The system refused. -/
  | system (error : SystemError)
  /-- Any other failure. -/
  | other (reason : String)
  deriving DecidableEq

namespace StreamError

/-- The kind of a failure. -/
def kind : StreamError → StreamErrorKind
  | endInsideField => .unexpectedEnd
  | truncatedChunk => .unexpectedEnd
  | nothingAccepted => .writeZero
  | interrupted => .interrupted
  | system error => .system error
  | other _ => .other

/-- The wording of a failure. -/
def message : StreamError → String
  | endInsideField => "failed to fill whole buffer"
  | truncatedChunk => "truncated chunk"
  | nothingAccepted => "failed to write whole buffer"
  | interrupted => "operation interrupted"
  | system error => s!"{error.message} (os error {error.number})"
  | other reason => reason

end StreamError

end Packetizer
