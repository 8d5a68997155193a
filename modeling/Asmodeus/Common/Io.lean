namespace asmodeus.common

/-- The kinds of `std::io::Error` the modelled code creates or inspects. -/
inductive ErrorKind
  | NotFound
  | AlreadyExists
  | InvalidInput
  | InvalidData
  | Other
  deriving DecidableEq

structure IoError where
  kind : ErrorKind
  message : String
  deriving DecidableEq

/-- `io::Error::other`. -/
def IoError.other (message : String) : IoError := ⟨.Other, message⟩

/-- The outcome of the filesystem calls of one write: everything was synced, or
some call failed with the given error. -/
abbrev Disk := Except IoError Unit

end asmodeus.common
