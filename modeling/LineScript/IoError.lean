namespace LineScript

-- What can go wrong with a file or the console.
inductive IoError where
  | notFound
  | notADirectory
  | isADirectory
  | noSpace
  | nameTooLong
  | nulInName
  | invalidEncoding
  | outputLimit
  | flushRefused
deriving DecidableEq, Repr

def IoError.message : IoError → String
  | notFound => "No such file or directory (os error 2)"
  | notADirectory => "Not a directory (os error 20)"
  | isADirectory => "Is a directory (os error 21)"
  | noSpace => "No space left on device (os error 28)"
  | nameTooLong => "File name too long (os error 36)"
  | nulInName => "file name contained an unexpected NUL byte"
  | invalidEncoding => "stream did not contain valid UTF-8"
  | outputLimit => "output limit reached"
  | flushRefused => "flush refused"

end LineScript
