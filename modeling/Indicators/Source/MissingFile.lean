set_option autoImplicit false

/-! A path holds no zero character and at most 4095 bytes. Its names are looked up from the left and
have at most 255 bytes; those that stay in place or go up always lead on, and the first of the
others is the one that is missing. -/

namespace Indicators.Source

inductive OpenError where
  | zeroInPath
  | nameTooLong
  | notFound
deriving DecidableEq, Repr

namespace OpenError

def reason : OpenError → String
  | zeroInPath => "file name contained an unexpected NUL byte"
  | nameTooLong => "File name too long (os error 36)"
  | notFound => "No such file or directory (os error 2)"

def message (path : String) (e : OpenError) : String :=
  "Failed to read '" ++ path ++ "': " ++ e.reason

/-- The first name of a path that is not one of the two names for known directories. -/
def firstName : List Char → List Char
  | '/' :: rest => firstName rest
  | '.' :: '/' :: rest => firstName rest
  | '.' :: '.' :: '/' :: rest => firstName rest
  | text => text.takeWhile (· != '/')

def ofMissing (path : String) : OpenError :=
  if path.toList.contains (Char.ofNat 0) then zeroInPath
  else if 4095 < path.utf8ByteSize then nameTooLong
  else if 255 < (String.ofList (firstName path.toList)).utf8ByteSize then nameTooLong
  else notFound

end OpenError

end Indicators.Source
