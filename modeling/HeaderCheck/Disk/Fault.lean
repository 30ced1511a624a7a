import HeaderCheck.Text.Basic

/-! The ways in which access to a disk fails, with the wording that the operating system gives
them. -/

namespace HeaderCheck

inductive Fault where
  | missing
  | notDirectory
  | isDirectory
  | linkLoop
  | nameTooLong
  | nulInPath
  | notUtf8
  deriving DecidableEq, Repr

def Fault.message : Fault → Text
  | .missing => "No such file or directory (os error 2)".toList
  | .notDirectory => "Not a directory (os error 20)".toList
  | .isDirectory => "Is a directory (os error 21)".toList
  | .linkLoop => "Too many levels of symbolic links (os error 40)".toList
  | .nameTooLong => "File name too long (os error 36)".toList
  | .nulInPath => "file name contained an unexpected NUL byte".toList
  | .notUtf8 => "stream did not contain valid UTF-8".toList

end HeaderCheck
