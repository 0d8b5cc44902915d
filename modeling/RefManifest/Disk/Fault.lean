/-!
# RefManifest.Disk.Fault

Why an operation on files can fail, with the text of each cause.
-/

namespace RefManifest
namespace Disk

inductive Fault where
  | missing
  | alreadyThere
  | notDirectory
  | isDirectory
  | busy
  | linkLoop
  | nameTooLong
  | invalidArgument
  | nulInPath
  | notText
deriving Repr, DecidableEq

def Fault.message : Fault → String
  | .missing => "No such file or directory (os error 2)"
  | .alreadyThere => "File exists (os error 17)"
  | .notDirectory => "Not a directory (os error 20)"
  | .isDirectory => "Is a directory (os error 21)"
  | .busy => "Device or resource busy (os error 16)"
  | .linkLoop => "Too many levels of symbolic links (os error 40)"
  | .nameTooLong => "File name too long (os error 36)"
  | .invalidArgument => "Invalid argument (os error 22)"
  | .nulInPath => "file name contained an unexpected NUL byte"
  | .notText => "stream did not contain valid UTF-8"

end Disk
end RefManifest
