import LeakScan.Text.Quoted

namespace LeakScan

inductive PathFault where
  | noEntry
  | denied
  | notDirectory
  | isDirectory
  | nameTooLong
  | tooManyLinks
  | nul
deriving DecidableEq, Repr

namespace PathFault

def label : PathFault → String
  | noEntry => "[Errno 2] No such file or directory"
  | denied => "[Errno 13] Permission denied"
  | notDirectory => "[Errno 20] Not a directory"
  | isDirectory => "[Errno 21] Is a directory"
  | nameTooLong => "[Errno 36] File name too long"
  | tooManyLinks => "[Errno 40] Too many levels of symbolic links"
  | nul => "embedded null byte"

def meansAbsent : PathFault → Bool
  | noEntry => true
  | notDirectory => true
  | tooManyLinks => true
  | nul => true
  | _ => false

end PathFault

structure PathError where
  fault : PathFault
  path : String
deriving DecidableEq, Repr

def PathError.message (e : PathError) : String :=
  match e.fault with
  | .nul => e.fault.label
  | f => f.label ++ ": " ++ Text.quoted e.path

end LeakScan
