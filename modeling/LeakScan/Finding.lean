
namespace LeakScan

structure KeyFinding where
  file : String
  service : String
  line : Option Int
  issue : String
  recommendation : String
deriving DecidableEq, Repr

structure FileFinding where
  file : String
  issue : String
  recommendation : String
  line : Option Int := none
deriving DecidableEq, Repr

structure CodeFinding where
  file : String
  line : Option Int
  detector : String
  issue : String
  recommendation : String
deriving DecidableEq, Repr

inductive Finding where
  | key (f : KeyFinding)
  | sensitive (f : FileFinding)
  | code (f : CodeFinding)
deriving DecidableEq, Repr

namespace Finding

def file : Finding → String
  | key f => f.file
  | sensitive f => f.file
  | code f => f.file

def line : Finding → Option Int
  | key f => f.line
  | sensitive f => f.line
  | code f => f.line

def issue : Finding → String
  | key f => f.issue
  | sensitive f => f.issue
  | code f => f.issue

def recommendation : Finding → String
  | key f => f.recommendation
  | sensitive f => f.recommendation
  | code f => f.recommendation

def key? : Finding → Option KeyFinding
  | key f => some f
  | _ => none

def sensitive? : Finding → Option FileFinding
  | sensitive f => some f
  | _ => none

def code? : Finding → Option CodeFinding
  | code f => some f
  | _ => none

end Finding

end LeakScan
