import LeakScan.Command.Run
import LeakScan.Disk.Changes
import Std.Time.DateTime.Timestamp

namespace LeakScan.Program

def fileNode (path : String) : IO Node := do
  try
    return .file (← IO.FS.readBinFile path).toList .full
  catch _ =>
    return .file [] { read := false }

def nowhere : String := "\x00"

-- The system tells where a link ends and not what it says. One that ends nowhere keeps the way in
-- which it fails: nothing stands there, or it cannot be followed, as if it led to itself.
def linkNode (path name : String) : IO Node := do
  try
    return .link (← IO.FS.realPath path).toString
  catch
    | .noFileOrDirectory .. => return .link nowhere
    | _ => return .link name

partial def entryNode (e : IO.FS.DirEntry) : IO Node := do
  let data ← e.path.symlinkMetadata
  match data.type with
  | .file => fileNode e.path.toString
  | .symlink => linkNode e.path.toString e.fileName
  | .other => return .pipe
  | .dir =>
    match ← e.path.readDir.toBaseIO with
    | .error _ => return .directory [] { read := false }
    | .ok children =>
      let mut entries := #[]
      let mut access := Access.full
      for child in children do
        match ← (entryNode child).toBaseIO with
        | .ok n => entries := entries.push (child.fileName, n)
        | .error _ =>
          -- Only its name is known, since it cannot be looked up.
          entries := entries.push (child.fileName, .file [] .full)
          access := { access with search := false }
      return .directory entries.toList access

/-- Adds what stands at a path to a picture of the disk. What is not there adds nothing. -/
def addPath (root : Node) (path : String) : IO Node := do
  try
    let real ← IO.FS.realPath path
    match real.parent, real.fileName with
    | some parent, some name =>
      return root.put (Path.names real.toString) (← entryNode ⟨parent, name⟩)
    | _, _ => return root
  catch _ =>
    return root

def named (word : String) : String :=
  match Command.Grammar.splitEquals word.toList with
  | some (_, behind) => String.ofList behind
  | none => word

def picture (words : List String) : IO Disk := do
  let here := (← IO.FS.realPath ".").toString
  let root ← words.foldlM (fun root w => addPath root (named w)) (← addPath .empty here)
  return ⟨root, Path.names here⟩

def now : IO Moment := do
  let t ← Std.Time.Timestamp.now
  return .ofEpochMicros (t.toNanosecondsSinceUnixEpoch.toInt / 1000)

def job : IO Sarif.Job := do
  return ⟨← IO.getEnv "GITHUB_RUN_ID", ← IO.getEnv "GITHUB_JOB", ← IO.getEnv "GITHUB_RUN_ATTEMPT"⟩

def finish (before : Disk) (o : Command.Outcome) : IO UInt32 := do
  for (path, bytes) in before.changes o.disk do
    IO.FS.writeBinFile path ⟨bytes.toArray⟩
  IO.print o.output
  IO.eprint o.errors
  match o.exit with
  | .ok code => return code.toUInt32
  | .error c =>
    IO.eprintln c.message
    return 1

end LeakScan.Program

open LeakScan in
def main (words : List String) : IO UInt32 := do
  let start ← Program.now
  let disk ← Program.picture words
  let setting : Command.Setting := {
    clock := ⟨start, ← Program.now⟩
    reply := .raised (.request "no network")
    job := ← Program.job }
  Program.finish disk (Command.run disk setting words)
