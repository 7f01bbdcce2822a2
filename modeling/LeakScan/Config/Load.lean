import LeakScan.Config.Settings
import LeakScan.Disk.Canonical
import LeakScan.Event
import LeakScan.Yaml.Read

namespace LeakScan.Config

inductive FileFault where
  | path (e : PathError)
  | document (f : Yaml.Fault)
  | notMap
  | settings (f : Fault)
deriving DecidableEq, Repr

def FileFault.message : FileFault → String
  | path e => e.message
  | document f => f.message
  | notMap => "Config must be a dictionary"
  | settings f => f.message

inductive LoadFailure where
  /-- The path that was given cannot be asked for. -/
  | badPath (given : String) (e : PathError)
  | notFound (path : String)
  | badFile (path : String) (f : FileFault)
  /-- The path that was given is a link without end. -/
  | loop (path : String)
  /-- A file at the root of the scan cannot be asked for. -/
  | rootFile (e : PathError)
  /-- The document breaks the reading itself. -/
  | broken (f : Yaml.Fault)
deriving DecidableEq, Repr

namespace LoadFailure

/-- The path that a failure is reported with; one without is not reported but breaks off what is
going on. -/
def path? : LoadFailure → Option String
  | badPath given _ => some given
  | notFound path => some path
  | badFile path _ => some path
  | _ => none

def words : LoadFailure → String
  | badPath _ e => "Invalid config path: " ++ e.message
  | notFound path => "Specified config file not found: " ++ path
  | badFile _ f => "Failed to parse config file: " ++ f.message
  | loop path => (Disk.Unresolved.loop path).message
  | rootFile e => e.message
  | broken f => f.message

def message (e : LoadFailure) : String :=
  match e.path? with
  | some path => e.words ++ " (config: " ++ path ++ ")"
  | none => e.words

end LoadFailure

/-- The settings that a document holds, filled in and checked; an empty document sets nothing. -/
def ofDocument : Value → Except FileFault Config
  | .null => (validate ⟨[]⟩).mapError .settings
  | .map entries => (validate ⟨entries⟩).mapError .settings
  | _ => .error .notMap

def ofSource (source : Yaml.Source) : Except FileFault Config :=
  match Yaml.read source with
  | .error f => .error (.document f)
  | .ok v => ofDocument v

def ofText (text : List Char) : Except FileFault Config := ofSource (.ofText text)

def ofBytes (bytes : List UInt8) : Except FileFault Config := ofSource (.ofBytes bytes)

def ofFile (disk : Disk) (path : String) : Except FileFault Config :=
  match disk.readAt path with
  | .error e => .error (.path e)
  | .ok bytes => ofBytes bytes

def FileFault.failure (path : String) : FileFault → LoadFailure
  | document f => if f.isReported then .badFile path (.document f) else .broken f
  | f => .badFile path f

def source : String := "keyhunter.scanner.config"

def loadFile (disk : Disk) (path : String) : Noted LoadFailure Config :=
  match ofFile disk path with
  | .error f => .fail (f.failure path)
  | .ok c => ⟨[⟨.info, source, "Loaded config: " ++ path⟩], .ok c⟩

def loadGiven (disk : Disk) (given : String) : Noted LoadFailure Config :=
  match disk.canonical given with
  | .error (.loop path) => .fail (.loop path)
  | .error .nul => .fail (.badPath given ⟨.nul, given⟩)
  | .ok place =>
    let path := Path.ofLocation place
    match disk.isPresent path with
    | .error e => .fail (.badPath given e)
    | .ok false => .fail (.notFound path)
    | .ok true => loadFile disk path

/-- The names of settings files at the root of a scan, in the order in which they are looked for. -/
def fileNames : List String := [".keyhunter.yml", ".keyhunter.yaml"]

def firstPresent (disk : Disk) : List String → Except PathError (Option String)
  | [] => .ok none
  | path :: paths =>
    match disk.isPresent path with
    | .error e => .error e
    | .ok true => .ok (some path)
    | .ok false => firstPresent disk paths

/-- The settings files that may stand at a root. A root that is no directory has none. -/
def candidates (disk : Disk) (root : String) : Except LoadFailure (List String) :=
  match disk.canonical root with
  | .error (.loop path) => .error (.loop path)
  | .error .nul => .ok []
  | .ok place =>
    match disk.isDirectory (Path.ofLocation place) with
    | .ok true => .ok (fileNames.map fun name => Path.ofLocation (place ++ [name]))
    | _ => .ok []

def loadFound (disk : Disk) (root : String) : Noted LoadFailure Config :=
  match candidates disk root with
  | .error e => .fail e
  | .ok paths =>
    match firstPresent disk paths with
    | .error e => .fail (.rootFile e)
    | .ok (some path) => loadFile disk path
    | .ok none => ⟨[⟨.info, source, "Using default scanner config"⟩], .ok default⟩

/-- Loads the settings of a scan. An empty path asks for no file. -/
def load (disk : Disk) (given : Option String) (root : String) : Noted LoadFailure Config :=
  match given with
  | none => loadFound disk root
  | some given => if given.isEmpty then loadFound disk root else loadGiven disk given

end LeakScan.Config
