import LeakScan.Pattern.Basic
import LeakScan.Text.Blank

namespace LeakScan

inductive DetectorKind where
  | secret
  | code
deriving DecidableEq, Repr

/-- A named pattern. A broad one has no fixed beginning and fits much that is no key. -/
structure Detector where
  name : String
  kind : DetectorKind
  pattern : Pattern
  broad : Bool := false

namespace Detector

open Pattern

def isAlnum (c : Char) : Bool := c.isAlphanum

def isHex (c : Char) : Bool := c.isDigit || ('a' ≤ c && c ≤ 'f')

def isKeyChar (c : Char) : Bool := c.isAlphanum || c == '-' || c == '_'

def openAI : Detector :=
  ⟨"OpenAI", .secret, next (word "sk-") (times 48 (one isAlnum)), false⟩

def anthropic : Detector :=
  ⟨"Anthropic", .secret, next (word "sk-ant-") (times 32 (one isAlnum)), false⟩

def cohere : Detector := ⟨"Cohere", .secret, times 40 (one isAlnum), true⟩

def ai21 : Detector := ⟨"AI21", .secret, times 32 (one isAlnum), true⟩

def googleAI : Detector :=
  ⟨"Google AI", .secret, next (word "AIza") (times 35 (one isKeyChar)), false⟩

def azureOpenAI : Detector := ⟨"Azure OpenAI", .secret, times 32 (one isHex), true⟩

def huggingFace : Detector :=
  ⟨"Hugging Face", .secret, next (word "hf_") (times 34 (one isAlnum)), false⟩

def apiCalls : Detector :=
  ⟨"API Calls", .code,
    any (word ".create(") [word ".generate(", word ".complete(", word ".predict("], false⟩

def debugMode : Detector :=
  ⟨"Debug Mode", .code,
    either
      (all [anyCase "debug", one (· == ':'), many Text.isBlank, anyCase "true"])
      (all [anyCase "debug", many Text.isBlank, one (· == '='), many Text.isBlank, anyCase "true"]),
    false⟩

def hardcodedCredentials : Detector :=
  ⟨"Hardcoded Credentials", .code,
    any (anyCase "password") [anyCase "secret", anyCase "key", anyCase "token", anyCase "auth"],
    false⟩

/-- The built-in secret detectors, in the order of their findings. -/
def secrets : List Detector :=
  [openAI, anthropic, cohere, ai21, googleAI, azureOpenAI, huggingFace]

def codes : List Detector := [apiCalls, debugMode, hardcodedCredentials]

def named? (name : String) : Option Detector := (secrets ++ codes).find? (·.name == name)

end Detector

structure Catalog where
  secrets : List Detector
  codes : List Detector
  sensitiveFiles : List String

namespace Catalog

def sensitiveNames : List String :=
  [".env", "config.json", "settings.json", "credentials.json", "secrets.json"]

/-- The built-in detectors, the broad ones only on request. -/
def build (includeBroad : Bool) : Catalog where
  secrets := Detector.secrets.filter fun d => includeBroad || !d.broad
  codes := Detector.codes
  sensitiveFiles := sensitiveNames

inductive Mode where
  | broad
  | strict
deriving DecidableEq, Repr

def ofMode : Mode → Catalog
  | .broad => build true
  | .strict => build false

def secretNames (c : Catalog) : List String := c.secrets.map (·.name)

def codeNames (c : Catalog) : List String := c.codes.map (·.name)

end Catalog

end LeakScan
