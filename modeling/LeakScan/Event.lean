
namespace LeakScan

inductive Severity where
  | debug
  | info
  | warning
deriving DecidableEq, Repr

namespace Severity

def text : Severity → String
  | debug => "DEBUG"
  | info => "INFO"
  | warning => "WARNING"

def rank : Severity → Nat
  | debug => 10
  | info => 20
  | warning => 30

end Severity

structure Event where
  severity : Severity
  source : String
  message : String
deriving DecidableEq, Repr

def Event.line (e : Event) : String :=
  "[keyhunter] " ++ e.severity.text ++ " " ++ e.source ++ ": " ++ e.message ++ "\n"

structure Noted (ε α : Type) where
  events : List Event
  result : Except ε α

namespace Noted

variable {ε α β : Type}

def ok (a : α) : Noted ε α := ⟨[], .ok a⟩

def fail (e : ε) : Noted ε α := ⟨[], .error e⟩

def note (e : Event) : Noted ε Unit := ⟨[e], .ok ()⟩

def notes (es : List Event) : Noted ε Unit := ⟨es, .ok ()⟩

def bind (x : Noted ε α) (f : α → Noted ε β) : Noted ε β :=
  match x.result with
  | .ok a => ⟨x.events ++ (f a).events, (f a).result⟩
  | .error e => ⟨x.events, .error e⟩

instance : Monad (Noted ε) where
  pure := ok
  bind := bind

def lift (x : Except ε α) : Noted ε α := ⟨[], x⟩

@[simp] theorem result_pure (a : α) : (pure a : Noted ε α).result = .ok a := rfl

@[simp] theorem result_note (e : Event) : (note e : Noted ε Unit).result = .ok () := rfl

@[simp] theorem result_bind (x : Noted ε α) (f : α → Noted ε β) :
    (x >>= f).result = x.result.bind fun a => (f a).result := by
  show (bind x f).result = _
  unfold bind
  cases x.result <;> rfl

theorem bind_congr {x : Noted ε α} {f g : α → Noted ε β} (h : ∀ a, x.result = .ok a → f a = g a) :
    x >>= f = x >>= g := by
  show bind x f = bind x g
  unfold bind
  cases hx : x.result with
  | ok a => simp only [h a hx]
  | error e => rfl

end Noted

end LeakScan
