import LeakScan.Page.Fetch

namespace LeakScan.Page

inductive Exchange (ε α : Type) where
  | done (x : Noted ε α)
  | ask (r : Request) (next : Reply → Exchange ε α)

namespace Exchange

variable {ε α β : Type}

def after (events : List Event) : Exchange ε α → Exchange ε α
  | done x => done ⟨events ++ x.events, x.result⟩
  | ask r next => ask r fun reply => (next reply).after events

def bind (f : α → Exchange ε β) : Exchange ε α → Exchange ε β
  | done x =>
    match x.result with
    | .ok a => (f a).after x.events
    | .error e => done ⟨x.events, .error e⟩
  | ask r next => ask r fun reply => (next reply).bind f

instance : Monad (Exchange ε) where
  pure a := done (.ok a)
  bind x f := x.bind f

/-- The requests that are made, in order, and what the work comes to, where each of them gets the
same reply. -/
def run (reply : Reply) : Exchange ε α → List Request × Noted ε α
  | done x => ([], x)
  | ask r next =>
    let rest := (next reply).run reply
    (r :: rest.1, rest.2)

variable {reply : Reply}

theorem run_done (x : Noted ε α) : (done x).run reply = ([], x) := rfl

theorem run_after (events : List Event) (x : Exchange ε α) :
    (x.after events).run reply =
      ((x.run reply).1, ⟨events ++ (x.run reply).2.events, (x.run reply).2.result⟩) := by
  induction x with
  | done x => rfl
  | ask r next ih => simp only [after, run, ih]

theorem requests_bind (x : Exchange ε α) (f : α → Exchange ε β) :
    ((x >>= f).run reply).1 = (x.run reply).1 ++
      match (x.run reply).2.result with
      | .ok a => ((f a).run reply).1
      | .error _ => [] := by
  show ((x.bind f).run reply).1 = _
  induction x with
  | done x =>
    rw [bind, run]
    cases x.result with
    | ok a => simp only [run_after, List.nil_append]
    | error e => rfl
  | ask r next ih => simp only [bind, run, ih, List.cons_append]

theorem answer_bind (x : Exchange ε α) (f : α → Exchange ε β) :
    ((x >>= f).run reply).2 = (x.run reply).2 >>= fun a => ((f a).run reply).2 := by
  show ((x.bind f).run reply).2 = Noted.bind _ _
  induction x with
  | done x =>
    rw [bind, run, Noted.bind]
    cases x.result with
    | ok a => simp only [run_after]
    | error e => rfl
  | ask r next ih => simp only [bind, run, ih]

end Exchange

def fetchOver (r : Request) : Exchange ScanFailure Document := .ask r fun reply => .done (fetch r reply)

theorem run_fetchOver (r : Request) (reply : Reply) :
    (fetchOver r).run reply = ([r], fetch r reply) := rfl

end LeakScan.Page
