import SceneEditor.Signal

namespace SceneEditor

abbrev Effect (σ : Type) := ExceptT Cause (StateM σ)

structure Link (η : Type) where
  number : Nat
  signal : Signal
  handler : η

structure Bridge (η : Type) where
  links : List (Link η)
  next : Nat

namespace Bridge

variable {η σ : Type}

def empty : Bridge η := ⟨[], 0⟩

def connect (b : Bridge η) (signal : Signal) (handler : η) : Nat × Bridge η :=
  (b.next, ⟨b.links ++ [⟨b.next, signal, handler⟩], b.next + 1⟩)

def disconnect (b : Bridge η) (number : Nat) : Bridge η :=
  { b with links := b.links.filter (·.number ≠ number) }

def observers (b : Bridge η) (signal : Signal) : List (Link η) :=
  b.links.filter (·.signal = signal)

def handlerCount (b : Bridge η) (signal : Signal) : Nat := (b.observers signal).length

def callEach (call : Link η → Effect σ Unit) (report : Cause → Effect σ Unit) :
    List (Link η) → Effect σ Unit
  | [] => return
  | link :: links => do
    tryCatch (call link) report
    callEach call report links

/-- Calls the observers of a signal one after the other. Who is called is settled before the first
call, whatever the handlers do to the state. A handler that fails is reported and does not keep the
others from being called, unless the report fails as well. -/
def deliver (b : Bridge η) (signal : Signal) (call : Link η → Effect σ Unit)
    (report : Cause → Effect σ Unit) : Effect σ Unit :=
  callEach call report (b.observers signal)

end Bridge

end SceneEditor
