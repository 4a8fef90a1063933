import Mathlib.Logic.Basic

/-! Computations that leave a list of events behind, whether they return or raise. -/

/-- What a computation came to, after the events that it went through. -/
structure Trace (ω ε α : Type) where
  events : List ω
  result : Except ε α

namespace Trace

variable {ω ε α β : Type}

def bind (first : Trace ω ε α) (next : α → Trace ω ε β) : Trace ω ε β :=
  match first.result with
  | .ok value => ⟨first.events ++ (next value).events, (next value).result⟩
  | .error e => ⟨first.events, .error e⟩

instance : Monad (Trace ω ε) where
  pure value := ⟨[], .ok value⟩
  bind := bind

def raise (e : ε) : Trace ω ε α := ⟨[], .error e⟩

def emit (event : ω) : Trace ω ε Unit := ⟨[event], .ok ()⟩

/-- `try … except`: what the first computation raises goes to the second. -/
def recover (body : Trace ω ε α) (handle : ε → Trace ω ε α) : Trace ω ε α :=
  match body.result with
  | .ok _ => body
  | .error e => ⟨body.events ++ (handle e).events, (handle e).result⟩

@[simp] theorem pure_eq (value : α) : (pure value : Trace ω ε α) = ⟨[], .ok value⟩ := rfl

@[simp] theorem mk_ok_bind (events : List ω) (value : α) (next : α → Trace ω ε β) :
    ((⟨events, .ok value⟩ : Trace ω ε α) >>= next) = ⟨events ++ (next value).events, (next value).result⟩ := rfl

@[simp] theorem mk_error_bind (events : List ω) (e : ε) (next : α → Trace ω ε β) :
    ((⟨events, .error e⟩ : Trace ω ε α) >>= next) = ⟨events, .error e⟩ := rfl

@[simp] theorem recover_ok (events : List ω) (value : α) (handle : ε → Trace ω ε α) :
    recover ⟨events, .ok value⟩ handle = ⟨events, .ok value⟩ := rfl

@[simp] theorem recover_error (events : List ω) (e : ε) (handle : ε → Trace ω ε α) :
    recover ⟨events, .error e⟩ handle = ⟨events ++ (handle e).events, (handle e).result⟩ := rfl

@[simp] theorem emit_bind (event : ω) (next : Unit → Trace ω ε β) :
    (emit event >>= next) = ⟨event :: (next ()).events, (next ()).result⟩ := rfl

end Trace
