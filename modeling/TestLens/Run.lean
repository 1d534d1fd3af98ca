import TestLens.Failure
import TestLens.Log

namespace TestLens

-- What was logged before a failure stays in the log.
structure Run (α : Type) where
  log : List Log.Event
  result : Except Failure α

namespace Run

variable {α β : Type}

def fail (f : Failure) : Run α :=
  ⟨[], .error f⟩

def ofExcept (result : Except Failure α) : Run α :=
  ⟨[], result⟩

def note (events : List Log.Event) : Run Unit :=
  ⟨events, .ok ()⟩

protected def bind (x : Run α) (f : α → Run β) : Run β :=
  match x.result with
  | .error e => ⟨x.log, .error e⟩
  | .ok a => ⟨x.log ++ (f a).log, (f a).result⟩

instance : Monad Run where
  pure a := ⟨[], .ok a⟩
  bind := Run.bind

@[simp] theorem pure_eq (a : α) : (pure a : Run α) = ⟨[], .ok a⟩ := rfl

@[simp] theorem bind_error (log : List Log.Event) (e : Failure) (f : α → Run β) :
    (⟨log, .error e⟩ : Run α) >>= f = ⟨log, .error e⟩ := rfl

@[simp] theorem bind_ok (log : List Log.Event) (a : α) (f : α → Run β) :
    (⟨log, .ok a⟩ : Run α) >>= f = ⟨log ++ (f a).log, (f a).result⟩ := rfl

theorem bind_pure (x : Run α) : x >>= pure = x := by
  obtain ⟨log, _ | _⟩ := x <;> simp

theorem bind_assoc {γ : Type} (x : Run α) (f : α → Run β) (g : β → Run γ) :
    x >>= f >>= g = x >>= fun a => f a >>= g := by
  obtain ⟨log, _ | a⟩ := x
  case error => simp
  case ok =>
    simp only [bind_ok]
    obtain ⟨log', _ | b⟩ := f a <;> simp

instance : LawfulMonad Run :=
  LawfulMonad.mk' Run bind_pure (fun _ _ => by simp) bind_assoc

end Run

end TestLens
