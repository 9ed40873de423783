/-
Procedures: what a caller does one indivisible step at a time.

A procedure is done, or asks for an act and goes on with the act's answer.
Nothing is said about what happens between two steps, so a procedure can be
run through without interruption, interleaved with others, or dropped.
-/

namespace ScopedSettings

/-- A course of acts, each going on with its answer, that ends in a value. -/
inductive Procedure {Act : Type} (Answer : Act → Type) (α : Type) : Type
  | done (a : α)
  | step (act : Act) (next : Answer act → Procedure Answer α)

namespace Procedure

variable {Act : Type} {Answer : Act → Type}

def bind (p : Procedure Answer α) (f : α → Procedure Answer β) : Procedure Answer β :=
  match p with
  | .done a => f a
  | .step act next => .step act fun x => (next x).bind f

instance : Monad (Procedure Answer) where
  pure := .done
  bind := bind

def act (a : Act) : Procedure Answer (Answer a) :=
  .step a .done

@[simp] theorem pure_eq (a : α) : (pure a : Procedure Answer α) = .done a := rfl

@[simp] theorem done_bind (a : α) (f : α → Procedure Answer β) :
    (.done a : Procedure Answer α) >>= f = f a :=
  rfl

@[simp] theorem step_bind (a : Act) (next : Answer a → Procedure Answer α)
    (f : α → Procedure Answer β) :
    (.step a next : Procedure Answer α) >>= f = .step a fun x => next x >>= f :=
  rfl

theorem bind_done (p : Procedure Answer α) : p >>= Procedure.done = p := by
  induction p with
  | done a => rfl
  | step a next ih => exact congrArg (step a) (funext ih)

theorem bind_assoc (p : Procedure Answer α) (f : α → Procedure Answer β)
    (g : β → Procedure Answer γ) : p >>= f >>= g = p >>= fun a => f a >>= g := by
  induction p with
  | done a => rfl
  | step a next ih => exact congrArg (step a) (funext ih)

instance : LawfulMonad (Procedure Answer) :=
  LawfulMonad.mk' _ bind_done (fun _ _ => rfl) bind_assoc

/-! ## Running without interruption -/

/-- Runs a procedure to its end, each act being carried out on a state. -/
def runOn (carryOut : σ → (a : Act) → Answer a × σ) : Procedure Answer α → σ → α × σ
  | .done a, s => (a, s)
  | .step a next, s =>
    let (x, s) := carryOut s a
    (next x).runOn carryOut s

theorem runOn_act (carryOut : σ → (a : Act) → Answer a × σ) (a : Act) (s : σ) :
    (act a : Procedure Answer (Answer a)).runOn carryOut s = carryOut s a := rfl

/-- One procedure after another runs as the two do in turn. -/
theorem runOn_bind (carryOut : σ → (a : Act) → Answer a × σ) (p : Procedure Answer α)
    (f : α → Procedure Answer β) (s : σ) :
    (p >>= f).runOn carryOut s =
      (f (p.runOn carryOut s).1).runOn carryOut (p.runOn carryOut s).2 := by
  induction p generalizing s with
  | done a => rfl
  | step a next ih => exact ih _ _

end Procedure
end ScopedSettings
