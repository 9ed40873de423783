/-
Strands: work that shares a state with other work, a turn at a time.

A strand reads and writes the state, gives the turn away, waits, and ends in a
value. While it does not give its turn away nothing else happens, so what it
reads is still so when it writes. Strands side by side (`both`, `all`) take
turns in order: each goes on until it gives its turn away, and time passes only
while all that have not ended are waiting.
-/
import ScopedSettings.Config.Duration

namespace ScopedSettings

/-- A line of work on a state, ending in a value. -/
inductive Strand (σ α : Type)
  | done (a : α)
  | read (next : σ → Strand σ α)
  | write (s : σ) (next : Strand σ α)
  /-- Gives the turn away, and goes on at the next one. -/
  | pause (next : Strand σ α)
  /-- Gives turns away until the time has passed. -/
  | wait (d : Duration) (next : Strand σ α)

namespace Strand

variable {σ τ α β γ : Type}

def bind (p : Strand σ α) (f : α → Strand σ β) : Strand σ β :=
  match p with
  | .done a => f a
  | .read next => .read fun s => (next s).bind f
  | .write s next => .write s (next.bind f)
  | .pause next => .pause (next.bind f)
  | .wait d next => .wait d (next.bind f)

instance : Monad (Strand σ) where
  pure := .done
  bind := bind

@[simp] theorem pure_eq (a : α) : (pure a : Strand σ α) = .done a := rfl

@[simp] theorem done_bind (a : α) (f : α → Strand σ β) : (.done a : Strand σ α) >>= f = f a :=
  rfl

@[simp] theorem read_bind (next : σ → Strand σ α) (f : α → Strand σ β) :
    .read next >>= f = .read fun s => next s >>= f :=
  rfl

@[simp] theorem write_bind (s : σ) (next : Strand σ α) (f : α → Strand σ β) :
    .write s next >>= f = .write s (next >>= f) :=
  rfl

@[simp] theorem pause_bind (next : Strand σ α) (f : α → Strand σ β) :
    .pause next >>= f = .pause (next >>= f) :=
  rfl

@[simp] theorem wait_bind (d : Duration) (next : Strand σ α) (f : α → Strand σ β) :
    .wait d next >>= f = .wait d (next >>= f) :=
  rfl

theorem bind_done (p : Strand σ α) : p >>= Strand.done = p := by
  induction p with
  | done a => rfl
  | read next ih => exact congrArg read (funext ih)
  | write s next ih => exact congrArg (write s) ih
  | pause next ih => exact congrArg pause ih
  | wait d next ih => exact congrArg (wait d) ih

theorem bind_assoc (p : Strand σ α) (f : α → Strand σ β) (g : β → Strand σ γ) :
    p >>= f >>= g = p >>= fun a => f a >>= g := by
  induction p with
  | done a => rfl
  | read next ih => exact congrArg read (funext ih)
  | write s next ih => exact congrArg (write s) ih
  | pause next ih => exact congrArg pause ih
  | wait d next ih => exact congrArg (wait d) ih

instance : LawfulMonad (Strand σ) :=
  LawfulMonad.mk' _ bind_done (fun _ _ => rfl) bind_assoc

def look (f : σ → α) : Strand σ α :=
  .read fun s => .done (f s)

/-- Changes the state and answers, within one turn. -/
def act (f : σ → α × σ) : Strand σ α :=
  .read fun s => .write (f s).2 (.done (f s).1)

def modify (f : σ → σ) : Strand σ Unit :=
  act fun s => ((), f s)

def yield : Strand σ Unit :=
  .pause (.done ())

/-- A strand after some time; no time is not waited for. -/
def hold (d : Duration) (p : Strand σ α) : Strand σ α :=
  if d.nanos = 0 then p else .wait d p

/-! ## By itself -/

/-- Runs a strand by itself: it has every turn, and its value comes with the state
it leaves. -/
def alone : Strand σ α → σ → α × σ
  | .done a, s => (a, s)
  | .read next, s => (next s).alone s
  | .write s next, _ => next.alone s
  | .pause next, s => next.alone s
  | .wait _ next, s => next.alone s

@[simp] theorem hold_alone (d : Duration) (p : Strand σ α) : (hold d p).alone = p.alone := by
  unfold hold
  split <;> rfl

/-- One strand after another runs as the two do in turn. -/
theorem bind_alone (p : Strand σ α) (f : α → Strand σ β) (s : σ) :
    (p >>= f).alone s = (f (p.alone s).1).alone (p.alone s).2 := by
  induction p generalizing s with
  | done a => rfl
  | read next ih => exact ih s s
  | write t next ih => exact ih t
  | pause next ih => exact ih s
  | wait d next ih => exact ih s

/-! ## On a part of the state, and in a surrounding -/

def on (part : τ → σ) (put : σ → τ → τ) : Strand σ α → Strand τ α
  | .done a => .done a
  | .read next => .read fun t => (next (part t)).on part put
  | .write s next => .read fun t => .write (put s t) (next.on part put)
  | .pause next => .pause (next.on part put)
  | .wait d next => .wait d (next.on part put)

/-- By itself, a strand on a part of the state does to the part what it does alone. -/
theorem on_alone {part : τ → σ} {put : σ → τ → τ} (hself : ∀ t, put (part t) t = t)
    (hpart : ∀ s t, part (put s t) = s) (hput : ∀ s s' t, put s (put s' t) = put s t)
    (p : Strand σ α) (t : τ) :
    (p.on part put).alone t = ((p.alone (part t)).1, put (p.alone (part t)).2 t) := by
  induction p generalizing t with
  | done a => exact congrArg (Prod.mk a) (hself t).symm
  | read next ih => exact ih (part t) t
  | write s next ih =>
    have h := ih (put s t)
    rw [hpart, hput] at h
    exact h
  | pause next ih => exact ih t
  | wait d next ih => exact ih t

/-- A strand that leaves its surrounding whenever it gives its turn away, and enters
it again when it goes on. -/
def inside (enter leave : σ → σ) : Strand σ α → Strand σ α
  | .done a => .read fun s => .write (leave s) (.done a)
  | .read next => .read fun s => (next s).inside enter leave
  | .write s next => .write s (next.inside enter leave)
  | .pause next =>
    .read fun s => .write (leave s) <| .pause <|
      .read fun s => .write (enter s) (next.inside enter leave)
  | .wait d next =>
    .read fun s => .write (leave s) <| .wait d <|
      .read fun s => .write (enter s) (next.inside enter leave)

/-- A strand whose every turn is spent in a surrounding. -/
def within (enter leave : σ → σ) (p : Strand σ α) : Strand σ α :=
  .read fun s => .write (enter s) (p.inside enter leave)

/-! ## Side by side -/

/-- A strand's turn after which another, that gave its own turn away before, has the
next one: `both` is how the two go on, and `rest` what is left when this one has
ended. -/
def inTurn (both : Strand σ β → Strand σ γ) (rest : β → Strand σ γ) : Strand σ β → Strand σ γ
  | .done b => .pause (rest b)
  | .read next => .read fun s => (next s).inTurn both rest
  | .write s next => .write s (next.inTurn both rest)
  | .pause next => .pause (both next)
  | .wait d next => .pause (both (.wait d next))

/-- A strand's turns while another is waiting, for some time yet: `both` is how the
two go on then, and `rest` what is left when this one has ended. -/
def meanwhile (both : Strand σ β → Strand σ γ) (rest : β → Strand σ γ) (left : Duration) :
    Strand σ β → Strand σ γ
  | .done b => .wait left (rest b)
  | .read next => .read fun s => (next s).meanwhile both rest left
  | .write s next => .write s (next.meanwhile both rest left)
  | .pause next => .pause (next.meanwhile both rest left)
  | .wait d next =>
    if d.nanos < left.nanos then .wait d (next.meanwhile both rest ⟨left.nanos - d.nanos⟩)
    else .wait left (both (hold ⟨d.nanos - left.nanos⟩ next))

/-- Two strands side by side, the first having the first turn of every round. -/
def both : Strand σ α → Strand σ β → Strand σ (α × β)
  | .done a, q => q >>= fun b => .done (a, b)
  | .read next, q => .read fun s => (next s).both q
  | .write s next, q => .write s (next.both q)
  | .pause next, q => q.inTurn (fun q => next.both q) fun b => next >>= fun a => .done (a, b)
  | .wait d next, q =>
    q.meanwhile (fun q => next.both q) (fun b => next >>= fun a => .done (a, b)) d

/-- Strands side by side, each having a turn in every round until it has ended. -/
def all : List (Strand σ α) → Strand σ (List α)
  | [] => .done []
  | p :: ps => p.both (all ps) >>= fun (a, as) => .done (a :: as)

end Strand
end ScopedSettings
