/-
Operations that name no worker, and the blocks of a program.

The current worker is that of the innermost scope, unit or lane around an operation in
the text of the program, or the thread's own outside any. So a program does the same
when its reads and writes name that worker (`Task.explicit`), and a look at the current
worker finds it (`Sees`). No task moves to another block (`Bench.ends_perform`); a lane
leaves its blocks while others have their turns, and a block is left however it ends.
-/
import ScopedSettings.Proofs.Program.Lexical
import ScopedSettings.Proofs.Service.Upholding
import ScopedSettings.Scenario.Run

namespace ScopedSettings

open Strand (Agree Ends)

variable {β : Type}

/-- The operation with the worker it is for, if it names none. -/
def Operation.explicit (w : WorkerId) : Operation → Operation
  | .get none bypass => .get (some w) bypass
  | .write none u now => .write (some w) u now
  | o => o

namespace Session

/-- Is a session that of a thread, in blocks of the given workers? -/
structure Placed (thread : WorkerId) (ws : List WorkerId) (s : Session β) : Prop where
  thread : s.thread = thread
  scopes : s.scopes = ws

variable {thread : WorkerId} {ws : List WorkerId} {s : Session β}

theorem Placed.current_eq (h : Placed thread ws s) : s.current = ws.headD thread := by
  unfold current
  rw [h.scopes, h.thread]

theorem Placed.enter (h : Placed thread ws s) (w : WorkerId) :
    Placed thread (w :: ws) (s.enter w) :=
  ⟨h.thread, congrArg (w :: ·) h.scopes⟩

theorem Placed.leave {w : WorkerId} (h : Placed thread (w :: ws) s) : Placed thread ws s.leave :=
  ⟨h.thread, congrArg List.tail h.scopes⟩

variable [Backend β]

theorem ends_run (c : Course α) (patience : Option Duration) :
    Ends (Placed thread ws) (fun _ => True) (run (β := β) c patience) :=
  (Ends.trivial _).on (fun _ _ => trivial) fun _ _ _ h => ⟨h.thread, h.scopes⟩

theorem upholds_placed : Upholds (β := β) (Placed thread ws) fun _ => True where
  get w bypass patience := (ends_run (Course.get w bypass) patience).imp fun _ _ _ _ => trivial
  fetch patience := (ends_run Course.fetch patience).imp fun _ _ _ _ => trivial
  write w u now patience :=
    (ends_run (Course.write w u now) patience).imp fun _ _ _ _ => trivial
  start w patience := ends_run (Course.start w) patience
  finish w patience := ends_run (Course.finish w) patience
  closeUnit h _ := ⟨h.thread, h.scopes⟩
  openUnit h _ _ := ⟨h.thread, h.scopes⟩

/-- No operation moves to another block. -/
theorem ends_perform (patience : Option Duration) (o : Operation) :
    Ends (Placed thread ws) (fun _ => True) (perform (β := β) patience o) :=
  (upholds_placed.perform patience o).imp fun _ _ => trivial

/-- What is done for the current worker is done for that of the innermost block. -/
theorem agree_runAs (h : Placed thread ws s) (c : WorkerId → Course α)
    (patience : Option Duration) (outcome : α → Outcome) :
    Agree (Placed thread ws) (fun _ => True) s (runAs none c patience outcome)
      (runAs (some (ws.headD thread)) c patience outcome) := by
  refine .read ?_
  change Agree _ _ s (runFor (c s.current) patience outcome)
    (runFor (c (ws.headD thread)) patience outcome)
  rw [h.current_eq]
  exact ((ends_run _ patience).map fun _ _ => trivial).agree h

theorem agree_perform (h : Placed thread ws s) (patience : Option Duration) (o : Operation) :
    Agree (Placed thread ws) (fun _ => True) s (perform patience o)
      (perform patience (o.explicit (ws.headD thread))) := by
  cases o with
  | get w bypass =>
    cases w with
    | none => exact agree_runAs h (fun w => Course.get w bypass) patience .settings
    | some w => exact (ends_perform patience _).agree h
  | write w u now =>
    cases w with
    | none => exact agree_runAs h (fun w => Course.write w u now) patience .settings
    | some w => exact (ends_perform patience _).agree h
  | fetch | start w | succeed w | fail w | begin w name | succeedUnit name | failUnit name
  | dropUnit name => exact (ends_perform patience _).agree h

end Session

namespace Scenario

open Session (Placed)

variable {thread : WorkerId} {ws : List WorkerId}

/-- The task with the worker it is for, if it is a read or a write that names none. -/
def Task.explicit (w : WorkerId) : Task → Task
  | .use o => .use (o.explicit w)
  | t => t

/-- A look at the current worker finds that of the innermost block. -/
def Sees (thread : WorkerId) (ws : List WorkerId) (t : Task) (found : Option Finding) : Prop :=
  t = .current → found = some (.worker (ws.headD thread) !ws.isEmpty)

namespace Bench

theorem ends_inSession {p : Strand (Session RecordStore) α}
    (h : Ends (Placed thread ws) (fun _ => True) p) :
    Ends (fun b : Bench => b.session.Placed thread ws) (fun _ => True) (inSession p) := by
  have hpart : ∀ b : Bench, b.session.Placed thread ws → b.session.Placed thread ws := fun _ h => h
  unfold inSession
  exact h.on hpart fun _ _ hs _ => hs

theorem ends_run (c : Course α) (finding : α → Finding) :
    Ends (fun b : Bench => b.session.Placed thread ws) (fun _ => True) (run c finding) :=
  (ends_inSession (Session.ends_run c _)).bind fun _ _ => .done trivial

theorem placed_mapService {b : Bench} (hb : b.session.Placed thread ws)
    (f : Service RecordStore → Service RecordStore) : (b.mapService f).session.Placed thread ws :=
  ⟨hb.thread, hb.scopes⟩

theorem placed_withTree {b : Bench} (hb : b.session.Placed thread ws) (tree : Files.Tree) :
    (b.withTree tree).session.Placed thread ws :=
  placed_mapService hb _

theorem ends_modify {f : Bench → Bench}
    (hf : ∀ b : Bench, b.session.Placed thread ws → (f b).session.Placed thread ws) :
    Ends (fun b : Bench => b.session.Placed thread ws) (fun _ => True) (.modify f) :=
  .act fun b hb => ⟨trivial, hf b hb⟩

theorem ends_change {f : Bench → Bench}
    (hf : ∀ b : Bench, b.session.Placed thread ws → (f b).session.Placed thread ws) :
    Ends (fun b : Bench => b.session.Placed thread ws) (fun _ => True) (change f) :=
  (ends_modify hf).bind fun _ _ => .done trivial

theorem session_receive (b : Bench) (name : String) : (b.receive name).2.session = b.session := by
  unfold receive
  split <;> rfl

/-- No task moves to another block. -/
theorem ends_perform (t : Task) :
    Ends (fun b : Bench => b.session.Placed thread ws) (fun _ => True) (perform t) := by
  cases t with
  | use o =>
    exact (ends_inSession (Session.ends_perform _ o)).bind fun _ _ => .done trivial
  | inspectUnit name | current | contains w | stats | countListeners | inspectStore
  | inspectCache | inspectService | storeName | showFile path | listFiles path =>
    exact .look fun _ _ => trivial
  | lookUp w | handle r now | showSettings json => exact ends_run _ _
  | keep w x | replace x => exact ends_change fun b hb => placed_mapService hb _
  | switch on =>
    refine (ends_modify fun b hb => placed_mapService hb _).bind fun _ _ => ?_
    exact .done trivial
  | putFile path bytes | makeDirectories path | removeFile path =>
    exact ends_change fun b hb => placed_withTree hb _
  | subscribe observer => exact ends_change fun b hb => hb
  | forget w => exact .act fun b hb => ⟨trivial, placed_mapService hb _⟩
  | addListener l =>
    exact (ends_modify fun b hb => placed_mapService hb _).bind fun _ _ => .look fun _ _ => trivial
  | takeNotes =>
    refine (Ends.look (P := fun _ => True) fun _ _ => trivial).bind fun notes _ => ?_
    exact (ends_modify fun b hb => placed_mapService hb _).bind fun _ _ => .done trivial
  | receive observer =>
    refine .act fun b hb => ⟨trivial, ?_⟩
    change Placed thread ws (b.receive observer).2.session
    rw [session_receive]
    exact hb
  | changeSettings u now =>
    exact (Ends.look (P := fun _ => True) fun _ _ => trivial).bind fun w _ => ends_run _ _
  | listen a => exact .done trivial

theorem ends_current :
    Ends (fun b : Bench => b.session.Placed thread ws) (Sees thread ws .current)
      (perform .current) := by
  refine .look fun b hb _ => ?_
  change some (Finding.worker b.session.current !b.session.scopes.isEmpty) = _
  rw [hb.current_eq, hb.scopes]

theorem agree_perform {b : Bench} (hb : b.session.Placed thread ws) (t : Task) :
    Agree (fun b : Bench => b.session.Placed thread ws) (fun _ => True) b (perform t)
      (perform (t.explicit (ws.headD thread))) := by
  cases t with
  | use o =>
    refine Agree.bind (P := fun _ => True) ?_ fun outcome c _ hc => .done hc trivial
    exact (Session.agree_perform hb _ o).on fun _ _ => rfl
  | _ => exact (ends_perform _).agree hb

end Bench

theorem lexical_machine (thread : WorkerId) :
    machine.Lexical (fun ws b => b.session.Placed thread ws)
      (fun ws t => t.explicit (ws.headD thread)) (Sees thread) where
  perform ws t b hb := by
    by_cases ht : t = .current
    · subst ht
      exact Bench.ends_current.agree hb
    · exact (Bench.agree_perform hb t).imp fun _ _ h => absurd h ht
  enter ws w b hb := hb.enter w
  leave ws w b hb := hb.leave
  start ws w b hb :=
    (Bench.ends_inSession ((Session.ends_run (Course.start w) none).map
      fun _ _ => trivial)).agree hb
  finish ws w b hb :=
    (Bench.ends_inSession ((Session.ends_run (Course.finish w) none).map
      fun _ _ => trivial)).agree hb

/-- A program whose reads and writes name no worker does what it does when each of them
names the worker of the innermost scope, unit or lane around it, or the thread's own where
there is none: everything it reports and leaves is the same. At its end it is back in the
block it started in, and wherever it looks at the current worker it finds that of the
innermost block. -/
theorem explicit_perform (steps : Steps Task ν) (tries : Bool) (b : Bench) :
    let thread := b.session.thread
    let ws := b.session.scopes
    let done := (steps.perform machine tries).alone b
    ((steps.explicit (fun ws t => t.explicit (ws.headD thread)) ws).perform machine tries).alone b
        = done ∧
      done.2.session.Placed thread ws ∧ steps.Fits (Sees thread) ws done.1.1 := by
  intro thread ws done
  have hagree := Steps.agree (lexical_machine thread) tries steps ws b ⟨rfl, rfl⟩
  obtain ⟨hsame, hfits, hplaced⟩ := hagree.alone
  exact ⟨hsame, hplaced, hfits⟩

end Scenario
end ScopedSettings
