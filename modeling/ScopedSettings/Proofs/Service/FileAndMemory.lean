/-
A service on a file does what it does on memory.

Stores that mirror each other answer alike, so services on them are in step
(`Session.InStep`), and a program gives the same on both. That a record is
written as text, beside the file and then over it, and read back at every load,
is not to be seen from outside while no operation on the files fails.
-/
import ScopedSettings.Proofs.Service.InStep
import ScopedSettings.Proofs.Store.OrdinaryFile

namespace ScopedSettings

theorem RecordStore.alike_mirrors : Backend.Alike Mirrors :=
  ⟨Mirrors.load, Mirrors.commit⟩

namespace Session

open Files

/-- A program on a service whose record is in a file along an ordinary path gives what it
gives where the record is in memory: the same outcome of every operation, and the same
entries and counters after it. -/
theorem trace_file_eq_memory {path : String} {tree : Files.Tree} (hpath : tree.Ordinary path)
    {record : Option Settings}
    (hrecord : FileStore.recordAt path tree = record.elim (.error .recordNotFound) .ok)
    {config : Config} {r q : Service RecordStore}
    (hr : Service.ofBackend ⟨.file path, tree⟩ config = .ok r)
    (hq : Service.ofBackend ⟨.memory { record }, {}⟩ config = .ok q) (thread : WorkerId)
    (steps : Steps (Move Empty) ν) (tries : Bool) :
    (opened r thread).trace steps tries = (opened q thread).trace steps tries := by
  have hanswer : FileStore.recordAt path tree = MemoryStore.answer { record } := by
    rw [hrecord]
    cases record <;> rfl
  have hmirrors : RecordStore.Mirrors ⟨.file path, tree⟩ ⟨.memory { record }, {}⟩ :=
    .mk hpath rfl hanswer
  have hservice : r.InStep RecordStore.Mirrors q := by
    rw [Service.eq_of_ofBackend hr, Service.eq_of_ofBackend hq]
    exact ⟨hmirrors, rfl⟩
  have hopened : InStep RecordStore.Mirrors (opened r thread) (opened q thread) :=
    ⟨hservice, rfl, rfl, rfl⟩
  exact hopened.trace_eq RecordStore.alike_mirrors steps tries

theorem ordinary_oneFile (bytes : ByteArray) :
    (Tree.oneFile "s.json" bytes).Ordinary "s.json" where
  unrefused := rfl
  asksDirectory_eq := by decide
  made := rfl
  file := by
    refine ⟨⟨1, "s.json"⟩, rfl, ?_⟩
    intro d hd
    cases hd
  sibling := by
    refine ⟨⟨1, "s.json.tmp"⟩, rfl, ?_⟩
    intro d hd
    cases hd

theorem readBytes_oneFile (bytes : ByteArray) :
    (Tree.oneFile "s.json" bytes).readBytes "s.json" = .ok bytes := rfl

/-- A worker's unit writes and reads while another one's unit does. -/
def twoLanes : Steps (Move Empty) Unit :=
  .cons (.join (.cons ⟨1⟩ (.cons (.op (.use none (.write none { timeZone := some "日本" } .epoch)))
      (.cons (.op (.use none (.get none false))) .nil)) false (.ok ())
    (.cons ⟨2⟩ (.cons (.op (.use none (.get none false)))
      (.cons (.op (.use none (.write none { enableJira := some true } .epoch))) .nil)) true (.ok ())
      .nil))) .nil

/-- A store on a file with the record of the defaults in it. -/
def storedOnce : RecordStore where
  keeper := .file "s.json"
  tree := .oneFile "s.json" Settings.default.prettyText.toUTF8

theorem trace_file_eq_memory_two_lanes :
    ∃ r q, Service.ofBackend storedOnce {} = .ok r ∧
      Service.ofBackend (RecordStore.mk (.memory { record := some .default }) {}) {} = .ok q ∧
        (opened r ⟨0⟩).trace twoLanes false = (opened q ⟨0⟩).trace twoLanes false := by
  have hr : Service.ofBackend storedOnce {} = .ok _ := rfl
  have hq : Service.ofBackend (RecordStore.mk (.memory { record := some .default }) {}) {} =
    .ok _ := rfl
  have hrecord : FileStore.recordAt "s.json" storedOnce.tree =
      (some Settings.default).elim (.error .recordNotFound) .ok :=
    FileStore.recordAt_of_readBytes Settings.isRegular_default (readBytes_oneFile _)
  refine ⟨_, _, hr, hq, ?_⟩
  exact trace_file_eq_memory (ordinary_oneFile _) hrecord hr hq ⟨0⟩ twoLanes false

end Session
end ScopedSettings
