/-
The ways the writing of a record to a file can go.

The bytes are written to the sibling and renamed over the record, after which only the
directory can still fail to be flushed (`FileStore.Replaces`), or whatever has been opened
for them is removed again (`FileStore.Withdraws`); what each act has come to on the way is
`FileStore.Persists`. After the first the path reads the bytes. After the second it reads
what it has read before, or nothing as before, unless it turned back through a directory that
has only just been made (`RawTree.Straight`). For either the tree has to be one in which the
sibling can do its work (`FileStore.Fit`).
-/
import ScopedSettings.Proofs.Files.Sibling
import ScopedSettings.Proofs.Store.FlushErrors

namespace ScopedSettings.FileStore

open Files Files.RawTree

/-! ## The procedures, performed -/

/-- What a load is answered with. -/
def recordAt (path : String) (t : RawTree) : Except SettingsError Settings :=
  match t.readText path with
  | .ok text => Settings.ofText text
  | .error .notFound => .error .recordNotFound
  | .error f => .error (unavailable .read path f)

theorem load_eq (path : String) (t : Tree) : load path t = (recordAt path t, t) := by
  have hread : (FileProcedure.readText path).runOn FileAct.carryOut t = (t.readText path, t) :=
    Procedure.runOn_act FileAct.carryOut (.readText path) t
  unfold load loadProcedure recordAt
  rw [Procedure.runOn_bind, hread]
  cases t.readText path with
  | ok text => rfl
  | error f => cases f <;> rfl

/-- Writes bytes to the open sibling of a path in a tree and renames that over the path. -/
def install (path : String) (id : FileId) (bytes : ByteArray) (t : Tree) :
    Except SettingsError Unit × Tree :=
  (installProcedure path id bytes).runOn FileAct.carryOut t

/-- Writes a record to the sibling of a path in a tree and renames that over the path. -/
def persist (path : String) (s : Settings) (t : Tree) : Except SettingsError Unit × Tree :=
  (persistProcedure path s).runOn FileAct.carryOut t

/-- The record an update is applied to. -/
def baseOf : Except SettingsError Settings → Except SettingsError Settings
  | .error .recordNotFound => .ok .default
  | r => r

theorem commit_eq_replace (path : String) (u : Update) (now : Instant) (t : Tree) :
    commit path u now t = (replaceProcedure path u now).runOn FileAct.carryOut t := by
  unfold commit commitProcedure
  rw [Procedure.runOn_bind]
  change (replaceProcedure path u now >>= fun answer => FileProcedure.release >>= fun _ =>
    pure answer).runOn FileAct.carryOut t = _
  rw [Procedure.runOn_bind]
  rfl

/-- What a commit does with the record there is to update, if there is one. -/
def updateProcedure (path : String) (u : Update) (now : Instant) :
    Except SettingsError Settings → FileProcedure (Except SettingsError Settings)
  | .error e => pure (.error e)
  | .ok base => persistProcedure path (u.apply base now) >>= fun answer =>
    pure (answer.map fun _ => u.apply base now)

theorem replaceProcedure_eq (path : String) (u : Update) (now : Instant) :
    replaceProcedure path u now =
      loadProcedure path >>= fun r => updateProcedure path u now (baseOf r) := by
  unfold replaceProcedure
  congr 1
  funext r
  dsimp only
  split
  · rename_i e hr
    have hbase : baseOf r = .error e := hr
    rw [hbase]
    rfl
  · rename_i base hr
    have hbase : baseOf r = .ok base := hr
    rw [hbase]
    refine congrArg _ (funext fun answer => ?_)
    cases answer <;> rfl

section

variable {path : String} {t t' : Tree}

theorem commit_eq_update (path : String) (u : Update) (now : Instant) (t : Tree) :
    commit path u now t = (updateProcedure path u now (baseOf (recordAt path t))).runOn
      FileAct.carryOut t := by
  have hload : (loadProcedure path).runOn FileAct.carryOut t = (recordAt path t, t) :=
    load_eq path t
  rw [commit_eq_replace, replaceProcedure_eq, Procedure.runOn_bind, hload]

theorem commit_of_unread {e : SettingsError} (h : baseOf (recordAt path t) = .error e)
    (u : Update) (now : Instant) : commit path u now t = (.error e, t) := by
  rw [commit_eq_update, h]
  rfl

theorem commit_of_read {base : Settings} (h : baseOf (recordAt path t) = .ok base)
    (u : Update) (now : Instant) :
    commit path u now t = ((persist path (u.apply base now) t).1.map fun _ => u.apply base now,
      (persist path (u.apply base now) t).2) := by
  rw [commit_eq_update, h]
  unfold updateProcedure persist
  rw [Procedure.runOn_bind]
  rfl

end

/-! ## The ways a commit can go -/

/-- An open sibling cannot be written to, flushed or renamed, or it is renamed over the path. -/
inductive Installs (path : String) (id : FileId) (bytes : ByteArray) (t : RawTree) :
    Except SettingsError Unit → RawTree → Prop
  | unwritten {f : Failure} {t₁ : RawTree} (hwritten : t.write id bytes = (.error f, t₁)) :
    Installs path id bytes t (.error (unavailable .write path f)) t₁
  | unsynced {f : Failure} {t₁ : RawTree} (hwritten : t.write id bytes = (.ok (), t₁))
    (hsynced : t₁.sync id = .error f) :
    Installs path id bytes t (.error (unavailable .sync path f)) t₁
  | unreplaced {f : Failure} {t₁ : RawTree} (hwritten : t.write id bytes = (.ok (), t₁))
    (hsynced : t₁.sync id = .ok ())
    (hrenamed : t₁.rename (temporarySibling path) path = (.error f, t₁)) :
    Installs path id bytes t (.error (unavailable .replace path f)) t₁
  | replaced {t₁ t₂ : RawTree} (hwritten : t.write id bytes = (.ok (), t₁))
    (hsynced : t₁.sync id = .ok ())
    (hrenamed : t₁.rename (temporarySibling path) path = (.ok (), t₂)) :
    Installs path id bytes t (.ok ()) t₂

theorem installs (path : String) (id : FileId) (bytes : ByteArray) (t : Tree) :
    Installs path id bytes t (install path id bytes t).1 (install path id bytes t).2 := by
  unfold install installProcedure
  rw [Procedure.runOn_bind]
  cases hwritten : t.write id bytes with
  | mk answer t₁ =>
  have hwritten' : (FileProcedure.write id bytes).runOn FileAct.carryOut t = (answer, t₁) :=
    (Procedure.runOn_act FileAct.carryOut (.write id bytes) t).trans hwritten
  have hraw := Tree.toRawTree_lift hwritten
  rw [hwritten']
  cases answer with
  | error f => exact .unwritten hraw
  | ok _ =>
    dsimp only
    rw [Procedure.runOn_bind]
    cases hsynced : t₁.sync id with
    | error f =>
      have hsynced' : (FileProcedure.sync id).runOn FileAct.carryOut t₁ = (.error f, t₁) :=
        (Procedure.runOn_act FileAct.carryOut (.sync id) t₁).trans (by rw [← hsynced]; rfl)
      rw [hsynced']
      exact .unsynced hraw hsynced
    | ok _ =>
      have hsynced' : (FileProcedure.sync id).runOn FileAct.carryOut t₁ = (.ok (), t₁) :=
        (Procedure.runOn_act FileAct.carryOut (.sync id) t₁).trans (by rw [← hsynced]; rfl)
      rw [hsynced']
      dsimp only
      rw [Procedure.runOn_bind]
      cases hrenamed : t₁.rename (temporarySibling path) path with
      | mk answer t₂ =>
      have hrenamed' : (FileProcedure.rename (temporarySibling path) path).runOn FileAct.carryOut
          t₁ = (answer, t₂) :=
        (Procedure.runOn_act FileAct.carryOut (.rename (temporarySibling path) path) _).trans
          hrenamed
      have hraw' := Tree.toRawTree_lift hrenamed
      rw [hrenamed']
      cases answer with
      | ok _ => exact .replaced hraw hsynced hraw'
      | error f =>
        obtain rfl : t₂ = t₁ := Tree.eq_of_toRawTree (eq_of_rename_error hraw')
        exact .unreplaced hraw hsynced hraw'

/-- Bytes are not put in place of the record, for the directory or the sibling cannot be made or
the sibling cannot take the record's place, and then it is removed as far as it can be; or they
are, and the directory is flushed or not. -/
inductive Persists (path : String) (bytes : ByteArray) (t : RawTree) :
    Except SettingsError Unit → RawTree → Prop
  | noDirectory {f : Failure} {t₁ : RawTree}
    (hmade : t.makeDirectories (parent path) = (.error f, t₁)) :
    Persists path bytes t (.error (unavailable .makeDirectories path f)) t₁
  | noSibling {f : Failure} {t₁ : RawTree} (hmade : t.makeDirectories (parent path) = (.ok (), t₁))
    (hcreated : t₁.create (temporarySibling path) = (.error f, t₁)) :
    Persists path bytes t (.error (unavailable .create path f)) t₁
  | withdrawn {e : SettingsError} {id : FileId} {t₁ t₂ t₃ t₄ : RawTree}
    {answer : Except Failure Unit}
    (hmade : t.makeDirectories (parent path) = (.ok (), t₁))
    (hcreated : t₁.create (temporarySibling path) = (.ok id, t₂))
    (hinstalled : Installs path id bytes t₂ (.error e) t₃)
    (hremoved : t₃.remove (temporarySibling path) = (answer, t₄)) :
    Persists path bytes t (.error e) t₄
  | flushed {id : FileId} {t₁ t₂ t₃ : RawTree}
    (hmade : t.makeDirectories (parent path) = (.ok (), t₁))
    (hcreated : t₁.create (temporarySibling path) = (.ok id, t₂))
    (hinstalled : Installs path id bytes t₂ (.ok ()) t₃)
    (hflushed : t₃.syncDirectory (parent path) = .ok ()) : Persists path bytes t (.ok ()) t₃
  | unflushed {f : Failure} {id : FileId} {t₁ t₂ t₃ : RawTree}
    (hmade : t.makeDirectories (parent path) = (.ok (), t₁))
    (hcreated : t₁.create (temporarySibling path) = (.ok id, t₂))
    (hinstalled : Installs path id bytes t₂ (.ok ()) t₃)
    (hflushed : t₃.syncDirectory (parent path) = .error f) :
    Persists path bytes t (.error (unavailable .syncDirectory path f)) t₃

theorem persists (path : String) (s : Settings) (t : Tree) :
    Persists path s.prettyText.toUTF8 t (persist path s t).1 (persist path s t).2 := by
  unfold persist persistProcedure
  generalize s.prettyText.toUTF8 = bytes
  rw [Procedure.runOn_bind]
  cases hmade : t.makeDirectories (parent path) with
  | mk answer t₁ =>
  have hmade' : (FileProcedure.makeDirectories (parent path)).runOn FileAct.carryOut t =
      (answer, t₁) :=
    (Procedure.runOn_act FileAct.carryOut (.makeDirectories (parent path)) t).trans hmade
  have hraw := Tree.toRawTree_lift hmade
  rw [hmade']
  cases answer with
  | error f => exact .noDirectory hraw
  | ok _ =>
    dsimp only
    rw [Procedure.runOn_bind]
    cases hcreated : t₁.create (temporarySibling path) with
    | mk answer t₂ =>
    have hcreated' : (FileProcedure.create (temporarySibling path)).runOn FileAct.carryOut t₁ =
        (answer, t₂) :=
      (Procedure.runOn_act FileAct.carryOut (.create (temporarySibling path)) t₁).trans hcreated
    have hraw₂ := Tree.toRawTree_lift hcreated
    rw [hcreated']
    cases answer with
    | error f =>
      obtain rfl : t₂ = t₁ := Tree.eq_of_toRawTree (eq_of_create_error hraw₂)
      exact .noSibling hraw hraw₂
    | ok id =>
      dsimp only
      rw [Procedure.runOn_bind]
      have hinstalled := installs path id bytes t₂
      unfold install at hinstalled
      generalize (installProcedure path id bytes).runOn FileAct.carryOut t₂ = installed
        at hinstalled
      obtain ⟨answer, t₃⟩ := installed
      cases answer with
      | error e =>
        dsimp only
        rw [Procedure.runOn_bind]
        cases hremoved : t₃.remove (temporarySibling path) with
        | mk answer t₄ =>
        have hremoved' : (FileProcedure.remove (temporarySibling path)).runOn FileAct.carryOut t₃ =
            (answer, t₄) :=
          (Procedure.runOn_act FileAct.carryOut (.remove (temporarySibling path)) _).trans hremoved
        rw [hremoved']
        exact .withdrawn hraw hraw₂ hinstalled (Tree.toRawTree_lift hremoved)
      | ok _ =>
        dsimp only
        rw [Procedure.runOn_bind]
        have hflush : (FileProcedure.syncDirectory (parent path)).runOn FileAct.carryOut t₃ =
            (t₃.syncDirectory (parent path), t₃) := rfl
        rw [hflush]
        cases hflushed : t₃.syncDirectory (parent path) with
        | ok _ => exact .flushed hraw hraw₂ hinstalled hflushed
        | error f => exact .unflushed hraw hraw₂ hinstalled hflushed

/-- An open sibling can be installed in one way only. -/
theorem Installs.unique {path : String} {id : FileId} {bytes : ByteArray} {t t₁ t₂ : RawTree}
    {a b : Except SettingsError Unit} (h : Installs path id bytes t a t₁)
    (h' : Installs path id bytes t b t₂) : a = b ∧ t₁ = t₂ := by
  cases h <;> cases h' <;> simp_all

/-- Bytes are put in place of the record, or not, in one way only. -/
theorem Persists.unique {path : String} {bytes : ByteArray} {t t₁ t₂ : RawTree}
    {a b : Except SettingsError Unit} (h : Persists path bytes t a t₁)
    (h' : Persists path bytes t b t₂) : a = b ∧ t₁ = t₂ := by
  cases h with
  | noDirectory hmade | noSibling hmade hcreated => cases h' <;> simp_all
  | withdrawn hmade hcreated hinstalled hremoved =>
    cases h' with
    | noDirectory hmade' | noSibling hmade' hcreated' => simp_all
    | withdrawn hmade' hcreated' hinstalled' hremoved' =>
      cases hmade.symm.trans hmade'
      cases hcreated.symm.trans hcreated'
      cases hinstalled.unique hinstalled'
      simp_all
    | flushed hmade' hcreated' hinstalled' hflushed'
    | unflushed hmade' hcreated' hinstalled' hflushed' =>
      cases hmade.symm.trans hmade'
      cases hcreated.symm.trans hcreated'
      cases (hinstalled.unique hinstalled').1
  | flushed hmade hcreated hinstalled hflushed
  | unflushed hmade hcreated hinstalled hflushed =>
    cases h' with
    | noDirectory hmade' | noSibling hmade' hcreated' => simp_all
    | withdrawn hmade' hcreated' hinstalled' hremoved' =>
      cases hmade.symm.trans hmade'
      cases hcreated.symm.trans hcreated'
      cases (hinstalled.unique hinstalled').1
    | flushed hmade' hcreated' hinstalled' hflushed'
    | unflushed hmade' hcreated' hinstalled' hflushed' =>
      cases hmade.symm.trans hmade'
      cases hcreated.symm.trans hcreated'
      cases (hinstalled.unique hinstalled').2
      simp_all

theorem persist_eq {path : String} {s : Settings} {t : Tree} {t₁ : RawTree}
    {answer : Except SettingsError Unit} (h : Persists path s.prettyText.toUTF8 t answer t₁) :
    (persist path s t).1 = answer ∧ (persist path s t).2.toRawTree = t₁ :=
  (persists path s t).unique h

/-- A commit by the way that its record goes. -/
theorem commit_of_persists {path : String} {t : Tree} (u : Update) (now : Instant)
    {base : Settings} (hbase : baseOf (recordAt path t) = .ok base)
    {answer : Except SettingsError Unit} {t₁ : RawTree}
    (h : Persists path (u.apply base now).prettyText.toUTF8 t answer t₁) :
    ∃ t' : Tree, commit path u now t = (answer.map fun _ => u.apply base now, t') ∧
      t'.toRawTree = t₁ := by
  obtain ⟨hanswer, htree⟩ := persist_eq h
  refine ⟨_, ?_, htree⟩
  rw [commit_of_read hbase, hanswer]

/-- Bytes are written to the sibling of a path and renamed over it. -/
inductive Replaces (path : String) (bytes : ByteArray) (t : RawTree) : RawTree → Prop
  | mk {id : FileId} {t₁ t₂ t₃ t₄ : RawTree}
    (hmade : t.makeDirectories (parent path) = (.ok (), t₁))
    (hcreated : t₁.create (temporarySibling path) = (.ok id, t₂))
    (hwritten : t₂.write id bytes = (.ok (), t₃))
    (hrenamed : t₃.rename (temporarySibling path) path = (.ok (), t₄)) :
    Replaces path bytes t t₄

/-- Nothing is opened under the sibling's name, or what is opened there cannot take the place of
the record, and is removed as far as it can be. -/
inductive Withdraws (path : String) (bytes : ByteArray) (t : RawTree) : RawTree → Prop
  | unopened {t₁ : RawTree} {answer : Except Failure Unit}
    (hmade : t.makeDirectories (parent path) = (answer, t₁)) : Withdraws path bytes t t₁
  | removed {e : SettingsError} {id : FileId} {t₁ t₂ t₃ t₄ : RawTree} {answer : Except Failure Unit}
    (hmade : t.makeDirectories (parent path) = (.ok (), t₁))
    (hcreated : t₁.create (temporarySibling path) = (.ok id, t₂))
    (hinstalled : Installs path id bytes t₂ (.error e) t₃)
    (hremoved : t₃.remove (temporarySibling path) = (answer, t₄)) : Withdraws path bytes t t₄

theorem Installs.exists_write {path : String} {id : FileId} {bytes : ByteArray} {t t' : RawTree}
    {e : SettingsError} (h : Installs path id bytes t (.error e) t') :
    ∃ answer, t.write id bytes = (answer, t') := by
  cases h with
  | unwritten hwritten => exact ⟨_, hwritten⟩
  | unsynced hwritten _ => exact ⟨_, hwritten⟩
  | unreplaced hwritten _ _ => exact ⟨_, hwritten⟩

theorem Installs.isUnflushed_eq {path : String} {id : FileId} {bytes : ByteArray} {t t' : RawTree}
    {e : SettingsError} (h : Installs path id bytes t (.error e) t') :
    isUnflushed path e = false := by
  cases h <;> exact isUnflushed_unavailable_of_ne path (by decide) _

/-- The record is replaced where the answer is that it was, or that only the directory could not
be flushed after it; otherwise all that has been opened is withdrawn. -/
theorem Persists.outcome {path : String} {bytes : ByteArray} {t t' : RawTree}
    {answer : Except SettingsError Unit} (h : Persists path bytes t answer t') :
    ((answer = .ok () ∨ ∃ e, answer = .error e ∧ isUnflushed path e = true) ∧
      Replaces path bytes t t') ∨
    (∃ e, answer = .error e ∧ isUnflushed path e = false) ∧ Withdraws path bytes t t' := by
  cases h with
  | noDirectory hmade =>
    exact .inr ⟨⟨_, rfl, isUnflushed_unavailable_of_ne path (by decide) _⟩, .unopened hmade⟩
  | noSibling hmade hcreated =>
    exact .inr ⟨⟨_, rfl, isUnflushed_unavailable_of_ne path (by decide) _⟩, .unopened hmade⟩
  | withdrawn hmade hcreated hinstalled hremoved =>
    exact .inr ⟨⟨_, rfl, hinstalled.isUnflushed_eq⟩, .removed hmade hcreated hinstalled hremoved⟩
  | flushed hmade hcreated hinstalled hflushed =>
    cases hinstalled with
    | replaced hwritten hsynced hrenamed =>
      exact .inl ⟨.inl rfl, .mk hmade hcreated hwritten hrenamed⟩
  | unflushed hmade hcreated hinstalled hflushed =>
    cases hinstalled with
    | replaced hwritten hsynced hrenamed =>
      exact .inl ⟨.inr ⟨_, rfl, (isUnflushed_unavailable_iff ..).mpr rfl⟩,
        .mk hmade hcreated hwritten hrenamed⟩

/-- Where the answer says that the directory could not be flushed, it cannot be. -/
theorem Persists.syncDirectory_error {path : String} {bytes : ByteArray} {t t' : RawTree}
    {e : SettingsError} (h : Persists path bytes t (.error e) t') (he : isUnflushed path e = true) :
    ∃ f, t'.syncDirectory (parent path) = .error f := by
  cases h with
  | noDirectory _ | noSibling _ _ => simp [isUnflushed_unavailable_iff] at he
  | withdrawn _ _ hinstalled _ =>
    rw [hinstalled.isUnflushed_eq] at he
    cases he
  | unflushed _ _ _ hflushed => exact ⟨_, hflushed⟩

/-! ## What a path reads afterwards -/

/-- Can the sibling do its work without harm to the record, wherever the path leads once
directories have been made? Either nothing is refused once a file has been opened to be
written, or the sibling is not the record's own file; and if it is there it can be read. -/
structure Fit (path : String) (t : RawTree) : Prop where
  apart : (∀ bytes, t.refusals.put bytes = none) ∧ t.refusals.flush = none ∨
    ∀ t', Grows t t' → t'.Apart path
  readable (t' : RawTree) (h : Grows t t') : t'.Readable (temporarySibling path)

section

variable {path : String} {bytes : ByteArray} {t t' : RawTree}

theorem fit_of_access (hput : ∀ bytes, t.refusals.put bytes = none)
    (hflush : t.refusals.flush = none) (hread : ∀ f, t.refusals.read f = none) : Fit path t where
  apart := .inl ⟨hput, hflush⟩
  readable _ hgrows _ f _ _ := by
    rw [hgrows.refusals_eq, hread f]

theorem fit_of_unrefused (h : t.refusals = .none) : Fit path t := by
  apply fit_of_access <;> simp [h, Refusals.none]

/-- Where the directory that the sibling lies in is there, it is the one in it that counts. -/
theorem fit_of_resolve (hs : t.Sound) {q : Place}
    (hq : t.resolve (temporarySibling path) = .ok (.name q))
    (hapart : (∀ bytes, t.refusals.put bytes = none) ∧ t.refusals.flush = none ∨ t.Apart path)
    (hread : t.Readable (temporarySibling path)) : Fit path t where
  apart := hapart.imp_right fun h _ hgrows => h.of_grows_sibling hs hgrows hq
  readable _ hgrows := hread.of_grows hs hgrows hq

theorem fit_of_no_sibling (hs : t.Sound) {q : Place}
    (hq : t.resolve (temporarySibling path) = .ok (.name q)) (hnone : t.node? q = none) :
    Fit path t := by
  have hnot {q' : Place} (hq' : t.resolve (temporarySibling path) = .ok (.name q')) (f : FileId) :
      t.node? q' ≠ some (.file f) := by
    cases hq.symm.trans hq'
    rw [hnone]
    simp
  exact fit_of_resolve hs hq (.inr fun _ _ f _ hq' _ => hnot hq' f)
    fun _ f hp hnode => absurd hnode (hnot hp f)

theorem Fit.of_grows (h : Fit path t) (hgrows : Grows t t') : Fit path t' where
  apart := by
    rw [hgrows.refusals_eq]
    exact h.apart.imp_right fun hapart t'' hgrows' => hapart t'' (hgrows.trans hgrows')
  readable t'' hgrows' := h.readable t'' (hgrows.trans hgrows')

/-- A sibling that cannot take the record's place has been written, but not the whole of it, or
what has been written cannot be flushed, or it cannot be renamed. -/
theorem Installs.left {id : FileId} {t₁ t₂ : RawTree} {e : SettingsError} (hs : t.Sound)
    (hcreated : t.create (temporarySibling path) = (.ok id, t₁))
    (hinstalled : Installs path id bytes t₁ (.error e) t₂) :
    ∃ q part, Written t t₂ (temporarySibling path) q id part ∧
      (t.refusals.put bytes ≠ none ∧ IsCut part bytes ∨ part = bytes ∧ (t.refusals.flush ≠ none ∨
        ∃ f, t₂.rename (temporarySibling path) path = (.error f, t₂))) := by
  obtain ⟨answer, hwritten⟩ := hinstalled.exists_write
  obtain ⟨q, part, hfile, hpart⟩ := hs.written hcreated hwritten
  refine ⟨q, part, hfile, ?_⟩
  cases hinstalled with
  | unwritten hwritten' =>
    cases hwritten.symm.trans hwritten'
    exact .inl (hpart.resolve_left (by simp)).2
  | unsynced hwritten' hsynced =>
    cases hwritten.symm.trans hwritten'
    refine .inr ⟨(hpart.resolve_right (by simp)).2, .inl fun hflush => ?_⟩
    unfold RawTree.sync at hsynced
    rw [hfile.changes.refusals_eq, hflush] at hsynced
    cases hsynced
  | unreplaced hwritten' hsynced hrenamed =>
    cases hwritten.symm.trans hwritten'
    exact .inr ⟨(hpart.resolve_right (by simp)).2, .inr ⟨_, hrenamed⟩⟩

/-- Where it is the record's own file, it can be renamed: the file has the record's name
already. -/
theorem Installs.linked {id : FileId} {t₁ t₂ : RawTree} {e : SettingsError} (hs : t.Sound)
    (hcreated : t.create (temporarySibling path) = (.ok id, t₁))
    (hinstalled : Installs path id bytes t₁ (.error e) t₂) (hasks : asksDirectory path = false)
    (hlinked : ¬t.Apart path) :
    ∃ p q part, t.resolve path = .ok (.name p) ∧ t.node? p = some (.file id) ∧
      t.node? q = some (.file id) ∧ Written t t₂ (temporarySibling path) q id part ∧
      (t.refusals.put bytes ≠ none ∧ IsCut part bytes ∨
        t.refusals.flush ≠ none ∧ part = bytes) := by
  simp only [RawTree.Apart, Classical.not_forall, ne_eq, Decidable.not_not] at hlinked
  obtain ⟨p, q, f, hp, hq, hnode, hsame⟩ := hlinked
  obtain ⟨q', part, hfile, hleft⟩ := hinstalled.left hs hcreated
  obtain rfl : q' = q := by simpa [hfile.resolve_before] using hq
  obtain rfl : id = f := by
    rcases hfile.before with hold | ⟨hnone, -, -⟩
    · simpa [hsame] using hold.symm
    · rw [hsame] at hnone
      cases hnone
  refine ⟨p, q', part, hp, hnode, hsame, hfile, ?_⟩
  rcases hleft with hcut | ⟨hall, hflush | ⟨g, hrenamed⟩⟩
  · exact .inl hcut
  · exact .inr ⟨hflush, hall⟩
  · have hp' := hfile.changes.keeps.resolve hs hp
    have hnode' : t₂.node? p = some (.file id) := by
      rw [hfile.changes.node?_eq (place_ne_of_resolve hp hq), hnode]
    rw [rename_of_same hfile.resolve_eq hfile.node?_self hp' hasks hnode'] at hrenamed
    cases hrenamed

/-- Where the tree is fit for it, it is not the record's own file. -/
theorem Fit.apart_of_installs {id : FileId} {t₁ t₂ : RawTree} {e : SettingsError} (h : Fit path t)
    (hs : t.Sound) (hcreated : t.create (temporarySibling path) = (.ok id, t₁))
    (hinstalled : Installs path id bytes t₁ (.error e) t₂) (hasks : asksDirectory path = false) :
    t.Apart path := by
  rcases h.apart with ⟨hput, hflush⟩ | hapart
  · refine Classical.byContradiction fun hlinked => ?_
    obtain ⟨-, -, -, -, -, -, -, ⟨hrefused, -⟩ | ⟨hrefused, -⟩⟩ :=
      hinstalled.linked hs hcreated hasks hlinked
    · exact hrefused (hput bytes)
    · exact hrefused hflush
  · exact hapart t (.refl t)

namespace Replaces

variable (h : Replaces path bytes t t') (hs : t.Sound)
include h hs

theorem keeps : Keeps t t' ∧ t'.Sound := by
  cases h with
  | mk hmade hcreated hwritten hrenamed =>
    obtain ⟨hgrows, hsound⟩ := hs.made hmade
    obtain ⟨p, part, hfile, -⟩ := hsound.written hcreated hwritten
    obtain ⟨hkeeps, -, hsound', -⟩ := hfile.renamed hrenamed
    exact ⟨hgrows.keeps.trans hkeeps, hsound'⟩

/-- What has been written is read, unless that is refused. -/
theorem readBytes_cases :
    t'.readBytes path = .ok bytes ∨ ∃ e, t'.readBytes path = .error (.refused e) := by
  cases h with
  | mk hmade hcreated hwritten hrenamed =>
    obtain ⟨hgrows, hsound⟩ := hs.made hmade
    obtain ⟨p, part, hfile, hall⟩ := hsound.written hcreated hwritten
    rw [← (hall.resolve_right (by simp)).2]
    exact hfile.readBytes_renamed_cases hrenamed

/-- What has been written is read. -/
theorem readBytes (hfit : Fit path t) : t'.readBytes path = .ok bytes := by
  cases h with
  | mk hmade hcreated hwritten hrenamed =>
    obtain ⟨hgrows, hsound⟩ := hs.made hmade
    obtain ⟨p, part, hfile, hall⟩ := hsound.written hcreated hwritten
    rw [← (hall.resolve_right (by simp)).2]
    exact hfile.readBytes_renamed hsound (hfit.readable _ hgrows) hrenamed

/-- The sibling's name is given up when the record is replaced, or it is one the record's file
has anyway. -/
theorem fit (hfit : Fit path t) : Fit path t' := by
  cases h with
  | @mk id t₁ t₂ t₃ _ hmade hcreated hwritten hrenamed =>
    obtain ⟨hgrows, hsound⟩ := hs.made hmade
    obtain ⟨q, part, hfile, -⟩ := hsound.written hcreated hwritten
    obtain ⟨hkeeps, -, hsound', -⟩ := hfile.renamed hrenamed
    have hsibling := hfile.resolve_before
    have hleft := hkeeps.resolve hsound hsibling
    obtain ⟨r, hresolve, -, hmoved⟩ := rename_ok hrenamed hfile.resolve_eq hfile.node?_self
    have hr := hfile.changes.symm.keeps.resolve hfile.sound hresolve
    have hrq := place_ne_of_resolve hr hsibling
    rcases hmoved with ⟨hsame, rfl⟩ | ⟨-, -, -, rfl⟩
    · -- the sibling is the record's own file, and has been before
      refine fit_of_resolve hsound' hleft ?_ fun p f hp hnode => ?_
      · rw [hfile.changes.refusals_eq, hgrows.refusals_eq]
        refine hfit.apart.imp_right fun hapart => ?_
        rw [hfile.changes.node?_eq hrq] at hsame
        rcases hfile.before with hnode | ⟨-, hnew, -⟩
        · exact absurd hnode (hapart _ hgrows r q id hr hsibling hsame)
        · exact absurd (hsound.file_lt hsame) (Nat.not_lt.mpr hnew)
      · cases hleft.symm.trans hp
        cases hfile.node?_self.symm.trans hnode
        exact hfile.read_eq_none hsound (hfit.readable _ hgrows)
    · refine fit_of_no_sibling hsound' hleft ?_
      rw [node?_putNode_other _ hrq.symm, node?_dropNode_self _ hfile.place_lt]

end Replaces

namespace Withdraws

variable (h : Withdraws path bytes t t') (hs : t.Sound)
include h hs

theorem keeps : Keeps t t' ∧ t'.Sound := by
  cases h with
  | unopened hmade =>
    obtain ⟨hgrows, hsound⟩ := hs.made hmade
    exact ⟨hgrows.keeps, hsound⟩
  | removed hmade hcreated hinstalled hremoved =>
    obtain ⟨hgrows, hsound⟩ := hs.made hmade
    obtain ⟨answer, hwritten⟩ := hinstalled.exists_write
    obtain ⟨p, part, hfile, -⟩ := hsound.written hcreated hwritten
    obtain ⟨hchanges, hsound'⟩ := hfile.changes_removed hremoved
    exact ⟨hgrows.keeps.trans hchanges.keeps, hsound'⟩

/-- No file is there that was not there before. -/
theorem file_eq {p : Place} {f : FileId} (hp : t'.node? p = some (.file f)) :
    t.node? p = some (.file f) := by
  cases h with
  | unopened hmade => exact (hs.made hmade).1.file_eq hp
  | removed hmade hcreated hinstalled hremoved =>
    obtain ⟨hgrows, hsound⟩ := hs.made hmade
    obtain ⟨answer, hwritten⟩ := hinstalled.exists_write
    obtain ⟨q, part, hfile, -⟩ := hsound.written hcreated hwritten
    exact hgrows.file_eq (hfile.file_removed hremoved hp)

theorem fit (hfit : Fit path t) : Fit path t' := by
  cases h with
  | unopened hmade => exact hfit.of_grows (hs.made hmade).1
  | removed hmade hcreated hinstalled hremoved =>
    obtain ⟨hgrows, hsound⟩ := hs.made hmade
    obtain ⟨answer, hwritten⟩ := hinstalled.exists_write
    obtain ⟨q, part, hfile, -⟩ := hsound.written hcreated hwritten
    obtain ⟨hchanges, hsound'⟩ := hfile.changes_removed hremoved
    have hsibling := hfile.resolve_before
    have hleft := hchanges.keeps.resolve hsound hsibling
    refine fit_of_resolve hsound' hleft ?_ fun p f hp hnode => ?_
    · rw [hchanges.refusals_eq, hgrows.refusals_eq]
      refine hfit.apart.imp_right fun hapart => ?_
      exact .of_changes hchanges hsound hsound' hsibling fun p f hp hnode hsame =>
        hapart _ hgrows p q f hp hsibling hnode (hfile.file_removed hremoved hsame)
    · cases hleft.symm.trans hp
      rw [hchanges.refusals_eq]
      exact hfit.readable _ hgrows q f hsibling (hfile.file_removed hremoved hnode)

/-- What could be read is read still, or it has been written over: where the tree is not fit,
the sibling is the record's own file. -/
theorem readBytes_cases {old : ByteArray} (hread : t.readBytes path = .ok old) :
    t'.readBytes path = .ok old ∨ ¬Fit path t ∧ ∃ part, t'.readBytes path = .ok part ∧
      (IsCut part bytes ∨ t.refusals.flush ≠ none ∧ part = bytes) := by
  cases h with
  | unopened hmade => exact .inl ((hs.made hmade).1.readBytes hs hread)
  | @removed e id t₁ t₂ t₃ t₄ answer hmade hcreated hinstalled hremoved =>
    obtain ⟨hgrows, hsound⟩ := hs.made hmade
    have hread₁ := hgrows.readBytes hs hread
    obtain ⟨p, f, hresolve, hnode, hasks, hopen, -⟩ := readBytes_eq_ok_iff.mp hread₁
    by_cases hapart : t₁.Apart path
    · obtain ⟨q, part, hfile, -⟩ := hinstalled.left hsound hcreated
      exact .inl ((hfile.readBytes_removed hsound hapart hremoved).trans hread₁)
    · refine .inr ⟨fun hfit => hapart ?_, ?_⟩
      · exact (hfit.of_grows hgrows).apart_of_installs hsound hcreated hinstalled hasks
      obtain ⟨p', q, part, hresolve', hnode', hsame, hfile, hleft⟩ :=
        hinstalled.linked hsound hcreated hasks hapart
      obtain rfl : p' = p := by simpa [hresolve] using hresolve'.symm
      obtain rfl : id = f := by simpa [hnode] using hnode'.symm
      obtain ⟨hchanges, hsound'⟩ := hfile.changes_removed hremoved
      refine ⟨part, readBytes_eq_ok_iff.mpr ⟨p', id, ?_, ?_, hasks, ?_, ?_⟩, ?_⟩
      · exact hchanges.keeps.resolve hsound hresolve
      · rw [hchanges.node?_eq (place_ne_of_resolve hresolve hfile.resolve_before), hnode]
      · rw [hchanges.refusals_eq, hopen]
      · rw [hfile.content_removed hremoved, hfile.content_self]
      · rw [← hgrows.refusals_eq]
        exact hleft.imp_left (·.2)

/-- What is read along a straight path could be read before. -/
theorem exists_readBytes (hpath : t.Straight path) {now : ByteArray}
    (hread : t'.readBytes path = .ok now) : ∃ old, t.readBytes path = .ok old := by
  cases h with
  | unopened hmade => exact ⟨now, (hs.made hmade).1.readBytes_of_straight hs hpath hread⟩
  | removed hmade hcreated hinstalled hremoved =>
    obtain ⟨hgrows, hsound⟩ := hs.made hmade
    obtain ⟨answer, hwritten⟩ := hinstalled.exists_write
    obtain ⟨p, part, hfile, -⟩ := hsound.written hcreated hwritten
    obtain ⟨hchanges, hsound'⟩ := hfile.changes_removed hremoved
    obtain ⟨old, hold⟩ := hchanges.exists_readBytes hsound'
      (fun f => hfile.file_removed hremoved) hread
    exact ⟨old, hgrows.readBytes_of_straight hs hpath hold⟩

end Withdraws

end

end ScopedSettings.FileStore
