/-
What a commit that fails leaves behind, as far as later loads and commits see.

In a file a commit can fail after it has opened the sibling: then it removes what
it has opened, and a file that was there under that name before is gone or holds
something else. Neither is seen later (`FileStore.Alike`): a load does not look at the
sibling, and to a commit it makes no difference what stands there, if it can be opened
(`FileStore.Alike.persists`). So stores one of which has had failed commits more than the
other answer alike for ever (`RecordStore.Indistinct`), unless these commits have made
directories, or have replaced the record before they failed.
-/
import ScopedSettings.Proofs.Files.Shape
import ScopedSettings.Proofs.Store.KeptRecord

namespace ScopedSettings

open Files Files.RawTree

namespace FileStore

/-! ## Trees ready for a commit -/

/-- Can a file be opened at the sibling's place, in a directory that is there? It is not the
record's, and can be read. -/
structure Ready (path : String) (q : Place) (t : RawTree) : Prop where
  isDirectory : t.isDirectory (parent path) = true
  resolve_sibling : t.resolve (temporarySibling path) = .ok (.name q)
  asksDirectory_eq : asksDirectory (temporarySibling path) = false
  isOpen : t.IsOpen q
  apart : t.Apart path
  readable : t.Readable (temporarySibling path)

/-- Trees that are told apart by what is under the sibling's name alone, and by the files there
are beside the record. -/
structure Alike (path : String) (q : Place) (t t' : RawTree) : Prop where
  shape : SameShapeBut t t' q
  readBytes_eq : t'.readBytes path = t.readBytes path
  before : Ready path q t
  after : Ready path q t'

section

variable {path : String} {q : Place} {f f' : FileId} {bytes part : ByteArray}
  {t t' t₁ t₂ t₃ t₂' t₃' : RawTree}

/-- The sibling has been removed, or it was there before and can be written still. -/
theorem Ready.removed (h : Ready path q t) (hs : t.Sound)
    (hfile : Written t t₁ (temporarySibling path) q f part) {answer : Except Failure Unit}
    (hremoved : t₁.remove (temporarySibling path) = (answer, t₂)) : Ready path q t₂ := by
  obtain ⟨hchanges, hsound⟩ := hfile.changes_removed hremoved
  have hresolve := hchanges.keeps.resolve hs h.resolve_sibling
  refine ⟨hchanges.keeps.isDirectory hs h.isDirectory, hresolve, h.asksDirectory_eq, ?_, ?_, ?_⟩
  · rcases hfile.removed hremoved with ⟨-, hnone, hchange⟩ | ⟨rfl, hnode, -⟩
    · unfold RawTree.IsOpen
      rw [hnone, hchanges.refusals_eq]
      exact hchange
    · have hopen := h.isOpen
      unfold RawTree.IsOpen at hopen ⊢
      rw [hnode] at hopen
      rw [hfile.node?_self, hchanges.refusals_eq]
      exact hopen
  · refine Apart.of_changes hchanges hs hsound h.resolve_sibling fun p g hp hnode hsame => ?_
    exact h.apart p q g hp h.resolve_sibling hnode (hfile.file_removed hremoved hsame)
  · intro p g hp hnode
    rw [hresolve] at hp
    cases hp
    rw [hchanges.refusals_eq]
    exact h.readable q g h.resolve_sibling (hfile.file_removed hremoved hnode)

/-- A sibling that has been written is not the record's file. -/
theorem Ready.node?_ne (h : Ready path q t) (hs : t.Sound)
    (hfile : Written t t₁ (temporarySibling path) q f part) {r : Place}
    (hr : t₁.resolve path = .ok (.name r)) : r ≠ q ∧ t₁.node? r ≠ some (.file f) := by
  have hr' := hfile.changes.symm.keeps.resolve hfile.sound hr
  have hne := place_ne_of_resolve hr' h.resolve_sibling
  refine ⟨hne, fun hnode => ?_⟩
  rw [hfile.changes.node?_eq hne] at hnode
  exact (hfile.content_record hs h.apart hr' hnode).1 rfl

/-- The sibling's name is free once it has taken the record's place. -/
theorem Ready.renamed (h : Ready path q t) (hs : t.Sound)
    (hfile : Written t t₁ (temporarySibling path) q f part)
    (hrenamed : t₁.rename (temporarySibling path) path = (.ok (), t₂)) :
    ∃ r, t₁.resolve path = .ok (.name r) ∧ q ≠ r ∧
      t₂ = (t₁.dropNode q).putNode r (.file f) ∧ Ready path q t₂ := by
  obtain ⟨hkeeps, -, -, -⟩ := hfile.renamed hrenamed
  obtain ⟨r, hresolve, -, ⟨hsame, -⟩ | ⟨-, hchange, -, rfl⟩⟩ :=
    rename_ok hrenamed hfile.resolve_eq hfile.node?_self
  · exact absurd hsame (h.node?_ne hs hfile hresolve).2
  have hqr := (h.node?_ne hs hfile hresolve).1.symm
  have hnone : ((t₁.dropNode q).putNode r (.file f)).node? q = none := by
    rw [node?_putNode_other _ hqr, node?_dropNode_self _ hfile.place_lt]
  have hsibling := hkeeps.resolve hs h.resolve_sibling
  refine ⟨r, hresolve, hqr, rfl, hkeeps.isDirectory hs h.isDirectory,
    hsibling, h.asksDirectory_eq, ?_, ?_, ?_⟩
  · unfold RawTree.IsOpen
    rw [hnone]
    exact hchange
  · intro p q' g _ hq' _ hnode
    rw [hsibling] at hq'
    cases hq'
    rw [hnone] at hnode
    cases hnode
  · intro q' g hq' hnode
    rw [hsibling] at hq'
    cases hq'
    rw [hnone] at hnode
    cases hnode

/-! ## The same commit in trees that are alike -/

theorem Alike.symm (h : Alike path q t t') : Alike path q t' t :=
  ⟨h.shape.symm, h.readBytes_eq.symm, h.after, h.before⟩

theorem Alike.trans {t'' : RawTree} (h : Alike path q t t') (h' : Alike path q t' t'') :
    Alike path q t t'' :=
  ⟨h.shape.trans h'.shape, h'.readBytes_eq.trans h.readBytes_eq, h.before, h'.after⟩

theorem write_answer_eq (hrefusals : t'.refusals = t.refusals) (f f' : FileId) (bytes : ByteArray) :
    (t'.write f' bytes).1 = (t.write f bytes).1 := by
  unfold RawTree.write
  rw [hrefusals]
  split <;> rfl

theorem sync_eq (hrefusals : t'.refusals = t.refusals) (f f' : FileId) :
    t'.sync f' = t.sync f := by
  unfold RawTree.sync
  rw [hrefusals]

/-- A sibling that is installed in one of them is so in the other. -/
theorem Alike.installs (h : Alike path q t t') (hs : t.Sound) (hs' : t'.Sound)
    (hcreated : t.create (temporarySibling path) = (.ok f, t₂))
    (hcreated' : t'.create (temporarySibling path) = (.ok f', t₂'))
    {answer : Except SettingsError Unit} (hinstalled : Installs path f bytes t₂ answer t₃) :
    ∃ t₃', Installs path f' bytes t₂' answer t₃' ∧
      (answer = .ok () ∧ Alike path q t₃ t₃' ∨
        answer ≠ .ok () ∧ (∃ part, Written t t₃ (temporarySibling path) q f part) ∧
          ∃ part, Written t' t₃' (temporarySibling path) q f' part) := by
  have hplace {p : Place} {t₁ t₂ : RawTree} {g : FileId} {part : ByteArray}
      (hready : Ready path q t₁) (hfile : Written t₁ t₂ (temporarySibling path) p g part) :
      p = q := by
    simpa [hfile.resolve_before] using hready.resolve_sibling
  have hrefusals : t₂'.refusals = t₂.refusals := by
    obtain ⟨_, -, -, -, hopened⟩ := hs.opened_create hcreated
    obtain ⟨_, -, -, -, hopened'⟩ := hs'.opened_create hcreated'
    rw [hopened.changes.refusals_eq, hopened'.changes.refusals_eq, h.shape.refusals_eq]
  have hanswer := write_answer_eq hrefusals f f' bytes
  cases hwritten : t₂.write f bytes with
  | mk written t₄ =>
  cases hwritten' : t₂'.write f' bytes with
  | mk written' t₄' =>
  rw [hwritten, hwritten'] at hanswer
  obtain rfl : written' = written := hanswer
  obtain ⟨p, part, hfile, hpart⟩ := hs.written hcreated hwritten
  obtain ⟨p', part', hfile', hpart'⟩ := hs'.written hcreated' hwritten'
  obtain rfl := hplace h.before hfile
  obtain rfl := hplace h.after hfile'
  have hshape := (hfile.changes.symm.sameShapeBut.trans h.shape).trans hfile'.changes.sameShapeBut
  have hrenames : (t₄'.rename (temporarySibling path) path).1 =
      (t₄.rename (temporarySibling path) path).1 := by
    refine (hshape.sameShape hfile.node?_self hfile'.node?_self).rename_eq hfile.resolve_eq
      hfile.node?_self hfile'.node?_self fun r hr => ⟨(h.before.node?_ne hs hfile hr).2, ?_⟩
    exact (h.after.node?_ne hs' hfile' (hshape.keeps.resolve hfile.sound hr)).2
  have hsyncs : t₄'.sync f' = t₄.sync f := sync_eq hshape.refusals_eq f f'
  cases hinstalled with
  | unwritten hwritten₁ =>
    cases hwritten.symm.trans hwritten₁
    exact ⟨t₄', .unwritten hwritten', .inr ⟨by simp, ⟨_, hfile⟩, _, hfile'⟩⟩
  | unsynced hwritten₁ hsynced =>
    cases hwritten.symm.trans hwritten₁
    exact ⟨t₄', .unsynced hwritten' (hsyncs.trans hsynced),
      .inr ⟨by simp, ⟨_, hfile⟩, _, hfile'⟩⟩
  | unreplaced hwritten₁ hsynced hrenamed =>
    cases hwritten.symm.trans hwritten₁
    cases hrenamed' : t₄'.rename (temporarySibling path) path with
    | mk renamed t₅' =>
    rw [hrenamed, hrenamed'] at hrenames
    obtain rfl : renamed = _ := hrenames
    obtain rfl := eq_of_rename_error hrenamed'
    exact ⟨_, .unreplaced hwritten' (hsyncs.trans hsynced) hrenamed',
      .inr ⟨by simp, ⟨_, hfile⟩, _, hfile'⟩⟩
  | replaced hwritten₁ hsynced hrenamed =>
    cases hwritten.symm.trans hwritten₁
    cases hrenamed' : t₄'.rename (temporarySibling path) path with
    | mk renamed t₅' =>
    rw [hrenamed, hrenamed'] at hrenames
    obtain rfl : renamed = .ok () := hrenames
    refine ⟨t₅', .replaced hwritten' (hsyncs.trans hsynced) hrenamed', .inl ⟨rfl, ?_⟩⟩
    have hread := hfile.readBytes_renamed hs h.before.readable hrenamed
    have hread' := hfile'.readBytes_renamed hs' h.after.readable hrenamed'
    rw [(hpart.resolve_right (by simp)).2] at hread
    rw [(hpart'.resolve_right (by simp)).2] at hread'
    obtain ⟨r, hr, hqr, rfl, hready⟩ := h.before.renamed hs hfile hrenamed
    obtain ⟨r', hr', -, rfl, hready'⟩ := h.after.renamed hs' hfile' hrenamed'
    obtain rfl : r = r' := by simpa [hshape.keeps.resolve hfile.sound hr] using hr'
    exact ⟨hshape.renamed hfile.place_lt (hfile.sound.place_lt hr) hqr f f',
      hread'.trans hread.symm, hready, hready'⟩

/-- Bytes are put in place of the record in one of them as in the other. -/
theorem Alike.persists (h : Alike path q t t') (hs : t.Sound) (hs' : t'.Sound)
    {answer : Except SettingsError Unit} (hpersists : Persists path bytes t answer t₁) :
    ∃ t₁', Persists path bytes t' answer t₁' ∧ Alike path q t₁ t₁' := by
  have hmade := makeDirectories_of_isDirectory h.before.isDirectory
  have hmade' := makeDirectories_of_isDirectory h.after.isDirectory
  obtain ⟨f, t₂, hcreated⟩ :=
    exists_create h.before.resolve_sibling h.before.asksDirectory_eq h.before.isOpen
  obtain ⟨f', t₂', hcreated'⟩ :=
    exists_create h.after.resolve_sibling h.after.asksDirectory_eq h.after.isOpen
  -- once the sibling has been renamed, the directory can be flushed in both or in neither
  have hflush {t₃ t₃' : RawTree} (h' : Alike path q t₃ t₃') (hs₃ : t₃.Sound) :
      t₃'.syncDirectory (parent path) = t₃.syncDirectory (parent path) :=
    h'.shape.keeps.syncDirectory_eq hs₃ h'.before.isDirectory
  have hsound {t₃ : RawTree} (hinstalled : Installs path f bytes t₂ (.ok ()) t₃) : t₃.Sound := by
    cases hinstalled with
    | replaced hwritten hsynced hrenamed =>
      exact (Replaces.keeps (.mk hmade hcreated hwritten hrenamed) hs).2
  cases hpersists with
  | noDirectory hmade₁ =>
    cases hmade.symm.trans hmade₁
  | noSibling hmade₁ hcreated₁ =>
    cases hmade.symm.trans hmade₁
    cases hcreated.symm.trans hcreated₁
  | withdrawn hmade₁ hcreated₁ hinstalled hremoved =>
    cases hmade.symm.trans hmade₁
    cases hcreated.symm.trans hcreated₁
    obtain ⟨t₃', hinstalled', ⟨⟨⟩, -⟩ | ⟨-, ⟨_, hfile⟩, _, hfile'⟩⟩ :=
      h.installs hs hs' hcreated hcreated' hinstalled
    cases hremoved' : t₃'.remove (temporarySibling path) with
    | mk removed t₄' =>
    refine ⟨t₄', .withdrawn hmade' hcreated' hinstalled' hremoved', ?_⟩
    have hchanges := (hfile.changes_removed hremoved).1
    have hchanges' := (hfile'.changes_removed hremoved').1
    refine ⟨(hchanges.symm.sameShapeBut.trans h.shape).trans hchanges'.sameShapeBut, ?_,
      h.before.removed hs hfile hremoved, h.after.removed hs' hfile' hremoved'⟩
    rw [hfile'.readBytes_removed hs' h.after.apart hremoved', h.readBytes_eq,
      hfile.readBytes_removed hs h.before.apart hremoved]
  | flushed hmade₁ hcreated₁ hinstalled hflushed =>
    cases hmade.symm.trans hmade₁
    cases hcreated.symm.trans hcreated₁
    obtain ⟨t₃', hinstalled', ⟨-, h'⟩ | ⟨hnot, -⟩⟩ :=
      h.installs hs hs' hcreated hcreated' hinstalled
    · exact ⟨t₃', .flushed hmade' hcreated' hinstalled'
        ((hflush h' (hsound hinstalled)).trans hflushed), h'⟩
    · exact absurd rfl hnot
  | unflushed hmade₁ hcreated₁ hinstalled hflushed =>
    cases hmade.symm.trans hmade₁
    cases hcreated.symm.trans hcreated₁
    obtain ⟨t₃', hinstalled', ⟨-, h'⟩ | ⟨hnot, -⟩⟩ :=
      h.installs hs hs' hcreated hcreated' hinstalled
    · exact ⟨t₃', .unflushed hmade' hcreated' hinstalled'
        ((hflush h' (hsound hinstalled)).trans hflushed), h'⟩
    · exact absurd rfl hnot

end

section

variable {path : String} {q : Place} {t t' : Tree}

theorem Alike.recordAt_eq (h : Alike path q t t') : recordAt path t' = recordAt path t :=
  recordAt_congr h.readBytes_eq

/-- A commit does to one of them what it does to the other. -/
theorem Alike.commit (h : Alike path q t t') (u : Update) (now : Instant) :
    (FileStore.commit path u now t').1 = (FileStore.commit path u now t).1 ∧
      Alike path q (FileStore.commit path u now t).2 (FileStore.commit path u now t').2 := by
  cases hbase : baseOf (recordAt path t) with
  | error e =>
    have hbase' : baseOf (recordAt path t') = .error e := by rw [h.recordAt_eq, hbase]
    rw [commit_of_unread hbase, commit_of_unread hbase']
    exact ⟨rfl, h⟩
  | ok base =>
    have hbase' : baseOf (recordAt path t') = .ok base := by rw [h.recordAt_eq, hbase]
    rw [commit_of_read hbase, commit_of_read hbase']
    obtain ⟨t₁', hpersists', hnext⟩ :=
      h.persists t.sound t'.sound (FileStore.persists path (u.apply base now) t)
    obtain ⟨hanswer, htree⟩ := persist_eq hpersists'
    constructor
    · dsimp only
      rw [hanswer]
    · dsimp only
      rw [htree]
      exact hnext

/-- A file at the path that is updated can be read. -/
theorem exists_readBytes_of_node {base : Settings} (hbase : baseOf (recordAt path t) = .ok base)
    {p : Place} {f : FileId} (hp : t.resolve path = .ok (.name p))
    (hnode : t.node? p = some (.file f)) : ∃ old, t.readBytes path = .ok old := by
  cases hread : t.readBytes path with
  | ok old => exact ⟨old, rfl⟩
  | error e =>
    have hunread : e ≠ .notFound := by
      rintro rfl
      unfold RawTree.readBytes at hread
      have hat : t.at? (.name p) = some (.file f) := hnode
      simp only [hp, hat] at hread
      unfold unlessRefused at hread
      split at hread
      · cases hread
      · split at hread <;> cases hread
    rw [recordAt_of_unread hread hunread] at hbase
    cases hbase

/-- A commit that fails without having replaced the record or made a directory has changed
nothing, or what it has changed is not seen. -/
theorem commit_error_cases (hfit : Fit path t) {u : Update} {now : Instant} {e : SettingsError}
    (h : FileStore.commit path u now t = (.error e, t')) (he : isUnflushed path e = false)
    (hsize : t'.directories.size = t.directories.size) : t' = t ∨ ∃ q, Alike path q t t' := by
  rcases commit_cases path u now t with ⟨e', -, hunread⟩ | ⟨base, answer, t₁, hbase, hpersists, hok⟩
  · rw [h] at hunread
    cases hunread
    exact .inl rfl
  rw [h] at hok
  cases answer with
  | ok _ => cases hok
  | error e' =>
    cases hok
    generalize (u.apply base now).prettyText.toUTF8 = bytes at hpersists
    cases hpersists with
    | noDirectory hmade =>
      exact .inl (Tree.eq_of_toRawTree (eq_of_size_makeDirectories hmade hsize))
    | noSibling hmade hcreated =>
      exact .inl (Tree.eq_of_toRawTree (eq_of_size_makeDirectories hmade hsize))
    | unflushed _ _ _ _ => simp [(isUnflushed_unavailable_iff ..).mpr] at he
    | @withdrawn _ f t₁ t₂ t₃ _ answer hmade hcreated hinstalled hremoved =>
      obtain ⟨hgrows, hsound⟩ := t.sound.made hmade
      obtain ⟨q, part, hfile, -⟩ := hinstalled.left hsound hcreated
      obtain ⟨hchanges, -⟩ := hfile.changes_removed hremoved
      obtain rfl := eq_of_size_makeDirectories hmade (hchanges.size_eq.symm.trans hsize)
      obtain ⟨q', hresolve, hasks, hopen, -⟩ := t.sound.opened_create hcreated
      obtain rfl : q' = q :=
        Target.name.inj (Except.ok.inj (hresolve.symm.trans hfile.resolve_before))
      have hapart : t.toRawTree.Apart path := by
        intro p q g hp hq hnode
        obtain ⟨old, hread⟩ := exists_readBytes_of_node hbase hp hnode
        obtain ⟨-, -, -, -, hasks', -⟩ := readBytes_eq_ok_iff.mp hread
        exact hfit.apart_of_installs t.sound hcreated hinstalled hasks' p q g hp hq hnode
      have hready : Ready path q' t :=
        ⟨t.sound.isDirectory_makeDirectories hmade, hresolve, hasks, hopen, hapart,
          hfit.readable _ (.refl _)⟩
      exact .inr ⟨q', hchanges.sameShapeBut, hfile.readBytes_removed t.sound hapart hremoved,
        hready, hready.removed t.sound hfile hremoved⟩

end

end FileStore

/-! ## Stores -/

/-- What happens to a record in memory from outside the service. -/
inductive Disturbance
  /-- The store is switched on or off. -/
  | switch (on : Bool)
  /-- The record is replaced, as another process would do it. -/
  | replace (s : Settings)

namespace RecordStore

def disturb : Disturbance → RecordStore → RecordStore
  | .switch on => switch on
  | .replace s => mapMemory fun m => { m with record := some s }

/-- Stores that answer alike whatever they are asked, though one may have had more loads
and more failed commits. -/
inductive Indistinct : RecordStore → RecordStore → Prop
  | memory {m m' : MemoryStore} {tree tree' : Tree} (hrecord : m.record = m'.record)
    (havailable : m.available = m'.available) :
    Indistinct ⟨.memory m, tree⟩ ⟨.memory m', tree'⟩
  | file {path : String} {tree : Tree} (hfit : FileStore.Fit path tree) :
    Indistinct ⟨.file path, tree⟩ ⟨.file path, tree⟩
  | alike {path : String} {q : Place} {tree tree' : Tree} (hfit : FileStore.Fit path tree)
    (hfit' : FileStore.Fit path tree') (h : FileStore.Alike path q tree tree') :
    Indistinct ⟨.file path, tree⟩ ⟨.file path, tree'⟩

theorem Indistinct.refl {r : RecordStore} (h : r.KeepsRecord) : Indistinct r r := by
  obtain ⟨keeper, tree⟩ := r
  cases keeper with
  | memory m => exact .memory rfl rfl
  | scripted s => exact h.elim
  | file path => exact .file h

theorem load_file (path : String) (tree : Tree) :
    Backend.load (RecordStore.mk (.file path) tree) =
      (⟨.file path, tree⟩, .now (FileStore.recordAt path tree)) := by
  change (RecordStore.mk (.file path) (FileStore.load path tree).2,
    Reply.now (FileStore.load path tree).1) = _
  rw [FileStore.load_eq]

theorem commit_file (path : String) (tree : Tree) (u : Update) (now : Instant) :
    Backend.commit (RecordStore.mk (.file path) tree) u now =
      (⟨.file path, (FileStore.commit path u now tree).2⟩,
        .now (FileStore.commit path u now tree).1) := rfl

variable {r q : RecordStore}

theorem Indistinct.symm (h : Indistinct r q) : Indistinct q r := by
  cases h with
  | memory hrecord havailable => exact .memory hrecord.symm havailable.symm
  | file hfit => exact .file hfit
  | alike hfit hfit' h => exact .alike hfit' hfit h.symm

theorem Indistinct.keepsRecord (h : Indistinct r q) : r.KeepsRecord := by
  cases h with
  | memory _ _ => trivial
  | file hfit => exact hfit
  | alike hfit _ _ => exact hfit

theorem Indistinct.record?_eq (h : Indistinct r q) : r.record? = q.record? := by
  cases h with
  | memory hrecord _ => exact hrecord
  | file _ => rfl
  | alike _ _ h => exact congrArg Except.toOption h.recordAt_eq.symm

/-- A load more makes no difference. -/
theorem Indistinct.load_left (h : Indistinct r q) : Indistinct (Backend.load r).1 q := by
  cases h with
  | memory hrecord havailable => exact .memory hrecord havailable
  | file hfit =>
    rw [load_file]
    exact .file hfit
  | alike hfit hfit' h =>
    rw [load_file]
    exact .alike hfit hfit' h

theorem Indistinct.load (h : Indistinct r q) :
    ∃ answer, (Backend.load r).2 = .now answer ∧ (Backend.load q).2 = .now answer ∧
      Indistinct (Backend.load r).1 (Backend.load q).1 := by
  have hnext := h.load_left.symm.load_left.symm
  cases h with
  | @memory m m' tree tree' hrecord havailable =>
    have hanswer : m'.answer = m.answer := by
      unfold MemoryStore.answer
      rw [hrecord, havailable]
    exact ⟨m.answer, rfl, congrArg Reply.now hanswer, hnext⟩
  | @file path tree hfit =>
    refine ⟨FileStore.recordAt path tree, ?_, ?_, hnext⟩ <;> rw [load_file]
  | @alike path p tree tree' hfit hfit' h =>
    refine ⟨FileStore.recordAt path tree, ?_, ?_, hnext⟩
    · rw [load_file]
    · rw [load_file, h.recordAt_eq]

theorem Indistinct.commit (h : Indistinct r q) (u : Update) (now : Instant) :
    ∃ answer, (Backend.commit r u now).2 = .now answer ∧
      (Backend.commit q u now).2 = .now answer ∧
      Indistinct (Backend.commit r u now).1 (Backend.commit q u now).1 := by
  cases h with
  | @memory m m' tree tree' hrecord havailable =>
    have hm : Backend.commit (RecordStore.mk (.memory m) tree) u now =
        (⟨.memory (m.commit u now).1, tree⟩, (m.commit u now).2) := rfl
    have hm' : Backend.commit (RecordStore.mk (.memory m') tree') u now =
        (⟨.memory (m'.commit u now).1, tree'⟩, (m'.commit u now).2) := rfl
    rw [hm, hm', MemoryStore.commit_eq, MemoryStore.commit_eq, hrecord, havailable]
    split
    · exact ⟨_, rfl, rfl, .memory rfl rfl⟩
    · exact ⟨_, rfl, rfl, .memory hrecord havailable⟩
  | @file path tree hfit => exact ⟨_, rfl, rfl, .file (FileStore.fit_commit hfit rfl)⟩
  | @alike path p tree tree' hfit hfit' h =>
    obtain ⟨hanswer, hnext⟩ := h.commit u now
    refine ⟨(FileStore.commit path u now tree).1, rfl, ?_, ?_⟩
    · rw [commit_file, hanswer]
    · exact .alike (FileStore.fit_commit hfit rfl) (FileStore.fit_commit hfit' rfl) hnext

/-- Neither does a commit that fails, if it has not replaced the record or made a directory. -/
theorem Indistinct.commit_left (h : Indistinct r q) {u : Update} {now : Instant}
    {e : SettingsError} (hfailed : (Backend.commit r u now).2 = .now (.error e))
    (he : r.isUnflushed e = false)
    (hsize : (Backend.commit r u now).1.tree.directories.size = r.tree.directories.size) :
    Indistinct (Backend.commit r u now).1 q := by
  have hfile {path : String} {tree tree' : Tree} (hfit : FileStore.Fit path tree)
      (hcommit : FileStore.commit path u now tree = (.error e, tree'))
      (he : FileStore.isUnflushed path e = false)
      (hsize : tree'.directories.size = tree.directories.size) :
      tree' = tree ∨ FileStore.Fit path tree' ∧ ∃ p, FileStore.Alike path p tree tree' :=
    (FileStore.commit_error_cases hfit hcommit he hsize).imp_right fun h =>
      ⟨FileStore.fit_commit hfit hcommit, h⟩
  cases h with
  | @memory m m' tree tree' hrecord havailable =>
    have hm : Backend.commit (RecordStore.mk (.memory m) tree) u now =
        (⟨.memory (m.commit u now).1, tree⟩, (m.commit u now).2) := rfl
    rw [hm, MemoryStore.commit_eq] at hfailed ⊢
    split at hfailed
    · cases hfailed
    · rename_i hoff
      rw [if_neg hoff]
      exact .memory hrecord havailable
  | @file path tree hfit =>
    cases hcommit : FileStore.commit path u now tree with
    | mk answer tree' =>
    rw [commit_file, hcommit] at hfailed hsize ⊢
    cases hfailed
    rcases hfile hfit hcommit he hsize with rfl | ⟨hfit', p, halike⟩
    · exact .file hfit
    · exact .alike hfit' hfit halike.symm
  | @alike path p tree other hfit hother h =>
    cases hcommit : FileStore.commit path u now tree with
    | mk answer tree' =>
    rw [commit_file, hcommit] at hfailed hsize ⊢
    cases hfailed
    rcases hfile hfit hcommit he hsize with rfl | ⟨hfit', p', halike⟩
    · exact .alike hfit hother h
    · obtain rfl : p = p' := Target.name.inj
        (Except.ok.inj (h.before.resolve_sibling.symm.trans halike.before.resolve_sibling))
      exact .alike hfit' hother (halike.symm.trans h)

theorem Indistinct.disturb (h : Indistinct r q) (d : Disturbance) :
    Indistinct (r.disturb d) (q.disturb d) := by
  cases h with
  | memory hrecord havailable =>
    cases d with
    | switch on => exact .memory hrecord rfl
    | replace s => exact .memory rfl havailable
  | file hfit => cases d <;> exact .file hfit
  | alike hfit hfit' h => cases d <;> exact .alike hfit hfit' h

end RecordStore
end ScopedSettings
