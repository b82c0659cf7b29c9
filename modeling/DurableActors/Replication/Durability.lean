import DurableActors.Data.Weight
import DurableActors.Effects.Directory
import DurableActors.Replication.Store

/-!
# What a replica keeps through crashes

The files of a replica at any moment, with everything that a crash may do to them,
keep four promises.  A head record refers to a blob that no crash takes away, and
that has the digest of the record.  A stream whose append was acknowledged keeps a
head at or above it.  The record and the heads of a session that was sealed do not
change.  And the blobs that a reopened store would keep fit into the capacity.

This module states the promises and says which changes to one file keep them.

Main results:

- Theorem {lit}`Durable.within`: crashes and syncs keep the promises.
- Theorem {lit}`Durable.changeBlob`: adding and deleting a blob that no head refers to
  keeps them.
- Theorem {lit}`Durable.saveHead`: so does a newer head of a stream whose session is open.
- Theorem {lit}`Durable.saveSession`: so does a session record that keeps seals.
-/

namespace DurableActors
namespace Replication

open Effects Weight

/-- The files of a replica. -/
abbrev Files : Type := Directory FileName FileName.Content

/-- A request that returned and what it returned. -/
abbrev Event : Type := Request × Except Error Reply

/-- An append that was acknowledged, by the snapshot it brought. -/
def Acked (history : List Event) (stream : ReplicaStream) (snapshot : SnapshotRef) : Prop :=
  ∃ bytes reply, (.append stream bytes, .ok reply) ∈ history ∧ stream.snapshot bytes = .ok snapshot

/-- A seal that was acknowledged, by the heads it returned. -/
def Sealed (history : List Event) (session : HostSession) (cut : SessionHead) : Prop :=
  (.sealSession session, .ok (.sessionHead cut)) ∈ history

/-- The snapshot is the newest one of its stream or below it. -/
def AtOrBelow (snapshot latest : SnapshotRef) : Prop :=
  snapshot = latest ∨ snapshot.stateVersion < latest.stateVersion

theorem AtOrBelow.le {snapshot latest : SnapshotRef} (h : AtOrBelow snapshot latest) :
    snapshot.stateVersion ≤ latest.stateVersion := by
  rcases h with rfl | hlt
  · exact le_rfl
  · exact hlt.le

/-! ## The promises -/

/-- Whatever a crash leaves, the object's stream has a head and it is not the object. -/
def Obsolete (files : Files) (object : SnapshotObject) : Prop :=
  ∀ content ∈ files.stored (.stream object.stream),
    ∃ head latest, content = some head ∧ head.latest = some latest ∧ latest.object ≠ object

/-- Whatever a crash leaves, every blob is in the table or will be deleted. -/
def CountedIn (files : Files) (table : AList fun _ : SnapshotObject => Metadata) : Prop :=
  ∀ object blob, some blob ∈ files.stored (.blob object) →
    table.lookup object = some blob.metadata ∨ Obsolete files object

/-- The blobs that are not about to be deleted fit into the capacity, if it is always the same. -/
def Budgeted (limit : Option Nat) (files : Files) : Prop :=
  ∀ capacity ∈ limit, ∃ table, weight Metadata.size table ≤ capacity ∧ CountedIn files table

/-- Whatever a crash leaves, the blob of the snapshot is there with its digest. -/
def Kept (files : Files) (snapshot : SnapshotRef) : Prop :=
  ∃ blob : Blob, checksum blob.bytes = snapshot.digest ∧
    ∀ content ∈ files.stored (.blob snapshot.object), content = some blob

/-- The session is sealed and its streams have the heads of the cut, whatever a crash leaves. -/
structure CutAt (encoding : Encoding) (files : Files) (session : HostSession) (cut : SessionHead) :
    Prop where
  sealed : cut.sealed = true
  record : ∀ content ∈ files.stored (.session session), content = some { cut with streams := [] }
  member : ∀ head ∈ cut.streams, head.stream.session = session
  heads : ∀ head ∈ cut.streams, ∀ content ∈ files.stored (.stream head.stream.streamPrefix),
    content = some head
  complete : ∀ streamPrefix head, some head ∈ files.stored (.stream streamPrefix) →
    head.stream.session = session → head ∈ cut.streams
  ordered : cut.streams.Pairwise fun first second =>
    encoding.before first.stream.streamPrefix second.stream.streamPrefix
  nodup : cut.streams.Nodup

/-- The promises about the files of a replica that has answered the requests of a history. -/
structure Durable (encoding : Encoding) (limit : Option Nat) (history : List Event)
    (files : Files) : Prop where
  blob : ∀ object blob, some blob ∈ files.stored (.blob object) →
    blob.metadata.object = object ∧ encoding.size blob.bytes = blob.metadata.size
  stream : ∀ streamPrefix head, some head ∈ files.stored (.stream streamPrefix) →
    head.stream.streamPrefix = streamPrefix ∧
      ∃ latest, head.latest = some latest ∧ latest.object.stream = streamPrefix ∧ Kept files latest
  session : ∀ session head, some head ∈ files.stored (.session session) →
    head.session = session ∧ head.streams = []
  acked : ∀ stream snapshot, Acked history stream snapshot →
    ∀ content ∈ files.stored (.stream stream.streamPrefix),
      ∃ head latest, content = some head ∧ head.stream = stream ∧ head.latest = some latest ∧
        AtOrBelow snapshot latest
  cut : ∀ session cut, Sealed history session cut → CutAt encoding files session cut
  budget : Budgeted limit files

variable {encoding : Encoding} {limit : Option Nat} {history : List Event}
  {files files' : Files}

/-! ## Crashes and syncs -/

theorem Obsolete.within {object : SnapshotObject} (h : Obsolete files object)
    (hwithin : files'.Within files) : Obsolete files' object :=
  fun content hcontent => h content (hwithin _ hcontent)

theorem CountedIn.within {table : AList fun _ : SnapshotObject => Metadata}
    (h : CountedIn files table) (hwithin : files'.Within files) : CountedIn files' table :=
  fun object blob hblob =>
    (h object blob (hwithin _ hblob)).imp_right fun hobsolete => hobsolete.within hwithin

theorem Budgeted.within (h : Budgeted limit files) (hwithin : files'.Within files) :
    Budgeted limit files' := by
  intro capacity hcapacity
  obtain ⟨table, hweight, hcounted⟩ := h capacity hcapacity
  exact ⟨table, hweight, hcounted.within hwithin⟩

theorem Kept.within {snapshot : SnapshotRef} (h : Kept files snapshot)
    (hwithin : files'.Within files) : Kept files' snapshot := by
  obtain ⟨blob, hdigest, hkept⟩ := h
  exact ⟨blob, hdigest, fun content hcontent => hkept content (hwithin _ hcontent)⟩

theorem CutAt.within {session : HostSession} {cut : SessionHead}
    (h : CutAt encoding files session cut) (hwithin : files'.Within files) :
    CutAt encoding files' session cut where
  sealed := h.sealed
  record content hcontent := h.record content (hwithin _ hcontent)
  member := h.member
  heads head hhead content hcontent := h.heads head hhead content (hwithin _ hcontent)
  complete streamPrefix head hhead := h.complete streamPrefix head (hwithin _ hhead)
  ordered := h.ordered
  nodup := h.nodup

/-- Files that a crash may leave in fewer ways keep the promises. -/
theorem Durable.within (h : Durable encoding limit history files) (hwithin : files'.Within files) :
    Durable encoding limit history files' where
  blob object blob hblob := h.blob object blob (hwithin _ hblob)
  stream streamPrefix head hhead := by
    obtain ⟨hpre, latest, hlatest, hobject, hkept⟩ := h.stream _ _ (hwithin _ hhead)
    exact ⟨hpre, latest, hlatest, hobject, hkept.within hwithin⟩
  session session head hhead := h.session session head (hwithin _ hhead)
  acked stream snapshot hacked content hcontent :=
    h.acked stream snapshot hacked content (hwithin _ hcontent)
  cut session cut hsealed := (h.cut session cut hsealed).within hwithin
  budget := h.budget.within hwithin

/-- A cut is determined by the files. -/
theorem CutAt.unique {session : HostSession} {cut cut' : SessionHead}
    (h : CutAt encoding files session cut) (h' : CutAt encoding files session cut') :
    cut = cut' := by
  have hrecord := (h.record _ (files.shown_mem _)).symm.trans (h'.record _ (files.shown_mem _))
  have hmember : ∀ head, head ∈ cut.streams ↔ head ∈ cut'.streams := by
    intro head
    constructor
    · intro hhead
      have hstored := files.shown_mem (.stream head.stream.streamPrefix)
      rw [h.heads head hhead _ hstored] at hstored
      exact h'.complete _ head hstored (h.member head hhead)
    · intro hhead
      have hstored := files.shown_mem (.stream head.stream.streamPrefix)
      rw [h'.heads head hhead _ hstored] at hstored
      exact h.complete _ head hstored (h'.member head hhead)
  have hperm : cut.streams.Perm cut'.streams :=
    (List.perm_ext_iff_of_nodup h.nodup h'.nodup).mpr hmember
  have hstreams : cut.streams = cut'.streams := by
    refine hperm.eq_of_pairwise ?_ h.ordered h'.ordered
    intro first second hfirst hsecond hbefore hafter
    have hpre := encoding.before_antisymm _ _ hbefore hafter
    have hstored := files.shown_mem (.stream first.stream.streamPrefix)
    have hone := h.heads first hfirst _ hstored
    have htwo := h'.heads second hsecond (files.shown (.stream second.stream.streamPrefix))
      (files.shown_mem _)
    rw [← hpre, hone] at htwo
    exact Option.some.inj htwo
  cases cut
  cases cut'
  simp_all

/-! ## Blobs -/

/-- No head that a crash may leave refers to the object. -/
def Unreferenced (files : Files) (object : SnapshotObject) : Prop :=
  ∀ streamPrefix head latest, some head ∈ files.stored (.stream streamPrefix) →
    head.latest = some latest → latest.object ≠ object

section Blob

variable {object other : SnapshotObject} {content : Option Blob}

theorem obsolete_changeBlob :
    Obsolete (files.change (.blob object) content) other ↔ Obsolete files other := by
  simp [Obsolete]

theorem Kept.changeBlob {snapshot : SnapshotRef} (h : Kept files snapshot)
    (hfree : snapshot.object ≠ object) : Kept (files.change (.blob object) content) snapshot := by
  obtain ⟨blob, hdigest, hkept⟩ := h
  refine ⟨blob, hdigest, ?_⟩
  rwa [Directory.stored_change_of_ne (by simpa using hfree)]

theorem CutAt.changeBlob {session : HostSession} {cut : SessionHead}
    (h : CutAt encoding files session cut) :
    CutAt encoding (files.change (.blob object) content) session cut where
  sealed := h.sealed
  record := by simpa using h.record
  member := h.member
  heads := by simpa using h.heads
  complete := by simpa using h.complete
  ordered := h.ordered
  nodup := h.nodup

/-- A table that counts the blobs counts a deleted one as well. -/
theorem CountedIn.deleteBlob {table : AList fun _ : SnapshotObject => Metadata}
    (h : CountedIn files table) : CountedIn (files.change (.blob object) none) table := by
  intro other blob hblob
  rw [obsolete_changeBlob]
  by_cases hother : other = object
  · subst hother
    rcases Directory.mem_stored_change.mp hblob with hnone | hstored
    · cases hnone
    · exact h other blob hstored
  · rw [Directory.stored_change_of_ne (by simpa using hother)] at hblob
    exact h other blob hblob

/-- A blob that will be deleted need not be counted. -/
theorem CountedIn.erase {table : AList fun _ : SnapshotObject => Metadata}
    (h : CountedIn files table) (hobsolete : Obsolete files object) :
    CountedIn files (table.erase object) := by
  intro other blob hblob
  by_cases hother : other = object
  · subst hother
    exact .inr hobsolete
  · rw [AList.lookup_erase_ne hother]
    exact h other blob hblob

/-- A new blob is counted in the table with its header. -/
theorem CountedIn.addBlob {table : AList fun _ : SnapshotObject => Metadata} {blob : Blob}
    (h : CountedIn files table) (hobject : blob.metadata.object = object)
    (habsent : table.lookup object = none) :
    CountedIn (files.change (.blob object) (some blob)) (table.insert object blob.metadata) := by
  intro other stored hstored
  rw [obsolete_changeBlob]
  by_cases hother : other = object
  · subst hother
    rcases Directory.mem_stored_change.mp hstored with hnew | hold
    · cases hnew
      exact .inl (AList.lookup_insert _)
    · -- What a crash may bring back under the name was deleted before.
      rcases h other stored hold with hlookup | hobsolete
      · rw [habsent] at hlookup
        cases hlookup
      · exact .inr hobsolete
  · rw [Directory.stored_change_of_ne (by simpa using hother)] at hstored
    rw [AList.lookup_insert_ne hother]
    exact h other stored hstored

/-- A blob that no head refers to can be added and deleted. -/
theorem Durable.changeBlob (h : Durable encoding limit history files)
    (hcontent : ∀ blob, content = some blob →
      blob.metadata.object = object ∧ encoding.size blob.bytes = blob.metadata.size)
    (hfree : Unreferenced files object)
    (hbudget : Budgeted limit (files.change (.blob object) content)) :
    Durable encoding limit history (files.change (.blob object) content) where
  blob other blob hblob := by
    by_cases hother : other = object
    · subst hother
      rcases Directory.mem_stored_change.mp hblob with hnew | hold
      · exact hcontent blob hnew.symm
      · exact h.blob other blob hold
    · rw [Directory.stored_change_of_ne (by simpa using hother)] at hblob
      exact h.blob other blob hblob
  stream streamPrefix head hhead := by
    rw [Directory.stored_change_of_ne (by simp)] at hhead
    obtain ⟨hpre, latest, hlatest, hobject, hkept⟩ := h.stream _ _ hhead
    exact ⟨hpre, latest, hlatest, hobject, hkept.changeBlob (hfree _ _ _ hhead hlatest)⟩
  session := by simpa using h.session
  acked := by simpa using h.acked
  cut session cut hsealed := (h.cut session cut hsealed).changeBlob
  budget := hbudget

/-- A name without a blob is not referred to. -/
theorem Durable.unreferenced_of_absent (h : Durable encoding limit history files)
    (habsent : files.shown (.blob object) = none) : Unreferenced files object := by
  rintro streamPrefix head latest hhead hlatest rfl
  obtain ⟨-, latest', hlatest', -, blob, -, hkept⟩ := h.stream _ _ hhead
  rw [hlatest] at hlatest'
  cases hlatest'
  have hshown := hkept _ (files.shown_mem _)
  rw [habsent] at hshown
  cases hshown

/-- An object that will be deleted is not referred to. -/
theorem Durable.unreferenced_of_obsolete (h : Durable encoding limit history files)
    (hobsolete : Obsolete files object) : Unreferenced files object := by
  rintro streamPrefix head latest hhead hlatest rfl
  obtain ⟨-, latest', hlatest', hobject, -⟩ := h.stream _ _ hhead
  rw [hlatest] at hlatest'
  cases hlatest'
  subst hobject
  obtain ⟨head', latest', hhead', hlatest', hne⟩ := hobsolete _ hhead
  cases hhead'
  rw [hlatest] at hlatest'
  cases hlatest'
  exact hne rfl

end Blob

/-! ## Records -/

section Stream

variable {head : StreamHead} {latest : SnapshotRef}

theorem Kept.saveHead {snapshot : SnapshotRef} {streamPrefix : StreamPrefix}
    (h : Kept files snapshot) : Kept (files.change (.stream streamPrefix) (some head)) snapshot := by
  obtain ⟨blob, hdigest, hkept⟩ := h
  exact ⟨blob, hdigest, by simpa using hkept⟩

/-- A head of another session leaves the cut as it is. -/
theorem CutAt.saveHead {session : HostSession} {cut : SessionHead}
    (h : CutAt encoding files session cut) (hsession : head.stream.session ≠ session)
    (howner : ∀ old, files.shown (.stream head.stream.streamPrefix) = some old →
      old.stream = head.stream) :
    CutAt encoding (files.change (.stream head.stream.streamPrefix) (some head)) session cut where
  sealed := h.sealed
  record := by simpa using h.record
  member := h.member
  heads old hold content hcontent := by
    by_cases hpre : old.stream.streamPrefix = head.stream.streamPrefix
    · -- The prefix belongs to a stream of the session, so the new head is not under it.
      have hshown := h.heads old hold _ (files.shown_mem _)
      rw [hpre] at hshown
      have hsame := howner old hshown
      rw [← hsame, h.member old hold] at hsession
      exact absurd rfl hsession
    · rw [Directory.stored_change_of_ne (by simpa using hpre)] at hcontent
      exact h.heads old hold content hcontent
  complete streamPrefix old hold hmember := by
    by_cases hpre : streamPrefix = head.stream.streamPrefix
    · subst hpre
      rcases Directory.mem_stored_change.mp hold with hnew | hstored
      · cases hnew
        exact absurd hmember hsession
      · exact h.complete _ old hstored hmember
    · rw [Directory.stored_change_of_ne (by simpa using hpre)] at hold
      exact h.complete streamPrefix old hold hmember
  ordered := h.ordered
  nodup := h.nodup

/-- A newer head can be written once the blob it refers to, and all earlier changes, are durable. -/
theorem Durable.saveHead (h : Durable encoding limit history files)
    (hsettled : ∀ object, files.IsSettled (.blob object)) (hlatest : head.latest = some latest)
    (hobject : latest.object.stream = head.stream.streamPrefix)
    (hblob : ∃ blob : Blob, files.shown (.blob latest.object) = some blob ∧
      checksum blob.bytes = latest.digest)
    (hnewer : ∀ old, files.shown (.stream head.stream.streamPrefix) = some old →
      old.stream = head.stream ∧
        ∀ snapshot, old.latest = some snapshot → snapshot.stateVersion < latest.stateVersion)
    (hopen : ∀ cut, ¬ Sealed history head.stream.session cut)
    (hbudget : Budgeted limit (files.change (.stream head.stream.streamPrefix) (some head))) :
    Durable encoding limit history
      (files.change (.stream head.stream.streamPrefix) (some head)) where
  blob := by simpa using h.blob
  stream streamPrefix stored hstored := by
    by_cases hpre : streamPrefix = head.stream.streamPrefix
    · subst hpre
      rcases Directory.mem_stored_change.mp hstored with hnew | hold
      · cases hnew
        obtain ⟨blob, hshown, hdigest⟩ := hblob
        refine ⟨rfl, latest, hlatest, hobject, Kept.saveHead ⟨blob, hdigest, ?_⟩⟩
        intro content hcontent
        rw [hsettled _ content hcontent, hshown]
      · obtain ⟨hkey, snapshot, hsnapshot, hstream, hkept⟩ := h.stream _ _ hold
        exact ⟨hkey, snapshot, hsnapshot, hstream, hkept.saveHead⟩
    · rw [Directory.stored_change_of_ne (by simpa using hpre)] at hstored
      obtain ⟨hkey, snapshot, hsnapshot, hstream, hkept⟩ := h.stream _ _ hstored
      exact ⟨hkey, snapshot, hsnapshot, hstream, hkept.saveHead⟩
  session := by simpa using h.session
  acked stream snapshot hacked content hcontent := by
    by_cases hpre : stream.streamPrefix = head.stream.streamPrefix
    · rw [hpre] at hcontent
      rcases Directory.mem_stored_change.mp hcontent with rfl | hold
      · -- The head that was read is above the acknowledged snapshot, and the new one above it.
        obtain ⟨old, below, hshown, hstream, hbelow, hacked'⟩ :=
          h.acked stream snapshot hacked _ (files.shown_mem _)
        rw [hpre] at hshown
        obtain ⟨howner, hlt⟩ := hnewer old hshown
        exact ⟨head, latest, rfl, by rw [← howner, hstream], hlatest,
          .inr (hacked'.le.trans_lt (hlt below hbelow))⟩
      · rw [← hpre] at hold
        exact h.acked stream snapshot hacked content hold
    · rw [Directory.stored_change_of_ne (by simpa using hpre)] at hcontent
      exact h.acked stream snapshot hacked content hcontent
  cut session cut hsealed := by
    refine (h.cut session cut hsealed).saveHead ?_ fun old hold => (hnewer old hold).1
    rintro rfl
    exact hopen cut hsealed
  budget := hbudget

end Stream

section Session

variable {record : SessionHead}

theorem Obsolete.saveSession {object : SnapshotObject} {session : HostSession}
    (h : Obsolete files object) : Obsolete (files.change (.session session) (some record)) object := by
  simpa [Obsolete] using h

theorem CountedIn.saveSession {table : AList fun _ : SnapshotObject => Metadata}
    {session : HostSession} (h : CountedIn files table) :
    CountedIn (files.change (.session session) (some record)) table := by
  intro object blob hblob
  rw [Directory.stored_change_of_ne (by simp)] at hblob
  exact (h object blob hblob).imp_right Obsolete.saveSession

/-- A session record that agrees with every seal can be written. -/
theorem Durable.saveSession (h : Durable encoding limit history files)
    (hstreams : record.streams = [])
    (hseal : ∀ cut, Sealed history record.session cut → record = { cut with streams := [] }) :
    Durable encoding limit history (files.change (.session record.session) (some record)) where
  blob := by simpa using h.blob
  stream := by
    intro streamPrefix head hhead
    rw [Directory.stored_change_of_ne (by simp)] at hhead
    obtain ⟨hpre, latest, hlatest, hobject, blob, hdigest, hkept⟩ := h.stream _ _ hhead
    exact ⟨hpre, latest, hlatest, hobject, blob, hdigest, by simpa using hkept⟩
  session := by
    intro session head hhead
    by_cases hsession : session = record.session
    · subst hsession
      rcases Directory.mem_stored_change.mp hhead with hnew | hold
      · cases hnew
        exact ⟨rfl, hstreams⟩
      · exact h.session _ head hold
    · rw [Directory.stored_change_of_ne (by simpa using hsession)] at hhead
      exact h.session session head hhead
  acked := by simpa using h.acked
  cut := by
    intro session cut hsealed
    have hcut := h.cut session cut hsealed
    refine ⟨hcut.sealed, ?_, hcut.member, by simpa using hcut.heads, by simpa using hcut.complete,
      hcut.ordered, hcut.nodup⟩
    intro content hcontent
    by_cases hsession : session = record.session
    · subst hsession
      rcases Directory.mem_stored_change.mp hcontent with rfl | hold
      · exact congrArg some (hseal cut hsealed)
      · exact hcut.record content hold
    · rw [Directory.stored_change_of_ne (by simpa using hsession)] at hcontent
      exact hcut.record content hcontent
  budget := by
    intro capacity hcapacity
    obtain ⟨table, hweight, hcounted⟩ := h.budget capacity hcapacity
    exact ⟨table, hweight, hcounted.saveSession⟩

end Session

end Replication
end DurableActors
