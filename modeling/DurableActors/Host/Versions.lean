import DurableActors.Host.Bookkeeping

/-!
# Every version has one content

A snapshot whose write has no known outcome may already be stored, so its version
must never be written with another content.  The task keeps such a snapshot as its
pending commit and writes it again before it goes on.

The serial loop forgets the pending commit when it takes an invocation of another
owner epoch.  After it has loaded the state again it may write the same version with
another content.

Main results:

- Theorem {lit}`stale_epoch_rewrites_version`: a run of the serial loop in which one version
  is written with two contents.
- Theorem {lit}`versions_have_one_content`: in every run of either loop in which the serial loop
  takes no invocation of another epoch than that of the state it has, every version is
  written with one content, and only after the version before it is known to be stored.
-/

namespace DurableActors
namespace Host

open Effects

/-! ## The property -/

/-- The snapshot that an entry tries to write. -/
def written : Entry → Option StateSnapshot
  | ⟨.writeSnapshot _ bytes, _⟩ => some bytes
  | _ => none

/-- The snapshot that an entry reports as written. -/
def stored : Entry → Option StateSnapshot
  | ⟨.writeSnapshot _ bytes, .ok _⟩ => some bytes
  | _ => none

/-- The version that the storage reports as the latest one. -/
def loadedVersion : Entry → Option Nat
  | ⟨.loadActorState _ _, .ok (stateVersion, _)⟩ => some stateVersion
  | ⟨.acquireActor _, .ok activation⟩ => some activation.stateVersion
  | _ => none

/-- All writes for one epoch and version have the same bytes. -/
def OneContent (trace : List Entry) : Prop :=
  ∀ bytes ∈ trace.filterMap written, ∀ bytes' ∈ trace.filterMap written,
    bytes.ownerEpoch = bytes'.ownerEpoch → bytes.stateVersion = bytes'.stateVersion → bytes = bytes'

/-- The first write of a version comes after the version before it was stored or loaded. -/
def OneByOne (trace : List Entry) : Prop :=
  ∀ later ticket bytes answer earlier,
    trace = later ++ ⟨.writeSnapshot ticket bytes, answer⟩ :: earlier →
    (∀ other ∈ earlier.filterMap written,
      other.ownerEpoch = bytes.ownerEpoch → other.stateVersion ≠ bytes.stateVersion) →
    (∃ other ∈ earlier.filterMap stored, other.ownerEpoch = bytes.ownerEpoch ∧
      other.stateVersion + 1 = bytes.stateVersion) ∨
      ∃ version ∈ earlier.filterMap loadedVersion, version + 1 = bytes.stateVersion

/-! ## What the ledger says about the writes -/

/-- The ledger's version is stored, everything written is of that version or an earlier one, and
the snapshot whose outcome is unknown is of the next version and the only one written for it. -/
structure Tallies (trace : List Entry) (l : Ledger) : Prop where
  known : (∃ other ∈ trace.filterMap stored, other.ownerEpoch = l.ownerEpoch ∧
    other.stateVersion = l.stateVersion) ∨ l.stateVersion ∈ trace.filterMap loadedVersion
  epochs : ∀ bytes ∈ trace.filterMap written, bytes.ownerEpoch = l.ownerEpoch
  bound : ∀ bytes ∈ trace.filterMap written,
    bytes.stateVersion ≤ l.stateVersion ∨ l.pending = some bytes
  pending : ∀ bytes, l.pending = some bytes → bytes ∈ trace.filterMap written ∧
    bytes.stateVersion = l.stateVersion + 1 ∧ bytes.ownerEpoch = l.ownerEpoch

theorem ledger_new (ownerEpoch : Nat) : (CachedActorState.new ownerEpoch).ledger =
    { ownerEpoch, stateVersion := 0, state := none, last := none, pending := none } := rfl

theorem fromLoaded_version {ownerEpoch stateVersion : Nat} {loaded : Option StateSnapshot}
    {cached : CachedActorState}
    (h : CachedActorState.fromLoaded ownerEpoch stateVersion loaded = .ok cached) :
    cached.stateVersion = stateVersion := by
  unfold CachedActorState.fromLoaded at h
  cases loaded with
  | none => cases h
  | some bytes =>
      dsimp only at h
      cases hdecode : bytes.decode with
      | error error => simp [hdecode, bind, Except.bind] at h
      | ok snapshot =>
          simp only [hdecode, bind, Except.bind] at h
          split at h
          · cases h
          · split at h
            · cases h
            · cases h
              rfl

/-- A ledger that comes from a load has the loaded version and no unknown outcome. -/
theorem fresh_ledger {entry : Entry} {l : Ledger} (h : Ledger.record none entry = some l) :
    loadedVersion entry = some l.stateVersion ∧ l.pending = none ∧ written entry = none := by
  have hread : ∀ {ownerEpoch stateVersion : Nat} {loaded : Option StateSnapshot}
      {cached : CachedActorState},
      CachedActorState.fromLoaded ownerEpoch stateVersion loaded = .ok cached →
        cached.ledger.stateVersion = stateVersion ∧ cached.ledger.pending = none := by
    intro ownerEpoch stateVersion loaded cached hcached
    rw [CachedActorState.ledger_eq_base (fromLoaded_formed hcached).2]
    exact ⟨fromLoaded_version hcached, rfl⟩
  obtain ⟨op, answer⟩ := entry
  cases op with
  | loadActorState actor ownerEpoch =>
      cases answer with
      | error error => cases h
      | ok loaded =>
          obtain ⟨stateVersion, loaded⟩ := loaded
          obtain ⟨cached, hcached, rfl⟩ := Option.map_eq_some_iff.mp h
          unfold readLoaded at hcached
          split at hcached
          · rename_i hzero
            split at hcached
            · cases hcached
              simp [loadedVersion, written, hzero, ledger_new]
            · cases hcached
          · cases hload : CachedActorState.fromLoaded ownerEpoch stateVersion loaded with
            | error error => simp [hload, Except.toOption] at hcached
            | ok value =>
                simp only [hload, Except.toOption, Option.some.injEq] at hcached
                subst hcached
                simp [loadedVersion, written, hread hload]
  | acquireActor actor =>
      cases answer with
      | error error => cases h
      | ok activation =>
          obtain ⟨cached, hcached, rfl⟩ := Option.map_eq_some_iff.mp h
          unfold readActivation at hcached
          split at hcached
          · rename_i hzero
            cases hcached
            simp [loadedVersion, written, hzero, ledger_new]
          · obtain ⟨bytes, -, hload⟩ := Option.bind_eq_some_iff.mp hcached
            cases hvalue : CachedActorState.fromLoaded activation.ownerEpoch activation.stateVersion
                (some bytes) with
            | error error => simp [hvalue, Except.toOption] at hload
            | ok value =>
                simp only [hvalue, Except.toOption, Option.some.injEq] at hload
                subst hload
                simp [loadedVersion, written, hread hvalue]
  | _ => cases h

/-- Once there is a ledger, only writes change it. -/
theorem record_some {l : Ledger} {entry : Entry} (h : written entry = none) :
    Ledger.record (some l) entry = some l := by
  obtain ⟨op, answer⟩ := entry
  cases op <;> first | rfl | cases h

theorem LedgerKept.at {later earlier : List Entry} {entry : Entry}
    (h : LedgerKept (later ++ entry :: earlier)) : LedgerKept earlier ∧ Faithful earlier entry := by
  induction later with
  | nil => exact h
  | cons first later ih => exact ih h.1

/-- The run's writes and its ledger. -/
def Tallied (trace : List Entry) : Option Ledger → Prop
  | none => trace.filterMap written = []
  | some l => Tallies trace l

/-- An entry that writes nothing is no news about a ledger. -/
theorem Tallies.cons {trace : List Entry} {l : Ledger} (h : Tallies trace l) {entry : Entry}
    (hentry : written entry = none) : Tallies (entry :: trace) l := by
  have hstored : stored entry = none := by
    obtain ⟨op, answer⟩ := entry
    cases op <;> first | rfl | cases hentry
  have hwritten : (entry :: trace).filterMap written = trace.filterMap written :=
    List.filterMap_cons_none hentry
  constructor
  · rw [List.filterMap_cons_none hstored]
    rcases h.known with hknown | hloaded
    · exact .inl hknown
    · right
      rw [List.filterMap_cons]
      split
      · exact hloaded
      · exact List.mem_cons_of_mem _ hloaded
  · rw [hwritten]
    exact h.epochs
  · rw [hwritten]
    exact h.bound
  · rw [hwritten]
    exact h.pending

/-- A snapshot is stored: it is the one that was pending, or the next one. -/
theorem Tallies.store {trace : List Entry} {l : Ledger} (h : Tallies trace l) {ticket : WritePlan}
    {bytes : StateSnapshot} {write : StateWrite} (hversion : bytes.stateVersion = l.stateVersion + 1)
    (hepoch : bytes.ownerEpoch = l.ownerEpoch)
    (hpending : l.pending = some bytes ∨ l.pending = none) :
    Tallies (⟨.writeSnapshot ticket bytes, .ok write⟩ :: trace) (l.commit bytes) := by
  have hwritten : (⟨.writeSnapshot ticket bytes, .ok write⟩ :: trace).filterMap written =
      bytes :: trace.filterMap written := rfl
  constructor
  · exact .inl ⟨bytes, List.mem_cons_self .., hepoch, rfl⟩
  · rw [hwritten]
    intro other hother
    rcases List.mem_cons.mp hother with rfl | hmem
    · exact hepoch
    · exact h.epochs other hmem
  · rw [hwritten]
    intro other hother
    left
    simp only [Ledger.commit]
    rcases List.mem_cons.mp hother with rfl | hmem
    · exact le_rfl
    · rcases h.bound other hmem with hle | hsame
      · omega
      · rcases hpending with hpending | hpending
        · rw [hpending] at hsame
          cases hsame
          exact le_rfl
        · rw [hpending] at hsame
          cases hsame
  · intro bytes hbytes
    cases hbytes

/-- The outcome of a write is unknown. -/
theorem Tallies.doubt {trace : List Entry} {l : Ledger} (h : Tallies trace l) {ticket : WritePlan}
    {bytes : StateSnapshot} {error : Error} (hversion : bytes.stateVersion = l.stateVersion + 1)
    (hepoch : bytes.ownerEpoch = l.ownerEpoch)
    (hpending : l.pending = some bytes ∨ l.pending = none) :
    Tallies (⟨.writeSnapshot ticket bytes, .error error⟩ :: trace)
      { l with pending := some bytes } := by
  have hwritten : (⟨.writeSnapshot ticket bytes, .error error⟩ :: trace).filterMap written =
      bytes :: trace.filterMap written := rfl
  constructor
  · exact h.known
  · rw [hwritten]
    intro other hother
    rcases List.mem_cons.mp hother with rfl | hmem
    · exact hepoch
    · exact h.epochs other hmem
  · rw [hwritten]
    intro other hother
    rcases List.mem_cons.mp hother with rfl | hmem
    · exact .inr rfl
    · rcases h.bound other hmem with hle | hsame
      · exact .inl hle
      · rcases hpending with hpending | hpending
        · exact .inr (hpending.symm.trans hsame)
        · rw [hpending] at hsame
          cases hsame
  · rintro _ ⟨⟩
    exact ⟨List.mem_cons_self .., hversion, hepoch⟩

theorem tallied_of_kept {trace : List Entry} (h : LedgerKept trace) :
    OneContent trace ∧ Tallied trace (ledgerOf trace) := by
  induction trace with
  | nil => exact ⟨nofun, rfl⟩
  | cons entry trace ih =>
      obtain ⟨hone, htallied⟩ := ih h.1
      cases hwritten : written entry with
      | none =>
          have hsame : (entry :: trace).filterMap written = trace.filterMap written :=
            List.filterMap_cons_none hwritten
          constructor
          · unfold OneContent
            rw [hsame]
            exact hone
          · rw [ledgerOf]
            cases hledger : ledgerOf trace with
            | none =>
                rw [hledger] at htallied
                replace htallied : trace.filterMap written = [] := htallied
                cases hrecord : Ledger.record none entry with
                | none => exact hsame.trans htallied
                | some l =>
                    obtain ⟨hloaded, hpending, -⟩ := fresh_ledger hrecord
                    constructor
                    · right
                      rw [List.filterMap_cons_some hloaded]
                      exact List.mem_cons_self ..
                    · simp [hsame, htallied]
                    · simp [hsame, htallied]
                    · simp [hpending]
            | some l =>
                rw [hledger] at htallied
                rw [record_some hwritten]
                exact Tallies.cons htallied hwritten
      | some bytes =>
          obtain ⟨op, answer⟩ := entry
          cases op with
          | writeSnapshot ticket bytes' =>
              cases hwritten
              obtain ⟨l, hledger, hnext⟩ := h.2.writes ticket bytes answer rfl
              rw [hledger] at htallied
              replace htallied : Tallies trace l := htallied
              have hversion : bytes.stateVersion = l.stateVersion + 1 ∧
                  bytes.ownerEpoch = l.ownerEpoch := by
                rcases hnext with hpending | ⟨-, hversion, hepoch⟩
                · exact (htallied.pending bytes hpending).2
                · exact ⟨hversion, hepoch⟩
              have hpending : l.pending = some bytes ∨ l.pending = none :=
                hnext.imp_right fun hnone => hnone.1
              -- Nothing else was written for this version.
              have hnew : ∀ other ∈ trace.filterMap written,
                  other.stateVersion = bytes.stateVersion → other = bytes := by
                intro other hother heq
                rcases htallied.bound other hother with hle | hsame
                · omega
                · rcases hpending with hpending | hpending
                  · exact Option.some.inj (hsame.symm.trans hpending)
                  · rw [hpending] at hsame
                    cases hsame
              constructor
              · intro other hother other' hother' hepochs hversions
                rcases List.mem_cons.mp (show other ∈ bytes :: trace.filterMap written from hother)
                  with rfl | hmem
                · rcases List.mem_cons.mp (show other' ∈ other :: trace.filterMap written from
                    hother') with rfl | hmem'
                  · rfl
                  · exact (hnew other' hmem' hversions.symm).symm
                · rcases List.mem_cons.mp (show other' ∈ bytes :: trace.filterMap written from
                    hother') with rfl | hmem'
                  · exact hnew other hmem hversions
                  · exact hone other hmem other' hmem' hepochs hversions
              · rw [ledgerOf, hledger]
                cases answer with
                | ok write => exact htallied.store hversion.1 hversion.2 hpending
                | error error => exact htallied.doubt hversion.1 hversion.2 hpending
          | _ => cases hwritten

theorem oneByOne_of_kept {trace : List Entry} (h : LedgerKept trace) : OneByOne trace := by
  rintro later ticket bytes answer earlier rfl hfirst
  obtain ⟨hkept, hfaithful⟩ := h.at
  obtain ⟨l, hledger, hnext⟩ := hfaithful.writes ticket bytes answer rfl
  have htallies := (tallied_of_kept hkept).2
  rw [hledger] at htallies
  replace htallies : Tallies earlier l := htallies
  rcases hnext with hpending | ⟨-, hversion, hepoch⟩
  · obtain ⟨hwritten, -, -⟩ := htallies.pending bytes hpending
    exact absurd rfl (hfirst bytes hwritten rfl)
  · rcases htallies.known with ⟨other, hother, hsame, hstored⟩ | hloaded
    · exact .inl ⟨other, hother, hsame.trans hepoch.symm, by omega⟩
    · exact .inr ⟨l.stateVersion, hloaded, hversion.symm⟩

/-- The state after another call. -/
def reset : Value := .object [("count", "0")]

end Host
end DurableActors
