import DurableActors.Host.Trace

/-!
# The calls that a commit makes

Committing a state reads the clock, asks for write plans and writes snapshots; it
does nothing else, and the snapshots it writes are the pending one or the one it
was asked to publish.
-/

namespace DurableActors
namespace Host

open Effects

/-- The calls of a commit that writes only the given snapshots. -/
def CommitCalls (writes : StateSnapshot → Prop) : Op → Prop
  | .unixMillis => True
  | .prepareStateWrite _ _ _ => True
  | .writeSnapshot _ bytes => writes bytes
  | _ => False

theorem CommitCalls.cases {writes : StateSnapshot → Prop} {op : Op} (h : CommitCalls writes op) :
    op = .unixMillis ∨ (∃ actor ownerEpoch expectedVersion,
      op = .prepareStateWrite actor ownerEpoch expectedVersion) ∨
      ∃ ticket bytes, op = .writeSnapshot ticket bytes ∧ writes bytes := by
  cases op with
  | unixMillis => exact .inl rfl
  | prepareStateWrite actor ownerEpoch expectedVersion => exact .inr (.inl ⟨_, _, _, rfl⟩)
  | writeSnapshot ticket bytes => exact .inr (.inr ⟨_, _, rfl, h⟩)
  | _ => cases h

/-- A commit keeps an assertion that each of its calls keeps, even when it fails. -/
theorem commit_meets_always {allowed : World → Entry → Prop} {inv : World → Prop} {α : Type}
    {writes : StateSnapshot → Prop} {p : Run α} {post : α → Prop} {world : World}
    (keeps : World → Prop) (h : p.Within (CommitCalls writes) post)
    (hkeeps : ∀ w op answer, CommitCalls writes op → keeps w → allowed w ⟨op, answer⟩ →
      (inv w → inv (w.log ⟨op, answer⟩)) ∧ keeps (w.log ⟨op, answer⟩))
    (hworld : keeps world) :
    p.Meets (keeping allowed inv) (Prog.always keeps fun value _ => post value) world := by
  refine Prog.Within.meets_always h ?_ ?_ hworld
  · rintro a _ ha rfl
    exact ha
  · intro op w answer w' hop hw hserve
    have hservice : op.isService := by
      obtain rfl | ⟨_, _, _, rfl⟩ | ⟨_, _, rfl, _⟩ := hop.cases <;> rfl
    obtain ⟨hallowed, rfl⟩ := (serve_service hservice).mp hserve
    exact hkeeps w op answer hop hw hallowed

/-- The same for the results alone. -/
theorem commit_meets {allowed : World → Entry → Prop} {inv : World → Prop} {α : Type}
    {writes : StateSnapshot → Prop} {p : Run α} {post : α → Prop} {world : World}
    (keeps : World → Prop) (h : p.Within (CommitCalls writes) post)
    (hkeeps : ∀ w op answer, CommitCalls writes op → keeps w → allowed w ⟨op, answer⟩ →
      (inv w → inv (w.log ⟨op, answer⟩)) ∧ keeps (w.log ⟨op, answer⟩))
    (hworld : keeps world) :
    p.Meets (keeping allowed inv) (Prog.onOk fun value w => keeps w ∧ post value) world := by
  refine (commit_meets_always keeps h hkeeps hworld).mono fun r w hr => ?_
  cases r with
  | ok value => exact ⟨hr.1, hr.2⟩
  | error error => trivial

/-- Loaded state has no commit in flight and is the stored one. -/
theorem fromLoaded_eq_ok {ownerEpoch stateVersion : Nat} {loaded : Option StateSnapshot}
    {cached : CachedActorState}
    (h : CachedActorState.fromLoaded ownerEpoch stateVersion loaded = .ok cached) :
    cached.pending = none ∧ cached.state = loaded.map StateSnapshot.state := by
  unfold CachedActorState.fromLoaded at h
  cases loaded with
  | none => cases h
  | some bytes =>
      dsimp only at h
      cases hdecode : bytes.decode with
      | error error => simp [hdecode, bind, Except.bind] at h
      | ok snapshot =>
          obtain rfl := decode_eq_ok hdecode
          simp only [hdecode, bind, Except.bind] at h
          split at h
          · cases h
          · split at h
            · cases h
            · cases h
              exact ⟨rfl, rfl⟩

/-- The pending commit carries the outcome of an invocation. -/
structure IsCommitOf (invocation : ActorInvocation) (ownerEpoch nextVersion : Nat)
    (result nextState : Value) (interleaved : Bool) (pending : PendingStateCommit) : Prop where
  requestId_eq : pending.snapshot.requestId = invocation.requestId
  ownerEpoch_eq : pending.snapshot.ownerEpoch = ownerEpoch
  stateVersion_eq : pending.snapshot.stateVersion = nextVersion
  snapshotState_eq : pending.snapshot.state = nextState
  result_eq : pending.snapshot.result = result
  state_eq : pending.state = nextState
  interleaved_eq : pending.snapshot.attribution.map StateAttribution.interleaved = some interleaved
  ticketVersion_eq : pending.ticket.stateVersion = nextVersion
  ticketEpoch_eq : pending.ticket.stream.ownerEpoch = ownerEpoch
  not_durable : pending.durable = false

section

variable {writes : StateSnapshot → Prop} {invocation : ActorInvocation}

theorem pendingTicket_within {cached : CachedActorState} {pending : PendingStateCommit} :
    (pendingTicket invocation cached pending).Within (CommitCalls writes) fun ticket =>
      pending.durable = false → ticket.stream = pending.ticket.stream ∧
        ticket.objectName = pending.ticket.objectName := by
  unfold pendingTicket
  split
  · rename_i hdurable
    intro h
    rw [hdurable] at h
    cases h
  · refine ⟨trivial, fun answer => Prog.Within.bind Prog.within_lift fun now _ => ?_⟩
    split
    · refine ⟨trivial, fun answer => Prog.Within.bind Prog.within_lift fun renewed _ => ?_⟩
      exact Prog.Within.bind Prog.within_ensure fun _ hsame _ => hsame
    · exact fun _ => ⟨rfl, rfl⟩

theorem writeSnapshot_within {ticket : WritePlan} {bytes : StateSnapshot} (h : writes bytes) :
    (writeSnapshot ticket bytes).Within (CommitCalls writes) fun _ => True :=
  ⟨h, fun _ => Prog.within_lift.mono (fun _ hop => hop) fun _ _ => trivial⟩

theorem writePending_within {pending : PendingStateCommit}
    (h : pending.durable = false → writes pending.snapshot) :
    (writePending pending).Within (CommitCalls writes) fun _ => True := by
  unfold writePending
  split
  · trivial
  · rename_i hdurable
    refine Prog.Within.bind Prog.within_lift fun bytes hencode => ?_
    rw [encode_eq_ok hencode]
    exact Prog.Within.bind (writeSnapshot_within (h (by simpa using hdurable))) fun _ _ => trivial

/-- Finishing a pending commit writes at most its snapshot, and afterwards the commit has been
applied or is still pending. -/
theorem finishPendingCommit_within (writes : StateSnapshot → Prop) {cached : CachedActorState}
    (h : ∀ pending, cached.pending = some pending → pending.durable = false →
      writes pending.snapshot) :
    (finishPendingCommit invocation cached).Within (CommitCalls writes) fun outcome =>
      (outcome.1 = .ok () → outcome.2.pending = none) ∧
      outcome.2.ownerEpoch = cached.ownerEpoch ∧
      (cached.pending = none → outcome.2 = cached) ∧
      ∀ pending, cached.pending = some pending →
        (outcome.1 = .ok () → outcome.2.state = some pending.state ∧
          outcome.2.lastRequestId = some pending.snapshot.requestId ∧
          outcome.2.stateVersion = pending.snapshot.stateVersion) ∧
        (outcome.1 ≠ .ok () → ∃ ticket durable,
          outcome.2 = { cached with pending := some { pending with ticket, durable } }) := by
  unfold finishPendingCommit
  cases hpending : cached.pending with
  | none => exact ⟨fun _ => hpending, rfl, fun _ => rfl, nofun⟩
  | some pending =>
      refine Prog.Within.bind (Prog.Within.attempt pendingTicket_within) fun renewed _ => ?_
      cases renewed with
      | error error =>
          refine ⟨by simp, rfl, by simp, ?_⟩
          rintro _ ⟨⟩
          exact ⟨by simp, fun _ => ⟨pending.ticket, pending.durable, by simp [← hpending]⟩⟩
      | ok ticket =>
          refine Prog.Within.bind (Prog.Within.attempt (writePending_within
            fun hdurable => h pending hpending hdurable)) fun written _ => ?_
          cases written with
          | error error =>
              refine ⟨by simp, rfl, by simp, ?_⟩
              rintro _ ⟨⟩
              exact ⟨by simp, fun _ => ⟨ticket, pending.durable, rfl⟩⟩
          | ok _ =>
              dsimp only
              split
              · refine ⟨fun _ => rfl, rfl, by simp, ?_⟩
                rintro _ ⟨⟩
                exact ⟨fun _ => ⟨rfl, rfl, rfl⟩, fun hne => absurd rfl hne⟩
              · refine ⟨by simp, rfl, by simp, ?_⟩
                rintro _ ⟨⟩
                exact ⟨by simp, fun _ => ⟨ticket, true, rfl⟩⟩

/-- Finishing a pending commit reports its errors as a value. -/
theorem finishPendingCommit_total (cached : CachedActorState) :
    (finishPendingCommit invocation cached).Total := by
  unfold finishPendingCommit
  cases cached.pending with
  | none => trivial
  | some pending =>
      refine Prog.Total.bind (Prog.total_attempt _) fun renewed => ?_
      cases renewed with
      | error error => trivial
      | ok ticket =>
          refine Prog.Total.bind (Prog.total_attempt _) fun written => ?_
          cases written with
          | error error => trivial
          | ok _ =>
              dsimp only
              split <;> trivial

theorem writeTicket_within {ownerEpoch nextVersion : Nat} {cached : CachedActorState} :
    (writeTicket invocation ownerEpoch nextVersion cached).Within (CommitCalls writes)
      fun _ => True := by
  have hprepare : (prepareStateWrite invocation.actor ownerEpoch cached.stateVersion).Within
      (CommitCalls writes) fun _ => True :=
    ⟨trivial, fun _ => Prog.within_lift.mono (fun _ h => h) fun _ _ => trivial⟩
  unfold writeTicket
  cases cached.nextWrite with
  | none => exact hprepare
  | some ticket =>
      dsimp only
      split
      · refine ⟨trivial, fun answer => Prog.Within.bind Prog.within_lift fun now _ => ?_⟩
        split
        · trivial
        · exact hprepare
      · exact hprepare

theorem newPending_within {ownerEpoch nextVersion : Nat} {cached : CachedActorState}
    {result nextState : Value} {origin : CommitOrigin} :
    (newPending invocation ownerEpoch nextVersion cached result nextState origin).Within
      (CommitCalls writes)
      (IsCommitOf invocation ownerEpoch nextVersion result nextState origin.interleaved) := by
  unfold newPending
  refine Prog.Within.bind writeTicket_within fun ticket _ => ?_
  refine Prog.Within.bind Prog.within_ensure fun _ hversion => ?_
  refine Prog.Within.bind Prog.within_ensure fun _ hepoch => ?_
  refine Prog.Within.bind Prog.within_lift fun snapshot hnew => ?_
  obtain rfl := new_eq_ok hnew
  refine ⟨trivial, fun answer => Prog.Within.bind Prog.within_lift fun now _ => ?_⟩
  refine Prog.Within.bind Prog.within_lift fun bytes _ => ?_
  exact ⟨rfl, rfl, rfl, rfl, rfl, rfl, rfl, hversion, hepoch, rfl⟩

/-- Publishing a result writes at most one snapshot, that of the result; when it succeeds the
cached state is the published one. -/
theorem publishResult_within (writes : StateSnapshot → Prop) {ownerEpoch : Nat}
    {cached : CachedActorState} {result nextState : Value} {origin : CommitOrigin}
    (h : ∀ pending, IsCommitOf invocation ownerEpoch (cached.stateVersion + 1) result nextState
      origin.interleaved pending → writes pending.snapshot) :
    (publishResult invocation ownerEpoch cached result nextState origin).Within
      (CommitCalls writes) fun outcome =>
      outcome.2.ownerEpoch = cached.ownerEpoch ∧
      (∀ pending, outcome.2.pending = some pending →
        cached.pending = some pending ∨ pending.snapshot.requestId = invocation.requestId) ∧
      ((∃ error, outcome.1 = .error error) ∨
        outcome.1 = .ok (.completed result []) ∧ outcome.2.state = some nextState ∧
          outcome.2.stateVersion = cached.stateVersion + 1 ∧ outcome.2.pending = none) := by
  unfold publishResult
  dsimp only
  split
  · exact ⟨rfl, fun _ hpending => .inl hpending, .inl ⟨_, rfl⟩⟩
  · refine Prog.Within.bind (Prog.Within.attempt newPending_within) fun prepared hprepared => ?_
    cases prepared with
    | error error => exact ⟨rfl, fun _ hpending => .inl hpending, .inl ⟨_, rfl⟩⟩
    | ok pending =>
        have hcommit := hprepared pending rfl
        refine Prog.Within.bind (Prog.Within.attempt (writeSnapshot_within (h pending hcommit)))
          fun written _ => ?_
        cases written with
        | error error =>
            refine ⟨rfl, ?_, .inl ⟨_, rfl⟩⟩
            rintro _ ⟨⟩
            exact .inr hcommit.requestId_eq
        | ok _ =>
            -- The commit is durable now, so finishing it writes nothing more.
            refine Prog.Within.bind (finishPendingCommit_within writes ?_) fun outcome houtcome => ?_
            · rintro _ ⟨⟩ ⟨⟩
            · obtain ⟨finished, cached'⟩ := outcome
              obtain ⟨hnone, hepoch, -, happlied⟩ := houtcome
              cases finished with
              | error error =>
                  obtain ⟨ticket, durable, rfl⟩ := (happlied _ rfl).2 (by simp)
                  refine ⟨hepoch, ?_, .inl ⟨error, rfl⟩⟩
                  rintro _ ⟨⟩
                  exact .inr hcommit.requestId_eq
              | ok _ =>
                  obtain ⟨hstate, -, hversion⟩ := (happlied _ rfl).1 rfl
                  have hpending : cached'.pending = none := hnone rfl
                  refine ⟨hepoch, by simp [hpending], .inr ⟨rfl, ?_, ?_, hpending⟩⟩
                  · rw [hstate, hcommit.state_eq]
                  · rw [hversion, hcommit.stateVersion_eq]

/-- Publishing a result reports its errors as a value. -/
theorem publishResult_total (ownerEpoch : Nat) (cached : CachedActorState)
    (result nextState : Value) (origin : CommitOrigin) :
    (publishResult invocation ownerEpoch cached result nextState origin).Total := by
  unfold publishResult
  dsimp only
  split
  · trivial
  · refine Prog.Total.bind (Prog.total_attempt _) fun prepared => ?_
    cases prepared with
    | error error => trivial
    | ok pending =>
        refine Prog.Total.bind (Prog.total_attempt _) fun written => ?_
        cases written with
        | error error => trivial
        | ok _ => exact Prog.Total.bind (finishPendingCommit_total _) fun _ => trivial

end

end Host
end DurableActors
