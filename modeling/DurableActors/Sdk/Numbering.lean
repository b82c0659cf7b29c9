import DurableActors.Sdk.Supervisor

/-!
# How completions are numbered

A worker counts its completions, and the supervisor adds the base of the resident.
This module says when the next number that the session sends continues the ones
before it, and who gets a reply.

Main results:

- Theorems {lit}`handle_advances`, {lit}`receive_advances` and {lit}`crash_advances`: each
  step of the supervisor sends the next number, no number, or a failure that ended a
  worker after numbers had been sent.
-/

namespace DurableActors
namespace Sdk

/-- The numbers in a list of replies. -/
def numbers {γ : Type} (replies : List (γ × ExecutorReply)) : List Nat :=
  replies.filterMap fun reply => reply.2.sequence

@[simp]
theorem numbers_nil {γ : Type} : numbers ([] : List (γ × ExecutorReply)) = [] := rfl

@[simp]
theorem numbers_append {γ : Type} (first second : List (γ × ExecutorReply)) :
    numbers (first ++ second) = numbers first ++ numbers second :=
  List.filterMap_append

theorem numbers_cons_of_none {γ : Type} {caller : γ} {reply : ExecutorReply}
    (h : reply.sequence = none) (rest : List (γ × ExecutorReply)) :
    numbers ((caller, reply) :: rest) = numbers rest :=
  List.filterMap_cons_none h

theorem numbers_cons_of_some {γ : Type} {caller : γ} {reply : ExecutorReply} {number : Nat}
    (h : reply.sequence = some number) (rest : List (γ × ExecutorReply)) :
    numbers ((caller, reply) :: rest) = number :: numbers rest :=
  List.filterMap_cons_some h

/-! ## The runtime's counter -/

namespace ActorRuntime

variable {definition : ActorDefinition} {fresh : Except Error Properties} {runtime : ActorRuntime}

theorem createInstance_sequence {actor : ActorKey} {state : Value} {created : ActorRuntime}
    (h : createInstance definition fresh actor state runtime = .ok created) :
    created.sequence = runtime.sequence := by
  simp only [createInstance, bind, Except.bind, pure, Except.pure] at h
  repeat' split at h
  all_goals first | (cases h; done) | (cases h; rfl)

theorem prepare_sequence {envelope : CommandEnvelope} {prepared : ActorRuntime} {object : Nat}
    (h : runtime.prepare definition fresh envelope = .ok (.inr (prepared, object))) :
    prepared.sequence = runtime.sequence := by
  simp only [prepare, bind, Except.bind, pure, Except.pure] at h
  repeat' split at h
  all_goals first
    | (cases h; done)
    | (cases h; rfl)
    | (cases h; exact createInstance_sequence (by assumption))

theorem prepare_reply {envelope : CommandEnvelope} {reply : ExecutorReply}
    (h : runtime.prepare definition fresh envelope = .ok (.inl reply)) : reply.sequence = none := by
  simp only [prepare, bind, Except.bind, pure, Except.pure] at h
  repeat' split at h
  all_goals first | (cases h; done) | (cases h; rfl)

theorem enter_sequence (object : Nat) :
    (runtime.enter definition object).1.sequence = runtime.sequence ∧
      ∀ reply, (runtime.enter definition object).2 = .inl reply → reply.sequence = none := by
  unfold enter
  split
  · exact ⟨rfl, by simp⟩
  · refine ⟨rfl, ?_⟩
    rintro _ ⟨⟩
    rfl

/-- Starting an execution completes nothing. -/
theorem start_sequence (envelope : CommandEnvelope) :
    (runtime.start definition fresh envelope).1.sequence = runtime.sequence ∧
      ∀ reply, (runtime.start definition fresh envelope).2 = .inl reply →
        reply.sequence = none := by
  unfold start
  cases hfatal : runtime.fatal with
  | some error =>
      refine ⟨rfl, ?_⟩
      rintro _ ⟨⟩
      rfl
  | none =>
      dsimp only
      cases hprepared : runtime.prepare definition fresh envelope with
      | error error =>
          refine ⟨rfl, ?_⟩
          rintro _ ⟨⟩
          rfl
      | ok prepared =>
          match prepared with
          | .inl reply =>
              refine ⟨rfl, ?_⟩
              rintro _ ⟨⟩
              exact prepare_reply hprepared
          | .inr (prepared, object) =>
              have hsequence := prepare_sequence hprepared
              have henter := @enter_sequence definition prepared object
              rw [hsequence] at henter
              cases envelope.command with
              | hydrate actor =>
                  refine ⟨hsequence, ?_⟩
                  rintro _ ⟨⟩
                  rfl
              | invoke invocation =>
                  dsimp only
                  split
                  · refine ⟨hsequence, ?_⟩
                    rintro _ ⟨⟩
                    rfl
                  · split
                    · refine ⟨hsequence, ?_⟩
                      rintro _ ⟨⟩
                      rfl
                    · exact henter
              | websocketEvent invocation => exact henter

/-- A completion takes the next number, or none when the class has no reentrant method. -/
theorem completion_sequence (command : WorkerCommand) (before state : JsonObject) (result : Value)
    (effects : List ActorSocketEffect) :
    (runtime.completion definition command before state result effects).2.sequence = none ∧
        (runtime.completion definition command before state result effects).1.sequence =
          runtime.sequence ∨
      (runtime.completion definition command before state result effects).2.sequence =
          some (runtime.sequence + 1) ∧
        (runtime.completion definition command before state result effects).1.sequence =
          runtime.sequence + 1 := by
  cases hclass : definition.interleaved with
  | true =>
      right
      cases command <;> simp [completion, stateUpdates, completionOrder, hclass,
        ExecutorReply.sequence]
  | false =>
      left
      cases command <;> simp [completion, stateUpdates, completionOrder, hclass,
        ExecutorReply.sequence]

theorem complete_eq_ok {command : WorkerCommand} {invocation : Invocation} {outcome : Outcome}
    {completed : ActorRuntime × ExecutorReply}
    (h : runtime.complete definition command invocation outcome = .ok completed) :
    ∃ state result effects,
      snapshotActorState definition (runtime.properties invocation.object) = .ok state ∧
      completed = runtime.completion definition command invocation.before state result effects := by
  cases outcome with
  | threw message => cases h
  | returned value effects =>
      simp only [complete, bind, Except.bind, pure, Except.pure] at h
      repeat' split at h
      all_goals first | (cases h; done) | (cases h; exact ⟨_, _, _, by assumption, rfl⟩)

/-- Finishing an execution takes the next number or none. -/
theorem finish_sequence (command : WorkerCommand) (invocation : Invocation) (outcome : Outcome) :
    (runtime.finish definition fresh command invocation outcome).2.sequence = none ∧
        (runtime.finish definition fresh command invocation outcome).1.sequence =
          runtime.sequence ∨
      (runtime.finish definition fresh command invocation outcome).2.sequence =
          some (runtime.sequence + 1) ∧
        (runtime.finish definition fresh command invocation outcome).1.sequence =
          runtime.sequence + 1 := by
  unfold finish
  split
  · rename_i hcomplete
    obtain ⟨state, result, effects, -, rfl⟩ := complete_eq_ok hcomplete
    exact completion_sequence command invocation.before state result effects
  · left
    split
    · exact ⟨rfl, rfl⟩
    · split
      · rename_i hcreated
        exact ⟨rfl, createInstance_sequence hcreated⟩
      · exact ⟨rfl, rfl⟩

end ActorRuntime

/-! ## Continuing the numbers -/

section

variable {γ : Type} {definition : ActorDefinition}

/-- A worker of which the given number of completions have been passed on. -/
def ActorWorker.Counts (worker : ActorWorker γ) (taken : Nat) : Prop :=
  ∃ kept, worker.runtime.sequence = taken + kept ∧
    numbers worker.outbox = List.range' (taken + 1) kept

/-- The next completion of the resident continues the numbers up to the given one. -/
def ResidentActorWorker.Continues (resident : ResidentActorWorker γ) (count : Nat) : Prop :=
  match resident.worker with
  | none => resident.sequenceBase = count
  | some worker => ∃ taken, count = resident.sequenceBase + taken ∧ worker.Counts taken

/-- The numbers up to the given one have been sent, and the next completion continues them. -/
structure ActorWorkerSupervisor.Synced (supervisor : ActorWorkerSupervisor γ) (count : Nat) :
    Prop where
  last : supervisor.lastSequence = count
  resident : ∀ resident, supervisor.resident = some resident → resident.Continues count

/-- The supervisor sent the next numbers, or a failure that ended a worker after numbers had been
sent. -/
def Advances (count : Nat) (who : γ → Prop)
    (result : ActorWorkerSupervisor γ × List (γ × ExecutorReply)) : Prop :=
  (∃ added, result.1.Synced (count + added) ∧
    numbers result.2 = List.range' (count + 1) added) ∨
  0 < count ∧ ∃ caller message rest, result.2 = (caller, message) :: rest ∧
    survives message = false ∧ who caller

theorem counts_new : ({} : ActorWorker γ).Counts 0 := ⟨0, rfl, rfl⟩

theorem counts_post {worker : ActorWorker γ} {taken : Nat} (h : worker.Counts taken) (caller : γ)
    (envelope : CommandEnvelope) : (worker.post caller envelope).Counts taken := h

/-- Starting a command keeps the count. -/
theorem counts_start {worker : ActorWorker γ} {taken : Nat} (h : worker.Counts taken)
    (fresh : Except Error Properties) (earlier : List (Operation γ)) (operation : Operation γ)
    (later : List (Operation γ)) :
    (worker.start definition fresh earlier operation later).Counts taken := by
  obtain ⟨kept, hsequence, hnumbers⟩ := h
  obtain ⟨hruntime, hreply⟩ :=
    @ActorRuntime.start_sequence definition fresh worker.runtime operation.envelope
  unfold ActorWorker.start
  split
  · rename_i runtime reply heq
    simp only [heq] at hruntime hreply
    refine ⟨kept, hruntime.trans hsequence, ?_⟩
    rw [numbers_append, numbers_cons_of_none (hreply reply rfl), hnumbers]
    simp
  · rename_i runtime invocation heq
    simp only [heq] at hruntime
    exact ⟨kept, hruntime.trans hsequence, hnumbers⟩

/-- Finishing a command counts it when it is numbered. -/
theorem counts_finish {worker : ActorWorker γ} {taken : Nat} (h : worker.Counts taken)
    (fresh : Except Error Properties) (earlier : List (Operation γ)) (operation : Operation γ)
    (later : List (Operation γ)) (invocation : Invocation) (outcome : Outcome) :
    (worker.finish definition fresh earlier operation later invocation outcome).Counts taken := by
  obtain ⟨kept, hsequence, hnumbers⟩ := h
  have hfinish := @ActorRuntime.finish_sequence definition fresh worker.runtime
    operation.envelope.command invocation outcome
  unfold ActorWorker.finish
  split
  rename_i runtime reply heq
  simp only [heq] at hfinish
  obtain ⟨hreply, hruntime⟩ | ⟨hreply, hruntime⟩ := hfinish
  · refine ⟨kept, hruntime.trans hsequence, ?_⟩
    rw [numbers_append, numbers_cons_of_none hreply, hnumbers]
    simp
  · refine ⟨kept + 1, by rw [hruntime, hsequence]; rfl, ?_⟩
    have hlast : taken + kept + 1 = taken + 1 + 1 * kept := by omega
    rw [numbers_append, numbers_cons_of_some hreply, hnumbers, hsequence, List.range'_concat,
      numbers_nil, hlast]

theorem numbers_terminated (callers : List γ) :
    numbers (ActorWorker.terminated callers) = [] := by
  simp only [numbers, ActorWorker.terminated, List.filterMap_map]
  apply List.filterMap_eq_nil_iff.mpr
  intro caller _
  rfl

namespace ActorWorkerSupervisor

variable {supervisor : ActorWorkerSupervisor γ} {count : Nat}

/-- A step that sends no number and keeps the supervisor in step. -/
theorem advances_of_synced {who : γ → Prop}
    {result : ActorWorkerSupervisor γ × List (γ × ExecutorReply)} (h : result.1.Synced count)
    (hnumbers : numbers result.2 = []) : Advances count who result :=
  .inl ⟨0, h, by simpa using hnumbers⟩

/-- An eviction makes the next resident continue after the last number. -/
theorem Synced.evict (h : supervisor.Synced count) : supervisor.evict.1.Synced count :=
  ⟨h.last, by nofun⟩

theorem numbers_evict : numbers supervisor.evict.2 = [] := by
  unfold ActorWorkerSupervisor.evict
  dsimp only
  split
  · exact numbers_terminated _
  · rfl

/-- A resident whose worker ended is in step when nothing was numbered before. -/
theorem advances_of_lost {who : γ → Prop} {base : Nat} {caller : γ} {message : ExecutorReply}
    {rest : List (γ × ExecutorReply)} (hlast : supervisor.lastSequence = count)
    (hbase : base ≤ count) (hmessage : survives message = false) (hwho : who caller)
    (hnumbers : numbers ((caller, message) :: rest) = []) :
    Advances count who ({ supervisor with resident := some { sequenceBase := base } },
      (caller, message) :: rest) := by
  by_cases heq : base = count
  · apply advances_of_synced _ hnumbers
    refine ⟨hlast, ?_⟩
    rintro _ ⟨⟩
    exact heq
  · exact .inr ⟨by omega, caller, message, rest, rfl, hmessage, hwho⟩

theorem Continues.base_le {resident : ResidentActorWorker γ} (h : resident.Continues count) :
    resident.sequenceBase ≤ count := by
  unfold ResidentActorWorker.Continues at h
  split at h
  · exact Nat.le_of_eq h
  · obtain ⟨taken, rfl, -⟩ := h
    exact Nat.le_add_right _ _

theorem executeResident_advances {resident : ResidentActorWorker γ}
    (hlast : supervisor.lastSequence = count) (h : resident.Continues count) (caller : γ)
    (envelope : CommandEnvelope) :
    Advances count (· = caller) (supervisor.executeResident resident caller envelope) := by
  unfold executeResident
  split
  · apply advances_of_synced
    · refine ⟨hlast, ?_⟩
      rintro _ ⟨⟩
      exact h
    · rfl
  · dsimp only
    split
    · exact advances_of_lost hlast (Continues.base_le h) rfl rfl rfl
    · apply advances_of_synced
      · refine ⟨hlast, ?_⟩
        rintro _ ⟨⟩
        unfold ResidentActorWorker.Continues at h ⊢
        cases hworker : resident.worker with
        | none =>
            simp only [hworker] at h
            exact ⟨0, h.symm, counts_post counts_new caller envelope⟩
        | some worker =>
            simp only [hworker] at h
            obtain ⟨taken, hcount, hcounts⟩ := h
            exact ⟨taken, hcount, counts_post hcounts caller envelope⟩
      · rfl

/-- Taking a command of the host sends no number. -/
theorem handle_advances (h : supervisor.Synced count) (caller : γ) (command : ExecutorCommand) :
    Advances count (fun other => other = caller ∧ ∃ envelope, command = .execute envelope)
      (supervisor.handle definition caller command) := by
  unfold handle
  split
  · exact advances_of_synced h rfl
  cases command with
  | evict actor =>
      exact advances_of_synced h.evict numbers_evict
  | execute envelope =>
      have hmono : ∀ result, Advances count (· = caller) result →
          Advances count (fun other => other = caller ∧
            ∃ envelope', ExecutorCommand.execute envelope = .execute envelope') result := by
        rintro result (hadded | ⟨hpos, other, message, rest, hresult, hmessage, hother⟩)
        · exact .inl hadded
        · exact .inr ⟨hpos, other, message, rest, hresult, hmessage, hother, envelope, rfl⟩
      apply hmono
      dsimp only
      unfold execute
      split
      · exact advances_of_synced ⟨h.last, h.resident⟩ rfl
      split
      · rename_i resident hresident
        refine executeResident_advances ?_ (h.resident resident hresident) caller envelope
        exact h.last
      · rename_i hnone
        split
        · exact advances_of_synced ⟨h.last, h.resident⟩ rfl
        · refine executeResident_advances ?_ ?_ caller envelope
          · exact h.last
          · exact h.last

/-- Passing on a reply sends its number when it fits. -/
theorem reply_advances (replyBytes : γ → ExecutorReply → Nat) {who : γ → Prop} (added : Nat)
    (h : supervisor.Synced (count + added)) (caller : γ) (message : ExecutorReply)
    (hnumber : message.sequence.toList = List.range' (count + 1) added)
    (hfits : message.sequence ≠ none → replyBytes caller message ≤ maxMessageBytes - 1) :
    Advances count who (supervisor.reply replyBytes caller message) := by
  have hnumbers : numbers [(caller, message)] = List.range' (count + 1) added := by
    rw [← hnumber]
    cases hsequence : message.sequence with
    | none => exact numbers_cons_of_none hsequence []
    | some number => exact numbers_cons_of_some hsequence []
  unfold reply
  split
  · exact .inl ⟨added, h, hnumbers⟩
  · rename_i hlarge
    -- Only a reply without a number is dropped.
    have hnone : message.sequence = none := by
      by_contra hne
      exact hlarge (hfits hne)
    have hadded : added = 0 := by
      rw [hnone] at hnumber
      simpa using congrArg List.length hnumber.symm
    subst hadded
    exact advances_of_synced h.evict numbers_evict

theorem withSequence_sequence {message : ExecutorReply} {number other : Nat}
    (h : message.sequence = some number) :
    (message.withSequence other).sequence = some other := by
  cases message <;> first | rfl | cases h

theorem survives_of_sequence {message : ExecutorReply} {number : Nat}
    (h : message.sequence = some number) : survives message := by
  cases message <;> first | rfl | cases h

/-- Taking a reply of the worker sends its number when it fits. -/
theorem receive_advances (replyBytes : γ → ExecutorReply → Nat) {base : Nat}
    {worker : ActorWorker γ} {caller : γ} {message : ExecutorReply}
    {rest : List (γ × ExecutorReply)} (h : supervisor.Synced count)
    (hresident : supervisor.resident = some { sequenceBase := base, worker := some worker })
    (houtbox : worker.outbox = (caller, message) :: rest)
    (hfits : (supervisor.number base message).2.sequence ≠ none →
      replyBytes caller (supervisor.number base message).2 ≤ maxMessageBytes - 1) :
    Advances count (· = caller)
      (supervisor.receive replyBytes base worker caller message rest) := by
  obtain ⟨taken, hcount, kept, hsequence, hnumbers⟩ := h.resident _ hresident
  replace hcount : count = base + taken := hcount
  rw [houtbox] at hnumbers
  unfold receive
  dsimp only
  split
  · cases hnumber : message.sequence with
    | none =>
        simp only [number, hnumber]
        refine reply_advances replyBytes 0 ⟨?_, ?_⟩ caller message (by simp [hnumber])
          (by simp [hnumber])
        · exact h.last
        rintro _ ⟨⟩
        rw [numbers_cons_of_none hnumber] at hnumbers
        exact ⟨taken, hcount, kept, hsequence, hnumbers⟩
    | some sent =>
        -- The reply has the number after those passed on.
        rw [numbers_cons_of_some hnumber] at hnumbers
        obtain ⟨kept, rfl⟩ : ∃ less, kept = less + 1 := by
          cases kept with
          | zero => simp at hnumbers
          | succ less => exact ⟨less, rfl⟩
        obtain ⟨rfl, hrest⟩ := List.cons.inj hnumbers
        simp only [number, hnumber] at hfits ⊢
        refine reply_advances replyBytes 1 ⟨?_, ?_⟩ caller _ ?_ hfits
        · show max supervisor.lastSequence (base + (taken + 1)) = count + 1
          rw [h.last]
          omega
        · rintro _ ⟨⟩
          exact ⟨taken + 1, by rw [hcount]; rfl, kept, by simp [hsequence]; omega, hrest⟩
        · rw [withSequence_sequence hnumber, hcount]
          rfl
  · rename_i hlost
    have hlost' : survives message = false := by simpa using hlost
    have hnone : message.sequence = none := by
      cases hnumber : message.sequence with
      | none => rfl
      | some sent => exact absurd (survives_of_sequence hnumber) (by simp [hlost'])
    unfold reply
    split
    · refine advances_of_lost h.last (by omega) hlost' rfl ?_
      rw [numbers_cons_of_none hnone]
      exact numbers_terminated _
    · apply advances_of_synced
      · exact ⟨h.last, by nofun⟩
      · rw [numbers_append, numbers_terminated, List.append_nil]
        rfl

/-- A worker that stops by itself sends no number. -/
theorem crash_advances {base : Nat} {worker : ActorWorker γ} (h : supervisor.Synced count)
    (hresident : supervisor.resident = some { sequenceBase := base, worker := some worker })
    (error : Error) :
    Advances count (· ∈ worker.callers) (supervisor.crash base worker error) := by
  have hcontinues := h.resident _ hresident
  unfold crash
  cases hcallers : worker.callers with
  | nil =>
      apply advances_of_synced
      · refine ⟨h.last, ?_⟩
        rintro _ ⟨⟩
        exact hcontinues
      · rfl
  | cons caller others =>
      apply advances_of_lost h.last (Continues.base_le hcontinues) rfl List.mem_cons_self
      exact numbers_terminated others

end ActorWorkerSupervisor

end

/-! ## Who gets a reply -/

section

variable {γ : Type} {definition : ActorDefinition}

/-- Who waits for the resident's worker. -/
def ActorWorkerSupervisor.callers (supervisor : ActorWorkerSupervisor γ) : List γ :=
  match supervisor.resident.bind ResidentActorWorker.worker with
  | some worker => worker.callers
  | none => []

theorem ActorWorkerSupervisor.callers_of_resident {supervisor : ActorWorkerSupervisor γ}
    {base : Nat} {worker : ActorWorker γ}
    (h : supervisor.resident = some { sequenceBase := base, worker := some worker }) :
    supervisor.callers = worker.callers := by
  simp [callers, h]

@[simp]
theorem map_fst_terminated (callers : List γ) :
    (ActorWorker.terminated callers).map Prod.fst = callers := by
  simp [ActorWorker.terminated, Function.comp_def]

namespace ActorWorker

variable {worker : ActorWorker γ} {earlier later : List (Operation γ)} {operation : Operation γ}

/-- A command that is answered moves to the outbox. -/
theorem callers_answer (h : worker.operations = earlier ++ operation :: later)
    (runtime : ActorRuntime) (reply : ExecutorReply) :
    ({ worker with
      runtime
      operations := earlier ++ later
      outbox := worker.outbox ++ [(operation.caller, reply)] } : ActorWorker γ).callers.Perm
        worker.callers := by
  simp only [callers, h, List.map_append, List.map_cons, List.map_nil, List.append_assoc]
  apply List.Perm.append_left
  simpa using List.perm_middle.symm

theorem callers_start (h : worker.operations = earlier ++ operation :: later)
    (fresh : Except Error Properties) :
    (worker.start definition fresh earlier operation later).callers.Perm worker.callers := by
  unfold start
  split
  · exact callers_answer h _ _
  · simp [callers, h]

theorem callers_finish (h : worker.operations = earlier ++ operation :: later)
    (fresh : Except Error Properties) (invocation : Invocation) (outcome : Outcome) :
    (worker.finish definition fresh earlier operation later invocation outcome).callers.Perm
      worker.callers := by
  unfold finish
  exact callers_answer h _ _

end ActorWorker

namespace ActorWorkerSupervisor

variable {supervisor : ActorWorkerSupervisor γ}

/-- Everybody who waited for a worker that is evicted gets a reply. -/
theorem evict_callers :
    supervisor.evict.1.callers = [] ∧ supervisor.evict.2.map Prod.fst = supervisor.callers := by
  refine ⟨rfl, ?_⟩
  unfold evict callers
  cases supervisor.resident.bind ResidentActorWorker.worker <;> simp

theorem executeResident_callers (resident : ResidentActorWorker γ)
    (hresident : supervisor.callers = (resident.worker.map ActorWorker.callers).getD [])
    (caller : γ) (envelope : CommandEnvelope) :
    ((supervisor.executeResident resident caller envelope).1.callers ++
      (supervisor.executeResident resident caller envelope).2.map Prod.fst).Subperm
        (caller :: supervisor.callers) := by
  rw [hresident]
  unfold executeResident
  cases hworker : resident.worker with
  | none =>
      cases envelope.residentOnly <;>
        simp [callers, hworker, ActorWorker.callers, ActorWorker.post, List.Subperm.refl]
  | some worker =>
      cases herror : worker.terminalError with
      | some error => simp [callers, herror, List.singleton_subperm_iff]
      | none =>
          apply List.Perm.subperm
          simp [callers, herror, ActorWorker.callers, ActorWorker.post, List.perm_append_singleton,
            ← List.append_assoc]

/-- A command of the host is answered or posted. -/
theorem handle_callers (caller : γ) (command : ExecutorCommand) :
    ((supervisor.handle definition caller command).1.callers ++
      (supervisor.handle definition caller command).2.map Prod.fst).Subperm
        (caller :: supervisor.callers) := by
  have hanswered : ∀ (result : ActorWorkerSupervisor γ) (reply : ExecutorReply),
      result.callers = supervisor.callers →
      (result.callers ++ [(caller, reply)].map Prod.fst).Subperm (caller :: supervisor.callers) := by
    intro result reply hresult
    rw [hresult]
    exact (List.perm_append_singleton _ _).subperm
  unfold handle
  split
  · exact hanswered _ _ rfl
  cases command with
  | evict actor =>
      obtain ⟨hnone, hsent⟩ := @evict_callers γ supervisor
      apply List.Perm.subperm
      simp [hnone, hsent]
  | execute envelope =>
      dsimp only
      unfold execute
      split
      · exact hanswered _ _ rfl
      split
      · rename_i resident hresident
        apply executeResident_callers
        replace hresident : supervisor.resident = some resident := hresident
        simp only [callers, hresident, Option.bind_some]
        cases resident.worker <;> rfl
      · rename_i hnone
        replace hnone : supervisor.resident = none := hnone
        split
        · exact hanswered _ _ rfl
        · apply executeResident_callers
          simp [callers, hnone]

/-- A reply is sent to its caller, and an eviction answers everybody else. -/
theorem reply_callers (replyBytes : γ → ExecutorReply → Nat) (caller : γ)
    (message : ExecutorReply) :
    ((supervisor.reply replyBytes caller message).1.callers ++
      (supervisor.reply replyBytes caller message).2.map Prod.fst).Perm
        (caller :: supervisor.callers) := by
  unfold reply
  split
  · exact List.perm_append_singleton _ _
  · obtain ⟨hnone, hsent⟩ := @evict_callers γ supervisor
    simp [hnone, hsent]

/-- A worker's first reply is sent to its caller. -/
theorem receive_callers (replyBytes : γ → ExecutorReply → Nat) {base : Nat}
    {worker : ActorWorker γ} {caller : γ} {message : ExecutorReply}
    {rest : List (γ × ExecutorReply)} (houtbox : worker.outbox = (caller, message) :: rest) :
    ((supervisor.receive replyBytes base worker caller message rest).1.callers ++
      (supervisor.receive replyBytes base worker caller message rest).2.map Prod.fst).Perm
        worker.callers := by
  have hworker : worker.callers =
      caller :: ({ worker with outbox := rest } : ActorWorker γ).callers := by
    simp [ActorWorker.callers, houtbox]
  rw [hworker]
  unfold receive
  dsimp only
  split
  · refine (reply_callers replyBytes caller _).trans ?_
    unfold number
    split <;> exact List.Perm.refl _
  · have hreply := @reply_callers γ { supervisor with
      resident := some { sequenceBase := base, worker := none } } replyBytes caller message
    rw [List.map_append, ← List.append_assoc, map_fst_terminated]
    exact hreply.append_right _

/-- Everybody who waited for a worker that stops gets a reply. -/
theorem crash_callers {base : Nat} {worker : ActorWorker γ} (error : Error) :
    ((supervisor.crash base worker error).1.callers ++
      (supervisor.crash base worker error).2.map Prod.fst).Perm worker.callers := by
  unfold crash
  cases hcallers : worker.callers with
  | nil =>
      have hsame : ({ worker with terminalError := some error } : ActorWorker γ).callers = [] :=
        hcallers
      simp [callers, hsame]
  | cons caller others => simp [callers]

end ActorWorkerSupervisor

end

end Sdk
end DurableActors
