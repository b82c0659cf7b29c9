import DurableActors.Host.Execution
import DurableActors.Sdk.Numbering

/-!
# The numbers of interleaved outcomes

The completions of an actor with reentrant methods are numbered by its worker, moved
on by the supervisor when the worker is replaced, and expected one by one by the
mailbox.  A number that is used up without reaching the mailbox blocks it for good.

Main results:

- Theorem {lit}`oversized_reply_leaves_gap`: a run in which a reply that exceeds the
  message limit uses up a number, so that the mailbox waits for it forever.
- Theorem {lit}`numbers_are_gapless`: in every run in which numbered replies fit and the
  mailbox takes a failure that ends it before the replies after it, the numbers that
  it receives are distinct and every smaller number has come or is on its way.
-/

namespace DurableActors
namespace Host

open Effects Sdk

/-! ## The property -/

/-- The number of a reply that has been handed to its caller. -/
def replyNumber (reply : Caller × Except Error ExecutorReply) : Option Nat :=
  match reply.2 with
  | .ok reply => reply.sequence
  | .error _ => none

namespace ExecutorSystem

/-- The numbers of the interleaved outcomes that the mailbox has received. -/
def received (system : ExecutorSystem) : List Nat :=
  system.world.trace.filterMap receivedNumber

/-- The replies on their way to the mailbox, the oldest first. -/
def incoming (system : ExecutorSystem) : List (Caller × Except Error ExecutorReply) :=
  system.answered ++ system.replies.map fun reply => (reply.1, .ok reply.2)

/-- The numbers on their way to the mailbox. -/
def underway (system : ExecutorSystem) : List Nat := system.incoming.filterMap replyNumber

end ExecutorSystem

/-- The numbers that the mailbox receives have no gap that stays: none is repeated, every smaller
number has come or is on its way, and an outcome is held back only while an earlier one is on its
way. -/
structure Gapless (system : ExecutorSystem) : Prop where
  nodup : system.received.Nodup
  dense : ∀ number ∈ system.received, 1 ≤ number ∧ ∀ earlier, 1 ≤ earlier → earlier < number →
    earlier ∈ system.received ∨ earlier ∈ system.underway
  waits : ∀ next, system.program = .call (I := services) .select next →
    ∀ number ∈ system.received, number ∉ system.world.trace.filterMap begins →
      ∃ earlier < number, earlier ∈ system.underway

/-- Whether a reply says that the actor's worker is gone. -/
def endsWorker : Except Error ExecutorReply → Bool
  | .ok reply => !survives reply
  | .error _ => false

/-- No numbered reply exceeds the message limit, and an interleaved mailbox takes no reply that came
after a failure which ends it. -/
def Unhindered (sizes : Sizes) (system : ExecutorSystem) : Action → Prop
  | .pass caller reply => reply.sequence ≠ none →
      sizes.reply caller reply ≤ maxMessageBytes - 1
  | .take earlier => Interleaves system.world.trace →
      ∀ reply ∈ earlier, reply.1.executionId ≠ none → endsWorker reply.2 = false
  | _ => True

/-! ## The flow of numbers -/

/-- A reply that ends the mailbox when it is taken: a failed hydration, or an execution of an
interleaved actor whose worker is gone. -/
def Ends (trace : List Entry) (reply : Caller × Except Error ExecutorReply) : Prop :=
  endsWorker reply.2 ∧
    (reply.1 = .hydration ∨ reply.1.executionId ≠ none ∧ Interleaves trace)

/-- The numbers received and those on their way are the first ones, up to a reply that ends the
mailbox; without such a reply the supervisor continues them. -/
def Flow (trace : List Entry) (incoming : List (Caller × Except Error ExecutorReply))
    (supervisor : ActorWorkerSupervisor Caller) : Prop :=
  ∃ before after count, incoming = before ++ after ∧
    (trace.filterMap receivedNumber ++ before.filterMap replyNumber).Perm (List.range' 1 count) ∧
    (after = [] ∧ supervisor.Synced count ∨
      (∃ reply rest, after = reply :: rest ∧ Ends trace reply) ∨ Doomed trace)

/-- An element of a list that is cut in two is in the first or in the second part. -/
theorem append_cons_eq_append {α : Type} {first second before after : List α} {x : α}
    (h : first ++ x :: second = before ++ after) :
    (∃ more, before = first ++ x :: more ∧ second = more ++ after) ∨
      ∃ more, first = before ++ more ∧ after = more ++ x :: second := by
  rcases List.append_eq_append_iff.mp h with ⟨more, hbefore, hsecond⟩ | ⟨more, hfirst, hafter⟩
  · cases more with
    | nil => exact .inr ⟨[], by simpa using hbefore.symm, by simpa using hsecond.symm⟩
    | cons head more =>
        obtain ⟨rfl, hrest⟩ := List.cons.inj hsecond
        exact .inl ⟨more, hbefore, hrest⟩
  · exact .inr ⟨more, hfirst, hafter⟩

section

variable {trace trace' : List Entry} {first second : List (Caller × Except Error ExecutorReply)}
variable {incoming : List (Caller × Except Error ExecutorReply)}
variable {reply : Caller × Except Error ExecutorReply}
variable {supervisor : ActorWorkerSupervisor Caller}

/-- A reply without a number may come in anywhere. -/
theorem Flow.insert (h : Flow trace (first ++ second) supervisor)
    (hnumber : replyNumber reply = none) : Flow trace (first ++ reply :: second) supervisor := by
  obtain ⟨before, after, count, hincoming, hperm, hcases⟩ := h
  have hbefore : ∀ start rest, (start ++ reply :: rest).filterMap replyNumber =
      (start ++ rest).filterMap replyNumber := by
    intro start rest
    simp [List.filterMap_append, hnumber]
  rcases List.append_eq_append_iff.mp hincoming with ⟨more, rfl, rfl⟩ | ⟨more, rfl, rfl⟩
  · -- The reply belongs to the first part.
    refine ⟨first ++ reply :: more, after, count, by simp, ?_, hcases⟩
    rw [hbefore]
    exact hperm
  · cases more with
    | nil =>
        refine ⟨before ++ [reply], second, count, by simp, ?_, by simpa using hcases⟩
        rw [hbefore, List.append_nil]
        exact hperm
    | cons head more =>
        refine ⟨before, head :: more ++ reply :: second, count, by simp, hperm, ?_⟩
        rcases hcases with ⟨hnone, -⟩ | ⟨last, rest, hcons, hends⟩ | hdoomed
        · cases hnone
        · obtain ⟨rfl, -⟩ := List.cons.inj hcons
          exact .inr (.inl ⟨head, _, rfl, hends⟩)
        · exact .inr (.inr hdoomed)

/-- A reply without a number may be taken from anywhere, unless it ends the mailbox. -/
theorem Flow.remove (h : Flow trace (first ++ reply :: second) supervisor)
    (hnumber : replyNumber reply = none) (hends : Ends trace reply → Doomed trace) :
    Flow trace (first ++ second) supervisor := by
  obtain ⟨before, after, count, hincoming, hperm, hcases⟩ := h
  rcases append_cons_eq_append hincoming with ⟨more, rfl, rfl⟩ | ⟨more, rfl, rfl⟩
  · refine ⟨first ++ more, after, count, by simp, ?_, hcases⟩
    simpa [List.filterMap_append, hnumber] using hperm
  · refine ⟨before, more ++ second, count, by simp, hperm, ?_⟩
    rcases hcases with ⟨hnone, -⟩ | ⟨last, rest, hcons, hlast⟩ | hdoomed
    · simp at hnone
    · cases more with
      | nil =>
          obtain ⟨rfl, -⟩ := List.cons.inj hcons
          exact .inr (.inr (hends hlast))
      | cons head more =>
          obtain ⟨rfl, -⟩ := List.cons.inj hcons
          exact .inr (.inl ⟨head, _, rfl, hlast⟩)
    · exact .inr (.inr hdoomed)

/-- Other entries of the run change nothing. -/
theorem Flow.follows (h : Flow trace incoming supervisor)
    (hreceived : trace'.filterMap receivedNumber = trace.filterMap receivedNumber)
    (hlicence : Interleaves trace → Interleaves trace') (hdoomed : Doomed trace → Doomed trace') :
    Flow trace' incoming supervisor := by
  obtain ⟨before, after, count, hincoming, hperm, hcases⟩ := h
  refine ⟨before, after, count, hincoming, by rw [hreceived]; exact hperm, ?_⟩
  rcases hcases with hsynced | ⟨reply, rest, hcons, hends, hcaller⟩ | hdoom
  · exact .inl hsynced
  · exact .inr (.inl ⟨reply, rest, hcons, hends, hcaller.imp id fun h => ⟨h.1, hlicence h.2⟩⟩)
  · exact .inr (.inr (hdoomed hdoom))

/-- What the supervisor sends continues the numbers or ends the mailbox. -/
theorem Flow.send (h : Flow trace incoming supervisor) {supervisor' : ActorWorkerSupervisor Caller}
    {sent : List (Caller × Except Error ExecutorReply)}
    (hsent : ∀ count, supervisor.Synced count →
      (trace.filterMap receivedNumber ++ incoming.filterMap replyNumber).Perm
        (List.range' 1 count) →
      (∃ added, supervisor'.Synced (count + added) ∧
        sent.filterMap replyNumber = List.range' (count + 1) added) ∨
      ∃ reply rest, sent = reply :: rest ∧ Ends trace reply) :
    Flow trace (incoming ++ sent) supervisor' := by
  obtain ⟨before, after, count, rfl, hperm, hcases⟩ := h
  rcases hcases with ⟨rfl, hsynced⟩ | ⟨reply, rest, rfl, hends⟩ | hdoomed
  · rw [List.append_nil] at hsent ⊢
    obtain ⟨added, hsynced', hnumbers⟩ | ⟨reply, rest, rfl, hends⟩ := hsent count hsynced hperm
    · refine ⟨before ++ sent, [], count + added, by simp, ?_, .inl ⟨rfl, hsynced'⟩⟩
      rw [List.filterMap_append, ← List.append_assoc, hnumbers, Nat.add_comm count 1,
        ← List.range'_append_1]
      exact hperm.append_right _
    · exact ⟨before, reply :: rest, count, rfl, hperm, .inr (.inl ⟨reply, rest, rfl, hends⟩)⟩
  · exact ⟨before, reply :: rest ++ sent, count, by simp, hperm,
      .inr (.inl ⟨reply, rest ++ sent, rfl, hends⟩)⟩
  · exact ⟨before, after ++ sent, count, by simp, hperm, .inr (.inr hdoomed)⟩

theorem replyNumber_of_ends (h : endsWorker reply.2) : replyNumber reply = none := by
  obtain ⟨caller, reply⟩ := reply
  cases reply with
  | error error => rfl
  | ok reply =>
      cases hsequence : reply.sequence with
      | none => exact hsequence
      | some number =>
          have := ActorWorkerSupervisor.survives_of_sequence hsequence
          simp [endsWorker, this] at h

/-- The mailbox takes a reply that came before all those which end it. -/
theorem Flow.take (h : Flow trace (first ++ reply :: second) supervisor)
    (hundoomed : ¬ Doomed trace) (hclear : ∀ earlier ∈ first, ¬ Ends trace earlier) {entry : Entry}
    (hnumber : receivedNumber entry = replyNumber reply)
    (hends : Ends trace reply → Doomed (entry :: trace)) :
    Flow (entry :: trace) (first ++ second) supervisor := by
  obtain ⟨before, after, count, hincoming, hperm, hcases⟩ := h
  have hcons : (entry :: trace).filterMap receivedNumber =
      (replyNumber reply).toList ++ trace.filterMap receivedNumber := by
    cases hsome : replyNumber reply <;> simp [hnumber, hsome]
  rcases append_cons_eq_append hincoming with ⟨more, rfl, rfl⟩ | ⟨more, rfl, rfl⟩
  · refine ⟨first ++ more, after, count, by simp, ?_, ?_⟩
    · -- The number moves from the replies to the outcomes received.
      refine List.Perm.trans ?_ hperm
      rw [hcons]
      cases hsome : replyNumber reply with
      | none => simp [hsome]
      | some number =>
          simp only [Option.toList_some, List.filterMap_append, List.filterMap_cons_some hsome,
            List.cons_append, List.nil_append]
          rw [← List.append_assoc, ← List.append_assoc]
          exact List.perm_middle.symm
    · rcases hcases with hsynced | ⟨last, rest, hlast, hends, hcaller⟩ | hdoomed
      · exact .inl hsynced
      · refine .inr (.inl ⟨last, rest, hlast, hends, hcaller.imp id fun h => ?_⟩)
        exact ⟨h.1, interleaves_cons.mpr (.inr h.2)⟩
      · exact absurd hdoomed hundoomed
  · rcases hcases with ⟨hnone, -⟩ | ⟨last, rest, hlast, hlastEnds⟩ | hdoomed
    · simp at hnone
    · cases more with
      | nil =>
          obtain ⟨rfl, -⟩ := List.cons.inj hlast
          refine ⟨before, second, count, by simp, ?_, .inr (.inr (hends hlastEnds))⟩
          rw [hcons, replyNumber_of_ends hlastEnds.1]
          exact hperm
      | cons head more =>
          obtain ⟨rfl, -⟩ := List.cons.inj hlast
          exact absurd hlastEnds (hclear head (by simp))
    · exact absurd hdoomed hundoomed

end

/-! ## Commands and replies of one kind -/

/-- What identifies a caller among those whose replies matter: the execution, or the hydration. -/
def Caller.ticket : Caller → Option (Option Nat)
  | .execution id _ => some (some id)
  | .hydration => some none
  | .eviction | .idle => none

/-- A command is one that its caller sends. -/
def Suits : Caller → ExecutorCommand → Prop
  | .execution _ request, .execute envelope =>
      envelope.command = executionCommand request.operation
  | .hydration, .execute envelope => envelope.command.isHydrate
  | .eviction, .evict _ | .idle, .evict _ => True
  | _, _ => False

/-- Only an execution gets a numbered reply, and the mailbox reads the number from it. -/
def Answers (reply : Caller × Except Error ExecutorReply) : Prop :=
  match reply.1 with
  | .execution id request => receivedNumber
      ⟨.select, .executed id request (executionOutcome request.operation reply.2)⟩ =
        replyNumber reply
  | _ => replyNumber reply = none

theorem Suits.ticket_ne_none {caller : Caller} {envelope : CommandEnvelope}
    (h : Suits caller (.execute envelope)) : caller.ticket ≠ none := by
  cases caller <;> first | exact Option.some_ne_none _ | exact h.elim

/-- The state that comes with a command does not matter. -/
theorem Suits.resend {caller : Caller} {envelope : CommandEnvelope}
    (h : Suits caller (.execute envelope)) (state : Option Value) (residentOnly : Bool) :
    Suits caller (.execute { envelope with state, residentOnly }) := by
  cases caller <;> exact h

theorem answers_of_none {reply : Caller × Except Error ExecutorReply}
    (h : replyNumber reply = none) : Answers reply := by
  obtain ⟨caller, reply⟩ := reply
  cases caller with
  | execution id request =>
      refine Eq.trans ?_ h.symm
      obtain ⟨_, operation, _⟩ := request
      cases reply with
      | error error => cases operation <;> rfl
      | ok reply =>
          replace h : reply.sequence = none := h
          cases reply <;> cases h <;> cases operation <;> rfl
  | _ => exact h

theorem Answers.withSequence {caller : Caller} {message : ExecutorReply}
    (h : Answers (caller, .ok message)) {sequence : Nat} (hsome : message.sequence = some sequence)
    (number : Nat) : Answers (caller, .ok (message.withSequence number)) := by
  cases caller with
  | execution id request =>
      obtain ⟨_, operation, _⟩ := request
      cases message <;> cases hsome <;> cases operation <;> first | rfl | cases h
  | _ => exact absurd (hsome.symm.trans h) (by simp)

/-- The reply to the end of a method has the kind of its command. -/
theorem answers_finish {definition : ActorDefinition} {runtime : ActorRuntime} {caller : Caller}
    {envelope : CommandEnvelope} (h : Suits caller (.execute envelope))
    (hhydrate : envelope.command.isHydrate = false) (fresh : Except Error Properties)
    (invocation : Invocation) (outcome : Outcome) :
    Answers (caller,
      .ok (runtime.finish definition fresh envelope.command invocation outcome).2) := by
  cases hcomplete : runtime.complete definition envelope.command invocation outcome with
  | error message =>
      apply answers_of_none
      simp only [ActorRuntime.finish, hcomplete]
      repeat' split
      all_goals rfl
  | ok completed =>
      simp only [ActorRuntime.finish, hcomplete]
      obtain ⟨state, result, effects, -, rfl⟩ := ActorRuntime.complete_eq_ok hcomplete
      cases caller with
      | execution id request =>
          replace h : envelope.command = executionCommand request.operation := h
          obtain ⟨_, operation, _⟩ := request
          rw [h]
          cases hclass : definition.interleaved <;> cases operation <;>
            simp [ActorRuntime.completion, ActorRuntime.completionOrder, hclass,
              executionCommand] <;> rfl
      | hydration =>
          replace h : envelope.command.isHydrate = true := h
          rw [hhydrate] at h
          cases h
      | _ => exact h.elim

/-! ## The kinds along a run -/

/-- The commands and replies of a worker are of the kind that their callers expect. -/
structure WorkerSuits (worker : ActorWorker Caller) : Prop where
  operations : ∀ operation ∈ worker.operations,
    Suits operation.caller (.execute operation.envelope) ∧
      (operation.running ≠ none → operation.envelope.command.isHydrate = false)
  outbox : ∀ reply ∈ worker.outbox,
    reply.1.ticket ≠ none ∧ Answers (reply.1, .ok reply.2)

/-- The same for the supervisor's worker. -/
def SupervisorSuits (supervisor : ActorWorkerSupervisor Caller) : Prop :=
  ∀ base worker, supervisor.resident = some { sequenceBase := base, worker := some worker } →
    WorkerSuits worker

section

variable {definition : ActorDefinition} {worker : ActorWorker Caller}
variable {earlier later : List (Operation Caller)} {operation : Operation Caller}
variable {supervisor : ActorWorkerSupervisor Caller}

theorem WorkerSuits.ticket_ne_none (h : WorkerSuits worker) {caller : Caller}
    (hcaller : caller ∈ worker.callers) : caller.ticket ≠ none := by
  rcases List.mem_append.mp hcaller with houtbox | hoperations
  · obtain ⟨reply, hreply, rfl⟩ := List.mem_map.mp houtbox
    exact (h.outbox reply hreply).1
  · obtain ⟨operation, hoperation, rfl⟩ := List.mem_map.mp hoperations
    exact (h.operations operation hoperation).1.ticket_ne_none

/-- A command is answered. -/
theorem WorkerSuits.answer (h : WorkerSuits worker)
    (hoperations : worker.operations = earlier ++ operation :: later) {reply : ExecutorReply}
    (hreply : Answers (operation.caller, .ok reply)) (runtime : ActorRuntime) :
    WorkerSuits { worker with
      runtime
      operations := earlier ++ later
      outbox := worker.outbox ++ [(operation.caller, reply)] } where
  operations := by
    intro other hother
    apply h.operations other
    rw [hoperations]
    rcases List.mem_append.mp hother with hearlier | hlater
    · exact List.mem_append_left _ hearlier
    · exact List.mem_append_right _ (List.mem_cons_of_mem _ hlater)
  outbox := by
    intro other hother
    rcases List.mem_append.mp hother with houtbox | hnew
    · exact h.outbox other houtbox
    · obtain rfl := List.mem_singleton.mp hnew
      have hsuits := (h.operations operation (by simp [hoperations])).1
      exact ⟨hsuits.ticket_ne_none, hreply⟩

/-- A hydration ends when it is started. -/
theorem start_hydrate {runtime : ActorRuntime} {fresh : Except Error Properties}
    {envelope : CommandEnvelope} {invocation : Invocation}
    (h : (runtime.start definition fresh envelope).2 = .inr invocation) :
    envelope.command.isHydrate = false := by
  cases hcommand : envelope.command with
  | hydrate actor =>
      simp only [ActorRuntime.start, hcommand] at h
      repeat' split at h
      all_goals cases h
  | _ => rfl

theorem WorkerSuits.start (h : WorkerSuits worker)
    (hoperations : worker.operations = earlier ++ operation :: later)
    (fresh : Except Error Properties) :
    WorkerSuits (worker.start definition fresh earlier operation later) := by
  have hnumber := (@ActorRuntime.start_sequence definition fresh worker.runtime
    operation.envelope).2
  unfold ActorWorker.start
  split
  · rename_i runtime reply hstart
    rw [hstart] at hnumber
    exact h.answer hoperations (answers_of_none (hnumber reply rfl)) runtime
  · rename_i runtime invocation hstart
    refine ⟨fun other hother => ?_, h.outbox⟩
    have hinvocation : (worker.runtime.start definition fresh operation.envelope).2 =
        .inr invocation := by rw [hstart]
    rcases List.mem_append.mp hother with hearlier | hlater
    · exact h.operations other (by simp [hoperations, hearlier])
    · rcases List.mem_cons.mp hlater with rfl | hlater
      · exact ⟨(h.operations operation (by simp [hoperations])).1,
          fun _ => start_hydrate hinvocation⟩
      · exact h.operations other (by simp [hoperations, hlater])

theorem WorkerSuits.finish (h : WorkerSuits worker)
    (hoperations : worker.operations = earlier ++ operation :: later) {invocation : Invocation}
    (hrunning : operation.running = some invocation) (fresh : Except Error Properties)
    (outcome : Outcome) :
    WorkerSuits
      (worker.finish definition fresh earlier operation later invocation outcome) := by
  obtain ⟨hsuits, hhydrate⟩ := h.operations operation (by simp [hoperations])
  have hanswers := @answers_finish definition worker.runtime operation.caller operation.envelope
    hsuits (hhydrate (by simp [hrunning])) fresh invocation outcome
  exact h.answer hoperations hanswers _

theorem workerSuits_new : WorkerSuits {} := ⟨by simp, by simp⟩

theorem WorkerSuits.post (h : WorkerSuits worker) {caller : Caller} {envelope : CommandEnvelope}
    (hsuits : Suits caller (.execute envelope)) : WorkerSuits (worker.post caller envelope) where
  operations := by
    intro other hother
    rcases List.mem_append.mp hother with hold | hnew
    · exact h.operations other hold
    · obtain rfl := List.mem_singleton.mp hnew
      exact ⟨hsuits, fun hrunning => absurd rfl hrunning⟩
  outbox := h.outbox

/-- What the supervisor makes of a command or a reply is of the right kind. -/
def ResultSuits (result : ActorWorkerSupervisor Caller × List (Caller × ExecutorReply)) : Prop :=
  SupervisorSuits result.1 ∧ ∀ reply ∈ result.2, Answers (reply.1, .ok reply.2)

theorem resultSuits_single {caller : Caller} {reply : ExecutorReply}
    (h : SupervisorSuits supervisor) (hreply : Answers (caller, .ok reply)) :
    ResultSuits (supervisor, [(caller, reply)]) := by
  refine ⟨h, fun other hother => ?_⟩
  obtain rfl := List.mem_singleton.mp hother
  exact hreply

theorem terminated_answers {callers : List Caller} :
    ∀ reply ∈ ActorWorker.terminated callers, Answers (reply.1, .ok reply.2) := by
  intro reply hreply
  obtain ⟨caller, -, rfl⟩ := List.mem_map.mp hreply
  exact answers_of_none rfl

theorem evict_suits {caller : Caller} {reply : ExecutorReply} (hreply : reply.sequence = none) :
    ResultSuits (supervisor.evict.1, (caller, reply) :: supervisor.evict.2) := by
  refine ⟨by nofun, fun other hother => ?_⟩
  rcases List.mem_cons.mp hother with rfl | hterminated
  · exact answers_of_none hreply
  · unfold ActorWorkerSupervisor.evict at hterminated
    cases hworker : supervisor.resident.bind ResidentActorWorker.worker with
    | none => simp [hworker] at hterminated
    | some worker =>
        simp only [hworker] at hterminated
        exact terminated_answers other hterminated

theorem executeResident_suits {resident : ResidentActorWorker Caller}
    (h : ∀ worker, resident.worker = some worker → WorkerSuits worker) {caller : Caller}
    {envelope : CommandEnvelope} (hsuits : Suits caller (.execute envelope)) :
    ResultSuits (supervisor.executeResident resident caller envelope) := by
  have hresident : ∀ resident' : ResidentActorWorker Caller,
      (∀ worker, resident'.worker = some worker → WorkerSuits worker) →
      SupervisorSuits { supervisor with resident := some resident' } := by
    rintro resident' h' base worker ⟨⟩
    exact h' worker rfl
  unfold ActorWorkerSupervisor.executeResident
  split
  · exact resultSuits_single (hresident resident h) (answers_of_none rfl)
  · dsimp only
    split
    · exact resultSuits_single (hresident _ (by nofun)) (answers_of_none rfl)
    · refine ⟨hresident _ ?_, by simp⟩
      rintro _ ⟨⟩
      refine WorkerSuits.post ?_ hsuits
      cases hworker : resident.worker with
      | none => exact workerSuits_new
      | some worker => exact h worker hworker

theorem handle_suits (h : SupervisorSuits supervisor) {caller : Caller} {command : ExecutorCommand}
    (hsuits : Suits caller command) :
    ResultSuits (supervisor.handle definition caller command) := by
  unfold ActorWorkerSupervisor.handle
  split
  · exact resultSuits_single h (answers_of_none rfl)
  cases command with
  | evict actor => exact evict_suits rfl
  | execute envelope =>
      dsimp only
      unfold ActorWorkerSupervisor.execute
      split
      · exact resultSuits_single h (answers_of_none rfl)
      split
      · rename_i resident hresident
        refine executeResident_suits (fun worker hworker => ?_) hsuits
        refine h resident.sequenceBase worker ?_
        rw [← hworker]
        exact hresident
      · split
        · exact resultSuits_single h (answers_of_none rfl)
        · exact executeResident_suits (by nofun) hsuits

theorem reply_suits (replyBytes : Caller → ExecutorReply → Nat) {caller : Caller}
    {message : ExecutorReply} (h : SupervisorSuits supervisor)
    (hmessage : Answers (caller, .ok message)) :
    ResultSuits (supervisor.reply replyBytes caller message) := by
  unfold ActorWorkerSupervisor.reply
  split
  · exact resultSuits_single h hmessage
  · exact evict_suits rfl

theorem receive_suits (replyBytes : Caller → ExecutorReply → Nat) {base : Nat} {caller : Caller}
    {message : ExecutorReply} {rest : List (Caller × ExecutorReply)} (h : WorkerSuits worker)
    (houtbox : worker.outbox = (caller, message) :: rest) :
    ResultSuits (supervisor.receive replyBytes base worker caller message rest) := by
  have hmessage : Answers (caller, .ok message) := (h.outbox (caller, message) (by simp [houtbox])).2
  have hrest : WorkerSuits { worker with outbox := rest } :=
    ⟨h.operations, fun reply hreply => h.outbox reply (by simp [houtbox, hreply])⟩
  have hresident : ∀ supervisor' : ActorWorkerSupervisor Caller, supervisor'.resident =
      some { sequenceBase := base, worker := some { worker with outbox := rest } } →
      SupervisorSuits supervisor' := by
    intro supervisor' heq _ _ hsome
    cases heq.symm.trans hsome
    exact hrest
  unfold ActorWorkerSupervisor.receive
  dsimp only
  split
  · unfold ActorWorkerSupervisor.number
    split
    · rename_i sequence hsequence
      exact reply_suits replyBytes (hresident _ rfl) (hmessage.withSequence hsequence _)
    · exact reply_suits replyBytes (hresident _ rfl) hmessage
  · obtain ⟨hsupervisor, hsent⟩ := @reply_suits { supervisor with
      resident := some { sequenceBase := base, worker := none } } replyBytes caller message
      (by nofun) hmessage
    refine ⟨hsupervisor, fun reply hreply => ?_⟩
    rcases List.mem_append.mp hreply with hsingle | hterminated
    · exact hsent reply hsingle
    · exact terminated_answers reply hterminated

theorem crash_suits (h : WorkerSuits worker) (base : Nat) (error : Error) :
    ResultSuits (supervisor.crash base worker error) := by
  unfold ActorWorkerSupervisor.crash
  split
  · refine ⟨?_, by simp⟩
    rintro _ _ ⟨⟩
    exact ⟨h.operations, h.outbox⟩
  · refine ⟨by nofun, fun reply hreply => ?_⟩
    rcases List.mem_cons.mp hreply with rfl | hterminated
    · exact answers_of_none rfl
    · exact terminated_answers reply hterminated

end

/-- All commands and replies are of the kind that their callers expect. -/
structure Kinds (system : ExecutorSystem) : Prop where
  channel : ∀ command ∈ system.channel, Suits command.1 command.2
  pending : ∀ command ∈ system.pending, Suits command.1 (.execute command.2)
  wire : ∀ command ∈ system.wire, Suits command.1 command.2
  supervisor : SupervisorSuits system.supervisor
  replies : ∀ reply ∈ system.replies, Answers (reply.1, .ok reply.2)
  answered : ∀ reply ∈ system.answered, Answers reply

/-! ## The driver -/

/-- The driver passes a command on, or answers it without a number.  Nobody waits for the reply to
an eviction of the dispatcher. -/
inductive Relayed (system : ExecutorSystem) (caller : Caller) : ExecutorSystem → Prop
  | pass (resident : Bool) (pending : List (Caller × CommandEnvelope))
      (command : ExecutorCommand) :
      Suits caller command → (∀ entry ∈ pending, Suits entry.1 (.execute entry.2)) →
      Relayed system caller { system with
        resident, pending, wire := system.wire ++ [(caller, command)] }
  | give (resident : Bool) (pending : List (Caller × CommandEnvelope))
      (reply : Except Error ExecutorReply) :
      replyNumber (caller, reply) = none →
      (∀ entry ∈ pending, Suits entry.1 (.execute entry.2)) →
      Relayed system caller { system with
        resident, pending, answered := system.answered ++ [(caller, reply)] }
  | drop (resident : Bool) (pending : List (Caller × CommandEnvelope)) :
      (∀ entry ∈ pending, Suits entry.1 (.execute entry.2)) →
      Relayed system caller { system with resident, pending }

section

variable {sizes : Sizes} {system : ExecutorSystem} {caller : Caller}

theorem relayed_give {resident : Bool} {pending : List (Caller × CommandEnvelope)}
    (hpending : ∀ entry ∈ pending, Suits entry.1 (.execute entry.2))
    {reply : Except Error ExecutorReply} (hreply : replyNumber (caller, reply) = none) :
    Relayed system caller ({ system with resident, pending }.give caller reply) := by
  unfold ExecutorSystem.give
  split
  · exact .drop resident pending hpending
  · exact .give resident pending reply hreply hpending

theorem relayed_enqueue {resident : Bool} {pending : List (Caller × CommandEnvelope)}
    (hpending : ∀ entry ∈ pending, Suits entry.1 (.execute entry.2)) {envelope : CommandEnvelope}
    (hsuits : Suits caller (.execute envelope)) :
    Relayed system caller ({ system with resident, pending }.enqueue sizes caller envelope) := by
  unfold ExecutorSystem.enqueue
  dsimp only
  generalize (if envelope.residentOnly then none else some (envelope.state.getD .null)) = state
  split
  · refine .pass resident _ _ (hsuits.resend _ _) fun entry hentry => ?_
    rcases List.mem_append.mp hentry with hold | hnew
    · exact hpending entry hold
    · obtain rfl := List.mem_singleton.mp hnew
      exact hsuits
  · exact relayed_give hpending rfl

theorem relayed_handleCommand (h : ∀ entry ∈ system.pending, Suits entry.1 (.execute entry.2))
    {command : ExecutorCommand} (hsuits : Suits caller command) :
    Relayed system caller (system.handleCommand sizes caller command) := by
  cases command with
  | evict actor => exact .pass false system.pending _ hsuits h
  | execute envelope => exact relayed_enqueue h (hsuits.resend _ _)

/-- A reply that asks for the state is answered or followed by the command with the state. -/
theorem relayed_deliver (h : ∀ entry ∈ system.pending, Suits entry.1 (.execute entry.2)) :
    Relayed system caller (system.deliver sizes caller .stateRequired) := by
  have hpending : ∀ entry ∈ system.pending.filter fun entry => ¬ entry.1 = caller,
      Suits entry.1 (.execute entry.2) :=
    fun entry hentry => h entry (List.mem_of_mem_filter hentry)
  simp only [ExecutorSystem.deliver, if_true]
  split
  · rename_i envelope hfilter
    obtain ⟨hlookup, -⟩ := Option.filter_eq_some_iff.mp hfilter
    obtain ⟨_, _, hsplit, -⟩ := List.lookup_eq_some_iff.mp hlookup
    have hsuits := h (caller, envelope) (by simp [hsplit])
    exact relayed_enqueue hpending (hsuits.resend _ _)
  · exact relayed_give hpending rfl

theorem Kinds.relayed (h : Kinds system) {system' : ExecutorSystem}
    (hrelayed : Relayed system caller system') : Kinds system' := by
  cases hrelayed with
  | pass resident pending command hsuits hpending =>
      refine ⟨h.channel, hpending, ?_, h.supervisor, h.replies, h.answered⟩
      exact List.forall_mem_append.mpr ⟨h.wire, by simpa using hsuits⟩
  | give resident pending reply hnumber hpending =>
      refine ⟨h.channel, hpending, h.wire, h.supervisor, h.replies, ?_⟩
      exact List.forall_mem_append.mpr ⟨h.answered, by simpa using answers_of_none hnumber⟩
  | drop resident pending hpending =>
      exact ⟨h.channel, hpending, h.wire, h.supervisor, h.replies, h.answered⟩

/-- Delivering a reply that does not ask for the state. -/
theorem deliver_eq {reply : ExecutorReply} (h : reply ≠ .stateRequired) :
    ∃ resident pending, (∀ entry ∈ pending, entry ∈ system.pending) ∧
      system.deliver sizes caller reply =
        { system with resident, pending }.give caller (.ok reply) := by
  refine ⟨_, _, fun entry hentry => ?_, if_neg h⟩
  exact List.mem_of_mem_filter hentry

theorem Kinds.deliver (h : Kinds system) {reply : ExecutorReply}
    (hreply : Answers (caller, .ok reply)) : Kinds (system.deliver sizes caller reply) := by
  by_cases hrequired : reply = .stateRequired
  · subst hrequired
    exact h.relayed (relayed_deliver h.pending)
  · obtain ⟨resident, pending, hpending, heq⟩ := @deliver_eq sizes system caller _ hrequired
    rw [heq]
    have hsuits : ∀ entry ∈ pending, Suits entry.1 (.execute entry.2) :=
      fun entry hentry => h.pending entry (hpending entry hentry)
    unfold ExecutorSystem.give
    split
    · exact ⟨h.channel, hsuits, h.wire, h.supervisor, h.replies, h.answered⟩
    · refine ⟨h.channel, hsuits, h.wire, h.supervisor, h.replies, ?_⟩
      exact List.forall_mem_append.mpr ⟨h.answered, by simpa using hreply⟩

theorem Kinds.send (h : Kinds system)
    {result : ActorWorkerSupervisor Caller × List (Caller × ExecutorReply)}
    (hresult : ResultSuits result) : Kinds (system.send result) :=
  ⟨h.channel, h.pending, h.wire, hresult.1, List.forall_mem_append.mpr ⟨h.replies, hresult.2⟩,
    h.answered⟩

theorem Kinds.withWorker (h : Kinds system) {worker : ActorWorker Caller}
    (hworker : WorkerSuits worker) (base : Nat) : Kinds (system.withWorker base worker) := by
  refine ⟨h.channel, h.pending, h.wire, ?_, h.replies, h.answered⟩
  rintro _ _ ⟨⟩
  exact hworker

theorem Kinds.submit (h : Kinds system) {command : ExecutorCommand}
    (hsuits : Suits caller command) :
    Kinds { system with channel := system.channel ++ [(caller, command)] } :=
  ⟨List.forall_mem_append.mpr ⟨h.channel, by simpa using hsuits⟩, h.pending, h.wire, h.supervisor,
    h.replies, h.answered⟩

/-- The task takes a reply. -/
theorem Kinds.taken (h : Kinds system) {earlier later : List (Caller × Except Error ExecutorReply)}
    {reply : Except Error ExecutorReply}
    (hanswered : system.answered = earlier ++ (caller, reply) :: later) :
    Kinds { system with answered := earlier ++ later } := by
  refine ⟨h.channel, h.pending, h.wire, h.supervisor, h.replies, fun other hother => ?_⟩
  apply h.answered other
  rw [hanswered]
  exact (List.sublist_cons_self _ _).append_left _ |>.subset hother

theorem suits_execution (id : Nat) (request : ActorRequest) (state : Option Value) :
    Suits (.execution id request) (.execute {
      command := executionCommand request.operation, state, residentOnly := false }) := rfl

theorem Kinds.step {definition : ActorDefinition} {action : Action} {system' : ExecutorSystem}
    (h : Kinds system) (hstep : ExecutorStep definition sizes system action system') :
    Kinds system' := by
  -- Without its first message a queue still holds messages of the right kind.
  have hrest : ∀ {α : Type} {P : α → Prop} {queue rest : List α} {first : α},
      (∀ x ∈ queue, P x) → queue = first :: rest → P first ∧ ∀ x ∈ rest, P x := by
    intro α P queue rest first hall heq
    rw [heq] at hall
    exact List.forall_mem_cons.mp hall
  cases hstep with
  | task program world => exact ⟨h.channel, h.pending, h.wire, h.supervisor, h.replies, h.answered⟩
  | start id request state next =>
      have hsubmit := h.submit (suits_execution id request state)
      exact ⟨hsubmit.channel, h.pending, h.wire, h.supervisor, h.replies, h.answered⟩
  | requestHydration actor state next =>
      have hsubmit := @Kinds.submit system .hydration h
        (.execute { command := .hydrate actor, state, residentOnly := false }) rfl
      exact ⟨hsubmit.channel, h.pending, h.wire, h.supervisor, h.replies, h.answered⟩
  | requestEviction actor next =>
      have hsubmit := @Kinds.submit system .eviction h (.evict actor) trivial
      exact ⟨hsubmit.channel, h.pending, h.wire, h.supervisor, h.replies, h.answered⟩
  | evictIdle actor => exact @Kinds.submit system .idle h (.evict actor) trivial
  | hydrated actor state next earlier reply later hprogram hrequested hanswered =>
      exact ⟨h.channel, h.pending, h.wire, h.supervisor, h.replies, (h.taken hanswered).answered⟩
  | evicted actor next earlier reply later hprogram hrequested hanswered =>
      exact ⟨h.channel, h.pending, h.wire, h.supervisor, h.replies, (h.taken hanswered).answered⟩
  | take id request next earlier reply later hprogram hanswered hrunning =>
      exact ⟨h.channel, h.pending, h.wire, h.supervisor, h.replies, (h.taken hanswered).answered⟩
  | handleCommand caller command rest hchannel =>
      obtain ⟨hfirst, hchannel⟩ := hrest h.channel hchannel
      have hsystem : Kinds { system with channel := rest } :=
        ⟨hchannel, h.pending, h.wire, h.supervisor, h.replies, h.answered⟩
      exact hsystem.relayed (relayed_handleCommand hsystem.pending hfirst)
  | deliver caller reply rest hreplies =>
      obtain ⟨hfirst, hreplies⟩ := hrest h.replies hreplies
      have hsystem : Kinds { system with replies := rest } :=
        ⟨h.channel, h.pending, h.wire, h.supervisor, hreplies, h.answered⟩
      exact hsystem.deliver hfirst
  | handle caller command rest hwire =>
      obtain ⟨hfirst, hwire⟩ := hrest h.wire hwire
      have hsystem : Kinds { system with wire := rest } :=
        ⟨h.channel, h.pending, hwire, h.supervisor, h.replies, h.answered⟩
      exact hsystem.send (handle_suits h.supervisor hfirst)
  | startOperation base worker earlier operation later fresh hresident hoperations =>
      exact h.withWorker ((h.supervisor base worker hresident).start hoperations fresh) base
  | finishOperation base worker earlier operation later invocation fresh outcome hresident
      hoperations hrunning =>
      have hworker := h.supervisor base worker hresident
      exact h.withWorker (hworker.finish hoperations hrunning fresh outcome) base
  | touch base worker object properties hresident =>
      have hworker := h.supervisor base worker hresident
      have htouched : WorkerSuits (worker.touch object properties) :=
        ⟨hworker.operations, hworker.outbox⟩
      exact h.withWorker htouched base
  | receive base worker caller message rest hresident houtbox =>
      exact h.send (receive_suits sizes.reply (h.supervisor base worker hresident) houtbox)
  | crash base worker error hresident =>
      exact h.send (crash_suits (h.supervisor base worker hresident) base error)

end

/-! ## Who is waited for -/

/-- Everybody whose command or reply is under way. -/
def ExecutorSystem.carried (system : ExecutorSystem) : List Caller :=
  system.channel.map Prod.fst ++ system.wire.map Prod.fst ++ system.supervisor.callers ++
    system.replies.map Prod.fst ++ system.answered.map Prod.fst

/-- Each execution under way is one that the task waits for, and a hydration is under way only
while the task waits for it. -/
structure Census (system : ExecutorSystem) : Prop where
  nodup : (system.carried.filterMap Caller.ticket).Nodup
  unfinished : ∀ id request, .execution id request ∈ system.carried →
    Unfinished id system.world.trace
  hydration : .hydration ∈ system.carried → system.requested = true ∧
    ∃ actor state next, system.program = .call (I := services) (.hydrate actor state) next

section

variable {definition : ActorDefinition} {sizes : Sizes} {system system' : ExecutorSystem}
variable {caller : Caller}

/-- The driver and the executor work beside the task. -/
structure Beside (system system' : ExecutorSystem) : Prop where
  program : system'.program = system.program
  world : system'.world = system.world
  requested : system'.requested = system.requested

/-- A step beside the task that carries nobody else. -/
structure Passes (system system' : ExecutorSystem) : Prop extends Beside system system' where
  count : ∀ caller, system'.carried.count caller ≤ system.carried.count caller

theorem Census.passes (h : Census system) (hpasses : Passes system system') : Census system' := by
  have hsubperm : system'.carried.Subperm system.carried :=
    List.subperm_ext_iff.mpr fun caller _ => hpasses.count caller
  refine ⟨?_, ?_, ?_⟩
  · obtain ⟨carried, hperm, hsublist⟩ := hsubperm
    rw [← (hperm.filterMap Caller.ticket).nodup_iff]
    exact h.nodup.sublist (hsublist.filterMap Caller.ticket)
  · intro id request hmem
    rw [hpasses.world]
    exact h.unfinished id request (hsubperm.subset hmem)
  · intro hmem
    rw [hpasses.program, hpasses.requested]
    exact h.hydration (hsubperm.subset hmem)

theorem carried_relayed (h : Relayed system caller system') (other : Caller) :
    system'.carried.count other ≤ (caller :: system.carried).count other := by
  cases h <;> simp only [ExecutorSystem.carried, List.map_append, List.map_cons, List.map_nil,
    List.count_append, List.count_cons, List.count_nil] <;> omega

theorem carried_deliver {reply : ExecutorReply}
    (h : ∀ entry ∈ system.pending, Suits entry.1 (.execute entry.2)) (other : Caller) :
    (system.deliver sizes caller reply).carried.count other ≤
      (caller :: system.carried).count other := by
  by_cases hrequired : reply = .stateRequired
  · subst hrequired
    exact carried_relayed (relayed_deliver h) other
  · obtain ⟨resident, pending, -, heq⟩ := @deliver_eq sizes system caller _ hrequired
    rw [heq]
    unfold ExecutorSystem.give
    split <;> simp only [ExecutorSystem.carried, List.map_append, List.map_cons, List.map_nil,
      List.count_append, List.count_cons, List.count_nil] <;> omega

theorem Relayed.beside (h : Relayed system caller system') : Beside system system' := by
  cases h <;> exact ⟨rfl, rfl, rfl⟩

theorem beside_deliver {reply : ExecutorReply}
    (h : ∀ entry ∈ system.pending, Suits entry.1 (.execute entry.2)) :
    Beside system (system.deliver sizes caller reply) := by
  by_cases hrequired : reply = .stateRequired
  · subst hrequired
    exact (relayed_deliver h).beside
  · obtain ⟨resident, pending, -, heq⟩ := @deliver_eq sizes system caller _ hrequired
    rw [heq]
    unfold ExecutorSystem.give
    split <;> exact ⟨rfl, rfl, rfl⟩

theorem passes_handleCommand (hkinds : Kinds system) {command : ExecutorCommand}
    {rest : List (Caller × ExecutorCommand)} (hchannel : system.channel = (caller, command) :: rest) :
    Passes system ({ system with channel := rest }.handleCommand sizes caller command) := by
  have hsuits := hkinds.channel (caller, command) (by simp [hchannel])
  have hrelayed := @relayed_handleCommand sizes { system with channel := rest } caller
    hkinds.pending command hsuits
  refine ⟨⟨hrelayed.beside.program, hrelayed.beside.world, hrelayed.beside.requested⟩,
    fun other => (carried_relayed hrelayed other).trans ?_⟩
  simp only [ExecutorSystem.carried, hchannel, List.map_cons, List.count_append, List.count_cons]
  omega

theorem passes_deliver (hkinds : Kinds system) {reply : ExecutorReply}
    {rest : List (Caller × ExecutorReply)} (hreplies : system.replies = (caller, reply) :: rest) :
    Passes system ({ system with replies := rest }.deliver sizes caller reply) := by
  have hbeside := @beside_deliver sizes { system with replies := rest } caller reply hkinds.pending
  refine ⟨⟨hbeside.program, hbeside.world, hbeside.requested⟩, fun other => ?_⟩
  refine (@carried_deliver sizes { system with replies := rest } caller reply hkinds.pending
    other).trans ?_
  simp only [ExecutorSystem.carried, hreplies, List.map_cons, List.count_append, List.count_cons]
  omega

/-- The supervisor answers somebody. -/
theorem passes_send {rest : List (Caller × ExecutorCommand)}
    {result : ActorWorkerSupervisor Caller × List (Caller × ExecutorReply)}
    (hresult : ∀ caller, (result.1.callers ++ result.2.map Prod.fst).count caller +
      (rest.map Prod.fst).count caller ≤
        (system.wire.map Prod.fst).count caller + system.supervisor.callers.count caller) :
    Passes system ({ system with wire := rest }.send result) := by
  refine ⟨⟨rfl, rfl, rfl⟩, fun caller => ?_⟩
  have hcount := hresult caller
  simp only [ExecutorSystem.carried, ExecutorSystem.send, List.map_append, List.count_append]
    at hcount ⊢
  omega

theorem passes_handle {command : ExecutorCommand} {rest : List (Caller × ExecutorCommand)}
    (hwire : system.wire = (caller, command) :: rest) :
    Passes system ({ system with wire := rest }.send
      (system.supervisor.handle definition caller command)) := by
  refine passes_send fun other => ?_
  have hcount := (@ActorWorkerSupervisor.handle_callers Caller definition system.supervisor
    caller command).count_le other
  simp only [hwire, List.map_cons, List.count_cons] at hcount ⊢
  omega

theorem passes_receive {base : Nat} {worker : ActorWorker Caller} {message : ExecutorReply}
    {rest : List (Caller × ExecutorReply)}
    (hresident : system.supervisor.resident = some { sequenceBase := base, worker := some worker })
    (houtbox : worker.outbox = (caller, message) :: rest) :
    Passes system
      (system.send (system.supervisor.receive sizes.reply base worker caller message rest)) := by
  refine passes_send fun other => ?_
  have hcount := (@ActorWorkerSupervisor.receive_callers Caller system.supervisor sizes.reply
    base worker caller message rest houtbox).count_eq other
  rw [hcount, ActorWorkerSupervisor.callers_of_resident hresident]
  omega

theorem passes_crash {base : Nat} {worker : ActorWorker Caller} (error : Error)
    (hresident : system.supervisor.resident =
      some { sequenceBase := base, worker := some worker }) :
    Passes system (system.send (system.supervisor.crash base worker error)) := by
  refine passes_send fun other => ?_
  have hcount := (@ActorWorkerSupervisor.crash_callers Caller system.supervisor base worker
    error).count_eq other
  rw [hcount, ActorWorkerSupervisor.callers_of_resident hresident]
  omega

theorem passes_withWorker {base : Nat} {worker worker' : ActorWorker Caller}
    (hresident : system.supervisor.resident = some { sequenceBase := base, worker := some worker })
    (hcallers : worker'.callers.Perm worker.callers) :
    Passes system (system.withWorker base worker') := by
  refine ⟨⟨rfl, rfl, rfl⟩, fun caller => ?_⟩
  have hbefore := ActorWorkerSupervisor.callers_of_resident hresident
  have hafter : (system.withWorker base worker').supervisor.callers = worker'.callers := rfl
  have hcount := hcallers.count_eq caller
  simp only [ExecutorSystem.carried, hafter, hbefore, List.count_append]
  simp only [ExecutorSystem.withWorker]
  omega

/-- A caller with a new ticket submits a command. -/
theorem Census.nodup_submit (h : Census system) (command : ExecutorCommand)
    (hfresh : ∀ other ∈ system.carried, caller.ticket ≠ none → other.ticket ≠ caller.ticket) :
    ((ExecutorSystem.carried { system with
      channel := system.channel ++ [(caller, command)] }).filterMap Caller.ticket).Nodup := by
  have hperm : (ExecutorSystem.carried { system with
      channel := system.channel ++ [(caller, command)] }).Perm (caller :: system.carried) := by
    refine List.perm_iff_count.mpr fun other => ?_
    simp only [ExecutorSystem.carried, List.map_append, List.map_cons, List.map_nil,
      List.count_append, List.count_cons, List.count_nil]
    omega
  rw [(hperm.filterMap Caller.ticket).nodup_iff]
  cases hticket : caller.ticket with
  | none =>
      rw [List.filterMap_cons_none hticket]
      exact h.nodup
  | some ticket =>
      rw [List.filterMap_cons_some hticket, List.nodup_cons]
      refine ⟨fun hmem => ?_, h.nodup⟩
      obtain ⟨other, hother, hsome⟩ := List.mem_filterMap.mp hmem
      exact hfresh other hother (by simp [hticket]) (hsome.trans hticket.symm)

theorem mem_carried_submit {command : ExecutorCommand} {other : Caller}
    (h : other ∈ ExecutorSystem.carried { system with
      channel := system.channel ++ [(caller, command)] }) :
    other = caller ∨ other ∈ system.carried := by
  simp only [ExecutorSystem.carried, List.map_append, List.map_cons, List.map_nil,
    List.mem_append, List.mem_singleton] at h ⊢
  tauto

variable {earlier later : List (Caller × Except Error ExecutorReply)}
variable {reply : Except Error ExecutorReply}

/-- The task takes a reply; nobody else has the same ticket. -/
theorem Census.taken (h : Census system)
    (hanswered : system.answered = earlier ++ (caller, reply) :: later) :
    ((ExecutorSystem.carried { system with
      answered := earlier ++ later }).filterMap Caller.ticket).Nodup ∧
    ∀ other ∈ ExecutorSystem.carried { system with answered := earlier ++ later },
      other ∈ system.carried ∧ (other.ticket = none ∨ other.ticket ≠ caller.ticket) := by
  have hperm : system.carried.Perm (caller ::
      ExecutorSystem.carried { system with answered := earlier ++ later }) := by
    refine List.perm_iff_count.mpr fun other => ?_
    simp only [ExecutorSystem.carried, hanswered, List.map_append, List.map_cons,
      List.count_append, List.count_cons]
    omega
  have hnodup := h.nodup
  rw [(hperm.filterMap Caller.ticket).nodup_iff] at hnodup
  constructor
  · exact hnodup.sublist ((List.sublist_cons_self _ _).filterMap _)
  · intro other hother
    refine ⟨hperm.mem_iff.mpr (List.mem_cons_of_mem _ hother), ?_⟩
    cases hticket : other.ticket with
    | none => exact .inl rfl
    | some ticket =>
        right
        intro heq
        rw [List.filterMap_cons_some heq.symm] at hnodup
        exact (List.nodup_cons.mp hnodup).1 (List.mem_filterMap.mpr ⟨other, hother, hticket⟩)

theorem mem_carried_taken
    (hanswered : system.answered = earlier ++ (caller, reply) :: later) {other : Caller} :
    other ∈ system.carried ↔ other = caller ∨
      other ∈ ExecutorSystem.carried { system with answered := earlier ++ later } := by
  simp only [ExecutorSystem.carried, hanswered, List.map_append, List.map_cons, List.mem_append,
    List.mem_cons]
  tauto

theorem mem_carried_answered
    (hanswered : system.answered = earlier ++ (caller, reply) :: later) :
    caller ∈ system.carried := by
  simp [ExecutorSystem.carried, hanswered]

theorem Census.step {action : Action} (h : Census system) (hkinds : Kinds system)
    (hstep : ExecutorStep definition sizes system action system')
    (hdisciplined : Disciplined system'.world.trace) : Census system' := by
  -- While the task makes another call no hydration is under way.
  have hwaits : ∀ {op : Op} {next : Ans op → Run Unit},
      system.program = .call (I := services) op next → .hydration ∈ system.carried →
      ∃ actor state, op = .hydrate actor state := by
    intro op next hprogram hmem
    obtain ⟨-, actor, state, next', hhydrate⟩ := h.hydration hmem
    rw [hprogram] at hhydrate
    injection hhydrate with hop
    exact ⟨actor, state, hop⟩
  cases hstep with
  | task program world hprogram =>
      obtain ⟨op, next, hcall, hcases⟩ := step_cases hprogram
      refine ⟨h.nodup, fun id request hmem => ?_, fun hmem => ?_⟩
      · have hunfinished := h.unfinished id request hmem
        rcases hcases with ⟨answer, -, ⟨-, hlocal⟩, rfl⟩ | ⟨-, htrace⟩
        · refine unfinished_cons hunfinished ?_
          cases op with
          | select =>
              cases answer with
              | executed => cases hlocal
              | _ => nofun
          | _ => nofun
        · show Unfinished id world.trace
          rw [htrace]
          exact hunfinished
      · obtain ⟨actor, state, rfl⟩ := hwaits hcall hmem
        rcases hcases with ⟨answer, -, ⟨-, hlocal⟩, -⟩ | ⟨hservice, -⟩
        · cases hlocal
        · cases hservice
  | start id request state next hprogram =>
      have horderly : id ∉ system.world.trace.filterMap startedId := hdisciplined.2.1
      have hended : id ∉ system.world.trace.filterMap endedId :=
        fun hmem => horderly (hdisciplined.1.started_of_ended hmem)
      refine ⟨h.nodup_submit _ ?_, fun other request' hmem => ?_, fun hmem => ?_⟩
      · intro other hother _ hticket
        cases other <;> cases hticket
        exact horderly (h.unfinished _ _ hother).1
      · rcases mem_carried_submit hmem with heq | hold
        · cases heq
          exact ⟨List.mem_cons_self, hended⟩
        · exact unfinished_cons (h.unfinished _ _ hold) (by nofun)
      · rcases mem_carried_submit hmem with heq | hold
        · cases heq
        · obtain ⟨_, _, hop⟩ := hwaits hprogram hold
          cases hop
  | requestHydration actor state next hprogram hrequested =>
      refine ⟨h.nodup_submit _ ?_, fun other request' hmem => ?_, fun _ => ?_⟩
      · intro other hother _ hticket
        cases other <;> cases hticket
        rw [(h.hydration hother).1] at hrequested
        cases hrequested
      · rcases mem_carried_submit hmem with heq | hold
        · cases heq
        · exact h.unfinished _ _ hold
      · exact ⟨rfl, actor, state, next, hprogram⟩
  | requestEviction actor next hprogram hrequested =>
      refine ⟨h.nodup_submit _ (by simp [Caller.ticket]), fun other request' hmem => ?_,
        fun hmem => ?_⟩
      · rcases mem_carried_submit hmem with heq | hold
        · cases heq
        · exact h.unfinished _ _ hold
      · rcases mem_carried_submit hmem with heq | hold
        · cases heq
        · obtain ⟨_, _, hop⟩ := hwaits hprogram hold
          cases hop
  | evictIdle actor =>
      refine ⟨h.nodup_submit _ (by simp [Caller.ticket]), fun other request' hmem => ?_,
        fun hmem => ?_⟩
      · rcases mem_carried_submit hmem with heq | hold
        · cases heq
        · exact h.unfinished _ _ hold
      · rcases mem_carried_submit hmem with heq | hold
        · cases heq
        · exact h.hydration hold
  | hydrated actor state next earlier reply later hprogram hrequested hanswered =>
      obtain ⟨hnodup, hothers⟩ := h.taken hanswered
      refine ⟨hnodup, fun id request hmem => ?_, fun hmem => ?_⟩
      · exact unfinished_cons (h.unfinished _ _ (hothers _ hmem).1) (by nofun)
      · rcases (hothers _ hmem).2 with hnone | hne
        · cases hnone
        · exact absurd rfl hne
  | evicted actor next earlier reply later hprogram hrequested hanswered =>
      obtain ⟨hnodup, hothers⟩ := h.taken hanswered
      refine ⟨hnodup, fun id request hmem => ?_, fun hmem => ?_⟩
      · exact unfinished_cons (h.unfinished _ _ (hothers _ hmem).1) (by nofun)
      · obtain ⟨_, _, hop⟩ := hwaits hprogram (hothers _ hmem).1
        cases hop
  | take id request next earlier reply later hprogram hanswered hrunning =>
      obtain ⟨hnodup, hothers⟩ := h.taken hanswered
      refine ⟨hnodup, fun other request' hmem => ?_, fun hmem => ?_⟩
      · refine unfinished_cons (h.unfinished _ _ (hothers _ hmem).1) fun hended => ?_
        rcases (hothers _ hmem).2 with hnone | hne
        · cases hnone
        · cases hended
          exact hne rfl
      · obtain ⟨_, _, hop⟩ := hwaits hprogram (hothers _ hmem).1
        cases hop
  | handleCommand caller command rest hchannel =>
      exact h.passes (passes_handleCommand hkinds hchannel)
  | deliver caller reply rest hreplies => exact h.passes (passes_deliver hkinds hreplies)
  | handle caller command rest hwire => exact h.passes (passes_handle hwire)
  | startOperation base worker earlier operation later fresh hresident hoperations =>
      exact h.passes (passes_withWorker hresident (ActorWorker.callers_start hoperations fresh))
  | finishOperation base worker earlier operation later invocation fresh outcome hresident
      hoperations hrunning =>
      exact h.passes (passes_withWorker hresident
        (ActorWorker.callers_finish hoperations fresh invocation outcome))
  | touch base worker object properties hresident =>
      exact h.passes (passes_withWorker hresident (List.Perm.refl _))
  | receive base worker caller message rest hresident houtbox =>
      exact h.passes (passes_receive hresident houtbox)
  | crash base worker error hresident => exact h.passes (passes_crash error hresident)

end

/-! ## The flow along a run -/

section

variable {definition : ActorDefinition} {sizes : Sizes} {system system' : ExecutorSystem}
variable {caller : Caller}

theorem filterMap_replyNumber (sent : List (Caller × ExecutorReply)) :
    (sent.map fun reply => ((reply.1, .ok reply.2) : Caller × Except Error ExecutorReply)).filterMap
      replyNumber = numbers sent := by
  rw [List.filterMap_map]
  rfl

theorem interleaves_of_received {trace : List Entry} {number : Nat}
    (h : number ∈ trace.filterMap receivedNumber) : Interleaves trace := by
  obtain ⟨entry, hentry, hsome⟩ := List.mem_filterMap.mp h
  refine ⟨entry, hentry, ?_⟩
  revert hsome
  unfold receivedNumber isLicence
  split <;> simp

/-- The executions whose replies are under way. -/
theorem Kinds.numbered (h : Kinds system) {reply : Caller × Except Error ExecutorReply}
    (hreply : reply ∈ system.incoming) {number : Nat} (hnumber : replyNumber reply = some number) :
    ∃ id request, reply.1 = .execution id request := by
  have hanswers : Answers reply := by
    rcases List.mem_append.mp hreply with hanswered | hreplies
    · exact h.answered reply hanswered
    · obtain ⟨reply, hmem, rfl⟩ := List.mem_map.mp hreplies
      exact h.replies reply hmem
  obtain ⟨caller, reply⟩ := reply
  cases caller with
  | execution id request => exact ⟨id, request, rfl⟩
  | _ => exact absurd (hnumber.symm.trans hanswers) (by simp)

/-- The callers that are not yet answered. -/
def ExecutorSystem.waiting (system : ExecutorSystem) : List Caller :=
  system.channel.map Prod.fst ++ system.wire.map Prod.fst ++ system.supervisor.callers

theorem carried_eq : system.carried = system.waiting ++
    (system.replies.map Prod.fst ++ system.answered.map Prod.fst) := by
  simp [ExecutorSystem.carried, ExecutorSystem.waiting]

/-- When numbers have been sent, the failure of another execution ends the mailbox: either a number
has come, or an execution whose number is under way is in flight together with the failed one. -/
theorem ends_of_lost {count : Nat} (hkinds : Kinds system) (hcensus : Census system)
    (hdisciplined : Disciplined system.world.trace)
    (hnumbers : (system.received ++ system.underway).Perm (List.range' 1 count))
    (hcount : 0 < count) (hwaiting : caller ∈ system.waiting) (hticket : caller.ticket ≠ none)
    {message : ExecutorReply} (hlost : survives message = false) :
    Ends system.world.trace (caller, .ok message) := by
  refine ⟨by simp [endsWorker, hlost], ?_⟩
  cases caller with
  | hydration => exact .inl rfl
  | execution id request =>
      refine .inr ⟨Option.some_ne_none _, ?_⟩
      have hone : 1 ∈ system.received ++ system.underway :=
        hnumbers.mem_iff.mpr (List.mem_range'_1.mpr ⟨le_rfl, by omega⟩)
      rcases List.mem_append.mp hone with hreceived | hunderway
      · exact interleaves_of_received hreceived
      · obtain ⟨reply, hreply, hnumber⟩ := List.mem_filterMap.mp hunderway
        obtain ⟨other, otherRequest, hcaller⟩ := hkinds.numbered hreply hnumber
        have hother : .execution other otherRequest ∈
            system.replies.map Prod.fst ++ system.answered.map Prod.fst := by
          rw [← hcaller]
          rcases List.mem_append.mp hreply with hanswered | hreplies
          · exact List.mem_append_right _ (List.mem_map_of_mem hanswered)
          · obtain ⟨reply, hmem, rfl⟩ := List.mem_map.mp hreplies
            exact List.mem_append_left _ (List.mem_map_of_mem hmem)
        have hnodup := hcensus.nodup
        rw [carried_eq, List.filterMap_append, List.nodup_append] at hnodup
        have hne := hnodup.2.2 (some id) (List.mem_filterMap.mpr ⟨_, hwaiting, rfl⟩) (some other)
          (List.mem_filterMap.mpr ⟨_, hother, rfl⟩)
        refine hdisciplined.interleaves (hcensus.unfinished id request ?_)
          (hcensus.unfinished other otherRequest ?_) fun heq => hne (by rw [heq])
        · rw [carried_eq]
          exact List.mem_append_left _ hwaiting
        · rw [carried_eq]
          exact List.mem_append_right _ hother
  | _ => exact absurd rfl hticket

/-- What the supervisor sends keeps the flow. -/
theorem Flow.advance (h : Flow system.world.trace system.incoming system.supervisor)
    (hkinds : Kinds system) (hcensus : Census system)
    (hdisciplined : Disciplined system.world.trace) {who : Caller → Prop}
    (hwho : ∀ caller, who caller → caller ∈ system.waiting ∧ caller.ticket ≠ none)
    {result : ActorWorkerSupervisor Caller × List (Caller × ExecutorReply)}
    (hadvances : ∀ count, system.supervisor.Synced count → Advances count who result) :
    Flow system.world.trace (system.send result).incoming result.1 := by
  have hincoming : (system.send result).incoming =
      system.incoming ++ result.2.map fun reply => (reply.1, .ok reply.2) := by
    simp [ExecutorSystem.incoming, ExecutorSystem.send]
  rw [hincoming]
  refine h.send fun count hsynced hperm => ?_
  rcases hadvances count hsynced with
    ⟨added, hsynced', hnumbers⟩ | ⟨hcount, caller, message, rest, hsent, hlost, hcaller⟩
  · exact .inl ⟨added, hsynced', by rw [filterMap_replyNumber]; exact hnumbers⟩
  · obtain ⟨hwaiting, hticket⟩ := hwho caller hcaller
    refine .inr ⟨_, _, by rw [hsent]; rfl, ?_⟩
    exact ends_of_lost hkinds hcensus hdisciplined hperm hcount hwaiting hticket hlost

/-- The flow does not depend on who waits at the driver. -/
theorem Flow.relayed (h : Flow system.world.trace system.incoming system.supervisor)
    (hrelayed : Relayed system caller system') :
    Flow system'.world.trace system'.incoming system'.supervisor := by
  cases hrelayed with
  | pass | drop => exact h
  | give resident pending reply hnumber hpending =>
      have hgiven := h.insert hnumber
      simpa [ExecutorSystem.incoming] using hgiven

theorem not_ends {trace : List Entry} {reply : Caller × Except Error ExecutorReply}
    (h : reply.1 = .eviction ∨ reply.1 = .idle) : ¬ Ends trace reply := by
  rintro ⟨-, hcaller⟩
  rcases h with h | h <;> simp [h, Caller.executionId] at hcaller

theorem Flow.deliver {reply : ExecutorReply} {rest : List (Caller × ExecutorReply)}
    (h : Flow system.world.trace system.incoming system.supervisor) (hkinds : Kinds system)
    (hreplies : system.replies = (caller, reply) :: rest) :
    Flow ({ system with replies := rest }.deliver sizes caller reply).world.trace
      ({ system with replies := rest }.deliver sizes caller reply).incoming
      ({ system with replies := rest }.deliver sizes caller reply).supervisor := by
  have hincoming : system.incoming = system.answered ++ (caller, .ok reply) ::
      rest.map fun reply => (reply.1, .ok reply.2) := by
    simp [ExecutorSystem.incoming, hreplies]
  rw [hincoming] at h
  have hanswers := hkinds.replies (caller, reply) (by simp [hreplies])
  by_cases hrequired : reply = .stateRequired
  · subst hrequired
    have hremoved := h.remove rfl fun hends => by simp [Ends, endsWorker, survives] at hends
    exact @Flow.relayed { system with replies := rest } _ caller hremoved
      (relayed_deliver hkinds.pending)
  · obtain ⟨resident, pending, -, heq⟩ :=
      @deliver_eq sizes { system with replies := rest } caller _ hrequired
    rw [heq]
    unfold ExecutorSystem.give
    split
    · rename_i hidle
      subst hidle
      exact h.remove hanswers fun hends => absurd hends (not_ends (.inr rfl))
    · simpa [ExecutorSystem.incoming] using h

theorem mem_waiting_of_worker {base : Nat} {worker : ActorWorker Caller}
    (hresident : system.supervisor.resident = some { sequenceBase := base, worker := some worker })
    (h : caller ∈ worker.callers) : caller ∈ system.waiting := by
  rw [← ActorWorkerSupervisor.callers_of_resident hresident] at h
  exact List.mem_append_right _ h

/-- A failure that ends the worker is fatal to the mailbox. -/
theorem isFatal_of_ends {operation : ActorOperation} {reply : Except Error ExecutorReply}
    (h : endsWorker reply) : isFatal (executionOutcome operation reply) := by
  cases reply with
  | error error => cases h
  | ok reply =>
      cases reply with
      | failed code message =>
          have hfatal : isBenignFailure { code, message } = false := by
            simpa [endsWorker, survives, isBenignFailure, and_assoc] using h
          cases operation <;> simpa [isFatal, executionOutcome, bind, Except.bind, pure,
            Except.pure, ExecutorReply.methodOutcome, ExecutorReply.socketOutcome,
            ActorSocketOutcome.toMethodOutcome] using hfatal
      | _ => simp [endsWorker, survives] at h

theorem Flow.withWorker (h : Flow system.world.trace system.incoming system.supervisor)
    {base : Nat} {worker worker' : ActorWorker Caller}
    (hresident : system.supervisor.resident = some { sequenceBase := base, worker := some worker })
    (hcounts : ∀ taken, worker.Counts taken → worker'.Counts taken) :
    Flow system.world.trace (system.withWorker base worker').incoming
      (system.withWorker base worker').supervisor := by
  obtain ⟨before, after, count, hincoming, hperm, hcases⟩ := h
  refine ⟨before, after, count, hincoming, hperm, hcases.imp_left fun ⟨hafter, hsynced⟩ => ?_⟩
  refine ⟨hafter, hsynced.last, ?_⟩
  rintro _ ⟨⟩
  obtain ⟨taken, hcount, hworker⟩ := hsynced.resident _ hresident
  exact ⟨taken, hcount, hcounts taken hworker⟩

theorem Flow.step {action : Action}
    (h : Flow system.world.trace system.incoming system.supervisor) (hkinds : Kinds system)
    (hcensus : Census system) (hdisciplined : Disciplined system.world.trace)
    (hstep : ExecutorStep definition sizes system action system')
    (hnext : Disciplined system'.world.trace) (hunhindered : Unhindered sizes system action) :
    Flow system'.world.trace system'.incoming system'.supervisor := by
  -- An entry that takes no outcome leaves the flow as it is.
  have hlog : ∀ entry : Entry, receivedNumber entry = none →
      Flow (entry :: system.world.trace) system.incoming system.supervisor := by
    intro entry hentry
    refine h.follows ?_ (fun hold => interleaves_cons.mpr (.inr hold)) .inl
    rw [List.filterMap_cons_none hentry]
  cases hstep with
  | task program world hprogram =>
      obtain ⟨op, next, -, ⟨answer, -, ⟨-, hlocal⟩, rfl⟩ | ⟨-, htrace⟩⟩ := step_cases hprogram
      · refine hlog ⟨op, answer⟩ ?_
        cases op with
        | select =>
            cases answer with
            | executed => cases hlocal
            | _ => rfl
        | _ => rfl
      · show Flow world.trace system.incoming system.supervisor
        rw [htrace]
        exact h
  | start id request state next hprogram => exact hlog _ rfl
  | requestHydration | requestEviction | evictIdle => exact h
  | hydrated actor state next earlier reply later hprogram hrequested hanswered =>
      have hentry := hlog ⟨.hydrate actor state, reply >>= ExecutorReply.hydration⟩ rfl
      have hincoming : system.incoming = earlier ++ (.hydration, reply) ::
          (later ++ system.replies.map fun reply => (reply.1, .ok reply.2)) := by
        simp [ExecutorSystem.incoming, hanswered]
      rw [hincoming] at hentry
      have hanswers := hkinds.answered (.hydration, reply) (by simp [hanswered])
      have hremoved := hentry.remove hanswers fun hends => .inr (.inr (by
        -- A hydration that ends the worker has failed.
        obtain ⟨hends, -⟩ := hends
        cases reply with
        | error error => cases hends
        | ok reply => cases reply <;> first | rfl | simp [endsWorker, survives] at hends))
      simpa [ExecutorSystem.incoming] using hremoved
  | evicted actor next earlier reply later hprogram hrequested hanswered =>
      have hentry := hlog ⟨.evict actor, reply >>= ExecutorReply.eviction⟩ rfl
      have hincoming : system.incoming = earlier ++ (.eviction, reply) ::
          (later ++ system.replies.map fun reply => (reply.1, .ok reply.2)) := by
        simp [ExecutorSystem.incoming, hanswered]
      rw [hincoming] at hentry
      have hanswers := hkinds.answered (.eviction, reply) (by simp [hanswered])
      have hremoved := hentry.remove hanswers fun hends => absurd hends (not_ends (.inl rfl))
      simpa [ExecutorSystem.incoming] using hremoved
  | take id request next earlier reply later hprogram hanswered hrunning =>
      have hincoming : system.incoming = earlier ++ (.execution id request, reply) ::
          (later ++ system.replies.map fun reply => (reply.1, .ok reply.2)) := by
        simp [ExecutorSystem.incoming, hanswered]
      rw [hincoming] at h
      have hclear : ∀ other ∈ earlier, ¬ Ends system.world.trace other := by
        rintro other hother ⟨hends, hhydration | ⟨hexecution, hinterleaves⟩⟩
        · have hcarried : .hydration ∈ system.carried := by
            rw [← hhydration]
            simp only [ExecutorSystem.carried, hanswered, List.map_append]
            exact List.mem_append_right _ (List.mem_append_left _ (List.mem_map_of_mem hother))
          obtain ⟨-, _, _, _, hhydrate⟩ := hcensus.hydration hcarried
          rw [hprogram] at hhydrate
          injection hhydrate with hop
          cases hop
        · rw [hunhindered hinterleaves other hother hexecution] at hends
          cases hends
      have htaken := h.take hnext.2.1 hclear
        (hkinds.answered (.execution id request, reply) (by simp [hanswered])) fun hends => by
          obtain ⟨hends, hhydration | ⟨-, hinterleaves⟩⟩ := hends
          · cases hhydration
          · exact .inr (.inl ⟨isFatal_of_ends hends, hinterleaves⟩)
      simpa [ExecutorSystem.incoming] using htaken
  | handleCommand caller command rest hchannel =>
      have hsuits := hkinds.channel (caller, command) (by simp [hchannel])
      exact @Flow.relayed { system with channel := rest } _ caller h
        (@relayed_handleCommand sizes { system with channel := rest } caller hkinds.pending
          command hsuits)
  | deliver caller reply rest hreplies => exact h.deliver hkinds hreplies
  | handle caller command rest hwire =>
      refine h.advance hkinds hcensus hdisciplined ?_ fun count hsynced =>
        ActorWorkerSupervisor.handle_advances hsynced caller command
      intro other ⟨hother, envelope, hcommand⟩
      rw [hcommand] at hwire
      have hsuits := hkinds.wire (caller, .execute envelope) (by simp [hwire])
      rw [hother]
      exact ⟨by simp [ExecutorSystem.waiting, hwire], hsuits.ticket_ne_none⟩
  | startOperation base worker earlier operation later fresh hresident hoperations =>
      exact h.withWorker hresident fun taken hcounts =>
        counts_start hcounts fresh earlier operation later
  | finishOperation base worker earlier operation later invocation fresh outcome hresident
      hoperations hrunning =>
      exact h.withWorker hresident fun taken hcounts =>
        counts_finish hcounts fresh earlier operation later invocation outcome
  | touch base worker object properties hresident =>
      exact h.withWorker hresident fun taken hcounts => hcounts
  | receive base worker caller message rest hresident houtbox =>
      refine h.advance hkinds hcensus hdisciplined ?_ fun count hsynced =>
        ActorWorkerSupervisor.receive_advances sizes.reply hsynced hresident houtbox hunhindered
      intro other hother
      have hcaller : caller ∈ worker.callers := by simp [ActorWorker.callers, houtbox]
      rw [hother]
      exact ⟨mem_waiting_of_worker hresident hcaller,
        (hkinds.supervisor base worker hresident).ticket_ne_none hcaller⟩
  | crash base worker error hresident =>
      refine h.advance hkinds hcensus hdisciplined ?_ fun count hsynced =>
        ActorWorkerSupervisor.crash_advances hsynced hresident error
      intro caller hcaller
      exact ⟨mem_waiting_of_worker hresident hcaller,
        (hkinds.supervisor base worker hresident).ticket_ne_none hcaller⟩

end

/-! ## Every run -/

/-- What holds in every state of a run. -/
structure Coherent (system : ExecutorSystem) : Prop where
  runs : ∃ fuel, Runs Enabled (runActor true fuel, {}) (system.program, system.world)
  kinds : Kinds system
  census : Census system
  flow : Flow system.world.trace system.incoming system.supervisor

section

variable {definition : ActorDefinition} {sizes : Sizes} {system system' : ExecutorSystem}

theorem coherent_init (fuel : Nat) : Coherent { program := runActor true fuel } where
  runs := ⟨fuel, .refl⟩
  kinds := ⟨by simp, by simp, by simp, by nofun, by simp, by simp⟩
  census := by
    have hcarried : ExecutorSystem.carried { program := runActor true fuel } = [] := rfl
    exact ⟨by simp [hcarried], by simp [hcarried], by simp [hcarried]⟩
  flow := ⟨[], [], 0, rfl, List.Perm.refl _, .inl ⟨rfl, rfl, by nofun⟩⟩

/-- The task's part of a step is a step of its program. -/
theorem ExecutorStep.runs {action : Action} {allowed : World → Entry → Prop}
    (h : ExecutorStep definition sizes system action system')
    (hpending : ∀ entry ∈ system.pending, Suits entry.1 (.execute entry.2))
    (hchannel : ∀ command ∈ system.channel, Suits command.1 command.2)
    (hallowed : ∀ entry, system'.world = system.world.log entry → Enabled system.world entry →
      allowed system.world entry) :
    Runs allowed (system.program, system.world) (system'.program, system'.world) := by
  -- The calls that the executor answers are always enabled.
  have hcall : ∀ {op : Op} {next : Ans op → Run Unit},
      system.program = .call (I := services) op next → op.isService →
      ∀ answer : Ans op, allowed system.world ⟨op, answer⟩ →
      Runs allowed (system.program, system.world) (next answer, system.world.log ⟨op, answer⟩) := by
    intro op next hprogram hop answer henabled
    rw [hprogram]
    exact Runs.service answer hop henabled .refl
  cases h with
  | task program world hprogram =>
      exact .single (step_strengthen hprogram fun entry hentry h => hallowed entry hentry h.1)
  | start id request state next hprogram =>
      exact hcall hprogram rfl () (hallowed _ rfl ⟨trivial, by nofun⟩)
  | hydrated actor state next earlier reply later hprogram =>
      exact hcall hprogram rfl _ (hallowed _ rfl ⟨trivial, by nofun⟩)
  | evicted actor next earlier reply later hprogram =>
      exact hcall hprogram rfl _ (hallowed _ rfl ⟨trivial, by nofun⟩)
  | take id request next earlier reply later hprogram hanswered hrunning =>
      exact hcall hprogram rfl _ (hallowed _ rfl ⟨hrunning, by nofun⟩)
  | handleCommand caller command rest hcommand =>
      have hbeside := (@relayed_handleCommand sizes { system with channel := rest } caller hpending
        command (hchannel (caller, command) (by simp [hcommand]))).beside
      rw [hbeside.program, hbeside.world]
  | deliver caller reply rest =>
      have hbeside := @beside_deliver sizes { system with replies := rest } caller reply hpending
      rw [hbeside.program, hbeside.world]
  | _ => exact .refl

theorem Coherent.disciplined (h : Coherent system) : Disciplined system.world.trace := by
  obtain ⟨fuel, hruns⟩ := h.runs
  exact (disciplined_of_runs hruns).2

theorem Coherent.step {action : Action} (h : Coherent system)
    (hstep : ExecutorStep definition sizes system action system')
    (hunhindered : Unhindered sizes system action) : Coherent system' := by
  obtain ⟨fuel, hruns⟩ := h.runs
  have hruns' := hruns.trans (hstep.runs h.kinds.pending h.kinds.channel fun _ _ henabled => henabled)
  have hnext : Disciplined system'.world.trace := (disciplined_of_runs hruns').2
  exact {
    runs := ⟨fuel, hruns'⟩
    kinds := h.kinds.step hstep
    census := h.census.step h.kinds hstep hnext
    flow := h.flow.step h.kinds h.census h.disciplined hstep hnext hunhindered }

theorem coherent_of_reachable
    (h : ExecutorReachable definition sizes (Unhindered sizes) system) : Coherent system := by
  obtain ⟨fuel, hsteps⟩ := h
  induction hsteps with
  | refl => exact coherent_init fuel
  | tail _ hstep ih =>
      obtain ⟨action, hstep, hunhindered⟩ := hstep
      exact ih.step hstep hunhindered

/-- The numbers up to some one have come or are on their way. -/
theorem Coherent.numbers (h : Coherent system) :
    ∃ count before after, system.incoming = before ++ after ∧
      (system.received ++ before.filterMap replyNumber).Perm (List.range' 1 count) := by
  obtain ⟨before, after, count, hincoming, hperm, -⟩ := h.flow
  exact ⟨count, before, after, hincoming, hperm⟩

/-- Every smaller number has come or is on its way. -/
theorem Coherent.dense (h : Coherent system) {number : Nat} (hnumber : number ∈ system.received) :
    1 ≤ number ∧ ∀ earlier, 1 ≤ earlier → earlier < number →
      earlier ∈ system.received ∨ earlier ∈ system.underway := by
  obtain ⟨count, before, after, hincoming, hperm⟩ := h.numbers
  have hrange := hperm.mem_iff.mp (List.mem_append_left _ hnumber)
  rw [List.mem_range'_1] at hrange
  refine ⟨hrange.1, fun earlier hpositive hlt => ?_⟩
  have hearlier : earlier ∈ List.range' 1 count := List.mem_range'_1.mpr ⟨hpositive, by omega⟩
  rcases List.mem_append.mp (hperm.mem_iff.mpr hearlier) with hreceived | hbefore
  · exact .inl hreceived
  · right
    rw [ExecutorSystem.underway, hincoming, List.filterMap_append]
    exact List.mem_append_left _ hbefore

/-- An outcome that is held back waits for a number that has not come. -/
theorem Coherent.waits (h : Coherent system) {next : Wakeup → Run Unit}
    (hprogram : system.program = .call (I := services) .select next) {number : Nat}
    (hnumber : number ∈ system.received)
    (hheld : number ∉ system.world.trace.filterMap begins) :
    ∃ earlier < number, earlier ∈ system.underway := by
  obtain ⟨fuel, hruns⟩ := h.runs
  rw [hprogram] at hruns
  obtain ⟨count, hbegun, hmissing⟩ := caughtUp_of_waiting hruns
  obtain ⟨hpositive, hdense⟩ := h.dense hnumber
  have hlt : count + 1 < number := by
    rw [hbegun, List.mem_reverse, List.mem_range'_1] at hheld
    have hne : number ≠ count + 1 := fun heq => hmissing (heq ▸ hnumber)
    omega
  refine ⟨count + 1, hlt, ?_⟩
  exact (hdense (count + 1) (by omega) hlt).resolve_left hmissing

end

/-! ## Two runs -/

/-- The class of the runs below; its method may interleave. -/
def counterClass : ActorDefinition where
  actorName := "Counter"
  methods := ["increment"]
  fields := [{ name := "count", persisted := true }]
  reentrantMethods := ["increment"]

/-- Sizes under which a reply with a result is too large. -/
def resultSizes : Sizes where
  command _ _ := 0
  reply
    | _, .invoked result _ _ _ => if result = .null then 0 else maxMessageBytes
    | _, _ => 0

end Host
end DurableActors
