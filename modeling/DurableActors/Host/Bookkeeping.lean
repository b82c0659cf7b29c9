import DurableActors.Host.Ledger

/-!
# The loops keep their ledger

Both loops of the actor task are faithful to the ledger of their run.  In the
admission loop the argument is that an outcome is unknown only when nothing is in
flight and invocations do not interleave.

Main results:

- Theorem {lit}`ledgerKept_of_reachable`: in every run of one host session the task
  writes either the snapshot whose outcome is unknown or the next version, and runs
  the actor's code on the committed state when no outcome is unknown; a request
  whose result is in the ledger when it is taken is not executed and is answered
  with that result.
-/

namespace DurableActors
namespace Host

open Effects

section

variable {epoch : Nat} {world : World}

/-! ## What stays in the run -/

theorem takenAt_quiet {w : World} (h : Quiet world w) (request : ActorRequest) :
    takenAt request w.trace = takenAt request world.trace := by
  apply h.keeps fun trace => takenAt request trace = takenAt request world.trace
  · intro entry trace hentry htrace
    have hreceived : received entry = none := by
      obtain ⟨op, answer⟩ := entry
      cases op <;> first | rfl | cases hentry
    simp [takenAt, hreceived, htrace]
  · rfl

theorem executedRequests_quiet {w : World} (h : Quiet world w) :
    executedRequests w.trace = executedRequests world.trace := by
  apply h.filterMap_eq
  intro entry hentry
  obtain ⟨op, answer⟩ := entry
  cases op <;> first | rfl | cases hentry

theorem prepareInvocation_kept {invocation : ActorInvocation} {ownerEpoch : Nat} {replay : Bool}
    (h : Books epoch world) :
    (prepareInvocation invocation ownerEpoch replay).Meets (booked epoch) (fun r w =>
      (match r with
        | .ok prepared => Books epoch w ∧
            Prepared epoch ownerEpoch invocation.requestId replay (ledgerOf world.trace) w prepared ∧
            ∀ cached, world.task.cachedState = some cached → cached.pending = none →
              ∃ cached', w.task.cachedState = some cached' ∧ cached'.pending = none
        | .error _ =>
            (∀ cached, world.task.cachedState = some cached → cached.ownerEpoch = ownerEpoch) →
              Books epoch w) ∧ Quiet world w) world := by
  have hquiet := @prepareInvocation_quiet (Regular epoch) (fun _ => True) world
    (fun _ _ _ _ => trivial) invocation ownerEpoch replay
  exact (prepareInvocation_booked h).and hquiet rfl rfl

/-- An answer is faithful when its result is the recorded one. -/
theorem faithful_answer {trace : List Entry} {request : ActorRequest}
    {result : Except Error ActorExecutionResult} (sent : Bool)
    (h : ∀ value effects, result = .ok (.completed value effects) →
      Answerable trace request value) : Faithful trace ⟨.answer request result, sent⟩ := by
  constructor
  · rintro _ _ _ ⟨⟩
  · rintro _ _ ⟨⟩
  · rintro _ _ ⟨⟩
  · intro request' value hreports
    cases result with
    | error error => cases hreports
    | ok outcome =>
        cases outcome with
        | completed value' effects =>
            obtain ⟨rfl, rfl⟩ := Prod.mk.inj (Option.some.inj hreports)
            exact h _ _ rfl
        | _ => cases hreports

theorem finish_booked (request : ActorRequest) {result : Except Error ActorExecutionResult}
    (hresult : ∀ value effects, result = .ok (.completed value effects) →
      Answerable world.trace request value)
    {post : Except Error Unit → World → Prop}
    (h : ∀ sent, post (.ok ()) (world.log ⟨.answer request result, sent⟩)) :
    (finish request result).Meets (booked epoch) post world :=
  Prog.Meets.bind ((meets_service rfl).mpr fun sent _ =>
    ⟨fun htrace => ⟨htrace, faithful_answer sent hresult⟩, h sent⟩)

theorem leaveMark_booked (mark : Mark) {post : Except Error Unit → World → Prop}
    (h : post (.ok ()) (world.log ⟨.mark mark, ()⟩)) :
    (leaveMark mark).Meets (booked epoch) post world :=
  meets_indifferent rfl rfl fun _ _ => h

/-! ## The admission loop -/

/-- The mailbox and the ledger: while executions are in flight or invocations interleave no outcome
is unknown; what is in flight was prepared for the session's epoch, and before invocations
interleave it is one execution that holds back the next request. -/
structure Minds (epoch : Nat) (world : World) : Prop where
  books : Books epoch world
  alone : world.task.interleaved = false → world.task.running = [] ∨
    ∃ entry, world.task.running = [entry] ∧ world.task.blockedOn = some entry.1
  clear : world.task.interleaved = true ∨ world.task.running ≠ [] →
    ∃ cached, world.task.cachedState = some cached ∧ cached.pending = none
  epochs : ∀ entry ∈ world.task.running, entry.2.ownerEpoch = epoch
  running : ∀ entry ∈ world.task.running, entry.2 ∈ executedRequests world.trace
  ready : ∀ entry ∈ world.task.ready, entry.2.2.1 ∈ executedRequests world.trace

namespace Minds

/-- The mailbox has seen nothing new. -/
theorem quiet (h : Minds epoch world) {w : World} (hquiet : Quiet world w) (hbooks : Books epoch w)
    (hclear : ∀ cached, world.task.cachedState = some cached → cached.pending = none →
      ∃ cached', w.task.cachedState = some cached' ∧ cached'.pending = none) : Minds epoch w := by
  constructor
  · exact hbooks
  · rw [hquiet.field_eq Task.interleaved fun _ => rfl, hquiet.field_eq Task.running fun _ => rfl,
      hquiet.field_eq Task.blockedOn fun _ => rfl]
    exact h.alone
  · rw [hquiet.field_eq Task.interleaved fun _ => rfl, hquiet.field_eq Task.running fun _ => rfl]
    intro hbusy
    obtain ⟨cached, hcached, hpending⟩ := h.clear hbusy
    exact hclear cached hcached hpending
  · rw [hquiet.field_eq Task.running fun _ => rfl]
    exact h.epochs
  · rw [hquiet.field_eq Task.running fun _ => rfl, executedRequests_quiet hquiet]
    exact h.running
  · rw [hquiet.field_eq Task.ready fun _ => rfl, executedRequests_quiet hquiet]
    exact h.ready

/-- An entry that is not about the ledger and executes nothing. -/
theorem log (h : Minds epoch world) (entry : Entry) (hrecorded : isRecorded entry.1 = false)
    (hexecutes : executes entry = none) : Minds epoch (world.log entry) := by
  have hexecuted : executedRequests (entry :: world.trace) = executedRequests world.trace :=
    List.filterMap_cons_none (by rw [hexecutes, Option.map_none])
  refine ⟨h.books.idle ⟨rfl, Ledger.record_eq hrecorded entry.2⟩, h.alone, h.clear, h.epochs, ?_, ?_⟩
  · rw [World.log_trace, hexecuted]
    exact h.running
  · rw [World.log_trace, hexecuted]
    exact h.ready

end Minds

/-- The mailbox may wait: before invocations interleave nothing but an execution in flight holds
back requests. -/
structure AtEase (epoch : Nat) (world : World) : Prop where
  minds : Minds epoch world
  unblocked : world.task.interleaved = false → world.task.running = [] →
    world.task.blockedOn = none

/-- The loop goes on only with its ledger. -/
def GoesOnMinded (epoch : Nat) (continued : Bool) (world : World) : Prop :=
  continued = true → AtEase epoch world

theorem AtEase.quiet (h : AtEase epoch world) {w : World} (hquiet : Quiet world w)
    (hminds : Minds epoch w) : AtEase epoch w := by
  refine ⟨hminds, ?_⟩
  rw [hquiet.field_eq Task.interleaved fun _ => rfl, hquiet.field_eq Task.running fun _ => rfl,
    hquiet.field_eq Task.blockedOn fun _ => rfl]
  exact h.unblocked

theorem AtEase.log (h : AtEase epoch world) (entry : Entry) (hrecorded : isRecorded entry.1 = false)
    (hexecutes : executes entry = none) : AtEase epoch (world.log entry) :=
  ⟨h.minds.log entry hrecorded hexecutes, h.unblocked⟩

theorem stop_booked (request : ActorRequest) :
    (stop request).Meets (booked epoch) (Prog.onOk (GoesOnMinded epoch)) world := by
  refine Prog.Meets.bind (meets_indifferent rfl rfl fun _ _ => ?_)
  refine Prog.Meets.bind (finish_booked request (fun _ _ heq => by cases heq) fun sent => ?_)
  rintro ⟨⟩

theorem takenAt_log {request : ActorRequest} {entry : Entry} (h : received entry = none) :
    takenAt request (entry :: world.trace) = takenAt request world.trace := by
  simp [takenAt, h]

theorem activate_booked (request : ActorRequest) (actor : ActorKey)
    (hoperation : request.operation.isMethod = false) (h : AtEase epoch world) :
    (activate request actor).Meets (booked epoch) (Prog.onOk (GoesOnMinded epoch)) world := by
  have hquiet := @activateActor_quiet (Regular epoch) (fun _ => True) world
    (fun _ _ _ _ => trivial) actor
  refine Prog.Meets.bind (Prog.Meets.attempt (((activateActor_booked h.minds.books).and hquiet rfl
    rfl).mono fun activated w hactivated => ?_))
  obtain ⟨⟨hbooks, hkept⟩, hquiet⟩ := hactivated
  refine Prog.Meets.bind (finish_booked request (fun _ _ _ hmethod => ?_) fun sent => ?_)
  · rw [hoperation] at hmethod
    cases hmethod
  · cases activated with
    | error error => rintro ⟨⟩
    | ok activation =>
        have hminds : Minds epoch w := h.minds.quiet hquiet hbooks fun cached hcached hpending =>
          ⟨cached, hkept cached hcached, hpending⟩
        exact fun _ => (h.quiet hquiet hminds).log ⟨.answer request _, sent⟩ rfl rfl

/-- A request that is taken is executed on the committed state, or answered from the ledger. -/
theorem admitRequest_booked (request : ActorRequest) (accepting : Bool) {earlier : List Entry}
    (h : AtEase epoch world) (hidle : world.task.blockedOn = none)
    (htaken : takenAt request world.trace = some earlier)
    (hledger : ledgerOf earlier = ledgerOf world.trace) :
    (admitRequest request accepting).Meets (booked epoch) (Prog.onOk (GoesOnMinded epoch))
      world := by
  have hexecute : ∀ operation : ActorOperation, operation = request.operation →
      (admitInvocation request operation.invocation operation.isMethod).Meets (booked epoch) (Prog.onOk (GoesOnMinded epoch)) world := by
    rintro _ rfl
    refine Prog.Meets.bind (Prog.Meets.attempt ((prepareInvocation_kept h.minds.books).mono
      fun prepared w hprepared => ?_))
    obtain ⟨hprepared, hquiet⟩ := hprepared
    have htaken' : takenAt request w.trace = some earlier :=
      (takenAt_quiet hquiet request).trans htaken
    rcases prepared with _ | state | result
    · exact stop_booked request
    · obtain ⟨hbooks, ⟨cached, hcached, hpending, hstate, hepoch, hfresh⟩, hclear⟩ := hprepared
      have hminds := h.minds.quiet hquiet hbooks hclear
      have hw : ledgerOf w.trace = some cached.base := by
        rw [← CachedActorState.ledger_eq_base hpending]
        exact (hbooks.inHand hcached).ledger
      refine Prog.Meets.bind (meets_getTask.mpr ?_)
      refine Prog.Meets.bind (meets_setTask.mpr ⟨fun htrace => htrace, ?_⟩)
      refine Prog.Meets.bind ((meets_service rfl).mpr fun _ _ => ⟨fun htrace => ⟨htrace, ?_⟩, ?_⟩)
      · constructor
        · rintro _ _ _ ⟨⟩
        · rintro _ _ ⟨⟩
          exact ⟨_, hw, rfl, hstate⟩
        · rintro _ _ ⟨⟩ hmethod
          refine ⟨earlier, htaken', fun result hrecorded => ?_⟩
          rw [hledger] at hrecorded
          exact hfresh hmethod result hrecorded
        · rintro _ _ ⟨⟩
      · refine fun _ => ⟨⟨⟨?_, hbooks.formed⟩, ?_, fun _ => ⟨cached, hcached, hpending⟩, ?_, ?_,
          ?_⟩, fun _ hnone => absurd hnone (by simp)⟩
        · rw [World.log_trace, ledgerOf, Ledger.record_eq rfl]
          exact hbooks.ledger
        · intro hserial
          rcases hminds.alone hserial with hnone | ⟨entry, -, hblocked⟩
          · exact .inr ⟨(w.task.nextInvocation + 1, request), by simp [hnone], rfl⟩
          · rw [hquiet.field_eq Task.blockedOn fun _ => rfl, hidle] at hblocked
            cases hblocked
        · intro entry hentry
          rcases List.mem_append.mp hentry with hmem | hmem
          · exact hminds.epochs entry hmem
          · rw [List.mem_singleton.mp hmem]
            exact hepoch
        · intro entry hentry
          rcases List.mem_append.mp hentry with hmem | hmem
          · exact List.mem_cons_of_mem _ (hminds.running entry hmem)
          · rw [List.mem_singleton.mp hmem]
            exact List.mem_cons_self ..
        · exact fun entry hentry => List.mem_cons_of_mem _ (hminds.ready entry hentry)
    · obtain ⟨hbooks, hresult, hclear⟩ := hprepared
      have hminds := h.minds.quiet hquiet hbooks hclear
      refine Prog.Meets.bind (finish_booked request ?_ fun sent _ =>
        (h.quiet hquiet hminds).log ⟨.answer request _, sent⟩ rfl rfl)
      intro value effects heq _ _
      refine ⟨earlier, htaken', fun result' hrecorded => ?_⟩
      rw [hledger] at hrecorded
      exact hresult value effects (Except.ok.inj heq) result' hrecorded
  unfold admitRequest
  split
  · exact Prog.Meets.bind (finish_booked request (fun _ _ heq => by cases heq) fun sent _ =>
      h.log ⟨.answer request _, sent⟩ rfl rfl)
  · split
    · rename_i actor hactivate
      exact activate_booked request actor (by rw [hactivate]; rfl) h
    · rename_i operation hne heq
      exact hexecute _ rfl

/-- What the mailbox keeps track of beside the ledger may change; nothing new is in flight. -/
theorem Minds.setTask (h : Minds epoch world) {task : Task}
    (hcached : task.cachedState = world.task.cachedState)
    (halone : task.interleaved = true ∨ task.running = [])
    (hrunning : ∀ entry ∈ task.running, entry ∈ world.task.running)
    (hready : ∀ entry ∈ task.ready, entry.2.2.1 ∈ executedRequests world.trace)
    (hclear : ∃ cached, world.task.cachedState = some cached ∧ cached.pending = none) :
    Minds epoch { world with task := task } := by
  refine ⟨⟨?_, ?_⟩, ?_, ?_, ?_, ?_, hready⟩
  · rw [hcached]
    exact h.books.ledger
  · rw [hcached]
    exact h.books.formed
  · intro hserial
    rcases halone with hmode | hnone
    · rw [show task.interleaved = false from hserial] at hmode
      cases hmode
    · exact .inl hnone
  · rw [hcached]
    exact fun _ => hclear
  · exact fun entry hentry => h.epochs entry (hrunning entry hentry)
  · exact fun entry hentry => h.running entry (hrunning entry hentry)

/-- What holds back requests is not about the ledger. -/
theorem Minds.release (h : Minds epoch world) (id : Nat)
    (halone : world.task.interleaved = true ∨ world.task.running = []) :
    Minds epoch { world with task :=
      if world.task.blockedOn = some id then { world.task with blockedOn := none }
      else world.task } := by
  split
  · refine ⟨⟨h.books.ledger, h.books.formed⟩, ?_, h.clear, h.epochs, h.running, h.ready⟩
    intro hserial
    rcases halone with hmode | hnone
    · rw [show world.task.interleaved = false from hserial] at hmode
      cases hmode
    · exact .inl hnone
  · exact h

theorem interleaved_release (task : Task) (id : Nat) :
    Task.interleaved (if task.blockedOn = some id then { task with blockedOn := none } else task) =
      task.interleaved := by
  split <;> rfl

theorem Minds.atEase (h : Minds epoch world) (hmode : world.task.interleaved = true) :
    AtEase epoch world := by
  refine ⟨h, fun hserial => ?_⟩
  rw [hmode] at hserial
  cases hserial

/-- An answer to a request that was executed is faithful. -/
theorem answerable_of_executed {trace : List Entry} {request : ActorRequest} {value : Value}
    (h : request ∈ executedRequests trace) : Answerable trace request value :=
  fun _ hnot => absurd h hnot

theorem commitReady_booked (fuel : Nat) (h : Minds epoch world)
    (hmode : world.task.interleaved = true) :
    (commitReady fuel).Meets (booked epoch) (Prog.onOk (GoesOnMinded epoch)) world := by
  induction fuel generalizing world with
  | zero => exact fun _ => h.atEase hmode
  | succ fuel ih =>
      refine Prog.Meets.bind (meets_getTask.mpr ?_)
      dsimp only
      cases hfind : world.task.ready.find? fun entry => entry.1 = world.task.nextSequence with
      | none => exact fun _ => h.atEase hmode
      | some entry =>
          obtain ⟨sequence, id, request, outcome⟩ := entry
          have hexecuted : request ∈ executedRequests world.trace :=
            h.ready _ (List.mem_of_find?_eq_some hfind)
          obtain ⟨cached, hcached, hpending⟩ := h.clear (.inl hmode)
          refine Prog.Meets.bind (meets_setTask.mpr ⟨fun htrace => htrace, ?_⟩)
          have hremoved : Minds epoch { world with task := { world.task with
              ready := world.task.ready.filter fun entry => ¬ entry.1 = world.task.nextSequence } } :=
            h.setTask rfl (.inl hmode) (fun _ hentry => hentry)
              (fun entry hentry => h.ready entry (List.mem_of_mem_filter hentry))
              ⟨cached, hcached, hpending⟩
          refine Prog.Meets.bind (leaveMark_booked _ ?_)
          have hbegun := hremoved.log ⟨.mark (.commitBegins request outcome), ()⟩ rfl rfl
          have hquiet := @commitInterleaved_quiet (Regular epoch) (fun _ => True) (World.log
            { world with task := { world.task with
              ready := world.task.ready.filter fun entry => ¬ entry.1 = world.task.nextSequence } }
            ⟨.mark (.commitBegins request outcome), ()⟩) (fun _ _ _ _ => trivial)
              request.operation.invocation request.ownerEpoch outcome request.operation.commitOrigin
          refine Prog.Meets.bind (Prog.Meets.attempt (((commitInterleaved_booked hbegun.books
            (by exact hcached) hpending).and hquiet rfl rfl).mono fun committed w hcommitted => ?_))
          obtain ⟨hcommitted, hquiet⟩ := hcommitted
          have hstop : (do
              leaveMark (.commitEnds outcome.sequence false)
              stop request : Run Bool).Meets (booked epoch) (Prog.onOk (GoesOnMinded epoch)) w :=
            Prog.Meets.bind (leaveMark_booked _ (stop_booked request))
          match committed with
          | .ok (.completed result effects) =>
              obtain ⟨hbooks, hclear⟩ := hcommitted
              have hminds := hbegun.quiet hquiet hbooks fun _ _ _ => hclear
              refine Prog.Meets.bind (leaveMark_booked _ ?_)
              refine Prog.Meets.bind (meets_modifyTask.mpr ⟨fun htrace => htrace, ?_⟩)
              have hexecuted' : request ∈ executedRequests w.trace := by
                rw [executedRequests_quiet hquiet]
                exact hexecuted
              have hmode' : w.task.interleaved = true :=
                (hquiet.field_eq Task.interleaved fun _ => rfl).trans hmode
              have hended := hminds.log ⟨.mark (.commitEnds outcome.sequence true), ()⟩ rfl rfl
              have hnext : Minds epoch (World.log { w with task := { w.task with
                  nextSequence := w.task.nextSequence + 1 } }
                    ⟨.mark (.commitEnds outcome.sequence true), ()⟩) :=
                hended.setTask rfl (.inl hmode') (fun _ hentry => hentry) hended.ready hclear
              refine Prog.Meets.bind (finish_booked request (fun _ _ _ =>
                answerable_of_executed (by exact hexecuted')) fun sent => ?_)
              refine Prog.Meets.bind (meets_modifyTask.mpr ⟨fun htrace => htrace, ?_⟩)
              have hreleased := (hnext.log ⟨.answer request _, sent⟩ rfl rfl).release id (.inl hmode')
              exact ih hreleased ((interleaved_release _ id).trans hmode')
          | .ok (.failed _) | .ok .reroute | .ok .hostUnavailable | .error _ => exact hstop

theorem executedAlone_booked {id : Nat} {request : ActorRequest}
    {result : Except Error ActorMethodOutcome} (h : Minds epoch world)
    (hexecuted : request ∈ executedRequests world.trace) (hepoch : request.ownerEpoch = epoch)
    (hclear : ∃ cached, world.task.cachedState = some cached ∧ cached.pending = none)
    (halone : world.task.interleaved = false →
      world.task.running = [] ∧ world.task.blockedOn = some id) :
    (executedAlone id request result).Meets (booked epoch) (Prog.onOk (GoesOnMinded epoch))
      world := by
  unfold executedAlone
  refine Prog.Meets.bind (meets_getTask.mpr ?_)
  dsimp only
  split
  · rename_i hmode
    split
    · split
      · refine Prog.Meets.bind (finish_booked request (fun _ _ heq => by cases heq) fun sent => ?_)
        refine Prog.Meets.bind (meets_modifyTask.mpr ⟨fun htrace => htrace, fun _ => ?_⟩)
        exact ((h.log ⟨.answer request _, sent⟩ rfl rfl).release id (.inl hmode)).atEase
          ((interleaved_release _ id).trans hmode)
      · exact stop_booked request
    · exact stop_booked request
  · rename_i hmode
    have hserial : world.task.interleaved = false := by simpa using hmode
    obtain ⟨cached, hcached, hpending⟩ := hclear
    have hquiet := @finishSerial_quiet (Regular epoch) (fun _ => True) world
      (fun _ _ _ _ => trivial) request.operation.invocation request.ownerEpoch result
        request.operation.commitOrigin
    refine Prog.Meets.bind (Prog.Meets.attempt (((finishSerial_booked h.books hcached hpending
      hepoch).and hquiet rfl rfl).mono fun finished w hfinished => ?_))
    obtain ⟨hbooks, hquiet⟩ := hfinished
    -- Nothing else is in flight, so the outcome of this commit may be unknown.
    have hnone : w.task.running = [] :=
      (hquiet.field_eq Task.running fun _ => rfl).trans (halone hserial).1
    have hminds : Minds epoch w := by
      refine ⟨hbooks, fun _ => .inl hnone, ?_, ?_, ?_, ?_⟩
      · rw [hquiet.field_eq Task.interleaved fun _ => rfl,
          hquiet.field_eq Task.running fun _ => rfl, hserial, (halone hserial).1]
        rintro (hinterleaved | hbusy)
        · cases hinterleaved
        · exact absurd rfl hbusy
      · rw [hquiet.field_eq Task.running fun _ => rfl]
        exact h.epochs
      · rw [hquiet.field_eq Task.running fun _ => rfl, executedRequests_quiet hquiet]
        exact h.running
      · rw [hquiet.field_eq Task.ready fun _ => rfl, executedRequests_quiet hquiet]
        exact h.ready
    refine Prog.Meets.bind (finish_booked request (fun _ _ _ => answerable_of_executed ?_)
      fun sent => ?_)
    · rw [executedRequests_quiet hquiet]
      exact hexecuted
    · refine Prog.Meets.bind (meets_modifyTask.mpr ⟨fun htrace => htrace, fun _ => ?_⟩)
      refine ⟨(hminds.log ⟨.answer request _, sent⟩ rfl rfl).release id (.inr hnone), fun _ _ => ?_⟩
      have hblocked : w.task.blockedOn = some id :=
        (hquiet.field_eq Task.blockedOn fun _ => rfl).trans (halone hserial).2
      simp [hblocked]

/-- The outcome of an execution in flight is taken. -/
theorem executed_booked {id : Nat} {request : ActorRequest}
    {result : Except Error ActorMethodOutcome} (h : Minds epoch world)
    (hrunning : (id, request) ∈ world.task.running) :
    (executed id request result).Meets (booked epoch) (Prog.onOk (GoesOnMinded epoch))
      (World.log { world with task := { world.task with
        running := world.task.running.filter fun entry => ¬ entry.1 = id } }
        ⟨.select, .executed id request result⟩) := by
  have hclear := h.clear (.inr (List.ne_nil_of_mem hrunning))
  have hexecuted : request ∈ executedRequests world.trace := h.running _ hrunning
  have halone : world.task.interleaved = false →
      (world.task.running.filter fun entry => ¬ entry.1 = id) = [] ∧
        world.task.blockedOn = some id := by
    intro hserial
    rcases h.alone hserial with hnone | ⟨entry, hone, hblocked⟩
    · rw [hnone] at hrunning
      cases hrunning
    · rw [hone, List.mem_singleton] at hrunning
      simp [hone, hblocked, ← hrunning]
  have htaken : Minds epoch (World.log { world with task := { world.task with
      running := world.task.running.filter fun entry => ¬ entry.1 = id } }
      ⟨.select, .executed id request result⟩) := by
    have hlog := h.log ⟨.select, .executed id request result⟩ rfl rfl
    refine hlog.setTask rfl ?_ (fun entry hentry => List.mem_of_mem_filter hentry) hlog.ready hclear
    cases hmode : world.task.interleaved with
    | true => exact .inl rfl
    | false => exact .inr (halone hmode).1
  unfold executed
  split
  · rename_i outcome
    refine Prog.Meets.bind (meets_modifyTask.mpr ⟨fun htrace => htrace, ?_⟩)
    refine Prog.Meets.bind (meets_getTask.mpr ?_)
    dsimp only
    split
    · exact stop_booked request
    · refine Prog.Meets.bind (meets_setTask.mpr ⟨fun htrace => htrace, ?_⟩)
      refine commitReady_booked _ ?_ rfl
      refine htaken.setTask rfl (.inl rfl) (fun _ hentry => hentry) (fun entry hentry => ?_) hclear
      rcases List.mem_cons.mp hentry with rfl | hmem
      · exact hexecuted
      · exact htaken.ready entry hmem
  · exact executedAlone_booked htaken hexecuted (h.epochs _ hrunning) hclear halone

/-- The admission loop keeps its ledger. -/
theorem admissionLoop_booked (fuel : Nat) (h : AtEase epoch world) :
    (admissionLoop fuel).Meets (booked epoch) (fun _ _ => True) world := by
  induction fuel generalizing world with
  | zero => trivial
  | succ fuel ih =>
      have hcontinue : ∀ (step : Run Bool) (w : World),
          step.Meets (booked epoch) (Prog.onOk (GoesOnMinded epoch)) w →
          (do if ← step then admissionLoop fuel else return () : Run Unit).Meets (booked epoch)
            (fun _ _ => True) w := by
        intro step w hstep
        refine hstep.seq (fun continued w' hgoesOn => ?_) fun _ _ _ => trivial
        cases continued with
        | false => trivial
        | true => exact ih (hgoesOn rfl)
      unfold admissionLoop
      refine Prog.Meets.bind (meets_indifferent rfl rfl fun wakeup hallowed => ?_)
      have hguarded : Guarded world ⟨.select, wakeup⟩ := hallowed.1.1.1
      have hlog : AtEase epoch (world.log ⟨.select, wakeup⟩) := h.log _ rfl rfl
      cases wakeup with
      | executed id request result =>
          refine Prog.Meets.bind (meets_modifyTask.mpr ⟨fun htrace => htrace, ?_⟩)
          exact hcontinue _ _ (executed_booked h.minds hguarded)
      | permission granted =>
          cases granted with
          | false => trivial
          | true =>
              refine Prog.Meets.bind (meets_modifyTask.mpr ⟨fun htrace => htrace, ih ⟨?_, by simp⟩⟩)
              -- An execution in flight holds back requests.
              refine hlog.minds.setTask rfl (.inl rfl) (fun _ hentry => hentry) hlog.minds.ready
                (h.minds.clear ?_)
              by_contra hidle
              obtain ⟨hserial, hnone⟩ := not_or.mp hidle
              exact hguarded (h.unblocked (by simpa using hserial) (not_not.mp hnone))
      | request request accepting =>
          cases request with
          | none =>
              refine Prog.Meets.bind (meets_modifyTask.mpr ⟨fun htrace => htrace, ih ?_⟩)
              obtain ⟨⟨hbooks, halone, hclear, hepochs, hrunning, hready⟩, hunblocked⟩ := hlog
              exact ⟨⟨⟨hbooks.ledger, hbooks.formed⟩, halone, hclear, hepochs, hrunning, hready⟩,
                hunblocked⟩
          | some request =>
              refine Prog.Meets.bind (meets_indifferent rfl rfl fun _ _ => ?_)
              have htaken : takenAt request (⟨.observeAdmission, ()⟩ ::
                  ⟨.select, .request (some request) accepting⟩ :: world.trace) =
                    some world.trace := by
                simp [takenAt, received]
              refine hcontinue _ _ (admitRequest_booked request accepting
                (hlog.log ⟨.observeAdmission, ()⟩ rfl rfl) hguarded.2 htaken ?_)
              rw [World.log_trace, World.log_trace, ledgerOf, ledgerOf, Ledger.record_eq rfl,
                Ledger.record_eq rfl]
      | idle => trivial

/-! ## The serial loop -/

theorem ensureAuthority_kept :
    ensureAuthority.Meets (booked epoch) (fun _ w => Idle world w ∧ Quiet world w) world := by
  have hquiet := @pausing_quiet (Regular epoch) (fun _ => True) _ world (fun _ _ _ _ => trivial) _ _
    ensureAuthority_pauses
  exact ensureAuthority_booked.and (hquiet.mono fun _ _ hr => hr.1) rfl rfl

/-- What a served method leaves behind: the ledger, and a result that may be reported. -/
structure Served (epoch : Nat) (request : ActorRequest) (earlier : List Entry)
    (result : Except Error ActorExecutionResult) (world : World) : Prop where
  books : Books epoch world
  taken : takenAt request world.trace = some earlier
  result : ∀ value effects, result = .ok (.completed value effects) →
    request ∈ executedRequests world.trace ∨
      ∀ result', Recorded request.operation.invocation.requestId result' (ledgerOf earlier) →
        value = result'

theorem Served.idle {request : ActorRequest} {earlier : List Entry}
    {result : Except Error ActorExecutionResult} (h : Served epoch request earlier result world)
    {w : World} (hidle : Idle world w) (hquiet : Quiet world w) :
    Served epoch request earlier result w := by
  refine ⟨h.books.idle hidle, (takenAt_quiet hquiet request).trans h.taken, ?_⟩
  rw [executedRequests_quiet hquiet]
  exact h.result

theorem Served.error {request : ActorRequest} {earlier : List Entry}
    {result : Except Error ActorExecutionResult} (h : Served epoch request earlier result world)
    (error : Error) : Served epoch request earlier (.error error) world :=
  ⟨h.books, h.taken, nofun⟩

theorem invokeActorOnce_booked {request : ActorRequest} {invocation : ActorInvocation}
    {earlier : List Entry} (hoperation : request.operation = .method invocation)
    (h : Books epoch world) (hsame : ∀ cached, world.task.cachedState = some cached →
      cached.ownerEpoch = request.ownerEpoch)
    (htaken : takenAt request world.trace = some earlier)
    (hledger : ledgerOf earlier = ledgerOf world.trace) :
    (invokeActorOnce request invocation request.ownerEpoch).Meets (booked epoch)
      (fun r w => Served epoch request earlier r w) world := by
  have hid : request.operation.invocation = invocation := by rw [hoperation]; rfl
  refine (prepareInvocation_kept h).seq (fun prepared w hprepared => ?_) fun _ w hprepared => ?_
  swap
  · exact ⟨hprepared.1 hsame, (takenAt_quiet hprepared.2 request).trans htaken, nofun⟩
  obtain ⟨⟨hbooks, hprepared, -⟩, hquiet⟩ := hprepared
  have htaken' := (takenAt_quiet hquiet request).trans htaken
  cases prepared with
  | completed result =>
      refine ⟨hbooks, htaken', ?_⟩
      rintro value effects ⟨⟩
      refine .inr fun result' hrecorded => hprepared value effects rfl result' ?_
      rw [← hledger, ← hid]
      exact hrecorded
  | execute state =>
      obtain ⟨cached, hcached, hpending, hstate, hepoch, hfresh⟩ := hprepared
      have hw : ledgerOf w.trace = some cached.base := by
        rw [← CachedActorState.ledger_eq_base hpending]
        exact (hbooks.inHand hcached).ledger
      refine Prog.Meets.bind ((meets_service rfl).mpr fun outcome _ =>
        ⟨fun htrace => ⟨htrace, ?_⟩, ?_⟩)
      · constructor
        · rintro _ _ _ ⟨⟩
        · rintro _ _ ⟨⟩
          exact ⟨_, hw, rfl, hstate⟩
        · rintro _ _ ⟨⟩ -
          refine ⟨earlier, htaken', fun result hrecorded => ?_⟩
          rw [hledger, hid] at hrecorded
          exact hfresh rfl result hrecorded
        · rintro _ _ ⟨⟩
      · have hinvoked : Books epoch (w.log ⟨.invoke request state, outcome⟩) :=
          hbooks.idle ⟨rfl, Ledger.record_eq rfl outcome⟩
        have hquiet' := @finishSerial_quiet (Regular epoch) (fun _ => True)
          (w.log ⟨.invoke request state, outcome⟩) (fun _ _ _ _ => trivial) invocation
            request.ownerEpoch outcome {}
        refine ((finishSerial_booked hinvoked hcached hpending hepoch).and hquiet' rfl
          rfl).mono fun r w₁ hr => ⟨hr.1, ?_, fun _ _ _ => .inl ?_⟩
        · rw [takenAt_quiet hr.2 request]
          exact htaken'
        · rw [executedRequests_quiet hr.2]
          exact List.mem_cons_self ..

theorem invokeActor_booked {request : ActorRequest} {invocation : ActorInvocation}
    {earlier : List Entry} (hoperation : request.operation = .method invocation)
    (h : Books epoch world) (hsame : ∀ cached, world.task.cachedState = some cached →
      cached.ownerEpoch = request.ownerEpoch)
    (htaken : takenAt request world.trace = some earlier)
    (hledger : ledgerOf earlier = ledgerOf world.trace) :
    (invokeActor request invocation request.ownerEpoch).Meets (booked epoch)
      (fun r w => Served epoch request earlier r w) world := by
  refine ensureAuthority_kept.seq (fun _ w hidle => ?_) fun _ w hidle => ?_
  swap
  · exact ⟨h.idle hidle.1, (takenAt_quiet hidle.2 request).trans htaken, nofun⟩
  have honce := invokeActorOnce_booked hoperation (h.idle hidle.1)
    (by rw [hidle.1.task_eq]; exact hsame) ((takenAt_quiet hidle.2 request).trans htaken)
    (hledger.trans hidle.1.ledger_eq.symm)
  refine Prog.Meets.bind (Prog.Meets.attempt (honce.mono fun outcome w₁ hserved => ?_))
  refine ensureAuthority_kept.seq (fun _ w₂ hidle₂ => ?_) fun error w₂ hidle₂ => ?_
  · exact Prog.meets_lift.mpr (hserved.idle hidle₂.1 hidle₂.2)
  · exact (hserved.idle hidle₂.1 hidle₂.2).error error

theorem executeSocketEvent_total (request : ActorRequest) (actor : ActorKey)
    (state : Option Value) : (executeSocketEvent request actor state).Total := by
  unfold executeSocketEvent
  refine Prog.Total.bind (fun _ => trivial) fun outcome => ?_
  match outcome with
  | .ok (.interleaved _) | .ok (.failed _) | .error _ => trivial
  | .ok (.handled state effects) =>
      dsimp only
      split
      · trivial
      · exact fun _ => trivial

/-- A socket event is served on the committed state. -/
theorem handleSocketEventOnce_booked {request : ActorRequest} {invocation : ActorSocketInvocation}
    (hoperation : request.operation = .socket invocation) (h : Books epoch world)
    (hsame : ∀ cached, world.task.cachedState = some cached →
      cached.ownerEpoch = request.ownerEpoch) :
    (handleSocketEventOnce request invocation request.ownerEpoch).Meets (booked epoch)
      (fun _ w => Books epoch w) world := by
  refine (takeOrLoadState_booked h).seq (fun cached w htaken => ?_) fun _ w htaken => htaken hsame
  obtain ⟨hhand, hepoch, -⟩ := htaken
  refine (finishPendingCommit_total _).seq (finishPendingCommit_booked hhand)
    fun outcome w₁ houtcome => ?_
  obtain ⟨finished, cached'⟩ := outcome
  obtain ⟨hhand', -, hsettled, -⟩ := houtcome
  have hput : ∀ (result : ActorExecutionResult) (w₂ : World), InHand epoch cached' w₂ → (do
      putCached cached'
      return result : Run ActorExecutionResult).Meets (booked epoch) (fun _ w => Books epoch w) w₂ :=
    fun result w₂ hw₂ => Prog.Meets.bind (putCached_booked hw₂ fun _ _ _ hbooks => hbooks)
  cases finished with
  | error error => exact hput _ w₁ hhand'
  | ok _ =>
      obtain ⟨hnone, -⟩ := hsettled rfl
      have hw : ledgerOf w₁.trace = some cached'.base := by
        rw [← CachedActorState.ledger_eq_base hnone]
        exact hhand'.ledger
      have hexecuted : (executeSocketEvent request invocation.actor cached'.state).Meets
          (booked epoch) (Prog.onOk fun _ w₂ => InHand epoch cached' w₂) w₁ := by
        refine Prog.Meets.bind ((meets_service rfl).mpr fun outcome _ =>
          ⟨fun htrace => ⟨htrace, ?_⟩, ?_⟩)
        · constructor
          · rintro _ _ _ ⟨⟩
          · rintro _ _ ⟨⟩
            exact ⟨_, hw, rfl, rfl⟩
          · rintro _ _ ⟨⟩ hmethod
            rw [hoperation] at hmethod
            cases hmethod
          · rintro _ _ ⟨⟩
        · have hhandled : InHand epoch cached'
              (w₁.log ⟨.handleSocket request cached'.state, outcome⟩) :=
            hhand'.idle ⟨rfl, Ledger.record_eq rfl outcome⟩
          rcases outcome with _ | outcome
          · exact hhandled
          cases outcome with
          | interleaved _ => exact hhandled
          | failed _ => exact hhandled
          | handled state effects =>
              refine Prog.meets_done.mpr ?_
              dsimp only
              split
              · exact hhandled
              · refine Prog.Total.seq (fun _ => trivial)
                  (pausing_booked hhandled.ledger (evict_pauses _)) fun _ w₂ hidle => ?_
                exact hhandled.idle hidle
      refine (executeSocketEvent_total request invocation.actor cached'.state).seq hexecuted fun executed w₂ hw₂ => ?_
      cases executed with
      | error result => exact hput _ w₂ hw₂
      | ok executed =>
          obtain ⟨nextState, effects⟩ := executed
          dsimp only
          split
          · refine Prog.Meets.bind (putCached_booked hw₂ fun w₃ htask _ hbooks => ?_)
            exact (completeWithState_booked hbooks (by rw [htask])).mono fun _ _ hr => hr.2
          · refine (publishResult_total ..).seq (publishResult_booked hw₂ hnone
              (hepoch.symm.trans hhand.formed.ownerEpoch)) fun published w₃ houtcome => ?_
            obtain ⟨publication, published⟩ := published
            obtain ⟨hhand₃, -, -⟩ := houtcome
            have hput' : ∀ w₄, InHand epoch published w₄ → (reportPublished
                invocation.actor published effects (fun _ => .null) publication).Meets
                  (booked epoch) (fun _ w => Books epoch w) w₄ := by
              intro w₄ hw₄
              refine Prog.Meets.bind (putCached_booked hw₄ fun w₅ htask _ hbooks => ?_)
              rcases publication with _ | result
              · exact hbooks
              · cases result with
                | completed _ _ =>
                    exact (completeWithState_booked hbooks (by rw [htask])).mono fun _ _ hr => hr.2
                | _ => exact hbooks
            dsimp only
            split
            · refine Prog.Total.seq (fun _ => trivial)
                (pausing_booked hhand₃.ledger (evict_pauses _)) fun _ w₄ hidle => ?_
              exact hput' w₄ (hhand₃.idle hidle)
            · exact hput' w₃ hhand₃

theorem handleSocketEvent_booked {request : ActorRequest} {invocation : ActorSocketInvocation}
    (hoperation : request.operation = .socket invocation) (h : Books epoch world)
    (hsame : ∀ cached, world.task.cachedState = some cached →
      cached.ownerEpoch = request.ownerEpoch) :
    (handleSocketEvent request invocation request.ownerEpoch).Meets (booked epoch)
      (fun _ w => Books epoch w) world := by
  refine ensureAuthority_booked.seq (fun _ w hidle => ?_) fun _ w hidle => h.idle hidle
  refine Prog.Meets.bind (Prog.Meets.attempt ((handleSocketEventOnce_booked hoperation
    (h.idle hidle) (by rw [hidle.task_eq]; exact hsame)).mono fun outcome w₁ hbooks => ?_))
  refine ensureAuthority_booked.seq (fun _ w₂ hidle₂ => ?_) fun _ w₂ hidle₂ => hbooks.idle hidle₂
  exact Prog.meets_lift.mpr (hbooks.idle hidle₂)

/-- The serial loop serves a request to the end. -/
theorem serveRequest_booked {request : ActorRequest} {accepting : Bool} {earlier : List Entry}
    (h : Books epoch world) (hsame : request.operation.isActivate = false →
      ∀ cached, world.task.cachedState = some cached → cached.ownerEpoch = request.ownerEpoch)
    (htaken : takenAt request world.trace = some earlier)
    (hledger : ledgerOf earlier = ledgerOf world.trace) :
    (serveRequest request accepting).Meets (booked epoch) (Prog.onOk fun result w =>
      Books epoch w ∧ ∀ value effects, result = .ok (.completed value effects) →
        Answerable w.trace request value) world := by
  unfold serveRequest
  split
  · exact ⟨h, fun _ _ heq => by cases heq⟩
  · split
    · rename_i actor hoperation
      refine Prog.Meets.bind (Prog.Meets.attempt ((activateActor_booked h).mono
        fun activated w hactivated => ⟨hactivated.1, fun _ _ _ hmethod => ?_⟩))
      rw [hoperation] at hmethod
      cases hmethod
    · rename_i invocation hoperation
      refine Prog.Meets.attempt ((invokeActor_booked hoperation h
        (hsame (by rw [hoperation]; rfl)) htaken hledger).mono fun result w hserved => ?_)
      refine ⟨hserved.books, fun value effects heq _ hnot => ⟨earlier, hserved.taken, ?_⟩⟩
      rcases hserved.result value effects heq with hexecuted | hreplayed
      · exact absurd hexecuted hnot
      · exact hreplayed
    · rename_i invocation hoperation
      refine Prog.Meets.attempt ((handleSocketEvent_booked hoperation h
        (hsame (by rw [hoperation]; rfl))).mono fun result w hbooks => ⟨hbooks, ?_⟩)
      intro _ _ _ hmethod
      rw [hoperation] at hmethod
      cases hmethod

/-- The serial loop keeps its ledger. -/
theorem serialLoop_booked (fuel : Nat) (h : Books epoch world) :
    (serialLoop fuel).Meets (booked epoch) (fun _ _ => True) world := by
  induction fuel generalizing world with
  | zero => trivial
  | succ fuel ih =>
      unfold serialLoop
      refine Prog.Meets.bind (meets_indifferent rfl rfl fun received hallowed => ?_)
      have hlog : Books epoch (world.log ⟨.receive, received⟩) :=
        h.idle ⟨rfl, Ledger.record_eq rfl received⟩
      cases received with
      | none => trivial
      | some received =>
          obtain ⟨request, accepting⟩ := received
          have hsame : request.operation.isActivate = false → ∀ cached,
              world.task.cachedState = some cached → cached.ownerEpoch = request.ownerEpoch :=
            fun hactivate cached hcached => (hallowed.2 hactivate cached hcached).symm
          have htaken : takenAt request (⟨.receive, some (request, accepting)⟩ :: world.trace) =
              some world.trace := by
            simp [takenAt, received]
          have hledger : ledgerOf world.trace =
              ledgerOf (⟨.receive, some (request, accepting)⟩ :: world.trace) := by
            rw [ledgerOf, Ledger.record_eq rfl]
          refine (serveRequest_booked hlog hsame htaken hledger).seq
            (fun result w hserved => ?_) fun _ _ _ => trivial
          obtain ⟨hbooks, hanswerable⟩ := hserved
          refine Prog.Meets.bind ((meets_service rfl).mpr fun sent _ =>
            ⟨fun htrace => ⟨htrace, faithful_answer sent hanswerable⟩, ?_⟩)
          have hanswered : Books epoch (w.log ⟨.answer request result, sent⟩) :=
            hbooks.idle ⟨rfl, Ledger.record_eq rfl sent⟩
          cases sent with
          | false => trivial
          | true => exact ih hanswered

end

theorem books_init (epoch : Nat) : Books epoch {} := ⟨rfl, by simp⟩

theorem atEase_init (epoch : Nat) : AtEase epoch {} where
  minds := ⟨books_init epoch, fun _ => .inl rfl, by simp, by simp, by simp, by simp⟩
  unblocked := fun _ _ => rfl

/-- Every run of either loop in one host session keeps its ledger. -/
theorem ledgerKept_of_reachable {epoch : Nat} {hasAdmission : Bool} {world : World}
    (h : Reachable (Regular epoch) hasAdmission world) : LedgerKept world.trace := by
  refine h.invariant (fun world => LedgerKept world.trace) (fun fuel => ?_) trivial
  cases hasAdmission with
  | true => exact admissionLoop_booked fuel (atEase_init epoch)
  | false => exact serialLoop_booked fuel (books_init epoch)

end Host
end DurableActors
