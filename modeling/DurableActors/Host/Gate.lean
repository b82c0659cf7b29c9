import DurableActors.Actor.Driver
import DurableActors.Host.Execution

/-!
# The admission gate of the mailbox

After it has handed an execution to the executor the mailbox takes no request until
that execution has ended or a permission has come.  Permissions come over a channel
that only tells that there was one; the mailbox marks what has come as seen when it
takes a request.

Main results:

- Theorem {lit}`admissionLoop_gated`: in every run the mailbox starts an execution
  only after it has marked the permissions as seen with no execution holding the gate.
- Theorem {lit}`permits_of_reachable`: a permission that the mailbox has not seen comes from
  the execution that holds the gate; all other executions in flight have had theirs.
- Theorem {lit}`starts_only_when_admitted`: when an execution is started, every earlier one has
  ended or was given a permission while it ran.
-/

namespace DurableActors
namespace Host

open Effects

/-! ## The gate as a run shows it -/

/-- What stands between the mailbox and the next execution: nothing, nothing and the permissions
are marked as seen, or an execution. -/
inductive Gate
  | free
  | observed
  | held (id : Nat)
deriving DecidableEq

/-- The gate after a call. -/
def Gate.after : Gate → Entry → Gate
  | _, ⟨.start id _ _, _⟩ => .held id
  | _, ⟨.select, .permission true⟩ => .free
  | .held id, ⟨.select, .executed other _ _⟩ => if other = id then .free else .held id
  | .free, ⟨.observeAdmission, _⟩ => .observed
  | gate, _ => gate

/-- The gate after a run. -/
def gateOf : List Entry → Gate
  | [] => .free
  | entry :: trace => (gateOf trace).after entry

/-- Every execution so far was started when the permissions were marked as seen and no execution
held the gate. -/
def Gated : List Entry → Prop
  | [] => True
  | entry :: trace => Gated trace ∧ ((startedId entry).isSome → gateOf trace = .observed)

theorem Gated.silent (entry : Entry) (trace : List Entry) (hentry : isEvent entry = false)
    (h : Gated trace) : Gated (entry :: trace) := by
  obtain ⟨op, answer⟩ := entry
  cases op <;> first | (cases hentry; done) | exact ⟨h, nofun⟩

/-- Only a start makes an execution hold the gate. -/
theorem Gate.held_of_after {gate : Gate} {entry : Entry} {id : Nat} (h : startedId entry = none)
    (hheld : gate.after entry = .held id) : gate = .held id := by
  unfold Gate.after at hheld
  split at hheld
  · cases h
  · cases hheld
  · split at hheld
    · cases hheld
    · exact hheld
  · cases hheld
  · exact hheld

/-- An entry that tells the mailbox nothing does not change who holds the gate. -/
theorem Gate.after_eq_held {gate : Gate} {entry : Entry} (h : isEvent entry = false) {id : Nat} :
    gate.after entry = .held id ↔ gate = .held id := by
  obtain ⟨op, answer⟩ := entry
  cases op <;> first | (cases h; done) | (cases gate <;> simp [Gate.after])

theorem Gate.after_observed {entry : Entry} (h : isEvent entry = false) :
    Gate.observed.after entry = .observed := by
  obtain ⟨op, answer⟩ := entry
  cases op <;> first | (cases h; done) | rfl

theorem isEvent_of_isQuiet {entry : Entry} (h : isQuiet entry) : isEvent entry = false := by
  simp only [isQuiet, Bool.and_eq_true, Bool.not_eq_true'] at h
  exact h.1

theorem gateOf_eq_held_of_quiet {start world : World} (h : Quiet start world) {id : Nat} :
    gateOf world.trace = .held id ↔ gateOf start.trace = .held id := by
  apply h.keeps fun trace => gateOf trace = .held id ↔ gateOf start.trace = .held id
  · intro entry trace hentry htrace
    exact (Gate.after_eq_held (isEvent_of_isQuiet hentry)).trans htrace
  · rfl

theorem gateOf_observed_of_quiet {start world : World} (h : Quiet start world)
    (hstart : gateOf start.trace = .observed) : gateOf world.trace = .observed := by
  apply h.keeps fun trace => gateOf trace = .observed
  · intro entry trace hentry htrace
    rw [gateOf, htrace, Gate.after_observed (isEvent_of_isQuiet hentry)]
  · exact hstart

/-! ## The admission loop -/

/-- The protocol under which every execution passes the gate. -/
abbrev gated : Protocol services World := keeping Enabled fun world => Gated world.trace

/-- The mailbox knows who holds the gate: an execution that holds it is in flight and holds back
the next request, and the outcomes that wait for their turn are of executions that have ended. -/
structure Holds (world : World) : Prop where
  blocked : ∀ id, gateOf world.trace = .held id → world.task.blockedOn = some id
  unended : ∀ id, gateOf world.trace = .held id → id ∉ world.trace.filterMap endedId
  ready : ∀ entry ∈ world.task.ready, entry.2.1 ∈ world.trace.filterMap endedId
  running : ∀ entry ∈ world.task.running, entry.1 ≤ world.task.nextInvocation
  ended : ∀ id ∈ world.trace.filterMap endedId, id ≤ world.task.nextInvocation

namespace Holds

variable {world : World}

/-- An entry neither starts nor ends an execution. -/
theorem log (h : Holds world) {entry : Entry} (hstarted : startedId entry = none)
    (hended : endedId entry = none) : Holds (world.log entry) := by
  have hgate : ∀ id, gateOf (entry :: world.trace) = .held id → gateOf world.trace = .held id :=
    fun id => Gate.held_of_after hstarted
  have hsame : (entry :: world.trace).filterMap endedId = world.trace.filterMap endedId :=
    List.filterMap_cons_none hended
  constructor
  · exact fun id hid => h.blocked id (hgate id hid)
  · intro id hid
    rw [World.log_trace, hsame]
    exact h.unended id (hgate id hid)
  · rw [World.log_trace, hsame]
    exact h.ready
  · exact h.running
  · rw [World.log_trace, hsame]
    exact h.ended

theorem quiet (h : Holds world) {w : World} (hquiet : Quiet world w) : Holds w := by
  have hended : w.trace.filterMap endedId = world.trace.filterMap endedId :=
    hquiet.filterMap_eq endedId fun entry hentry => (isSilent_of_quiet hentry).ended
  constructor
  · intro id hid
    rw [hquiet.field_eq Task.blockedOn fun _ => rfl]
    exact h.blocked id ((gateOf_eq_held_of_quiet hquiet).mp hid)
  · intro id hid
    rw [hended]
    exact h.unended id ((gateOf_eq_held_of_quiet hquiet).mp hid)
  · rw [hquiet.field_eq Task.ready fun _ => rfl, hended]
    exact h.ready
  · rw [hquiet.field_eq Task.running fun _ => rfl, hquiet.field_eq Task.nextInvocation fun _ => rfl]
    exact h.running
  · rw [hended, hquiet.field_eq Task.nextInvocation fun _ => rfl]
    exact h.ended

theorem answer (h : Holds world) (request : ActorRequest)
    (result : Except Error ActorExecutionResult) (sent : Bool) :
    Holds (world.log ⟨.answer request result, sent⟩) := h.log rfl rfl

theorem mark (h : Holds world) (mark : Mark) : Holds (world.log ⟨.mark mark, ()⟩) :=
  h.log rfl rfl

/-- An execution that has ended does not hold the gate, so it need not hold back requests. -/
theorem release (h : Holds world) {id : Nat} (hid : id ∈ world.trace.filterMap endedId) :
    Holds { world with task :=
      if world.task.blockedOn = some id then { world.task with blockedOn := none }
      else world.task } := by
  split
  · rename_i hblocked
    refine ⟨fun other hother => ?_, h.unended, h.ready, h.running, h.ended⟩
    have hsame : some id = some other := hblocked.symm.trans (h.blocked other hother)
    cases hsame
    exact absurd hid (h.unended id hother)
  · exact ⟨h.blocked, h.unended, h.ready, h.running, h.ended⟩

/-- The outcome of an execution in flight is taken. -/
theorem taken (h : Holds world) {id : Nat} {request : ActorRequest}
    (hrunning : (id, request) ∈ world.task.running) (result : Except Error ActorMethodOutcome) :
    Holds (World.log { world with task := { world.task with
      running := world.task.running.filter fun entry => ¬ entry.1 = id } }
      ⟨.select, .executed id request result⟩) := by
  have hended : (⟨.select, .executed id request result⟩ :: world.trace).filterMap endedId =
      id :: world.trace.filterMap endedId := rfl
  have hgate : ∀ other,
      gateOf (⟨.select, .executed id request result⟩ :: world.trace) = .held other →
        gateOf world.trace = .held other ∧ id ≠ other := by
    intro other hother
    cases hheld : gateOf world.trace with
    | free => simp [gateOf, hheld, Gate.after] at hother
    | observed => simp [gateOf, hheld, Gate.after] at hother
    | held holder =>
        simp only [gateOf, hheld, Gate.after] at hother
        split at hother
        · cases hother
        · rename_i hne
          cases hother
          exact ⟨rfl, hne⟩
  constructor
  · exact fun other hother => h.blocked other (hgate other hother).1
  · intro other hother
    obtain ⟨hheld, hne⟩ := hgate other hother
    rw [World.log_trace, hended, List.mem_cons, not_or]
    exact ⟨hne.symm, h.unended other hheld⟩
  · intro entry hentry
    rw [World.log_trace, hended]
    exact List.mem_cons_of_mem _ (h.ready entry hentry)
  · exact fun entry hentry => h.running entry (List.mem_of_mem_filter hentry)
  · intro other hother
    rw [World.log_trace, hended] at hother
    rcases List.mem_cons.mp hother with rfl | hmem
    · exact h.running _ hrunning
    · exact h.ended other hmem

/-- The fields that the gate does not depend on may change; outcomes of ended executions may be
added. -/
theorem setTask (h : Holds world) {task : Task} (hblocked : task.blockedOn = world.task.blockedOn)
    (hrunning : task.running = world.task.running)
    (hnext : task.nextInvocation = world.task.nextInvocation)
    (hready : ∀ entry ∈ task.ready, entry.2.1 ∈ world.trace.filterMap endedId) :
    Holds { world with task := task } := by
  refine ⟨?_, h.unended, hready, ?_, ?_⟩
  · rw [hblocked]
    exact h.blocked
  · rw [hrunning, hnext]
    exact h.running
  · rw [hnext]
    exact h.ended

/-- An execution is started. -/
theorem start (h : Holds world) (request : ActorRequest) (state : Option Value) :
    Holds (World.log { world with task := { world.task with
      nextInvocation := world.task.nextInvocation + 1
      blockedOn := some (world.task.nextInvocation + 1)
      running := world.task.running ++ [(world.task.nextInvocation + 1, request)] } }
      ⟨.start (world.task.nextInvocation + 1) request state, ()⟩) := by
  have hended : (⟨.start (world.task.nextInvocation + 1) request state, ()⟩ ::
      world.trace).filterMap endedId = world.trace.filterMap endedId := rfl
  constructor
  · intro id hid
    cases hid
    rfl
  · intro id hid
    cases hid
    rw [World.log_trace, hended]
    intro hmem
    have := h.ended _ hmem
    omega
  · exact h.ready
  · intro entry hentry
    rcases List.mem_append.mp hentry with hmem | hmem
    · exact Nat.le_succ_of_le (h.running entry hmem)
    · rw [List.mem_singleton.mp hmem]
      exact le_rfl
  · exact fun id hid => Nat.le_succ_of_le (h.ended id hid)

end Holds

section

variable {world : World}

/-- The loop goes on only when the mailbox knows who holds the gate. -/
def KeepsGate (continued : Bool) (world : World) : Prop := continued = true → Holds world

/-- The rule for a call that starts nothing. -/
theorem meets_gated {α : Type} {op : Op} (hop : op.isService) {next : Ans op → Run α}
    {post : Except Error α → World → Prop} (hstart : ∀ answer, startedId ⟨op, answer⟩ = none)
    (h : ∀ answer, Enabled world ⟨op, answer⟩ →
      (next answer).Meets gated post (world.log ⟨op, answer⟩)) :
    (Prog.call (I := services) op next).Meets gated post world := by
  refine (meets_service hop).mpr fun answer henabled => ⟨fun htrace => ⟨htrace, ?_⟩, h answer henabled⟩
  simp [hstart answer]

theorem finish_gated (request : ActorRequest) (result : Except Error ActorExecutionResult)
    {post : Except Error Unit → World → Prop}
    (h : ∀ sent, post (.ok ()) (world.log ⟨.answer request result, sent⟩)) :
    (finish request result).Meets gated post world :=
  Prog.Meets.bind (meets_gated rfl (fun _ => rfl) fun sent _ => h sent)

theorem leaveMark_gated (mark : Mark) {post : Except Error Unit → World → Prop}
    (h : post (.ok ()) (world.log ⟨.mark mark, ()⟩)) : (leaveMark mark).Meets gated post world :=
  meets_gated rfl (fun _ => rfl) fun _ _ => h

theorem stop_gated (request : ActorRequest) :
    (stop request).Meets gated (Prog.onOk KeepsGate) world := by
  refine Prog.Meets.bind (meets_gated rfl (fun _ => rfl) fun _ _ => ?_)
  refine Prog.Meets.bind (finish_gated request _ fun sent => ?_)
  rintro ⟨⟩

theorem release_gated {id : Nat} (h : Holds world) (hid : id ∈ world.trace.filterMap endedId)
    {post : Except Error Unit → World → Prop} (hpost : ∀ w, Holds w → post (.ok ()) w) :
    (release id).Meets gated post world :=
  meets_modifyTask.mpr ⟨fun htrace => htrace, hpost _ (h.release hid)⟩

theorem activate_gated (request : ActorRequest) (actor : ActorKey) (h : Holds world) :
    (activate request actor).Meets gated (Prog.onOk KeepsGate) world := by
  refine Prog.Meets.bind (Prog.Meets.attempt ((activateActor_quiet Gated.silent actor).mono
    fun activated w hactivated => ?_))
  refine Prog.Meets.bind (finish_gated request _ fun sent => ?_)
  cases activated with
  | error error => rintro ⟨⟩
  | ok activation => exact fun _ => (h.quiet hactivated).answer request _ sent

/-- A request that is taken while the gate is open is started while it is open. -/
theorem admitRequest_gated (request : ActorRequest) (accepting : Bool) (h : Holds world)
    (hobserved : gateOf world.trace = .observed) :
    (admitRequest request accepting).Meets gated (Prog.onOk KeepsGate) world := by
  have hexecute : ∀ operation : ActorOperation,
      (admitInvocation request operation.invocation operation.isMethod).Meets gated (Prog.onOk KeepsGate) world := by
    intro operation
    refine Prog.Meets.bind (Prog.Meets.attempt ((prepareInvocation_quiet Gated.silent _ _ _).mono
      fun prepared w hquiet => ?_))
    have hholds := h.quiet hquiet
    rcases prepared with _ | state | result
    · exact stop_gated request
    · refine Prog.Meets.bind (meets_getTask.mpr ?_)
      refine Prog.Meets.bind (meets_setTask.mpr ⟨fun htrace => htrace, ?_⟩)
      refine Prog.Meets.bind ((meets_service rfl).mpr fun _ _ => ⟨fun htrace => ⟨htrace, ?_⟩, ?_⟩)
      · exact fun _ => (gateOf_observed_of_quiet hquiet hobserved : gateOf w.trace = .observed)
      · exact fun _ => hholds.start request state
    · exact Prog.Meets.bind (finish_gated request _ fun sent _ => hholds.answer request _ sent)
  unfold admitRequest
  split
  · exact Prog.Meets.bind (finish_gated request _ fun sent _ => h.answer request _ sent)
  · split
    · exact activate_gated request _ h
    · exact hexecute _

/-- The outcomes that are committed are of executions that have ended. -/
theorem commitReady_gated (fuel : Nat) (h : Holds world) :
    (commitReady fuel).Meets gated (Prog.onOk KeepsGate) world := by
  induction fuel generalizing world with
  | zero => exact fun _ => h
  | succ fuel ih =>
      refine Prog.Meets.bind (meets_getTask.mpr ?_)
      dsimp only
      cases hfind : world.task.ready.find? fun entry => entry.1 = world.task.nextSequence with
      | none => exact fun _ => h
      | some entry =>
          obtain ⟨sequence, id, request, outcome⟩ := entry
          have hended : id ∈ world.trace.filterMap endedId :=
            h.ready _ (List.mem_of_find?_eq_some hfind)
          refine Prog.Meets.bind (meets_setTask.mpr ⟨fun htrace => htrace, ?_⟩)
          refine Prog.Meets.bind (leaveMark_gated _ ?_)
          have hremoved : Holds { world with task := { world.task with
              ready := world.task.ready.filter fun entry => ¬ entry.1 = world.task.nextSequence } } :=
            h.setTask rfl rfl rfl fun entry hentry => h.ready entry (List.mem_of_mem_filter hentry)
          have hbegun := hremoved.mark (.commitBegins request outcome)
          refine Prog.Meets.bind (Prog.Meets.attempt ((commitInterleaved_quiet Gated.silent
            _ _ _ _).mono fun committed w hquiet => ?_))
          have hstop : (do
              leaveMark (.commitEnds outcome.sequence false)
              stop request : Run Bool).Meets gated (Prog.onOk KeepsGate) w :=
            Prog.Meets.bind (leaveMark_gated _ (stop_gated request))
          match committed with
          | .ok (.completed result effects) =>
              refine Prog.Meets.bind (leaveMark_gated _ ?_)
              refine Prog.Meets.bind (meets_modifyTask.mpr ⟨fun htrace => htrace, ?_⟩)
              refine Prog.Meets.bind (finish_gated request _ fun sent => ?_)
              have hdone : Holds { w with task := { w.task with
                  nextSequence := w.task.nextSequence + 1 } } :=
                (hbegun.quiet hquiet).setTask rfl rfl rfl (hbegun.quiet hquiet).ready
              have hsame : w.trace.filterMap endedId = world.trace.filterMap endedId :=
                hquiet.filterMap_eq endedId fun entry hentry => (isSilent_of_quiet hentry).ended
              refine Prog.Meets.bind (release_gated ((hdone.mark _).answer request _ sent) ?_
                fun _ => ih)
              exact hsame ▸ hended
          | .ok (.failed _) | .ok .reroute | .ok .hostUnavailable | .error _ => exact hstop

theorem executedAlone_gated {id : Nat} (request : ActorRequest)
    (result : Except Error ActorMethodOutcome) (h : Holds world)
    (hid : id ∈ world.trace.filterMap endedId) :
    (executedAlone id request result).Meets gated (Prog.onOk KeepsGate) world := by
  unfold executedAlone
  refine Prog.Meets.bind (meets_getTask.mpr ?_)
  dsimp only
  split
  · split
    · split
      · refine Prog.Meets.bind (finish_gated request _ fun sent => ?_)
        exact Prog.Meets.bind (release_gated (h.answer request _ sent) hid fun _ hw _ => hw)
      · exact stop_gated request
    · exact stop_gated request
  · refine Prog.Meets.bind (Prog.Meets.attempt ((finishSerial_quiet Gated.silent _ _ _ _).mono
      fun finished w hquiet => ?_))
    refine Prog.Meets.bind (finish_gated request _ fun sent => ?_)
    have hsame : w.trace.filterMap endedId = world.trace.filterMap endedId :=
      hquiet.filterMap_eq endedId fun entry hentry => (isSilent_of_quiet hentry).ended
    refine Prog.Meets.bind (release_gated ((h.quiet hquiet).answer request _ sent) ?_
      fun _ hw _ => hw)
    exact hsame ▸ hid

theorem executed_gated {id : Nat} (request : ActorRequest)
    (result : Except Error ActorMethodOutcome) (h : Holds world)
    (hid : id ∈ world.trace.filterMap endedId) :
    (executed id request result).Meets gated (Prog.onOk KeepsGate) world := by
  unfold executed
  split
  · rename_i outcome
    refine Prog.Meets.bind (meets_modifyTask.mpr ⟨fun htrace => htrace, ?_⟩)
    refine Prog.Meets.bind (meets_getTask.mpr ?_)
    dsimp only
    split
    · exact stop_gated request
    · refine Prog.Meets.bind (meets_setTask.mpr ⟨fun htrace => htrace, ?_⟩)
      apply commitReady_gated
      refine h.setTask rfl rfl rfl fun entry hentry => ?_
      rcases List.mem_cons.mp hentry with rfl | hmem
      · exact hid
      · exact h.ready entry hmem
  · exact executedAlone_gated request _ h hid

/-- Every execution passes the gate. -/
theorem admissionLoop_gated (fuel : Nat) (h : Holds world) :
    (admissionLoop fuel).Meets gated (fun _ _ => True) world := by
  induction fuel generalizing world with
  | zero => trivial
  | succ fuel ih =>
      have hcontinue : ∀ (step : Run Bool) (w : World),
          step.Meets gated (Prog.onOk KeepsGate) w →
          (do if ← step then admissionLoop fuel else return () : Run Unit).Meets gated
            (fun _ _ => True) w := by
        intro step w hstep
        refine hstep.seq (fun continued w' hkeepsGate => ?_) fun _ _ _ => trivial
        cases continued with
        | false => trivial
        | true => exact ih (hkeepsGate rfl)
      unfold admissionLoop
      refine Prog.Meets.bind (meets_gated rfl (fun _ => rfl) fun wakeup henabled => ?_)
      have hguarded : Guarded world ⟨.select, wakeup⟩ := henabled.1
      cases wakeup with
      | executed id request result =>
          refine Prog.Meets.bind (meets_modifyTask.mpr ⟨fun htrace => htrace, ?_⟩)
          exact hcontinue _ _ (executed_gated request result (h.taken hguarded result)
            (List.mem_cons_self ..))
      | permission granted =>
          cases granted with
          | false => trivial
          | true =>
              refine Prog.Meets.bind (meets_modifyTask.mpr ⟨fun htrace => htrace, ih ?_⟩)
              refine ⟨?_, ?_, h.ready, h.running, h.ended⟩ <;> simp [gateOf, Gate.after]
      | request request accepting =>
          have hlog : Holds (world.log ⟨.select, .request request accepting⟩) := h.log rfl rfl
          cases request with
          | none =>
              refine Prog.Meets.bind (meets_modifyTask.mpr ⟨fun htrace => htrace, ih ?_⟩)
              exact hlog.setTask rfl rfl rfl hlog.ready
          | some request =>
              refine Prog.Meets.bind (meets_gated rfl (fun _ => rfl) fun _ _ => ?_)
              refine hcontinue _ _ (admitRequest_gated request accepting ?_ ?_)
              · exact hlog.quiet ((Quiet.refl _).log rfl)
              · -- No execution holds the gate: it would hold back the request.
                cases hgate : gateOf world.trace with
                | free => simp [gateOf, hgate, Gate.after]
                | observed => simp [gateOf, hgate, Gate.after]
                | held id =>
                    have hblocked := h.blocked id hgate
                    rw [hguarded.2] at hblocked
                    cases hblocked
      | idle => trivial

end

theorem holds_init : Holds {} := ⟨nofun, nofun, nofun, nofun, nofun⟩

/-- Every run of the admission loop respects the gate, and so does the rest of it. -/
theorem gated_of_runs {fuel : Nat} {rest : Run Unit} {world : World}
    (h : Runs Enabled (runActor true fuel, {}) (rest, world)) :
    rest.Meets gated (fun _ _ => True) world ∧ Gated world.trace :=
  Prog.Meets.run (P := gated) (fun _ => rfl) (fun _ _ ha hab => hab ha)
    (admissionLoop_gated fuel holds_init) trivial h

/-! ## The gate and the driver -/

/-- The mailbox, the driver and what is between them.  The mailbox has {lit}`seen` the first
permissions of the driver.  {lit}`granted` are the executions that were given a permission while
they waited for their reply. -/
structure GateSystem where
  program : Run Unit
  world : World := {}
  seen : Nat := 0
  channel : List (PendingCommand Caller) := []
  connected : Bool := true
  driver : ExecutorDriver Caller := {}
  answered : List (Caller × Except Error ExecutorReply) := []
  granted : List Nat := []

/-- Whether a call of the task concerns neither the executions nor the permissions. -/
def isPlain : Entry → Bool
  | ⟨.start _ _ _, _⟩ | ⟨.observeAdmission, _⟩ | ⟨.select, .executed _ _ _⟩
  | ⟨.select, .permission true⟩ => false
  | _ => true

/-- The executions that a message gives a permission to. -/
def grantedBy (driver : ExecutorDriver Caller) : ClientMessage → List Nat
  | .readyForInvocation messageId =>
      (driver.pending.lookup messageId).toList.filterMap fun pending => pending.reply.executionId
  | _ => []

/-- The command of an execution. -/
def executionOf (id : Nat) (request : ActorRequest) (state : Option Value) :
    PendingCommand Caller where
  command := .execute {
    command := executionCommand request.operation, state, residentOnly := false }
  reply := .execution id request

/-- What those who wait get when the connection ends. -/
def GateSystem.dropped (system : GateSystem) : ExecutorDriver.Answers Caller :=
  (system.channel ++ system.driver.pending.map Prod.snd).map fun pending =>
    (pending.reply, .error "customer actor executor disconnected before replying")

/-- One step of the mailbox, the driver and the executor.  The executor may send any message, the
connection may break at any time, and hydrations and evictions may be sent and answered at any
time. -/
inductive GateStep (size : Nat → ExecutorCommand → Nat) : GateSystem → GateSystem → Prop
  | task {system : GateSystem} (program : Run Unit) (world : World) :
      Prog.Step (I := services) (serve fun world entry => Enabled world entry ∧ isPlain entry)
        (system.program, system.world) (program, world) →
      GateStep size system { system with program, world }
  /-- The mailbox marks the permissions as seen. -/
  | observe {system : GateSystem} (next : Unit → Run Unit) :
      system.program = .call (I := services) .observeAdmission next →
      GateStep size system { system with
        program := next ()
        world := system.world.log ⟨.observeAdmission, ()⟩
        seen := system.driver.admission }
  /-- The mailbox waits for a permission and there is one that it has not seen. -/
  | permission {system : GateSystem} (next : Wakeup → Run Unit) :
      system.program = .call (I := services) .select next →
      system.world.task.blockedOn ≠ none → system.seen ≠ system.driver.admission →
      GateStep size system { system with
        program := next (.permission true)
        world := system.world.log ⟨.select, .permission true⟩
        seen := system.driver.admission }
  | start {system : GateSystem} (id : Nat) (request : ActorRequest) (state : Option Value)
      (next : Unit → Run Unit) :
      system.program = .call (I := services) (.start id request state) next →
      system.connected = true →
      GateStep size system { system with
        program := next ()
        world := system.world.log ⟨.start id request state, ()⟩
        channel := system.channel ++ [executionOf id request state] }
  | startStopped {system : GateSystem} (id : Nat) (request : ActorRequest) (state : Option Value)
      (next : Unit → Run Unit) :
      system.program = .call (I := services) (.start id request state) next →
      system.connected = false →
      GateStep size system { system with
        program := next ()
        world := system.world.log ⟨.start id request state, ()⟩
        answered := system.answered ++
          [(.execution id request, .error "actor executor stopped")] }
  /-- The mailbox takes the outcome of an execution. -/
  | take {system : GateSystem} (id : Nat) (request : ActorRequest) (next : Wakeup → Run Unit)
      (earlier : List (Caller × Except Error ExecutorReply)) (reply : Except Error ExecutorReply)
      (later : List (Caller × Except Error ExecutorReply)) :
      system.program = .call (I := services) .select next →
      system.answered = earlier ++ (.execution id request, reply) :: later →
      (id, request) ∈ system.world.task.running →
      GateStep size system { system with
        answered := earlier ++ later
        program := next (.executed id request (executionOutcome request.operation reply))
        world := system.world.log
          ⟨.select, .executed id request (executionOutcome request.operation reply)⟩ }
  /-- Somebody sends an eviction or a hydration. -/
  | submit {system : GateSystem} (pending : PendingCommand Caller) :
      system.connected = true → pending.command.isInvocation = false →
      pending.reply.executionId = none →
      GateStep size system { system with channel := system.channel ++ [pending] }
  | handleCommand {system : GateSystem} (pending : PendingCommand Caller)
      (rest : List (PendingCommand Caller)) (driver : ExecutorDriver Caller)
      (answers : ExecutorDriver.Answers Caller) :
      system.channel = pending :: rest →
      system.driver.pending.length < maxPendingExecutorCommands →
      system.driver.handleCommand size pending = .ok (driver, answers) →
      GateStep size system { system with
        channel := rest, driver, answered := system.answered ++ answers }
  | receive {system : GateSystem} (message : ClientMessage) (driver : ExecutorDriver Caller)
      (answers : ExecutorDriver.Answers Caller) :
      system.connected = true → system.driver.receive size message = .ok (driver, answers) →
      GateStep size system { system with
        driver
        answered := system.answered ++ answers
        granted := grantedBy system.driver message ++ system.granted }
  | published {system : GateSystem} (messageId : Nat) :
      GateStep size system { system with driver := system.driver.published messageId }
  | loaded {system : GateSystem} (messageId : Nat) :
      GateStep size system { system with driver := system.driver.loaded messageId }
  /-- The connection ends; nobody who waits gets a reply any more. -/
  | disconnect {system : GateSystem} :
      system.connected = true →
      GateStep size system { system with
        connected := false
        channel := []
        driver := system.driver.close
        answered := system.answered ++ system.dropped }

/-- The systems that the admission loop can reach. -/
def GateReachable (size : Nat → ExecutorCommand → Nat) (system : GateSystem) : Prop :=
  ∃ fuel, Relation.ReflTransGen (GateStep size) { program := runActor true fuel } system

/-- The commands that wait in the channel or at the driver. -/
def GateSystem.waiting (system : GateSystem) : List (Caller × Bool × Bool) :=
  system.channel.map ExecutorDriver.waits ++ system.driver.waiting

/-- The executions whose outcome the mailbox will take. -/
def GateSystem.awaited (system : GateSystem) : List Nat :=
  (system.waiting.map Prod.fst ++ system.answered.map Prod.fst).filterMap Caller.executionId

/-- Who has been given a permission, and which permissions the mailbox has not seen. -/
structure Permits (system : GateSystem) : Prop where
  numbered : system.driver.WellNumbered
  nodup : system.awaited.Nodup
  unfinished : ∀ id ∈ system.awaited, Unfinished id system.world.trace
  marks : ∀ waits ∈ system.waiting, ∀ id, waits.1.executionId = some id →
    (waits.2.1 = true ↔ id ∈ system.granted)
  kinds : ∀ waits ∈ system.waiting, waits.1.executionId = none → waits.2.2 = false
  started : ∀ id ∈ system.granted, id ∈ system.world.trace.filterMap startedId
  past : ∀ id, Unfinished id system.world.trace → gateOf system.world.trace ≠ .held id →
    id ∈ system.granted
  fresh : gateOf system.world.trace = .observed → system.seen = system.driver.admission
  unseen : ∀ id, gateOf system.world.trace = .held id → system.seen ≠ system.driver.admission →
    id ∈ system.granted

namespace Permits

variable {size : Nat → ExecutorCommand → Nat} {system : GateSystem}

/-- Commands move towards their replies, and no permission is sent. -/
theorem moves (h : Permits system) {channel : List (PendingCommand Caller)} {connected : Bool}
    {driver : ExecutorDriver Caller} {answers : ExecutorDriver.Answers Caller}
    {gone : List (Caller × Bool × Bool)} (hnumbered : driver.WellNumbered)
    (hadmission : driver.admission = system.driver.admission)
    (hwaiting : (channel.map ExecutorDriver.waits ++ driver.waiting ++ gone).Perm system.waiting)
    (hanswers : answers.map Prod.fst = gone.map Prod.fst) :
    Permits { system with
      channel, connected, driver, answered := system.answered ++ answers } := by
  have hawaited : (GateSystem.awaited { system with
      channel, connected, driver, answered := system.answered ++ answers }).Perm
        system.awaited := by
    refine List.Perm.filterMap _ ?_
    show ((channel.map ExecutorDriver.waits ++ driver.waiting).map Prod.fst ++
      (system.answered ++ answers).map Prod.fst).Perm
        (system.waiting.map Prod.fst ++ system.answered.map Prod.fst)
    refine List.Perm.trans ?_ ((hwaiting.map Prod.fst).append_right _)
    simp only [List.map_append, hanswers, List.append_assoc]
    exact (List.perm_append_comm.append_left _).append_left _
  have hmem : ∀ waits ∈ GateSystem.waiting { system with
      channel, connected, driver, answered := system.answered ++ answers },
        waits ∈ system.waiting :=
    fun waits hwaits => hwaiting.subset (List.mem_append_left _ hwaits)
  constructor
  · exact hnumbered
  · exact hawaited.nodup_iff.mpr h.nodup
  · exact fun id hid => h.unfinished id (hawaited.subset hid)
  · exact fun waits hwaits => h.marks waits (hmem waits hwaits)
  · exact fun waits hwaits => h.kinds waits (hmem waits hwaits)
  · exact h.started
  · exact h.past
  · intro hgate
    rw [hadmission]
    exact h.fresh hgate
  · intro id hgate hseen
    rw [hadmission] at hseen
    exact h.unseen id hgate hseen

/-- The driver works on the commands that it has. -/
theorem handles (h : Permits system) {driver : ExecutorDriver Caller}
    {answers : ExecutorDriver.Answers Caller}
    (hhandles : system.driver.Handles driver [] answers) :
    Permits { system with driver, answered := system.answered ++ answers } := by
  obtain ⟨hnumbered, hadmission, gone, hperm, hanswers⟩ := hhandles
  refine h.moves hnumbered hadmission ?_ hanswers
  rw [List.append_assoc]
  exact hperm.append_left _

/-- The driver takes a command. -/
theorem handleCommand (h : Permits system) {pending : PendingCommand Caller}
    {rest : List (PendingCommand Caller)} {driver : ExecutorDriver Caller}
    {answers : ExecutorDriver.Answers Caller} (hchannel : system.channel = pending :: rest)
    (hok : system.driver.handleCommand size pending = .ok (driver, answers)) :
    Permits { system with channel := rest, driver, answered := system.answered ++ answers } := by
  obtain ⟨hnumbered, hadmission, gone, hperm, hanswers⟩ :=
    ExecutorDriver.handleCommand_handles h.numbered hok
  refine h.moves hnumbered hadmission ?_ hanswers
  rw [List.append_assoc, GateSystem.waiting, hchannel, List.map_cons]
  exact (hperm.append_left _).trans List.perm_middle

/-- The connection ends. -/
theorem disconnect (h : Permits system) :
    Permits { system with
      connected := false
      channel := []
      driver := system.driver.close
      answered := system.answered ++ system.dropped } := by
  have hdropped : system.dropped.map Prod.fst = system.waiting.map Prod.fst := by
    simp [GateSystem.dropped, GateSystem.waiting, ExecutorDriver.waiting, ExecutorDriver.waits,
      Function.comp_def]
  have hwaiting : (([] : List (PendingCommand Caller)).map ExecutorDriver.waits ++
      system.driver.close.waiting ++ system.waiting).Perm system.waiting := List.Perm.refl _
  exact h.moves ExecutorDriver.wellNumbered_close rfl hwaiting hdropped

/-- Somebody sends a command that runs no code of the actor. -/
theorem submit (h : Permits system) {pending : PendingCommand Caller}
    (hcommand : pending.command.isInvocation = false) (hcaller : pending.reply.executionId = none) :
    Permits { system with channel := system.channel ++ [pending] } := by
  have hwaiting : (GateSystem.waiting { system with channel := system.channel ++ [pending] }).Perm
      (ExecutorDriver.waits pending :: system.waiting) := by
    simp only [GateSystem.waiting, List.map_append, List.map_cons, List.map_nil,
      List.append_assoc]
    exact List.perm_middle
  have hawaited : (GateSystem.awaited { system with
      channel := system.channel ++ [pending] }).Perm system.awaited := by
    have hperm := ((hwaiting.map Prod.fst).append_right
      (system.answered.map Prod.fst)).filterMap Caller.executionId
    rw [List.map_cons, List.cons_append] at hperm
    exact hperm.trans (List.Perm.of_eq (List.filterMap_cons_none hcaller))
  constructor
  · exact h.numbered
  · exact hawaited.nodup_iff.mpr h.nodup
  · exact fun id hid => h.unfinished id (hawaited.subset hid)
  · intro waits hwaits id hid
    rcases List.mem_cons.mp (hwaiting.subset hwaits) with rfl | hmem
    · rw [show (ExecutorDriver.waits pending).1.executionId = none from hcaller] at hid
      cases hid
    · exact h.marks waits hmem id hid
  · intro waits hwaits hnone
    rcases List.mem_cons.mp (hwaiting.subset hwaits) with rfl | hmem
    · exact hcommand
    · exact h.kinds waits hmem hnone
  · exact h.started
  · exact h.past
  · exact h.fresh
  · exact h.unseen

/-- The executor gives an invocation its permission.  Only the one that holds the gate has not had
its own. -/
theorem allow (h : Permits system) {messageId : Nat} {driver : ExecutorDriver Caller}
    (hok : system.driver.allowNextInvocation messageId = .ok driver) :
    Permits { system with
      driver
      answered := system.answered ++ []
      granted := grantedBy system.driver (.readyForInvocation messageId) ++ system.granted } := by
  obtain ⟨pending, others, hlookup, -, -, hbefore, hafter, hadmission, hnumbered⟩ :=
    ExecutorDriver.allowNextInvocation_cases h.numbered hok
  have hmem : (pending.reply, false, true) ∈ system.waiting :=
    List.mem_append_right _ (hbefore.mem_iff.mpr (List.mem_cons_self ..))
  -- Hydrations and evictions are refused, so an execution waits for the reply.
  obtain ⟨id, hid⟩ : ∃ id, pending.reply.executionId = some id := by
    cases hid : pending.reply.executionId with
    | none => exact absurd (h.kinds _ hmem hid) (by simp)
    | some id => exact ⟨id, rfl⟩
  have hungranted : id ∉ system.granted := by
    intro hgranted
    exact absurd ((h.marks _ hmem id hid).mpr hgranted) (by simp)
  have hgrants : grantedBy system.driver (.readyForInvocation messageId) = [id] := by
    simp [grantedBy, hlookup, hid]
  have hwaiting : system.waiting.Perm ((pending.reply, false, true) ::
      (system.channel.map ExecutorDriver.waits ++ others)) :=
    (hbefore.append_left _).trans List.perm_middle
  have hwaiting' : (system.channel.map ExecutorDriver.waits ++ driver.waiting).Perm
      ((pending.reply, true, true) :: (system.channel.map ExecutorDriver.waits ++ others)) :=
    (hafter.append_left _).trans List.perm_middle
  have hcallers : ((system.channel.map ExecutorDriver.waits ++ driver.waiting).map Prod.fst ++
      system.answered.map Prod.fst).Perm
        (system.waiting.map Prod.fst ++ system.answered.map Prod.fst) :=
    ((hwaiting'.map Prod.fst).trans (hwaiting.map Prod.fst).symm).append_right _
  have hawaited : ∀ granted, (GateSystem.awaited { system with
      driver, answered := system.answered ++ [], granted }).Perm system.awaited := by
    intro granted
    rw [List.append_nil]
    exact hcallers.filterMap _
  -- No other execution that waits has the same number.
  have hothers : ∀ waits ∈ system.channel.map ExecutorDriver.waits ++ others,
      waits.1.executionId ≠ some id := by
    intro waits hwaits hsome
    have hnodup := h.nodup
    have hperm := ((hwaiting.map Prod.fst).append_right
      (system.answered.map Prod.fst)).filterMap Caller.executionId
    rw [List.map_cons, List.cons_append, List.filterMap_cons_some hid] at hperm
    have hnotMem := (List.nodup_cons.mp (hperm.nodup_iff.mp hnodup)).1
    exact hnotMem (List.mem_filterMap.mpr
      ⟨waits.1, List.mem_append_left _ (List.mem_map_of_mem hwaits), hsome⟩)
  have hunfinished : Unfinished id system.world.trace := by
    refine h.unfinished id (List.mem_filterMap.mpr ⟨pending.reply, ?_, hid⟩)
    exact List.mem_append_left _ (List.mem_map_of_mem hmem)
  have hheld : gateOf system.world.trace = .held id := by
    by_contra hne
    exact hungranted (h.past id hunfinished hne)
  rw [hgrants]
  constructor
  · exact hnumbered
  · exact (hawaited _).nodup_iff.mpr h.nodup
  · exact fun other hother => h.unfinished other ((hawaited _).subset hother)
  · intro waits hwaits other hsome
    rcases List.mem_cons.mp (hwaiting'.subset hwaits) with rfl | hmem'
    · obtain rfl : id = other := Option.some.inj (hid.symm.trans hsome)
      simp
    · have hne : other ≠ id := fun heq => hothers waits hmem' (heq ▸ hsome)
      have hmarks := h.marks waits (hwaiting.mem_iff.mpr (List.mem_cons_of_mem _ hmem')) other hsome
      rw [hmarks]
      simp [hne]
  · intro waits hwaits hnone
    rcases List.mem_cons.mp (hwaiting'.subset hwaits) with rfl | hmem'
    · rw [show pending.reply.executionId = none from hnone] at hid
      cases hid
    · exact h.kinds waits (hwaiting.mem_iff.mpr (List.mem_cons_of_mem _ hmem')) hnone
  · intro other hother
    rcases List.mem_cons.mp hother with rfl | hmem'
    · exact hunfinished.1
    · exact h.started other hmem'
  · exact fun other hunfinished' hne =>
      List.mem_cons_of_mem _ (h.past other hunfinished' hne)
  · intro hobserved
    rw [show gateOf system.world.trace = .observed from hobserved] at hheld
    cases hheld
  · intro other hother _
    obtain rfl : id = other := Gate.held.inj (hheld.symm.trans hother)
    exact List.mem_cons_self ..

/-- The task makes a call that neither starts nor ends an execution. -/
theorem log (h : Permits system) {program : Run Unit} {world : World} {entry : Entry} {seen : Nat}
    (htrace : world.trace = entry :: system.world.trace) (hstarted : startedId entry = none)
    (hended : endedId entry = none)
    (hpast : ∀ id, gateOf system.world.trace = .held id → gateOf world.trace ≠ .held id →
      id ∈ system.granted)
    (hfresh : gateOf world.trace = .observed → seen = system.driver.admission)
    (hunseen : seen = system.seen ∨ seen = system.driver.admission) :
    Permits { system with program, world, seen } := by
  have hunfinished : ∀ id, Unfinished id world.trace ↔ Unfinished id system.world.trace := by
    intro id
    rw [htrace, Unfinished, Unfinished, List.filterMap_cons_none hstarted,
      List.filterMap_cons_none hended]
  constructor
  · exact h.numbered
  · exact h.nodup
  · exact fun id hid => (hunfinished id).mpr (h.unfinished id hid)
  · exact h.marks
  · exact h.kinds
  · intro id hid
    show id ∈ world.trace.filterMap startedId
    rw [htrace, List.filterMap_cons_none hstarted]
    exact h.started id hid
  · intro id hid hne
    by_cases hheld : gateOf system.world.trace = .held id
    · exact hpast id hheld hne
    · exact h.past id ((hunfinished id).mp hid) hheld
  · exact hfresh
  · intro id hheld hseen
    have hbefore : gateOf system.world.trace = .held id := by
      rw [show gateOf world.trace = (gateOf system.world.trace).after entry by rw [htrace, gateOf]]
        at hheld
      exact Gate.held_of_after hstarted hheld
    rcases hunseen with rfl | rfl
    · exact h.unseen id hbefore hseen
    · exact absurd rfl hseen

/-- The task works on its own state. -/
theorem of_trace_eq (h : Permits system) {program : Run Unit} {world : World}
    (htrace : world.trace = system.world.trace) : Permits { system with program, world } := by
  obtain ⟨hnumbered, hnodup, hunfinished, hmarks, hkinds, hstarted, hpast, hfresh, hunseen⟩ := h
  rw [← htrace] at hunfinished hstarted hpast hfresh hunseen
  exact ⟨hnumbered, hnodup, hunfinished, hmarks, hkinds, hstarted, hpast, hfresh, hunseen⟩

/-- The mailbox starts an execution while no other one holds the gate. -/
theorem start (h : Permits system) {program : Run Unit} {id : Nat} {request : ActorRequest}
    {state : Option Value} {channel : List (PendingCommand Caller)}
    {answered : List (Caller × Except Error ExecutorReply)}
    (hgate : gateOf system.world.trace = .observed)
    (hfresh : id ∉ system.world.trace.filterMap startedId)
    (hended : id ∉ system.world.trace.filterMap endedId)
    (hwaiting : ∀ waits ∈ channel.map ExecutorDriver.waits, waits ∈ system.waiting ∨
      waits = (.execution id request, false, true))
    (hawaited : (GateSystem.awaited { system with channel, answered }).Perm
      (id :: system.awaited)) :
    Permits { system with
      program, channel, answered, world := system.world.log ⟨.start id request state, ()⟩ } := by
  have hnew : Unfinished id (⟨.start id request state, ()⟩ :: system.world.trace) :=
    ⟨List.mem_cons_self .., hended⟩
  have hunfinished : ∀ other, Unfinished other system.world.trace →
      Unfinished other (⟨.start id request state, ()⟩ :: system.world.trace) :=
    fun other hother => unfinished_cons hother nofun
  have hmem : ∀ waits ∈ GateSystem.waiting { system with channel, answered },
      waits ∈ system.waiting ∨ waits = (.execution id request, false, true) := by
    intro waits hwaits
    rcases List.mem_append.mp hwaits with hchannel | hdriver
    · exact hwaiting waits hchannel
    · exact .inl (List.mem_append_right _ hdriver)
  constructor
  · exact h.numbered
  · refine hawaited.nodup_iff.mpr (List.nodup_cons.mpr ⟨fun hmem => ?_, h.nodup⟩)
    exact hfresh (h.unfinished id hmem).1
  · intro other hother
    rcases List.mem_cons.mp (hawaited.subset hother) with rfl | hmem
    · exact hnew
    · exact hunfinished other (h.unfinished other hmem)
  · intro waits hwaits other hsome
    rcases hmem waits hwaits with hold | rfl
    · exact h.marks waits hold other hsome
    · obtain rfl : id = other := Option.some.inj hsome
      constructor
      · nofun
      · exact fun hgranted => absurd (h.started id hgranted) hfresh
  · intro waits hwaits hnone
    rcases hmem waits hwaits with hold | rfl
    · exact h.kinds waits hold hnone
    · cases hnone
  · exact fun other hother => List.mem_cons_of_mem _ (h.started other hother)
  · intro other hother hne
    have hdifferent : other ≠ id := fun heq => hne (by rw [heq]; rfl)
    refine h.past other ⟨?_, hother.2⟩ (by rw [hgate]; nofun)
    rcases List.mem_cons.mp hother.1 with heq | hmem
    · exact absurd heq hdifferent
    · exact hmem
  · nofun
  · exact fun other _ hseen => absurd (h.fresh hgate) hseen

/-- The mailbox takes the outcome of an execution. -/
theorem take (h : Permits system) {program : Run Unit} {id : Nat} {request : ActorRequest}
    {result : Except Error ActorMethodOutcome} {reply : Except Error ExecutorReply}
    {earlier later : List (Caller × Except Error ExecutorReply)}
    (hanswered : system.answered = earlier ++ (.execution id request, reply) :: later) :
    Permits { system with
      program
      answered := earlier ++ later
      world := system.world.log ⟨.select, .executed id request result⟩ } := by
  have hawaited : system.awaited.Perm
      (id :: GateSystem.awaited { system with answered := earlier ++ later }) := by
    have hperm : (system.waiting.map Prod.fst ++ system.answered.map Prod.fst).Perm
        (.execution id request ::
          (system.waiting.map Prod.fst ++ (earlier ++ later).map Prod.fst)) := by
      rw [hanswered, List.map_append, List.map_cons, List.map_append]
      exact (List.perm_middle.append_left _).trans List.perm_middle
    exact hperm.filterMap Caller.executionId
  have hnodup := List.nodup_cons.mp (hawaited.nodup_iff.mp h.nodup)
  have hended : (⟨.select, .executed id request result⟩ :: system.world.trace).filterMap endedId =
      id :: system.world.trace.filterMap endedId := rfl
  have hgate : ∀ other,
      gateOf (⟨.select, .executed id request result⟩ :: system.world.trace) = .held other →
        gateOf system.world.trace = .held other :=
    fun other => Gate.held_of_after rfl
  constructor
  · exact h.numbered
  · exact hnodup.2
  · intro other hother
    refine unfinished_cons (h.unfinished other (hawaited.mem_iff.mpr
      (List.mem_cons_of_mem _ hother))) fun hsome => ?_
    obtain rfl : id = other := Option.some.inj hsome
    exact hnodup.1 hother
  · exact h.marks
  · exact h.kinds
  · exact h.started
  · intro other hother hne
    have hdifferent : other ≠ id := by
      rintro rfl
      exact hother.2 (by rw [World.log_trace, hended]; exact List.mem_cons_self ..)
    refine h.past other ⟨hother.1, fun hmem => hother.2 ?_⟩ fun hheld => hne ?_
    · rw [World.log_trace, hended]
      exact List.mem_cons_of_mem _ hmem
    · simp [gateOf, hheld, Gate.after, hdifferent.symm]
  · intro hobserved
    refine h.fresh ?_
    revert hobserved
    cases hheld : gateOf system.world.trace with
    | free => simp [gateOf, hheld, Gate.after]
    | observed => exact fun _ => rfl
    | held holder =>
        simp only [World.log_trace, gateOf, hheld, Gate.after]
        split <;> nofun
  · exact fun other hheld => h.unseen other (hgate other hheld)

end Permits

/-! ## Every reachable system -/

/-- What the task does in the system it can do alone. -/
theorem GateStep.runs {size : Nat → ExecutorCommand → Nat} {system system' : GateSystem}
    (h : GateStep size system system') :
    Runs Enabled (system.program, system.world) (system'.program, system'.world) := by
  cases h with
  | task program world hstep => exact .single (step_mono (fun _ _ hallowed => hallowed.1) hstep)
  | observe next hprogram =>
      rw [hprogram]
      exact Runs.service () rfl ⟨trivial, nofun⟩ .refl
  | permission next hprogram hblocked hseen =>
      rw [hprogram]
      exact Runs.service (.permission true) rfl ⟨hblocked, nofun⟩ .refl
  | start id request state next hprogram hconnected =>
      rw [hprogram]
      exact Runs.service () rfl ⟨trivial, nofun⟩ .refl
  | startStopped id request state next hprogram hconnected =>
      rw [hprogram]
      exact Runs.service () rfl ⟨trivial, nofun⟩ .refl
  | take id request next earlier reply later hprogram hanswered hrunning =>
      rw [hprogram]
      exact Runs.service (.executed id request (executionOutcome request.operation reply)) rfl
        ⟨hrunning, nofun⟩ .refl
  | submit | handleCommand | receive | published | loaded | disconnect => exact .refl

/-- When the mailbox starts an execution, the permissions are marked as seen, nothing holds the
gate and the execution is a new one. -/
theorem gate_of_starting {fuel : Nat} {id : Nat} {request : ActorRequest} {state : Option Value}
    {next : Unit → Run Unit} {world : World}
    (h : Runs Enabled (runActor true fuel, {})
      (.call (I := services) (.start id request state) next, world)) :
    gateOf world.trace = .observed ∧ id ∉ world.trace.filterMap startedId ∧
      id ∉ world.trace.filterMap endedId := by
  obtain ⟨hgated, hgatedTrace⟩ := gated_of_runs h
  obtain ⟨hdisciplined, hdisciplinedTrace⟩ := disciplined_of_runs h
  have hgate := (((meets_service rfl).mp hgated () ⟨trivial, nofun⟩).1 hgatedTrace).2 rfl
  have hfresh := (((meets_service rfl).mp hdisciplined () (.inl ⟨trivial, nofun⟩)).1
    hdisciplinedTrace).2.1
  exact ⟨hgate, hfresh, fun hended => hfresh (hdisciplinedTrace.started_of_ended hended)⟩

theorem isPlain_cases {entry : Entry} (h : isPlain entry) :
    startedId entry = none ∧ endedId entry = none ∧ ∀ gate : Gate, gate.after entry = gate := by
  obtain ⟨op, answer⟩ := entry
  cases op with
  | start id request state => cases h
  | observeAdmission => cases h
  | select =>
      cases answer with
      | executed id request result => cases h
      | permission granted =>
          cases granted with
          | true => cases h
          | false => exact ⟨rfl, rfl, fun gate => by cases gate <;> rfl⟩
      | request request accepting => exact ⟨rfl, rfl, fun gate => by cases gate <;> rfl⟩
      | idle => exact ⟨rfl, rfl, fun gate => by cases gate <;> rfl⟩
  | _ => exact ⟨rfl, rfl, fun gate => by cases gate <;> rfl⟩

theorem Permits.step {size : Nat → ExecutorCommand → Nat} {system system' : GateSystem} {fuel : Nat}
    (hruns : Runs Enabled (runActor true fuel, {}) (system.program, system.world))
    (h : Permits system) (hstep : GateStep size system system') : Permits system' := by
  cases hstep with
  | task program world hstep =>
      obtain ⟨op, next, -, ⟨answer, -, ⟨-, hplain⟩, rfl⟩ | ⟨-, htrace⟩⟩ := step_cases hstep
      · obtain ⟨hstarted, hended, hafter⟩ := isPlain_cases hplain
        have hgate : gateOf (system.world.log ⟨op, answer⟩).trace = gateOf system.world.trace :=
          hafter _
        refine h.log rfl hstarted hended (fun id hheld hne => ?_) (fun hobserved => ?_) (.inl rfl)
        · exact absurd (hgate.trans hheld) hne
        · exact h.fresh (hgate.symm.trans hobserved)
      · exact h.of_trace_eq htrace
  | observe next hprogram =>
      refine h.log rfl rfl rfl (fun id hheld hne => absurd ?_ hne) (fun _ => rfl) (.inr rfl)
      simp [gateOf, hheld, Gate.after]
  | permission next hprogram hblocked hseen =>
      exact h.log rfl rfl rfl (fun id hheld _ => h.unseen id hheld hseen) (fun _ => rfl) (.inr rfl)
  | start id request state next hprogram hconnected =>
      rw [hprogram] at hruns
      obtain ⟨hgate, hfresh, hended⟩ := gate_of_starting hruns
      have hwaits : ExecutorDriver.waits (executionOf id request state) =
          (.execution id request, false, true) := by
        cases hoperation : request.operation <;>
          simp [ExecutorDriver.waits, executionOf, executionCommand, hoperation,
            ExecutorCommand.isInvocation, WorkerCommand.isHydrate]
      refine h.start hgate hfresh hended (fun waits hwaits' => ?_) ?_
      · rw [List.map_append, List.mem_append] at hwaits'
        rcases hwaits' with hold | hnew
        · exact .inl (List.mem_append_left _ hold)
        · exact .inr ((List.mem_singleton.mp hnew).trans hwaits)
      · have hperm : (((system.channel ++ [executionOf id request state]).map
            ExecutorDriver.waits ++ system.driver.waiting).map Prod.fst ++
              system.answered.map Prod.fst).Perm (.execution id request ::
                (system.waiting.map Prod.fst ++ system.answered.map Prod.fst)) := by
          simp only [GateSystem.waiting, List.map_append, List.map_cons, List.map_nil, hwaits,
            List.append_assoc]
          exact List.perm_middle
        exact hperm.filterMap Caller.executionId
  | startStopped id request state next hprogram hconnected =>
      rw [hprogram] at hruns
      obtain ⟨hgate, hfresh, hended⟩ := gate_of_starting hruns
      refine h.start hgate hfresh hended (fun waits hwaits =>
        .inl (List.mem_append_left _ hwaits)) ?_
      have hperm : (system.waiting.map Prod.fst ++ (system.answered ++
          [(Caller.execution id request, Except.error "actor executor stopped")]).map Prod.fst).Perm
            (.execution id request ::
              (system.waiting.map Prod.fst ++ system.answered.map Prod.fst)) := by
        rw [List.map_append, List.map_cons, List.map_nil, ← List.append_assoc]
        exact List.perm_append_singleton _ _
      exact hperm.filterMap Caller.executionId
  | take id request next earlier reply later hprogram hanswered hrunning => exact h.take hanswered
  | submit pending hconnected hcommand hcaller => exact h.submit hcommand hcaller
  | handleCommand pending rest driver answers hchannel hroom hok => exact h.handleCommand hchannel hok
  | receive message driver answers hconnected hok =>
      rcases ExecutorDriver.receive_cases h.numbered hok with
        ⟨hmessage, hhandles⟩ | ⟨messageId, rfl, rfl, hallow⟩
      · have hgrants : grantedBy system.driver message = [] := by
          cases message with
          | readyForInvocation messageId => exact absurd rfl (hmessage messageId)
          | _ => rfl
        rw [hgrants]
        exact h.handles hhandles
      · exact h.allow hallow
  | published messageId =>
      have hhandles : system.driver.Handles (system.driver.published messageId) [] [] :=
        .of_eq h.numbered rfl rfl rfl
      simpa using h.handles hhandles
  | loaded messageId =>
      have hhandles : system.driver.Handles (system.driver.loaded messageId) [] [] :=
        .of_eq h.numbered rfl rfl rfl
      simpa using h.handles hhandles
  | disconnect hconnected => exact h.disconnect

theorem permits_init (fuel : Nat) : Permits { program := runActor true fuel } := by
  have hgate : ∀ gate, gateOf [] = gate → gate = .free := fun _ => Eq.symm
  constructor
  · exact ⟨List.nodup_nil, fun _ hentry => absurd hentry List.not_mem_nil⟩
  · exact List.nodup_nil
  · exact fun _ hid => absurd hid List.not_mem_nil
  · exact fun _ hwaits => absurd hwaits List.not_mem_nil
  · exact fun _ hwaits => absurd hwaits List.not_mem_nil
  · exact fun _ hid => absurd hid List.not_mem_nil
  · exact fun _ hunfinished => absurd hunfinished.1 List.not_mem_nil
  · exact fun hobserved => absurd (hgate _ hobserved) (by simp)
  · exact fun id hheld => absurd (hgate _ hheld) (by simp)

theorem permits_of_reachable {size : Nat → ExecutorCommand → Nat} {fuel : Nat}
    {system : GateSystem}
    (h : Relation.ReflTransGen (GateStep size) { program := runActor true fuel } system) :
    Runs Enabled (runActor true fuel, {}) (system.program, system.world) ∧ Permits system := by
  induction h with
  | refl => exact ⟨.refl, permits_init fuel⟩
  | tail _ hstep ih => exact ⟨ih.1.trans hstep.runs, ih.2.step ih.1 hstep⟩

/-- The mailbox hands an execution to the executor only when every execution that it handed over
before has ended or was given a permission while it ran. -/
theorem starts_only_when_admitted {size : Nat → ExecutorCommand → Nat} {system : GateSystem}
    (h : GateReachable size system) {id : Nat} {request : ActorRequest} {state : Option Value}
    {next : Unit → Run Unit}
    (hstart : system.program = .call (I := services) (.start id request state) next) {other : Nat}
    (hother : other ∈ system.world.trace.filterMap startedId) :
    other ∈ system.world.trace.filterMap endedId ∨ other ∈ system.granted := by
  obtain ⟨fuel, hreachable⟩ := h
  obtain ⟨hruns, hpermits⟩ := permits_of_reachable hreachable
  rw [hstart] at hruns
  have hgate := (gate_of_starting hruns).1
  by_cases hended : other ∈ system.world.trace.filterMap endedId
  · exact .inl hended
  · exact .inr (hpermits.past other ⟨hother, hended⟩ (by rw [hgate]; nofun))

/-- A run of the system goes on with a run of the task. -/
theorem GateStep.tasks {size : Nat → ExecutorCommand → Nat} {system last : GateSystem}
    (program : Run Unit) (world : World)
    (hruns : Runs (fun world entry => Enabled world entry ∧ isPlain entry)
      (system.program, system.world) (program, world))
    (h : Relation.ReflTransGen (GateStep size) { system with program, world } last) :
    Relation.ReflTransGen (GateStep size) system last := by
  generalize hend : (program, world) = final at hruns
  induction hruns generalizing program world with
  | refl =>
      cases hend
      exact h
  | tail hruns hstep ih =>
      rename_i middle _
      obtain ⟨program₁, world₁⟩ := middle
      have htask : GateStep size { system with program := program₁, world := world₁ }
          { system with program, world } := .task program world (hend ▸ hstep)
      exact ih program₁ world₁ (.head htask h) rfl

/-- A second call is started beside the first one, which was given a permission. -/
theorem starts_only_when_admitted_of_increments :
    ∃ system id request state next,
      GateReachable (fun _ _ => 0) system ∧
      system.program = .call (I := services) (.start id request state) next ∧
      1 ∈ system.world.trace.filterMap startedId ∧
      (1 ∈ system.world.trace.filterMap endedId ∨ 1 ∈ system.granted) := by
  refine ⟨?system, ?id, ?request, ?state, ?next, ?reachable, ?program, ?started,
    starts_only_when_admitted ?reachable ?program ?started⟩
  case reachable =>
    refine ⟨3, ?run⟩
    case run =>
      refine GateStep.tasks ?admitted ?admittedWorld ?first ?_
      case first =>
        refine Runs.service (Wakeup.request (some (increment 0)) true) rfl
          ⟨⟨⟨rfl, rfl⟩, by rintro _ _ _ ⟨⟩⟩, rfl⟩ ?_
        exact .refl
      refine .head (.observe _ rfl) ?_
      refine GateStep.tasks ?prepared ?preparedWorld ?second ?_
      case second =>
        refine Runs.service (.ok ()) rfl ⟨⟨trivial, nofun⟩, rfl⟩ ?_
        refine Runs.get (Runs.set ?_)
        refine Runs.service (.ok (0, none)) rfl ⟨⟨trivial, nofun⟩, rfl⟩ ?_
        refine Runs.get (Runs.set (Runs.get (Runs.set ?_)))
        exact .refl
      refine .head (.start _ _ _ _ rfl rfl) ?_
      refine .head (.handleCommand _ _ _ _ rfl (by decide) rfl) ?_
      refine .head (.receive (.readyForInvocation 1) _ _ rfl rfl) ?_
      refine .head (.permission _ rfl nofun (by decide)) ?_
      refine GateStep.tasks ?again ?againWorld ?third ?_
      case third =>
        refine Runs.get (Runs.set ?_)
        refine Runs.service (Wakeup.request (some (increment 1)) true) rfl
          ⟨⟨⟨rfl, rfl⟩, ?unused⟩, rfl⟩ ?_
        case unused =>
          rintro _ ⟨⟩
          exact unused_iff.mpr (by decide)
        exact .refl
      refine .head (.observe _ rfl) ?_
      refine GateStep.tasks ?ready ?readyWorld ?fourth ?_
      case fourth =>
        refine Runs.service (.ok ()) rfl ⟨⟨trivial, nofun⟩, rfl⟩ ?_
        refine Runs.get (Runs.set (Runs.get (Runs.set (Runs.get (Runs.set ?_)))))
        exact .refl
      exact .refl
  case program => rfl
  case started => decide

end Host
end DurableActors
