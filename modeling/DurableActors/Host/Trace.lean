import DurableActors.Host.Admission

/-!
# Runs of the actor task

A run is recorded as the list of the calls made so far with their answers, the
latest first.  The services may answer anything that their channels allow;
further restrictions are a parameter, so that a theorem can speak about the runs
that meet a condition.

Main results:

- Theorem {lit}`Reachable.invariant`: what every call of the loops keeps holds
  after every run.
-/

namespace DurableActors
namespace Host

open Effects

/-- A call with its answer. -/
abbrev Entry := (op : Op) × Ans op

/-- The state of a task and the calls it has made, the latest first. -/
structure World where
  task : Task := {}
  trace : List Entry := []

/-- The world after one more call. -/
def World.log (world : World) (entry : Entry) : World :=
  { world with trace := entry :: world.trace }

@[simp]
theorem World.log_task (world : World) (entry : Entry) : (world.log entry).task = world.task := rfl

@[simp]
theorem World.log_trace (world : World) (entry : Entry) :
    (world.log entry).trace = entry :: world.trace := rfl

/-! ## What the services may answer -/

/-- The request that an entry brings in. -/
def received : Entry → Option ActorRequest
  | ⟨.receive, some (request, _)⟩ => some request
  | ⟨.select, .request request _⟩ => request
  | _ => none

/-- No request with this reply channel has come in. -/
def Unused (ticket : Nat) (trace : List Entry) : Prop :=
  ∀ entry ∈ trace, ∀ request, received entry = some request → request.ticket ≠ ticket

theorem unused_iff {ticket : Nat} {trace : List Entry} :
    Unused ticket trace ↔ ticket ∉ (trace.filterMap received).map ActorRequest.ticket := by
  simp only [Unused, List.mem_map, List.mem_filterMap, not_exists, not_and]
  constructor
  · rintro h request ⟨entry, hentry, hreceived⟩
    exact h entry hentry request hreceived
  · intro h entry hentry request hreceived
    exact h request ⟨entry, hentry, hreceived⟩

/-- The guards of the loop's branches; an outcome belongs to a running execution. -/
def Guarded (world : World) : Entry → Prop
  | ⟨.select, .executed id request _⟩ => (id, request) ∈ world.task.running
  | ⟨.select, .permission _⟩ => world.task.blockedOn ≠ none
  | ⟨.select, .request _ _⟩ => world.task.isOpen ∧ world.task.blockedOn = none
  | ⟨.select, .idle⟩ =>
      world.task.running = [] ∧ world.task.blockedOn = none ∧ world.task.isOpen = false
  | _ => True

/-- What the channels allow: the guards hold, and every request has its own reply channel. -/
def Enabled (world : World) (entry : Entry) : Prop :=
  Guarded world entry ∧ ∀ request, received entry = some request →
    Unused request.ticket world.trace

/-- How a call is served: the task's own state is read and written, everything else is
answered by a service and recorded. -/
def serve (allowed : World → Entry → Prop) :
    (op : Op) → World → Ans op → World → Prop
  | .get, world, answer, world' => answer = world.task ∧ world' = world
  | .set task, world, _, world' => world' = { world with task := task }
  | op, world, answer, world' => allowed world ⟨op, answer⟩ ∧ world' = world.log ⟨op, answer⟩

/-- The worlds that a task can reach when every answer is an allowed one. -/
def Reachable (allowed : World → Entry → Prop) (hasAdmission : Bool) (world : World) : Prop :=
  ∃ fuel rest, Relation.ReflTransGen (Prog.Step (I := services) (serve allowed))
    (runActor hasAdmission fuel, {}) (rest, world)

/-! ## What the checks of a snapshot let through -/

private theorem validated_eq_ok {snapshot bytes : StateSnapshot}
    (h : (snapshot.validate >>= fun _ => pure snapshot) = Except.ok bytes) : bytes = snapshot := by
  cases hvalid : snapshot.validate with
  | error error => simp [hvalid, bind, Except.bind] at h
  | ok value =>
      simp only [hvalid, bind, Except.bind, pure, Except.pure, Except.ok.injEq] at h
      exact h.symm

theorem encode_eq_ok {snapshot bytes : StateSnapshot} (h : snapshot.encode = .ok bytes) :
    bytes = snapshot :=
  validated_eq_ok h

theorem decode_eq_ok {bytes snapshot : StateSnapshot} (h : bytes.decode = .ok snapshot) :
    snapshot = bytes :=
  validated_eq_ok h

theorem new_eq_ok {stateVersion ownerEpoch : Nat} {requestId : String} {state result : Value}
    {snapshot : StateSnapshot}
    (h : StateSnapshot.new stateVersion ownerEpoch requestId state result = .ok snapshot) :
    snapshot = { attribution := none, stateVersion, ownerEpoch, requestId, state, result } :=
  validated_eq_ok h

/-- What is loaded is a snapshot of the asked version; it has no commit in flight. -/
theorem fromLoaded_ok {ownerEpoch stateVersion : Nat} {loaded : Option StateSnapshot}
    {cached : CachedActorState}
    (h : CachedActorState.fromLoaded ownerEpoch stateVersion loaded = .ok cached) :
    ∃ bytes, loaded = some bytes ∧ bytes.stateVersion = stateVersion ∧
      bytes.ownerEpoch ≤ ownerEpoch ∧ cached = {
        ownerEpoch
        stateVersion
        state := some bytes.state
        lastRequestId := some bytes.requestId
        lastResult := some bytes.result
        nextWrite := none
        pending := none } := by
  unfold CachedActorState.fromLoaded at h
  cases loaded with
  | none => cases h
  | some bytes =>
    dsimp only at h
    cases hdecode : bytes.decode with
    | error error => simp [hdecode, bind, Except.bind] at h
    | ok snapshot =>
      obtain rfl := decode_eq_ok hdecode
      simp only [hdecode, bind, Except.bind] at h
      split at h
      · cases h
      · split at h
        · cases h
        · rename_i hversion hepoch
          cases h
          exact ⟨snapshot, rfl, not_not.mp hversion, not_not.mp hepoch, rfl⟩

/-! ## Building a run -/

/-- A run of a task's program. -/
abbrev Runs (allowed : World → Entry → Prop) :
    Run Unit × World → Run Unit × World → Prop :=
  Relation.ReflTransGen (Prog.Step (I := services) (serve allowed))

/-- Whether a call goes to a service. -/
def Op.isService : Op → Bool
  | .get | .set _ => false
  | _ => true

/-- A call to a service adds its entry to the run. -/
theorem serve_service {allowed : World → Entry → Prop} {world world' : World} {op : Op}
    (hop : op.isService) {answer : Ans op} :
    serve allowed op world answer world' ↔
      allowed world ⟨op, answer⟩ ∧ world' = world.log ⟨op, answer⟩ := by
  cases op <;> first | exact Iff.rfl | cases hop

theorem serve_mono {allowed allowed' : World → Entry → Prop}
    (h : ∀ world entry, allowed world entry → allowed' world entry) {op : Op}
    {world world' : World} {answer : Ans op} (hserve : serve allowed op world answer world') :
    serve allowed' op world answer world' := by
  by_cases hop : op.isService
  · obtain ⟨hallowed, rfl⟩ := (serve_service hop).mp hserve
    exact (serve_service hop).mpr ⟨h _ _ hallowed, rfl⟩
  · cases op <;> first | exact hserve | exact absurd rfl hop

theorem step_mono {allowed allowed' : World → Entry → Prop}
    (h : ∀ world entry, allowed world entry → allowed' world entry)
    {before after : Run Unit × World}
    (hstep : Prog.Step (I := services) (serve allowed) before after) :
    Prog.Step (I := services) (serve allowed') before after := by
  cases hstep with
  | call hserve => exact .call (serve_mono h hserve)

/-- The same for the entry that a step adds. -/
theorem step_strengthen {allowed allowed' : World → Entry → Prop} {before after : Run Unit × World}
    (hstep : Prog.Step (I := services) (serve allowed) before after)
    (h : ∀ entry, after.2 = before.2.log entry → allowed before.2 entry →
      allowed' before.2 entry) :
    Prog.Step (I := services) (serve allowed') before after := by
  cases hstep with
  | @call op next world world' answer hserve =>
      refine .call ?_
      by_cases hop : op.isService
      · obtain ⟨hallowed, hlog⟩ := (serve_service hop).mp hserve
        exact (serve_service hop).mpr ⟨h _ hlog hallowed, hlog⟩
      · cases op <;> first | exact hserve | exact absurd rfl hop

/-- A step of a task either adds an entry to the run or works on the task's own state. -/
theorem step_cases {allowed : World → Entry → Prop} {program program' : Run Unit}
    {world world' : World}
    (h : Prog.Step (I := services) (serve allowed) (program, world) (program', world')) :
    ∃ (op : Op) (next : Ans op → Run Unit), program = .call (I := services) op next ∧
      ((∃ answer, program' = next answer ∧ allowed world ⟨op, answer⟩ ∧
        world' = world.log ⟨op, answer⟩) ∨
        op.isService = false ∧ world'.trace = world.trace) := by
  generalize hstart : (program, world) = start at h
  generalize hend : (program', world') = last at h
  cases h with
  | @call op next _ _ answer hserve =>
      obtain ⟨rfl, rfl⟩ := Prod.mk.inj hstart
      obtain ⟨rfl, rfl⟩ := Prod.mk.inj hend
      refine ⟨op, next, rfl, ?_⟩
      by_cases hop : op.isService
      · obtain ⟨hallowed, hlog⟩ := (serve_service hop).mp hserve
        exact .inl ⟨answer, rfl, hallowed, hlog⟩
      · refine .inr ⟨by simpa using hop, ?_⟩
        cases op with
        | get => exact congrArg World.trace hserve.2
        | set task =>
            have hset : world' = { world with task := task } := hserve
            rw [hset]
        | _ => exact absurd rfl hop

namespace Runs

variable {allowed : World → Entry → Prop} {world : World} {last : Run Unit × World}

/-- A run goes on with an answer of a service. -/
theorem service {op : Op} {next : Ans op → Run Unit} (answer : Ans op) (hop : op.isService)
    (hallowed : allowed world ⟨op, answer⟩)
    (h : Runs allowed (next answer, world.log ⟨op, answer⟩) last) :
    Runs allowed (Prog.call (I := services) op next, world) last :=
  .head (.call ((serve_service hop).mpr ⟨hallowed, rfl⟩)) h

/-- A run goes on after reading the task's state. -/
theorem get {next : Task → Run Unit} (h : Runs allowed (next world.task, world) last) :
    Runs allowed (Prog.call (I := services) .get next, world) last :=
  .head (.call (I := services) (show serve allowed .get world world.task world from ⟨rfl, rfl⟩)) h

/-- A run goes on after writing the task's state. -/
theorem set {task : Task} {next : Unit → Run Unit}
    (h : Runs allowed (next (), { world with task := task }) last) :
    Runs allowed (Prog.call (I := services) (.set task) next, world) last :=
  .head (.call (I := services)
    (show serve allowed (.set task) world () { world with task := task } from rfl)) h

end Runs

/-- The actor of the runs that are built below. -/
def counter : ActorKey := ⟨"project", "Counter", "1"⟩

/-- The call of these runs; its retry has the same request ID. -/
def increment (ticket : Nat) : ActorRequest where
  ticket := ticket
  operation := .method
    { requestId := "request", actor := counter, method := "increment", args := [] }
  ownerEpoch := 1

/-- The state after the call. -/
def incremented : Value := .object [("count", "1")]

/-- The plan to write the first version. -/
def firstPlan : WritePlan where
  stream := ⟨⟨"host", "session"⟩, ⟨counter, 1⟩, 1, 0⟩
  stateVersion := 1
  objectName := ⟨⟨counter, 1⟩, 1⟩
  expiresAtMs := 60000
  replication := none

/-! ## Reasoning about a task -/

/-- A task runs alone, and each of its calls keeps the invariant. -/
def keeping (allowed : World → Entry → Prop) (inv : World → Prop) : Protocol services World where
  perform := serve allowed
  rely := Eq
  guarantee world world' := inv world → inv world'

variable {allowed : World → Entry → Prop} {inv : World → Prop} {α β : Type}
variable {world : World}

/-- What every call of the loops keeps holds after every run. -/
theorem Reachable.invariant {hasAdmission : Bool} (inv : World → Prop)
    (h : Reachable allowed hasAdmission world)
    (hloop : ∀ fuel, (runActor hasAdmission fuel).Meets (keeping allowed inv)
      (fun _ _ => True) {})
    (hinit : inv {}) : inv world := by
  obtain ⟨fuel, rest, hrun⟩ := h
  exact (Prog.Meets.run (P := keeping allowed inv) (fun _ => rfl)
    (fun _ _ ha hab => hab ha) (hloop fuel) hinit hrun).2

/-- The rule for a call to a service. -/
theorem meets_service {op : Op} (hop : op.isService) {next : Ans op → Run α}
    {post : Except Error α → World → Prop} :
    (Prog.call (I := services) op next).Meets (keeping allowed inv) post world ↔
      ∀ answer, allowed world ⟨op, answer⟩ →
        (inv world → inv (world.log ⟨op, answer⟩)) ∧
          (next answer).Meets (keeping allowed inv) post (world.log ⟨op, answer⟩) := by
  constructor
  · intro h answer hallowed
    exact h world rfl answer _ ((serve_service hop).mpr ⟨hallowed, rfl⟩)
  · rintro h _ rfl answer world' hserve
    obtain ⟨hallowed, rfl⟩ := (serve_service hop).mp hserve
    exact h answer hallowed

/-- The rule for reading the task's state. -/
@[simp]
theorem meets_getTask {post : Except Error Task → World → Prop} :
    getTask.Meets (keeping allowed inv) post world ↔ post (.ok world.task) world := by
  constructor
  · intro h
    exact (h world rfl world.task world ⟨rfl, rfl⟩).2
  · rintro h _ rfl _ _ ⟨rfl, rfl⟩
    exact ⟨id, h⟩

/-- The rule for writing the task's state. -/
@[simp]
theorem meets_setTask {task : Task} {post : Except Error Unit → World → Prop} :
    (setTask task).Meets (keeping allowed inv) post world ↔
      (inv world → inv { world with task := task }) ∧
        post (.ok ()) { world with task := task } := by
  constructor
  · intro h
    exact h world rfl () _ rfl
  · rintro h _ rfl _ _ rfl
    exact h

/-- The rule for changing the task's state. -/
@[simp]
theorem meets_modifyTask {change : Task → Task} {post : Except Error Unit → World → Prop} :
    (modifyTask change).Meets (keeping allowed inv) post world ↔
      (inv world → inv { world with task := change world.task }) ∧
        post (.ok ()) { world with task := change world.task } := by
  constructor
  · intro h
    exact (h world rfl world.task world ⟨rfl, rfl⟩).2 world rfl () _ rfl
  · rintro h _ rfl _ _ ⟨rfl, rfl⟩
    refine ⟨id, ?_⟩
    rintro _ rfl _ _ rfl
    exact h

end Host
end DurableActors
