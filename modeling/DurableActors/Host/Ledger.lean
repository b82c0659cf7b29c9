import DurableActors.Host.Discipline

/-!
# The ledger of an actor

What the storage answered in a run determines the version, the state and the result
that the task has committed last, and the snapshot whose write has no known outcome.
That is the ledger of the run.  The task's cached state is the ledger of its run as
long as no request of another owner epoch makes the task drop it.

This module has the ledger, what a run owes to it, and what each function of the
runtime does to it.

Main results:

- Theorem {lit}`prepareInvocation_booked`: an invocation is prepared on the committed state,
  or answered from the ledger.
- Theorem {lit}`publishResult_booked`: a result is written as the next version.
-/

namespace DurableActors
namespace Host

open Effects

/-! ## Ledgers -/

/-- What a run has committed last, and the snapshot whose write has no known outcome. -/
structure Ledger where
  ownerEpoch : Nat
  stateVersion : Nat
  state : Option Value
  last : Option (String × Value)
  pending : Option StateSnapshot
deriving DecidableEq

/-- The ledger after a snapshot became durable. -/
def Ledger.commit (ledger : Ledger) (bytes : StateSnapshot) : Ledger :=
  { ledger with
    stateVersion := bytes.stateVersion
    state := some bytes.state
    last := some (bytes.requestId, bytes.result)
    pending := none }

/-- What a cached state says about the last commit. -/
def CachedActorState.base (cached : CachedActorState) : Ledger where
  ownerEpoch := cached.ownerEpoch
  stateVersion := cached.stateVersion
  state := cached.state
  last := cached.lastRequestId.bind fun requestId => cached.lastResult.map (Prod.mk requestId)
  pending := none

/-- The ledger that a cached state stands for. -/
def CachedActorState.ledger (cached : CachedActorState) : Ledger :=
  match cached.pending with
  | none => cached.base
  | some pending =>
      if pending.durable then cached.base.commit pending.snapshot
      else { cached.base with pending := some pending.snapshot }

theorem CachedActorState.ledger_eq_base {cached : CachedActorState} (h : cached.pending = none) :
    cached.ledger = cached.base := by
  simp [ledger, h]

theorem CachedActorState.ledger_of_durable {cached : CachedActorState} {pending : PendingStateCommit}
    (h : cached.pending = some pending) (hdurable : pending.durable = true) :
    cached.ledger = cached.base.commit pending.snapshot := by
  simp [ledger, h, hdurable]

theorem CachedActorState.ledger_of_pending {cached : CachedActorState} {pending : PendingStateCommit}
    (h : cached.pending = some pending) (hdurable : pending.durable = false) :
    cached.ledger = { cached.base with pending := some pending.snapshot } := by
  simp [ledger, h, hdurable]

/-- The last commit in the ledger is the one that a request is answered from. -/
theorem CachedActorState.replay_eq_some {cached : CachedActorState} {requestId : String}
    {result : Value} :
    cached.replay requestId = some result ↔ cached.base.last = some (requestId, result) := by
  unfold replay base
  cases cached.lastRequestId with
  | none => simp
  | some lastRequestId =>
      by_cases heq : lastRequestId = requestId
      · simp [heq]
      · simp [heq]

/-- The state that the task makes of a load. -/
def readLoaded (ownerEpoch stateVersion : Nat) (loaded : Option StateSnapshot) :
    Option CachedActorState :=
  if stateVersion = 0 then if loaded = none then some (CachedActorState.new ownerEpoch) else none
  else (CachedActorState.fromLoaded ownerEpoch stateVersion loaded).toOption

/-- The state that the task makes of an activation. -/
def readActivation (activation : ActorActivation) : Option CachedActorState :=
  if activation.stateVersion = 0 then some (CachedActorState.new activation.ownerEpoch)
  else activation.state.bind fun bytes =>
    (CachedActorState.fromLoaded activation.ownerEpoch activation.stateVersion
      (some bytes)).toOption

/-- The ledger after a call. -/
def Ledger.record : Option Ledger → Entry → Option Ledger
  | none, ⟨.loadActorState _ ownerEpoch, .ok (stateVersion, loaded)⟩ =>
      (readLoaded ownerEpoch stateVersion loaded).map CachedActorState.ledger
  | none, ⟨.acquireActor _, .ok activation⟩ =>
      (readActivation activation).map CachedActorState.ledger
  | some ledger, ⟨.writeSnapshot _ bytes, .ok _⟩ => some (ledger.commit bytes)
  | some ledger, ⟨.writeSnapshot _ bytes, .error _⟩ => some { ledger with pending := some bytes }
  | ledger, _ => ledger

/-- The ledger of a run. -/
def ledgerOf : List Entry → Option Ledger
  | [] => none
  | entry :: trace => Ledger.record (ledgerOf trace) entry

/-- Whether the storage's answer to a call concerns the ledger. -/
def isRecorded : Op → Bool
  | .loadActorState _ _ | .acquireActor _ | .writeSnapshot _ _ => true
  | _ => false

theorem Ledger.record_eq {ledger : Option Ledger} {op : Op} (h : isRecorded op = false)
    (answer : Ans op) : Ledger.record ledger ⟨op, answer⟩ = ledger := by
  cases op <;> first | (cases h; done) | (cases ledger <;> rfl)

/-- The ledger holds the result of a request, or the snapshot whose outcome is unknown does. -/
def Recorded (requestId : String) (result : Value) (ledger : Option Ledger) : Prop :=
  ∃ l, ledger = some l ∧
    ((∃ bytes, l.pending = some bytes ∧ bytes.requestId = requestId ∧ bytes.result = result) ∨
      l.pending = none ∧ l.last = some (requestId, result))

/-! ## What a run owes to its ledger -/

/-- The run before a request came in. -/
def takenAt (request : ActorRequest) : List Entry → Option (List Entry)
  | [] => none
  | entry :: trace => if received entry = some request then some trace else takenAt request trace

/-- The request that an entry hands to the actor's code, with the state it runs on. -/
def executes : Entry → Option (ActorRequest × Option Value)
  | ⟨.start _ request state, _⟩ => some (request, state)
  | ⟨.invoke request state, _⟩ => some (request, state)
  | ⟨.handleSocket request state, _⟩ => some (request, state)
  | _ => none

/-- The requests that a run has handed to the actor's code. -/
def executedRequests (trace : List Entry) : List ActorRequest :=
  trace.filterMap fun entry => (executes entry).map Prod.fst

/-- The request whose result an entry reports, with the result. -/
def reports : Entry → Option (ActorRequest × Value)
  | ⟨.answer request (.ok (.completed result _)), _⟩ => some (request, result)
  | _ => none

/-- A write is the next version, or the snapshot whose outcome is unknown once more. -/
def WritesNext (ledger : Option Ledger) (bytes : StateSnapshot) : Prop :=
  ∃ l, ledger = some l ∧ (l.pending = some bytes ∨
    l.pending = none ∧ bytes.stateVersion = l.stateVersion + 1 ∧ bytes.ownerEpoch = l.ownerEpoch)

/-- The actor's code runs on the committed state when no outcome is unknown. -/
def RunsOn (ledger : Option Ledger) (state : Option Value) : Prop :=
  ∃ l, ledger = some l ∧ l.pending = none ∧ l.state = state

/-- A method that is executed has been taken when its result was not in the ledger. -/
def Executable (trace : List Entry) (request : ActorRequest) : Prop :=
  request.operation.isMethod = true → ∃ earlier, takenAt request trace = some earlier ∧
    ∀ result, ¬ Recorded request.operation.invocation.requestId result (ledgerOf earlier)

/-- A method that is answered without being executed has been taken; a result that was in the ledger
then is the answer. -/
def Answerable (trace : List Entry) (request : ActorRequest) (value : Value) : Prop :=
  request.operation.isMethod = true → request ∉ executedRequests trace →
    ∃ earlier, takenAt request trace = some earlier ∧
      ∀ result, Recorded request.operation.invocation.requestId result (ledgerOf earlier) →
        value = result

/-- What the task owes to the ledger when it makes a call. -/
structure Faithful (trace : List Entry) (entry : Entry) : Prop where
  writes : ∀ ticket bytes answer, entry = ⟨.writeSnapshot ticket bytes, answer⟩ →
    WritesNext (ledgerOf trace) bytes
  runs : ∀ request state, executes entry = some (request, state) → RunsOn (ledgerOf trace) state
  fresh : ∀ request state, executes entry = some (request, state) → Executable trace request
  replays : ∀ request result, reports entry = some (request, result) →
    Answerable trace request result

/-- Every call so far was faithful to the ledger. -/
def LedgerKept : List Entry → Prop
  | [] => True
  | entry :: trace => LedgerKept trace ∧ Faithful trace entry

/-- Whether a call neither writes nor runs the actor's code nor answers. -/
def isIndifferent : Op → Bool
  | .writeSnapshot _ _ | .start _ _ _ | .invoke _ _ | .handleSocket _ _ | .answer _ _ => false
  | _ => true

theorem faithful_of_indifferent {trace : List Entry} {op : Op} (h : isIndifferent op)
    (answer : Ans op) : Faithful trace ⟨op, answer⟩ := by
  constructor
  · rintro ticket bytes answer ⟨⟩
    cases h
  · intro request state hexecutes
    cases op <;> first | (cases h; done) | cases hexecutes
  · intro request state hexecutes
    cases op <;> first | (cases h; done) | cases hexecutes
  · intro request result hreports
    cases op <;> first | (cases h; done) | cases hreports

/-! ## Runs of one host session -/

/-- The storage gives state to the session's own owner epoch only. -/
def InSession (epoch : Nat) : Entry → Prop
  | ⟨.loadActorState _ ownerEpoch, .ok _⟩ => ownerEpoch = epoch
  | ⟨.acquireActor _, .ok activation⟩ => activation.ownerEpoch = epoch
  | _ => True

/-- What the channels and the storage allow in one host session. -/
def OneSession (epoch : Nat) (world : World) (entry : Entry) : Prop :=
  Enabled world entry ∧ InSession epoch entry

/-- The serial loop takes no invocation of another owner epoch than that of the state it has. -/
def SameEpoch (world : World) : Entry → Prop
  | ⟨.receive, some (request, _)⟩ => request.operation.isActivate = false →
      ∀ cached, world.task.cachedState = some cached → request.ownerEpoch = cached.ownerEpoch
  | _ => True

/-- What may happen in one host session in which no state is dropped. -/
def Regular (epoch : Nat) (world : World) (entry : Entry) : Prop :=
  OneSession epoch world entry ∧ SameEpoch world entry

/-- The protocol under which every call is faithful to the ledger. -/
abbrev booked (epoch : Nat) : Protocol services World :=
  keeping (Regular epoch) fun world => LedgerKept world.trace

/-- A cached state of the session's epoch; the state of a pending commit is that of its
snapshot. -/
structure Formed (epoch : Nat) (cached : CachedActorState) : Prop where
  ownerEpoch : cached.ownerEpoch = epoch
  pending : ∀ pending, cached.pending = some pending → pending.state = pending.snapshot.state

/-- A cached state that the task has in hand is the ledger of the run. -/
structure InHand (epoch : Nat) (cached : CachedActorState) (world : World) : Prop where
  ledger : ledgerOf world.trace = some cached.ledger
  formed : Formed epoch cached

/-- The cached state that the task keeps is the ledger of the run. -/
structure Books (epoch : Nat) (world : World) : Prop where
  ledger : ledgerOf world.trace = world.task.cachedState.map CachedActorState.ledger
  formed : ∀ cached, world.task.cachedState = some cached → Formed epoch cached

/-- The ledger when the snapshot whose outcome is unknown is taken as written. -/
def Ledger.settled (ledger : Ledger) : Ledger := (ledger.pending.map ledger.commit).getD ledger

section

variable {epoch : Nat} {world : World} {α : Type}

/-- The rule for a call that the ledger says nothing about. -/
theorem meets_indifferent {op : Op} (hop : op.isService) (hindifferent : isIndifferent op)
    {next : Ans op → Run α} {post : Except Error α → World → Prop}
    (h : ∀ answer, Regular epoch world ⟨op, answer⟩ →
      (next answer).Meets (booked epoch) post (world.log ⟨op, answer⟩)) :
    (Prog.call (I := services) op next).Meets (booked epoch) post world :=
  (meets_service hop).mpr fun answer hallowed =>
    ⟨fun htrace => ⟨htrace, faithful_of_indifferent hindifferent answer⟩, h answer hallowed⟩

/-- Nothing has happened to the task and the ledger. -/
structure Idle (start world : World) : Prop where
  task_eq : world.task = start.task
  ledger_eq : ledgerOf world.trace = ledgerOf start.trace

/-- The calls that do not concern the ledger. -/
def Idles (op : Op) : Prop := op.isService ∧ isIndifferent op ∧ isRecorded op = false

/-- The rule for a program that makes only such calls. -/
theorem idle_booked {footprint : Op → Prop} {p : Run α} {post : α → Prop}
    (h : p.Within footprint post) (hidles : ∀ op, footprint op → Idles op) :
    p.Meets (booked epoch) (Prog.always (Idle world) fun value _ => post value) world := by
  refine Prog.Within.meets_always h ?_ ?_ ⟨rfl, rfl⟩
  · rintro w _ hw rfl
    exact hw
  intro op w answer w' hop hw hserve
  obtain ⟨hservice, hindifferent, hrecorded⟩ := hidles op hop
  replace hserve : serve (Regular epoch) op w answer w' := hserve
  obtain ⟨-, rfl⟩ := (serve_service hservice).mp hserve
  refine ⟨fun htrace => ⟨htrace, faithful_of_indifferent hindifferent answer⟩, hw.task_eq, ?_⟩
  rw [World.log_trace, ledgerOf, Ledger.record_eq hrecorded, hw.ledger_eq]

theorem ensureAuthority_booked :
    ensureAuthority.Meets (booked epoch) (fun _ w => Idle world w) world := by
  have hwithin : ensureAuthority.Within (fun op => op = Op.ensureAuthority) fun _ => True :=
    ⟨rfl, fun _ => Prog.within_lift.mono (fun _ hop => hop) fun _ _ => trivial⟩
  refine (idle_booked hwithin ?_).mono fun _ _ hr => hr.1
  rintro _ rfl
  exact ⟨rfl, rfl, rfl⟩

/-- With a ledger in hand even a takeover changes nothing. -/
theorem pausing_booked {p : Run α} {post : α → Prop} {l : Ledger}
    (hledger : ledgerOf world.trace = some l) (h : p.Within Pauses post) :
    p.Meets (booked epoch) (fun _ w => Idle world w) world := by
  have halways : p.Meets (booked epoch) (Prog.always (Idle world) fun value _ => post value)
      world := by
    refine Prog.Within.meets_always h ?_ ?_ ⟨rfl, rfl⟩
    · rintro w _ hw rfl
      exact hw
    intro op w answer w' hop hw hserve
    have hservice : op.isService ∧ isIndifferent op := by
      cases op <;> first | exact ⟨rfl, rfl⟩ | cases hop
    replace hserve : serve (Regular epoch) op w answer w' := hserve
    obtain ⟨-, rfl⟩ := (serve_service hservice.1).mp hserve
    refine ⟨fun htrace => ⟨htrace, faithful_of_indifferent hservice.2 answer⟩, hw.task_eq, ?_⟩
    rw [World.log_trace, ledgerOf, hw.ledger_eq, hledger]
    cases op <;> first | rfl | cases hop
  exact halways.mono fun _ _ hr => hr.1

theorem idles_of_commitCalls {op : Op} (h : CommitCalls (fun _ => False) op) : Idles op := by
  obtain rfl | ⟨_, _, _, rfl⟩ | ⟨_, _, -, hfalse⟩ := h.cases
  · exact ⟨rfl, rfl, rfl⟩
  · exact ⟨rfl, rfl, rfl⟩
  · exact hfalse.elim

theorem InHand.idle {cached : CachedActorState} (h : InHand epoch cached world) {w : World}
    (hidle : Idle world w) : InHand epoch cached w :=
  ⟨hidle.ledger_eq.trans h.ledger, h.formed⟩

theorem Books.inHand (h : Books epoch world) {cached : CachedActorState}
    (hcached : world.task.cachedState = some cached) : InHand epoch cached world :=
  ⟨by rw [h.ledger, hcached, Option.map_some], h.formed cached hcached⟩

theorem InHand.put {cached : CachedActorState} (h : InHand epoch cached world) {task : Task}
    (htask : task.cachedState = some cached) : Books epoch { world with task := task } := by
  refine ⟨by rw [htask]; exact h.ledger, ?_⟩
  intro other hother
  rw [show task.cachedState = some other from hother] at htask
  cases htask
  exact h.formed

theorem Books.idle (h : Books epoch world) {w : World} (hidle : Idle world w) : Books epoch w := by
  obtain ⟨hledger, hformed⟩ := h
  rw [← hidle.task_eq] at hledger hformed
  exact ⟨hidle.ledger_eq.trans hledger, hformed⟩

/-! ## Commits -/

/-- The write of a snapshot, and what it does to the ledger. -/
theorem writeSnapshot_booked {ticket : WritePlan} {bytes : StateSnapshot} {l : Ledger}
    (hledger : ledgerOf world.trace = some l) (hwrites : WritesNext (some l) bytes) :
    (writeSnapshot ticket bytes).Meets (booked epoch) (fun r w => w.task = world.task ∧
      ledgerOf w.trace = some (match r with
        | .ok _ => l.commit bytes
        | .error _ => { l with pending := some bytes })) world := by
  refine (meets_service rfl).mpr fun answer _ => ⟨fun htrace => ⟨htrace, ?_⟩, ?_⟩
  · constructor
    · rintro _ _ _ ⟨⟩
      rw [hledger]
      exact hwrites
    · nofun
    · nofun
    · nofun
  · refine Prog.meets_lift.mpr ⟨rfl, ?_⟩
    rw [World.log_trace, ledgerOf, hledger]
    cases answer <;> rfl

/-- The ledger does not depend on the ticket of a pending commit. -/
theorem InHand.setPending {cached : CachedActorState} {pending pending' : PendingStateCommit}
    {w : World} (h : InHand epoch cached world) (hpending : cached.pending = some pending)
    (hsnapshot : pending'.snapshot = pending.snapshot) (hstate : pending'.state = pending.state)
    (hledger : ledgerOf w.trace = some (if pending'.durable then
        cached.base.commit pending.snapshot
      else { cached.base with pending := some pending.snapshot })) :
    InHand epoch { cached with pending := some pending' } w where
  ledger := by
    rw [hledger, ← hsnapshot]
    rfl
  formed := by
    refine ⟨h.formed.ownerEpoch, ?_⟩
    rintro _ ⟨⟩
    rw [hsnapshot, hstate]
    exact h.formed.pending pending hpending

/-- Making the pending commit durable. -/
theorem writePending_booked {cached : CachedActorState} {pending : PendingStateCommit}
    (hledger : ledgerOf world.trace = some cached.ledger) (hpending : cached.pending = some pending)
    (ticket : WritePlan) :
    (writePending { pending with ticket := ticket }).Meets (booked epoch) (fun r w =>
      w.task = world.task ∧ ledgerOf w.trace = some (match r with
        | .ok _ => cached.base.commit pending.snapshot
        | .error _ => if pending.durable then cached.base.commit pending.snapshot
          else { cached.base with pending := some pending.snapshot })) world := by
  unfold writePending
  dsimp only
  split
  · rename_i hdurable
    rw [CachedActorState.ledger_of_durable hpending hdurable] at hledger
    exact ⟨rfl, hledger⟩
  · rename_i hdurable
    have hdurable : pending.durable = false := by simpa using hdurable
    rw [CachedActorState.ledger_of_pending hpending hdurable] at hledger
    refine Prog.Meets.bind (Prog.meets_lift.mpr ?_)
    cases hencode : pending.snapshot.encode with
    | error error => exact ⟨rfl, hledger⟩
    | ok bytes =>
        obtain rfl := encode_eq_ok hencode
        have hwrites : WritesNext (some { cached.base with pending := some pending.snapshot })
            pending.snapshot := ⟨_, rfl, .inl rfl⟩
        refine Prog.Meets.bind ((writeSnapshot_booked hledger hwrites).mono fun r w hr => ?_)
        cases r with
        | error error => exact hr
        | ok write => exact hr

/-- Finishing a pending commit keeps the ledger in hand; when it succeeds the ledger is settled. -/
theorem finishPendingCommit_booked {invocation : ActorInvocation} {cached : CachedActorState}
    (h : InHand epoch cached world) :
    (finishPendingCommit invocation cached).Meets (booked epoch) (Prog.onOk fun outcome w =>
      InHand epoch outcome.2 w ∧ w.task = world.task ∧
        (outcome.1 = .ok () →
          outcome.2.pending = none ∧ outcome.2.ledger = cached.ledger.settled) ∧
        (cached.pending = none → outcome.2.pending = none)) world := by
  unfold finishPendingCommit
  cases hpending : cached.pending with
  | none =>
      refine ⟨h, rfl, fun _ => ⟨hpending, ?_⟩, fun _ => hpending⟩
      rw [CachedActorState.ledger_eq_base hpending]
      rfl
  | some pending =>
      refine Prog.Meets.bind (Prog.Meets.attempt ((idle_booked pendingTicket_within
        fun _ => idles_of_commitCalls).mono fun renewed w hidle => ?_))
      have hw := h.idle hidle.1
      cases renewed with
      | error error => exact ⟨hw, hidle.1.task_eq, nofun, nofun⟩
      | ok ticket =>
          refine Prog.Meets.bind (Prog.Meets.attempt ((writePending_booked hw.ledger hpending
            ticket).mono fun written w₁ hwritten => ?_))
          obtain ⟨htask, hledger⟩ := hwritten
          have htask' := htask.trans hidle.1.task_eq
          cases written with
          | error error => exact ⟨h.setPending hpending rfl rfl hledger, htask', nofun, nofun⟩
          | ok _ =>
              dsimp only
              split
              · refine ⟨⟨?_, h.formed.ownerEpoch, nofun⟩, htask', fun _ => ⟨rfl, ?_⟩, nofun⟩
                · rw [hledger, CachedActorState.ledger_eq_base rfl]
                  simp [CachedActorState.base, CachedActorState.committed, Ledger.commit,
                    h.formed.pending pending hpending]
                · rw [CachedActorState.ledger_eq_base rfl]
                  have hstate := h.formed.pending pending hpending
                  cases hdurable : pending.durable with
                  | true =>
                      rw [CachedActorState.ledger_of_durable hpending hdurable]
                      simp [CachedActorState.base, CachedActorState.committed, Ledger.commit,
                        Ledger.settled, hstate]
                  | false =>
                      rw [CachedActorState.ledger_of_pending hpending hdurable]
                      simp [CachedActorState.base, CachedActorState.committed, Ledger.commit,
                        Ledger.settled, hstate]
              · exact ⟨h.setPending hpending rfl rfl hledger, htask', nofun, nofun⟩

/-- Publishing a result writes the next version and keeps the ledger in hand. -/
theorem publishResult_booked {invocation : ActorInvocation} {ownerEpoch : Nat}
    {cached : CachedActorState} {result nextState : Value} {origin : CommitOrigin}
    (h : InHand epoch cached world) (hpending : cached.pending = none)
    (hepoch : ownerEpoch = epoch) :
    (publishResult invocation ownerEpoch cached result nextState origin).Meets (booked epoch)
      (Prog.onOk fun outcome w => InHand epoch outcome.2 w ∧ w.task = world.task ∧
        (∀ published, outcome.1 = .ok published → outcome.2.pending = none)) world := by
  have hbase := h.ledger
  rw [CachedActorState.ledger_eq_base hpending] at hbase
  unfold publishResult
  dsimp only
  split
  · exact ⟨h, rfl, nofun⟩
  · refine Prog.Meets.bind (Prog.Meets.attempt ((idle_booked newPending_within
      fun _ => idles_of_commitCalls).mono fun prepared w hidle => ?_))
    obtain ⟨hidle, hprepared⟩ := hidle
    have hledger := hidle.ledger_eq.trans hbase
    cases prepared with
    | error error =>
        refine ⟨⟨?_, h.formed.ownerEpoch, ?_⟩, hidle.task_eq, nofun⟩
        · rw [hledger, CachedActorState.ledger_eq_base (by exact hpending)]
          rfl
        · exact h.formed.pending
    | ok pending =>
        replace hprepared : IsCommitOf invocation ownerEpoch (cached.stateVersion + 1) result
          nextState origin.interleaved pending := hprepared
        have hwrites : WritesNext (some cached.base) pending.snapshot := by
          refine ⟨_, rfl, .inr ⟨rfl, hprepared.stateVersion_eq, ?_⟩⟩
          exact hprepared.ownerEpoch_eq.trans (hepoch.trans h.formed.ownerEpoch.symm)
        have hformed : ∀ durable, Formed epoch { cached with
            nextWrite := none, pending := some { pending with durable } } := by
          refine fun durable => ⟨h.formed.ownerEpoch, ?_⟩
          rintro _ ⟨⟩
          exact hprepared.state_eq.trans hprepared.snapshotState_eq.symm
        refine Prog.Meets.bind (Prog.Meets.attempt ((writeSnapshot_booked hledger hwrites).mono
          fun written w₁ hwritten => ?_))
        obtain ⟨htask, hledger₁⟩ := hwritten
        cases written with
        | error error =>
            refine ⟨⟨?_, hformed pending.durable⟩, htask.trans hidle.task_eq, nofun⟩
            rw [hledger₁, CachedActorState.ledger_of_pending rfl hprepared.not_durable]
            rfl
        | ok _ =>
            have hdurable : InHand epoch { cached with
                nextWrite := none, pending := some { pending with durable := true } } w₁ := by
              refine ⟨?_, hformed true⟩
              rw [hledger₁, CachedActorState.ledger_of_durable rfl rfl]
              rfl
            refine (finishPendingCommit_total _).seq (finishPendingCommit_booked hdurable)
              fun outcome w₂ houtcome => ?_
            obtain ⟨finished, cached'⟩ := outcome
            obtain ⟨hhand, htask₂, hnone, -⟩ := houtcome
            refine ⟨hhand, htask₂.trans (htask.trans hidle.task_eq), ?_⟩
            intro published hpublished
            cases finished with
            | error error => cases hpublished
            | ok _ => exact (hnone rfl).1

/-! ## Preparing an invocation -/

theorem fromLoaded_formed {ownerEpoch stateVersion : Nat} {loaded : Option StateSnapshot}
    {cached : CachedActorState}
    (h : CachedActorState.fromLoaded ownerEpoch stateVersion loaded = .ok cached) :
    Formed ownerEpoch cached ∧ cached.pending = none := by
  unfold CachedActorState.fromLoaded at h
  cases loaded with
  | none => cases h
  | some bytes =>
      dsimp only at h
      cases hdecode : bytes.decode with
      | error error => simp [hdecode, bind, Except.bind] at h
      | ok snapshot =>
          simp only [hdecode, bind, Except.bind] at h
          split at h
          · cases h
          · split at h
            · cases h
            · cases h
              exact ⟨⟨rfl, nofun⟩, rfl⟩

theorem formed_new (ownerEpoch : Nat) : Formed ownerEpoch (CachedActorState.new ownerEpoch) :=
  ⟨rfl, nofun⟩

/-- The state is the one that the task has, or a load of the session's own epoch. -/
theorem takeOrLoadState_booked {actor : ActorKey} {ownerEpoch : Nat} (h : Books epoch world) :
    (takeOrLoadState actor ownerEpoch).Meets (booked epoch) (fun r w => match r with
      | .ok cached => InHand epoch cached w ∧ cached.ownerEpoch = ownerEpoch ∧
          ∀ cached', world.task.cachedState = some cached' → cached = cached'
      | .error _ =>
          (∀ cached, world.task.cachedState = some cached → cached.ownerEpoch = ownerEpoch) →
            Books epoch w) world := by
  refine Prog.Meets.bind (meets_getTask.mpr (Prog.Meets.bind (meets_setTask.mpr
    ⟨fun htrace => htrace, ?_⟩)))
  dsimp only
  cases hfilter : world.task.cachedState.filter fun cached => cached.ownerEpoch = ownerEpoch with
  | some cached =>
      obtain ⟨hcached, hepoch⟩ := Option.filter_eq_some_iff.mp hfilter
      have hhand := h.inHand hcached
      refine ⟨⟨hhand.ledger, hhand.formed⟩, by simpa using hepoch, fun cached' hcached' => ?_⟩
      exact Option.some.inj (hcached.symm.trans hcached')
  | none =>
      -- With the same epoch there was no state to drop.
      have hnone : (∀ cached, world.task.cachedState = some cached →
          cached.ownerEpoch = ownerEpoch) → world.task.cachedState = none := by
        intro hsame
        cases hcached : world.task.cachedState with
        | none => rfl
        | some cached => simp [hcached, hsame cached hcached] at hfilter
      have hempty : ∀ w : World, ledgerOf w.trace = ledgerOf world.trace → w.task.cachedState = none →
          (∀ cached, world.task.cachedState = some cached → cached.ownerEpoch = ownerEpoch) →
            Books epoch w := by
        intro w hledger htask hsame
        refine ⟨?_, fun cached hcached => absurd hcached (by simp [htask])⟩
        rw [hledger, h.ledger, hnone hsame, htask]
      refine Prog.Meets.bind (meets_indifferent rfl rfl fun answer hallowed =>
        Prog.meets_lift.mpr ?_)
      cases answer with
      | error error =>
          refine hempty _ ?_ rfl
          show Ledger.record (ledgerOf world.trace) _ = _
          cases ledgerOf world.trace <;> rfl
      | ok loaded =>
          obtain ⟨stateVersion, loaded⟩ := loaded
          have hepoch : ownerEpoch = epoch := hallowed.1.2
          have hdropped : world.task.cachedState = none := by
            refine hnone fun cached hcached => ?_
            exact (h.formed cached hcached).ownerEpoch.trans hepoch.symm
          have hstart : ledgerOf world.trace = none := by rw [h.ledger, hdropped, Option.map_none]
          have hrecord : ∀ w : World, w.trace = ⟨.loadActorState actor ownerEpoch,
              .ok (stateVersion, loaded)⟩ :: world.trace → ledgerOf w.trace =
                (readLoaded ownerEpoch stateVersion loaded).map CachedActorState.ledger := by
            intro w hw
            rw [hw, ledgerOf, hstart]
            rfl
          have hfailed : ∀ w : World, w.trace = ⟨.loadActorState actor ownerEpoch,
              .ok (stateVersion, loaded)⟩ :: world.trace →
              readLoaded ownerEpoch stateVersion loaded = none → w.task.cachedState = none →
                Books epoch w := by
            intro w hw hread htask
            refine ⟨?_, fun cached hcached => absurd hcached (by simp [htask])⟩
            rw [hrecord w hw, hread, htask]
          dsimp only
          split
          · rename_i hzero
            refine Prog.Meets.bind (Prog.meets_ensure.mpr ⟨fun hloaded => ?_, fun hloaded => ?_⟩)
            · refine ⟨⟨?_, hepoch ▸ formed_new ownerEpoch⟩, rfl, by simp [hdropped]⟩
              rw [hrecord _ rfl]
              simp [readLoaded, hzero, hloaded]
            · exact fun _ => hfailed _ rfl (by simp [readLoaded, hzero, hloaded]) rfl
          · rename_i hpositive
            refine Prog.meets_lift.mpr ?_
            cases hread : CachedActorState.fromLoaded ownerEpoch stateVersion loaded with
            | error error =>
                exact fun _ => hfailed _ rfl (by simp [readLoaded, hpositive, hread, Except.toOption])
                  rfl
            | ok cached =>
                obtain ⟨hformed, -⟩ := fromLoaded_formed hread
                refine ⟨⟨?_, hepoch ▸ hformed⟩, hformed.ownerEpoch, by simp [hdropped]⟩
                rw [hrecord _ rfl]
                simp [readLoaded, hpositive, hread, Except.toOption]

theorem recorded_some {requestId : String} {result : Value} {l : Ledger} :
    Recorded requestId result (some l) ↔ l.settled.last = some (requestId, result) := by
  constructor
  · rintro ⟨_, ⟨⟩, ⟨bytes, hpending, rfl, rfl⟩ | ⟨hpending, hlast⟩⟩
    · simp [Ledger.settled, hpending, Ledger.commit]
    · simpa [Ledger.settled, hpending] using hlast
  · intro hlast
    refine ⟨l, rfl, ?_⟩
    cases hpending : l.pending with
    | none => exact .inr ⟨rfl, by simpa [Ledger.settled, hpending] using hlast⟩
    | some bytes =>
        simp only [Ledger.settled, hpending, Option.map_some, Option.getD_some, Ledger.commit,
          Option.some.injEq, Prod.mk.injEq] at hlast
        exact .inl ⟨bytes, rfl, hlast⟩

theorem not_recorded_none {requestId : String} {result : Value} :
    ¬ Recorded requestId result none := by
  rintro ⟨l, hl, -⟩
  cases hl

theorem putCached_booked {cached : CachedActorState} (h : InHand epoch cached world)
    {post : Except Error Unit → World → Prop}
    (hpost : ∀ w, w.task = { world.task with cachedState := some cached } → w.trace = world.trace →
      Books epoch w → post (.ok ()) w) :
    (putCached cached).Meets (booked epoch) post world :=
  meets_modifyTask.mpr ⟨fun htrace => htrace, hpost _ rfl rfl (h.put rfl)⟩

/-- What the task knows when an invocation is prepared.  {lit}`ledger` is the ledger when the
preparation began. -/
def Prepared (epoch ownerEpoch : Nat) (requestId : String) (replay : Bool) (ledger : Option Ledger)
    (world : World) : PreparedInvocation → Prop
  | .execute state => ∃ cached, world.task.cachedState = some cached ∧ cached.pending = none ∧
      cached.state = state ∧ ownerEpoch = epoch ∧
        (replay = true → ∀ result, ¬ Recorded requestId result ledger)
  | .completed outcome => ∀ result effects, outcome = .completed result effects →
      ∀ result', Recorded requestId result' ledger → result = result'

theorem prepareInvocation_booked {invocation : ActorInvocation} {ownerEpoch : Nat} {replay : Bool}
    (h : Books epoch world) :
    (prepareInvocation invocation ownerEpoch replay).Meets (booked epoch) (fun r w => match r with
      | .ok prepared => Books epoch w ∧
          Prepared epoch ownerEpoch invocation.requestId replay (ledgerOf world.trace) w prepared ∧
          ∀ cached, world.task.cachedState = some cached → cached.pending = none →
            ∃ cached', w.task.cachedState = some cached' ∧ cached'.pending = none
      | .error _ =>
          (∀ cached, world.task.cachedState = some cached → cached.ownerEpoch = ownerEpoch) →
            Books epoch w) world := by
  refine ensureAuthority_booked.seq (fun _ w hidle => ?_) fun _ w hidle _ => h.idle hidle
  refine (takeOrLoadState_booked (h.idle hidle)).seq (fun cached w₁ htaken => ?_)
    fun _ w₁ htaken hsame => htaken (by rw [hidle.task_eq]; exact hsame)
  obtain ⟨hhand, hepoch, hsame⟩ := htaken
  rw [hidle.task_eq] at hsame
  have hledger : ∀ l, ledgerOf world.trace = some l → cached.ledger = l := by
    intro l hl
    rw [h.ledger] at hl
    obtain ⟨cached', hcached', rfl⟩ := Option.map_eq_some_iff.mp hl
    rw [hsame cached' hcached']
  refine (finishPendingCommit_total _).seq (finishPendingCommit_booked hhand)
    fun outcome w₂ houtcome => ?_
  obtain ⟨finished, cached'⟩ := outcome
  obtain ⟨hhand', -, hsettled, hkept⟩ := houtcome
  refine Prog.Meets.bind (putCached_booked hhand' fun w₃ htask htrace hbooks => ?_)
  have hcached : w₃.task.cachedState = some cached' := by rw [htask]
  have hclear : ∀ other, world.task.cachedState = some other → other.pending = none →
      ∃ cached', w₃.task.cachedState = some cached' ∧ cached'.pending = none := by
    intro other hother hpending
    rw [← hsame other hother] at hpending
    exact ⟨cached', hcached, hkept hpending⟩
  cases finished with
  | error error => exact ⟨hbooks, nofun, hclear⟩
  | ok _ =>
      obtain ⟨hnone, hsettled⟩ := hsettled rfl
      -- The ledger of the beginning, settled, is what the task has now.
      have hrecorded : ∀ result, Recorded invocation.requestId result (ledgerOf world.trace) →
          cached'.replay invocation.requestId = some result := by
        intro result hrecorded
        cases hstart : ledgerOf world.trace with
        | none =>
            rw [hstart] at hrecorded
            exact absurd hrecorded not_recorded_none
        | some l =>
            rw [hstart, recorded_some, ← hledger l hstart, ← hsettled] at hrecorded
            rw [CachedActorState.replay_eq_some, ← CachedActorState.ledger_eq_base hnone]
            exact hrecorded
      dsimp only
      cases replay with
      | false =>
          refine ⟨hbooks, ⟨cached', hcached, hnone, rfl, ?_, nofun⟩, hclear⟩
          exact hepoch.symm.trans hhand.formed.ownerEpoch
      | true =>
          cases hreplay : cached'.replay invocation.requestId with
          | none =>
              refine ⟨hbooks, ⟨cached', hcached, hnone, rfl, ?_, fun _ result hresult => ?_⟩,
                hclear⟩
              · exact hepoch.symm.trans hhand.formed.ownerEpoch
              · rw [hrecorded result hresult] at hreplay
                cases hreplay
          | some result =>
              refine ⟨hbooks, ?_, hclear⟩
              rintro _ _ ⟨⟩ result' hresult
              exact Option.some.inj (hreplay.symm.trans (hrecorded result' hresult))

/-! ## Completing an invocation -/

theorem completeWithState_booked {actor : ActorKey} {stateVersion : Nat} {result : Value}
    {effects : List ActorSocketEffect} {cached : CachedActorState} (h : Books epoch world)
    (hcached : world.task.cachedState = some cached) :
    (completeWithState actor stateVersion result effects).Meets (booked epoch)
      (fun _ w => Idle world w ∧ Books epoch w) world :=
  (pausing_booked (h.inHand hcached).ledger (completeWithState_pauses _ _ _ _)).mono
    fun _ _ hidle => ⟨hidle, h.idle hidle⟩

/-- The outcome of an execution that was prepared is committed; afterwards the task has its ledger,
and no outcome is unknown when the commit succeeded. -/
theorem finishMethod_booked {invocation : ActorInvocation} {ownerEpoch : Nat}
    {executed : Except ActorExecutionResult (Value × Value × List ActorSocketEffect)}
    {origin : CommitOrigin} {cached : CachedActorState} (h : Books epoch world)
    (hcached : world.task.cachedState = some cached) (hpending : cached.pending = none)
    (hepoch : ownerEpoch = epoch) :
    (finishMethod invocation ownerEpoch executed origin).Meets (booked epoch)
      (fun _ w => Books epoch w) world := by
  unfold finishMethod
  cases executed with
  | error failure => exact h
  | ok executed =>
      obtain ⟨result, nextState, effects⟩ := executed
      refine Prog.Meets.bind (meets_getTask.mpr (Prog.Meets.bind (meets_setTask.mpr
        ⟨fun htrace => htrace, ?_⟩)))
      have hhand : InHand epoch cached { world with task := { world.task with
          cachedState := none } } := ⟨(h.inHand hcached).ledger, (h.inHand hcached).formed⟩
      refine Prog.Meets.bind (Prog.meets_context.mpr ⟨fun found hfound => ?_, fun hnone => ?_⟩)
      swap
      · rw [hcached] at hnone
        cases hnone
      obtain rfl : cached = found := Option.some.inj (hcached.symm.trans hfound)
      dsimp only
      split
      · refine Prog.Meets.bind (putCached_booked hhand fun w htask _ hbooks => ?_)
        exact (completeWithState_booked hbooks (by rw [htask])).mono fun _ _ hr => hr.2
      · refine (publishResult_total ..).seq (publishResult_booked hhand hpending hepoch)
          fun outcome w houtcome => ?_
        obtain ⟨published, cached'⟩ := outcome
        obtain ⟨hhand', -, -⟩ := houtcome
        have hput : ∀ w₁, InHand epoch cached' w₁ → (reportPublished invocation.actor
            cached' effects id published).Meets (booked epoch)
              (fun _ w => Books epoch w) w₁ := by
          intro w₁ hw₁
          refine Prog.Meets.bind (putCached_booked hw₁ fun w₂ htask _ hbooks => ?_)
          rcases published with _ | result
          · exact hbooks
          · cases result with
            | completed result _ =>
                exact (completeWithState_booked hbooks (by rw [htask])).mono fun _ _ hr => hr.2
            | _ => exact hbooks
        dsimp only
        split
        · refine Prog.Total.seq (fun _ => trivial) (pausing_booked hhand'.ledger (evict_pauses _))
            fun _ w₁ hidle => ?_
          exact hput w₁ (hhand'.idle hidle)
        · exact hput w hhand'

theorem finishSerial_booked {invocation : ActorInvocation} {ownerEpoch : Nat}
    {outcome : Except Error ActorMethodOutcome} {origin : CommitOrigin} {cached : CachedActorState}
    (h : Books epoch world) (hcached : world.task.cachedState = some cached)
    (hpending : cached.pending = none) (hepoch : ownerEpoch = epoch) :
    (finishSerial invocation ownerEpoch outcome origin).Meets (booked epoch)
      (fun _ w => Books epoch w) world := by
  refine (pausing_booked (h.inHand hcached).ledger (methodResult_pauses _ _)).seq
    (fun executed w hidle => ?_) fun _ w hidle => h.idle hidle
  refine finishMethod_booked (h.idle hidle) ?_ hpending hepoch
  rw [hidle.task_eq]
  exact hcached

/-- A commit of an interleaved outcome either leaves no outcome unknown or fails. -/
theorem commitInterleaved_booked {invocation : ActorInvocation} {ownerEpoch : Nat}
    {outcome : ActorInterleavedOutcome} {origin : CommitOrigin} {cached : CachedActorState}
    (h : Books epoch world) (hcached : world.task.cachedState = some cached)
    (hpending : cached.pending = none) :
    (commitInterleaved invocation ownerEpoch outcome origin).Meets (booked epoch)
      (Prog.onOk fun _ w => Books epoch w ∧
        ∃ cached', w.task.cachedState = some cached' ∧ cached'.pending = none) world := by
  refine ensureAuthority_booked.seq (fun _ w hidle => ?_) fun _ _ _ => trivial
  refine Prog.Meets.bind (Prog.meets_lift.mpr ?_)
  cases validateSocketEffects outcome.effects with
  | error error => trivial
  | ok _ =>
      have hcached' : w.task.cachedState = some cached := by
        rw [hidle.task_eq]
        exact hcached
      refine Prog.Meets.bind (meets_getTask.mpr (Prog.Meets.bind (meets_setTask.mpr
        ⟨fun htrace => htrace, ?_⟩)))
      have hhand : InHand epoch cached { w with task := { w.task with cachedState := none } } :=
        ⟨((h.idle hidle).inHand hcached').ledger, (h.inHand hcached).formed⟩
      refine Prog.Meets.bind (Prog.meets_context.mpr ⟨fun found hfound => ?_, fun _ => trivial⟩)
      obtain rfl : cached = found := Option.some.inj (hcached'.symm.trans hfound)
      refine Prog.Meets.bind (Prog.meets_ensure.mpr ⟨fun hepoch => ?_, fun _ => trivial⟩)
      dsimp only
      split
      · refine Prog.Meets.bind (putCached_booked hhand fun w₁ htask _ hbooks => ?_)
        refine (completeWithState_booked hbooks (by rw [htask])).mono fun r w₂ hr => ?_
        cases r with
        | error error => trivial
        | ok result => exact ⟨hr.2, cached, by rw [hr.1.task_eq, htask], hpending⟩
      · refine (publishResult_total ..).seq (publishResult_booked hhand hpending
          (hepoch.symm.trans hhand.formed.ownerEpoch)) fun published w₁ houtcome => ?_
        obtain ⟨publication, cached'⟩ := published
        obtain ⟨hhand', -, hnone⟩ := houtcome
        refine Prog.Meets.bind (putCached_booked hhand' fun w₂ htask _ hbooks => ?_)
        refine Prog.Meets.bind (Prog.meets_lift.mpr ?_)
        cases publication with
        | error error => trivial
        | ok published =>
            refine (completeWithState_booked hbooks (by rw [htask])).mono fun r w₃ hr => ?_
            cases r with
            | error error => trivial
            | ok result =>
                exact ⟨hr.2, cached', by rw [hr.1.task_eq, htask], hnone published rfl⟩

/-- An activation keeps the ledger, even when it fails, and the state that the task has. -/
theorem activateActor_booked {actor : ActorKey} (h : Books epoch world) :
    (activateActor actor).Meets (booked epoch) (fun _ w => Books epoch w ∧
      ∀ cached, world.task.cachedState = some cached → w.task.cachedState = some cached) world := by
  have hidle : ∀ w, Idle world w → Books epoch w ∧
      ∀ cached, world.task.cachedState = some cached → w.task.cachedState = some cached :=
    fun w hidle => ⟨h.idle hidle, fun cached hcached => by rw [hidle.task_eq, hcached]⟩
  refine ensureAuthority_booked.seq (fun _ w hw => ?_) fun _ w hw => hidle w hw
  refine Prog.Meets.bind (meets_getTask.mpr ?_)
  dsimp only
  cases w.task.activation with
  | some activation => exact hidle w hw
  | none =>
      have hhydrate : ∀ (activation : ActorActivation) (w₁ : World), (Books epoch w₁ ∧
          ∀ cached, world.task.cachedState = some cached → w₁.task.cachedState = some cached) →
          (do
            let task ← getTask
            hydrate actor (task.cachedState.bind CachedActorState.state)
            ensureAuthority
            modifyTask fun task => { task with activation := some activation }
            return activation : Run ActorActivation).Meets (booked epoch) (fun _ w => Books epoch w ∧
              ∀ cached, world.task.cachedState = some cached → w.task.cachedState = some cached)
                w₁ := by
        intro activation w₁ ⟨hbooks, hkept⟩
        refine Prog.Meets.bind (meets_getTask.mpr ?_)
        refine Prog.Meets.bind (meets_indifferent rfl rfl fun answer _ => Prog.meets_lift.mpr ?_)
        have hlog : Idle w₁ (w₁.log ⟨.hydrate actor _, answer⟩) := ⟨rfl, Ledger.record_eq rfl answer⟩
        cases answer with
        | error error => exact ⟨hbooks.idle hlog, hkept⟩
        | ok _ =>
            refine ensureAuthority_booked.seq (fun _ w₂ hidle₂ => ?_) fun _ w₂ hidle₂ => ?_
            · refine Prog.Meets.bind (meets_modifyTask.mpr ⟨fun htrace => htrace, ?_⟩)
              obtain ⟨hledger, hformed⟩ := (hbooks.idle hlog).idle hidle₂
              refine ⟨⟨hledger, hformed⟩, fun cached hcached => ?_⟩
              show w₂.task.cachedState = _
              rw [hidle₂.task_eq]
              exact hkept cached hcached
            · refine ⟨(hbooks.idle hlog).idle hidle₂, fun cached hcached => ?_⟩
              rw [hidle₂.task_eq]
              exact hkept cached hcached
      have hw' := h.idle hw
      refine Prog.Meets.bind (meets_indifferent rfl rfl fun answer hallowed =>
        Prog.meets_lift.mpr ?_)
      have hkept : ∀ w₁ : World, w₁.task = w.task → ∀ cached,
          world.task.cachedState = some cached → w₁.task.cachedState = some cached := by
        intro w₁ htask cached hcached
        rw [htask, hw.task_eq, hcached]
      cases answer with
      | error error =>
          refine ⟨⟨?_, hw'.formed⟩, hkept _ rfl⟩
          rw [World.log_trace, ledgerOf, World.log_task, ← hw'.ledger]
          cases ledgerOf w.trace <;> rfl
      | ok activation =>
          have hepoch : activation.ownerEpoch = epoch := hallowed.1.2
          cases hcached : w.task.cachedState with
          | some cached =>
              -- The state that the task has stays the ledger.
              have hledger : ledgerOf w.trace = some cached.ledger := (hw'.inHand hcached).ledger
              simp only [Option.isNone_some, Bool.false_eq_true, if_false]
              refine hhydrate _ _ ⟨⟨?_, hw'.formed⟩, hkept _ rfl⟩
              rw [World.log_trace, ledgerOf, hledger, World.log_task, hcached]
              rfl
          | none =>
              have hledger : ledgerOf w.trace = none := by rw [hw'.ledger, hcached, Option.map_none]
              have hrecord : ∀ w₁ : World, w₁.trace = ⟨.acquireActor actor, .ok activation⟩ ::
                  w.trace → ledgerOf w₁.trace =
                    (readActivation activation).map CachedActorState.ledger := by
                intro w₁ hw₁
                rw [hw₁, ledgerOf, hledger]
                rfl
              have hnothing : ∀ cached : CachedActorState,
                  world.task.cachedState = some cached → False := by
                intro cached hsome
                rw [hw.task_eq, hsome] at hcached
                cases hcached
              have hfailed : readActivation activation = none →
                  Books epoch (w.log ⟨.acquireActor actor, .ok activation⟩) := by
                intro hread
                refine ⟨?_, hw'.formed⟩
                rw [hrecord _ rfl, hread, World.log_task, hcached]
              simp only [Option.isNone_none, if_true]
              split
              · rename_i hzero
                have hnew : InHand epoch (CachedActorState.new activation.ownerEpoch)
                    (w.log ⟨.acquireActor actor, .ok activation⟩) := by
                  refine ⟨?_, hepoch ▸ formed_new _⟩
                  rw [hrecord _ rfl]
                  simp [readActivation, hzero]
                exact Prog.Meets.bind (putCached_booked hnew fun w₁ htask htrace hbooks =>
                  hhydrate _ w₁ ⟨hbooks, fun cached hsome => (hnothing cached hsome).elim⟩)
              · rename_i hpositive
                refine Prog.Meets.bind (Prog.meets_context.mpr ⟨fun bytes hbytes => ?_,
                  fun hmissing => ⟨hfailed ?_, fun cached hsome => (hnothing cached hsome).elim⟩⟩)
                swap
                · simp [readActivation, hpositive, hmissing]
                refine Prog.Meets.bind (Prog.meets_lift.mpr ?_)
                cases hread : CachedActorState.fromLoaded activation.ownerEpoch
                    activation.stateVersion (some bytes) with
                | error error =>
                    refine ⟨hfailed ?_, fun cached hsome => (hnothing cached hsome).elim⟩
                    simp [readActivation, hpositive, hbytes, hread, Except.toOption]
                | ok cached =>
                    have hloaded : InHand epoch cached
                        (w.log ⟨.acquireActor actor, .ok activation⟩) := by
                      refine ⟨?_, hepoch ▸ (fromLoaded_formed hread).1⟩
                      rw [hrecord _ rfl]
                      simp [readActivation, hpositive, hbytes, hread, Except.toOption]
                    exact Prog.Meets.bind (putCached_booked hloaded fun w₁ htask htrace hbooks =>
                      hhydrate _ w₁ ⟨hbooks, fun cached hsome => (hnothing cached hsome).elim⟩)

end

end Host
end DurableActors
