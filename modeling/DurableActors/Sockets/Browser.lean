import DurableActors.Actor.Protocol

/-!
# The session of a browser socket

A session hands the events of one connection to the actor: first that it connected, then its
messages one after the other, at last that it disconnected.  While a handler runs, messages wait in
a queue.  The session ends when a branch of its loop fails; what waits then is discarded, the
connection leaves the registry, and the handler that runs is given five seconds.

Main results:

- Theorem {lit}`InOrder.step`: one step of a session.
- Theorem {lit}`session_event_order`: the events of every run are handed over in order.
-/

namespace DurableActors
namespace Sockets

/-- Why a session was closed: a code and a reason. -/
abbrev Closed := Nat × String

/-- A message that waits, with the time at which it was received. -/
structure Waiting where
  message : ActorSocketMessage
  received : Nat
deriving DecidableEq

/-- Why a message was not handed over. -/
inductive DiscardOutcome
  | rejected
  | interrupted
deriving DecidableEq

/-- What a session does, as it happens. -/
inductive SessionEvent
  | received (waiting : Waiting)
  | handed (event : ActorSocketEvent)
  | handled (ok : Bool)
  | discarded (waiting : Waiting) (outcome : DiscardOutcome)
deriving DecidableEq

/-- The task of a handler: it runs, or it has ended, successfully or not. -/
inductive HandlerTask
  | running
  | ended (ok : Bool)
deriving DecidableEq

/-- {lit}`Session`, with the record of what it did; the newest event comes first. -/
structure Session where
  connection : ActorSocketConnection
  pending : List Waiting := []
  handler : Option HandlerTask := none
  log : List SessionEvent := []
deriving DecidableEq

/-- How many messages may wait. -/
def maxPending : Nat := 32

namespace Session

/-- {lit}`start_since`. -/
def startSince (session : Session) (event : ActorSocketEvent) : Session :=
  { session with handler := some .running, log := .handed event :: session.log }

/-- The event of a message. -/
def messageEvent (session : Session) (waiting : Waiting) : ActorSocketEvent :=
  .message session.connection.id waiting.message

/-- {lit}`start_message`. -/
def startMessage (session : Session) (waiting : Waiting) : Session :=
  session.startSince (session.messageEvent waiting)

/-- {lit}`discard`. -/
def discard (session : Session) (waiting : Waiting) (outcome : DiscardOutcome) : Session :=
  { session with log := .discarded waiting outcome :: session.log }

/-- {lit}`enqueue`. -/
def enqueue (session : Session) (waiting : Waiting) : Session × Except Closed Unit :=
  if session.handler.isNone then
    (session.startMessage waiting, .ok ())
  else if session.pending.length < maxPending then
    ({ session with pending := session.pending ++ [waiting] }, .ok ())
  else
    (session.discard waiting .rejected, .error (1013, "socket operation queue is full"))

end Session

/-! ## Frames -/

/-- What the transport does with a frame. -/
inductive Transport
  | sent
  | timedOut
  | failed
deriving DecidableEq

/-- The lease, the time that is left and the transport, while a frame is sent. -/
structure Delivery where
  authority : Bool
  remaining : Int
  transport : Transport
deriving DecidableEq

/-- {lit}`remaining`. -/
def remaining (millis : Int) : Except Closed Nat :=
  if millis ≤ 0 then .error (4408, "socket authorization expired") else .ok millis.toNat

/-- {lit}`send_frame`. -/
def sendFrame (delivery : Delivery) : Except Closed Unit := do
  if !delivery.authority then throw (1012, "actor host lease expired")
  let _ ← remaining delivery.remaining
  match delivery.transport with
  | .sent => return ()
  | .timedOut => throw (4408, "socket delivery timed out")
  | .failed => throw (1006, "transport closed")

/-- What the browser sends; the last one stands for an error or the end of the transport. -/
inductive Inbound
  | text (data : String)
  | ping
  | pong
  | close
  | binary
  | ended
deriving DecidableEq

/-- What the actor sends: {lit}`OutboundMessage`, or the end of the channel. -/
inductive Outbound
  | control
  | message (message : ActorSocketMessage)
  | close (code : Nat) (reason : String)
  | ended
deriving DecidableEq

/-- {lit}`receive`. -/
def Session.receive (session : Session) (now : Nat) (delivery : Delivery) :
    Inbound → Session × Except Closed Unit
  | .text data =>
      let waiting := { message := .text data, received := now }
      { session with log := .received waiting :: session.log }.enqueue waiting
  | .ping => (session, sendFrame delivery)
  | .pong => (session, .ok ())
  | .close => (session, .error (1000, "client closed"))
  | .binary => (session, .error (4400, "socket messages must be JSON text"))
  | .ended => (session, .error (1006, "transport closed"))

/-- {lit}`send_outbound`. -/
def sendOutbound (delivery : Delivery) : Outbound → Except Closed Unit
  | .control => sendFrame delivery
  | .message (.text _) => sendFrame delivery
  | .message (.binary _) => .error (4400, "actor produced a binary message")
  | .close code _ => .error (code, "actor closed connection")
  | .ended => .error (1006, "socket closed")

/-! ## Runs -/

/-- Where a session is: in its loop, or in one of the stages of {lit}`disconnect`. -/
inductive Stage
  | looping
  | closed (closed : Closed)
  | discarded (closed : Closed)
  | removed (connection : ActorSocketConnection) (closed : Closed)
  | ended
deriving DecidableEq

/-- A session and its stage. -/
structure SessionState where
  session : Session
  stage : Stage
deriving DecidableEq

/-- A branch of the loop goes on, or ends the loop. -/
def SessionState.after (next : Session × Except Closed Unit) : SessionState :=
  match next with
  | (session, .ok ()) => ⟨session, .looping⟩
  | (session, .error closed) => ⟨session, .closed closed⟩

/-- The branch of a handler that has ended. -/
def Session.joined (session : Session) (ok : Bool) : Session × Except Closed Unit :=
  let session := { session with handler := none, log := .handled ok :: session.log }
  if !ok then (session, .error (4400, "actor socket handler failed"))
  else
    match session.pending with
    | [] => (session, .ok ())
    | waiting :: pending => ({ session with pending }.startMessage waiting, .ok ())

/-- Messages that waited are discarded, from the front. -/
def Session.discardAll (session : Session) : List Waiting → Session
  | [] => session
  | waiting :: rest => (session.discard waiting .interrupted).discardAll rest

/-- The loop of {lit}`disconnect` over what waits. -/
def Session.discardPending (session : Session) : Session :=
  { session with pending := [] }.discardAll session.pending

/-- The end of {lit}`disconnect`: the handler is left to itself. -/
def Session.disconnected (session : Session) (connection : ActorSocketConnection)
    (closed : Closed) : Session :=
  { session with
    handler := none
    log := .handed (.disconnect connection closed.1 closed.2 (closed.1 = 1000)) :: session.log }

/-- One step of a session or of its handler. -/
inductive SessionStep : SessionState → SessionState → Prop
  /-- The handler's task ends, by itself or by a panic. -/
  | handlerEnds {session : Session} {stage : Stage} (ok : Bool) :
      session.handler = some .running →
      SessionStep ⟨session, stage⟩ ⟨{ session with handler := some (.ended ok) }, stage⟩
  | stop {session : Session} :
      SessionStep ⟨session, .looping⟩ ⟨session, .closed (1012, "actor host stopping")⟩
  | leaseExpired {session : Session} :
      SessionStep ⟨session, .looping⟩ ⟨session, .closed (1012, "actor host lease expired")⟩
  | expired {session : Session} :
      SessionStep ⟨session, .looping⟩ ⟨session, .closed (4408, "socket authorization expired")⟩
  | joined {session : Session} (ok : Bool) :
      session.handler = some (.ended ok) →
      SessionStep ⟨session, .looping⟩ (.after (session.joined ok))
  | inbound {session : Session} (now : Nat) (delivery : Delivery) (inbound : Inbound) :
      SessionStep ⟨session, .looping⟩ (.after (session.receive now delivery inbound))
  | outbound {session : Session} (delivery : Delivery) (outbound : Outbound) :
      SessionStep ⟨session, .looping⟩ (.after (session, sendOutbound delivery outbound))
  | discard {session : Session} (closed : Closed) :
      SessionStep ⟨session, .closed closed⟩ ⟨session.discardPending, .discarded closed⟩
  /-- The registry returns the connection with what the actor set on it. -/
  | remove {session : Session} (closed : Closed) (registered : Option ActorSocketConnection) :
      (∀ connection ∈ registered, connection.id = session.connection.id) →
      SessionStep ⟨session, .discarded closed⟩
        ⟨session, .removed (registered.getD session.connection) closed⟩
  /-- The handler has ended, or the time that it was given has passed. -/
  | disconnect {session : Session} (connection : ActorSocketConnection) (closed : Closed) :
      SessionStep ⟨session, .removed connection closed⟩
        ⟨session.disconnected connection closed, .ended⟩

/-- A session that was registered starts with its connection. -/
def SessionState.start (connection : ActorSocketConnection) : SessionState :=
  ⟨{ connection : Session }.startSince (.connect connection), .looping⟩

/-- The states that the session of a connection can reach. -/
def SessionReachable (connection : ActorSocketConnection) (state : SessionState) : Prop :=
  Relation.ReflTransGen SessionStep (.start connection) state

/-! ## What the record says -/

/-- The event that was handed over. -/
def SessionEvent.handedEvent : SessionEvent → Option ActorSocketEvent
  | handed event => some event
  | _ => none

/-- The message that was received. -/
def SessionEvent.receivedMessage : SessionEvent → Option Waiting
  | received waiting => some waiting
  | _ => none

/-- The message that was discarded. -/
def SessionEvent.discardedMessage : SessionEvent → Option Waiting
  | discarded waiting _ => some waiting
  | _ => none

/-- What a record says, from the oldest event to the newest. -/
def recorded {α : Type} (read : SessionEvent → Option α) (log : List SessionEvent) : List α :=
  log.reverse.filterMap read

section Recorded

variable {α : Type} {event : SessionEvent}
  {log : List SessionEvent}

theorem recorded_of_none {read : SessionEvent → Option α} (h : read event = none) :
    recorded read (event :: log) = recorded read log := by
  simp [recorded, h]

theorem recorded_of_some (read : SessionEvent → Option α) {value : α}
    (h : read event = some value) :
    recorded read (event :: log) = recorded read log ++ [value] := by
  simp [recorded, h]

end Recorded

/-- The events that were handed over, in order. -/
abbrev handedEvents : List SessionEvent → List ActorSocketEvent :=
  recorded SessionEvent.handedEvent

/-- The messages that were received, in order. -/
abbrev receivedMessages : List SessionEvent → List Waiting :=
  recorded SessionEvent.receivedMessage

/-- The messages that were reported as discarded, in order. -/
abbrev discardedMessages : List SessionEvent → List Waiting :=
  recorded SessionEvent.discardedMessage

section Log

variable (log : List SessionEvent)

theorem handedEvents_handed (event : ActorSocketEvent) :
    handedEvents (.handed event :: log) = handedEvents log ++ [event] :=
  recorded_of_some SessionEvent.handedEvent rfl

theorem receivedMessages_received (waiting : Waiting) :
    receivedMessages (.received waiting :: log) = receivedMessages log ++ [waiting] :=
  recorded_of_some SessionEvent.receivedMessage rfl

theorem discardedMessages_other {event : SessionEvent} (h : event.discardedMessage = none) :
    discardedMessages (event :: log) = discardedMessages log :=
  recorded_of_none h

theorem discardedMessages_discarded (waiting : Waiting) (outcome : DiscardOutcome) :
    discardedMessages (.discarded waiting outcome :: log) =
      discardedMessages log ++ [waiting] :=
  recorded_of_some SessionEvent.discardedMessage rfl

end Log

/-- The last handler that was started has ended successfully. -/
def idle : List SessionEvent → Bool
  | [] => false
  | .handled ok :: _ => ok
  | .handed _ :: _ => false
  | _ :: earlier => idle earlier

/-- Each message was handed over after the handler before it had ended successfully. -/
def InTurn : List SessionEvent → Prop
  | [] => True
  | .handed (.message ..) :: earlier => idle earlier = true ∧ InTurn earlier
  | _ :: earlier => InTurn earlier

/-! ## The order of a session -/

/-- The events of the record: the connection, messages, and what comes last. -/
structure Ordered (connection : ActorSocketConnection) (session : Session)
    (messages unhanded : List Waiting) (ending : List ActorSocketEvent) : Prop where
  same : session.connection = connection
  handed : handedEvents session.log =
    .connect connection :: messages.map session.messageEvent ++ ending
  received : receivedMessages session.log = messages ++ unhanded
  unhanded : unhanded.Perm (session.pending ++ discardedMessages session.log)
  inTurn : InTurn session.log

/-- What holds at each stage.  In the loop nothing was skipped, and nothing waits without a
handler. -/
def InOrder (connection : ActorSocketConnection) (state : SessionState) : Prop :=
  match state.stage with
  | .looping => ∃ messages, Ordered connection state.session messages state.session.pending [] ∧
      state.session.pending.length ≤ maxPending ∧
      (state.session.handler = none → state.session.pending = [] ∧ idle state.session.log = true)
  | .closed _ => ∃ messages unhanded, Ordered connection state.session messages unhanded [] ∧
      state.session.pending.length ≤ maxPending
  | .discarded _ => ∃ messages unhanded, Ordered connection state.session messages unhanded [] ∧
      state.session.pending = []
  | .removed final _ => ∃ messages unhanded,
      Ordered connection state.session messages unhanded [] ∧ state.session.pending = [] ∧
        final.id = connection.id
  | .ended => ∃ messages unhanded final code reason,
      Ordered connection state.session messages unhanded
        [.disconnect final code reason (code = 1000)] ∧
      state.session.pending = [] ∧ final.id = connection.id

namespace Ordered

variable {connection : ActorSocketConnection} {session : Session}
  {messages unhanded : List Waiting} {ending : List ActorSocketEvent}

/-- The handler of a session is not part of the order. -/
theorem handler (h : Ordered connection session messages unhanded ending)
    (handler : Option HandlerTask) :
    Ordered connection { session with handler } messages unhanded ending :=
  ⟨h.same, h.handed, h.received, h.unhanded, h.inTurn⟩

/-- A handler has ended. -/
theorem handled (h : Ordered connection session messages unhanded ending) (ok : Bool) :
    Ordered connection { session with handler := none, log := .handled ok :: session.log }
      messages unhanded ending where
  same := h.same
  handed := (recorded_of_none rfl).trans h.handed
  received := (recorded_of_none rfl).trans h.received
  unhanded := by
    rw [discardedMessages_other _ rfl]
    exact h.unhanded
  inTurn := h.inTurn

/-- The next message is handed over when the handler before it has ended. -/
theorem startMessage {waiting : Waiting} (h : Ordered connection session messages
      (waiting :: unhanded) []) (hidle : idle session.log = true) (pending : List Waiting)
    (hunhanded : unhanded.Perm (pending ++ discardedMessages session.log)) :
    Ordered connection ({ session with pending }.startMessage waiting) (messages ++ [waiting])
      unhanded [] where
  same := h.same
  handed := by
    refine (handedEvents_handed _ _).trans ?_
    simp only [h.handed, List.append_nil, List.map_append, List.map_cons, List.map_nil,
      List.cons_append]
    rfl
  received := by
    refine (recorded_of_none rfl).trans (h.received.trans ?_)
    rw [List.append_assoc, List.singleton_append]
  unhanded := by
    rw [Session.startMessage, Session.startSince, discardedMessages_other _ rfl]
    exact hunhanded
  inTurn := ⟨hidle, h.inTurn⟩

/-- A message is received. -/
theorem receive (h : Ordered connection session messages unhanded ending) (waiting : Waiting)
    (pending : List Waiting)
    (hunhanded : (unhanded ++ [waiting]).Perm (pending ++ discardedMessages session.log)) :
    Ordered connection { session with pending, log := .received waiting :: session.log } messages
      (unhanded ++ [waiting]) ending where
  same := h.same
  handed := (recorded_of_none rfl).trans h.handed
  received := by
    rw [receivedMessages_received, h.received, List.append_assoc]
  unhanded := by
    rw [discardedMessages_other _ rfl]
    exact hunhanded
  inTurn := h.inTurn

/-- A message is discarded that waited, or that was just received. -/
theorem discard (h : Ordered connection session messages unhanded ending) (waiting : Waiting)
    (outcome : DiscardOutcome) (pending : List Waiting)
    (hunhanded : unhanded.Perm (pending ++ (discardedMessages session.log ++ [waiting]))) :
    Ordered connection ({ session with pending }.discard waiting outcome) messages unhanded
      ending where
  same := h.same
  handed := (recorded_of_none rfl).trans h.handed
  received := (recorded_of_none rfl).trans h.received
  unhanded := by
    rw [Session.discard, discardedMessages_discarded]
    exact hunhanded
  inTurn := h.inTurn

/-- The end of the connection is handed over. -/
theorem disconnected (h : Ordered connection session messages unhanded [])
    (final : ActorSocketConnection) (closed : Closed) :
    Ordered connection (session.disconnected final closed) messages unhanded
      [.disconnect final closed.1 closed.2 (closed.1 = 1000)] where
  same := h.same
  handed := by
    rw [Session.disconnected, handedEvents_handed, h.handed, List.append_nil]
    rfl
  received := (recorded_of_none rfl).trans h.received
  unhanded := by
    rw [Session.disconnected, discardedMessages_other _ rfl]
    exact h.unhanded
  inTurn := h.inTurn

/-- Everything that waits is discarded. -/
theorem discardPending (h : Ordered connection session messages unhanded ending) :
    Ordered connection session.discardPending messages unhanded ending ∧
      session.discardPending.pending = [] := by
  unfold Session.discardPending
  -- What is left to discard counts as waiting, while the record grows.
  generalize hpending : session.pending = pending
  replace h : Ordered connection { session with pending } messages unhanded ending := by
    rw [← hpending]
    exact h
  clear hpending
  induction pending generalizing session with
  | nil => exact ⟨h, rfl⟩
  | cons waiting pending ih =>
    refine @ih ({ session with pending := [] }.discard waiting .interrupted) ?_
    refine h.discard waiting .interrupted pending (h.unhanded.trans ?_)
    rw [← List.append_assoc]
    exact (List.perm_append_singleton waiting _).symm

end Ordered

/-! ## Steps -/

section Steps

variable {connection : ActorSocketConnection} {session : Session}

theorem inOrder_looping :
    InOrder connection ⟨session, .looping⟩ ↔
      ∃ messages, Ordered connection session messages session.pending [] ∧
        session.pending.length ≤ maxPending ∧
        (session.handler = none → session.pending = [] ∧ idle session.log = true) :=
  Iff.rfl

theorem after_ok : SessionState.after (session, .ok ()) = ⟨session, .looping⟩ := rfl

theorem after_error (closed : Closed) :
    SessionState.after (session, .error closed) = ⟨session, .closed closed⟩ := rfl

/-- A branch that ends the loop. -/
theorem InOrder.close (h : InOrder connection ⟨session, .looping⟩) (closed : Closed) :
    InOrder connection ⟨session, .closed closed⟩ := by
  obtain ⟨messages, hordered, hlimit, -⟩ := h
  exact ⟨messages, _, hordered, hlimit⟩

/-- A branch that changes nothing. -/
theorem InOrder.after_same (h : InOrder connection ⟨session, .looping⟩)
    (result : Except Closed Unit) : InOrder connection (.after (session, result)) := by
  cases result with
  | ok _ => exact h
  | error closed => exact h.close closed

/-- Nothing is discarded before the loop ends. -/
theorem Ordered.discarded_nil {messages : List Waiting} {ending : List ActorSocketEvent}
    (h : Ordered connection session messages session.pending ending) :
    discardedMessages session.log = [] := by
  have hlength := h.unhanded.length_eq
  rw [List.length_append] at hlength
  exact List.length_eq_zero_iff.mp (by omega)

/-- The branch of a handler that has ended. -/
theorem InOrder.joined (h : InOrder connection ⟨session, .looping⟩) (ok : Bool) :
    InOrder connection (.after (session.joined ok)) := by
  obtain ⟨messages, hordered, hlimit, -⟩ := inOrder_looping.mp h
  have hnone := hordered.discarded_nil
  have hhandled := hordered.handled ok
  unfold Session.joined
  cases ok with
  | false => exact ⟨messages, _, hhandled, hlimit⟩
  | true =>
    cases hpending : session.pending with
    | nil =>
      rw [hpending] at hhandled hlimit
      exact inOrder_looping.mpr ⟨messages, hhandled, hlimit, fun _ => ⟨rfl, rfl⟩⟩
    | cons waiting pending =>
      rw [hpending] at hhandled hlimit
      have hstarted := hhandled.startMessage rfl pending (by
        rw [discardedMessages_other _ rfl, hnone, List.append_nil])
      exact inOrder_looping.mpr
        ⟨messages ++ [waiting], hstarted, Nat.le_of_succ_le hlimit, nofun⟩

/-- A message is handed over, waits, or is discarded. -/
theorem InOrder.enqueue (h : InOrder connection ⟨session, .looping⟩) (waiting : Waiting) :
    InOrder connection
      (.after ({ session with log := .received waiting :: session.log }.enqueue waiting)) := by
  obtain ⟨messages, hordered, hlimit, hhandler⟩ := inOrder_looping.mp h
  have hnone := hordered.discarded_nil
  have hreceived := hordered.receive waiting (session.pending ++ [waiting]) (by
    rw [hnone, List.append_nil])
  unfold Session.enqueue
  split_ifs with hidle hroom
  · -- No handler runs, so nothing waits.
    obtain ⟨hempty, hidle⟩ := hhandler (Option.isNone_iff_eq_none.mp hidle)
    rw [hempty] at hreceived
    have hstarted := Ordered.startMessage hreceived hidle [] (by
      rw [discardedMessages_other _ rfl, hnone]
      exact List.Perm.nil)
    have hsame : { session with log := .received waiting :: session.log } =
        { session with pending := [], log := .received waiting :: session.log } := by
      rw [← hempty]
    rw [after_ok, hsame]
    exact inOrder_looping.mpr ⟨messages ++ [waiting], hstarted, Nat.zero_le _, nofun⟩
  · rw [after_ok, inOrder_looping]
    refine ⟨messages, hreceived, ?_, fun hnone' => absurd hnone' ?_⟩
    · rw [List.length_append]
      exact hroom
    · simpa using hidle
  · rw [after_error]
    refine ⟨messages, session.pending ++ [waiting], hreceived.discard waiting .rejected
      session.pending ?_, hlimit⟩
    rw [discardedMessages_other _ rfl, hnone, List.nil_append]

/-- The branch of an inbound frame. -/
theorem InOrder.receive (h : InOrder connection ⟨session, .looping⟩) (now : Nat)
    (delivery : Delivery) (inbound : Inbound) :
    InOrder connection (.after (session.receive now delivery inbound)) := by
  cases inbound with
  | text data => exact h.enqueue _
  | ping => exact h.after_same _
  | pong => exact h.after_same _
  | close => exact h.after_same _
  | binary => exact h.after_same _
  | ended => exact h.after_same _

end Steps

/-- One step of a session. -/
theorem InOrder.step {connection : ActorSocketConnection} {state state' : SessionState}
    (h : InOrder connection state) (hstep : SessionStep state state') :
    InOrder connection state' := by
  cases hstep with
  | @handlerEnds session stage ok hrunning =>
    cases stage with
    | looping =>
      obtain ⟨messages, hordered, hlimit, -⟩ := h
      exact ⟨messages, hordered.handler _, hlimit, nofun⟩
    | closed closed =>
      obtain ⟨messages, unhanded, hordered, hlimit⟩ := h
      exact ⟨messages, unhanded, hordered.handler _, hlimit⟩
    | discarded closed =>
      obtain ⟨messages, unhanded, hordered, hrest⟩ := h
      exact ⟨messages, unhanded, hordered.handler _, hrest⟩
    | removed final closed =>
      obtain ⟨messages, unhanded, hordered, hrest⟩ := h
      exact ⟨messages, unhanded, hordered.handler _, hrest⟩
    | ended =>
      obtain ⟨messages, unhanded, final, code, reason, hordered, hrest⟩ := h
      exact ⟨messages, unhanded, final, code, reason, hordered.handler _, hrest⟩
  | stop => exact h.close _
  | leaseExpired => exact h.close _
  | expired => exact h.close _
  | joined ok hended => exact h.joined ok
  | inbound now delivery inbound => exact h.receive now delivery inbound
  | outbound delivery outbound => exact h.after_same _
  | discard closed =>
    obtain ⟨messages, unhanded, hordered, -⟩ := h
    exact ⟨messages, unhanded, hordered.discardPending⟩
  | remove closed registered hid =>
    obtain ⟨messages, unhanded, hordered, hpending⟩ := h
    refine ⟨messages, unhanded, hordered, hpending, ?_⟩
    rw [← hordered.same]
    cases registered with
    | none => rfl
    | some registered => exact hid registered rfl
  | disconnect final closed =>
    obtain ⟨messages, unhanded, hordered, hpending, hid⟩ := h
    exact ⟨messages, unhanded, final, _, _, hordered.disconnected final closed, hpending, hid⟩

theorem inOrder_start (connection : ActorSocketConnection) :
    InOrder connection (.start connection) := by
  refine inOrder_looping.mpr ⟨[], ?_, Nat.zero_le _, nofun⟩
  exact ⟨rfl, rfl, rfl, List.Perm.nil, trivial⟩

/-- Whole runs. -/
theorem inOrder_of_reachable {connection : ActorSocketConnection} {state : SessionState}
    (h : SessionReachable connection state) : InOrder connection state := by
  induction h with
  | refl => exact inOrder_start connection
  | tail _ hstep ih => exact ih.step hstep

/-- A session that has left its loop goes on to its end, whatever its handler does. -/
theorem SessionState.ends (state : SessionState) (h : state.stage ≠ .looping) :
    ∃ last, Relation.ReflTransGen SessionStep state last ∧ last.stage = .ended := by
  obtain ⟨session, stage⟩ := state
  have hremoved (session : Session) (final : ActorSocketConnection) (closed : Closed) :
      ∃ last, Relation.ReflTransGen SessionStep ⟨session, .removed final closed⟩ last ∧
        last.stage = .ended :=
    ⟨_, .single (.disconnect final closed), rfl⟩
  have hdiscarded (session : Session) (closed : Closed) :
      ∃ last, Relation.ReflTransGen SessionStep ⟨session, .discarded closed⟩ last ∧
        last.stage = .ended :=
    (hremoved session _ closed).imp fun _ hlast =>
      ⟨.head (.remove closed none nofun) hlast.1, hlast.2⟩
  cases stage with
  | looping => exact absurd rfl h
  | closed closed =>
    exact (hdiscarded _ closed).imp fun _ hlast => ⟨.head (.discard closed) hlast.1, hlast.2⟩
  | discarded closed => exact hdiscarded session closed
  | removed final closed => exact hremoved session final closed
  | ended => exact ⟨_, .refl, rfl⟩

/-- In every run of a session that was registered, the events that it hands over are the connection,
then messages in the order in which they were received, each after the handler before it had ended
successfully, and at last the end of the connection, once, when the session has ended.  In the loop
the messages that are not handed over are those that wait, and they are at most 32; after it, each
message is handed over or reported as discarded, once.  A session that has left its loop reaches its
end. -/
theorem session_event_order {connection : ActorSocketConnection} {state : SessionState}
    (h : SessionReachable connection state) :
    (∃ (messages unhanded : List Waiting) (ending : List ActorSocketEvent),
      handedEvents state.session.log = .connect connection ::
        messages.map (fun waiting => .message connection.id waiting.message) ++ ending ∧
      receivedMessages state.session.log = messages ++ unhanded ∧
      unhanded.Perm (state.session.pending ++ discardedMessages state.session.log) ∧
      InTurn state.session.log ∧
      state.session.pending.length ≤ maxPending ∧
      (state.stage = .looping → unhanded = state.session.pending) ∧
      (state.stage ≠ .ended → ending = []) ∧
      (state.stage = .ended → state.session.pending = [] ∧
        ∃ final code reason, final.id = connection.id ∧
          ending = [.disconnect final code reason (code = 1000)])) ∧
    (state.stage ≠ .looping →
      ∃ last, Relation.ReflTransGen SessionStep state last ∧ last.stage = .ended) := by
  refine ⟨?_, state.ends⟩
  have horder := inOrder_of_reachable h
  obtain ⟨session, stage⟩ := state
  have hhanded {messages unhanded : List Waiting} {ending : List ActorSocketEvent}
      (hordered : Ordered connection session messages unhanded ending) :
      handedEvents session.log = .connect connection ::
        messages.map (fun waiting => .message connection.id waiting.message) ++ ending := by
    rw [hordered.handed, ← hordered.same]
    rfl
  have hlimit (hpending : session.pending = []) : session.pending.length ≤ maxPending := by
    rw [hpending]
    exact Nat.zero_le _
  cases stage with
  | looping =>
    obtain ⟨messages, hordered, hlimit, -⟩ := inOrder_looping.mp horder
    exact ⟨messages, session.pending, [], hhanded hordered, hordered.received, hordered.unhanded,
      hordered.inTurn, hlimit, fun _ => rfl, fun _ => rfl, nofun⟩
  | closed closed =>
    obtain ⟨messages, unhanded, hordered, hlimit⟩ := horder
    exact ⟨messages, unhanded, [], hhanded hordered, hordered.received, hordered.unhanded,
      hordered.inTurn, hlimit, nofun, fun _ => rfl, nofun⟩
  | discarded closed =>
    obtain ⟨messages, unhanded, hordered, hpending⟩ := horder
    exact ⟨messages, unhanded, [], hhanded hordered, hordered.received, hordered.unhanded,
      hordered.inTurn, hlimit hpending, nofun, fun _ => rfl, nofun⟩
  | removed final closed =>
    obtain ⟨messages, unhanded, hordered, hpending, -⟩ := horder
    exact ⟨messages, unhanded, [], hhanded hordered, hordered.received, hordered.unhanded,
      hordered.inTurn, hlimit hpending, nofun, fun _ => rfl, nofun⟩
  | ended =>
    obtain ⟨messages, unhanded, final, code, reason, hordered, hpending, hid⟩ := horder
    exact ⟨messages, unhanded, _, hhanded hordered, hordered.received, hordered.unhanded,
      hordered.inTurn, hlimit hpending, nofun, fun hended => absurd rfl hended,
      fun _ => ⟨hpending, final, code, reason, hid, rfl⟩⟩

/-- A connection. -/
def oneConnection : ActorSocketConnection where
  id := "c"
  metadata := .null
  tags := []

/-- Two messages come while the connection is handled; the first is handed over, and the second is
discarded when the client closes the connection. -/
theorem session_event_order_of_close :
    ∃ state, SessionReachable oneConnection state ∧ state.stage = .ended ∧
      handedEvents state.session.log = [.connect oneConnection, .message "c" (.text "a"),
        .disconnect oneConnection 1000 "client closed" true] ∧
      discardedMessages state.session.log = [⟨.text "b", 2⟩] ∧
      ∃ messages unhanded, receivedMessages state.session.log = messages ++ unhanded := by
  have h₀ : SessionReachable oneConnection (.start oneConnection) := .refl
  have h₁ := h₀.tail (.inbound 1 ⟨true, 1, .sent⟩ (.text "a"))
  have h₂ := h₁.tail (.inbound 2 ⟨true, 1, .sent⟩ (.text "b"))
  have h₃ := h₂.tail (.handlerEnds true rfl)
  have h₄ := h₃.tail (.joined true rfl)
  have h₅ := h₄.tail (.inbound 3 ⟨true, 1, .sent⟩ .close)
  have h₆ := h₅.tail (.discard _)
  have h₇ := h₆.tail (.remove _ none nofun)
  have h₈ := h₇.tail (.disconnect _ _)
  obtain ⟨⟨messages, unhanded, -, -, hreceived, -⟩, -⟩ := session_event_order h₈
  exact ⟨_, h₈, rfl, by rfl, by rfl, messages, unhanded, hreceived⟩

end Sockets
end DurableActors
