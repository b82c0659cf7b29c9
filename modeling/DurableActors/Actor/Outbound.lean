import DurableActors.Actor.Driver

/-!
# The queue from the driver to the executor

The driver hands what it sends to a writer through a queue with one place for every command that may
wait and one for the answer to the attachment.  Commands are put into the queue at once, and the
connection fails if there is no room; acknowledgements of socket output and answers to questions for
connections wait for room.  All of them share the queue.

The writer may stop for as long as it likes.  What it writes is read by the executor at once, which
allows the executor everything that it may do with any delay.  The executor asks for a publication
or for connections only while it runs a command, with one request of each kind under way, and
replies when it has no request under way.

Main results:

- Theorem {lit}`Sound.step`: how many writes there can be for each command.
- Theorem {lit}`Sound.length_outbound_le`: the queue holds at most one write for each command.
- Theorem {lit}`outbound_never_full`: the queue has room for every command and for the answer to the
  attachment if no command has a publication and a question under way at the same time.
- Theorem {lit}`outbound_overflows`: a run in which there is no room.
-/

namespace DurableActors
namespace Outbound

variable {κ : Type}

/-! ## The connection -/

/-- {lit}`MAX_PENDING_EXECUTOR_COMMANDS`. -/
def maxPendingExecutorCommands : Nat := 64

/-- The places of the queue. -/
def outboundCapacity : Nat := maxPendingExecutorCommands + 1

/-- A message in the queue. -/
inductive Write
  | attached
  | command (messageId : Nat)
  | socketEffectsPublished (messageId : Nat)
  | socketConnections (messageId : Nat)
deriving DecidableEq

/-- The driver with its queues, and what the executor has under way: the commands that it runs, and
those whose publication or question has not been answered. -/
structure Connection (κ : Type) where
  driver : ExecutorDriver κ := {}
  attached : Bool := false
  outbound : List Write := []
  blocked : Option Write := none
  inbound : List ClientMessage := []
  active : List Nat := []
  publications : List Nat := []
  lookups : List Nat := []

/-- Why the driver stops. -/
inductive Failure
  | driver (error : Error)
  /-- The error {lit}`actor executor writer stopped or filled its queue`. -/
  | outboundFull
deriving DecidableEq

namespace Connection

/-- {lit}`outbound.try_send`. -/
def trySend (connection : Connection κ) (write : Write) : Except Failure (Connection κ) :=
  if connection.outbound.length < outboundCapacity then
    .ok { connection with outbound := connection.outbound ++ [write] }
  else .error .outboundFull

/-- {lit}`outbound.send`, which waits for room. -/
def send (connection : Connection κ) (write : Write) : Connection κ :=
  if connection.outbound.length < outboundCapacity then
    { connection with outbound := connection.outbound ++ [write] }
  else { connection with blocked := some write }

/-- The driver goes on.  If it has numbered a command, the command is sent. -/
def advance (connection : Connection κ) (driver : ExecutorDriver κ) :
    Except Failure (Connection κ) :=
  let messageId := connection.driver.nextMessageId
  if (driver.pending.lookup messageId).isSome then
    { connection with driver }.trySend (.command messageId)
  else .ok { connection with driver }

/-- The result of the driver's functions. -/
def handle (connection : Connection κ)
    (result : Except Error (ExecutorDriver κ × ExecutorDriver.Answers κ)) :
    Except Failure (Connection κ) :=
  match result with
  | .error error => .error (.driver error)
  | .ok (driver, _) => connection.advance driver

/-- The executor reads a message. -/
def read (connection : Connection κ) : Write → Connection κ
  | .attached => connection
  | .command messageId => { connection with active := messageId :: connection.active }
  | .socketEffectsPublished messageId =>
      { connection with publications := connection.publications.erase messageId }
  | .socketConnections messageId =>
      { connection with lookups := connection.lookups.erase messageId }

/-- What the executor may send. -/
def allows (connection : Connection κ) : ClientMessage → Bool
  | .readyForInvocation messageId => connection.active.contains messageId
  | .reply messageId _ =>
      connection.active.contains messageId && !connection.publications.contains messageId &&
        !connection.lookups.contains messageId
  | .socketEffects messageId =>
      connection.active.contains messageId && !connection.publications.contains messageId
  | .getConnections messageId =>
      connection.active.contains messageId && !connection.lookups.contains messageId
  | .attach => false

/-- The executor sends a message. -/
def sends (connection : Connection κ) (message : ClientMessage) : Connection κ :=
  let connection := { connection with inbound := connection.inbound ++ [message] }
  match message with
  | .reply messageId _ => { connection with active := connection.active.erase messageId }
  | .socketEffects messageId =>
      { connection with publications := messageId :: connection.publications }
  | .getConnections messageId => { connection with lookups := messageId :: connection.lookups }
  | _ => connection

end Connection

/-- What happens next. -/
inductive Event (κ : Type)
  | exchange (pending : PendingCommand κ)
  | ready
  | receive
  | published (messageId : Nat)
  | loaded (messageId : Nat)
  | unblock
  | write
  | sends (message : ClientMessage)

/-- The driver can take a command. -/
def Connection.takesCommands (connection : Connection κ) : Bool :=
  connection.blocked.isNone && connection.driver.pending.length < maxPendingExecutorCommands

variable (size : Nat → ExecutorCommand → Nat)

/-- What becomes of a connection, if the event is possible. -/
def perform (connection : Connection κ) : Event κ → Option (Except Failure (Connection κ))
  | .exchange pending =>
      if connection.takesCommands then
        some (connection.handle (connection.driver.handleCommand size pending))
      else none
  | .ready =>
      if connection.takesCommands && !connection.attached then
        some ({ connection with attached := true }.trySend .attached)
      else none
  | .receive =>
      match connection.blocked, connection.inbound with
      | none, message :: inbound =>
          some ({ connection with inbound }.handle (connection.driver.receive size message))
      | _, _ => none
  | .published messageId =>
      if connection.blocked.isNone && connection.driver.publishingIds.contains messageId then
        some (.ok ({ connection with driver := connection.driver.published messageId }.send
          (.socketEffectsPublished messageId)))
      else none
  | .loaded messageId =>
      if connection.blocked.isNone && connection.driver.connectionLookupIds.contains messageId then
        some (.ok ({ connection with driver := connection.driver.loaded messageId }.send
          (.socketConnections messageId)))
      else none
  | .unblock =>
      match connection.blocked with
      | some write =>
          if connection.outbound.length < outboundCapacity then
            some (.ok { connection with
              outbound := connection.outbound ++ [write]
              blocked := none })
          else none
      | none => none
  | .write =>
      match connection.outbound with
      | write :: outbound => some (.ok ({ connection with outbound }.read write))
      | [] => none
  | .sends message =>
      if connection.allows message then some (.ok (connection.sends message)) else none

/-- A run of the connection. -/
def run (connection : Connection κ) : List (Event κ) → Option (Except Failure (Connection κ))
  | [] => some (.ok connection)
  | event :: events =>
      match perform size connection event with
      | some (.ok connection) => run connection events
      | other => other

/-! ## Writes and messages by command -/

namespace Write

def commandId : Write → Option Nat
  | command messageId => some messageId
  | _ => none

def publishedId : Write → Option Nat
  | socketEffectsPublished messageId => some messageId
  | _ => none

def connectionsId : Write → Option Nat
  | socketConnections messageId => some messageId
  | _ => none

end Write

/-- Every write is of one kind. -/
theorem length_writes (writes : List Write) :
    writes.length = writes.count .attached + (writes.filterMap Write.commandId).length +
      (writes.filterMap Write.publishedId).length +
      (writes.filterMap Write.connectionsId).length := by
  induction writes with
  | nil => rfl
  | cons write writes ih =>
    cases write <;>
      simp [List.filterMap_cons, Write.commandId, Write.publishedId, Write.connectionsId] <;> omega

/-- The command that a message replies to. -/
def repliedId : ClientMessage → Option Nat
  | .reply messageId _ => some messageId
  | _ => none

/-- The command that a message has output for. -/
def effectsId : ClientMessage → Option Nat
  | .socketEffects messageId => some messageId
  | _ => none

/-- The command that a message asks connections for. -/
def lookupId : ClientMessage → Option Nat
  | .getConnections messageId => some messageId
  | _ => none

namespace Connection

/-- The numbers of the commands that wait at the driver. -/
def numbers (connection : Connection κ) : List Nat :=
  connection.driver.pending.map Prod.fst

/-- What is in the queue or waits for room in it. -/
def writes (connection : Connection κ) : List Write :=
  connection.outbound ++ connection.blocked.toList

end Connection

/-- Every one of the given commands is in at most one place: in the queue, at the executor, or in a
reply; and it has at most one request under way, which in turn is in one place. -/
structure Balanced (connection : Connection κ) (numbers : List Nat) : Prop where
  commands : ∀ messageId,
    (connection.outbound.filterMap Write.commandId).count messageId +
        connection.active.count messageId +
        (connection.inbound.filterMap repliedId).count messageId ≤ numbers.count messageId
  publications : ∀ messageId,
    (connection.inbound.filterMap effectsId).count messageId +
        connection.driver.publishingIds.count messageId +
        (connection.writes.filterMap Write.publishedId).count messageId =
      connection.publications.count messageId
  lookups : ∀ messageId,
    (connection.inbound.filterMap lookupId).count messageId +
        connection.driver.connectionLookupIds.count messageId +
        (connection.writes.filterMap Write.connectionsId).count messageId =
      connection.lookups.count messageId
  requests : ∀ messageId,
    connection.publications.count messageId + connection.lookups.count messageId ≤
      connection.active.count messageId
  attached : connection.outbound.count .attached ≤ connection.attached.toNat
  blocked : ∀ write ∈ connection.blocked,
    ∃ messageId, write = .socketEffectsPublished messageId ∨ write = .socketConnections messageId

/-- The connection is balanced for the commands that wait at the driver. -/
structure Sound (connection : Connection κ) : Prop where
  numbered : connection.driver.WellNumbered
  few : connection.driver.pending.length ≤ maxPendingExecutorCommands
  balanced : Balanced connection connection.numbers

theorem sound_start : Sound ({} : Connection κ) where
  numbered := ⟨List.nodup_nil, nofun⟩
  few := Nat.zero_le _
  balanced := by constructor <;> simp [Connection.writes]

variable {size} {connection connection' : Connection κ} {numbers : List Nat}

theorem Balanced.count_attached_le (h : Balanced connection numbers) :
    connection.outbound.count .attached ≤ 1 :=
  Nat.le_trans h.attached (Bool.toNat_le _)

/-- The queue holds at most one write for each command that has not replied, and the answer to the
attachment. -/
theorem Balanced.length_outbound_le (h : Balanced connection numbers) :
    connection.outbound.length ≤ numbers.length + connection.outbound.count .attached := by
  have hsubperm : (connection.outbound.filterMap Write.commandId ++
      connection.outbound.filterMap Write.publishedId ++
      connection.outbound.filterMap Write.connectionsId).Subperm numbers := by
    refine List.subperm_iff_count.mpr fun messageId => ?_
    have hcommands := h.commands messageId
    have hpublications := h.publications messageId
    have hlookups := h.lookups messageId
    have hrequests := h.requests messageId
    simp only [Connection.writes, List.filterMap_append, List.count_append] at *
    omega
  have hlength := hsubperm.length_le
  have hwrites := length_writes connection.outbound
  simp only [List.length_append] at hlength
  omega

/-! ## What the driver does to the numbers -/

section

variable {driver driver' : ExecutorDriver κ} {answers : ExecutorDriver.Answers κ}

/-- The driver has removed some commands and has numbered at most one. -/
structure Renumbers (driver driver' : ExecutorDriver κ) (kept : List Nat) : Prop where
  numbered : driver'.WellNumbered
  numbers : driver'.pending.map Prod.fst = kept ∨
    driver'.pending.map Prod.fst = kept ++ [driver.nextMessageId]
  publishing : driver'.publishingIds = driver.publishingIds
  loading : driver'.connectionLookupIds = driver.connectionLookupIds

theorem enqueue_renumbers {pending : PendingCommand κ} (h : driver.WellNumbered)
    (hok : driver.enqueue size pending = .ok (driver', answers)) :
    Renumbers driver driver' (driver.pending.map Prod.fst) := by
  have hnumbered := (ExecutorDriver.enqueue_handles h hok).numbered
  unfold ExecutorDriver.enqueue at hok
  dsimp only at hok
  split at hok
  · split at hok
    · cases hok
      exact ⟨hnumbered, .inr (by simp), rfl, rfl⟩
    · cases hok
      exact ⟨hnumbered, .inl rfl, rfl, rfl⟩
  · cases hok

theorem handleCommand_renumbers {pending : PendingCommand κ} (h : driver.WellNumbered)
    (hok : driver.handleCommand size pending = .ok (driver', answers)) :
    Renumbers driver driver' (driver.pending.map Prod.fst) := by
  unfold ExecutorDriver.handleCommand at hok
  have hnumbered : ExecutorDriver.WellNumbered { driver with
      residents := driver.residents.filter fun other => ¬ other = pending.command.actor } :=
    ⟨h.nodup, h.bound⟩
  obtain ⟨hnumbered, hnumbers, hpublishing, hloading⟩ := enqueue_renumbers hnumbered hok
  exact ⟨hnumbered, hnumbers, hpublishing, hloading⟩

theorem deliver_renumbers {messageId : Nat} {reply : ExecutorReply} (h : driver.WellNumbered)
    (hok : driver.deliver size messageId reply = .ok (driver', answers)) :
    Renumbers driver driver' ((driver.pending.map Prod.fst).erase messageId) ∧
      messageId ∈ driver.pending.map Prod.fst := by
  have hnumbered := (ExecutorDriver.deliver_handles h hok).numbered
  unfold ExecutorDriver.deliver at hok
  split at hok
  · cases hok
  split at hok
  · cases hok
  split at hok
  · cases hok
  rename_i pending hlookup
  obtain ⟨earlier, later, hsplit, hne⟩ := h.split hlookup
  have hfilter : driver.pending.filter (fun entry => ¬ entry.1 = messageId) = earlier ++ later := by
    rw [hsplit, ExecutorDriver.WellNumbered.filter_eq hne]
  have hkept : (driver.pending.map Prod.fst).erase messageId = (earlier ++ later).map Prod.fst := by
    have hearlier : messageId ∉ earlier.map Prod.fst := by
      intro hmem
      obtain ⟨entry, hentry, heq⟩ := List.mem_map.mp hmem
      exact hne entry (List.mem_append_left _ hentry) heq
    rw [hsplit, List.map_append, List.map_cons, List.erase_append_right _ hearlier,
      List.erase_cons_head, ← List.map_append]
  have hmem : messageId ∈ driver.pending.map Prod.fst := by simp [hsplit]
  refine ⟨?_, hmem⟩
  rw [hkept]
  simp only [hfilter] at hok
  split at hok
  · split at hok
    · have hremoved : ExecutorDriver.WellNumbered { driver with pending := earlier ++ later } := by
        have hremoved := h.remove messageId
        simpa only [hfilter] using hremoved
      obtain ⟨hnumbered, hnumbers, hpublishing, hloading⟩ := enqueue_renumbers hremoved hok
      exact ⟨hnumbered, hnumbers, hpublishing, hloading⟩
    · cases hok
      exact ⟨hnumbered, .inl rfl, rfl, rfl⟩
  · split at hok
    · cases hok
      exact ⟨hnumbered, .inl rfl, rfl, rfl⟩
    · cases hok
      exact ⟨hnumbered, .inl rfl, rfl, rfl⟩

/-- A permission changes no number. -/
theorem allowNextInvocation_numbers {messageId : Nat} (h : driver.WellNumbered)
    (hok : driver.allowNextInvocation messageId = .ok driver') :
    driver'.WellNumbered ∧ driver'.pending.map Prod.fst = driver.pending.map Prod.fst ∧
      driver'.publishingIds = driver.publishingIds ∧
      driver'.connectionLookupIds = driver.connectionLookupIds := by
  obtain ⟨pending, others, -, -, -, -, -, -, hnumbered⟩ :=
    ExecutorDriver.allowNextInvocation_cases h hok
  unfold ExecutorDriver.allowNextInvocation at hok
  split at hok
  · cases hok
  split at hok
  · cases hok
  split at hok
  · cases hok
  cases hok
  refine ⟨hnumbered, ?_, rfl, rfl⟩
  rw [List.map_map]
  refine List.map_congr_left fun entry _ => ?_
  simp only [Function.comp_apply]
  split <;> rfl

end

/-! ## Steps -/

theorem isSome_lookup_iff {α : Type} {entries : List (Nat × α)} {messageId : Nat} :
    (entries.lookup messageId).isSome ↔ messageId ∈ entries.map Prod.fst := by
  rw [List.lookup_isSome_iff, List.mem_map]
  refine exists_congr fun entry => and_congr_right fun _ => ?_
  rw [beq_iff_eq, eq_comm]

/-- The driver goes on without a new command. -/
theorem advance_same {driver : ExecutorDriver κ} (hnumbered : driver.WellNumbered)
    (hbound : ∀ messageId ∈ numbers, messageId < connection.driver.nextMessageId)
    (hnumbers : driver.pending.map Prod.fst = numbers)
    (hfew : numbers.length ≤ maxPendingExecutorCommands)
    (hbalanced : Balanced { connection with driver } numbers) :
    ∃ connection', connection.advance driver = .ok connection' ∧ Sound connection' := by
  have hlookup : ¬ (driver.pending.lookup connection.driver.nextMessageId).isSome := by
    rw [isSome_lookup_iff, hnumbers]
    exact fun hmem => Nat.lt_irrefl _ (hbound _ hmem)
  refine ⟨{ connection with driver }, if_neg hlookup, hnumbered, ?_, ?_⟩
  · rw [← hnumbers, List.length_map] at hfew
    exact hfew
  · rw [Connection.numbers, hnumbers]
    exact hbalanced

/-- The driver goes on after it has numbered at most one command. -/
theorem advance_command {driver : ExecutorDriver κ}
    (hrenumbers : Renumbers connection.driver driver numbers)
    (hbound : ∀ messageId ∈ numbers, messageId < connection.driver.nextMessageId)
    (hfew : numbers.length < maxPendingExecutorCommands)
    (hbalanced : Balanced connection numbers) :
    ∃ connection', connection.advance driver = .ok connection' ∧ Sound connection' := by
  obtain ⟨hnumbered, hnumbers | hnumbers, hpublishing, hloading⟩ := hrenumbers
  · refine advance_same hnumbered hbound hnumbers (Nat.le_of_lt hfew) ?_
    obtain ⟨hcommands, hpublications, hlookups, hrequests, hattached, hblocked⟩ := hbalanced
    refine ⟨hcommands, ?_, ?_, hrequests, hattached, hblocked⟩
    · rwa [← hpublishing] at hpublications
    · rwa [← hloading] at hlookups
  · have hlookup : (driver.pending.lookup connection.driver.nextMessageId).isSome := by
      rw [isSome_lookup_iff, hnumbers]
      simp
    have hroom : connection.outbound.length < outboundCapacity := by
      have hlength := hbalanced.length_outbound_le
      have hattached := hbalanced.count_attached_le
      rw [outboundCapacity]
      omega
    refine ⟨_, (if_pos hlookup).trans (if_pos hroom), hnumbered, ?_, ?_⟩
    · have hlength := congrArg List.length hnumbers
      simp only [List.length_map, List.length_append, List.length_singleton] at hlength
      change driver.pending.length ≤ _
      rw [hlength]
      exact hfew
    · obtain ⟨hcommands, hpublications, hlookups, hrequests, hattached, hblocked⟩ := hbalanced
      constructor
      · intro messageId
        have hold := hcommands messageId
        simp only [Connection.numbers, hnumbers, List.filterMap_append, List.count_append]
        simp [Write.commandId]
        omega
      · intro messageId
        have hold := hpublications messageId
        simpa [List.filterMap_cons, Connection.writes, Write.publishedId, hpublishing] using hold
      · intro messageId
        have hold := hlookups messageId
        simpa [List.filterMap_cons, Connection.writes, Write.connectionsId, hloading] using hold
      · exact hrequests
      · simpa using hattached
      · exact hblocked

/-- A connection that goes on, or fails for another reason than a full queue. -/
def Kept : Except Failure (Connection κ) → Prop
  | .ok connection => Sound connection
  | .error failure => failure ≠ .outboundFull

/-- No command has a publication and a question for connections under way at the same time. -/
def Separate (connection : Connection κ) : Event κ → Prop
  | .sends (.socketEffects messageId) => messageId ∉ connection.lookups
  | .sends (.getConnections messageId) => messageId ∉ connection.publications
  | _ => True

theorem kept_handle {result : Except Error (ExecutorDriver κ × ExecutorDriver.Answers κ)}
    (h : ∀ driver answers, result = .ok (driver, answers) →
      ∃ connection', connection.advance driver = .ok connection' ∧ Sound connection') :
    Kept (connection.handle result) := by
  cases result with
  | error error => exact nofun
  | ok result =>
    obtain ⟨connection', hadvance, hsound⟩ := h result.1 result.2 rfl
    change Kept (connection.advance result.1)
    rw [hadvance]
    exact hsound

theorem Sound.numbers_lt (h : Sound connection) {messageId : Nat}
    (hmem : messageId ∈ connection.numbers) : messageId < connection.driver.nextMessageId := by
  obtain ⟨entry, hentry, rfl⟩ := List.mem_map.mp hmem
  exact h.numbered.bound entry hentry

theorem Sound.length_numbers (h : Sound connection) :
    connection.numbers.length ≤ maxPendingExecutorCommands := by
  rw [Connection.numbers, List.length_map]
  exact h.few

theorem Sound.exchange (h : Sound connection) (htakes : connection.takesCommands = true)
    (pending : PendingCommand κ) :
    Kept (connection.handle (connection.driver.handleCommand size pending)) := by
  refine kept_handle fun driver answers hok => ?_
  refine advance_command (handleCommand_renumbers h.numbered hok)
    (fun messageId hmem => h.numbers_lt hmem) ?_ h.balanced
  rw [Connection.takesCommands, Bool.and_eq_true, decide_eq_true_eq] at htakes
  rw [List.length_map]
  exact htakes.2

theorem Sound.ready (h : Sound connection) (hattached : connection.attached = false) :
    Kept ({ connection with attached := true }.trySend .attached) := by
  have hnone : connection.outbound.count .attached = 0 := by
    have hcount := h.balanced.attached
    rw [hattached] at hcount
    exact Nat.le_zero.mp hcount
  have hroom : connection.outbound.length < outboundCapacity := by
    have hlength := h.balanced.length_outbound_le
    have hfew := h.length_numbers
    rw [outboundCapacity]
    omega
  rw [Connection.trySend, if_pos hroom]
  obtain ⟨hcommands, hpublications, hlookups, hrequests, -, hblocked⟩ := h.balanced
  refine ⟨h.numbered, h.few, fun messageId => ?_, fun messageId => ?_, fun messageId => ?_,
    hrequests, ?_, hblocked⟩
  · simpa [List.filterMap_cons, Connection.numbers, Write.commandId] using hcommands messageId
  · simpa [List.filterMap_cons, Connection.writes, Write.publishedId] using hpublications messageId
  · simpa [List.filterMap_cons, Connection.writes, Write.connectionsId] using hlookups messageId
  · simp [hnone]

theorem Sound.receive_reply (h : Sound connection) {messageId : Nat} {reply : ExecutorReply}
    {inbound : List ClientMessage}
    (hinbound : connection.inbound = .reply messageId reply :: inbound) :
    Kept ({ connection with inbound }.handle (connection.driver.deliver size messageId reply)) := by
  refine kept_handle fun driver answers hok => ?_
  obtain ⟨hrenumbers, hmem⟩ := deliver_renumbers h.numbered hok
  have hlength := List.length_erase_of_mem hmem
  have hpos := List.length_pos_of_mem hmem
  have hfew := h.length_numbers
  refine advance_command hrenumbers
    (fun other hother => h.numbers_lt (List.mem_of_mem_erase hother)) ?_ ?_
  · rw [hlength]
    rw [Connection.numbers] at hfew
    omega
  · obtain ⟨hcommands, hpublications, hlookups, hrequests, hattached, hblocked⟩ := h.balanced
    refine ⟨fun other => ?_, fun other => ?_, fun other => ?_, hrequests, hattached, hblocked⟩
    · have hold := hcommands other
      rw [hinbound] at hold
      simp only [Connection.numbers, List.filterMap_cons, repliedId, List.count_cons] at hold
      rw [List.count_erase]
      split at hold <;> simp_all
      omega
    · have hold := hpublications other
      rw [hinbound] at hold
      simpa [List.filterMap_cons, effectsId, Connection.writes] using hold
    · have hold := hlookups other
      rw [hinbound] at hold
      simpa [List.filterMap_cons, lookupId, Connection.writes] using hold

theorem Sound.receive_socketEffects (h : Sound connection) {messageId : Nat}
    {inbound : List ClientMessage}
    (hinbound : connection.inbound = .socketEffects messageId :: inbound)
    {driver : ExecutorDriver κ} (hok : connection.driver.publish messageId = .ok driver) :
    ∃ connection', { connection with inbound }.advance driver = .ok connection' ∧
      Sound connection' := by
  unfold ExecutorDriver.publish at hok
  split at hok
  · cases hok
  split at hok
  · cases hok
  cases hok
  have hnumbers : connection.numbers = connection.driver.pending.map Prod.fst := rfl
  refine advance_same ⟨h.numbered.nodup, h.numbered.bound⟩ (fun _ hmem => h.numbers_lt hmem)
    hnumbers.symm h.length_numbers ?_
  obtain ⟨hcommands, hpublications, hlookups, hrequests, hattached, hblocked⟩ := h.balanced
  refine ⟨fun other => ?_, fun other => ?_, fun other => ?_, hrequests, hattached, hblocked⟩
  · have hold := hcommands other
    rw [hinbound] at hold
    simpa [List.filterMap_cons, repliedId] using hold
  · have hold := hpublications other
    rw [hinbound] at hold
    simp only [List.filterMap_cons, effectsId, List.count_cons, Connection.writes] at hold ⊢
    omega
  · have hold := hlookups other
    rw [hinbound] at hold
    simpa [List.filterMap_cons, lookupId, Connection.writes] using hold

theorem Sound.receive_getConnections (h : Sound connection) {messageId : Nat}
    {inbound : List ClientMessage}
    (hinbound : connection.inbound = .getConnections messageId :: inbound)
    {driver : ExecutorDriver κ}
    (hok : connection.driver.loadConnections messageId = .ok driver) :
    ∃ connection', { connection with inbound }.advance driver = .ok connection' ∧
      Sound connection' := by
  unfold ExecutorDriver.loadConnections at hok
  split at hok
  · cases hok
  split at hok
  · cases hok
  split at hok
  · cases hok
  cases hok
  have hnumbers : connection.numbers = connection.driver.pending.map Prod.fst := rfl
  refine advance_same ⟨h.numbered.nodup, h.numbered.bound⟩ (fun _ hmem => h.numbers_lt hmem)
    hnumbers.symm h.length_numbers ?_
  obtain ⟨hcommands, hpublications, hlookups, hrequests, hattached, hblocked⟩ := h.balanced
  refine ⟨fun other => ?_, fun other => ?_, fun other => ?_, hrequests, hattached, hblocked⟩
  · have hold := hcommands other
    rw [hinbound] at hold
    simpa [List.filterMap_cons, repliedId] using hold
  · have hold := hpublications other
    rw [hinbound] at hold
    simpa [List.filterMap_cons, effectsId, Connection.writes] using hold
  · have hold := hlookups other
    rw [hinbound] at hold
    simp only [List.filterMap_cons, lookupId, List.count_cons, Connection.writes] at hold ⊢
    omega

theorem Sound.receive_readyForInvocation (h : Sound connection) {messageId : Nat}
    {inbound : List ClientMessage}
    (hinbound : connection.inbound = .readyForInvocation messageId :: inbound)
    {driver : ExecutorDriver κ}
    (hok : connection.driver.allowNextInvocation messageId = .ok driver) :
    ∃ connection', { connection with inbound }.advance driver = .ok connection' ∧
      Sound connection' := by
  obtain ⟨hnumbered, hnumbers, hpublishing, hloading⟩ := allowNextInvocation_numbers h.numbered hok
  refine advance_same hnumbered (fun _ hmem => h.numbers_lt hmem) hnumbers h.length_numbers ?_
  obtain ⟨hcommands, hpublications, hlookups, hrequests, hattached, hblocked⟩ := h.balanced
  refine ⟨fun other => ?_, fun other => ?_, fun other => ?_, hrequests, hattached, hblocked⟩
  · have hold := hcommands other
    rw [hinbound] at hold
    simpa [List.filterMap_cons, repliedId] using hold
  · have hold := hpublications other
    rw [hinbound] at hold
    simpa [List.filterMap_cons, effectsId, Connection.writes, hpublishing] using hold
  · have hold := hlookups other
    rw [hinbound] at hold
    simpa [List.filterMap_cons, lookupId, Connection.writes, hloading] using hold

/-- The driver takes the next message of the executor. -/
theorem Sound.receive (h : Sound connection) {message : ClientMessage}
    {inbound : List ClientMessage} (hinbound : connection.inbound = message :: inbound) :
    Kept ({ connection with inbound }.handle (connection.driver.receive size message)) := by
  cases message with
  | reply messageId reply => exact h.receive_reply hinbound
  | readyForInvocation messageId =>
    refine kept_handle fun driver answers hok => ?_
    cases hallow : connection.driver.allowNextInvocation messageId with
    | error error => simp [ExecutorDriver.receive, hallow, bind, Except.bind] at hok
    | ok allowed =>
      simp only [ExecutorDriver.receive, hallow] at hok
      cases hok
      exact h.receive_readyForInvocation hinbound hallow
  | socketEffects messageId =>
    refine kept_handle fun driver answers hok => ?_
    cases hpublish : connection.driver.publish messageId with
    | error error => simp [ExecutorDriver.receive, hpublish, bind, Except.bind] at hok
    | ok published =>
      simp only [ExecutorDriver.receive, hpublish] at hok
      cases hok
      exact h.receive_socketEffects hinbound hpublish
  | getConnections messageId =>
    refine kept_handle fun driver answers hok => ?_
    cases hload : connection.driver.loadConnections messageId with
    | error error => simp [ExecutorDriver.receive, hload, bind, Except.bind] at hok
    | ok loading =>
      simp only [ExecutorDriver.receive, hload] at hok
      cases hok
      exact h.receive_getConnections hinbound hload
  | attach => intro hok; cases hok

/-- Requests under way belong to commands, and a command has one number. -/
theorem Sound.count_requests_le (h : Sound connection) (messageId : Nat) :
    connection.publications.count messageId + connection.lookups.count messageId ≤ 1 := by
  have hnumbers := List.nodup_iff_count_le_one.mp h.numbered.nodup messageId
  have hcommands := h.balanced.commands messageId
  have hrequests := h.balanced.requests messageId
  rw [Connection.numbers] at hcommands
  omega

/-- A connection with the same commands at the driver. -/
theorem Sound.of_driver (h : Sound connection)
    (hpending : connection'.driver.pending = connection.driver.pending)
    (hnext : connection'.driver.nextMessageId = connection.driver.nextMessageId)
    (hbalanced : Balanced connection' connection.numbers) : Sound connection' where
  numbered := by
    constructor
    · rw [hpending]
      exact h.numbered.nodup
    · rw [hpending, hnext]
      exact h.numbered.bound
  few := by
    rw [hpending]
    exact h.few
  balanced := by
    rw [Connection.numbers, hpending]
    exact hbalanced

theorem send_driver (connection : Connection κ) (write : Write) :
    (connection.send write).driver = connection.driver := by
  unfold Connection.send
  split <;> rfl

/-- An entry that stands once in a list is gone from the filtered list. -/
theorem count_filter_ne {ids : List Nat} {messageId : Nat} (hmem : messageId ∈ ids)
    (honce : ids.count messageId ≤ 1) (other : Nat) :
    (ids.filter fun id => ¬ id = messageId).count other + [messageId].count other =
      ids.count other := by
  by_cases hother : other = messageId
  · subst hother
    have hpos := List.count_pos_iff.mpr hmem
    have hgone : other ∉ ids.filter fun id => ¬ id = other := by simp
    rw [List.count_eq_zero.mpr hgone, List.count_singleton_self]
    omega
  · have hkept : (ids.filter fun id => ¬ id = messageId).count other = ids.count other :=
      List.count_filter (by simpa using hother)
    rw [hkept, List.count_singleton, if_neg (by simpa using Ne.symm hother), Nat.add_zero]

/-- An acknowledgement that waits for room counts as one in the queue. -/
theorem balanced_send {write : Write} (hblocked : connection.blocked = none)
    (hwrite : ∃ messageId, write = .socketEffectsPublished messageId ∨
      write = .socketConnections messageId)
    (h : Balanced { connection with outbound := connection.outbound ++ [write] } numbers) :
    Balanced (connection.send write) numbers := by
  unfold Connection.send
  split
  · exact h
  obtain ⟨hcommands, hpublications, hlookups, hrequests, hattached, -⟩ := h
  simp only [Connection.writes, hblocked, Option.toList_none, List.append_nil]
    at hpublications hlookups
  refine ⟨fun other => ?_, hpublications, hlookups, hrequests, ?_, ?_⟩
  · have hnew := hcommands other
    simp only [List.filterMap_append, List.count_append] at hnew
    dsimp only
    omega
  · simp only [List.count_append] at hattached
    exact Nat.le_trans (Nat.le_add_right _ _) hattached
  · intro pending hpending
    cases hpending
    exact hwrite

/-- Socket output has been published. -/
theorem Sound.published (h : Sound connection) (hblocked : connection.blocked = none)
    {messageId : Nat} (hmem : messageId ∈ connection.driver.publishingIds) :
    Sound ({ connection with driver := connection.driver.published messageId }.send
      (.socketEffectsPublished messageId)) := by
  have honce : connection.driver.publishingIds.count messageId ≤ 1 := by
    have hpublications := h.balanced.publications messageId
    have hrequests := h.count_requests_le messageId
    omega
  have hfilter := count_filter_ne hmem honce
  have hbalanced : Balanced ({ connection with
      driver := connection.driver.published messageId }.send (.socketEffectsPublished messageId))
      connection.numbers := by
    refine balanced_send hblocked ⟨messageId, .inl rfl⟩ ?_
    obtain ⟨hcommands, hpublications, hlookups, hrequests, hattached, hnone⟩ := h.balanced
    refine ⟨fun other => ?_, fun other => ?_, fun other => ?_, hrequests, ?_, hnone⟩
    · simpa [List.filterMap_cons, Write.commandId] using hcommands other
    · have hold := hpublications other
      have hgone := hfilter other
      simp only [Connection.writes, List.filterMap_append, List.count_append, List.filterMap_cons,
        List.filterMap_nil, Write.publishedId, ExecutorDriver.published] at hold ⊢
      omega
    · simpa [List.filterMap_cons, Connection.writes, Write.connectionsId, ExecutorDriver.published]
        using hlookups other
    · simpa using hattached
  exact h.of_driver (by rw [send_driver]; rfl) (by rw [send_driver]; rfl) hbalanced

/-- Connections have been loaded. -/
theorem Sound.loaded (h : Sound connection) (hblocked : connection.blocked = none)
    {messageId : Nat} (hmem : messageId ∈ connection.driver.connectionLookupIds) :
    Sound ({ connection with driver := connection.driver.loaded messageId }.send
      (.socketConnections messageId)) := by
  have honce : connection.driver.connectionLookupIds.count messageId ≤ 1 := by
    have hlookups := h.balanced.lookups messageId
    have hrequests := h.count_requests_le messageId
    omega
  have hfilter := count_filter_ne hmem honce
  have hbalanced : Balanced ({ connection with
      driver := connection.driver.loaded messageId }.send (.socketConnections messageId))
      connection.numbers := by
    refine balanced_send hblocked ⟨messageId, .inr rfl⟩ ?_
    obtain ⟨hcommands, hpublications, hlookups, hrequests, hattached, hnone⟩ := h.balanced
    refine ⟨fun other => ?_, fun other => ?_, fun other => ?_, hrequests, ?_, hnone⟩
    · simpa [List.filterMap_cons, Write.commandId] using hcommands other
    · simpa [List.filterMap_cons, Connection.writes, Write.publishedId, ExecutorDriver.loaded]
        using hpublications other
    · have hold := hlookups other
      have hgone := hfilter other
      simp only [Connection.writes, List.filterMap_append, List.count_append, List.filterMap_cons,
        List.filterMap_nil, Write.connectionsId, ExecutorDriver.loaded] at hold ⊢
      omega
    · simpa using hattached
  exact h.of_driver (by rw [send_driver]; rfl) (by rw [send_driver]; rfl) hbalanced

/-- There is room for the acknowledgement that the driver waits with. -/
theorem Sound.unblock (h : Sound connection) {write : Write}
    (hblocked : connection.blocked = some write) :
    Sound { connection with outbound := connection.outbound ++ [write], blocked := none } := by
  refine h.of_driver rfl rfl ?_
  obtain ⟨hcommands, hpublications, hlookups, hrequests, hattached, hacknowledges⟩ := h.balanced
  obtain ⟨messageId, hwrite⟩ := hacknowledges write hblocked
  simp only [Connection.writes, hblocked, Option.toList_some] at hpublications hlookups
  refine ⟨fun other => ?_, fun other => ?_, fun other => ?_, hrequests, ?_, nofun⟩
  · rcases hwrite with rfl | rfl <;>
      simpa [List.filterMap_cons, Write.commandId, Connection.numbers] using hcommands other
  · simpa [Connection.writes] using hpublications other
  · simpa [Connection.writes] using hlookups other
  · rcases hwrite with rfl | rfl <;> simpa using hattached

/-- The writer takes the next write, and the executor reads it. -/
theorem Sound.write (h : Sound connection) {write : Write} {outbound : List Write}
    (houtbound : connection.outbound = write :: outbound) :
    Sound ({ connection with outbound }.read write) := by
  obtain ⟨hcommands, hpublications, hlookups, hrequests, hattached, hblocked⟩ := h.balanced
  have hattached : outbound.count .attached ≤ connection.attached.toNat := by
    rw [houtbound] at hattached
    exact Nat.le_trans ((List.sublist_cons_self _ _).count_le _) hattached
  rw [houtbound] at hcommands
  rw [Connection.writes, houtbound] at hpublications hlookups
  cases write with
  | attached =>
    exact h.of_driver rfl rfl ⟨hcommands, hpublications, hlookups, hrequests, hattached, hblocked⟩
  | command messageId =>
    refine h.of_driver rfl rfl ⟨fun other => ?_, hpublications, hlookups, fun other => ?_,
      hattached, hblocked⟩
    · have hold := hcommands other
      simp only [List.filterMap_cons, Write.commandId, List.count_cons, Connection.read] at hold ⊢
      omega
    · have hold := hrequests other
      simp only [List.count_cons, Connection.read]
      omega
  | socketEffectsPublished messageId =>
    refine h.of_driver rfl rfl ⟨hcommands, fun other => ?_, hlookups, fun other => ?_,
      hattached, hblocked⟩
    · have hold := hpublications other
      simp only [List.cons_append, List.filterMap_cons, Write.publishedId, List.count_cons] at hold
      simp only [Connection.read, Connection.writes, List.count_erase]
      omega
    · have hold := hrequests other
      simp only [Connection.read, List.count_erase]
      omega
  | socketConnections messageId =>
    refine h.of_driver rfl rfl ⟨hcommands, hpublications, fun other => ?_, fun other => ?_,
      hattached, hblocked⟩
    · have hold := hlookups other
      simp only [List.cons_append, List.filterMap_cons, Write.connectionsId, List.count_cons]
        at hold
      simp only [Connection.read, Connection.writes, List.count_erase]
      omega
    · have hold := hrequests other
      simp only [Connection.read, List.count_erase]
      omega

/-- The executor sends a message. -/
theorem Sound.sends (h : Sound connection) {message : ClientMessage}
    (hallows : connection.allows message = true)
    (hseparate : Separate connection (.sends message)) : Sound (connection.sends message) := by
  obtain ⟨hcommands, hpublications, hlookups, hrequests, hattached, hblocked⟩ := h.balanced
  cases message with
  | readyForInvocation messageId =>
    refine h.of_driver rfl rfl ⟨fun other => ?_, fun other => ?_, fun other => ?_, hrequests,
      hattached, hblocked⟩
    · simpa [Connection.sends, List.filterMap_cons, repliedId] using hcommands other
    · simpa [Connection.sends, List.filterMap_cons, effectsId, Connection.writes]
        using hpublications other
    · simpa [Connection.sends, List.filterMap_cons, lookupId, Connection.writes]
        using hlookups other
  | reply messageId reply =>
    simp only [Connection.allows, Bool.and_eq_true, List.contains_eq_mem, decide_eq_true_eq,
      Bool.not_eq_true', decide_eq_false_iff_not] at hallows
    obtain ⟨⟨hactive, hpublication⟩, hlookup⟩ := hallows
    have hpos := List.count_pos_iff.mpr hactive
    have hnopublication := List.count_eq_zero.mpr hpublication
    have hnolookup := List.count_eq_zero.mpr hlookup
    refine h.of_driver rfl rfl ⟨fun other => ?_, fun other => ?_, fun other => ?_, fun other => ?_,
      hattached, hblocked⟩
    · have hold := hcommands other
      simp only [Connection.sends, List.filterMap_append, List.filterMap_cons, List.filterMap_nil,
        repliedId, List.count_append, List.count_erase, List.count_singleton]
      by_cases hother : messageId = other
      · subst hother
        simp
        omega
      · simp [hother]
        omega
    · simpa [Connection.sends, List.filterMap_cons, effectsId, Connection.writes]
        using hpublications other
    · simpa [Connection.sends, List.filterMap_cons, lookupId, Connection.writes]
        using hlookups other
    · have hold := hrequests other
      simp only [Connection.sends, List.count_erase]
      by_cases hother : messageId = other
      · subst hother
        omega
      · simp [hother]
        omega
  | socketEffects messageId =>
    simp only [Connection.allows, Bool.and_eq_true, List.contains_eq_mem, decide_eq_true_eq,
      Bool.not_eq_true', decide_eq_false_iff_not] at hallows
    have hpos := List.count_pos_iff.mpr hallows.1
    have hnopublication := List.count_eq_zero.mpr hallows.2
    have hnolookup : connection.lookups.count messageId = 0 := List.count_eq_zero.mpr hseparate
    refine h.of_driver rfl rfl ⟨fun other => ?_, fun other => ?_, fun other => ?_, fun other => ?_,
      hattached, hblocked⟩
    · simpa [Connection.sends, List.filterMap_cons, repliedId] using hcommands other
    · have hold := hpublications other
      simp only [Connection.sends, List.filterMap_append, List.filterMap_cons, List.filterMap_nil,
        effectsId, List.count_append, List.count_cons, List.count_nil, Connection.writes] at hold ⊢
      omega
    · simpa [Connection.sends, List.filterMap_cons, lookupId, Connection.writes]
        using hlookups other
    · have hold := hrequests other
      simp only [Connection.sends, List.count_cons]
      by_cases hother : messageId = other
      · subst hother
        simp
        omega
      · simp [hother]
        omega
  | getConnections messageId =>
    simp only [Connection.allows, Bool.and_eq_true, List.contains_eq_mem, decide_eq_true_eq,
      Bool.not_eq_true', decide_eq_false_iff_not] at hallows
    have hpos := List.count_pos_iff.mpr hallows.1
    have hnolookup := List.count_eq_zero.mpr hallows.2
    have hnopublication : connection.publications.count messageId = 0 :=
      List.count_eq_zero.mpr hseparate
    refine h.of_driver rfl rfl ⟨fun other => ?_, fun other => ?_, fun other => ?_, fun other => ?_,
      hattached, hblocked⟩
    · simpa [Connection.sends, List.filterMap_cons, repliedId] using hcommands other
    · simpa [Connection.sends, List.filterMap_cons, effectsId, Connection.writes]
        using hpublications other
    · have hold := hlookups other
      simp only [Connection.sends, List.filterMap_append, List.filterMap_cons, List.filterMap_nil,
        lookupId, List.count_append, List.count_cons, List.count_nil, Connection.writes] at hold ⊢
      omega
    · have hold := hrequests other
      simp only [Connection.sends, List.count_cons]
      by_cases hother : messageId = other
      · subst hother
        simp
        omega
      · simp [hother]
        omega
  | attach => cases hallows

/-! ## Runs -/

/-- One event keeps the connection balanced, and no command finds the queue full. -/
theorem Sound.step (h : Sound connection) {event : Event κ} (hseparate : Separate connection event)
    {result : Except Failure (Connection κ)}
    (hperform : perform size connection event = some result) : Kept result := by
  unfold perform at hperform
  cases event with
  | exchange pending =>
    dsimp only at hperform
    split at hperform
    · rename_i htakes
      cases hperform
      exact h.exchange htakes pending
    · cases hperform
  | ready =>
    dsimp only at hperform
    split at hperform
    · rename_i htakes
      cases hperform
      rw [Bool.and_eq_true, Bool.not_eq_true'] at htakes
      exact h.ready htakes.2
    · cases hperform
  | receive =>
    dsimp only at hperform
    split at hperform
    · rename_i hinbound
      cases hperform
      exact h.receive hinbound
    · cases hperform
  | published messageId =>
    dsimp only at hperform
    split at hperform
    · rename_i hguard
      cases hperform
      rw [Bool.and_eq_true, Option.isNone_iff_eq_none, List.contains_iff_mem] at hguard
      exact h.published hguard.1 hguard.2
    · cases hperform
  | loaded messageId =>
    dsimp only at hperform
    split at hperform
    · rename_i hguard
      cases hperform
      rw [Bool.and_eq_true, Option.isNone_iff_eq_none, List.contains_iff_mem] at hguard
      exact h.loaded hguard.1 hguard.2
    · cases hperform
  | unblock =>
    dsimp only at hperform
    split at hperform
    · rename_i write hblocked
      split at hperform
      · cases hperform
        exact h.unblock hblocked
      · cases hperform
    · cases hperform
  | write =>
    dsimp only at hperform
    split at hperform
    · rename_i write outbound houtbound
      cases hperform
      exact h.write houtbound
    · cases hperform
  | sends message =>
    dsimp only at hperform
    split at hperform
    · rename_i hallows
      cases hperform
      exact h.sends hallows hseparate
    · cases hperform

variable (size) in
/-- The condition holds before every event of a run. -/
def Separated (connection : Connection κ) : List (Event κ) → Prop
  | [] => True
  | event :: events => Separate connection event ∧
      ∀ connection', perform size connection event = some (.ok connection') →
        Separated connection' events

/-- A run keeps the connection balanced, and no command finds the queue full. -/
theorem Sound.run (h : Sound connection) {events : List (Event κ)}
    (hseparated : Separated size connection events) {result : Except Failure (Connection κ)}
    (hrun : run size connection events = some result) : Kept result := by
  induction events generalizing connection with
  | nil =>
    cases hrun
    exact h
  | cons event events ih =>
    obtain ⟨hseparate, hlater⟩ := hseparated
    rw [Outbound.run] at hrun
    split at hrun
    · rename_i connection' hperform
      exact ih (h.step hseparate hperform) (hlater connection' hperform) hrun
    · exact h.step hseparate hrun

/-- In no run in which publications and questions of a command are under way one after the other is
there a command, a command that is sent again, or the answer to the attachment that finds the queue
to the writer full. -/
theorem outbound_never_full (size : Nat → ExecutorCommand → Nat) (events : List (Event κ))
    (hseparated : Separated size {} events) :
    run size ({} : Connection κ) events ≠ some (.error .outboundFull) := by
  intro hrun
  exact (sound_start.run hseparated hrun) rfl

/-- A call of the method {lit}`m`. -/
def smallPending : PendingCommand Unit where
  command := .execute
    { command := .invoke
        { requestId := "r"
          actor := { projectId := "p", actorName := "A", actorId := "1" }
          method := "m"
          args := [] }
      state := none
      residentOnly := false }
  reply := ()

/-- A call publishes output. -/
def publishing : List (Event Unit) :=
  [.exchange smallPending, .write, .sends (.socketEffects 1), .receive, .published 1, .write]

theorem outbound_never_full_of_publication :
    Separated (fun _ _ => 0) {} publishing ∧
      run (fun _ _ => 0) ({} : Connection Unit) publishing ≠ some (.error .outboundFull) := by
  have hseparated : Separated (fun _ _ => 0) ({} : Connection Unit) publishing := by
    refine ⟨trivial, fun sent hsent => ⟨trivial, fun running hrunning => ⟨?_, fun _ _ =>
      ⟨trivial, fun _ _ => ⟨trivial, fun _ _ => ⟨trivial, fun _ _ => trivial⟩⟩⟩⟩⟩⟩
    obtain rfl := Except.ok.inj (Option.some.inj hsent)
    obtain rfl := Except.ok.inj (Option.some.inj hrunning)
    exact List.not_mem_nil
  exact ⟨hseparated, outbound_never_full _ _ hseparated⟩

/-- Whether a run ends because the queue is full. -/
def isFull : Option (Except Failure (Connection κ)) → Bool
  | some (.error .outboundFull) => true
  | _ => false

theorem eq_of_isFull {result : Option (Except Failure (Connection κ))}
    (h : isFull result = true) : result = some (.error .outboundFull) := by
  unfold isFull at h
  split at h
  · rfl
  · cases h

/-- The executor runs 33 commands.  They publish output, and all but one ask for connections, while
the writer has stopped.  The next command finds the queue full of acknowledgements. -/
def overflowing : List (Event Unit) :=
  List.replicate 33 (.exchange smallPending) ++ List.replicate 33 .write ++
    (List.range' 1 33).map (fun messageId => .sends (.socketEffects messageId)) ++
    (List.range' 1 32).map (fun messageId => .sends (.getConnections messageId)) ++
    List.replicate 65 .receive ++
    (List.range' 1 33).map .published ++ (List.range' 1 32).map .loaded ++
    [.exchange smallPending]

theorem outbound_overflows :
    run (fun _ _ => 0) ({} : Connection Unit) overflowing = some (.error .outboundFull) :=
  eq_of_isFull (by decide +kernel)

end Outbound
end DurableActors
