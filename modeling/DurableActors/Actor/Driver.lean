import DurableActors.Actor.Executor

/-!
# The driver of the executor connection

The driver numbers the commands that it sends to the executor and keeps each one
until the reply with its number comes.  A command for an actor that it believes to
be resident goes out without the state; when the executor asks for the state, the
command is sent once more under a new number.

An invocation may allow the next one to start while it runs, once.  The permission
goes out over a channel that keeps no messages and only counts that there was one.

Failures of a function end the connection.  The lengths of messages are a parameter.
The queue to the writer, the reports of resident actors and the contents of socket
output are left out.

Main results:

- Theorem {lit}`ExecutorDriver.receive_cases`: a message that is no permission leaves every
  command waiting as it was, or its reply is handed to whoever waits for it.
- Theorem {lit}`ExecutorDriver.allowNextInvocation_cases`: a permission is sent for an invocation
  that waits and has not had one.
-/

namespace DurableActors

/-- The most bytes in a message to the executor. -/
def maxActorExecutorMessageBytes : Nat := 32 * 1024 * 1024

/-- A command that waits for its reply; {lit}`reply` is the channel of whoever waits. -/
structure PendingCommand (κ : Type) where
  command : ExecutorCommand
  admissionGranted : Bool := false
  reply : κ

/-- A message of the executor about a command. -/
inductive ClientMessage
  | readyForInvocation (messageId : Nat)
  | reply (messageId : Nat) (reply : ExecutorReply)
  | socketEffects (messageId : Nat)
  | getConnections (messageId : Nat)
  | attach

namespace ExecutorCommand

/-- Whether the command runs the customer's code. -/
def isInvocation : ExecutorCommand → Bool
  | evict _ => false
  | execute envelope => !envelope.command.isHydrate

/-- Whether the command goes out without the state. -/
def residentOnly : ExecutorCommand → Bool
  | evict _ => false
  | execute envelope => envelope.residentOnly

/-- Ask for a resident instance, or not. -/
def setResidentOnly (residentOnly : Bool) : ExecutorCommand → ExecutorCommand
  | evict actor => evict actor
  | execute envelope => execute { envelope with residentOnly }

/-- The command as it goes out. -/
def sent : ExecutorCommand → ExecutorCommand
  | evict actor => evict actor
  | execute envelope => execute { envelope with
      state := if envelope.residentOnly then none else some (envelope.state.getD .null) }

@[simp]
theorem isInvocation_setResidentOnly (residentOnly : Bool) (command : ExecutorCommand) :
    (command.setResidentOnly residentOnly).isInvocation = command.isInvocation := by
  cases command <;> rfl

end ExecutorCommand

/-- The driver's state.  {lit}`admission` counts the permissions sent so far. -/
structure ExecutorDriver (κ : Type) where
  admission : Nat := 0
  pending : List (Nat × PendingCommand κ) := []
  residents : List ActorKey := []
  nextMessageId : Nat := 1
  publishingIds : List Nat := []
  connectionLookupIds : List Nat := []

namespace ExecutorDriver

variable {κ : Type} (size : Nat → ExecutorCommand → Nat)

/-- A reply for someone who waits. -/
abbrev Answers (κ : Type) := List (κ × Except Error ExecutorReply)

/-- Send a command under the next number. -/
def enqueue (driver : ExecutorDriver κ) (pending : PendingCommand κ) :
    Except Error (ExecutorDriver κ × Answers κ) :=
  let messageId := driver.nextMessageId
  if messageId + 1 < 2 ^ 64 then
    let driver := { driver with nextMessageId := messageId + 1 }
    if size messageId pending.command.sent ≤ maxActorExecutorMessageBytes then
      .ok ({ driver with pending := driver.pending ++ [(messageId, pending)] }, [])
    else
      .ok (driver, [(pending.reply, .ok (.failed "resource_exhausted"
        s!"actor executor command exceeds {maxActorExecutorMessageBytes} bytes"))])
  else
    .error "actor executor message ID overflow"

/-- Take a command.  The actor is not resident again until a reply says so. -/
def handleCommand (driver : ExecutorDriver κ) (pending : PendingCommand κ) :
    Except Error (ExecutorDriver κ × Answers κ) :=
  let actor := pending.command.actor
  let resident := driver.residents.contains actor
  { driver with residents := driver.residents.filter fun other => ¬ other = actor }.enqueue size
    { pending with
      command := pending.command.setResidentOnly (resident && pending.command.isInvocation) }

/-- Let the next invocation start while this one runs. -/
def allowNextInvocation (driver : ExecutorDriver κ) (messageId : Nat) :
    Except Error (ExecutorDriver κ) :=
  match driver.pending.lookup messageId with
  | none => .error "invocation admission has no active call"
  | some pending =>
      if !pending.command.isInvocation then .error "only invocations can admit another call"
      else if pending.admissionGranted then .error "invocation admission was already granted"
      else .ok { driver with
        admission := driver.admission + 1
        pending := driver.pending.map fun entry =>
          if entry.1 = messageId then (entry.1, { entry.2 with admissionGranted := true })
          else entry }

/-- The most actors that the driver remembers as resident. -/
def maxResidents : Nat := 4096

/-- Take the reply to a command. -/
def deliver (driver : ExecutorDriver κ) (messageId : Nat) (reply : ExecutorReply) :
    Except Error (ExecutorDriver κ × Answers κ) :=
  if driver.connectionLookupIds.contains messageId then
    .error "actor completed before connection lookup finished"
  else if driver.publishingIds.contains messageId then
    .error "actor completed before socket output was acknowledged"
  else
    match driver.pending.lookup messageId with
    | none => .error s!"actor executor replied to unknown message {messageId}"
    | some pending =>
        let driver := { driver with
          pending := driver.pending.filter fun entry => ¬ entry.1 = messageId }
        if reply = .stateRequired then
          if pending.command.residentOnly then
            driver.enqueue size { pending with command := pending.command.setResidentOnly false }
          else
            .ok (driver, [(pending.reply, .error "actor executor refused explicit hydration")])
        else if reply.isResident then
          let residents := if maxResidents ≤ driver.residents.length then [] else driver.residents
          .ok ({ driver with residents := residents.insert pending.command.actor },
            [(pending.reply, .ok reply)])
        else
          .ok (driver, [(pending.reply, .ok reply)])

/-- Take socket output of an invocation. -/
def publish (driver : ExecutorDriver κ) (messageId : Nat) : Except Error (ExecutorDriver κ) :=
  if (driver.pending.lookup messageId).isNone then
    .error "socket output has no active actor invocation"
  else if driver.publishingIds.contains messageId then
    .error "actor sent concurrent socket publications"
  else
    .ok { driver with publishingIds := messageId :: driver.publishingIds }

/-- Take a question for the actor's connections. -/
def loadConnections (driver : ExecutorDriver κ) (messageId : Nat) :
    Except Error (ExecutorDriver κ) :=
  match driver.pending.lookup messageId with
  | none => .error "connection lookup has no active actor invocation"
  | some pending =>
      match pending.command with
      | .evict _ => .error "cannot load connections during eviction"
      | .execute _ =>
          if driver.connectionLookupIds.contains messageId then
            .error "actor sent concurrent connection lookups"
          else
            .ok { driver with connectionLookupIds := messageId :: driver.connectionLookupIds }

/-- Take a message of the executor. -/
def receive (driver : ExecutorDriver κ) : ClientMessage → Except Error (ExecutorDriver κ × Answers κ)
  | .readyForInvocation messageId => do return (← driver.allowNextInvocation messageId, [])
  | .reply messageId reply => driver.deliver size messageId reply
  | .socketEffects messageId => do return (← driver.publish messageId, [])
  | .getConnections messageId => do return (← driver.loadConnections messageId, [])
  | .attach => .error "customer actor executor attached more than once"

/-- The socket output of an invocation is published. -/
def published (driver : ExecutorDriver κ) (messageId : Nat) : ExecutorDriver κ :=
  { driver with publishingIds := driver.publishingIds.filter fun id => ¬ id = messageId }

/-- The connections that an invocation asked for are loaded. -/
def loaded (driver : ExecutorDriver κ) (messageId : Nat) : ExecutorDriver κ :=
  { driver with connectionLookupIds := driver.connectionLookupIds.filter fun id => ¬ id = messageId }

/-- The connection ends: nothing waits any more. -/
def close (driver : ExecutorDriver κ) : ExecutorDriver κ := { driver with pending := [] }

/-! ## What the driver does to the commands that wait -/

/-- The commands that wait have different numbers, and all have been used. -/
structure WellNumbered (driver : ExecutorDriver κ) : Prop where
  nodup : (driver.pending.map Prod.fst).Nodup
  bound : ∀ entry ∈ driver.pending, entry.1 < driver.nextMessageId

/-- Who waits for the reply to a command, whether it has had its permission, and whether it may
have one. -/
def waits (pending : PendingCommand κ) : κ × Bool × Bool :=
  (pending.reply, pending.admissionGranted, pending.command.isInvocation)

/-- The commands that wait at the driver. -/
def waiting (driver : ExecutorDriver κ) : List (κ × Bool × Bool) :=
  driver.pending.map fun entry => waits entry.2

variable {size} {driver driver' : ExecutorDriver κ} {answers : Answers κ} {messageId : Nat}
variable {pending : PendingCommand κ}

/-- The command with a number is the only one with it. -/
theorem WellNumbered.split (h : driver.WellNumbered)
    (hlookup : driver.pending.lookup messageId = some pending) :
    ∃ earlier later, driver.pending = earlier ++ (messageId, pending) :: later ∧
      ∀ entry ∈ earlier ++ later, entry.1 ≠ messageId := by
  obtain ⟨earlier, later, hsplit, -⟩ := List.lookup_eq_some_iff.mp hlookup
  refine ⟨earlier, later, hsplit, fun entry hentry heq => ?_⟩
  have hnodup := h.nodup
  rw [hsplit, List.map_append, List.map_cons, List.nodup_middle, List.nodup_cons,
    ← List.map_append] at hnodup
  exact hnodup.1 (List.mem_map.mpr ⟨entry, hentry, heq⟩)

/-- The driver with the command of a number removed. -/
theorem WellNumbered.filter_eq {earlier later : List (Nat × PendingCommand κ)}
    (hne : ∀ entry ∈ earlier ++ later, entry.1 ≠ messageId) :
    (earlier ++ (messageId, pending) :: later).filter (fun entry => ¬ entry.1 = messageId) =
      earlier ++ later := by
  rw [List.filter_append, List.filter_cons_of_neg (by simp), ← List.filter_append,
    List.filter_eq_self]
  exact fun entry hentry => by simpa using hne entry hentry

theorem WellNumbered.remove (h : driver.WellNumbered) (messageId : Nat) :
    WellNumbered { driver with
      pending := driver.pending.filter fun entry => ¬ entry.1 = messageId } where
  nodup := h.nodup.sublist (List.filter_sublist.map Prod.fst)
  bound := fun entry hentry => h.bound entry (List.mem_of_mem_filter hentry)

/-- Every command that waited or came still waits as it was, or its reply was handed out; no
permission was sent. -/
structure Handles (before after : ExecutorDriver κ) (came : List (κ × Bool × Bool))
    (answers : Answers κ) : Prop where
  numbered : after.WellNumbered
  admission : after.admission = before.admission
  waiting : ∃ gone, (after.waiting ++ gone).Perm (came ++ before.waiting) ∧
    answers.map Prod.fst = gone.map Prod.fst

theorem enqueue_handles (h : driver.WellNumbered)
    (hok : driver.enqueue size pending = .ok (driver', answers)) :
    Handles driver driver' [waits pending] answers := by
  have hbound : ∀ entry ∈ driver.pending, entry.1 < driver.nextMessageId + 1 :=
    fun entry hentry => Nat.lt_succ_of_lt (h.bound entry hentry)
  unfold enqueue at hok
  dsimp only at hok
  split at hok
  · split at hok
    · cases hok
      constructor
      · constructor
        · rw [List.map_append, List.map_cons, List.map_nil, List.nodup_append]
          refine ⟨h.nodup, List.nodup_singleton _, ?_⟩
          rintro _ hmem _ hnew rfl
          obtain ⟨entry, hentry, heq⟩ := List.mem_map.mp hmem
          have hlt := h.bound entry hentry
          rw [heq, List.mem_singleton.mp hnew] at hlt
          exact Nat.lt_irrefl _ hlt
        · intro entry hentry
          rcases List.mem_append.mp hentry with hmem | hmem
          · exact hbound entry hmem
          · rw [List.mem_singleton.mp hmem]
            exact Nat.lt_succ_self _
      · rfl
      · refine ⟨[], ?_, rfl⟩
        simp only [waiting, List.map_append, List.map_cons, List.map_nil, List.append_nil]
        exact List.perm_append_comm
    · cases hok
      exact ⟨⟨h.nodup, hbound⟩, rfl, [waits pending], List.perm_append_comm, rfl⟩
  · cases hok

theorem handleCommand_handles (h : driver.WellNumbered)
    (hok : driver.handleCommand size pending = .ok (driver', answers)) :
    Handles driver driver' [waits pending] answers := by
  unfold handleCommand at hok
  have hnumbered : WellNumbered { driver with
      residents := driver.residents.filter fun other => ¬ other = pending.command.actor } :=
    ⟨h.nodup, h.bound⟩
  have hhandles := enqueue_handles hnumbered hok
  obtain ⟨hnumbered, hadmission, gone, hperm, hanswers⟩ := hhandles
  refine ⟨hnumbered, hadmission, gone, ?_, hanswers⟩
  simpa [waits, waiting] using hperm

theorem deliver_handles {reply : ExecutorReply} (h : driver.WellNumbered)
    (hok : driver.deliver size messageId reply = .ok (driver', answers)) :
    Handles driver driver' [] answers := by
  unfold deliver at hok
  split at hok
  · cases hok
  split at hok
  · cases hok
  split at hok
  · cases hok
  rename_i pending hlookup
  obtain ⟨earlier, later, hsplit, hne⟩ := h.split hlookup
  have hremoved := h.remove messageId
  have hfilter : driver.pending.filter (fun entry => ¬ entry.1 = messageId) = earlier ++ later := by
    rw [hsplit, WellNumbered.filter_eq hne]
  -- The command waits no longer, and who waits for its reply is known.
  have hwaiting : (waits pending :: (earlier ++ later).map fun entry => waits entry.2).Perm
      driver.waiting := by
    rw [waiting, hsplit, List.map_append, List.map_append, List.map_cons]
    exact List.perm_middle.symm
  simp only [hfilter] at hok hremoved
  have hanswered : ∀ (residents : List ActorKey) (result : Except Error ExecutorReply),
      driver' = { driver with pending := earlier ++ later, residents } →
      answers = [(pending.reply, result)] → Handles driver driver' [] answers := by
    rintro residents result rfl rfl
    exact ⟨⟨hremoved.nodup, hremoved.bound⟩, rfl, [waits pending],
      List.perm_append_comm.trans hwaiting, rfl⟩
  split at hok
  · split at hok
    · obtain ⟨hnumbered, hadmission, gone, hperm, hanswers⟩ := enqueue_handles hremoved hok
      refine ⟨hnumbered, hadmission, gone, ?_, hanswers⟩
      refine hperm.trans (List.Perm.trans ?_ hwaiting)
      simp [waits, waiting]
    · cases hok
      exact hanswered _ _ rfl rfl
  · split at hok
    · cases hok
      exact hanswered _ _ rfl rfl
    · cases hok
      exact hanswered _ _ rfl rfl

theorem wellNumbered_close : driver.close.WellNumbered := ⟨List.nodup_nil, nofun⟩

/-- Changes of the other fields leave the commands as they are. -/
theorem Handles.of_eq (h : driver.WellNumbered) (hpending : driver'.pending = driver.pending)
    (hnext : driver'.nextMessageId = driver.nextMessageId)
    (hadmission : driver'.admission = driver.admission) : Handles driver driver' [] [] := by
  refine ⟨⟨?_, ?_⟩, hadmission, [], ?_, rfl⟩
  · rw [hpending]
    exact h.nodup
  · rw [hpending, hnext]
    exact h.bound
  · simp [ExecutorDriver.waiting, hpending]

/-- A permission is sent for an invocation that waits and has not had one. -/
theorem allowNextInvocation_cases (h : driver.WellNumbered)
    (hok : driver.allowNextInvocation messageId = .ok driver') :
    ∃ pending others, driver.pending.lookup messageId = some pending ∧
      pending.command.isInvocation = true ∧ pending.admissionGranted = false ∧
      driver.waiting.Perm ((pending.reply, false, true) :: others) ∧
      driver'.waiting.Perm ((pending.reply, true, true) :: others) ∧
      driver'.admission = driver.admission + 1 ∧ driver'.WellNumbered := by
  unfold allowNextInvocation at hok
  split at hok
  · cases hok
  rename_i pending hlookup
  split at hok
  · cases hok
  rename_i hinvocation
  split at hok
  · cases hok
  rename_i hgranted
  cases hok
  have hinvocation : pending.command.isInvocation = true := by simpa using hinvocation
  have hgranted : pending.admissionGranted = false := by simpa using hgranted
  obtain ⟨earlier, later, hsplit, hne⟩ := h.split hlookup
  refine ⟨pending, (earlier ++ later).map fun entry => waits entry.2, hlookup, hinvocation,
    hgranted, ?_, ?_, rfl, ?_⟩
  · rw [waiting, hsplit, List.map_append, List.map_append, List.map_cons]
    simp only [waits, hinvocation, hgranted]
    exact List.perm_middle
  · have hmap : ∀ entries : List (Nat × PendingCommand κ),
        (∀ entry ∈ entries, entry.1 ≠ messageId) →
        (entries.map fun entry => waits (if entry.1 = messageId then
          (entry.1, { entry.2 with admissionGranted := true }) else entry).2) =
          entries.map fun entry => waits entry.2 := by
      intro entries hentries
      refine List.map_congr_left fun entry hentry => ?_
      rw [if_neg (hentries entry hentry)]
    simp only [waiting, List.map_map, Function.comp_def, hsplit, List.map_append, List.map_cons,
      if_true]
    rw [hmap earlier fun entry hentry => hne entry (List.mem_append_left _ hentry),
      hmap later fun entry hentry => hne entry (List.mem_append_right _ hentry)]
    simp only [waits, hinvocation]
    exact List.perm_middle
  · have hkeys : (driver.pending.map fun entry =>
        if entry.1 = messageId then (entry.1, { entry.2 with admissionGranted := true })
        else entry).map Prod.fst = driver.pending.map Prod.fst := by
      rw [List.map_map]
      refine List.map_congr_left fun entry _ => ?_
      simp only [Function.comp_apply]
      split <;> rfl
    constructor
    · show ((driver.pending.map _).map Prod.fst).Nodup
      rw [hkeys]
      exact h.nodup
    · intro entry hentry
      have hmem := List.mem_map_of_mem (f := Prod.fst) hentry
      rw [hkeys] at hmem
      obtain ⟨other, hother, heq⟩ := List.mem_map.mp hmem
      rw [← heq]
      exact h.bound other hother

/-- A message is a permission, or it leaves every command as it was until its reply. -/
theorem receive_cases {message : ClientMessage} (h : driver.WellNumbered)
    (hok : driver.receive size message = .ok (driver', answers)) :
    (∀ messageId, message ≠ .readyForInvocation messageId) ∧ Handles driver driver' [] answers ∨
      ∃ messageId, message = .readyForInvocation messageId ∧ answers = [] ∧
        driver.allowNextInvocation messageId = .ok driver' := by
  cases message with
  | readyForInvocation messageId =>
      simp only [receive] at hok
      cases hallow : driver.allowNextInvocation messageId with
      | error error => simp [hallow, bind, Except.bind] at hok
      | ok driver₁ =>
          rw [hallow] at hok
          cases hok
          exact .inr ⟨messageId, rfl, rfl, hallow⟩
  | reply messageId reply => exact .inl ⟨nofun, deliver_handles h hok⟩
  | socketEffects messageId =>
      simp only [receive, publish] at hok
      split at hok
      · cases hok
      · split at hok
        · cases hok
        · cases hok
          exact .inl ⟨nofun, Handles.of_eq h rfl rfl rfl⟩
  | getConnections messageId =>
      simp only [receive, loadConnections] at hok
      split at hok
      · cases hok
      · split at hok
        · cases hok
        · split at hok
          · cases hok
          · cases hok
            exact .inl ⟨nofun, Handles.of_eq h rfl rfl rfl⟩
  | attach => cases hok

end ExecutorDriver

end DurableActors
