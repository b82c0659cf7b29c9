import Mathlib

/-!
# Socket output of an invocation

The class {lit}`SocketOutput` of {lit}`sdk/src/actor/socket.ts`.  Actor code pushes effects at any
time; a drain loop hands them to the publisher in batches, one after the other's
acknowledgement; and the invocation ends with a flush.

Each run of {lit}`drain` is a coroutine with a promise.  What happens between two of its
awaits is one step, and the steps of pushes, of the publisher, of drains and of
flushes interleave freely.  The publisher may fail at once or later; it fails with
an error, never with {lit}`undefined`.

Main results:

- Theorem {lit}`Ordered.step`: one step keeps the order.
- Theorem {lit}`socket_output_in_order`: what is handed over, and what a flush tells.
-/

namespace DurableActors
namespace Sdk

variable {α ε : Type}

/-- A run of {lit}`drain` that awaits the publisher. -/
structure Drain (α ε : Type) where
  promise : Nat
  batch : List α
  outcome : Option (Except ε Unit) := none

/-- A call of {lit}`flush`: the promise that it awaits, and how many effects were pushed before
it. -/
structure Flush (ε : Type) where
  awaits : Option Nat
  before : Nat
  result : Option (Except ε Unit) := none

/-- The output's own fields, the drains that run and the promises of those that ended, the flushes,
and the history: the pushes, those that are queued, those of each batch that the publisher got, the
batches that it acknowledged and the errors with which it failed. -/
structure SocketOutput (α ε : Type) where
  pending : Option Nat := none
  queued : List α := []
  queuedBytes : Nat := 0
  failure : Option ε := none
  promises : Nat := 0
  running : List (Drain α ε) := []
  settled : List (Nat × Except ε Unit) := []
  flushes : List (Flush ε) := []
  pushed : List (List α) := []
  waiting : List (List α) := []
  handed : List (List (List α)) := []
  acknowledged : List (List α) := []
  errors : List ε := []

namespace SocketOutput

/-- Why a push throws. -/
inductive PushError (ε : Type)
  | failed (error : ε)
  | full

/-- The loop of {lit}`drain` from its condition to its next await or its end. -/
def continueDrain (output : SocketOutput α ε) (promise : Nat) (threw : Option ε) :
    SocketOutput α ε :=
  if output.queued.isEmpty then
    { output with pending := none, settled := (promise, .ok ()) :: output.settled }
  else
    let taken : SocketOutput α ε :=
      { output with
        queued := []
        queuedBytes := 0
        waiting := []
        handed := output.handed ++ [output.waiting] }
    match threw with
    | none => { taken with running := { promise, batch := output.queued } :: output.running }
    | some error =>
        { taken with
          pending := none
          failure := some error
          settled := (promise, .error error) :: output.settled
          errors := output.errors ++ [error] }

/-- The effects of a push join the queue. -/
def enqueue (bytes : List α → Nat) (output : SocketOutput α ε) (effects : List α) :
    SocketOutput α ε :=
  { output with
    queued := output.queued ++ effects
    queuedBytes := output.queuedBytes + bytes effects
    pushed := output.pushed ++ [effects]
    waiting := output.waiting ++ [effects] }

/-- {lit}`push`, given the bytes of a list of effects.  The first drain runs up to its first
await, and its promise becomes the pending one. -/
def push (bytes : List α → Nat) (output : SocketOutput α ε) (effects : List α)
    (threw : Option ε) : Except (PushError ε) (SocketOutput α ε) :=
  match output.failure with
  | some error => .error (.failed error)
  | none =>
      if 512 < output.queued.length + effects.length ∨
          24 * 1024 * 1024 < output.queuedBytes + bytes effects then
        .error .full
      else
        let queued := enqueue bytes output effects
        match output.pending with
        | some _ => .ok queued
        | none =>
            let promise := output.promises
            .ok { continueDrain { queued with promises := promise + 1 } promise threw with
              pending := some promise }

/-- A drain goes on after its publisher settled. -/
def resume (output : SocketOutput α ε) (drain : Drain α ε) (others : List (Drain α ε))
    (threw : Option ε) : Except ε Unit → SocketOutput α ε
  | .ok () =>
      continueDrain { output with
        running := others
        acknowledged := output.acknowledged ++ [drain.batch] } drain.promise threw
  | .error error =>
      { output with
        pending := none
        failure := some error
        running := others
        settled := (drain.promise, .error error) :: output.settled
        errors := output.errors ++ [error] }

/-- What {lit}`flush` throws or returns after its await. -/
def flushResult (output : SocketOutput α ε) : Except ε Unit → Except ε Unit
  | .error error => .error error
  | .ok () =>
      match output.failure with
      | some error => .error error
      | none => .ok ()

variable (bytes : List α → Nat)

/-- One step of actor code, the publisher, a drain or a flush.  Every caller of {lit}`push` has an
effect to push. -/
inductive Step : SocketOutput α ε → SocketOutput α ε → Prop
  | push {output next effects threw} : effects ≠ [] → output.push bytes effects threw = .ok next →
      Step output next
  | publish {output before drain after outcome} : output.running = before ++ drain :: after →
      drain.outcome = none →
      Step output
        { output with running := before ++ { drain with outcome := some outcome } :: after }
  | resume {output before drain after outcome threw} : output.running = before ++ drain :: after →
      drain.outcome = some outcome →
      Step output (output.resume drain (before ++ after) threw outcome)
  | flush {output} :
      Step output
        { output with
          flushes := { awaits := output.pending, before := output.pushed.flatten.length } ::
            output.flushes }
  | flushed {output before flush after awaited} : output.flushes = before ++ flush :: after →
      flush.result = none →
      (∀ promise ∈ flush.awaits, (promise, awaited) ∈ output.settled) →
      (flush.awaits = none → awaited = .ok ()) →
      Step output
        { output with
          flushes := before ++ { flush with result := some (output.flushResult awaited) } :: after }

/-- A run from a new output. -/
def Reachable (output : SocketOutput α ε) : Prop :=
  Relation.ReflTransGen (Step bytes) {} output

/-! ## Order -/

/-- The pushes of a batch are within the limits. -/
def Within (batch : List (List α)) : Prop :=
  batch.flatten.length ≤ 512 ∧ (batch.map bytes).sum ≤ 24 * 1024 * 1024

/-- All effects that were pushed before the flush are acknowledged. -/
def Acknowledged (output : SocketOutput α ε) (flush : Flush ε) : Prop :=
  flush.before ≤ output.acknowledged.flatten.length

/-- The history of the output, whatever it does at the moment. -/
structure History (output : SocketOutput α ε) : Prop where
  queue : output.queued = output.waiting.flatten
  queueBytes : output.queuedBytes = (output.waiting.map bytes).sum
  queueWithin : Within bytes output.waiting
  pushes : output.handed.flatten ++ output.waiting = output.pushed
  batches : ∀ batch ∈ output.handed, Within bytes batch
  settled : ∀ ended ∈ output.settled, ended.1 < output.promises
  once : ∀ ended ∈ output.settled, ∀ other ∈ output.settled, ended.1 = other.1 → ended = other
  before : ∀ flush ∈ output.flushes, flush.before ≤ output.pushed.flatten.length

/-- What a flush that ended told. -/
def Told (output : SocketOutput α ε) (flush : Flush ε) : Except ε Unit → Prop
  | .ok () => Acknowledged output flush
  | .error error => output.failure = some error

/-- What an open flush waits for while nothing has failed: a given drain, or nothing any more. -/
def Awaits (output : SocketOutput α ε) (current : Option Nat) (flush : Flush ε) : Prop :=
  (∃ promise, flush.awaits = some promise ∧ current = some promise) ∨
    Acknowledged output flush ∧
      ∀ promise ∈ flush.awaits, (promise, .ok ()) ∈ output.settled

/-- What an open flush finds after a failure. -/
def Fails (output : SocketOutput α ε) (error : ε) (flush : Flush ε) : Prop :=
  ∀ promise ∈ flush.awaits,
    (promise, .ok ()) ∈ output.settled ∨ (promise, .error error) ∈ output.settled

/-- Every flush waits as given, or has told the truth. -/
def Flushes (output : SocketOutput α ε) (waits : Flush ε → Prop) : Prop :=
  ∀ flush ∈ output.flushes,
    (flush.result = none → waits flush) ∧ ∀ result ∈ flush.result, Told output flush result

/-- Where the output stands: nothing to do, one drain that runs, or failed. -/
inductive Phase : SocketOutput α ε → Prop
  | idle {output} : output.running = [] → output.pending = none → output.failure = none →
      output.errors = [] → output.queued = [] →
      output.handed.map List.flatten = output.acknowledged →
      Flushes output (Awaits output none) → Phase output
  | draining {output drain} : output.running = [drain] → output.pending = some drain.promise →
      output.failure = none → output.errors = [] → drain.promise < output.promises →
      (∀ ended ∈ output.settled, ended.1 ≠ drain.promise) →
      output.handed.map List.flatten = output.acknowledged ++ [drain.batch] →
      Flushes output (Awaits output (some drain.promise)) → Phase output
  | failed {output error batch} : output.running = [] →
      (∀ promise ∈ output.pending, (promise, .error error) ∈ output.settled) →
      output.failure = some error → output.errors = [error] →
      output.handed.map List.flatten = output.acknowledged ++ [batch] →
      Flushes output (Fails output error) → Phase output

/-- The order of the output. -/
structure Ordered (output : SocketOutput α ε) : Prop where
  history : History bytes output
  phase : Phase output

/-- A drain between two batches: everything handed over is acknowledged. -/
structure Between (output : SocketOutput α ε) (promise : Nat) : Prop where
  history : History bytes output
  running : output.running = []
  failure : output.failure = none
  errors : output.errors = []
  acknowledged : output.handed.map List.flatten = output.acknowledged
  fresh : promise < output.promises
  open_ : ∀ ended ∈ output.settled, ended.1 ≠ promise
  flushes : Flushes output (Awaits output (some promise))

variable {bytes} {output : SocketOutput α ε}

/-- Nothing waits: every effect that was pushed is acknowledged. -/
theorem acknowledged_of_queued_nil (h : History bytes output) (hqueued : output.queued = [])
    (hhanded : output.handed.map List.flatten = output.acknowledged) :
    output.acknowledged.flatten = output.pushed.flatten := by
  rw [← h.pushes, List.flatten_append, ← h.queue, hqueued, List.append_nil, ← hhanded,
    List.flatten_flatten]

theorem History.ended {promise : Nat} {result : Except ε Unit} (h : History bytes output)
    (hfresh : promise < output.promises) (hopen : ∀ ended ∈ output.settled, ended.1 ≠ promise) :
    (∀ ended ∈ (promise, result) :: output.settled, ended.1 < output.promises) ∧
      ∀ ended ∈ (promise, result) :: output.settled,
        ∀ other ∈ (promise, result) :: output.settled, ended.1 = other.1 → ended = other := by
  refine ⟨?_, ?_⟩
  · rintro ended (_ | ⟨_, hended⟩)
    · exact hfresh
    · exact h.settled ended hended
  · rintro ended (_ | ⟨_, hended⟩) other (_ | ⟨_, hother⟩) heq
    · rfl
    · exact absurd heq.symm (hopen other hother)
    · exact absurd heq (hopen ended hended)
    · exact h.once ended hended other hother heq

/-- A flush waits on when nothing that it looks at is lost. -/
theorem Flushes.mono {next : SocketOutput α ε} {waits waits' : Flush ε → Prop}
    (h : Flushes output waits) (hflushes : next.flushes = output.flushes)
    (hacknowledged : output.acknowledged.flatten.length ≤ next.acknowledged.flatten.length)
    (hfailure : ∀ error, output.failure = some error → next.failure = some error)
    (hwaits : ∀ flush ∈ output.flushes, flush.result = none → waits flush → waits' flush) :
    Flushes next waits' := by
  intro flush hflush
  rw [hflushes] at hflush
  obtain ⟨hopen, htold⟩ := h flush hflush
  refine ⟨fun hresult => hwaits flush hflush hresult (hopen hresult), fun result hresult => ?_⟩
  have htold := htold result hresult
  cases result with
  | ok _ => exact Nat.le_trans htold hacknowledged
  | error error => exact hfailure error htold

/-- The drain hands over the queue. -/
theorem Between.hand {promise : Nat} (h : Between bytes output promise) :
    Ordered bytes { output with
      pending := some promise
      queued := []
      queuedBytes := 0
      waiting := []
      handed := output.handed ++ [output.waiting]
      running := [{ promise, batch := output.queued }] } where
  history := {
    queue := rfl
    queueBytes := rfl
    queueWithin := ⟨by simp, by simp⟩
    pushes := by simpa using h.history.pushes
    batches := by
      intro batch hbatch
      rcases List.mem_append.mp hbatch with hbatch | hbatch
      · exact h.history.batches batch hbatch
      · rw [List.mem_singleton.mp hbatch]
        exact h.history.queueWithin
    settled := h.history.settled
    once := h.history.once
    before := h.history.before }
  phase := by
    refine .draining rfl rfl h.failure h.errors h.fresh h.open_ ?_ ?_
    · simp [h.acknowledged, h.history.queue]
    · exact h.flushes.mono rfl (Nat.le_refl _) (fun _ herror => herror) fun _ _ _ hwaits => hwaits

/-- The publisher fails, at once or later. -/
theorem Ordered.fail {promise : Nat} (batch : List α) (hhistory : History bytes output)
    (hfailure : output.failure = none) (herrors : output.errors = [])
    (hfresh : promise < output.promises) (hopen : ∀ ended ∈ output.settled, ended.1 ≠ promise)
    (hhanded : output.handed.map List.flatten = output.acknowledged ++ [batch])
    (hflushes : Flushes output (Awaits output (some promise))) (error : ε)
    (pending : Option Nat) (hpending : ∀ other ∈ pending, other = promise) :
    Ordered bytes { output with
      pending
      failure := some error
      running := []
      settled := (promise, .error error) :: output.settled
      errors := output.errors ++ [error] } where
  history := { hhistory with
    settled := (hhistory.ended hfresh hopen).1
    once := (hhistory.ended hfresh hopen).2 }
  phase := by
    refine @Phase.failed _ _ _ error _ rfl ?_ rfl (by simp [herrors]) hhanded ?_
    · intro other hother
      rw [hpending other hother]
      exact List.mem_cons_self
    · refine hflushes.mono rfl (Nat.le_refl _) (by simp [hfailure]) fun flush _ _ hwaits => ?_
      rcases hwaits with ⟨awaited, hawaits, hcurrent⟩ | ⟨-, hawaits⟩
      · cases hcurrent
        intro other hother
        rw [hawaits] at hother
        cases hother
        exact .inr List.mem_cons_self
      · exact fun other hother => .inl (List.mem_cons_of_mem _ (hawaits other hother))

/-- The publisher fails at once. -/
theorem Between.fail {promise : Nat} (h : Between bytes output promise) (error : ε)
    (pending : Option Nat) (hpending : ∀ other ∈ pending, other = promise) :
    Ordered bytes { output with
      pending
      queued := []
      queuedBytes := 0
      waiting := []
      handed := output.handed ++ [output.waiting]
      failure := some error
      running := []
      settled := (promise, .error error) :: output.settled
      errors := output.errors ++ [error] } :=
  Ordered.fail output.queued h.hand.history h.failure h.errors h.fresh h.open_
    (by simp [h.acknowledged, h.history.queue])
    (h.flushes.mono rfl (Nat.le_refl _) (fun _ herror => herror) fun _ _ _ hwaits => hwaits)
    error pending hpending

/-- The drain ends with an empty queue. -/
theorem Between.finish {promise : Nat} (h : Between bytes output promise)
    (hqueued : output.queued = []) :
    Ordered bytes { output with
      pending := none
      settled := (promise, .ok ()) :: output.settled } where
  history := { h.history with
    settled := (h.history.ended h.fresh h.open_).1
    once := (h.history.ended h.fresh h.open_).2 }
  phase := by
    refine .idle h.running rfl h.failure h.errors hqueued h.acknowledged ?_
    refine h.flushes.mono rfl (Nat.le_refl _) (fun _ herror => herror)
      fun flush hflush _ hwaits => .inr ?_
    have hall := acknowledged_of_queued_nil h.history hqueued h.acknowledged
    rcases hwaits with ⟨awaited, hawaits, hcurrent⟩ | ⟨hacknowledged, hawaits⟩
    · cases hcurrent
      refine ⟨?_, fun other hother => ?_⟩
      · rw [Acknowledged, hall]
        exact h.history.before flush hflush
      · rw [hawaits] at hother
        cases hother
        exact List.mem_cons_self
    · exact ⟨hacknowledged, fun other hother => List.mem_cons_of_mem _ (hawaits other hother)⟩

/-! ## Runs -/

/-- A new output is in order. -/
theorem Ordered.init : Ordered bytes ({} : SocketOutput α ε) where
  history := {
    queue := rfl
    queueBytes := rfl
    queueWithin := ⟨by simp, by simp⟩
    pushes := rfl
    batches := by simp
    settled := by simp
    once := by simp
    before := by simp }
  phase := .idle rfl rfl rfl rfl rfl rfl (by simp [Flushes])

/-- The loop goes on from between two batches. -/
theorem Between.continueDrain {promise : Nat} (h : Between bytes output promise)
    (hpending : output.pending = some promise) (threw : Option ε) :
    Ordered bytes (output.continueDrain promise threw) := by
  by_cases hqueued : output.queued = []
  · rw [SocketOutput.continueDrain, if_pos (List.isEmpty_iff.mpr hqueued)]
    exact h.finish hqueued
  · rw [SocketOutput.continueDrain, if_neg (mt List.isEmpty_iff.mp hqueued)]
    cases threw with
    | none => simpa only [h.running, hpending] using h.hand
    | some error => simpa only [h.running] using h.fail error none (by simp)

/-- The loop starts within a push, which then stores the promise. -/
theorem Between.startDrain {promise : Nat} (h : Between bytes output promise)
    (hqueued : output.queued ≠ []) (threw : Option ε) :
    Ordered bytes { output.continueDrain promise threw with pending := some promise } := by
  rw [SocketOutput.continueDrain, if_neg (mt List.isEmpty_iff.mp hqueued)]
  cases threw with
  | none => simpa only [h.running] using h.hand
  | some error => simpa only [h.running] using h.fail error (some promise) (by simp)

/-- A push that finds room is in the history. -/
theorem History.enqueue {effects : List α} (h : History bytes output)
    (hroom : ¬ (512 < output.queued.length + effects.length ∨
      24 * 1024 * 1024 < output.queuedBytes + bytes effects)) :
    History bytes (output.enqueue bytes effects) where
  queue := by simp [SocketOutput.enqueue, h.queue]
  queueBytes := by simp [SocketOutput.enqueue, h.queueBytes]
  queueWithin := by
    rw [h.queue, h.queueBytes] at hroom
    simp only [Within, SocketOutput.enqueue, List.flatten_append, List.length_append,
      List.flatten_singleton, List.map_append, List.sum_append, List.map_cons, List.map_nil,
      List.sum_cons, List.sum_nil]
    omega
  pushes := by simp [SocketOutput.enqueue, ← h.pushes]
  batches := h.batches
  settled := h.settled
  once := h.once
  before := by
    intro flush hflush
    have hbefore := h.before flush hflush
    simp only [SocketOutput.enqueue, List.flatten_append, List.length_append]
    omega

/-- A push keeps the order. -/
theorem Ordered.push {next : SocketOutput α ε} {effects : List α} {threw : Option ε}
    (h : Ordered bytes output) (heffects : effects ≠ [])
    (hpush : output.push bytes effects threw = .ok next) : Ordered bytes next := by
  rw [SocketOutput.push] at hpush
  split at hpush
  · cases hpush
  split at hpush
  · cases hpush
  rename_i hfailure hroom
  have hhistory := h.history.enqueue hroom
  cases h.phase with
  | idle hrunning hpending _ herrors hqueued hhanded hflushes =>
    -- the new drain takes its first batch within the push
    simp only [hpending, Except.ok.injEq] at hpush
    subst hpush
    refine Between.startDrain ?_ (by simp [enqueue, heffects]) threw
    refine ⟨?_, hrunning, hfailure, herrors, hhanded, Nat.lt_succ_self _, ?_, ?_⟩
    · have hsettled := fun ended hended => Nat.lt_succ_of_lt (h.history.settled ended hended)
      exact { hhistory with settled := hsettled }
    · exact fun ended hended => Nat.ne_of_lt (h.history.settled ended hended)
    · refine hflushes.mono rfl (Nat.le_refl _) (fun _ herror => herror) fun _ _ _ hwaits => ?_
      rcases hwaits with ⟨_, -, hcurrent⟩ | hwaits
      · cases hcurrent
      · exact .inr hwaits
  | draining hrunning hpending _ herrors hfresh hopen hhanded hflushes =>
    simp only [hpending, Except.ok.injEq] at hpush
    subst hpush
    exact ⟨hhistory, .draining hrunning hpending hfailure herrors hfresh hopen hhanded
      (hflushes.mono rfl (Nat.le_refl _) (fun _ herror => herror) fun _ _ _ hwaits => hwaits)⟩
  | failed _ _ hfailed => simp [hfailed] at hfailure

/-- The one drain that runs. -/
theorem drain_unique {before after : List (Drain α ε)} {drain current : Drain α ε}
    (hdrain : output.running = before ++ drain :: after) (hrunning : output.running = [current]) :
    before = [] ∧ drain = current ∧ after = [] := by
  rw [hrunning] at hdrain
  cases before with
  | nil => simpa [eq_comm] using hdrain
  | cons first rest => simp at hdrain

/-- A publisher that settles keeps the order. -/
theorem Ordered.publish {before after : List (Drain α ε)} {drain : Drain α ε}
    {outcome : Option (Except ε Unit)} (h : Ordered bytes output)
    (hdrain : output.running = before ++ drain :: after) :
    Ordered bytes { output with running := before ++ { drain with outcome } :: after } := by
  cases h.phase with
  | idle hrunning => simp [hrunning] at hdrain
  | draining hrunning hpending hfailure herrors hfresh hopen hhanded hflushes =>
    obtain ⟨rfl, rfl, rfl⟩ := drain_unique hdrain hrunning
    exact ⟨{ h.history with },
      .draining rfl hpending hfailure herrors hfresh hopen hhanded hflushes⟩
  | failed hrunning => simp [hrunning] at hdrain

/-- A drain that goes on keeps the order. -/
theorem Ordered.resume {before after : List (Drain α ε)} {drain : Drain α ε}
    {outcome : Except ε Unit} {threw : Option ε} (h : Ordered bytes output)
    (hdrain : output.running = before ++ drain :: after) :
    Ordered bytes (output.resume drain (before ++ after) threw outcome) := by
  cases h.phase with
  | idle hrunning => simp [hrunning] at hdrain
  | draining hrunning hpending hfailure herrors hfresh hopen hhanded hflushes =>
    obtain ⟨rfl, rfl, rfl⟩ := drain_unique hdrain hrunning
    cases outcome with
    | ok _ =>
      have hbetween : Between bytes { output with
          running := []
          acknowledged := output.acknowledged ++ [drain.batch] } drain.promise := by
        refine ⟨{ h.history with }, rfl, hfailure, herrors, hhanded, hfresh, hopen, ?_⟩
        refine hflushes.mono rfl (by simp) (fun _ herror => herror) fun flush _ _ hwaits => ?_
        exact hwaits.imp_right fun hwaits => ⟨Nat.le_trans hwaits.1 (by simp), hwaits.2⟩
      exact hbetween.continueDrain hpending threw
    | error error =>
      exact Ordered.fail drain.batch h.history hfailure herrors hfresh hopen hhanded hflushes error
        none (by simp)
  | failed hrunning => simp [hrunning] at hdrain

/-- A new flush keeps the order. -/
theorem Ordered.flush (h : Ordered bytes output) :
    Ordered bytes { output with
      flushes := { awaits := output.pending, before := output.pushed.flatten.length } ::
        output.flushes } where
  history := { h.history with
    before := by
      rintro flush (_ | ⟨_, hflush⟩)
      · exact Nat.le_refl _
      · exact h.history.before flush hflush }
  phase := by
    cases h.phase with
    | idle hrunning hpending hfailure herrors hqueued hhanded hflushes =>
      have hall := acknowledged_of_queued_nil h.history hqueued hhanded
      refine .idle hrunning hpending hfailure herrors hqueued hhanded ?_
      exact List.forall_mem_cons.mpr ⟨⟨fun _ => .inr ⟨by simp [Acknowledged, hall],
        by simp [hpending]⟩, by simp⟩, hflushes⟩
    | draining hrunning hpending hfailure herrors hfresh hopen hhanded hflushes =>
      refine .draining hrunning hpending hfailure herrors hfresh hopen hhanded ?_
      exact List.forall_mem_cons.mpr ⟨⟨fun _ => .inl ⟨_, hpending, rfl⟩, by simp⟩, hflushes⟩
    | failed hrunning hpending hfailure herrors hhanded hflushes =>
      refine .failed hrunning hpending hfailure herrors hhanded ?_
      exact List.forall_mem_cons.mpr ⟨⟨fun _ promise hpromise =>
        .inr (hpending promise hpromise), by simp⟩, hflushes⟩

/-- One flush ends, and tells the truth. -/
theorem Flushes.flushed {before after : List (Flush ε)} {flush : Flush ε}
    {result : Except ε Unit} {waits : Flush ε → Prop} (h : Flushes output waits)
    (hflush : output.flushes = before ++ flush :: after) (htold : Told output flush result) :
    ∀ other ∈ before ++ { flush with result := some result } :: after,
      (other.result = none → waits other) ∧
        ∀ result ∈ other.result, Told output other result := by
  intro other hother
  simp only [List.mem_append, List.mem_cons] at hother
  rcases hother with hother | rfl | hother
  · exact h other (by simp [hflush, hother])
  · refine ⟨by simp, fun found hfound => ?_⟩
    cases hfound
    cases result <;> exact htold
  · exact h other (by simp [hflush, hother])

/-- Without a failure a flush ends well, and only when it waits for no drain any more. -/
theorem told_of_awaits {current : Option Nat} {flush : Flush ε} {awaited : Except ε Unit}
    (h : History bytes output) (hfailure : output.failure = none)
    (hcurrent : ∀ promise ∈ current, ∀ ended ∈ output.settled, ended.1 ≠ promise)
    (hwaits : Awaits output current flush)
    (hawaited : ∀ promise ∈ flush.awaits, (promise, awaited) ∈ output.settled)
    (hnothing : flush.awaits = none → awaited = .ok ()) :
    Told output flush (output.flushResult awaited) := by
  rcases hwaits with ⟨promise, hawaits, hpromise⟩ | ⟨hacknowledged, hsettled⟩
  · exact absurd rfl (hcurrent promise hpromise _ (hawaited promise hawaits))
  · have hok : awaited = .ok () := by
      cases hawaits : flush.awaits with
      | none => exact hnothing hawaits
      | some promise =>
        have hsame := h.once _ (hawaited promise hawaits) _ (hsettled promise hawaits) rfl
        exact (Prod.mk.inj hsame).2
    rw [hok, flushResult, hfailure]
    exact hacknowledged

/-- After a failure a flush ends with its error. -/
theorem told_of_fails {error : ε} {flush : Flush ε} {awaited : Except ε Unit}
    (h : History bytes output) (hfailure : output.failure = some error)
    (hfails : Fails output error flush)
    (hawaited : ∀ promise ∈ flush.awaits, (promise, awaited) ∈ output.settled)
    (hnothing : flush.awaits = none → awaited = .ok ()) :
    Told output flush (output.flushResult awaited) := by
  cases awaited with
  | ok _ =>
    rw [flushResult, hfailure]
    exact hfailure
  | error found =>
    cases hawaits : flush.awaits with
    | none => cases hnothing hawaits
    | some promise =>
      have hmem := hawaited promise hawaits
      rcases hfails promise hawaits with hsettled | hsettled
      · cases (Prod.mk.inj (h.once _ hmem _ hsettled rfl)).2
      · cases (Prod.mk.inj (h.once _ hmem _ hsettled rfl)).2
        exact hfailure

/-- A flush that ends keeps the order. -/
theorem Ordered.flushed {before after : List (Flush ε)} {flush : Flush ε}
    {awaited : Except ε Unit} (h : Ordered bytes output)
    (hflush : output.flushes = before ++ flush :: after) (hopen : flush.result = none)
    (hawaited : ∀ promise ∈ flush.awaits, (promise, awaited) ∈ output.settled)
    (hnothing : flush.awaits = none → awaited = .ok ()) :
    Ordered bytes { output with
      flushes := before ++
        { flush with result := some (output.flushResult awaited) } :: after } where
  history := { h.history with
    before := by
      intro other hother
      simp only [List.mem_append, List.mem_cons] at hother
      rcases hother with hother | rfl | hother
      · exact h.history.before other (by simp [hflush, hother])
      · exact h.history.before flush (by simp [hflush])
      · exact h.history.before other (by simp [hflush, hother]) }
  phase := by
    have hmem : flush ∈ output.flushes := by simp [hflush]
    cases h.phase with
    | idle hrunning hpending hfailure herrors hqueued hhanded hflushes =>
      refine .idle hrunning hpending hfailure herrors hqueued hhanded (hflushes.flushed hflush ?_)
      exact told_of_awaits h.history hfailure (by simp) ((hflushes flush hmem).1 hopen) hawaited
        hnothing
    | draining hrunning hpending hfailure herrors hfresh hunsettled hhanded hflushes =>
      refine .draining hrunning hpending hfailure herrors hfresh hunsettled hhanded
        (hflushes.flushed hflush ?_)
      refine told_of_awaits h.history hfailure ?_ ((hflushes flush hmem).1 hopen) hawaited hnothing
      rintro promise ⟨⟩
      exact hunsettled
    | failed hrunning hpending hfailure herrors hhanded hflushes =>
      refine .failed hrunning hpending hfailure herrors hhanded (hflushes.flushed hflush ?_)
      exact told_of_fails h.history hfailure ((hflushes flush hmem).1 hopen) hawaited hnothing

/-- One step keeps the order. -/
theorem Ordered.step {next : SocketOutput α ε} (h : Ordered bytes output)
    (hstep : Step bytes output next) : Ordered bytes next := by
  cases hstep with
  | push heffects hpush => exact h.push heffects hpush
  | publish hdrain _ => exact h.publish hdrain
  | resume hdrain _ => exact h.resume hdrain
  | flush => exact h.flush
  | flushed hflush hopen hawaited hnothing => exact h.flushed hflush hopen hawaited hnothing

/-- Every run keeps the order. -/
theorem Reachable.ordered (h : Reachable bytes output) : Ordered bytes output := by
  induction h with
  | refl => exact Ordered.init
  | tail _ hstep ih => exact ih.step hstep

/-- Everything handed over is acknowledged, apart from at most the last batch. -/
theorem Phase.handed (h : Phase output) :
    output.running.length ≤ 1 ∧
      ∃ last, last.length ≤ 1 ∧ output.handed.map List.flatten = output.acknowledged ++ last := by
  cases h with
  | idle hrunning _ _ _ _ hhanded => exact ⟨by simp [hrunning], [], by simp, by simp [hhanded]⟩
  | draining hrunning _ _ _ _ _ hhanded => exact ⟨by simp [hrunning], [_], by simp, hhanded⟩
  | failed hrunning _ _ _ hhanded => exact ⟨by simp [hrunning], [_], by simp, hhanded⟩

/-- A flush that ended has told the truth, and what failed is the first error. -/
theorem Phase.told (h : Phase output) {flush : Flush ε} (hflush : flush ∈ output.flushes)
    {result : Except ε Unit} (hresult : result ∈ flush.result) :
    Told output flush result ∧ output.failure = output.errors.head? := by
  cases h with
  | idle _ _ hfailure herrors _ _ hflushes =>
    exact ⟨(hflushes flush hflush).2 result hresult, by simp [hfailure, herrors]⟩
  | draining _ _ hfailure herrors _ _ _ hflushes =>
    exact ⟨(hflushes flush hflush).2 result hresult, by simp [hfailure, herrors]⟩
  | failed _ _ hfailure herrors _ hflushes =>
    exact ⟨(hflushes flush hflush).2 result hresult, by simp [hfailure, herrors]⟩

/-- What is acknowledged was pushed first. -/
theorem Ordered.acknowledged (h : Ordered bytes output) :
    output.acknowledged.flatten <+: output.pushed.flatten := by
  obtain ⟨last, -, hhanded⟩ := h.phase.handed.2
  refine ⟨last.flatten ++ output.waiting.flatten, ?_⟩
  rw [← List.append_assoc, ← List.flatten_append, ← hhanded, ← List.flatten_flatten,
    ← List.flatten_append, h.history.pushes]

/-- In every run the effects are handed to the publisher in the order in which they were pushed, in
batches of whole pushes within both limits.  A batch is handed over only when the one before it was
acknowledged, so that at most the last one is not; and a flush ends well only when every effect
pushed before it is acknowledged, and else with the first failure. -/
theorem socket_output_in_order (h : Reachable bytes output) :
    output.handed.flatten ++ output.waiting = output.pushed ∧
      (∀ batch ∈ output.handed, Within bytes batch) ∧
      output.running.length ≤ 1 ∧
      (∃ last, last.length ≤ 1 ∧
        output.handed.map List.flatten = output.acknowledged ++ last) ∧
      ∀ flush ∈ output.flushes, ∀ result ∈ flush.result,
        match result with
        | .ok () => output.pushed.flatten.take flush.before <+: output.acknowledged.flatten
        | .error error => output.errors.head? = some error := by
  have hordered := h.ordered
  have hhanded := hordered.phase.handed
  refine ⟨hordered.history.pushes, hordered.history.batches, hhanded.1, hhanded.2, ?_⟩
  intro flush hflush result hresult
  obtain ⟨htold, hfailure⟩ := hordered.phase.told hflush hresult
  cases result with
  | ok _ =>
    have hlength : flush.before ≤ output.acknowledged.flatten.length := htold
    exact List.prefix_of_prefix_length_le (List.take_prefix _ _) hordered.acknowledged
      (Nat.le_trans (List.length_take_le _ _) hlength)
  | error error =>
    rw [← hfailure]
    exact htold

/-- Two effects are pushed, the second while the first is on its way. -/
theorem socket_output_in_order_of_two :
    ∃ output : SocketOutput Nat String, output.waiting = [[2]] ∧
      output.handed.flatten ++ output.waiting = output.pushed := by
  let first : SocketOutput Nat String :=
    { pending := some 0
      promises := 1
      running := [{ promise := 0, batch := [1] }]
      pushed := [[1]]
      handed := [[[1]]] }
  let second : SocketOutput Nat String :=
    { first with queued := [2], queuedBytes := 1, pushed := [[1], [2]], waiting := [[2]] }
  have hfirst : push List.length {} [1] none = .ok first := rfl
  have hsecond : push List.length first [2] none = .ok second := rfl
  have hrun : Reachable List.length second :=
    (Relation.ReflTransGen.single (.push (by decide) hfirst)).tail (.push (by decide) hsecond)
  exact ⟨second, rfl, (socket_output_in_order hrun).1⟩

end SocketOutput

end Sdk
end DurableActors
