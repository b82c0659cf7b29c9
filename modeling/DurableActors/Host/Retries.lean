import DurableActors.Host.Versions

/-!
# Retries of a committed call

The task keeps the ID and the result of the last call that changed the state, in the
commit it is still writing, in its cached state, and in the snapshot that the next
owner loads.  A call that comes in again is answered from there.

Only one result is kept.  When the outcome of a later call's write is unknown, that
call takes the place of the earlier one as soon as its write is repeated.

Main results:

- Theorem {lit}`later_commit_forgets_call`: a run in which a committed call is executed again,
  although no other call had committed when its retry was taken.
- Theorem {lit}`retry_is_not_executed`: in every run, a retry that is taken when the last snapshot
  written or loaded is that of the call itself is never executed, and a result it is
  answered with is the recorded one.
-/

namespace DurableActors
namespace Host

open Effects

/-! ## When a request was taken -/

/-- Every request has its own reply channel. -/
theorem Reachable.tickets_nodup {allowed : World → Entry → Prop} {hasAdmission : Bool}
    {world : World} (h : Reachable allowed hasAdmission world)
    (hallowed : ∀ world entry, allowed world entry → Enabled world entry) :
    ((world.trace.filterMap received).map ActorRequest.ticket).Nodup := by
  obtain ⟨fuel, rest, hrun⟩ := h
  generalize hlast : (rest, world) = last at hrun
  induction hrun generalizing rest world with
  | refl =>
      cases hlast
      exact List.nodup_nil
  | @tail middle last _ hstep ih =>
      subst hlast
      obtain ⟨program, before⟩ := middle
      have hbefore := ih program rfl
      obtain ⟨op, -, -, ⟨answer, -, hentry, rfl⟩ | ⟨-, htrace⟩⟩ := step_cases hstep
      · obtain ⟨-, hunused⟩ := hallowed _ _ hentry
        rw [World.log_trace, List.filterMap_cons]
        split
        · exact hbefore
        · rename_i request hrequest
          exact List.nodup_cons.mpr ⟨unused_iff.mp (hunused request hrequest), hbefore⟩
      · rw [htrace]
        exact hbefore

/-- A request that was taken came in with some entry of the run. -/
theorem takenAt_eq_some {request : ActorRequest} {trace earlier : List Entry}
    (h : takenAt request trace = some earlier) :
    ∃ later entry, trace = later ++ entry :: earlier ∧ received entry = some request := by
  induction trace with
  | nil => cases h
  | cons entry trace ih =>
      rw [takenAt] at h
      split at h
      · rename_i hreceived
        cases h
        exact ⟨[], entry, rfl, hreceived⟩
      · obtain ⟨later, first, rfl, hreceived⟩ := ih h
        exact ⟨entry :: later, first, rfl, hreceived⟩

/-- When every request has its own reply channel, a request does not come in again. -/
theorem not_received_again {request : ActorRequest} {first entry : Entry} {trace : List Entry}
    (hnodup : (((first :: trace).filterMap received).map ActorRequest.ticket).Nodup)
    (hfirst : received first = some request) (hentry : entry ∈ trace) :
    received entry ≠ some request := by
  intro hreceived
  rw [List.filterMap_cons_some hfirst, List.map_cons] at hnodup
  exact (List.nodup_cons.mp hnodup).1
    (List.mem_map_of_mem (List.mem_filterMap.mpr ⟨entry, hentry, hreceived⟩))

theorem arrival_unique {request : ActorRequest} {later later' earlier earlier' : List Entry}
    {entry entry' : Entry}
    (hnodup : (((later ++ entry :: earlier).filterMap received).map ActorRequest.ticket).Nodup)
    (hsame : later ++ entry :: earlier = later' ++ entry' :: earlier')
    (hentry : received entry = some request) (hentry' : received entry' = some request) :
    earlier = earlier' := by
  induction later generalizing later' with
  | nil =>
      cases later' with
      | nil => exact (List.cons.inj hsame).2
      | cons first later' =>
          obtain ⟨rfl, rfl⟩ := List.cons.inj hsame
          exact absurd hentry' (not_received_again hnodup hentry (by simp))
  | cons first later ih =>
      cases later' with
      | nil =>
          obtain ⟨rfl, rfl⟩ := List.cons.inj hsame
          exact absurd hentry (not_received_again hnodup hentry' (by simp))
      | cons first' later' =>
          refine ih ?_ (List.cons.inj hsame).2
          exact hnodup.sublist (((List.sublist_cons_self first _).filterMap received).map _)

/-! ## The last snapshot of a run -/

/-- The last snapshot that the task tried to write is that of the call; or it has written none, and
has loaded that of the call. -/
def LastCommit (requestId : String) (result : Value) (trace : List Entry) : Prop :=
  (∃ bytes rest, trace.filterMap written = bytes :: rest ∧ bytes.requestId = requestId ∧
    bytes.result = result) ∨
  trace.filterMap written = [] ∧ ∃ l, ledgerOf trace = some l ∧ l.last = some (requestId, result)

/-- The result of the call that was written last is in the ledger. -/
theorem recorded_of_written {trace : List Entry} {bytes : StateSnapshot}
    {others : List StateSnapshot} (h : LedgerKept trace)
    (hwritten : trace.filterMap written = bytes :: others) :
    Recorded bytes.requestId bytes.result (ledgerOf trace) := by
  induction trace with
  | nil => cases hwritten
  | cons entry trace ih =>
      cases hentry : written entry with
      | none =>
          rw [List.filterMap_cons_none hentry] at hwritten
          obtain ⟨l, hledger, hrecorded⟩ := ih h.1 hwritten
          refine ⟨l, ?_, hrecorded⟩
          rw [ledgerOf, hledger, record_some hentry]
      | some first =>
          rw [List.filterMap_cons_some hentry] at hwritten
          cases hwritten
          obtain ⟨op, answer⟩ := entry
          cases op with
          | writeSnapshot ticket bytes' =>
              cases hentry
              obtain ⟨l, hledger, -⟩ := h.2.writes ticket bytes answer rfl
              rw [ledgerOf, hledger]
              cases answer with
              | ok write => exact ⟨_, rfl, .inr ⟨rfl, rfl⟩⟩
              | error error => exact ⟨_, rfl, .inl ⟨bytes, rfl, rfl, rfl⟩⟩
          | _ => cases hentry

/-- A ledger has a snapshot of unknown outcome only after a write. -/
theorem pending_of_unwritten {trace : List Entry} {l : Ledger} (h : LedgerKept trace)
    (hwritten : trace.filterMap written = []) (hledger : ledgerOf trace = some l) :
    l.pending = none := by
  have htallies := (tallied_of_kept h).2
  rw [hledger] at htallies
  replace htallies : Tallies trace l := htallies
  cases hpending : l.pending with
  | none => rfl
  | some bytes =>
      obtain ⟨hmem, -⟩ := htallies.pending bytes hpending
      rw [hwritten] at hmem
      cases hmem

theorem LastCommit.recorded {requestId : String} {result : Value} {trace : List Entry}
    (h : LastCommit requestId result trace) (hkept : LedgerKept trace) :
    Recorded requestId result (ledgerOf trace) := by
  rcases h with ⟨bytes, rest, hwritten, rfl, rfl⟩ | ⟨hwritten, l, hledger, hlast⟩
  · exact recorded_of_written hkept hwritten
  · exact ⟨l, hledger, .inr ⟨pending_of_unwritten hkept hwritten hledger, hlast⟩⟩

/-! ## Retries -/

theorem mem_executedRequests {request : ActorRequest} {trace : List Entry} :
    request ∈ executedRequests trace ↔
      ∃ entry ∈ trace, ∃ state, executes entry = some (request, state) := by
  simp [executedRequests, List.mem_filterMap]

/-- A retry that is taken when the last snapshot written or loaded is that of the call itself is
never executed, and a result that it is answered with is the recorded one. -/
theorem retry_is_not_executed {epoch : Nat} {hasAdmission : Bool} {world : World}
    (h : Reachable (Regular epoch) hasAdmission world) {later earlier : List Entry} {entry : Entry}
    {retry : ActorRequest} {result : Value} (htrace : world.trace = later ++ entry :: earlier)
    (hretry : received entry = some retry) (hmethod : retry.operation.isMethod = true)
    (hlast : LastCommit retry.operation.invocation.requestId result earlier) :
    retry ∉ executedRequests world.trace ∧
      ∀ value effects sent, ⟨.answer retry (.ok (.completed value effects)), sent⟩ ∈ world.trace →
        value = result := by
  have hkept := ledgerKept_of_reachable h
  have hnodup := h.tickets_nodup fun _ _ hregular => hregular.1.1
  have hrecorded : Recorded retry.operation.invocation.requestId result (ledgerOf earlier) := by
    rw [htrace] at hkept
    exact hlast.recorded hkept.at.1
  -- The retry came in only once, so every call saw the ledger of that moment.
  have htaken : ∀ later' entry' before other, world.trace = later' ++ entry' :: before →
      takenAt retry before = some other → other = earlier := by
    intro later' entry' before other hsplit hother
    obtain ⟨middle, first, rfl, hfirst⟩ := takenAt_eq_some hother
    have hwhole : later ++ entry :: earlier = (later' ++ entry' :: middle) ++ first :: other := by
      rw [← htrace, hsplit, List.append_assoc, List.cons_append]
    exact (arrival_unique (htrace ▸ hnodup) hwhole hretry hfirst).symm
  have hfresh : retry ∉ executedRequests world.trace := by
    intro hmem
    obtain ⟨entry', hentry', state, hexecutes⟩ := mem_executedRequests.mp hmem
    obtain ⟨later', before, hsplit⟩ := List.append_of_mem hentry'
    rw [hsplit] at hkept
    obtain ⟨other, hother, hnone⟩ := hkept.at.2.fresh retry state hexecutes hmethod
    rw [htaken _ _ _ _ hsplit hother] at hnone
    exact hnone result hrecorded
  refine ⟨hfresh, fun value effects sent hmem => ?_⟩
  obtain ⟨later', before, hsplit⟩ := List.append_of_mem hmem
  rw [hsplit] at hkept hfresh
  have hnot : retry ∉ executedRequests before := by
    intro hbefore
    obtain ⟨entry', hentry', hexecutes⟩ := mem_executedRequests.mp hbefore
    exact hfresh (mem_executedRequests.mpr ⟨entry', by simp [hentry'], hexecutes⟩)
  obtain ⟨other, hother, hsame⟩ := hkept.at.2.replays retry value rfl hmethod hnot
  rw [htaken _ _ _ _ hsplit hother] at hsame
  exact hsame result hrecorded

/-- A call whose first write failed is retried, and answered after the write is repeated. -/
theorem retry_is_not_executed_of_pending :
    ∃ world, Reachable (Regular 1) false world ∧ increment 0 ∈ executedRequests world.trace ∧
      (⟨.answer (increment 1) (.ok (.completed .null [])), true⟩ : Entry) ∈ world.trace ∧
      increment 1 ∉ executedRequests world.trace ∧
      ∀ value effects sent,
        ⟨.answer (increment 1) (.ok (.completed value effects)), sent⟩ ∈ world.trace →
          value = .null := by
  refine ⟨?world, ?reachable, ?executed, ?answered, @retry_is_not_executed 1 false ?world ?reachable
    (List.take 6 (World.trace ?world)) (List.drop 7 (World.trace ?world))
    ⟨.receive, some (increment 1, true)⟩ (increment 1) .null ?split rfl rfl ?last⟩
  case reachable =>
    refine ⟨2, ?rest, ?run⟩
    case run =>
      show Runs (Regular 1) (serialLoop 2, {}) _
      refine Runs.service (some (increment 0, true)) rfl
        ⟨⟨⟨trivial, by rintro _ _ _ ⟨⟩⟩, trivial⟩, by rintro - _ ⟨⟩⟩ ?_
      refine Runs.service (.ok ()) rfl ⟨⟨⟨trivial, nofun⟩, trivial⟩, trivial⟩ ?_
      refine Runs.service (.ok ()) rfl ⟨⟨⟨trivial, nofun⟩, trivial⟩, trivial⟩ ?_
      refine Runs.get (Runs.set ?_)
      refine Runs.service (.ok (0, none)) rfl ⟨⟨⟨trivial, nofun⟩, rfl⟩, trivial⟩ ?_
      refine Runs.get (Runs.set ?_)
      refine Runs.service (.ok (.completed .null incremented [])) rfl
        ⟨⟨⟨trivial, nofun⟩, trivial⟩, trivial⟩ ?_
      refine Runs.get (Runs.set ?_)
      refine Runs.service (.ok firstPlan) rfl ⟨⟨⟨trivial, nofun⟩, trivial⟩, trivial⟩ ?_
      refine Runs.service (.ok 0) rfl ⟨⟨⟨trivial, nofun⟩, trivial⟩, trivial⟩ ?_
      refine Runs.service (.error "timeout") rfl ⟨⟨⟨trivial, nofun⟩, trivial⟩, trivial⟩ ?_
      refine Runs.service (.ok ()) rfl ⟨⟨⟨trivial, nofun⟩, trivial⟩, trivial⟩ ?_
      refine Runs.get (Runs.set ?_)
      refine Runs.service (.ok ()) rfl ⟨⟨⟨trivial, nofun⟩, trivial⟩, trivial⟩ ?_
      refine Runs.service true rfl ⟨⟨⟨trivial, nofun⟩, trivial⟩, trivial⟩ ?_
      refine Runs.service (some (increment 1, true)) rfl ⟨⟨⟨trivial, ?unused⟩, trivial⟩, ?epoch⟩ ?_
      case unused =>
        rintro _ ⟨⟩
        exact unused_iff.mpr (by decide)
      case epoch =>
        rintro - _ ⟨⟩
        rfl
      refine Runs.service (.ok ()) rfl ⟨⟨⟨trivial, nofun⟩, trivial⟩, trivial⟩ ?_
      refine Runs.service (.ok ()) rfl ⟨⟨⟨trivial, nofun⟩, trivial⟩, trivial⟩ ?_
      refine Runs.get (Runs.set ?_)
      refine Runs.service (.ok 0) rfl ⟨⟨⟨trivial, nofun⟩, trivial⟩, trivial⟩ ?_
      refine Runs.service (.ok .written) rfl ⟨⟨⟨trivial, nofun⟩, trivial⟩, trivial⟩ ?_
      refine Runs.get (Runs.set ?_)
      refine Runs.service (.ok ()) rfl ⟨⟨⟨trivial, nofun⟩, trivial⟩, trivial⟩ ?_
      refine Runs.service true rfl ⟨⟨⟨trivial, nofun⟩, trivial⟩, trivial⟩ ?_
      exact .refl
  case executed =>
    exact mem_executedRequests.mpr
      ⟨⟨.invoke (increment 0) none, .ok (.completed .null incremented [])⟩,
        by simp [CachedActorState.new], none, rfl⟩
  case answered => exact List.mem_cons_self
  case split => rfl
  case last => exact .inl ⟨_, _, rfl, rfl, rfl⟩

/-- Another call of the same caller. -/
def decrement (ticket : Nat) : ActorRequest where
  ticket := ticket
  operation := .method
    { requestId := "other", actor := counter, method := "decrement", args := [] }
  ownerEpoch := 1

/-- A call has committed and the write of another one has failed.  The retry of the first call
repeats that write, which takes the place of the first call's result, and is executed again. -/
theorem later_commit_forgets_call :
    ∃ world later entry earlier, Reachable (Regular 1) true world ∧
      world.trace = later ++ entry :: earlier ∧ received entry = some (increment 2) ∧
      increment 0 ∈ executedRequests earlier ∧
      (earlier.filterMap stored).map StateSnapshot.requestId =
        [(increment 2).operation.invocation.requestId] ∧
      increment 2 ∈ executedRequests world.trace := by
  refine ⟨?world, List.take 5 (World.trace ?world), ⟨.select, .request (some (increment 2)) true⟩,
    List.drop 6 (World.trace ?world), ⟨5, ?rest, ?run⟩, ?split, rfl, ?executed, ?stored, ?again⟩
  case run =>
    show Runs (Regular 1) (admissionLoop 5, {}) _
    refine Runs.service (Wakeup.request (some (increment 0)) true) rfl
      ⟨⟨⟨⟨rfl, rfl⟩, by rintro _ _ _ ⟨⟩⟩, trivial⟩, trivial⟩ ?_
    refine Runs.service () rfl ⟨⟨⟨trivial, nofun⟩, trivial⟩, trivial⟩ ?_
    refine Runs.service (.ok ()) rfl ⟨⟨⟨trivial, nofun⟩, trivial⟩, trivial⟩ ?_
    refine Runs.get (Runs.set ?_)
    refine Runs.service (.ok (0, none)) rfl ⟨⟨⟨trivial, nofun⟩, rfl⟩, trivial⟩ ?_
    refine Runs.get (Runs.set (Runs.get (Runs.set ?_)))
    refine Runs.service () rfl ⟨⟨⟨trivial, nofun⟩, trivial⟩, trivial⟩ ?_
    refine Runs.service (Wakeup.executed 1 (increment 0)
      (.ok (.completed .null incremented []))) rfl
      ⟨⟨⟨List.mem_singleton.mpr rfl, nofun⟩, trivial⟩, trivial⟩ ?_
    refine Runs.get (Runs.set (Runs.get (Runs.get (Runs.set ?_))))
    refine Runs.service (.ok firstPlan) rfl ⟨⟨⟨trivial, nofun⟩, trivial⟩, trivial⟩ ?_
    refine Runs.service (.ok 0) rfl ⟨⟨⟨trivial, nofun⟩, trivial⟩, trivial⟩ ?_
    refine Runs.service (.ok .written) rfl ⟨⟨⟨trivial, nofun⟩, trivial⟩, trivial⟩ ?_
    refine Runs.get (Runs.set ?_)
    refine Runs.service (.ok ()) rfl ⟨⟨⟨trivial, nofun⟩, trivial⟩, trivial⟩ ?_
    refine Runs.service true rfl ⟨⟨⟨trivial, nofun⟩, trivial⟩, trivial⟩ ?_
    refine Runs.get (Runs.set ?_)
    -- The other call, whose write fails.
    refine Runs.service (Wakeup.request (some (decrement 1)) true) rfl
      ⟨⟨⟨⟨rfl, rfl⟩, ?unused₁⟩, trivial⟩, trivial⟩ ?_
    case unused₁ =>
      rintro _ ⟨⟩
      exact unused_iff.mpr (by decide)
    refine Runs.service () rfl ⟨⟨⟨trivial, nofun⟩, trivial⟩, trivial⟩ ?_
    refine Runs.service (.ok ()) rfl ⟨⟨⟨trivial, nofun⟩, trivial⟩, trivial⟩ ?_
    refine Runs.get (Runs.set (Runs.get (Runs.set (Runs.get (Runs.set ?_)))))
    refine Runs.service () rfl ⟨⟨⟨trivial, nofun⟩, trivial⟩, trivial⟩ ?_
    refine Runs.service (Wakeup.executed 2 (decrement 1) (.ok (.completed .null reset []))) rfl
      ⟨⟨⟨List.mem_singleton.mpr rfl, nofun⟩, trivial⟩, trivial⟩ ?_
    refine Runs.get (Runs.set (Runs.get (Runs.get (Runs.set ?_))))
    refine Runs.service (.ok 0) rfl ⟨⟨⟨trivial, nofun⟩, trivial⟩, trivial⟩ ?_
    refine Runs.service (.ok 0) rfl ⟨⟨⟨trivial, nofun⟩, trivial⟩, trivial⟩ ?_
    refine Runs.service (.error "timeout") rfl ⟨⟨⟨trivial, nofun⟩, trivial⟩, trivial⟩ ?_
    refine Runs.service (.ok ()) rfl ⟨⟨⟨trivial, nofun⟩, trivial⟩, trivial⟩ ?_
    refine Runs.get (Runs.set ?_)
    refine Runs.service true rfl ⟨⟨⟨trivial, nofun⟩, trivial⟩, trivial⟩ ?_
    refine Runs.get (Runs.set ?_)
    -- The retry of the first call.
    refine Runs.service (Wakeup.request (some (increment 2)) true) rfl
      ⟨⟨⟨⟨rfl, rfl⟩, ?unused₂⟩, trivial⟩, trivial⟩ ?_
    case unused₂ =>
      rintro _ ⟨⟩
      exact unused_iff.mpr (by decide)
    refine Runs.service () rfl ⟨⟨⟨trivial, nofun⟩, trivial⟩, trivial⟩ ?_
    refine Runs.service (.ok ()) rfl ⟨⟨⟨trivial, nofun⟩, trivial⟩, trivial⟩ ?_
    refine Runs.get (Runs.set ?_)
    refine Runs.service (.ok 0) rfl ⟨⟨⟨trivial, nofun⟩, trivial⟩, trivial⟩ ?_
    refine Runs.service (.ok .written) rfl ⟨⟨⟨trivial, nofun⟩, trivial⟩, trivial⟩ ?_
    refine Runs.get (Runs.set (Runs.get (Runs.set ?_)))
    refine Runs.service () rfl ⟨⟨⟨trivial, nofun⟩, trivial⟩, trivial⟩ ?_
    exact .refl
  case split => rfl
  case executed =>
    exact mem_executedRequests.mpr ⟨⟨.start 1 (increment 0) none, ()⟩,
      by simp [CachedActorState.new], none, rfl⟩
  case stored => rfl
  case again => exact mem_executedRequests.mpr ⟨_, List.mem_cons_self, _, rfl⟩

end Host
end DurableActors
