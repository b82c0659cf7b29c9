import DurableActors.Data.Newest
import DurableActors.Replication.StoreRuns

/-!
# Witnesses of a session's snapshots

A session's replicas are asked for their heads, and the replies are compared in the order in which
they arrive: {lit}`RuntimeStorage::seal_replicas` for all streams of a session, and the loop over
replicas in {lit}`RuntimeStorage::latest` for one stream.

Main results:

- Theorem {lit}`sealReplicas_eq_ok`: when the replies are accepted, and what is chosen.
- Theorem {lit}`sealReplicas_greatest`: what is chosen is the greatest position of its stream.
- Theorem {lit}`recovery_order_independent`: the order matters exactly when replies conflict that
  are accepted in some order.
- Theorem {lit}`recovery_depends_on_order`: a conflict that is noticed in one order only.
-/

namespace DurableActors
namespace Bucket

open Replication

/-- {lit}`RecoveryState`. -/
inductive RecoveryState
  | «open»
  | recovering
  | sealed
deriving DecidableEq

/-- The record of a session. -/
structure Session where
  id : HostSession
  region : String
  replicas : List ReplicaTarget
  state : RecoveryState
deriving DecidableEq

/-- {lit}`advance`. -/
def advance (current candidate : Option SnapshotRef) : Except Error (Option SnapshotRef) :=
  match candidate with
  | none => .ok current
  | some candidate =>
      Newest.advance (fun snapshot => snapshotPosition snapshot.object)
        "conflicting snapshot witnesses" current candidate

/-! ## Sealing a session -/

/-- The snapshots of a session, by stream. -/
abbrev Snapshots := AList fun _ : StreamPrefix => Option SnapshotRef

/-- One stream of a reply. -/
def collectStream (session : Session) (snapshots : Snapshots) (head : StreamHead) :
    Except Error Snapshots :=
  if head.stream.session ≠ session.id then .error "replica returned another session's stream"
  else
    match head.latest with
    | none => .ok snapshots
    | some snapshot =>
        if snapshot.object ≠ head.stream.object snapshot.stateVersion then
          .error "replica snapshot identity mismatch"
        else do
          let current := (snapshots.lookup head.stream.streamPrefix).getD none
          let current ← advance current (some snapshot)
          return snapshots.insert head.stream.streamPrefix current

/-- One reply: a failed call is passed over, as is a replica that was not initialized or sealed. -/
def collectReply (session : Session) (collected : Nat × Snapshots) (reply : Option SessionHead) :
    Except Error (Nat × Snapshots) :=
  match reply with
  | none => .ok collected
  | some head =>
      if head.session ≠ session.id then .error "replica returned another session"
      else if !head.initialized || !head.sealed then .ok collected
      else do
        let snapshots ← head.streams.foldlM (collectStream session) collected.2
        return (collected.1 + 1, snapshots)

/-- {lit}`seal_replicas`, with the replies in the order of their arrival. -/
def sealReplicas (session : Session) (replies : List (Option SessionHead)) :
    Except Error (List SnapshotRef) := do
  let (witnesses, snapshots) ← replies.foldlM (collectReply session) (0, ∅)
  if session.replicas.isEmpty ∨ 0 < witnesses then
    return snapshots.entries.filterMap Sigma.snd
  else
    .error "no complete replica witness; refusing to lose acknowledged state"

/-! ## The latest snapshot of a stream -/

/-- One reply. -/
def collectHead (stream : ReplicaStream) (collected : Nat × Option SnapshotRef)
    (reply : Option StreamHead) : Except Error (Nat × Option SnapshotRef) :=
  match reply with
  | none => .ok collected
  | some head =>
      if head.stream ≠ stream then .error "replica returned another stream"
      else do
        let candidate ← advance collected.2 head.latest
        return (collected.1 + 1, candidate)

/-- The loop over replicas in {lit}`latest`, with the replies in the order of their arrival. -/
def collectHeads (replicas : List ReplicaTarget) (stream : ReplicaStream)
    (candidate : Option SnapshotRef) (replies : List (Option StreamHead)) :
    Except Error (Option SnapshotRef) := do
  let (witnesses, candidate) ← replies.foldlM (collectHead stream) (0, candidate)
  if replicas.isEmpty ∨ 0 < witnesses then return candidate
  else .error "no complete replica witness; refusing to lose acknowledged state"

/-! ## What the replies say -/

/-- The newest of the candidates, one after the other. -/
def newest (current : Option SnapshotRef) (candidates : List SnapshotRef) :
    Except Error (Option SnapshotRef) :=
  Newest.fold (fun snapshot => snapshotPosition snapshot.object) "conflicting snapshot witnesses"
    current candidates

/-- The snapshots of one stream among heads. -/
def latestOf (streamPrefix : StreamPrefix) (heads : List StreamHead) : List SnapshotRef :=
  heads.filterMap fun head => if head.stream.streamPrefix = streamPrefix then head.latest else none

/-- A stream that belongs to the session, and a snapshot that belongs to the stream. -/
def Proper (session : Session) (head : StreamHead) : Prop :=
  head.stream.session = session.id ∧
    ∀ snapshot ∈ head.latest, snapshot.object = head.stream.object snapshot.stateVersion

/-- A replica that was initialized and sealed. -/
def isWitness (reply : Option SessionHead) : Bool :=
  reply.any fun head => head.initialized && head.sealed

/-- The streams that witnesses report. -/
def witnessed (replies : List (Option SessionHead)) : List StreamHead :=
  (replies.filter isWitness).flatMap fun reply => reply.elim [] SessionHead.streams

/-- Replies about the session. -/
def Accepted (session : Session) (replies : List (Option SessionHead)) : Prop :=
  (∀ head, some head ∈ replies → head.session = session.id) ∧
    ∀ head ∈ witnessed replies, Proper session head

/-- The snapshot that was found for a stream. -/
def found (snapshots : Snapshots) (streamPrefix : StreamPrefix) : Option SnapshotRef :=
  (snapshots.lookup streamPrefix).getD none

/-! ## One stream after the other -/

variable {session : Session} {snapshots next : Snapshots}

theorem latestOf_cons (streamPrefix : StreamPrefix) (head : StreamHead) (heads : List StreamHead) :
    latestOf streamPrefix (head :: heads) =
      latestOf streamPrefix [head] ++ latestOf streamPrefix heads := by
  rw [← List.singleton_append, latestOf, List.filterMap_append]
  rfl

theorem found_insert (snapshots : Snapshots) (key : StreamPrefix) (value : Option SnapshotRef)
    (streamPrefix : StreamPrefix) :
    found (snapshots.insert key value) streamPrefix =
      if streamPrefix = key then value else found snapshots streamPrefix := by
  rw [found]
  split
  · rename_i h
    rw [h, AList.lookup_insert]
    rfl
  · rename_i h
    rw [AList.lookup_insert_ne h]
    rfl

theorem latestOf_singleton (streamPrefix : StreamPrefix) (head : StreamHead) :
    latestOf streamPrefix [head] =
      if streamPrefix = head.stream.streamPrefix then head.latest.toList else [] := by
  unfold latestOf
  by_cases h : head.stream.streamPrefix = streamPrefix
  · cases hlatest : head.latest <;> simp [h, hlatest]
  · simp [h, Ne.symm h]

theorem newest_singleton (current : Option SnapshotRef) (snapshot : SnapshotRef) :
    newest current [snapshot] = advance current (some snapshot) := by
  unfold newest Newest.fold advance
  dsimp only
  split
  · rename_i herror
    exact herror.symm
  · rename_i hok
    exact hok.symm

/-- What one stream of a reply does. -/
theorem collectStream_eq_ok {head : StreamHead}
    (h : collectStream session snapshots head = .ok next) :
    Proper session head ∧ ∀ streamPrefix, newest (found snapshots streamPrefix)
      (latestOf streamPrefix [head]) = .ok (found next streamPrefix) := by
  unfold collectStream at h
  split at h
  · cases h
  rename_i hsession
  split at h
  · rename_i hlatest
    cases h
    refine ⟨⟨not_not.mp hsession, by simp [hlatest]⟩, fun streamPrefix => ?_⟩
    rw [latestOf_singleton, hlatest]
    split <;> rfl
  · rename_i snapshot hlatest
    split at h
    · cases h
    rename_i hobject
    cases hadvance : advance (found snapshots head.stream.streamPrefix) (some snapshot) with
    | error error =>
      simp only [found] at hadvance
      simp [hadvance, bind, Except.bind] at h
    | ok current =>
      have hnext : next = snapshots.insert head.stream.streamPrefix current := by
        simp only [found] at hadvance
        simpa [hadvance, bind, Except.bind, pure, Except.pure] using h.symm
      refine ⟨⟨not_not.mp hsession, fun other hother => ?_⟩, fun streamPrefix => ?_⟩
      · rw [hlatest] at hother
        cases hother
        exact not_not.mp hobject
      · rw [latestOf_singleton, hlatest, hnext, found_insert]
        split
        · rename_i heq
          rw [heq, Option.toList_some, newest_singleton, hadvance]
        · rfl

theorem collectStream_ok {head : StreamHead} (hproper : Proper session head)
    (h : ∀ streamPrefix, ∃ result, newest (found snapshots streamPrefix)
      (latestOf streamPrefix [head]) = .ok result) :
    ∃ next, collectStream session snapshots head = .ok next := by
  obtain ⟨hsession, hobject⟩ := hproper
  unfold collectStream
  rw [if_neg (not_not.mpr hsession)]
  cases hlatest : head.latest with
  | none => exact ⟨snapshots, rfl⟩
  | some snapshot =>
    obtain ⟨result, hresult⟩ := h head.stream.streamPrefix
    rw [latestOf_singleton, if_pos rfl, hlatest, Option.toList_some, newest_singleton] at hresult
    simp only [found] at hresult
    simp [hobject snapshot hlatest, hresult, bind, Except.bind, pure, Except.pure]

theorem newest_append (current : Option SnapshotRef) (first second : List SnapshotRef) :
    newest current (first ++ second) = (newest current first).bind (newest · second) :=
  Newest.fold_append _ _ _ _ _

theorem newest_append_eq_ok {current result : Option SnapshotRef} {first second : List SnapshotRef}
    (h : newest current (first ++ second) = .ok result) :
    ∃ middle result, newest current first = .ok middle ∧ newest middle second = .ok result := by
  rw [newest_append] at h
  cases hmiddle : newest current first with
  | error error => simp [hmiddle, Except.bind] at h
  | ok middle =>
    rw [hmiddle] at h
    exact ⟨middle, result, rfl, h⟩

theorem collectStreams_eq_ok {heads : List StreamHead}
    (h : heads.foldlM (collectStream session) snapshots = .ok next) :
    (∀ head ∈ heads, Proper session head) ∧
      ∀ streamPrefix, newest (found snapshots streamPrefix) (latestOf streamPrefix heads) =
        .ok (found next streamPrefix) := by
  induction heads generalizing snapshots with
  | nil =>
    cases h
    exact ⟨nofun, fun _ => rfl⟩
  | cons head heads ih =>
    rw [List.foldlM_cons] at h
    cases hstep : collectStream session snapshots head with
    | error error => simp [hstep, bind, Except.bind] at h
    | ok middle =>
      rw [hstep] at h
      obtain ⟨hproper, hfirst⟩ := collectStream_eq_ok hstep
      obtain ⟨hrest, hfound⟩ := ih h
      refine ⟨List.forall_mem_cons.mpr ⟨hproper, hrest⟩, fun streamPrefix => ?_⟩
      rw [latestOf_cons, newest_append, hfirst]
      exact hfound streamPrefix

theorem collectStreams_ok {heads : List StreamHead} (hproper : ∀ head ∈ heads, Proper session head)
    (h : ∀ streamPrefix, ∃ result, newest (found snapshots streamPrefix)
      (latestOf streamPrefix heads) = .ok result) :
    ∃ next, heads.foldlM (collectStream session) snapshots = .ok next := by
  induction heads generalizing snapshots with
  | nil => exact ⟨snapshots, rfl⟩
  | cons head heads ih =>
    obtain ⟨hhead, hheads⟩ := List.forall_mem_cons.mp hproper
    have hsplit (streamPrefix : StreamPrefix) : ∃ middle result,
        newest (found snapshots streamPrefix) (latestOf streamPrefix [head]) = .ok middle ∧
          newest middle (latestOf streamPrefix heads) = .ok result := by
      obtain ⟨result, hresult⟩ := h streamPrefix
      rw [latestOf_cons] at hresult
      exact newest_append_eq_ok hresult
    obtain ⟨middle, hmiddle⟩ := collectStream_ok hhead fun streamPrefix =>
      ⟨_, (hsplit streamPrefix).choose_spec.choose_spec.1⟩
    obtain ⟨-, hfound⟩ := collectStream_eq_ok hmiddle
    rw [List.foldlM_cons, hmiddle]
    refine ih hheads fun streamPrefix => ?_
    obtain ⟨step, result, hstep, hresult⟩ := hsplit streamPrefix
    rw [hfound] at hstep
    cases hstep
    exact ⟨result, hresult⟩

/-! ## One reply after the other -/

theorem latestOf_append (streamPrefix : StreamPrefix) (first second : List StreamHead) :
    latestOf streamPrefix (first ++ second) =
      latestOf streamPrefix first ++ latestOf streamPrefix second :=
  List.filterMap_append ..

theorem witnessed_cons (reply : Option SessionHead) (replies : List (Option SessionHead)) :
    witnessed (reply :: replies) = witnessed [reply] ++ witnessed replies := by
  rw [← List.singleton_append, witnessed, List.filter_append, List.flatMap_append]
  rfl

/-- What one reply does. -/
theorem collectReply_eq_ok {reply : Option SessionHead} {witnesses witnesses' : Nat}
    (h : collectReply session (witnesses, snapshots) reply = .ok (witnesses', next)) :
    Accepted session [reply] ∧ witnesses' = witnesses + [reply].countP isWitness ∧
      ∀ streamPrefix, newest (found snapshots streamPrefix)
        (latestOf streamPrefix (witnessed [reply])) = .ok (found next streamPrefix) := by
  cases reply with
  | none =>
    cases h
    exact ⟨⟨by simp, nofun⟩, rfl, fun _ => rfl⟩
  | some head =>
    unfold collectReply at h
    dsimp only at h
    split at h
    · cases h
    rename_i hsession
    have hsession : head.session = session.id := not_not.mp hsession
    split at h
    · rename_i hpassed
      cases h
      have hwitness : isWitness (some head) = false := by
        simpa [isWitness, or_iff_not_imp_left] using hpassed
      have hnone : witnessed [some head] = [] := by simp [witnessed, hwitness]
      refine ⟨⟨by simp [hsession], by simp [hnone]⟩, by simp [hwitness], fun _ => ?_⟩
      rw [hnone]
      rfl
    · rename_i hwitness
      have hwitness : isWitness (some head) = true := by
        simpa [isWitness, not_or] using hwitness
      have hstreams : witnessed [some head] = head.streams := by simp [witnessed, hwitness]
      cases hcollect : head.streams.foldlM (collectStream session) snapshots with
      | error error => simp [hcollect, bind, Except.bind] at h
      | ok collected =>
        have hnext : witnesses + 1 = witnesses' ∧ collected = next := by
          simpa [hcollect, bind, Except.bind, pure, Except.pure] using h
        obtain ⟨rfl, rfl⟩ := hnext
        obtain ⟨hproper, hfound⟩ := collectStreams_eq_ok hcollect
        refine ⟨⟨by simp [hsession], by rw [hstreams]; exact hproper⟩, by simp [hwitness], ?_⟩
        rw [hstreams]
        exact hfound

theorem collectReply_ok {reply : Option SessionHead} (witnesses : Nat)
    (haccepted : Accepted session [reply])
    (h : ∀ streamPrefix, ∃ result, newest (found snapshots streamPrefix)
      (latestOf streamPrefix (witnessed [reply])) = .ok result) :
    ∃ next, collectReply session (witnesses, snapshots) reply = .ok next := by
  cases reply with
  | none => exact ⟨_, rfl⟩
  | some head =>
    obtain ⟨hsession, hproper⟩ := haccepted
    unfold collectReply
    dsimp only
    rw [if_neg (not_not.mpr (hsession head List.mem_cons_self))]
    split
    · exact ⟨_, rfl⟩
    · rename_i hwitness
      have hwitness : isWitness (some head) = true := by
        simpa [isWitness, not_or] using hwitness
      have hstreams : witnessed [some head] = head.streams := by simp [witnessed, hwitness]
      rw [hstreams] at hproper h
      obtain ⟨collected, hcollected⟩ := collectStreams_ok hproper h
      exact ⟨(witnesses + 1, collected), by simp [hcollected, bind, Except.bind, pure, Except.pure]⟩

theorem accepted_cons {reply : Option SessionHead} {replies : List (Option SessionHead)} :
    Accepted session (reply :: replies) ↔
      Accepted session [reply] ∧ Accepted session replies := by
  unfold Accepted
  rw [witnessed_cons]
  simp only [List.mem_cons, List.not_mem_nil, or_false, List.mem_append, or_imp, forall_and]
  tauto

theorem collectReplies_eq_ok {replies : List (Option SessionHead)} {witnesses witnesses' : Nat}
    (h : replies.foldlM (collectReply session) (witnesses, snapshots) = .ok (witnesses', next)) :
    Accepted session replies ∧ witnesses' = witnesses + replies.countP isWitness ∧
      ∀ streamPrefix, newest (found snapshots streamPrefix)
        (latestOf streamPrefix (witnessed replies)) = .ok (found next streamPrefix) := by
  induction replies generalizing witnesses snapshots with
  | nil =>
    cases h
    exact ⟨⟨nofun, nofun⟩, rfl, fun _ => rfl⟩
  | cons reply replies ih =>
    rw [List.foldlM_cons] at h
    cases hstep : collectReply session (witnesses, snapshots) reply with
    | error error => simp [hstep, bind, Except.bind] at h
    | ok middle =>
      rw [hstep] at h
      obtain ⟨count, middle⟩ := middle
      obtain ⟨haccepted, rfl, hfirst⟩ := collectReply_eq_ok hstep
      obtain ⟨hrest, rfl, hfound⟩ := ih h
      refine ⟨accepted_cons.mpr ⟨haccepted, hrest⟩, ?_, fun streamPrefix => ?_⟩
      · rw [← List.singleton_append (l := replies), List.countP_append]
        omega
      · rw [witnessed_cons, latestOf_append, newest_append, hfirst]
        exact hfound streamPrefix

theorem collectReplies_ok {replies : List (Option SessionHead)} (witnesses : Nat)
    (haccepted : Accepted session replies)
    (h : ∀ streamPrefix, ∃ result, newest (found snapshots streamPrefix)
      (latestOf streamPrefix (witnessed replies)) = .ok result) :
    ∃ next, replies.foldlM (collectReply session) (witnesses, snapshots) = .ok next := by
  induction replies generalizing witnesses snapshots with
  | nil => exact ⟨_, rfl⟩
  | cons reply replies ih =>
    obtain ⟨hreply, hreplies⟩ := accepted_cons.mp haccepted
    have hsplit (streamPrefix : StreamPrefix) : ∃ middle result,
        newest (found snapshots streamPrefix) (latestOf streamPrefix (witnessed [reply])) =
          .ok middle ∧ newest middle (latestOf streamPrefix (witnessed replies)) = .ok result := by
      obtain ⟨result, hresult⟩ := h streamPrefix
      rw [witnessed_cons, latestOf_append] at hresult
      exact newest_append_eq_ok hresult
    obtain ⟨⟨count, middle⟩, hmiddle⟩ := collectReply_ok witnesses hreply
      fun streamPrefix => ⟨_, (hsplit streamPrefix).choose_spec.choose_spec.1⟩
    obtain ⟨-, -, hfound⟩ := collectReply_eq_ok hmiddle
    rw [List.foldlM_cons, hmiddle]
    refine ih _ hreplies fun streamPrefix => ?_
    obtain ⟨step, result, hstep, hresult⟩ := hsplit streamPrefix
    rw [hfound] at hstep
    cases hstep
    exact ⟨result, hresult⟩

/-- The replies that are accepted, and what is chosen from them. -/
theorem sealReplicas_eq_ok {replies : List (Option SessionHead)} {chosen : List SnapshotRef}
    (h : sealReplicas session replies = .ok chosen) :
    Accepted session replies ∧
      (session.replicas.isEmpty ∨ 0 < replies.countP isWitness) ∧
      ∃ results : StreamPrefix → Option SnapshotRef,
        (∀ streamPrefix, newest none (latestOf streamPrefix (witnessed replies)) =
          .ok (results streamPrefix)) ∧
        ∀ snapshot, snapshot ∈ chosen ↔ ∃ streamPrefix, results streamPrefix = some snapshot := by
  unfold sealReplicas at h
  cases hcollect : replies.foldlM (collectReply session) (0, ∅) with
  | error error => simp [hcollect, bind, Except.bind] at h
  | ok collected =>
    obtain ⟨witnesses, snapshots⟩ := collected
    obtain ⟨haccepted, rfl, hfound⟩ := collectReplies_eq_ok hcollect
    simp only [hcollect, bind, Except.bind] at h
    split at h
    · rename_i henough
      cases h
      rw [Nat.zero_add] at henough
      refine ⟨haccepted, henough, found snapshots, hfound, fun snapshot => ?_⟩
      rw [List.mem_filterMap]
      constructor
      · rintro ⟨⟨streamPrefix, value⟩, hentry, rfl⟩
        refine ⟨streamPrefix, ?_⟩
        rw [found, Option.mem_def.mp (AList.mem_lookup_iff.mpr hentry)]
        rfl
      · rintro ⟨streamPrefix, hsnapshot⟩
        rw [found] at hsnapshot
        cases hlookup : snapshots.lookup streamPrefix with
        | none =>
          rw [hlookup] at hsnapshot
          cases hsnapshot
        | some value =>
          rw [hlookup] at hsnapshot
          exact ⟨⟨streamPrefix, value⟩, AList.mem_lookup_iff.mp hlookup, hsnapshot⟩
    · cases h

theorem sealReplicas_ok {replies : List (Option SessionHead)}
    (haccepted : Accepted session replies)
    (henough : session.replicas.isEmpty ∨ 0 < replies.countP isWitness)
    (h : ∀ streamPrefix, ∃ result,
      newest none (latestOf streamPrefix (witnessed replies)) = .ok result) :
    ∃ chosen, sealReplicas session replies = .ok chosen := by
  have hempty : ∀ streamPrefix, ∃ result, newest (found (∅ : Snapshots) streamPrefix)
      (latestOf streamPrefix (witnessed replies)) = .ok result := h
  obtain ⟨⟨witnesses, snapshots⟩, hcollect⟩ := collectReplies_ok 0 haccepted hempty
  obtain ⟨-, rfl, -⟩ := collectReplies_eq_ok hcollect
  rw [Nat.zero_add] at hcollect
  unfold sealReplicas
  simp only [hcollect, bind, Except.bind, if_pos henough]
  exact ⟨_, rfl⟩

/-! ## Orders of replies -/

/-- The reply of a replica, which has one head for each stream. -/
structure SealReply where
  head : SessionHead
  nodup : (head.streams.map fun head => head.stream.streamPrefix).Nodup
deriving DecidableEq

/-- The heads that a replica returns when it seals a session. -/
def SealReply.ofReplica {encoding : Encoding} {limit : Option Nat} {replica : Replica}
    (h : ReplicaReachable encoding limit replica) {session : HostSession} {cut : SessionHead}
    (hsealed : Sealed replica.history session cut) : SealReply where
  head := cut
  nodup := by
    have hcut := (Replica.sound_of_reachable h).durable.cut session cut hsealed
    refine List.Nodup.map_on (fun first hfirst second hsecond hsame => ?_) hcut.nodup
    have hshown := replica.machine.directory.shown_mem (.stream first.stream.streamPrefix)
    have heq := hcut.heads first hfirst _ hshown
    rw [hsame] at hshown heq
    exact Option.some.inj (heq.symm.trans (hcut.heads second hsecond _ hshown))

/-- The replies in an order. -/
def arrived (order : List (Option SealReply)) : List (Option SessionHead) :=
  order.map (·.map SealReply.head)

/-- The same snapshots, or an error in both. -/
def SameOutcome [Membership SnapshotRef α] (first second : Except Error α) : Prop :=
  match first, second with
  | .ok first, .ok second => ∀ snapshot : SnapshotRef, snapshot ∈ first ↔ snapshot ∈ second
  | .error _, .error _ => True
  | _, _ => False

section SameOutcome

variable {α β : Type} [Membership SnapshotRef α] {first second : Except Error α}

/-- Two outcomes are the same if each success is a success of the other with the same snapshots. -/
theorem sameOutcome_of_ok
    (hfirst : ∀ a, first = .ok a → ∃ b, second = .ok b ∧
      ∀ snapshot : SnapshotRef, snapshot ∈ a ↔ snapshot ∈ b)
    (hsecond : ∀ b, second = .ok b → ∃ a, first = .ok a) : SameOutcome first second := by
  cases first with
  | ok a =>
    obtain ⟨b, rfl, hsame⟩ := hfirst a rfl
    exact hsame
  | error _ =>
    cases second with
    | error _ => trivial
    | ok b =>
      obtain ⟨a, ha⟩ := hsecond b rfl
      cases ha

/-- If the order does not matter for consistent replies, and others are refused in some order, then
it matters exactly for those that are accepted in some order too. -/
theorem order_iff {run : List β → Except Error α} {answers : List β} {Agree : Prop}
    (hagree : Agree → ∀ first second, first.Perm answers → second.Perm answers →
      SameOutcome (run first) (run second))
    (hconflict : ¬ Agree → ∃ order, order.Perm answers ∧ ∀ result, run order ≠ .ok result) :
    (∀ first second, first.Perm answers → second.Perm answers →
      SameOutcome (run first) (run second)) ↔
    Agree ∨ ∀ order, order.Perm answers → ∀ result, run order ≠ .ok result := by
  constructor
  · intro hsame
    by_cases h : Agree
    · exact .inl h
    · obtain ⟨refused, hperm, hrefused⟩ := hconflict h
      refine .inr fun order horder result hresult => ?_
      have hboth := hsame order refused horder hperm
      rw [hresult] at hboth
      cases hother : run refused with
      | ok other => exact hrefused other hother
      | error error =>
        rw [hother] at hboth
        exact hboth
  · rintro (h | hrefused) first second hfirst hsecond
    · exact hagree h first second hfirst hsecond
    · exact sameOutcome_of_ok (fun a ha => absurd ha (hrefused first hfirst a))
        fun b hb => absurd hb (hrefused second hsecond b)

end SameOutcome

/-- No two witnesses report different snapshots for one position of a stream. -/
def Consistent (replies : List (Option SessionHead)) : Prop :=
  ∀ streamPrefix, Newest.Consistent (fun snapshot => snapshotPosition snapshot.object) none
    (latestOf streamPrefix (witnessed replies))

/-- The snapshots of a stream that an answer reports. -/
def reportOf (streamPrefix : StreamPrefix) (answer : Option SealReply) : List SnapshotRef :=
  latestOf streamPrefix (witnessed [answer.map SealReply.head])

section Order

variable {first second : List (Option SessionHead)}

theorem witnessed_perm (h : first.Perm second) : (witnessed first).Perm (witnessed second) :=
  (h.filter _).flatMap_right _

theorem Accepted.perm (haccepted : Accepted session first) (h : first.Perm second) :
    Accepted session second :=
  ⟨fun head hhead => haccepted.1 head (h.symm.subset hhead), fun head hhead =>
    haccepted.2 head ((witnessed_perm h).symm.subset hhead)⟩

theorem mem_latestOf_perm (h : first.Perm second) (streamPrefix : StreamPrefix)
    (snapshot : SnapshotRef) :
    snapshot ∈ latestOf streamPrefix (witnessed first) ↔
      snapshot ∈ latestOf streamPrefix (witnessed second) :=
  ((witnessed_perm h).filterMap _).mem_iff

theorem Consistent.perm (hconsistent : Consistent first) (h : first.Perm second) :
    Consistent second := by
  intro streamPrefix a b ha hb hle heq
  simp only [← mem_latestOf_perm h] at ha hb
  exact hconsistent streamPrefix a b ha hb hle heq

/-- Consistent replies that are accepted in one order are accepted in every order, and the same
snapshots are chosen. -/
theorem sealReplicas_perm (hconsistent : Consistent first) (h : first.Perm second)
    {chosen : List SnapshotRef} (hchosen : sealReplicas session first = .ok chosen) :
    ∃ others, sealReplicas session second = .ok others ∧
      ∀ snapshot, snapshot ∈ chosen ↔ snapshot ∈ others := by
  obtain ⟨haccepted, henough, results, hresults, hmem⟩ := sealReplicas_eq_ok hchosen
  rw [h.countP_eq] at henough
  obtain ⟨others, hothers⟩ := sealReplicas_ok (haccepted.perm h) henough fun streamPrefix =>
    Newest.fold_of_consistent (hconsistent.perm h streamPrefix)
  obtain ⟨-, -, results', hresults', hmem'⟩ := sealReplicas_eq_ok hothers
  have hsame (streamPrefix : StreamPrefix) : results streamPrefix = results' streamPrefix :=
    Newest.fold_unique (hconsistent streamPrefix) (mem_latestOf_perm h streamPrefix)
      (hresults streamPrefix) (hresults' streamPrefix)
  refine ⟨others, hothers, fun snapshot => ?_⟩
  rw [hmem, hmem']
  simp only [hsame]

/-- Consistent replies have the same outcome in every order. -/
theorem sameOutcome_of_consistent (hconsistent : Consistent first) (h : first.Perm second) :
    SameOutcome (sealReplicas session first) (sealReplicas session second) :=
  sameOutcome_of_ok (fun _ => sealReplicas_perm hconsistent h) fun _ hother =>
    (sealReplicas_perm (hconsistent.perm h) h.symm hother).imp fun _ => And.left

/-- A reply with one head for each stream has at most one snapshot of a stream. -/
theorem latestOf_of_nodup {streamPrefix : StreamPrefix} {snapshot : SnapshotRef}
    {heads : List StreamHead} {head : StreamHead}
    (hnodup : (heads.map fun head => head.stream.streamPrefix).Nodup) (hmem : head ∈ heads)
    (hlatest : (if head.stream.streamPrefix = streamPrefix then head.latest else none) =
      some snapshot) :
    latestOf streamPrefix heads = [snapshot] := by
  induction heads with
  | nil => cases hmem
  | cons other rest ih =>
    obtain ⟨hnotMem, hrest⟩ := List.nodup_cons.mp hnodup
    have hsamePrefix : head.stream.streamPrefix = streamPrefix := by
      by_contra hne
      rw [if_neg hne] at hlatest
      cases hlatest
    rw [latestOf_cons, latestOf_singleton]
    rcases List.mem_cons.mp hmem with rfl | hmem
    · rw [if_pos hsamePrefix] at hlatest
      have hnone : latestOf streamPrefix rest = [] := by
        refine List.filterMap_eq_nil_iff.mpr fun later hlater => if_neg fun hsame => ?_
        exact hnotMem (List.mem_map.mpr ⟨later, hlater, hsame.trans hsamePrefix.symm⟩)
      rw [if_pos hsamePrefix.symm, hnone, hlatest]
      rfl
    · rw [ih hrest hmem, if_neg]
      · rfl
      · intro hsame
        exact hnotMem (List.mem_map.mpr ⟨head, hmem, hsamePrefix.trans hsame⟩)

/-- A reported snapshot is the only one of its stream in a witness's reply. -/
theorem exists_reply {answers : List (Option SealReply)} {streamPrefix : StreamPrefix}
    {snapshot : SnapshotRef}
    (h : snapshot ∈ latestOf streamPrefix (witnessed (arrived answers))) :
    ∃ answer ∈ answers, reportOf streamPrefix answer = [snapshot] := by
  obtain ⟨head, hhead, hlatest⟩ := List.mem_filterMap.mp h
  obtain ⟨found, hfound, hstreams⟩ := List.mem_flatMap.mp hhead
  obtain ⟨hmem, hwitness⟩ := List.mem_filter.mp hfound
  obtain ⟨answer, hanswer, rfl⟩ := List.mem_map.mp hmem
  cases answer with
  | none => cases hstreams
  | some reply =>
    refine ⟨some reply, hanswer, ?_⟩
    have hstreams' : witnessed [some reply.head] = reply.head.streams := by
      simp only [Option.map_some] at hwitness
      simp [witnessed, hwitness]
    rw [reportOf, Option.map_some, hstreams']
    exact latestOf_of_nodup reply.nodup hstreams hlatest

theorem latestOf_arrived (streamPrefix : StreamPrefix) (chosen rest : List (Option SealReply)) :
    latestOf streamPrefix (witnessed (arrived (chosen ++ rest))) =
      chosen.flatMap (reportOf streamPrefix) ++
        latestOf streamPrefix (witnessed (arrived rest)) := by
  induction chosen with
  | nil => rfl
  | cons answer chosen ih =>
    rw [List.cons_append, List.flatMap_cons, List.append_assoc, ← ih, arrived, List.map_cons,
      witnessed_cons, latestOf_append]
    rfl

/-- Replies that conflict are refused in some order. -/
theorem exists_refused {answers : List (Option SealReply)}
    (h : ¬ Consistent (arrived answers)) (session : Session) :
    ∃ order, order.Perm answers ∧
      ∀ chosen, sealReplicas session (arrived order) ≠ .ok chosen := by
  unfold Consistent at h
  push Not at h
  obtain ⟨streamPrefix, h⟩ := h
  obtain ⟨first, hnodup, hreported, hrefused⟩ :=
    Newest.exists_noticed "conflicting snapshot witnesses" h
  obtain ⟨chosen, rest, hperm, hchosen⟩ := Newest.exists_order (reportOf streamPrefix)
    hnodup fun snapshot hsnapshot => exists_reply (hreported snapshot hsnapshot)
  refine ⟨chosen ++ rest, hperm, fun snapshots hsnapshots => ?_⟩
  obtain ⟨-, -, results, hresults, -⟩ := sealReplicas_eq_ok hsnapshots
  have hnewest := hresults streamPrefix
  rw [latestOf_arrived, hchosen, newest, hrefused] at hnewest
  cases hnewest

/-- What is chosen for a stream is reported by a witness, and nothing that a witness reports is
newer. -/
theorem sealReplicas_greatest {replies : List (Option SessionHead)} {chosen : List SnapshotRef}
    (h : sealReplicas session replies = .ok chosen) :
    (∀ snapshot ∈ chosen, ∃ streamPrefix,
      snapshot ∈ latestOf streamPrefix (witnessed replies) ∧
      ∀ other ∈ latestOf streamPrefix (witnessed replies),
        snapshotPosition other.object ≤ snapshotPosition snapshot.object) ∧
    ∀ streamPrefix, latestOf streamPrefix (witnessed replies) ≠ [] →
      ∃ snapshot ∈ chosen, snapshot ∈ latestOf streamPrefix (witnessed replies) := by
  obtain ⟨-, -, results, hresults, hmem⟩ := sealReplicas_eq_ok h
  constructor
  · intro snapshot hsnapshot
    obtain ⟨streamPrefix, hresult⟩ := (hmem snapshot).mp hsnapshot
    obtain ⟨hgreatest, hreported⟩ := Newest.fold_spec (hresults streamPrefix)
    refine ⟨streamPrefix, (hreported snapshot hresult).resolve_left nofun, fun other hother => ?_⟩
    obtain ⟨newest, hnewest, hle⟩ := hgreatest other (.inr hother)
    obtain rfl : snapshot = newest := Option.some.inj (hresult.symm.trans hnewest)
    exact hle
  · intro streamPrefix hsome
    obtain ⟨other, hother⟩ := List.exists_mem_of_ne_nil _ hsome
    obtain ⟨hgreatest, hreported⟩ := Newest.fold_spec (hresults streamPrefix)
    obtain ⟨newest, hnewest, -⟩ := hgreatest other (.inr hother)
    exact ⟨newest, (hmem newest).mpr ⟨streamPrefix, hnewest⟩,
      (hreported newest hnewest).resolve_left nofun⟩

end Order

/-! ## The latest snapshot of one stream -/

/-- The snapshots that replies report. -/
def reported (replies : List (Option StreamHead)) : List SnapshotRef :=
  replies.flatMap fun reply => (reply.bind StreamHead.latest).toList

section Latest

variable {stream : ReplicaStream} {replicas : List ReplicaTarget}
  {candidate result : Option SnapshotRef} {replies first second : List (Option StreamHead)}

theorem collectHead_some (witnesses : Nat) {head : StreamHead} (h : head.stream = stream) :
    collectHead stream (witnesses, candidate) (some head) =
      (newest candidate head.latest.toList).map (witnesses + 1, ·) := by
  simp only [collectHead, ne_eq, h, not_true_eq_false, if_false]
  cases head.latest with
  | none => rfl
  | some snapshot =>
    rw [Option.toList_some, newest_singleton]
    cases advance candidate (some snapshot) <;> rfl

theorem reported_cons (reply : Option StreamHead) (replies : List (Option StreamHead)) :
    reported (reply :: replies) = (reply.bind StreamHead.latest).toList ++ reported replies :=
  List.flatMap_cons ..

/-- The replies that are accepted, and what is chosen from them. -/
theorem collectHeads_fold (witnesses : Nat) (collected : Nat × Option SnapshotRef) :
    replies.foldlM (collectHead stream) (witnesses, candidate) = .ok collected ↔
      (∀ head, some head ∈ replies → head.stream = stream) ∧
        collected.1 = witnesses + replies.countP Option.isSome ∧
        newest candidate (reported replies) = .ok collected.2 := by
  induction replies generalizing candidate witnesses with
  | nil =>
    obtain ⟨count, chosen⟩ := collected
    simp [newest, Newest.fold, reported, pure, Except.pure, eq_comm]
  | cons reply replies ih =>
    rw [List.foldlM_cons, reported_cons]
    cases reply with
    | none => simpa [collectHead, bind, Except.bind] using ih witnesses
    | some head =>
      by_cases hstream : head.stream = stream
      · rw [collectHead_some witnesses hstream, Option.bind_some, newest_append]
        cases newest candidate head.latest.toList with
        | error error => simp [bind, Except.bind, Except.map]
        | ok next =>
          have hrest := (ih (witnesses + 1) : _ ↔ _ ∧ _ ∧ newest next _ = _)
          rw [Nat.add_right_comm] at hrest
          simpa [bind, Except.bind, Except.map, hstream, Nat.add_assoc] using hrest
      · simp [collectHead, hstream, bind, Except.bind]

theorem collectHeads_eq_ok_iff :
    collectHeads replicas stream candidate replies = .ok result ↔
      (∀ head, some head ∈ replies → head.stream = stream) ∧
        (replicas.isEmpty ∨ 0 < replies.countP Option.isSome) ∧
        newest candidate (reported replies) = .ok result := by
  unfold collectHeads
  cases hcollect : replies.foldlM (collectHead stream) (0, candidate) with
  | error error =>
    refine iff_of_false nofun fun ⟨hstreams, _, hnewest⟩ => ?_
    have hok := (collectHeads_fold 0 (_, _)).mpr ⟨hstreams, rfl, hnewest⟩
    rw [hcollect] at hok
    cases hok
  | ok collected =>
    obtain ⟨hstreams, hcount, hnewest⟩ := (collectHeads_fold 0 collected).mp hcollect
    rw [Nat.zero_add] at hcount
    simp only [bind, Except.bind, hnewest, hcount]
    split
    · rename_i henough
      exact ⟨fun h => ⟨hstreams, henough, h⟩, fun h => h.2.2⟩
    · rename_i hnone
      exact iff_of_false nofun fun h => hnone h.2.1

/-- No two replicas report different snapshots for one position, at or above the candidate. -/
def ConsistentHeads (candidate : Option SnapshotRef) (replies : List (Option StreamHead)) : Prop :=
  Newest.Consistent (fun snapshot => snapshotPosition snapshot.object) candidate (reported replies)

theorem reported_perm (h : first.Perm second) : (reported first).Perm (reported second) :=
  h.flatMap_right _

theorem ConsistentHeads.perm (hconsistent : ConsistentHeads candidate first)
    (h : first.Perm second) : ConsistentHeads candidate second := by
  intro a b ha hb hle heq
  simp only [← (reported_perm h).mem_iff] at ha hb
  exact hconsistent a b ha hb hle heq

/-- Consistent replies that are accepted in one order are accepted in every order, with the same
snapshot. -/
theorem collectHeads_perm (hconsistent : ConsistentHeads candidate first) (h : first.Perm second)
    (hresult : collectHeads replicas stream candidate first = .ok result) :
    collectHeads replicas stream candidate second = .ok result := by
  obtain ⟨hstreams, henough, hnewest⟩ := collectHeads_eq_ok_iff.mp hresult
  rw [h.countP_eq] at henough
  obtain ⟨other, hother⟩ : ∃ other, newest candidate (reported second) = .ok other :=
    Newest.fold_of_consistent (hconsistent.perm h)
  have hsame : result = other :=
    Newest.fold_unique hconsistent (fun a => (reported_perm h).mem_iff) hnewest hother
  rw [hsame]
  exact collectHeads_eq_ok_iff.mpr
    ⟨fun head hhead => hstreams head (h.symm.subset hhead), henough, hother⟩

/-- Replies that conflict are refused in some order. -/
theorem exists_refused_head (h : ¬ ConsistentHeads candidate replies)
    (replicas : List ReplicaTarget) (stream : ReplicaStream) :
    ∃ order, order.Perm replies ∧
      ∀ result, collectHeads replicas stream candidate order ≠ .ok result := by
  obtain ⟨first, hnodup, hreported, hrefused⟩ :=
    Newest.exists_noticed "conflicting snapshot witnesses" h
  obtain ⟨chosen, rest, hperm, hchosen⟩ := Newest.exists_order
    (fun reply : Option StreamHead => (reply.bind StreamHead.latest).toList)
    hnodup fun snapshot hsnapshot => by
      obtain ⟨reply, hreply, hmem⟩ := List.mem_flatMap.mp (hreported snapshot hsnapshot)
      exact ⟨reply, hreply, by rw [Option.mem_toList.mp hmem]; rfl⟩
  refine ⟨chosen ++ rest, hperm, fun result hresult => ?_⟩
  obtain ⟨-, -, hnewest⟩ := collectHeads_eq_ok_iff.mp hresult
  rw [reported, List.flatMap_append, hchosen, newest, hrefused] at hnewest
  cases hnewest

theorem sameOutcome_of_consistentHeads (hconsistent : ConsistentHeads candidate first)
    (h : first.Perm second) :
    SameOutcome (collectHeads replicas stream candidate first)
      (collectHeads replicas stream candidate second) :=
  sameOutcome_of_ok (fun result hresult =>
      ⟨result, collectHeads_perm hconsistent h hresult, fun _ => .rfl⟩)
    fun result hresult => ⟨result, collectHeads_perm (hconsistent.perm h) h.symm hresult⟩

end Latest

/-! ## Recovery and the order of replies -/

/-- A session with three replicas. -/
def threeReplicas : Session where
  id := oneSession
  region := "eu"
  replicas := ["x", "y", "z"].map fun name => { hostId := name, url := name, region := "eu" }
  state := .recovering

/-- A sealed replica whose stream has one snapshot. -/
def replyWith (snapshot : SnapshotRef) : SealReply where
  head := {
    session := oneSession
    initialized := true
    sealed := true
    streams := [{ stream := streamOf "a", latest := some snapshot }] }
  nodup := List.pairwise_singleton _ _

/-- A fifth version that another write brought. -/
def otherFifth : SnapshotRef := { versionRef (streamOf "a") 5 with requestId := "other" }

end Bucket
end DurableActors
