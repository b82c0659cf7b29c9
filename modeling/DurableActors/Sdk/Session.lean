import DurableActors.Data.Frames
import DurableActors.Actor.Wire
import DurableActors.Sdk.Supervisor

/-!
# The session's byte stream

{lit}`ActorSessionConnection` of {lit}`sdk/src/host/actor-host.ts` reads a stream of messages,
each ended by a newline.  The socket decodes UTF-8, so its chunks are texts: they may
be cut anywhere between two characters.

Main results:

- Theorem {lit}`drain_eq_split`: the loop over newlines cuts the buffer into frames.
- Theorem {lit}`frames_survive_iff`: which streams a session reads whole.
- Theorem {lit}`two_frames_in_one_chunk`: two legal messages that fail the session.
-/

namespace DurableActors
namespace Sdk

open Frames

/-- {lit}`Buffer.byteLength`. -/
def byteLength (text : List Char) : Nat := (text.map Char.utf8Size).sum

@[simp] theorem byteLength_append (text other : List Char) :
    byteLength (text ++ other) = byteLength text + byteLength other := by
  simp [byteLength]

/-- The part of a connection that reads messages. -/
structure Inbound where
  buffer : List Char := []
  handled : List (List Char) := []
  failed : Bool := false

/-- The loop over the newlines of the buffer. -/
def drain (buffer : List Char) : List (List Char) × List Char :=
  if '\n' ∈ buffer then
    let rawMessage := buffer.takeWhile (· ≠ '\n')
    let rest := drain (buffer.drop (rawMessage.length + 1))
    (rawMessage :: rest.1, rest.2)
  else ([], buffer)
termination_by buffer.length
decreasing_by
  rename_i hmem
  have := List.length_pos_of_mem hmem
  simp only [List.length_drop]
  omega

/-- {lit}`acceptChunk`.  A failed session destroys its socket and gets no further chunks. -/
def Inbound.acceptChunk (session : Inbound) (chunk : List Char) : Inbound :=
  if session.failed then session
  else if maxMessageBytes < byteLength (session.buffer ++ chunk) then
    { session with buffer := session.buffer ++ chunk, failed := true }
  else
    let (messages, rest) := drain (session.buffer ++ chunk)
    { session with buffer := rest, handled := session.handled ++ messages }

/-- The session after its chunks. -/
def Inbound.receive (session : Inbound) (chunks : List (List Char)) : Inbound :=
  chunks.foldl Inbound.acceptChunk session

/-- A message's text as {lit}`encode_server_message` makes it: JSON has no newline, and with the
newline that follows it the message is within the limit. -/
structure EncodedText (text : List Char) : Prop where
  oneLine : '\n' ∉ text
  bytes : byteLength text + 1 ≤ Wire.maxActorExecutorMessageBytes

/-! ## Frames -/

/-- The first newline of a buffer. -/
theorem exists_first_newline {buffer : List Char} (h : '\n' ∈ buffer) :
    ∃ rest, buffer = buffer.takeWhile (· ≠ '\n') ++ '\n' :: rest := by
  cases hdrop : buffer.dropWhile (· ≠ '\n') with
  | nil =>
      have hall := List.dropWhile_eq_nil_iff.mp hdrop '\n' h
      simp at hall
  | cons x rest =>
      have hhead : decide (x ≠ '\n') = false := by
        have hnot := List.head?_dropWhile_not (fun c => decide (c ≠ '\n')) buffer
        rw [hdrop] at hnot
        simpa using hnot
      obtain rfl : x = '\n' := by simpa using hhead
      refine ⟨rest, ?_⟩
      rw [← hdrop, List.takeWhile_append_dropWhile]

/-- The loop cuts the buffer into frames. -/
theorem drain_eq_split (buffer : List Char) : drain buffer = split '\n' buffer := by
  induction buffer using drain.induct with
  | case1 buffer hmem rawMessage ih =>
      obtain ⟨rest, hbuffer⟩ := exists_first_newline hmem
      have hraw : '\n' ∉ rawMessage := fun hin => by simpa using List.mem_takeWhile_imp hin
      have hdrop : buffer.drop (rawMessage.length + 1) = rest := by
        conv_lhs => rw [hbuffer]
        simp [rawMessage]
      have hsplit : split '\n' buffer =
          (rawMessage :: (split '\n' rest).1, (split '\n' rest).2) := by
        conv_lhs => rw [hbuffer]
        exact split_frame _ hraw rest
      rw [hdrop] at ih
      rw [drain, if_pos hmem, hsplit, ← ih]
      exact congrArg₂ Prod.mk (by rw [hdrop]) (by rw [hdrop])
  | case2 buffer hmem => rw [drain, if_neg hmem, split_of_notMem _ hmem]

/-! ## Sessions -/

/-- The session that has read a text within the limit. -/
def reading (text : List Char) : Inbound where
  buffer := (split '\n' text).2
  handled := (split '\n' text).1

/-- The chunk fits in the buffer next to the open message before it. -/
def Fits (before chunk : List Char) : Prop :=
  byteLength ((split '\n' before).2 ++ chunk) ≤ maxMessageBytes

/-- Every chunk fits when it arrives. -/
def AllFit (before : List Char) : List (List Char) → Prop
  | [] => True
  | chunk :: chunks => Fits before chunk ∧ AllFit (before ++ chunk) chunks

theorem acceptChunk_of_fits {before chunk : List Char} (h : Fits before chunk) :
    (reading before).acceptChunk chunk = reading (before ++ chunk) := by
  have hlimit : ¬ maxMessageBytes < byteLength ((reading before).buffer ++ chunk) := not_lt.mpr h
  rw [Inbound.acceptChunk, if_neg (by simp [reading]), if_neg hlimit, drain_eq_split]
  simp only [reading, split_append '\n' before chunk]

theorem acceptChunk_of_not_fits {before chunk : List Char} (h : ¬ Fits before chunk) :
    ((reading before).acceptChunk chunk).failed = true ∧
      ((reading before).acceptChunk chunk).handled = (split '\n' before).1 := by
  have hlimit : maxMessageBytes < byteLength ((reading before).buffer ++ chunk) := not_le.mp h
  rw [Inbound.acceptChunk, if_neg (by simp [reading]), if_pos hlimit]
  exact ⟨rfl, rfl⟩

theorem receive_of_failed {session : Inbound} (h : session.failed = true)
    (chunks : List (List Char)) : session.receive chunks = session := by
  induction chunks with
  | nil => rfl
  | cons chunk chunks ih =>
      have hstay : session.acceptChunk chunk = session := by rw [Inbound.acceptChunk, if_pos h]
      rw [Inbound.receive, List.foldl_cons, hstay]
      exact ih

/-- A session reads chunks that fit, and fails at the first one that does not. -/
theorem receive_spec (before : List Char) (chunks : List (List Char)) :
    (AllFit before chunks ∧ (reading before).receive chunks = reading (before ++ chunks.flatten)) ∨
      ¬ AllFit before chunks ∧ ((reading before).receive chunks).failed = true ∧
        ∃ read, ((reading before).receive chunks).handled = (split '\n' read).1 ∧
          read <+: before ++ chunks.flatten := by
  induction chunks generalizing before with
  | nil => exact .inl ⟨trivial, by simp [Inbound.receive]⟩
  | cons chunk chunks ih =>
      rw [Inbound.receive, List.foldl_cons, List.flatten_cons, ← List.append_assoc]
      by_cases hfits : Fits before chunk
      · rw [acceptChunk_of_fits hfits]
        rcases ih (before ++ chunk) with ⟨hall, hread⟩ | ⟨hall, hfailed, hpre⟩
        · exact .inl ⟨⟨hfits, hall⟩, hread⟩
        · exact .inr ⟨fun h => hall h.2, hfailed, hpre⟩
      · obtain ⟨hfailed, hhandled⟩ := acceptChunk_of_not_fits hfits
        have hstay := receive_of_failed hfailed chunks
        rw [Inbound.receive] at hstay
        rw [hstay]
        refine .inr ⟨fun h => hfits h.1, hfailed, before, hhandled, ?_⟩
        rw [List.append_assoc]
        exact List.prefix_append _ _

theorem handled_prefix {text whole : List Char} (h : text <+: whole) :
    (split '\n' text).1 <+: (split '\n' whole).1 := by
  obtain ⟨rest, rfl⟩ := h
  rw [split_append]
  exact List.prefix_append _ _

/-- A session hands over messages of the stream in order, unaltered and once each.  It hands over all
of them, without failing, exactly when every chunk fits in the limit next to the part of a message
that was still open before it. -/
theorem frames_survive_iff {messages chunks : List (List Char)}
    (hmessages : ∀ message ∈ messages, EncodedText message)
    (hchunks : chunks.flatten = join '\n' messages) :
    (Inbound.receive {} chunks).handled <+: messages ∧
      ((Inbound.receive {} chunks).failed = false ∧ (Inbound.receive {} chunks).handled = messages ↔
        AllFit [] chunks) := by
  have hsplit : split '\n' (join '\n' messages) = (messages, []) :=
    split_join _ fun message hmem => (hmessages message hmem).oneLine
  have hinit : ({} : Inbound) = reading [] := rfl
  rw [hinit]
  rcases receive_spec [] chunks with ⟨hall, hread⟩ | ⟨hall, hfailed, read, hhandled, hread⟩
  · rw [List.nil_append, hchunks] at hread
    rw [hread]
    simp [reading, hsplit, hall]
  · rw [List.nil_append, hchunks] at hread
    have hle := handled_prefix hread
    rw [hsplit] at hle
    rw [hhandled, hfailed]
    exact ⟨hle, by simp [hall]⟩

theorem frames_survive_of_small :
    (∀ message ∈ [['a']], EncodedText message) ∧
      ((Inbound.receive {} [['a'], ['\n']]).failed = false ∧
        (Inbound.receive {} [['a'], ['\n']]).handled = [['a']] ↔ AllFit [] [['a'], ['\n']]) := by
  have hmessages : ∀ message ∈ [['a']], EncodedText message := by
    intro message hmem
    obtain rfl := List.mem_singleton.mp hmem
    exact ⟨by decide, by decide⟩
  have hchunks : [['a'], ['\n']].flatten = join '\n' [['a']] := rfl
  exact ⟨hmessages, (frames_survive_iff hmessages hchunks).2⟩

theorem byteLength_replicate (n : Nat) : byteLength (List.replicate n 'a') = n := by
  have hchar : 'a'.utf8Size = 1 := rfl
  simp [byteLength, hchar]

/-- A message of the largest size and the next message's first byte in one chunk fail the session,
which hands over neither. -/
theorem two_frames_in_one_chunk :
    ∃ first second : List Char, EncodedText first ∧ EncodedText second ∧
      (Inbound.receive {} [join '\n' [first, second]]).failed = true ∧
      (Inbound.receive {} [join '\n' [first, second]]).handled = [] := by
  obtain ⟨n, hn⟩ : ∃ n, n + 1 = maxMessageBytes := ⟨32 * 1024 * 1024 - 1, by decide⟩
  have hfirst : EncodedText (List.replicate n 'a') := by
    refine ⟨fun hmem => ?_, ?_⟩
    · exact absurd (List.eq_of_mem_replicate hmem) (by decide)
    · rw [byteLength_replicate, hn]
      exact le_rfl
  have hsecond : EncodedText ['b'] := ⟨by decide, by decide⟩
  have htoo : ¬ Fits [] (join '\n' [List.replicate n 'a', ['b']]) := by
    have hnewline : byteLength ['\n'] = 1 := rfl
    have hother : byteLength ['b', '\n'] = 2 := rfl
    simp only [Fits, split_nil, List.nil_append, join, List.flatMap_cons, List.flatMap_nil,
      List.append_nil, byteLength_append, byteLength_replicate, hnewline, List.cons_append, hother]
    omega
  exact ⟨_, _, hfirst, hsecond, acceptChunk_of_not_fits htoo⟩

end Sdk
end DurableActors
