import DurableActors.Actor.Protocol

/-!
# Snapshots and the plans to write them

A snapshot is the immutable document of one state version of an actor.  Its
object is named by the actor, the owner epoch and the version; the encoded bytes
are kept as the document itself, since encoding loses nothing.

A checksum is modelled as an injective function of the bytes: two snapshots with
the same digest are the same snapshot.
-/

namespace DurableActors

/-- Where a committed state came from. -/
structure StateAttribution where
  operation : String
  connectionId : Option String
  committedAtMs : Nat
  interleaved : Bool
deriving DecidableEq

/-- The document of one state version. -/
structure StateSnapshot where
  attribution : Option StateAttribution
  stateVersion : Nat
  ownerEpoch : Nat
  requestId : String
  state : Value
  result : Value
deriving DecidableEq

/-- The most bytes the state of an actor may have. -/
def maxActorStateBytes : Nat := 16 * 1024 * 1024

namespace StateSnapshot

/-- The validator of snapshots. -/
def validate (snapshot : StateSnapshot) : Except Error Unit :=
  if snapshot.stateVersion = 0 then
    .error "actor state version must be positive"
  else if snapshot.ownerEpoch = 0 then
    .error "owner epoch must be positive"
  else if snapshot.requestId.isEmpty ∨ 255 < snapshot.requestId.utf8ByteSize then
    .error "actor state request ID is invalid"
  else if !snapshot.state.isObject then
    .error "actor state must be a JSON object"
  else if maxActorStateBytes < snapshot.state.encodedBytes then
    .error s!"actor state exceeds the {maxActorStateBytes}-byte limit"
  else
    .ok ()

/-- A snapshot without attribution, validated. -/
def new (stateVersion ownerEpoch : Nat) (requestId : String) (state result : Value) :
    Except Error StateSnapshot := do
  let snapshot : StateSnapshot :=
    { attribution := none, stateVersion, ownerEpoch, requestId, state, result }
  snapshot.validate
  return snapshot

/-- The bytes of a valid snapshot. -/
def encode (snapshot : StateSnapshot) : Except Error StateSnapshot := do
  snapshot.validate
  return snapshot

/-- The snapshot that bytes hold, if it is valid. -/
def decode (bytes : StateSnapshot) : Except Error StateSnapshot := do
  bytes.validate
  return bytes

end StateSnapshot

/-! ## Objects, streams and references -/

/-- The prefix shared by the snapshot objects of one actor and owner epoch. -/
structure StreamPrefix where
  actor : ActorKey
  epoch : Nat
deriving DecidableEq

/-- The name of a snapshot object. -/
structure SnapshotObject where
  stream : StreamPrefix
  version : Nat
deriving DecidableEq

/-- The position of an object: owner epoch first, then version. -/
def snapshotPosition (object : SnapshotObject) : Nat ×ₗ Nat :=
  toLex (object.stream.epoch, object.version)

/-- A host session, as it is written into session keys and streams. -/
structure HostSession where
  host : String
  session : String
deriving DecidableEq

/-- The digest of encoded bytes.  Bytes with one digest are equal. -/
structure Digest where
  bytes : StateSnapshot
deriving DecidableEq

/-- The checksum of encoded bytes. -/
def checksum (bytes : StateSnapshot) : Digest := ⟨bytes⟩

theorem checksum_injective {bytes bytes' : StateSnapshot}
    (h : checksum bytes = checksum bytes') : bytes = bytes' :=
  congrArg Digest.bytes h

/-- A reference to a snapshot object and its content. -/
structure SnapshotRef where
  object : SnapshotObject
  stateVersion : Nat
  requestId : String
  digest : Digest
deriving DecidableEq

namespace SnapshotRef

/-- The reference to a snapshot stored under a name. -/
def new (object : SnapshotObject) (snapshot bytes : StateSnapshot) : SnapshotRef where
  object := object
  stateVersion := snapshot.stateVersion
  requestId := snapshot.requestId
  digest := checksum bytes

/-- The check of bytes against a reference. -/
def verify (reference : SnapshotRef) (bytes : StateSnapshot) : Except Error Unit :=
  if checksum bytes = reference.digest then .ok () else .error "snapshot checksum mismatch"

end SnapshotRef

/-- The snapshots that one host session writes in one owner epoch. -/
structure ReplicaStream where
  session : HostSession
  streamPrefix : StreamPrefix
  ownerEpoch : Nat
  baseVersion : Nat
deriving DecidableEq

namespace ReplicaStream

/-- The object of a version of the stream. -/
def object (stream : ReplicaStream) (version : Nat) : SnapshotObject :=
  ⟨stream.streamPrefix, version⟩

/-- The reference to bytes that belong to the stream. -/
def snapshot (stream : ReplicaStream) (bytes : StateSnapshot) : Except Error SnapshotRef := do
  let snapshot ← StateSnapshot.decode bytes
  if ¬ (snapshot.ownerEpoch = stream.ownerEpoch ∧
      stream.baseVersion < snapshot.stateVersion) then
    throw "snapshot belongs to another stream"
  return SnapshotRef.new (stream.object snapshot.stateVersion) snapshot bytes

end ReplicaStream

/-- A replica that takes part in a session. -/
structure ReplicaTarget where
  hostId : String
  url : String
  region : String
deriving DecidableEq

/-- The most replicas a session may have. -/
def maxReplicas : Nat := 8

/-- The validator of replica memberships. -/
def validateReplicas (replicas : List ReplicaTarget) : Except Error Unit :=
  if replicas.length = 0 ∨ maxReplicas < replicas.length then
    .error "invalid replica count"
  else if ¬ ((replicas.map ReplicaTarget.hostId).Nodup ∧
      (replicas.map ReplicaTarget.url).Nodup) then
    .error "replica hosts must be distinct"
  else
    .ok ()

/-- A capability to write one version of a stream. -/
structure WritePlan where
  stream : ReplicaStream
  stateVersion : Nat
  objectName : SnapshotObject
  expiresAtMs : Nat
  replication : Option (List ReplicaTarget)
deriving DecidableEq

/-- How a write became durable. -/
inductive StateWrite
  | written
  | alreadyExists
  | replicated
deriving DecidableEq

end DurableActors
