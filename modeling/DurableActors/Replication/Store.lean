import DurableActors.Effects.Program
import DurableActors.Storage.Snapshot

/-!
# The replica store

A replica keeps the snapshots of the streams it takes part in as files of one
directory: a blob for each snapshot, a head record for each stream and a record for
each session.  A record is written under a temporary name, synced, renamed to its
own name, and then the directory is synced.  A copy of the records and of the
sizes of the blobs is kept in memory.

The operations run one after the other, under one lock.  Here they are programs
over the calls to the file system and to the memory: a call to the file system may
fail, and then the operation ends with what it has done so far.

File names are kept as what they are the hashes of, and the prefix of a stream as
the actor and owner epoch it encodes, so an object starts with the prefix of the one
stream it belongs to.
-/

namespace DurableActors
namespace Replication

open Effects

/-! ## Records and files -/

/-- The header of a blob, and what the memory keeps of it. -/
structure Metadata where
  object : SnapshotObject
  size : Nat
deriving DecidableEq

/-- The newest snapshot of a stream. -/
structure StreamHead where
  stream : ReplicaStream
  latest : Option SnapshotRef
deriving DecidableEq

/-- A session: whether it was initialized and sealed, and in an answer its streams. -/
structure SessionHead where
  session : HostSession
  initialized : Bool
  sealed : Bool
  streams : List StreamHead
deriving DecidableEq

/-- A blob: its header and the encoded snapshot. -/
structure Blob where
  metadata : Metadata
  bytes : StateSnapshot
deriving DecidableEq

/-- The names of the files of a store. -/
inductive FileName
  | blob (object : SnapshotObject)
  | stream (streamPrefix : StreamPrefix)
  | session (session : HostSession)
deriving DecidableEq

/-- What a file of each name holds. -/
abbrev FileName.Content : FileName → Type
  | blob _ => Blob
  | stream _ => StreamHead
  | session _ => SessionHead

/-- An entry of the directory.  Temporary files are left behind by a crash. -/
inductive DirEntry
  | pending
  | file (name : FileName)
  | other
deriving DecidableEq

/-- What the store takes from the encoding of snapshots and names. -/
structure Encoding where
  /-- The number of bytes of an encoded snapshot. -/
  size : StateSnapshot → Nat
  /-- The order of encoded prefixes. -/
  before : StreamPrefix → StreamPrefix → Bool
  before_trans : ∀ a b c, before a b → before b c → before a c
  before_total : ∀ a b, before a b || before b a
  before_antisymm : ∀ a b, before a b → before b a → a = b

/-- The state of an open store. -/
structure StoreState where
  capacity : Nat
  used : Nat
  snapshots : AList fun _ : SnapshotObject => Metadata
  streams : AList fun _ : StreamPrefix => StreamHead
  sessions : AList fun _ : HostSession => SessionHead

/-! ## Calls -/

/-- The calls of the store to the file system and to its memory. -/
inductive StoreOp
  | createDirectory
  | tryLock
  | readDir
  | readFile (name : FileName)
  | writePending
  | persist (name : FileName) (content : name.Content)
  | persistNoclobber (name : FileName) (content : name.Content)
  | removeFile (name : FileName)
  | removePending
  | syncDirectory
  | load
  | store (state : StoreState)
  | shuffleObjects (objects : List SnapshotObject)
  | shuffleHeads (heads : List StreamHead)

/-- The answers of each call.  The order in which a hash map lists its entries is an answer too. -/
abbrev StoreOp.Ans : StoreOp → Type
  | readDir => Except Error (List DirEntry)
  | readFile name => Except Error name.Content
  | load => StoreState
  | store _ => Unit
  | shuffleObjects _ => List SnapshotObject
  | shuffleHeads _ => List StreamHead
  | _ => Except Error Unit

/-- The interface of the store. -/
def calls : Interface where
  Op := StoreOp
  Ans := StoreOp.Ans

/-- A program of the store. -/
abbrev StoreProg (α : Type) : Type := Prog calls Error α

/-- Make a call to the file system and stop when it fails. -/
def createDirectory : StoreProg Unit := (Prog.perform (I := calls) .createDirectory).bind Prog.lift

@[inherit_doc createDirectory]
def tryLock : StoreProg Unit := (Prog.perform (I := calls) .tryLock).bind Prog.lift

@[inherit_doc createDirectory]
def readDir : StoreProg (List DirEntry) := (Prog.perform (I := calls) .readDir).bind Prog.lift

@[inherit_doc createDirectory]
def readFile (name : FileName) : StoreProg name.Content :=
  (Prog.perform (I := calls) (.readFile name)).bind Prog.lift

/-- Create a temporary file, write it and sync it. -/
def writePending : StoreProg Unit := (Prog.perform (I := calls) .writePending).bind Prog.lift

/-- Rename the temporary file, over a file that has the name. -/
def persist (name : FileName) (content : name.Content) : StoreProg Unit :=
  (Prog.perform (I := calls) (.persist name content)).bind Prog.lift

/-- Rename the temporary file, unless a file has the name. -/
def persistNoclobber (name : FileName) (content : name.Content) : StoreProg Unit :=
  (Prog.perform (I := calls) (.persistNoclobber name content)).bind Prog.lift

@[inherit_doc createDirectory]
def removeFile (name : FileName) : StoreProg Unit :=
  (Prog.perform (I := calls) (.removeFile name)).bind Prog.lift

@[inherit_doc createDirectory]
def removePending : StoreProg Unit := (Prog.perform (I := calls) .removePending).bind Prog.lift

@[inherit_doc createDirectory]
def syncDirectory : StoreProg Unit := (Prog.perform (I := calls) .syncDirectory).bind Prog.lift

/-- Read the memory. -/
def load : StoreProg StoreState := Prog.perform (I := calls) .load

/-- Change the memory. -/
def store (state : StoreState) : StoreProg Unit := Prog.perform (I := calls) (.store state)

/-- List keys of a hash map, in its order. -/
def shuffleObjects (objects : List SnapshotObject) : StoreProg (List SnapshotObject) :=
  Prog.perform (I := calls) (.shuffleObjects objects)

/-- List values of a hash map, in its order. -/
def shuffleHeads (heads : List StreamHead) : StoreProg (List StreamHead) :=
  Prog.perform (I := calls) (.shuffleHeads heads)

/-! ## Arithmetic of sizes -/

/-- The unsigned 64-bit numbers are below this one. -/
def wordLimit : Nat := 2 ^ 64

/-- Addition of unsigned 64-bit numbers. -/
def checkedAdd (a b : Nat) : Option Nat :=
  if a + b < wordLimit then some (a + b) else none

/-- Subtraction of unsigned 64-bit numbers, which wraps around. -/
def wrappingSub (a b : Nat) : Nat := (a + wordLimit - b) % wordLimit

/-! ## The operations -/

namespace StoreState

/-- The head of a stream.  A prefix belongs to the stream that first got a head under it. -/
def head (state : StoreState) (stream : ReplicaStream) : Except Error StreamHead :=
  match state.streams.lookup stream.streamPrefix with
  | some head => if head.stream = stream then .ok head else .error "replica stream identity mismatch"
  | none => .ok { stream, latest := none }

/-- The record of a session. -/
def session (state : StoreState) (session : HostSession) : SessionHead :=
  (state.sessions.lookup session).getD
    { session, initialized := false, sealed := false, streams := [] }

/-- The objects of a stream other than its newest one. -/
def obsolete (state : StoreState) (head : StreamHead) (latest : SnapshotRef) :
    List SnapshotObject :=
  state.snapshots.keys.filter fun object =>
    object.stream = head.stream.streamPrefix ∧ object ≠ latest.object

/-- The heads of a session's streams. -/
def headsOf (state : StoreState) (session : HostSession) : List StreamHead :=
  (state.streams.entries.map Sigma.snd).filter fun head => head.stream.session = session

end StoreState

section

variable (encoding : Encoding)

/-- The bytes of a blob that has to have a size. -/
def readBlob (object : SnapshotObject) (size : Nat) : StoreProg StateSnapshot := do
  let blob : Blob ← readFile (.blob object)
  Prog.ensure (encoding.size blob.bytes = size) "incomplete replica blob"
  return blob.bytes

/-- Keep a blob. -/
def put (metadata : Metadata) (bytes : StateSnapshot) : StoreProg Unit := do
  let state ← load
  match state.snapshots.lookup metadata.object with
  | some existing =>
      let held ← readBlob encoding metadata.object existing.size
      Prog.ensure (held = bytes) "conflicting immutable snapshot"
      syncDirectory
  | none =>
      let used ← Prog.context (checkedAdd state.used metadata.size) "replica size overflow"
      Prog.ensure (used ≤ state.capacity) "replica storage is full"
      writePending
      persistNoclobber (.blob metadata.object) { metadata, bytes }
      store { state with used, snapshots := state.snapshots.insert metadata.object metadata }
      syncDirectory

/-- Write the record of a session. -/
def saveSession (head : SessionHead) : StoreProg Unit := do
  writePending
  persist (.session head.session) head
  let state ← load
  store { state with sessions := state.sessions.insert head.session head }
  syncDirectory

/-- Write the head record of a stream. -/
def saveHead (head : StreamHead) : StoreProg Unit := do
  writePending
  persist (.stream head.stream.streamPrefix) head
  let state ← load
  store { state with streams := state.streams.insert head.stream.streamPrefix head }
  syncDirectory

/-- Delete a blob. -/
def removeSnapshot (object : SnapshotObject) : StoreProg Unit := do
  removeFile (.blob object)
  let state ← load
  let metadata ← Prog.context (state.snapshots.lookup object)
    "called `Option::unwrap()` on a `None` value"
  store
    { state with
      snapshots := state.snapshots.erase object
      used := wrappingSub state.used metadata.size }

/-- Delete the blobs of a stream other than the newest one. -/
def pruneStream (head : StreamHead) : StoreProg Unit :=
  match head.latest with
  | none => pure ()
  | some latest => do
      let state ← load
      let objects ← shuffleObjects (state.obsolete head latest)
      if objects.isEmpty then
        pure ()
      else do
        Prog.forEach removeSnapshot objects
        syncDirectory

/-- Keep a newer snapshot of a stream and delete the older ones. -/
def replaceHead (head : StreamHead) (snapshot : SnapshotRef) (bytes : StateSnapshot) :
    StoreProg Unit := do
  put encoding { object := snapshot.object, size := encoding.size bytes } bytes
  saveHead { head with latest := some snapshot }
  pruneStream { head with latest := some snapshot }

/-- Make a snapshot the newest one of a stream.  A full snapshot includes the writes in between
that went to the bucket, so versions may be skipped. -/
def append (stream : ReplicaStream) (bytes : StateSnapshot) : StoreProg Unit := do
  let state ← load
  let head ← Prog.lift (state.head stream)
  Prog.ensure ((state.session stream.session).initialized ∧
    ¬ (state.session stream.session).sealed) "replica session is absent or sealed"
  let snapshot ← Prog.lift (stream.snapshot bytes)
  match head.latest with
  | none => replaceHead encoding head snapshot bytes
  | some latest => do
      Prog.ensure (latest.stateVersion ≤ snapshot.stateVersion) "replica write is out of order"
      if snapshot.stateVersion = latest.stateVersion then do
        Prog.ensure (snapshot = latest) "conflicting immutable snapshot"
        syncDirectory
        pruneStream head
      else
        replaceHead encoding head snapshot bytes

/-- Let a session take snapshots. -/
def initializeSession (session : HostSession) : StoreProg Unit := do
  let state ← load
  let head := state.session session
  Prog.ensure (¬ head.sealed) "replica session is sealed"
  saveSession { head with initialized := true }

/-- The head of a stream, for a session that was initialized. -/
def streamHead (stream : ReplicaStream) : StoreProg StreamHead := do
  let state ← load
  Prog.ensure ((state.session stream.session).initialized) "replica session is absent"
  Prog.lift (state.head stream)

/-- Stop a session from taking snapshots, and return the heads of its streams. -/
def sealSession (session : HostSession) : StoreProg SessionHead := do
  let state ← load
  let head := { state.session session with sealed := true }
  saveSession head
  let state ← load
  return { head with
    streams := (state.headsOf session).mergeSort fun first second =>
      encoding.before first.stream.streamPrefix second.stream.streamPrefix }

/-- The bytes of an object that is held. -/
def read (object : SnapshotObject) : StoreProg (Option StateSnapshot) := do
  let state ← load
  match state.snapshots.lookup object with
  | none => return none
  | some metadata => do
      let bytes ← readBlob encoding object metadata.size
      return some bytes

/-! ## Opening a store -/

/-- Take one entry of the directory into the memory. -/
def restoreEntry : DirEntry → StoreProg Unit
  | .pending => removePending
  | .other => pure ()
  | .file (.session session) => do
      let head : SessionHead ← readFile (.session session)
      Prog.ensure (head.session = session) "invalid session metadata"
      let state ← load
      store { state with sessions := state.sessions.insert head.session head }
  | .file (.stream streamPrefix) => do
      let head : StreamHead ← readFile (.stream streamPrefix)
      Prog.ensure (head.stream.streamPrefix = streamPrefix) "invalid stream metadata"
      let state ← load
      store { state with streams := state.streams.insert head.stream.streamPrefix head }
  | .file (.blob object) => do
      let blob : Blob ← readFile (.blob object)
      Prog.ensure (blob.metadata.object = object) "invalid replica blob metadata"
      Prog.ensure (encoding.size blob.bytes = blob.metadata.size) "incomplete replica blob"
      let state ← load
      let used ← Prog.context (checkedAdd state.used blob.metadata.size) "replica size overflow"
      store
        { state with
          used
          snapshots := state.snapshots.insert blob.metadata.object blob.metadata }

/-- Rebuild the memory from the directory and delete what the last run left behind. -/
def restore : StoreProg Unit := do
  let entries ← readDir
  Prog.forEach (restoreEntry encoding) entries
  let state ← load
  let heads ← shuffleHeads (state.streams.entries.map Sigma.snd)
  Prog.forEach pruneStream heads

/-- Open a store in a directory that no other process has open. -/
def openStore (capacity : Nat) : StoreProg Unit := do
  Prog.ensure (0 < capacity) "replica storage capacity must be positive"
  createDirectory
  tryLock
  store { capacity, used := 0, snapshots := ∅, streams := ∅, sessions := ∅ }
  restore encoding

/-! ## Requests -/

/-- A request to an open store. -/
inductive Request
  | initializeSession (session : HostSession)
  | append (stream : ReplicaStream) (bytes : StateSnapshot)
  | streamHead (stream : ReplicaStream)
  | sealSession (session : HostSession)
  | put (object : SnapshotObject) (bytes : StateSnapshot)
  | read (object : SnapshotObject)
deriving DecidableEq

/-- What a request returns. -/
inductive Reply
  | done
  | streamHead (head : StreamHead)
  | sessionHead (head : SessionHead)
  | bytes (bytes : Option StateSnapshot)
deriving DecidableEq

/-- The program of a request. -/
def Request.program : Request → StoreProg Reply
  | initializeSession session => do
      Replication.initializeSession session
      return .done
  | append stream bytes => do
      Replication.append encoding stream bytes
      return .done
  | streamHead stream => do
      let head ← Replication.streamHead stream
      return .streamHead head
  | sealSession session => do
      let head ← Replication.sealSession encoding session
      return .sessionHead head
  | put object bytes => do
      Replication.put encoding { object, size := encoding.size bytes } bytes
      return .done
  | read object => do
      let bytes ← Replication.read encoding object
      return .bytes bytes

end

end Replication
end DurableActors
