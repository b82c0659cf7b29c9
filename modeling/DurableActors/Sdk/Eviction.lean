import DurableActors.Sdk.Instances

/-!
# Evictions and rollbacks

An instance is dropped when the actor is evicted, and dropped and created again when
a method fails.  The next instance is created by the class's constructor, and the
fields of the last saved state are put over those that the constructor gave.

For a class whose methods only work on persisted fields, this module compares a run
with evictions and failures to the run of its successful calls alone.

Main results:

- Theorem {lit}`snapshot_overlay_iff`: an instance created from a state persists that
  state exactly when the state has every field that the constructor gives.
- Theorem {lit}`eviction_is_invisible`: the runs agree when every committed state does.
- Theorem {lit}`eviction_restores_deleted_field`: a deleted field comes back.
-/

namespace DurableActors
namespace Sdk

open KeyOrder

/-! ## Classes of persisted fields -/

/-- The name is that of a declared property. -/
def ActorDefinition.declares (definition : ActorDefinition) (name : String) : Bool :=
  definition.fields.any fun field => !field.isPrivate && field.name == name

/-- Fields that a method may leave: declared and persisted ones. -/
structure Writable (definition : ActorDefinition) (fields : JsonObject) : Prop where
  ordered : KeyOrdered fields
  persisted : ∀ field ∈ fields, definition.isPersisted field.1
  declared : ∀ field ∈ fields, definition.declares field.1

/-- A class whose methods read and write only persisted fields with JSON values.  A method returns a
value or throws, and in both cases says which fields it leaves.  A failing method is rolled back
unless the class has reentrant methods, so such a class has none here. -/
structure FieldClass where
  definition : ActorDefinition
  fresh : Properties
  method : String → List Value → JsonObject → Except (Error × JsonObject) (Value × JsonObject)
  ordered : KeyOrdered fresh
  valid : validateActorState definition fresh = .ok ()
  json : ∀ property ∈ fresh, definition.isPersisted property.1 → ∃ text, property.2 = .json text
  returns : ∀ {name args fields value after}, method name args fields = .ok (value, after) →
    Writable definition after
  throws : ∀ {name args fields message after}, method name args fields = .error (message, after) →
    Writable definition after ∧ definition.interleaved = false

namespace FieldClass

variable (cls : FieldClass)

/-- The fields that the constructor gives. -/
def initial : JsonObject := contents cls.definition cls.fresh

/-- The properties after the persisted fields became the given ones. -/
def assign (properties : Properties) (fields : JsonObject) : Properties :=
  fields.foldl (fun properties field => defineProperty field.1 field.2 properties)
    (properties.filter fun property => !cls.definition.isPersisted property.1)

/-- The instance with the given persisted fields. -/
def instanceWith (fields : JsonObject) : Properties := cls.assign cls.fresh fields

/-- The state has every field that the constructor gives. -/
def Complete (fields : JsonObject) : Prop :=
  ∀ field ∈ cls.initial, ∃ text, (field.1, text) ∈ fields

instance (fields : JsonObject) : Decidable (cls.Complete fields) :=
  decidable_of_iff (∀ field ∈ cls.initial, ∃ kept ∈ fields, kept.1 = field.1) <| by
    constructor
    · rintro h field hfield
      obtain ⟨⟨name, text⟩, hkept, rfl⟩ := h field hfield
      exact ⟨text, hkept⟩
    · rintro h field hfield
      obtain ⟨text, hkept⟩ := h field hfield
      exact ⟨_, hkept, rfl⟩

/-! ## Runs -/

/-- What happens to an actor. -/
inductive Action
  | call (name : String) (args : List Value)
  | evict
deriving DecidableEq

/-- The runtime of an actor, its last snapshot, and the results and states of its successful
calls, the newest first. -/
structure Session where
  runtime : ActorRuntime := {}
  committed : Option JsonObject := none
  outputs : List (Value × JsonObject) := []
deriving DecidableEq

/-- The state that a command carries. -/
def stateValue : Option JsonObject → Value
  | some fields => .object fields
  | none => .null

/-- The command for a call. -/
def envelope (actor : ActorKey) (committed : Option JsonObject) (name : String)
    (args : List Value) : CommandEnvelope where
  command := .invoke { requestId := "r", actor, method := name, args }
  state := some (stateValue committed)
  residentOnly := false

/-- The method works on the instance and the runtime ends the invocation. -/
def runMethod (runtime : ActorRuntime) (command : WorkerCommand) (invocation : Invocation)
    (name : String) (args : List Value) : ActorRuntime × ExecutorReply :=
  let write (fields : JsonObject) : ActorRuntime :=
    { runtime with
      objects := runtime.objects.set invocation.object
        (cls.assign (runtime.properties invocation.object) fields) }
  match cls.method name args (contents cls.definition (runtime.properties invocation.object)) with
  | .ok (value, after) =>
      (write after).finish cls.definition (.ok cls.fresh) command invocation (.returned (.ok value) [])
  | .error (message, after) =>
      (write after).finish cls.definition (.ok cls.fresh) command invocation (.threw message)

/-- What the host makes of the end of a call. -/
def settle (session : Session) : ActorRuntime × ExecutorReply → Session
  | (runtime, .invoked result (.object state) _ _) =>
      { runtime, committed := some state, outputs := (result, state) :: session.outputs }
  | (runtime, _) => { session with runtime }

/-- One action.  An eviction ends the worker. -/
def step (actor : ActorKey) (session : Session) : Action → Session
  | .evict => { session with runtime := {} }
  | .call name args =>
      let command := envelope actor session.committed name args
      match session.runtime.start cls.definition (.ok cls.fresh) command with
      | (runtime, .inl reply) => settle session (runtime, reply)
      | (runtime, .inr invocation) =>
          settle session (cls.runMethod runtime command.command invocation name args)

/-- The actions one after the other. -/
def run (actor : ActorKey) (session : Session) (actions : List Action) : Session :=
  actions.foldl (cls.step actor) session

/-- The successful calls of a run. -/
def successes (actor : ActorKey) (session : Session) : List Action → List Action
  | [] => []
  | action :: actions =>
      let next := cls.step actor session action
      if next.outputs.length = session.outputs.length then successes actor next actions
      else action :: successes actor next actions

/-! ## Instances with given fields -/

variable {cls}

theorem validateActorState_iff {definition : ActorDefinition} {properties : Properties} :
    validateActorState definition properties = .ok () ↔
      ∀ property ∈ properties, definition.declares property.1 ∧ property.2 ≠ .accessor := by
  unfold validateActorState
  rw [List.forM_eq_forM]
  induction properties with
  | nil => simp [pure, Except.pure]
  | cons property properties ih =>
      rw [List.forM_cons, List.forall_mem_cons, ← ih]
      by_cases hdeclared : definition.declares property.1
      · have hany : (definition.fields.any fun field =>
            !field.isPrivate && field.name == property.1) = true := hdeclared
        by_cases haccessor : property.2 = .accessor
        · simp [hany, haccessor, bind, Except.bind, throw, throwThe, MonadExceptOf.throw]
        · simp [hany, hdeclared, haccessor, bind, Except.bind, pure, Except.pure]
      · have hany : (definition.fields.any fun field =>
            !field.isPrivate && field.name == property.1) = false := by
          simpa [ActorDefinition.declares] using hdeclared
        simp [hany, hdeclared, bind, Except.bind, throw, throwThe, MonadExceptOf.throw]

theorem cloneJsonObject_ok {label : String} {properties : Properties}
    (h : ∀ property ∈ properties, ∃ text, property.2 = .json text) :
    cloneJsonObject label properties = .ok (properties.filterMap jsonField) := by
  induction properties with
  | nil => rfl
  | cons property properties ih =>
      obtain ⟨⟨text, htext⟩, hrest⟩ := List.forall_mem_cons.mp h
      obtain ⟨name, value⟩ := property
      obtain rfl : value = .json text := htext
      simp [cloneJsonObject, ih hrest, jsonField, bind, Except.bind, pure, Except.pure]

/-- An instance whose persisted fields have JSON values can be saved. -/
theorem snapshotActorState_ok {definition : ActorDefinition} {properties : Properties}
    (hvalid : validateActorState definition properties = .ok ())
    (hjson : ∀ property ∈ properties, definition.isPersisted property.1 →
      ∃ text, property.2 = .json text) :
    snapshotActorState definition properties = .ok (contents definition properties) := by
  simp only [snapshotActorState, hvalid, bind, Except.bind]
  refine cloneJsonObject_ok fun property hproperty => ?_
  obtain ⟨hmem, hpersisted⟩ := List.mem_filter.mp hproperty
  exact hjson property hmem hpersisted

theorem instanceWith_ordered {fields : JsonObject} (h : Writable cls.definition fields) :
    KeyOrdered (cls.instanceWith fields) :=
  (foldl_defineProperty (cls.ordered.filter _) h.ordered).1

theorem mem_instanceWith {fields : JsonObject} (h : Writable cls.definition fields)
    {property : String × Property} :
    property ∈ cls.instanceWith fields ↔
      (∃ field ∈ fields, property = (field.1, .json field.2)) ∨
        property ∈ cls.fresh ∧ cls.definition.isPersisted property.1 = false := by
  unfold instanceWith assign
  rw [(foldl_defineProperty (cls.ordered.filter _) h.ordered).2 property, List.mem_filter]
  refine or_congr_right ?_
  constructor
  · rintro ⟨-, hmem, hpersisted⟩
    exact ⟨hmem, by simpa using hpersisted⟩
  · rintro ⟨hmem, hpersisted⟩
    refine ⟨fun field hfield heq => ?_, hmem, by simpa using hpersisted⟩
    rw [heq, h.persisted field hfield] at hpersisted
    cases hpersisted

theorem validate_instanceWith {fields : JsonObject} (h : Writable cls.definition fields) :
    validateActorState cls.definition (cls.instanceWith fields) = .ok () := by
  refine validateActorState_iff.mpr fun property hproperty => ?_
  rcases (mem_instanceWith h).mp hproperty with ⟨field, hfield, rfl⟩ | ⟨hmem, -⟩
  · exact ⟨h.declared field hfield, by simp⟩
  · exact validateActorState_iff.mp cls.valid property hmem

theorem contents_instanceWith {fields : JsonObject} (h : Writable cls.definition fields) :
    contents cls.definition (cls.instanceWith fields) = fields := by
  refine (contents_ordered _ (instanceWith_ordered h)).ext h.ordered fun field => ?_
  rw [mem_contents, mem_instanceWith h]
  constructor
  · rintro ⟨⟨other, hother, heq⟩ | ⟨-, hnot⟩, hpersisted⟩
    · obtain ⟨hname, htext⟩ := Prod.mk.inj heq
      obtain rfl : field = other := Prod.ext hname (Property.json.inj htext)
      exact hother
    · rw [hpersisted] at hnot
      cases hnot
  · intro hfield
    exact ⟨.inl ⟨field, hfield, rfl⟩, h.persisted field hfield⟩

/-- An instance with given fields is saved with these fields. -/
theorem snapshot_instanceWith {fields : JsonObject} (h : Writable cls.definition fields) :
    snapshotActorState cls.definition (cls.instanceWith fields) = .ok fields := by
  rw [snapshotActorState_ok (validate_instanceWith h), contents_instanceWith h]
  intro property hproperty hpersisted
  rcases (mem_instanceWith h).mp hproperty with ⟨field, -, rfl⟩ | ⟨-, hnot⟩
  · exact ⟨field.2, rfl⟩
  · rw [hpersisted] at hnot
    cases hnot

/-- The fields of an instance can be replaced. -/
theorem assign_instanceWith {fields after : JsonObject} (h : Writable cls.definition fields) :
    cls.assign (cls.instanceWith fields) after = cls.instanceWith after := by
  have hrest : (cls.instanceWith fields).filter (fun property =>
      !cls.definition.isPersisted property.1) =
      cls.fresh.filter (fun property => !cls.definition.isPersisted property.1) := by
    refine ((instanceWith_ordered h).filter _).ext (cls.ordered.filter _) fun property => ?_
    rw [List.mem_filter, List.mem_filter, mem_instanceWith h]
    constructor
    · rintro ⟨⟨field, hfield, rfl⟩ | ⟨hmem, -⟩, hpersisted⟩
      · simp [h.persisted field hfield] at hpersisted
      · exact ⟨hmem, hpersisted⟩
    · rintro ⟨hmem, hpersisted⟩
      exact ⟨.inr ⟨hmem, by simpa using hpersisted⟩, hpersisted⟩
  unfold assign at hrest ⊢
  rw [hrest]
  rfl

theorem writable_initial : Writable cls.definition cls.initial where
  ordered := contents_ordered _ cls.ordered
  persisted _ hfield := (mem_contents.mp hfield).2
  declared _ hfield :=
    (validateActorState_iff.mp cls.valid _ (mem_contents.mp hfield).1).1

theorem complete_initial : cls.Complete cls.initial :=
  fun field hfield => ⟨field.2, hfield⟩

/-- The constructor gives the instance with its own fields. -/
theorem instanceWith_initial : cls.instanceWith cls.initial = cls.fresh := by
  refine (instanceWith_ordered writable_initial).ext cls.ordered fun property => ?_
  rw [mem_instanceWith writable_initial]
  constructor
  · rintro (⟨field, hfield, rfl⟩ | ⟨hmem, -⟩)
    · exact (mem_contents.mp hfield).1
    · exact hmem
  · intro hmem
    obtain ⟨name, value⟩ := property
    cases hpersisted : cls.definition.isPersisted name with
    | false => exact .inr ⟨hmem, rfl⟩
    | true =>
        obtain ⟨text, htext⟩ := cls.json _ hmem hpersisted
        obtain rfl : value = .json text := htext
        exact .inl ⟨(name, text), mem_contents.mpr ⟨hmem, hpersisted⟩, rfl⟩

/-! ## Restoring a state -/

/-- The constructor's properties with the fields of a state over them. -/
def overlay (cls : FieldClass) (fields : JsonObject) : Properties :=
  fields.foldl (fun properties field => defineProperty field.1 field.2 properties) cls.fresh

theorem hydrate_eq {fields : JsonObject} (h : Writable cls.definition fields) :
    hydrateActorState cls.definition cls.fresh fields = .ok (cls.overlay fields) := by
  have hfilter : (fields.filter fun field => cls.definition.isPersisted field.1) = fields :=
    List.filter_eq_self.mpr h.persisted
  simp [hydrateActorState, cls.valid, hfilter, overlay, bind, Except.bind, pure, Except.pure]

theorem mem_overlay {fields : JsonObject} (h : Writable cls.definition fields)
    {property : String × Property} :
    property ∈ cls.overlay fields ↔
      (∃ field ∈ fields, property = (field.1, .json field.2)) ∨
        (∀ field ∈ fields, property.1 ≠ field.1) ∧ property ∈ cls.fresh :=
  (foldl_defineProperty cls.ordered h.ordered).2 property

theorem overlay_ordered {fields : JsonObject} (h : Writable cls.definition fields) :
    KeyOrdered (cls.overlay fields) :=
  (foldl_defineProperty cls.ordered h.ordered).1

/-- A complete state covers all persisted fields of the constructor. -/
theorem overlay_of_complete {fields : JsonObject} (h : Writable cls.definition fields)
    (hcomplete : cls.Complete fields) : cls.overlay fields = cls.instanceWith fields := by
  refine (overlay_ordered h).ext (instanceWith_ordered h) fun property => ?_
  rw [mem_overlay h, mem_instanceWith h]
  refine or_congr_right ?_
  obtain ⟨name, value⟩ := property
  constructor
  · rintro ⟨hothers, hmem⟩
    refine ⟨hmem, Bool.eq_false_iff.mpr fun hpersisted => ?_⟩
    obtain ⟨text, htext⟩ := cls.json _ hmem hpersisted
    obtain rfl : value = .json text := htext
    obtain ⟨kept, hkept⟩ := hcomplete (name, text) (mem_contents.mpr ⟨hmem, hpersisted⟩)
    exact hothers _ hkept rfl
  · rintro ⟨hmem, hpersisted⟩
    refine ⟨fun field hfield heq => ?_, hmem⟩
    rw [heq, h.persisted field hfield] at hpersisted
    cases hpersisted

theorem overlay_json {fields : JsonObject} (h : Writable cls.definition fields) :
    ∀ property ∈ cls.overlay fields, cls.definition.isPersisted property.1 →
      ∃ text, property.2 = .json text := by
  intro property hproperty hpersisted
  rcases (mem_overlay h).mp hproperty with ⟨field, -, rfl⟩ | ⟨-, hmem⟩
  · exact ⟨field.2, rfl⟩
  · exact cls.json property hmem hpersisted

theorem validate_overlay {fields : JsonObject} (h : Writable cls.definition fields) :
    validateActorState cls.definition (cls.overlay fields) = .ok () := by
  refine validateActorState_iff.mpr fun property hproperty => ?_
  rcases (mem_overlay h).mp hproperty with ⟨field, hfield, rfl⟩ | ⟨-, hmem⟩
  · exact ⟨h.declared field hfield, by simp⟩
  · exact validateActorState_iff.mp cls.valid property hmem

/-- The instance that a state is restored to is saved as that state exactly when the state has all
fields that the constructor gives. -/
theorem snapshot_overlay_iff {fields : JsonObject} (h : Writable cls.definition fields) :
    snapshotActorState cls.definition (cls.overlay fields) = .ok fields ↔ cls.Complete fields := by
  constructor
  · intro hsnapshot
    rw [snapshotActorState_ok (validate_overlay h) (overlay_json h)] at hsnapshot
    have hcontents := Except.ok.inj hsnapshot
    intro field hfield
    obtain ⟨hmem, hpersisted⟩ := mem_contents.mp hfield
    by_cases hkept : ∃ other ∈ fields, field.1 = other.1
    · obtain ⟨⟨name, text⟩, hother, rfl⟩ := hkept
      exact ⟨text, hother⟩
    · -- A field that the state lacks is kept from the constructor.
      push Not at hkept
      refine ⟨field.2, ?_⟩
      rw [← hcontents]
      exact mem_contents.mpr ⟨(mem_overlay h).mpr (.inr ⟨hkept, hmem⟩), hpersisted⟩
  · intro hcomplete
    rw [overlay_of_complete h hcomplete]
    exact snapshot_instanceWith h

/-! ## The runtime on such an instance -/

/-- The runtime has the actor's instance with the given fields in use. -/
structure Ready (cls : FieldClass) (actor : ActorKey) (runtime : ActorRuntime) (object : Nat)
    (fields : JsonObject) : Prop where
  fatal : runtime.fatal = none
  identity : ∀ resident ∈ runtime.identity, resident = actor
  current : runtime.current = some object
  found : runtime.objects[object]? = some (cls.instanceWith fields)

theorem Ready.properties {actor : ActorKey} {runtime : ActorRuntime} {object : Nat}
    {fields : JsonObject} (h : Ready cls actor runtime object fields) :
    runtime.properties object = cls.instanceWith fields := by
  rw [ActorRuntime.properties, List.getD_eq_getElem?_getD, h.found]
  rfl

/-- The fields of the last commit, or those that the constructor gives. -/
def Committed (cls : FieldClass) (committed : Option JsonObject) (fields : JsonObject) : Prop :=
  committed = some fields ∨ committed = none ∧ fields = cls.initial

/-- The first instance of a runtime, whatever fields the state lacks. -/
theorem createInstance_overlay (actor : ActorKey) {fields : JsonObject}
    (h : Writable cls.definition fields) :
    ∃ created, ActorRuntime.createInstance cls.definition (.ok cls.fresh) actor (.object fields)
        {} = .ok created ∧ created.properties 0 = cls.overlay fields := by
  have hsnapshot := snapshotActorState_ok (validate_overlay h) (overlay_json h)
  unfold ActorRuntime.createInstance
  cases hinterleaved : cls.definition.interleaved <;>
    simp [Value.null, ActorRuntime.persistedState, cls.valid, hydrate_eq h, hsnapshot,
      ActorRuntime.properties, bind, Except.bind, pure, Except.pure, Functor.map, Except.map]

/-- A new instance has the fields of the state. -/
theorem createInstance_eq {actor : ActorKey} {runtime : ActorRuntime} {fields : JsonObject}
    {committed : Option JsonObject} (h : Writable cls.definition fields)
    (hcomplete : cls.Complete fields) (hcommitted : Committed cls committed fields) :
    ActorRuntime.createInstance cls.definition (.ok cls.fresh) actor (stateValue committed)
        runtime =
      .ok { runtime with
        objects := runtime.objects ++ [cls.instanceWith fields]
        current := some runtime.objects.length
        identity := some actor
        lastCompletedState :=
          if cls.definition.interleaved then some fields else runtime.lastCompletedState } := by
  have hsnapshot := snapshot_instanceWith h
  unfold ActorRuntime.createInstance
  rcases hcommitted with rfl | ⟨rfl, rfl⟩
  · cases hinterleaved : cls.definition.interleaved <;>
      simp [stateValue, Value.null, ActorRuntime.persistedState, cls.valid, hydrate_eq h,
        overlay_of_complete h hcomplete, hsnapshot, bind, Except.bind, pure, Except.pure,
        Functor.map, Except.map]
  · rw [instanceWith_initial] at hsnapshot ⊢
    cases hinterleaved : cls.definition.interleaved <;>
      simp [stateValue, cls.valid, hsnapshot, bind, Except.bind, pure, Except.pure, Functor.map,
        Except.map]

theorem createInstance_ready (actor : ActorKey) {runtime : ActorRuntime} {fields : JsonObject}
    {committed : Option JsonObject} (h : Writable cls.definition fields)
    (hcomplete : cls.Complete fields) (hcommitted : Committed cls committed fields)
    (hfatal : runtime.fatal = none) :
    ∃ created, ActorRuntime.createInstance cls.definition (.ok cls.fresh) actor
        (stateValue committed) runtime = .ok created ∧
      Ready cls actor created runtime.objects.length fields := by
  refine ⟨_, createInstance_eq h hcomplete hcommitted, hfatal, ?_, rfl, ?_⟩
  · rintro _ ⟨⟩
    rfl
  · simp

/-- The session has the given fields: the instance, when there is one, and the last commit. -/
structure Holds (cls : FieldClass) (actor : ActorKey) (session : Session) (fields : JsonObject) :
    Prop where
  writable : Writable cls.definition fields
  complete : cls.Complete fields
  committed : Committed cls session.committed fields
  fatal : session.runtime.fatal = none
  identity : ∀ resident ∈ session.runtime.identity, resident = actor
  resident : ∀ object, session.runtime.current = some object →
    session.runtime.objects[object]? = some (cls.instanceWith fields)

theorem holds_init (actor : ActorKey) : Holds cls actor {} cls.initial where
  writable := writable_initial
  complete := complete_initial
  committed := .inr ⟨rfl, rfl⟩
  fatal := rfl
  identity := by simp
  resident := by simp

theorem Ready.holds {actor : ActorKey} {runtime : ActorRuntime} {object : Nat}
    {fields : JsonObject} {committed : Option JsonObject} {outputs : List (Value × JsonObject)}
    (h : Ready cls actor runtime object fields) (hwritable : Writable cls.definition fields)
    (hcomplete : cls.Complete fields) (hcommitted : Committed cls committed fields) :
    Holds cls actor { runtime, committed, outputs } fields where
  writable := hwritable
  complete := hcomplete
  committed := hcommitted
  fatal := h.fatal
  identity := h.identity
  resident other hother := by
    rw [h.current] at hother
    cases hother
    exact h.found

/-- The runtime finds the instance or creates it. -/
theorem prepare_ready {actor : ActorKey} {session : Session} {fields : JsonObject}
    (h : Holds cls actor session fields) (hactor : actor.actorName = cls.definition.actorName)
    (name : String) (args : List Value) :
    ∃ runtime object, session.runtime.prepare cls.definition (.ok cls.fresh)
        (envelope actor session.committed name args) = .ok (.inr (runtime, object)) ∧
      Ready cls actor runtime object fields := by
  unfold ActorRuntime.prepare
  dsimp only
  split
  · rename_i hname
    exact absurd hactor hname
  split
  · rename_i hother
    cases hresident : session.runtime.identity with
    | none => simp [hresident] at hother
    | some resident =>
        simp [hresident, h.identity resident hresident, envelope, WorkerCommand.actor] at hother
  cases hcurrent : session.runtime.current with
  | some object =>
      exact ⟨session.runtime, object, rfl, h.fatal, h.identity, hcurrent,
        h.resident object hcurrent⟩
  | none =>
      obtain ⟨created, hcreated, hready⟩ :=
        createInstance_ready actor h.writable h.complete h.committed h.fatal
      refine ⟨created, session.runtime.objects.length, ?_, hready⟩
      simp [envelope, WorkerCommand.actor, hcreated, bind, Except.bind, pure, Except.pure]

/-! ## Calls -/

/-- Whether a call with the given fields reaches the method. -/
def reaches (cls : FieldClass) (fields : JsonObject) (name : String) : Bool :=
  cls.definition.methods.contains name &&
    !ActorRuntime.hidesMethod (cls.instanceWith fields) name

/-- The result of a successful call and the fields that it leaves. -/
def ideal (cls : FieldClass) (fields : JsonObject) (name : String) (args : List Value) :
    Option (Value × JsonObject) :=
  if cls.reaches fields name then (cls.method name args fields).toOption else none

/-- A call is refused before the method, or the method runs on the fields. -/
theorem start_eq {actor : ActorKey} {session : Session} {fields : JsonObject}
    (h : Holds cls actor session fields) (hactor : actor.actorName = cls.definition.actorName)
    (name : String) (args : List Value) :
    ∃ runtime object, Ready cls actor runtime object fields ∧
      ((cls.reaches fields name = false ∧ ∃ code message,
        session.runtime.start cls.definition (.ok cls.fresh)
          (envelope actor session.committed name args) = (runtime, .inl (.failed code message))) ∨
      cls.reaches fields name = true ∧
        session.runtime.start cls.definition (.ok cls.fresh)
          (envelope actor session.committed name args) =
            (runtime, .inr { object, before := fields })) := by
  obtain ⟨runtime, object, hprepare, hready⟩ := prepare_ready h hactor name args
  refine ⟨runtime, object, hready, ?_⟩
  unfold ActorRuntime.start
  rw [h.fatal]
  simp only [hprepare, reaches]
  rw [← hready.properties]
  have hsnapshot : snapshotActorState cls.definition (runtime.properties object) = .ok fields := by
    rw [hready.properties]
    exact snapshot_instanceWith h.writable
  by_cases hmethod : name ∈ cls.definition.methods
  · by_cases hhidden : ActorRuntime.hidesMethod (runtime.properties object) name = true
    · left
      simp [envelope, hmethod, hhidden]
    · right
      simp [envelope, hmethod, hhidden, ActorRuntime.enter, hsnapshot]
  · left
    simp [envelope, hmethod]

/-- The method's fields are on the instance. -/
theorem Ready.write {actor : ActorKey} {runtime : ActorRuntime} {object : Nat}
    {fields after : JsonObject} (h : Ready cls actor runtime object fields)
    (hwritable : Writable cls.definition fields) :
    Ready cls actor
      { runtime with
        objects := runtime.objects.set object (cls.assign (runtime.properties object) after) }
      object after := by
  refine ⟨h.fatal, h.identity, h.current, ?_⟩
  obtain ⟨hlt, -⟩ := List.getElem?_eq_some_iff.mp h.found
  rw [h.properties, assign_instanceWith hwritable]
  simp [hlt]

/-- A method that returned is committed with the fields that it left. -/
theorem finish_returned {actor : ActorKey} {runtime : ActorRuntime} {object : Nat}
    (before : JsonObject) {after : JsonObject} (h : Ready cls actor runtime object after)
    (hafter : Writable cls.definition after) (invocation : ActorInvocation) (value : Value) :
    ∃ runtime' sequence effects, Ready cls actor runtime' object after ∧
      runtime.finish cls.definition (.ok cls.fresh) (.invoke invocation) { object, before }
        (.returned (.ok value) []) = (runtime', .invoked value (.object after) sequence effects) := by
  have hsnapshot : snapshotActorState cls.definition (runtime.properties object) = .ok after := by
    rw [h.properties]
    exact snapshot_instanceWith hafter
  cases hinterleaved : cls.definition.interleaved with
  | false =>
      refine ⟨runtime, none, stateUpdates cls.definition before after
        (ActorRuntime.exceptConnection (.invoke invocation)), h, ?_⟩
      simp [ActorRuntime.finish, ActorRuntime.complete, hsnapshot, ActorRuntime.completion,
        ActorRuntime.stateUpdates, ActorRuntime.completionOrder, hinterleaved, bind, Except.bind,
        pure, Except.pure]
  | true =>
      refine ⟨{ runtime with
        lastCompletedState := some after
        sequence := runtime.sequence + 1 }, some (runtime.sequence + 1),
        stateUpdates cls.definition (runtime.lastCompletedState.getD before) after
          (ActorRuntime.exceptConnection (.invoke invocation)),
        ⟨h.fatal, h.identity, h.current, h.found⟩, ?_⟩
      simp [ActorRuntime.finish, ActorRuntime.complete, hsnapshot, ActorRuntime.completion,
        ActorRuntime.stateUpdates, ActorRuntime.completionOrder, hinterleaved, bind, Except.bind,
        pure, Except.pure]

/-- A method that threw is rolled back to the fields before it. -/
theorem finish_threw {actor : ActorKey} {runtime : ActorRuntime} {object : Nat}
    {before after : JsonObject} (h : Ready cls actor runtime object after)
    (hbefore : Writable cls.definition before) (hcomplete : cls.Complete before)
    (hserial : cls.definition.interleaved = false) (invocation : ActorInvocation)
    (hinvocation : invocation.actor = actor) (message : Error) :
    ∃ runtime' object' code, Ready cls actor runtime' object' before ∧
      runtime.finish cls.definition (.ok cls.fresh) (.invoke invocation) { object, before }
        (.threw message) = (runtime', .failed code message) := by
  obtain ⟨created, hcreated, hready⟩ :=
    createInstance_ready actor hbefore hcomplete (.inl rfl) h.fatal
  refine ⟨created, _, ActorRuntime.failureCode (.invoke invocation), hready, ?_⟩
  simp only [stateValue] at hcreated
  simp [ActorRuntime.finish, ActorRuntime.complete, hserial, WorkerCommand.actor, hinvocation,
    hcreated]

/-- What a call does to a session. -/
theorem step_call {actor : ActorKey} {session : Session} {fields : JsonObject}
    (h : Holds cls actor session fields) (hactor : actor.actorName = cls.definition.actorName)
    (name : String) (args : List Value) :
    (cls.ideal fields name args = none ∧
      Holds cls actor (cls.step actor session (.call name args)) fields ∧
      (cls.step actor session (.call name args)).outputs = session.outputs) ∨
    ∃ value after, cls.ideal fields name args = some (value, after) ∧
      (cls.Complete after → Holds cls actor (cls.step actor session (.call name args)) after) ∧
      (cls.step actor session (.call name args)).outputs = (value, after) :: session.outputs := by
  obtain ⟨runtime, object, hready, ⟨hreaches, code, message, hstart⟩ | ⟨hreaches, hstart⟩⟩ :=
    start_eq h hactor name args
  · refine .inl ⟨by simp [ideal, hreaches], ?_, ?_⟩
    · simp only [step, hstart, settle]
      exact hready.holds h.writable h.complete h.committed
    · simp only [step, hstart, settle]
  · have hfields : contents cls.definition (runtime.properties object) = fields := by
      rw [hready.properties, contents_instanceWith h.writable]
    cases hmethod : cls.method name args fields with
    | ok returned =>
        obtain ⟨value, after⟩ := returned
        have hafter := cls.returns hmethod
        obtain ⟨runtime', sequence, effects, hready', hfinish⟩ :=
          finish_returned fields (hready.write h.writable) hafter
            { requestId := "r", actor, method := name, args } value
        have hstep : cls.step actor session (.call name args) =
            settle session (runtime', .invoked value (.object after) sequence effects) := by
          unfold step
          dsimp only
          rw [hstart]
          simp only [runMethod, hfields, hmethod]
          rw [← hfinish]
          rfl
        refine .inr ⟨value, after, by simp [ideal, hreaches, hmethod, Except.toOption], ?_, ?_⟩
        · intro hcomplete
          rw [hstep]
          exact hready'.holds hafter hcomplete (.inl rfl)
        · rw [hstep]
          rfl
    | error thrown =>
        obtain ⟨message, after⟩ := thrown
        obtain ⟨hafter, hserial⟩ := cls.throws hmethod
        obtain ⟨runtime', object', code, hready', hfinish⟩ :=
          finish_threw (hready.write h.writable) h.writable h.complete hserial
            { requestId := "r", actor, method := name, args } rfl message
        have hstep : cls.step actor session (.call name args) =
            settle session (runtime', .failed code message) := by
          unfold step
          dsimp only
          rw [hstart]
          simp only [runMethod, hfields, hmethod]
          rw [← hfinish]
          rfl
        refine .inl ⟨by simp [ideal, hreaches, hmethod, Except.toOption], ?_, ?_⟩
        · rw [hstep]
          exact hready'.holds h.writable h.complete h.committed
        · rw [hstep]
          rfl

/-! ## Runs with and without evictions -/

theorem Holds.evict {actor : ActorKey} {session : Session} {fields : JsonObject}
    (h : Holds cls actor session fields) : Holds cls actor (cls.step actor session .evict) fields where
  fatal := rfl
  identity := by simp [step]
  resident := by simp [step]
  writable := h.writable
  complete := h.complete
  committed := h.committed

theorem outputs_settle (session : Session) (ended : ActorRuntime × ExecutorReply) :
    session.outputs <:+ (settle session ended).outputs := by
  unfold settle
  split
  · exact List.suffix_cons _ _
  · exact List.suffix_rfl

theorem outputs_step (actor : ActorKey) (session : Session) (action : Action) :
    session.outputs <:+ (cls.step actor session action).outputs := by
  cases action with
  | evict => exact List.suffix_rfl
  | call name args =>
      unfold step
      dsimp only
      split
      · exact outputs_settle _ _
      · exact outputs_settle _ _

theorem outputs_run (actor : ActorKey) (session : Session) (actions : List Action) :
    session.outputs <:+ (cls.run actor session actions).outputs := by
  induction actions generalizing session with
  | nil => exact List.suffix_rfl
  | cons action actions ih => exact (outputs_step actor session action).trans (ih _)

/-- Two sessions on the same fields stay together: the one takes every action, the other the
successful calls of the first alone. -/
theorem outputs_successes {actor : ActorKey}
    (hactor : actor.actorName = cls.definition.actorName) (actions : List Action) :
    ∀ {session alone : Session} {fields : JsonObject}, Holds cls actor session fields →
      Holds cls actor alone fields → session.outputs = alone.outputs →
      (∀ output ∈ (cls.run actor session actions).outputs, cls.Complete output.2) →
      (cls.run actor session actions).outputs =
        (cls.run actor alone (cls.successes actor session actions)).outputs := by
  induction actions with
  | nil => exact fun _ _ houtputs _ => houtputs
  | cons action actions ih =>
      intro session alone fields hsession halone houtputs hcomplete
      change ∀ output ∈ (cls.run actor (cls.step actor session action) actions).outputs, _ at hcomplete
      change (cls.run actor (cls.step actor session action) actions).outputs = _
      cases action with
      | evict =>
          have hskip : cls.successes actor session (.evict :: actions) =
              cls.successes actor (cls.step actor session .evict) actions := by
            simp [successes, step]
          rw [hskip]
          exact ih hsession.evict halone houtputs hcomplete
      | call name args =>
          rcases step_call hsession hactor name args with
            ⟨-, hnext, hsame⟩ | ⟨value, after, hideal, hnext, hcons⟩
          · have hskip : cls.successes actor session (.call name args :: actions) =
                cls.successes actor (cls.step actor session (.call name args)) actions := by
              simp [successes, hsame]
            rw [hskip]
            exact ih hnext halone (hsame.trans houtputs) hcomplete
          · have hkeep : cls.successes actor session (.call name args :: actions) =
                .call name args ::
                  cls.successes actor (cls.step actor session (.call name args)) actions := by
              simp [successes, hcons]
            have hafter : cls.Complete after := by
              refine hcomplete (value, after) ((outputs_run _ _ _).subset ?_)
              rw [hcons]
              exact List.mem_cons_self
            rcases step_call halone hactor name args with
              ⟨hnone, -⟩ | ⟨value', after', hideal', hnext', hcons'⟩
            · rw [hideal] at hnone
              cases hnone
            · rw [hideal] at hideal'
              cases hideal'
              rw [hkeep]
              refine ih (hnext hafter) (hnext' hafter) ?_ hcomplete
              rw [hcons, hcons', houtputs]

/-- The fields of a counter. -/
def counterFields : Option String → JsonObject
  | some count => [("count", count)]
  | none => []

/-- A counter whose method {lit}`clear` deletes the field that its constructor sets to zero. -/
def counterMethod (name : String) (_ : List Value) (fields : JsonObject) :
    Except (Error × JsonObject) (Value × JsonObject) :=
  let count := (fields.find? fun field => field.1 == "count").map Prod.snd
  if name = "clear" then .ok (.null, counterFields none)
  else if name = "set" then .ok (.null, counterFields (some "1"))
  else if name = "fail" then .error ("failed", counterFields count)
  else .ok (.text (count.getD "null"), counterFields count)

def counterDefinition : ActorDefinition where
  actorName := "Counter"
  methods := ["clear", "set", "fail", "read"]
  fields := [{ name := "count", persisted := true }]

theorem writable_counterFields (count : Option String) :
    Writable counterDefinition (counterFields count) := by
  cases count with
  | none => exact ⟨List.Pairwise.nil, by simp [counterFields], by simp [counterFields]⟩
  | some count =>
      refine ⟨List.pairwise_singleton _ _, ?_, ?_⟩ <;>
        simp [counterFields, counterDefinition, ActorDefinition.isPersisted, ActorDefinition.declares]

def counter : FieldClass where
  definition := counterDefinition
  fresh := [("count", .json "0")]
  method := counterMethod
  ordered := List.pairwise_singleton _ _
  valid := rfl
  json := by simp
  returns := by
    intro name args fields value after h
    unfold counterMethod at h
    dsimp only at h
    split_ifs at h <;> cases h <;> exact writable_counterFields _
  throws := by
    intro name args fields message after h
    unfold counterMethod at h
    dsimp only at h
    split_ifs at h
    cases h
    exact ⟨writable_counterFields _, rfl⟩

def counterKey : ActorKey := { projectId := "p", actorName := "Counter", actorId := "a" }

end FieldClass

end Sdk
end DurableActors
