import DurableActors.Data.KeyOrder
import DurableActors.Sdk.Numbering

/-!
# What an instance persists

The persisted fields of an instance, how they are restored from a saved state, and
what the runtime's functions do to them in a class without reentrant methods.

Main results:

- Theorem {lit}`contents_hydrate`: an instance that is restored from a state which has all
  initialized fields persists exactly that state.
-/

namespace DurableActors
namespace Sdk

open KeyOrder

/-! ## The contents of an instance -/

/-- A field with a JSON value. -/
def jsonField : String × Property → Option (String × String)
  | (name, .json text) => some (name, text)
  | _ => none

/-- The persisted fields that have a JSON value. -/
def contents (definition : ActorDefinition) (properties : Properties) : JsonObject :=
  (properties.filter fun property => definition.isPersisted property.1).filterMap jsonField

theorem jsonField_eq_some {property : String × Property} {field : String × String} :
    jsonField property = some field ↔ property = (field.1, .json field.2) := by
  obtain ⟨name, value⟩ := property
  obtain ⟨name', text⟩ := field
  cases value <;> simp [jsonField]

theorem mem_contents {definition : ActorDefinition} {properties : Properties}
    {field : String × String} :
    field ∈ contents definition properties ↔
      (field.1, .json field.2) ∈ properties ∧ definition.isPersisted field.1 := by
  simp only [contents, List.mem_filterMap, List.mem_filter, jsonField_eq_some]
  constructor
  · rintro ⟨_, ⟨hmem, hpersisted⟩, rfl⟩
    exact ⟨hmem, hpersisted⟩
  · rintro ⟨hmem, hpersisted⟩
    exact ⟨_, ⟨hmem, hpersisted⟩, rfl⟩

theorem contents_ordered (definition : ActorDefinition) {properties : Properties}
    (h : KeyOrdered properties) : KeyOrdered (contents definition properties) := by
  refine (h.filter _).filterMap ?_
  intro property field hfield
  simp [jsonField_eq_some.mp hfield]

theorem cloneJsonObject_eq {label : String} {properties : Properties} {fields : JsonObject}
    (h : cloneJsonObject label properties = .ok fields) :
    fields = properties.filterMap jsonField ∧
      ∀ property ∈ properties, property.2 = .omitted ∨ ∃ text, property.2 = .json text := by
  induction properties generalizing fields with
  | nil =>
      cases h
      exact ⟨rfl, by simp⟩
  | cons property properties ih =>
      obtain ⟨name, value⟩ := property
      cases value with
      | json text =>
          simp only [cloneJsonObject, bind, Except.bind, pure, Except.pure] at h
          split at h
          · cases h
          · rename_i rest hrest
            cases h
            obtain ⟨rfl, hall⟩ := ih hrest
            exact ⟨rfl, List.forall_mem_cons.mpr ⟨.inr ⟨text, rfl⟩, hall⟩⟩
      | omitted =>
          obtain ⟨rfl, hall⟩ := ih h
          exact ⟨rfl, List.forall_mem_cons.mpr ⟨.inl rfl, hall⟩⟩
      | unserializable => cases h
      | accessor => cases h

/-- A snapshot has the contents of the instance. -/
theorem snapshotActorState_eq {definition : ActorDefinition} {properties : Properties}
    {fields : JsonObject} (h : snapshotActorState definition properties = .ok fields) :
    fields = contents definition properties ∧
      ∀ property ∈ properties, definition.isPersisted property.1 →
        property.2 = .omitted ∨ ∃ text, property.2 = .json text := by
  simp only [snapshotActorState, bind, Except.bind] at h
  split at h
  · cases h
  · obtain ⟨hfields, hall⟩ := cloneJsonObject_eq h
    exact ⟨hfields, fun property hmem hpersisted =>
      hall property (List.mem_filter.mpr ⟨hmem, hpersisted⟩)⟩

/-! ## Restoring a state -/

theorem defineProperty_mem {name text : String} {properties : Properties}
    (h : KeyOrdered properties) {property : String × Property} :
    property ∈ defineProperty name text properties ↔
      property = (name, .json text) ∨ property.1 ≠ name ∧ property ∈ properties := by
  induction properties with
  | nil => simp [defineProperty]
  | cons first rest ih =>
      obtain ⟨other, value⟩ := first
      have hrest : ∀ later ∈ rest, other < later.1 := fun later hlater => h.head_lt hlater
      simp only [defineProperty]
      split
      · rename_i heq
        subst heq
        simp only [List.mem_cons]
        constructor
        · rintro (hnew | hmem)
          · exact .inl hnew
          · exact .inr ⟨(hrest property hmem).ne', .inr hmem⟩
        · rintro (hnew | ⟨hne, hfirst | hmem⟩)
          · exact .inl hnew
          · exact absurd (congrArg Prod.fst hfirst) hne
          · exact .inr hmem
      · rename_i hne
        split
        · rename_i hlt
          simp only [List.mem_cons]
          constructor
          · rintro (hnew | hfirst | hmem)
            · exact .inl hnew
            · subst hfirst
              exact .inr ⟨hne, .inl rfl⟩
            · exact .inr ⟨(hlt.trans (hrest property hmem)).ne', .inr hmem⟩
          · rintro (hnew | ⟨-, hmem⟩)
            · exact .inl hnew
            · exact .inr hmem
        · simp only [List.mem_cons, ih h.tail]
          constructor
          · rintro (hfirst | hnew | ⟨hne', hmem⟩)
            · subst hfirst
              exact .inr ⟨hne, .inl rfl⟩
            · exact .inl hnew
            · exact .inr ⟨hne', .inr hmem⟩
          · rintro (hnew | ⟨hne', hfirst | hmem⟩)
            · exact .inr (.inl hnew)
            · exact .inl hfirst
            · exact .inr (.inr ⟨hne', hmem⟩)

theorem defineProperty_ordered {name text : String} {properties : Properties}
    (h : KeyOrdered properties) : KeyOrdered (defineProperty name text properties) := by
  induction properties with
  | nil => exact List.pairwise_singleton _ _
  | cons first rest ih =>
      obtain ⟨other, value⟩ := first
      have hrest : ∀ later ∈ rest, other < later.1 := fun later hlater => h.head_lt hlater
      simp only [defineProperty]
      split
      · rename_i heq
        subst heq
        exact List.pairwise_cons.mpr ⟨hrest, h.tail⟩
      · rename_i hne
        split
        · rename_i hlt
          refine List.pairwise_cons.mpr ⟨fun later hlater => ?_, h⟩
          rcases List.mem_cons.mp hlater with rfl | hmem
          · exact hlt
          · exact hlt.trans (hrest later hmem)
        · rename_i hle
          have hlt : other < name := lt_of_le_of_ne (not_lt.mp hle) hne
          refine List.pairwise_cons.mpr ⟨fun later hlater => ?_, ih h.tail⟩
          rcases (defineProperty_mem h.tail).mp hlater with rfl | ⟨-, hmem⟩
          · exact hlt
          · exact hrest later hmem

/-- Restored fields take the place of those that the instance had. -/
theorem foldl_defineProperty {fields : JsonObject} {properties : Properties}
    (hproperties : KeyOrdered properties) (hfields : KeyOrdered fields) :
    KeyOrdered (fields.foldl (fun properties field => defineProperty field.1 field.2 properties)
      properties) ∧
    ∀ property, property ∈ fields.foldl
        (fun properties field => defineProperty field.1 field.2 properties) properties ↔
      (∃ field ∈ fields, property = (field.1, .json field.2)) ∨
        (∀ field ∈ fields, property.1 ≠ field.1) ∧ property ∈ properties := by
  induction fields generalizing properties with
  | nil => simpa using hproperties
  | cons first rest ih =>
      have hdefined : KeyOrdered (defineProperty first.1 first.2 properties) :=
        defineProperty_ordered hproperties
      obtain ⟨hordered, hmem⟩ := ih hdefined hfields.tail
      refine ⟨hordered, fun property => ?_⟩
      rw [List.foldl_cons, hmem property, defineProperty_mem hproperties]
      constructor
      · rintro (⟨field, hfield, heq⟩ | ⟨hothers, heq | ⟨hne, hold⟩⟩)
        · exact .inl ⟨field, List.mem_cons_of_mem _ hfield, heq⟩
        · exact .inl ⟨first, List.mem_cons_self, heq⟩
        · exact .inr ⟨List.forall_mem_cons.mpr ⟨hne, hothers⟩, hold⟩
      · rintro (⟨field, hfield, heq⟩ | ⟨hothers, hold⟩)
        · rcases List.mem_cons.mp hfield with rfl | hrest
          · -- A later field has another name.
            refine .inr ⟨fun other hother => ?_, .inl heq⟩
            rw [heq]
            exact (hfields.head_lt hother).ne
          · exact .inl ⟨field, hrest, heq⟩
        · obtain ⟨hne, hrest⟩ := List.forall_mem_cons.mp hothers
          exact .inr ⟨hrest, .inr ⟨hne, hold⟩⟩

/-! ## Classes -/

/-- An actor class with what its constructor gives.  The initialized fields are the persisted ones
that have a JSON value in every new instance. -/
structure CustomerClass where
  definition : ActorDefinition
  initialized : List String
  constructs : Properties → Prop
  persisted : ∀ name ∈ initialized, definition.isPersisted name
  ordered : ∀ fresh, constructs fresh → KeyOrdered fresh
  initial : ∀ fresh, constructs fresh → ∀ name, name ∈ initialized ↔
    ∃ text, (name, text) ∈ contents definition fresh

namespace CustomerClass

variable (cls : CustomerClass)

/-- The properties of an instance: they are in key order and no initialized field was deleted. -/
structure Proper (properties : Properties) : Prop where
  ordered : KeyOrdered properties
  kept : ∀ name ∈ cls.initialized, ∃ value, (name, value) ∈ properties ∧ value ≠ .omitted

/-- A state that an instance of the class can save. -/
structure Saved (fields : JsonObject) : Prop where
  ordered : KeyOrdered fields
  persisted : ∀ field ∈ fields, cls.definition.isPersisted field.1
  initialized : ∀ name ∈ cls.initialized, ∃ text, (name, text) ∈ fields

/-- An instance persists the committed state, or what the constructor gave when there is none. -/
def Persists (committed : Option Value) (fields : JsonObject) : Prop :=
  match committed with
  | some state => state = .object fields
  | none => ∃ fresh, cls.constructs fresh ∧ fields = contents cls.definition fresh

/-- A committed state is one that an instance can save. -/
def Sound (committed : Option Value) : Prop :=
  ∀ state, committed = some state → ∃ fields, state = .object fields ∧ cls.Saved fields

variable {cls}

theorem proper_of_constructs {fresh : Properties} (h : cls.constructs fresh) : cls.Proper fresh where
  ordered := cls.ordered fresh h
  kept := by
    intro name hname
    obtain ⟨text, htext⟩ := (cls.initial fresh h name).mp hname
    exact ⟨.json text, (mem_contents.mp htext).1, by simp⟩

theorem saved_of_snapshot {properties : Properties} (h : cls.Proper properties)
    {fields : JsonObject} (hsnapshot : snapshotActorState cls.definition properties = .ok fields) :
    cls.Saved fields := by
  obtain ⟨rfl, hall⟩ := snapshotActorState_eq hsnapshot
  refine ⟨contents_ordered _ h.ordered, fun field hfield => (mem_contents.mp hfield).2, ?_⟩
  intro name hname
  obtain ⟨value, hmem, hne⟩ := h.kept name hname
  rcases hall _ hmem (cls.persisted name hname) with homitted | ⟨text, htext⟩
  · exact absurd homitted hne
  · refine ⟨text, mem_contents.mpr ⟨?_, cls.persisted name hname⟩⟩
    rw [← htext]
    exact hmem

/-- An instance that is restored from a saved state persists exactly that state. -/
theorem contents_hydrate {fresh restored : Properties} (hfresh : cls.constructs fresh)
    {fields : JsonObject} (hsaved : cls.Saved fields)
    (h : hydrateActorState cls.definition fresh fields = .ok restored) :
    cls.Proper restored ∧ contents cls.definition restored = fields := by
  have hfilter : (fields.filter fun field => cls.definition.isPersisted field.1) = fields :=
    List.filter_eq_self.mpr hsaved.persisted
  simp only [hydrateActorState, bind, Except.bind, pure, Except.pure, hfilter] at h
  split at h
  · cases h
  cases h
  obtain ⟨hordered, hmem⟩ := foldl_defineProperty (cls.ordered fresh hfresh) hsaved.ordered
  refine ⟨⟨hordered, fun name hname => ?_⟩, ?_⟩
  · obtain ⟨text, htext⟩ := hsaved.initialized name hname
    exact ⟨.json text, (hmem _).mpr (.inl ⟨_, htext, rfl⟩), by simp⟩
  · refine (contents_ordered _ hordered).ext hsaved.ordered fun field => ?_
    rw [mem_contents, hmem]
    constructor
    · rintro ⟨⟨other, hother, heq⟩ | ⟨hothers, hold⟩, hpersisted⟩
      · obtain ⟨hname, htext⟩ := Prod.mk.inj heq
        obtain rfl : field = other := Prod.ext hname (Property.json.inj htext)
        exact hother
      · -- A field of the new instance is an initialized one, so the state has it.
        have hinitial : field.1 ∈ cls.initialized :=
          (cls.initial fresh hfresh field.1).mpr ⟨field.2, mem_contents.mpr ⟨hold, hpersisted⟩⟩
        obtain ⟨text, htext⟩ := hsaved.initialized field.1 hinitial
        exact absurd rfl (hothers (field.1, text) htext)
    · intro hfield
      exact ⟨.inl ⟨field, hfield, rfl⟩, hsaved.persisted field hfield⟩

end CustomerClass

/-! ## The runtime of a class without reentrant methods -/

/-- The state that a reply reports. -/
def replyState : ExecutorReply → Option Value
  | .invoked _ state _ _ => some state
  | .websocketHandled state _ _ => some state
  | _ => none

namespace ActorRuntime

variable {cls : CustomerClass} {runtime : ActorRuntime} {fresh : Except Error Properties}

/-- The instances are proper ones, and the one in use is one of them. -/
structure Healthy (cls : CustomerClass) (runtime : ActorRuntime) : Prop where
  proper : ∀ properties ∈ runtime.objects, cls.Proper properties
  current : ∀ object, runtime.current = some object → object < runtime.objects.length

/-- The instance in use persists these fields, when there is one. -/
def Shows (cls : CustomerClass) (runtime : ActorRuntime) (persists : JsonObject → Prop) : Prop :=
  ∀ object, runtime.current = some object →
    persists (contents cls.definition (runtime.properties object))

theorem Healthy.properties (h : Healthy cls runtime) {object : Nat}
    (hobject : runtime.current = some object) : cls.Proper (runtime.properties object) := by
  have hlt := h.current object hobject
  rw [ActorRuntime.properties, List.getD_eq_getElem?_getD, List.getElem?_eq_getElem hlt]
  exact h.proper _ (List.getElem_mem hlt)

/-- A new instance persists the state that it is created with. -/
theorem createInstance_shows (hserial : cls.definition.interleaved = false)
    (hfresh : ∀ properties, fresh = .ok properties → cls.constructs properties)
    (h : Healthy cls runtime) {committed : Option Value} (hsound : cls.Sound committed)
    {actor : ActorKey} {created : ActorRuntime}
    (hcreated : createInstance cls.definition fresh actor (committed.getD .null) runtime =
      .ok created) :
    Healthy cls created ∧ Shows cls created (cls.Persists committed) ∧
      created.current = some runtime.objects.length ∧ created.fatal = runtime.fatal := by
  -- What the constructor gives, with the saved fields when there are some.
  have hinstance : ∃ restored, cls.Proper restored ∧
      cls.Persists committed (contents cls.definition restored) ∧
      created = { runtime with
        objects := runtime.objects ++ [restored]
        current := some runtime.objects.length
        identity := some actor } := by
    unfold createInstance at hcreated
    cases hfresh' : fresh with
    | error error => simp [hfresh', bind, Except.bind] at hcreated
    | ok properties =>
        have hconstructs := hfresh properties hfresh'
        simp only [hfresh', bind, Except.bind, pure, Except.pure, hserial] at hcreated
        split at hcreated
        · cases hcreated
        · cases committed with
          | none =>
              simp only [Option.getD_none, if_true] at hcreated
              cases hcreated
              exact ⟨properties, cls.proper_of_constructs hconstructs,
                ⟨properties, hconstructs, rfl⟩, rfl⟩
          | some state =>
              obtain ⟨fields, rfl, hsaved⟩ := hsound state rfl
              have hne : Value.object fields ≠ .null := by simp [Value.null]
              simp only [Option.getD_some, persistedState, if_neg hne] at hcreated
              cases hrestored : hydrateActorState cls.definition properties fields with
              | error error => simp [hrestored] at hcreated
              | ok restored =>
                  simp only [hrestored] at hcreated
                  cases hcreated
                  obtain ⟨hproper, hcontents⟩ := cls.contents_hydrate hconstructs hsaved hrestored
                  exact ⟨restored, hproper, by rw [hcontents]; rfl, rfl⟩
  obtain ⟨restored, hproper, hpersists, rfl⟩ := hinstance
  refine ⟨⟨?_, ?_⟩, ?_, rfl, rfl⟩
  · exact List.forall_mem_append.mpr ⟨h.proper, by simpa using hproper⟩
  · rintro _ ⟨⟩
    simp
  · rintro _ ⟨⟩
    simpa [ActorRuntime.properties] using hpersists

/-- Without an instance nothing is shown. -/
theorem shows_of_none (h : runtime.current = none) (persists : JsonObject → Prop) :
    Shows cls runtime persists := by
  intro object hobject
  rw [h] at hobject
  cases hobject

/-- The runtime finds its instance, or creates one with the committed state. -/
theorem prepare_shows (hserial : cls.definition.interleaved = false)
    (hfresh : ∀ properties, fresh = .ok properties → cls.constructs properties)
    (h : Healthy cls runtime) {committed : Option Value} (hsound : cls.Sound committed)
    (hshows : Shows cls runtime (cls.Persists committed)) {envelope : CommandEnvelope}
    (hstate : envelope.residentOnly = false → envelope.state = some (committed.getD .null))
    {prepared : ActorRuntime} {object : Nat}
    (hprepared : runtime.prepare cls.definition fresh envelope = .ok (.inr (prepared, object))) :
    Healthy cls prepared ∧ Shows cls prepared (cls.Persists committed) ∧
      prepared.current = some object ∧ prepared.fatal = runtime.fatal := by
  unfold prepare at hprepared
  dsimp only at hprepared
  split at hprepared
  · cases hprepared
  split at hprepared
  · cases hprepared
  split at hprepared
  · rename_i current hcurrent
    cases hprepared
    exact ⟨h, hshows, hcurrent, rfl⟩
  · split at hprepared
    · cases hprepared
    · rename_i hresident
      rw [hstate (by simpa using hresident)] at hprepared
      dsimp only at hprepared
      cases hcreated : createInstance cls.definition fresh envelope.command.actor
          (committed.getD .null) runtime with
      | error error => simp [hcreated, bind, Except.bind] at hprepared
      | ok created =>
          simp only [hcreated, bind, Except.bind, pure, Except.pure] at hprepared
          cases hprepared
          exact createInstance_shows hserial hfresh h hsound hcreated

/-- The runtime asks for the state only when a command is for a resident instance. -/
theorem prepare_reply_eq {definition : ActorDefinition} {envelope : CommandEnvelope}
    {reply : ExecutorReply} (h : runtime.prepare definition fresh envelope = .ok (.inl reply)) :
    replyState reply = none ∧ reply.sequence = none ∧
      (reply = .stateRequired → envelope.residentOnly = true) := by
  unfold prepare at h
  dsimp only at h
  split at h
  · cases h
    exact ⟨rfl, rfl, by simp⟩
  split at h
  · cases h
    exact ⟨rfl, rfl, by simp⟩
  split at h
  · cases h
  · split at h
    · rename_i hresident
      cases h
      exact ⟨rfl, rfl, fun _ => hresident⟩
    · split at h
      · cases h
        exact ⟨rfl, rfl, by simp⟩
      · simp only [bind, Except.bind, pure, Except.pure] at h
        split at h <;> cases h

theorem enter_required {definition : ActorDefinition} (object : Nat) :
    (runtime.enter definition object).2 ≠ .inl .stateRequired := by
  unfold enter
  split
  · nofun
  · simp [failWith, invalidState]

theorem start_required {definition : ActorDefinition} {envelope : CommandEnvelope}
    (h : (runtime.start definition fresh envelope).2 = .inl .stateRequired) :
    envelope.residentOnly = true := by
  unfold start at h
  split at h
  · cases h
  · split at h
    · cases h
    · rename_i reply hprepared
      cases h
      exact (prepare_reply_eq hprepared).2.2 rfl
    · repeat' split at h
      all_goals first | exact absurd h (enter_required _) | cases h

theorem finish_required {definition : ActorDefinition} (command : WorkerCommand)
    (invocation : Invocation) (outcome : Outcome) :
    (runtime.finish definition fresh command invocation outcome).2 ≠ .stateRequired := by
  cases hcomplete : runtime.complete definition command invocation outcome with
  | error message =>
      simp only [finish, hcomplete]
      repeat' split
      all_goals simp [failWith, invalidState]
  | ok completed =>
      obtain ⟨state, result, effects, -, rfl⟩ := complete_eq_ok hcomplete
      simp only [finish, hcomplete, completion]
      split <;> simp

theorem Healthy.failWith (h : Healthy cls runtime) (error : Error) (persists : JsonObject → Prop) :
    Healthy cls (runtime.failWith cls.definition error).1 ∧
      Shows cls (runtime.failWith cls.definition error).1 persists :=
  ⟨⟨h.proper, nofun⟩, shows_of_none rfl persists⟩

/-- What holds after a command was started: the instance persists the committed state, and so did
the state before a method that now runs. -/
structure Started (cls : CustomerClass) (committed : Option Value) (envelope : CommandEnvelope)
    (result : ActorRuntime × (ExecutorReply ⊕ Invocation)) : Prop where
  healthy : Healthy cls result.1
  shows : Shows cls result.1 (cls.Persists committed)
  reply : ∀ reply, result.2 = .inl reply → replyState reply = none ∧ reply.sequence = none ∧
    (reply = .stateRequired → envelope.residentOnly = true)
  running : ∀ invocation, result.2 = .inr invocation → result.1.current = some invocation.object ∧
    cls.Persists committed invocation.before ∧ cls.Saved invocation.before

theorem started_reply {committed : Option Value} {envelope : CommandEnvelope}
    (h : Healthy cls runtime) (hshows : Shows cls runtime (cls.Persists committed))
    {reply : ExecutorReply} (hreply : replyState reply = none ∧ reply.sequence = none ∧
      (reply = .stateRequired → envelope.residentOnly = true)) :
    Started cls committed envelope (runtime, .inl reply) := by
  refine ⟨h, hshows, ?_, nofun⟩
  rintro _ ⟨⟩
  exact hreply

theorem started_failWith {committed : Option Value} {envelope : CommandEnvelope}
    (h : Healthy cls runtime) (error : Error) :
    Started cls committed envelope ((runtime.failWith cls.definition error).1,
      .inl (runtime.failWith cls.definition error).2) :=
  have hfailed := h.failWith error (cls.Persists committed)
  started_reply hfailed.1 hfailed.2 ⟨rfl, rfl, nofun⟩

theorem enter_started {committed : Option Value} {envelope : CommandEnvelope}
    (h : Healthy cls runtime) (hshows : Shows cls runtime (cls.Persists committed)) {object : Nat}
    (hobject : runtime.current = some object) :
    Started cls committed envelope (runtime.enter cls.definition object) := by
  unfold enter
  split
  · rename_i before hsnapshot
    refine ⟨h, hshows, nofun, ?_⟩
    rintro _ ⟨⟩
    obtain ⟨hbefore, -⟩ := snapshotActorState_eq hsnapshot
    refine ⟨hobject, ?_, cls.saved_of_snapshot (h.properties hobject) hsnapshot⟩
    rw [hbefore]
    exact hshows object hobject
  · exact started_failWith h _

/-- A command that is started runs on the committed state. -/
theorem start_started (hserial : cls.definition.interleaved = false)
    (hfresh : ∀ properties, fresh = .ok properties → cls.constructs properties)
    (h : Healthy cls runtime) {committed : Option Value} (hsound : cls.Sound committed)
    (hshows : Shows cls runtime (cls.Persists committed)) {envelope : CommandEnvelope}
    (hstate : envelope.residentOnly = false → envelope.state = some (committed.getD .null)) :
    Started cls committed envelope (runtime.start cls.definition fresh envelope) := by
  unfold start
  split
  · exact started_reply h hshows ⟨rfl, rfl, nofun⟩
  · split
    · exact started_failWith h _
    · rename_i reply hprepared
      exact started_reply h hshows (prepare_reply_eq hprepared)
    · rename_i prepared object hprepared
      obtain ⟨hhealthy, hshows', hobject, -⟩ :=
        prepare_shows hserial hfresh h hsound hshows hstate hprepared
      split
      · exact started_reply hhealthy hshows' ⟨rfl, rfl, nofun⟩
      · split
        · exact started_reply hhealthy hshows' ⟨rfl, rfl, nofun⟩
        · split
          · exact started_reply hhealthy hshows' ⟨rfl, rfl, nofun⟩
          · exact enter_started hhealthy hshows' hobject
      · exact enter_started hhealthy hshows' hobject

/-- What holds after a method ended: the instance persists the state that the reply reports, or the
one before the method. -/
structure Finished (cls : CustomerClass) (before : JsonObject)
    (result : ActorRuntime × ExecutorReply) : Prop where
  healthy : Healthy cls result.1
  sequence : result.2.sequence = none
  required : result.2 ≠ .stateRequired
  failed : replyState result.2 = none → Shows cls result.1 (· = before)
  completed : ∀ state, replyState result.2 = some state →
    ∃ fields, state = .object fields ∧ cls.Saved fields ∧ Shows cls result.1 (· = fields)

theorem finish_finished (hserial : cls.definition.interleaved = false)
    (hfresh : ∀ properties, fresh = .ok properties → cls.constructs properties)
    (h : Healthy cls runtime) {command : WorkerCommand} {invocation : Invocation}
    (hobject : runtime.current = some invocation.object) (hsaved : cls.Saved invocation.before)
    (outcome : Outcome) :
    Finished cls invocation.before
      (runtime.finish cls.definition fresh command invocation outcome) := by
  unfold finish
  cases hcomplete : runtime.complete cls.definition command invocation outcome with
  | ok completed =>
      obtain ⟨state, result, effects, hsnapshot, rfl⟩ := complete_eq_ok hcomplete
      obtain ⟨hstate, -⟩ := snapshotActorState_eq hsnapshot
      have hsaved' := cls.saved_of_snapshot (h.properties hobject) hsnapshot
      have hshows : Shows cls runtime (· = state) := by
        intro object hcurrent
        rw [hobject] at hcurrent
        cases hcurrent
        exact hstate.symm
      simp only [completion, stateUpdates, completionOrder, hserial, Bool.false_eq_true, if_false]
      split
      all_goals
        refine ⟨h, rfl, by simp, by simp [replyState], ?_⟩
        rintro _ ⟨⟩
        exact ⟨state, rfl, hsaved', hshows⟩
  | error message =>
      dsimp only
      rw [if_neg (by simp [hserial])]
      split
      · rename_i created hcreated
        have hsound : cls.Sound (some (.object invocation.before)) := by
          rintro _ ⟨⟩
          exact ⟨_, rfl, hsaved⟩
        obtain ⟨hhealthy, hshows, -, -⟩ := createInstance_shows hserial hfresh h hsound hcreated
        refine ⟨hhealthy, rfl, by simp, fun _ object hcurrent => ?_, by simp [replyState]⟩
        exact (Value.object.inj (hshows object hcurrent)).symm
      · rename_i error hcreated
        obtain ⟨hhealthy, hshows⟩ := h.failWith error (· = invocation.before)
        exact ⟨hhealthy, rfl, by simp [failWith, invalidState], fun _ => hshows,
          by simp [failWith, invalidState, replyState]⟩

end ActorRuntime

end Sdk
end DurableActors
