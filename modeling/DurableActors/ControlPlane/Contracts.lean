import DurableActors.Data.Json
import DurableActors.Traces.Acceptance

/-!
# Public contracts and their schemas

A public contract carries schemas, from which types are generated.  The control plane
({lit}`control_plane/contracts.rs`) and the compiler ({lit}`validate-public-contract.ts`) walk each
schema through its keywords and refuse what would override the resolution of types.  References are
only looked up: they may point to any value below the definitions, also to one that the walk does
not enter.

Main results:

- Theorems {lit}`validateSchemaNode_eq_ok` and {lit}`visit_eq_ok`: what the walks have checked.
- Theorem {lit}`contract_cannot_override_types`: nothing that is reached overrides the resolution of
  types exactly if references lead to what the walk has visited.
- Theorem {lit}`contract_overrides_types`: a contract that both sides accept, with a reference into
  a default value that overrides a type.
-/

namespace DurableActors
namespace Contracts

open Traces (ensure bind_eq_ok ensure_eq_ok)

variable {ν : Type}

/-! ## Values and pointers -/

/-- A field of an object. -/
def get (name : String) : Json ν → Option (Json ν)
  | .object fields => fields.lookup name
  | _ => none

/-- An item of an array by the decimal text of its index. -/
def itemAt (items : List (Json ν)) (token : String) : Option (Json ν) :=
  (items.zipIdx.find? fun item => toString item.2 == token).map Prod.fst

/-- One step of a pointer. -/
def stepInto (value : Json ν) (token : String) : Option (Json ν) :=
  match value with
  | .object fields => fields.lookup token
  | .array items => itemAt items token
  | _ => none

/-- The value that a pointer leads to. -/
def follow (value : Json ν) : List String → Option (Json ν)
  | [] => some value
  | token :: tokens => (stepInto value token).bind fun value => follow value tokens

/-- Replace two characters by one, from left to right. -/
def replacePair (first second result : Char) : List Char → List Char
  | [] => []
  | [c] => [c]
  | c :: d :: rest =>
      if c = first ∧ d = second then result :: replacePair first second result rest
      else c :: replacePair first second result (d :: rest)

/-- {lit}`~1` stands for a slash and {lit}`~0` for a tilde. -/
def unescape (token : List Char) : String :=
  String.ofList (replacePair '~' '0' '~' (replacePair '~' '1' '/' token))

/-- The start of a local reference. -/
def localStart : List Char := "#/definitions/".toList

/-- The tokens of a local reference, after {lit}`#/`. -/
def tokensOf (reference : String) : List String :=
  ((reference.toList.drop 2).splitOn '/').map unescape

/-- Whether a value can be a schema. -/
def isSchema : Json ν → Bool
  | .object _ => true
  | .boolean _ => true
  | _ => false

/-- {lit}`validate_reference`, and {lit}`reference` of the compiler. -/
def validateReference (root : Json ν) (reference : String) : Except Error (Json ν) := do
  ensure (localStart <+: reference.toList) "contract type references must be local definitions"
  match (follow root (tokensOf reference)).filter isSchema with
  | some target => return target
  | none => throw ("contract type reference is missing: " ++ reference)

/-! ## The walk of the control plane -/

/-- What a schema must not contain. -/
def forbidden : List String := ["$id", "id", "tsType"]

/-- The keywords whose value is an object of schemas. -/
def namedKeywords : List String := ["definitions", "properties", "patternProperties"]

/-- The keywords whose value is a schema or an array of schemas. -/
def keywords : List String :=
  ["items", "additionalItems", "additionalProperties", "contains", "propertyNames", "not", "if",
    "then", "else", "allOf", "anyOf", "oneOf"]

section Walk

variable (check : Json ν → Except Error Unit) (fields : List (String × Json ν))

/-- The schemas below a keyword whose value is an object of schemas. -/
def validateNamed (key : String) : Except Error Unit :=
  match fields.lookup key with
  | none => .ok ()
  | some (.object children) => children.forM fun child => check child.2
  | some _ => .error "schema properties must be an object"

/-- The schema or schemas of a keyword; in both languages. -/
def visitKeyword (key : String) : Except Error Unit :=
  match fields.lookup key with
  | none => .ok ()
  | some (.array children) => children.forM check
  | some child => check child

/-- A dependency is a schema or an array of names; in both languages. -/
def visitDependency (child : Json ν) : Except Error Unit :=
  match child with
  | .array _ => .ok ()
  | child => check child

/-- The schemas of dependencies. -/
def validateDependencies : Except Error Unit :=
  match fields.lookup "dependencies" with
  | none => .ok ()
  | some (.object children) => children.forM fun child => visitDependency check child.2
  | some _ => .error "schema dependencies must be an object"

end Walk

/-- The check that nothing overrides the resolution of types; in both languages. -/
def ensureResolvable (fields : List (String × Json ν)) : Except Error Unit :=
  ensure (∀ name ∈ forbidden, (fields.lookup name).isNone)
    "contract schemas cannot override type resolution"

/-- The reference of a schema. -/
def validateRef (root : Json ν) (fields : List (String × Json ν)) : Except Error Unit :=
  match fields.lookup "$ref" with
  | none => .ok ()
  | some (.string reference) => discard (validateReference root reference)
  | some _ => .error "schema $ref must be a string"

/-- {lit}`validate_schema_node`.  The fuel bounds the depth of the schema. -/
def validateSchemaNode (root : Json ν) : Nat → Json ν → Except Error Unit
  | 0, _ => .error "contract schema is nested too deeply"
  | _ + 1, .boolean _ => .ok ()
  | fuel + 1, .object fields => do
      ensureResolvable fields
      validateRef root fields
      namedKeywords.forM (validateNamed (validateSchemaNode root fuel) fields)
      keywords.forM (visitKeyword (validateSchemaNode root fuel) fields)
      validateDependencies (validateSchemaNode root fuel) fields
  | _ + 1, _ => .error "contract schema must be an object or boolean"

mutual
/-- How deeply a value is nested. -/
def depth : Json ν → Nat
  | .array items => depthItems items + 1
  | .object fields => depthFields fields + 1
  | _ => 0

def depthItems : List (Json ν) → Nat
  | [] => 0
  | item :: items => max (depth item) (depthItems items)

def depthFields : List (String × Json ν) → Nat
  | [] => 0
  | (_, value) :: fields => max (depth value) (depthFields fields)
end

/-- {lit}`validate_schema`. -/
def validateSchema (schema : Json ν) : Except Error Unit := do
  ensure ((get "definitions" schema).any fun
    | .object _ => true
    | _ => false) "contract schema must contain definitions"
  validateSchemaNode schema (depth schema + 1) schema

/-! ## The walk of the compiler -/

section Visit

variable [Zero ν] [DecidableEq ν]

/-- Whether a value counts as true. -/
def truthy : Json ν → Bool
  | .null => false
  | .boolean value => value
  | .number value => value ≠ 0
  | .string text => !text.isEmpty
  | _ => true

/-- {lit}`Object.values` of a value, or of an empty object. -/
def objectValues : Option (Json ν) → List (Json ν)
  | some (.object fields) => fields.map Prod.snd
  | some (.array items) => items
  | some (.string text) => text.toList.map fun c => .string c.toString
  | _ => []

/-- The reference of a schema; an empty one is passed over. -/
def visitRef (root : Json ν) (fields : List (String × Json ν)) : Except Error Unit :=
  match fields.lookup "$ref" with
  | none => .ok ()
  | some reference =>
      if truthy reference then
        match reference with
        | .string reference => discard (validateReference root reference)
        | _ => .error "ref.startsWith is not a function"
      else .ok ()

/-- {lit}`visit`.  Values that are neither objects nor null have none of the fields. -/
def visit (root : Json ν) : Nat → Json ν → Except Error Unit
  | 0, _ => .error "Maximum call stack size exceeded"
  | _ + 1, .boolean _ => .ok ()
  | _ + 1, .null => .error "Cannot convert undefined or null to object"
  | fuel + 1, .object fields => do
      ensureResolvable fields
      visitRef root fields
      namedKeywords.forM fun key => (objectValues (fields.lookup key)).forM (visit root fuel)
      keywords.forM (visitKeyword (visit root fuel) fields)
      (objectValues (fields.lookup "dependencies")).forM (visitDependency (visit root fuel))
  | _ + 1, _ => .ok ()

/-- {lit}`parseSchema` below {lit}`documentSchema`; the validation against the draft-07 schema is a
parameter. -/
def parseSchema (ajv : Json ν → Bool) (schema : Json ν) : Except Error Unit := do
  ensure ((get "definitions" schema).any fun
    | .object _ => true
    | _ => false) "Invalid input: expected record"
  ensure (ajv schema) "invalid contract schema"
  visit schema (depth schema + 1) schema

end Visit

/-! ## The depth suffices -/

theorem depth_le_of_mem_items {items : List (Json ν)} {item : Json ν} (h : item ∈ items) :
    depth item ≤ depthItems items := by
  induction items with
  | nil => cases h
  | cons first items ih =>
    rw [depthItems]
    rcases List.mem_cons.mp h with rfl | hmem
    · exact le_max_left _ _
    · exact (ih hmem).trans (le_max_right _ _)

theorem depth_le_of_mem_fields {fields : List (String × Json ν)} {field : String × Json ν}
    (h : field ∈ fields) : depth field.2 ≤ depthFields fields := by
  induction fields with
  | nil => cases h
  | cons first fields ih =>
    obtain ⟨name, value⟩ := first
    rw [depthFields]
    rcases List.mem_cons.mp h with rfl | hmem
    · exact le_max_left _ _
    · exact (ih hmem).trans (le_max_right _ _)

theorem depth_le_of_lookup {fields : List (String × Json ν)} {name : String} {value : Json ν}
    (h : fields.lookup name = some value) : depth value ≤ depthFields fields := by
  induction fields with
  | nil => cases h
  | cons first fields ih =>
    obtain ⟨key, found⟩ := first
    rw [depthFields]
    rw [List.lookup_cons] at h
    split at h
    · cases h
      exact le_max_left _ _
    · exact (ih h).trans (le_max_right _ _)

theorem forM_congr {α : Type} {items : List α} {check check' : α → Except Error Unit}
    (h : ∀ item ∈ items, check item = check' item) : items.forM check = items.forM check' := by
  induction items with
  | nil => rfl
  | cons item items ih =>
    change (do check item; items.forM check) = (do check' item; items.forM check')
    rw [h item List.mem_cons_self, ih fun item hitem => h item (List.mem_cons_of_mem _ hitem)]

section Congr

variable {check check' : Json ν → Except Error Unit} {fields : List (String × Json ν)}
  (h : ∀ value, depth value ≤ depthFields fields → check value = check' value)
include h

theorem validateNamed_congr (key : String) :
    validateNamed check fields key = validateNamed check' fields key := by
  unfold validateNamed
  split
  · rfl
  · rename_i children hlookup
    have hdepth := depth_le_of_lookup hlookup
    rw [depth] at hdepth
    refine forM_congr fun child hchild => h child.2 ?_
    have hle := depth_le_of_mem_fields hchild
    omega
  · rfl

theorem visitKeyword_congr (key : String) :
    visitKeyword check fields key = visitKeyword check' fields key := by
  unfold visitKeyword
  split
  · rfl
  · rename_i children hlookup
    have hdepth := depth_le_of_lookup hlookup
    rw [depth] at hdepth
    refine forM_congr fun child hchild => h child ?_
    have hle := depth_le_of_mem_items hchild
    omega
  · rename_i child _ hlookup
    exact h child (depth_le_of_lookup hlookup)

theorem visitDependency_congr {child : Json ν} (hchild : depth child ≤ depthFields fields) :
    visitDependency check child = visitDependency check' child := by
  unfold visitDependency
  split
  · rfl
  · exact h child hchild

theorem validateDependencies_congr :
    validateDependencies check fields = validateDependencies check' fields := by
  unfold validateDependencies
  split
  · rfl
  · rename_i children hlookup
    have hdepth := depth_le_of_lookup hlookup
    rw [depth] at hdepth
    refine forM_congr fun child hchild => visitDependency_congr h ?_
    have hle := depth_le_of_mem_fields hchild
    omega
  · rfl

end Congr

/-- The control plane's walk does not run out of fuel. -/
theorem validateSchemaNode_fuel (root : Json ν) {node : Json ν} {fuel fuel' : Nat}
    (h : depth node < fuel) (h' : depth node < fuel') :
    validateSchemaNode root fuel node = validateSchemaNode root fuel' node := by
  induction fuel generalizing node fuel' with
  | zero => exact absurd h (Nat.not_lt_zero _)
  | succ fuel ih =>
    obtain _ | fuel' := fuel'
    · exact absurd h' (Nat.not_lt_zero _)
    cases node with
    | object fields =>
      rw [depth] at h h'
      have hcheck (value : Json ν) (hvalue : depth value ≤ depthFields fields) :
          validateSchemaNode root fuel value = validateSchemaNode root fuel' value :=
        ih (by omega) (by omega)
      simp only [validateSchemaNode, validateDependencies_congr hcheck,
        forM_congr fun key _ => validateNamed_congr hcheck key,
        forM_congr fun key _ => visitKeyword_congr hcheck key]
    | _ => rfl

/-- Values of a field are less deep than the object. -/
theorem depth_le_of_mem_objectValues {fields : List (String × Json ν)} {name : String}
    {value : Json ν} (h : value ∈ objectValues (fields.lookup name)) :
    depth value ≤ depthFields fields := by
  unfold objectValues at h
  split at h
  · rename_i children hlookup
    obtain ⟨child, hchild, rfl⟩ := List.mem_map.mp h
    have hdepth := depth_le_of_lookup hlookup
    have hle := depth_le_of_mem_fields hchild
    rw [depth] at hdepth
    omega
  · rename_i items hlookup
    have hdepth := depth_le_of_lookup hlookup
    have hle := depth_le_of_mem_items h
    rw [depth] at hdepth
    omega
  · obtain ⟨c, -, rfl⟩ := List.mem_map.mp h
    exact Nat.zero_le _
  · cases h

/-- The compiler's walk does not run out of fuel. -/
theorem visit_fuel [Zero ν] [DecidableEq ν] (root : Json ν) {node : Json ν} {fuel fuel' : Nat}
    (h : depth node < fuel) (h' : depth node < fuel') :
    visit root fuel node = visit root fuel' node := by
  induction fuel generalizing node fuel' with
  | zero => exact absurd h (Nat.not_lt_zero _)
  | succ fuel ih =>
    obtain _ | fuel' := fuel'
    · exact absurd h' (Nat.not_lt_zero _)
    cases node with
    | object fields =>
      rw [depth] at h h'
      have hcheck (value : Json ν) (hvalue : depth value ≤ depthFields fields) :
          visit root fuel value = visit root fuel' value :=
        ih (by omega) (by omega)
      have hnamed (key : String) : (objectValues (fields.lookup key)).forM (visit root fuel) =
          (objectValues (fields.lookup key)).forM (visit root fuel') :=
        forM_congr fun value hvalue => hcheck value (depth_le_of_mem_objectValues hvalue)
      have hdependencies :
          (objectValues (fields.lookup "dependencies")).forM (visitDependency (visit root fuel)) =
          (objectValues (fields.lookup "dependencies")).forM
            (visitDependency (visit root fuel')) :=
        forM_congr fun value hvalue =>
          visitDependency_congr hcheck (depth_le_of_mem_objectValues hvalue)
      simp only [visit, hnamed, hdependencies,
        forM_congr fun key _ => visitKeyword_congr hcheck key]
    | _ => rfl

/-! ## Documents -/

/-- {lit}`TypeScriptContract`. -/
structure TypeScriptContract where
  declarations : String
  dependencies : List (String × String)

/-- {lit}`SocketContract`. -/
structure SocketContract (ν : Type) where
  version : Nat
  actorName : String
  schema : Json ν
  emittable : List String

/-- {lit}`RpcParameter`; its type is a reference. -/
structure RpcParameter where
  name : String
  optional : Bool
  rest : Bool
  type : String

/-- {lit}`RpcResult`. -/
inductive RpcResult
  | void
  | value (type : String)

/-- {lit}`RpcMethod`. -/
structure RpcMethod where
  name : String
  parameters : List RpcParameter
  result : RpcResult

/-- {lit}`RpcContract`. -/
structure RpcContract (ν : Type) where
  schema : Json ν
  methods : List RpcMethod

/-- {lit}`ActorApi`. -/
structure ActorApi (ν : Type) where
  actorName : String
  socket : SocketContract ν
  rpc : RpcContract ν

/-- {lit}`ContractDocument`. -/
structure ContractDocument (ν : Type) where
  version : Nat
  actors : List (ActorApi ν)
  typescript : TypeScriptContract

/-- The schemas of a contract. -/
def ContractDocument.schemas (document : ContractDocument ν) : List (Json ν) :=
  document.actors.flatMap fun actor => [actor.socket.schema, actor.rpc.schema]

/-- The types that a socket contract must define. -/
def socketTypes : List String := ["Metadata", "Incoming", "Outgoing", "State"]

/-- The methods that cannot be called. -/
def reservedMethods : List String :=
  ["constructor", "then", "connect", "broadcast", "onConnect", "onMessage", "onDisconnect"]

/-- Whether a parameter's schema is that of an array with one kind of items. -/
def isPlainArray (kind : Json ν) : Bool :=
  ((get "type" kind).any fun
    | .string text => text == "array"
    | _ => false) &&
  !(get "items" kind).any fun
    | .array _ => true
    | _ => false

/-! ## The control plane's validator -/

/-- {lit}`char::is_whitespace`. -/
def isWhitespace (c : Char) : Bool :=
  (9 ≤ c.toNat && c.toNat ≤ 13) || (0x2000 ≤ c.toNat && c.toNat ≤ 0x200a) ||
    [0x20, 0x85, 0xa0, 0x1680, 0x2028, 0x2029, 0x202f, 0x205f, 0x3000].contains c.toNat

/-- The characters of a package's name. -/
def isPackageChar (c : Char) : Bool :=
  ('a' ≤ c && c ≤ 'z') || c.isDigit || c == '.' || c == '_' || c == '-'

/-- The check of a dependency of the declarations. -/
def validDependency (name version : String) : Bool :=
  let scope := name.toList.head? == some '@'
  let segments := (if scope then name.toList.drop 1 else name.toList).splitOn '/'
  ((segments.length == 1 && !scope) || (segments.length == 2 && scope)) &&
    segments.all (fun part => !part.isEmpty && part.all isPackageChar) && !version.isEmpty

/-- {lit}`is_typescript_keyword`. -/
def isTypescriptKeyword (name : String) : Bool :=
  ["abstract", "accessor", "any", "as", "asserts", "assert", "bigint", "boolean", "break", "case",
    "catch", "class", "continue", "const", "constructor", "debugger", "declare", "default", "defer",
    "delete", "do", "else", "enum", "export", "extends", "false", "finally", "for", "from",
    "function", "get", "if", "implements", "import", "in", "infer", "instanceof", "interface",
    "intrinsic", "is", "keyof", "let", "module", "namespace", "never", "new", "null", "number",
    "object", "package", "private", "protected", "public", "override", "out", "readonly", "require",
    "global", "return", "satisfies", "set", "static", "string", "super", "switch", "symbol", "this",
    "throw", "true", "try", "type", "typeof", "undefined", "unique", "unknown", "using", "var",
    "void", "while", "with", "yield", "async", "await", "of"].contains name

/-- {lit}`validate_actor_name`. -/
def validateActorName (name : String) : Except Error Unit := do
  Traces.validateComponent "actor name" name 255
  ensure ((name.toList.zipIdx.all fun c =>
      c.1.isAlpha || c.1 == '_' || (0 < c.2 && c.1.isDigit)) && !isTypescriptKeyword name)
    ("actor name " ++ name ++ " cannot be emitted as a TypeScript identifier")

/-- One parameter, after whether an optional one was seen. -/
def validateParameter (schema : Json ν) (count : Nat) (optionalSeen : Bool)
    (parameter : RpcParameter × Nat) : Except Error Bool := do
  ensure (!parameter.1.name.isEmpty) "RPC parameter name must not be empty"
  let kind ← validateReference schema parameter.1.type
  ensure (!parameter.1.rest ||
      (!parameter.1.optional && parameter.2 + 1 == count && isPlainArray kind))
    "rest parameter must be a final, required array parameter"
  ensure (!optionalSeen || parameter.1.optional || parameter.1.rest)
    "required parameter follows optional parameter"
  return optionalSeen || parameter.1.optional

/-- The type of a result. -/
def validateResult (schema : Json ν) : RpcResult → Except Error Unit
  | .void => .ok ()
  | .value type => discard (validateReference schema type)

/-- One method, after the names that were seen. -/
def validateMethod (schema : Json ν) (names : List String) (method : RpcMethod) :
    Except Error (List String) := do
  Traces.validateComponent "actor method" method.name 255
  ensure (method.name ∉ names) ("duplicate actor method " ++ method.name)
  ensure (method.name ∉ reservedMethods) ("reserved actor method " ++ method.name)
  discard (method.parameters.zipIdx.foldlM
    (validateParameter schema method.parameters.length) false)
  validateResult schema method.result
  return method.name :: names

/-- {lit}`RpcContract::validate`. -/
def RpcContract.validate (rpc : RpcContract ν) : Except Error Unit := do
  validateSchema rpc.schema
  discard (rpc.methods.foldlM (validateMethod rpc.schema) [])

/-- One field that is sent to browsers, after those that were seen. -/
def validateEmittable (schema : Json ν) (fields : List String) (field : String) :
    Except Error (List String) := do
  ensure (field ∉ fields) ("duplicate emittable field " ++ field)
  ensure ((((get "definitions" schema).bind (get "State")).bind (get "properties")).any fun
    properties => (get field properties).isSome)
    ("emittable field " ++ field ++ " is not public state")
  return field :: fields

/-- One actor, after the names that were seen. -/
def validateActorApi (names : List String) (actor : ActorApi ν) :
    Except Error (List String) := do
  validateActorName actor.actorName
  ensure (actor.actorName ∉ names) ("duplicate actor name " ++ actor.actorName)
  ensure (actor.socket.version = 1 ∧ actor.socket.actorName = actor.actorName)
    "actor and socket contract must match"
  validateSchema actor.socket.schema
  socketTypes.forM fun kind =>
    ensure (((get "definitions" actor.socket.schema).bind (get kind)).isSome)
      ("missing socket type " ++ kind)
  discard (actor.socket.emittable.foldlM (validateEmittable actor.socket.schema) [])
  actor.rpc.validate
  return actor.actorName :: names

/-- {lit}`ContractDocument::validate`. -/
def ContractDocument.validate (document : ContractDocument ν) : Except Error Unit := do
  ensure (¬ document.typescript.declarations.toList.all isWhitespace)
    "public TypeScript declarations are required"
  document.typescript.dependencies.forM fun dependency =>
    ensure (validDependency dependency.1 dependency.2) "invalid public type dependency"
  ensure (document.version = 1)
    ("unsupported public actor contract version " ++ toString document.version)
  discard (document.actors.foldlM validateActorApi [])

/-! ## The compiler's validator -/

namespace Compiler

variable [Zero ν] [DecidableEq ν]

/-- {lit}`unique`. -/
def unique (kind : String) (seen : List String) (value : String) : Except Error (List String) := do
  ensure (value ∉ seen) ("duplicate " ++ kind ++ " " ++ value)
  return value :: seen

/-- One field that is sent to browsers, after those that were seen. -/
def validateEmittable (state : Option (Json ν)) (fields : List String) (field : String) :
    Except Error (List String) := do
  let fields ← unique "emittable field" fields field
  ensure ((state.bind (get "properties")).any fun properties =>
    (stepInto properties field).isSome) ("emittable field " ++ field ++ " is not public state")
  return fields

/-- {lit}`validateSocket`. -/
def validateSocket (socket : SocketContract ν) : Except Error Unit := do
  socketTypes.forM fun kind =>
    discard (validateReference socket.schema ("#/definitions/" ++ kind))
  discard (socket.emittable.foldlM
    (validateEmittable ((get "definitions" socket.schema).bind (get "State"))) [])

/-- One parameter, after whether an optional one was seen. -/
def validateParameter (schema : Json ν) (count : Nat) (optionalSeen : Bool)
    (parameter : RpcParameter × Nat) : Except Error Bool := do
  let kind ← validateReference schema parameter.1.type
  ensure (!parameter.1.rest ||
      (!parameter.1.optional && parameter.2 + 1 == count && isPlainArray kind))
    "rest parameter must be a final, required array parameter"
  ensure (!optionalSeen || parameter.1.optional || parameter.1.rest)
    "required parameter follows optional parameter"
  return optionalSeen || parameter.1.optional

/-- One method, after the names that were seen. -/
def validateMethod (schema : Json ν) (methods : List String) (method : RpcMethod) :
    Except Error (List String) := do
  let methods ← unique "RPC method" methods method.name
  ensure (method.name ∉ reservedMethods) ("reserved RPC method " ++ method.name)
  discard (method.parameters.zipIdx.foldlM
    (validateParameter schema method.parameters.length) false)
  validateResult schema method.result
  return methods

/-- {lit}`validateRpc`. -/
def validateRpc (rpc : RpcContract ν) : Except Error Unit :=
  discard (rpc.methods.foldlM (validateMethod rpc.schema) [])

/-- {lit}`validateActor`; whether the scanner finds an identifier is a parameter. -/
def validateActor (isIdentifier : String → Bool) (actor : ActorApi ν) : Except Error Unit := do
  ensure (isIdentifier actor.actorName)
    ("actor name " ++ actor.actorName ++ " cannot be emitted as a TypeScript identifier")
  ensure (actor.actorName = actor.socket.actorName) "actor and socket contract names must match"
  validateSocket actor.socket
  validateRpc actor.rpc

/-- {lit}`component` of {lit}`documentSchema`. -/
def component (text : String) : Bool :=
  !text.isEmpty && text.length ≤ 255 &&
    text.toList.all fun c => c.isAlphanum || c == '.' || c == '_' || c == '-'

/-- An actor of {lit}`documentSchema`. -/
def parseActor (ajv : Json ν → Bool) (actor : ActorApi ν) : Except Error Unit := do
  ensure (component actor.actorName ∧ actor.socket.version = 1 ∧
      component actor.socket.actorName ∧ (∀ method ∈ actor.rpc.methods, component method.name) ∧
      ∀ method ∈ actor.rpc.methods, ∀ parameter ∈ method.parameters, parameter.name ≠ "")
    "Invalid input"
  parseSchema ajv actor.socket.schema
  parseSchema ajv actor.rpc.schema

/-- {lit}`parsePublicContract`. -/
def parsePublicContract (ajv : Json ν → Bool) (isIdentifier : String → Bool)
    (document : ContractDocument ν) : Except Error Unit := do
  ensure (document.version = 1 ∧ document.typescript.declarations ≠ "" ∧
      ∀ dependency ∈ document.typescript.dependencies,
        validDependency dependency.1 dependency.2)
    "Invalid input"
  document.actors.forM (parseActor ajv)
  discard (document.actors.foldlM (fun names actor => do
    let names ← unique "actor" names actor.actorName
    validateActor isIdentifier actor
    return names) [])

end Compiler

/-! ## What is visited and what is reached -/

/-- A value and the tokens that lead to it. -/
abbrev Position (ν : Type) := List String × Json ν

/-- The schemas below a schema, through its keywords. -/
def schemaChildren : Json ν → List (List String × Json ν)
  | .object fields =>
      (namedKeywords.flatMap fun key =>
        match fields.lookup key with
        | some (.object children) => children.map fun child => ([key, child.1], child.2)
        | _ => []) ++
      (keywords.flatMap fun key =>
        match fields.lookup key with
        | none => []
        | some (.array children) =>
            children.zipIdx.map fun child => ([key, toString child.2], child.1)
        | some child => [([key], child)]) ++
      match fields.lookup "dependencies" with
      | some (.object children) =>
          children.filterMap fun child =>
            match child.2 with
            | .array _ => none
            | schema => some (["dependencies", child.1], schema)
      | _ => []
  | _ => []

/-- A schema below another one. -/
def Child (position next : Position ν) : Prop :=
  ∃ tokens, (tokens, next.2) ∈ schemaChildren position.2 ∧ next.1 = position.1 ++ tokens

/-- The target of a schema's reference. -/
def Refers (root : Json ν) (position next : Position ν) : Prop :=
  ∃ reference, get "$ref" position.2 = some (.string reference) ∧
    next.1 = tokensOf reference ∧ follow root next.1 = some next.2

/-- The schemas that the walks visit. -/
def Visited (root : Json ν) (position : Position ν) : Prop :=
  Relation.ReflTransGen Child ([], root) position

/-- The values that keywords and references lead to. -/
def Reached (root : Json ν) (position : Position ν) : Prop :=
  Relation.ReflTransGen (fun position next => Child position next ∨ Refers root position next)
    ([], root) position

/-- A reference that is local and leads to a schema which the walks visit. -/
def Resolved (root reference : Json ν) : Prop :=
  ∃ text target, reference = .string text ∧ localStart <+: text.toList ∧
    follow root (tokensOf text) = some target ∧ Visited root (tokensOf text, target)

/-- Nothing that is reached overrides the resolution of types, and references lead to what was
visited. -/
def Unoverridden (root : Json ν) : Prop :=
  ∀ position, Reached root position →
    (∀ name ∈ forbidden, get name position.2 = none) ∧
      ∀ reference ∈ get "$ref" position.2, Resolved root reference

/-- The references of what is visited lead to what is visited. -/
def RefsVisited (root : Json ν) : Prop :=
  ∀ position, Visited root position →
    ∀ reference ∈ get "$ref" position.2, Resolved root reference

theorem Visited.reached {root : Json ν} {position : Position ν} (h : Visited root position) :
    Reached root position := by
  induction h with
  | refl => exact .refl
  | tail _ hchild ih => exact ih.tail (.inl hchild)

/-- What is reached is visited if references lead to what is visited. -/
theorem Reached.visited {root : Json ν} {position : Position ν} (h : Reached root position)
    (hrefs : RefsVisited root) : Visited root position := by
  induction h with
  | refl => exact .refl
  | tail _ hstep ih =>
    rcases hstep with hchild | ⟨reference, hreference, htokens, hfollow⟩
    · exact ih.tail hchild
    · obtain ⟨text, target, htext, -, htarget, hvisited⟩ := hrefs _ ih _ hreference
      obtain rfl := Json.string.inj htext
      rename_i position next _
      obtain ⟨tokens, value⟩ := next
      dsimp only at htokens hfollow
      subst htokens
      rw [htarget] at hfollow
      rwa [← Option.some.inj hfollow]

/-- If nothing that is visited overrides the resolution of types, then nothing that is reached does
exactly if references lead to what is visited. -/
theorem unoverridden_iff {root : Json ν}
    (h : ∀ position, Visited root position → ∀ name ∈ forbidden, get name position.2 = none) :
    Unoverridden root ↔ RefsVisited root := by
  constructor
  · intro hclean position hvisited
    exact (hclean position hvisited.reached).2
  · intro hrefs position hreached
    have hvisited := hreached.visited hrefs
    exact ⟨h position hvisited, hrefs position hvisited⟩

/-! ## What the walks check -/

theorem forM_eq_ok {α : Type} {items : List α} {check : α → Except Error Unit} :
    items.forM check = .ok () ↔ ∀ item ∈ items, check item = .ok () := by
  induction items with
  | nil => simp [List.forM, pure, Except.pure]
  | cons item items ih =>
    change (do check item; items.forM check) = .ok () ↔ _
    rw [bind_eq_ok, ih, List.forall_mem_cons]

/-- The parts of a walk over the keywords of a schema reach every schema below it. -/
theorem check_of_child {check : Json ν → Except Error Unit} {fields : List (String × Json ν)}
    (hnamed : ∀ key ∈ namedKeywords, ∀ children, fields.lookup key = some (.object children) →
      ∀ child ∈ children, check child.2 = .ok ())
    (hkeywords : ∀ key ∈ keywords, visitKeyword check fields key = .ok ())
    (hdependencies : ∀ children, fields.lookup "dependencies" = some (.object children) →
      ∀ child ∈ children, visitDependency check child.2 = .ok ())
    {tokens : List String} {child : Json ν}
    (h : (tokens, child) ∈ schemaChildren (.object fields)) : check child = .ok () := by
  rw [schemaChildren, List.mem_append, List.mem_append] at h
  rcases h with (h | h) | h
  · obtain ⟨key, hkey, hmem⟩ := List.mem_flatMap.mp h
    split at hmem
    · rename_i children hlookup
      obtain ⟨entry, hentry, heq⟩ := List.mem_map.mp hmem
      obtain ⟨-, rfl⟩ := Prod.mk.inj heq
      exact hnamed key hkey children hlookup entry hentry
    · cases hmem
  · obtain ⟨key, hkey, hmem⟩ := List.mem_flatMap.mp h
    have hvisited := hkeywords key hkey
    unfold visitKeyword at hvisited
    split at hmem
    · cases hmem
    · rename_i children hlookup
      rw [hlookup] at hvisited
      obtain ⟨entry, hentry, heq⟩ := List.mem_map.mp hmem
      obtain ⟨-, rfl⟩ := Prod.mk.inj heq
      exact forM_eq_ok.mp hvisited _ (List.fst_mem_of_mem_zipIdx hentry)
    · rename_i found hother hlookup
      obtain ⟨-, rfl⟩ := Prod.mk.inj (List.mem_singleton.mp hmem)
      rw [hlookup] at hvisited
      split at hvisited
      · rename_i heq
        cases heq
      · rename_i heq
        cases heq
        exact absurd rfl (hother _)
      · rename_i heq
        cases heq
        exact hvisited
  · split at h
    · rename_i children hlookup
      obtain ⟨entry, hentry, heq⟩ := List.mem_filterMap.mp h
      have hvisited := hdependencies children hlookup entry hentry
      unfold visitDependency at hvisited
      split at heq
      · cases heq
      · rename_i hother
        obtain ⟨-, rfl⟩ := Prod.mk.inj (Option.some.inj heq)
        split at hvisited
        · rename_i harray
          exact absurd harray (hother _)
        · exact hvisited
    · cases h

/-- What the control plane's walk has checked about a schema and those below it. -/
theorem validateSchemaNode_eq_ok {root node : Json ν} {fuel : Nat}
    (h : validateSchemaNode root fuel node = .ok ()) :
    (∀ name ∈ forbidden, get name node = none) ∧
      ∀ tokens child, (tokens, child) ∈ schemaChildren node →
        ∃ fuel, validateSchemaNode root fuel child = .ok () := by
  cases fuel with
  | zero => cases h
  | succ fuel =>
    cases node with
    | boolean value => exact ⟨fun _ _ => rfl, nofun⟩
    | object fields =>
      simp only [validateSchemaNode, ensureResolvable, bind_eq_ok, ensure_eq_ok, forM_eq_ok] at h
      obtain ⟨hresolvable, -, hnamed, hkeywords, hdependencies⟩ := h
      refine ⟨fun name hname => Option.isNone_iff_eq_none.mp (hresolvable name hname),
        fun tokens child hchild => ⟨fuel, check_of_child ?_ hkeywords ?_ hchild⟩⟩
      · intro key hkey children hlookup
        have hvisited := hnamed key hkey
        rw [validateNamed, hlookup] at hvisited
        exact forM_eq_ok.mp hvisited
      · intro children hlookup
        rw [validateDependencies, hlookup] at hdependencies
        exact forM_eq_ok.mp hdependencies
    | null => cases h
    | number value => cases h
    | string text => cases h
    | array items => cases h

/-- What the compiler's walk has checked about a schema and those below it. -/
theorem visit_eq_ok [Zero ν] [DecidableEq ν] {root node : Json ν} {fuel : Nat}
    (h : visit root fuel node = .ok ()) :
    (∀ name ∈ forbidden, get name node = none) ∧
      ∀ tokens child, (tokens, child) ∈ schemaChildren node →
        ∃ fuel, visit root fuel child = .ok () := by
  cases fuel with
  | zero => cases h
  | succ fuel =>
    cases node with
    | boolean value => exact ⟨fun _ _ => rfl, nofun⟩
    | object fields =>
      simp only [visit, ensureResolvable, bind_eq_ok, ensure_eq_ok, forM_eq_ok] at h
      obtain ⟨hresolvable, -, hnamed, hkeywords, hdependencies⟩ := h
      refine ⟨fun name hname => Option.isNone_iff_eq_none.mp (hresolvable name hname),
        fun tokens child hchild => ⟨fuel, check_of_child ?_ hkeywords ?_ hchild⟩⟩
      · intro key hkey children hlookup entry hentry
        have hvisited := hnamed key hkey
        rw [hlookup] at hvisited
        exact hvisited _ (List.mem_map_of_mem hentry)
      · intro children hlookup entry hentry
        rw [hlookup] at hdependencies
        exact hdependencies _ (List.mem_map_of_mem hentry)
    | null => cases h
    | number value => exact ⟨fun _ _ => rfl, nofun⟩
    | string text => exact ⟨fun _ _ => rfl, nofun⟩
    | array items => exact ⟨fun _ _ => rfl, nofun⟩

/-- A check that goes on to the schemas below holds of everything that is visited. -/
theorem of_visited {root : Json ν} {check : Nat → Json ν → Except Error Unit}
    (hcheck : ∀ fuel node, check fuel node = .ok () →
      (∀ name ∈ forbidden, get name node = none) ∧
        ∀ tokens child, (tokens, child) ∈ schemaChildren node → ∃ fuel, check fuel child = .ok ())
    {fuel : Nat} (hroot : check fuel root = .ok ()) {position : Position ν}
    (h : Visited root position) : ∀ name ∈ forbidden, get name position.2 = none := by
  suffices hsome : ∃ fuel, check fuel position.2 = .ok () by
    obtain ⟨fuel, hfuel⟩ := hsome
    exact (hcheck fuel _ hfuel).1
  induction h with
  | refl => exact ⟨fuel, hroot⟩
  | tail _ hchild ih =>
    obtain ⟨fuel, hfuel⟩ := ih
    obtain ⟨tokens, hmem, -⟩ := hchild
    exact (hcheck fuel _ hfuel).2 tokens _ hmem

/-- A schema that the control plane accepts. -/
theorem unoverridden_of_validateSchema {schema : Json ν} (h : validateSchema schema = .ok ()) :
    Unoverridden schema ↔ RefsVisited schema := by
  rw [validateSchema, bind_eq_ok] at h
  exact unoverridden_iff fun position =>
    of_visited (fun fuel node => validateSchemaNode_eq_ok) h.2

/-- A schema that the compiler accepts. -/
theorem unoverridden_of_parseSchema [Zero ν] [DecidableEq ν] {ajv : Json ν → Bool}
    {schema : Json ν} (h : parseSchema ajv schema = .ok ()) :
    Unoverridden schema ↔ RefsVisited schema := by
  rw [parseSchema, bind_eq_ok, bind_eq_ok] at h
  exact unoverridden_iff fun position => of_visited (fun fuel node => visit_eq_ok) h.2.2

theorem discard_eq_ok {α : Type} {check : Except Error α} :
    (discard check : Except Error Unit) = .ok () ↔ ∃ value, check = .ok value := by
  cases check with
  | error error => exact iff_of_false nofun nofun
  | ok value => exact iff_of_true rfl ⟨value, rfl⟩

/-- A loop that ends has passed each item. -/
theorem foldlM_eq_ok {α σ : Type} {items : List α} {step : σ → α → Except Error σ} {first last : σ}
    (h : items.foldlM step first = .ok last) {item : α} (hitem : item ∈ items) :
    ∃ before after, step before item = .ok after := by
  induction items generalizing first with
  | nil => cases hitem
  | cons head items ih =>
    rw [List.foldlM_cons] at h
    cases hstep : step first head with
    | error error =>
      rw [hstep] at h
      cases h
    | ok next =>
      rw [hstep] at h
      rcases List.mem_cons.mp hitem with rfl | hmem
      · exact ⟨first, next, hstep⟩
      · exact ih h hmem

/-- What the control plane accepts has schemas that it accepts. -/
theorem validateSchema_of_validate {document : ContractDocument ν}
    (h : document.validate = .ok ()) {schema : Json ν} (hschema : schema ∈ document.schemas) :
    validateSchema schema = .ok () := by
  simp only [ContractDocument.validate, bind_eq_ok, discard_eq_ok] at h
  obtain ⟨-, -, -, last, hactors⟩ := h
  obtain ⟨actor, hactor, hmem⟩ := List.mem_flatMap.mp hschema
  obtain ⟨names, next, hvalid⟩ := foldlM_eq_ok hactors hactor
  simp only [validateActorApi, RpcContract.validate, bind_eq_ok] at hvalid
  obtain ⟨-, -, -, hsocket, -, -, ⟨hrpc, -⟩, -⟩ := hvalid
  rcases List.mem_cons.mp hmem with rfl | hmem
  · exact hsocket
  · rw [List.mem_singleton.mp hmem]
    exact hrpc

/-- What the compiler accepts has schemas that it accepts. -/
theorem parseSchema_of_parsePublicContract [Zero ν] [DecidableEq ν] {ajv : Json ν → Bool}
    {isIdentifier : String → Bool} {document : ContractDocument ν}
    (h : Compiler.parsePublicContract ajv isIdentifier document = .ok ()) {schema : Json ν}
    (hschema : schema ∈ document.schemas) : parseSchema ajv schema = .ok () := by
  simp only [Compiler.parsePublicContract, bind_eq_ok, forM_eq_ok] at h
  obtain ⟨-, hactors, -⟩ := h
  obtain ⟨actor, hactor, hmem⟩ := List.mem_flatMap.mp hschema
  have hactor := hactors actor hactor
  simp only [Compiler.parseActor, bind_eq_ok] at hactor
  obtain ⟨-, hsocket, hrpc⟩ := hactor
  rcases List.mem_cons.mp hmem with rfl | hmem
  · exact hsocket
  · rw [List.mem_singleton.mp hmem]
    exact hrpc

/-- In a contract that the control plane accepts, and in one that the compiler accepts, nothing that
keywords and references reach from a schema overrides the resolution of types, and every reference
on the way is local and leads to a visited schema, exactly if the references of the visited schemas
do so. -/
theorem contract_cannot_override_types (ν : Type) [Zero ν] [DecidableEq ν] (ajv : Json ν → Bool)
    (isIdentifier : String → Bool) (document : ContractDocument ν) :
    (document.validate = .ok () →
      ∀ schema ∈ document.schemas, Unoverridden schema ↔ RefsVisited schema) ∧
    (Compiler.parsePublicContract ajv isIdentifier document = .ok () →
      ∀ schema ∈ document.schemas, Unoverridden schema ↔ RefsVisited schema) :=
  ⟨fun h _ hschema => unoverridden_of_validateSchema (validateSchema_of_validate h hschema),
    fun h _ hschema =>
      unoverridden_of_parseSchema (parseSchema_of_parsePublicContract h hschema)⟩

/-- The schema of a socket whose incoming messages have the default value of its state as a type. -/
def smugglingSchema : Json Nat :=
  .object [("definitions", .object [
    ("Metadata", .object []),
    ("Incoming", .object [("$ref", .string "#/definitions/State/default")]),
    ("Outgoing", .object []),
    ("State", .object [("type", .string "object"),
      ("default", .object [("tsType", .string "any")])])])]

/-- An actor with that schema. -/
def smugglingActor : ActorApi Nat where
  actorName := "Room"
  socket := { version := 1, actorName := "Room", schema := smugglingSchema, emittable := [] }
  rpc := { schema := .object [("definitions", .object [])], methods := [] }

/-- A contract with that actor. -/
def smugglingContract : ContractDocument Nat where
  version := 1
  actors := [smugglingActor]
  typescript := { declarations := "export interface Room", dependencies := [] }

/-- Both sides accept a contract with a reference to a default value that overrides a type. -/
theorem contract_overrides_types :
    smugglingContract.validate = .ok () ∧
    (∀ (ajv : Json Nat → Bool) (isIdentifier : String → Bool),
      (∀ schema ∈ smugglingContract.schemas, ajv schema = true) → isIdentifier "Room" = true →
        Compiler.parsePublicContract ajv isIdentifier smugglingContract = .ok ()) ∧
    smugglingSchema ∈ smugglingContract.schemas ∧
    Reached smugglingSchema
      (["definitions", "State", "default"], .object [("tsType", .string "any")]) ∧
    "tsType" ∈ forbidden := by
  refine ⟨by decide +kernel, fun ajv isIdentifier hajv hidentifier => ?_, List.mem_cons_self, ?_,
    by decide⟩
  · have hvisits : ∀ schema ∈ smugglingContract.schemas, parseSchema ajv schema = .ok () := by
      intro schema hschema
      have hrest : ∀ schema ∈ smugglingContract.schemas,
          parseSchema (fun _ => true) schema = .ok () := by decide +kernel
      have hparse := hrest schema hschema
      simp only [parseSchema, bind_eq_ok, ensure_eq_ok] at hparse ⊢
      exact ⟨hparse.1, hajv schema hschema, hparse.2.2⟩
    have hactor : Compiler.parseActor ajv smugglingActor = .ok () := by
      simp only [Compiler.parseActor, bind_eq_ok]
      exact ⟨by decide +kernel, hvisits _ List.mem_cons_self,
        hvisits _ (List.mem_cons_of_mem _ List.mem_cons_self)⟩
    have hvalid : Compiler.validateActor isIdentifier smugglingActor = .ok () := by
      simp only [Compiler.validateActor, bind_eq_ok, ensure_eq_ok]
      exact ⟨hidentifier, rfl, by decide +kernel, rfl⟩
    simp only [Compiler.parsePublicContract, bind_eq_ok, forM_eq_ok, discard_eq_ok]
    refine ⟨by decide +kernel, fun actor hmem => ?_, ["Room"], ?_⟩
    · rw [List.mem_singleton.mp hmem]
      exact hactor
    · rw [smugglingContract, List.foldlM_cons, hvalid]
      rfl
  · have hincoming : Child ([], smugglingSchema) (["definitions", "Incoming"],
        .object [("$ref", .string "#/definitions/State/default")]) :=
      ⟨["definitions", "Incoming"], by simp [schemaChildren, smugglingSchema, namedKeywords], rfl⟩
    have htarget : Refers smugglingSchema (["definitions", "Incoming"],
        .object [("$ref", .string "#/definitions/State/default")])
        (["definitions", "State", "default"], .object [("tsType", .string "any")]) :=
      ⟨"#/definitions/State/default", rfl, by decide +kernel, rfl⟩
    exact (Relation.ReflTransGen.single (.inl hincoming)).tail (.inr htarget)

end Contracts
end DurableActors
