import DurableActors.Data.Json
import DurableActors.Actor.Protocol

/-!
# The HTTP client of actors

A call of {lit}`HttpActorClient` finds the actor's host through the control plane, asks the host
whether it is ready, and posts the invocation.  If the post is known not to have reached actor code,
the host is looked up again and the invocation is posted a second time; what else goes wrong after
the post is reported as an unknown outcome.

What the control plane, the host and the network answer is given.  An answer to a post also says
whether the post may have reached actor code, which the client does not see.

Main results:

- Theorem {lit}`refused_of_connectionRefused`: how the causes of an error are read.
- Theorem {lit}`direct_spec`: one attempt at a call.
- Theorem {lit}`client_call_at_most_once`: a call runs at most once, and its failures say so.
-/

namespace DurableActors
namespace Client

variable {ν : Type}

/-! ## Errors -/

/-- What a call raises. -/
inductive ClientError
  | invocation (code requestId message : String)
  | protocol (message : String)
  | configuration (message : String)
  | validation (message : String)
  | other (message : String)
deriving DecidableEq

mutual
/-- A value that was thrown.  An object that was met on the way from the top stands as
{lit}`ancestor`, so that cycles of causes end. -/
inductive Thrown
  | primitive
  | ancestor
  | record (code syscall : Option String) (errors : Errors) (cause : Thrown)

/-- The field {lit}`errors`. -/
inductive Errors
  | undefined
  | other
  | array (first : List Thrown)
end

mutual
/-- {lit}`connectionRefused`. -/
def connectionRefused : Thrown → Bool
  | .primitive => false
  | .ancestor => false
  | .record code syscall errors cause =>
      if code ≠ none ∧ code ≠ some "ECONNREFUSED" then false
      else
        match errors with
        | .undefined =>
            if code = some "ECONNREFUSED" then syscall == some "connect"
            else connectionRefused cause
        | .other => false
        | .array causes => !causes.isEmpty && allRefused causes

/-- The test of each of several causes. -/
def allRefused : List Thrown → Bool
  | [] => true
  | cause :: causes => connectionRefused cause && allRefused causes
end

/-- An error that stands for connections which were refused, and for nothing else. -/
inductive Refused : Thrown → Prop
  | connect (cause : Thrown) :
      Refused (.record (some "ECONNREFUSED") (some "connect") .undefined cause)
  | wrapped (syscall : Option String) {cause : Thrown} :
      Refused cause → Refused (.record none syscall .undefined cause)
  | every (code syscall : Option String) {causes : List Thrown} (cause : Thrown) :
      causes ≠ [] → (∀ cause ∈ causes, Refused cause) →
      Refused (.record code syscall (.array causes) cause)

mutual
theorem refused_of_connectionRefused : {thrown : Thrown} → connectionRefused thrown = true →
    Refused thrown
  | .primitive, h => nomatch h
  | .ancestor, h => nomatch h
  | .record code syscall errors cause, h => by
    unfold connectionRefused at h
    split at h
    · cases h
    · rename_i hcode
      cases errors with
      | other => cases h
      | undefined =>
        dsimp only at h
        split at h
        · rename_i hrefused
          subst hrefused
          obtain rfl : syscall = some "connect" := by simpa using h
          exact .connect cause
        · rename_i hother
          obtain rfl : code = none := by
            by_contra hsome
            exact hcode ⟨hsome, hother⟩
          exact .wrapped syscall (refused_of_connectionRefused h)
      | array causes =>
        rw [Bool.and_eq_true] at h
        exact .every code syscall cause (by simpa using h.1) (refused_of_allRefused h.2)

theorem refused_of_allRefused : {causes : List Thrown} → allRefused causes = true →
    ∀ cause ∈ causes, Refused cause
  | [], _ => nofun
  | cause :: causes, h => by
    rw [allRefused, Bool.and_eq_true] at h
    have hcause := refused_of_connectionRefused h.1
    have hcauses := refused_of_allRefused h.2
    exact List.forall_mem_cons.mpr ⟨hcause, hcauses⟩
end

/-! ## Answers -/

/-- A response of the control plane or of a host; its body is a document if it is JSON. -/
structure Response (ν : Type) where
  status : Nat
  body : Option (Json ν)

/-- {lit}`response.ok`. -/
def Response.ok (response : Response ν) : Bool :=
  200 ≤ response.status && response.status < 300

/-- The answer to a request: a response, or an error of the transport. -/
inductive Answer (ν : Type)
  | response (response : Response ν)
  | failure (thrown : Thrown) (message : String)

/-- The answer to a post of an invocation, and whether the post may have reached actor code. -/
structure PostAnswer (ν : Type) where
  answer : Answer ν
  reached : Bool

/-- A field of an object. -/
def field (name : String) : Json ν → Option (Json ν)
  | .object fields => fields.lookup name
  | _ => none

/-- A field whose value is a string. -/
def stringField (name : String) (document : Json ν) : Option String :=
  (field name document).bind Json.asString

/-- {lit}`isRecord`. -/
def isRecord : Json ν → Bool
  | .object _ => true
  | _ => false

/-- {lit}`responseDocument`. -/
def responseDocument (response : Response ν) : Except ClientError (Json ν) :=
  match response.body with
  | some document => .ok document
  | none =>
      .error (.protocol ("HTTP " ++ toString response.status ++ " response was not valid JSON"))

/-! ## Targets -/

/-- {lit}`ActorHostTarget`. -/
structure ActorHostTarget where
  route : String
  token : String
  ownerEpoch : Nat
  expiresAtMs : Nat
deriving DecidableEq

/-- {lit}`String.prototype.trim` leaves nothing. -/
def isBlank (text : String) : Bool :=
  text.toList.all fun c =>
    (9 ≤ c.toNat && c.toNat ≤ 13) || (0x2000 ≤ c.toNat && c.toNat ≤ 0x200a) ||
      [0x20, 0xa0, 0x1680, 0x2028, 0x2029, 0x202f, 0x205f, 0x3000, 0xfeff].contains c.toNat

/-- The parts of the platform that the client uses: URLs as {lit}`validateOrigin` reads them, and
safe positive integers. -/
structure Platform (ν : Type) where
  validateOrigin : String → Except String String
  positiveInteger : ν → Option Nat

/-- {lit}`throwResponseFailure`. -/
def throwResponseFailure (response : Response ν) (document : Json ν) (requestId : String) :
    ClientError :=
  if response.status = 401 ∨ response.status = 403 then
    .invocation "unauthenticated" requestId
      "the durable-actors application credential was rejected"
  else
    match (field "error" document).bind fun failure =>
      (stringField "code" failure).bind fun code =>
        (stringField "message" failure).map fun message => (failure, code, message) with
    | some (failure, code, message) =>
        if code.isEmpty then
          .protocol ("control-plane HTTP " ++ toString response.status ++
            " response did not contain a valid error")
        else
          .invocation code ((stringField "requestId" failure).getD requestId) message
    | none =>
        .protocol ("control-plane HTTP " ++ toString response.status ++
          " response did not contain a valid error")

/-- A number that is a safe positive integer. -/
def positiveField (platform : Platform ν) (name : String) (document : Json ν) : Option Nat :=
  (field name document).bind fun
    | .number value => platform.positiveInteger value
    | _ => none

/-- The target in a document. -/
def targetOf (platform : Platform ν) (document : Json ν) : Option ActorHostTarget :=
  (stringField "route" document).bind fun route =>
    (stringField "token" document).bind fun token =>
      (positiveField platform "ownerEpoch" document).bind fun ownerEpoch =>
        (positiveField platform "expiresAtMs" document).bind fun expiresAtMs =>
          if isBlank token then none else some { route, token, ownerEpoch, expiresAtMs }

/-- {lit}`resolveTarget`. -/
def resolveTarget (platform : Platform ν) (requestId : String) :
    Answer ν → Except ClientError ActorHostTarget
  | .failure _ message =>
      .error (.invocation "unavailable" requestId
        ("control-plane HTTP request failed before dispatch: " ++ message))
  | .response response => do
      let document ← responseDocument response
      if !response.ok then throw (throwResponseFailure response document requestId)
      match targetOf platform document with
      | none =>
          throw (.protocol "control-plane response did not contain a valid actor host target")
      | some target =>
          match platform.validateOrigin target.route with
          | .error message => throw (.configuration message)
          | .ok _ => return target

/-- A resolution, by whichever call it was started. -/
structure Resolution (ν : Type) where
  requestId : String
  answer : Answer ν

/-- What a look at the cache finds: nothing, or a resolution, of which it turns out once it has
succeeded whether it still is the one in the cache and whether its target can still be used. -/
inductive CacheLook (ν : Type)
  | missing
  | found (resolution : Resolution ν) (current fresh : Bool)

/-- {lit}`target`, for what the looks at the cache find and the answer to a resolution of its
own. -/
def target (platform : Platform ν) (requestId : String) (own : Answer ν) :
    List (CacheLook ν) → Except ClientError ActorHostTarget
  | .found resolution current fresh :: looks =>
      match resolveTarget platform resolution.requestId resolution.answer with
      | .error error => .error error
      | .ok found =>
          if !current then target platform requestId own looks
          else if fresh then .ok found
          else resolveTarget platform requestId own
  | _ => resolveTarget platform requestId own

/-! ## Posts -/

/-- {lit}`ActorHostReply`. -/
inductive ActorHostReply (ν : Type)
  | completed (result : Json ν)
  | failed (code message : String)
  | reroute
  | unauthenticated
  | notDispatched

/-- {lit}`ping`: whether the host is ready. -/
def ping (platform : Platform ν) (target : ActorHostTarget) (answer : Answer ν) :
    Option (ActorHostReply ν) :=
  match platform.validateOrigin target.route, answer with
  | .error _, _ => some .notDispatched
  | .ok _, .failure _ _ => some .notDispatched
  | .ok _, .response response =>
      if response.status = 401 then some .unauthenticated
      else if response.status = 204 then none
      else some .notDispatched

/-- The reply in a document. -/
def replyOf (document : Json ν) : Option (ActorHostReply ν) :=
  match stringField "type" document with
  | some "completed" => (field "result" document).map .completed
  | some "failed" =>
      (stringField "code" document).bind fun code =>
        (stringField "message" document).bind fun message =>
          if code.isEmpty then none else some (.failed code message)
  | some "reroute" => some .reroute
  | _ => none

/-- What the transport makes of the answer to a post. -/
def postReply : Answer ν → Except ClientError (ActorHostReply ν)
  | .failure thrown message =>
      if connectionRefused thrown then .ok .notDispatched else .error (.other message)
  | .response response => do
      if response.status = 401 then return .unauthenticated
      if !response.ok then
        throw (.other ("actor host returned HTTP " ++ toString response.status))
      let document ← responseDocument response
      match replyOf document with
      | some reply => return reply
      | none => throw (.protocol "actor host response did not contain a valid outcome")

/-- What becomes of a response to a post. -/
theorem postReply_response (response : Response ν) :
    (response.status = 401 ∧ postReply (.response response) = .ok .unauthenticated) ∨
      (∃ message, postReply (.response response) = .error (.other message)) ∨
      (∃ message, postReply (.response response) = .error (.protocol message)) ∨
      ∃ document ∈ response.body, ∃ reply, response.ok = true ∧ replyOf document = some reply ∧
        postReply (.response response) = .ok reply := by
  unfold postReply
  by_cases hunauthenticated : response.status = 401
  · exact .inl ⟨hunauthenticated, if_pos hunauthenticated⟩
  right
  cases hok : response.ok with
  | false =>
    left
    exact ⟨_, by simp [hunauthenticated, hok]; rfl⟩
  | true =>
    right
    cases hbody : response.body with
    | none =>
      left
      exact ⟨_, by simp [hunauthenticated, hok, responseDocument, hbody]; rfl⟩
    | some document =>
      cases hreply : replyOf document with
      | none =>
        left
        exact ⟨_, by
          simp [hunauthenticated, hok, responseDocument, hbody, bind, Except.bind, hreply]; rfl⟩
      | some reply =>
        right
        exact ⟨document, rfl, reply, rfl, hreply,
          by simp [hunauthenticated, hok, responseDocument, hbody, bind, Except.bind, hreply]; rfl⟩

/-- The documents that are neither a result nor a failure. -/
theorem reroute_of_replyOf {document : Json ν} {reply : ActorHostReply ν}
    (h : replyOf document = some reply) (hcompleted : ∀ result, reply ≠ .completed result)
    (hfailed : ∀ code message, reply ≠ .failed code message) :
    stringField "type" document = some "reroute" := by
  unfold replyOf at h
  split at h
  · obtain ⟨result, -, rfl⟩ := Option.map_eq_some_iff.mp h
    exact absurd rfl (hcompleted result)
  · obtain ⟨code, -, h⟩ := Option.bind_eq_some_iff.mp h
    obtain ⟨message, -, h⟩ := Option.bind_eq_some_iff.mp h
    split at h
    · cases h
    · cases h
      exact absurd rfl (hfailed code message)
  · assumption
  · cases h

/-- The answers of a host to one attempt. -/
structure HostAnswers (ν : Type) where
  head : Answer ν
  post : PostAnswer ν

/-- {lit}`HttpActorHostTransport.invoke`, with the posts that it makes. -/
def transportInvoke (platform : Platform ν) (target : ActorHostTarget) (answers : HostAnswers ν) :
    List (PostAnswer ν) × Except ClientError (ActorHostReply ν) :=
  match ping platform target answers.head with
  | some reply => ([], .ok reply)
  | none => ([answers.post], postReply answers.post.answer)

/-! ## Calls -/

/-- The text of an error. -/
def ClientError.message : ClientError → String
  | invocation _ _ message => message
  | protocol message => message
  | configuration message => message
  | validation message => message
  | other message => message

/-- The {lit}`catch` of {lit}`direct`. -/
def caught (requestId : String) : ClientError → ClientError
  | .invocation code requestId message => .invocation code requestId message
  | .protocol message => .protocol message
  | error =>
      .invocation "outcome_unknown" requestId
        ("actor-host HTTP request failed after dispatch: " ++ error.message)

/-- What {lit}`direct` raises for a reply that calls for another attempt, when there is none. -/
def exhausted (requestId : String) : ActorHostReply ν → ClientError
  | .unauthenticated =>
      .invocation "unauthenticated" requestId "actor host rejected the refreshed invocation ticket"
  | .notDispatched =>
      .invocation "unavailable" requestId "actor host could not be reached before execution"
  | _ => .invocation "unavailable" requestId "actor ownership changed repeatedly before execution"

/-- The posts that a call makes, and how it ends. -/
abbrev Outcome (ν : Type) := List (PostAnswer ν) × Except ClientError (Json ν)

/-- {lit}`direct`, for what follows a reply that calls for another attempt. -/
def direct (platform : Platform ν) (requestId : String) (target : ActorHostTarget)
    (answers : HostAnswers ν) (again : ActorHostReply ν → Outcome ν) : Outcome ν :=
  match transportInvoke platform target answers with
  | (posts, .error error) => (posts, .error (caught requestId error))
  | (posts, .ok (.completed result)) => (posts, .ok result)
  | (posts, .ok (.failed code message)) => (posts, .error (.invocation code requestId message))
  | (posts, .ok reply) =>
      let (later, result) := again reply
      (posts ++ later, result)

/-- What the control plane, the host and the network do during one call. -/
structure Behaviour (ν : Type) where
  looks : List (CacheLook ν)
  discovery : Answer ν
  host : HostAnswers ν
  laterLooks : List (CacheLook ν)
  laterDiscovery : Answer ν
  laterHost : HostAnswers ν

/-- The second attempt. -/
def retry (platform : Platform ν) (requestId : String) (behaviour : Behaviour ν) : Outcome ν :=
  match target platform requestId behaviour.laterDiscovery behaviour.laterLooks with
  | .error error => ([], .error (caught requestId error))
  | .ok target =>
      direct platform requestId target behaviour.laterHost fun reply =>
        ([], .error (exhausted requestId reply))

/-- {lit}`validateActorComponent`. -/
def validateActorComponent (name value : String) : Except ClientError Unit :=
  if value.isEmpty ∨
      ¬ value.toList.all (fun c => c.isAlphanum || c == '.' || c == '_' || c == '-') ∨
      value = "." ∨ value = ".." then
    .error (.validation (name ++ " may contain only ASCII letters, digits, '.', '-', and '_' " ++
      "and must not be a path segment"))
  else .ok ()

/-- A call, before it is sent.  The hook may raise an error, and the settings and the arguments may
turn out to be unusable. -/
structure Call where
  requestId : String
  beforeInvoke : Except ClientError Unit
  settings : Except ClientError Unit
  actorName : String
  actorId : String
  method : String
  arguments : Except ClientError Unit

/-- The part of {lit}`invoke` before the control plane is asked. -/
def Call.validate (call : Call) : Except ClientError Unit := do
  validateActorComponent "request ID" call.requestId
  call.beforeInvoke
  call.settings
  validateActorComponent "actor name" call.actorName
  validateActorComponent "actor ID" call.actorId
  validateActorComponent "actor method" call.method
  call.arguments

/-- {lit}`HttpActorClient.invoke`. -/
def invoke (platform : Platform ν) (call : Call) (behaviour : Behaviour ν) : Outcome ν :=
  match call.validate with
  | .error error => ([], .error error)
  | .ok () =>
      match target platform call.requestId behaviour.discovery behaviour.looks with
      | .error error => ([], .error error)
      | .ok target =>
          direct platform call.requestId target behaviour.host fun _ =>
            retry platform call.requestId behaviour

/-! ## At most once -/

/-- A host answers with 401 or reroute only if it did not run the method, and a refused connection
carried no request. -/
def PostAnswer.Honest (post : PostAnswer ν) : Prop :=
  post.reached = true →
    match post.answer with
    | .failure thrown _ => ¬ Refused thrown
    | .response response => response.status ≠ 401 ∧
        ∀ document ∈ response.body, response.ok = true →
          stringField "type" document ≠ some "reroute"

/-- The failure that a host replied is passed on. -/
def PassedOn (posts : List (PostAnswer ν)) (code message : String) : Prop :=
  ∃ post ∈ posts, postReply post.answer = .ok (.failed code message)

/-- A failure that does not promise more than is known. -/
def Careful (posts : List (PostAnswer ν)) (error : ClientError) : Prop :=
  (∃ requestId message, error = .invocation "outcome_unknown" requestId message) ∨
    (∃ message, error = .protocol message) ∨
    ∃ code requestId message, error = .invocation code requestId message ∧
      PassedOn posts code message

/-- A call that ran at most once and whose failure says what may have happened. -/
structure AtMostOnce (outcome : Outcome ν) : Prop where
  /-- All posts but the last did not reach actor code. -/
  once : ∀ first last, outcome.1 = first ++ last → last ≠ [] →
    ∀ post ∈ first, post.reached = false
  /-- A failure after a post that may have reached actor code is a careful one. -/
  careful : ∀ error, outcome.2 = .error error → (∃ post ∈ outcome.1, post.reached = true) →
    Careful outcome.1 error
  /-- A call whose post may have reached actor code is unavailable only by the host's own word. -/
  unavailable : ∀ requestId message,
    outcome.2 = .error (.invocation "unavailable" requestId message) →
    (∀ post ∈ outcome.1, post.reached = false) ∨ PassedOn outcome.1 "unavailable" message

/-- A call that posts nothing. -/
theorem AtMostOnce.unposted (result : Except ClientError (Json ν)) :
    AtMostOnce (([], result) : Outcome ν) where
  once first last happend hlast := by simp_all
  careful error _ hreached := by simp at hreached
  unavailable _ _ _ := .inl (by simp)

/-- A call that posts once. -/
theorem AtMostOnce.posted {post : PostAnswer ν} {result : Except ClientError (Json ν)}
    (h : ∀ error, result = .error error → Careful [post] error) :
    AtMostOnce (([post], result) : Outcome ν) where
  once first last happend hlast := by
    obtain ⟨rfl, -⟩ | ⟨-, rfl⟩ := List.singleton_eq_append_iff.mp happend
    · simp
    · exact absurd rfl hlast
  careful error herror _ := h error herror
  unavailable requestId message hresult := by
    obtain ⟨_, _, hcode⟩ | ⟨_, hprotocol⟩ | ⟨code, _, _, hpassed, hhost⟩ := h _ hresult
    · simp at hcode
    · cases hprotocol
    · cases hpassed
      exact .inr hhost

/-- Posts that did not reach actor code, before a call. -/
theorem AtMostOnce.after_unreached {posts : List (PostAnswer ν)} {outcome : Outcome ν}
    (hposts : ∀ post ∈ posts, post.reached = false) (h : AtMostOnce outcome) :
    AtMostOnce (posts ++ outcome.1, outcome.2) where
  once first last happend hlast post hpost := by
    obtain ⟨rest, rfl, hrest⟩ | ⟨rest, rfl, hrest⟩ := List.append_eq_append_iff.mp happend
    · rcases List.mem_append.mp hpost with hearlier | hlater
      · exact hposts post hearlier
      · exact h.once rest last hrest hlast post hlater
    · exact hposts post (List.mem_append_left _ hpost)
  careful error herror hreached := by
    obtain ⟨post, hpost, hrun⟩ := hreached
    have hlater : post ∈ outcome.1 := by
      rcases List.mem_append.mp hpost with hearlier | hlater
      · rw [hposts post hearlier] at hrun
        cases hrun
      · exact hlater
    obtain hunknown | hprotocol | ⟨code, requestId, message, herror, last, hlast, hreply⟩ :=
      h.careful error herror ⟨post, hlater, hrun⟩
    · exact .inl hunknown
    · exact .inr (.inl hprotocol)
    · exact .inr (.inr ⟨code, requestId, message, herror, last,
        List.mem_append_right _ hlast, hreply⟩)
  unavailable requestId message hresult := by
    obtain hunreached | ⟨last, hlast, hreply⟩ := h.unavailable requestId message hresult
    · left
      intro post hpost
      rcases List.mem_append.mp hpost with hearlier | hlater
      · exact hposts post hearlier
      · exact hunreached post hlater
    · exact .inr ⟨last, List.mem_append_right _ hlast, hreply⟩

/-- The posts for which the transport reports that the host may be tried again. -/
theorem unreached_of_reply {post : PostAnswer ν} (honest : post.Honest)
    {reply : ActorHostReply ν} (hreply : postReply post.answer = .ok reply)
    (hcompleted : ∀ result, reply ≠ .completed result)
    (hfailed : ∀ code message, reply ≠ .failed code message) : post.reached = false := by
  by_contra hreached
  have hhonest := honest (by simpa using hreached)
  cases hanswer : post.answer with
  | failure thrown message =>
    simp only [hanswer, postReply] at hhonest hreply
    split at hreply
    · rename_i hrefused
      exact hhonest (refused_of_connectionRefused hrefused)
    · cases hreply
  | response response =>
    simp only [hanswer] at hhonest hreply
    obtain ⟨hunauthenticated, -⟩ | ⟨message, hother⟩ | ⟨message, hprotocol⟩ |
      ⟨document, hdocument, found, hok, hfound, hposted⟩ := postReply_response response
    · exact hhonest.1 hunauthenticated
    · rw [hother] at hreply
      cases hreply
    · rw [hprotocol] at hreply
      cases hreply
    · rw [hposted] at hreply
      cases hreply
      exact hhonest.2 document hdocument hok (reroute_of_replyOf hfound hcompleted hfailed)

/-- What a failed post is reported as. -/
theorem careful_of_error {answer : Answer ν} {error : ClientError}
    (h : postReply answer = .error error) (requestId : String) (posts : List (PostAnswer ν)) :
    Careful posts (caught requestId error) := by
  cases answer with
  | failure thrown message =>
    simp only [postReply] at h
    split at h
    · cases h
    · cases h
      exact .inl ⟨requestId, _, rfl⟩
  | response response =>
    obtain ⟨-, hunauthenticated⟩ | ⟨message, hother⟩ | ⟨message, hprotocol⟩ |
      ⟨document, -, reply, -, -, hreply⟩ := postReply_response response
    · rw [hunauthenticated] at h
      cases h
    · rw [hother] at h
      cases h
      exact .inl ⟨requestId, _, rfl⟩
    · rw [hprotocol] at h
      cases h
      exact .inr (.inl ⟨message, rfl⟩)
    · rw [hreply] at h
      cases h

/-- An attempt, for what follows it. -/
theorem direct_spec {platform : Platform ν} {requestId : String} {target : ActorHostTarget}
    {answers : HostAnswers ν} {again : ActorHostReply ν → Outcome ν}
    (honest : answers.post.Honest) (hagain : ∀ reply, AtMostOnce (again reply)) :
    AtMostOnce (direct platform requestId target answers again) := by
  unfold direct transportInvoke
  cases hping : ping platform target answers.head with
  | some reply =>
    -- Nothing was posted: `ping` reports neither a result nor a failure.
    cases reply with
    | completed result => exact .unposted _
    | failed code message => exact .unposted _
    | reroute => exact .after_unreached (by simp) (hagain _)
    | unauthenticated => exact .after_unreached (by simp) (hagain _)
    | notDispatched => exact .after_unreached (by simp) (hagain _)
  | none =>
    cases hreply : postReply answers.post.answer with
    | error error =>
      apply AtMostOnce.posted
      intro raised hraised
      cases hraised
      exact careful_of_error hreply requestId _
    | ok reply =>
      have hretried : (∀ result, reply ≠ .completed result) →
          (∀ code message, reply ≠ .failed code message) →
          AtMostOnce ([answers.post] ++ (again reply).1, (again reply).2) := by
        intro hcompleted hfailed
        apply AtMostOnce.after_unreached _ (hagain reply)
        have hunreached := unreached_of_reply honest hreply hcompleted hfailed
        simpa using hunreached
      cases reply with
      | completed result => exact .posted (by simp)
      | failed code message =>
        apply AtMostOnce.posted
        intro raised hraised
        cases hraised
        exact .inr (.inr ⟨code, requestId, message, rfl, answers.post, by simp, hreply⟩)
      | reroute => exact hretried (by simp) (by simp)
      | unauthenticated => exact hretried (by simp) (by simp)
      | notDispatched => exact hretried (by simp) (by simp)

/-- An attempt posts at most once. -/
theorem direct_length {platform : Platform ν} {requestId : String} {target : ActorHostTarget}
    {answers : HostAnswers ν} {again : ActorHostReply ν → Outcome ν} {n : Nat}
    (hagain : ∀ reply, (again reply).1.length ≤ n) :
    (direct platform requestId target answers again).1.length ≤ n + 1 := by
  have hposts : (transportInvoke platform target answers).1.length ≤ 1 := by
    unfold transportInvoke
    split <;> simp
  unfold direct
  split <;> rename_i htransport <;> simp only [htransport] at hposts
  · exact Nat.le_trans hposts (Nat.le_add_left 1 n)
  · exact Nat.le_trans hposts (Nat.le_add_left 1 n)
  · exact Nat.le_trans hposts (Nat.le_add_left 1 n)
  · rename_i reply _ _
    have hlater := hagain reply
    simp only [List.length_append]
    omega

/-- The second attempt. -/
theorem retry_spec {platform : Platform ν} {requestId : String} {behaviour : Behaviour ν}
    (honest : behaviour.laterHost.post.Honest) :
    AtMostOnce (retry platform requestId behaviour) ∧
      (retry platform requestId behaviour).1.length ≤ 1 := by
  unfold retry
  split
  · exact ⟨.unposted _, by simp⟩
  · exact ⟨direct_spec honest fun _ => .unposted _, direct_length fun _ => by simp⟩

/-- Whatever the control plane, the host and the network do, a call posts the invocation at most
twice and, of its posts, only the last may have reached actor code.  A failure after that is an
unknown outcome, a protocol error, or what the host itself replied; that the actor is unavailable is
reported for no other reason than the host's reply once a post may have reached actor code. -/
theorem client_call_at_most_once (platform : Platform ν) (call : Call) (behaviour : Behaviour ν)
    (hhost : behaviour.host.post.Honest) (hlater : behaviour.laterHost.post.Honest) :
    (invoke platform call behaviour).1.length ≤ 2 ∧
      AtMostOnce (invoke platform call behaviour) := by
  unfold invoke
  split
  · exact ⟨by simp, .unposted _⟩
  · split
    · exact ⟨by simp, .unposted _⟩
    · obtain ⟨honce, hlength⟩ : AtMostOnce (retry platform call.requestId behaviour) ∧
          (retry platform call.requestId behaviour).1.length ≤ 1 := retry_spec hlater
      exact ⟨direct_length fun _ => hlength, direct_spec hhost fun _ => honce⟩

/-- A connection that was refused. -/
def refusedPost : PostAnswer Nat where
  answer :=
    .failure (.record (some "ECONNREFUSED") (some "connect") .undefined .primitive) "refused"
  reached := false

/-- A connection that was reset after the request had been sent. -/
def resetPost : PostAnswer Nat where
  answer := .failure (.record (some "ECONNRESET") (some "read") .undefined .primitive) "reset"
  reached := true

/-- A discovery that finds a host. -/
def discovered : Answer Nat :=
  .response
    { status := 200
      body := some (.object [("route", .string "https://host"), ("token", .string "t"),
        ("ownerEpoch", .number 1), ("expiresAtMs", .number 1)]) }

/-- A call whose first connection is refused and whose second one is reset. -/
def resetBehaviour : Behaviour Nat where
  looks := []
  discovery := discovered
  host := { head := .response { status := 204, body := none }, post := refusedPost }
  laterLooks := []
  laterDiscovery := discovered
  laterHost := { head := .response { status := 204, body := none }, post := resetPost }

/-- A platform that accepts every route. -/
def anyOrigin : Platform Nat where
  validateOrigin := .ok
  positiveInteger := some

/-- A call of the method {lit}`m` of the actor {lit}`A/1`. -/
def smallCall : Call where
  requestId := "r"
  beforeInvoke := .ok ()
  settings := .ok ()
  actorName := "A"
  actorId := "1"
  method := "m"
  arguments := .ok ()

theorem client_call_at_most_once_of_reset :
    (invoke anyOrigin smallCall resetBehaviour).1 = [refusedPost, resetPost] ∧
      (invoke anyOrigin smallCall resetBehaviour).1.length ≤ 2 ∧
      AtMostOnce (invoke anyOrigin smallCall resetBehaviour) := by
  have hrefused : refusedPost.Honest := nofun
  have hreset : resetPost.Honest := fun _ => by
    intro hrefused
    change Refused (.record (some "ECONNRESET") (some "read") .undefined .primitive) at hrefused
    generalize hcode : some "ECONNRESET" = code, some "read" = syscall at hrefused
    cases hrefused <;> simp at hcode
  exact ⟨rfl, client_call_at_most_once anyOrigin smallCall resetBehaviour hrefused hreset⟩

end Client
end DurableActors
