import Mathlib

/-!
# Programs as trees of service calls

An asynchronous function is embedded as a tree.  A node is a call to a service
of an interface together with the continuation for each answer; a leaf is a
result or an error.  Nothing in the tree says how the services answer, so a
statement about every run of a program is a statement about every pattern of
answers and failures.

The second half of the module is the logic in which such statements are proved.
A protocol says how services answer and change a state, what the surroundings
may do between two calls, and what each call has to guarantee.

Main results:

- Theorem {lit}`Prog.Meets.bind`: a sequence meets its protocol when its first
  part does with the second part's obligation as postcondition.
- Theorem {lit}`Prog.Meets.attempt`: catching an error turns the postcondition
  on errors into a postcondition on results.
- Theorem {lit}`Prog.Meets.of_rely`: an obligation survives interference.
- Theorem {lit}`Prog.Within.meets`: a program that makes only harmless calls keeps
  an assertion that harmless calls keep.
- Theorem {lit}`Prog.Meets.run`: every state that a run visits is guaranteed.
-/

namespace Effects

/-- An interface: the calls a program can make and the type of each call's answers. -/
structure Interface where
  /-- The calls. -/
  Op : Type
  /-- The answers of a call. -/
  Ans : Op → Type

/-- A program over an interface: a result, an error, or a call and its continuation. -/
inductive Prog (I : Interface) (ε α : Type) : Type
  | done (value : α)
  | fail (error : ε)
  | call (op : I.Op) (next : I.Ans op → Prog I ε α)

namespace Prog

variable {I : Interface} {ε α β : Type}

/-- Sequential composition; an error ends the sequence. -/
def bind : Prog I ε α → (α → Prog I ε β) → Prog I ε β
  | done value, f => f value
  | fail error, _ => fail error
  | call op next, f => call op fun answer => (next answer).bind f

instance : Monad (Prog I ε) where
  pure := done
  bind := bind

/-- Make one call and return its answer. -/
def perform (op : I.Op) : Prog I ε (I.Ans op) :=
  call op done

/-- Run a program and return its error as a value. -/
def attempt {δ : Type} : Prog I ε α → Prog I δ (Except ε α)
  | done value => done (.ok value)
  | fail error => done (.error error)
  | call op next => call op fun answer => (next answer).attempt

/-- Go on with the outcome of a program, be it a result or an error. -/
def handle {δ : Type} : Prog I ε α → (Except ε α → Prog I δ β) → Prog I δ β
  | done value, k => k (.ok value)
  | fail error, k => k (.error error)
  | call op next, k => call op fun answer => (next answer).handle k

/-- Stop with an error unless the condition holds. -/
def ensure (condition : Prop) [Decidable condition] (error : ε) : Prog I ε Unit :=
  if condition then done () else fail error

/-- Continue with the value of an option or stop with an error. -/
def context : Option α → ε → Prog I ε α
  | some value, _ => done value
  | none, error => fail error

/-- Continue with a result or stop with its error. -/
def lift : Except ε α → Prog I ε α
  | .ok value => done value
  | .error error => fail error

/-- Run the body for each item of a list in turn. -/
def forEach (body : α → Prog I ε Unit) : List α → Prog I ε Unit
  | [] => done ()
  | item :: items => (body item).bind fun _ => forEach body items

@[simp]
theorem pure_eq (value : α) : (pure value : Prog I ε α) = done value := rfl

@[simp]
theorem bind_eq (p : Prog I ε α) (f : α → Prog I ε β) : p >>= f = p.bind f := rfl

@[simp]
theorem done_bind (value : α) (f : α → Prog I ε β) : (done value).bind f = f value := rfl

@[simp]
theorem fail_bind (error : ε) (f : α → Prog I ε β) : (fail error).bind f = fail error := rfl

@[simp]
theorem call_bind (op : I.Op) (next : I.Ans op → Prog I ε α) (f : α → Prog I ε β) :
    (call op next).bind f = call op fun answer => (next answer).bind f := rfl

@[simp]
theorem perform_bind (op : I.Op) (f : I.Ans op → Prog I ε β) :
    (perform op).bind f = call op f := rfl

@[simp]
theorem attempt_done {δ : Type} (value : α) :
    ((done value : Prog I ε α).attempt : Prog I δ (Except ε α)) = done (.ok value) := rfl

@[simp]
theorem attempt_fail {δ : Type} (error : ε) :
    ((fail error : Prog I ε α).attempt : Prog I δ (Except ε α)) = done (.error error) := rfl

section

variable {γ δ : Type} {k : Except ε β → Prog I δ γ}

theorem handle_bind (p : Prog I ε α) (f : α → Prog I ε β) :
    (p.bind f).handle k = p.handle fun
      | .ok value => (f value).handle k
      | .error error => k (.error error) := by
  induction p with
  | done value => rfl
  | fail error => rfl
  | call op next ih => exact congrArg (call op) (funext ih)

theorem handle_attempt (p : Prog I ε α) (k : Except δ (Except ε α) → Prog I δ γ) :
    (p.attempt : Prog I δ (Except ε α)).handle k = p.handle fun outcome => k (.ok outcome) := by
  induction p with
  | done value => rfl
  | fail error => rfl
  | call op next ih => exact congrArg (call op) (funext ih)

theorem bind_eq_handle (p : Prog I ε α) (f : α → Prog I ε β) :
    p.bind f = p.handle fun
      | .ok value => f value
      | .error error => fail error := by
  induction p with
  | done value => rfl
  | fail error => rfl
  | call op next ih => exact congrArg (call op) (funext ih)

end

end Prog

/-! ## Protocols -/

/-- How services act on a state of type {lit}`σ`, and what is owed around each call. -/
structure Protocol (I : Interface) (σ : Type) where
  /-- A call answered in one state leads to another state. -/
  perform : (op : I.Op) → σ → I.Ans op → σ → Prop
  /-- What the surroundings may do before a call takes effect. -/
  rely : σ → σ → Prop
  /-- What every call has to guarantee about its effect. -/
  guarantee : σ → σ → Prop

namespace Prog

variable {I : Interface} {σ ε δ α β : Type} {P : Protocol I σ}

/-- From the given state every call of the program meets the protocol's guarantee, whatever the
surroundings do within the rely, and its outcome satisfies the postcondition. -/
def Meets (P : Protocol I σ) : Prog I ε α → (Except ε α → σ → Prop) → σ → Prop
  | done value, post, s => post (.ok value) s
  | fail error, post, s => post (.error error) s
  | call op next, post, s =>
      ∀ s₁, P.rely s s₁ → ∀ answer s₂, P.perform op s₁ answer s₂ →
        P.guarantee s₁ s₂ ∧ (next answer).Meets P post s₂

/-- A postcondition that says nothing about errors. -/
def onOk (post : α → σ → Prop) : Except ε α → σ → Prop
  | .ok value, s => post value s
  | .error _, _ => True

/-- A postcondition with an assertion for results and one for errors. -/
def either (ok : α → σ → Prop) (failed : ε → σ → Prop) : Except ε α → σ → Prop
  | .ok value, s => ok value s
  | .error error, s => failed error s

/-- A postcondition with an assertion that holds after errors too. -/
def always (frame : σ → Prop) (post : α → σ → Prop) (r : Except ε α) (s : σ) : Prop :=
  frame s ∧ onOk post r s

@[simp]
theorem meets_done {value : α} {post : Except ε α → σ → Prop} {s : σ} :
    (done value : Prog I ε α).Meets P post s ↔ post (.ok value) s := Iff.rfl

@[simp]
theorem meets_fail {error : ε} {post : Except ε α → σ → Prop} {s : σ} :
    (fail error : Prog I ε α).Meets P post s ↔ post (.error error) s := Iff.rfl

theorem meets_call {op : I.Op} {next : I.Ans op → Prog I ε α}
    {post : Except ε α → σ → Prop} {s : σ} :
    (call op next).Meets P post s ↔
      ∀ s₁, P.rely s s₁ → ∀ answer s₂, P.perform op s₁ answer s₂ →
        P.guarantee s₁ s₂ ∧ (next answer).Meets P post s₂ := Iff.rfl

namespace Meets

/-- A weaker postcondition is met as well. -/
theorem mono {p : Prog I ε α} {post post' : Except ε α → σ → Prop} {s : σ}
    (h : p.Meets P post s) (hpost : ∀ r s', post r s' → post' r s') : p.Meets P post' s := by
  induction p generalizing s with
  | done value => exact hpost _ _ h
  | fail error => exact hpost _ _ h
  | call op next ih =>
      intro s₁ hrely answer s₂ hperform
      obtain ⟨hguarantee, hnext⟩ := h s₁ hrely answer s₂ hperform
      exact ⟨hguarantee, ih answer hnext⟩

/-- The rule for sequences. -/
theorem bind {p : Prog I ε α} {f : α → Prog I ε β} {post : Except ε β → σ → Prop} {s : σ}
    (h : p.Meets P
      (fun r s' => match r with
        | .ok value => (f value).Meets P post s'
        | .error error => post (.error error) s') s) :
    (p.bind f).Meets P post s := by
  induction p generalizing s with
  | done value => exact h
  | fail error => exact h
  | call op next ih =>
      intro s₁ hrely answer s₂ hperform
      obtain ⟨hguarantee, hnext⟩ := h s₁ hrely answer s₂ hperform
      exact ⟨hguarantee, ih answer hnext⟩

/-- The rule for sequences, with an assertion in the middle. -/
theorem seq {p : Prog I ε α} {f : α → Prog I ε β} {mid : Except ε α → σ → Prop}
    {post : Except ε β → σ → Prop} {s : σ} (h : p.Meets P mid s)
    (hok : ∀ value s', mid (.ok value) s' → (f value).Meets P post s')
    (herror : ∀ error s', mid (.error error) s' → post (.error error) s') :
    (p.bind f).Meets P post s := by
  refine bind (h.mono fun r s' hmid => ?_)
  cases r with
  | ok value => exact hok value s' hmid
  | error error => exact herror error s' hmid

/-- The rule for sequences when nothing is said about errors. -/
theorem seqOk {p : Prog I ε α} {f : α → Prog I ε β} {mid : α → σ → Prop} {post : β → σ → Prop}
    {s : σ} (h : p.Meets P (onOk mid) s)
    (hok : ∀ value s', mid value s' → (f value).Meets P (onOk post) s') :
    (p.bind f).Meets P (onOk post) s :=
  h.seq hok fun _ _ _ => trivial

/-- The rule for sequences when the first part re-establishes what holds after errors. -/
theorem seqAlways {p : Prog I ε α} {f : α → Prog I ε β} {frame : σ → Prop} {mid : α → σ → Prop}
    {post : β → σ → Prop} {s : σ} (h : p.Meets P (always frame mid) s)
    (hok : ∀ value s', frame s' → mid value s' → (f value).Meets P (always frame post) s') :
    (p.bind f).Meets P (always frame post) s :=
  h.seq (fun value s' hmid => hok value s' hmid.1 hmid.2) fun _ _ hmid => ⟨hmid.1, trivial⟩

/-- Two postconditions are met together.  What is guaranteed may be shown for one of them alone, and
the other one under weaker assumptions about the services. -/
theorem and_of_le {P' : Protocol I σ} {p : Prog I ε α} {post post' : Except ε α → σ → Prop} {s : σ}
    (h : p.Meets P post s) (h' : p.Meets P' post' s)
    (hperform : ∀ op a answer b, P.perform op a answer b → P'.perform op a answer b)
    (hrely : ∀ a b, P.rely a b → P'.rely a b) :
    p.Meets P (fun r s' => post r s' ∧ post' r s') s := by
  induction p generalizing s with
  | done value => exact ⟨h, h'⟩
  | fail error => exact ⟨h, h'⟩
  | call op next ih =>
      intro s₁ hs₁ answer s₂ hs₂
      obtain ⟨hguarantee, hnext⟩ := h s₁ hs₁ answer s₂ hs₂
      obtain ⟨-, hnext'⟩ := h' s₁ (hrely _ _ hs₁) answer s₂ (hperform _ _ _ _ hs₂)
      exact ⟨hguarantee, ih answer hnext hnext'⟩

/-- The same when both make the same assumptions. -/
theorem and {P' : Protocol I σ} {p : Prog I ε α} {post post' : Except ε α → σ → Prop} {s : σ}
    (h : p.Meets P post s) (h' : p.Meets P' post' s) (hperform : P'.perform = P.perform)
    (hrely : P'.rely = P.rely) : p.Meets P (fun r s' => post r s' ∧ post' r s') s :=
  h.and_of_le h' (fun _ _ _ _ hstep => hperform ▸ hstep) fun _ _ hab => hrely ▸ hab

/-- The rule for catching an error. -/
theorem attempt {p : Prog I ε α} {post : Except δ (Except ε α) → σ → Prop} {s : σ}
    (h : p.Meets P (fun r s' => post (.ok r) s') s) :
    (p.attempt : Prog I δ (Except ε α)).Meets P post s := by
  induction p generalizing s with
  | done value => exact h
  | fail error => exact h
  | call op next ih =>
      intro s₁ hrely answer s₂ hperform
      obtain ⟨hguarantee, hnext⟩ := h s₁ hrely answer s₂ hperform
      exact ⟨hguarantee, ih answer hnext⟩

/-- An obligation survives interference when its postcondition does. -/
theorem of_rely {p : Prog I ε α} {post : Except ε α → σ → Prop} {s s' : σ}
    (htrans : ∀ a b c, P.rely a b → P.rely b c → P.rely a c)
    (hstable : ∀ r a b, post r a → P.rely a b → post r b)
    (h : p.Meets P post s) (hrely : P.rely s s') : p.Meets P post s' := by
  cases p with
  | done value => exact hstable _ _ _ h hrely
  | fail error => exact hstable _ _ _ h hrely
  | call op next =>
      intro s₁ hs₁ answer s₂ hperform
      exact h s₁ (htrans _ _ _ hrely hs₁) answer s₂ hperform

end Meets

/-- A check of a condition either passes or ends the program. -/
theorem meets_ensure {condition : Prop} [Decidable condition] {error : ε}
    {post : Except ε Unit → σ → Prop} {s : σ} :
    (ensure condition error : Prog I ε Unit).Meets P post s ↔
      (condition → post (.ok ()) s) ∧ (¬ condition → post (.error error) s) := by
  unfold ensure
  split <;> rename_i h <;> simp [h]

/-- Reading an option either continues or ends the program. -/
theorem meets_context {value : Option α} {error : ε} {post : Except ε α → σ → Prop} {s : σ} :
    (context value error : Prog I ε α).Meets P post s ↔
      (∀ a, value = some a → post (.ok a) s) ∧ (value = none → post (.error error) s) := by
  cases value <;> simp [context]

/-- Lifting a result keeps it. -/
@[simp]
theorem meets_lift {result : Except ε α} {post : Except ε α → σ → Prop} {s : σ} :
    (lift result : Prog I ε α).Meets P post s ↔ post result s := by
  cases result <;> rfl

/-- The rule for loops: an assertion about the items that are left. -/
theorem Meets.forEach {body : α → Prog I ε Unit} {items : List α} {s : σ}
    (inv : List α → σ → Prop) (failed : ε → σ → Prop)
    (hbody : ∀ item rest s, inv (item :: rest) s →
      (body item).Meets P (either (fun _ => inv rest) failed) s)
    (hs : inv items s) :
    (Prog.forEach body items).Meets P (either (fun _ => inv []) failed) s := by
  induction items generalizing s with
  | nil => exact hs
  | cons item items ih =>
      refine (hbody item items s hs).seq ?_ ?_
      · intro _ s' hs'
        exact ih hs'
      · intro error s' hs'
        exact hs'

/-! ## Programs that do not fail -/

/-- The program does not end with an error, whatever the answers. -/
def Total : Prog I ε α → Prop
  | done _ => True
  | fail _ => False
  | call _ next => ∀ answer, (next answer).Total

theorem total_attempt (p : Prog I ε α) : (p.attempt : Prog I δ (Except ε α)).Total := by
  induction p with
  | done value => trivial
  | fail error => trivial
  | call op next ih => exact ih

theorem Total.bind {p : Prog I ε α} {f : α → Prog I ε β} (h : p.Total)
    (hf : ∀ value, (f value).Total) : (p.bind f).Total := by
  induction p with
  | done value => exact hf value
  | fail error => exact h.elim
  | call op next ih => exact fun answer => ih answer (h answer)

/-- The rule for sequences whose first part does not fail. -/
theorem Total.seq {p : Prog I ε α} {f : α → Prog I ε β} {mid : Except ε α → σ → Prop}
    {post : Except ε β → σ → Prop} {s : σ} (htotal : p.Total) (h : p.Meets P mid s)
    (hok : ∀ value s', mid (.ok value) s' → (f value).Meets P post s') :
    (p.bind f).Meets P post s := by
  induction p generalizing s with
  | done value => exact hok value s h
  | fail error => exact htotal.elim
  | call op next ih =>
      intro s₁ hrely answer s₂ hperform
      obtain ⟨hguarantee, hnext⟩ := h s₁ hrely answer s₂ hperform
      exact ⟨hguarantee, ih answer (htotal answer) hnext⟩

/-! ## Footprints -/

/-- Every call that the program can make is in the footprint, and every result it can return,
whatever the answers, satisfies the postcondition. -/
def Within (footprint : I.Op → Prop) (post : α → Prop) : Prog I ε α → Prop
  | done value => post value
  | fail _ => True
  | call op next => footprint op ∧ ∀ answer, (next answer).Within footprint post

section Within

variable {footprint footprint' : I.Op → Prop} {post mid : α → Prop}

@[simp]
theorem within_done {value : α} :
    (done value : Prog I ε α).Within footprint post ↔ post value := Iff.rfl

@[simp]
theorem within_fail {error : ε} : (fail error : Prog I ε α).Within footprint post := trivial

@[simp]
theorem within_call {op : I.Op} {next : I.Ans op → Prog I ε α} :
    (call op next).Within footprint post ↔
      footprint op ∧ ∀ answer, (next answer).Within footprint post := Iff.rfl

theorem within_ensure {condition : Prop} [Decidable condition] {error : ε} :
    (ensure condition error : Prog I ε Unit).Within footprint fun _ => condition := by
  unfold ensure
  split <;> rename_i h
  · exact h
  · trivial

theorem within_context {value : Option α} {error : ε} :
    (context value error : Prog I ε α).Within footprint fun a => value = some a := by
  cases value <;> trivial

theorem within_lift {result : Except ε α} :
    (lift result : Prog I ε α).Within footprint fun a => result = .ok a := by
  cases result <;> trivial

theorem Within.bind {p : Prog I ε α} {f : α → Prog I ε β} {post : β → Prop}
    (h : p.Within footprint mid) (hf : ∀ value, mid value → (f value).Within footprint post) :
    (p.bind f).Within footprint post := by
  induction p with
  | done value => exact hf value h
  | fail error => trivial
  | call op next ih => exact ⟨h.1, fun answer => ih answer (h.2 answer)⟩

theorem Within.attempt {p : Prog I ε α} (h : p.Within footprint post) :
    (p.attempt : Prog I δ (Except ε α)).Within footprint
      fun r => ∀ value, r = .ok value → post value := by
  induction p with
  | done value =>
      rintro _ ⟨⟩
      exact h
  | fail error => rintro _ ⟨⟩
  | call op next ih => exact ⟨h.1, fun answer => ih answer (h.2 answer)⟩

theorem Within.mono {p : Prog I ε α} {post' : α → Prop} (h : p.Within footprint post)
    (hop : ∀ op, footprint op → footprint' op) (hpost : ∀ value, post value → post' value) :
    p.Within footprint' post' := by
  induction p with
  | done value => exact hpost value h
  | fail error => trivial
  | call op next ih => exact ⟨hop op h.1, fun answer => ih answer (h.2 answer)⟩

/-- A program whose calls all keep an assertion, and guarantee what they owe under it, keeps it
even when it fails. -/
theorem Within.meets_always {p : Prog I ε α} {inv : σ → Prop} {s : σ} (h : p.Within footprint post)
    (hrely : ∀ a b, inv a → P.rely a b → inv b)
    (hcall : ∀ op a answer b, footprint op → inv a → P.perform op a answer b →
      P.guarantee a b ∧ inv b)
    (hs : inv s) :
    p.Meets P (always inv fun value _ => post value) s := by
  induction p generalizing s with
  | done value => exact ⟨hs, h⟩
  | fail error => exact ⟨hs, trivial⟩
  | call op next ih =>
      intro s₁ hs₁ answer s₂ hperform
      obtain ⟨hguarantee, hinv⟩ := hcall op s₁ answer s₂ h.1 (hrely _ _ hs hs₁) hperform
      exact ⟨hguarantee, ih answer (h.2 answer) hinv⟩

/-- The same for the results alone. -/
theorem Within.meets {p : Prog I ε α} {inv : σ → Prop} {s : σ} (h : p.Within footprint post)
    (hrely : ∀ a b, inv a → P.rely a b → inv b)
    (hcall : ∀ op a answer b, footprint op → inv a → P.perform op a answer b →
      P.guarantee a b ∧ inv b)
    (hs : inv s) :
    p.Meets P (onOk fun value s' => inv s' ∧ post value) s := by
  refine (h.meets_always hrely hcall hs).mono fun r s' hr => ?_
  cases r with
  | ok value => exact ⟨hr.1, hr.2⟩
  | error error => trivial

end Within

/-! ## Runs of one program -/

/-- One call of a program that runs alone. -/
inductive Step (perform : (op : I.Op) → σ → I.Ans op → σ → Prop) :
    Prog I ε α × σ → Prog I ε α × σ → Prop
  | call {op : I.Op} {next : I.Ans op → Prog I ε α} {s s' : σ} {answer : I.Ans op} :
      perform op s answer s' → Step perform (call op next, s) (next answer, s')

/-- Make at most the given number of calls, with services that answer each call in one way. -/
def advance (serve : (op : I.Op) → σ → I.Ans op × σ) : Nat → Prog I ε α × σ → Prog I ε α × σ
  | count + 1, (call op next, s) => advance serve count (next (serve op s).1, (serve op s).2)
  | _, running => running

/-- These calls are steps when the services may answer so. -/
theorem advance_steps {perform : (op : I.Op) → σ → I.Ans op → σ → Prop}
    {serve : (op : I.Op) → σ → I.Ans op × σ}
    (hserve : ∀ op s, perform op s (serve op s).1 (serve op s).2) (count : Nat)
    (running : Prog I ε α × σ) :
    Relation.ReflTransGen (Step perform) running (advance serve count running) := by
  induction count generalizing running with
  | zero => exact .refl
  | succ count ih =>
      obtain ⟨p, s⟩ := running
      cases p with
      | done value => exact .refl
      | fail error => exact .refl
      | call op next => exact .head (.call (hserve op s)) (ih _)

/-- Along a run of a program that meets its protocol, the rest of the program meets it too, and
an invariant that every guaranteed call keeps still holds. -/
theorem Meets.run {p p' : Prog I ε α} {post : Except ε α → σ → Prop} {s s' : σ}
    {inv : σ → Prop} (hrefl : ∀ a, P.rely a a)
    (hinv : ∀ a b, inv a → P.guarantee a b → inv b) (h : p.Meets P post s) (hs : inv s)
    (hrun : Relation.ReflTransGen (Step P.perform) (p, s) (p', s')) :
    p'.Meets P post s' ∧ inv s' := by
  generalize hc : (p', s') = c at hrun
  induction hrun generalizing p' s' with
  | refl =>
      obtain ⟨rfl, rfl⟩ := Prod.mk.inj hc
      exact ⟨h, hs⟩
  | tail _ hstep ih =>
      cases hstep with
      | call hperform =>
          obtain ⟨rfl, rfl⟩ := Prod.mk.inj hc
          obtain ⟨hmeets, hi⟩ := ih rfl
          obtain ⟨hguarantee, hnext⟩ := hmeets _ (hrefl _) _ _ hperform
          exact ⟨hnext, hinv _ _ hi hguarantee⟩

end Prog

end Effects
