import Mathlib.Logic.Basic

/-!
# Finite programs over atomic calls

A `Program` is a finite tree of atomic calls: each call waits for a reply and every reply has a
continuation.  Nothing is said here about what the calls do; the same program can be run alone,
interleaved with others, or against calls that fail.

Six judgments are defined by recursion over the tree, and one from two of them.

* `Program.Uses` holds when every call along every path is allowed.
* `Program.Returns` holds when every path ends in an accepted value.
* `Program.Meets` holds when every path makes a certain call.
* `Program.Within` holds when no path makes more calls than a bound, and `Program.Spends` when these
  are also allowed.
* `Program.Follows` holds when the program keeps to a protocol with a state.
* `Program.wp` is the weakest precondition of a program that runs alone, and `Program.Leads` the
  triple over it.
-/

namespace Taskfire.Library

inductive Program (C : Type) (R : C → Type) (α : Type) : Type where
  | pure (value : α) : Program C R α
  | call (c : C) (next : R c → Program C R α) : Program C R α

namespace Program

variable {C : Type} {R : C → Type} {α β : Type}

def bind (program : Program C R α) (next : α → Program C R β) : Program C R β :=
  match program with
  | .pure value => next value
  | .call c rest => .call c fun reply => (rest reply).bind next

instance : Monad (Program C R) where
  pure := .pure
  bind := .bind

/-- The program that makes one call and returns its reply. -/
def perform (c : C) : Program C R (R c) := .call c .pure

@[simp] theorem pure_bind (value : α) (next : α → Program C R β) :
    (Program.pure value >>= next : Program C R β) = next value := rfl

@[simp] theorem call_bind (c : C) (rest : R c → Program C R α) (next : α → Program C R β) :
    (Program.call c rest >>= next) = .call c fun reply => rest reply >>= next := rfl

@[simp] theorem perform_bind (c : C) (next : R c → Program C R β) :
    (perform c >>= next) = .call c next := rfl

@[simp] theorem pure_eq (value : α) : (Pure.pure value : Program C R α) = .pure value := rfl

theorem bind_assoc {γ : Type} (program : Program C R α) (first : α → Program C R β)
    (second : β → Program C R γ) :
    (program >>= first) >>= second = program >>= fun value => first value >>= second := by
  induction program with
  | pure value => rfl
  | call c rest inductionHypothesis =>
    simp only [call_bind]
    congr 1
    funext reply
    exact inductionHypothesis reply

/-- Makes attempt number `n`, and more of them, at most `left`, while their value asks for another. -/
def retrying (again : α → Bool) (attempt : Nat → Program C R α) : Nat → Nat → Program C R α
  | 0, n => attempt n
  | left + 1, n => attempt n >>= fun value =>
    if again value then retrying again attempt left (n + 1) else .pure value

/-! ## Calls and results -/

/-- Every call of the program, along every path, is `allowed`. -/
def Uses (allowed : C → Prop) : Program C R α → Prop
  | .pure _ => True
  | .call c next => allowed c ∧ ∀ reply, (next reply).Uses allowed

@[simp] theorem uses_pure {allowed : C → Prop} (value : α) :
    (Program.pure value : Program C R α).Uses allowed := trivial

@[simp] theorem uses_call {allowed : C → Prop} (c : C) (next : R c → Program C R α) :
    (Program.call c next).Uses allowed ↔ allowed c ∧ ∀ reply, (next reply).Uses allowed := Iff.rfl

theorem uses_bind {allowed : C → Prop} {program : Program C R α} {next : α → Program C R β}
    (first : program.Uses allowed) (rest : ∀ value, (next value).Uses allowed) :
    (program >>= next).Uses allowed := by
  induction program with
  | pure value => exact rest value
  | call c tail inductionHypothesis =>
    exact ⟨first.1, fun reply => inductionHypothesis reply (first.2 reply)⟩

/-- Every path of admitted replies ends in a value that `accepts` holds of. -/
def Returns (admits : (c : C) → R c → Prop) (accepts : α → Prop) : Program C R α → Prop
  | .pure value => accepts value
  | .call c next => ∀ reply, admits c reply → (next reply).Returns admits accepts

@[simp] theorem returns_pure {admits : (c : C) → R c → Prop} {accepts : α → Prop} (value : α) :
    (Program.pure value : Program C R α).Returns admits accepts ↔ accepts value := Iff.rfl

@[simp] theorem returns_call {admits : (c : C) → R c → Prop} {accepts : α → Prop} (c : C)
    (next : R c → Program C R α) :
    (Program.call c next).Returns admits accepts ↔
      ∀ reply, admits c reply → (next reply).Returns admits accepts := Iff.rfl

theorem returns_of_forall {admits : (c : C) → R c → Prop} {accepts : α → Prop}
    (program : Program C R α) (every : ∀ value, accepts value) :
    program.Returns admits accepts := by
  induction program with
  | pure value => exact every value
  | call c next inductionHypothesis => exact fun reply _ => inductionHypothesis reply

theorem Returns.mono {admits admits' : (c : C) → R c → Prop} {accepts accepts' : α → Prop}
    {program : Program C R α} (returns : program.Returns admits accepts)
    (fewer : ∀ c reply, admits' c reply → admits c reply)
    (weaken : ∀ value, accepts value → accepts' value) : program.Returns admits' accepts' := by
  induction program with
  | pure value => exact weaken value returns
  | call c next inductionHypothesis =>
    exact fun reply admitted => inductionHypothesis reply (returns reply (fewer c reply admitted))

theorem Uses.mono {allowed allowed' : C → Prop} {program : Program C R α}
    (uses : program.Uses allowed) (weaken : ∀ c, allowed c → allowed' c) :
    program.Uses allowed' := by
  induction program with
  | pure value => exact trivial
  | call c next inductionHypothesis =>
    exact ⟨weaken c uses.1, fun reply => inductionHypothesis reply (uses.2 reply)⟩

/-- Every path of admitted replies makes a call of the target before it ends. -/
def Meets (admits : (c : C) → R c → Prop) (target : C → Prop) : Program C R α → Prop
  | .pure _ => False
  | .call c next => target c ∨ ∀ reply, admits c reply → (next reply).Meets admits target

section Meets

variable {admits : (c : C) → R c → Prop} {target : C → Prop}

/-- The first part of a program meets the target. -/
theorem Meets.bind {program : Program C R α} (meets : program.Meets admits target)
    (next : α → Program C R β) : (program >>= next).Meets admits target := by
  induction program with
  | pure value => exact False.elim meets
  | call c rest inductionHypothesis =>
    obtain met | later := meets
    · exact .inl met
    · exact .inr fun reply admitted => inductionHypothesis reply (later reply admitted)

/-- The rest of a program meets the target, whatever its first part returns. -/
theorem Returns.meets {accepts : α → Prop} {program : Program C R α} {next : α → Program C R β}
    (returns : program.Returns admits accepts)
    (rest : ∀ value, accepts value → (next value).Meets admits target) :
    (program >>= next).Meets admits target := by
  induction program with
  | pure value => exact rest value returns
  | call c tail inductionHypothesis =>
    exact .inr fun reply admitted => inductionHypothesis reply (returns reply admitted)

end Meets

/-- No path makes more than `bound` calls. -/
def Within : Program C R α → Nat → Prop
  | .pure _, _ => True
  | .call _ _, 0 => False
  | .call _ next, bound + 1 => ∀ reply, (next reply).Within bound

section Within

variable {bound more : Nat}

theorem Within.mono {program : Program C R α} (within : program.Within bound) (most : bound ≤ more) :
    program.Within more := by
  induction program generalizing bound more with
  | pure value => exact trivial
  | call c next inductionHypothesis =>
    cases bound with
    | zero => cases within
    | succ bound =>
      cases more with
      | zero => omega
      | succ more =>
        exact fun reply => inductionHypothesis reply (within reply) (Nat.le_of_succ_le_succ most)

/-- The calls of two parts add up. -/
theorem Within.bind {program : Program C R α} {next : α → Program C R β}
    (first : program.Within bound) (more : Nat) (rest : ∀ value, (next value).Within more) :
    (program >>= next).Within (bound + more) := by
  induction program generalizing bound with
  | pure value => exact (rest value).mono (Nat.le_add_left more bound)
  | call c tail inductionHypothesis =>
    cases bound with
    | zero => cases first
    | succ bound =>
      rw [Nat.succ_add]
      exact fun reply => inductionHypothesis reply (first reply)

end Within

/-- Every path makes at most `bound` calls, all of them `allowed`. -/
structure Spends (allowed : C → Prop) (program : Program C R α) (bound : Nat) : Prop where
  uses : program.Uses allowed
  within : program.Within bound

section Spends

variable {allowed : C → Prop} {bound more : Nat}

theorem Spends.done (value : α) : Spends allowed (.pure value : Program C R α) bound :=
  ⟨trivial, trivial⟩

theorem Spends.step {c : C} {next : R c → Program C R α} (first : allowed c)
    (rest : ∀ reply, Spends allowed (next reply) bound) : Spends allowed (.call c next) (bound + 1) :=
  ⟨⟨first, fun reply => (rest reply).uses⟩, fun reply => (rest reply).within⟩

theorem Spends.mono {program : Program C R α} (spends : Spends allowed program bound)
    (most : bound ≤ more) : Spends allowed program more :=
  ⟨spends.uses, spends.within.mono most⟩

theorem Spends.bind {program : Program C R α} {next : α → Program C R β}
    (first : Spends allowed program bound) (more : Nat)
    (rest : ∀ value, Spends allowed (next value) more) :
    Spends allowed (program >>= next) (bound + more) :=
  ⟨uses_bind first.uses fun value => (rest value).uses,
    first.within.bind more fun value => (rest value).within⟩

end Spends

/-! ## Protocols with a state -/

/-- Every call is permitted in the state the protocol has reached, and the state and the value a
path ends in are `final`. -/
def Follows {σ : Type} (permits : σ → C → Prop) (advance : σ → (c : C) → R c → σ)
    (admits : (c : C) → R c → Prop) (final : α → σ → Prop) : σ → Program C R α → Prop
  | state, .pure value => final value state
  | state, .call c next => permits state c ∧ ∀ reply, admits c reply →
      (next reply).Follows permits advance admits final (advance state c reply)

section Follows

variable {σ : Type} {permits : σ → C → Prop} {advance : σ → (c : C) → R c → σ}
variable {admits : (c : C) → R c → Prop} {final : α → σ → Prop}

@[simp] theorem follows_pure (state : σ) (value : α) :
    (Program.pure value : Program C R α).Follows permits advance admits final state ↔
      final value state := Iff.rfl

@[simp] theorem follows_call (state : σ) (c : C) (next : R c → Program C R α) :
    (Program.call c next).Follows permits advance admits final state ↔
      permits state c ∧ ∀ reply, admits c reply →
        (next reply).Follows permits advance admits final (advance state c reply) := Iff.rfl

theorem follows_bind {final : β → σ → Prop} (program : Program C R α)
    (next : α → Program C R β) (state : σ) :
    (program >>= next).Follows permits advance admits final state ↔
      program.Follows permits advance admits
        (fun value state => (next value).Follows permits advance admits final state) state := by
  induction program generalizing state with
  | pure value => rfl
  | call c rest inductionHypothesis => simp only [call_bind, follows_call, inductionHypothesis]

theorem Follows.mono {final' : α → σ → Prop} {program : Program C R α} {state : σ}
    (follows : program.Follows permits advance admits final state)
    (weaken : ∀ value state, final value state → final' value state) :
    program.Follows permits advance admits final' state := by
  induction program generalizing state with
  | pure value => exact weaken value state follows
  | call c rest inductionHypothesis =>
    exact ⟨follows.1, fun reply admitted => inductionHypothesis reply (follows.2 reply admitted)⟩

/-- A program follows `first` and then `next` if its first part ends in states `next` starts in. -/
theorem Follows.bind {middle : α → σ → Prop} {final : β → σ → Prop} {program : Program C R α}
    {next : α → Program C R β} {state : σ}
    (first : program.Follows permits advance admits middle state)
    (rest : ∀ value state, middle value state →
      (next value).Follows permits advance admits final state) :
    (program >>= next).Follows permits advance admits final state :=
  (follows_bind program next state).mpr (first.mono rest)

/-- A program whose calls keep the protocol's state within `keeps`. -/
theorem Uses.follows_within {allowed : C → Prop} {accepts : α → Prop} {program : Program C R α}
    {state : σ} (keeps : σ → Prop) (uses : program.Uses allowed)
    (returns : program.Returns admits accepts) (held : keeps state)
    (permitted : ∀ state c, keeps state → allowed c → permits state c)
    (kept : ∀ state c reply, keeps state → allowed c → keeps (advance state c reply)) :
    program.Follows permits advance admits
      (fun value last => keeps last ∧ accepts value) state := by
  induction program generalizing state with
  | pure value => exact ⟨held, returns⟩
  | call c rest inductionHypothesis =>
    obtain ⟨callAllowed, restUses⟩ := uses
    refine ⟨permitted state c held callAllowed, fun reply admitted => ?_⟩
    exact inductionHypothesis reply (restUses reply) (returns reply admitted)
      (kept state c reply held callAllowed)

/-- A program whose calls leave the protocol's state alone. -/
theorem Uses.follows {allowed : C → Prop} {accepts : α → Prop} {program : Program C R α}
    {state : σ} (uses : program.Uses allowed) (returns : program.Returns admits accepts)
    (permitted : ∀ c, allowed c → permits state c)
    (stays : ∀ c reply, allowed c → advance state c reply = state) :
    program.Follows permits advance admits
      (fun value last => last = state ∧ accepts value) state := by
  apply uses.follows_within (fun last => last = state) returns rfl
  · intro last c same callAllowed
    subst same
    exact permitted c callAllowed
  · intro last c reply same callAllowed
    subst same
    exact stays c reply callAllowed

end Follows

/-! ## Running alone -/

section Alone

variable {E S : Type}

/-- The precondition under which the program, run alone from a store in which the environment
makes only admitted choices, ends in a state that satisfies `post`. -/
def wp (run : E → S → (c : C) → R c × S) (chooses : (c : C) → E → Prop) :
    Program C R α → (α → S → Prop) → S → Prop
  | .pure value, post, store => post value store
  | .call c next, post, store => ∀ choice, chooses c choice →
      (next (run choice store c).1).wp run chooses post (run choice store c).2

variable {run : E → S → (c : C) → R c × S} {chooses : (c : C) → E → Prop}

@[simp] theorem wp_pure (value : α) (post : α → S → Prop) (store : S) :
    (Program.pure value : Program C R α).wp run chooses post store ↔ post value store := Iff.rfl

@[simp] theorem wp_call (c : C) (next : R c → Program C R α) (post : α → S → Prop) (store : S) :
    (Program.call c next).wp run chooses post store ↔
      ∀ choice, chooses c choice →
        (next (run choice store c).1).wp run chooses post (run choice store c).2 := Iff.rfl

theorem wp_bind (program : Program C R α) (next : α → Program C R β) (post : β → S → Prop)
    (store : S) :
    (program >>= next).wp run chooses post store ↔
      program.wp run chooses (fun value => (next value).wp run chooses post) store := by
  induction program generalizing store with
  | pure value => rfl
  | call c rest inductionHypothesis => simp only [call_bind, wp_call, inductionHypothesis]

theorem wp_mono {post post' : α → S → Prop} {program : Program C R α} {store : S}
    (holds : program.wp run chooses post store)
    (weaken : ∀ value store, post value store → post' value store) :
    program.wp run chooses post' store := by
  induction program generalizing store with
  | pure value => exact weaken value store holds
  | call c rest inductionHypothesis =>
    exact fun choice chosen => inductionHypothesis _ (holds choice chosen)

/-- Fewer choices reach fewer ends. -/
theorem wp_weaken {chooses' : (c : C) → E → Prop} {post : α → S → Prop} {program : Program C R α}
    {store : S} (holds : program.wp run chooses post store)
    (fewer : ∀ c choice, chooses' c choice → chooses c choice) :
    program.wp run chooses' post store := by
  induction program generalizing store with
  | pure value => exact holds
  | call c rest inductionHypothesis =>
    exact fun choice chosen => inductionHypothesis _ (holds choice (fewer c choice chosen))

theorem wp_of_forall {post : α → S → Prop} (program : Program C R α) (store : S)
    (every : ∀ value store, post value store) : program.wp run chooses post store := by
  induction program generalizing store with
  | pure value => exact every value store
  | call c rest inductionHypothesis => exact fun choice _ => inductionHypothesis _ _

theorem wp_and {post post' : α → S → Prop} {program : Program C R α} {store : S}
    (left : program.wp run chooses post store) (right : program.wp run chooses post' store) :
    program.wp run chooses (fun value store => post value store ∧ post' value store) store := by
  induction program generalizing store with
  | pure value => exact ⟨left, right⟩
  | call c rest inductionHypothesis =>
    exact fun choice chosen => inductionHypothesis _ (left choice chosen) (right choice chosen)

/-- Where a program ends that runs alone, if `chosen` makes the choice of each call. -/
def ends (run : E → S → (c : C) → R c × S) (chosen : C → E) : Program C R α → S → α × S
  | .pure value, store => (value, store)
  | .call c next, store =>
    (next (run (chosen c) store c).1).ends run chosen (run (chosen c) store c).2

theorem wp_at_ends {chosen : C → E} (serves : ∀ c, chooses c (chosen c)) {post : α → S → Prop}
    {program : Program C R α} {store : S} (holds : program.wp run chooses post store) :
    post (program.ends run chosen store).1 (program.ends run chosen store).2 := by
  induction program generalizing store with
  | pure value => exact holds
  | call c rest inductionHypothesis => exact inductionHypothesis _ (holds _ (serves c))

/-- Where each call has a choice, a program that runs alone ends. -/
theorem wp_ends (serves : ∀ c, ∃ choice, chooses c choice) {post : α → S → Prop}
    {program : Program C R α} {store : S} (holds : program.wp run chooses post store) :
    ∃ value last, post value last :=
  ⟨_, _, wp_at_ends (fun c => Classical.choose_spec (serves c)) holds⟩

/-- A first part that always ends in the same value and leaves the store alone can be skipped. -/
theorem wp_bind_of_determined (serves : ∀ c, ∃ choice, chooses c choice)
    {program : Program C R α} {next : α → Program C R β} {post : β → S → Prop} {store : S} {value : α}
    (determined : program.wp run chooses (fun found last => found = value ∧ last = store) store) :
    (program >>= next).wp run chooses post store ↔ (next value).wp run chooses post store := by
  rw [wp_bind]
  constructor
  · intro holds
    obtain ⟨_, _, ⟨rfl, rfl⟩, rest⟩ := wp_ends serves (wp_and determined holds)
    exact rest
  · intro holds
    refine wp_mono determined ?_
    rintro _ _ ⟨rfl, rfl⟩
    exact holds

/-- Every attempt that is made starts where `pending` holds, and the last of them ends as `post`
says. -/
theorem wp_retrying {again : α → Bool} {attempt : Nat → Program C R α} (pending : Nat → S → Prop)
    {post : Nat → α → S → Prop}
    (attempted : ∀ n store, pending n store → (attempt n).wp run chooses
      (fun value last => post n value last ∧ (again value = true → pending (n + 1) last)) store)
    (left n : Nat) {store : S} (base : pending n store) :
    (retrying again attempt left n).wp run chooses
      (fun value last => ∃ m, m ≤ n + left ∧ post m value last) store := by
  induction left generalizing n store with
  | zero =>
    apply wp_mono (attempted n store base)
    intro value last ends
    exact ⟨n, Nat.le_refl n, ends.1⟩
  | succ left inductionHypothesis =>
    apply (wp_bind ..).mpr
    apply wp_mono (attempted n store base)
    intro value last ends
    obtain ⟨ended, further⟩ := ends
    split
    · next asks =>
      apply wp_mono (inductionHypothesis (n + 1) (further asks))
      intro value last found
      obtain ⟨m, bound, ended⟩ := found
      exact ⟨m, by omega, ended⟩
    · exact ⟨n, Nat.le_add_right .., ended⟩

/-- What every call of a program keeps holds when the program ends. -/
theorem Uses.wp_keeps {allowed : C → Prop} {program : Program C R α} {store : S}
    (uses : program.Uses allowed) (holds : S → Prop) (held : holds store)
    (keeps : ∀ store c choice, allowed c → chooses c choice → holds store →
      holds (run choice store c).2) :
    program.wp run chooses (fun _ last => holds last) store := by
  induction program generalizing store with
  | pure value => exact held
  | call c rest inductionHypothesis =>
    intro choice chosen
    exact inductionHypothesis _ (uses.2 _) (keeps store c choice uses.1 chosen held)

/-- A program whose calls leave the store alone ends in the store it began with. -/
theorem Uses.wp {allowed : C → Prop} {program : Program C R α} {store : S}
    (uses : program.Uses allowed)
    (stays : ∀ c choice, allowed c → (run choice store c).2 = store) :
    program.wp run chooses (fun _ last => last = store) store := by
  apply uses.wp_keeps (fun last => last = store) rfl
  intro current c choice permitted _ same
  subst same
  exact stays c choice permitted

/-- Run alone, a program that keeps to a protocol ends where the protocol does, if every call keeps
the store in step with the protocol's state. -/
theorem Follows.wp {σ : Type} {permits : σ → C → Prop} {advance : σ → (c : C) → R c → σ}
    {admits : (c : C) → R c → Prop} {final : α → σ → Prop} {program : Program C R α} {state : σ}
    {store : S} (tracks : σ → S → Prop)
    (follows : program.Follows permits advance admits final state) (tracked : tracks state store)
    (called : ∀ state store c choice, permits state c → chooses c choice → tracks state store →
      admits c (run choice store c).1 ∧
        tracks (advance state c (run choice store c).1) (run choice store c).2) :
    program.wp run chooses (fun value last => ∃ state, final value state ∧ tracks state last)
      store := by
  induction program generalizing state store with
  | pure value => exact ⟨state, follows, tracked⟩
  | call c rest inductionHypothesis =>
    intro choice chosen
    obtain ⟨admitted, tracked⟩ := called state store c choice follows.1 chosen tracked
    exact inductionHypothesis _ (follows.2 _ admitted) tracked

/-- How a program that ran alone ended: its value, the store, and the choices that are left. -/
structure Played (E S α : Type) where
  value : α
  store : S
  choices : Nat → E

/-- Runs a program alone; the environment makes its choices in their order, one for each call. -/
def play (run : E → S → (c : C) → R c × S) : Program C R α → (Nat → E) → S → Played E S α
  | .pure value, choices, store => ⟨value, store, choices⟩
  | .call c next, choices, store =>
    (next (run (choices 0) store c).1).play run (fun n => choices (n + 1)) (run (choices 0) store c).2

@[simp] theorem play_pure (value : α) (choices : Nat → E) (store : S) :
    (Program.pure value : Program C R α).play run choices store = ⟨value, store, choices⟩ := rfl

@[simp] theorem play_call (c : C) (next : R c → Program C R α) (choices : Nat → E) (store : S) :
    (Program.call c next).play run choices store =
      (next (run (choices 0) store c).1).play run (fun n => choices (n + 1))
        (run (choices 0) store c).2 := rfl

theorem play_bind (program : Program C R α) (next : α → Program C R β) (choices : Nat → E) (store : S) :
    (program >>= next).play run choices store =
      (next (program.play run choices store).value).play run (program.play run choices store).choices
        (program.play run choices store).store := by
  induction program generalizing choices store with
  | pure value => rfl
  | call c rest inductionHypothesis => simp only [call_bind, play_call, inductionHypothesis]

/-! ## Triples -/

/-- Run alone from a store that satisfies `pre`, the program ends as `post` says. -/
def Leads (run : E → S → (c : C) → R c × S) (chooses : (c : C) → E → Prop) (pre : S → Prop)
    (program : Program C R α) (post : α → S → Prop) : Prop :=
  ∀ store, pre store → program.wp run chooses post store

variable {pre : S → Prop} {program : Program C R α} {post : α → S → Prop}

theorem leads_call {c : C} {next : R c → Program C R α} (middle : R c → S → Prop)
    (called : ∀ store choice, pre store → chooses c choice →
      middle (run choice store c).1 (run choice store c).2)
    (rest : ∀ reply, Leads run chooses (middle reply) (next reply) post) :
    Leads run chooses pre (.call c next) post :=
  fun store holds choice chosen => rest _ _ (called store choice holds chosen)

theorem leads_bind {next : α → Program C R β} {last : β → S → Prop}
    (first : Leads run chooses pre program post)
    (rest : ∀ value, Leads run chooses (post value) (next value) last) :
    Leads run chooses pre (program >>= next) last :=
  fun store holds => (wp_bind ..).mpr (wp_mono (first store holds) rest)

end Alone

end Program

end Taskfire.Library
