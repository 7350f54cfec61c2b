/-
Programs that act on a world, may fail, and may be cut off.

A program that fails hands an error to the next handler; one that is cut off ends
at once, whatever handlers surround it. In both cases what it did to the world
stays. The rules below keep an invariant of the world at every point at which a
program can end, and carry an assertion from each action to the next one.
-/

import Mathlib.Init

namespace Effect

variable {σ ε α β : Type}

inductive Outcome (ε α : Type)
  | returned (value : α)
  | threw (error : ε)
  | cutOff

/-- A program over a world `σ` with errors `ε`. -/
def Prog (σ ε α : Type) : Type := σ → Outcome ε α × σ

def Prog.run (prog : Prog σ ε α) (world : σ) : Outcome ε α × σ := prog world

protected def pure (value : α) : Prog σ ε α := fun world => (.returned value, world)

protected def bind (first : Prog σ ε α) (next : α → Prog σ ε β) : Prog σ ε β := fun world =>
  match first.run world with
  | (.returned value, after) => (next value).run after
  | (.threw error, after) => (.threw error, after)
  | (.cutOff, after) => (.cutOff, after)

instance : Monad (Prog σ ε) where
  pure := Effect.pure
  bind := Effect.bind

def throw (error : ε) : Prog σ ε α := fun world => (.threw error, world)

/-- The result of a program that may fail: an error becomes a value. -/
def attempt (prog : Prog σ ε α) : Prog σ ε (Except ε α) := fun world =>
  match prog.run world with
  | (.returned value, after) => (.returned (.ok value), after)
  | (.threw error, after) => (.returned (.error error), after)
  | (.cutOff, after) => (.cutOff, after)

def lift : Except ε α → Prog σ ε α
  | .ok value => Effect.pure value
  | .error error => throw error

theorem run_bind_returned {first : Prog σ ε α} {next : α → Prog σ ε β} {world after : σ}
    {value : α} (ran : first.run world = (.returned value, after)) :
    (first >>= next).run world = (next value).run after := by
  change Effect.bind first next world = _
  unfold Effect.bind
  rw [ran]

theorem run_bind_cutOff {first : Prog σ ε α} {next : α → Prog σ ε β} {world after : σ}
    (ran : first.run world = (.cutOff, after)) :
    (first >>= next).run world = (.cutOff, after) := by
  change Effect.bind first next world = _
  unfold Effect.bind
  rw [ran]

/-- From a world with `Inv` and `Pre` the program ends in a world with `Inv`, however it ends,
and if it returns a value it leaves `Post`. -/
def Keeps (Inv Pre : σ → Prop) (prog : Prog σ ε α) (Post : α → σ → Prop) : Prop :=
  ∀ world, Inv world → Pre world →
    Inv (prog.run world).2 ∧
      ∀ value, (prog.run world).1 = .returned value → Post value (prog.run world).2

variable {Inv Pre : σ → Prop}

theorem keeps_pure {value : α} {Post : α → σ → Prop}
    (post : ∀ world, Inv world → Pre world → Post value world) :
    Keeps Inv Pre (pure value : Prog σ ε α) Post := by
  intro world holds pre
  refine ⟨holds, ?_⟩
  intro other same
  cases same
  exact post world holds pre

theorem keeps_throw {error : ε} {Post : α → σ → Prop} :
    Keeps Inv Pre (throw error : Prog σ ε α) Post := by
  intro world holds pre
  refine ⟨holds, ?_⟩
  intro value impossible
  cases impossible

theorem keeps_lift {result : Except ε α} {Post : α → σ → Prop}
    (post : ∀ value, result = .ok value → ∀ world, Inv world → Pre world → Post value world) :
    Keeps Inv Pre (lift result : Prog σ ε α) Post := by
  cases result with
  | ok value => exact keeps_pure (post value rfl)
  | error error => exact keeps_throw

theorem keeps_bind {first : Prog σ ε α} {next : α → Prog σ ε β} {Mid : α → σ → Prop}
    {Post : β → σ → Prop} (begins : Keeps Inv Pre first Mid)
    (continues : ∀ value, Keeps Inv (Mid value) (next value) Post) :
    Keeps Inv Pre (first >>= next) Post := by
  intro world holds pre
  obtain ⟨kept, mid⟩ := begins world holds pre
  change Inv (Effect.bind first next world).2 ∧
    ∀ value, (Effect.bind first next world).1 = .returned value →
      Post value (Effect.bind first next world).2
  unfold Effect.bind
  rcases ran : first.run world with ⟨outcome, after⟩
  rw [ran] at kept mid
  cases outcome with
  | returned value => exact continues value after kept (mid value rfl)
  | threw error =>
      refine ⟨kept, ?_⟩
      intro value impossible
      cases impossible
  | cutOff =>
      refine ⟨kept, ?_⟩
      intro value impossible
      cases impossible

/-- A handler sees either the program's value or only the invariant. -/
theorem keeps_attempt {prog : Prog σ ε α} {Post : α → σ → Prop}
    (runs : Keeps Inv Pre prog Post) :
    Keeps Inv Pre (attempt prog)
      (fun result world => ∀ value, result = .ok value → Post value world) := by
  intro world holds pre
  obtain ⟨kept, post⟩ := runs world holds pre
  change Inv (attempt prog world).2 ∧ ∀ result, (attempt prog world).1 = .returned result →
    ∀ value, result = .ok value → Post value (attempt prog world).2
  unfold attempt
  rcases ran : prog.run world with ⟨outcome, after⟩
  rw [ran] at kept post
  cases outcome with
  | returned value =>
      refine ⟨kept, ?_⟩
      intro result same other isValue
      cases same
      cases isValue
      exact post value rfl
  | threw error =>
      refine ⟨kept, ?_⟩
      intro result same other isValue
      cases same
      cases isValue
  | cutOff =>
      refine ⟨kept, ?_⟩
      intro result impossible
      cases impossible

theorem Keeps.weaken {prog : Prog σ ε α} {Pre' : σ → Prop} {Post Post' : α → σ → Prop}
    (runs : Keeps Inv Pre prog Post) (stronger : ∀ world, Inv world → Pre' world → Pre world)
    (weaker : ∀ value world, Inv world → Post value world → Post' value world) :
    Keeps Inv Pre' prog Post' := by
  intro world holds pre
  obtain ⟨kept, post⟩ := runs world holds (stronger world holds pre)
  exact ⟨kept, fun value same => weaker value _ kept (post value same)⟩

/-- A fact that the first world shows may be used of the program. -/
theorem keeps_of_fact {prog : Prog σ ε α} {Post : α → σ → Prop} {fact : Prop}
    (known : ∀ world, Inv world → Pre world → fact) (runs : fact → Keeps Inv Pre prog Post) :
    Keeps Inv Pre prog Post := by
  intro world holds pre
  exact runs (known world holds pre) world holds pre

/-- What is kept whatever happens may be assumed at the start and found at the end. -/
theorem Keeps.fix {prog : Prog σ ε α} {Kept : σ → Prop} {Post : α → σ → Prop}
    (runs : Keeps (fun world => Inv world ∧ Kept world) Pre prog Post) :
    Keeps Inv (fun world => Kept world ∧ Pre world) prog
      (fun value world => Kept world ∧ Post value world) := by
  intro world holds pre
  obtain ⟨⟨inv, kept⟩, post⟩ := runs world ⟨holds, pre.1⟩ pre.2
  exact ⟨inv, fun value same => ⟨kept, post value same⟩⟩

end Effect
