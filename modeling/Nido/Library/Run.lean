/-
Runs of a transactional machine.

A machine is a partial step function: an input that the machine rejects leaves
the state as it was, which is how a ledger rolls back a failed call. A run is a
finite list of inputs; its states are indexed by the number of inputs consumed.
The rules below turn facts about one accepted step into facts about every state
of every run.
-/

import Mathlib.Data.Nat.Init

namespace Run

variable {σ ι : Type*} (step : σ → ι → Option σ)

/-- A rejected input is rolled back. -/
def advance (state : σ) (input : ι) : σ := (step state input).getD state

def execute (start : σ) (inputs : List ι) : σ := inputs.foldl (advance step) start

def stateAt (start : σ) (inputs : List ι) (time : Nat) : σ :=
  execute step start (inputs.take time)

/-- Input number `time` of the run is `input`, and the machine takes it to `after`. -/
structure Accepts (start : σ) (inputs : List ι) (time : Nat) (input : ι) (after : σ) : Prop where
  input_at : inputs[time]? = some input
  steps : step (stateAt step start inputs time) input = some after

variable {step} {start : σ} {inputs : List ι}

theorem stateAt_succ (time : Nat) (input : ι) (present : inputs[time]? = some input) :
    stateAt step start inputs (time + 1) = advance step (stateAt step start inputs time) input := by
  unfold stateAt execute
  rw [List.take_add_one, present]
  simp only [Option.toList_some, List.foldl_append, List.foldl_cons, List.foldl_nil]

theorem stateAt_succ_of_end (time : Nat) (absent : inputs[time]? = none) :
    stateAt step start inputs (time + 1) = stateAt step start inputs time := by
  unfold stateAt
  rw [List.take_add_one, absent]
  simp only [Option.toList_none, List.append_nil]

theorem Accepts.stateAt_succ {time : Nat} {input : ι} {after : σ}
    (accepted : Accepts step start inputs time input after) :
    stateAt step start inputs (time + 1) = after := by
  rw [Run.stateAt_succ time input accepted.input_at, advance, accepted.steps]
  rfl

theorem Accepts.here {time : Nat} {input : ι} {after : σ}
    (accepted : Accepts step start inputs time input after) :
    Accepts step start inputs time input (stateAt step start inputs (time + 1)) := by
  rw [accepted.stateAt_succ]
  exact accepted

theorem stateAt_succ_cases (step : σ → ι → Option σ) (start : σ) (inputs : List ι) (time : Nat) :
    stateAt step start inputs (time + 1) = stateAt step start inputs time ∨
      ∃ input, Accepts step start inputs time input (stateAt step start inputs (time + 1)) := by
  cases present : inputs[time]? with
  | none => exact Or.inl (stateAt_succ_of_end time present)
  | some input =>
      cases stepped : step (stateAt step start inputs time) input with
      | none =>
          left
          rw [stateAt_succ time input present, advance, stepped]
          rfl
      | some after =>
          right
          have accepted : Accepts step start inputs time input after := ⟨present, stepped⟩
          exact ⟨input, accepted.stateAt_succ.symm ▸ accepted⟩

variable (step start inputs) in
def Always (P : σ → Prop) : Prop := ∀ time, P (stateAt step start inputs time)

theorem always_nil {P : σ → Prop} : Always step start [] P ↔ P start := by
  simp only [Always, stateAt, List.take_nil, execute, List.foldl_nil, forall_const]

theorem always_cons {P : σ → Prop} (input : ι) :
    Always step start (input :: inputs) P ↔
      P start ∧ Always step (advance step start input) inputs P := by
  constructor
  · intro always
    exact ⟨always 0, fun time => always (time + 1)⟩
  · rintro ⟨first, later⟩ time
    cases time with
    | zero => exact first
    | succ time => exact later time

/-- What every accepted input keeps holds from the first state on. The step may
use that its input belongs to the run. -/
theorem invariant {Inv : σ → Prop} (initial : Inv start)
    (preserved : ∀ time input after, Inv (stateAt step start inputs time) →
      Accepts step start inputs time input after → Inv after) (time : Nat) :
    Inv (stateAt step start inputs time) := by
  induction time with
  | zero => exact initial
  | succ time ih =>
      rcases stateAt_succ_cases step start inputs time with
        unchanged | ⟨input, accepted⟩
      · rw [unchanged]
        exact ih
      · exact preserved time input _ ih accepted

/-- From some time on, an invariant needs only the steps since then. -/
theorem invariant_from {Inv : σ → Prop} {early late : Nat} (ordered : early ≤ late)
    (holds : Inv (stateAt step start inputs early))
    (preserved : ∀ time input after, early ≤ time → time < late →
      Inv (stateAt step start inputs time) →
      Accepts step start inputs time input after → Inv after) :
    Inv (stateAt step start inputs late) := by
  induction late, ordered using Nat.le_induction with
  | base => exact holds
  | succ late after ih =>
      have before := ih (fun time input state from_ upto =>
        preserved time input state from_ (Nat.lt_succ_of_lt upto))
      rcases stateAt_succ_cases step start inputs late with
        unchanged | ⟨input, accepted⟩
      · rw [unchanged]
        exact before
      · exact preserved late input _ after (Nat.lt_succ_self late) before accepted

variable (step start inputs) in
/-- The accepted inputs among the first `time`, oldest first. -/
def history : (time : Nat) → List ι
  | 0 => []
  | time + 1 =>
      match inputs[time]? with
      | none => history time
      | some input =>
          if (step (stateAt step start inputs time) input).isSome then
            history time ++ [input]
          else
            history time

theorem Accepts.history_succ {time : Nat} {input : ι} {after : σ}
    (accepted : Accepts step start inputs time input after) :
    history step start inputs (time + 1) = history step start inputs time ++ [input] := by
  simp only [history, accepted.input_at, accepted.steps, Option.isSome_some, if_true]

theorem history_succ_of_not {time : Nat}
    (rejected : ∀ input after, ¬ Accepts step start inputs time input after) :
    history step start inputs (time + 1) = history step start inputs time ∧
      stateAt step start inputs (time + 1) = stateAt step start inputs time := by
  constructor
  · simp only [history]
    cases present : inputs[time]? with
    | none => rfl
    | some input =>
        apply if_neg
        intro succeeds
        obtain ⟨after, stepped⟩ := Option.isSome_iff_exists.mp succeeds
        exact rejected input after ⟨present, stepped⟩
  · rcases stateAt_succ_cases step start inputs time with unchanged | ⟨input, accepted⟩
    · exact unchanged
    · exact absurd accepted (rejected input _)

/-- An invariant may also speak of what has been accepted so far. -/
theorem invariant_history {Inv : σ → List ι → Prop} (initial : Inv start [])
    (preserved : ∀ time input after,
      Inv (stateAt step start inputs time) (history step start inputs time) →
      Accepts step start inputs time input after →
      Inv after (history step start inputs time ++ [input])) (time : Nat) :
    Inv (stateAt step start inputs time) (history step start inputs time) := by
  induction time with
  | zero => exact initial
  | succ time ih =>
      by_cases some_ : ∃ input after, Accepts step start inputs time input after
      · obtain ⟨input, after, accepted⟩ := some_
        rw [accepted.history_succ, accepted.stateAt_succ]
        exact preserved time input after ih accepted
      · have rejected : ∀ input after, ¬ Accepts step start inputs time input after :=
          fun input after accepted => some_ ⟨input, after, accepted⟩
        obtain ⟨sameHistory, sameState⟩ := history_succ_of_not rejected
        rw [sameHistory, sameState]
        exact ih

theorem persistent {Stable : σ → Prop}
    (preserved : ∀ state input after, Stable state → step state input = some after → Stable after)
    {early late : Nat} (ordered : early ≤ late)
    (holds : Stable (stateAt step start inputs early)) :
    Stable (stateAt step start inputs late) := by
  induction late, ordered using Nat.le_induction with
  | base => exact holds
  | succ late _ ih =>
      rcases stateAt_succ_cases step start inputs late with
        unchanged | ⟨input, accepted⟩
      · rw [unchanged]
        exact ih
      · exact preserved _ input _ ih accepted.steps

/-- A property that is false at the start and true later was established by an
accepted input, and one such input is the last: from it on the property held. -/
theorem established {Holds : σ → Prop} (initially : ¬ Holds start) {late : Nat}
    (finally_ : Holds (stateAt step start inputs late)) :
    ∃ time < late, ∃ input,
      Accepts step start inputs time input (stateAt step start inputs (time + 1)) ∧
      ¬ Holds (stateAt step start inputs time) ∧
      ∀ between, time < between → between ≤ late → Holds (stateAt step start inputs between) := by
  induction late with
  | zero => exact absurd finally_ initially
  | succ late ih =>
      by_cases before : Holds (stateAt step start inputs late)
      · obtain ⟨time, earlier, input, accepted, absent, kept⟩ := ih before
        refine ⟨time, Nat.lt_succ_of_lt earlier, input, accepted, absent, ?_⟩
        intro between after upto
        rcases Nat.lt_or_eq_of_le upto with inside | atEnd
        · exact kept between after (Nat.le_of_lt_succ inside)
        · rw [atEnd]
          exact finally_
      · rcases stateAt_succ_cases step start inputs late with
          unchanged | ⟨input, accepted⟩
        · rw [unchanged] at finally_
          exact absurd finally_ before
        · refine ⟨late, Nat.lt_succ_self late, input, accepted, before, ?_⟩
          intro between after upto
          have atEnd : between = late + 1 := by omega
          rw [atEnd]
          exact finally_

end Run
