/-
Recent events, read backward from the tip of the chain.

The node answers one bounded range of ledgers at a time, oldest event first, and
cuts a long answer. The walk takes the newest range first, shrinks a range that was
refused or cut, and stops at the first one that it cannot read whole.
-/

import Mathlib.Data.List.Perm.Basic

namespace Nido.Frontend

def chunkLedgers : Nat := 9000

def minChunkLedgers : Nat := 1000

def pageLimit : Nat := 1000

/-- What a request was rejected with: an error with its message, or anything else. -/
abbrev Rejection := Option String

/-- A node: the matching events of its chain in the order of their ledgers, and the
requests that it refuses. A request is known by its number as well, so that the same
range can fail once and be read later. -/
structure EventServer (Event : Type) where
  ledger : Event → Nat
  matching : List Event
  ascending : matching.Pairwise (fun earlier later => ledger earlier ≤ ledger later)
  latestLedger : Except Rejection Nat
  refusal : (request startLedger endLedger : Nat) → Option Rejection

namespace EventServer

variable {Event : Type} (server : EventServer Event)

def between (first last : Nat) : List Event :=
  server.matching.filter (fun event =>
    decide (first ≤ server.ledger event) && decide (server.ledger event ≤ last))

def getEvents (request startLedger endLedger limit : Nat) : Except Rejection (List Event) :=
  match server.refusal request startLedger endLedger with
  | some rejection => .error rejection
  | none => .ok ((server.between startLedger endLedger).take limit)

/-- A request that is refused, or whose answer fills a page. -/
def Unreadable (request startLedger endLedger : Nat) : Prop :=
  (server.refusal request startLedger endLedger).isSome = true ∨
    pageLimit ≤ (server.between startLedger endLedger).length

end EventServer

/-- `chunk < maxChunks`; an infinite maximum is nothing. -/
def belowMax (chunk : Nat) : Option Nat → Bool
  | none => true
  | some maxChunks => decide (chunk < maxChunks)

def chunkStart (endLedger span : Nat) : Nat := max 1 (endLedger + 1 - span)

/-- What the attempts at a chunk end with: its events and its first ledger, or the last
rejection; and the number of the next request. -/
structure ChunkRead (Event : Type) where
  result : Except Rejection (List Event × Nat)
  requests : Nat

section Walk

variable {Event : Type} (server : EventServer Event)

def readChunk (endLedger : Nat) (span request : Nat) (lastError : Rejection) : ChunkRead Event :=
  if minChunkLedgers ≤ span then
    match server.getEvents request (chunkStart endLedger span) endLedger pageLimit with
    | .ok events =>
        if events.length ≥ pageLimit then
          readChunk endLedger (span / 3) (request + 1) (some "getEvents page overflow")
        else
          { result := .ok (events, chunkStart endLedger span), requests := request + 1 }
    | .error rejection => readChunk endLedger (span / 3) (request + 1) rejection
  else
    { result := .error lastError, requests := request }
termination_by span
decreasing_by
  all_goals
    have positive : 0 < minChunkLedgers := by decide
    omega

theorem getEvents_eq_ok {request start endLedger limit : Nat} {events : List Event}
    (answered : server.getEvents request start endLedger limit = .ok events) :
    events = (server.between start endLedger).take limit := by
  unfold EventServer.getEvents at answered
  split at answered
  next => cases answered
  next =>
    cases answered
    rfl

theorem between_of_short {request start endLedger : Nat} {events : List Event}
    (answered : server.getEvents request start endLedger pageLimit = .ok events)
    (short : events.length < pageLimit) : events = server.between start endLedger := by
  rw [getEvents_eq_ok server answered] at short ⊢
  apply List.take_of_length_le
  rw [List.length_take] at short
  omega

theorem readChunk_ok {endLedger span request start : Nat} {lastError : Rejection}
    {events : List Event}
    (read : (readChunk server endLedger span request lastError).result = .ok (events, start)) :
    events = server.between start endLedger ∧ 1 ≤ start ∧
      (1 ≤ endLedger → start ≤ endLedger) := by
  fun_induction readChunk with
  | case1 span request lastError large events answered full ih => exact ih read
  | case2 span request lastError large page answered short =>
      injection read with both
      injection both with samePage sameStart
      subst samePage sameStart
      refine ⟨between_of_short server answered (Nat.lt_of_not_le short),
        Nat.le_max_left _ _, ?_⟩
      intro positive
      have spanPositive : minChunkLedgers ≤ span := large
      unfold chunkStart
      unfold minChunkLedgers at spanPositive
      omega
  | case3 span request lastError large rejection refused ih => exact ih read
  | case4 => cases read

theorem readChunk_error {endLedger span request : Nat} {lastError rejection : Rejection}
    (failed : (readChunk server endLedger span request lastError).result = .error rejection) :
    minChunkLedgers ≤ span →
      server.Unreadable request (chunkStart endLedger span) endLedger ∧
      ∃ next, (readChunk server endLedger (span / 3) (request + 1) next).result =
        .error rejection := by
  intro large
  rw [readChunk, if_pos large] at failed
  split at failed
  next events answered =>
    split at failed
    next full =>
      refine ⟨Or.inr ?_, _, failed⟩
      rw [getEvents_eq_ok server answered, List.length_take] at full
      omega
    next => cases failed
  next other refused =>
    refine ⟨Or.inl ?_, _, failed⟩
    unfold EventServer.getEvents at refused
    split at refused
    next given =>
      rw [given]
      rfl
    next => cases refused

/-- The spans that are tried, each a third of the one before. -/
def triedSpans : List Nat := [chunkLedgers, chunkLedgers / 3, chunkLedgers / 3 / 3]

def ChunkUnreadable (endLedger request : Nat) : Prop :=
  ∀ attempt, (small : attempt < triedSpans.length) →
    server.Unreadable (request + attempt) (chunkStart endLedger triedSpans[attempt]) endLedger

theorem readChunk_unreadable {endLedger request : Nat} {lastError rejection : Rejection}
    (failed : (readChunk server endLedger chunkLedgers request lastError).result =
      .error rejection) : ChunkUnreadable server endLedger request := by
  obtain ⟨first, _, again⟩ := readChunk_error server failed (by decide)
  obtain ⟨second, _, more⟩ := readChunk_error server again (by decide)
  obtain ⟨third, _, _⟩ := readChunk_error server more (by decide)
  intro attempt small
  match attempt, small with
  | 0, _ => exact first
  | 1, _ => exact second
  | 2, _ => exact third

def walkFrom (maxChunks : Option Nat) (chunk endLedger request : Nat) (raw : List Event) :
    Except Rejection (List Event) :=
  if belowMax chunk maxChunks = true ∧ 1 < endLedger then
    match _read : (readChunk server endLedger chunkLedgers request none) with
    | ⟨.ok (events, startLedger), requests⟩ =>
        walkFrom maxChunks (chunk + 1) (startLedger - 1) requests (raw ++ events)
    | ⟨.error lastError, _⟩ =>
        if chunk = 0 then .error (some (lastError.getD "getEvents failed")) else .ok raw
  else
    .ok raw
termination_by endLedger
decreasing_by
  have bounds := readChunk_ok server (congrArg ChunkRead.result _read)
  omega

def walkEventChunks (maxChunks : Option Nat) : Except Rejection (List Event) := do
  let latest ← server.latestLedger
  walkFrom server maxChunks 0 latest 0 []

theorem between_append_perm {first middle last : Nat} (ordered : first ≤ middle + 1)
    (within : middle ≤ last) :
    (server.between (middle + 1) last ++ server.between first middle).Perm
      (server.between first last) := by
  have newer : server.between (middle + 1) last =
      (server.between first last).filter (fun event =>
        decide (middle + 1 ≤ server.ledger event)) := by
    unfold EventServer.between
    rw [List.filter_filter]
    apply List.filter_congr
    intro event _
    rw [Bool.eq_iff_iff]
    simp only [Bool.and_eq_true, decide_eq_true_eq]
    omega
  have older : server.between first middle =
      (server.between first last).filter (fun event =>
        !decide (middle + 1 ≤ server.ledger event)) := by
    unfold EventServer.between
    rw [List.filter_filter]
    apply List.filter_congr
    intro event _
    rw [Bool.eq_iff_iff]
    simp only [Bool.and_eq_true, decide_eq_true_eq, Bool.not_eq_true', decide_eq_false_iff_not]
    omega
  rw [newer, older]
  exact List.filter_append_perm _ _

theorem walkFrom_ok {maxChunks : Option Nat} {chunk endLedger request latest : Nat}
    {raw result : List Event} (within : endLedger ≤ latest)
    (soFar : raw.Perm (server.between (endLedger + 1) latest))
    (walked : walkFrom server maxChunks chunk endLedger request raw = .ok result) :
    ∃ first ≤ endLedger + 1, 1 ≤ first ∧ result.Perm (server.between first latest) ∧
      (belowMax chunk maxChunks = true → 1 < endLedger → chunk = 0 → first ≤ endLedger) := by
  fun_induction walkFrom with
  | case1 chunk endLedger request raw goes events start requests read ih =>
      have chunkRead := readChunk_ok server (congrArg ChunkRead.result read)
      have inRange : start ≤ endLedger := chunkRead.2.2 (by omega)
      have chained : start - 1 + 1 = start := Nat.sub_add_cancel chunkRead.2.1
      have whole : (raw ++ events).Perm (server.between (start - 1 + 1) latest) := by
        rw [chunkRead.1, chained]
        exact (soFar.append_right _).trans (between_append_perm server (by omega) within)
      obtain ⟨first, below, positive, exact_, _⟩ := ih (by omega) whole walked
      exact ⟨first, by omega, positive, exact_, fun _ _ _ => by omega⟩
  | case2 => cases walked
  | case3 chunk endLedger request raw goes lastError requests failed later =>
      cases walked
      exact ⟨endLedger + 1, Nat.le_refl _, by omega, soFar, fun _ _ start => absurd start later⟩
  | case4 chunk endLedger request raw stops =>
      cases walked
      exact ⟨endLedger + 1, Nat.le_refl _, by omega, soFar,
        fun below positive _ => absurd ⟨below, positive⟩ stops⟩

/-- A walk fails at its first chunk or not at all. -/
theorem walkFrom_error {maxChunks : Option Nat} {chunk endLedger request : Nat}
    {raw : List Event} {rejection : Rejection}
    (failed : walkFrom server maxChunks chunk endLedger request raw = .error rejection) :
    chunk = 0 ∧ ChunkUnreadable server endLedger request := by
  fun_induction walkFrom with
  | case1 chunk endLedger request raw goes events start requests read ih =>
      have impossible := (ih failed).1
      omega
  | case2 endLedger request raw lastError requests read goes =>
      exact ⟨rfl, readChunk_unreadable server (congrArg ChunkRead.result read)⟩
  | case3 => cases failed
  | case4 => cases failed

theorem walkEventChunks_span (maxChunks : Option Nat) :
    (∃ latest raw first, server.latestLedger = .ok latest ∧
      walkEventChunks server maxChunks = .ok raw ∧
      1 ≤ first ∧ first ≤ latest + 1 ∧ raw.Perm (server.between first latest) ∧
      (maxChunks ≠ some 0 → 1 < latest → first ≤ latest)) ∨
    (∃ rejection, walkEventChunks server maxChunks = .error rejection ∧
      ((∃ refused, server.latestLedger = .error refused) ∨
        ∃ latest, server.latestLedger = .ok latest ∧ ChunkUnreadable server latest 0)) := by
  unfold walkEventChunks
  cases newest : server.latestLedger with
  | error refused => exact Or.inr ⟨refused, rfl, Or.inl ⟨refused, rfl⟩⟩
  | ok latest =>
      have nothing : server.between (latest + 1) latest = [] := by
        unfold EventServer.between
        rw [List.filter_eq_nil_iff]
        intro event _ inside
        simp only [Bool.and_eq_true, decide_eq_true_eq] at inside
        omega
      cases walked : walkFrom server maxChunks 0 latest 0 [] with
      | error rejection =>
          exact Or.inr ⟨rejection, walked, Or.inr ⟨latest, rfl, (walkFrom_error server walked).2⟩⟩
      | ok raw =>
          obtain ⟨first, below, positive, whole, newestRead⟩ :=
            walkFrom_ok server (Nat.le_refl latest) (by rw [nothing]) walked
          refine Or.inl ⟨latest, raw, first, rfl, walked, positive, below, whole, ?_⟩
          intro some_ positiveLatest
          refine newestRead ?_ positiveLatest rfl
          cases maxChunks with
          | none => rfl
          | some count =>
              apply decide_eq_true
              apply Nat.pos_of_ne_zero
              intro zero
              exact some_ (congrArg some zero)

end Walk

end Nido.Frontend
