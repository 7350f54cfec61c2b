/-
What holds over any number of attempts to submit a rotation.

The stored staging and what has been seen are tied together: a stored hash has a
reason among the relayer's answers, and a stored job is never forgotten. One step
lemma for each action keeps this; the loop carries it from transaction to
transaction, and the attempts from one to the next. The reason for a hash is a
confirmation, or a hash in the very answer to the submission, which the code takes
without looking at the status.
-/

import Nido.Frontend.FriendApproval
import Nido.Frontend.SubmitRotation

namespace Nido.Frontend

open Sdk Effect

def HasHash (staging : RotationStaging) (i : Nat) : Prop :=
  ∃ staged txHash, staging.txs[i]? = some staged ∧ truthy staged.submittedHash = some txHash

def HasJob (staging : RotationStaging) (i : Nat) : Prop :=
  ∃ staged transactionId,
    staging.txs[i]? = some staged ∧ truthy staged.relayerTxId = some transactionId

section Laws

variable (start : RotationStaging)

/-- The relayer's job for transaction `i`: stored before all attempts, or named by the answer to
its submission. -/
def JobOf (earlier : List Event) (i : Nat) (transactionId : String) : Prop :=
  (∃ staged, start.txs[i]? = some staged ∧ truthy staged.relayerTxId = some transactionId) ∨
    ∃ response, .answered i response ∈ earlier ∧
      truthy response.transactionId = some transactionId

/-- A poll of the job of transaction `i` was answered with a confirmation. -/
def PolledConfirmed (earlier : List Event) (i : Nat) : Prop :=
  ∃ transactionId response, JobOf start earlier i transactionId ∧
    .polled transactionId response ∈ earlier ∧ response.status = some .confirmed

/-- Transaction `i` was confirmed by the relayer, or before all attempts. -/
def Confirmed (earlier : List Event) (i : Nat) : Prop :=
  HasHash start i ∨ PolledConfirmed start earlier i ∨
    ∃ response, .answered i response ∈ earlier ∧ response.status = some .confirmed

/-- The code has a hash for transaction `i`: from a confirmation, or from the answer to its
submission. -/
def Landed (earlier : List Event) (i : Nat) : Prop :=
  HasHash start i ∨ PolledConfirmed start earlier i ∨
    ∃ response txHash, .answered i response ∈ earlier ∧ truthy response.hash = some txHash

def JobKnown (earlier : List Event) (i : Nat) : Prop :=
  HasJob start i ∨ ∃ staging, .stored staging ∈ earlier ∧ HasJob staging i

/-- What must have been seen before an event. -/
def Admitted (Done : List Event → Nat → Prop) (event : Event) (earlier : List Event) : Prop :=
  match event with
  | .submitted i _ => (∀ j < i, Done earlier j) ∧ ¬ JobKnown start earlier i
  | .stored staging => ∀ i, HasHash staging i → Done earlier i
  | .cleared => ∀ i < start.txs.length, Done earlier i
  | .answered .. | .polled .. => True

def Lawful (Done : List Event → Nat → Prop) (trace : List Event) : Prop :=
  ∀ later event earlier, trace = later ++ event :: earlier → Admitted start Done event earlier

/-- The stored staging is the first one with what has been learned since. -/
structure Follows (trace : List Event) (staging : RotationStaging) : Prop where
  account_same : staging.account = start.account
  length_same : staging.txs.length = start.txs.length
  hashes : ∀ i, HasHash staging i → Landed start trace i
  jobs : ∀ i, JobKnown start trace i → HasJob staging i
  jobs_own : ∀ i staged transactionId, staging.txs[i]? = some staged →
    truthy staged.relayerTxId = some transactionId → JobOf start trace i transactionId

/-- The invariant of a page, with a property `P` of all answers to submissions. -/
structure Sound (P : RelayerTxResponse → Prop) (page : Page) : Prop where
  lawful : Lawful start (Landed start) page.trace
  answers : ∀ i response, .answered i response ∈ page.trace → P response
  replies : ∀ response, .response response ∈ page.submissions → P response
  stored : ∀ staging, loadStaging page.storage start.account = some staging →
    Follows start page.trace staging

def Holds (staging : RotationStaging) (page : Page) : Prop :=
  loadStaging page.storage start.account = some staging

end Laws

section Trace

variable {start staging : RotationStaging} {earlier trace : List Event} {event : Event} {i : Nat}

theorem lawful_nil {Done : List Event → Nat → Prop} : Lawful start Done [] := by
  intro later event earlier shape
  cases later <;> cases shape

theorem lawful_cons {Done : List Event → Nat → Prop} :
    Lawful start Done (event :: trace) ↔
      Admitted start Done event trace ∧ Lawful start Done trace := by
  constructor
  · intro lawful
    refine ⟨lawful [] event trace rfl, ?_⟩
    intro later other earlier shape
    exact lawful (event :: later) other earlier (by rw [shape]; rfl)
  · rintro ⟨admitted, lawful⟩ later other earlier shape
    cases later with
    | nil =>
        cases shape
        exact admitted
    | cons first rest =>
        cases shape
        exact lawful rest other earlier rfl

theorem JobOf.cons {transactionId : String} (job : JobOf start trace i transactionId)
    (event : Event) : JobOf start (event :: trace) i transactionId := by
  rcases job with before | ⟨response, answered, named⟩
  · exact Or.inl before
  · exact Or.inr ⟨response, List.mem_cons_of_mem _ answered, named⟩

theorem Landed.cons (landed : Landed start trace i) (event : Event) :
    Landed start (event :: trace) i := by
  rcases landed with before | ⟨transactionId, response, job, polled, status⟩ |
    ⟨response, txHash, answered, hashed⟩
  · exact Or.inl before
  · exact Or.inr (Or.inl
      ⟨transactionId, response, job.cons event, List.mem_cons_of_mem _ polled, status⟩)
  · exact Or.inr (Or.inr ⟨response, txHash, List.mem_cons_of_mem _ answered, hashed⟩)

theorem Follows.cons (follows : Follows start trace staging)
    (unstored : ∀ other, event ≠ .stored other) : Follows start (event :: trace) staging where
  account_same := follows.account_same
  length_same := follows.length_same
  hashes := fun i hashed => (follows.hashes i hashed).cons event
  jobs := by
    rintro i (before | ⟨other, listed, job⟩)
    · exact follows.jobs i (Or.inl before)
    · rcases List.mem_cons.mp listed with same | old
      · exact absurd same.symm (unstored other)
      · exact follows.jobs i (Or.inr ⟨other, old, job⟩)
  jobs_own := fun i staged transactionId present named =>
    (follows.jobs_own i staged transactionId present named).cons event

theorem Follows.stored (follows : Follows start trace staging) :
    Follows start (.stored staging :: trace) staging where
  account_same := follows.account_same
  length_same := follows.length_same
  hashes := fun i hashed => (follows.hashes i hashed).cons _
  jobs := by
    rintro i (before | ⟨other, listed, job⟩)
    · exact follows.jobs i (Or.inl before)
    · rcases List.mem_cons.mp listed with same | old
      · cases same
        exact job
      · exact follows.jobs i (Or.inr ⟨other, old, job⟩)
  jobs_own := fun i staged transactionId present named =>
    (follows.jobs_own i staged transactionId present named).cons _

end Trace

/-! ### Changing one transaction -/

section Change

variable {start staging : RotationStaging} {trace : List Event} {i j : Nat}

theorem setHash_getElem? (txHash : String) :
    (staging.setHash i txHash).txs[j]? = (staging.txs[j]?).map (fun staged =>
      if i = j then { staged with submittedHash := some txHash } else staged) := by
  change (staging.txs.modify i _)[j]? = _
  rw [List.getElem?_modify]
  split <;> rfl

theorem setJob_getElem? (transactionId : String) :
    (staging.setJob i transactionId).txs[j]? = (staging.txs[j]?).map (fun staged =>
      if i = j then { staged with relayerTxId := some transactionId } else staged) := by
  change (staging.txs.modify i _)[j]? = _
  rw [List.getElem?_modify]
  split <;> rfl

theorem setHash_hasHash {txHash : String} (given : truthy (some txHash) = some txHash) :
    HasHash (staging.setHash i txHash) j ↔
      HasHash staging j ∨ j = i ∧ ∃ staged, staging.txs[i]? = some staged := by
  unfold HasHash
  rw [setHash_getElem?]
  cases present : staging.txs[j]? with
  | none =>
      simp only [Option.map_none, reduceCtorEq, false_and, exists_false, false_or, false_iff,
        not_and, not_exists]
      rintro rfl staged
      rw [present]
      intro impossible
      cases impossible
  | some staged =>
      by_cases same : i = j
      · subst same
        rw [present]
        simp [given]
      · simp [same, Ne.symm same]

theorem setHash_hasJob {txHash : String} :
    HasJob (staging.setHash i txHash) j ↔ HasJob staging j := by
  unfold HasJob
  rw [setHash_getElem?]
  cases staging.txs[j]? with
  | none => simp
  | some staged => by_cases same : i = j <;> simp [same]

theorem setJob_hasHash {transactionId : String} :
    HasHash (staging.setJob i transactionId) j ↔ HasHash staging j := by
  unfold HasHash
  rw [setJob_getElem?]
  cases staging.txs[j]? with
  | none => simp
  | some staged => by_cases same : i = j <;> simp [same]

theorem setJob_hasJob {transactionId : String}
    (given : truthy (some transactionId) = some transactionId) (job : HasJob staging j) :
    HasJob (staging.setJob i transactionId) j := by
  obtain ⟨staged, known, present, nonempty⟩ := job
  unfold HasJob
  rw [setJob_getElem?, present]
  by_cases same : i = j
  · simp [same, given]
  · simp [same, nonempty]

theorem Follows.setHash {txHash : String} (follows : Follows start trace staging)
    (given : truthy (some txHash) = some txHash) (landed : Landed start trace i) :
    Follows start trace (staging.setHash i txHash) where
  account_same := follows.account_same
  length_same := (List.length_modify ..).trans follows.length_same
  hashes := by
    intro j hashed
    rcases (setHash_hasHash given).mp hashed with before | ⟨rfl, -⟩
    · exact follows.hashes j before
    · exact landed
  jobs := fun j known => setHash_hasJob.mpr (follows.jobs j known)
  jobs_own := by
    intro j staged transactionId present named
    rw [setHash_getElem?] at present
    obtain ⟨before, here, rfl⟩ := Option.map_eq_some_iff.mp present
    apply follows.jobs_own j before transactionId here
    split at named <;> exact named

/-- The job that is set is the one that the answer named. -/
theorem Follows.setJob {transactionId : String} (follows : Follows start trace staging)
    (given : truthy (some transactionId) = some transactionId)
    (own : JobOf start trace i transactionId) :
    Follows start trace (staging.setJob i transactionId) where
  account_same := follows.account_same
  length_same := (List.length_modify ..).trans follows.length_same
  hashes := fun j hashed => follows.hashes j (setJob_hasHash.mp hashed)
  jobs := fun j known => setJob_hasJob given (follows.jobs j known)
  jobs_own := by
    intro j staged other present named
    rw [setJob_getElem?] at present
    obtain ⟨before, here, rfl⟩ := Option.map_eq_some_iff.mp present
    split at named
    next same =>
      have isOther : transactionId = other :=
        Option.some.inj (given.symm.trans named)
      rw [← same, ← isOther]
      exact own
    next => exact follows.jobs_own j before other here named

theorem truthy_eq_some {text : Option String} {value : String} (given : truthy text = some value) :
    text = some value ∧ truthy (some value) = some value := by
  obtain ⟨same, nonempty⟩ := Option.filter_eq_some_iff.mp given
  exact ⟨same, Option.filter_eq_some_iff.mpr ⟨rfl, nonempty⟩⟩

end Change

/-! ### What each action keeps -/

section Actions

variable {start staging : RotationStaging} {P : RelayerTxResponse → Prop} {page : Page} {i : Nat}

theorem Sound.answers_see (sound : Sound start P page) {event : Event}
    (fits : ∀ j response, event = .answered j response → P response) :
    ∀ j response, .answered j response ∈ event :: page.trace → P response := by
  intro j response listed
  rcases List.mem_cons.mp listed with same | before
  · exact fits j response same.symm
  · exact sound.answers j response before

theorem Sound.see (sound : Sound start P page) {event : Event}
    (admitted : Admitted start (Landed start) event page.trace)
    (unstored : ∀ other, event ≠ .stored other)
    (fits : ∀ j response, event = .answered j response → P response) :
    Sound start P { page with trace := event :: page.trace } where
  lawful := lawful_cons.mpr ⟨admitted, sound.lawful⟩
  answers := sound.answers_see fits
  replies := sound.replies
  stored := fun other stored => (sound.stored other stored).cons unstored

theorem Sound.replies_subset (sound : Sound start P page) (polls : List RelayerReply)
    {submissions : List RelayerReply} (fewer : submissions ⊆ page.submissions) (remaining : Nat) :
    Sound start P { page with submissions, polls, remaining } where
  lawful := sound.lawful
  answers := sound.answers
  replies := fun response listed => sound.replies response (fewer listed)
  stored := sound.stored

/-- An action takes one of the page's remaining steps, at which neither the invariant nor the
assertion looks. -/
theorem keeps_act {α : Type} {Inv Pre : Page → Prop} {action : PageM α} {Post : α → Page → Prop}
    (blind : ∀ page remaining, Inv page → Pre page →
      Inv { page with remaining } ∧ Pre { page with remaining })
    (runs : Keeps Inv Pre action Post) : Keeps Inv Pre (act action) Post := by
  intro page holds pre
  change Inv (act action page).2 ∧
    ∀ value, (act action page).1 = .returned value → Post value (act action page).2
  unfold act
  cases page.remaining with
  | zero =>
      refine ⟨holds, ?_⟩
      intro value impossible
      cases impossible
  | succ remaining =>
      obtain ⟨holds, pre⟩ := blind page remaining holds pre
      exact runs _ holds pre

/-- The invariant does not look at the remaining steps. -/
theorem sound_blind {Pre : Page → Prop}
    (blind : ∀ page remaining, Pre page → Pre { page with remaining })
    (page : Page) (remaining : Nat) (sound : Sound start P page) (pre : Pre page) :
    Sound start P { page with remaining } ∧ Pre { page with remaining } :=
  ⟨sound.replies_subset page.polls (List.Subset.refl _) remaining, blind page remaining pre⟩

theorem keeps_ofJs {α : Type} {Inv Pre : Page → Prop} (result : Js α) :
    Keeps Inv Pre (ofJs result) (fun _ => Pre) := by
  apply keeps_lift
  intro value _ page _ pre
  exact pre

theorem keeps_save (next : RotationStaging) {Pre : Page → Prop}
    (blind : ∀ page remaining, Pre page → Pre { page with remaining })
    (steps : ∀ page, Sound start P page → Pre page → Follows start page.trace next) :
    Keeps (Sound start P) Pre (save next)
      (fun _ page => Holds start next page ∧ ∃ before, Pre before ∧
        page.trace = .stored next :: before.trace) := by
  apply keeps_act (sound_blind blind)
  intro page sound pre
  have follows := steps page sound pre
  have saved : loadStaging (saveStaging page.storage next) start.account = some next := by
    rw [← follows.account_same]
    exact loadStaging_saveStaging page.storage next
  constructor
  · refine ⟨lawful_cons.mpr ⟨follows.hashes, sound.lawful⟩, ?_, sound.replies, ?_⟩
    · exact sound.answers_see (fun _ _ => Event.noConfusion)
    · intro other stored
      change loadStaging (saveStaging page.storage next) start.account = some other at stored
      rw [saved] at stored
      cases stored
      exact follows.stored
  · intro value done
    exact ⟨saved, page, pre, rfl⟩

theorem keeps_clear {Pre : Page → Prop}
    (blind : ∀ page remaining, Pre page → Pre { page with remaining })
    (done : ∀ page, Sound start P page → Pre page → ∀ i < start.txs.length,
      Landed start page.trace i) :
    Keeps (Sound start P) Pre (clear start.account) (fun _ _ => True) := by
  apply keeps_act (sound_blind blind)
  intro page sound pre
  refine ⟨⟨lawful_cons.mpr ⟨done page sound pre, sound.lawful⟩, ?_, sound.replies, ?_⟩,
    fun _ _ => trivial⟩
  · exact sound.answers_see (fun _ _ => Event.noConfusion)
  · intro other stored
    change loadStaging (clearStaging page.storage start.account) start.account = some other at stored
    rw [loadStaging_clearStaging] at stored
    cases stored

/-- A submission is made when all earlier transactions have a hash and no job is stored. -/
theorem keeps_submitSorobanTransaction (request : InvokeHostFunctionOp)
    (earlier : ∀ j < i, HasHash staging j) (fresh : ¬ HasJob staging i) :
    Keeps (Sound start P) (Holds start staging) (submitSorobanTransaction i request)
      (fun response page => Holds start staging page ∧ .answered i response ∈ page.trace) := by
  apply keeps_act (sound_blind (fun _ _ holds => holds))
  intro page sound holds
  have follows := sound.stored staging holds
  have sent : Sound start P { page with trace := .submitted i request :: page.trace } := by
    apply sound.see
    · exact ⟨fun j before => follows.hashes j (earlier j before),
        fun known => fresh (follows.jobs i known)⟩
    · intro other
      exact Event.noConfusion
    · intro j response
      exact Event.noConfusion
  dsimp only [Prog.run]
  split
  next =>
    refine ⟨sent.replies_subset page.polls (List.Subset.refl _) page.remaining, ?_⟩
    intro value impossible
    cases impossible
  next error submissions waiting =>
    have fewer : submissions ⊆ page.submissions := by
      rw [waiting]
      exact List.subset_cons_self _ _
    refine ⟨sent.replies_subset page.polls fewer page.remaining, ?_⟩
    intro value impossible
    cases impossible
  next response submissions waiting =>
    have fewer : submissions ⊆ page.submissions := by
      rw [waiting]
      exact List.subset_cons_self _ _
    have fits : P response := sound.replies response (by rw [waiting]; exact List.mem_cons_self)
    have consumed := sent.replies_subset page.polls fewer page.remaining
    constructor
    · apply consumed.see
      · exact trivial
      · intro other
        exact Event.noConfusion
      · intro j other same
        cases same
        exact fits
    · intro value same
      cases same
      exact ⟨holds, List.mem_cons_self⟩

/-- What is kept while a job of transaction `i` is waited for. -/
def Waits (start staging : RotationStaging) (P : RelayerTxResponse → Prop) (i : Nat)
    (transactionId : String) (page : Page) : Prop :=
  Sound start P page ∧ Holds start staging page ∧ JobOf start page.trace i transactionId

theorem keeps_getRelayerTransaction {transactionId : String} :
    Keeps (Waits start staging P i transactionId) (fun _ => True)
      (getRelayerTransaction transactionId)
      (fun response page => .polled transactionId response ∈ page.trace) := by
  apply keeps_act
  · rintro page remaining ⟨sound, holds, job⟩ -
    exact ⟨⟨sound.replies_subset page.polls (List.Subset.refl _) remaining, holds, job⟩, trivial⟩
  rintro page ⟨sound, holds, job⟩ -
  dsimp only [Prog.run]
  split
  next =>
    refine ⟨⟨sound, holds, job⟩, ?_⟩
    intro value impossible
    cases impossible
  next error polls waiting =>
    refine ⟨⟨sound.replies_subset polls (List.Subset.refl _) page.remaining, holds, job⟩, ?_⟩
    intro value impossible
    cases impossible
  next response polls waiting =>
    have consumed := sound.replies_subset polls (List.Subset.refl _) page.remaining
    refine ⟨⟨?_, holds, job.cons _⟩, ?_⟩
    · apply consumed.see
      · exact trivial
      · intro other
        exact Event.noConfusion
      · intro j other
        exact Event.noConfusion
    · intro value same
      cases same
      exact List.mem_cons_self

/-- A wait that returns has polled a confirmation. -/
theorem keeps_pollUntilTerminal {transactionId : String} (attempts pollFailures : Nat)
    (last : Option RelayerTxResponse) :
    Keeps (Waits start staging P i transactionId) (fun _ => True)
      (pollUntilTerminal transactionId attempts pollFailures last)
      (fun response page => .polled transactionId response ∈ page.trace ∧
        response.status = some .confirmed) := by
  induction attempts generalizing pollFailures last with
  | zero => exact keeps_throw
  | succ attempts ih =>
      unfold pollUntilTerminal
      apply keeps_bind (keeps_attempt keeps_getRelayerTransaction)
      intro result
      cases result with
      | ok res =>
          dsimp only
          split
          next status =>
            apply keeps_pure
            intro page _ polled
            exact ⟨polled res rfl, status⟩
          next => exact keeps_throw
          next => exact keeps_throw
          next => exact (ih 0 (some res)).weaken (fun _ _ _ => trivial) (fun _ _ _ post => post)
      | error error =>
          dsimp only
          split
          · exact keeps_throw
          · split
            · exact keeps_throw
            · exact (ih (pollFailures + 1) last).weaken (fun _ _ _ => trivial)
                (fun _ _ _ post => post)

theorem keeps_confirmedHash {transactionId : String} :
    Keeps (Sound start P)
      (fun page => Holds start staging page ∧ JobOf start page.trace i transactionId)
      (confirmedHash transactionId)
      (fun txHash page => (Holds start staging page ∧ Landed start page.trace i) ∧
        truthy (some txHash) = some txHash) := by
  have waits : Keeps (Waits start staging P i transactionId) (fun _ => True)
      (confirmedHash transactionId) (fun txHash page => Landed start page.trace i ∧
        truthy (some txHash) = some txHash) := by
    apply keeps_bind (keeps_pollUntilTerminal maxAttempts 0 none)
    intro confirmed
    split
    next => exact keeps_throw
    next txHash given =>
      apply keeps_pure
      intro page kept polled
      obtain ⟨_, _, job⟩ := kept
      exact ⟨Or.inr (Or.inl ⟨transactionId, confirmed, job, polled⟩), (truthy_eq_some given).2⟩
  exact waits.fix.weaken (fun _ _ pre => ⟨pre, trivial⟩)
    (fun _ _ _ post => ⟨⟨post.1.1, post.2.1⟩, post.2.2⟩)

theorem keeps_storeHash {txHash : String} (given : truthy (some txHash) = some txHash) :
    Keeps (Sound start P) (fun page => Holds start staging page ∧ Landed start page.trace i)
      (storeHash staging i txHash)
      (fun done page => done.1 = staging.setHash i txHash ∧ Holds start done.1 page) := by
  apply keeps_bind (keeps_save (staging.setHash i txHash) (fun _ _ pre => pre) ?_)
  · intro _
    apply keeps_pure
    intro page _ saved
    exact ⟨rfl, saved.1⟩
  · intro page sound pre
    exact (sound.stored staging pre.1).setHash given pre.2

theorem keeps_storeHash_upto {txHash : String} (before : ∀ j < i, HasHash staging j)
    (placed : ∃ staged, staging.txs[i]? = some staged) :
    Keeps (Sound start P)
      (fun page => (Holds start staging page ∧ Landed start page.trace i) ∧
        truthy (some txHash) = some txHash)
      (storeHash staging i txHash)
      (fun done page => Holds start done.1 page ∧ ∀ j < i + 1, HasHash done.1 j) := by
  apply keeps_of_fact (fun _ _ pre => pre.2)
  intro given
  apply (keeps_storeHash given).weaken (fun _ _ pre => pre.1)
  rintro done page _ ⟨shape, holds⟩
  refine ⟨holds, ?_⟩
  intro j within
  rw [shape, setHash_hasHash given]
  rcases Nat.lt_succ_iff_lt_or_eq.mp within with sooner | same
  · exact Or.inl (before j sooner)
  · exact Or.inr ⟨same, placed⟩

theorem keeps_storeJob (submitted : RelayerTxResponse) :
    Keeps (Sound start P)
      (fun page => Holds start staging page ∧ .answered i submitted ∈ page.trace)
      (storeJob staging i submitted)
      (fun accepted page => (Holds start accepted page ∧ .answered i submitted ∈ page.trace) ∧
        (accepted = staging ∨ ∃ transactionId, accepted = staging.setJob i transactionId)) := by
  unfold storeJob
  split
  next =>
    apply keeps_pure
    intro page _ pre
    exact ⟨pre, Or.inl rfl⟩
  next transactionId given =>
    apply keeps_bind (keeps_save (staging.setJob i transactionId) (fun _ _ pre => pre) ?_)
    · intro _
      apply keeps_pure
      rintro page _ ⟨holds, before, ⟨-, answered⟩, seen⟩
      refine ⟨⟨holds, ?_⟩, Or.inr ⟨transactionId, rfl⟩⟩
      rw [seen]
      exact List.mem_cons_of_mem _ answered
    · intro page sound pre
      exact (sound.stored staging pre.1).setJob (truthy_eq_some given).2
        (Or.inr ⟨submitted, pre.2, given⟩)

theorem keeps_submittedOrConfirmedHash (submitted : RelayerTxResponse) :
    Keeps (Sound start P)
      (fun page => Holds start staging page ∧ .answered i submitted ∈ page.trace)
      (submittedOrConfirmedHash submitted)
      (fun txHash page => (Holds start staging page ∧ Landed start page.trace i) ∧
        truthy (some txHash) = some txHash) := by
  unfold submittedOrConfirmedHash
  split
  next txHash given =>
    apply keeps_pure
    intro page _ pre
    exact ⟨⟨pre.1, Or.inr (Or.inr ⟨submitted, txHash, pre.2, given⟩)⟩, (truthy_eq_some given).2⟩
  next =>
    split
    next => exact keeps_throw
    next transactionId given =>
      exact keeps_confirmedHash.weaken
        (fun _ _ pre => ⟨pre.1, Or.inr ⟨submitted, pre.2, given⟩⟩) (fun _ _ _ post => post)

variable (env : RotationEnvironment)

/-- One transaction: afterwards it has a hash, and the earlier ones keep theirs. -/
theorem keeps_submitStagedTx {staged : StagedRotationTx} (present : staging.txs[i]? = some staged)
    (earlier : ∀ j < i, HasHash staging j) :
    Keeps (Sound start P) (Holds start staging) (submitStagedTx env staging i staged)
      (fun done page => Holds start done.1 page ∧ ∀ j < i + 1, HasHash done.1 j) := by
  unfold submitStagedTx
  apply keeps_bind (keeps_ofJs _)
  intro op
  split
  next transactionId named =>
    -- A stored job is only polled.
    apply keeps_bind
    · exact keeps_confirmedHash.weaken (fun page sound holds =>
        ⟨holds, (sound.stored staging holds).jobs_own i staged transactionId present named⟩)
        (fun _ _ _ post => post)
    intro txHash
    exact keeps_storeHash_upto earlier ⟨staged, present⟩
  next jobless =>
    have fresh : ¬ HasJob staging i := by
      rintro ⟨other, transactionId, same, job⟩
      rw [present] at same
      cases same
      rw [jobless] at job
      cases job
    apply keeps_bind (keeps_ofJs _)
    intro request
    apply keeps_bind (keeps_submitSorobanTransaction request earlier fresh)
    intro submitted
    apply keeps_bind (keeps_storeJob submitted)
    intro accepted
    apply keeps_of_fact (fun _ _ pre => pre.2)
    intro same
    have before : ∀ j < i, HasHash accepted j := by
      intro j sooner
      rcases same with rfl | ⟨transactionId, rfl⟩
      · exact earlier j sooner
      · exact setJob_hasHash.mpr (earlier j sooner)
    have placed : ∃ staged, accepted.txs[i]? = some staged := by
      rcases same with rfl | ⟨transactionId, rfl⟩
      · exact ⟨staged, present⟩
      · rw [setJob_getElem?, present]
        exact ⟨_, rfl⟩
    apply keeps_bind
    · exact (keeps_submittedOrConfirmedHash submitted).weaken (fun _ _ pre => pre.1)
        (fun _ _ _ post => post)
    · intro txHash
      exact keeps_storeHash_upto before placed

theorem keeps_submitStagedTxs (count : Nat) (lastHash : String)
    (earlier : ∀ j < i, HasHash staging j) :
    Keeps (Sound start P) (Holds start staging) (submitStagedTxs env count i staging lastHash)
      (fun _ page => ∃ final, Holds start final page ∧ ∀ j < i + count, HasHash final j) := by
  induction count generalizing i staging lastHash with
  | zero =>
      apply keeps_pure
      intro page _ holds
      exact ⟨staging, holds, earlier⟩
  | succ count ih =>
      have shift : i + 1 + count = i + (count + 1) := by omega
      rw [← shift]
      unfold submitStagedTxs
      split
      next => exact keeps_throw
      next staged present =>
        split
        next txHash given =>
          apply ih txHash
          intro j within
          rcases Nat.lt_succ_iff_lt_or_eq.mp within with sooner | same
          · exact earlier j sooner
          · exact same ▸ ⟨staged, txHash, present, given⟩
        next =>
          apply keeps_bind (keeps_submitStagedTx env present earlier)
          intro done
          apply keeps_of_fact (fun _ _ pre => pre.2)
          intro upto
          exact (ih done.2 upto).weaken (fun _ _ pre => pre.1) (fun _ _ _ post => post)

theorem keeps_readStaging (account : String) :
    Keeps (Sound start P) (fun _ => True) (readStaging account)
      (fun found page => loadStaging page.storage account = found) := by
  intro page sound _
  refine ⟨sound, ?_⟩
  intro found same
  cases same
  rfl

theorem keeps_submitRotation :
    Keeps (Sound start P) (fun _ => True) (submitRotation env start.account)
      (fun _ _ => True) := by
  apply keeps_bind (keeps_readStaging start.account)
  intro found
  cases found with
  | none => exact keeps_throw
  | some staging =>
      apply keeps_of_fact (fun page sound holds => (sound.stored staging holds).length_same)
      intro sized
      apply keeps_bind (keeps_ofJs _)
      intro _
      apply keeps_bind
      · apply keeps_submitStagedTxs
        intro j impossible
        exact absurd impossible (Nat.not_lt_zero j)
      · intro lastHash
        apply keeps_bind (keeps_clear (fun _ _ pre => pre) ?_)
        · intro _
          exact keeps_pure (fun _ _ _ => trivial)
        · rintro page sound ⟨final, holds, all⟩ j within
          apply (sound.stored final holds).hashes
          apply all
          omega

end Actions

/-! ### Any number of attempts -/

section Attempts

variable {start : RotationStaging} {P : RelayerTxResponse → Prop} {env : RotationEnvironment}

def Progress.page (progress : Progress) : Page where
  storage := progress.storage
  trace := progress.trace
  submissions := []
  polls := []
  remaining := 0

def SoundProgress (start : RotationStaging) (P : RelayerTxResponse → Prop)
    (progress : Progress) : Prop :=
  Sound start P progress.page

theorem sound_start {storage : LocalStorage}
    (stored : loadStaging storage start.account = some start) :
    SoundProgress start P { storage, trace := [] } where
  lawful := lawful_nil
  answers := by
    intro i response impossible
    cases impossible
  replies := by
    intro response impossible
    cases impossible
  stored := by
    intro staging same
    have first : loadStaging storage start.account = some staging := same
    rw [stored] at first
    cases first
    refine ⟨rfl, rfl, fun i hashed => Or.inl hashed, ?_, ?_⟩
    · rintro i (job | ⟨staging, impossible, -⟩)
      · exact job
      · cases impossible
    · intro i staged transactionId present named
      exact Or.inl ⟨staged, present, named⟩

theorem attemptSubmit_sound {progress after : Progress} {attempt : Attempt}
    (sound : SoundProgress start P progress)
    (fits : ∀ response, .response response ∈ attempt.submissions → P response)
    (ran : attemptSubmit env start.account progress attempt = some after) :
    SoundProgress start P after := by
  have opened : Sound start P (attempt.page progress) :=
    ⟨sound.lawful, sound.answers, fits, sound.stored⟩
  obtain ⟨closed, -⟩ := keeps_submitRotation env (attempt.page progress) opened trivial
  cases ran
  exact closed.replies_subset [] (List.nil_subset _) 0

variable (P env) in
theorem attempts_sound {storage : LocalStorage} {attempts : List Attempt}
    (stored : loadStaging storage start.account = some start)
    (fits : ∀ attempt ∈ attempts, ∀ response,
      .response response ∈ attempt.submissions → P response) (time : Nat) :
    SoundProgress start P (Run.stateAt (attemptSubmit env start.account)
      { storage, trace := [] } attempts time) := by
  refine Run.invariant (sound_start stored) ?_ time
  intro time attempt after sound accepted
  exact attemptSubmit_sound sound
    (fits attempt (List.mem_of_getElem? accepted.input_at)) accepted.steps

/-- Under the condition on the answers, what the code takes for landed was confirmed. -/
theorem Landed.confirmed {earlier : List Event} {i : Nat} (landed : Landed start earlier i)
    (honest : ∀ i response, .answered i response ∈ earlier → ∀ txHash,
      truthy response.hash = some txHash → response.status = some .confirmed) :
    Confirmed start earlier i := by
  rcases landed with before | polled | ⟨response, txHash, answered, hashed⟩
  · exact Or.inl before
  · exact Or.inr (Or.inl polled)
  · exact Or.inr (Or.inr ⟨response, answered, honest i response answered txHash hashed⟩)

end Attempts

/-- What a resumed rotation should keep to: `trace` has the latest event first, so what stands
after an event was seen before it. -/
structure RotationLaws (start : RotationStaging) (trace : List Event) : Prop where
  hash_after_confirmation : ∀ later staging earlier i,
    trace = later ++ .stored staging :: earlier → HasHash staging i → Confirmed start earlier i
  in_order : ∀ later i request earlier,
    trace = later ++ .submitted (i + 1) request :: earlier → Confirmed start earlier i
  no_resubmission : ∀ later i request earlier,
    trace = later ++ .submitted i request :: earlier → ¬ JobKnown start earlier i
  cleared_when_done : ∀ later earlier, trace = later ++ .cleared :: earlier →
    ∀ i < start.txs.length, Confirmed start earlier i

/-- Whatever the relayer answers and wherever the page is closed: a transaction whose job was
stored is never submitted again, and one is submitted only when all earlier ones have a hash. -/
theorem rotation_never_resubmits {env : RotationEnvironment} {start : RotationStaging}
    {storage : LocalStorage} (stored : loadStaging storage start.account = some start)
    (attempts : List Attempt) (time : Nat) :
    Lawful start (Landed start) (Run.stateAt (attemptSubmit env start.account)
      { storage, trace := [] } attempts time).trace :=
  (attempts_sound (fun _ => True) env stored (fun _ _ _ _ => trivial) time).lawful

/-- When every answer to a submission that carries a hash says confirmed, the laws hold after
any number of attempts, each of them cut off after any action. -/
theorem rotation_resumes {env : RotationEnvironment} {start : RotationStaging}
    {storage : LocalStorage} {attempts : List Attempt}
    (stored : loadStaging storage start.account = some start)
    (honest : ∀ attempt ∈ attempts, ∀ response, .response response ∈ attempt.submissions →
      ∀ txHash, truthy response.hash = some txHash → response.status = some .confirmed)
    (time : Nat) :
    RotationLaws start (Run.stateAt (attemptSubmit env start.account)
      { storage, trace := [] } attempts time).trace := by
  have sound := attempts_sound _ env stored honest time
  have confirmed : ∀ later event earlier,
      (Run.stateAt (attemptSubmit env start.account) { storage, trace := [] } attempts time).trace =
        later ++ event :: earlier →
      ∀ i, Landed start earlier i → Confirmed start earlier i := by
    intro later event earlier shape i landed
    apply landed.confirmed
    intro j response answered
    apply sound.answers j response
    change _ ∈ Progress.trace _
    rw [shape]
    exact List.mem_append_right later (List.mem_cons_of_mem event answered)
  refine ⟨?_, ?_, ?_, ?_⟩
  · intro later staging earlier i shape hashed
    exact confirmed later _ earlier shape i (sound.lawful later _ earlier shape i hashed)
  · intro later i request earlier shape
    obtain ⟨before, -⟩ := sound.lawful later _ earlier shape
    exact confirmed later _ earlier shape i (before i (Nat.lt_succ_self i))
  · intro later i request earlier shape
    exact (sound.lawful later _ earlier shape).2
  · intro later earlier shape i within
    exact confirmed later _ earlier shape i (sound.lawful later _ earlier shape i within)

/-! ### A relayer that knows the hash before the transaction lands -/

namespace SampleAttempts

def tx : StagedRotationTx where
  txXdr := SampleRotation.honestXdr
  refractorTxHash := "abababababababababababababababababababababababababababababababab"
  refractorTxUrl := "https://refractor.space/tx/abab"
  parentAuthDigestHex := "cdcd"
  relayerTxId := none
  submittedHash := none

def approval : FriendSignatureEntry where
  authenticatorData := List.replicate 37 1
  clientDataJson := [0x7b, 0x7d]
  signature := List.replicate 64 2
  nonce := "123"
  signatureExpirationLedger := 2000

def fs : FriendSignature where
  friendAccount := SampleRotation.friendAccount
  verifierAddress := SampleRotation.verifierAddress
  publicKey := List.replicate 65 4
  entries := [approval, approval]

def start : RotationStaging where
  account := SampleRotation.account
  recoveryRuleId := 4
  threshold := 1
  friends := [SampleRotation.friendAccount]
  txs := [tx, tx]
  lastLedger := 1000
  parentSignatureExpirationLedger := 2000
  description := "test rotation"
  relayKey := "BBBBBBBBBBBBBBBBBBBBBB"
  collected := Keyed.empty.put SampleRotation.friendAccount fs

def env : RotationEnvironment := SampleRotation.env SampleRotation.honestXdr 1

theorem invokes : envelopeInvocation env SampleRotation.honestXdr =
    .ok
      { hostFunction := .invokeContract (SampleRotation.removal 1)
        auth := [SampleRotation.rootEntry 1] } :=
  SampleRotation.invokes SampleRotation.honestXdr 1

theorem account_of :
    env.stellar.addressOf SampleRotation.account = .ok SampleRotation.recovering := by
  change SampleRotation.addressOf SampleRotation.account = _
  unfold SampleRotation.addressOf
  exact if_pos rfl

theorem friend_of :
    ∃ address, env.stellar.addressOf SampleRotation.friendAccount = .ok address := by
  change ∃ address, SampleRotation.addressOf SampleRotation.friendAccount = .ok address
  unfold SampleRotation.addressOf
  rw [if_neg (by decide), if_pos rfl]
  exact ⟨_, rfl⟩

theorem verifier_of :
    ∃ address, env.stellar.addressOf SampleRotation.verifierAddress = .ok address := by
  change ∃ address, SampleRotation.addressOf SampleRotation.verifierAddress = .ok address
  unfold SampleRotation.addressOf
  rw [if_neg (by decide), if_neg (by decide), if_pos rfl]
  exact ⟨_, rfl⟩

theorem nonce_of : env.stellar.int64FromString approval.nonce = .ok 123 := by
  change SampleRotation.int64FromString "123" = _
  unfold SampleRotation.int64FromString
  exact if_pos rfl

theorem nests (parentAuthDigestHex : String) :
    ∃ nested, buildFriendAuthEntry env SampleRotation.account fs approval parentAuthDigestHex =
      .ok nested ∧ encodable nested = true := by
  obtain ⟨friend_, friendOf⟩ := friend_of
  obtain ⟨verifier, verifierOf⟩ := verifier_of
  have friendOf : env.stellar.addressOf fs.friendAccount = .ok friend_ := friendOf
  have verifierOf : env.stellar.addressOf fs.verifierAddress = .ok verifier := verifierOf
  simp only [buildFriendAuthEntry, buildFriendInvocation, buildAuthPayloadScVal, signerEntries,
    signerScVal, account_of, friendOf, verifierOf, nonce_of, bind, Except.bind, pure, Except.pure,
    List.length_cons, List.length_nil, Nat.reduceAdd, one_ne_zero, if_false]
  exact ⟨_, rfl, rfl⟩

theorem authorizes {staging : RotationStaging} {staged : StagedRotationTx} {i : Nat}
    (account : staging.account = SampleRotation.account)
    (contributors : staging.contributors = [fs])
    (expiration : staging.parentSignatureExpirationLedger = 2000)
    (text : staged.txXdr = SampleRotation.honestXdr) (within : fs.entries[i]? = some approval) :
    ∃ op, authorizeStagedTx env staging staged i = .ok op ∧ extractFuncAndAuth op = .ok op := by
  obtain ⟨friend_, friendOf⟩ := friend_of
  obtain ⟨nested, built, encodes⟩ := nests staged.parentAuthDigestHex
  have friendOf : env.stellar.addressOf fs.friendAccount = .ok friend_ := friendOf
  unfold authorizeStagedTx
  rw [contributors, text, invokes, account, expiration]
  simp only [List.map_cons, List.map_nil, buildFriendAuthEntries, within, built,
    buildAuthPayloadScVal, signerEntries, signerScVal, friendOf, bind, Except.bind, pure,
    Except.pure, List.length_cons, List.length_nil, Nat.reduceAdd, one_ne_zero, if_false]
  refine ⟨_, rfl, ?_⟩
  apply if_pos
  rw [List.all_cons, List.all_cons, encodes]
  rfl


/-- The relayer takes the first transaction on and knows its hash already. -/
def taken : RelayerTxResponse where
  transactionId := some "job-1"
  hash := some "beef02"
  status := some .submitted

def attempt : Attempt where
  submissions := [.response taken]
  polls := []
  remaining := 9

def attempts : List Attempt := [attempt]

def storage : LocalStorage := saveStaging (fun _ => none) start

theorem stored : loadStaging storage start.account = some start :=
  loadStaging_saveStaging (fun _ => none) start

def withJob : RotationStaging := start.setJob 0 "job-1"

def withHash : RotationStaging := withJob.setHash 0 "beef02"

def page (trace : List Event) (storage : LocalStorage) (submissions polls : List RelayerReply)
    (remaining : Nat) : Page where
  storage := storage
  trace := trace
  submissions := submissions
  polls := polls
  remaining := remaining

def seenFirst (first : InvokeHostFunctionOp) : List Event :=
  [.stored withHash, .stored withJob, .answered 0 taken, .submitted 0 first]

theorem submits {staging : RotationStaging} {staged : StagedRotationTx} {i : Nat}
    {op : InvokeHostFunctionOp} (jobless : staged.relayerTxId = none) (before : Page)
    (authorized : authorizeStagedTx env staging staged i = .ok op)
    (encoded : extractFuncAndAuth op = .ok op) :
    (submitStagedTx env staging i staged).run before =
      (submitSorobanTransaction i op >>= fun submitted => do
        let accepted ← storeJob staging i submitted
        let txHash ← submittedOrConfirmedHash submitted
        storeHash accepted i txHash).run before := by
  unfold submitStagedTx
  rw [run_bind_returned (ofJs_run authorized _), jobless]
  change (ofJs (extractFuncAndAuth op) >>= _).run _ = _
  rw [run_bind_returned (ofJs_run encoded _)]

theorem first_run {first : InvokeHostFunctionOp}
    (authorized : authorizeStagedTx env start tx 0 = .ok first)
    (encoded : extractFuncAndAuth first = .ok first) :
    (submitStagedTx env start 0 tx).run (page [] storage [.response taken] [] 9) =
      (.returned (withHash, "beef02"),
        page (seenFirst first) (saveStaging (saveStaging storage withJob) withHash) [] [] 6) := by
  rw [submits rfl _ authorized encoded]
  rfl

/-- A submission that is never answered. -/
theorem second_run {staging : RotationStaging} {second : InvokeHostFunctionOp}
    (trace : List Event) (storage : LocalStorage) (remaining : Nat)
    (authorized : authorizeStagedTx env staging tx 1 = .ok second)
    (encoded : extractFuncAndAuth second = .ok second) :
    (submitStagedTx env staging 1 tx).run (page trace storage [] [] (remaining + 1)) =
      (.cutOff, page (.submitted 1 second :: trace) storage [] [] remaining) := by
  rw [submits rfl _ authorized encoded]
  rfl

theorem attempt_cutOff {staging : RotationStaging} {attempt : Attempt} {progress : Progress}
    {opened closed : Page} (opens : attempt.page progress = opened)
    (read : loadStaging progress.storage start.account = some staging)
    (checks : checkContributors staging = .ok ())
    (loops : (submitStagedTxs env staging.txs.length 0 staging "").run opened =
      (.cutOff, closed)) :
    attemptSubmit env start.account progress attempt =
      some { storage := closed.storage, trace := closed.trace } := by
  subst opens
  have found : (readStaging start.account).run (attempt.page progress) =
      (.returned (some staging), attempt.page progress) := by
    change (Outcome.returned (loadStaging progress.storage start.account), _) = _
    rw [read]
  apply attemptSubmit_eq
  unfold submitRotation
  rw [run_bind_returned found]
  change (ofJs (checkContributors staging) >>= _).run _ = _
  rw [run_bind_returned (ofJs_run checks _)]
  exact run_bind_cutOff loops

theorem trace_at :
    ∃ first second, (Run.stateAt (attemptSubmit env start.account) { storage, trace := [] }
      attempts 1).trace = .submitted 1 second :: seenFirst first := by
  obtain ⟨first, authorized, encoded⟩ := @authorizes start tx 0 rfl rfl rfl rfl rfl
  obtain ⟨second, authorized', encoded'⟩ := @authorizes withHash tx 1 rfl rfl rfl rfl rfl
  refine ⟨first, second, ?_⟩
  have opens : attempt.page { storage, trace := [] } = page [] storage [.response taken] [] 9 := rfl
  have loops : (submitStagedTxs env start.txs.length 0 start "").run
      (page [] storage [.response taken] [] 9) =
      (.cutOff, page (.submitted 1 second :: seenFirst first)
        (saveStaging (saveStaging storage withJob) withHash) [] [] 5) := by
    change ((submitStagedTx env start 0 tx) >>= _).run _ = _
    rw [run_bind_returned (first_run authorized encoded)]
    change ((submitStagedTx env withHash 1 tx) >>= _).run _ = _
    exact run_bind_cutOff (second_run _ _ 5 authorized' encoded')
  have accepted : Run.Accepts (attemptSubmit env start.account) { storage, trace := [] }
      attempts 0 attempt
      { storage := saveStaging (saveStaging storage withJob) withHash
        trace := .submitted 1 second :: seenFirst first } :=
    ⟨rfl, attempt_cutOff opens stored rfl loops⟩
  rw [accepted.stateAt_succ]

/-- The relayer takes a transaction on without a hash. -/
def accepted : RelayerTxResponse where
  transactionId := some "job-1"
  hash := none
  status := some .pending

def confirmed : RelayerTxResponse where
  transactionId := some "job-1"
  hash := some "feed01"
  status := some .confirmed

def waiting : Attempt where
  submissions := [.response accepted]
  polls := []
  remaining := 5

/-- The next attempt finds the job confirmed. -/
def resumed : Attempt where
  submissions := []
  polls := [.response confirmed]
  remaining := 5

def withFound : RotationStaging := withJob.setHash 0 "feed01"

def jobbed : StagedRotationTx := { tx with relayerTxId := some "job-1" }

def seenWaiting (first : InvokeHostFunctionOp) : List Event :=
  [.stored withJob, .answered 0 accepted, .submitted 0 first]

theorem waiting_run {first : InvokeHostFunctionOp}
    (authorized : authorizeStagedTx env start tx 0 = .ok first)
    (encoded : extractFuncAndAuth first = .ok first) :
    (submitStagedTx env start 0 tx).run (page [] storage [.response accepted] [] 5) =
      (.cutOff, page (seenWaiting first) (saveStaging storage withJob) [] [] 2) := by
  rw [submits rfl _ authorized encoded]
  rfl

theorem resumed_run {first : InvokeHostFunctionOp} (trace : List Event) (storage : LocalStorage)
    (authorized : authorizeStagedTx env withJob jobbed 0 = .ok first) :
    (submitStagedTx env withJob 0 jobbed).run (page trace storage [] [.response confirmed] 5) =
      (.returned (withFound, "feed01"),
        page (.stored withFound :: .polled "job-1" confirmed :: trace)
          (saveStaging storage withFound) [] [] 3) := by
  unfold submitStagedTx
  rw [run_bind_returned (ofJs_run authorized _)]
  rfl

/-- The second attempt polls the job that the first one stored, and goes on. -/
theorem resumed_at :
    ∃ first second, (Run.stateAt (attemptSubmit env start.account) { storage, trace := [] }
      [waiting, resumed] 2).trace =
        [.submitted 1 second, .stored withFound, .polled "job-1" confirmed, .stored withJob,
          .answered 0 accepted, .submitted 0 first] := by
  obtain ⟨first, authorized, encoded⟩ := @authorizes start tx 0 rfl rfl rfl rfl rfl
  obtain ⟨again, authorizedAgain, -⟩ := @authorizes withJob jobbed 0 rfl rfl rfl rfl rfl
  obtain ⟨second, authorized', encoded'⟩ := @authorizes withFound tx 1 rfl rfl rfl rfl rfl
  refine ⟨first, second, ?_⟩
  have opens : waiting.page { storage, trace := [] } =
      page [] storage [.response accepted] [] 5 := rfl
  have waits : (submitStagedTxs env start.txs.length 0 start "").run
      (page [] storage [.response accepted] [] 5) =
      (.cutOff, page (seenWaiting first) (saveStaging storage withJob) [] [] 2) := by
    change ((submitStagedTx env start 0 tx) >>= _).run _ = _
    exact run_bind_cutOff (waiting_run authorized encoded)
  have once : Run.Accepts (attemptSubmit env start.account) { storage, trace := [] }
      [waiting, resumed] 0 waiting
      { storage := saveStaging storage withJob, trace := seenWaiting first } :=
    ⟨rfl, attempt_cutOff opens stored rfl waits⟩
  have kept : loadStaging (saveStaging storage withJob) start.account = some withJob :=
    loadStaging_saveStaging storage withJob
  have loops : (submitStagedTxs env withJob.txs.length 0 withJob "").run
      (page (seenWaiting first) (saveStaging storage withJob) [] [.response confirmed] 5) =
      (.cutOff, page
        (.submitted 1 second :: .stored withFound :: .polled "job-1" confirmed ::
          seenWaiting first)
        (saveStaging (saveStaging storage withJob) withFound) [] [] 2) := by
    change ((submitStagedTx env withJob 0 jobbed) >>= _).run _ = _
    rw [run_bind_returned (resumed_run _ _ authorizedAgain)]
    change ((submitStagedTx env withFound 1 tx) >>= _).run _ = _
    exact run_bind_cutOff (second_run _ _ 2 authorized' encoded')
  have twice : Run.Accepts (attemptSubmit env start.account) { storage, trace := [] }
      [waiting, resumed] 1 resumed
      { storage := saveStaging (saveStaging storage withJob) withFound
        trace := .submitted 1 second :: .stored withFound :: .polled "job-1" confirmed ::
          seenWaiting first } := by
    refine ⟨rfl, ?_⟩
    rw [once.stateAt_succ]
    have reopens : resumed.page
        { storage := saveStaging storage withJob, trace := seenWaiting first } =
        page (seenWaiting first) (saveStaging storage withJob) [] [.response confirmed] 5 := rfl
    exact attempt_cutOff reopens kept rfl loops
  rw [twice.stateAt_succ]
  rfl

end SampleAttempts

theorem rotation_resumes_after_timeout :
    ∃ first second trace,
      (Run.stateAt (attemptSubmit SampleAttempts.env SampleAttempts.start.account)
        { storage := SampleAttempts.storage, trace := [] }
        [SampleAttempts.waiting, SampleAttempts.resumed] 2).trace = trace ∧
      trace = [.submitted 1 second, .stored SampleAttempts.withFound,
        .polled "job-1" SampleAttempts.confirmed, .stored SampleAttempts.withJob,
        .answered 0 SampleAttempts.accepted, .submitted 0 first] ∧
      RotationLaws SampleAttempts.start trace := by
  obtain ⟨first, second, seen⟩ := SampleAttempts.resumed_at
  refine ⟨first, second, _, rfl, seen, ?_⟩
  apply rotation_resumes SampleAttempts.stored
  intro attempt listed response answers txHash hashed
  rcases List.mem_cons.mp listed with rfl | last
  · rw [SampleAttempts.waiting, List.mem_singleton] at answers
    cases answers
    cases hashed
  · rw [List.mem_singleton] at last
    subst last
    cases answers

/-- An answer with a hash and the status submitted: the hash is stored and the second transaction
is submitted, while nothing has been confirmed. -/
theorem rotation_unconfirmed :
    ∃ first second,
      (Run.stateAt (attemptSubmit SampleAttempts.env SampleAttempts.start.account)
        { storage := SampleAttempts.storage, trace := [] } SampleAttempts.attempts 1).trace =
        [.submitted 1 second, .stored SampleAttempts.withHash, .stored SampleAttempts.withJob,
          .answered 0 SampleAttempts.taken, .submitted 0 first] ∧
      SampleAttempts.taken.status = some .submitted ∧
      HasHash SampleAttempts.withHash 0 ∧
      ¬ RotationLaws SampleAttempts.start
        (Run.stateAt (attemptSubmit SampleAttempts.env SampleAttempts.start.account)
          { storage := SampleAttempts.storage, trace := [] } SampleAttempts.attempts 1).trace := by
  obtain ⟨first, second, seen⟩ := SampleAttempts.trace_at
  refine ⟨first, second, seen, rfl, ⟨_, "beef02", rfl, rfl⟩, ?_⟩
  intro laws
  rw [seen] at laws
  rcases laws.in_order [] 0 second (SampleAttempts.seenFirst first) rfl with
    ⟨staged, txHash, present, hashed⟩ | ⟨transactionId, response, -, polled, -⟩ |
    ⟨response, answered, status⟩
  · cases present
    cases hashed
  · simp only [SampleAttempts.seenFirst, List.mem_cons, reduceCtorEq, false_or,
      List.not_mem_nil] at polled
  · simp only [SampleAttempts.seenFirst, List.mem_cons, reduceCtorEq, Event.answered.injEq,
      true_and, false_or, List.not_mem_nil, or_false] at answered
    subst answered
    exact absurd status (by decide)

end Nido.Frontend
