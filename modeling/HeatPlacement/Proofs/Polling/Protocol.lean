import HeatPlacement.Proofs.Polling.Course
import HeatPlacement.Store.Local
import Mathlib.Algebra.Order.Floor.Div

/-!
# The questions of a submission

A submission writes its request, and then asks for the result row at regular times until there is
one or the wait is over. Nothing but the rows that its questions find decides on its course.

* `Polling.rowAt`: the row that a question finds, where the same question is asked again and again
* `Polling.questions`: the questions from a time on, with their times
* `Polling.leads_questions`: **the questions without a row**, one after another
* `Polling.run_of_row`, `Polling.run_of_no_row`: the calls, the outcome and the end of a submission
  that finds a row in time, and of one that does not
-/

namespace HeatPlacement

namespace Polling

variable {σ : Type}

/-! ### Questions and the rows that they find -/

/-- The row that an answer holds. A failed call finds none. -/
def foundRow : StoreAnswer → Option Json
  | .ok row => row
  | .error _ => none

/-- The state of a store after so many questions for the result row under a key. -/
def asked (store : Store σ) (key : String) (state : σ) : Nat → σ
  | 0 => state
  | n + 1 => asked store key (store (.get .results key) state).2 n

/-- The row that a question finds after so many questions before it. -/
def rowAt (store : Store σ) (key : String) (state : σ) (n : Nat) : Option Json :=
  foundRow (store (.get .results key) (asked store key state n)).1

theorem rowAt_succ (store : Store σ) (key : String) (state : σ) (n : Nat) :
    rowAt store key state (n + 1) = rowAt store key (store (.get .results key) state).2 n := rfl

/-- The questions after so many others are later questions. -/
theorem rowAt_asked (store : Store σ) (key : String) (state : σ) (m n : Nat) :
    rowAt store key (asked store key state m) n = rowAt store key state (m + n) := by
  induction m generalizing state with
  | zero => rw [asked, Nat.zero_add]
  | succ m ih => rw [asked, ih, Nat.add_right_comm, rowAt_succ]

/-- The last of some questions leaves the state in which they end. -/
theorem asked_succ (store : Store σ) (key : String) (state : σ) (n : Nat) :
    asked store key state (n + 1) = (store (.get .results key) (asked store key state n)).2 := by
  induction n generalizing state with
  | zero => rfl
  | succ n ih => exact ih _

/-- So many questions for the result row under a key, from a time on. -/
def questions (settings : Settings) (key : String) (now count : Nat) : List (Nat × StoreCall) :=
  (List.range count).map fun i => (now + i * settings.pollEvery.millis, .get .results key)

theorem questions_succ (settings : Settings) (key : String) (now count : Nat) :
    questions settings key now (count + 1) =
      (now, .get .results key) ::
        questions settings key (now + settings.pollEvery.millis) count := by
  simp only [questions, List.range_succ_eq_map, List.map_cons, List.map_map, Nat.zero_mul,
    Nat.add_zero]
  refine congrArg _ (List.map_congr_left fun i _ => ?_)
  rw [Function.comp_apply, Nat.succ_mul, Nat.add_comm (i * _), Nat.add_assoc]

theorem questions_append_last (settings : Settings) (key : String) (now count : Nat) :
    questions settings key now count ++
        [(now + count * settings.pollEvery.millis, .get .results key)] =
      questions settings key now (count + 1) := by
  simp [questions, List.range_succ]

/-! ### The course of the questions -/

section Questions

variable {settings : Settings} {store : Store σ} {key : String} {now : Nat} {state : σ}

/-- A request is written in one step, whatever comes of it. -/
theorem leads_submitting (document : Json) :
    Leads settings store key 1 ⟨now, .submitting document, state⟩
      [(now, .insert .requests document)]
      ⟨now, .asking, (store (.insert .requests document) state).2⟩ :=
  .call rfl (.refl _)

theorem answered_asking_of_some {answer : StoreAnswer} {row : Json}
    (h : foundRow answer = some row) : Phase.asking.answered answer = .clearing row := by
  cases answer with
  | error e => cases h
  | ok found =>
    cases h
    rfl

theorem answered_asking_of_none {answer : StoreAnswer} (h : foundRow answer = none) :
    Phase.asking.answered answer = .waiting := by
  cases answer with
  | error e => rfl
  | ok found =>
    cases h
    rfl

/-- A question that finds a row: the row is removed and handed on, whatever comes of the removal. -/
theorem leads_asking_of_some {row : Json} (h : rowAt store key state 0 = some row) :
    Leads settings store key 2 ⟨now, .asking, state⟩
      [(now, .get .results key), (now, .delete .results key removeDocument)]
      ⟨now, .finished (.delivered row),
        (store (.delete .results key removeDocument) (asked store key state 1)).2⟩ := by
  have hphase : Phase.asking.answered (store (.get .results key) state).1 = .clearing row :=
    answered_asking_of_some h
  refine .call rfl ?_
  rw [hphase]
  exact .call rfl (.refl _)

/-- A question in time that finds no row: the next one comes after a pause. -/
theorem leads_asking_of_none (h : rowAt store key state 0 = none)
    (hearly : now < settings.waitUntil.millis) :
    Leads settings store key 2 ⟨now, .asking, state⟩ [(now, .get .results key)]
      ⟨now + settings.pollEvery.millis, .asking, asked store key state 1⟩ := by
  have hphase : Phase.asking.answered (store (.get .results key) state).1 = .waiting :=
    answered_asking_of_none h
  refine .call rfl ?_
  rw [hphase]
  exact .sleep rfl hearly (.refl _)

/-- The last question, if it finds no row. -/
theorem leads_asking_of_late (h : rowAt store key state 0 = none)
    (hlate : settings.waitUntil.millis ≤ now) :
    Leads settings store key 2 ⟨now, .asking, state⟩ [(now, .get .results key)]
      ⟨now, .finished .timedOut, asked store key state 1⟩ := by
  have hphase : Phase.asking.answered (store (.get .results key) state).1 = .waiting :=
    answered_asking_of_none h
  refine .call rfl ?_
  rw [hphase]
  exact .late rfl hlate (.refl _)

/-- **Questions without a row**, each of them in time, follow one another. -/
theorem leads_questions {count : Nat} (hnone : ∀ i < count, rowAt store key state i = none)
    (hearly : ∀ i < count, now + i * settings.pollEvery.millis < settings.waitUntil.millis) :
    Leads settings store key (2 * count) ⟨now, .asking, state⟩ (questions settings key now count)
      ⟨now + count * settings.pollEvery.millis, .asking, asked store key state count⟩ := by
  induction count generalizing now state with
  | zero => simpa [questions, asked] using Leads.refl (⟨now, .asking, state⟩ : Moment σ)
  | succ count ih =>
    have htime : ∀ i, now + settings.pollEvery.millis + i * settings.pollEvery.millis =
        now + (i + 1) * settings.pollEvery.millis := by
      intro i
      rw [Nat.succ_mul]
      omega
    have hearlier : now < settings.waitUntil.millis := by
      simpa using hearly 0 (Nat.succ_pos count)
    -- The first question leads to the others, which come a pause later.
    have hfirst := leads_asking_of_none (hnone 0 (Nat.succ_pos count)) hearlier
    have hrest : Leads settings store key (2 * count)
        ⟨now + settings.pollEvery.millis, .asking, asked store key state 1⟩ _ _ :=
      ih (fun i hi => hnone (i + 1) (Nat.succ_lt_succ hi)) fun i hi =>
        (htime i).trans_lt (hearly (i + 1) (Nat.succ_lt_succ hi))
    rw [htime] at hrest
    rw [questions_succ, Nat.mul_succ, Nat.add_comm]
    exact hfirst.trans hrest

end Questions

/-! ### The course of a submission -/

section Submission

variable {settings : Settings} {store : Store σ} {key : String} {document : Json} {state : σ}

/-- A submission whose questions before the last one come in time and find no row. -/
theorem leads_to_question {n : Nat}
    (hnone : ∀ i < n, rowAt store key (store (.insert .requests document) state).2 i = none)
    (hearly : ∀ i < n, i * settings.pollEvery.millis < settings.waitUntil.millis) :
    Leads settings store key (1 + 2 * n) ⟨0, .submitting document, state⟩
      ((0, .insert .requests document) :: questions settings key 0 n)
      ⟨n * settings.pollEvery.millis, .asking,
        asked store key (store (.insert .requests document) state).2 n⟩ := by
  have hquestions : Leads settings store key (2 * n) ⟨0, .asking, _⟩ _ _ :=
    leads_questions hnone fun i hi => (Nat.zero_add _).trans_lt (hearly i hi)
  rw [Nat.zero_add] at hquestions
  exact (leads_submitting document).trans hquestions

/-- A submission whose question finds a row after questions in time without one. -/
theorem leads_to_row {n : Nat} {row : Json}
    (hrow : rowAt store key (store (.insert .requests document) state).2 n = some row)
    (hnone : ∀ i < n, rowAt store key (store (.insert .requests document) state).2 i = none)
    (hearly : ∀ i < n, i * settings.pollEvery.millis < settings.waitUntil.millis) :
    Leads settings store key (1 + 2 * n + 2) ⟨0, .submitting document, state⟩
      ((0, .insert .requests document) :: questions settings key 0 (n + 1) ++
        [(n * settings.pollEvery.millis, .delete .results key removeDocument)])
      ⟨n * settings.pollEvery.millis, .finished (.delivered row),
        (store (.delete .results key removeDocument)
          (asked store key (store (.insert .requests document) state).2 (n + 1))).2⟩ := by
  have hlast : Leads settings store key 2 ⟨n * settings.pollEvery.millis, .asking, _⟩ _ _ :=
    leads_asking_of_some ((rowAt_asked store key _ n 0).trans hrow)
  have hall := (leads_to_question hnone hearly).trans hlast
  rw [← questions_append_last, Nat.zero_add, List.cons_append, List.append_assoc, asked_succ]
  exact hall

/-- A submission whose questions find no row, the last of them when the wait is over. -/
theorem leads_to_timeout {n : Nat}
    (hnone : ∀ i ≤ n, rowAt store key (store (.insert .requests document) state).2 i = none)
    (hearly : ∀ i < n, i * settings.pollEvery.millis < settings.waitUntil.millis)
    (hlate : settings.waitUntil.millis ≤ n * settings.pollEvery.millis) :
    Leads settings store key (1 + 2 * n + 2) ⟨0, .submitting document, state⟩
      ((0, .insert .requests document) :: questions settings key 0 (n + 1))
      ⟨n * settings.pollEvery.millis, .finished .timedOut,
        asked store key (store (.insert .requests document) state).2 (n + 1)⟩ := by
  have hlast := leads_asking_of_late ((rowAt_asked store key _ n 0).trans (hnone n le_rfl)) hlate
  have hall := (leads_to_question (fun i hi => hnone i hi.le) hearly).trans hlast
  rw [← questions_append_last, Nat.zero_add, ← List.cons_append, asked_succ]
  exact hall

end Submission

/-! ### The number of questions -/

/-- The number of questions before the one that is late. -/
def Settings.intime (settings : Settings) : Nat :=
  settings.waitUntil.millis ⌈/⌉ settings.pollEvery.millis

section Intime

variable {settings : Settings} (hpoll : 0 < settings.pollEvery.millis)

include hpoll

theorem Settings.waitUntil_le : settings.waitUntil.millis ≤
    settings.intime * settings.pollEvery.millis := by
  rw [Nat.mul_comm]
  exact le_smul_ceilDiv hpoll

theorem Settings.lt_waitUntil {n : Nat} (h : n < settings.intime) :
    n * settings.pollEvery.millis < settings.waitUntil.millis := by
  by_contra hle
  rw [not_lt, Nat.mul_comm] at hle
  exact absurd ((ceilDiv_le_iff_le_mul hpoll).mpr hle) (Nat.not_le.mpr h)

/-- The steps of a run are enough for all questions. -/
theorem Settings.lt_steps {n : Nat} (h : n ≤ settings.intime) : 1 + 2 * n + 2 < settings.steps := by
  have hintime : settings.intime ≤ settings.waitUntil.millis :=
    (ceilDiv_le_iff_le_mul hpoll).mpr (Nat.le_mul_of_pos_left _ hpoll)
  unfold Settings.steps
  omega

end Intime

/-! ### The run of a submission -/

section Run

variable {settings : Settings} {store : Store σ} {key : String} {document : Json} {state : σ}

/-- A course that is short enough for the run is its calls and its outcome. -/
theorem run_of_leads (hpoll : 0 < settings.pollEvery.millis) {n time : Nat}
    (hn : n ≤ settings.intime) {outcome : Outcome} {calls : List (Nat × StoreCall)} {last : σ}
    (h : Leads settings store key (1 + 2 * n + 2) ⟨0, .submitting document, state⟩ calls
      ⟨time, .finished outcome, last⟩) :
    let run := run settings store key settings.steps 0 (.submitting document) state
    run.result = outcome ∧ run.calls = calls ∧
      Concludes settings store key ⟨0, .submitting document, state⟩ outcome run.calls time := by
  have hrun := run_eq_of_leads h rfl (Settings.lt_steps hpoll hn)
  simp only [hrun]
  exact ⟨trivial, trivial, _, last, h⟩

/-- **The first row in time is delivered.** -/
theorem run_of_row (hpoll : 0 < settings.pollEvery.millis) {n : Nat} (hn : n ≤ settings.intime)
    {found : Json}
    (hrow : rowAt store key (store (.insert .requests document) state).2 n = some found)
    (hnone : ∀ i < n, rowAt store key (store (.insert .requests document) state).2 i = none) :
    let run := run settings store key settings.steps 0 (.submitting document) state
    run.result = .delivered found ∧
      run.calls = (0, .insert .requests document) :: questions settings key 0 (n + 1) ++
        [(n * settings.pollEvery.millis, .delete .results key removeDocument)] ∧
      Concludes settings store key ⟨0, .submitting document, state⟩ (.delivered found) run.calls
        (n * settings.pollEvery.millis) :=
  run_of_leads hpoll hn (leads_to_row hrow hnone fun _ hi =>
    Settings.lt_waitUntil hpoll (hi.trans_le hn))

/-- **Without a row in time** the submission times out. -/
theorem run_of_no_row (hpoll : 0 < settings.pollEvery.millis)
    (hnone : ∀ n ≤ settings.intime,
      rowAt store key (store (.insert .requests document) state).2 n = none) :
    let run := run settings store key settings.steps 0 (.submitting document) state
    run.result = .timedOut ∧
      run.calls = (0, .insert .requests document) ::
        questions settings key 0 (settings.intime + 1) ∧
      Concludes settings store key ⟨0, .submitting document, state⟩ .timedOut run.calls
        (settings.intime * settings.pollEvery.millis) :=
  run_of_leads hpoll le_rfl (leads_to_timeout hnone (fun _ hi => Settings.lt_waitUntil hpoll hi)
    (Settings.waitUntil_le hpoll))

/-- Either one of the questions is the first that finds a row, or none does. -/
theorem first_row_or_none (row : Nat → Option Json) (late : Nat) :
    (∃ n ≤ late, ∃ found, row n = some found ∧ ∀ i < n, row i = none) ∨
      ∀ n ≤ late, row n = none := by
  by_cases h : ∃ n ≤ late, row n ≠ none
  · left
    obtain ⟨hle, hne⟩ := Nat.find_spec h
    obtain ⟨found, hfound⟩ := Option.ne_none_iff_exists'.mp hne
    refine ⟨Nat.find h, hle, found, hfound, fun i hi => ?_⟩
    by_contra hrow
    exact Nat.find_min h hi ⟨hi.le.trans hle, hrow⟩
  · right
    intro n hn
    by_contra hrow
    exact h ⟨n, hn, hrow⟩

/-- Every submission comes to the outcome of its run. -/
theorem exists_concludes (hpoll : 0 < settings.pollEvery.millis) (store : Store σ) (key : String)
    (document : Json) (state : σ) :
    let run := run settings store key settings.steps 0 (.submitting document) state
    ∃ time, Concludes settings store key ⟨0, .submitting document, state⟩ run.result run.calls
      time := by
  rcases first_row_or_none (rowAt store key (store (.insert .requests document) state).2)
    settings.intime with ⟨n, hn, found, hfound, hnone⟩ | hnone
  · obtain ⟨hresult, -, hconcludes⟩ := run_of_row hpoll hn hfound hnone
    exact ⟨_, hresult ▸ hconcludes⟩
  · obtain ⟨hresult, -, hconcludes⟩ := run_of_no_row hpoll hnone
    exact ⟨_, hresult ▸ hconcludes⟩

end Run

end Polling

end HeatPlacement
