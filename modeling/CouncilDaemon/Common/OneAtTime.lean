import Mathlib.Data.List.Basic
import Mathlib.Data.List.Nodup
import Mathlib.Logic.Function.Basic

/-! `@OneAtTime`, modelled from the spec (the decorator is not in the repository): a method so
decorated keeps a flag; a call that finds the flag set returns at once and does nothing, and any
other call sets it, runs the method's body, and clears it in a `finally` however the body ends.
Calls interleave at the body's awaits: a call's body is the list of its steps between awaits, each
a change of the shared state (a body that throws is the list of the steps it gets through), and a
run is a schedule of which call moves next.

Proved: along any schedule at most one call is past the flag at a time, and the flag is set
exactly then; the shared state is the one the calls that passed the flag produce when they run
the steps they have run one after another, whole calls in the order they passed the flag. -/

namespace CouncilDaemon.Common

/-- Where one call of a method decorated with `@OneAtTime` stands. -/
inductive Call where
  /-- called, not yet at the flag -/
  | pending
  /-- past the flag, with `done` steps of its body run -/
  | running (done : ℕ)
  /-- found the flag set and returned -/
  | skipped
  /-- its body ended and the flag was cleared -/
  | finished
  deriving DecidableEq, Repr

/-- Whether the call got past the flag. -/
def Call.passed : Call → Bool
  | .running _ | .finished => true
  | _ => false

/-- The steps of its body `steps` the call has run. -/
def Call.stepsRun {S : Type} (steps : List (S → S)) : Call → List (S → S)
  | .running done => steps.take done
  | .finished => steps
  | _ => []

/-- The calls of one decorated method and what they share: the flag, the state, and where each
call stands. -/
structure OneAtTime (S : Type) where
  isRunning : Bool
  state : S
  calls : ℕ → Call

/-- No call made yet. -/
def OneAtTime.start {S : Type} (s : S) : OneAtTime S :=
  ⟨false, s, fun _ => .pending⟩

/-- Running steps one after another. -/
def runSteps {S : Type} (steps : List (S → S)) (s : S) : S :=
  steps.foldl (fun s step => step s) s

section Run

variable {S : Type} (body : ℕ → List (S → S))

/-- Call `i` moves: at the flag it returns if the flag is set and otherwise sets it; past the
flag it runs its next step, or, with none left, clears the flag. -/
def oneAtTimeStep (g : OneAtTime S) (i : ℕ) : OneAtTime S :=
  match g.calls i with
  | .pending =>
    if g.isRunning then { g with calls := Function.update g.calls i .skipped }
    else { g with isRunning := true, calls := Function.update g.calls i (.running 0) }
  | .running done =>
    match (body i)[done]? with
    | some step =>
      { g with state := step g.state, calls := Function.update g.calls i (.running (done + 1)) }
    | none => { g with isRunning := false, calls := Function.update g.calls i .finished }
  | _ => g

/-- The calls moving in the order of `schedule`. -/
def runOneAtTime (schedule : List ℕ) (g : OneAtTime S) : OneAtTime S :=
  schedule.foldl (oneAtTimeStep body) g

/-! ### The calls run one after another -/

/-- The calls in `order` are those past the flag, in the order they passed it: the state is what
their steps run so far produce one call after another, a call past the flag is the last of them,
and the flag is set exactly when a call is past it and not finished. -/
structure Serial (s₀ : S) (g : OneAtTime S) (order : List ℕ) : Prop where
  nodup : order.Nodup
  mem_iff : ∀ i, i ∈ order ↔ (g.calls i).passed = true
  state_eq : g.state = runSteps (order.flatMap fun i => (g.calls i).stepsRun (body i)) s₀
  running_last : ∀ i done, g.calls i = .running done → order.getLast? = some i
  done_le : ∀ i done, g.calls i = .running done → done ≤ (body i).length
  isRunning_iff : g.isRunning = true ↔ ∃ i done, g.calls i = .running done

variable {body}

theorem Serial.start (s₀ : S) : Serial body s₀ (.start s₀) [] where
  nodup := List.nodup_nil
  mem_iff _ := by simp [OneAtTime.start, Call.passed]
  state_eq := rfl
  running_last _ _ h := nomatch h
  done_le _ _ h := nomatch h
  isRunning_iff := by simp [OneAtTime.start]

theorem Serial.running_unique {s₀ : S} {g : OneAtTime S} {order : List ℕ}
    (h : Serial body s₀ g order) {i j done done' : ℕ} (hi : g.calls i = .running done)
    (hj : g.calls j = .running done') : i = j :=
  Option.some.inj ((h.running_last i done hi).symm.trans (h.running_last j done' hj))

theorem flatMap_stepsRun_update {calls : ℕ → Call} {order : List ℕ} {i : ℕ} (hi : i ∉ order)
    (c : Call) :
    order.flatMap (fun j => (Function.update calls i c j).stepsRun (body j)) =
      order.flatMap fun j => (calls j).stepsRun (body j) :=
  List.flatMap_congr fun j hj => by rw [Function.update_noteq (ne_of_mem_of_not_mem hj hi)]

theorem running_of_update {calls : ℕ → Call} {i j done : ℕ} {c : Call}
    (hc : ∀ done, c ≠ .running done) (hj : Function.update calls i c j = .running done) :
    j ≠ i ∧ calls j = .running done := by
  by_cases hji : j = i
  · subst hji
    rw [Function.update_same] at hj
    exact absurd hj (hc done)
  · rw [Function.update_noteq hji] at hj
    exact ⟨hji, hj⟩

variable {s₀ : S} {g : OneAtTime S} {order : List ℕ} {i : ℕ}

/-- A call that finds the flag set returns, and nothing else changes. -/
theorem Serial.skip (h : Serial body s₀ g order) (hcall : g.calls i = .pending) :
    Serial body s₀ { g with calls := Function.update g.calls i .skipped } order := by
  have hi : i ∉ order := by simp [h.mem_iff, hcall, Call.passed]
  have hc : ∀ done, Call.skipped ≠ .running done := by simp
  refine ⟨h.nodup, fun j => ?_, ?_, fun j done hj => h.running_last j done (running_of_update hc hj).2,
    fun j done hj => h.done_le j done (running_of_update hc hj).2,
    h.isRunning_iff.trans ⟨fun ⟨j, done, hj⟩ => ⟨j, done, ?_⟩,
      fun ⟨j, done, hj⟩ => ⟨j, done, (running_of_update hc hj).2⟩⟩⟩
  · by_cases hji : j = i
    · subst hji
      simp [hi, Call.passed]
    · simp only [Function.update_noteq hji, h.mem_iff]
  · rw [flatMap_stepsRun_update hi]
    exact h.state_eq
  · have hji : j ≠ i := fun hji => by simp [hji, hcall] at hj
    simp only [Function.update_noteq hji, hj]

/-- A call that finds the flag clear sets it and becomes the last call past it. -/
theorem Serial.acquire (h : Serial body s₀ g order) (hcall : g.calls i = .pending)
    (hflag : g.isRunning = false) :
    Serial body s₀ { g with isRunning := true, calls := Function.update g.calls i (.running 0) }
      (order ++ [i]) := by
  have hi : i ∉ order := by simp [h.mem_iff, hcall, Call.passed]
  have hnone : ∀ j done, g.calls j ≠ .running done := fun j done hj =>
    absurd (h.isRunning_iff.2 ⟨j, done, hj⟩) (by simp [hflag])
  refine ⟨h.nodup.append (List.nodup_singleton i) (List.disjoint_singleton.2 hi), fun j => ?_, ?_,
    fun j done hj => ?_, fun j done hj => ?_, ⟨fun _ => ⟨i, 0, by simp⟩, fun _ => rfl⟩⟩
  · by_cases hji : j = i
    · subst hji
      simp [Call.passed]
    · simp only [Function.update_noteq hji, ← h.mem_iff]
      simp [hji]
  · dsimp only
    rw [List.flatMap_append, flatMap_stepsRun_update hi, List.flatMap_singleton,
      Function.update_same]
    simpa [Call.stepsRun] using h.state_eq
  · by_cases hji : j = i
    · subst hji
      simp
    · simp only [Function.update_noteq hji] at hj
      exact absurd hj (hnone j done)
  · by_cases hji : j = i
    · subst hji
      simp only [Function.update_same, Call.running.injEq] at hj
      omega
    · simp only [Function.update_noteq hji] at hj
      exact absurd hj (hnone j done)

/-- The call past the flag runs its next step: the step comes last in the serial order. -/
theorem Serial.runStep (h : Serial body s₀ g order) {done : ℕ} (hcall : g.calls i = .running done)
    {step : S → S} (hstep : (body i)[done]? = some step) :
    Serial body s₀
      { g with state := step g.state, calls := Function.update g.calls i (.running (done + 1)) }
      order := by
  obtain ⟨pre, rfl⟩ := List.getLast?_eq_some_iff.1 (h.running_last i done hcall)
  have hi : i ∉ pre := fun hmem =>
    (List.nodup_append.1 h.nodup).2.2 hmem (List.mem_singleton_self i)
  have hlt : done < (body i).length := (List.getElem?_eq_some_iff.1 hstep).1
  refine ⟨h.nodup, fun j => ?_, ?_, fun j done' hj => ?_, fun j done' hj => ?_, ?_⟩
  · by_cases hji : j = i
    · subst hji
      simp [List.mem_append, Call.passed]
    · simp only [Function.update_noteq hji, h.mem_iff]
  · dsimp only
    rw [List.flatMap_append, flatMap_stepsRun_update hi, List.flatMap_singleton,
      Function.update_same]
    have hstate := h.state_eq
    rw [List.flatMap_append, List.flatMap_singleton, hcall] at hstate
    simp only [Call.stepsRun, List.take_succ, hstep, Option.toList_some, ← List.append_assoc,
      runSteps, List.foldl_append, List.foldl_cons, List.foldl_nil] at hstate ⊢
    rw [hstate]
  · by_cases hji : j = i
    · subst hji
      exact h.running_last j done hcall
    · simp only [Function.update_noteq hji] at hj
      exact h.running_last j done' hj
  · by_cases hji : j = i
    · subst hji
      simp only [Function.update_same, Call.running.injEq] at hj
      omega
    · simp only [Function.update_noteq hji] at hj
      exact h.done_le j done' hj
  · refine h.isRunning_iff.trans ⟨fun _ => ⟨i, done + 1, by simp⟩, fun _ => ⟨i, done, hcall⟩⟩

/-- The call past the flag, with no step left, clears the flag in its `finally`. -/
theorem Serial.release (h : Serial body s₀ g order) {done : ℕ} (hcall : g.calls i = .running done)
    (hstep : (body i)[done]? = none) :
    Serial body s₀ { g with isRunning := false, calls := Function.update g.calls i .finished }
      order := by
  obtain ⟨pre, rfl⟩ := List.getLast?_eq_some_iff.1 (h.running_last i done hcall)
  have hi : i ∉ pre := fun hmem =>
    (List.nodup_append.1 h.nodup).2.2 hmem (List.mem_singleton_self i)
  have hc : ∀ done, Call.finished ≠ .running done := by simp
  refine ⟨h.nodup, fun j => ?_, ?_, fun j done' hj => ?_, fun j done' hj => ?_, ?_⟩
  · by_cases hji : j = i
    · subst hji
      simp [List.mem_append, Call.passed]
    · simp only [Function.update_noteq hji, h.mem_iff]
  · dsimp only
    rw [List.flatMap_append, flatMap_stepsRun_update hi, List.flatMap_singleton,
      Function.update_same]
    have hstate := h.state_eq
    rw [List.flatMap_append, List.flatMap_singleton, hcall] at hstate
    rwa [Call.stepsRun, List.take_of_length_le (List.getElem?_eq_none_iff.1 hstep)] at hstate
  · exact h.running_last j done' (running_of_update hc hj).2
  · exact h.done_le j done' (running_of_update hc hj).2
  · refine iff_of_false Bool.false_ne_true fun ⟨j, done', hj⟩ => ?_
    obtain ⟨hji, hj⟩ := running_of_update hc hj
    exact hji (h.running_unique hj hcall)

theorem Serial.oneAtTimeStep (h : Serial body s₀ g order) (i : ℕ) :
    ∃ order', Serial body s₀ (oneAtTimeStep body g i) order' := by
  unfold CouncilDaemon.Common.oneAtTimeStep
  split
  · rename_i hcall
    split
    · exact ⟨_, h.skip hcall⟩
    · rename_i hflag
      exact ⟨_, h.acquire hcall (by simpa using hflag)⟩
  · rename_i done hcall
    cases hstep : (body i)[done]? with
    | some step => exact ⟨_, h.runStep hcall hstep⟩
    | none => exact ⟨_, h.release hcall hstep⟩
  · exact ⟨_, h⟩

theorem runOneAtTime_serialInv (s₀ : S) (schedule : List ℕ) :
    ∃ order, Serial body s₀ (runOneAtTime body schedule (.start s₀)) order := by
  induction schedule using List.reverseRecOn with
  | nil => exact ⟨[], Serial.start s₀⟩
  | append_singleton schedule i ih =>
    obtain ⟨order, h⟩ := ih
    rw [runOneAtTime, List.foldl_append, List.foldl_cons, List.foldl_nil]
    exact h.oneAtTimeStep i

/-- Two overlapping calls whose bodies add `1` and `10`: the second finds the flag set and
returns, so only the first body runs. -/
example :
    (runOneAtTime (fun i => [(· + 10 ^ i)]) [0, 1, 0, 0] (.start 0)).state = 1 ∧
      (runOneAtTime (fun i => [(· + 10 ^ i)]) [0, 1, 0, 0] (.start 0)).calls 1 = .skipped := by
  decide

end Run

end CouncilDaemon.Common
