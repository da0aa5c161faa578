import CouncilDaemon.Guardian.HandleNewBlock
import Mathlib.Data.List.Nodup

/-! The module branches of a tick do not interfere. A branch reads and writes the shared
contracts-state map only at its own module id, inside `handleCorrectKeys`, and the deposit
messages it hands on carry that id. So when the loaded modules have distinct ids, after any
interleaving each branch stands where it would stand had it run alone, resumed as often as the
schedule resumed it: the same stage, the same contracts state at its id, and the same deposit
messages for its id in the same order; the map is untouched outside the modules' ids. The
`Promise.all` has rejected exactly when some branch has failed. Hence a whole tick leaves each
module as its branch alone would, and any two schedules that resume every branch equally often
end the tick the same way, up to the order of the messages and the error a failure reports. -/

namespace CouncilDaemon.Guardian

open StakingModuleGuard

variable (GUARDIAN_DEPOSIT_RESIGNING_BLOCKS : ℕ+)

/-- A branch resumed `n` times with no other branch in between, from the contracts-state map
`states`: its stage, the map, and the messages it handed on. -/
def soloRun (ctx : TickContext) (responses : ModuleResponses)
    (stakingModuleData : StakingModuleData) (states : ContractsStates) :
    ℕ → Branch × ContractsStates × List DepositMessage
  | 0 => (.getInvalidKeys stakingModuleData, states, [])
  | n + 1 =>
    let run := soloRun ctx responses stakingModuleData states n
    let step := branchStep GUARDIAN_DEPOSIT_RESIGNING_BLOCKS ctx responses run.2.1 run.1
    (step.1, step.2.1, run.2.2 ++ step.2.2.toList)

variable {ctx : TickContext} {responses : ModuleResponses}

/-! ### What a branch touches -/

theorem branchStep_states_of_ne (states : ContractsStates) {a : ℕ} :
    ∀ {branch : Branch}, (∀ smd, branch = .handleUnvetting smd → smd.stakingModuleId ≠ a) →
      (branchStep GUARDIAN_DEPOSIT_RESIGNING_BLOCKS ctx responses states branch).2.1 a = states a
  | .handleUnvetting smd, h => by
    have hne := h smd rfl
    unfold branchStep
    cases responses.unvetting with
    | error e => rfl
    | ok u =>
      dsimp only
      split
      · rfl
      · split <;> exact Function.update_noteq hne.symm _ _
  | .getInvalidKeys _, _ => by unfold branchStep; cases responses.invalidKeys <;> rfl
  | .signDepositData _, _ => by unfold branchStep; cases responses.sign <;> rfl
  | .sendDepositMessage, _ => by unfold branchStep; cases responses.send <;> rfl
  | .done, _ => rfl
  | .failed _, _ => rfl

/-- A resumption depends on the map only at the id of a record awaiting `handleUnvetting`, and
where two maps agree so do the maps it leaves. -/
theorem branchStep_congr (states states' : ContractsStates) :
    ∀ {branch : Branch}, (∀ smd, branch = .handleUnvetting smd →
        states smd.stakingModuleId = states' smd.stakingModuleId) →
      (branchStep GUARDIAN_DEPOSIT_RESIGNING_BLOCKS ctx responses states branch).1 =
          (branchStep GUARDIAN_DEPOSIT_RESIGNING_BLOCKS ctx responses states' branch).1 ∧
        (branchStep GUARDIAN_DEPOSIT_RESIGNING_BLOCKS ctx responses states branch).2.2 =
          (branchStep GUARDIAN_DEPOSIT_RESIGNING_BLOCKS ctx responses states' branch).2.2 ∧
        ∀ a, states a = states' a →
          (branchStep GUARDIAN_DEPOSIT_RESIGNING_BLOCKS ctx responses states branch).2.1 a =
            (branchStep GUARDIAN_DEPOSIT_RESIGNING_BLOCKS ctx responses states' branch).2.1 a
  | .handleUnvetting smd, h => by
    have hid := h smd rfl
    unfold branchStep
    cases responses.unvetting with
    | error e => exact ⟨rfl, rfl, fun _ ha => ha⟩
    | ok u =>
      dsimp only
      rw [hid]
      split
      · exact ⟨rfl, rfl, fun _ ha => ha⟩
      · split <;> refine ⟨rfl, rfl, fun a ha => ?_⟩ <;>
          simp only [Function.update_apply, ha]
  | .getInvalidKeys _, _ => by
    unfold branchStep; cases responses.invalidKeys <;> exact ⟨rfl, rfl, fun _ ha => ha⟩
  | .signDepositData _, _ => by
    unfold branchStep; cases responses.sign <;> exact ⟨rfl, rfl, fun _ ha => ha⟩
  | .sendDepositMessage, _ => by
    unfold branchStep; cases responses.send <;> exact ⟨rfl, rfl, fun _ ha => ha⟩
  | .done, _ => ⟨rfl, rfl, fun _ ha => ha⟩
  | .failed _, _ => ⟨rfl, rfl, fun _ ha => ha⟩

theorem BranchInv.handleUnvetting_id {stakingModuleData : StakingModuleData} {branch : Branch}
    (h : BranchInv ctx responses stakingModuleData branch) :
    ∀ smd, branch = .handleUnvetting smd → smd.stakingModuleId = stakingModuleData.stakingModuleId := by
  rintro smd rfl
  obtain ⟨_, -, rfl⟩ := h
  rfl

theorem BranchInv.message_id {stakingModuleData : StakingModuleData} {branch : Branch}
    (h : BranchInv ctx responses stakingModuleData branch) (states : ContractsStates) :
    ∀ m ∈ (branchStep GUARDIAN_DEPOSIT_RESIGNING_BLOCKS ctx responses states branch).2.2,
      m.stakingModuleId = stakingModuleData.stakingModuleId := by
  intro m hm
  obtain ⟨-, _, -, rfl⟩ := (branchStep_inv GUARDIAN_DEPOSIT_RESIGNING_BLOCKS states h).2 m hm
  rfl

theorem filter_toList_of_id {message : Option DepositMessage} {b : ℕ}
    (h : ∀ m ∈ message, m.stakingModuleId = b) (a : ℕ) :
    message.toList.filter (·.stakingModuleId = a) = if b = a then message.toList else [] := by
  cases message with
  | none => simp
  | some m => by_cases hba : b = a <;> simp [h m rfl, hba]

/-! ### Any interleaving -/

theorem stakingModuleId_ne_of_nodup {stakingModulesData : List StakingModuleData}
    (h : (stakingModulesData.map (·.stakingModuleId)).Nodup) {i j : ℕ}
    {a b : StakingModuleData} (hi : stakingModulesData[i]? = some a)
    (hj : stakingModulesData[j]? = some b) (hij : i ≠ j) : a.stakingModuleId ≠ b.stakingModuleId := by
  intro heq
  have hi' : (stakingModulesData.map (·.stakingModuleId))[i]? = some a.stakingModuleId := by
    simp [hi]
  have hj' : (stakingModulesData.map (·.stakingModuleId))[j]? = some b.stakingModuleId := by
    simp [hj]
  rw [List.nodup_iff_getElem?_ne_getElem?] at h
  rcases lt_or_gt_of_ne hij with hlt | hlt
  · exact h i j hlt (List.getElem?_eq_some_iff.1 hj').1 (by rw [hi', hj', heq])
  · exact h j i hlt (List.getElem?_eq_some_iff.1 hi').1 (by rw [hi', hj', heq])

variable {r : TickResponses}

/-- Where a fan-out from `s` stands against the branches run alone, each resumed as often as
`schedule` resumed it: each branch at the stage of its solo run; the map at each module's id, and
after the messages there before, the messages for that id, as its solo run left them; and the map
at an id of no module as in `s`. -/
def SoloAgree (ctx : TickContext) (r : TickResponses) (s : GuardianState) (schedule : List ℕ)
    (fanOut : FanOut) : Prop :=
  (∀ i stakingModuleData, ctx.stakingModulesData[i]? = some stakingModuleData →
    fanOut.branches[i]? = some (soloRun GUARDIAN_DEPOSIT_RESIGNING_BLOCKS ctx (r.modules i)
        stakingModuleData s.lastContractsStateByModuleId (schedule.count i)).1 ∧
      fanOut.lastContractsStateByModuleId stakingModuleData.stakingModuleId =
        (soloRun GUARDIAN_DEPOSIT_RESIGNING_BLOCKS ctx (r.modules i) stakingModuleData
          s.lastContractsStateByModuleId (schedule.count i)).2.1 stakingModuleData.stakingModuleId ∧
      fanOut.sent.filter (·.stakingModuleId = stakingModuleData.stakingModuleId) =
        s.sent.filter (·.stakingModuleId = stakingModuleData.stakingModuleId) ++
          (soloRun GUARDIAN_DEPOSIT_RESIGNING_BLOCKS ctx (r.modules i) stakingModuleData
            s.lastContractsStateByModuleId (schedule.count i)).2.2) ∧
  ∀ a ∉ ctx.stakingModulesData.map (·.stakingModuleId),
    fanOut.lastContractsStateByModuleId a = s.lastContractsStateByModuleId a

/-- One resumption keeps a fan-out level with the solo runs: the resumed branch takes its next solo
step, reading and writing the map only at its own id, and every other branch, the map at every
other id and the messages for every other id stay as they were. -/
theorem soloAgree_fanOutStep (hnodup : (ctx.stakingModulesData.map (·.stakingModuleId)).Nodup)
    {s : GuardianState} {schedule : List ℕ} {fanOut : FanOut} (hinv : FanOutInv ctx r s.sent fanOut)
    (h : SoloAgree GUARDIAN_DEPOSIT_RESIGNING_BLOCKS ctx r s schedule fanOut) (j : ℕ) :
    SoloAgree GUARDIAN_DEPOSIT_RESIGNING_BLOCKS ctx r s (schedule ++ [j])
      (fanOutStep GUARDIAN_DEPOSIT_RESIGNING_BLOCKS ctx r fanOut j) := by
  obtain ⟨ih, hframe⟩ := h
  simp only [SoloAgree, List.count_append, List.count_singleton']
  unfold fanOutStep
  split
  · rename_i hnone
    have hj := List.getElem?_eq_none_iff.1 hnone
    refine ⟨fun i smd hsmd => ?_, hframe⟩
    have hij : j ≠ i := by
      rintro rfl
      have := (List.getElem?_eq_some_iff.1 hsmd).1
      have := hinv.length_eq
      omega
    simpa [hij] using ih i smd hsmd
  · rename_i branch hbranch
    have hlt := (List.getElem?_eq_some_iff.1 hbranch).1
    obtain ⟨smdj, hsmdj⟩ : ∃ smd, ctx.stakingModulesData[j]? = some smd :=
      ⟨_, List.getElem?_eq_getElem (hinv.length_eq ▸ hlt)⟩
    obtain ⟨hbj, hmapj, hsentj⟩ := ih j smdj hsmdj
    have hsolo := Option.some.inj (hbranch.symm.trans hbj)
    have hbinv := hinv.branches j _ smdj hbranch hsmdj
    have hid := hbinv.handleUnvetting_id
    have hcongr := @branchStep_congr GUARDIAN_DEPOSIT_RESIGNING_BLOCKS ctx (r.modules j)
      fanOut.lastContractsStateByModuleId _ _ fun smd h => (hid smd h).symm ▸ hmapj
    have hmessages := filter_toList_of_id
      (hbinv.message_id GUARDIAN_DEPOSIT_RESIGNING_BLOCKS fanOut.lastContractsStateByModuleId)
    refine ⟨fun i smd hsmd => ?_, fun a ha => ?_⟩
    · by_cases hij : j = i
      · subst hij
        rw [hsmdj] at hsmd
        cases Option.some.inj hsmd
        simp only [if_true]
        refine ⟨by rw [List.getElem?_set_self hlt, hcongr.1, hsolo]; rfl,
          (hcongr.2.2 _ hmapj).trans (by rw [hsolo]; rfl), ?_⟩
        rw [List.filter_append, hsentj, List.append_assoc, hmessages, if_pos rfl, hcongr.2.1, hsolo]
        rfl
      · have hne := stakingModuleId_ne_of_nodup hnodup hsmdj hsmd hij
        obtain ⟨hbi, hmapi, hsenti⟩ := ih i smd hsmd
        simp only [hij, if_false, Nat.add_zero]
        refine ⟨by rw [List.getElem?_set_ne hij]; exact hbi, ?_, ?_⟩
        · rw [branchStep_states_of_ne GUARDIAN_DEPOSIT_RESIGNING_BLOCKS _
            fun smd' h => (hid smd' h).trans_ne hne]
          exact hmapi
        · rw [List.filter_append, hsenti, hmessages, if_neg hne, List.append_nil]
    · have hne : smdj.stakingModuleId ≠ a := fun h =>
        ha (List.mem_map.2 ⟨smdj, List.mem_iff_getElem?.2 ⟨j, hsmdj⟩, h⟩)
      dsimp only
      rw [branchStep_states_of_ne GUARDIAN_DEPOSIT_RESIGNING_BLOCKS _
        fun smd' h => (hid smd' h).trans_ne hne]
      exact hframe a ha

/-- With distinct module ids, after any schedule each branch stands where it would stand had it
run alone, resumed as often as the schedule resumed it. -/
theorem runBranches_eq_soloRun
    (hnodup : (ctx.stakingModulesData.map (·.stakingModuleId)).Nodup) (s : GuardianState)
    (schedule : List ℕ) :
    SoloAgree GUARDIAN_DEPOSIT_RESIGNING_BLOCKS ctx r s schedule
      (runBranches GUARDIAN_DEPOSIT_RESIGNING_BLOCKS ctx r schedule (startBranches ctx s)) := by
  induction schedule using List.reverseRecOn with
  | nil =>
    refine ⟨fun i smd hsmd => ⟨?_, rfl, by simp [startBranches, soloRun]⟩, fun _ _ => rfl⟩
    simp [startBranches, soloRun, hsmd]
  | append_singleton schedule j ih =>
    rw [runBranches_append_singleton]
    exact soloAgree_fanOutStep GUARDIAN_DEPOSIT_RESIGNING_BLOCKS hnodup
      (runBranches_inv GUARDIAN_DEPOSIT_RESIGNING_BLOCKS schedule (startBranches_inv s)) ih j

theorem FanOutInv.filter_sent_of_not_mem {sent : List DepositMessage} {st : FanOut}
    (h : FanOutInv ctx r sent st) {a : ℕ} (ha : a ∉ ctx.stakingModulesData.map (·.stakingModuleId)) :
    st.sent.filter (·.stakingModuleId = a) = sent.filter (·.stakingModuleId = a) := by
  obtain ⟨messages, hsent, hmessages⟩ := h.sent_eq
  have hnew : messages.filter (·.stakingModuleId = a) = [] := by
    refine List.filter_eq_nil_iff.2 fun m hm hma => ?_
    obtain ⟨i, smd, hsmd, -, _, -, rfl⟩ := hmessages m hm
    exact ha (List.mem_map.2 ⟨smd, List.mem_iff_getElem?.2 ⟨i, hsmd⟩, by simpa using hma⟩)
  rw [hsent, List.filter_append, hnew, List.append_nil]

/-- With distinct module ids, any two schedules that resume every branch equally often end with
the same branches and the same contracts-state map, and hand on the same deposit messages, in
another order at most. -/
theorem runBranches_interleaving_independent
    (hnodup : (ctx.stakingModulesData.map (·.stakingModuleId)).Nodup) (s : GuardianState)
    {schedule schedule' : List ℕ}
    (hcount : ∀ i < ctx.stakingModulesData.length, schedule.count i = schedule'.count i) :
    (runBranches GUARDIAN_DEPOSIT_RESIGNING_BLOCKS ctx r schedule (startBranches ctx s)).branches =
        (runBranches GUARDIAN_DEPOSIT_RESIGNING_BLOCKS ctx r schedule'
          (startBranches ctx s)).branches ∧
      (runBranches GUARDIAN_DEPOSIT_RESIGNING_BLOCKS ctx r schedule
          (startBranches ctx s)).lastContractsStateByModuleId =
        (runBranches GUARDIAN_DEPOSIT_RESIGNING_BLOCKS ctx r schedule'
          (startBranches ctx s)).lastContractsStateByModuleId ∧
      (runBranches GUARDIAN_DEPOSIT_RESIGNING_BLOCKS ctx r schedule (startBranches ctx s)).sent.Perm
        (runBranches GUARDIAN_DEPOSIT_RESIGNING_BLOCKS ctx r schedule'
          (startBranches ctx s)).sent := by
  obtain ⟨h, hframe⟩ := runBranches_eq_soloRun GUARDIAN_DEPOSIT_RESIGNING_BLOCKS (r := r) hnodup s
    schedule
  obtain ⟨h', hframe'⟩ := runBranches_eq_soloRun GUARDIAN_DEPOSIT_RESIGNING_BLOCKS (r := r) hnodup
    s schedule'
  have hinv : FanOutInv ctx r s.sent
      (runBranches GUARDIAN_DEPOSIT_RESIGNING_BLOCKS ctx r schedule (startBranches ctx s)) :=
    runBranches_inv GUARDIAN_DEPOSIT_RESIGNING_BLOCKS schedule (startBranches_inv s)
  have hinv' : FanOutInv ctx r s.sent
      (runBranches GUARDIAN_DEPOSIT_RESIGNING_BLOCKS ctx r schedule' (startBranches ctx s)) :=
    runBranches_inv GUARDIAN_DEPOSIT_RESIGNING_BLOCKS schedule' (startBranches_inv s)
  have hcount' : ∀ i (smd : StakingModuleData), ctx.stakingModulesData[i]? = some smd →
      schedule.count i = schedule'.count i :=
    fun i _ hsmd => hcount i (List.getElem?_eq_some_iff.1 hsmd).1
  have hmodule : ∀ a ∈ ctx.stakingModulesData.map (·.stakingModuleId),
      ∃ i : ℕ, ∃ smd : StakingModuleData, ctx.stakingModulesData[i]? = some smd ∧
        smd.stakingModuleId = a := by
    intro a ha
    obtain ⟨smd, hmem, rfl⟩ := List.mem_map.1 ha
    obtain ⟨i, hsmd⟩ := List.mem_iff_getElem?.1 hmem
    exact ⟨i, smd, hsmd, rfl⟩
  refine ⟨List.ext_getElem? fun i => ?_, funext fun a => ?_, List.perm_iff_count.2 fun m => ?_⟩
  · cases hsmd : ctx.stakingModulesData[i]? with
    | none =>
      have hi := List.getElem?_eq_none_iff.1 hsmd
      rw [List.getElem?_eq_none_iff.2 (hinv.length_eq ▸ hi),
        List.getElem?_eq_none_iff.2 (hinv'.length_eq ▸ hi)]
    | some smd => rw [(h i smd hsmd).1, (h' i smd hsmd).1, hcount' i smd hsmd]
  · by_cases ha : a ∈ ctx.stakingModulesData.map (·.stakingModuleId)
    · obtain ⟨i, smd, hsmd, rfl⟩ := hmodule a ha
      rw [(h i smd hsmd).2.1, (h' i smd hsmd).2.1, hcount' i smd hsmd]
    · rw [hframe a ha, hframe' a ha]
  · have hfilter : ∀ l : List DepositMessage,
        l.count m = (l.filter (·.stakingModuleId = m.stakingModuleId)).count m :=
      fun l => (List.count_filter (by simp)).symm
    rw [hfilter, hfilter (runBranches GUARDIAN_DEPOSIT_RESIGNING_BLOCKS ctx r schedule'
      (startBranches ctx s)).sent]
    congr 1
    by_cases hm : m.stakingModuleId ∈ ctx.stakingModulesData.map (·.stakingModuleId)
    · obtain ⟨i, smd, hsmd, hid⟩ := hmodule _ hm
      rw [← hid, (h i smd hsmd).2.2, (h' i smd hsmd).2.2, hcount' i smd hsmd]
    · rw [hinv.filter_sent_of_not_mem hm, hinv'.filter_sent_of_not_mem hm]

/-! ### The rejection of the `Promise.all` -/

/-- The `Promise.all` has rejected exactly when some branch has failed. -/
def RejectionInv (fanOut : FanOut) : Prop :=
  fanOut.rejection = none ↔ ∀ branch ∈ fanOut.branches, branch.error? = none

theorem eq_or_mem_set_of_mem {l : List Branch} {i : ℕ} {b b' x : Branch} (hb : l[i]? = some b)
    (hx : x ∈ l) : x = b ∨ x ∈ l.set i b' := by
  obtain ⟨k, hk⟩ := List.mem_iff_getElem?.1 hx
  by_cases hik : i = k
  · subst hik
    exact .inl (Option.some.inj (hk.symm.trans hb))
  · exact .inr (List.mem_iff_getElem?.2 ⟨k, by rw [List.getElem?_set_ne hik, hk]⟩)

theorem startBranches_rejectionInv (ctx : TickContext) (s : GuardianState) :
    RejectionInv (startBranches ctx s) := by
  simp [RejectionInv, startBranches, Branch.error?]

theorem fanOutStep_rejectionInv {st : FanOut} (h : RejectionInv st) (i : ℕ) :
    RejectionInv (fanOutStep GUARDIAN_DEPOSIT_RESIGNING_BLOCKS ctx r st i) := by
  unfold fanOutStep
  split
  · exact h
  · rename_i branch hbranch
    have hmem := List.mem_set st.branches i (List.getElem?_eq_some_iff.1 hbranch).1
      (branchStep GUARDIAN_DEPOSIT_RESIGNING_BLOCKS ctx (r.modules i)
        st.lastContractsStateByModuleId branch).1
    simp only [RejectionInv, Option.or_eq_none]
    cases hfailed : branch.error? with
    | some e =>
      obtain rfl : branch = .failed e := by cases branch <;> cases hfailed; rfl
      have hrej : st.rejection ≠ none := fun hn => by
        simpa [Branch.error?] using h.1 hn _ (List.mem_iff_getElem?.2 ⟨i, hbranch⟩)
      exact iff_of_false (fun hn => hrej hn.1) fun hall => by
        simpa [branchStep, Branch.error?] using hall _ hmem
    | none =>
      refine ⟨fun ⟨hn, hstep⟩ x hx => ?_, fun hall => ⟨h.2 fun x hx => ?_, hall _ hmem⟩⟩
      · rcases List.mem_or_eq_of_mem_set hx with hx | rfl
        · exact h.1 hn x hx
        · exact hstep
      · rcases eq_or_mem_set_of_mem hbranch hx with rfl | hx
        · exact hfailed
        · exact hall x hx

theorem runBranches_rejectionInv {st : FanOut} (schedule : List ℕ) (h : RejectionInv st) :
    RejectionInv (runBranches GUARDIAN_DEPOSIT_RESIGNING_BLOCKS ctx r schedule st) := by
  induction schedule generalizing st with
  | nil => exact h
  | cons i schedule ih => exact ih (fanOutStep_rejectionInv GUARDIAN_DEPOSIT_RESIGNING_BLOCKS h i)

/-! ### The tick -/

variable {getDuplicatedKeys : List RegistryKey → List RegistryKey}

theorem handleNewBlock_of_prepareTick (schedule : List ℕ) {s : GuardianState} {ctx : TickContext}
    {keysApi : KeysApi.KeysApiService}
    (hprepare : prepareTick getDuplicatedKeys r s.lastProcessedStateMeta s.keysApi =
      (.ok (some ctx), keysApi)) :
    (handleNewBlock GUARDIAN_DEPOSIT_RESIGNING_BLOCKS getDuplicatedKeys r schedule
        s).1.lastContractsStateByModuleId =
      (runBranches GUARDIAN_DEPOSIT_RESIGNING_BLOCKS ctx r schedule
        (startBranches ctx s)).lastContractsStateByModuleId ∧
    (handleNewBlock GUARDIAN_DEPOSIT_RESIGNING_BLOCKS getDuplicatedKeys r schedule s).1.sent =
      (runBranches GUARDIAN_DEPOSIT_RESIGNING_BLOCKS ctx r schedule (startBranches ctx s)).sent ∧
    ((handleNewBlock GUARDIAN_DEPOSIT_RESIGNING_BLOCKS getDuplicatedKeys r schedule s).2 =
        .completed ↔
      (∀ branch ∈ (runBranches GUARDIAN_DEPOSIT_RESIGNING_BLOCKS ctx r schedule
          (startBranches ctx s)).branches, branch = .done) ∧ r.pingMessageBroker = .ok ()) := by
  have hrej : RejectionInv (runBranches GUARDIAN_DEPOSIT_RESIGNING_BLOCKS ctx r schedule
      (startBranches ctx s)) :=
    runBranches_rejectionInv GUARDIAN_DEPOSIT_RESIGNING_BLOCKS schedule
      (startBranches_rejectionInv ctx s)
  unfold handleNewBlock
  rw [hprepare]
  dsimp only
  generalize runBranches GUARDIAN_DEPOSIT_RESIGNING_BLOCKS ctx r schedule (startBranches ctx s) =
    fanOut at hrej ⊢
  cases hrejection : fanOut.rejection with
  | some e =>
    rw [RejectionInv, hrejection] at hrej
    refine ⟨rfl, rfl, iff_of_false nofun fun ⟨hdone, _⟩ => ?_⟩
    exact absurd (hrej.2 fun branch hbranch => by rw [hdone branch hbranch]; rfl) nofun
  | none =>
    dsimp only
    split
    · rename_i hall
      have hdone : ∀ branch ∈ fanOut.branches, branch = .done := by simpa using hall
      cases r.pingMessageBroker with
      | error e => exact ⟨rfl, rfl, iff_of_false nofun fun ⟨_, h⟩ => by cases h⟩
      | ok u => exact ⟨rfl, rfl, iff_of_true rfl ⟨hdone, rfl⟩⟩
    · rename_i hall
      exact ⟨rfl, rfl, iff_of_false nofun fun ⟨hdone, _⟩ => hall (by simpa using hdone)⟩

end CouncilDaemon.Guardian
