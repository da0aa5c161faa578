import CouncilDaemon.Guardian.Daemon

/-! Re-signing along runs of the daemon. Before it signs, `handleCorrectKeys` records the module's
contracts state in `lastContractsStateByModuleId`, and it skips when the record has the same
deposit root, `lastChangedBlockHash` and re-signing window (the triple of
`isSameContractsStates`). Every write to a module's record is made by a branch of that module,
of the running tick or of one whose `Promise.all` was rejected.

Proved: from any point of a run at which every branch of a module yet to record its state reads
one triple, while every later firing reads it too, the rest of the run hands on at most one
deposit message for the module beyond one per branch of the module then awaiting
`signDepositData`, and none beyond those when that triple was recorded. This holds for any
answers, failures, order of the branches of all ticks, overlap of firings, and a module listed
twice. The bound is counted over the messages handed on and the branches of the module awaiting
`signDepositData`; one resumption keeps it, hence a run. -/

namespace CouncilDaemon.Guardian

open StakingModuleGuard

variable (GUARDIAN_DEPOSIT_RESIGNING_BLOCKS : ℕ+) (m : ℕ) (T : String × String × ℤ)

/-- The contracts-state map holds a record of module `m` with the triple `T`. -/
def RecordsTriple (states : ContractsStates) : Prop :=
  ∃ c, states m = some c ∧ ContractsState.triple GUARDIAN_DEPOSIT_RESIGNING_BLOCKS c = T

/-- A tick whose answers give module `m` the triple `T`: every record of `m` in the module list
has it, with the block data read. -/
def SeesTriple (r : TickResponses) : Prop :=
  ∀ blockData stakingModulesData, r.currentBlockData = .ok blockData →
    r.stakingModulesData = .ok stakingModulesData →
    ∀ stakingModuleData ∈ stakingModulesData, stakingModuleData.stakingModuleId = m →
      triple GUARDIAN_DEPOSIT_RESIGNING_BLOCKS stakingModuleData blockData = T

/-- A branch of module `m` awaiting `signDepositData`: it passed the re-signing check and hands
on a message for `m` if signing succeeds. -/
def Branch.signing : Branch → Bool
  | .signDepositData stakingModuleData => decide (stakingModuleData.stakingModuleId = m)
  | _ => false

/-- A branch that has yet to record its module's contracts state. -/
def Branch.unrecorded : Branch → Bool
  | .getInvalidKeys _ | .handleUnvetting _ => true
  | _ => false

/-- Every branch of module `m` among `branches` of a tick that has yet to record its module's
contracts state reads the triple `T`. -/
def WillRecord (ctx : TickContext) (branches : List Branch) : Prop :=
  ∀ (i : ℕ) (branch : Branch) (stakingModuleData : StakingModuleData), branches[i]? = some branch →
    branch.unrecorded = true →
    ctx.stakingModulesData[i]? = some stakingModuleData → stakingModuleData.stakingModuleId = m →
    triple GUARDIAN_DEPOSIT_RESIGNING_BLOCKS stakingModuleData ctx.blockData = T

/-- The deposit messages for module `m` handed on, and those still owed by the branches of `m`
awaiting `signDepositData`. -/
def FanOut.owed (st : FanOut) : ℕ :=
  (st.sent.filter (·.stakingModuleId = m)).length + st.branches.countP (Branch.signing m)

/-- The branches of module `m`, of all started ticks, awaiting `signDepositData`. -/
def signingBranches (ticks : List StartedTick) : ℕ :=
  ticks.foldr (fun tick n => tick.branches.countP (Branch.signing m) + n) 0

/-- The deposit messages for module `m` the daemon handed on, and those still owed by the branches
of `m` awaiting `signDepositData`. -/
def Daemon.owed (d : Daemon) : ℕ :=
  (d.guardian.sent.filter (·.stakingModuleId = m)).length + signingBranches m d.ticks

/-- `n` messages for module `m` within `budget`, and below it while no record of `m` with `T`
is kept. -/
def ResignBound (budget : ℕ) (states : ContractsStates) (n : ℕ) : Prop :=
  n ≤ budget ∧ (¬RecordsTriple GUARDIAN_DEPOSIT_RESIGNING_BLOCKS m T states → n < budget)

variable {GUARDIAN_DEPOSIT_RESIGNING_BLOCKS m T}

/-! ### One resumption -/

section Record

variable (stakingModuleData : StakingModuleData) (blockData : BlockData)
  (hm : stakingModuleData.stakingModuleId = m)
  (hT : triple GUARDIAN_DEPOSIT_RESIGNING_BLOCKS stakingModuleData blockData = T)
include hm hT

theorem recordsTriple_update (states : ContractsStates) :
    RecordsTriple GUARDIAN_DEPOSIT_RESIGNING_BLOCKS m T
      (Function.update states stakingModuleData.stakingModuleId
        (some (currentContractState stakingModuleData blockData))) :=
  ⟨_, by rw [hm, Function.update_same],
    (triple_currentContractState GUARDIAN_DEPOSIT_RESIGNING_BLOCKS _ _).trans hT⟩

theorem isSameContractsStates_of_recordsTriple {states : ContractsStates}
    (hrec : RecordsTriple GUARDIAN_DEPOSIT_RESIGNING_BLOCKS m T states) :
    isSameContractsStates GUARDIAN_DEPOSIT_RESIGNING_BLOCKS
      (some (currentContractState stakingModuleData blockData))
      (states stakingModuleData.stakingModuleId) = true := by
  obtain ⟨c, hc, hcT⟩ := hrec
  rw [hm, hc, isSameContractsStates_some, triple_currentContractState, hT, hcT, decide_eq_true_eq]

end Record

variable {ctx : TickContext}

/-- One resumption of a branch of the module `stakingModuleData`, whose triple is `T` if it is `m`
and the branch has yet to record: a record of `m` with `T` stays; and the messages for `m` the
branch owes or hands on do not grow, except by one when it passes the re-signing check, which it
does only when no such record was kept, and then records one. -/
theorem branchStep_resign {responses : ModuleResponses} {stakingModuleData : StakingModuleData}
    (states : ContractsStates) :
    ∀ {branch : Branch}, BranchInv ctx responses stakingModuleData branch →
      (branch.unrecorded = true → stakingModuleData.stakingModuleId = m →
        triple GUARDIAN_DEPOSIT_RESIGNING_BLOCKS stakingModuleData ctx.blockData = T) →
      let step := branchStep GUARDIAN_DEPOSIT_RESIGNING_BLOCKS ctx responses states branch
      (RecordsTriple GUARDIAN_DEPOSIT_RESIGNING_BLOCKS m T states →
          RecordsTriple GUARDIAN_DEPOSIT_RESIGNING_BLOCKS m T step.2.1) ∧
        ((step.2.2.toList.filter (·.stakingModuleId = m)).length +
              (if step.1.signing m then 1 else 0) ≤ (if branch.signing m then 1 else 0) ∨
          ¬RecordsTriple GUARDIAN_DEPOSIT_RESIGNING_BLOCKS m T states ∧
            RecordsTriple GUARDIAN_DEPOSIT_RESIGNING_BLOCKS m T step.2.1 ∧
            (step.2.2.toList.filter (·.stakingModuleId = m)).length +
              (if step.1.signing m then 1 else 0) ≤ 1)
  | .getInvalidKeys _, _, _ => by
    cases h : responses.invalidKeys <;> simp [branchStep, h, Branch.signing]
  | .handleUnvetting _, ⟨invalidKeys, _, rfl⟩, hT => by
    cases h : responses.unvetting with
    | error e => simp [branchStep, h, Branch.signing]
    | ok u =>
      by_cases hcan : canDeposit (setKeyLists ctx stakingModuleData invalidKeys) ctx.theftHappened
          ctx.alreadyPausedDeposits = true
      swap
      · simp [branchStep, h, hcan, Branch.signing]
      simp only [branchStep, h, hcan, Bool.not_true, Bool.false_eq_true, if_false]
      by_cases hm : stakingModuleData.stakingModuleId = m
      · have hrec := recordsTriple_update (setKeyLists ctx stakingModuleData invalidKeys) _ hm
          (hT rfl hm) states
        split
        · simp [hrec, Branch.signing]
        · rename_i hsame
          refine ⟨fun _ => hrec, .inr ⟨fun hold => hsame ?_, hrec, ?_⟩⟩
          · exact isSameContractsStates_of_recordsTriple _ _ hm (hT rfl hm) hold
          · simp only [Branch.signing]
            split <;> simp
      · have hframe : ∀ x, Function.update states stakingModuleData.stakingModuleId x m = states m :=
          fun x => Function.update_noteq (Ne.symm hm) x states
        split <;> simp [RecordsTriple, hframe, Branch.signing, setKeyLists, hm]
  | .signDepositData _, ⟨_, rfl⟩, _ => by
    by_cases hm : stakingModuleData.stakingModuleId = m <;>
      cases h : responses.sign <;>
      simp [branchStep, h, hm, Branch.signing, depositMessage, setKeyLists, List.filter_cons]
  | .sendDepositMessage, _, _ => by
    cases h : responses.send <;> simp [branchStep, h, Branch.signing]
  | .done, _, _ => by simp [branchStep, Branch.signing]
  | .failed _, _, _ => by simp [branchStep, Branch.signing]

theorem branchStep_unrecorded (responses : ModuleResponses) (states : ContractsStates) :
    ∀ {branch : Branch},
      (branchStep GUARDIAN_DEPOSIT_RESIGNING_BLOCKS ctx responses states branch).1.unrecorded =
        true → branch.unrecorded = true
  | .getInvalidKeys _, _ | .handleUnvetting _, _ => rfl
  | .signDepositData _, h => by cases hs : responses.sign <;> simp [branchStep, hs, Branch.unrecorded] at h
  | .sendDepositMessage, h => by cases hs : responses.send <;> simp [branchStep, hs, Branch.unrecorded] at h
  | .done, h | .failed _, h => h

variable {r : TickResponses}

theorem fanOutStep_willRecord {st : FanOut}
    (h : WillRecord GUARDIAN_DEPOSIT_RESIGNING_BLOCKS m T ctx st.branches) (i : ℕ) :
    WillRecord GUARDIAN_DEPOSIT_RESIGNING_BLOCKS m T ctx
      (fanOutStep GUARDIAN_DEPOSIT_RESIGNING_BLOCKS ctx r st i).branches := by
  unfold fanOutStep
  split
  · exact h
  rename_i branch hbranch
  dsimp only
  intro j branch' stakingModuleData hj hunrecorded hmodule hm
  rw [List.getElem?_set] at hj
  split_ifs at hj with hij hlt
  · subst hij
    obtain rfl := Option.some.inj hj
    exact h i branch stakingModuleData hbranch (branchStep_unrecorded _ _ hunrecorded) hmodule hm
  · exact h j branch' stakingModuleData hj hunrecorded hmodule hm

theorem fanOutStep_resignBound {sent : List DepositMessage} {st : FanOut}
    (hinv : FanOutInv ctx r sent st) (hwill : WillRecord GUARDIAN_DEPOSIT_RESIGNING_BLOCKS m T ctx st.branches)
    {budget c : ℕ}
    (h : ResignBound GUARDIAN_DEPOSIT_RESIGNING_BLOCKS m T budget st.lastContractsStateByModuleId
      (st.owed m + c)) (i : ℕ) :
    let st' := fanOutStep GUARDIAN_DEPOSIT_RESIGNING_BLOCKS ctx r st i
    ResignBound GUARDIAN_DEPOSIT_RESIGNING_BLOCKS m T budget st'.lastContractsStateByModuleId
      (st'.owed m + c) := by
  unfold fanOutStep
  split
  · exact h
  rename_i branch hbranch
  obtain ⟨hlt, hget⟩ := List.getElem?_eq_some_iff.1 hbranch
  obtain ⟨stakingModuleData, hmodule⟩ : ∃ smd, ctx.stakingModulesData[i]? = some smd :=
    ⟨_, List.getElem?_eq_getElem (hinv.length_eq ▸ hlt)⟩
  obtain ⟨hkeep, hcount⟩ := branchStep_resign st.lastContractsStateByModuleId
    (hinv.branches i branch stakingModuleData hbranch hmodule)
    (fun hunrecorded => hwill i branch stakingModuleData hbranch hunrecorded hmodule)
  have hle := List.boole_getElem_le_countP (Branch.signing m) st.branches i hlt
  rw [hget] at hle
  obtain ⟨hbudget, hbelow⟩ := h
  simp only [FanOut.owed, List.filter_append, List.length_append, List.countP_set _ _ _ _ hlt, hget]
    at hbudget hbelow ⊢
  rcases hcount with hcount | ⟨hnot, hrec, hcount⟩
  · exact ⟨by omega, fun hnot' => by have := hbelow (mt hkeep hnot'); omega⟩
  · exact ⟨by have := hbelow hnot; omega, absurd hrec⟩

/-! ### Runs of the daemon -/

variable (m) in
theorem signingBranches_set {ticks : List StartedTick} {t : ℕ} {tick : StartedTick}
    (htick : ticks[t]? = some tick) (tick' : StartedTick) :
    signingBranches m (ticks.set t tick') + tick.branches.countP (Branch.signing m) =
      signingBranches m ticks + tick'.branches.countP (Branch.signing m) := by
  induction ticks generalizing t with
  | nil => cases htick
  | cons x ticks ih =>
    cases t with
    | zero =>
      rw [List.getElem?_cons_zero] at htick
      cases Option.some.inj htick
      simp only [signingBranches, List.set_cons_zero, List.foldr_cons]
      omega
    | succ t =>
      rw [List.getElem?_cons_succ] at htick
      have := ih htick
      simp only [signingBranches, List.set_cons_succ, List.foldr_cons] at this ⊢
      omega

variable (GUARDIAN_DEPOSIT_RESIGNING_BLOCKS m T) in
/-- The re-signing invariant of the daemon: in every started tick the branches of `m` yet to
record read `T`, and the bound holds. -/
structure ResignInv (budget : ℕ) (d : Daemon) : Prop where
  willRecord : ∀ tick ∈ d.ticks, WillRecord GUARDIAN_DEPOSIT_RESIGNING_BLOCKS m T tick.ctx tick.branches
  bound : ResignBound GUARDIAN_DEPOSIT_RESIGNING_BLOCKS m T budget
    d.guardian.lastContractsStateByModuleId (d.owed m)

theorem ResignInv.frame {budget : ℕ} {d d' : Daemon}
    (h : ResignInv GUARDIAN_DEPOSIT_RESIGNING_BLOCKS m T budget d) (hticks : d'.ticks = d.ticks)
    (hstates : d'.guardian.lastContractsStateByModuleId = d.guardian.lastContractsStateByModuleId)
    (hsent : d'.guardian.sent = d.guardian.sent) :
    ResignInv GUARDIAN_DEPOSIT_RESIGNING_BLOCKS m T budget d' :=
  ⟨hticks ▸ h.willRecord, by rw [Daemon.owed, hticks, hstates, hsent]; exact h.bound⟩

variable (getDuplicatedKeys : List RegistryKey → List RegistryKey)

theorem fire_resignInv {d : Daemon} {budget : ℕ}
    (h : ResignInv GUARDIAN_DEPOSIT_RESIGNING_BLOCKS m T budget d)
    (hsees : SeesTriple GUARDIAN_DEPOSIT_RESIGNING_BLOCKS m T r) :
    ResignInv GUARDIAN_DEPOSIT_RESIGNING_BLOCKS m T budget (fire getDuplicatedKeys r d) := by
  obtain ⟨hstates, hsent, ⟨hticks, -⟩ | ⟨ctx, keysApi, -, hprepare, hfire⟩⟩ :=
    fire_cases getDuplicatedKeys d r
  · exact h.frame hticks hstates hsent
  obtain ⟨hload, -, hmodules⟩ := prepareTick_eq_ok_some hprepare
  obtain ⟨-, -, -, -, -, hblockData⟩ := loadBlock_eq_ok_some hload
  have hT := hsees _ _ hblockData (loadModules_eq_ok hmodules).1
  have hstarted : signingBranches m
      (d.ticks ++ [⟨ctx, r, ctx.stakingModulesData.map .getInvalidKeys, none⟩]) =
      signingBranches m d.ticks := by
    have hnone : (ctx.stakingModulesData.map Branch.getInvalidKeys).countP (Branch.signing m) = 0 :=
      List.countP_eq_zero.2 (by simp [Branch.signing])
    simp only [signingBranches, List.foldr_append, List.foldr_cons, List.foldr_nil, hnone]
  rw [hfire]
  refine ⟨fun tick htick => ?_, by rw [Daemon.owed, hstarted]; exact h.bound⟩
  rcases List.mem_append.1 htick with htick | htick
  · exact h.willRecord tick htick
  rw [List.mem_singleton] at htick
  subst htick
  exact fun i _ stakingModuleData _ _ hmodule hm => hT _ (List.getElem?_mem hmodule) hm

theorem resume_resignInv {d : Daemon} (hinv : ∀ tick ∈ d.ticks, tick.Inv) {budget : ℕ}
    (h : ResignInv GUARDIAN_DEPOSIT_RESIGNING_BLOCKS m T budget d) (t i : ℕ) :
    ResignInv GUARDIAN_DEPOSIT_RESIGNING_BLOCKS m T budget
      (resume GUARDIAN_DEPOSIT_RESIGNING_BLOCKS t i d) := by
  obtain ⟨-, -, -, hsame | ⟨tick, htick, hticks, hstates, hsent⟩⟩ :=
    resume_cases GUARDIAN_DEPOSIT_RESIGNING_BLOCKS d t i
  · rw [hsame]
    exact h
  set st : FanOut :=
    ⟨tick.branches, d.guardian.lastContractsStateByModuleId, d.guardian.sent, tick.rejection⟩ with hst
  have hwill := h.willRecord tick (List.getElem?_mem htick)
  have hle : tick.branches.countP (Branch.signing m) ≤ signingBranches m d.ticks := by
    have := signingBranches_set m htick { tick with branches := [] }
    rw [List.countP_nil] at this
    omega
  have hpre : ResignBound GUARDIAN_DEPOSIT_RESIGNING_BLOCKS m T budget
      st.lastContractsStateByModuleId
      (st.owed m + (signingBranches m d.ticks - tick.branches.countP (Branch.signing m))) := by
    have heq : st.owed m + (signingBranches m d.ticks - tick.branches.countP (Branch.signing m)) =
        d.owed m := by
      simp only [hst, FanOut.owed, Daemon.owed]
      omega
    rw [heq]
    exact h.bound
  have hbound := fanOutStep_resignBound ((hinv tick (List.getElem?_mem htick)).fanOutInv
    d.guardian.lastContractsStateByModuleId d.guardian.sent) hwill hpre i
  refine ⟨fun tick' htick' => ?_, ?_⟩
  · rw [hticks] at htick'
    rcases List.mem_or_eq_of_mem_set htick' with htick' | rfl
    · exact h.willRecord tick' htick'
    · exact fanOutStep_willRecord hwill i
  · have hcount := signingBranches_set m htick
      { tick with
        branches := (fanOutStep GUARDIAN_DEPOSIT_RESIGNING_BLOCKS tick.ctx tick.r st i).branches
        rejection := (fanOutStep GUARDIAN_DEPOSIT_RESIGNING_BLOCKS tick.ctx tick.r st i).rejection }
    have heq : (resume GUARDIAN_DEPOSIT_RESIGNING_BLOCKS t i d).owed m =
        (fanOutStep GUARDIAN_DEPOSIT_RESIGNING_BLOCKS tick.ctx tick.r st i).owed m +
          (signingBranches m d.ticks - tick.branches.countP (Branch.signing m)) := by
      simp only [Daemon.owed, FanOut.owed, hticks, hsent] at hcount ⊢
      omega
    rw [heq, hstates]
    exact hbound

variable (s : GuardianState)

/-- Every run from a reachable state in which every firing reads the triple `T` for `m` keeps
the invariant. -/
theorem daemonRun_resignInv {budget : ℕ} (events : List Event) :
    ∀ pre, (∀ r, Event.fire r ∈ events → SeesTriple GUARDIAN_DEPOSIT_RESIGNING_BLOCKS m T r) →
      ResignInv GUARDIAN_DEPOSIT_RESIGNING_BLOCKS m T budget
        (daemonRun GUARDIAN_DEPOSIT_RESIGNING_BLOCKS getDuplicatedKeys pre (.start s)) →
      ResignInv GUARDIAN_DEPOSIT_RESIGNING_BLOCKS m T budget
        (daemonRun GUARDIAN_DEPOSIT_RESIGNING_BLOCKS getDuplicatedKeys (pre ++ events) (.start s)) := by
  induction events with
  | nil => exact fun pre _ h => (List.append_nil pre).symm ▸ h
  | cons e events ih =>
    intro pre hsees h
    rw [← List.singleton_append, ← List.append_assoc]
    refine ih _ (fun r hr => hsees r (List.mem_cons_of_mem _ hr)) ?_
    rw [daemonRun_append]
    cases e with
    | fire r => exact fire_resignInv getDuplicatedKeys h (hsees r (List.mem_cons_self _ _))
    | resume t i =>
      exact resume_resignInv (fun tick htick =>
        ((daemonRun_inv GUARDIAN_DEPOSIT_RESIGNING_BLOCKS getDuplicatedKeys s pre).ticks tick
          htick).1) h t i
    | settle =>
      obtain ⟨hticks, hstates, hsent⟩ :=
        settle_frame (daemonRun GUARDIAN_DEPOSIT_RESIGNING_BLOCKS getDuplicatedKeys pre (.start s))
      exact h.frame hticks hstates hsent

variable (GUARDIAN_DEPOSIT_RESIGNING_BLOCKS m T)

/-- From any point of a run of the daemon from start-up at which every branch of module `m` yet to
record its contracts state reads the triple `T`, while every later firing reads `T` for `m`: the
rest of the run hands on at most one deposit message for `m` beyond one per branch of `m` then
awaiting `signDepositData`, and none beyond those when `T` was recorded for `m`. This holds for
any answers, any failures, any order of the branches of all ticks, and any overlap of the cron
job's firings, with the branches a rejected `Promise.all` left running. -/
theorem daemonRun_signs_once_per_triple (pre events : List Event)
    (hlive : ∀ tick ∈ (daemonRun GUARDIAN_DEPOSIT_RESIGNING_BLOCKS getDuplicatedKeys pre
      (.start s)).ticks, WillRecord GUARDIAN_DEPOSIT_RESIGNING_BLOCKS m T tick.ctx tick.branches)
    (hsees : ∀ r, Event.fire r ∈ events → SeesTriple GUARDIAN_DEPOSIT_RESIGNING_BLOCKS m T r) :
    ∃ messages, (daemonRun GUARDIAN_DEPOSIT_RESIGNING_BLOCKS getDuplicatedKeys (pre ++ events)
        (.start s)).guardian.sent =
        (daemonRun GUARDIAN_DEPOSIT_RESIGNING_BLOCKS getDuplicatedKeys pre
          (.start s)).guardian.sent ++ messages ∧
      (messages.filter (·.stakingModuleId = m)).length ≤
        signingBranches m (daemonRun GUARDIAN_DEPOSIT_RESIGNING_BLOCKS getDuplicatedKeys pre
          (.start s)).ticks + 1 ∧
      (RecordsTriple GUARDIAN_DEPOSIT_RESIGNING_BLOCKS m T (daemonRun
          GUARDIAN_DEPOSIT_RESIGNING_BLOCKS getDuplicatedKeys pre
          (.start s)).guardian.lastContractsStateByModuleId →
        (messages.filter (·.stakingModuleId = m)).length ≤
          signingBranches m (daemonRun GUARDIAN_DEPOSIT_RESIGNING_BLOCKS getDuplicatedKeys pre
            (.start s)).ticks) := by
  obtain ⟨messages, hsent⟩ := daemonRun_sent GUARDIAN_DEPOSIT_RESIGNING_BLOCKS getDuplicatedKeys
    events (daemonRun GUARDIAN_DEPOSIT_RESIGNING_BLOCKS getDuplicatedKeys pre (.start s))
  rw [← daemonRun_append] at hsent
  have hrun := fun budget => @daemonRun_resignInv GUARDIAN_DEPOSIT_RESIGNING_BLOCKS m T
    getDuplicatedKeys s budget events pre hsees
  refine ⟨messages, hsent, ?_, fun hrec => ?_⟩
  · have hone := (hrun _ ⟨hlive, Nat.le_succ _, fun _ => Nat.lt_succ_self _⟩).bound.1
    simp only [Daemon.owed, hsent, List.filter_append, List.length_append] at hone
    omega
  · have hnone := (hrun _ ⟨hlive, le_rfl, fun hnot => absurd hrec hnot⟩).bound.1
    simp only [Daemon.owed, hsent, List.filter_append, List.length_append] at hnone
    omega

/-- Modules `1` and `2` over ticks at blocks `5` and `6`, in one re-signing window of `10` blocks.
In the first tick module `2`'s `getInvalidKeys` throws after module `1` recorded its state, so the
`Promise.all` rejects while module `1`'s branch awaits `signDepositData`; the second tick finds
the record and skips module `1`, and the orphaned branch then signs. -/
theorem daemonRun_signs_once_per_triple_orphan :
    let blockData : ℤ → BlockData := fun n =>
      ⟨n, "0xb", "0xroot", ⟨[], 0, n, true⟩, "0xg", 0, "0xwc"⟩
    let tick : ℤ → TickResponses := fun n =>
      ⟨.ok ⟨⟨n, "0xb", "0xc"⟩⟩, .ok (), .ok ⟨[], ⟨⟨n, "0xb", "0xc"⟩⟩⟩, .ok (), .ok (blockData n),
        .error (.error "unused"),
        .ok [⟨1, "0xm", 3, "0xb", "0xc", [], [], [], []⟩, ⟨2, "0xn", 4, "0xb", "0xc", [], [], [], []⟩],
        .ok 3, .ok false, .ok (), .ok (),
        fun i => ⟨if i = 0 then .ok [] else .error (.error "timeout"), .ok (), .ok "0xs", .ok ()⟩,
        .ok ()⟩
    let events := [.fire (tick 5), .resume 0 0, .resume 0 0, .resume 0 1, .settle, .fire (tick 6),
      .resume 1 0, .resume 1 0, .settle, .resume 0 0, .resume 0 0]
    let s : GuardianState := ⟨none, ⟨none, []⟩, fun _ => none, []⟩
    (∀ t ∈ (daemonRun 10 (fun _ => []) [] (.start s)).ticks,
      WillRecord 10 1 ("0xroot", "0xc", 0) t.ctx t.branches) ∧
    (∀ r, Event.fire r ∈ events → SeesTriple 10 1 ("0xroot", "0xc", 0) r) ∧
      ∃ messages, (daemonRun 10 (fun _ => []) ([] ++ events) (.start s)).guardian.sent =
          (daemonRun 10 (fun _ => []) [] (.start s)).guardian.sent ++ messages ∧
        (messages.filter (·.stakingModuleId = 1)).length ≤
          signingBranches 1 (daemonRun 10 (fun _ => []) [] (.start s)).ticks + 1 ∧
        (RecordsTriple 10 1 ("0xroot", "0xc", 0)
            (daemonRun 10 (fun _ => []) [] (.start s)).guardian.lastContractsStateByModuleId →
          (messages.filter (·.stakingModuleId = 1)).length ≤
            signingBranches 1 (daemonRun 10 (fun _ => []) [] (.start s)).ticks) := by
  intro blockData tick events s
  have hlive : ∀ t ∈ (daemonRun 10 (fun _ => []) [] (.start s)).ticks,
      WillRecord 10 1 ("0xroot", "0xc", 0) t.ctx t.branches :=
    fun _ h => absurd h (List.not_mem_nil _)
  have hsees : ∀ n, 0 ≤ n → n < 10 → SeesTriple 10 1 ("0xroot", "0xc", 0) (tick n) := by
    intro n h0 h10 _ _ hblockData hmodules smd hsmd hm
    cases hblockData
    cases hmodules
    simp only [List.mem_cons, List.mem_singleton, List.not_mem_nil, or_false] at hsmd
    rcases hsmd with rfl | rfl
    · simp only [triple, Prod.mk.injEq, true_and]
      rw [Int.fdiv_eq_ediv _ (by decide)]
      exact Int.ediv_eq_zero_of_lt h0 h10
    · cases hm
  have hfires : ∀ r, Event.fire r ∈ events → SeesTriple 10 1 ("0xroot", "0xc", 0) r := by
    intro r hr
    simp only [events, List.mem_cons, Event.fire.injEq, List.not_mem_nil, or_false,
      reduceCtorEq, false_or] at hr
    rcases hr with rfl | rfl
    · exact hsees 5 (by decide) (by decide)
    · exact hsees 6 (by decide) (by decide)
  exact ⟨hlive, hfires, daemonRun_signs_once_per_triple 10 1 ("0xroot", "0xc", 0) (fun _ => []) s []
    events hlive hfires⟩

end CouncilDaemon.Guardian
