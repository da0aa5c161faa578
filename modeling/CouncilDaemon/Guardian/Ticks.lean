import CouncilDaemon.Guardian.HandleNewBlock

/-! The guardian over time, one tick after another: `runTicks` runs `handleNewBlock` once per
tick, each tick with its own answers of the collaborators and its own interleaving of the module
branches, and the next tick starts from the state the last one left. A branch a tick leaves
pending is dropped when the tick ends; in the daemon those branches keep running, which
`Guardian.Daemon` models.

Proved: a tick changes the block guard's last processed state exactly when it completes, and then
to a block after the last processed one; so along any run the blocks of the completed ticks
strictly increase, and no block is processed twice. A tick whose deposit log shows a front-run of
a key the keys index reports as Lido's sends no deposit message. -/

namespace CouncilDaemon.Guardian

open KeysApi StakingModuleGuard

@[simp] theorem isNeedToProcessNewState_self (p : ProcessedStateMeta) :
    isNeedToProcessNewState (some p) p = false := by
  simp [isNeedToProcessNewState]

theorem blockNumber_lt_of_isNeedToProcessNewState {last p : ProcessedStateMeta}
    (h : isNeedToProcessNewState (some last) p = true) : last.blockNumber < p.blockNumber := by
  simp only [isNeedToProcessNewState, Bool.not_eq_true', Bool.or_eq_false_iff,
    decide_eq_false_iff_not] at h
  exact lt_of_not_le h.1

variable (GUARDIAN_DEPOSIT_RESIGNING_BLOCKS : ℕ+)
  (getDuplicatedKeys : List RegistryKey → List RegistryKey)

/-- One tick of the cron job with its answers and its schedule, recording the block it
processed if it completed. -/
def runTick (acc : GuardianState × List ProcessedStateMeta) (tick : TickResponses × List ℕ) :
    GuardianState × List ProcessedStateMeta :=
  let t := handleNewBlock GUARDIAN_DEPOSIT_RESIGNING_BLOCKS getDuplicatedKeys tick.1 tick.2 acc.1
  (t.1, acc.2 ++ if t.2 = .completed then t.1.lastProcessedStateMeta.toList else [])

/-- The cron job's ticks one after another: the state after them, and the blocks the completed
ones processed, in order. -/
def runTicks (ticks : List (TickResponses × List ℕ)) (s : GuardianState) :
    GuardianState × List ProcessedStateMeta :=
  ticks.foldl (runTick GUARDIAN_DEPOSIT_RESIGNING_BLOCKS getDuplicatedKeys) (s, [])

/-! ### One tick -/

theorem handleNewBlock_lastProcessedStateMeta (r : TickResponses) (schedule : List ℕ)
    (s : GuardianState) :
    ((handleNewBlock GUARDIAN_DEPOSIT_RESIGNING_BLOCKS getDuplicatedKeys r schedule s).2 =
        .completed →
      ∃ p, (handleNewBlock GUARDIAN_DEPOSIT_RESIGNING_BLOCKS getDuplicatedKeys r schedule
          s).1.lastProcessedStateMeta = some p ∧
        isNeedToProcessNewState s.lastProcessedStateMeta p = true) ∧
    ((handleNewBlock GUARDIAN_DEPOSIT_RESIGNING_BLOCKS getDuplicatedKeys r schedule s).2 ≠
        .completed →
      (handleNewBlock GUARDIAN_DEPOSIT_RESIGNING_BLOCKS getDuplicatedKeys r schedule
        s).1.lastProcessedStateMeta = s.lastProcessedStateMeta) := by
  rcases handleNewBlock_cases GUARDIAN_DEPOSIT_RESIGNING_BLOCKS r schedule s with
    ⟨-, hguard, hnot⟩ | ⟨ctx, keysApi, hprepare, -, ⟨hguard, hnot⟩ | ⟨-, -, hguard, hdone⟩⟩
  · exact ⟨fun h => absurd h hnot, fun _ => hguard⟩
  · exact ⟨fun h => absurd h hnot, fun _ => hguard⟩
  · exact ⟨fun _ => ⟨_, hguard, (loadBlock_eq_ok_some (prepareTick_eq_ok_some hprepare).1).2.1⟩,
      fun h => absurd hdone h⟩

/-- A tick changes the block guard's last processed state exactly when it completes. -/
theorem handleNewBlock_sets_guard_iff_completed (r : TickResponses) (schedule : List ℕ)
    (s : GuardianState) :
    (handleNewBlock GUARDIAN_DEPOSIT_RESIGNING_BLOCKS getDuplicatedKeys r schedule
        s).1.lastProcessedStateMeta ≠ s.lastProcessedStateMeta ↔
      (handleNewBlock GUARDIAN_DEPOSIT_RESIGNING_BLOCKS getDuplicatedKeys r schedule s).2 =
        .completed := by
  obtain ⟨hcompleted, hother⟩ :=
    handleNewBlock_lastProcessedStateMeta GUARDIAN_DEPOSIT_RESIGNING_BLOCKS getDuplicatedKeys r
      schedule s
  refine ⟨fun hne => by_contra fun h => hne (hother h), fun h hsame => ?_⟩
  obtain ⟨p, hp, hnew⟩ := hcompleted h
  rw [← hsame, hp, isNeedToProcessNewState_self] at hnew
  cases hnew

/-- In a tick that fans out, the historical check finds a theft when the block's deposit log
shows a front-run and the keys index reports Lido keys among the front-run ones. -/
theorem theftHappened_of_frontRunKeys {r : TickResponses}
    {lastProcessedStateMeta : Option ProcessedStateMeta}
    {keysApi keysApi' : KeysApiService} {ctx : TickContext} {blockData : BlockData}
    {lidoDepositedKeys : KeyListResponse}
    (hprepare : prepareTick getDuplicatedKeys r lastProcessedStateMeta keysApi =
      (.ok (some ctx), keysApi'))
    (hblockData : r.currentBlockData = .ok blockData)
    (hfrontRun : frontRunKeys blockData.depositedEvents.events blockData.lidoWC ≠ [])
    (hkeysFind : r.keysFind = .ok lidoDepositedKeys) (hlido : lidoDepositedKeys.data ≠ []) :
    ctx.theftHappened = true := by
  obtain ⟨hload, hhistorical, -⟩ := prepareTick_eq_ok_some hprepare
  have hctx : ctx.blockData = blockData :=
    Except.ok.inj ((loadBlock_eq_ok_some hload).2.2.choose_spec.2.2.symm.trans hblockData)
  rw [getHistoricalFrontRun_eq, hctx, if_neg hfrontRun, hkeysFind] at hhistorical
  simpa [Except.map, hlido] using (Prod.mk.inj hhistorical).1.symm

/-- A tick whose historical front-run check finds a theft sends no deposit message: every
branch that signs has passed the gate, which requires no theft. -/
theorem handleNewBlock_sent_of_theftHappened (r : TickResponses) (schedule : List ℕ)
    (s : GuardianState)
    (htheft : ∀ ctx keysApi, prepareTick getDuplicatedKeys r s.lastProcessedStateMeta s.keysApi =
      (.ok (some ctx), keysApi) → ctx.theftHappened = true) :
    (handleNewBlock GUARDIAN_DEPOSIT_RESIGNING_BLOCKS getDuplicatedKeys r schedule s).1.sent =
      s.sent := by
  rcases handleNewBlock_cases GUARDIAN_DEPOSIT_RESIGNING_BLOCKS r schedule s with
    ⟨hsent, -, -⟩ | ⟨ctx, keysApi, hprepare, hsent, -⟩
  · exact hsent
  obtain ⟨messages, hfanOut, hmessages⟩ :=
    (runBranches_inv GUARDIAN_DEPOSIT_RESIGNING_BLOCKS schedule (startBranches_inv (r := r) s)).sent_eq
  rw [hsent, hfanOut]
  cases messages with
  | nil => exact List.append_nil _
  | cons message _ =>
    obtain ⟨_, _, _, gate, -⟩ := hmessages message (.head _)
    cases gate.noTheft.symm.trans (htheft ctx keysApi hprepare)

/-- A tick whose deposit log shows a front-run of a key the keys index reports as Lido's, so
that `getHistoricalFrontRun` finds a theft, sends no deposit message. -/
theorem handleNewBlock_theft_sends_nothing (r : TickResponses) (schedule : List ℕ)
    (s : GuardianState) {blockData : BlockData} {lidoDepositedKeys : KeyListResponse}
    (hblockData : r.currentBlockData = .ok blockData)
    (hfrontRun : frontRunKeys blockData.depositedEvents.events blockData.lidoWC ≠ [])
    (hkeysFind : r.keysFind = .ok lidoDepositedKeys) (hlido : lidoDepositedKeys.data ≠ []) :
    (handleNewBlock GUARDIAN_DEPOSIT_RESIGNING_BLOCKS getDuplicatedKeys r schedule s).1.sent =
      s.sent :=
  handleNewBlock_sent_of_theftHappened GUARDIAN_DEPOSIT_RESIGNING_BLOCKS getDuplicatedKeys r schedule
    s fun _ _ hprepare =>
      theftHappened_of_frontRunKeys getDuplicatedKeys hprepare hblockData hfrontRun hkeysFind hlido

/-- A tick whose deposit log shows key `0xk` deposited with foreign credentials at block `1`, before
its Lido deposit at block `2`, with the keys index reporting `0xk` as a Lido key: no deposit
message, although the module is otherwise clean. -/
theorem handleNewBlock_theft_sends_nothing_sample :
    let blockData : BlockData := ⟨5, "0xb", "0xroot",
      ⟨[⟨1, 0, "0xk", "0xthief", true, "0xr1"⟩, ⟨2, 0, "0xk", "0xwc", true, "0xr2"⟩], 0, 5, true⟩,
      "0xg", 0, "0xwc"⟩
    let lidoDepositedKeys : KeyListResponse :=
      ⟨[⟨"0xk", "0xsig", 0, true, 0, "0xm"⟩], ⟨⟨5, "0xb", "0xc"⟩⟩⟩
    let r : TickResponses :=
      ⟨.ok ⟨⟨5, "0xb", "0xc"⟩⟩, .ok (), .ok ⟨[], ⟨⟨5, "0xb", "0xc"⟩⟩⟩, .ok (), .ok blockData,
        .ok lidoDepositedKeys, .ok [⟨1, "0xm", 3, "0xb", "0xc", [], [], [], []⟩], .ok 3, .ok false,
        .ok (), .ok (), fun _ => ⟨.ok [], .ok (), .ok "0xs", .ok ()⟩, .ok ()⟩
    r.currentBlockData = .ok blockData ∧
      frontRunKeys blockData.depositedEvents.events blockData.lidoWC ≠ [] ∧
      r.keysFind = .ok lidoDepositedKeys ∧ lidoDepositedKeys.data ≠ [] ∧
      (handleNewBlock 10 (fun _ => []) r [0, 0, 0, 0] ⟨none, ⟨none, []⟩, fun _ => none, []⟩).1.sent =
        [] := by
  dsimp only
  exact ⟨rfl, by decide, rfl, by decide,
    handleNewBlock_theft_sends_nothing 10 (fun _ => []) _ [0, 0, 0, 0] _ rfl (by decide) rfl
      (by decide)⟩

/-! ### Runs of ticks -/

/-- What a run keeps, from the state `s₀` it started in: the blocks of the completed ticks
strictly increase, none is after the block guard's, and all and the guard itself are at or after
the block processed before the run. -/
structure RunInv (s₀ : GuardianState) (acc : GuardianState × List ProcessedStateMeta) :
    Prop where
  pairwise : (acc.2.map (·.blockNumber)).Pairwise (· < ·)
  le_guard : ∀ p ∈ acc.2, ∃ g ∈ acc.1.lastProcessedStateMeta, p.blockNumber ≤ g.blockNumber
  after_start : ∀ last ∈ s₀.lastProcessedStateMeta, (∀ p ∈ acc.2, last.blockNumber < p.blockNumber) ∧
    ∃ g ∈ acc.1.lastProcessedStateMeta, last.blockNumber ≤ g.blockNumber

theorem runInv_step {s₀ : GuardianState} {acc : GuardianState × List ProcessedStateMeta}
    (h : RunInv s₀ acc) (tick : TickResponses × List ℕ) :
    RunInv s₀ (runTick GUARDIAN_DEPOSIT_RESIGNING_BLOCKS getDuplicatedKeys acc tick) := by
  obtain ⟨hcompleted, hother⟩ := handleNewBlock_lastProcessedStateMeta
    GUARDIAN_DEPOSIT_RESIGNING_BLOCKS getDuplicatedKeys tick.1 tick.2 acc.1
  unfold runTick
  generalize handleNewBlock GUARDIAN_DEPOSIT_RESIGNING_BLOCKS getDuplicatedKeys tick.1 tick.2 acc.1 =
    t at hcompleted hother ⊢
  obtain ⟨s', outcome⟩ := t
  dsimp only at hcompleted hother ⊢
  split_ifs with hdone
  · obtain ⟨p, hp, hnew⟩ := hcompleted hdone
    have hafter : ∀ g ∈ acc.1.lastProcessedStateMeta, g.blockNumber < p.blockNumber := by
      intro g hg
      rw [Option.mem_def] at hg
      rw [hg] at hnew
      exact blockNumber_lt_of_isNeedToProcessNewState hnew
    refine ⟨?_, fun q hq => ⟨p, hp, ?_⟩, fun last hlast => ⟨fun q hq => ?_, ?_⟩⟩
    · rw [hp, Option.toList_some, List.map_append, List.pairwise_append]
      refine ⟨h.pairwise, List.pairwise_singleton _ _, fun x hx y hy => ?_⟩
      obtain ⟨q, hq, rfl⟩ := List.mem_map.1 hx
      rw [List.map_cons, List.map_nil, List.mem_singleton] at hy
      obtain ⟨g, hg, hqg⟩ := h.le_guard q hq
      exact hy ▸ hqg.trans_lt (hafter g hg)
    · rw [hp, Option.toList_some, List.mem_append, List.mem_singleton] at hq
      rcases hq with hq | rfl
      · obtain ⟨g, hg, hqg⟩ := h.le_guard q hq
        exact hqg.trans (hafter g hg).le
      · exact le_rfl
    · obtain ⟨hbefore, g, hg, hlastg⟩ := h.after_start last hlast
      rw [hp, Option.toList_some, List.mem_append, List.mem_singleton] at hq
      rcases hq with hq | rfl
      · exact hbefore q hq
      · exact hlastg.trans_lt (hafter g hg)
    · obtain ⟨-, g, hg, hlastg⟩ := h.after_start last hlast
      exact ⟨p, hp, hlastg.trans (hafter g hg).le⟩
  · rw [List.append_nil]
    exact ⟨h.pairwise, hother hdone ▸ h.le_guard, hother hdone ▸ h.after_start⟩

/-- Along any run of ticks, with any answers and any interleavings, the blocks the completed
ticks processed strictly increase, and all come after the block processed before the run: no
block is processed twice. -/
theorem runTicks_processed_blocks_increase (ticks : List (TickResponses × List ℕ))
    (s : GuardianState) :
    ((runTicks GUARDIAN_DEPOSIT_RESIGNING_BLOCKS getDuplicatedKeys ticks s).2.map
        (·.blockNumber)).Pairwise (· < ·) ∧
      ∀ last ∈ s.lastProcessedStateMeta,
        ∀ p ∈ (runTicks GUARDIAN_DEPOSIT_RESIGNING_BLOCKS getDuplicatedKeys ticks s).2,
          last.blockNumber < p.blockNumber := by
  have hrun : ∀ acc, RunInv s acc →
      RunInv s (ticks.foldl (runTick GUARDIAN_DEPOSIT_RESIGNING_BLOCKS getDuplicatedKeys) acc) := by
    induction ticks with
    | nil => exact fun _ h => h
    | cons tick ticks ih => exact fun acc h => ih _ (runInv_step _ _ h tick)
  have h := hrun (s, []) ⟨.nil, by simp, fun last hlast => ⟨by simp, last, hlast, le_rfl⟩⟩
  exact ⟨h.pairwise, fun last hlast => (h.after_start last hlast).1⟩

end CouncilDaemon.Guardian
