import CouncilDaemon.DepositsRegistry.Service
import CouncilDaemon.Guardian.Ticks

/-! The tick over the deposit registry. A tick takes its deposited events from
`DepositRegistryService.getAllDepositedEvents` at its block, and the historical front-run check
of `StakingModuleGuardService` reads them.

Proved: after any `updateEventsCache` calls from the empty store, with any finalized blocks and
any failures, a tick reading the registry sends no deposit message when two things hold: the
chain's deposit log shows a front-run after the deployment block and up to the tick's block, and
the keys index reports the key as Lido's. When the cache ends after the tick's block, the registry
returns more events than those up to that block. A front-run stays one among them, since every
added deposit comes after it. -/

namespace CouncilDaemon.Guardian

open DepositsRegistry StakingModuleGuard

theorem mem_filter_inRange_mono {log : List VerifiedDepositEvent} {a B B' : ℤ} (hB : B ≤ B')
    {e : VerifiedDepositEvent} (he : e ∈ log.filter (inRange a B)) :
    e ∈ log.filter (inRange a B') := by
  simp only [List.mem_filter, inRange_eq_true] at he ⊢
  exact ⟨he.1, he.2.1, he.2.2.trans hB⟩

/-- A front-run among the log's events up to block `B` stays one among those up to a later
block: the deposits added come after it. -/
theorem isFrontRun_filter_inRange_mono {log : List VerifiedDepositEvent} {lidoWC : String}
    {a B B' : ℤ} (hB : B ≤ B') {e : VerifiedDepositEvent} (he : e ∈ log.filter (inRange a B))
    (h : IsFrontRun (log.filter (inRange a B)) lidoWC e) :
    IsFrontRun (log.filter (inRange a B')) lidoWC e := by
  obtain ⟨hvalid, hwc, ⟨l, hl, hlido⟩, hbefore⟩ := h
  refine ⟨hvalid, hwc, ⟨l, mem_filter_inRange_mono hB hl, hlido⟩, fun l' hl' hlido' => ?_⟩
  rw [List.mem_filter, inRange_eq_true] at he hl'
  by_cases hin : l'.blockNumber ≤ B
  · exact hbefore l' (List.mem_filter.2 ⟨hl'.1, inRange_eq_true.2 ⟨hl'.2.1, hin⟩⟩) hlido'
  · exact VerifiedDepositEvent.position_lt_of_blockNumber_lt (by omega)

theorem frontRunKeys_ne_nil {events : List VerifiedDepositEvent} {lidoWC : String}
    {e : VerifiedDepositEvent} (he : e ∈ events) (h : IsFrontRun events lidoWC e) :
    frontRunKeys events lidoWC ≠ [] :=
  List.ne_nil_of_mem (List.mem_map_of_mem _ (List.mem_filter.2 ⟨he, decide_eq_true h⟩))

variable (GUARDIAN_DEPOSIT_RESIGNING_BLOCKS : ℕ+)
  (getDuplicatedKeys : List RegistryKey → List RegistryKey)

/-- After any `updateEventsCache` calls from the empty store (any finalized blocks, regressions
and failures included), a tick whose deposited events are those `getAllDepositedEvents` returns
for its block sends no deposit message when two things hold. First, the chain's deposit log
shows, after the deployment block and up to that block, a valid deposit of a key with foreign
withdrawal credentials before every valid Lido deposit of the key. Second, the keys index reports
the key as Lido's. -/
theorem handleNewBlock_stops_on_logged_frontRun (deploymentBlock : ℕ)
    (log : List VerifiedDepositEvent) (hlog : log.Pairwise (·.position < ·.position))
    (envs : List UpdateEventsCacheEnv) (r : TickResponses) (schedule : List ℕ)
    (s : GuardianState) {blockData : BlockData} {fetchFault : Option Error}
    {verifyFreshEvents : Except Error Bool} {lidoDepositedKeys : KeyListResponse}
    {e : VerifiedDepositEvent}
    (hblockData : r.currentBlockData = .ok blockData)
    (hevents : getAllDepositedEvents deploymentBlock log blockData.blockNumber fetchFault
      verifyFreshEvents (runUpdateEventsCache deploymentBlock log envs ⟨.empty, []⟩).store =
        .ok blockData.depositedEvents)
    (he : e ∈ log.filter (inRange (deploymentBlock + 1) blockData.blockNumber))
    (hfrontRun : IsFrontRun (log.filter (inRange (deploymentBlock + 1) blockData.blockNumber))
      blockData.lidoWC e)
    (hkeysFind : r.keysFind = .ok lidoDepositedKeys) (hlido : lidoDepositedKeys.data ≠ []) :
    (handleNewBlock GUARDIAN_DEPOSIT_RESIGNING_BLOCKS getDuplicatedKeys r schedule s).1.sent =
      s.sent := by
  have hcache : CacheInv deploymentBlock log
      (runUpdateEventsCache deploymentBlock log envs ⟨.empty, []⟩).store :=
    (runUpdateEventsCache_cacheInv hlog envs CacheInv.empty).1
  have hkeys : frontRunKeys blockData.depositedEvents.events blockData.lidoWC ≠ [] := by
    rw [getAllDepositedEvents_events hlog hcache hevents]
    exact frontRunKeys_ne_nil (mem_filter_inRange_mono (le_max_right _ _) he)
      (isFrontRun_filter_inRange_mono (le_max_right _ _) he hfrontRun)
  exact handleNewBlock_sent_of_theftHappened GUARDIAN_DEPOSIT_RESIGNING_BLOCKS getDuplicatedKeys r
    schedule s fun _ _ hprepare =>
      theftHappened_of_frontRunKeys getDuplicatedKeys hprepare hblockData hkeys hkeysFind hlido

/-- The log shows key `0xk` deposited with foreign credentials at block `1`, before its Lido
deposit at block `2`; no cache update has run, and the tick at block `5` reads both deposits from
the registry. -/
theorem handleNewBlock_stops_on_logged_frontRun_fresh_cache :
    let log : List VerifiedDepositEvent :=
      [⟨1, 0, "0xk", "0xthief", true, "0xr1"⟩, ⟨2, 0, "0xk", "0xwc", true, "0xr2"⟩]
    let blockData : BlockData := ⟨5, "0xb", "0xroot", ⟨log, 0, 5, true⟩, "0xg", 0, "0xwc"⟩
    let lidoDepositedKeys : KeyListResponse :=
      ⟨[⟨"0xk", "0xsig", 0, true, 0, "0xm"⟩], ⟨⟨5, "0xb", "0xc"⟩⟩⟩
    let r : TickResponses :=
      ⟨.ok ⟨⟨5, "0xb", "0xc"⟩⟩, .ok (), .ok ⟨[], ⟨⟨5, "0xb", "0xc"⟩⟩⟩, .ok (), .ok blockData,
        .ok lidoDepositedKeys, .ok [⟨1, "0xm", 3, "0xb", "0xc", [], [], [], []⟩], .ok 3, .ok false,
        .ok (), .ok (), fun _ => ⟨.ok [], .ok (), .ok "0xs", .ok ()⟩, .ok ()⟩
    let s : GuardianState := ⟨none, ⟨none, []⟩, fun _ => none, []⟩
    log.Pairwise (·.position < ·.position) ∧ r.currentBlockData = .ok blockData ∧
      getAllDepositedEvents 0 log blockData.blockNumber none (.ok true)
        (runUpdateEventsCache 0 log [] ⟨.empty, []⟩).store = .ok blockData.depositedEvents ∧
      ⟨1, 0, "0xk", "0xthief", true, "0xr1"⟩ ∈ log.filter (inRange (0 + 1) blockData.blockNumber) ∧
      IsFrontRun (log.filter (inRange (0 + 1) blockData.blockNumber)) blockData.lidoWC
        ⟨1, 0, "0xk", "0xthief", true, "0xr1"⟩ ∧
      r.keysFind = .ok lidoDepositedKeys ∧ lidoDepositedKeys.data ≠ [] ∧
      (handleNewBlock 10 (fun _ => []) r [0, 0, 0, 0] s).1.sent = s.sent := by
  intro log blockData lidoDepositedKeys r s
  have hlog : log.Pairwise (·.position < ·.position) :=
    List.pairwise_pair.2 (VerifiedDepositEvent.position_lt_of_blockNumber_lt (by decide))
  exact (fun hevents he hfrontRun hlido => ⟨hlog, rfl, hevents, he, hfrontRun, rfl, hlido,
    handleNewBlock_stops_on_logged_frontRun 10 (fun _ => []) 0 log hlog [] r [0, 0, 0, 0] s rfl
      hevents he hfrontRun rfl hlido⟩) rfl (by decide) (by decide) (by decide)

end CouncilDaemon.Guardian
