import CouncilDaemon.Guardian.Ticks

/-! The guardian daemon: the cron job firing `handleNewBlock` under `@OneAtTime`, with the module
branches of every tick. A firing that finds the flag set returns at once. Any other firing sets
the flag and runs the steps before the modules; a tick that goes on to the modules starts one
branch per module in a `Promise.all` and holds the flag until that promise settles: rejected once
a branch has failed, or fulfilled once every branch is done, and then the tick pings the message
broker and sets the block guard. The decorator clears the flag in its `finally`. A rejected
`Promise.all` does not stop the other branches of its tick: they keep resuming among the branches
of later ticks, reading and writing the contracts-state map and handing deposit messages to
`sendDepositMessage`.

The steps before the modules read and write only the block guard and the keys-index client, which
no branch touches, so a firing runs them as one step; the branches of all ticks resume one at a
time, in any order.

Proved: a tick fired on an idle daemon and run alone is `handleNewBlock`, the flag staying set
exactly when its branches are left pending. Along every run from start-up, each branch of each
started tick, the orphaned ones included, keeps its branch invariant, and every deposit message
handed on is the signed message of a module that passed the whole deposit gate of its tick, as
the guardian stood when that tick was fired. Between any two points of a run the block guard
stays or moves to a later block. -/

namespace CouncilDaemon.Guardian

open KeysApi StakingModuleGuard

/-- A tick that started its module branches: its context, its answers, where each branch stands,
and the error its `Promise.all` rejected with, the first one thrown. -/
structure StartedTick where
  ctx : TickContext
  r : TickResponses
  branches : List Branch
  rejection : Option Error

/-- The guardian's state, every tick that started its branches in the order of their firings,
and the `@OneAtTime` flag of `handleNewBlock`, set while the last of them has not settled. -/
structure Daemon where
  guardian : GuardianState
  ticks : List StartedTick
  isRunning : Bool

/-- The daemon at start-up. -/
def Daemon.start (s : GuardianState) : Daemon := ⟨s, [], false⟩

/-- What happens next: the cron job fires `handleNewBlock`, with the answers its tick will get;
branch `i` of the `t`-th started tick resumes; or the running tick's `Promise.all` settles. -/
inductive Event where
  | fire (r : TickResponses)
  | resume (t i : ℕ)
  | settle

section Step

variable (GUARDIAN_DEPOSIT_RESIGNING_BLOCKS : ℕ+)
  (getDuplicatedKeys : List RegistryKey → List RegistryKey)

/-- A firing: with the flag set it returns at once. Otherwise it runs the steps before the
modules; a tick that throws or finds no new state there ends, and any other starts one branch per
module and holds the flag. -/
def fire (r : TickResponses) (d : Daemon) : Daemon :=
  if d.isRunning then d
  else
    match prepareTick getDuplicatedKeys r d.guardian.lastProcessedStateMeta d.guardian.keysApi with
    | (.error _, keysApi) | (.ok none, keysApi) =>
      { d with guardian := { d.guardian with keysApi := keysApi } }
    | (.ok (some ctx), keysApi) =>
      ⟨{ d.guardian with keysApi := keysApi },
        d.ticks ++ [⟨ctx, r, ctx.stakingModulesData.map .getInvalidKeys, none⟩], true⟩

/-- Branch `i` of the `t`-th started tick resumes as it would within its tick, whether or not that
tick still holds the flag; an index with no branch changes nothing. -/
def resume (t i : ℕ) (d : Daemon) : Daemon :=
  match d.ticks[t]? with
  | none => d
  | some tick =>
    let fanOut := fanOutStep GUARDIAN_DEPOSIT_RESIGNING_BLOCKS tick.ctx tick.r
      ⟨tick.branches, d.guardian.lastContractsStateByModuleId, d.guardian.sent, tick.rejection⟩ i
    ⟨{ d.guardian with
        lastContractsStateByModuleId := fanOut.lastContractsStateByModuleId
        sent := fanOut.sent },
      d.ticks.set t { tick with branches := fanOut.branches, rejection := fanOut.rejection },
      d.isRunning⟩

/-- The running tick's `Promise.all` settles: rejected once one of its branches has thrown, and
the tick ends; fulfilled once all are done, and the tick pings the message broker and, if that
succeeds, sets the block guard. Either way `@OneAtTime` clears the flag. Before the promise
settles nothing happens. -/
def settle (d : Daemon) : Daemon :=
  match d.isRunning, d.ticks.getLast? with
  | true, some tick =>
    match tick.rejection with
    | some _ => { d with isRunning := false }
    | none =>
      if tick.branches.all fun branch => decide (branch = .done) then
        match tick.r.pingMessageBroker with
        | .error _ => { d with isRunning := false }
        | .ok () =>
          ⟨{ d.guardian with lastProcessedStateMeta := some (processedState tick.ctx.meta) },
            d.ticks, false⟩
      else d
  | _, _ => d

def daemonStep (d : Daemon) : Event → Daemon
  | .fire r => fire getDuplicatedKeys r d
  | .resume t i => resume GUARDIAN_DEPOSIT_RESIGNING_BLOCKS t i d
  | .settle => settle d

/-- The daemon taking the events one after another. -/
def daemonRun (events : List Event) (d : Daemon) : Daemon :=
  events.foldl (daemonStep GUARDIAN_DEPOSIT_RESIGNING_BLOCKS getDuplicatedKeys) d

@[simp] theorem daemonRun_nil (d : Daemon) :
    daemonRun GUARDIAN_DEPOSIT_RESIGNING_BLOCKS getDuplicatedKeys [] d = d := rfl

theorem daemonRun_cons (e : Event) (events : List Event) (d : Daemon) :
    daemonRun GUARDIAN_DEPOSIT_RESIGNING_BLOCKS getDuplicatedKeys (e :: events) d =
      daemonRun GUARDIAN_DEPOSIT_RESIGNING_BLOCKS getDuplicatedKeys events
        (daemonStep GUARDIAN_DEPOSIT_RESIGNING_BLOCKS getDuplicatedKeys d e) := rfl

theorem daemonRun_append (events events' : List Event) (d : Daemon) :
    daemonRun GUARDIAN_DEPOSIT_RESIGNING_BLOCKS getDuplicatedKeys (events ++ events') d =
      daemonRun GUARDIAN_DEPOSIT_RESIGNING_BLOCKS getDuplicatedKeys events'
        (daemonRun GUARDIAN_DEPOSIT_RESIGNING_BLOCKS getDuplicatedKeys events d) :=
  List.foldl_append _ _ _ _

end Step

/-! ### What each event changes -/

section Frame

variable (GUARDIAN_DEPOSIT_RESIGNING_BLOCKS : ℕ+)
  (getDuplicatedKeys : List RegistryKey → List RegistryKey) (d : Daemon)

theorem settle_frame : (settle d).ticks = d.ticks ∧
    (settle d).guardian.lastContractsStateByModuleId = d.guardian.lastContractsStateByModuleId ∧
    (settle d).guardian.sent = d.guardian.sent := by
  unfold settle
  repeat' split
  all_goals exact ⟨rfl, rfl, rfl⟩

/-- A firing touches neither the contracts-state map nor the messages, and either starts a tick
from the guardian as it stands, with the flag clear, or leaves the ticks and the block guard. -/
theorem fire_cases (r : TickResponses) :
    (fire getDuplicatedKeys r d).guardian.lastContractsStateByModuleId =
        d.guardian.lastContractsStateByModuleId ∧
      (fire getDuplicatedKeys r d).guardian.sent = d.guardian.sent ∧
      ((fire getDuplicatedKeys r d).ticks = d.ticks ∧
          (fire getDuplicatedKeys r d).guardian.lastProcessedStateMeta =
            d.guardian.lastProcessedStateMeta ∧
          (fire getDuplicatedKeys r d).isRunning = d.isRunning ∨
        ∃ ctx keysApi, d.isRunning = false ∧
          prepareTick getDuplicatedKeys r d.guardian.lastProcessedStateMeta d.guardian.keysApi =
            (.ok (some ctx), keysApi) ∧
          fire getDuplicatedKeys r d = ⟨{ d.guardian with keysApi := keysApi },
            d.ticks ++ [⟨ctx, r, ctx.stakingModulesData.map .getInvalidKeys, none⟩], true⟩) := by
  unfold fire
  split
  · exact ⟨rfl, rfl, .inl ⟨rfl, rfl, rfl⟩⟩
  · rename_i hidle
    split
    · exact ⟨rfl, rfl, .inl ⟨rfl, rfl, rfl⟩⟩
    · exact ⟨rfl, rfl, .inl ⟨rfl, rfl, rfl⟩⟩
    · rename_i ctx keysApi hprepare
      exact ⟨rfl, rfl, .inr ⟨ctx, keysApi, Bool.not_eq_true _ ▸ hidle, hprepare, rfl⟩⟩

/-- A resumption of a branch of a started tick is that branch's step within its tick; it
touches neither the flag nor the block guard, and keeps every tick's context and answers. -/
theorem resume_cases (t i : ℕ) :
    (resume GUARDIAN_DEPOSIT_RESIGNING_BLOCKS t i d).isRunning = d.isRunning ∧
      (resume GUARDIAN_DEPOSIT_RESIGNING_BLOCKS t i d).guardian.lastProcessedStateMeta =
        d.guardian.lastProcessedStateMeta ∧
      (resume GUARDIAN_DEPOSIT_RESIGNING_BLOCKS t i d).ticks.map (fun tick => (tick.ctx, tick.r)) =
        d.ticks.map (fun tick => (tick.ctx, tick.r)) ∧
      (resume GUARDIAN_DEPOSIT_RESIGNING_BLOCKS t i d = d ∨
        ∃ tick, d.ticks[t]? = some tick ∧
          let fanOut := fanOutStep GUARDIAN_DEPOSIT_RESIGNING_BLOCKS tick.ctx tick.r
            ⟨tick.branches, d.guardian.lastContractsStateByModuleId, d.guardian.sent, tick.rejection⟩ i
          (resume GUARDIAN_DEPOSIT_RESIGNING_BLOCKS t i d).ticks =
              d.ticks.set t { tick with branches := fanOut.branches, rejection := fanOut.rejection } ∧
            (resume GUARDIAN_DEPOSIT_RESIGNING_BLOCKS t i d).guardian.lastContractsStateByModuleId =
              fanOut.lastContractsStateByModuleId ∧
            (resume GUARDIAN_DEPOSIT_RESIGNING_BLOCKS t i d).guardian.sent = fanOut.sent) := by
  unfold resume
  split
  · exact ⟨rfl, rfl, rfl, .inl rfl⟩
  · rename_i tick htick
    refine ⟨rfl, rfl, ?_, .inr ⟨tick, htick, rfl, rfl, rfl⟩⟩
    rw [List.map_set]
    exact List.ext_getElem? fun j => by
      rw [List.getElem?_set]
      split_ifs with hj hlt
      · rw [← hj, List.getElem?_map, htick, Option.map_some']
      · rw [← hj, List.getElem?_eq_none (not_lt.1 hlt)]
      · rfl

theorem fanOutStep_sent (ctx : TickContext) (r : TickResponses) (st : FanOut) (i : ℕ) :
    ∃ messages, (fanOutStep GUARDIAN_DEPOSIT_RESIGNING_BLOCKS ctx r st i).sent = st.sent ++ messages := by
  unfold fanOutStep
  split
  · exact ⟨[], (List.append_nil _).symm⟩
  · exact ⟨_, rfl⟩

theorem daemonRun_sent (events : List Event) :
    ∀ d : Daemon, ∃ messages,
      (daemonRun GUARDIAN_DEPOSIT_RESIGNING_BLOCKS getDuplicatedKeys events d).guardian.sent =
        d.guardian.sent ++ messages := by
  induction events with
  | nil => exact fun d => ⟨[], (List.append_nil _).symm⟩
  | cons e events ih =>
    intro d
    obtain ⟨messages, hstep⟩ : ∃ messages,
        (daemonStep GUARDIAN_DEPOSIT_RESIGNING_BLOCKS getDuplicatedKeys d e).guardian.sent =
          d.guardian.sent ++ messages := by
      cases e with
      | fire r => exact ⟨[], (fire_cases getDuplicatedKeys d r).2.1.trans (List.append_nil _).symm⟩
      | resume t i =>
        obtain ⟨-, -, -, hsame | ⟨tick, -, -, -, hsent⟩⟩ :=
          resume_cases GUARDIAN_DEPOSIT_RESIGNING_BLOCKS d t i
        · exact ⟨[], by rw [daemonStep, hsame, List.append_nil]⟩
        · exact hsent ▸ fanOutStep_sent _ _ _ _ i
      | settle => exact ⟨[], (settle_frame d).2.2.trans (List.append_nil _).symm⟩
    obtain ⟨messages', hrun⟩ := ih (daemonStep GUARDIAN_DEPOSIT_RESIGNING_BLOCKS getDuplicatedKeys d e)
    exact ⟨messages ++ messages', by rw [daemonRun_cons, hrun, hstep, List.append_assoc]⟩

end Frame

/-! ### A tick run alone is `handleNewBlock` -/

section Tick

variable (GUARDIAN_DEPOSIT_RESIGNING_BLOCKS : ℕ+)
  (getDuplicatedKeys : List RegistryKey → List RegistryKey)

theorem daemonRun_resume_none {t : ℕ} (schedule : List ℕ) {d : Daemon} (h : d.ticks[t]? = none) :
    daemonRun GUARDIAN_DEPOSIT_RESIGNING_BLOCKS getDuplicatedKeys
      (schedule.map (.resume t)) d = d := by
  induction schedule with
  | nil => rfl
  | cons i schedule ih =>
    rw [List.map_cons, daemonRun_cons, daemonStep, resume, h]
    exact ih

/-- The branches of the last started tick resuming in the order of `schedule` run as they do
within `handleNewBlock`. -/
theorem daemonRun_resume_last (ctx : TickContext) (r : TickResponses) (ticks : List StartedTick)
    (g : GuardianState) (isRunning : Bool) (schedule : List ℕ) :
    ∀ st : FanOut,
      daemonRun GUARDIAN_DEPOSIT_RESIGNING_BLOCKS getDuplicatedKeys
          (schedule.map (.resume ticks.length))
          ⟨{ g with lastContractsStateByModuleId := st.lastContractsStateByModuleId, sent := st.sent },
            ticks ++ [⟨ctx, r, st.branches, st.rejection⟩], isRunning⟩ =
        ⟨{ g with
            lastContractsStateByModuleId :=
              (runBranches GUARDIAN_DEPOSIT_RESIGNING_BLOCKS ctx r schedule st).lastContractsStateByModuleId
            sent := (runBranches GUARDIAN_DEPOSIT_RESIGNING_BLOCKS ctx r schedule st).sent },
          ticks ++ [⟨ctx, r, (runBranches GUARDIAN_DEPOSIT_RESIGNING_BLOCKS ctx r schedule st).branches,
            (runBranches GUARDIAN_DEPOSIT_RESIGNING_BLOCKS ctx r schedule st).rejection⟩],
          isRunning⟩ := by
  induction schedule with
  | nil => exact fun _ => rfl
  | cons i schedule ih =>
    intro st
    rw [List.map_cons, daemonRun_cons, daemonStep, resume, List.getElem?_concat_length]
    simp only [List.set_append_right _ _ le_rfl, Nat.sub_self, List.set_cons_zero, List.set_nil]
    exact ih (fanOutStep GUARDIAN_DEPOSIT_RESIGNING_BLOCKS ctx r st i)

end Tick

/-! ### What every run keeps -/

/-- The branches of a started tick: one per loaded module, each with its branch invariant. -/
structure StartedTick.Inv (tick : StartedTick) : Prop where
  length_eq : tick.branches.length = tick.ctx.stakingModulesData.length
  branches : ∀ i branch stakingModuleData, tick.branches[i]? = some branch →
    tick.ctx.stakingModulesData[i]? = some stakingModuleData →
    BranchInv tick.ctx (tick.r.modules i) stakingModuleData branch

theorem StartedTick.Inv.fanOutInv {tick : StartedTick} (h : tick.Inv) (states : ContractsStates)
    (sent : List DepositMessage) :
    FanOutInv tick.ctx tick.r sent ⟨tick.branches, states, sent, tick.rejection⟩ :=
  ⟨h.length_eq, h.branches, [], by simp, by simp⟩

section Run

variable (GUARDIAN_DEPOSIT_RESIGNING_BLOCKS : ℕ+)
  (getDuplicatedKeys : List RegistryKey → List RegistryKey) (s : GuardianState)

/-- A firing among `events` with answers `r` started a tick with context `ctx`: the flag was
clear, and from the guardian as the events before the firing left it the steps before the modules
reached the modules. -/
def Fired (events : List Event) (ctx : TickContext) (r : TickResponses) : Prop :=
  ∃ pre, pre ++ [.fire r] <+: events ∧
    (daemonRun GUARDIAN_DEPOSIT_RESIGNING_BLOCKS getDuplicatedKeys pre (.start s)).isRunning =
      false ∧
    ∃ keysApi, prepareTick getDuplicatedKeys r
      (daemonRun GUARDIAN_DEPOSIT_RESIGNING_BLOCKS getDuplicatedKeys pre
        (.start s)).guardian.lastProcessedStateMeta
      (daemonRun GUARDIAN_DEPOSIT_RESIGNING_BLOCKS getDuplicatedKeys pre (.start s)).guardian.keysApi =
        (.ok (some ctx), keysApi)

/-- The daemon invariant after `events` from start-up at `s`: every started tick was started by
a firing among the events and keeps its branches' invariants, and every message handed on since
start-up was handed on through the gate of a branch of such a tick. -/
structure DaemonInv (events : List Event) (d : Daemon) : Prop where
  ticks : ∀ tick ∈ d.ticks,
    tick.Inv ∧ Fired GUARDIAN_DEPOSIT_RESIGNING_BLOCKS getDuplicatedKeys s events tick.ctx tick.r
  sent_eq : ∃ messages, d.guardian.sent = s.sent ++ messages ∧ ∀ message ∈ messages,
    ∃ ctx r, Fired GUARDIAN_DEPOSIT_RESIGNING_BLOCKS getDuplicatedKeys s events ctx r ∧
      ∃ i stakingModuleData, ctx.stakingModulesData[i]? = some stakingModuleData ∧
        SignedThroughGate ctx (r.modules i) stakingModuleData message

variable {GUARDIAN_DEPOSIT_RESIGNING_BLOCKS getDuplicatedKeys s}

theorem Fired.append {events : List Event} {ctx : TickContext} {r : TickResponses}
    (h : Fired GUARDIAN_DEPOSIT_RESIGNING_BLOCKS getDuplicatedKeys s events ctx r)
    (events' : List Event) :
    Fired GUARDIAN_DEPOSIT_RESIGNING_BLOCKS getDuplicatedKeys s (events ++ events') ctx r :=
  let ⟨pre, hpre, hidle, hprepare⟩ := h
  ⟨pre, hpre.trans (List.prefix_append _ _), hidle, hprepare⟩

theorem DaemonInv.frame {events : List Event} {d d' : Daemon}
    (h : DaemonInv GUARDIAN_DEPOSIT_RESIGNING_BLOCKS getDuplicatedKeys s events d)
    (hticks : d'.ticks = d.ticks) (hsent : d'.guardian.sent = d.guardian.sent) (e : Event) :
    DaemonInv GUARDIAN_DEPOSIT_RESIGNING_BLOCKS getDuplicatedKeys s (events ++ [e]) d' := by
  obtain ⟨hticks', messages, hsent', hmessages⟩ := h
  refine ⟨fun tick htick => ?_, messages, hsent.trans hsent', fun message hmessage => ?_⟩
  · obtain ⟨hinv, hfired⟩ := hticks' tick (hticks ▸ htick)
    exact ⟨hinv, hfired.append _⟩
  · obtain ⟨ctx, r, hfired, hgate⟩ := hmessages message hmessage
    exact ⟨ctx, r, hfired.append _, hgate⟩

theorem DaemonInv.append {events : List Event} {d : Daemon}
    (h : DaemonInv GUARDIAN_DEPOSIT_RESIGNING_BLOCKS getDuplicatedKeys s events d) (e : Event) :
    DaemonInv GUARDIAN_DEPOSIT_RESIGNING_BLOCKS getDuplicatedKeys s (events ++ [e]) d :=
  h.frame rfl rfl e

theorem fire_inv {events : List Event} (r : TickResponses)
    (h : DaemonInv GUARDIAN_DEPOSIT_RESIGNING_BLOCKS getDuplicatedKeys s events
      (daemonRun GUARDIAN_DEPOSIT_RESIGNING_BLOCKS getDuplicatedKeys events (.start s))) :
    DaemonInv GUARDIAN_DEPOSIT_RESIGNING_BLOCKS getDuplicatedKeys s (events ++ [.fire r])
      (fire getDuplicatedKeys r
        (daemonRun GUARDIAN_DEPOSIT_RESIGNING_BLOCKS getDuplicatedKeys events (.start s))) := by
  obtain ⟨-, hsent, ⟨hticks, -⟩ | ⟨ctx, keysApi, hidle, hprepare, hfire⟩⟩ :=
    fire_cases getDuplicatedKeys (daemonRun GUARDIAN_DEPOSIT_RESIGNING_BLOCKS getDuplicatedKeys
      events (.start s)) r
  · exact h.frame hticks hsent _
  have hframe := h.append (.fire r)
  rw [hfire]
  refine ⟨fun tick htick => ?_, hframe.sent_eq⟩
  rcases List.mem_append.1 htick with htick | htick
  · exact hframe.ticks tick htick
  rw [List.mem_singleton] at htick
  subst htick
  have hstart : FanOutInv ctx r s.sent (startBranches ctx s) := startBranches_inv s
  exact ⟨⟨hstart.length_eq, hstart.branches⟩, events, List.prefix_rfl, hidle, keysApi, hprepare⟩

theorem resume_inv {events : List Event} {d : Daemon} (t i : ℕ)
    (h : DaemonInv GUARDIAN_DEPOSIT_RESIGNING_BLOCKS getDuplicatedKeys s events d) :
    DaemonInv GUARDIAN_DEPOSIT_RESIGNING_BLOCKS getDuplicatedKeys s (events ++ [.resume t i])
      (resume GUARDIAN_DEPOSIT_RESIGNING_BLOCKS t i d) := by
  obtain ⟨-, -, -, hsame | ⟨tick, htick, hticks, -, hsent⟩⟩ :=
    resume_cases GUARDIAN_DEPOSIT_RESIGNING_BLOCKS d t i
  · exact h.frame (congrArg Daemon.ticks hsame) (congrArg (·.guardian.sent) hsame) _
  obtain ⟨hinv, hfired⟩ := h.ticks tick (List.getElem?_mem htick)
  have hstep := fanOutStep_inv GUARDIAN_DEPOSIT_RESIGNING_BLOCKS
    (hinv.fanOutInv d.guardian.lastContractsStateByModuleId d.guardian.sent) i
  have hframe := h.append (.resume t i)
  refine ⟨fun tick' htick' => ?_, ?_⟩
  · rw [hticks] at htick'
    rcases List.mem_or_eq_of_mem_set htick' with htick' | rfl
    · exact hframe.ticks tick' htick'
    · exact ⟨⟨hstep.length_eq, hstep.branches⟩, hfired.append _⟩
  · obtain ⟨messages, hsent', hmessages⟩ := hframe.sent_eq
    obtain ⟨messages', hfanOut, hmessages'⟩ := hstep.sent_eq
    refine ⟨messages ++ messages', by rw [hsent, hfanOut, hsent', List.append_assoc],
      fun message hmessage => ?_⟩
    rcases List.mem_append.1 hmessage with hmessage | hmessage
    · exact hmessages message hmessage
    · exact ⟨tick.ctx, tick.r, hfired.append _, hmessages' message hmessage⟩

variable (GUARDIAN_DEPOSIT_RESIGNING_BLOCKS getDuplicatedKeys s)

/-- Every run from start-up keeps the invariant. -/
theorem daemonRun_inv (events : List Event) :
    DaemonInv GUARDIAN_DEPOSIT_RESIGNING_BLOCKS getDuplicatedKeys s events
      (daemonRun GUARDIAN_DEPOSIT_RESIGNING_BLOCKS getDuplicatedKeys events (.start s)) := by
  induction events using List.reverseRecOn with
  | nil => exact ⟨(fun _ h => nomatch h), [], by simp [Daemon.start], (fun _ h => nomatch h)⟩
  | append_singleton events e ih =>
    rw [daemonRun_append]
    cases e with
    | fire r => exact fire_inv r ih
    | resume t i => exact resume_inv t i ih
    | settle =>
      obtain ⟨hticks, -, hsent⟩ := settle_frame (daemonRun GUARDIAN_DEPOSIT_RESIGNING_BLOCKS
        getDuplicatedKeys events (.start s))
      exact ih.frame hticks hsent _

/-- Along any run of the daemon from start-up, with any answers, any failures, any order of the
branches of all ticks and any overlap of the cron job's firings: every deposit message handed to
`sendDepositMessage`, by a branch of the running tick or by one a rejected `Promise.all` left
running, is the signed message of a loaded module for which the whole deposit gate held, as the
guardian stood when that branch's tick was fired. -/
theorem daemonRun_deposit_gate (events : List Event) :
    ∃ messages, (daemonRun GUARDIAN_DEPOSIT_RESIGNING_BLOCKS getDuplicatedKeys events
        (.start s)).guardian.sent = s.sent ++ messages ∧
      ∀ message ∈ messages, ∃ pre r, pre ++ [.fire r] <+: events ∧
        (daemonRun GUARDIAN_DEPOSIT_RESIGNING_BLOCKS getDuplicatedKeys pre
          (.start s)).isRunning = false ∧
        ∃ «meta» keys blockData stakingModulesData i stakingModuleData,
          DepositGate getDuplicatedKeys r (daemonRun GUARDIAN_DEPOSIT_RESIGNING_BLOCKS
            getDuplicatedKeys pre (.start s)).guardian «meta» keys blockData stakingModulesData i
            stakingModuleData ∧
          ∃ signature, (r.modules i).sign = .ok signature ∧
            message = depositMessage stakingModuleData blockData signature := by
  obtain ⟨messages, hsent, hmessages⟩ :=
    (daemonRun_inv GUARDIAN_DEPOSIT_RESIGNING_BLOCKS getDuplicatedKeys s events).sent_eq
  refine ⟨messages, hsent, fun message hmessage => ?_⟩
  obtain ⟨ctx, r, ⟨pre, hpre, hidle, keysApi, hprepare⟩, i, stakingModuleData, hmodule, hsigned⟩ :=
    hmessages message hmessage
  obtain ⟨«meta», keys, blockData, stakingModulesData, hgate⟩ :=
    depositGate_of_signedThroughGate hprepare hmodule hsigned
  exact ⟨pre, r, hpre, hidle, «meta», keys, blockData, stakingModulesData, i, stakingModuleData,
    hgate⟩

end Run

/-! ### The block guard -/

/-- The block guard moved from `old` to `new` only forward: it stayed, or it holds a block after
the one it held. -/
def GuardAdvances (old new : Option ProcessedStateMeta) : Prop :=
  new = old ∨ ∃ p, new = some p ∧ ∀ last ∈ old, last.blockNumber < p.blockNumber

theorem GuardAdvances.trans {old mid new : Option ProcessedStateMeta} (h : GuardAdvances old mid)
    (h' : GuardAdvances mid new) : GuardAdvances old new := by
  rcases h' with rfl | ⟨p, rfl, hp⟩
  · exact h
  refine .inr ⟨p, rfl, fun last hlast => ?_⟩
  rcases h with rfl | ⟨q, rfl, hq⟩
  · exact hp last hlast
  · exact (hq last hlast).trans (hp q rfl)

/-- While the flag is set, the block of the running tick, the last started, is new to the block
guard. -/
def RunningIsNew (d : Daemon) : Prop :=
  d.isRunning = true → ∃ tick ∈ d.ticks.getLast?,
    isNeedToProcessNewState d.guardian.lastProcessedStateMeta (processedState tick.ctx.meta) = true

section Guard

variable (GUARDIAN_DEPOSIT_RESIGNING_BLOCKS : ℕ+)
  (getDuplicatedKeys : List RegistryKey → List RegistryKey)

theorem fire_guard {d : Daemon} (h : RunningIsNew d) (r : TickResponses) :
    RunningIsNew (fire getDuplicatedKeys r d) ∧ (fire getDuplicatedKeys r d).guardian.lastProcessedStateMeta = d.guardian.lastProcessedStateMeta := by
  obtain ⟨-, -, ⟨hticks, hguard, hrunning⟩ | ⟨ctx, keysApi, -, hprepare, hfire⟩⟩ :=
    fire_cases getDuplicatedKeys d r
  · exact ⟨by rw [RunningIsNew, hticks, hguard, hrunning]; exact h, hguard⟩
  rw [hfire]
  refine ⟨fun _ => ⟨_, List.getLast?_concat _, ?_⟩, rfl⟩
  exact (loadBlock_eq_ok_some (prepareTick_eq_ok_some hprepare).1).2.1

theorem resume_guard {d : Daemon} (h : RunningIsNew d) (t i : ℕ) :
    RunningIsNew (resume GUARDIAN_DEPOSIT_RESIGNING_BLOCKS t i d) ∧
      (resume GUARDIAN_DEPOSIT_RESIGNING_BLOCKS t i d).guardian.lastProcessedStateMeta =
        d.guardian.lastProcessedStateMeta := by
  obtain ⟨hrunning, hguard, hcalls, -⟩ := resume_cases GUARDIAN_DEPOSIT_RESIGNING_BLOCKS d t i
  refine ⟨fun hrun => ?_, hguard⟩
  obtain ⟨tick, htick, hnew⟩ := h (hrunning ▸ hrun)
  have hlast := congrArg List.getLast? hcalls
  rw [List.getLast?_map, List.getLast?_map, Option.mem_def.1 htick, Option.map_some',
    Option.map_eq_some'] at hlast
  obtain ⟨tick', htick', hcall⟩ := hlast
  exact ⟨tick', htick', by rw [hguard, (Prod.mk.inj hcall).1]; exact hnew⟩

theorem settle_guard {d : Daemon} (h : RunningIsNew d) :
    RunningIsNew (settle d) ∧
      GuardAdvances d.guardian.lastProcessedStateMeta (settle d).guardian.lastProcessedStateMeta := by
  unfold settle
  split
  · rename_i tick hrunning hlast
    obtain ⟨tick', htick', hnew⟩ := h hrunning
    cases Option.some.inj ((Option.mem_def.1 htick').symm.trans hlast)
    split
    · exact ⟨nofun, .inl rfl⟩
    split
    · split
      · exact ⟨nofun, .inl rfl⟩
      · refine ⟨nofun, .inr ⟨_, rfl, fun last hlast => ?_⟩⟩
        rw [Option.mem_def] at hlast
        rw [hlast] at hnew
        exact blockNumber_lt_of_isNeedToProcessNewState hnew
    · exact ⟨h, .inl rfl⟩
  · exact ⟨h, .inl rfl⟩

theorem daemonRun_guard (events : List Event) :
    ∀ {d : Daemon}, RunningIsNew d →
      RunningIsNew (daemonRun GUARDIAN_DEPOSIT_RESIGNING_BLOCKS getDuplicatedKeys events d) ∧
        GuardAdvances d.guardian.lastProcessedStateMeta
          (daemonRun GUARDIAN_DEPOSIT_RESIGNING_BLOCKS getDuplicatedKeys events
            d).guardian.lastProcessedStateMeta := by
  induction events with
  | nil => exact fun h => ⟨h, .inl rfl⟩
  | cons e events ih =>
    intro d h
    rw [daemonRun_cons]
    have hstep : RunningIsNew (daemonStep GUARDIAN_DEPOSIT_RESIGNING_BLOCKS getDuplicatedKeys d e) ∧
        GuardAdvances d.guardian.lastProcessedStateMeta
          (daemonStep GUARDIAN_DEPOSIT_RESIGNING_BLOCKS getDuplicatedKeys d e).guardian.lastProcessedStateMeta := by
      cases e with
      | fire r => exact (fire_guard getDuplicatedKeys h r).imp_right fun h => .inl h
      | resume t i => exact (resume_guard GUARDIAN_DEPOSIT_RESIGNING_BLOCKS h t i).imp_right fun h => .inl h
      | settle => exact settle_guard h
    obtain ⟨hrun, hguard⟩ := ih hstep.1
    exact ⟨hrun, hstep.2.trans hguard⟩

/-- Between any two points of a run of the daemon from start-up, with any answers, any failures,
any overlap of the cron job's firings and any branches a rejected `Promise.all` left running, the
block guard stays or moves to a block after the one it held: no block is processed twice. -/
theorem daemonRun_guard_advances (pre events : List Event) (s : GuardianState) :
    GuardAdvances
      (daemonRun GUARDIAN_DEPOSIT_RESIGNING_BLOCKS getDuplicatedKeys pre
        (.start s)).guardian.lastProcessedStateMeta
      (daemonRun GUARDIAN_DEPOSIT_RESIGNING_BLOCKS getDuplicatedKeys (pre ++ events)
        (.start s)).guardian.lastProcessedStateMeta := by
  rw [daemonRun_append]
  exact (daemonRun_guard GUARDIAN_DEPOSIT_RESIGNING_BLOCKS getDuplicatedKeys events
    (daemonRun_guard GUARDIAN_DEPOSIT_RESIGNING_BLOCKS getDuplicatedKeys pre
      (fun h => absurd h Bool.false_ne_true)).1).2

end Guard

end CouncilDaemon.Guardian
