import Crewplane.Invocation.Transitions
/-
# The invocation loop (runtime/agent/invocation/loop.py)

| here | there |
|------|-------|
| `InvocationLoopState`   | `_InvocationLoopState`, loop.py:77 |
| `runAttemptCycle`       | loop.py:145 with `_execute_transition_action`, loop.py:263 |
| `advanceRetryState`     | loop.py:219 |
| `runInvocationLoop`     | loop.py:90, over the attempts its commands return |

The list of attempts is what the environment supplies. A command, a reset or a
sleep that raises ends the loop where the list ends. `built_in_retry_used` is
never stored: `Accounted` is the invariant that makes the comparison of the
three counters mean that the one-shot retry has been scheduled.
-/
namespace Crewplane.Invocation

open Crewplane.Lib

structure InvocationLoopState where
  cursor : InvocationRetryCursor := ⟨0, 0, none⟩
  attempt : Nat := 0
  quotaRetryWaitSeconds : ℚ := 0
  lastNonQuotaFailure : Option InvocationFailureSummary := none

def InvocationLoopState.builtInRetryUsed (s : InvocationLoopState) : Bool :=
  s.cursor.retryCount + s.cursor.quotaRetryCount < s.attempt

/-- A `SleepAndRetryAttemptTransition` that the loop has executed. -/
structure ScheduledRetry where
  cursor : InvocationRetryCursor
  retryDelaySeconds : ℚ
  notice : Option InvocationDiagnosticNotice

def ScheduledRetry.kind (t : ScheduledRetry) : Option RetryKind :=
  t.notice.map InvocationDiagnosticNotice.retryKind

/-- How the loop ends; the four errors of loop.py:332-397 and the two texts of `RuntimeError`. -/
inductive LoopEnd
  | success (output : ExtractedInvocationOutput)
  | retryExhausted (result : CommandResult) (retryCount : Nat)
  | failedExit (result : CommandResult)
  | quotaFailure (result : CommandResult) (message : String)
      (lastNonQuotaFailure : Option InvocationFailureSummary)
  | outputExtractionFailure (status : OutputExtractionStatus)
  | runtimeError (text : String)

section Loop

variable {World : Type} (host : Host World) (config : AgentConfig) (plan : InvocationPlan World)

/-- loop.py:210 -/
def isNonQuotaRetry : InvocationAttemptTransition → Bool
  | .sleepAndRetry _ _ _ (some notice) => notice.operation ≠ "quota_retry_scheduled"
  | _ => false

/-- loop.py:196 -/
def rememberNonQuotaFailure (s : InvocationLoopState) (a : Attempt World)
    (ar : InvocationAttemptResult) (t : InvocationAttemptTransition) : InvocationLoopState :=
  if isNonQuotaRetry t then
    let summary := plan.failureClassifier a.world ar.result
    if summary.kind ≠ "quota_or_rate_limit" then { s with lastNonQuotaFailure := some summary } else s
  else s

/-- loop.py:263 -/
def executeTransitionAction (s : InvocationLoopState) (ar : InvocationAttemptResult) :
    InvocationAttemptTransition → Except LoopEnd ScheduledRetry
  | .continueAttempt _ => .error (.runtimeError "Invocation loop cannot execute a continue transition.")
  | .sleepAndRetry cursor delay _ notice => .ok ⟨cursor, delay, notice⟩
  | .finalizeSuccess _ output => .error (.success output)
  | .raiseRetryExhausted cursor _ => .error (.retryExhausted ar.result cursor.retryCount)
  | .raiseFailedExit _ => .error (.failedExit ar.result)
  | .raiseQuotaFailure _ message => .error (.quotaFailure ar.result message s.lastNonQuotaFailure)
  | .raiseOutputExtractionFailure _ output =>
    .error (.outputExtractionFailure output.result.outputExtractionStatus)

def runAttemptCycle (s : InvocationLoopState) (a : Attempt World) :
    InvocationLoopState × Except LoopEnd ScheduledRetry :=
  let ar := buildInvocationAttemptResult host plan a.world a.result
  match selectAttemptTransition host config plan a ar s.cursor s.quotaRetryWaitSeconds
      s.builtInRetryUsed with
  | .error text => (s, .error (.runtimeError text))
  | .ok transition =>
    let s := rememberNonQuotaFailure plan s a ar transition
    (s, executeTransitionAction s ar transition)

def advanceRetryState (s : InvocationLoopState) (retry : ScheduledRetry) : InvocationLoopState :=
  { s with
    quotaRetryWaitSeconds :=
      if s.cursor.quotaRetryCount < retry.cursor.quotaRetryCount then
        s.quotaRetryWaitSeconds + retry.retryDelaySeconds
      else s.quotaRetryWaitSeconds
    attempt := s.attempt + 1
    cursor := retry.cursor }

/-- A run so far: the state, the retries in order, and the attempt that ended it. -/
structure LoopRun (World : Type) where
  state : InvocationLoopState
  retries : List ScheduledRetry
  ended : Option (Attempt World × LoopEnd)

def runInvocationLoop : InvocationLoopState → List (Attempt World) → LoopRun World
  | s, [] => ⟨s, [], none⟩
  | s, a :: rest =>
    match runAttemptCycle host config plan s a with
    | (s', .error e) => ⟨s', [], some (a, e)⟩
    | (s', .ok retry) =>
      let r := runInvocationLoop (advanceRetryState s' retry) rest
      { r with retries := retry :: r.retries }

end Loop

/-! ## The accounts -/

/-- How many of the retries are of a kind. -/
def retriesOf (k : RetryKind) (retries : List ScheduledRetry) : Nat :=
  (retries.map ScheduledRetry.kind).count (some k)

/-- The time slept for quota retries. -/
def quotaWaits (retries : List ScheduledRetry) : ℚ :=
  ((retries.filter fun t => t.kind = some .quota).map ScheduledRetry.retryDelaySeconds).sum

@[simp] theorem retriesOf_append (k : RetryKind) (xs ys : List ScheduledRetry) :
    retriesOf k (xs ++ ys) = retriesOf k xs + retriesOf k ys := by
  simp [retriesOf]

@[simp] theorem quotaWaits_append (xs ys : List ScheduledRetry) :
    quotaWaits (xs ++ ys) = quotaWaits xs + quotaWaits ys := by
  simp [quotaWaits]

theorem retriesOf_single {t : ScheduledRetry} {k : RetryKind} (h : t.kind = some k) (k' : RetryKind) :
    retriesOf k' [t] = if k = k' then 1 else 0 := by
  simp only [retriesOf, List.map_cons, List.map_nil, h]
  by_cases hk : k = k'
  · simp [hk]
  · simp [hk]

theorem quotaWaits_single {t : ScheduledRetry} {k : RetryKind} (h : t.kind = some k) :
    quotaWaits [t] = if k = .quota then t.retryDelaySeconds else 0 := by
  by_cases hk : k = .quota
  · simp [quotaWaits, h, hk]
  · simp [quotaWaits, h, hk]

/-- The counters of the state are the accounts of the retries made, and the accounts keep to the
limits of the configuration. -/
structure Accounted (config : AgentConfig) (s : InvocationLoopState) (retries : List ScheduledRetry) :
    Prop where
  attempt : s.attempt = retries.length
  kinds : retries.length
    = retriesOf .configured retries + retriesOf .quota retries + retriesOf .oneShot retries
  retryCount : s.cursor.retryCount = retriesOf .configured retries
  quotaRetryCount : s.cursor.quotaRetryCount = retriesOf .quota retries
  waited : s.quotaRetryWaitSeconds = quotaWaits retries
  oneShot_le : retriesOf .oneShot retries ≤ 1
  configured_le : retriesOf .configured retries ≤ config.maxRetries
  quota_le : ∀ m ∈ config.quotaRetryMaxAttempts, retriesOf .quota retries ≤ m
  waited_lt : ∀ m ∈ config.quotaRetryMaxWaitSeconds, quotaWaits retries < m

theorem accounted_nil (config : AgentConfig) : Accounted config {} [] where
  attempt := rfl
  kinds := rfl
  retryCount := rfl
  quotaRetryCount := rfl
  waited := rfl
  oneShot_le := Nat.zero_le 1
  configured_le := Nat.zero_le _
  quota_le := fun m _ => Nat.zero_le m
  waited_lt := fun m hm => by simpa [quotaWaits] using config.maxWait_pos m hm

section Accounts

variable {World : Type} {host : Host World} {config : AgentConfig} {plan : InvocationPlan World}
  {s s' : InvocationLoopState} {retries : List ScheduledRetry} {a : Attempt World}

theorem Accounted.builtInRetryUsed_iff (h : Accounted config s retries) :
    s.builtInRetryUsed = true ↔ retriesOf .oneShot retries = 1 := by
  have hlen := h.attempt.trans h.kinds
  have hone := h.oneShot_le
  simp only [InvocationLoopState.builtInRetryUsed, decide_eq_true_eq, h.retryCount, h.quotaRetryCount]
  omega

/-- One retry step keeps the accounts. -/
theorem Accounted.advance {retry : ScheduledRetry} {n : InvocationDiagnosticNotice}
    (h : Accounted config s retries) (hn : retry.notice = some n)
    (hstep : RetryStep config s.builtInRetryUsed s.quotaRetryWaitSeconds s.cursor retry.cursor
      retry.retryDelaySeconds n.retryKind) :
    Accounted config (advanceRetryState s retry) (retries ++ [retry]) := by
  have hkind : retry.kind = some n.retryKind := by simp [ScheduledRetry.kind, hn]
  have hcount := retriesOf_single hkind
  have hwaits := quotaWaits_single hkind
  generalize n.retryKind = k at hstep hcount hwaits
  have hused := h.builtInRetryUsed_iff
  cases hstep with
  | oneShot unused hr hq =>
    have hzero : retriesOf .oneShot retries = 0 := by
      have := h.oneShot_le
      rw [unused] at hused
      by_contra hne
      exact Bool.false_ne_true (hused.mpr (by omega))
    constructor
    · simp [advanceRetryState, h.attempt]
    · simp [hcount, h.kinds]
      omega
    · simp [advanceRetryState, hr, hcount, h.retryCount]
    · simp [advanceRetryState, hq, hcount, h.quotaRetryCount]
    · simp [advanceRetryState, hq, hwaits, h.waited]
    · simp [hcount, hzero]
    · simpa [hcount] using h.configured_le
    · simpa [hcount] using h.quota_le
    · simpa [hwaits] using h.waited_lt
  | configured below hr hq =>
    have hlt := below
    rw [h.retryCount] at hlt
    constructor
    · simp [advanceRetryState, h.attempt]
    · simp [hcount, h.kinds]
      omega
    · simp [advanceRetryState, hr, hcount, h.retryCount]
    · simp [advanceRetryState, hq, hcount, h.quotaRetryCount]
    · simp [advanceRetryState, hq, hwaits, h.waited]
    · simpa [hcount] using h.oneShot_le
    · simpa [hcount] using hlt
    · simpa [hcount] using h.quota_le
    · simpa [hwaits] using h.waited_lt
  | quota attempts wait hr hq =>
    constructor
    · simp [advanceRetryState, h.attempt]
    · simp [hcount, h.kinds]
      omega
    · simp [advanceRetryState, hr, hcount, h.retryCount]
    · simp [advanceRetryState, hq, hcount, h.quotaRetryCount]
    · simp [advanceRetryState, hq, hwaits, h.waited]
    · simpa [hcount] using h.oneShot_le
    · simpa [hcount] using h.configured_le
    · intro m hm
      have hlt := attempts m hm
      rw [h.quotaRetryCount] at hlt
      simpa [hcount] using hlt
    · intro m hm
      have hlt := wait m hm
      rw [h.waited] at hlt
      simpa [hwaits] using hlt

/-- What the loop remembers of failures is none of the accounts. -/
theorem Accounted.rememberNonQuotaFailure (h : Accounted config s retries)
    (ar : InvocationAttemptResult) (t : InvocationAttemptTransition) :
    Accounted config (rememberNonQuotaFailure plan s a ar t) retries := by
  unfold Invocation.rememberNonQuotaFailure
  dsimp only
  split_ifs
  · exact ⟨h.attempt, h.kinds, h.retryCount, h.quotaRetryCount, h.waited, h.oneShot_le,
      h.configured_le, h.quota_le, h.waited_lt⟩
  · exact h
  · exact h

theorem rememberNonQuotaFailure_accounts (ar : InvocationAttemptResult)
    (t : InvocationAttemptTransition) :
    (rememberNonQuotaFailure plan s a ar t).cursor = s.cursor ∧
      (rememberNonQuotaFailure plan s a ar t).builtInRetryUsed = s.builtInRetryUsed ∧
      (rememberNonQuotaFailure plan s a ar t).quotaRetryWaitSeconds = s.quotaRetryWaitSeconds := by
  unfold rememberNonQuotaFailure
  dsimp only
  split_ifs
  · exact ⟨rfl, rfl, rfl⟩
  · exact ⟨rfl, rfl, rfl⟩
  · exact ⟨rfl, rfl, rfl⟩

theorem executeTransitionAction_ok {ar : InvocationAttemptResult} {t : InvocationAttemptTransition}
    {retry : ScheduledRetry} (h : executeTransitionAction s ar t = .ok retry) :
    ∃ out, t = .sleepAndRetry retry.cursor retry.retryDelaySeconds out retry.notice := by
  cases t with
  | sleepAndRetry cursor delay out notice =>
    cases h
    exact ⟨out, rfl⟩
  | continueAttempt _ => simp [executeTransitionAction] at h
  | finalizeSuccess _ _ => simp [executeTransitionAction] at h
  | raiseRetryExhausted _ _ => simp [executeTransitionAction] at h
  | raiseFailedExit _ => simp [executeTransitionAction] at h
  | raiseQuotaFailure _ _ => simp [executeTransitionAction] at h
  | raiseOutputExtractionFailure _ _ => simp [executeTransitionAction] at h

theorem executeTransitionAction_success {ar : InvocationAttemptResult}
    {t : InvocationAttemptTransition} {output : ExtractedInvocationOutput}
    (h : executeTransitionAction s ar t = .error (.success output)) :
    ∃ cursor, t = .finalizeSuccess cursor output := by
  cases t with
  | finalizeSuccess cursor out =>
    cases h
    exact ⟨cursor, rfl⟩
  | continueAttempt _ => simp [executeTransitionAction] at h
  | sleepAndRetry _ _ _ _ => simp [executeTransitionAction] at h
  | raiseRetryExhausted _ _ => simp [executeTransitionAction] at h
  | raiseFailedExit _ => simp [executeTransitionAction] at h
  | raiseQuotaFailure _ _ => simp [executeTransitionAction] at h
  | raiseOutputExtractionFailure _ _ => simp [executeTransitionAction] at h

/-- What the successful end of a loop tells of its last attempt. -/
def Succeeded (host : Host World) (config : AgentConfig) (plan : InvocationPlan World)
    (a : Attempt World) (output : ExtractedInvocationOutput) : Prop :=
  a.result.returncode = 0 ∧
    shouldRetryFailure host a.world config
      (buildInvocationAttemptResult host plan a.world a.result).result = false ∧
    output.result.outputExtractionStatus = .success

/-- One cycle keeps the accounts: they are the state's after a retry, and unchanged at an end. -/
theorem runAttemptCycle_accounted (h : Accounted config s retries) :
    (∀ s' retry, runAttemptCycle host config plan s a = (s', .ok retry) →
      Accounted config (advanceRetryState s' retry) (retries ++ [retry])) ∧
    (∀ s' e, runAttemptCycle host config plan s a = (s', .error e) →
      Accounted config s' retries ∧ ∀ output, e = .success output → Succeeded host config plan a output) := by
  obtain ⟨t, ht, hspec, hcontinue⟩ :=
    @selectAttemptTransition_spec World host config plan a
      (buildInvocationAttemptResult host plan a.world a.result) s.cursor s.builtInRetryUsed
      s.quotaRetryWaitSeconds (fun out hout => buildInvocationAttemptResult_extracted hout)
  obtain ⟨hcur, hused, hwait⟩ := @rememberNonQuotaFailure_accounts World plan s a
    (buildInvocationAttemptResult host plan a.world a.result) t
  have hrem := @Accounted.rememberNonQuotaFailure World config plan s retries a h
    (buildInvocationAttemptResult host plan a.world a.result) t
  unfold runAttemptCycle
  simp only [ht, Prod.mk.injEq]
  constructor
  · rintro _ retry ⟨rfl, hact⟩
    obtain ⟨out, rfl⟩ := executeTransitionAction_ok hact
    obtain ⟨n, hn, hstep⟩ := hspec.retry _ _ _ _ rfl
    refine hrem.advance hn ?_
    rw [hcur, hused, hwait]
    exact hstep
  · rintro _ e ⟨rfl, hact⟩
    refine ⟨hrem, ?_⟩
    rintro output rfl
    obtain ⟨cursor, rfl⟩ := executeTransitionAction_success hact
    obtain ⟨hrc, hclean, hst⟩ := hspec.success _ _ rfl
    rw [buildInvocationAttemptResult_returncode] at hrc
    exact ⟨hrc, hclean, hst⟩

/-- Every run keeps the accounts, and ends in success only on an attempt that earned it. -/
theorem runInvocationLoop_accounted (attempts : List (Attempt World)) (h : Accounted config s retries) :
    Accounted config (runInvocationLoop host config plan s attempts).state
        (retries ++ (runInvocationLoop host config plan s attempts).retries) ∧
      ∀ a output, (runInvocationLoop host config plan s attempts).ended = some (a, .success output) →
        Succeeded host config plan a output := by
  induction attempts generalizing s retries with
  | nil => simpa [runInvocationLoop] using h
  | cons a rest ih =>
    obtain ⟨hretry, hend⟩ := @runAttemptCycle_accounted World host config plan s retries a h
    unfold runInvocationLoop
    split
    next s' e hcycle =>
      obtain ⟨hacc, hsucc⟩ := hend s' e hcycle
      refine ⟨by simpa using hacc, ?_⟩
      intro a' output heq
      cases heq
      exact hsucc output rfl
    next s' retry hcycle =>
      have := ih (hretry s' retry hcycle)
      simpa using this

end Accounts

/-! ## Retry accounting -/

/-- After any attempts: the attempt number is the sum of the three accounts, the derived flag is
true exactly when the one-shot retry was scheduled, every account keeps to its limit, and success
is declared only on an attempt that exited with 0, met no retry condition and gave its output. -/
theorem retry_accounting {World : Type} (host : Host World) (config : AgentConfig)
    (plan : InvocationPlan World) (attempts : List (Attempt World)) :
    let r := runInvocationLoop host config plan {} attempts
    r.state.attempt = r.state.cursor.retryCount + r.state.cursor.quotaRetryCount
        + (if ∃ t ∈ r.retries, t.kind = some .oneShot then 1 else 0) ∧
      (r.state.builtInRetryUsed = true ↔ ∃ t ∈ r.retries, t.kind = some .oneShot) ∧
      r.state.attempt = r.retries.length ∧
      retriesOf .oneShot r.retries ≤ 1 ∧
      retriesOf .configured r.retries ≤ config.maxRetries ∧
      (∀ m ∈ config.quotaRetryMaxAttempts, retriesOf .quota r.retries ≤ m) ∧
      (∀ m ∈ config.quotaRetryMaxWaitSeconds, quotaWaits r.retries < m) ∧
      ∀ a output, r.ended = some (a, .success output) → Succeeded host config plan a output := by
  intro r
  obtain ⟨hacc, hsucc⟩ := @runInvocationLoop_accounted World host config plan {} [] attempts
    (accounted_nil config)
  rw [List.nil_append] at hacc
  change Accounted config r.state r.retries at hacc
  have hmem : (∃ t ∈ r.retries, t.kind = some .oneShot) ↔ retriesOf .oneShot r.retries = 1 := by
    have hpos : (∃ t ∈ r.retries, t.kind = some .oneShot) ↔ 0 < retriesOf .oneShot r.retries := by
      simp [retriesOf, List.count_pos_iff]
    have hone := hacc.oneShot_le
    rw [hpos]
    omega
  refine ⟨?_, ?_, hacc.attempt, hacc.oneShot_le, hacc.configured_le, hacc.quota_le, hacc.waited_lt,
    hsucc⟩
  · have hlen := hacc.attempt.trans hacc.kinds
    have hone := hacc.oneShot_le
    rw [hlen, hacc.retryCount, hacc.quotaRetryCount]
    by_cases h : ∃ t ∈ r.retries, t.kind = some .oneShot
    · rw [if_pos h]
      exact congrArg _ (hmem.mp h)
    · rw [if_neg h]
      have : retriesOf .oneShot r.retries ≠ 1 := fun h1 => h (hmem.mpr h1)
      omega
  · rw [hmem]
    exact hacc.builtInRetryUsed_iff

end Crewplane.Invocation
