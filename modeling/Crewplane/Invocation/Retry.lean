import Mathlib.Data.Rat.Floor
import Crewplane.Lib.Lines
import Crewplane.Lib.Text
/-
# Retry decisions about one attempt (runtime/agent/invocation/retry.py)

| here | there |
|------|-------|
| `AgentConfig`             | core/config.py:97, the retry fields with their bounds |
| `CommandResult`           | architecture/contracts/invocation.py:431 |
| `evaluateFailureRetry`    | retry.py:65 |
| `evaluateQuotaRetry`      | retry.py:174 |
| `formatWaitDuration`      | runtime/agent/retry_units.py:11 |

Times are exact rationals. `Host` is what Python itself supplies: `str.lower`,
the text of a float, and the capture files in the world an attempt leaves
behind. A quota decision reads the monotonic clock at most three times;
`QuotaClock` holds the three readings.
-/
namespace Crewplane.Invocation

open Crewplane.Lib

inductive LogLevel
  | debug | info | warning | error
  deriving Repr, DecidableEq

inductive RuntimeLogValue
  | text (s : String)
  | int (n : Int)
  | float (q : ℚ)
  | bool (b : Bool)
  | none
  deriving DecidableEq

/-- A regular file: its text decoded as UTF-8 with replacement, and its size in bytes. -/
structure CaptureFile where
  text : String
  size : Nat

structure Host (World : Type) where
  lower : String → String
  floatText : ℚ → String
  /-- `none` when the path is not a file. -/
  file : World → String → Option CaptureFile

structure CommandResult where
  returncode : Int
  stdoutText : String
  stderrText : String
  stdoutPath : Option String := none
  stderrPath : Option String := none
  deriving DecidableEq

structure AgentConfig where
  maxRetries : Nat := 0
  retryDelaySeconds : ℚ := 300
  retryOnExitCodes : List Int := []
  retryOnStderrContains : List String := []
  retryOnOutputContains : List String := []
  quotaReachedOnContains : List String := []
  quotaReachedRetryDelaySeconds : ℚ := 300
  quotaResetSleepFloorSeconds : ℚ := 5
  quotaRetryMaxWaitSeconds : Option ℚ := none
  quotaRetryMaxAttempts : Option Nat := none
  retryDelay_nonneg : 0 ≤ retryDelaySeconds := by decide
  quotaDelay_nonneg : 0 ≤ quotaReachedRetryDelaySeconds := by decide
  sleepFloor_nonneg : 0 ≤ quotaResetSleepFloorSeconds := by decide
  exitCodes_bounds : ∀ c ∈ retryOnExitCodes, 0 ≤ c ∧ c ≤ 255 := by decide
  maxWait_pos : ∀ m ∈ quotaRetryMaxWaitSeconds, 0 < m := by decide
  maxAttempts_pos : ∀ m ∈ quotaRetryMaxAttempts, 1 ≤ m := by decide

/-- architecture/contracts/invocation.py:521 -/
structure OneShotFailureRetryPolicy where
  outputContains : List String
  waitSeconds : ℚ
  reason : String
  noticeMessage : String

/-- architecture/contracts/invocation.py:506 -/
structure QuotaClassification where
  isQuota : Bool
  resetAfterSeconds : Option ℚ
  evidence : Option String
  deriving DecidableEq

/-- state.py:17 -/
structure InvocationDiagnosticNotice where
  level : LogLevel
  message : String
  operation : String
  attributes : Option (List (String × RuntimeLogValue)) := none
  consoleMessage : Option String := none
  deriving DecidableEq

inductive FailureRetryDecision
  | noFailureRetry (retryCount : Nat) (retryMatched : Bool)
      (reportsRetryExhaustionForFailedExit : Bool)
  | scheduleFailureRetry (retryCount : Nat) (waitSeconds : ℚ) (notice : InvocationDiagnosticNotice)

inductive QuotaRetryDecision
  | noQuotaRetry (quotaRetryStartedAt : Option ℚ) (quotaRetryCount : Nat)
  | scheduleQuotaRetry (quotaRetryStartedAt : ℚ) (quotaRetryCount : Nat) (waitSeconds : ℚ)
      (notice : InvocationDiagnosticNotice)
  | quotaRetryFailure (quotaRetryStartedAt : ℚ) (quotaRetryCount : Nat) (message : String)

/-! ## Streams -/

section Streams

variable {World : Type} (host : Host World) (w : World)

/-- `_split_nonempty_lines` (invocation.py:501). -/
def splitNonemptyLines (value : String) : List String :=
  ((splitlines value.toList).map fun line =>
    String.ofList (line.takeWhile fun c => !isBoundary c)).filter (· ≠ "")

/-- `_iter_lines_from_file` (invocation.py:491): universal newlines, empty lines kept. -/
def CaptureFile.lines (f : CaptureFile) : List String :=
  (sourceLines f.text.toList).map fun line =>
    String.ofList (line.takeWhile fun c => !isLineEnd c)

/-- `_iter_stream_lines` (invocation.py:485). -/
def iterStreamLines (path : Option String) (inlineText : String) : List String :=
  match path.bind (host.file w) with
  | some f => f.lines
  | none => splitNonemptyLines inlineText

def CommandResult.iterStdoutLines (r : CommandResult) : List String :=
  iterStreamLines host w r.stdoutPath r.stdoutText

def CommandResult.iterStderrLines (r : CommandResult) : List String :=
  iterStreamLines host w r.stderrPath r.stderrText

def CommandResult.iterCombinedLines (r : CommandResult) : List String :=
  r.iterStderrLines host w ++ r.iterStdoutLines host w

/-- retry.py:223 -/
def matchesAny (lines needles : List String) : Bool :=
  let normalizedNeedles := (needles.filter (· ≠ "")).map host.lower
  lines.any fun line =>
    normalizedNeedles.any fun needle => decide (needle.toList <:+: (host.lower line).toList)

/-- retry.py:215 -/
def shouldRetryFailure (config : AgentConfig) (r : CommandResult) : Bool :=
  config.retryOnExitCodes.contains r.returncode
    || matchesAny host (r.iterStderrLines host w) config.retryOnStderrContains
    || matchesAny host (r.iterCombinedLines host w) config.retryOnOutputContains

/-- retry.py:162 -/
def matchesOneShotFailureRetry (policy : Option OneShotFailureRetryPolicy) (r : CommandResult) : Bool :=
  match policy with
  | none => false
  | some p => r.returncode ≠ 0 && matchesAny host (r.iterCombinedLines host w) p.outputContains

end Streams

/-! ## Durations in messages -/

/-- Python's `round`: to the nearest integer, a half to the even one. -/
def roundHalfEven (q : ℚ) : Int :=
  let f := ⌊q⌋
  if q - f < 1 / 2 then f
  else if 1 / 2 < q - f then f + 1
  else if f % 2 = 0 then f else f + 1

/-- `round(q, 3)` -/
def round3 (q : ℚ) : ℚ := roundHalfEven (q * 1000) / 1000

/-- The format `.3f` of a float. -/
def fixed3 (q : ℚ) : String :=
  let n := (roundHalfEven (|q| * 1000)).toNat
  let digits := Nat.repr (n % 1000)
  (if q < 0 then "-" else "") ++ Nat.repr (n / 1000) ++ "."
    ++ String.ofList (List.replicate (3 - digits.length) '0') ++ digits

/-- retry_units.py:11 -/
def formatWaitDuration (seconds : ℚ) : String :=
  if seconds < 1 then fixed3 seconds ++ "s"
  else
    let rounded := (roundHalfEven seconds).toNat
    let days := rounded / 86400
    let hours := rounded % 86400 / 3600
    let minutes := rounded % 86400 % 3600 / 60
    let secs := rounded % 86400 % 3600 % 60
    let parts := (if days ≠ 0 then Nat.repr days ++ "d" else "")
      ++ (if hours ≠ 0 then Nat.repr hours ++ "h" else "")
      ++ (if minutes ≠ 0 then Nat.repr minutes ++ "m" else "")
    if secs ≠ 0 || parts = "" then parts ++ Nat.repr secs ++ "s" else parts

/-! ## Failure retries -/

section Failure

variable {World : Type} (host : Host World) (w : World)

/-- retry.py:104 -/
def scheduleConfiguredFailureRetry (config : AgentConfig) (cmd0 : String) (r : CommandResult)
    (retryCount : Nat) : FailureRetryDecision :=
  let nextRetryCount := retryCount + 1
  let failureDetail :=
    if r.returncode ≠ 0 then "failed with exit code " ++ Int.repr r.returncode
    else "matched configured retry conditions"
  let message := cmd0 ++ " " ++ failureDetail ++ "; retrying in "
    ++ host.floatText config.retryDelaySeconds ++ "s ("
    ++ Nat.repr nextRetryCount ++ "/" ++ Nat.repr config.maxRetries ++ ")"
  .scheduleFailureRetry nextRetryCount config.retryDelaySeconds
    { level := .warning
      message := message
      operation := "retry_scheduled"
      attributes := some
        [("retry_count", .int nextRetryCount), ("max_retries", .int config.maxRetries),
         ("retry_delay_seconds", .float (round3 config.retryDelaySeconds)),
         ("returncode", .int r.returncode)]
      consoleMessage := some ("[yellow]WARN[/] " ++ message) }

/-- retry.py:138 -/
def scheduleOneShotFailureRetry (policy : OneShotFailureRetryPolicy) (r : CommandResult)
    (retryCount : Nat) : FailureRetryDecision :=
  .scheduleFailureRetry retryCount policy.waitSeconds
    { level := .warning
      message := policy.noticeMessage
      operation := "retry_scheduled"
      attributes := some
        [("reason", .text policy.reason), ("built_in", .bool true), ("retry_count", .int 1),
         ("max_retries", .int 1), ("retry_delay_seconds", .float policy.waitSeconds),
         ("returncode", .int r.returncode)]
      consoleMessage := some ("[yellow]WARN[/] " ++ policy.noticeMessage) }

def evaluateFailureRetry (config : AgentConfig) (cmd0 : String) (r : CommandResult)
    (retryCount : Nat) (builtInRetryUsed : Bool) (oneShot : Option OneShotFailureRetryPolicy) :
    FailureRetryDecision :=
  let oneShotRetryMatched := matchesOneShotFailureRetry host w oneShot r
  match oneShot, oneShotRetryMatched && !builtInRetryUsed with
  | some policy, true => scheduleOneShotFailureRetry policy r retryCount
  | _, _ =>
    let configuredRetryMatched := shouldRetryFailure host w config r
    if configuredRetryMatched ∧ retryCount < config.maxRetries then
      scheduleConfiguredFailureRetry host config cmd0 r retryCount
    else
      .noFailureRetry
        (retryCount + if oneShotRetryMatched && builtInRetryUsed then 1 else 0)
        (configuredRetryMatched || oneShotRetryMatched)
        (oneShotRetryMatched && builtInRetryUsed)

end Failure

/-! ## Quota retries -/

def quotaRetryGuardHours : Nat := 5

def quotaRetryGuardSeconds : ℚ := quotaRetryGuardHours * 60 * 60

/-- The readings of `time.monotonic()` in one quota decision, in the order they are made. -/
structure QuotaClock where
  first : ℚ
  second : ℚ
  third : ℚ

/-- retry.py:244 -/
def quotaRetryElapsedSeconds (now startedAt : ℚ) : ℚ := max 0 (now - startedAt)

/-- retry.py:256 -/
def computeQuotaWaitSeconds (config : AgentConfig) (quota : QuotaClassification) : ℚ :=
  match quota.resetAfterSeconds with
  | none => config.quotaReachedRetryDelaySeconds
  | some reset =>
    max (max (reset + config.quotaResetSleepFloorSeconds) config.quotaResetSleepFloorSeconds)
      config.quotaReachedRetryDelaySeconds

section Quota

variable {World : Type} (host : Host World) (w : World)

/-- retry.py:270 -/
def scheduleQuotaRetry (config : AgentConfig) (cmd0 : String) (quota : QuotaClassification)
    (startedAt : ℚ) (quotaRetryCount : Nat) (waitSeconds : ℚ) : QuotaRetryDecision :=
  let quotaRetryCount := quotaRetryCount + 1
  let waitDetail := match quota.resetAfterSeconds with
    | none => formatWaitDuration waitSeconds ++ " (configured fixed delay)"
    | some reset => formatWaitDuration waitSeconds ++ " (parsed reset " ++ formatWaitDuration reset
        ++ " + floor " ++ host.floatText config.quotaResetSleepFloorSeconds ++ "s)"
  let message := "Quota reached for " ++ cmd0 ++ "; retrying in " ++ waitDetail
    ++ " (quota attempt " ++ Nat.repr quotaRetryCount ++ "; independent of max_retries)"
  .scheduleQuotaRetry startedAt quotaRetryCount waitSeconds
    { level := .warning
      message := message
      operation := "quota_retry_scheduled"
      attributes := some
        [("quota_attempt", .int quotaRetryCount), ("wait_seconds", .float (round3 waitSeconds)),
         ("ordinary_max_retries", .int config.maxRetries)]
      consoleMessage := some ("[yellow]WARN[/] " ++ message) }

/-- The checks of `evaluate_quota_retry` from retry.py:200 on, with the start of the guard known. -/
def quotaRetryWithinGuard (config : AgentConfig) (cmd0 : String) (quota : QuotaClassification)
    (clock : QuotaClock) (startedAt : ℚ) (quotaRetryCount : Nat) (quotaRetryWaitSeconds : ℚ) :
    QuotaRetryDecision :=
  let waitSeconds := computeQuotaWaitSeconds config quota
  if config.quotaRetryMaxAttempts.any (· ≤ quotaRetryCount) then
    .quotaRetryFailure startedAt quotaRetryCount
      ("Quota retry configured attempt ceiling of " ++ Nat.repr (config.quotaRetryMaxAttempts.getD 0)
        ++ " reached for " ++ cmd0)
  else if quota.resetAfterSeconds.any (quotaRetryGuardSeconds < ·) then
    .quotaRetryFailure startedAt quotaRetryCount
      ("Quota reached for " ++ cmd0 ++ "; provider reported reset after "
        ++ formatWaitDuration (quota.resetAfterSeconds.getD 0) ++ ", which exceeds "
        ++ Nat.repr quotaRetryGuardHours ++ " hours")
  else if config.quotaRetryMaxWaitSeconds.any (· ≤ quotaRetryWaitSeconds + waitSeconds) then
    .quotaRetryFailure startedAt quotaRetryCount
      ("Quota retry configured wait ceiling of "
        ++ formatWaitDuration (config.quotaRetryMaxWaitSeconds.getD 0)
        ++ " would be reached for " ++ cmd0 ++ "; cumulative quota wait is "
        ++ formatWaitDuration quotaRetryWaitSeconds ++ " and next wait is "
        ++ formatWaitDuration waitSeconds)
  else if quotaRetryGuardSeconds ≤ quotaRetryElapsedSeconds clock.second startedAt + waitSeconds then
    .quotaRetryFailure startedAt quotaRetryCount
      ("Quota retry guard would exceed " ++ Nat.repr quotaRetryGuardHours ++ " hours for " ++ cmd0
        ++ "; elapsed retry time is "
        ++ formatWaitDuration (quotaRetryElapsedSeconds clock.third startedAt)
        ++ " and next retry wait is " ++ formatWaitDuration waitSeconds)
  else
    scheduleQuotaRetry host config cmd0 quota startedAt quotaRetryCount waitSeconds

def evaluateQuotaRetry (config : AgentConfig) (cmd0 : String)
    (classify : CommandResult → List String → QuotaClassification) (r : CommandResult)
    (clock : QuotaClock) (startedAt : Option ℚ) (quotaRetryCount : Nat) (quotaRetryWaitSeconds : ℚ)
    (oneShot : Option OneShotFailureRetryPolicy) : QuotaRetryDecision :=
  if matchesOneShotFailureRetry host w oneShot r then .noQuotaRetry startedAt quotaRetryCount
  else
    let quota := classify r config.quotaReachedOnContains
    if !quota.isQuota then .noQuotaRetry startedAt quotaRetryCount
    else match startedAt with
      | none => quotaRetryWithinGuard host config cmd0 quota clock clock.first quotaRetryCount
          quotaRetryWaitSeconds
      | some started =>
        if quotaRetryGuardSeconds ≤ quotaRetryElapsedSeconds clock.first started then
          .quotaRetryFailure started quotaRetryCount
            ("Quota retry guard exceeded after " ++ Nat.repr quotaRetryGuardHours ++ " hours for "
              ++ cmd0)
        else quotaRetryWithinGuard host config cmd0 quota clock started quotaRetryCount
          quotaRetryWaitSeconds

end Quota

/-! ## What a decision can be -/

/-- The three retries, told apart by the notice that announces them. -/
inductive RetryKind
  | oneShot | configured | quota
  deriving Repr, DecidableEq

def InvocationDiagnosticNotice.retryKind (n : InvocationDiagnosticNotice) : RetryKind :=
  if n.operation = "quota_retry_scheduled" then .quota
  else if n.attributes.any (·.contains ("built_in", .bool true)) then .oneShot
  else .configured

section Specs

variable {World : Type} {host : Host World} {w : World} {config : AgentConfig} {cmd0 : String}
  {r : CommandResult} {oneShot : Option OneShotFailureRetryPolicy}

theorem returncode_ne_of_matchesOneShot (h : matchesOneShotFailureRetry host w oneShot r = true) :
    r.returncode ≠ 0 := by
  cases oneShot with
  | none => simp [matchesOneShotFailureRetry] at h
  | some p =>
    simp only [matchesOneShotFailureRetry, Bool.and_eq_true, decide_eq_true_eq] at h
    exact h.1

/-- A failure retry is the one-shot one, while it is unused, or a configured one below the limit. -/
theorem evaluateFailureRetry_schedule {count next : Nat} {used : Bool} {wait : ℚ}
    {notice : InvocationDiagnosticNotice}
    (h : evaluateFailureRetry host w config cmd0 r count used oneShot
      = .scheduleFailureRetry next wait notice) :
    (notice.retryKind = .oneShot ∧ used = false ∧ next = count) ∨
    (notice.retryKind = .configured ∧ count < config.maxRetries ∧ next = count + 1) := by
  have hconf : ∀ d : FailureRetryDecision,
      (if shouldRetryFailure host w config r ∧ count < config.maxRetries then
        scheduleConfiguredFailureRetry host config cmd0 r count else d)
        = .scheduleFailureRetry next wait notice →
      (∀ n t m, d ≠ .scheduleFailureRetry n t m) →
      notice.retryKind = .configured ∧ count < config.maxRetries ∧ next = count + 1 := by
    intro d hd hno
    by_cases hc : shouldRetryFailure host w config r ∧ count < config.maxRetries
    · rw [if_pos hc] at hd
      cases hd
      exact ⟨by simp [InvocationDiagnosticNotice.retryKind], hc.2, rfl⟩
    · rw [if_neg hc] at hd
      exact absurd hd (hno _ _ _)
  unfold evaluateFailureRetry at h
  dsimp only at h
  split at h
  next policy hm =>
    simp only [Bool.and_eq_true, Bool.not_eq_true'] at hm
    cases h
    exact .inl ⟨by simp [InvocationDiagnosticNotice.retryKind], hm.2, rfl⟩
  next => exact .inr (hconf _ h (by simp))

/-- Without a retry, the decision reports whether the attempt met a retry condition. -/
theorem evaluateFailureRetry_none {count next : Nat} {used isMatch exhausted : Bool}
    (h : evaluateFailureRetry host w config cmd0 r count used oneShot
      = .noFailureRetry next isMatch exhausted) :
    isMatch = (shouldRetryFailure host w config r || matchesOneShotFailureRetry host w oneShot r) := by
  unfold evaluateFailureRetry at h
  dsimp only at h
  split at h
  next => cases h
  next =>
    split at h
    next => cases h
    next =>
      cases h
      rfl

/-- A quota retry was below both ceilings, and counts one more. -/
theorem evaluateQuotaRetry_schedule {classify : CommandResult → List String → QuotaClassification}
    {clock : QuotaClock} {startedAt : Option ℚ} {count next : Nat} {waited started wait : ℚ}
    {notice : InvocationDiagnosticNotice}
    (h : evaluateQuotaRetry host w config cmd0 classify r clock startedAt count waited oneShot
      = .scheduleQuotaRetry started next wait notice) :
    notice.retryKind = .quota ∧ next = count + 1 ∧
      (∀ m ∈ config.quotaRetryMaxAttempts, count < m) ∧
      (∀ m ∈ config.quotaRetryMaxWaitSeconds, waited + wait < m) := by
  have hguard : ∀ (quota : QuotaClassification) (since : ℚ),
      quotaRetryWithinGuard host config cmd0 quota clock since count waited
        = .scheduleQuotaRetry started next wait notice →
      notice.retryKind = .quota ∧ next = count + 1 ∧
        (∀ m ∈ config.quotaRetryMaxAttempts, count < m) ∧
        (∀ m ∈ config.quotaRetryMaxWaitSeconds, waited + wait < m) := by
    intro quota since hq
    unfold quotaRetryWithinGuard at hq
    dsimp only at hq
    split at hq
    next => cases hq
    next hattempts =>
      split at hq
      next => cases hq
      next =>
        split at hq
        next => cases hq
        next hwait =>
          split at hq
          next => cases hq
          next =>
            cases hq
            refine ⟨by simp [InvocationDiagnosticNotice.retryKind], rfl, ?_, ?_⟩
            · intro m hm
              rw [Option.mem_def] at hm
              simpa [hm] using hattempts
            · intro m hm
              rw [Option.mem_def] at hm
              simpa [hm] using hwait
  unfold evaluateQuotaRetry at h
  dsimp only at h
  split at h
  next => cases h
  next =>
    split at h
    next => cases h
    next =>
      split at h
      next => exact hguard _ _ h
      next =>
        split at h
        next => cases h
        next => exact hguard _ _ h

/-- Without a quota decision the quota counters stay as they are. -/
theorem evaluateQuotaRetry_none {classify : CommandResult → List String → QuotaClassification}
    {clock : QuotaClock} {startedAt since : Option ℚ} {count next : Nat} {waited : ℚ}
    (h : evaluateQuotaRetry host w config cmd0 classify r clock startedAt count waited oneShot
      = .noQuotaRetry since next) : since = startedAt ∧ next = count := by
  have hguard : ∀ (quota : QuotaClassification) (start : ℚ),
      quotaRetryWithinGuard host config cmd0 quota clock start count waited
        ≠ .noQuotaRetry since next := by
    intro quota start hq
    unfold quotaRetryWithinGuard scheduleQuotaRetry at hq
    dsimp only at hq
    split_ifs at hq
  unfold evaluateQuotaRetry at h
  dsimp only at h
  split at h
  next =>
    cases h
    exact ⟨rfl, rfl⟩
  next =>
    split at h
    next =>
      cases h
      exact ⟨rfl, rfl⟩
    next =>
      split at h
      next => exact absurd h (hguard _ _)
      next =>
        split at h
        next => cases h
        next => exact absurd h (hguard _ _)

end Specs

end Crewplane.Invocation
