import Crewplane.Quota.Waits
/-
# Quota classification (adapters/invokers/cli_invoker/quota/classifier.py, runtime/agent/invocation/retry.py)

| here | there |
|------|-------|
| `classifyGenericQuota`, `resultLinesForQuota` | classifier.py:16, 51 |
| `evaluateQuotaRetry` | retry.py:174 |

The decision itself is `Invocation.evaluateQuotaRetry`, over rational waits. What is added here is the wait that a provider
reports as an infinite number of seconds: it exceeds the guard, and the message with it cannot be written.
-/
namespace Crewplane.Quota

open Crewplane.Lib Crewplane.Lib.Regex
open Crewplane.Process (CharTables)
open Crewplane.Invocation (Host CommandResult AgentConfig QuotaClock OneShotFailureRetryPolicy QuotaRetryDecision
  matchesOneShotFailureRetry quotaRetryGuardSeconds quotaRetryElapsedSeconds)

structure Classification where
  isQuota : Bool
  resetAfterSeconds : Option Wait
  evidence : Option Text

/-- `max(candidates)`, of at least one. -/
def largest : List Wait → Option Wait
  | [] => none
  | first :: rest => some (rest.foldl Wait.larger first)

section Classify

variable {World : Type} (host : Host World) (w : World)

def hasSuccessfulStdout (result : CommandResult) : Bool :=
  result.returncode = 0 && (result.iterStdoutLines host w).any fun line => stripChars line.toList ≠ []

def resultLinesForQuota (result : CommandResult) : List Text :=
  let lines := if hasSuccessfulStdout host w result then result.iterStdoutLines host w
    else result.iterStderrLines host w ++ result.iterStdoutLines host w
  lines.map String.toList

variable (t : CaseTables) (u : CharTables) (clocks : Clocks)

/-- The candidates of the context lines, in order. -/
def gatherWaits (now : Int) : List Text → Except QuotaError (List Wait)
  | [] => .ok []
  | line :: rest => do
    let waits ← extractWaitCandidatesFromLine t u clocks now line
    let later ← gatherWaits now rest
    return waits ++ later

def classifyGenericQuota (result : CommandResult) (configuredHints : List Text) (now : Moment) (familyHints : List Text) :
    Except QuotaError Classification :=
  let lines := resultLinesForQuota host w result
  match findQuotaEvidence t u lines familyHints configuredHints with
  | none => .ok ⟨false, none, none⟩
  | some evidence => do
    let waits ← gatherWaits t u clocks now.point (collectQuotaContextLines t lines familyHints configuredHints)
    return ⟨true, largest waits, some evidence⟩

end Classify

section Evaluate

variable {World : Type} (host : Host World) (w : World)

/-- The classification with a reset time that is finite, or with none. -/
def Classification.toRational (quota : Classification) : Invocation.QuotaClassification where
  isQuota := quota.isQuota
  resetAfterSeconds := match quota.resetAfterSeconds with
    | some (.finite q) => some q
    | _ => none
  evidence := quota.evidence.map String.ofList

/-- The guard or the attempt ceiling ends the retries before the reset time is looked at. -/
def endsBeforeReset (config : AgentConfig) (clock : QuotaClock) (startedAt : Option ℚ) (quotaRetryCount : Nat) : Bool :=
  startedAt.any (fun started => quotaRetryGuardSeconds ≤ quotaRetryElapsedSeconds clock.first started) ||
    config.quotaRetryMaxAttempts.any (· ≤ quotaRetryCount)

/-- With `classify` the classifier that is called on the result. -/
def evaluateQuotaRetry (config : AgentConfig) (cmd0 : String)
    (classify : CommandResult → List String → Except QuotaError Classification) (r : CommandResult) (clock : QuotaClock)
    (startedAt : Option ℚ) (quotaRetryCount : Nat) (quotaRetryWaitSeconds : ℚ) (oneShot : Option OneShotFailureRetryPolicy) :
    Except QuotaError QuotaRetryDecision :=
  if matchesOneShotFailureRetry host w oneShot r then .ok (.noQuotaRetry startedAt quotaRetryCount)
  else do
    let quota ← classify r config.quotaReachedOnContains
    -- `format_wait_duration` rounds the reset time to an integer
    if quota.isQuota ∧ quota.resetAfterSeconds = some .infinite ∧ ¬ endsBeforeReset config clock startedAt quotaRetryCount then
      .error .overflowError
    else
      .ok (Invocation.evaluateQuotaRetry host w config cmd0 (fun _ _ => quota.toRational) r clock startedAt quotaRetryCount
        quotaRetryWaitSeconds oneShot)

end Evaluate

end Crewplane.Quota
