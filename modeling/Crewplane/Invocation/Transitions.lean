import Crewplane.Invocation.Retry
/-
# What follows an attempt (runtime/agent/invocation/{state,output,transitions,attempt_decisions}.py)

| here | there |
|------|-------|
| `InvocationAttemptTransition`  | state.py:71-131, one constructor per class |
| `buildInvocationAttemptResult` | output.py:29 |
| `extractVisibleOutput`         | output.py:104 |
| `selectAttemptTransition`      | attempt_decisions.py:23 |

A structured extraction is made twice when the first one fails, and files may
change in between: an attempt has a world for each. The texts kept for usage
accounting are left out, no decision reads them.
-/
namespace Crewplane.Invocation

open Crewplane.Lib

inductive OutputExtractionStatus
  | success | missing | malformed
  deriving Repr, DecidableEq

/-- architecture/contracts/invocation.py:471 -/
structure OutputExtractionResult where
  outputText : String
  outputExtractionStatus : OutputExtractionStatus
  outputPath : Option String := none
  outputCharCount : Option Nat := none
  ownsOutputPath : Bool := false

structure ExtractedInvocationOutput where
  result : OutputExtractionResult
  notice : Option InvocationDiagnosticNotice := none

structure InvocationAttemptResult where
  result : CommandResult
  extractedOutput : Option ExtractedInvocationOutput

structure InvocationRetryCursor where
  retryCount : Nat
  quotaRetryCount : Nat
  quotaRetryStartedAt : Option ℚ
  deriving DecidableEq

/-- contracts/invocation_failures.py:39, the fields the loop reads or passes on. -/
structure InvocationFailureSummary where
  kind : String
  message : String

/-- contracts/invocation.py:532, the fields the retry loop reads. -/
structure InvocationPlan (World : Type) where
  cmd : List String
  cmd_ne : cmd ≠ []
  structuredOutputFile : Option String
  outputExtractor : Option (World → CommandResult → Option String → OutputExtractionResult)
  quotaClassifier : World → CommandResult → List String → ℚ → QuotaClassification
  failureClassifier : World → CommandResult → InvocationFailureSummary
  oneShotFailureRetry : Option OneShotFailureRetryPolicy

/-- `cmd[0]` -/
def InvocationPlan.cmd0 {World : Type} (plan : InvocationPlan World) : String := plan.cmd.head plan.cmd_ne

inductive InvocationAttemptTransition
  | continueAttempt (cursor : InvocationRetryCursor)
  | sleepAndRetry (cursor : InvocationRetryCursor) (retryDelaySeconds : ℚ)
      (extractedOutput : Option ExtractedInvocationOutput)
      (notice : Option InvocationDiagnosticNotice)
  | finalizeSuccess (cursor : InvocationRetryCursor) (extractedOutput : ExtractedInvocationOutput)
  | raiseRetryExhausted (cursor : InvocationRetryCursor)
      (extractedOutput : Option ExtractedInvocationOutput)
  | raiseFailedExit (cursor : InvocationRetryCursor)
  | raiseQuotaFailure (cursor : InvocationRetryCursor) (message : String)
  | raiseOutputExtractionFailure (cursor : InvocationRetryCursor)
      (extractedOutput : ExtractedInvocationOutput)

/-- One attempt: what the command returned, and what the process reads while it decides. -/
structure Attempt (World : Type) where
  result : CommandResult
  /-- The files while the result is classified. -/
  world : World
  /-- The files when the output is extracted at the end. -/
  finalWorld : World
  now : ℚ
  clock : QuotaClock

/-! ## Output extraction -/

section Output

variable {World : Type} (host : Host World)

/-- output.py:184 -/
def visibleStreamOutput (w : World) (fallbackText : String) (path : Option String) :
    String × Option String × Option Nat :=
  match path.bind (host.file w) with
  | none => (fallbackText, none, some fallbackText.length)
  | some f =>
    if f.text.toList.all isSpace then ("", none, some 0) else ("", path, some f.text.length)

/-- output.py:195 -/
def streamSizeBytes (w : World) (fallbackText : String) (path : Option String) : Nat :=
  match path.bind (host.file w) with
  | some f => f.size
  | none => fallbackText.utf8ByteSize

def stderrFallbackNotice (w : World) (cmd0 : String) (r : CommandResult) :
    InvocationDiagnosticNotice :=
  { level := .warning
    message := cmd0 ++ " invocation succeeded with empty stdout; using stderr as output. "
      ++ "Provider log contains the original stderr lines."
    operation := "stderr_fallback"
    attributes := some
      [("stderr_bytes", .int (streamSizeBytes host w r.stderrText r.stderrPath)),
       ("stdout_bytes", .int (streamSizeBytes host w r.stdoutText r.stdoutPath))]
    consoleMessage := some ("[yellow]WARN[/] " ++ cmd0
      ++ " returned output on stderr with empty stdout; using stderr as output.") }

/-- Nothing visible: no path, and only white space. -/
def blankOutput (text : String) (path : Option String) : Bool := path.isNone && strip text = ""

def extractVisibleOutput (w : World) (cmd0 : String) (r : CommandResult) :
    ExtractedInvocationOutput :=
  let out := visibleStreamOutput host w r.stdoutText r.stdoutPath
  let err := visibleStreamOutput host w r.stderrText r.stderrPath
  let useStderr := blankOutput out.1 out.2.1 && !blankOutput err.1 err.2.1
  let shown := if useStderr then err else out
  let notice := if useStderr then some (stderrFallbackNotice host w cmd0 r) else none
  if blankOutput shown.1 shown.2.1 then
    { result := { outputText := "", outputExtractionStatus := .missing }, notice := notice }
  else
    { result :=
        { outputText := shown.1
          outputExtractionStatus := .success
          outputPath := shown.2.1
          outputCharCount := shown.2.2 }
      notice := notice }

/-- output.py:52 -/
def extractInvocationOutput (plan : InvocationPlan World) (w : World) (r : CommandResult) :
    ExtractedInvocationOutput :=
  match plan.outputExtractor with
  | some extractor => { result := extractor w r plan.structuredOutputFile }
  | none => extractVisibleOutput host w plan.cmd0 r

/-- output.py:65 -/
def extractSuccessfulStructuredOutput (plan : InvocationPlan World) (w : World) (r : CommandResult) :
    Option ExtractedInvocationOutput :=
  if plan.outputExtractor.isNone ∨ r.returncode ≠ 0 then none
  else
    let extracted := extractInvocationOutput host plan w r
    if extracted.result.outputExtractionStatus ≠ .success then none else some extracted

/-- output.py:86 -/
def retryResultFromExtractedOutput (extracted : ExtractedInvocationOutput) (r : CommandResult) :
    CommandResult :=
  { returncode := 0
    stdoutText := extracted.result.outputText
    stderrText := r.stderrText
    stdoutPath := extracted.result.outputPath
    stderrPath := r.stderrPath }

def buildInvocationAttemptResult (plan : InvocationPlan World) (w : World) (r : CommandResult) :
    InvocationAttemptResult :=
  match extractSuccessfulStructuredOutput host plan w r with
  | some extracted => ⟨retryResultFromExtractedOutput extracted r, some extracted⟩
  | none => ⟨r, none⟩

end Output

/-! ## Transitions -/

/-- transitions.py:28; a structured output without a decision is a programming error, as there. -/
def transitionFromStructuredOutput (ar : InvocationAttemptResult) (cursor : InvocationRetryCursor)
    (decision : Option FailureRetryDecision) : Except String InvocationAttemptTransition :=
  match ar.extractedOutput, decision with
  | none, _ => .ok (.continueAttempt cursor)
  | some out, some (.scheduleFailureRetry count wait notice) =>
    .ok (.sleepAndRetry { cursor with retryCount := count } wait (some out) (some notice))
  | some out, some (.noFailureRetry count isMatch _) =>
    if isMatch then .ok (.raiseRetryExhausted { cursor with retryCount := count } (some out))
    else .ok (.finalizeSuccess { cursor with retryCount := count } out)
  | some _, none => .error "Structured output transition requires a retry decision."

/-- transitions.py:77 -/
def transitionFromQuotaRetry (cursor : InvocationRetryCursor) : QuotaRetryDecision → InvocationAttemptTransition
  | .noQuotaRetry since count => .continueAttempt ⟨cursor.retryCount, count, since⟩
  | .scheduleQuotaRetry since count wait notice =>
    .sleepAndRetry ⟨cursor.retryCount, count, some since⟩ wait none (some notice)
  | .quotaRetryFailure since count message =>
    .raiseQuotaFailure ⟨cursor.retryCount, count, some since⟩ message

/-- transitions.py:112 -/
def transitionFromRetryableFailure (cursor : InvocationRetryCursor) : FailureRetryDecision → InvocationAttemptTransition
  | .scheduleFailureRetry count wait notice =>
    .sleepAndRetry { cursor with retryCount := count } wait none (some notice)
  | .noFailureRetry count _ _ => .continueAttempt { cursor with retryCount := count }

/-- transitions.py:172 -/
def reportsRetryExhaustionForFailedExit : FailureRetryDecision → Bool
  | .scheduleFailureRetry .. => false
  | .noFailureRetry _ _ reports => reports

/-- transitions.py:182 -/
def retryDecisionMatched : FailureRetryDecision → Bool
  | .scheduleFailureRetry .. => true
  | .noFailureRetry _ isMatch _ => isMatch

/-- transitions.py:137 -/
def transitionFromTerminalFailure (ar : InvocationAttemptResult) (cursor : InvocationRetryCursor)
    (decision : FailureRetryDecision) : InvocationAttemptTransition :=
  if ar.result.returncode ≠ 0 then
    if reportsRetryExhaustionForFailedExit decision then .raiseRetryExhausted cursor none
    else .raiseFailedExit cursor
  else if retryDecisionMatched decision then .raiseRetryExhausted cursor none
  else .continueAttempt cursor

/-- transitions.py:192 -/
def transitionFromFinalExtraction (cursor : InvocationRetryCursor) (out : ExtractedInvocationOutput) :
    InvocationAttemptTransition :=
  if out.result.outputExtractionStatus ≠ .success then .raiseOutputExtractionFailure cursor out
  else .finalizeSuccess cursor out

/-! ## Selection -/

section Selection

variable {World : Type} (host : Host World) (config : AgentConfig) (plan : InvocationPlan World)

/-- attempt_decisions.py:73 -/
def selectStructuredOutputTransition (a : Attempt World) (ar : InvocationAttemptResult)
    (cursor : InvocationRetryCursor) (builtInRetryUsed : Bool) : Except String InvocationAttemptTransition :=
  transitionFromStructuredOutput ar cursor
    (ar.extractedOutput.map fun _ =>
      evaluateFailureRetry host a.world config plan.cmd0 ar.result cursor.retryCount builtInRetryUsed
        plan.oneShotFailureRetry)

/-- attempt_decisions.py:97 -/
def selectQuotaTransition (a : Attempt World) (ar : InvocationAttemptResult)
    (cursor : InvocationRetryCursor) (quotaRetryWaitSeconds : ℚ) : InvocationAttemptTransition :=
  transitionFromQuotaRetry cursor
    (evaluateQuotaRetry host a.world config plan.cmd0
      (fun r hints => plan.quotaClassifier a.world r hints a.now) ar.result a.clock
      cursor.quotaRetryStartedAt cursor.quotaRetryCount quotaRetryWaitSeconds plan.oneShotFailureRetry)

/-- attempt_decisions.py:121 -/
def selectFailureTransition (a : Attempt World) (ar : InvocationAttemptResult)
    (cursor : InvocationRetryCursor) (builtInRetryUsed : Bool) : InvocationAttemptTransition :=
  let decision := evaluateFailureRetry host a.world config plan.cmd0 ar.result cursor.retryCount
    builtInRetryUsed plan.oneShotFailureRetry
  match transitionFromRetryableFailure cursor decision with
  | .continueAttempt next => transitionFromTerminalFailure ar next decision
  | transition => transition

def selectAttemptTransition (a : Attempt World) (ar : InvocationAttemptResult)
    (cursor : InvocationRetryCursor) (quotaRetryWaitSeconds : ℚ) (builtInRetryUsed : Bool) :
    Except String InvocationAttemptTransition := do
  match ← selectStructuredOutputTransition host config plan a ar cursor builtInRetryUsed with
  | .continueAttempt cursor =>
    match selectQuotaTransition host config plan a ar cursor quotaRetryWaitSeconds with
    | .continueAttempt cursor =>
      match selectFailureTransition host config plan a ar cursor builtInRetryUsed with
      | .continueAttempt cursor =>
        .ok (transitionFromFinalExtraction cursor
          (extractInvocationOutput host plan a.finalWorld ar.result))
      | transition => .ok transition
    | transition => .ok transition
  | transition => .ok transition

end Selection

/-! ## What a selected transition can be -/

/-- A scheduled retry moves exactly one of the three accounts, and only below its limit. -/
inductive RetryStep (config : AgentConfig) (used : Bool) (waited : ℚ) (cursor next : InvocationRetryCursor)
    (delay : ℚ) : RetryKind → Prop
  | oneShot (unused : used = false) (retries : next.retryCount = cursor.retryCount)
      (quota : next.quotaRetryCount = cursor.quotaRetryCount) :
      RetryStep config used waited cursor next delay .oneShot
  | configured (below : cursor.retryCount < config.maxRetries)
      (retries : next.retryCount = cursor.retryCount + 1)
      (quota : next.quotaRetryCount = cursor.quotaRetryCount) :
      RetryStep config used waited cursor next delay .configured
  | quota (attempts : ∀ m ∈ config.quotaRetryMaxAttempts, cursor.quotaRetryCount < m)
      (wait : ∀ m ∈ config.quotaRetryMaxWaitSeconds, waited + delay < m)
      (retries : next.retryCount = cursor.retryCount)
      (quota : next.quotaRetryCount = cursor.quotaRetryCount + 1) :
      RetryStep config used waited cursor next delay .quota

section Specs

variable {World : Type} {host : Host World} {config : AgentConfig} {plan : InvocationPlan World}
  {a : Attempt World} {ar : InvocationAttemptResult} {cursor next : InvocationRetryCursor}
  {used : Bool} {waited : ℚ}

/-- A structured output is kept only from a successful extraction after exit code 0. -/
theorem extractSuccessfulStructuredOutput_some {w : World} {r : CommandResult}
    {out : ExtractedInvocationOutput}
    (h : extractSuccessfulStructuredOutput host plan w r = some out) :
    r.returncode = 0 ∧ out.result.outputExtractionStatus = .success := by
  unfold extractSuccessfulStructuredOutput at h
  dsimp only at h
  split_ifs at h with hno hst
  cases h
  simp only [not_or, not_not] at hno
  exact ⟨hno.2, not_not.mp hst⟩

theorem buildInvocationAttemptResult_extracted {w : World} {r : CommandResult}
    {out : ExtractedInvocationOutput}
    (h : (buildInvocationAttemptResult host plan w r).extractedOutput = some out) :
    (buildInvocationAttemptResult host plan w r).result.returncode = 0 ∧
      out.result.outputExtractionStatus = .success := by
  unfold buildInvocationAttemptResult at h ⊢
  split at h
  next extracted hex =>
    cases h
    exact ⟨rfl, (extractSuccessfulStructuredOutput_some hex).2⟩
  next => cases h

/-- The attempt's result has exit code 0 exactly when the command had. -/
theorem buildInvocationAttemptResult_returncode (w : World) (r : CommandResult) :
    (buildInvocationAttemptResult host plan w r).result.returncode = r.returncode := by
  unfold buildInvocationAttemptResult
  split
  next extracted hex =>
    exact (extractSuccessfulStructuredOutput_some hex).1.symm
  next => rfl

/-- A failure decision schedules a retry as one of the two failure accounts. -/
theorem retryStep_of_evaluateFailureRetry {w : World} {count : Nat} {delay : ℚ}
    {notice : InvocationDiagnosticNotice}
    (h : evaluateFailureRetry host w config plan.cmd0 ar.result cursor.retryCount used
      plan.oneShotFailureRetry = .scheduleFailureRetry count delay notice) :
    RetryStep config used waited cursor { cursor with retryCount := count } delay notice.retryKind := by
  rcases evaluateFailureRetry_schedule h with ⟨hk, hu, hc⟩ | ⟨hk, hb, hc⟩
  · rw [hk]
    exact .oneShot hu hc rfl
  · rw [hk]
    exact .configured hb hc rfl

/-- The transitions by which a stage can end the selection with a retry or a success. -/
structure StageSpec (host : Host World) (config : AgentConfig) (a : Attempt World)
    (ar : InvocationAttemptResult) (cursor : InvocationRetryCursor) (used : Bool) (waited : ℚ)
    (t : InvocationAttemptTransition) : Prop where
  retry : ∀ next delay out notice, t = .sleepAndRetry next delay out notice →
    ∃ n, notice = some n ∧ RetryStep config used waited cursor next delay n.retryKind
  success : ∀ next out, t = .finalizeSuccess next out →
    ar.result.returncode = 0 ∧ shouldRetryFailure host a.world config ar.result = false ∧
      out.result.outputExtractionStatus = .success

/-- A stage that neither retries nor succeeds promises nothing. -/
theorem StageSpec.of_other {t : InvocationAttemptTransition}
    (hretry : ∀ next delay out notice, t ≠ .sleepAndRetry next delay out notice)
    (hsuccess : ∀ next out, t ≠ .finalizeSuccess next out) :
    StageSpec host config a ar cursor used waited t :=
  ⟨fun next delay out notice h => absurd h (hretry next delay out notice),
    fun next out h => absurd h (hsuccess next out)⟩

theorem StageSpec.of_retry {delay : ℚ} {out : Option ExtractedInvocationOutput}
    {n : InvocationDiagnosticNotice}
    (h : RetryStep config used waited cursor next delay n.retryKind) :
    StageSpec host config a ar cursor used waited (.sleepAndRetry next delay out (some n)) := by
  constructor
  · intro _ _ _ _ ht
    cases ht
    exact ⟨n, rfl, h⟩
  · intro _ _ ht
    cases ht

theorem StageSpec.of_success {out : ExtractedInvocationOutput}
    (hrc : ar.result.returncode = 0)
    (hretry : shouldRetryFailure host a.world config ar.result = false)
    (hst : out.result.outputExtractionStatus = .success) :
    StageSpec host config a ar cursor used waited (.finalizeSuccess next out) := by
  constructor
  · intro _ _ _ _ ht
    cases ht
  · intro _ _ ht
    cases ht
    exact ⟨hrc, hretry, hst⟩

theorem selectStructuredOutputTransition_spec
    (har : ∀ out, ar.extractedOutput = some out →
      ar.result.returncode = 0 ∧ out.result.outputExtractionStatus = .success) :
    ∃ t, selectStructuredOutputTransition host config plan a ar cursor used = .ok t ∧
      StageSpec host config a ar cursor used waited t ∧
      (∀ c, t = .continueAttempt c → c = cursor) := by
  unfold selectStructuredOutputTransition
  cases hout : ar.extractedOutput with
  | none =>
    refine ⟨.continueAttempt cursor, by simp [transitionFromStructuredOutput, hout],
      .of_other (by simp) (by simp), ?_⟩
    intro c h
    cases h
    rfl
  | some out =>
    obtain ⟨hrc, hst⟩ := har out hout
    simp only [Option.map_some, transitionFromStructuredOutput, hout]
    cases hd : evaluateFailureRetry host a.world config plan.cmd0 ar.result cursor.retryCount used
        plan.oneShotFailureRetry with
    | scheduleFailureRetry count delay notice =>
      exact ⟨_, rfl, .of_retry (retryStep_of_evaluateFailureRetry hd), by simp⟩
    | noFailureRetry count isMatch reports =>
      have hm := evaluateFailureRetry_none hd
      cases isMatch with
      | true => exact ⟨_, if_pos rfl, .of_other (by simp) (by simp), by simp⟩
      | false =>
        exact ⟨_, if_neg Bool.false_ne_true,
          .of_success hrc (Bool.or_eq_false_iff.mp hm.symm).1 hst, by simp⟩

theorem selectQuotaTransition_spec :
    StageSpec host config a ar cursor used waited
        (selectQuotaTransition host config plan a ar cursor waited) ∧
      (∀ c, selectQuotaTransition host config plan a ar cursor waited = .continueAttempt c →
        c = cursor) := by
  unfold selectQuotaTransition
  cases hd : evaluateQuotaRetry host a.world config plan.cmd0
      (fun r hints => plan.quotaClassifier a.world r hints a.now) ar.result a.clock
      cursor.quotaRetryStartedAt cursor.quotaRetryCount waited plan.oneShotFailureRetry with
  | noQuotaRetry since count =>
    obtain ⟨hs, hc⟩ := evaluateQuotaRetry_none hd
    refine ⟨.of_other (by simp [transitionFromQuotaRetry]) (by simp [transitionFromQuotaRetry]), ?_⟩
    intro c h
    cases h
    rw [hs, hc]
  | scheduleQuotaRetry since count delay notice =>
    obtain ⟨hk, hc, hattempts, hwait⟩ := evaluateQuotaRetry_schedule hd
    refine ⟨.of_retry ?_, by simp [transitionFromQuotaRetry]⟩
    rw [hk]
    exact .quota hattempts hwait rfl hc
  | quotaRetryFailure since count message =>
    exact ⟨.of_other (by simp [transitionFromQuotaRetry]) (by simp [transitionFromQuotaRetry]),
      by simp [transitionFromQuotaRetry]⟩

/-- Past the failure stage the attempt has exit code 0 and met no retry condition. -/
theorem selectFailureTransition_spec :
    StageSpec host config a ar cursor used waited
        (selectFailureTransition host config plan a ar cursor used) ∧
      (∀ c, selectFailureTransition host config plan a ar cursor used = .continueAttempt c →
        ar.result.returncode = 0 ∧ shouldRetryFailure host a.world config ar.result = false) := by
  unfold selectFailureTransition
  dsimp only
  cases hd : evaluateFailureRetry host a.world config plan.cmd0 ar.result cursor.retryCount used
      plan.oneShotFailureRetry with
  | scheduleFailureRetry count delay notice =>
    exact ⟨.of_retry (retryStep_of_evaluateFailureRetry hd), by simp [transitionFromRetryableFailure]⟩
  | noFailureRetry count isMatch reports =>
    have hm := evaluateFailureRetry_none hd
    simp only [transitionFromRetryableFailure, transitionFromTerminalFailure, retryDecisionMatched]
    by_cases hrc : ar.result.returncode = 0
    · cases isMatch with
      | true =>
        simp only [hrc, ne_eq, not_true_eq_false, if_false, if_true]
        exact ⟨.of_other (by simp) (by simp), by simp⟩
      | false =>
        simp only [hrc, ne_eq, not_true_eq_false, if_false, Bool.false_eq_true]
        exact ⟨.of_other (by simp) (by simp), fun _ _ =>
          ⟨trivial, (Bool.or_eq_false_iff.mp hm.symm).1⟩⟩
    · simp only [ne_eq, hrc, not_false_eq_true, if_true]
      cases reportsRetryExhaustionForFailedExit (.noFailureRetry count isMatch reports)
      case true => exact ⟨.of_other (by simp) (by simp), by simp⟩
      case false => exact ⟨.of_other (by simp) (by simp), by simp⟩

/-- The selection always returns a transition; it retries within one account, or succeeds after
exit code 0, with no retry condition met and the output extracted. -/
theorem selectAttemptTransition_spec
    (har : ∀ out, ar.extractedOutput = some out →
      ar.result.returncode = 0 ∧ out.result.outputExtractionStatus = .success) :
    ∃ t, selectAttemptTransition host config plan a ar cursor waited used = .ok t ∧
      StageSpec host config a ar cursor used waited t ∧ (∀ c, t ≠ .continueAttempt c) := by
  obtain ⟨first, hfirst, firstSpec, firstCursor⟩ :=
    @selectStructuredOutputTransition_spec World host config plan a ar cursor used waited har
  obtain ⟨quotaSpec, quotaCursor⟩ :=
    @selectQuotaTransition_spec World host config plan a ar cursor used waited
  obtain ⟨failureSpec, failureClean⟩ :=
    @selectFailureTransition_spec World host config plan a ar cursor used waited
  unfold selectAttemptTransition
  rw [hfirst]
  cases first with
  | continueAttempt c =>
    rw [firstCursor c rfl]
    dsimp only [bind, Except.bind]
    split
    next c' hq =>
      rw [quotaCursor c' hq]
      split
      next c'' hf =>
        obtain ⟨hrc, hclean⟩ := failureClean c'' hf
        refine ⟨_, rfl, ?_⟩
        unfold transitionFromFinalExtraction
        split_ifs with hst
        · exact ⟨.of_other (by simp) (by simp), by simp⟩
        · exact ⟨.of_success hrc hclean (not_not.mp hst), by simp⟩
      next hno => exact ⟨_, rfl, failureSpec, fun c hc => hno c hc⟩
    next hno => exact ⟨_, rfl, quotaSpec, fun c hc => hno c hc⟩
  | sleepAndRetry _ _ _ _ => exact ⟨_, rfl, firstSpec, by simp⟩
  | finalizeSuccess _ _ => exact ⟨_, rfl, firstSpec, by simp⟩
  | raiseRetryExhausted _ _ => exact ⟨_, rfl, firstSpec, by simp⟩
  | raiseFailedExit _ => exact ⟨_, rfl, firstSpec, by simp⟩
  | raiseQuotaFailure _ _ => exact ⟨_, rfl, firstSpec, by simp⟩
  | raiseOutputExtractionFailure _ _ => exact ⟨_, rfl, firstSpec, by simp⟩

end Specs

end Crewplane.Invocation
