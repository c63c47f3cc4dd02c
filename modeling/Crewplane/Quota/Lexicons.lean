import Crewplane.Lib.Regex
import Crewplane.Process.RetryUnits
/-
# Quota lexicons (adapters/invokers/cli_invoker/quota/lexicons.py)

The phrases and the patterns that quota evidence and reset times are read with, under the names of the source. A pattern
with `IGNORECASE` takes a letter with `sameLetter`, and a range of letters with `foldedLetter`.
-/
namespace Crewplane.Quota

open Crewplane.Lib Crewplane.Lib.Regex
open Crewplane.Process (CharTables sameLetter)

/-! ## Phrases -/

def quotaContextHints : List String :=
  ["quota", "rate limit", "usage limit", "capacity", "resource exhausted", "retry after", "retrying after", "try again", "reset", "429"]

def ambiguousQuotaHints : List String :=
  ["429", "capacity", "limit", "max attempts reached", "quota", "quota will reset", "rate limit", "reset after", "reset at",
    "retry after", "too many requests", "try again in", "usage limit"]

def relativeResetPhrases : List String :=
  ["quota will reset after", "will reset after", "reset after", "retrying after", "retry after", "please retry in",
    "try again in", "suggested retry after"]

def absoluteResetPhrases : List String := ["reset at", "resets at", "retry at", "try again at"]

def resetKeyHints : List String :=
  ["resetsat", "resetat", "reset_at", "reset-at", "x-codex-primary-reset-at", "x-codex-secondary-reset-at"]

/-- In seconds; the float of 0.001 is the nearest one. -/
def durationUnitMultipliers : List (String × ℚ) :=
  let milli := ((roundToNearest (1 / 1000)).map Magnitude.value).getD 0
  [("ms", milli), ("millisecond", milli), ("milliseconds", milli), ("s", 1), ("sec", 1), ("secs", 1), ("second", 1), ("seconds", 1),
    ("m", 60), ("min", 60), ("mins", 60), ("minute", 60), ("minutes", 60), ("h", 3600), ("hr", 3600), ("hrs", 3600),
    ("hour", 3600), ("hours", 3600), ("d", 86400), ("day", 86400), ("days", 86400)]

/-! ## Parts of patterns -/

def exact (c : Char) : Re := .chars (· = c)

def letter (c : Char) : Re := .chars (sameLetter c)

def space : Re := .chars isSpace

/-- A literal, with `\s+` for a blank. -/
def phrase (s : String) : Re := .all (s.toList.map fun c => if c = ' ' then .plus space else letter c)

/-- With or without an `s` at the end. -/
def plural (s : String) : Re := .seq (phrase s) (.opt (letter 's'))

/-- `[a-zA-Z]` with `IGNORECASE`. -/
def foldedLetter (c : Char) : Bool := c.isAlpha || c ∈ ['\u0130', '\u0131', '\u017f', '\u212a']

def atStart : Re := .test fun before _ => before.isNone

/-- `[^\n.]{0,n}`. -/
def gap (n : Nat) : Re := .upTo (.chars fun c => c ≠ '\n' && c ≠ '.') n

/-- `[:\s-]`. -/
def separator : Re := .chars fun c => c = ':' || isSpace c || c = '-'

/-- `[_\s-]`. -/
def joiner : Re := .chars fun c => c = '_' || isSpace c || c = '-'

section Patterns

variable (u : CharTables)

def digit : Re := .chars u.digit

/-- `\b`. -/
def edge : Re := .test fun before rest => u.boundary before rest.head?

/-- `a{1,2}` of digits. -/
def oneOrTwo : Re := .seq (digit u) (.opt (digit u))

/-- `(?:\.\d+)?`. -/
def fraction : Re := .opt (.seq (exact '.') (.plus (digit u)))

/-! ## Strict evidence -/

def notHandling : Re := .notAhead (.seq (.plus space) (phrase "handling"))

def notHandlingNear : Re := .notAhead (.all [gap 40, edge u, phrase "handling", edge u])

def tooManyRequests : Re := .all [phrase "too many requests", edge u, notHandling]

def retryHint : Re := .all [.any [phrase "retry after", phrase "try again in", phrase "reset after"], .plus space, digit u]

def strictQuotaEvidencePatterns : List (String × Re) :=
  [("too many requests", .any
      [.all [atStart, .star space, .opt (.seq (.any [phrase "error", phrase "request failed"]) (.star separator)),
        .opt (.all [phrase "you", .plus space, .any [phrase "are", phrase "have been"], .plus space]),
        .opt (.seq (phrase "sending") (.plus space)), tooManyRequests u],
      .all [edge u, .any [phrase "error", phrase "request failed", phrase "status", phrase "code"], edge u, gap 80, edge u,
        tooManyRequests u],
      .all [edge u, phrase "429", edge u, gap 80, edge u, tooManyRequests u],
      .all [edge u, tooManyRequests u, gap 80, edge u, phrase "429", edge u]]),
    ("429", .any
      [.all [atStart, .star space, .any [phrase "error", phrase "status", phrase "code",
          .seq (phrase "http") (.opt (.seq (.plus space) (phrase "status"))), phrase "response status"], .star separator,
        phrase "429", edge u, notHandlingNear u],
      .all [edge u, .any [phrase "status", phrase "code", phrase "http status", phrase "response status"], edge u, gap 20, edge u,
        phrase "429", edge u, notHandlingNear u]]),
    ("retryable quota error",
      .all [atStart, .star space, phrase "retryable", .star space, phrase "quota", .star space, phrase "error", edge u]),
    ("resource exhausted", .any
      [.all [atStart, .star space, phrase "resource", .plus joiner, phrase "exhausted", edge u],
      .all [edge u, .any [phrase "status", phrase "code", phrase "error"], edge u, .upTo (.chars (· ≠ '\n')) 40, edge u,
        phrase "resource", .plus joiner, phrase "exhausted", edge u]]),
    ("exhausted your capacity",
      .all [edge u, phrase "exhausted", .plus space, .opt (.seq (phrase "your") (.plus space)), phrase "capacity", edge u]),
    ("no capacity available", .any
      [.all [atStart, .star space, phrase "no capacity available", edge u],
      .all [edge u, .any [phrase "failed", phrase "error"], .plus separator, phrase "no capacity available", edge u]]),
    ("quota will reset", .all [edge u, phrase "quota will reset", .plus space, .any [phrase "at", phrase "after"], edge u]),
    ("limit reset", .all [edge u, .opt (.seq (phrase "your") (.plus space)), .opt (.seq (phrase "usage") (.plus space)),
      phrase "limit will reset", .plus space, .any [phrase "at", phrase "after"], edge u]),
    ("quota reached", .any
      [.all [edge u, phrase "quota", .plus space,
        .any [phrase "reached", phrase "exceeded", phrase "exhausted", phrase "depleted"], edge u],
      .all [edge u, phrase "quota", edge u, notHandling, gap 80, edge u, retryHint u]]),
    ("usage limit", .any
      [.all [edge u, .opt (.all [phrase "you", .opt (.any [phrase "'ve", .seq (.plus space) (phrase "have")]), .plus space]),
        .any [phrase "hit", phrase "reached", phrase "exceeded", phrase "exhausted"], .plus space, phrase "your usage limit", edge u],
      .all [edge u, phrase "usage limit", .plus space,
        .any [phrase "reached", phrase "exceeded", phrase "hit", phrase "exhausted"], edge u]]),
    ("rate limit", .any
      [.all [edge u, phrase "rate limit", .opt (phrase "ed"), .plus space, .any [phrase "reached", phrase "exceeded", phrase "hit"],
        edge u],
      .all [edge u, phrase "rate limited", edge u],
      .all [edge u, phrase "rate limit", .opt (phrase "ed"), edge u, notHandling, gap 80, edge u, retryHint u]])]

/-! ## Times -/

def durationTokenPattern : Re :=
  .all [.group "value" (.seq (.plus (digit u)) (fraction u)), .star space,
    .group "unit" (.any [plural "millisecond", phrase "ms", plural "second", plural "sec", phrase "s", plural "minute", plural "min",
      phrase "m", plural "hour", plural "hr", phrase "h", plural "day", phrase "d"]),
    .test fun _ rest => rest.head?.all fun c => !foldedLetter c]

def isoTimestampPattern : Re :=
  .all [edge u, .times (digit u) 4, exact '-', .times (digit u) 2, exact '-', .times (digit u) 2, exact 'T',
    .times (digit u) 2, exact ':', .times (digit u) 2, exact ':', .times (digit u) 2, fraction u,
    .opt (.any [exact 'Z', .all [.chars fun c => c = '+' || c = '-', .times (digit u) 2, .opt (exact ':'), .times (digit u) 2]]),
    edge u]

/-- `\d{1,2}(?::\d{2})?\s*[ap]\.?(?:m)\.?`. -/
def clockPattern : Re :=
  .all [oneOrTwo u, .opt (.seq (exact ':') (.times (digit u) 2)), .star space, .any [letter 'a', letter 'p'], .opt (exact '.'),
    letter 'm', .opt (exact '.')]

def monthNameTimestampPattern : Re :=
  let long (short rest : String) : Re := .seq (phrase short) (.opt (phrase rest))
  .all [edge u, .any [long "jan" "uary", long "feb" "ruary", long "mar" "ch", long "apr" "il", phrase "may", long "jun" "e",
      long "jul" "y", long "aug" "ust", long "sep" "tember", long "sept" "ember", long "oct" "ober", long "nov" "ember",
      long "dec" "ember"], .plus space,
    oneOrTwo u, .opt (.any [phrase "st", phrase "nd", phrase "rd", phrase "th"]), .opt (exact ','), .plus space,
    .times (digit u) 4, .plus space, clockPattern u, edge u]

/-- `\d{10}(?:\.\d+)?|\d{13}`. -/
def epochDigits : Re := .alt (.seq (.times (digit u) 10) (fraction u)) (.times (digit u) 13)

def epochPattern : Re := .all [edge u, .group "epoch" (epochDigits u), edge u]

def pipeEpochPattern : Re := .all [exact '|', .star space, .group "epoch" (epochDigits u), edge u]

def localTimeWithTzPattern : Re :=
  .all [edge u, .any [.seq (phrase "reset") (.opt (phrase "s")), phrase "limit will reset", phrase "quota will reset",
      phrase "try again", phrase "retry"], .plus space, phrase "at", .plus space,
    .group "time" (clockPattern u), .star space, exact '(',
    .group "tz" (.all [.plus (.chars fun c => foldedLetter c || c = '_'), exact '/',
      .plus (.chars fun c => foldedLetter c || c.isDigit || c = '_' || c = '-' || c = '+')]), exact ')']

end Patterns

end Crewplane.Quota
