import Crewplane.Quota.Lexicons
/-
# Quota evidence (adapters/invokers/cli_invoker/quota/evidence.py)

| here | there |
|------|-------|
| `findFirstMatch`, `normalizeQuotaHint` | evidence.py:13, 37 |
| `findStrictQuotaEvidence`, `findSpecificQuotaHint`, `findQuotaEvidence` | evidence.py:45, 52, 61 |
| `isResetContextLine`, `collectQuotaContextLines` | evidence.py:93, 103 |

`CaseTables` is `str.lower`: what it writes for a character depends on the text around it, and may be longer than one
character.
-/
namespace Crewplane.Quota

open Crewplane.Lib Crewplane.Lib.Regex
open Crewplane.Process (CharTables)

structure CaseTables where
  /-- What is written for a character, after the first text and before the second. -/
  lowerAt : Text → Text → Char → Text
  lowerAt_ne_nil : ∀ (before after : Text) (c : Char), lowerAt before after c ≠ []
  lowerAt_ascii : ∀ (before after : Text) (c : Char), c.toNat < 128 → lowerAt before after c = [c.toLower]

namespace CaseTables

variable (t : CaseTables)

def lowerFrom : Text → Text → Text
  | _, [] => []
  | before, c :: rest => t.lowerAt before rest c ++ lowerFrom (before ++ [c]) rest

/-- `text.lower()`. -/
def lower (text : Text) : Text := t.lowerFrom [] text

end CaseTables

/-- `needle in text`. -/
def holds (needle text : Text) : Bool := decide (needle <:+: text)

def plain (c : Char) : Bool := c.isLower || c.isDigit

/-- `re.sub(r"[^a-z0-9]+", " ", text)`. -/
def spaced : Bool → Text → Text
  | _, [] => []
  | inGap, c :: rest =>
    if plain c then c :: spaced false rest
    else if inGap then spaced true rest
    else ' ' :: spaced true rest

section Evidence

variable (t : CaseTables) (u : CharTables)

def normalizeQuotaHint (value : Text) : Text := stripChars (spaced false (t.lower value))

def findFirstMatch (haystack : Text) (needles : List Text) : Option Text :=
  if haystack = [] then none
  else
    let haystackLower := t.lower haystack
    let haystackCollapsed := normalizeQuotaHint t haystackLower
    let haystackSquashed := haystackLower.filter plain
    needles.find? fun needle =>
      let needleLower := t.lower needle
      let needleCollapsed := normalizeQuotaHint t needleLower
      let needleSquashed := needleLower.filter plain
      needle ≠ [] &&
        (holds needleLower haystackLower || (needleCollapsed ≠ [] && holds needleCollapsed haystackCollapsed) ||
          (needleSquashed ≠ [] && holds needleSquashed haystackSquashed))

def isAmbiguousQuotaHint (value : Text) : Bool := (ambiguousQuotaHints.map String.toList).contains (normalizeQuotaHint t value)

def findStrictQuotaEvidence (line : Text) : Option Text :=
  ((strictQuotaEvidencePatterns u).find? fun entry => entry.2.search line).map fun entry => entry.1.toList

def findSpecificQuotaHint (line : Text) (hints : List Text) : Option Text :=
  (findFirstMatch t line hints).filter fun found => !isAmbiguousQuotaHint t found

def findQuotaEvidence (outputLines : List Text) (familyHints configuredHints : List Text) : Option Text :=
  outputLines.findSome? fun line =>
    let stripped := stripChars line
    if stripped = [] then none
    else
      (findStrictQuotaEvidence u stripped).or
        ((findSpecificQuotaHint t stripped configuredHints).or (findSpecificQuotaHint t stripped familyHints))

def isResetContextLine (lineLower : Text) (familyHints configuredHints : List Text) : Bool :=
  quotaContextHints.any (fun hint => holds hint.toList lineLower) ||
    configuredHints.any (fun hint => hint ≠ [] && holds (t.lower hint) lineLower) ||
    familyHints.any fun hint => holds hint lineLower

/-- The lines from a position on that are context, or stand right after a context line. The line that the source puts into
its map once more, the previous context line, is in it already. -/
def collectFrom (familyHints configuredHints : List Text) : Bool → List Text → List Text
  | _, [] => []
  | buffered, rawLine :: rest =>
    let stripped := stripChars rawLine
    let isContext := stripped ≠ [] && isResetContextLine t (t.lower stripped) familyHints configuredHints
    if buffered || isContext then rawLine :: collectFrom familyHints configuredHints isContext rest
    else collectFrom familyHints configuredHints isContext rest

def collectQuotaContextLines (outputLines familyHints configuredHints : List Text) : List Text :=
  collectFrom t familyHints configuredHints false outputLines

end Evidence

end Crewplane.Quota
