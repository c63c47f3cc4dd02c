import Crewplane.Lib.Calendar
import Crewplane.Lib.Scan
import Crewplane.Quota.Evidence
/-
# Reset times in a line (adapters/invokers/cli_invoker/quota/waits.py)

| here | there |
|------|-------|
| `extractWaitCandidatesFromLine` | waits.py:33 |
| `relativeWaits`, `parseDurationSeconds` | waits.py:43, 64 |
| `timezoneQualifiedWaits`, `parseLocalResetWaitSeconds`, `parseClockTime`, `nextLocalReset` | waits.py:83–130 |
| `resetKeyWaits`, `pipeEpochWaits`, `parseEpochWaitSeconds` | waits.py:133–174 |
| `absolutePhraseWaits`, `isoWaits`, `parseIsoWaitSeconds` | waits.py:177–213 |
| `parseMonthNameWaitSeconds`, `parseMonthNameTimestamp` | waits.py:216–237 |

Points of time are microseconds since the year 1 (`Calendar`), and a wait is a float that is not negative. `Clocks` is what
the host supplies: the time zone database and the offset of the local zone. A conversion that leaves the years 1 to 9999
raises.
-/
namespace Crewplane.Quota

open Crewplane.Lib Crewplane.Lib.Regex Crewplane.Lib.Calendar
open Crewplane.Process (CharTables floatOf digitsValue sameLetter)

/-! ## Waits -/

inductive QuotaError
  | overflowError
  /-- Of `ZoneInfo`, other than `ZoneInfoNotFoundError`. -/
  | zoneInfoError
deriving DecidableEq, Repr

inductive Wait
  | finite (seconds : ℚ)
  | infinite
deriving DecidableEq

namespace Wait

/-- The float next to a rational. -/
def nearest (q : ℚ) : Wait := ((roundToNearest q).map fun m => Wait.finite m.value).getD .infinite

def scale (factor : ℚ) : Wait → Wait
  | finite q => nearest (q * factor)
  | infinite => infinite

def add : Wait → Wait → Wait
  | finite a, finite b => nearest (a + b)
  | _, _ => infinite

/-- `wait >= 0`. -/
def nonneg : Wait → Bool
  | finite q => 0 ≤ q
  | infinite => true

/-- `max` of two floats. -/
def larger : Wait → Wait → Wait
  | finite a, finite b => finite (max a b)
  | _, _ => infinite

end Wait

/-- `float(text)` of digits. -/
def parseFloat (u : CharTables) (text : Text) : Wait := ((floatOf u text).map fun m => Wait.finite m.value).getD .infinite

/-! ## Relative phrases -/

section Relative

variable (t : CaseTables) (u : CharTables)

/-- A literal at the head of a text. -/
def literalPattern (needle : Text) : Pattern Char Unit := fun text =>
  if needle ≠ [] ∧ needle.isPrefixOf text then some (needle.length - 1, ()) else none

/-- Where the occurrences of a phrase end in the text, in the order of `text.find`. -/
def occurrenceEnds (needle text : Text) : List Nat := (findIter (literalPattern needle) 0 0 text).map Match.stop

def durationUnitToSeconds (unit : Text) : Option ℚ :=
  durationUnitMultipliers.findSome? fun entry => if entry.1.toList = t.lower unit then some entry.2 else none

/-- The tokens with a known unit, in seconds. -/
def durationTokens (text : Text) : List Wait :=
  ((durationTokenPattern u).findIter text).filterMap fun found =>
    (durationUnitToSeconds t (found.group "unit")).map fun multiplier => (parseFloat u (found.group "value")).scale multiplier

def parseDurationSeconds (text : Text) : Option Wait :=
  match durationTokens t u text with
  | [] => none
  | tokens => some (tokens.foldl Wait.add (.finite 0))

/-- The candidate of an occurrence that ends at a place of the lowercased line. -/
def relativeWait (line : Text) (stop : Nat) : Option Wait := parseDurationSeconds t u (line.drop stop)

def relativeWaits (line : Text) : List Wait :=
  relativeResetPhrases.flatMap fun phrase => (occurrenceEnds phrase.toList (t.lower line)).filterMap (relativeWait t u line)

end Relative

/-! ## Points of time -/

structure Zone where
  /-- The offset in microseconds at a point of UTC, and whether the local time is the second one of its name. -/
  fromUtc : Int → Int
  fold : Int → Bool
  /-- The offset at a point of the local time. -/
  utcOffset : Bool → Int → Int

inductive ZoneLookup
  | found (zone : Zone)
  | notFound
  | failed

structure Clocks where
  zoneInfo : Text → ZoneLookup
  /-- The offset of the system's zone at a point of UTC. -/
  localOffset : Int → Int

def checkRange (point : Int) : Except QuotaError Int := if InRange point then .ok point else .error .overflowError

/-- `(point - now).total_seconds()`, where it is not negative. -/
def waitUntil (now point : Int) : Option Wait :=
  if point - now < 0 then none else some (.nearest (((point - now : Int) : ℚ) / microsPerSecond))

/-- A current time. -/
structure Moment where
  point : Int
  inRange : InRange point

/-- 1970-01-01. -/
def epoch : Int := 719162 * microsPerDay

/-! ## Digits -/

section Texts

variable (t : CaseTables) (u : CharTables)

/-- `int(text)`. -/
def number (text : Text) : Nat := digitsValue u text

/-! ## Clock times -/

/-- The directives `%I`, `%M` and `%p` of `strptime`. -/
def hourDirective : Re :=
  .group "I" (.any [.seq (exact '1') (.chars (· ∈ ['0', '1', '2'])), .seq (exact '0') (.chars fun c => '1' ≤ c && c ≤ '9'),
    .chars fun c => '1' ≤ c && c ≤ '9'])

def minuteDirective : Re := .group "M" (.alt (.seq (.chars fun c => '0' ≤ c && c ≤ '5') (digit u)) (digit u))

def halfDirective : Re := .group "p" (.any [phrase "am", phrase "pm"])

/-- `%I:%M%p` and `%I%p`. -/
def clockTimeFormats : List Re := [.all [hourDirective, exact ':', minuteDirective u, halfDirective], .seq hourDirective halfDirective]

/-- Hour and minute of a match, where `AM` and `PM` are written in ASCII. -/
def clockOf (found : Found) : Option (Nat × Nat) :=
  let hour := number u (found.group "I")
  let minute := number u (found.group "M")
  let half := (found.group "p").map Char.toLower
  if half = ['a', 'm'] then some (if hour = 12 then 0 else hour, minute)
  else if half = ['p', 'm'] then some (if hour = 12 then 12 else hour + 12, minute)
  else none

def parseClockTime (text : Text) : Option (Nat × Nat) :=
  let normalized := (text.filter fun c => c ≠ ' ' && c ≠ '.').map Char.toUpper
  (clockTimeFormats u).findSome? fun format => (format.wholeMatch normalized).bind (clockOf u)

/-- `now_local.replace(hour=…, minute=…, second=0, microsecond=0)`. -/
def resetToday (clock : Nat × Nat) (nowLocal : Int) : Int :=
  nowLocal / microsPerDay * microsPerDay + timeOfDay clock.1 clock.2 0 0

/-- The candidate and its `fold`, which an addition clears. -/
def nextLocalReset (clock : Nat × Nat) (nowLocal : Int) (fold : Bool) : Int × Bool :=
  if resetToday clock nowLocal ≤ nowLocal then (resetToday clock nowLocal + microsPerDay, false)
  else (resetToday clock nowLocal, fold)

def parseLocalResetWaitSeconds (clocks : Clocks) (localTimeText timezoneName : Text) (now : Int) : Except QuotaError (Option Wait) :=
  match clocks.zoneInfo timezoneName, parseClockTime u localTimeText with
  | .failed, _ => .error .zoneInfoError
  | .notFound, _ => .ok none
  | .found _, none => .ok none
  | .found zone, some clock => do
    let nowLocal ← checkRange (now + zone.fromUtc now)
    let next := nextLocalReset clock nowLocal (zone.fold now)
    let candidateLocal ← checkRange next.1
    let candidate ← checkRange (candidateLocal - zone.utcOffset next.2 candidateLocal)
    return waitUntil now candidate

/-! ## Epochs -/

/-- A difference of two floats, where it is not negative. -/
def waitFrom (stamp : Wait) (now : ℚ) : Option Wait :=
  match stamp with
  | .finite q => if q - now < 0 then none else some (.nearest (q - now))
  | .infinite => some .infinite

def normalizeEpoch : Wait → Wait
  | .finite q => if 1000000000000 ≤ q then .nearest (q / 1000) else .finite q
  | .infinite => .infinite

/-- `now.timestamp()`. -/
def timestamp (now : Int) : ℚ :=
  let seconds : ℚ := ((now - epoch : Int) : ℚ) / microsPerSecond
  if 0 ≤ seconds then ((roundToNearest seconds).map Magnitude.value).getD 0
  else -((roundToNearest (-seconds)).map Magnitude.value).getD 0

def parseEpochWaitSeconds (epochText : Text) (now : Int) : Option Wait :=
  waitFrom (normalizeEpoch (parseFloat u epochText)) (timestamp now)

/-! ## ISO timestamps -/

/-- The number that `k` ASCII digits at an offset stand for. -/
def fieldAt (text : Text) (offset k : Nat) : Option Nat :=
  let digits := (text.drop offset).take k
  if digits.length = k ∧ digits.all Char.isDigit then some (digitsValue u digits) else none

/-- `.ffffff…` after the seconds: microseconds, the digits after the sixth cut off, and what follows. -/
def microsAt (text : Text) : Option (Nat × Text) :=
  match text with
  | '.' :: rest =>
    let digits := rest.takeWhile u.digit
    if digits.all Char.isDigit then some (digitsValue u ((digits ++ List.replicate 6 '0').take 6), rest.dropWhile u.digit) else none
  | rest => some (0, rest)

/-- The offset in microseconds: nothing, `Z`, or `+hh:mm` with or without the colon, less than a day. -/
def isoOffset (text : Text) : Option Int :=
  match text with
  | [] => some 0
  | ['Z'] => some 0
  | sign :: rest =>
    let digits := rest.filter (· ≠ ':')
    match fieldAt u digits 0 2, fieldAt u digits 2 2 with
    | some hours, some minutes =>
      if hours * 60 + minutes < 24 * 60 then
        let offset : Int := ((hours * 60 + minutes) * 60 * microsPerSecond : Nat)
        some (if sign = '-' then -offset else offset)
      else none
    | _, _ => none

/-- `datetime.fromisoformat` of a text with the shape of the pattern, as a point of UTC; without an offset the text is in
UTC. -/
def isoPoint (text : Text) : Option Int := do
  let year ← fieldAt u text 0 4
  let month ← fieldAt u text 5 2
  let day ← fieldAt u text 8 2
  let hour ← fieldAt u text 11 2
  let minute ← fieldAt u text 14 2
  let second ← fieldAt u text 17 2
  let (micro, rest) ← microsAt u (text.drop 19)
  let offset ← isoOffset u rest
  let point ← Stamp.point? ⟨year, month, day, hour, minute, second, micro⟩
  return point - offset

def parseIsoWaitSeconds (isoText : Text) (now : Int) : Except QuotaError (Option Wait) :=
  match isoPoint u isoText with
  | none => .ok none
  | some point => do
    let point ← checkRange point
    return waitUntil now point

/-! ## Month names -/

def monthNames : List Text := ["january", "february", "march", "april", "may", "june", "july", "august", "september", "october",
  "november", "december"].map String.toList

def monthDirective (short : Bool) : Re :=
  .group "b" (.any (monthNames.map fun name => .all ((if short then name.take 3 else name).map letter)))

def dayDirective : Re :=
  .group "d" (.any [.seq (exact '3') (.chars (· ∈ ['0', '1'])), .seq (.chars (· ∈ ['1', '2'])) (digit u),
    .seq (exact '0') (.chars fun c => '1' ≤ c && c ≤ '9'), .chars fun c => '1' ≤ c && c ≤ '9'])

/-- `_MONTH_NAME_FORMATS`: with minutes or without, with a comma or without, with the short name or the long one. -/
def monthNameFormats : List Re :=
  [true, false].flatMap fun minutes =>
    [true, false].flatMap fun comma =>
      [true, false].map fun short =>
        .all [monthDirective short, .plus space, dayDirective u, if comma then exact ',' else .eps, .plus space,
          .group "Y" (.times (digit u) 4), .plus space, hourDirective,
          if minutes then .seq (exact ':') (minuteDirective u) else .eps, .plus space, halfDirective]

/-- `re.sub(r"(?i)\b(\d{1,2})(?:st|nd|rd|th)\b", r"\1", text)`; `skip` characters of the last match are still to pass. -/
def dropOrdinals : Option Char → Nat → Text → Text
  | _, _, [] => []
  | _, skip + 1, c :: rest => dropOrdinals (some c) skip rest
  | before, 0, c :: rest =>
    match (Re.all [edge u, .group "day" (oneOrTwo u), .any [phrase "st", phrase "nd", phrase "rd", phrase "th"], edge u]).matchAt
        before (c :: rest) with
    | none => c :: dropOrdinals (some c) 0 rest
    | some found => found.group "day" ++ dropOrdinals (some c) (found.text.length - 1) rest

/-- `re.sub(r"\s+", " ", text)`. -/
def oneBlank : Bool → Text → Text
  | _, [] => []
  | inGap, c :: rest =>
    if !isSpace c then c :: oneBlank false rest
    else if inGap then oneBlank true rest
    else ' ' :: oneBlank true rest

/-- A match of a format as a point of local time. -/
def stampOf (found : Found) : Option Int := do
  let name := (found.group "b").map Char.toLower
  let month ← monthNames.findIdx? fun month => month = name || month.take 3 = name
  let (hour, minute) ← clockOf u found
  Stamp.point? ⟨number u (found.group "Y"), month + 1, number u (found.group "d"), hour, minute, 0, 0⟩

def parseMonthNameTimestamp (text : Text) : Option Int :=
  let normalized := oneBlank false (stripChars ((dropOrdinals u none 0 text).filter (· ≠ '.')))
  (monthNameFormats u).findSome? fun format => (format.wholeMatch normalized).bind (stampOf u)

def parseMonthNameWaitSeconds (clocks : Clocks) (timestampText : Text) (now : Int) : Except QuotaError (Option Wait) :=
  match parseMonthNameTimestamp u timestampText with
  | none => .ok none
  | some point => do
    let _ ← checkRange (now + clocks.localOffset now)
    let point ← checkRange (point - clocks.localOffset now)
    return waitUntil now point

end Texts

/-! ## The candidates of a line -/

/-- The results of the matches that have one, unless a match raises. -/
def collect {α : Type} (f : α → Except QuotaError (Option Wait)) : List α → Except QuotaError (List Wait)
  | [] => .ok []
  | a :: rest => do
    let wait ← f a
    let waits ← collect f rest
    return wait.toList ++ waits

section Line

variable (t : CaseTables) (u : CharTables) (clocks : Clocks) (now : Int)

def timezoneQualifiedWaits (line : Text) : Except QuotaError (List Wait) :=
  collect (fun found => parseLocalResetWaitSeconds u clocks (found.group "time") (found.group "tz") now)
    ((localTimeWithTzPattern u).findIter line)

def isoWaits (line : Text) : Except QuotaError (List Wait) :=
  collect (fun found => parseIsoWaitSeconds u found.text now) ((isoTimestampPattern u).findIter line)

def epochWaits (pattern : Re) (line : Text) : List Wait :=
  (pattern.findIter line).filterMap fun found => parseEpochWaitSeconds u (found.group "epoch") now

def hasResetKey (line : Text) : Bool := resetKeyHints.any fun key => holds key.toList (t.lower line)

def resetKeyWaits (line : Text) : Except QuotaError (List Wait) :=
  if hasResetKey t line then do
    let iso ← isoWaits u now line
    return epochWaits u now (epochPattern u) line ++ iso
  else .ok []

def pipeEpochWaits (line : Text) : List Wait :=
  if '|' ∈ line ∧ ["reset", "quota", "limit"].any (fun hint => holds hint.toList (t.lower line)) then
    epochWaits u now (pipeEpochPattern u) line
  else []

def hasAbsolutePhrase (line : Text) : Bool := absoluteResetPhrases.any fun phrase => holds phrase.toList (t.lower line)

def absolutePhraseWaits (line : Text) : Except QuotaError (List Wait) :=
  if hasAbsolutePhrase t line then do
    let iso ← isoWaits u now line
    let months ← collect (fun found => parseMonthNameWaitSeconds u clocks found.text now)
      ((monthNameTimestampPattern u).findIter line)
    return iso ++ months
  else .ok []

def extractWaitCandidatesFromLine (line : Text) : Except QuotaError (List Wait) := do
  let qualified ← timezoneQualifiedWaits u clocks now line
  let keyed ← resetKeyWaits t u now line
  let absolute ← absolutePhraseWaits t u clocks now line
  return (relativeWaits t u line ++ qualified ++ keyed ++ pipeEpochWaits t u now line ++ absolute).filter Wait.nonneg

end Line

end Crewplane.Quota
