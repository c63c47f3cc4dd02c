import Crewplane.Process.RetryUnits
import Crewplane.Process.StreamCapture
import Crewplane.Lib.Lines
/-
# The log of a stream (runtime/agent/process/log_rendering.py)

An `IncrementalLogRenderer` decodes a stream chunk by chunk and writes each line after a prefix, with the retry waits of
the line in seconds. A line that a chunk leaves open goes on in the next, and so does a CR that may be half of a line end.
The decoder is that of `codecs.getincrementaldecoder("utf-8")(errors="replace")`.
-/
namespace Crewplane.Process

open Crewplane.Lib

/-! ## The decoder -/

def replacement : Char := '\ufffd'

/-- The bytes of a character that are still to come: the range of the next one, and the bits read. -/
structure PendingChar where
  missing : Nat
  low : UInt8
  high : UInt8
  value : Nat
  deriving DecidableEq, Repr

/-- A byte between characters. -/
def firstByte (b : UInt8) : List Char × Option PendingChar :=
  let lead (missing : Nat) (low high base : UInt8) : List Char × Option PendingChar :=
    ([], some ⟨missing, low, high, (b - base).toNat⟩)
  if b ≤ 0x7f then ([Char.ofNat b.toNat], none)
  else if 0xc2 ≤ b ∧ b ≤ 0xdf then lead 1 0x80 0xbf 0xc0
  else if b = 0xe0 then lead 2 0xa0 0xbf 0xe0
  else if b = 0xed then lead 2 0x80 0x9f 0xe0
  else if 0xe1 ≤ b ∧ b ≤ 0xef then lead 2 0x80 0xbf 0xe0
  else if b = 0xf0 then lead 3 0x90 0xbf 0xf0
  else if 0xf1 ≤ b ∧ b ≤ 0xf3 then lead 3 0x80 0xbf 0xf0
  else if b = 0xf4 then lead 3 0x80 0x8f 0xf0
  else ([replacement], none)

/-- What a byte decodes to. A byte that cannot go on stands for itself, after a replacement of what was pending. -/
def decodeByte (pending : Option PendingChar) (b : UInt8) : List Char × Option PendingChar :=
  match pending with
  | none => firstByte b
  | some p =>
    if p.low ≤ b ∧ b ≤ p.high then
      let value := p.value * 64 + (b - 0x80).toNat
      if p.missing = 1 then ([Char.ofNat value], none) else ([], some ⟨p.missing - 1, 0x80, 0xbf, value⟩)
    else
      let next := firstByte b
      (replacement :: next.1, next.2)

/-- `decoder.decode(chunk, final=False)`. -/
def decodeBytes : Option PendingChar → Bytes → List Char × Option PendingChar
  | pending, [] => ([], pending)
  | pending, b :: rest =>
    let first := decodeByte pending b
    let later := decodeBytes first.2 rest
    (first.1 ++ later.1, later.2)

/-- `decoder.decode(b"", final=True)`. -/
def decodeFinal (pending : Option PendingChar) : List Char := if pending.isSome then [replacement] else []

/-! ## The renderer -/

/-- `text.encode("utf-8")`. -/
def encodeText (text : List Char) : Bytes := text.flatMap String.utf8EncodeChar

/-- `text.endswith(("\n", "\r"))`. -/
def endsLine (text : List Char) : Bool := text.getLast? = some '\n' || text.getLast? = some '\r'

structure IncrementalLogRenderer where
  linePrefix : Bytes
  decoder : Option PendingChar
  lineOpen : Bool
  previousChunkEndedWithCarriageReturn : Bool
  deriving DecidableEq, Repr

def IncrementalLogRenderer.init (linePrefix : Bytes) : IncrementalLogRenderer := ⟨linePrefix, none, false, false⟩

section Tables

variable (u : CharTables)

/-- The loop over the segments of a text. -/
def renderSegments (linePrefix : Bytes) : Bool → List (List Char) → Except WaitError (Bytes × Bool)
  | lineOpen, [] => .ok ([], lineOpen)
  | lineOpen, segment :: rest => do
    let text ← normalizeRetryWaitUnitsInText u segment
    let (payload, stillOpen) ← renderSegments linePrefix (!endsLine segment) rest
    let front := if linePrefix ≠ [] ∧ lineOpen = false then linePrefix else []
    return (front ++ (encodeText text ++ payload), stillOpen)

def renderLogTextSegments (text : List Char) (linePrefix : Bytes) (lineOpen : Bool) : Except WaitError (Bytes × Bool) :=
  renderSegments u linePrefix lineOpen (splitlines text)

/-- What follows the check of the carriage return. -/
def IncrementalLogRenderer.renderLines (r : IncrementalLogRenderer) (text : List Char) :
    Except WaitError (Bytes × IncrementalLogRenderer) := do
  if text = [] then return ([], r)
  let (payload, lineOpen) ← renderLogTextSegments u text r.linePrefix r.lineOpen
  return (payload, { r with lineOpen := lineOpen, previousChunkEndedWithCarriageReturn := text.getLast? = some '\r' })

/-- `_render_text`. -/
def IncrementalLogRenderer.renderText (r : IncrementalLogRenderer) (text : List Char) :
    Except WaitError (Bytes × IncrementalLogRenderer) :=
  if r.previousChunkEndedWithCarriageReturn then
    match text with
    | [] => .ok ([], r)
    | '\n' :: text => do
      let (payload, r) ← { r with previousChunkEndedWithCarriageReturn := false }.renderLines u text
      return (10 :: payload, r)
    | text => { r with previousChunkEndedWithCarriageReturn := false }.renderLines u text
  else r.renderLines u text

def IncrementalLogRenderer.render (r : IncrementalLogRenderer) (chunk : Bytes) :
    Except WaitError (Bytes × IncrementalLogRenderer) :=
  let decoded := decodeBytes r.decoder chunk
  { r with decoder := decoded.2 }.renderText u decoded.1

def IncrementalLogRenderer.finish (r : IncrementalLogRenderer) : Except WaitError (Bytes × IncrementalLogRenderer) :=
  { r with decoder := none }.renderText u (decodeFinal r.decoder)

/-- All results for a stream. -/
def IncrementalLogRenderer.renderAll (r : IncrementalLogRenderer) : List Bytes → Except WaitError Bytes
  | [] => do
    let (payload, _) ← r.finish u
    return payload
  | chunk :: chunks => do
    let (payload, r) ← r.render u chunk
    let rest ← r.renderAll chunks
    return payload ++ rest

/-- The log of a stream that comes in these chunks. -/
def renderedLog (linePrefix : Bytes) (chunks : List Bytes) : Except WaitError Bytes :=
  (IncrementalLogRenderer.init linePrefix).renderAll u chunks

end Tables

end Crewplane.Process
