import PowerShare.Envelope
import PowerShare.Event
import PowerShare.Report.Document
import PowerShare.Text.Utf8

/-!
# Sinks

A sink writes outcomes into a `Buffer`, one after another. A buffer may have a limit; a write that
would pass it fails and stores nothing.

* `JsonLines` writes each report as one line of JSON and counts them;
* `EnvelopeStream` writes each report as a frame, numbered from one; the number grows only after
  the whole frame is written.

An unsupported outcome is never written: what was known of its component stays as it was.
-/

namespace PowerShare

/-- Bytes written so far, and how many there may be. -/
structure Buffer where
  bytes : List UInt8 := []
  limit? : Option Nat := none
  deriving DecidableEq, Inhabited

/-- Why an outcome was not written. -/
inductive SinkError where
  /-- The buffer has no room for a line of JSON. -/
  | jsonBufferFull
  /-- The buffer has no room for a part of a frame. -/
  | bufferFull
  /-- The envelope is longer than the length of a frame can say. -/
  | envelopeTooLarge
  deriving DecidableEq, Inhabited

def SinkError.message : SinkError → String
  | jsonBufferFull => "Failed to serialize report to JSON: buffer full"
  | bufferFull => "buffer full"
  | envelopeTooLarge => "Envelope too large"

/-- The buffer after one write, if the bytes have room in it. -/
def Buffer.write? (b : Buffer) (bytes : List UInt8) : Option Buffer :=
  if b.limit?.all (b.bytes.length + bytes.length ≤ ·) then
    some { b with bytes := b.bytes ++ bytes }
  else none

/-- A sink for lines of JSON. -/
structure JsonLines where
  buffer : Buffer := {}
  written : Nat := 0
  deriving DecidableEq, Inhabited

/-- The file that holds one report alone, and the event of writing it. -/
def Report.file (r : Report) (path : String) : Traced (List Char) :=
  ⟨r.document.pretty, [.writingReport path]⟩

namespace JsonLines

/-- Writes a report as one line. The events tell of an outcome that is not written. -/
def accept (s : JsonLines) (o : Outcome) : Except SinkError JsonLines :=
  match o with
  | .unsupported _ => .ok s
  | .report r =>
    match s.buffer.write? (utf8 (r.document.compact ++ ['\n'])) with
    | some buffer => .ok { buffer := buffer, written := s.written + 1 }
    | none => .error .jsonBufferFull

/-- Writes outcomes one after another, up to the first that fails. -/
def acceptAll (s : JsonLines) (outcomes : List Outcome) : Except SinkError JsonLines :=
  outcomes.foldlM accept s

/-- What a sink of lines tells about an outcome. -/
def events : Outcome → List Event
  | .unsupported component => [.skipped component]
  | .report _ => []

end JsonLines

/-- A sink for frames of envelopes. -/
structure EnvelopeStream where
  buffer : Buffer := {}
  /-- The number of the next envelope. -/
  next : UInt64 := 1
  deriving DecidableEq, Inhabited

namespace EnvelopeStream

/-- Writes a report as one frame: its length, then its envelope. When the second write fails the
first one stays. -/
def accept (s : EnvelopeStream) (o : Outcome) : EnvelopeStream × Option SinkError :=
  match o with
  | .unsupported _ => (s, none)
  | .report _ =>
    let body := (Envelope.wrap s.next o).encode
    if 2 ^ 32 ≤ body.length then (s, some .envelopeTooLarge)
    else
      match s.buffer.write? (littleEndian Envelope.lengthWidth body.length) with
      | none => (s, some .bufferFull)
      | some started =>
        match started.write? body with
        | none => ({ s with buffer := started }, some .bufferFull)
        | some complete => ({ buffer := complete, next := s.next + 1 }, none)

/-- Writes outcomes one after another, up to the first that fails. -/
def acceptAll (s : EnvelopeStream) : List Outcome → EnvelopeStream × Option SinkError
  | [] => (s, none)
  | o :: rest =>
    match s.accept o with
    | (next, none) => acceptAll next rest
    | (next, some e) => (next, some e)

end EnvelopeStream

end PowerShare
