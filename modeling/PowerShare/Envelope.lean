import PowerShare.Envelope.Codec
import PowerShare.Report

/-!
# Envelopes

An `Envelope` carries one outcome between programs, with the version of its layout and a sequence
number. Reading looks at the version last: bytes that are no envelope at all are refused for what
is wrong with them, and bytes behind the envelope are not looked at.

A stream is a row of frames, each a length of four bytes and an envelope of that length.
`readEnvelopes` reads a whole stream and fails at the first frame that is not complete.
-/

namespace PowerShare

/-- One outcome on its way to another program. -/
structure Envelope where
  version : UInt32
  sequence : UInt64
  outcome : Outcome
  deriving DecidableEq, Inhabited

namespace Codec

def duration : Codec Duration := uint64.map Duration.mk Duration.ms

def component : Codec Component := oneOf Component.all

def basis : Codec Basis := oneOf Basis.all

def runState : Codec RunState := oneOf RunState.all

def consumer : Codec Consumer := uint32.map Consumer.mk Consumer.id

def stateKey : Codec StateKey :=
  (consumer.pair runState).map (fun k => ⟨k.1, k.2⟩) fun k => (k.consumer, k.state)

def scope : Codec Scope :=
  (duration.pair (binary64.pair basis)).map (fun (d, c, b) => ⟨d, c, b⟩)
    fun s => (s.duration, s.charge, s.basis)

def share : Codec Share :=
  (duration.pair (binary64.pair ((option (sortedMap stateKey binary64)).pair
    (basis.pair ((option uint64).pair (option uint64)))))).map
    (fun (d, c, m, b, r, t) => ⟨d, c, m, b, r, t⟩)
    fun s => (s.duration, s.charge, s.byState?, s.basis, s.rxBytes?, s.txBytes?)

def report : Codec Report :=
  (component.pair (scope.pair (scope.pair (duration.pair (binary64.pair
    (sortedMap consumer share)))))).map
    (fun (k, d, t, sd, sc, m) => ⟨k, d, t, sd, sc, m⟩)
    fun r => (r.component, r.device, r.tracked, r.systemDuration, r.systemCharge, r.shares)

/-- An outcome is the number of its alternative and then its content. -/
def outcome : Codec Outcome where
  encode
    | .unsupported c => (word 4).encode 0 ++ component.encode c
    | .report r => (word 4).encode 1 ++ report.encode r
  decode bytes := do
    let (number, rest) ← (word 4).decode bytes
    match number with
    | 0 =>
      let (c, rest) ← component.decode rest
      return (.unsupported c, rest)
    | 1 =>
      let (r, rest) ← report.decode rest
      return (.report r, rest)
    | _ => throw (.unknownAlternative number 2)

def envelope : Codec Envelope :=
  (uint32.pair (uint64.pair outcome)).map (fun (v, s, o) => ⟨v, s, o⟩)
    fun e => (e.version, e.sequence, e.outcome)

end Codec

namespace Envelope

/-- The version of the layout. -/
def currentVersion : UInt32 := 1

/-- An envelope of the current version. -/
def wrap (sequence : UInt64) (outcome : Outcome) : Envelope := ⟨currentVersion, sequence, outcome⟩

def encode (e : Envelope) : List UInt8 := Codec.envelope.encode e

/-- The envelope at the front of the bytes, if it has the current version. -/
def decode (bytes : List UInt8) : Except WireError Envelope := do
  let (e, _) ← Codec.envelope.decode bytes
  if e.version = currentVersion then return e
  else throw (.unsupportedVersion e.version.toNat currentVersion.toNat)

/-- The bytes of the length of a frame. -/
def lengthWidth : Nat := 4

end Envelope

open Envelope in
/-- The envelopes of a stream, in order. -/
def readEnvelopes (bytes : List UInt8) : Except WireError (List Envelope) :=
  if bytes.isEmpty then .ok []
  else if _h : bytes.length < lengthWidth then .error .truncatedLength
  else
    let length := ofLittleEndian (bytes.take lengthWidth)
    let rest := bytes.drop lengthWidth
    if rest.length < length then .error .truncatedBody
    else do
      let e ← Envelope.decode (rest.take length)
      let es ← readEnvelopes (rest.drop length)
      return e :: es
termination_by bytes.length
decreasing_by
  simp only [lengthWidth, List.length_drop] at *
  omega

end PowerShare
