/-
  HandleBridge.Features — what the platform says it supports.

  A feature table maps keys to whether the feature is there. A key that the table does
  not have reads as unsupported.
-/
import HandleBridge.Table
import HandleBridge.Record

namespace HandleBridge

abbrev Features := Table String Bool

namespace Features

def audioEffect : String := "http://tizen.org/feature/multimedia.custom_audio_effect"

def rawVideo : String := "http://tizen.org/feature/multimedia.raw_video"

/-- The keys that programs ask for. -/
def known : List String := [audioEffect, rawVideo]

def isSupported (t : Features) (key : String) : Bool := (t.get? key).getD false

/-- The rows of the table in ascending order of their keys. -/
def rows (t : Features) : List (String × Bool) := t.entries.mergeSort fun a b => decide (a.1 ≤ b.1)

/-- The log record of a query. -/
def query (t : Features) (key : String) : Record := .featureQuery key (t.isSupported key)

/-- The known keys, each with whether it is supported. -/
def survey (t : Features) : List (String × Bool) := known.map fun key => (key, t.isSupported key)

/-! ## A session of changes and queries -/

inductive Request where
  | set (key : String) (supported : Bool)
  | get (key : String)
  | supported (key : String)
  | survey
  deriving DecidableEq, Repr

inductive Reply where
  | done
  | found (value : Option Bool)
  | flag (supported : Bool)
  | survey (rows : List (String × Bool))
  deriving DecidableEq, Repr

/-- The reply to a request, the records that it leaves, and the table afterwards. -/
def answer (t : Features) : Request → Reply × List Record × Features
  | .set key v => (.done, [], t.insert key v)
  | .get key => (.found (t.get? key), [], t)
  | .supported key => (.flag (t.isSupported key), [t.query key], t)
  | .survey => (.survey t.survey, known.map t.query, t)

end Features

end HandleBridge
