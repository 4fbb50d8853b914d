import ReviewHub.Error
import ReviewHub.Wire.Record
/-!
# Configuration

How many workers a hub starts, how they are named, and how much its queue holds.
-/

namespace ReviewHub

open Wire (Decoder member)

structure Config where
  workerCount : UInt64 := 3
  /-- How many items the queue holds; `none` for any number. -/
  queueCapacity : Option UInt64 := none
  /-- Workers are named by this, a hyphen and their number. -/
  workerName : String := "gerrit-worker"
deriving DecidableEq, Repr, Inhabited

namespace Config

def members : List (Wire.Member Config) := [
  member "worker-count" .count fun x c => { c with workerCount := x },
  member "queue-capacity" (.optional .count) fun x c => { c with queueCapacity := x },
  member "worker-name-prefix" .text fun x c => { c with workerName := x }]

def decoder : Decoder Config := Wire.Record.decoder "Config" {} members

/-- Refuses a queue that could hold nothing. -/
def validate (c : Config) : Except Error Unit :=
  if c.queueCapacity = some 0 then .error .noCapacity else .ok ()

end Config

end ReviewHub
