import Mxid.Authn.Impl.Limiter
import Mxid.Data.Run

namespace Mxid.RateLimit

inductive Client where
  | ready
  | admitted
  | guessed
  | finished
  deriving DecidableEq

structure Guessing (ι : Type) where
  now : Int
  rdb : Keyspace ι
  clients : List Client
  evaluated : Nat

namespace Guessing

variable {ι : Type} [DecidableEq ι] (l : Limiter) (id : ι) (s : Guessing ι) (turn : Nat × Nat)

def step : Option (Guessing ι) :=
  let now := s.now + turn.2
  match s.clients[turn.1]? with
  | some .ready =>
    let client := if (l.check s.rdb now id).isNone then .admitted else .finished
    some { s with now, clients := s.clients.set turn.1 client }
  | some .admitted =>
    some { s with now, clients := s.clients.set turn.1 .guessed, evaluated := s.evaluated + 1 }
  | some .guessed =>
    some { s with now, rdb := (l.recordFailure s.rdb now id).2, clients := s.clients.set turn.1 .finished }
  | _ => none

def inFlight : Nat := s.clients.count .admitted + s.clients.count .guessed

def during : Bool :=
  let now := s.now + turn.2
  if (s.rdb.locks.lookup s.now (l.key id)).isSome then
    (s.rdb.locks.lookup now (l.key id)).isSome
  else
    (s.rdb.counters.lookup s.now (l.key id)).isNone || (s.rdb.counters.lookup now (l.key id)).isSome

/--
The limiter is asked while there is a lock that lasts for another half a second, or while the failures that are counted
and those to come from the clients in flight leave an attempt.
-/
def orderly : Bool :=
  let now := s.now + turn.2
  if s.clients[turn.1]? = some .ready then
    if (s.rdb.locks.lookup now (l.key id)).isSome then
      500 ≤ s.rdb.locks.pttl now (l.key id)
    else
      l.failureCount s.rdb now id + s.inFlight < l.cfg.maxAttempts
  else
    true

end Guessing

end Mxid.RateLimit
