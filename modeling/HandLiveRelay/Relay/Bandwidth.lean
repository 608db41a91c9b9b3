import Mathlib

/-!
This module contains the bandwidth limit of a pair: a token bucket that may go into debt, so that a
frame always passes and the debt is the time the connection waits before it reads again. The
floating point numbers of the bucket are taken as exact, times are in seconds.
-/

namespace HandLiveRelay

structure TokenBucket where
  rate : Rat
  capacity : Rat
  tokens : Rat
  updated : Rat

namespace TokenBucket

/--
A full bucket, for bursts of one second.
-/
def new (rateBytesPerSec : Nat) (now : Rat) : TokenBucket :=
  let rate : Rat := max rateBytesPerSec 1
  { rate, capacity := rate, tokens := rate, updated := now }

/--
Take `cost` bytes. Returns how long to wait before the next read.
-/
def take (b : TokenBucket) (cost : Nat) (now : Rat) : TokenBucket × Rat :=
  let elapsed := max (now - b.updated) 0
  let tokens := min (b.tokens + elapsed * b.rate) b.capacity - cost
  ({ b with tokens, updated := now }, if tokens ≥ 0 then 0 else -tokens / b.rate)

end TokenBucket
end HandLiveRelay
