/-!
# Lengths of time

A length of time is a number of seconds and a number of nanoseconds below a second.

* `Duration.milliseconds` — what delays are reported in.
* `Duration.isShorter` — what time limits are compared with.
-/

namespace ImageLoader

structure Duration where
  seconds : UInt64
  nanoseconds : UInt32
deriving DecidableEq, Inhabited

namespace Duration

def milliseconds (d : Duration) : Nat :=
  d.seconds.toNat * 1000 + d.nanoseconds.toNat / 1000000

def ofNanoseconds (n : Nat) : Duration :=
  ⟨UInt64.ofNat (n / 1000000000), UInt32.ofNat (n % 1000000000)⟩

def ofSeconds (n : UInt64) : Duration := ⟨n, 0⟩

def isShorter (a b : Duration) : Bool :=
  a.seconds.toNat * 1000000000 + a.nanoseconds.toNat <
    b.seconds.toNat * 1000000000 + b.nanoseconds.toNat

end Duration

end ImageLoader
