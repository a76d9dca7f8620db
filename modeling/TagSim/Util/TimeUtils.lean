/-!
# The time of day and sleeping

`util_time_ms` and `util_sleep_ms` of `time_utils.c`, once as they are compiled for Windows and once for POSIX.
The time is told from what the system call returns for an instant, and a sleep is what the system call is asked
for. An `int64_t` wraps around.
-/

namespace TagSim.TimeUtils

/-- `FILETIME` -/
structure FileTime where
  dwLowDateTime : BitVec 32
  dwHighDateTime : BitVec 32
  deriving DecidableEq, Repr

/-- `struct timeval` -/
structure TimeVal where
  tvSec : BitVec 64
  tvUsec : BitVec 64
  deriving DecidableEq, Repr

/-- What a thread that sleeps is in for: a number of microseconds, no end, or a call that fails at once. -/
inductive Pause where
  | lasts (us : Nat)
  | forever
  | refused
  deriving DecidableEq, Repr

namespace Windows

/-- `Sleep`, whose argument is a `DWORD`. All ones are `INFINITE`. -/
def sleep (dwMilliseconds : BitVec 32) : Pause :=
  if dwMilliseconds = 0xFFFFFFFF then .forever else .lasts (dwMilliseconds.toNat * 1000)

/-- The sleep, and the value returned after it. -/
def utilSleepMs (ms : BitVec 32) : Pause × BitVec 32 := (sleep ms, 1)

def utilTimeMs (ft : FileTime) : BitVec 64 :=
  let res := ft.dwLowDateTime.setWidth 64 + ft.dwHighDateTime.setWidth 64 <<< 32
  res.sdiv 10000

end Windows

namespace Posix

/-- `select` without descriptors. It refuses a `struct timeval` that is not one of a duration, and returns 0 at
    the end of the time. -/
def select (tv : TimeVal) : Pause × BitVec 32 :=
  if 0 ≤ tv.tvSec.toInt ∧ 0 ≤ tv.tvUsec.toInt ∧ tv.tvUsec.toInt < 1000000 then
    (.lasts (tv.tvSec.toNat * 1000000 + tv.tvUsec.toNat), 0)
  else (.refused, -1)

/-- The sleep, and the value returned after it. -/
def utilSleepMs (ms : BitVec 32) : Pause × BitVec 32 :=
  select ⟨(ms.sdiv 1000).signExtend 64, (ms.srem 1000 * 1000).signExtend 64⟩

def utilTimeMs (tv : TimeVal) : BitVec 64 := tv.tvSec * 1000 + tv.tvUsec.sdiv 1000

end Posix

/-- 1970-01-01, in units of 100 ns since 1601-01-01. -/
def unixEpoch : Nat := 116444736000000000

/-- An instant that a `FILETIME` and a `struct timeval` can both tell: a count of units of 100 ns since
    1601-01-01, from 1970-01-01 on. -/
structure Instant where
  count : Nat
  unixEpoch_le : unixEpoch ≤ count
  lt_two_pow : count < 18446744073709551616

namespace Instant

/-- The two halves of the count. -/
def toFileTime (t : Instant) : FileTime :=
  ⟨BitVec.ofNat 32 (t.count % 4294967296), BitVec.ofNat 32 (t.count / 4294967296)⟩

/-- Whole seconds since 1970-01-01, and the microseconds after them. -/
def toTimeVal (t : Instant) : TimeVal :=
  ⟨BitVec.ofNat 64 ((t.count - unixEpoch) / 10000000),
    BitVec.ofNat 64 ((t.count - unixEpoch) / 10 % 1000000)⟩

/-- Whole milliseconds since 1970-01-01. -/
def ms (t : Instant) : Nat := (t.count - unixEpoch) / 10000

/-- Both versions tell the milliseconds since 1970-01-01. -/
def Agreed (t : Instant) : Prop :=
  (Windows.utilTimeMs t.toFileTime).toInt = t.ms ∧ (Posix.utilTimeMs t.toTimeVal).toInt = t.ms

end Instant

end TagSim.TimeUtils
