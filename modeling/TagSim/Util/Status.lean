/-!
# Status codes

The enumeration `status_t` of `status.h`, in its order, and its classification by ranges of values.
-/

namespace TagSim

inductive Status where
  | ok | pending | terminate | wouldBlock | notFound | notRecognized | notSupported | badInput | aborted
  | busy | partialResult | outOfBounds | timeout | nullPtr | noResource | setupFailure | internalFailure
  | externalFailure | notAllowed
  deriving DecidableEq, Repr

/-- The value of an enumerator: `STATUS_OK` is 0, and each is one more than the one before. -/
def Status.toNat : Status → Nat
  | .ok => 0
  | .pending => 1
  | .terminate => 2
  | .wouldBlock => 3
  | .notFound => 4
  | .notRecognized => 5
  | .notSupported => 6
  | .badInput => 7
  | .aborted => 8
  | .busy => 9
  | .partialResult => 10
  | .outOfBounds => 11
  | .timeout => 12
  | .nullPtr => 13
  | .noResource => 14
  | .setupFailure => 15
  | .internalFailure => 16
  | .externalFailure => 17
  | .notAllowed => 18

def statusIsError (status : Status) : Bool := decide (status.toNat ≥ 2000)

end TagSim
