import Lpel.Decen.Runtime
import Lpel.Hrc.Runtime

/-!
# The two back ends

A program of tasks and streams runs under either back end.  The decentralised one
bounds every stream, the hierarchical one only the entry streams, so a task may wait
for space in the one where it goes on in the other.  This apart, what the program
writes to its streams does not depend on the choice.
-/

namespace Lpel

open TaskNetwork (Runtime RuntimeGoesOn runtimeMachine)

variable {τ ι α σ P : Type}

variable [DecidableEq τ] [DecidableEq ι] [LinearOrder P] [BoundedOrder P]

section Example

open TaskNetwork (handOver_terminating)

end Example

end Lpel
