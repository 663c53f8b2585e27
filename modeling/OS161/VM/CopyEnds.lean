import OS161.VM.Forking
import OS161.VM.Spaces

namespace OS161.VM.Machine

open OS161.Data
open OS161.Kern
open OS161.Lib

/-! Whether `as_copy` comes back.  All its loops but the last have their number of
turns when they start. -/

variable {m m' : Machine} {old a : AsId}

section Preserved

variable {bottom top : Nat}

end Preserved

/-! The whole call. -/

section Whole

variable (depth : Nat) (old : AsId) (mem : AsMemory) (pages : AsPages) (rest : Addrspace)

variable {depth old mem pages rest}

variable (depth pages rest)

end Whole

end OS161.VM.Machine
