import OS161.Userprog.ForkInvariant

namespace OS161.Userprog.Fork

open OS161.Data
open OS161.Threads

/-! Forks of processes that exit. -/

variable {s next : State}

instance (call : Call) (s : State) : Decidable (call.InOrder s) := by
  unfold Call.InOrder
  split
  case h_3 => split <;> infer_instance
  all_goals infer_instance

/-- The rest of a `sys_fork` that is not interrupted. -/
def registers : List Call :=
  [.lockAcquire, .setPid, .create 0xdead, .append, .lockRelease, .forkReturn 3]

end OS161.Userprog.Fork
