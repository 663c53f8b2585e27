import Mathlib.Data.List.Nodup

namespace OS161.Userprog

/-! The list of exit codes of `kern/userprog/fork.c`, from its head on.  A pid
is a positive `int`: each one that is given out costs an entry that is never
freed, so they do not run out. -/

/-- `struct pid_list`. -/
structure PidEntry where
  pid : Nat
  hasExited : Bool
  exitcode : Int
  deriving DecidableEq, Repr

/-- `pidlist_create`; the exit code is what `kmalloc` left there. -/
def pidlistCreate (pid : Nat) (garbage : Int) : PidEntry :=
  ⟨pid, false, garbage⟩

/-- The entry that `pidlist_search` and `pidlist_exit` find. -/
def pidlistFind (pid : Nat) : List PidEntry → Option PidEntry
  | [] => none
  | entry :: rest => if pid = entry.pid then some entry else pidlistFind pid rest

def pidlistExit (pid : Nat) (exitcode : Int) : List PidEntry → List PidEntry
  | [] => []
  | entry :: rest =>
      if pid = entry.pid then { entry with exitcode := exitcode, hasExited := true } :: rest
      else entry :: pidlistExit pid exitcode rest

variable {l : List PidEntry} {entry : PidEntry}

theorem pidlistFind_mem (hfind : pidlistFind pid l = some entry) : entry ∈ l ∧ entry.pid = pid := by
  induction l with
  | nil => cases hfind
  | cons first rest ih =>
      rw [pidlistFind] at hfind
      split at hfind
      case isTrue heq =>
        cases hfind
        exact ⟨.head _, heq.symm⟩
      case isFalse =>
        obtain ⟨hmem, hpid⟩ := ih hfind
        exact ⟨.tail _ hmem, hpid⟩

theorem pidlistFind_of_mem (hnodup : (l.map PidEntry.pid).Nodup) (hmem : entry ∈ l) :
    pidlistFind entry.pid l = some entry := by
  induction l with
  | nil => cases hmem
  | cons first rest ih =>
      rw [List.map_cons, List.nodup_cons] at hnodup
      rw [pidlistFind]
      cases hmem with
      | head => exact if_pos rfl
      | tail _ hrest =>
          have hne : entry.pid ≠ first.pid := by
            intro heq
            exact hnodup.1 (heq ▸ List.mem_map_of_mem hrest)
          rw [if_neg hne]
          exact ih hnodup.2 hrest

theorem pidlistExit_pids (pid : Nat) (exitcode : Int) (l : List PidEntry) :
    (pidlistExit pid exitcode l).map PidEntry.pid = l.map PidEntry.pid := by
  induction l with
  | nil => rfl
  | cons first rest ih =>
      rw [pidlistExit]
      split
      · rfl
      · rw [List.map_cons, List.map_cons, ih]

theorem pidlistFind_exit_of_ne (hne : pid ≠ other) (exitcode : Int) (l : List PidEntry) :
    pidlistFind other (pidlistExit pid exitcode l) = pidlistFind other l := by
  induction l with
  | nil => rfl
  | cons first rest ih =>
      rw [pidlistExit]
      split
      case isTrue heq =>
        have hother : ¬ other = first.pid := fun h => hne (heq.trans h.symm)
        rw [pidlistFind, pidlistFind, if_neg hother, if_neg hother]
      case isFalse => rw [pidlistFind, pidlistFind, ih]

theorem pidlistFind_exit_self (pid : Nat) (exitcode : Int) (l : List PidEntry) :
    pidlistFind pid (pidlistExit pid exitcode l) =
      (pidlistFind pid l).map fun entry => { entry with exitcode := exitcode, hasExited := true } := by
  induction l with
  | nil => rfl
  | cons first rest ih =>
      rw [pidlistExit, pidlistFind]
      split
      case isTrue heq => exact if_pos heq
      case isFalse hne => rw [pidlistFind, if_neg hne, ih]

/-- An entry of the list after an exit. -/
theorem mem_pidlistExit (hnodup : (l.map PidEntry.pid).Nodup)
    (hmem : entry ∈ pidlistExit pid exitcode l) :
    entry.pid ≠ pid ∧ entry ∈ l ∨
      entry.pid = pid ∧ entry.hasExited = true ∧ entry.exitcode = exitcode := by
  have hnodup' : ((pidlistExit pid exitcode l).map PidEntry.pid).Nodup := by
    rw [pidlistExit_pids]
    exact hnodup
  have hfind := pidlistFind_of_mem hnodup' hmem
  by_cases hpid : entry.pid = pid
  · rw [hpid, pidlistFind_exit_self] at hfind
    obtain ⟨before, -, rfl⟩ := Option.map_eq_some_iff.mp hfind
    exact .inr ⟨hpid, rfl, rfl⟩
  · rw [pidlistFind_exit_of_ne fun h => hpid h.symm] at hfind
    exact .inl ⟨hpid, (pidlistFind_mem hfind).1⟩

/-- An exit leaves the entries of the others alone. -/
theorem mem_pidlistExit_of_ne (hnodup : (l.map PidEntry.pid).Nodup) (hmem : entry ∈ l)
    (hne : entry.pid ≠ pid) : entry ∈ pidlistExit pid exitcode l := by
  have hfind := pidlistFind_of_mem hnodup hmem
  rw [← pidlistFind_exit_of_ne (Ne.symm hne) exitcode] at hfind
  exact (pidlistFind_mem hfind).1

theorem exists_mem_pidlistExit (hnodup : (l.map PidEntry.pid).Nodup)
    (hpid : pid ∈ l.map PidEntry.pid) (exitcode : Int) :
    ∃ entry ∈ pidlistExit pid exitcode l,
      entry.pid = pid ∧ entry.hasExited = true ∧ entry.exitcode = exitcode := by
  obtain ⟨before, hmem, rfl⟩ := List.mem_map.mp hpid
  have hfind := pidlistFind_exit_self before.pid exitcode l
  rw [pidlistFind_of_mem hnodup hmem] at hfind
  exact ⟨_, (pidlistFind_mem hfind).1, rfl, rfl, rfl⟩

end OS161.Userprog
