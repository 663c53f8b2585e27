import Mathlib.Data.List.TakeWhile
import OS161.Libc.Strings
import OS161.Vfs.References

namespace OS161.Vfs

open OS161.Data
open OS161.Kern
open OS161.Libc

/-! How `getdevice` cuts a path, and the vnode that the rest of it starts from. -/

variable {σ : Type} {ops : VnodeOps σ}

/-- Where the lookup of a path starts. -/
inductive Start where
  | device (dev : CString)
  | bootfs
  | filesystem
  | curdir
  deriving DecidableEq, Repr

/-- The start that a path names, and what is left of it. -/
inductive Splits : CString → Start → CString → Prop
  | device (hdev : dev ≠ []) (hcolon : colon ∉ dev) (hslash : slash ∉ dev)
      (hrest : rest.head? ≠ some slash) :
      Splits (dev ++ colon :: (List.replicate k slash ++ rest)) (.device dev) rest
  | bootfs (hrest : rest.head? ≠ some slash) :
      Splits (slash :: (List.replicate k slash ++ rest)) .bootfs rest
  | filesystem (hrest : rest.head? ≠ some slash) :
      Splits (colon :: (List.replicate k slash ++ rest)) .filesystem rest
  | curdir (hcolon : colon ∉ name) (hslash : slash ∉ name)
      (htail : tail = [] ∨ name ≠ [] ∧ tail.head? = some slash) :
      Splits (name ++ tail) .curdir (name ++ tail)

/-! Every path is cut in one way. -/

/-- The characters that the search for the first colon or slash passes. -/
def isPlain (c : Byte) : Bool := c ≠ colon && c ≠ slash

theorem isPlain_iff : isPlain c = true ↔ c ≠ colon ∧ c ≠ slash := by
  rw [isPlain, Bool.and_eq_true, decide_eq_true_eq, decide_eq_true_eq]

theorem all_plain {name : CString} (hcolon : colon ∉ name) (hslash : slash ∉ name) :
    ∀ c ∈ name, isPlain c = true := by
  intro c hc
  rw [isPlain_iff]
  refine ⟨?_, ?_⟩
  · rintro rfl
    exact hcolon hc
  · rintro rfl
    exact hslash hc

theorem dropWhile_slashes (hrest : rest.head? ≠ some slash) (k : Nat) :
    (List.replicate k slash ++ rest).dropWhile (· = slash) = rest := by
  rw [List.dropWhile_append_of_pos]
  · cases rest with
    | nil => rfl
    | cons c rest =>
        have hne : ¬ c = slash := by simpa using hrest
        rw [List.dropWhile_cons, if_neg (by simpa using hne)]
  · intro c hc
    simpa using List.eq_of_mem_replicate hc

theorem exists_slashes (s : CString) :
    ∃ k rest, s = List.replicate k slash ++ rest ∧ rest.head? ≠ some slash := by
  induction s with
  | nil => exact ⟨0, [], rfl, by simp⟩
  | cons c s ih =>
      by_cases hslash : c = slash
      · obtain ⟨k, rest, rfl, hrest⟩ := ih
        exact ⟨k + 1, rest, by rw [hslash]; rfl, hrest⟩
      · exact ⟨0, c :: s, rfl, by simpa using hslash⟩

theorem exists_splits (s : CString) : ∃ start subpath, Splits s start subpath := by
  have hplain : ∀ c ∈ s.takeWhile isPlain, isPlain c = true :=
    fun c hc => List.mem_takeWhile_imp hc
  have hcolon : colon ∉ s.takeWhile isPlain := fun hc => (isPlain_iff.mp (hplain _ hc)).1 rfl
  have hslash : slash ∉ s.takeWhile isPlain := fun hc => (isPlain_iff.mp (hplain _ hc)).2 rfl
  have hwhole : s.takeWhile isPlain ++ s.dropWhile isPlain = s := List.takeWhile_append_dropWhile
  cases htail : s.dropWhile isPlain with
  | nil =>
      rw [htail] at hwhole
      exact ⟨_, _, hwhole ▸ Splits.curdir hcolon hslash (Or.inl rfl)⟩
  | cons c tail =>
      have hstop : isPlain c = false := by
        have hhead := List.head?_dropWhile_not isPlain s
        rw [htail] at hhead
        simpa using hhead
      rw [htail] at hwhole
      obtain ⟨k, rest, rfl, hrest⟩ := exists_slashes tail
      by_cases hc : c = colon
      · subst hc
        by_cases hdev : s.takeWhile isPlain = []
        · rw [hdev, List.nil_append] at hwhole
          exact ⟨_, _, hwhole ▸ Splits.filesystem hrest⟩
        · exact ⟨_, _, hwhole ▸ Splits.device hdev hcolon hslash hrest⟩
      · have hc : c = slash := by
          by_contra hother
          rw [isPlain_iff.mpr ⟨hc, hother⟩] at hstop
          cases hstop
        subst hc
        by_cases hname : s.takeWhile isPlain = []
        · rw [hname, List.nil_append] at hwhole
          exact ⟨_, _, hwhole ▸ Splits.bootfs hrest⟩
        · exact ⟨_, _, hwhole ▸ Splits.curdir hcolon hslash (Or.inr ⟨hname, rfl⟩)⟩

/-! The path as the string in memory that the code cuts. -/

/-- A call on the state of the VFS layer, behind the memory that the path is in. -/
def onVfs (body : Op σ α) : Prog Errno Fault (Bytes × VfsState σ) α :=
  Prog.zoom Prod.snd (fun st vfs => (st.1, vfs)) body

/-- `getdevice` on the characters at `path`: the place of the subpath, and the vnode.
There is no answer where a loop over the path never ends. -/
def getdeviceIn (ops : VnodeOps σ) (path : Nat) (mem : Bytes) :
    Option (Prog Errno Fault (Bytes × VfsState σ) (Nat × VnodeId)) := do
  let first ← scan (fun c => c ≠ 0 && isPlain c) mem (2 ^ 32) path
  if mem first ≠ colon ∧ ¬ (mem first = slash ∧ first = path) then
    some do
      let startvn ← onVfs vfsGetcurdir
      pure (path, startvn)
  else if first ≠ path then do
    -- The colon becomes the end of the device name.
    let cut := Function.update mem first 0
    let subpath ← scan (· = slash) cut (2 ^ 32) ((first + 1) % 2 ^ 32)
    some do
      Prog.modify fun st => (cut, st.2)
      let startvn ← onVfs (vfsGetroot ops (readString cut (2 ^ 32) path))
      pure (subpath, startvn)
  else do
    let subpath ← scan (· = slash) mem (2 ^ 32) ((path + 1) % 2 ^ 32)
    some do
      let startvn ← onVfs (rootOf ops (mem path))
      pure (subpath, startvn)

/-- The call that finds the vnode. -/
def Start.vnode (ops : VnodeOps σ) : Start → Op σ VnodeId
  | .device dev => vfsGetroot ops dev
  | .bootfs => rootOf ops slash
  | .filesystem => rootOf ops colon
  | .curdir => vfsGetcurdir

/-- The memory afterwards: only the colon behind a device name is written over. -/
def Start.cut (mem : Bytes) (path : Nat) : Start → Bytes
  | .device dev => Function.update mem (path + dev.length) 0
  | _ => mem

/-- The call for the vnode alone, with the place of the subpath. -/
def Start.found (ops : VnodeOps σ) (start : Start) (subpath : Nat) :
    Prog Errno Fault (Bytes × VfsState σ) (Nat × VnodeId) := do
  let startvn ← onVfs (start.vnode ops)
  pure (subpath, startvn)

section Memory

variable {mem : Bytes} {path : Nat} {s : CString}

/-- The search ends at the first colon or slash, or at the end of the string. -/
theorem scan_plain (name : CString) {tail : CString} (hstring : StringAt mem path (name ++ tail))
    (hfits : path + (name ++ tail).length < 2 ^ 32) (hcolon : colon ∉ name)
    (hslash : slash ∉ name) (htail : ∀ c ∈ tail.head?, isPlain c = false) :
    scan (fun c => c ≠ 0 && isPlain c) mem (2 ^ 32) path = some (path + name.length) := by
  have hplain := all_plain hcolon hslash
  rw [List.length_append] at hfits
  refine scan_stops (Nat.le_add_right _ _) (by omega) (by omega) ?_ ?_
  · intro k hk hlt
    obtain ⟨i, rfl⟩ : ∃ i, k = path + i := ⟨k - path, by omega⟩
    have hi : i < name.length := by omega
    have hmem : name[i] ∈ name := List.getElem_mem hi
    have hnonul : name[i] ≠ 0 := by
      intro hzero
      exact hstring.noNul (List.mem_append_left _ (hzero ▸ hmem))
    rw [hstring.text i (by rw [List.length_append]; omega), List.getD_append _ _ _ _ hi,
      List.getD_eq_getElem _ _ hi, hplain _ hmem, Bool.and_true]
    exact decide_eq_true hnonul
  · rw [hstring.text _ (by rw [List.length_append]; omega),
      List.getD_append_right _ _ _ _ (Nat.le_refl _), Nat.sub_self]
    cases tail with
    | nil => rfl
    | cons c tail =>
        show (decide (c ≠ 0) && isPlain c) = false
        rw [htail c rfl, Bool.and_false]

/-- The slashes are skipped, and nothing else. -/
theorem scan_slashes (htext : ∀ i, i ≤ k + rest.length →
      mem (path + i) = (List.replicate k slash ++ rest).getD i 0)
    (hfits : path + (k + rest.length) < 2 ^ 32) (hrest : rest.head? ≠ some slash) :
    scan (· = slash) mem (2 ^ 32) path = some (path + k) := by
  refine scan_stops (Nat.le_add_right _ _) (by omega) (by omega) ?_ ?_
  · intro j hj hlt
    obtain ⟨i, rfl⟩ : ∃ i, j = path + i := ⟨j - path, by omega⟩
    have hi : i < (List.replicate k slash).length := by
      rw [List.length_replicate]
      omega
    rw [htext i (by omega), List.getD_append _ _ _ _ hi, List.getD_eq_getElem _ _ hi,
      List.getElem_replicate]
    rfl
  · rw [htext k (by omega), List.getD_append_right _ _ _ _ (by simp), List.length_replicate,
      Nat.sub_self]
    cases rest with
    | nil => rfl
    | cons c rest => simpa using hrest

theorem text_behind (name : CString) {tail : CString} (hstring : StringAt mem path (name ++ c :: tail))
    (hi : i ≤ tail.length) : mem (path + name.length + 1 + i) = tail.getD i 0 := by
  have htext := hstring.text (name.length + (i + 1))
    (by rw [List.length_append, List.length_cons]; omega)
  rw [List.getD_append_right _ _ _ _ (by omega), Nat.add_sub_cancel_left,
    List.getD_cons_succ] at htext
  rw [← htext]
  congr 1
  omega

theorem text_at (name : CString) {tail : CString} (hstring : StringAt mem path (name ++ c :: tail)) :
    mem (path + name.length) = c := by
  have htext := hstring.text name.length (by rw [List.length_append]; omega)
  rw [List.getD_append_right _ _ _ _ (Nat.le_refl _), Nat.sub_self] at htext
  exact htext

/-- The NUL over the colon ends the device name. -/
theorem StringAt_name {name tail : CString} (hstring : StringAt mem path (name ++ c :: tail)) :
    StringAt (Function.update mem (path + name.length) 0) path name := by
  refine ⟨?_, fun hzero => hstring.noNul (List.mem_append_left _ hzero)⟩
  intro i hi
  rcases Nat.lt_or_ge i name.length with hlt | hge
  · rw [Function.update_of_ne (by omega), hstring.text i (by rw [List.length_append]; omega),
      List.getD_append _ _ _ _ hlt]
  · obtain rfl : i = name.length := by omega
    rw [Function.update_self, List.getD_eq_default _ _ hge]

/-- A path whose first character is a colon or a slash. -/
theorem getdeviceIn_root (hc : isPlain c = false) (hrest : rest.head? ≠ some slash)
    (hstring : StringAt mem path (c :: (List.replicate k slash ++ rest)))
    (hfits : path + (k + rest.length + 1) < 2 ^ 32) :
    getdeviceIn ops path mem = some (do
      let startvn ← onVfs (rootOf ops c)
      pure (path + 1 + k, startvn)) := by
  have hfirst := scan_plain [] hstring (by simpa using hfits) (by simp) (by simp)
    (by simpa using hc)
  have hmark : mem path = c := text_at [] hstring
  have hslashes : scan (· = slash) mem (2 ^ 32) (path + 1) = some (path + 1 + k) := by
    refine scan_slashes ?_ (by omega) hrest
    intro i hi
    exact text_behind [] hstring
      (by rw [List.length_append, List.length_replicate]; exact hi)
  rw [List.length_nil, Nat.add_zero] at hfirst
  simp only [getdeviceIn, hfirst, Option.bind_eq_bind, Option.bind_some, hmark]
  rw [if_neg, if_neg (by simp), Nat.mod_eq_of_lt (by omega), hslashes]
  · rfl
  · rintro ⟨hcolon, hslash⟩
    have hplain : isPlain c = true := isPlain_iff.mpr ⟨hcolon, fun h => hslash ⟨h, trivial⟩⟩
    rw [hc] at hplain
    cases hplain

/-- The code cuts the string as the path splits, and finds the vnode on the memory that
it leaves. -/
theorem getdeviceIn_of_splits (ops : VnodeOps σ) (hstring : StringAt mem path s) (hfits : path + s.length < 2 ^ 32)
    (hsplits : Splits s start subpath) :
    ∃ call, getdeviceIn ops path mem = some call ∧ ∀ vfs,
      call (mem, vfs) =
        start.found ops (path + (s.length - subpath.length)) (start.cut mem path, vfs) := by
  cases hsplits with
  | @device dev k _ hdev hcolon hslash hrest =>
      have hfirst := scan_plain _ hstring hfits hcolon hslash (by simp [isPlain])
      have hmark := text_at _ hstring
      have hpos := List.length_pos_iff.mpr hdev
      have hname := StringAt_name hstring
      simp only [List.length_append, List.length_cons, List.length_replicate] at hfits ⊢
      have hslashes : scan (· = slash) (Function.update mem (path + dev.length) 0) (2 ^ 32)
          (path + dev.length + 1) = some (path + dev.length + 1 + k) := by
        refine scan_slashes ?_ (by omega) hrest
        intro i hi
        rw [Function.update_of_ne (by omega)]
        exact text_behind _ hstring (by rw [List.length_append, List.length_replicate]; exact hi)
      have hread := hname.readString (by omega) (by omega : dev.length < 2 ^ 32)
      refine ⟨do
        Prog.modify fun st => (Function.update mem (path + dev.length) 0, st.2)
        let startvn ← onVfs (vfsGetroot ops dev)
        pure (path + dev.length + 1 + k, startvn), ?_, ?_⟩
      · simp only [getdeviceIn, hfirst, Option.bind_eq_bind, Option.bind_some, hmark]
        rw [if_neg (by simp), if_pos (by omega), Nat.mod_eq_of_lt (by omega), hslashes, hread]
        rfl
      · intro vfs
        rw [show path + (dev.length + (k + subpath.length + 1) - subpath.length) =
          path + dev.length + 1 + k by omega]
        rfl
  | @bootfs k _ hrest =>
      simp only [List.length_cons, List.length_append, List.length_replicate] at hfits ⊢
      refine ⟨_, getdeviceIn_root (by simp [isPlain]) hrest hstring hfits, fun vfs => ?_⟩
      rw [show path + (k + subpath.length + 1 - subpath.length) = path + 1 + k by omega]
      rfl
  | @filesystem k _ hrest =>
      simp only [List.length_cons, List.length_append, List.length_replicate] at hfits ⊢
      refine ⟨_, getdeviceIn_root (by simp [isPlain]) hrest hstring hfits, fun vfs => ?_⟩
      rw [show path + (k + subpath.length + 1 - subpath.length) = path + 1 + k by omega]
      rfl
  | @curdir name tail hcolon hslash htail =>
      have hplain : ∀ c ∈ tail.head?, isPlain c = false := by
        intro c hc
        rcases htail with rfl | ⟨-, hhead⟩
        · cases hc
        · rw [hhead] at hc
          cases hc
          simp [isPlain]
      have hfirst := scan_plain _ hstring hfits hcolon hslash hplain
      have hstop : mem (path + name.length) ≠ colon ∧
          ¬ (mem (path + name.length) = slash ∧ path + name.length = path) := by
        rcases htail with rfl | ⟨hname, hhead⟩
        · have hnul : mem (path + name.length) = 0 := by
            rw [hstring.text _ (by simp), List.append_nil, List.getD_eq_default _ _ (Nat.le_refl _)]
          rw [hnul]
          exact ⟨by decide, fun h => absurd h.1 (by decide)⟩
        · obtain ⟨tail, rfl⟩ := List.head?_eq_some_iff.mp hhead
          rw [text_at _ hstring]
          have hpos := List.length_pos_iff.mpr hname
          exact ⟨by decide, fun h => by omega⟩
      rw [Nat.sub_self, Nat.add_zero]
      refine ⟨_, ?_, fun vfs => rfl⟩
      simp only [getdeviceIn, hfirst, Option.bind_eq_bind, Option.bind_some]
      rw [if_pos hstop]
      rfl

end Memory

/-! The same of the path as a list of characters. -/

theorem findIdx_plain {name : CString} (hcolon : colon ∉ name) (hslash : slash ∉ name) :
    name.findIdx? (fun c => c = colon || c = slash) = none := by
  rw [List.findIdx?_eq_none_iff]
  intro c hc
  have hplain := isPlain_iff.mp (all_plain hcolon hslash c hc)
  simp [hplain.1, hplain.2]

theorem findIdx_mark (name tail : CString) (hcolon : colon ∉ name) (hslash : slash ∉ name)
    (hc : c = colon ∨ c = slash) :
    (name ++ c :: tail).findIdx? (fun c => c = colon || c = slash) = some name.length := by
  rw [List.findIdx?_append, findIdx_plain hcolon hslash, List.findIdx?_cons,
    if_pos (by simpa using hc)]
  simp

theorem getdevice_of_splits (hsplits : Splits s start subpath) :
    getdevice ops s = start.vnode ops >>= fun startvn => pure (subpath, startvn) := by
  cases hsplits with
  | @device dev k _ hdev hcolon hslash hrest =>
      have hfirst := findIdx_mark dev (List.replicate k slash ++ subpath) hcolon hslash
        (Or.inl rfl)
      obtain ⟨n, hn⟩ : ∃ n, dev.length = n + 1 :=
        ⟨dev.length - 1, by have := List.length_pos_iff.mpr hdev; omega⟩
      rw [hn] at hfirst
      have hmark : (dev ++ colon :: (List.replicate k slash ++ subpath))[n + 1]? = some colon := by
        rw [List.getElem?_append_right (by omega), hn, Nat.sub_self]
        rfl
      have htake : (dev ++ colon :: (List.replicate k slash ++ subpath)).take (n + 1) = dev := by
        rw [← hn, List.take_left]
      have hdrop : (dev ++ colon :: (List.replicate k slash ++ subpath)).drop (n + 2) =
          List.replicate k slash ++ subpath := by
        rw [List.drop_append, hn, List.drop_eq_nil_of_le (by omega),
          show n + 2 - (n + 1) = 1 by omega]
        rfl
      unfold getdevice
      rw [hfirst]
      simp only [hmark, if_true, htake, hdrop, dropWhile_slashes hrest]
      rfl
  | @bootfs k _ hrest =>
      have hfirst := findIdx_mark [] (List.replicate k slash ++ subpath)
        (by simp) (by simp) (Or.inr rfl : slash = colon ∨ slash = slash)
      rw [List.nil_append] at hfirst
      unfold getdevice
      rw [hfirst]
      simp only [List.length_nil, dropWhile_slashes hrest]
      rfl
  | @filesystem k _ hrest =>
      have hfirst := findIdx_mark [] (List.replicate k slash ++ subpath)
        (by simp) (by simp) (Or.inl rfl : colon = colon ∨ colon = slash)
      rw [List.nil_append] at hfirst
      unfold getdevice
      rw [hfirst]
      simp only [List.length_nil, dropWhile_slashes hrest]
      rfl
  | @curdir name tail hcolon hslash htail =>
      unfold getdevice
      rcases htail with rfl | ⟨hname, hhead⟩
      · rw [List.append_nil, findIdx_plain hcolon hslash]
        rfl
      · obtain ⟨tail, rfl⟩ := List.head?_eq_some_iff.mp hhead
        have hfirst := findIdx_mark name tail hcolon hslash (Or.inr rfl)
        obtain ⟨n, hn⟩ : ∃ n, name.length = n + 1 :=
          ⟨name.length - 1, by have := List.length_pos_iff.mpr hname; omega⟩
        rw [hn] at hfirst
        have hmark : (name ++ slash :: tail)[n + 1]? = some slash := by
          rw [List.getElem?_append_right (by omega), hn, Nat.sub_self]
          rfl
        rw [hfirst]
        simp only [hmark]
        rw [if_neg (by decide)]
        rfl

/-- The code hands back the place of what `getdevice` hands back, and runs the same call. -/
theorem getdeviceIn_refines (hstring : StringAt mem path s) (hfits : path + s.length < 2 ^ 32) :
    ∃ call, ∃ start : Start, ∃ subpath, getdeviceIn ops path mem = some call ∧
      (∀ vfs, call (mem, vfs) =
        start.found ops (path + (s.length - subpath.length)) (start.cut mem path, vfs)) ∧
      getdevice ops s = start.vnode ops >>= fun startvn => pure (subpath, startvn) := by
  obtain ⟨start, subpath, hsplits⟩ := exists_splits s
  obtain ⟨call, hcall, hruns⟩ := getdeviceIn_of_splits ops hstring hfits hsplits
  exact ⟨call, start, subpath, hcall, hruns, getdevice_of_splits hsplits⟩

/-! The vnode that is chosen, and the reference to it. -/

/-- What the tables and pointers of the VFS layer say about a start. -/
def Start.answer (vfs : VfsState σ) : Start → Answer
  | .device dev => getrootAnswer vfs.knowndevs dev
  | .bootfs => vfs.bootfsVnode.elim (.fails .ENOENT) .device
  | .filesystem => vfs.tCwd.elim (.fails .ENOENT) fun cwd =>
      (vfs.vnFs cwd).elim (.stops .getdeviceFs) .root
  | .curdir => vfs.tCwd.elim (.fails .ENOENT) .device

/-- The vnode is the one answered, or what the file system answered gives as its root. -/
def Answer.Gives (ops : VnodeOps σ) (vn : VnodeId) : Answer → Prop
  | .root fs => ∃ vfs vfs', ops.fsopGetroot fs vfs = .ok vn vfs'
  | .device vnode => vn = vnode
  | .fails _ => False
  | .stops _ => False

/-- The machine stops as answered, or in the file system. -/
def Answer.Stops (reason : Fault) : Answer → Prop
  | .root _ => True
  | .device _ => False
  | .fails _ => False
  | .stops reason' => reason = reason'

/-- One reference to the vnode, and no other, was handed out. -/
structure Handed (vfs vfs' : VfsState σ) (vn : VnodeId) : Prop where
  lent : lent vfs' = lent vfs + reference vn
  stored : stored vfs' = stored vfs
  counts : (∀ cwd ∈ vfs.tCwd, 0 < vfs.vnRefcount cwd) →
    refcounts vfs' = refcounts vfs + reference vn

theorem Handed.of_same (hsame : SameBooks vfs vfs')
    (hcounts : refcounts vfs' = refcounts vfs + reference vn) : Handed vfs vfs' vn :=
  ⟨lent_congr hsame hcounts, stored_congr hsame, fun _ => hcounts⟩

/-- How the call for the vnode of a start ends. -/
def Finds (ops : VnodeOps σ) (start : Start) (vfs : VfsState σ) (call : Op σ VnodeId) : Prop :=
  call.wp (fun vn vfs' => (start.answer vfs).Gives ops vn ∧ Handed vfs vfs' vn)
    (fun code vfs' => start.answer vfs = .fails code ∧ vfs' = vfs)
    (fun reason => (start.answer vfs).Stops reason) vfs

end OS161.Vfs
