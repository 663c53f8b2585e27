import OS161.Data.Seq
import OS161.Vfs.Devices

namespace OS161.Vfs

open OS161.Data
open OS161.Kern

/-! The names that the entries of the table answer to. -/

namespace Knowndev

/-- The device name, the raw name and the volume name. -/
def names (kd : Knowndev) : List CString :=
  kd.kdName :: (kd.kdRawname.toList ++ kd.volname.toList)

theorem mem_names {kd : Knowndev} : name ∈ kd.names ↔
    kd.kdName = name ∨ kd.kdRawname = some name ∨ kd.volname = some name := by
  rw [names, List.mem_cons, List.mem_append, Option.mem_toList, Option.mem_toList]
  exact or_congr_left eq_comm

end Knowndev

/-- No name is a name of two entries. -/
def NamesUnique (knowndevs : Knowndevs) : Prop :=
  ∀ (i j : Nat) (kd kd' : Knowndev), knowndevs[i]? = some kd → knowndevs[j]? = some kd' →
    ∀ name, name ∈ kd.names → name ∈ kd'.names → i = j

variable {knowndevs knowndevs' : Knowndevs}

/-! The answer for a name. -/

inductive DeviceCall where
  | adddev (devname : CString) (dev : Nat) (mountable : Bool) (mem : AddMemory)
  | addfs (devname : CString) (fs : Fs) (mem : AddMemory)
  | mount (devname : CString) (mountfunc : Nat → Except Errno Fs)
  | unmount (devname : CString) (sync unmount : Except Errno Unit)

def DeviceCall.run : DeviceCall → DevOp Unit
  | .adddev devname dev mountable mem => vfsAdddev devname dev mountable mem
  | .addfs devname fs mem => vfsAddfs devname fs mem
  | .mount devname mountfunc => vfsMount devname mountfunc
  | .unmount devname sync result => vfsUnmount devname sync result

/-- A volume that gets mounted has a name that no other entry answers to. -/
def DeviceCall.FreshVolname (knowndevs : Knowndevs) : DeviceCall → Prop
  | .mount devname mountfunc => ∀ place kd dev fs volname,
      findmount knowndevs devname = some place → knowndevs[place]? = some kd →
      kd.kdFs = none → kd.kdDevice = some dev → mountfunc dev = .ok fs →
      fs.fsVolname = some volname →
      ∀ other kd', other ≠ place → knowndevs[other]? = some kd' → volname ∉ kd'.names
  | _ => True

/-- A call that comes back, with or without an error code. -/
inductive DeviceStep : Knowndevs → DeviceCall → Knowndevs → Prop where
  | done {knowndevs knowndevs' : Knowndevs} (hdone : call.run knowndevs = .ok () knowndevs') :
      DeviceStep knowndevs call knowndevs'
  | failed {knowndevs knowndevs' : Knowndevs}
      (hfailed : call.run knowndevs = .error code knowndevs') :
      DeviceStep knowndevs call knowndevs'

/-- A call that meets the condition. -/
def FreshStep (knowndevs knowndevs' : Knowndevs) : Prop :=
  ∃ call, DeviceStep knowndevs call knowndevs' ∧ call.FreshVolname knowndevs

/-! Adding an entry. -/

theorem samestring_iff (a b : Option CString) :
    samestring a b = true ↔ ∃ name, a = some name ∧ b = some name := by
  unfold samestring
  split
  case h_1 a b => simp [eq_comm]
  case h_2 hnone =>
      constructor
      · intro hfalse
        cases hfalse
      · rintro ⟨name, rfl, rfl⟩
        exact absurd rfl (hnone name name rfl)

theorem samestring3_iff (a b c d : Option CString) :
    samestring3 a b c d = true ↔
      ∃ name, a = some name ∧ (b = some name ∨ c = some name ∨ d = some name) := by
  simp only [samestring3, Bool.or_eq_true, samestring_iff]
  constructor
  · rintro ((⟨name, ha, hb⟩ | ⟨name, ha, hc⟩) | ⟨name, ha, hd⟩)
    · exact ⟨name, ha, Or.inl hb⟩
    · exact ⟨name, ha, Or.inr (Or.inl hc)⟩
    · exact ⟨name, ha, Or.inr (Or.inr hd)⟩
  · rintro ⟨name, ha, hb | hc | hd⟩
    · exact Or.inl (Or.inl ⟨name, ha, hb⟩)
    · exact Or.inl (Or.inr ⟨name, ha, hc⟩)
    · exact Or.inr ⟨name, ha, hd⟩

/-- `badnames` finds every name of a new entry that is taken. -/
theorem badnames_eq_true (kd : Knowndev) :
    badnames knowndevs (some kd.kdName) kd.kdRawname kd.volname = true ↔
      ∃ kd' ∈ knowndevs, ∃ name, name ∈ kd'.names ∧ name ∈ kd.names := by
  rw [badnames, List.any_eq_true]
  apply exists_congr
  intro kd'
  apply and_congr_right
  intro _
  simp only [Bool.or_eq_true, samestring3_iff, Knowndev.mem_names, Option.some.injEq]
  constructor
  · rintro ((⟨name, hvol, hnew⟩ | ⟨name, hraw, hnew⟩) | ⟨name, hname, hnew⟩)
    · exact ⟨name, Or.inr (Or.inr hvol), hnew⟩
    · exact ⟨name, Or.inr (Or.inl hraw), hnew⟩
    · exact ⟨name, Or.inl hname, hnew⟩
  · rintro ⟨name, hname | hraw | hvol, hnew⟩
    · exact Or.inr ⟨name, hname, hnew⟩
    · exact Or.inl (Or.inr ⟨name, hraw, hnew⟩)
    · exact Or.inl (Or.inl ⟨name, hvol, hnew⟩)

theorem NamesUnique.append (hunique : NamesUnique knowndevs) {kd : Knowndev}
    (hnew : ∀ kd' ∈ knowndevs, ∀ name, name ∈ kd'.names → name ∉ kd.names) :
    NamesUnique (knowndevs ++ [kd]) := by
  have hplace (i : Nat) (kd' : Knowndev) (hi : (knowndevs ++ [kd])[i]? = some kd') :
      knowndevs[i]? = some kd' ∨ i = knowndevs.length ∧ kd' = kd := by
    by_cases hlt : i < knowndevs.length
    · rw [List.getElem?_append_left hlt] at hi
      exact Or.inl hi
    · rw [List.getElem?_append_right (by omega), List.getElem?_singleton] at hi
      split at hi
      case isTrue hzero =>
          rw [Option.some.injEq] at hi
          exact Or.inr ⟨by omega, hi.symm⟩
      case isFalse => cases hi
  intro i j kd₁ kd₂ hi hj name hname₁ hname₂
  cases hplace i kd₁ hi with
  | inl hold₁ =>
      cases hplace j kd₂ hj with
      | inl hold₂ => exact hunique i j kd₁ kd₂ hold₁ hold₂ name hname₁ hname₂
      | inr hlast₂ =>
          rw [hlast₂.2] at hname₂
          exact absurd hname₂ (hnew kd₁ (List.mem_of_getElem? hold₁) name hname₁)
  | inr hlast₁ =>
      cases hplace j kd₂ hj with
      | inl hold₂ =>
          rw [hlast₁.2] at hname₁
          exact absurd hname₁ (hnew kd₂ (List.mem_of_getElem? hold₂) name hname₂)
      | inr hlast₂ => rw [hlast₁.1, hlast₂.1]

theorem vfsDoadd_unique (hunique : NamesUnique knowndevs) (dname : CString) (mountable : Bool)
    (dev : Option Nat) (fs : Option Fs) (mem : AddMemory) :
    Prog.wp (vfsDoadd dname mountable dev fs mem) (fun _ l => NamesUnique l)
      (fun _ l => NamesUnique l) (fun _ => False) knowndevs := by
  unfold vfsDoadd
  generalize (if mountable = true then some (mkrawname dname) else none) = rawname
  cases mem.kmalloc with
  | none => exact hunique
  | some vnode =>
      simp only [↓Prog.wp_bind, ↓Prog.wp_get, ↓Prog.wp_ite, ↓Prog.wp_fail, ↓Prog.wp_modify]
      split
      case isTrue => exact hunique
      case isFalse hgood =>
      split
      case isTrue => exact hunique
      case isFalse =>
          apply hunique.append
          intro kd' hkd' name hname hnew
          apply hgood
          exact (badnames_eq_true ⟨dname, rawname, dev, vnode, fs⟩).mpr
            ⟨kd', hkd', name, hname, hnew⟩

/-! Another file system on an entry. -/

/-- The entry with another file system on it. -/
def Knowndev.withFs (kd : Knowndev) (fs : Option Fs) : Knowndev := { kd with kdFs := fs }

theorem Knowndev.mem_names_withFs {kd : Knowndev} {fs : Option Fs}
    (hname : name ∈ (kd.withFs fs).names) :
    name ∈ kd.names ∨ fs.bind Fs.fsVolname = some name := by
  rw [mem_names] at hname ⊢
  cases hname with
  | inl hname => exact Or.inl (Or.inl hname)
  | inr hname =>
      cases hname with
      | inl hraw => exact Or.inl (Or.inr (Or.inl hraw))
      | inr hvolname => exact Or.inr hvolname

theorem NamesUnique.withFs (hunique : NamesUnique knowndevs) {place : Nat} {fs : Option Fs}
    (hfresh : ∀ volname, fs.bind Fs.fsVolname = some volname → ∀ other kd', other ≠ place →
      knowndevs[other]? = some kd' → volname ∉ kd'.names) :
    NamesUnique (knowndevs.modify place fun kd => kd.withFs fs) := by
  have hplace (i : Nat) (kd' : Knowndev)
      (hi : (knowndevs.modify place fun kd => kd.withFs fs)[i]? = some kd') :
      ∃ kd, knowndevs[i]? = some kd ∧ ∀ name ∈ kd'.names,
        name ∈ kd.names ∨ i = place ∧ fs.bind Fs.fsVolname = some name := by
    rw [List.getElem?_modify, Option.map_eq_map, Option.map_eq_some_iff] at hi
    obtain ⟨kd, hkd, hi⟩ := hi
    refine ⟨kd, hkd, ?_⟩
    intro name hname
    split at hi
    case isTrue heq =>
        rw [← hi] at hname
        exact (Knowndev.mem_names_withFs hname).imp_right (fun h => ⟨heq.symm, h⟩)
    case isFalse =>
        rw [← hi] at hname
        exact Or.inl hname
  intro i j kd₁' kd₂' hi hj name hname₁ hname₂
  obtain ⟨kd₁, hkd₁, hnames₁⟩ := hplace i kd₁' hi
  obtain ⟨kd₂, hkd₂, hnames₂⟩ := hplace j kd₂' hj
  by_cases heq : i = j
  · exact heq
  · cases hnames₁ name hname₁ with
    | inl hold₁ =>
        cases hnames₂ name hname₂ with
        | inl hold₂ => exact hunique i j kd₁ kd₂ hkd₁ hkd₂ name hold₁ hold₂
        | inr hnew₂ =>
            exact absurd hold₁ (hfresh name hnew₂.2 i kd₁ (hnew₂.1 ▸ heq) hkd₁)
    | inr hnew₁ =>
        cases hnames₂ name hname₂ with
        | inl hold₂ =>
            exact absurd hold₂ (hfresh name hnew₁.2 j kd₂ (hnew₁.1 ▸ Ne.symm heq) hkd₂)
        | inr hnew₂ => rw [hnew₁.1, hnew₂.1]

theorem mountPoint_wp (knowndevs : Knowndevs) (devname : CString) :
    Prog.wp (mountPoint devname)
      (fun r l => l = knowndevs ∧ findmount knowndevs devname = some r.1 ∧
        knowndevs[r.1]? = some r.2)
      (fun _ l => l = knowndevs) (fun _ => True) knowndevs := by
  simp only [mountPoint, ↓Prog.wp_bind, ↓Prog.wp_get]
  split
  case h_1 => rfl
  case h_2 place hplace =>
  split
  case h_1 => trivial
  case h_2 kd hkd => exact ⟨rfl, hplace, hkd⟩

theorem vfsMount_unique (hunique : NamesUnique knowndevs) {devname : CString}
    {mountfunc : Nat → Except Errno Fs}
    (hfresh : (DeviceCall.mount devname mountfunc).FreshVolname knowndevs) :
    Prog.wp (vfsMount devname mountfunc) (fun _ l => NamesUnique l) (fun _ l => NamesUnique l)
      (fun _ => True) knowndevs := by
  simp only [vfsMount, ↓Prog.wp_bind]
  refine Prog.wp_mono (mountPoint_wp knowndevs devname) ?_ ?_ (fun _ h => h)
  · rintro ⟨place, kd⟩ _ ⟨rfl, hplace, hkd⟩
    dsimp only at hplace hkd ⊢
    split
    case h_1 => exact hunique
    case h_2 => trivial
    case h_3 dev hfs hdev =>
    split
    case h_1 => exact hunique
    case h_2 fs hmounted =>
        apply hunique.withFs
        intro volname hvolname
        exact hfresh place kd dev fs volname hplace hkd hfs hdev hmounted hvolname
  · rintro _ _ rfl
    exact hunique

theorem vfsUnmount_unique (hunique : NamesUnique knowndevs) (devname : CString)
    (sync result : Except Errno Unit) :
    Prog.wp (vfsUnmount devname sync result) (fun _ l => NamesUnique l)
      (fun _ l => NamesUnique l) (fun _ => True) knowndevs := by
  simp only [vfsUnmount, ↓Prog.wp_bind]
  refine Prog.wp_mono (mountPoint_wp knowndevs devname) ?_ ?_ (fun _ h => h)
  · rintro ⟨place, kd⟩ _ ⟨rfl, -, -⟩
    dsimp only
    split
    case h_1 => exact hunique
    case h_2 => trivial
    case h_3 =>
    split
    case h_1 => exact hunique
    case h_2 => exact hunique
    case h_3 =>
        apply hunique.withFs
        intro volname hnone
        cases hnone
  · rintro _ _ rfl
    exact hunique

/-- The condition is exact: a volume mounted under a name of another entry makes that
name ambiguous. -/
theorem namesUnique_mount_iff (hunique : NamesUnique knowndevs) {devname : CString}
    {mountfunc : Nat → Except Errno Fs}
    (hmounted : vfsMount devname mountfunc knowndevs = .ok () knowndevs') :
    NamesUnique knowndevs' ↔ (DeviceCall.mount devname mountfunc).FreshVolname knowndevs := by
  constructor
  · intro hunique' place kd dev fs volname hplace hkd hfs hdev hfs' hvolname other kd' hne hkd'
      hname
    have hwritten : knowndevs' = knowndevs.modify place fun kd => kd.withFs (some fs) := by
      have hpoint : mountPoint devname knowndevs = .ok (place, kd) knowndevs := by
        simp only [mountPoint, bind, Prog.andThen, Prog.get, hplace, hkd]
        rfl
      simp only [vfsMount, bind, Prog.andThen, hpoint, hfs, hdev, hfs', setFs, Prog.modify,
        Result.ok.injEq, true_and] at hmounted
      exact hmounted.symm
    have hnew : knowndevs'[place]? = some (kd.withFs (some fs)) := by
      rw [hwritten, List.getElem?_modify_eq, hkd]
      rfl
    have hold : knowndevs'[other]? = some kd' := by
      rw [hwritten, List.getElem?_modify_ne _ _ (Ne.symm hne), hkd']
    apply hne
    refine hunique' other place kd' _ hold hnew volname hname ?_
    rw [Knowndev.mem_names]
    exact Or.inr (Or.inr hvolname)
  · intro hfresh
    exact (vfsMount_unique hunique hfresh).post_of_ok hmounted

/-! Runs. -/

theorem DeviceCall.keeps_unique (hunique : NamesUnique knowndevs) (call : DeviceCall)
    (hfresh : call.FreshVolname knowndevs) :
    Prog.wp call.run (fun _ l => NamesUnique l) (fun _ l => NamesUnique l) (fun _ => True)
      knowndevs := by
  cases call with
  | adddev devname dev mountable mem =>
      exact Prog.wp_mono (vfsDoadd_unique hunique _ _ _ _ _) (fun _ _ h => h) (fun _ _ h => h)
        (fun _ h => h.elim)
  | addfs devname fs mem =>
      exact Prog.wp_mono (vfsDoadd_unique hunique _ _ _ _ _) (fun _ _ h => h) (fun _ _ h => h)
        (fun _ h => h.elim)
  | mount devname mountfunc => exact vfsMount_unique hunique hfresh
  | unmount devname sync result => exact vfsUnmount_unique hunique devname sync result

theorem FreshStep.unique (hstep : FreshStep knowndevs knowndevs')
    (hunique : NamesUnique knowndevs) : NamesUnique knowndevs' := by
  obtain ⟨call, hstep, hfresh⟩ := hstep
  cases hstep with
  | done hdone => exact (call.keeps_unique hunique hfresh).post_of_ok hdone
  | failed hfailed => exact (call.keeps_unique hunique hfresh).fails_of_error hfailed

end OS161.Vfs
