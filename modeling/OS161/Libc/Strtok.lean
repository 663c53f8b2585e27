import OS161.Libc.Strings

namespace OS161.Libc

open OS161.Data

/-! `strtok_r.c`: a string cut into words, one a call. -/

/-- The memory, and the `*context` of the caller; a `NULL` pointer is 0. -/
structure Tokenizer where
  context : Nat
  mem : Bytes

/-- `*head && strchr(seps, *head)`. -/
def skipped (seps : List Byte) (c : Byte) : Bool := c ≠ 0 && (strchr seps c).isSome

/-- `*tail && !strchr(seps, *tail)`. -/
def kept (seps : List Byte) (c : Byte) : Bool := c ≠ 0 && (strchr seps c).isNone

theorem skipped_nul (seps : List Byte) : skipped seps 0 = false := rfl

theorem kept_nul (seps : List Byte) : kept seps 0 = false := rfl

theorem skipped_iff_mem (seps : List Byte) (hc : c ≠ 0) : skipped seps c = true ↔ c ∈ seps := by
  rw [skipped, Bool.and_eq_true, decide_eq_true_eq, strchr_isSome seps hc]
  exact and_iff_right hc

theorem kept_iff_not_mem (seps : List Byte) (hc : c ≠ 0) : kept seps c = true ↔ c ∉ seps := by
  rw [kept, Bool.and_eq_true, decide_eq_true_eq, ← strchr_isSome seps hc]
  cases strchr seps c with
  | none => simpa using hc
  | some place => simp

/-- The word of a call, where its loops end. -/
def strtokR (string : Nat) (seps : List Byte) (t : Tokenizer) : Option (Nat × Tokenizer) :=
  let context := if string ≠ 0 then string else t.context
  if context = 0 then some (0, { t with context := 0 })
  else do
    let head ← scan (skipped seps) t.mem (2 ^ 32) context
    if t.mem head = 0 then some (0, { t with context := 0 })
    else do
      let tail ← scan (kept seps) t.mem (2 ^ 32) head
      if t.mem tail = 0 then some (head, { t with context := 0 })
      else
        some (head, { context := (tail + 1) % 2 ^ 32, mem := Function.update t.mem tail 0 })

/-- Call number `n`, from 0 on: the first one gets the string, the others `NULL`. -/
def callNumber (string : Nat) (seps : List Byte) (t : Tokenizer) :
    (n : Nat) → Option (Nat × Tokenizer)
  | 0 => strtokR string seps t
  | n + 1 => (callNumber string seps t n).bind fun r => strtokR 0 seps r.2

theorem callNumber_succ (string : Nat) (seps : List Byte) (t : Tokenizer) (n : Nat) :
    callNumber string seps t (n + 1) =
      (strtokR string seps t).bind fun r => callNumber 0 seps r.2 n := by
  induction n with
  | zero => rfl
  | succ n ih =>
      rw [callNumber, ih, Option.bind_assoc]
      rfl

/-! The words of a string. -/

variable {seps s : List Byte}

def IsSep (seps s : List Byte) (k : Nat) : Prop := ∃ c, s[k]? = some c ∧ c ∈ seps

/-- The characters from `i` up to `j` are a run without separators, and no longer one. -/
structure IsWord (seps s : List Byte) (i j : Nat) : Prop where
  nonempty : i < j
  bound : j ≤ s.length
  inside : ∀ k, i ≤ k → k < j → ¬ IsSep seps s k
  starts : i = 0 ∨ IsSep seps s (i - 1)
  ends : j = s.length ∨ IsSep seps s j

theorem IsSep.lt (hsep : IsSep seps s k) : k < s.length := by
  obtain ⟨c, hc, _⟩ := hsep
  exact (List.getElem?_eq_some_iff.mp hc).1

/-- Words that start in a stretch from the start of one to its end are that word. -/
theorem IsWord.unique (hword : IsWord seps s i j) (hother : IsWord seps s i' j')
    (hle : i ≤ i') (hge : i' ≤ j) : i' = i ∧ j' = j := by
  have hsame : i' = i := by
    by_contra hne
    have hbefore : IsSep seps s (i' - 1) := by
      rcases hother.starts with hzero | hsep
      · omega
      · exact hsep
    exact hword.inside (i' - 1) (by omega) (by omega) hbefore
  subst hsame
  refine ⟨rfl, ?_⟩
  rcases Nat.lt_trichotomy j j' with hlt | heq | hgt
  · rcases hword.ends with hend | hsep
    · have hbound := hother.bound
      omega
    · exact absurd hsep (hother.inside j hge hlt)
  · exact heq.symm
  · rcases hother.ends with hend | hsep
    · have hbound := hword.bound
      omega
    · exact absurd hsep (hword.inside j' (Nat.le_of_lt hother.nonempty) hgt)


/-! One call. -/

/-- A call goes on from character `k`: nothing from there on was written over. -/
structure Resumes (seps s : List Byte) (p k : Nat) (t : Tokenizer) : Prop where
  context : t.context = p + k
  bound : k ≤ s.length
  boundary : k = 0 ∨ IsSep seps s (k - 1)
  text : ∀ i, k ≤ i → i ≤ s.length → t.mem (p + i) = s.getD i 0

section Call

variable (hnonul : 0 ∉ s)

include hnonul

theorem getD_ne_zero (hi : i < s.length) : s.getD i 0 ≠ 0 := by
  rw [List.getD_eq_getElem _ _ hi]
  intro hzero
  exact hnonul (hzero ▸ List.getElem_mem hi)

theorem skipped_iff (i : Nat) : skipped seps (s.getD i 0) = true ↔ IsSep seps s i := by
  rcases Nat.lt_or_ge i s.length with hlt | hend
  · have hne := getD_ne_zero hnonul hlt
    rw [skipped_iff_mem seps hne, List.getD_eq_getElem _ _ hlt]
    simp [IsSep, List.getElem?_eq_getElem hlt]
  · have hno : ¬ IsSep seps s i := fun hsep => Nat.not_lt_of_le hend hsep.lt
    rw [List.getD_eq_default _ _ hend, skipped_nul]
    simp [hno]

theorem kept_iff (i : Nat) :
    kept seps (s.getD i 0) = true ↔ i < s.length ∧ ¬ IsSep seps s i := by
  rcases Nat.lt_or_ge i s.length with hlt | hend
  · have hne := getD_ne_zero hnonul hlt
    rw [← skipped_iff hnonul i, kept_iff_not_mem seps hne, skipped_iff_mem seps hne]
    simp [hlt]
  · rw [List.getD_eq_default _ _ hend, kept_nul]
    simp [Nat.not_lt_of_le hend]

variable (hp : 0 < p) (hfits : p + s.length < 2 ^ 32)

include hfits

omit hnonul in
/-- A loop of the call, from one character of the string to another. -/
theorem Resumes.scan {test : Byte → Bool} (h : Resumes seps s p k t) (hki : k ≤ i) (hij : i ≤ j)
    (hj : j ≤ s.length) (hpasses : ∀ q, i ≤ q → q < j → test (s.getD q 0) = true)
    (hstop : test (s.getD j 0) = false) :
    scan test t.mem (2 ^ 32) (p + i) = some (p + j) := by
  apply scan_stops (by omega) (by omega) (by omega)
  · intro a ha haj
    obtain ⟨q, rfl⟩ := Nat.exists_eq_add_of_le (show p ≤ a by omega)
    rw [h.text q (by omega) (by omega)]
    exact hpasses q (by omega) (by omega)
  · rw [h.text j (by omega) hj]
    exact hstop

include hp

/-- Nothing is left, or the first word left is handed out. -/
theorem Resumes.call (h : Resumes seps s p k t) :
    (strtokR 0 seps t = some (0, { t with context := 0 }) ∧
      ∀ i j, IsWord seps s i j → i < k) ∨
    ∃ i j, IsWord seps s i j ∧ k ≤ i ∧
      (∀ i' j', IsWord seps s i' j' → k ≤ i' → i' ≤ j → i' = i ∧ j' = j) ∧
      (j = s.length ∧ strtokR 0 seps t = some (p + i, { t with context := 0 }) ∨
        IsSep seps s j ∧ strtokR 0 seps t =
          some (p + i, { context := p + (j + 1), mem := Function.update t.mem (p + j) 0 })) := by
  have hbound := h.bound
  -- The first loop stops at the first character that is no separator, or at the NUL.
  obtain ⟨i, hki, hi, hseps, hhead⟩ := exists_stop (IsSep seps s) hbound
    (fun hsep => Nat.lt_irrefl _ hsep.lt)
  have hscan := h.scan hfits (Nat.le_refl k) hki hi
    (fun q hq hqi => (skipped_iff hnonul q).mpr (hseps q hq hqi))
    (Bool.eq_false_iff.mpr fun hskip => hhead ((skipped_iff hnonul i).mp hskip))
  have hnone : ∀ i' j', IsWord seps s i' j' → k ≤ i' → ¬ i' < i := by
    intro i' j' hword hle hlt
    exact hword.inside i' (Nat.le_refl i') hword.nonempty (hseps i' hle hlt)
  have htexti := h.text i hki hi
  rcases Nat.lt_or_ge i s.length with hlt | hend
  · right
    obtain ⟨j, hij, hj, hchars, htail⟩ := exists_stop
      (fun q => q < s.length ∧ ¬ IsSep seps s q) hi (fun hq => Nat.lt_irrefl _ hq.1)
    have hstop : j = s.length ∨ IsSep seps s j := by
      by_contra hno
      rw [not_or] at hno
      exact htail ⟨by omega, hno.2⟩
    have hne : i ≠ j := by
      rintro rfl
      exact htail ⟨hlt, hhead⟩
    have hword : IsWord seps s i j := by
      refine ⟨by omega, hj, fun q hq hqj => (hchars q hq hqj).2, ?_, hstop⟩
      rcases Nat.eq_or_lt_of_le hki with rfl | hki
      · exact h.boundary
      · exact Or.inr (hseps (i - 1) (by omega) (by omega))
    have hscan' := h.scan hfits hki hij hj
      (fun q hq hqj => (kept_iff hnonul q).mpr (hchars q hq hqj))
      (Bool.eq_false_iff.mpr fun hkeep => htail ((kept_iff hnonul j).mp hkeep))
    have hhead0 : t.mem (p + i) ≠ 0 := by
      rw [htexti]
      exact getD_ne_zero hnonul hlt
    refine ⟨i, j, hword, hki, ?_, ?_⟩
    · intro i' j' hother hki' hij'
      exact hword.unique hother (Nat.le_of_not_lt (hnone i' j' hother hki')) hij'
    · rcases Nat.lt_or_ge j s.length with hjlt | hjend
      · right
        have hsep : IsSep seps s j := hstop.resolve_left (Nat.ne_of_lt hjlt)
        have htail0 : t.mem (p + j) ≠ 0 := by
          rw [h.text j (by omega) hj]
          exact getD_ne_zero hnonul hjlt
        have hwrap : (p + j + 1) % 2 ^ 32 = p + (j + 1) := Nat.mod_eq_of_lt (by omega)
        refine ⟨hsep, ?_⟩
        simp only [strtokR, ne_eq, not_true_eq_false, if_false, h.context, hscan,
          hscan', Option.bind_eq_bind, Option.bind_some, if_neg hhead0, if_neg htail0, hwrap]
        rw [if_neg (by omega)]
      · left
        have hlast : j = s.length := Nat.le_antisymm hj hjend
        have htail0 : t.mem (p + j) = 0 := by
          rw [h.text j (by omega) hj, List.getD_eq_default _ _ hjend]
        refine ⟨hlast, ?_⟩
        simp only [strtokR, ne_eq, not_true_eq_false, if_false, h.context, hscan,
          hscan', Option.bind_eq_bind, Option.bind_some, if_neg hhead0, htail0, if_true]
        rw [if_neg (by omega)]
  · left
    have hhead0 : t.mem (p + i) = 0 := by
      rw [htexti, List.getD_eq_default _ _ hend]
    constructor
    · simp only [strtokR, ne_eq, not_true_eq_false, if_false, h.context, hscan,
        Option.bind_eq_bind, Option.bind_some, hhead0, if_true]
      rw [if_neg (by omega)]
    · intro i' j' hword
      by_contra hge
      have hfirst := hnone i' j' hword (by omega)
      have hnonempty := hword.nonempty
      have hlast := hword.bound
      omega

end Call

/-! All calls. -/

/-- Every call after the one that found no word. -/
theorem callNumber_done (seps : List Byte) (hdone : t.context = 0) (n : Nat) :
    callNumber 0 seps t n = some (0, t) := by
  have hcall : strtokR 0 seps t = some (0, t) := by
    simp only [strtokR, ne_eq, not_true_eq_false, if_false, hdone, if_true]
    rw [← hdone]
  induction n with
  | zero => exact hcall
  | succ n ih =>
      rw [callNumber, ih]
      exact hcall

/-- What call number `n` hands back and what the memory is then: the words handed out
so far stand in it, and only separators have been written over. -/
structure Delivered (seps s : List Byte) (p : Nat) (words : List (Nat × Nat)) (mem : Bytes)
    (n : Nat) (r : Nat × Tokenizer) : Prop where
  word : r.1 = words[n]?.elim 0 fun w => p + w.1
  standing : ∀ m i j, m ≤ n → words[m]? = some (i, j) →
    StringAt r.2.mem (p + i) ((s.take j).drop i)
  written : ∀ a, r.2.mem a ≠ mem a → r.2.mem a = 0 ∧ ∃ q, IsSep seps s q ∧ a = p + q

/-- A word stands where its characters are in memory and a NUL is after them, and
separators written over with NULs do not change that. -/
theorem IsWord.stringAt {mem mem' : Bytes} (hword : IsWord seps s i j) (hnonul : 0 ∉ s)
    (htext : ∀ q, i ≤ q → q < j → mem (p + q) = s.getD q 0) (hend : mem (p + j) = 0)
    (hwritten : ∀ a, mem' a ≠ mem a → mem' a = 0 ∧ ∃ q, IsSep seps s q ∧ a = p + q) :
    StringAt mem' (p + i) ((s.take j).drop i) := by
  have hbound := hword.bound
  have hnonempty := hword.nonempty
  constructor
  case text =>
    intro m hm
    have hlen : ((s.take j).drop i).length = j - i := by simp; omega
    rw [Nat.add_assoc]
    rcases Nat.lt_or_ge (i + m) j with hin | hlast
    · have hkept : mem' (p + (i + m)) = mem (p + (i + m)) := by
        by_contra hchanged
        obtain ⟨_, q, hsep, hq⟩ := hwritten _ hchanged
        obtain rfl : i + m = q := by omega
        exact hword.inside _ (by omega) hin hsep
      rw [hkept, htext _ (by omega) hin, List.getD_eq_getElem _ _ (by omega),
        List.getD_eq_getElem _ _ (by omega)]
      simp
    · have hm : i + m = j := by omega
      rw [hm, List.getD_eq_default _ _ (by omega)]
      by_contra hne
      rcases eq_or_ne (mem' (p + j)) (mem (p + j)) with hsame | hchanged
      · exact hne (hsame.trans hend)
      · exact hne (hwritten _ hchanged).1
  case noNul =>
    intro hzero
    exact hnonul (List.mem_of_mem_take (List.mem_of_mem_drop hzero))

theorem Delivered.done (seps s : List Byte) (p context : Nat) (mem : Bytes) (n : Nat) :
    Delivered seps s p [] mem n (0, ⟨context, mem⟩) where
  word := rfl
  standing m i j _ hm := by cases hm
  written a hne := absurd rfl hne

/-- Calls that go on from character `k` hand out the words from there on. -/
structure Serves (seps s : List Byte) (p k : Nat) (t : Tokenizer) (words : List (Nat × Nat)) :
    Prop where
  sorted : words.Pairwise fun w w' => w.2 < w'.1
  exact : ∀ i j, (i, j) ∈ words ↔ k ≤ i ∧ IsWord seps s i j
  calls : ∀ n, ∃ r, callNumber 0 seps t n = some r ∧ Delivered seps s p words t.mem n r

theorem Serves.nothing (hcall : strtokR 0 seps t = some (0, { t with context := 0 }))
    (hnone : ∀ i j, IsWord seps s i j → i < k) : Serves seps s p k t [] where
  sorted := List.Pairwise.nil
  exact i j := by
    constructor
    · intro hin
      cases hin
    · intro hword
      exact absurd (hnone i j hword.2) (Nat.not_lt_of_le hword.1)
  calls n := by
    refine ⟨(0, ⟨0, t.mem⟩), ?_, Delivered.done seps s p 0 t.mem n⟩
    cases n with
    | zero => exact hcall
    | succ n =>
        rw [callNumber_succ, hcall]
        exact callNumber_done seps rfl n

section Word

variable (h : Resumes seps s p k t) (hword : IsWord seps s i j) (hki : k ≤ i) (hnonul : 0 ∉ s)
  (hfirst : ∀ i' j', IsWord seps s i' j' → k ≤ i' → i' ≤ j → i' = i ∧ j' = j)

include h hword hki

theorem Resumes.text_word (hiq : i ≤ q) (hqj : q < j) : t.mem (p + q) = s.getD q 0 := by
  have hbound := hword.bound
  exact h.text q (Nat.le_trans hki hiq) (by omega)

include hnonul hfirst

/-- The last word ends where the string does. -/
theorem Serves.last (hlast : j = s.length)
    (hcall : strtokR 0 seps t = some (p + i, { t with context := 0 })) :
    Serves seps s p k t [(i, j)] := by
  have hnonempty := hword.nonempty
  have hend : t.mem (p + j) = 0 := by
    rw [h.text j (by omega) (Nat.le_of_eq hlast),
      List.getD_eq_default _ _ (Nat.le_of_eq hlast.symm)]
  have hstands : StringAt t.mem (p + i) ((s.take j).drop i) :=
    hword.stringAt hnonul (fun q => h.text_word hword hki) hend
      (fun a hne => absurd rfl hne)
  have hstanding : ∀ (m i' j' : Nat), [(i, j)][m]? = some (i', j') →
      StringAt t.mem (p + i') ((s.take j').drop i') := by
    intro m i' j' hm
    obtain ⟨rfl, rfl⟩ := Prod.mk.inj (List.mem_singleton.mp (List.mem_of_getElem? hm))
    exact hstands
  constructor
  case sorted => exact List.pairwise_singleton _ _
  case exact =>
    intro i' j'
    rw [List.mem_singleton, Prod.mk.injEq]
    constructor
    · rintro ⟨rfl, rfl⟩
      exact ⟨hki, hword⟩
    · intro hother
      have hnonempty' := hother.2.nonempty
      have hbound' := hother.2.bound
      exact hfirst i' j' hother.2 hother.1 (by omega)
  case calls =>
    intro n
    cases n with
    | zero =>
        exact ⟨_, hcall, rfl, fun m i' j' _ => hstanding m i' j', fun a hne => absurd rfl hne⟩
    | succ n =>
        refine ⟨(0, ⟨0, t.mem⟩), ?_, rfl, fun m i' j' _ => hstanding m i' j',
          fun a hne => absurd rfl hne⟩
        rw [callNumber_succ, hcall]
        exact callNumber_done seps rfl n

/-- Another word is cut off by a NUL in the place of its separator. -/
theorem Serves.cons (hsep : IsSep seps s j)
    (hcall : strtokR 0 seps t = some (p + i, ⟨p + (j + 1), Function.update t.mem (p + j) 0⟩))
    (hrest : Serves seps s p (j + 1) ⟨p + (j + 1), Function.update t.mem (p + j) 0⟩ words) :
    Serves seps s p k t ((i, j) :: words) := by
  have hnonempty := hword.nonempty
  have hcut : ∀ a, Function.update t.mem (p + j) 0 a ≠ t.mem a →
      Function.update t.mem (p + j) 0 a = 0 ∧ ∃ q, IsSep seps s q ∧ a = p + q := by
    intro a hne
    have ha : a = p + j := by
      by_contra hother
      exact hne (Function.update_of_ne hother _ _)
    exact ⟨ha ▸ Function.update_self _ _ _, j, hsep, ha⟩
  have hstands : ∀ mem' : Bytes, (∀ a, mem' a ≠ Function.update t.mem (p + j) 0 a →
      mem' a = 0 ∧ ∃ q, IsSep seps s q ∧ a = p + q) →
      StringAt mem' (p + i) ((s.take j).drop i) := by
    intro mem' hwritten
    refine hword.stringAt hnonul ?_ (Function.update_self _ _ _) hwritten
    intro q hq hqj
    rw [Function.update_of_ne (by omega)]
    exact h.text_word hword hki hq hqj
  constructor
  case sorted =>
    rw [List.pairwise_cons]
    refine ⟨?_, hrest.sorted⟩
    intro w hin
    exact ((hrest.exact w.1 w.2).mp hin).1
  case exact =>
    intro i' j'
    rw [List.mem_cons, hrest.exact, Prod.mk.injEq]
    constructor
    · rintro (⟨rfl, rfl⟩ | hother)
      · exact ⟨hki, hword⟩
      · exact ⟨by omega, hother.2⟩
    · intro hother
      rcases Nat.lt_or_ge j i' with hafter | hin
      · exact Or.inr ⟨hafter, hother.2⟩
      · exact Or.inl (hfirst i' j' hother.2 hother.1 hin)
  case calls =>
    intro n
    cases n with
    | zero =>
        refine ⟨_, hcall, rfl, ?_, hcut⟩
        intro m i' j' hm hget
        obtain rfl : m = 0 := Nat.le_zero.mp hm
        obtain ⟨rfl, rfl⟩ := Prod.mk.inj (Option.some.inj hget)
        exact hstands _ fun a hne => absurd rfl hne
    | succ n =>
        obtain ⟨r, hr, hdelivered⟩ := hrest.calls n
        refine ⟨r, ?_, hdelivered.word, ?_, ?_⟩
        · rw [callNumber_succ, hcall]
          exact hr
        · intro m i' j' hm hget
          cases m with
          | zero =>
              obtain ⟨rfl, rfl⟩ := Prod.mk.inj (Option.some.inj hget)
              exact hstands _ hdelivered.written
          | succ m => exact hdelivered.standing m i' j' (Nat.le_of_succ_le_succ hm) hget
        · intro a hne
          rcases eq_or_ne (r.2.mem a) (Function.update t.mem (p + j) 0 a) with hsame | hchanged
          · rw [hsame] at hne ⊢
            exact hcut a hne
          · exact hdelivered.written a hchanged

end Word

theorem Resumes.serves (hnonul : 0 ∉ s) (hp : 0 < p) (hfits : p + s.length < 2 ^ 32)
    (h : Resumes seps s p k t) : ∃ words, Serves seps s p k t words := by
  -- Each word found leaves less of the string.
  induction hleft : s.length - k using Nat.strongRecOn generalizing k t with
  | ind left ih =>
      rcases h.call hnonul hp hfits with ⟨hcall, hnone⟩ | ⟨i, j, hword, hki, hfirst, hcall⟩
      · exact ⟨[], Serves.nothing hcall hnone⟩
      · rcases hcall with ⟨hlast, hcall⟩ | ⟨hsep, hcall⟩
        · exact ⟨[(i, j)], Serves.last h hword hki hnonul hfirst hlast hcall⟩
        · have hbound := hsep.lt
          have hnonempty := hword.nonempty
          have hnext : Resumes seps s p (j + 1)
              ⟨p + (j + 1), Function.update t.mem (p + j) 0⟩ := by
            refine ⟨rfl, hbound, Or.inr hsep, ?_⟩
            intro q hq hqs
            have hother : p + q ≠ p + j := by omega
            exact (Function.update_of_ne hother _ _).trans (h.text q (by omega) hqs)
          obtain ⟨words, hrest⟩ := ih (s.length - (j + 1)) (by omega) hnext rfl
          exact ⟨(i, j) :: words, Serves.cons h hword hki hnonul hfirst hsep hcall hrest⟩

/-- The calls hand out the words of the string in order, one a call, and then `NULL`. -/
theorem strtokR_words (seps : List Byte) (hp : 0 < p) (hfits : p + s.length < 2 ^ 32)
    (hstring : StringAt t.mem p s) :
    ∃ words : List (Nat × Nat), words.Pairwise (fun w w' => w.2 < w'.1) ∧
      (∀ i j, (i, j) ∈ words ↔ IsWord seps s i j) ∧
      ∀ n, ∃ r, callNumber p seps t n = some r ∧ Delivered seps s p words t.mem n r := by
  have hstart : Resumes seps s p 0 { t with context := p } :=
    ⟨rfl, Nat.zero_le _, Or.inl rfl, fun i _ hi => hstring.text i hi⟩
  obtain ⟨words, hserves⟩ := hstart.serves hstring.noNul hp hfits
  refine ⟨words, hserves.sorted, ?_, ?_⟩
  · intro i j
    rw [hserves.exact]
    exact and_iff_right (Nat.zero_le i)
  · intro n
    have hsame : callNumber p seps t n = callNumber 0 seps { t with context := p } n := by
      have hcall : strtokR p seps t = strtokR 0 seps { t with context := p } := by
        simp only [strtokR, ne_eq, Nat.ne_of_gt hp, not_false_eq_true, if_true,
          not_true_eq_false, if_false]
      cases n with
      | zero => exact hcall
      | succ n => rw [callNumber_succ, callNumber_succ, hcall]
    rw [hsame]
    exact hserves.calls n

/-- Two words with separators around them. -/
private def command : Bytes := Bytes.splice (fun _ => 0) 4 [32, 97, 98, 32, 32, 99, 9]

theorem strtokR_words_command :
    ∃ words : List (Nat × Nat), words.Pairwise (fun w w' => w.2 < w'.1) ∧
      (∀ i j, (i, j) ∈ words ↔ IsWord [32, 9] [32, 97, 98, 32, 32, 99, 9] i j) ∧
      ∀ n, ∃ r, callNumber 4 [32, 9] ⟨0, command⟩ n = some r ∧
        Delivered [32, 9] [32, 97, 98, 32, 32, 99, 9] 4 words command n r :=
  strtokR_words [32, 9] (by decide) (by decide) ⟨by decide, by decide⟩

end OS161.Libc
