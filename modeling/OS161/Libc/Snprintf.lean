import OS161.Libc.Format

namespace OS161.Libc

open OS161.Data
open OS161.Kern

/-! `snprintf.c`, and what the callers of both functions get. -/

/-- The buffer to print into, and the memory that it is in. -/
structure SNP where
  buf : Nat
  buflen : Nat
  bufpos : Nat
  mem : Bytes

/-- One round of the loop of `__snprintf_send`. -/
def snprintfStore (snp : SNP) (c : Byte) : SNP :=
  if snp.bufpos < snp.buflen then
    { snp with
      mem := Function.update snp.mem ((snp.buf + snp.bufpos) % 2 ^ 32) c,
      bufpos := snp.bufpos + 1 }
  else snp

def snprintfSend (snp : SNP) (data : List Byte) : SNP := data.foldl snprintfStore snp

/-- The number of characters and the memory; `stack` is what the stack holds. -/
def vsnprintf (stack : Bytes) (buf len : Nat) (fmt : List Byte) (ap : List Arg) (mem : Bytes) :
    Option (Int × Bytes) := do
  let buflen := if len = 0 then 0 else len - 1
  let (snp, chars) ← vprintf snprintfSend stack ⟨buf, buflen, 0, mem⟩ fmt ap
  pure (chars,
    if len > 0 then Function.update snp.mem ((buf + snp.bufpos) % 2 ^ 32) 0 else snp.mem)

/-- `__vprintf` sends the text, in one or more parts, and returns its length. -/
def Prints (format : List Byte) (args : List Arg) (text : List Byte) : Prop :=
  ∀ (σ : Type) (send : σ → List Byte → σ) (stack : Bytes) (clientdata : σ),
    ∃ parts : List (List Byte), parts.flatten = text ∧
      vprintf send stack clientdata format args =
        some (parts.foldl send clientdata, (text.length : Int))

/-- `vsnprintf` returns the length of the text, and stores as much of it as there is room
for. -/
def PrintsInto (format : List Byte) (args : List Arg) (text : List Byte) : Prop :=
  ∀ (stack : Bytes) (buf len : Nat) (mem : Bytes), buf + len ≤ 2 ^ 32 →
    vsnprintf stack buf len format args mem =
      some ((text.length : Int),
        if len = 0 then mem else mem.splice buf (text.take (len - 1) ++ [0]))

/-! What is sent has no NUL in it. -/

theorem Flags.fillchar_ne_nul (mods : List Byte) : (Flags.of mods).fillchar ≠ 0 := by
  have hfillchar : (Flags.of mods).fillchar =
      if mods.find? isDigit = some 48 then 48 else 32 := rfl
  rw [hfillchar]
  split <;> decide

theorem layout_noNul (hfill : flags.fillchar ≠ 0) (hpre : 0 ∉ pre) (hbody : 0 ∉ body) :
    0 ∉ layout flags pre body := by
  have hpad : ∀ n, 0 ∉ List.replicate n flags.fillchar := by
    intro n hzero
    exact hfill (List.eq_of_mem_replicate hzero).symm
  unfold layout
  split
  case isTrue => simp only [List.mem_append, hpre, hbody, hpad, or_self, not_false_eq_true]
  case isFalse =>
    split <;> simp only [List.mem_append, hpre, hbody, hpad, or_self, not_false_eq_true]

theorem cstr_noNul (s : List Byte) : 0 ∉ cstr s := by
  intro hzero
  have hne := List.mem_takeWhile_imp (p := fun c : Byte => decide (c ≠ 0)) hzero
  exact absurd rfl (of_decide_eq_true hne)

theorem modifiers_noNul {mods : List Byte} (hmods : ∀ m ∈ mods, m ∈ PF.modifiers) :
    0 ∉ mods := by
  intro hzero
  exact absurd (hmods 0 hzero) (by decide)

theorem field_noNul {mods format : List Byte} {conv : Byte}
    (hmods : ∀ m ∈ mods, m ∈ PF.modifiers) (hconv : conv ≠ 0) (hformat : 0 ∉ format) :
    0 ∉ (37 :: (mods ++ conv :: format) : List Byte) := by
  have hrest : 0 ∉ mods ++ conv :: format := by
    rw [List.mem_append, List.mem_cons]
    rintro (hzero | hzero | hzero)
    · exact modifiers_noNul hmods hzero
    · exact hconv hzero.symm
    · exact hformat hzero
  exact List.not_mem_cons_of_ne_of_not_mem (by decide) hrest

theorem Formats.format_noNul (h : Formats format args pieces) : 0 ∉ format := by
  induction h with
  | done => exact List.not_mem_nil
  | unfinished hmods =>
      exact List.not_mem_cons_of_ne_of_not_mem (by decide) (modifiers_noNul hmods)
  | literal hc hnonul hrest ih => exact List.not_mem_cons_of_ne_of_not_mem hnonul.symm ih
  | integer hmods hconv hrest ih =>
      refine field_noNul hmods ?_ ih
      rintro rfl
      exact absurd hconv (by decide)
  | string hmods hnonul hrest ih => exact field_noNul hmods (by decide) ih
  | char hmods hrest ih => exact field_noNul hmods (by decide) ih
  | other hmods hnomod hnotype hnostring hnochar hnonul hrest ih =>
      exact field_noNul hmods hnonul ih

theorem Formats.sent_noNul (h : Formats format args pieces) :
    ∀ piece ∈ pieces, 0 ∉ piece.sent := by
  induction h with
  | done => exact fun piece hpiece => absurd hpiece List.not_mem_nil
  | unfinished => exact fun piece hpiece => absurd hpiece List.not_mem_nil
  | literal hc hnonul hrest ih =>
      rw [List.forall_mem_cons]
      exact ⟨List.not_mem_cons_of_ne_of_not_mem hnonul.symm List.not_mem_nil, ih⟩
  | @integer mods conv format args pieces w hmods hconv hrest ih =>
      rw [List.forall_mem_cons]
      have hbase := PF.baseOf_cases conv
      refine ⟨layout_noNul (Flags.fillchar_ne_nul mods) ?_
        (digitText_noNul (by omega) hbase.2 _), ih⟩
      rw [List.mem_append, not_or]
      exact ⟨PF.signText_noNul conv w, PF.baseText_noNul _ conv⟩
  | @string mods s format args pieces hmods hnonul hrest ih =>
      rw [List.forall_mem_cons]
      refine ⟨layout_noNul (Flags.fillchar_ne_nul mods) List.not_mem_nil ?_, ih⟩
      cases s with
      | none => decide
      | some text => exact hnonul text rfl
  | @char mods format args pieces w hmods hrest ih =>
      rw [List.forall_mem_cons]
      exact ⟨layout_noNul (Flags.fillchar_ne_nul mods) List.not_mem_nil (cstr_noNul _), ih⟩
  | @other mods conv format args pieces hmods hnomod hnotype hnostring hnochar hnonul hrest ih =>
      rw [List.forall_mem_cons]
      exact ⟨layout_noNul (Flags.fillchar_ne_nul mods) List.not_mem_nil
        (List.not_mem_cons_of_ne_of_not_mem hnonul.symm List.not_mem_nil), ih⟩

/-! What the code does print. -/

theorem Carried.count {send : σ → List Byte → σ} {a : σ × Int} (hcarried : Carried send text a b)
    (hstart : a.2 = int32 a.2) : b.2 = int32 (a.2 + text.length) := by
  obtain ⟨parts, rfl, rfl⟩ := hcarried
  induction parts generalizing a with
  | nil =>
      rw [List.flatten_nil, List.length_nil, Nat.cast_zero, Int.add_zero]
      exact hstart
  | cons txt parts ih =>
      have hrest := ih (a := (send a.1 txt, int32 (a.2 + txt.length)))
        (by simp only [int32, Int.bmod_bmod])
      rw [List.foldl_cons, hrest, List.flatten_cons, List.length_append]
      simp only [int32, Int.bmod_add_bmod]
      congr 1
      omega

theorem Carried.client {send : σ → List Byte → σ} {a b : σ × Int}
    (hcarried : Carried send text a b) :
    ∃ parts : List (List Byte), parts.flatten = text ∧ b.1 = parts.foldl send a.1 := by
  obtain ⟨parts, hparts, rfl⟩ := hcarried
  refine ⟨parts, hparts, ?_⟩
  clear hparts
  induction parts generalizing a with
  | nil => rfl
  | cons txt parts ih => exact ih

theorem Piece.length_sent_le (piece : Piece) : piece.sent.length ≤ piece.text.length := by
  cases piece with
  | char flags c =>
      have hchar : (cstr [c]).length ≤ 1 := (List.takeWhile_prefix _).length_le
      rw [sent, text, length_layout, length_layout, List.nil_append, List.nil_append,
        List.length_singleton]
      omega
  | _ => exact Nat.le_refl _

theorem length_sent_le (pieces : List Piece) :
    (pieces.flatMap Piece.sent).length ≤ (pieces.flatMap Piece.text).length := by
  induction pieces with
  | nil => exact Nat.le_refl 0
  | cons piece pieces ih =>
      have hpiece := piece.length_sent_le
      rw [List.flatMap_cons, List.flatMap_cons, List.length_append, List.length_append]
      omega

theorem Formats.prints (h : Formats format args pieces)
    (hwidth : ∀ piece ∈ pieces, piece.width < 2 ^ 31)
    (hlen : (pieces.flatMap Piece.text).length < 2 ^ 31) :
    Prints format args (pieces.flatMap Piece.sent) := by
  intro σ send stack clientdata
  have hle := length_sent_le pieces
  obtain ⟨pf', hrun, hcarried⟩ := h.run send stack hwidth hlen (clientdata, 0)
  obtain ⟨parts, hparts, hclient⟩ := hcarried.client
  have hcount := hcarried.count rfl
  rw [Int.zero_add, int32_of_lt (by omega) (by omega)] at hcount
  refine ⟨parts, hparts, ?_⟩
  have hstart : PF.start clientdata args = PF.between (clientdata, 0) args := rfl
  rw [vprintf, cstr_eq_self h.format_noNul, hstart, hrun, ← hclient, ← hcount]
  rfl

/-- The buffer with as much of a text in it as there is room for. -/
def SNP.holding (buf buflen : Nat) (mem : Bytes) (text : List Byte) : SNP :=
  ⟨buf, buflen, min text.length buflen, mem.splice buf (text.take buflen)⟩

theorem snprintfStore_holding (hfits : buf + buflen ≤ 2 ^ 32) (mem : Bytes) (text : List Byte)
    (c : Byte) : snprintfStore (SNP.holding buf buflen mem text) c =
      SNP.holding buf buflen mem (text ++ [c]) := by
  have hstore : snprintfStore (SNP.holding buf buflen mem text) c =
      if min text.length buflen < buflen then
        ⟨buf, buflen, min text.length buflen + 1,
          Function.update (mem.splice buf (text.take buflen))
            ((buf + min text.length buflen) % 2 ^ 32) c⟩
      else ⟨buf, buflen, min text.length buflen, mem.splice buf (text.take buflen)⟩ := rfl
  rw [hstore, SNP.holding]
  by_cases hroom : min text.length buflen < buflen
  · have hpos : min text.length buflen = text.length := by omega
    have hall : text.take buflen = text := List.take_of_length_le (by omega)
    have hall' : (text ++ [c]).take buflen = text ++ [c] :=
      List.take_of_length_le (by rw [List.length_append, List.length_singleton]; omega)
    rw [if_pos hroom, hpos, hall, hall', Nat.mod_eq_of_lt (by omega), Bytes.update_eq_splice,
      Bytes.splice_append, List.length_append, List.length_singleton,
      Nat.min_eq_left (by omega)]
  · rw [if_neg hroom, List.length_append, List.take_append_of_le_length (by omega),
      Nat.min_eq_right (by omega), Nat.min_eq_right (by omega)]

theorem snprintfSend_holding (hfits : buf + buflen ≤ 2 ^ 32) (mem : Bytes)
    (text data : List Byte) : snprintfSend (SNP.holding buf buflen mem text) data =
      SNP.holding buf buflen mem (text ++ data) := by
  induction data generalizing text with
  | nil => rw [List.append_nil]; rfl
  | cons c data ih =>
      have hrest := ih (text ++ [c])
      rw [List.append_assoc, List.singleton_append] at hrest
      rw [← hrest, snprintfSend, List.foldl_cons, snprintfStore_holding hfits]
      rfl

theorem foldl_holding (hfits : buf + buflen ≤ 2 ^ 32) (mem : Bytes) (text : List Byte)
    (parts : List (List Byte)) :
    parts.foldl snprintfSend (SNP.holding buf buflen mem text) =
      SNP.holding buf buflen mem (text ++ parts.flatten) := by
  induction parts generalizing text with
  | nil => rw [List.flatten_nil, List.append_nil]; rfl
  | cons txt parts ih =>
      rw [List.foldl_cons, snprintfSend_holding hfits, ih, List.flatten_cons, List.append_assoc]

/-- What `vsnprintf` stores, from what `__vprintf` sends. -/
theorem Prints.into (h : Prints format args text) : PrintsInto format args text := by
  intro stack buf len mem hfits
  obtain ⟨parts, hparts, hrun⟩ := h SNP snprintfSend stack
    ⟨buf, if len = 0 then 0 else len - 1, 0, mem⟩
  have hlimit : buf + (if len = 0 then 0 else len - 1) ≤ 2 ^ 32 := by
    split <;> omega
  have hempty : (⟨buf, if len = 0 then 0 else len - 1, 0, mem⟩ : SNP) =
      SNP.holding buf (if len = 0 then 0 else len - 1) mem [] := by
    simp only [SNP.holding, List.length_nil, Nat.zero_min, List.take_nil, Bytes.splice_nil]
  rw [hempty, foldl_holding hlimit, List.nil_append, hparts] at hrun
  simp only [vsnprintf, hempty, hrun, Option.bind_eq_bind, Option.bind_some, Option.pure_def]
  rcases Nat.eq_zero_or_pos len with rfl | hpos
  · simp only [SNP.holding, if_true, List.take_zero, Bytes.splice_nil, Nat.lt_irrefl, gt_iff_lt,
      if_false]
  · have hne : len ≠ 0 := Nat.ne_of_gt hpos
    have hlength : (text.take (len - 1)).length = min text.length (len - 1) := by
      rw [List.length_take, Nat.min_comm]
    simp only [SNP.holding, if_neg hne, if_pos hpos]
    rw [Nat.mod_eq_of_lt (by omega), Bytes.update_eq_splice, ← hlength, Bytes.splice_append]

/-- A piece is sent as the format says it but for the NUL of a `%c`. -/
theorem Formats.text_eq_sent (h : Formats format args pieces) :
    pieces.flatMap Piece.text = pieces.flatMap Piece.sent ↔
      ∀ flags, Piece.char flags 0 ∉ pieces := by
  constructor
  · intro hsame flags hmem
    have hzero : (0 : Byte) ∈ pieces.flatMap Piece.text := by
      refine List.mem_flatMap.mpr ⟨_, hmem, ?_⟩
      rw [Piece.text, layout]
      split
      case isTrue => simp
      case isFalse => split <;> simp
    rw [hsame] at hzero
    obtain ⟨piece, hpiece, hin⟩ := List.mem_flatMap.mp hzero
    exact h.sent_noNul piece hpiece hin
  · intro hnochar
    refine List.flatMap_congr fun piece hpiece => ?_
    cases piece with
    | char flags c =>
        have hne : c ≠ 0 := by
          rintro rfl
          exact hnochar flags hpiece
        rw [Piece.text, Piece.sent, cstr_eq_self (by simpa using hne.symm)]
    | _ => rfl

theorem foldl_append_flatten (parts : List (List Byte)) :
    parts.foldl (· ++ ·) [] = parts.flatten := by
  have hall : parts.foldl (· ++ ·) [] = [] ++ (parts.map id).flatten :=
    List.foldl_append_eq_append
  rw [List.nil_append, List.map_id] at hall
  exact hall

/-- The text that the format says goes out, to both kinds of callers, exactly where no `%c`
has a NUL for its argument. -/
theorem vprintf_iff (h : Formats format args pieces)
    (hwidth : ∀ piece ∈ pieces, piece.width < 2 ^ 31)
    (hlen : (pieces.flatMap Piece.text).length < 2 ^ 31) :
    (Prints format args (pieces.flatMap Piece.text) ∧
      PrintsInto format args (pieces.flatMap Piece.text)) ↔
    ∀ flags, Piece.char flags 0 ∉ pieces := by
  have hprints := h.prints hwidth hlen
  rw [← h.text_eq_sent]
  constructor
  · intro hboth
    obtain ⟨parts, hparts, hrun⟩ := hboth.1 (List Byte) (· ++ ·) (fun _ => 0) []
    obtain ⟨parts', hparts', hrun'⟩ := hprints (List Byte) (· ++ ·) (fun _ => 0) []
    rw [hrun, Option.some.injEq, Prod.mk.injEq, foldl_append_flatten, foldl_append_flatten,
      hparts, hparts'] at hrun'
    exact hrun'.1
  · intro hsame
    rw [hsame]
    exact ⟨hprints, hprints.into⟩

/-- `"%5d|"` with an argument to match. -/
theorem vprintf_iff_number :
    (Prints [37, 53, 100, 124] [.word 42]
        ([Piece.integer (Flags.of [53]) 100 42, .literal 124].flatMap Piece.text) ∧
      PrintsInto [37, 53, 100, 124] [.word 42]
        ([Piece.integer (Flags.of [53]) 100 42, .literal 124].flatMap Piece.text)) ↔
    ∀ flags, Piece.char flags 0 ∉ [Piece.integer (Flags.of [53]) 100 42, .literal 124] := by
  have hformats : Formats (37 :: ([53] ++ 100 :: [124])) [.word 42]
      [.integer (Flags.of [53]) 100 42, .literal 124] :=
    Formats.integer (by decide) (by decide)
      (Formats.literal (by decide) (by decide) (Formats.done []))
  exact vprintf_iff hformats (by decide) (by decide)

/-- `"a%cb"` with a NUL to print: the NUL is left out. -/
theorem nul_char_left_out :
    Formats [97, 37, 99, 98] [.word 0] [.literal 97, .char (Flags.of []) 0, .literal 98] ∧
    vprintf (· ++ ·) (fun _ => 0) [] [97, 37, 99, 98] [.word 0] = some ([97, 98], 2) ∧
    ¬ Prints [97, 37, 99, 98] [.word 0]
      ([Piece.literal 97, .char (Flags.of []) 0, .literal 98].flatMap Piece.text) := by
  have hrun : vprintf (· ++ ·) (fun _ => 0) [] [97, 37, 99, 98] [.word 0] = some ([97, 98], 2) := by
    decide
  have hchar : Formats (37 :: ([] ++ 99 :: [98])) [.word 0]
      [.char (Flags.of []) ((0 : BitVec 32).setWidth 8), .literal 98] :=
    Formats.char (fun m hm => by cases hm)
      (Formats.literal (by decide) (by decide) (Formats.done []))
  refine ⟨Formats.literal (by decide) (by decide) hchar, hrun, ?_⟩
  · intro hprints
    obtain ⟨parts, _, hsame⟩ := hprints (List Byte) (· ++ ·) (fun _ => 0) []
    have hlength : ([Piece.literal 97, .char (Flags.of []) 0, .literal 98].flatMap
        Piece.text).length = 3 := by decide
    rw [hrun, hlength] at hsame
    have hcount : (2 : Int) = (3 : Nat) := congrArg Prod.snd (Option.some.inj hsame)
    exact absurd hcount (by decide)

end OS161.Libc
