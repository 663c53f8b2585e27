import OS161.Libc.Digits

namespace OS161.Libc

open OS161.Data
open OS161.Kern

/-! What a format and its arguments say, and that `__vprintf` sends it. -/

def isDigit (c : Byte) : Bool := 48 ≤ c && c ≤ 57

/-- What the modifiers of a field ask for. -/
structure Flags where
  alt : Bool
  left : Bool
  fillchar : Byte
  width : Nat
  deriving DecidableEq, Repr

/-- The digits make up the width, and a 0 as the first of them asks for zeros. -/
def Flags.of (mods : List Byte) : Flags where
  alt := 35 ∈ mods
  left := 45 ∈ mods
  fillchar := if mods.find? isDigit = some 48 then 48 else 32
  width := numeralValue 10 ((mods.filter isDigit).map fun c => c.toNat - 48)

namespace Flags

theorem of_concat (mods : List Byte) (hch : isDigit ch = false) :
    Flags.of (mods ++ [ch]) =
      { Flags.of mods with
        alt := (Flags.of mods).alt || decide (35 = ch),
        left := (Flags.of mods).left || decide (45 = ch) } := by
  simp [Flags.of, List.find?_append, hch]

/-- The digits before the last one. -/
theorem of_concat_digit (mods : List Byte) (hch : isDigit ch = true) :
    Flags.of (mods ++ [ch]) =
      { Flags.of mods with
        fillchar := if (mods.find? isDigit).or (some ch) = some 48 then 48 else 32,
        width := (Flags.of mods).width * 10 + (ch.toNat - 48) } := by
  have halt : 35#8 ≠ ch := by
    rintro rfl
    cases hch
  have hleft : 45#8 ≠ ch := by
    rintro rfl
    cases hch
  simp [Flags.of, List.find?_append, hch, halt, hleft, numeralValue_concat]

/-- Another digit than a 0 does not ask for zeros, and no digit does behind others. -/
theorem fillchar_kept (mods : List Byte) (hkept : 0 < (Flags.of mods).width ∨ ch ≠ 48) :
    (if (mods.find? isDigit).or (some ch) = some 48 then 48 else 32) =
      (Flags.of mods).fillchar := by
  have hfillchar : (Flags.of mods).fillchar =
      if mods.find? isDigit = some 48 then 48 else 32 := rfl
  rw [hfillchar]
  cases hfind : mods.find? isDigit with
  | some d => rfl
  | none =>
      have hnone : mods.filter isDigit = [] := by
        rw [List.filter_eq_nil_iff]
        exact List.find?_eq_none.mp hfind
      have hch : ch ≠ 48 := by
        rw [Flags.of, hnone] at hkept
        exact hkept.resolve_left (Nat.lt_irrefl 0)
      have hother : (none : Option Byte).or (some ch) ≠ some 48 :=
        fun hsame => hch (Option.some.inj hsame)
      rw [if_neg hother]
      rfl

/-- Where the width is 0, a further 0 asks for zeros if none did before. -/
theorem fillchar_of_zero (mods : List Byte) (hzero : (Flags.of mods).width = 0) :
    (mods.find? isDigit).or (some 48) = some 48 := by
  cases hfind : mods.find? isDigit with
  | none => rfl
  | some d =>
      have hdigit := List.find?_some hfind
      have hmem : d ∈ mods.filter isDigit :=
        List.mem_filter.mpr ⟨List.mem_of_find?_eq_some hfind, hdigit⟩
      have hd := eq_zero_of_numeralValue (by decide) hzero
        (List.mem_map_of_mem (f := fun c : Byte => c.toNat - 48) hmem)
      rw [isDigit, Bool.and_eq_true, decide_eq_true_eq, decide_eq_true_eq, BitVec.le_def,
        BitVec.le_def] at hdigit
      have hvalue : d = 48 := BitVec.eq_of_toNat_eq (by simp at *; omega)
      rw [hvalue]
      rfl

theorem width_le_append (mods rest : List Byte) :
    (Flags.of mods).width ≤ (Flags.of (mods ++ rest)).width := by
  simp only [Flags.of, List.filter_append, List.map_append]
  exact numeralValue_le_append (by decide) _ _

end Flags

/-- A stretch of the output. -/
inductive Piece where
  | literal (c : Byte)
  | integer (flags : Flags) (conv : Byte) (w : BitVec 32)
  | string (flags : Flags) (s : Option (List Byte))
  | char (flags : Flags) (c : Byte)
  | other (flags : Flags) (c : Byte)
  deriving DecidableEq, Repr

/-- A field's text extended to its width. -/
def layout (flags : Flags) (pre body : List Byte) : List Byte :=
  let pad := List.replicate (flags.width - (pre ++ body).length) flags.fillchar
  if flags.left then pre ++ body ++ pad
  else if flags.fillchar = 48 then pre ++ pad ++ body
  else pad ++ pre ++ body

/-- A text that fills its field is not extended. -/
theorem layout_of_le (hwidth : flags.width ≤ (pre ++ body).length) :
    layout flags pre body = pre ++ body := by
  have hpad : flags.width - (pre ++ body).length = 0 := Nat.sub_eq_zero_of_le hwidth
  simp only [layout, hpad, List.replicate_zero, List.append_nil, List.nil_append, ite_self]

/-- The layout as the steps make it. -/
theorem layout_eq (flags : Flags) (pre pre2 body : List Byte) :
    let n := flags.width - ((pre ++ pre2) ++ body).length
    layout flags (pre ++ pre2) body =
      (((((if (n : Int) > 0 ∧ flags.left = false ∧ flags.fillchar ≠ 48 then
        List.replicate (n : Int).toNat flags.fillchar else []) ++ pre) ++ pre2) ++
      (if (n : Int) > 0 ∧ flags.left = false ∧ flags.fillchar = 48 then
        List.replicate (n : Int).toNat flags.fillchar else [])) ++ body) ++
      (if (n : Int) > 0 ∧ flags.left = true then
        List.replicate (n : Int).toNat flags.fillchar else []) := by
  intro n
  have hpad : layout flags (pre ++ pre2) body =
      if flags.left then pre ++ pre2 ++ body ++ List.replicate n flags.fillchar
      else if flags.fillchar = 48 then pre ++ pre2 ++ List.replicate n flags.fillchar ++ body
      else List.replicate n flags.fillchar ++ (pre ++ pre2) ++ body := rfl
  rw [hpad]
  rcases Nat.eq_zero_or_pos n with hn | hn
  · simp [hn]
  · cases flags.left with
    | true => simp [hn]
    | false =>
        by_cases hzero : flags.fillchar = 48#8
        · simp [hn, hzero]
        · simp [hn, hzero]

def baseOf (conv : Byte) : Nat :=
  if conv = 100 ∨ conv = 117 then 10 else if conv = 120 ∨ conv = 112 then 16 else 8

def signText (conv : Byte) (w : BitVec 32) : List Byte :=
  if conv = 100 ∧ w.toInt < 0 then [45] else []

/-- The prefix of the alternate form, which a pointer always has. -/
def baseText (flags : Flags) (conv : Byte) : List Byte :=
  if flags.alt = true ∨ conv = 112 then
    if baseOf conv = 16 then [48, 120] else if baseOf conv = 8 then [48] else []
  else []

def magnitude (conv : Byte) (w : BitVec 32) : Nat :=
  if conv = 100 then w.toInt.natAbs else w.toNat

namespace Piece

def width : Piece → Nat
  | .literal _ => 0
  | .integer flags _ _ => flags.width
  | .string flags _ => flags.width
  | .char flags _ => flags.width
  | .other flags _ => flags.width

def text : Piece → List Byte
  | .literal c => [c]
  | .integer flags conv w =>
      layout flags (signText conv w ++ baseText flags conv)
        (digitText (baseOf conv) (magnitude conv w))
  | .string flags s => layout flags [] (s.getD PF.nullText)
  | .char flags c => layout flags [] [c]
  | .other flags c => layout flags [] [c]

/-- The same with the NUL of a `%c` left out. -/
def sent : Piece → List Byte
  | .char flags c => layout flags [] (cstr [c])
  | piece => piece.text

end Piece

/-- The format, with arguments to match, says this. Modifiers at its end come to nothing. -/
inductive Formats : (format : List Byte) → (args : List Arg) → (pieces : List Piece) → Prop
  | done (args : List Arg) : Formats [] args []
  | literal (hc : c ≠ 37) (hnonul : c ≠ 0) (hrest : Formats format args pieces) :
      Formats (c :: format) args (.literal c :: pieces)
  | integer (hmods : ∀ m ∈ mods, m ∈ PF.modifiers) (hconv : conv ∈ PF.integerTypes)
      (hrest : Formats format args pieces) :
      Formats (37 :: (mods ++ conv :: format)) (.word w :: args)
        (.integer (Flags.of mods) conv w :: pieces)
  | string (hmods : ∀ m ∈ mods, m ∈ PF.modifiers) (hnonul : ∀ text, s = some text → 0 ∉ text)
      (hrest : Formats format args pieces) :
      Formats (37 :: (mods ++ 115 :: format)) (.string s :: args)
        (.string (Flags.of mods) s :: pieces)
  | char (hmods : ∀ m ∈ mods, m ∈ PF.modifiers) (hrest : Formats format args pieces) :
      Formats (37 :: (mods ++ 99 :: format)) (.word w :: args)
        (.char (Flags.of mods) (w.setWidth 8) :: pieces)
  | other (hmods : ∀ m ∈ mods, m ∈ PF.modifiers) (hnomod : conv ∉ PF.modifiers)
      (hnotype : conv ∉ PF.integerTypes) (hnostring : conv ≠ 115) (hnochar : conv ≠ 99)
      (hnonul : conv ≠ 0) (hrest : Formats format args pieces) :
      Formats (37 :: (mods ++ conv :: format)) args (.other (Flags.of mods) conv :: pieces)
  | unfinished (hmods : ∀ m ∈ mods, m ∈ PF.modifiers) (args : List Arg) :
      Formats (37 :: mods) args []

/-- Every format has arguments to match. -/
theorem exists_formats {format : List Byte} (hnonul : 0 ∉ format) :
    ∃ args pieces, Formats format args pieces := by
  induction hlen : format.length using Nat.strongRecOn generalizing format with
  | ind len ih =>
      cases format with
      | nil => exact ⟨[], [], .done []⟩
      | cons c format =>
          rw [List.mem_cons, not_or] at hnonul
          rw [List.length_cons] at hlen
          by_cases hc : c = 37
          · subst hc
            obtain ⟨mods, tail, hsplit, hmods, htail⟩ :
                ∃ mods tail, format = mods ++ tail ∧ (∀ m ∈ mods, m ∈ PF.modifiers) ∧
                  ∀ conv rest, tail = conv :: rest → conv ∉ PF.modifiers := by
              refine ⟨format.takeWhile (· ∈ PF.modifiers), format.dropWhile (· ∈ PF.modifiers),
                List.takeWhile_append_dropWhile.symm, ?_, ?_⟩
              · intro m hm
                have htest := List.mem_takeWhile_imp (p := (· ∈ PF.modifiers)) hm
                exact of_decide_eq_true htest
              · intro conv rest hrest
                have hhead := List.head?_dropWhile_not (· ∈ PF.modifiers) format
                rw [hrest, List.head?_cons] at hhead
                exact of_decide_eq_false hhead
            cases tail with
            | nil =>
                rw [hsplit, List.append_nil]
                exact ⟨[], [], .unfinished hmods []⟩
            | cons conv rest =>
                rw [hsplit, List.mem_append, List.mem_cons, not_or, not_or] at hnonul
                rw [hsplit, List.length_append, List.length_cons] at hlen
                obtain ⟨args, pieces, hrest⟩ := ih rest.length (by omega) hnonul.2.2.2 rfl
                rw [hsplit]
                by_cases htype : conv ∈ PF.integerTypes
                · exact ⟨.word 0 :: args, _, .integer hmods htype hrest⟩
                · by_cases hstring : conv = 115
                  · subst hstring
                    exact ⟨.string none :: args, _,
                      .string hmods (fun text htext => by cases htext) hrest⟩
                  · by_cases hchar : conv = 99
                    · subst hchar
                      exact ⟨.word 0 :: args, _, .char hmods hrest⟩
                    · exact ⟨args, _, .other hmods (htail conv rest rfl) htype hstring hchar
                        (Ne.symm hnonul.2.2.1) hrest⟩
          · obtain ⟨args, pieces, hrest⟩ := ih format.length (by omega) hnonul.2 rfl
            exact ⟨args, _, .literal hc (Ne.symm hnonul.1) hrest⟩

/-! Text on its way. -/

section Send

variable {σ : Type} {send : σ → List Byte → σ}

/-- Some text was sent on, in one or more parts, and counted. -/
def Carried (send : σ → List Byte → σ) (text : List Byte) (before after : σ × Int) : Prop :=
  ∃ parts : List (List Byte), parts.flatten = text ∧
    after = parts.foldl (fun a txt => (send a.1 txt, int32 (a.2 + txt.length))) before

theorem Carried.nothing (a : σ × Int) : Carried send [] a a := ⟨[], rfl, rfl⟩

theorem Carried.trans (h : Carried send text a b) (h' : Carried send text' b c) :
    Carried send (text ++ text') a c := by
  obtain ⟨parts, rfl, rfl⟩ := h
  obtain ⟨parts', rfl, rfl⟩ := h'
  exact ⟨parts ++ parts', List.flatten_append, (List.foldl_append ..).symm⟩

/-- The same, and nothing else of the state has changed. -/
structure PF.Sent (send : σ → List Byte → σ) (text : List Byte) (pf pf' : PF σ) : Prop where
  carried : Carried send text (pf.clientdata, pf.charcount) (pf'.clientdata, pf'.charcount)
  kept : pf' = { pf with clientdata := pf'.clientdata, charcount := pf'.charcount }

namespace PF.Sent

variable {pf pf' pf'' : PF σ}

theorem nothing (pf : PF σ) : Sent send [] pf pf := ⟨Carried.nothing _, rfl⟩

theorem trans (h : Sent send text pf pf') (h' : Sent send text' pf' pf'') :
    Sent send (text ++ text') pf pf'' := by
  refine ⟨h.carried.trans h'.carried, ?_⟩
  rw [h'.kept, h.kept]

theorem print (txt : List Byte) (pf : PF σ) : Sent send txt pf (pf.print send txt) :=
  ⟨⟨[txt], List.flatten_singleton, rfl⟩, rfl⟩

theorem fill (n : Nat) (pf : PF σ) :
    Sent send (List.replicate n pf.fillchar) pf (pf.fill send n) := by
  induction n generalizing pf with
  | zero => exact nothing pf
  | succ n ih => exact (print [pf.fillchar] pf).trans (ih (pf.print send [pf.fillchar]))

theorem rightspc (h : Sent send text pf pf') : pf'.rightspc = pf.rightspc := by
  rw [h.kept]

theorem fillchar (h : Sent send text pf pf') : pf'.fillchar = pf.fillchar := by
  rw [h.kept]

/-- A fill that is made only in some cases. -/
theorem fillIf {p : Prop} [Decidable p] (n : Nat) (pf : PF σ) :
    Sent send (if p then List.replicate n pf.fillchar else []) pf
      (if p then pf.fill send n else pf) := by
  split
  case isTrue => exact fill n pf
  case isFalse => exact nothing pf

/-- The text of a field goes out as it is laid out, where the state says what the flags
say. -/
theorem printstuff {pf : PF σ} (flags : Flags) (pre pre2 stuff : List Byte)
    (hspacing : pf.spacing = flags.width) (hleft : pf.rightspc = flags.left)
    (hfill : pf.fillchar = flags.fillchar) (hwidth : flags.width < 2 ^ 31)
    (hlen : ((cstr pre ++ cstr pre2) ++ cstr stuff).length < 2 ^ 31) :
    Sent send (layout flags (cstr pre ++ cstr pre2) (cstr stuff)) pf
      (pf.printstuff send pre pre2 stuff) := by
  rw [List.length_append, List.length_append] at hlen
  unfold PF.printstuff
  extract_lets len spc pf₁ pf₂ pf₃ pf₄ pf₅
  have hprefixes : int32 (strlen pre + strlen pre2) = (cstr pre).length + (cstr pre2).length :=
    int32_of_lt (by omega) (by simp only [strlen]; omega)
  have hlen' : len = (cstr pre).length + (cstr pre2).length + strlen stuff := by
    rw [← hprefixes]
    exact int32_of_lt (by rw [hprefixes]; omega) (by rw [hprefixes]; simp only [strlen]; omega)
  have hspc : spc =
      ((flags.width - ((cstr pre ++ cstr pre2) ++ cstr stuff).length : Nat) : Int) := by
    rw [List.length_append, List.length_append]
    simp only [spc, hspacing, hlen', strlen]
    split
    case isTrue hgt =>
      rw [int32_of_lt (by omega) (by omega)]
      omega
    case isFalse hle => omega
  have h₁ : Sent send (if spc > 0 ∧ pf.rightspc = false ∧ pf.fillchar ≠ 48 then
      List.replicate spc.toNat pf.fillchar else []) pf pf₁ := fillIf spc.toNat pf
  have h₃ := (h₁.trans (print (cstr pre) pf₁)).trans (print (cstr pre2) pf₂)
  have h₄ : Sent send (if spc > 0 ∧ pf₃.rightspc = false ∧ pf₃.fillchar = 48 then
      List.replicate spc.toNat pf₃.fillchar else []) pf₃ pf₄ := fillIf spc.toNat pf₃
  have h₅ := (h₃.trans h₄).trans (print (cstr stuff) pf₄)
  have h₆ := h₅.trans (fillIf (p := spc > 0 ∧ pf₅.rightspc = true) spc.toNat pf₅)
  have hright₃ : pf₃.rightspc = pf.rightspc := h₃.rightspc
  have hfill₃ : pf₃.fillchar = pf.fillchar := h₃.fillchar
  have hright₅ : pf₅.rightspc = pf.rightspc := h₅.rightspc
  have hfill₅ : pf₅.fillchar = pf.fillchar := h₅.fillchar
  generalize (if spc > 0 ∧ pf₅.rightspc = true then pf₅.fill send spc.toNat else pf₅) = pf₆
    at h₆ ⊢
  rw [hright₃, hfill₃, hright₅, hfill₅, hleft, hfill, hspc] at h₆
  rw [layout_eq flags (cstr pre) (cstr pre2) (cstr stuff)]
  exact h₆

end PF.Sent

namespace PF

/-- The state between two fields. -/
def between (a : σ × Int) (ap : List Arg) : PF σ := { start a.1 ap with charcount := a.2 }

/-- The state in a field, after modifiers. -/
def inField (a : σ × Int) (ap : List Arg) (flags : Flags) (size : Size) : PF σ :=
  { between a ap with
    inPct := true, size, spacing := flags.width, rightspc := flags.left,
    fillchar := flags.fillchar, altformat := flags.alt }

variable (send : σ → List Byte → σ) (a : σ × Int) (args : List Arg) (size : Size)

theorem modifier_cases (hch : ch ∈ modifiers) :
    ch = 35 ∨ ch = 45 ∨ ch = 108 ∨ ch = 113 ∨ ch = 48 ∨ 48 < ch ∧ ch ≤ 57 := by
  revert ch
  decide

theorem digit_ne {ch : Byte} (hdigit : 48 < ch ∧ ch ≤ 57) :
    ch ≠ 35 ∧ ch ≠ 45 ∧ ch ≠ 108 ∧ ch ≠ 113 ∧ ch ≠ 48 := by
  refine ⟨?_, ?_, ?_, ?_, ?_⟩ <;>
  · rintro rfl
    exact absurd hdigit (by decide)

theorem Sent.endfield {pf pf' : PF σ} (h : Sent send text pf pf') :
    pf'.endfield = between (pf'.clientdata, pf'.charcount) pf.ap := by
  rw [h.kept]
  rfl

/-- Each modifier does to the state what it does to the flags. -/
theorem modifier_inField (hch : ch ∈ modifiers)
    (hwidth : (Flags.of (mods ++ [ch])).width < 2 ^ 31) :
    ∃ size', (inField a args (Flags.of mods) size).modifier ch =
      some (inField a args (Flags.of (mods ++ [ch])) size') := by
  rcases modifier_cases hch with rfl | rfl | rfl | rfl | rfl | hdigit
  · exact ⟨size, by rw [Flags.of_concat mods rfl]; simp [modifier, inField]⟩
  · exact ⟨size, by rw [Flags.of_concat mods rfl]; simp [modifier, inField]⟩
  · refine ⟨.LONGSZ, ?_⟩
    rw [Flags.of_concat mods rfl]
    cases size <;> simp [modifier, inField]
  · exact ⟨.LONGSZ, by rw [Flags.of_concat mods rfl]; simp [modifier, inField]⟩
  · have hmods := Flags.of_concat_digit mods (rfl : isDigit 48 = true)
    rw [hmods] at hwidth ⊢
    refine ⟨size, ?_⟩
    rcases Nat.eq_zero_or_pos (Flags.of mods).width with hzero | hpos
    · rw [Flags.fillchar_of_zero mods hzero]
      simp [modifier, inField, hzero]
    · have hpos' : ((Flags.of mods).width : Int) > 0 := by omega
      have hten : int32 ((Flags.of mods).width * 10) = (Flags.of mods).width * 10 :=
        int32_of_lt (by omega) (by simp at hwidth; omega)
      rw [Flags.fillchar_kept mods (Or.inl hpos)]
      simp [modifier, inField, hpos, hten]
  · have hisDigit : isDigit ch = true := by
      rw [isDigit, Bool.and_eq_true, decide_eq_true_eq, decide_eq_true_eq]
      exact ⟨BitVec.le_of_lt hdigit.1, hdigit.2⟩
    have hother := digit_ne hdigit
    rw [Flags.of_concat_digit mods hisDigit] at hwidth ⊢
    rw [Flags.fillchar_kept mods (Or.inr hother.2.2.2.2)]
    simp only at hwidth
    have hge : 48 < ch.toNat := hdigit.1
    have hten : int32 ((Flags.of mods).width * 10) = (Flags.of mods).width * 10 :=
      int32_of_lt (by omega) (by omega)
    have hsum : int32 ((Flags.of mods).width * 10 + ((ch.toNat : Int) - 48)) =
        ((Flags.of mods).width * 10 + (ch.toNat - 48) : Nat) := by
      rw [int32_of_lt (by omega) (by omega)]
      omega
    refine ⟨size, ?_⟩
    rw [modifier, if_neg hother.1, if_neg hother.2.1, if_neg hother.2.2.1,
      if_neg hother.2.2.2.1, if_neg hother.2.2.2.2, if_pos hdigit]
    simp only [inField, hten, hsum]

theorem sendAll_append (buf : Bytes) (format format' : List Byte) (pf : PF σ) :
    sendAll send buf (format ++ format') pf =
      (sendAll send buf format pf).bind (sendAll send buf format') := by
  induction format generalizing pf with
  | nil => rfl
  | cons ch format ih =>
      rw [List.cons_append, sendAll, sendAll]
      cases pf.pfSend send buf ch with
      | none => rfl
      | some pf₁ => exact ih pf₁

/-- The modifiers of a field, one after the other. -/
theorem sendAll_modifiers (buf : Bytes) (hrest : ∀ m ∈ rest, m ∈ modifiers)
    (hwidth : (Flags.of (mods ++ rest)).width < 2 ^ 31) :
    ∃ size', sendAll send buf rest (inField a args (Flags.of mods) size) =
      some (inField a args (Flags.of (mods ++ rest)) size') := by
  induction rest generalizing mods size with
  | nil => exact ⟨size, by rw [List.append_nil]; rfl⟩
  | cons ch rest ih =>
      have hch := hrest ch (List.mem_cons_self ..)
      have hsplit : mods ++ ch :: rest = (mods ++ [ch]) ++ rest := by simp
      have hle := Flags.width_le_append (mods ++ [ch]) rest
      rw [hsplit] at hwidth ⊢
      obtain ⟨size₁, hfirst⟩ := modifier_inField a args size hch
        (Nat.lt_of_le_of_lt hle hwidth)
      obtain ⟨size', hlast⟩ := ih size₁ (fun m hm => hrest m (List.mem_cons_of_mem ch hm)) hwidth
      have hnul : ch ≠ 0 := by
        rintro rfl
        exact absurd hch (by decide)
      have hfound := (strchr_isSome modifiers hnul).mpr hch
      refine ⟨size', ?_⟩
      rw [sendAll, pfSend, if_neg hnul, if_neg (by simp [inField]), if_neg (by simp [inField]),
        if_pos hfound, hfirst]
      exact hlast

theorem magnitude_neg (hneg : w.toInt < 0) : (-w).toNat = magnitude 100 w := by
  have hlt := w.isLt
  rw [magnitude, if_pos rfl]
  rw [BitVec.toInt_eq_toNat_cond] at hneg ⊢
  rw [BitVec.toNat_neg]
  split at hneg
  case isTrue => omega
  case isFalse hlow =>
    rw [if_neg hlow]
    omega

theorem magnitude_nonneg (hnonneg : ¬ w.toInt < 0) : w.toNat = magnitude 100 w := by
  have hlt := w.isLt
  rw [magnitude, if_pos rfl]
  rw [BitVec.toInt_eq_toNat_cond] at hnonneg ⊢
  split at hnonneg
  case isTrue hlow =>
    rw [if_pos hlow]
    omega
  case isFalse => omega

theorem vaWord_inField (a : σ × Int) (args : List Arg) (flags : Flags) (size : Size)
    (w : BitVec 32) :
    (inField a (.word w :: args) flags size).vaWord = some (w, inField a args flags size) := rfl

theorem vaString_inField (a : σ × Int) (args : List Arg) (flags : Flags) (size : Size)
    (s : Option (List Byte)) :
    (inField a (.string s :: args) flags size).vaString = some (s, inField a args flags size) :=
  rfl

/-- The number of an integer field. -/
theorem getnum_inField (conv : Byte) (w : BitVec 32) (flags : Flags) :
    ∃ sign num, (inField a (.word w :: args) flags size).getnum conv =
        some { inField a args flags size with num, sign } ∧
      num.toNat = magnitude conv w ∧ (sign ≠ 0 ↔ conv = 100 ∧ w.toInt < 0) := by
  rw [getnum, vaWord_inField]
  by_cases hsigned : conv = 100
  · subst hsigned
    by_cases hneg : w.toInt < 0
    · refine ⟨-1, -w, ?_, magnitude_neg hneg, by simp [hneg]⟩
      simp [hneg]
    · refine ⟨0, w, ?_, magnitude_nonneg hneg, by simp [hneg]⟩
      simp [hneg]
      rfl
  · refine ⟨0, w, ?_, (if_neg hsigned).symm, fun h => absurd rfl h, fun h => absurd h.1 hsigned⟩
    simp only [Option.bind_eq_bind, Option.bind_some, if_neg hsigned]
    split <;> rfl

/-- How it is to be printed. -/
theorem setbase_inField (hconv : conv ∈ integerTypes) (flags : Flags) (num : BitVec 32)
    (sign : Int) :
    PF.setbase conv { inField a args flags size with num, sign } =
      { inField a args flags size with
        num, sign, base := baseOf conv,
        baseprefix := decide (flags.alt = true ∨ conv = 112) } := by
  have hcases : conv = 100 ∨ conv = 111 ∨ conv = 117 ∨ conv = 112 ∨ conv = 120 := by
    revert conv
    decide
  rcases hcases with rfl | rfl | rfl | rfl | rfl <;>
    cases halt : flags.alt <;> simp [setbase, inField, between, start, baseOf, halt]

theorem baseOf_cases (conv : Byte) : 8 ≤ baseOf conv ∧ baseOf conv ≤ 16 := by
  unfold baseOf
  split
  case isTrue => decide
  case isFalse =>
    split <;> decide

/-- A field has gone out and the state is as it was before it. -/
theorem printstuff_endfield (pf : PF σ) (flags : Flags) (pre pre2 stuff : List Byte)
    (hspacing : pf.spacing = flags.width) (hleft : pf.rightspc = flags.left)
    (hfill : pf.fillchar = flags.fillchar) (hwidth : flags.width < 2 ^ 31)
    (hlen : ((cstr pre ++ cstr pre2) ++ cstr stuff).length < 2 ^ 31) :
    ∃ a', (pf.printstuff send pre pre2 stuff).endfield = between a' pf.ap ∧
      Carried send (layout flags (cstr pre ++ cstr pre2) (cstr stuff))
        (pf.clientdata, pf.charcount) a' := by
  have hsent : Sent send _ pf (pf.printstuff send pre pre2 stuff) :=
    Sent.printstuff flags pre pre2 stuff hspacing hleft hfill hwidth hlen
  exact ⟨_, hsent.endfield, hsent.carried⟩

theorem signText_noNul (conv : Byte) (w : BitVec 32) : 0 ∉ signText conv w := by
  unfold signText
  split <;> decide

theorem length_signText_le (conv : Byte) (w : BitVec 32) : (signText conv w).length ≤ 1 := by
  unfold signText
  split <;> decide

theorem length_baseText_le (flags : Flags) (conv : Byte) : (baseText flags conv).length ≤ 2 := by
  unfold baseText
  split
  case isTrue =>
    split
    case isTrue => decide
    case isFalse => split <;> decide
  case isFalse => decide

theorem baseText_noNul (flags : Flags) (conv : Byte) : 0 ∉ baseText flags conv := by
  unfold baseText
  split
  case isTrue =>
    split
    case isTrue => decide
    case isFalse => split <;> decide
  case isFalse => decide

theorem magnitude_lt (conv : Byte) (w : BitVec 32) : magnitude conv w < 2 ^ 32 := by
  have hlt := w.isLt
  unfold magnitude
  rw [BitVec.toInt_eq_toNat_cond]
  split
  case isTrue => split <;> omega
  case isFalse => exact hlt

theorem send_integer (buf : Bytes) (hconv : conv ∈ integerTypes) (w : BitVec 32)
    (hwidth : flags.width < 2 ^ 31) :
    ∃ a', (inField a (.word w :: args) flags size).pfSend send buf conv =
        some (between a' args) ∧
      Carried send (Piece.integer flags conv w).text a a' := by
  obtain ⟨hnul, hnomod⟩ : conv ≠ 0 ∧ strchr modifiers conv = none := by
    revert conv
    decide
  obtain ⟨sign, num, hgetnum, hnum, hsign⟩ := getnum_inField a args size conv w flags
  obtain ⟨hbase, hbase16⟩ := baseOf_cases conv
  have htext := numberText_eq hbase hbase16 (magnitude_lt conv w) buf
  have hdigits := digitText_noNul (by omega : 1 < baseOf conv) hbase16 (magnitude conv w)
  have hsprefix : (if sign ≠ 0 then [45] else []) = signText conv w := by
    simp only [hsign, signText]
  have hbprefix : (if decide (flags.alt = true ∨ conv = 112) = true ∧ baseOf conv = 16 then
      [48, 120] else if decide (flags.alt = true ∨ conv = 112) = true ∧ baseOf conv = 8 then [48]
      else []) = baseText flags conv := by
    rw [baseText]
    by_cases hmarked : flags.alt = true ∨ conv = 112
    · simp only [hmarked, decide_true, true_and, if_true]
    · simp only [hmarked, decide_false, Bool.false_eq_true, false_and, if_false]
  have hlen : ((signText conv w ++ baseText flags conv) ++
      digitText (baseOf conv) (magnitude conv w)).length < 2 ^ 31 := by
    have hsign := length_signText_le conv w
    have hmarks := length_baseText_le flags conv
    have hfits : _ < 12 := length_numeral_lt hbase (magnitude_lt conv w)
    rw [List.length_append, List.length_append, length_digitText]
    omega
  have hplain₁ := cstr_eq_self (signText_noNul conv w)
  have hplain₂ := cstr_eq_self (baseText_noNul flags conv)
  have hplain₃ := cstr_eq_self hdigits
  rw [← hplain₁, ← hplain₂, ← hplain₃] at hlen
  obtain ⟨a', hend, hcarried⟩ := printstuff_endfield send
    { inField a args flags size with
      num, sign, base := baseOf conv, baseprefix := decide (flags.alt = true ∨ conv = 112) }
    flags (signText conv w) (baseText flags conv) (digitText (baseOf conv) (magnitude conv w))
    rfl rfl rfl hwidth hlen
  rw [hplain₁, hplain₂, hplain₃] at hcarried
  refine ⟨a', ?_, hcarried⟩
  have hfound := (strchr_isSome integerTypes hnul).mpr hconv
  rw [pfSend, if_neg hnul, if_neg (by simp [inField]), if_neg (by simp [inField]),
    if_neg (by simp [hnomod]), if_pos hfound, hgetnum]
  simp only [Option.bind_eq_bind, Option.bind_some, setbase_inField a args size hconv]
  rw [printnum]
  simp only [hnum, htext, Option.bind_eq_bind, Option.bind_some, hsprefix, hbprefix,
    Option.pure_def]
  rw [hend]
  rfl

theorem send_string (buf : Bytes) (hnonul : ∀ text, s = some text → 0 ∉ text)
    (hwidth : flags.width < 2 ^ 31) (hlen : (s.getD nullText).length < 2 ^ 31) :
    ∃ a', (inField a (.string s :: args) flags size).pfSend send buf 115 =
        some (between a' args) ∧
      Carried send (Piece.string flags s).text a a' := by
  have hplain : cstr (s.getD nullText) = s.getD nullText := by
    cases s with
    | none => rfl
    | some text => exact cstr_eq_self (hnonul text rfl)
  obtain ⟨a', hend, hcarried⟩ := printstuff_endfield send
    (inField a args flags size) flags [] [] (s.getD nullText) rfl rfl rfl hwidth
    (by rw [hplain]; exact hlen)
  rw [hplain] at hcarried
  refine ⟨a', ?_, hcarried⟩
  have hend' : some ((inField a args flags size).printstuff send [] [] (s.getD nullText)).endfield =
      some (between a' args) := congrArg some hend
  exact hend'

theorem cstr_char (x : Byte) : cstr [x, 0] = cstr [x] := by
  by_cases hx : x = 0#8
  · simp [cstr, hx]
  · simp [cstr, hx]

/-- The last kind of field: one character, which is nothing where it is a NUL. -/
theorem endfield_char (flags : Flags) (x : Byte) (hwidth : flags.width < 2 ^ 31) :
    ∃ a', ((inField a args flags size).printstuff send [] [] [x, 0]).endfield = between a' args ∧
      Carried send (layout flags [] (cstr [x])) a a' := by
  have hlen : (cstr [x, 0]).length ≤ 2 := (List.takeWhile_prefix _).length_le
  obtain ⟨a', hend, hcarried⟩ := printstuff_endfield send
    (inField a args flags size) flags [] [] [x, 0] rfl rfl rfl hwidth
    (Nat.lt_of_le_of_lt hlen (by decide))
  rw [cstr_char] at hcarried
  exact ⟨a', hend, hcarried⟩

theorem send_char (buf : Bytes) (w : BitVec 32) (hwidth : flags.width < 2 ^ 31) :
    ∃ a', (inField a (.word w :: args) flags size).pfSend send buf 99 =
        some (between a' args) ∧
      Carried send (Piece.char flags (w.setWidth 8)).sent a a' := by
  obtain ⟨a', hend, hcarried⟩ := endfield_char send a args size
    flags (w.setWidth 8) hwidth
  exact ⟨a', congrArg some hend, hcarried⟩

theorem send_other (buf : Bytes) (hnomod : conv ∉ modifiers) (hnotype : conv ∉ integerTypes)
    (hnostring : conv ≠ 115) (hnochar : conv ≠ 99) (hnonul : conv ≠ 0)
    (hwidth : flags.width < 2 ^ 31) :
    ∃ a', (inField a args flags size).pfSend send buf conv = some (between a' args) ∧
      Carried send (Piece.other flags conv).text a a' := by
  obtain ⟨a', hend, hcarried⟩ := endfield_char send a args size
    flags conv hwidth
  have hplain : cstr [conv] = [conv] := cstr_eq_self (by simpa using hnonul.symm)
  rw [hplain] at hcarried
  refine ⟨a', ?_, hcarried⟩
  rw [pfSend, if_neg hnonul, if_neg (by simp [inField]), if_neg (by simp [inField]),
    if_neg (by rw [strchr_isSome modifiers hnonul]; exact hnomod),
    if_neg (by rw [strchr_isSome integerTypes hnonul]; exact hnotype), if_neg hnostring,
    if_neg hnochar]
  exact congrArg some hend

/-- A character outside of the fields. -/
theorem send_literal (buf : Bytes) (hc : c ≠ 37) (hnonul : c ≠ 0) :
    ∃ a', (between a args).pfSend send buf c = some (between a' args) ∧
      Carried send [c] a a' := by
  refine ⟨(send a.1 [c], int32 (a.2 + 1)), ?_, [[c]], rfl, rfl⟩
  rw [pfSend, if_neg hnonul, if_pos ⟨rfl, hc⟩]
  rfl

/-- A field whose last character is a conversion. -/
theorem sendAll_field (buf : Bytes) (hmods : ∀ m ∈ mods, m ∈ modifiers)
    (hwidth : (Flags.of mods).width < 2 ^ 31)
    (hconv : ∀ size, ∃ a', (inField a args (Flags.of mods) size).pfSend send buf conv =
      some (between a' args') ∧ Carried send text a a') :
    ∃ a', sendAll send buf (37 :: (mods ++ conv :: format)) (between a args) =
      sendAll send buf format (between a' args') ∧ Carried send text a a' := by
  obtain ⟨size, hmodifiers⟩ :
      ∃ size, sendAll send buf mods (inField a args (Flags.of []) .INTSZ) =
        some (inField a args (Flags.of ([] ++ mods)) size) :=
    sendAll_modifiers send a args .INTSZ buf hmods hwidth
  obtain ⟨a', hsend, hcarried⟩ := hconv size
  refine ⟨a', ?_, hcarried⟩
  have hpercent : (between a args).pfSend send buf 37 =
      some (inField a args (Flags.of []) .INTSZ) := rfl
  rw [sendAll, hpercent]
  simp only [Option.bind_eq_bind, Option.bind_some]
  rw [sendAll_append, hmodifiers]
  simp only [Option.bind_some, List.nil_append]
  rw [sendAll, hsend]
  rfl

/-- A modifier sends nothing, whatever the state in the field is. -/
theorem modifier_silent (hch : ch ∈ modifiers) (pf : PF σ) :
    ∃ pf', pf.modifier ch = some pf' ∧ pf'.inPct = pf.inPct ∧
      pf'.clientdata = pf.clientdata ∧ pf'.charcount = pf.charcount := by
  rcases modifier_cases hch with rfl | rfl | rfl | rfl | rfl | hdigit
  · exact ⟨_, rfl, rfl, rfl, rfl⟩
  · exact ⟨_, rfl, rfl, rfl, rfl⟩
  · refine ⟨_, rfl, ?_⟩
    split <;> exact ⟨rfl, rfl, rfl⟩
  · exact ⟨_, rfl, rfl, rfl, rfl⟩
  · refine ⟨_, rfl, ?_⟩
    split <;> exact ⟨rfl, rfl, rfl⟩
  · have hother := digit_ne hdigit
    rw [modifier, if_neg hother.1, if_neg hother.2.1, if_neg hother.2.2.1,
      if_neg hother.2.2.2.1, if_neg hother.2.2.2.2, if_pos hdigit]
    exact ⟨_, rfl, rfl, rfl, rfl⟩

theorem sendAll_unfinished (buf : Bytes) (hmods : ∀ m ∈ mods, m ∈ modifiers) (pf : PF σ)
    (hfield : pf.inPct = true) :
    ∃ pf', sendAll send buf mods pf = some pf' ∧
      pf'.clientdata = pf.clientdata ∧ pf'.charcount = pf.charcount := by
  induction mods generalizing pf with
  | nil => exact ⟨pf, rfl, rfl, rfl⟩
  | cons ch mods ih =>
      have hch := hmods ch (List.mem_cons_self ..)
      have hnul : ch ≠ 0 := by
        rintro rfl
        exact absurd hch (by decide)
      obtain ⟨pf₁, hmodifier, hfield₁, hclient₁, hcount₁⟩ := modifier_silent hch pf
      obtain ⟨pf', hrest, hclient, hcount⟩ := ih
        (fun m hm => hmods m (List.mem_cons_of_mem ch hm)) pf₁ (hfield₁.trans hfield)
      refine ⟨pf', ?_, hclient.trans hclient₁, hcount.trans hcount₁⟩
      rw [sendAll, pfSend, if_neg hnul, if_neg (by simp [hfield]), if_neg (by simp [hfield]),
        if_pos ((strchr_isSome modifiers hnul).mpr hch), hmodifier]
      exact hrest

end PF

theorem length_layout (flags : Flags) (pre body : List Byte) :
    (layout flags pre body).length = max flags.width (pre ++ body).length := by
  have hsum : (pre ++ body).length = pre.length + body.length := List.length_append
  unfold layout
  split
  case isTrue =>
    simp only [List.length_append, List.length_replicate]
    omega
  case isFalse =>
    split <;>
    · simp only [List.length_append, List.length_replicate]
      omega

/-- One piece has gone out, and the rest of the format follows. -/
theorem Carried.run_cons {piece : Piece} {a : σ × Int}
    (hhead : ∃ a₁, PF.sendAll send buf format (PF.between a args) =
        PF.sendAll send buf format' (PF.between a₁ args') ∧ Carried send piece.sent a a₁)
    (hrest : ∀ a₁, ∃ pf', PF.sendAll send buf format' (PF.between a₁ args') = some pf' ∧
      Carried send (pieces.flatMap Piece.sent) a₁ (pf'.clientdata, pf'.charcount)) :
    ∃ pf', PF.sendAll send buf format (PF.between a args) = some pf' ∧
      Carried send ((piece :: pieces).flatMap Piece.sent) a (pf'.clientdata, pf'.charcount) := by
  obtain ⟨a₁, hsame, hfirst⟩ := hhead
  obtain ⟨pf', hrun, hlast⟩ := hrest a₁
  exact ⟨pf', hsame.trans hrun, List.flatMap_cons ▸ hfirst.trans hlast⟩

/-- The format says what goes out. -/
theorem Formats.run (h : Formats format args pieces) (send : σ → List Byte → σ) (buf : Bytes)
    (hwidth : ∀ piece ∈ pieces, piece.width < 2 ^ 31)
    (hlen : (pieces.flatMap Piece.text).length < 2 ^ 31) (a : σ × Int) :
    ∃ pf', PF.sendAll send buf format (PF.between a args) = some pf' ∧
      Carried send (pieces.flatMap Piece.sent) a (pf'.clientdata, pf'.charcount) := by
  have htail : ∀ {piece : Piece} {pieces}, (∀ p ∈ piece :: pieces, p.width < 2 ^ 31) →
      ((piece :: pieces).flatMap Piece.text).length < 2 ^ 31 →
      piece.width < 2 ^ 31 ∧ piece.text.length < 2 ^ 31 ∧ (∀ p ∈ pieces, p.width < 2 ^ 31) ∧
      (pieces.flatMap Piece.text).length < 2 ^ 31 := by
    intro piece pieces hwidth hlen
    rw [List.flatMap_cons, List.length_append] at hlen
    exact ⟨hwidth piece (List.mem_cons_self ..), by omega,
      fun p hp => hwidth p (List.mem_cons_of_mem piece hp), by omega⟩
  induction h generalizing a with
  | done args => exact ⟨_, rfl, Carried.nothing a⟩
  | unfinished hmods args =>
      obtain ⟨pf', hrun, hclient, hcount⟩ := PF.sendAll_unfinished send buf hmods
        (PF.inField a args (Flags.of []) .INTSZ) rfl
      refine ⟨pf', hrun, ?_⟩
      rw [hclient, hcount]
      exact Carried.nothing a
  | literal hc hnonul hrest ih =>
      obtain ⟨_, _, hwidths, hlens⟩ := htail hwidth hlen
      obtain ⟨a₁, hsend, hcarried⟩ := PF.send_literal send a _ buf hc hnonul
      refine Carried.run_cons ⟨a₁, ?_, hcarried⟩ (fun a₁ => ih hwidths hlens a₁)
      rw [PF.sendAll, hsend]
      rfl
  | integer hmods hconv hrest ih =>
      obtain ⟨hpiece, _, hwidths, hlens⟩ := htail hwidth hlen
      exact Carried.run_cons (PF.sendAll_field send _ _ buf hmods hpiece
        fun size => PF.send_integer send _ _ size buf hconv _ hpiece) (fun a₁ => ih hwidths hlens a₁)
  | string hmods hnonul hrest ih =>
      obtain ⟨hpiece, htext, hwidths, hlens⟩ := htail hwidth hlen
      have hstring := Nat.lt_of_le_of_lt (Nat.le_max_right _ _) (length_layout _ _ _ ▸ htext)
      exact Carried.run_cons (PF.sendAll_field send _ _ buf hmods hpiece
        fun size => PF.send_string send _ _ size buf hnonul hpiece hstring) (fun a₁ => ih hwidths hlens a₁)
  | char hmods hrest ih =>
      obtain ⟨hpiece, _, hwidths, hlens⟩ := htail hwidth hlen
      exact Carried.run_cons (PF.sendAll_field send _ _ buf hmods hpiece
        fun size => PF.send_char send _ _ size buf _ hpiece) (fun a₁ => ih hwidths hlens a₁)
  | other hmods hnomod hnotype hnostring hnochar hnonul hrest ih =>
      obtain ⟨hpiece, _, hwidths, hlens⟩ := htail hwidth hlen
      exact Carried.run_cons (PF.sendAll_field send _ _ buf hmods hpiece
        fun size => PF.send_other send _ _ size buf hnomod hnotype hnostring hnochar hnonul hpiece)
        (fun a₁ => ih hwidths hlens a₁)

end Send

end OS161.Libc
