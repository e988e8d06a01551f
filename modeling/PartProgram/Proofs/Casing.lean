/-
Texts that are in one case already.

Putting a text in upper case twice is putting it in upper case once, and the same goes for
lower case.  Of the one rule that looks at the neighbours nothing is left the second time,
since it is about capital letters.  What remains is a fact about the tables: a code point that
something is moved to is not moved itself.

The tables hold fourteen hundred code points each, so this is not shown by going through them
for every code point anew.  A set of code points is written as one number with a bit for each
of them.  Two sets without a common element are two numbers without a common bit, and that is
a single computation.

A text that was trimmed stays trimmed too: what is not blank does not become so, and what
stands at the ends of a text stays at its ends.
-/
import Mathlib.Data.Nat.Bitwise
import PartProgram.Text.Blank
import PartProgram.Text.Case

namespace PartProgram.Text

/-! ### Sets of code points as numbers -/

/-- The number whose bits are the given ones. -/
def bits : List Nat → Nat
  | [] => 0
  | n :: rest => 1 <<< n ||| bits rest

theorem testBit_bits (ns : List Nat) (n : Nat) : (bits ns).testBit n = decide (n ∈ ns) := by
  induction ns with
  | nil => simp [bits]
  | cons m rest ih =>
      rw [bits, Nat.testBit_or, ih, Nat.one_shiftLeft, Nat.testBit_two_pow]
      by_cases h : m = n
      · simp [h]
      · simp [h, Ne.symm h]

/-- Sets without a common bit have no common element. -/
theorem not_mem_of_bits {ms ns : List Nat} (h : bits ms &&& bits ns = 0) {n : Nat} (hn : n ∈ ns) : n ∉ ms := by
  intro hm
  have hboth : (bits ms &&& bits ns).testBit n = true := by
    rw [Nat.testBit_and, testBit_bits, testBit_bits]
    simp [hm, hn]
  rw [h, Nat.zero_testBit] at hboth
  cases hboth

/-- The code points of a run. -/
def CaseRun.points (r : CaseRun) : List Nat :=
  (List.range ((r.last - r.first) / r.step + 1)).map fun i => r.first + i * r.step

theorem CaseRun.mem_points {r : CaseRun} {n : Nat} (h : r.contains n = true) : n ∈ r.points := by
  simp only [contains, Bool.and_eq_true, decide_eq_true_eq] at h
  obtain ⟨⟨hfirst, hlast⟩, hstep⟩ := h
  refine List.mem_map.mpr ⟨(n - r.first) / r.step, ?_, ?_⟩
  · have hle : (n - r.first) / r.step ≤ (r.last - r.first) / r.step := Nat.div_le_div_right (by omega)
    exact List.mem_range.mpr (Nat.lt_succ_of_le hle)
  · have hmul := Nat.div_add_mod (n - r.first) r.step
    rw [hstep, Nat.add_zero, Nat.mul_comm] at hmul
    omega

theorem toNat_ofNat {n : Nat} (h : n.isValidChar) : (Char.ofNat n).toNat = n := by
  rw [Char.ofNat, dif_pos h]
  rfl

/-- What is no code point at all is read as the first one. -/
theorem ofNat_of_not_valid {n : Nat} (h : ¬ n.isValidChar) : Char.ofNat n = Char.ofNat 0 := by
  rw [Char.ofNat, dif_neg h]
  rfl

/-! ### One direction of the change of case

Upper and lower case are one procedure with two sets of tables, so what can be said of both is
said of the procedure.  It needs to be known of the tables that no image is a mover, and of the
ASCII letters, which have a rule of their own, that they go to letters that the rule leaves
alone.
-/

/-- What becomes of a character: an ASCII letter has its own rule, and any other is looked for
among the sequences first and then among the runs. -/
def changed (ascii : Char → Char) (sequences : List (Nat × List Nat)) (runs : List CaseRun) (c : Char) : List Char :=
  if c.toNat < 0x80 then [ascii c]
  else match sequences.lookup c.toNat with
    | some ns => charsOfPoints ns
    | none => [Char.ofNat (shiftIn runs c.toNat)]

theorem upperChar_eq : upperChar = changed Char.toUpper upperSequences upperRuns := rfl

theorem lowerChar_eq : lowerChar = changed Char.toLower lowerSequences lowerRuns := rfl

/-- The code points beyond ASCII that change. -/
def movers (sequences : List (Nat × List Nat)) (runs : List CaseRun) : List Nat :=
  sequences.map (·.1) ++ runs.flatMap CaseRun.points

/-- The code points that others change to. -/
def images (sequences : List (Nat × List Nat)) (runs : List CaseRun) : List Nat :=
  sequences.flatMap (·.2) ++ runs.flatMap fun r => r.points.map fun (n : Nat) => ((n : Int) + r.shift).toNat

section Changed

variable {ascii : Char → Char} {sequences : List (Nat × List Nat)} {runs : List CaseRun} {c d : Char}

theorem mem_of_lookup {ns : List Nat} (h : sequences.lookup n = some ns) : (n, ns) ∈ sequences := by
  induction sequences with
  | nil => cases h
  | cons first rest ih =>
      rw [List.lookup_cons] at h
      by_cases hn : (n == first.1) = true
      · simp only [hn] at h
        obtain rfl := Option.some.inj h
        rw [beq_iff_eq.mp hn]
        exact List.mem_cons_self
      · simp only [hn] at h
        exact List.mem_cons_of_mem first (ih h)

/-- A character that is none of the movers stays. -/
theorem changed_of_not_mover (hbeyond : 0x80 ≤ c.toNat) (hc : c.toNat ∉ movers sequences runs) :
    changed ascii sequences runs c = [c] := by
  have hlookup : sequences.lookup c.toNat = none := by
    cases hs : sequences.lookup c.toNat with
    | none => rfl
    | some ns => exact absurd (List.mem_append_left _ (List.mem_map_of_mem (mem_of_lookup hs))) hc
  have hrun : runs.find? (·.contains c.toNat) = none := by
    rw [List.find?_eq_none]
    intro r hr hcontains
    exact hc (List.mem_append_right _ (List.mem_flatMap.mpr ⟨r, hr, CaseRun.mem_points hcontains⟩))
  rw [changed, if_neg (by omega), hlookup]
  simp only [shiftIn, hrun, Char.ofNat_toNat]

/-- What a character beyond ASCII changes to is one of the images, unless it stays. -/
theorem image_of_mem_changed (hbeyond : 0x80 ≤ c.toNat) (hd : d ∈ changed ascii sequences runs c) :
    (changed ascii sequences runs c = [c] ∧ d = c) ∨ ∃ n ∈ images sequences runs, d = Char.ofNat n := by
  rw [changed, if_neg (by omega)] at hd ⊢
  cases hs : sequences.lookup c.toNat with
  | some ns =>
      simp only [hs, charsOfPoints] at hd
      obtain ⟨n, hn, rfl⟩ := List.mem_map.mp hd
      exact Or.inr ⟨n, List.mem_append_left _ (List.mem_flatMap.mpr ⟨_, mem_of_lookup hs, hn⟩), rfl⟩
  | none =>
      simp only [hs, List.mem_singleton] at hd
      cases hr : runs.find? (·.contains c.toNat) with
      | none =>
          simp only [shiftIn, hr, Char.ofNat_toNat] at hd ⊢
          exact Or.inl ⟨trivial, hd⟩
      | some r =>
          simp only [shiftIn, hr] at hd
          have hpoint : c.toNat ∈ r.points := CaseRun.mem_points (by simpa using List.find?_some hr)
          exact Or.inr ⟨_, List.mem_append_right _ (List.mem_flatMap.mpr ⟨r, List.mem_of_find?_eq_some hr,
            List.mem_map_of_mem hpoint⟩), hd⟩

theorem changed_ne_nil (h : ∀ e ∈ sequences, e.2 ≠ []) (c : Char) : changed ascii sequences runs c ≠ [] := by
  unfold changed
  split
  · exact List.cons_ne_nil _ _
  · split
    · rename_i ns hs
      intro hnil
      exact h _ (mem_of_lookup hs) (List.map_eq_nil_iff.mp hnil)
    · exact List.cons_ne_nil _ _

/-- Nothing that is changed changes again; `letters` are the ASCII characters that do. -/
structure Settles (ascii : Char → Char) (letters : List Nat) (sequences : List (Nat × List Nat))
    (runs : List CaseRun) : Prop where
  images : ∀ n ∈ images sequences runs, n ∉ letters ∧ n ∉ movers sequences runs
  others : ∀ n < 0x80, n ∉ letters → ascii (Char.ofNat n) = Char.ofNat n
  ascii : ∀ n < 0x80, (ascii (Char.ofNat n)).toNat < 0x80 ∧ (ascii (Char.ofNat n)).toNat ∉ letters
  nul : 0 ∉ letters

namespace Settles

variable {letters : List Nat}

theorem changed_of_ascii (h : Settles ascii letters sequences runs) (hc : c.toNat < 0x80) (hl : c.toNat ∉ letters) :
    changed ascii sequences runs c = [c] := by
  have hkept := h.others c.toNat hc hl
  rw [Char.ofNat_toNat] at hkept
  rw [changed, if_pos hc, hkept]

/-- **What has been changed stays.** -/
theorem changed_of_mem (h : Settles ascii letters sequences runs) (hd : d ∈ changed ascii sequences runs c) :
    changed ascii sequences runs d = [d] := by
  by_cases hc : c.toNat < 0x80
  · rw [changed, if_pos hc, List.mem_singleton] at hd
    have hsmall := h.ascii c.toNat hc
    rw [Char.ofNat_toNat, ← hd] at hsmall
    exact h.changed_of_ascii hsmall.1 hsmall.2
  · rcases image_of_mem_changed (by omega) hd with ⟨hstays, rfl⟩ | ⟨n, hn, rfl⟩
    · exact hstays
    · obtain ⟨hletter, hmover⟩ := h.images n hn
      by_cases hvalid : n.isValidChar
      · have hpoint := toNat_ofNat hvalid
        by_cases hsmall : n < 0x80
        · exact h.changed_of_ascii (by omega) (by rwa [hpoint])
        · exact changed_of_not_mover (by omega) (by rwa [hpoint])
      · rw [ofNat_of_not_valid hvalid]
        exact h.changed_of_ascii (by decide) h.nul

end Settles

end Changed

/-! ### Both directions -/

/-- The code points of the ASCII letters from one to another. -/
def letters (first last : Char) : List Nat := CaseRun.points ⟨first.toNat, last.toNat, 1, 0⟩

theorem settles_upper : Settles Char.toUpper (letters 'a' 'z') upperSequences upperRuns where
  images := by
    have hbits : bits (letters 'a' 'z' ++ movers upperSequences upperRuns)
        &&& bits (images upperSequences upperRuns) = 0 := by
      decide +kernel
    intro n hn
    have happart := not_mem_of_bits hbits hn
    exact ⟨fun h => happart (List.mem_append_left _ h), fun h => happart (List.mem_append_right _ h)⟩
  others := by decide +kernel
  ascii := by decide +kernel
  nul := by decide

/-- The blank characters. -/
def blankPoints : List Nat := blankRanges.flatMap fun (low, high) => CaseRun.points ⟨low, high, 1, 0⟩

/-- No letter in lower case changes, and none is blank. -/
theorem apart_lower {n : Nat} (hn : n ∈ images lowerSequences lowerRuns) :
    n ∉ blankPoints ∧ n ∉ letters 'A' 'Z' ∧ n ∉ movers lowerSequences lowerRuns := by
  have hbits : bits (blankPoints ++ (letters 'A' 'Z' ++ movers lowerSequences lowerRuns))
      &&& bits (images lowerSequences lowerRuns) = 0 := by
    decide +kernel
  have happart := not_mem_of_bits hbits hn
  simp only [List.mem_append, not_or] at happart
  exact happart

theorem settles_lower : Settles Char.toLower (letters 'A' 'Z') lowerSequences lowerRuns where
  images := fun _ hn => (apart_lower hn).2
  others := by decide +kernel
  ascii := by decide +kernel
  nul := by decide

/-! ### Texts in upper case -/

theorem upperChar_of_mem {c d : Char} (h : d ∈ upperChar c) : upperChar d = [d] := by
  rw [upperChar_eq] at h ⊢
  exact settles_upper.changed_of_mem h

/-- A text in upper case is its own upper case. -/
theorem upper_upper (s : String) : upper (upper s) = upper s := by
  have hfixed : ∀ cs : List Char, (∀ c ∈ cs, upperChar c = [c]) → cs.flatMap upperChar = cs := by
    intro cs h
    induction cs with
    | nil => rfl
    | cons c rest ih =>
        rw [List.flatMap_cons, h c List.mem_cons_self, ih fun d hd => h d (List.mem_cons_of_mem c hd)]
        rfl
  have hall : ∀ d ∈ s.toList.flatMap upperChar, upperChar d = [d] := by
    intro d hd
    obtain ⟨c, -, hc⟩ := List.mem_flatMap.mp hd
    exact upperChar_of_mem hc
  rw [upper, upper, String.toList_ofList, hfixed _ hall]

theorem upper_ne_empty {s : String} (h : s ≠ "") : upper s ≠ "" := by
  intro hempty
  have hnil : s.toList.flatMap upperChar = [] := by simpa [upper] using congrArg String.toList hempty
  have hchars : s.toList ≠ [] := fun hs => h (String.toList_eq_nil_iff.mp hs)
  obtain ⟨c, rest, hs⟩ := List.exists_cons_of_ne_nil hchars
  rw [hs, List.flatMap_cons, List.append_eq_nil_iff, upperChar_eq] at hnil
  exact changed_ne_nil (by decide +kernel) c hnil.1

/-! ### Texts in lower case

A capital sigma is the one character whose small letter depends on what stands around it.  But
it becomes one of two letters in any case, and both of them are left alone wherever they stand.
So the neighbours need not be known: every character of the result is low.
-/

/-- A character that lower case leaves alone wherever it stands. -/
structure IsLow (c : Char) : Prop where
  stays : lowerChar c = [c]
  not_sigma : c.toNat ≠ 0x3a3

theorem isLow_of_mem {c d : Char} (h : d ∈ lowerChar c) : IsLow d := by
  rw [lowerChar_eq] at h
  have hstays : lowerChar d = [d] := settles_lower.changed_of_mem h
  refine ⟨hstays, ?_⟩
  intro hsigma
  have hmoves : lowerChar (Char.ofNat 0x3a3) ≠ [Char.ofNat 0x3a3] := by decide +kernel
  rw [← hsigma, Char.ofNat_toNat] at hmoves
  exact hmoves hstays

/-- What a character becomes between those before it and those after it. -/
def lowered (before : List Char) (c : Char) (rest : List Char) : List Char :=
  if c.toNat = 0x3a3 then [Char.ofNat (if meetsCased before && !meetsCased rest then 0x3c2 else 0x3c3)]
  else lowerChar c

theorem lowerFrom_cons (before : List Char) (c : Char) (rest : List Char) :
    lowerFrom before (c :: rest) = lowered before c rest ++ lowerFrom (c :: before) rest := rfl

/-- The two small letters that a capital sigma becomes. -/
theorem isLow_of_mem_lowered {before rest : List Char} {c d : Char} (h : d ∈ lowered before c rest) : IsLow d := by
  unfold lowered at h
  split at h
  · rw [List.mem_singleton] at h
    subst h
    split
    · exact ⟨by decide +kernel, by decide⟩
    · exact ⟨by decide +kernel, by decide⟩
  · exact isLow_of_mem h

theorem lowered_ne_nil (before : List Char) (c : Char) (rest : List Char) : lowered before c rest ≠ [] := by
  unfold lowered
  split
  · exact List.cons_ne_nil _ _
  · rw [lowerChar_eq]
    exact changed_ne_nil (by decide +kernel) c

theorem isLow_of_mem_lowerFrom {cs before : List Char} {d : Char} (h : d ∈ lowerFrom before cs) : IsLow d := by
  induction cs generalizing before with
  | nil => cases h
  | cons c rest ih =>
      rw [lowerFrom_cons] at h
      rcases List.mem_append.mp h with hhere | hlater
      · exact isLow_of_mem_lowered hhere
      · exact ih hlater

theorem lowerFrom_of_isLow {cs : List Char} (h : ∀ c ∈ cs, IsLow c) (before : List Char) : lowerFrom before cs = cs := by
  induction cs generalizing before with
  | nil => rfl
  | cons c rest ih =>
      have hc := h c List.mem_cons_self
      rw [lowerFrom_cons, lowered, if_neg hc.not_sigma, hc.stays, ih fun d hd => h d (List.mem_cons_of_mem c hd)]
      rfl

/-- A text in lower case is its own lower case. -/
theorem lower_lower (s : String) : lower (lower s) = lower s := by
  have hlow : ∀ d ∈ lowerFrom [] s.toList, IsLow d := fun _ hd => isLow_of_mem_lowerFrom hd
  rw [lower, lower, String.toList_ofList, lowerFrom_of_isLow hlow]

theorem lower_eq_empty {s : String} : lower s = "" ↔ s = "" := by
  constructor
  · intro h
    have hnil : lowerFrom [] s.toList = [] := by simpa [lower] using congrArg String.toList h
    cases hs : s.toList with
    | nil => exact String.toList_eq_nil_iff.mp hs
    | cons c rest =>
        rw [hs, lowerFrom_cons, List.append_eq_nil_iff] at hnil
        exact absurd hnil.1 (lowered_ne_nil [] c rest)
  · intro h
    subst h
    rfl

/-! ### Trimmed texts -/

/-- There is no blank character at either end. -/
structure IsTrimmed (cs : List Char) : Prop where
  first : ∀ c ∈ cs.head?, isBlank c = false
  last : ∀ c ∈ cs.getLast?, isBlank c = false

theorem dropBlank_eq_self {cs : List Char} (h : ∀ c ∈ cs.head?, isBlank c = false) : dropBlank cs = cs := by
  cases cs with
  | nil => rfl
  | cons c rest =>
      have hc : isBlank c = false := h c (by simp)
      simp [dropBlank, hc]

theorem head?_dropBlank (cs : List Char) : ∀ c ∈ (dropBlank cs).head?, isBlank c = false := by
  intro c hc
  have hhead := List.head?_dropWhile_not isBlank cs
  rw [show (cs.dropWhile isBlank).head? = some c from hc] at hhead
  exact hhead

theorem trimChars_of_isTrimmed {cs : List Char} (h : IsTrimmed cs) : trimChars cs = cs := by
  have hlast : ∀ c ∈ cs.reverse.head?, isBlank c = false := by
    rw [List.head?_reverse]
    exact h.last
  rw [trimChars, dropBlank_eq_self h.first, dropBlank_eq_self hlast, List.reverse_reverse]

theorem isTrimmed_trimChars (cs : List Char) : IsTrimmed (trimChars cs) where
  first := by
    intro c hc
    -- What is dropped at the end leaves the beginning, unless it leaves nothing.
    have hpre : trimChars cs <+: dropBlank cs := by
      have hsuffix : dropBlank (dropBlank cs).reverse <:+ (dropBlank cs).reverse := List.dropWhile_suffix isBlank
      simpa [trimChars] using List.reverse_prefix.mpr hsuffix
    obtain ⟨rest, hrest⟩ := hpre
    refine head?_dropBlank cs c ?_
    rw [← hrest, List.head?_append, hc]
    rfl
  last := by
    intro c hc
    rw [trimChars, List.getLast?_reverse] at hc
    exact head?_dropBlank _ c hc

theorem isBlank_of_mem_blankPoints {c : Char} (h : isBlank c = true) : c.toNat ∈ blankPoints := by
  obtain ⟨⟨low, high⟩, hrange, hlow, hhigh⟩ := Ranges.contains_iff.mp h
  refine List.mem_flatMap.mpr ⟨(low, high), hrange, CaseRun.mem_points ?_⟩
  simp [CaseRun.contains, hlow, hhigh, Nat.mod_one]

/-- Lower case makes nothing blank. -/
theorem not_isBlank_of_mem {c d : Char} (hc : isBlank c = false) (hd : d ∈ lowerChar c) : isBlank d = false := by
  rw [lowerChar_eq] at hd
  by_cases hsmall : c.toNat < 0x80
  · have hascii : ∀ n < 0x80, isBlank (Char.ofNat n) = false → isBlank (Char.ofNat n).toLower = false := by
      decide +kernel
    have hkept := hascii c.toNat hsmall
    rw [Char.ofNat_toNat] at hkept
    rw [changed, if_pos hsmall, List.mem_singleton] at hd
    rw [hd]
    exact hkept hc
  · rcases image_of_mem_changed (by omega) hd with ⟨-, rfl⟩ | ⟨n, hn, rfl⟩
    · exact hc
    · by_cases hvalid : n.isValidChar
      · refine Bool.eq_false_iff.mpr ?_
        intro hblank
        have hpoint := isBlank_of_mem_blankPoints hblank
        rw [toNat_ofNat hvalid] at hpoint
        exact (apart_lower hn).1 hpoint
      · rw [ofNat_of_not_valid hvalid]
        decide

theorem not_isBlank_of_mem_lowered {before rest : List Char} {c d : Char} (hc : isBlank c = false)
    (hd : d ∈ lowered before c rest) : isBlank d = false := by
  unfold lowered at hd
  split at hd
  · rw [List.mem_singleton] at hd
    subst hd
    split
    · decide
    · decide
  · exact not_isBlank_of_mem hc hd

theorem getLast?_lowerFrom {cs : List Char} (h : ∀ c ∈ cs.getLast?, isBlank c = false) (before : List Char) :
    ∀ d ∈ (lowerFrom before cs).getLast?, isBlank d = false := by
  induction cs generalizing before with
  | nil =>
      intro d hd
      cases hd
  | cons c rest ih =>
      intro d hd
      rw [lowerFrom_cons, List.getLast?_append] at hd
      cases rest with
      | nil =>
          have hc : isBlank c = false := h c (by simp)
          exact not_isBlank_of_mem_lowered hc (List.mem_of_getLast? hd)
      | cons e later =>
          have hne : lowerFrom (c :: before) (e :: later) ≠ [] := by
            rw [lowerFrom_cons]
            exact List.append_ne_nil_of_left_ne_nil (lowered_ne_nil _ _ _) _
          rw [List.getLast?_eq_some_getLast hne] at hd
          refine ih (fun x hx => h x (by simpa using hx)) (c :: before) d ?_
          rw [List.getLast?_eq_some_getLast hne]
          exact hd

theorem isTrimmed_lowerFrom {cs : List Char} (h : IsTrimmed cs) (before : List Char) :
    IsTrimmed (lowerFrom before cs) where
  first := by
    intro d hd
    cases cs with
    | nil => cases hd
    | cons c rest =>
        have hc : isBlank c = false := h.first c (by simp)
        rw [lowerFrom_cons, List.head?_append] at hd
        cases hhere : (lowered before c rest).head? with
        | none => exact absurd (List.head?_eq_none_iff.mp hhere) (lowered_ne_nil before c rest)
        | some e =>
            rw [hhere] at hd
            obtain rfl := Option.some.inj hd
            exact not_isBlank_of_mem_lowered hc (List.mem_of_head? hhere)
  last := getLast?_lowerFrom h.last before

/-- What is trimmed and put in lower case is both already. -/
theorem lower_trim_lower_trim (s : String) : lower (trim (lower (trim s))) = lower (trim s) := by
  have htrimmed : IsTrimmed (lowerFrom [] (trimChars s.toList)) := isTrimmed_lowerFrom (isTrimmed_trimChars _) []
  have hchars : (lower (trim s)).toList = lowerFrom [] (trimChars s.toList) := by
    rw [lower, trim, String.toList_ofList, String.toList_ofList]
  have htrim : trim (lower (trim s)) = lower (trim s) := by
    rw [trim, hchars, trimChars_of_isTrimmed htrimmed, ← hchars, String.ofList_toList]
  rw [htrim, lower_lower]

end PartProgram.Text
