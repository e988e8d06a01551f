/-
Values read back from JSON.

JSON has texts, integers that can be written, floats that are numbers, truth values and nothing, and
lists and maps of these, a map having texts for its keys.  Every such value has a text, and the text is read back as
the value, whatever stands behind it; only that a sequence comes back as a list.  The text is one
line of printable ASCII.

The induction is on the value.  What it carries, `Writes`, says of the text of a part what the
reader of the whole needs to know: how it begins, since an empty list is told from others by that,
and that the reader leaves what is behind it.
-/
import PartProgram.Proofs.JsonReading

namespace PartProgram.Json

open Decimal

/-! ### Values that JSON has -/

mutual

/-- Whether JSON has a value. -/
def Holds [DigitLimit] : Value → Prop
  | .null | .bool _ | .text _ => True
  | .int i => Decimal.isWritten i = true
  | .float x => x.isFinite = true
  | .list items | .tuple items => HoldsAll items
  | .map entries => HoldsEntries entries ∧ (entries.map (·.1)).Nodup
  | .position .. | .mode _ => False

/-- Whether JSON has all of some values. -/
def HoldsAll [DigitLimit] : List Value → Prop
  | [] => True
  | v :: rest => Holds v ∧ HoldsAll rest

/-- Whether the entries of a map are members of an object. -/
def HoldsEntries [DigitLimit] : List (Value × Value) → Prop
  | [] => True
  | (k, v) :: rest => (∃ name, k = .text name) ∧ Holds v ∧ HoldsEntries rest

end

mutual

/-- A value as JSON has it, where every sequence is a list. -/
def datum : Value → Value
  | .list items | .tuple items => .list (data items)
  | .map entries => .map (entryData entries)
  | v => v

/-- Values as JSON has them. -/
def data : List Value → List Value
  | [] => []
  | v :: rest => datum v :: data rest

/-- The entries of a map as JSON has them. -/
def entryData : List (Value × Value) → List (Value × Value)
  | [] => []
  | (k, v) :: rest => (k, datum v) :: entryData rest

end

/-! ### Texts of values -/

/-- Printable ASCII. -/
def IsAsciiChar (c : Char) : Prop := 0x20 ≤ c.toNat ∧ c.toNat < 0x7f

instance (c : Char) : Decidable (IsAsciiChar c) := inferInstanceAs (Decidable (0x20 ≤ c.toNat ∧ c.toNat < 0x7f))

/-- A line of printable ASCII. -/
def IsAscii (s : String) : Prop := ∀ c ∈ s.toList, IsAsciiChar c

theorem isAscii_of_toList {s : String} {cs : List Char} (hs : s.toList = cs) (h : ∀ c ∈ cs, IsAsciiChar c) : IsAscii s := by
  unfold IsAscii
  rwa [hs]

theorem isAscii_comma : IsAscii ", " :=
  isAscii_of_toList rfl (List.forall_mem_cons.mpr ⟨by decide, List.forall_mem_singleton.mpr (by decide)⟩)

theorem isAscii_colon : IsAscii ": " :=
  isAscii_of_toList rfl (List.forall_mem_cons.mpr ⟨by decide, List.forall_mem_singleton.mpr (by decide)⟩)

theorem isAscii_append {s t : String} (hs : IsAscii s) (ht : IsAscii t) : IsAscii (s ++ t) := by
  intro c hc
  rw [String.toList_append] at hc
  exact (List.mem_append.mp hc).elim (hs c) (ht c)

theorem isAscii_intercalate {sep : String} (hsep : IsAscii sep) {ts : List String} (h : ∀ t ∈ ts, IsAscii t) :
    IsAscii (sep.intercalate ts) := by
  induction ts with
  | nil =>
      rw [String.intercalate_nil]
      exact fun c hc => absurd hc List.not_mem_nil
  | cons first rest ih =>
      obtain ⟨hfirst, hrest⟩ := List.forall_mem_cons.mp h
      cases rest with
      | nil =>
          rw [String.intercalate_singleton]
          exact hfirst
      | cons second more =>
          rw [String.intercalate_cons_cons]
          exact isAscii_append (isAscii_append hfirst hsep) (ih hrest)

/-- What is behind a word or a number ends it. -/
def Ends (rest : List Char) : Prop := ∀ c ∈ rest.head?, isTokenChar c = false

/-- A text begins with neither white space nor a bracket that closes something. -/
def Starts (s : String) : Prop := ∃ c more, s.toList = c :: more ∧ isSpace c = false ∧ c ≠ ']' ∧ c ≠ '\x7d'

/-- The text of a part that is read as the given value. -/
structure Writes (s : String) (v : Value) : Prop where
  start : Starts s
  ascii : IsAscii s
  reads : ∀ fuel rest, Ends rest → 2 * (s.toList.length + rest.length) < fuel →
    readValue fuel (s.toList ++ rest) = some (v, rest)

theorem skip_cons {c : Char} (hc : isSpace c = false) (rest : List Char) : skip (c :: rest) = c :: rest := by
  rw [skip, List.dropWhile_cons_of_neg (by rw [hc]; exact Bool.false_ne_true)]

/-! ### Words and numbers -/

theorem isAsciiChar_of_isTokenChar {c : Char} (h : isTokenChar c = true) : IsAsciiChar c := by
  simp only [isTokenChar, Char.isAlphanum, Char.isAlpha, Char.isUpper, Char.isLower, Char.isDigit, Bool.or_eq_true,
    Bool.and_eq_true, decide_eq_true_eq, beq_iff_eq, ge_iff_le, UInt32.le_iff_toNat_le] at h
  have hnat : c.toNat = c.val.toNat := rfl
  have hends : 'A'.val.toNat = 65 ∧ 'Z'.val.toNat = 90 ∧ 'a'.val.toNat = 97 ∧ 'z'.val.toNat = 122 ∧ '0'.val.toNat = 48
      ∧ '9'.val.toNat = 57 := by decide
  unfold IsAsciiChar
  rcases h with ((hletter | rfl) | rfl) | rfl
  · omega
  · decide
  · decide
  · decide

theorem isTokenChar_of_numberChar {c : Char} (h : NumberChar c) : isTokenChar c = true := by
  rcases h with hdigit | hmark
  · rw [isTokenChar, Char.isAlphanum, hdigit, Bool.or_true]
    rfl
  · simp only [List.mem_cons, List.not_mem_nil, or_false] at hmark
    rcases hmark with rfl | rfl | rfl | rfl
    · rfl
    · rfl
    · rfl
    · rfl

theorem ne_of_isTokenChar {c d : Char} (hc : isTokenChar c = true) (hd : isTokenChar d = false) : c ≠ d := by
  rintro rfl
  rw [hc] at hd
  cases hd

theorem not_isSpace_of_isTokenChar {c : Char} (h : isTokenChar c = true) : isSpace c = false := by
  simp only [isSpace, Bool.or_eq_false_iff, beq_eq_false_iff_ne]
  exact ⟨⟨⟨ne_of_isTokenChar h rfl, ne_of_isTokenChar h rfl⟩, ne_of_isTokenChar h rfl⟩, ne_of_isTokenChar h rfl⟩

/-- A token is read up to where it ends. -/
theorem writes_of_token {s : String} {v : Value} (hne : s.toList ≠ []) (hs : ∀ c ∈ s.toList, isTokenChar c = true)
    (h : readToken? s.toList = some v) : Writes s v := by
  obtain ⟨c, more, hcons⟩ := List.exists_cons_of_ne_nil hne
  have hc : isTokenChar c = true := hs c (hcons ▸ List.mem_cons_self)
  refine ⟨⟨c, more, hcons, not_isSpace_of_isTokenChar hc, ne_of_isTokenChar hc rfl, ne_of_isTokenChar hc rfl⟩,
    fun d hd => isAsciiChar_of_isTokenChar (hs d hd), fun fuel rest hends hfuel => ?_⟩
  obtain ⟨fuel, rfl⟩ := Nat.exists_eq_succ_of_ne_zero (Nat.ne_of_gt (Nat.zero_lt_of_lt hfuel))
  have htoken : (s.toList ++ rest).takeWhile isTokenChar = s.toList
      ∧ (s.toList ++ rest).dropWhile isTokenChar = rest := by
    rw [List.takeWhile_append_of_pos hs, List.dropWhile_append_of_pos hs]
    cases rest with
    | nil => simp
    | cons d rest => simp [hends d rfl]
  rw [hcons, List.cons_append] at htoken ⊢
  rw [readValue, skip_cons (not_isSpace_of_isTokenChar hc)]
  dsimp only
  rw [if_neg (ne_of_isTokenChar hc rfl), if_neg (ne_of_isTokenChar hc rfl), if_neg (ne_of_isTokenChar hc rfl),
    htoken.1, htoken.2, ← hcons, h, Option.map_some]

/-- What does not begin with a letter is no word. -/
theorem readToken?_of_head {cs : List Char} (h : ∃ c rest, cs = c :: rest ∧ (c.isDigit = true ∨ c = '-')) :
    readToken? cs = readNumber? cs := by
  obtain ⟨c, rest, rfl, hc⟩ := h
  have hword {d : Char} {word : List Char} (hd : d.isDigit = false) (hminus : d ≠ '-') : c :: rest ≠ d :: word := by
    intro heq
    obtain rfl := (List.cons.inj heq).1
    rcases hc with hdigit | hminus'
    · rw [hd] at hdigit
      cases hdigit
    · exact hminus hminus'
  have hnull : c :: rest ≠ "null".toList := hword rfl (by decide)
  have htrue : c :: rest ≠ "true".toList := hword rfl (by decide)
  have hfalse : c :: rest ≠ "false".toList := hword rfl (by decide)
  rw [readToken?, if_neg hnull, if_neg htrue, if_neg hfalse]

theorem head_signText {s : String} (h : ∃ c rest, s.toList = c :: rest ∧ c.isDigit = true) (negative : Bool) :
    ∃ c rest, (signText negative ++ s).toList = c :: rest ∧ (c.isDigit = true ∨ c = '-') := by
  obtain ⟨c, rest, hs, hc⟩ := h
  rw [String.toList_append, hs]
  cases negative with
  | true => exact ⟨'-', c :: rest, rfl, Or.inr rfl⟩
  | false => exact ⟨c, rest, rfl, Or.inl hc⟩

theorem writes_of_number {s : String} {v : Value} (hhead : ∃ c rest, s.toList = c :: rest ∧ (c.isDigit = true ∨ c = '-'))
    (hs : ∀ c ∈ s.toList, NumberChar c) (h : readNumber? s.toList = some v) : Writes s v := by
  have hne : s.toList ≠ [] := by
    obtain ⟨c, rest, hcons, -⟩ := hhead
    rw [hcons]
    exact List.cons_ne_nil _ _
  exact writes_of_token hne (fun c hc => isTokenChar_of_numberChar (hs c hc)) ((readToken?_of_head hhead).trans h)

theorem writes_intText (i : Int) : Writes (Decimal.intText i) (.int i) := by
  have hdigits := exists_cons_of_isDigits (isDigits_digitChars i.natAbs)
  have hnat : (natText i.natAbs).toList = digitChars i.natAbs := by rw [natText, String.toList_ofList]
  rw [← hnat] at hdigits
  refine writes_of_number ?_ (numberChar_intText i) (readNumber?_intText i)
  rw [intText_eq]
  exact head_signText hdigits _

theorem floatText_of_isFinite {x : Float} (h : x.isFinite = true) : floatText x = naturalText x := by
  have hfinite : x.toModel.unpack.isFinite = true := h
  have hnan : x.isNaN = false := by
    show x.toModel.unpack.isNaN = false
    cases hu : x.toModel.unpack with
    | notANumber => rw [hu] at hfinite; cases hfinite
    | _ => rfl
  have hinf : x.isInf = false := by
    show x.toModel.unpack.isInf = false
    cases hu : x.toModel.unpack with
    | infinity s => rw [hu] at hfinite; cases hfinite
    | _ => rfl
  rw [floatText, hnan, hinf, if_neg Bool.false_ne_true, if_neg Bool.false_ne_true]

theorem writes_floatText {x : Float} (h : x.isFinite = true) : Writes (floatText x) (.float x) := by
  obtain ⟨b, hb⟩ := Option.isSome_iff_exists.mp (Binary.isSome_of_isFinite h)
  rw [floatText_of_isFinite h]
  refine writes_of_number ?_ (numberChar_naturalText hb) (readNumber?_naturalText hb)
  rw [naturalText, hb]
  exact head_signText b.shortest.spells_text.digit _

/-! ### Texts in quotes -/

theorem isAsciiChar_of_mem_unitEscape {n : Nat} (h : n < 0x10000) : ∀ c ∈ unitEscape n, IsAsciiChar c := by
  have hdigit {d : Nat} (hd : d < 16) : IsAsciiChar (Nat.digitChar d) := by
    have hall : ∀ d < 16, 0x20 ≤ (Nat.digitChar d).toNat ∧ (Nat.digitChar d).toNat < 0x7f := by decide
    exact hall d hd
  have hmod (m : Nat) : m % 16 < 16 := Nat.mod_lt m (by decide)
  rw [unitEscape, hexDigits_four h]
  simp only [List.forall_mem_cons]
  exact ⟨by decide, by decide, hdigit (by omega), hdigit (hmod _), hdigit (hmod _), hdigit (hmod _),
    fun c hc => absurd hc List.not_mem_nil⟩

theorem isAsciiChar_of_mem_escapeChar (c : Char) : ∀ d ∈ escapeChar c, IsAsciiChar d := by
  have hvalid : c.toNat < 0xd800 ∨ (0xdfff < c.toNat ∧ c.toNat < 0x110000) := c.valid
  unfold escapeChar
  split
  · rename_i letter hletter
    have hall : ∀ p ∈ shortEscapes, 0x20 ≤ p.2.toNat ∧ p.2.toNat < 0x7f := by decide
    obtain ⟨front, back, hlist, -⟩ := List.lookup_eq_some_iff.mp hletter
    have hascii := hall (c, letter) (hlist ▸ List.mem_append_right front List.mem_cons_self)
    simp only [List.forall_mem_cons]
    exact ⟨by decide, hascii, fun d hd => absurd hd List.not_mem_nil⟩
  · split
    · rename_i hprint
      exact List.forall_mem_singleton.mpr hprint
    · unfold pointEscape
      split
      · rename_i hsmall
        exact isAsciiChar_of_mem_unitEscape hsmall
      · rw [List.forall_mem_append]
        exact ⟨isAsciiChar_of_mem_unitEscape (by omega), isAsciiChar_of_mem_unitEscape (by omega)⟩

theorem toList_quoted (s : String) :
    (quoted s).toList = Text.doubleQuote :: (s.toList.flatMap escapeChar ++ [Text.doubleQuote]) := by
  rw [quoted, String.toList_ofList]
  rfl

theorem escapeChar_ne_nil (c : Char) : escapeChar c ≠ [] := by
  unfold escapeChar pointEscape unitEscape
  split
  · exact List.cons_ne_nil _ _
  · split
    · exact List.cons_ne_nil _ _
    · split
      · exact List.cons_ne_nil _ _
      · exact List.cons_ne_nil _ _

/-- No character is written with fewer than one. -/
theorem length_le_length_flatMap (cs : List Char) : cs.length ≤ (cs.flatMap escapeChar).length := by
  induction cs with
  | nil => exact Nat.le_refl _
  | cons c rest ih =>
      have hpos := List.length_pos_iff.mpr (escapeChar_ne_nil c)
      rw [List.flatMap_cons, List.length_append, List.length_cons]
      omega

/-- A text in quotes is read as the text. -/
theorem readChars_quoted (s : String) (fuel : Nat) (rest : List Char)
    (h : (quoted s).toList.length + rest.length ≤ fuel) :
    ∃ more, (quoted s).toList ++ rest = Text.doubleQuote :: more ∧ readChars fuel more = some (s.toList, rest) := by
  have hlength := length_le_length_flatMap s.toList
  rw [toList_quoted, List.length_cons, List.length_append] at h
  rw [toList_quoted, List.cons_append, List.append_assoc]
  exact ⟨_, rfl, readChars_flatMap s.toList rest (by omega)⟩

theorem isAscii_quoted (s : String) : IsAscii (quoted s) := by
  have hquote : IsAsciiChar Text.doubleQuote := by decide
  unfold IsAscii
  rw [toList_quoted, List.forall_mem_cons, List.forall_mem_append, List.forall_mem_singleton]
  refine ⟨hquote, fun c hc => ?_, hquote⟩
  obtain ⟨d, -, hd⟩ := List.mem_flatMap.mp hc
  exact isAsciiChar_of_mem_escapeChar d c hd

theorem starts_quoted (s : String) : Starts (quoted s) :=
  ⟨Text.doubleQuote, _, toList_quoted s, by decide, by decide, by decide⟩

theorem writes_quoted (s : String) : Writes (quoted s) (.text s) := by
  refine ⟨starts_quoted s, isAscii_quoted s, fun fuel rest _ hfuel => ?_⟩
  obtain ⟨fuel, rfl⟩ := Nat.exists_eq_succ_of_ne_zero (Nat.ne_of_gt (Nat.zero_lt_of_lt hfuel))
  obtain ⟨more, hmore, hread⟩ := readChars_quoted s fuel rest (by omega)
  rw [hmore, readValue, skip_cons (by decide)]
  dsimp only
  rw [if_pos rfl, hread, Option.map_some, String.ofList_toList]

/-! ### Lists and maps -/

/-- White space in front of a value is passed over. -/
theorem readValue_space (fuel : Nat) (cs : List Char) : readValue fuel (' ' :: cs) = readValue fuel cs := by
  cases fuel with
  | zero => rw [readValue, readValue]
  | succ fuel => rw [readValue, readValue, show skip (' ' :: cs) = skip cs from rfl]

theorem readItems_space (fuel : Nat) (cs : List Char) : readItems fuel (' ' :: cs) = readItems fuel cs := by
  cases fuel with
  | zero => rw [readItems, readItems]
  | succ fuel => rw [readItems, readItems, readValue_space]

theorem readMembers_space (fuel : Nat) (cs : List Char) : readMembers fuel (' ' :: cs) = readMembers fuel cs := by
  cases fuel with
  | zero => rw [readMembers, readMembers]
  | succ fuel => rw [readMembers, readMembers, show skip (' ' :: cs) = skip cs from rfl]

theorem ends_cons {c : Char} (hc : isTokenChar c = false) (rest : List Char) : Ends (c :: rest) := by
  intro d hd
  rw [List.head?_cons, Option.mem_some_iff] at hd
  rw [← hd, hc]

/-- Texts with commas between them, and what is behind them. -/
theorem toList_intercalate_cons (first second : String) (more : List String) (rest : List Char) :
    (", ".intercalate (first :: second :: more)).toList ++ rest
      = first.toList ++ ',' :: ' ' :: ((", ".intercalate (second :: more)).toList ++ rest) := by
  rw [String.intercalate_cons_cons, String.toList_append, String.toList_append, List.append_assoc, List.append_assoc]
  rfl

/-- Behind an item there is a comma or the end of the list. -/
theorem readItems_succ {fuel : Nat} {cs rest : List Char} {v : Value} {c : Char} (hc : isSpace c = false)
    (h : readValue fuel cs = some (v, c :: rest)) : readItems (fuel + 1) cs =
      if c = ',' then (readItems fuel rest).map fun (vs, rest) => (v :: vs, rest)
      else if c = ']' then some ([v], rest) else none := by
  rw [readItems, h, Option.bind_eq_bind, Option.bind_some]
  dsimp only
  rw [skip_cons hc]
  rfl

/-- The items of a list are read up to its closing bracket. -/
theorem readItems_texts {ss : List String} {vs : List Value} (h : List.Forall₂ Writes ss vs) (hne : ss ≠ []) (fuel : Nat)
    (rest : List Char) (hfuel : 2 * ((", ".intercalate ss).toList ++ ']' :: rest).length + 1 < fuel) :
    readItems fuel ((", ".intercalate ss).toList ++ ']' :: rest) = some (vs, rest) := by
  induction h generalizing fuel with
  | nil => exact absurd rfl hne
  | @cons s v ss vs hs hss ih =>
      obtain ⟨fuel, rfl⟩ := Nat.exists_eq_succ_of_ne_zero (Nat.ne_of_gt (Nat.zero_lt_of_lt hfuel))
      cases hss with
      | nil =>
          rw [String.intercalate_singleton] at hfuel ⊢
          rw [List.length_append] at hfuel
          have hread := hs.reads fuel _ (ends_cons (c := ']') (by decide) rest) (by omega)
          rw [readItems_succ (by decide) hread, if_neg (by decide), if_pos rfl]
      | @cons second w more ws hsecond hmore =>
          rw [toList_intercalate_cons] at hfuel ⊢
          rw [List.length_append] at hfuel
          have hread := hs.reads fuel (',' :: ' ' :: ((", ".intercalate (second :: more)).toList ++ ']' :: rest))
            (ends_cons (by decide) _) (by omega)
          rw [List.length_cons, List.length_cons] at hfuel
          rw [readItems_succ (by decide) hread, if_pos rfl, readItems_space, ih (List.cons_ne_nil _ _) fuel (by omega),
            Option.map_some]

/-- A member of an object: a name in quotes and a value. -/
def WritesMember (s : String) (m : String × Value) : Prop := ∃ t, s = quoted m.1 ++ ": " ++ t ∧ Writes t m.2

/-- What the reader makes of the text of a member and what is behind it. -/
theorem WritesMember.reads {s : String} {m : String × Value} (h : WritesMember s m) (fuel : Nat) (rest : List Char)
    (hends : Ends rest) (hfuel : 2 * (s.toList.length + rest.length) < fuel) :
    ∃ more after, s.toList ++ rest = Text.doubleQuote :: more ∧ readChars fuel more = some (m.1.toList, ':' :: after)
      ∧ readValue fuel after = some (m.2, rest) := by
  obtain ⟨t, rfl, ht⟩ := h
  have hcolon : (": " : String).toList = [':', ' '] := rfl
  rw [String.toList_append, String.toList_append, hcolon, List.length_append, List.length_append] at hfuel
  obtain ⟨more, hmore, hread⟩ := readChars_quoted m.1 fuel (':' :: ' ' :: (t.toList ++ rest)) (by
    simp only [List.length_cons, List.length_append, List.length_nil] at hfuel ⊢
    omega)
  refine ⟨more, ' ' :: (t.toList ++ rest), ?_, hread, ?_⟩
  · rw [String.toList_append, String.toList_append, hcolon, List.append_assoc, List.append_assoc]
    exact hmore
  · rw [readValue_space]
    exact ht.reads fuel rest hends (by omega)

/-- Behind a member there is a comma or the end of the object. -/
theorem readMembers_succ {fuel : Nat} {more after name rest : List Char} {v : Value} {c : Char} (hc : isSpace c = false)
    (hname : readChars fuel more = some (name, ':' :: after)) (hvalue : readValue fuel after = some (v, c :: rest)) :
    readMembers (fuel + 1) (Text.doubleQuote :: more) =
      if c = ',' then (readMembers fuel rest).map fun (ms, rest) => ((String.ofList name, v) :: ms, rest)
      else if c = '\x7d' then some ([(String.ofList name, v)], rest) else none := by
  rw [readMembers, skip_cons (by decide)]
  dsimp only
  rw [if_pos rfl, hname, Option.bind_eq_bind, Option.bind_some]
  dsimp only
  rw [skip_cons (by decide)]
  dsimp only
  rw [if_pos rfl, hvalue, Option.bind_eq_bind, Option.bind_some]
  dsimp only
  rw [skip_cons hc]
  rfl

/-- The members of an object are read up to its closing brace. -/
theorem readMembers_texts {ss : List String} {ms : Fields} (h : List.Forall₂ WritesMember ss ms)
    (hne : ss ≠ []) (fuel : Nat) (rest : List Char)
    (hfuel : 2 * ((", ".intercalate ss).toList ++ '\x7d' :: rest).length + 1 < fuel) :
    readMembers fuel ((", ".intercalate ss).toList ++ '\x7d' :: rest) = some (ms, rest) := by
  induction h generalizing fuel with
  | nil => exact absurd rfl hne
  | @cons s m ss ms hs hss ih =>
      obtain ⟨fuel, rfl⟩ := Nat.exists_eq_succ_of_ne_zero (Nat.ne_of_gt (Nat.zero_lt_of_lt hfuel))
      cases hss with
      | nil =>
          rw [String.intercalate_singleton] at hfuel ⊢
          rw [List.length_append] at hfuel
          obtain ⟨more, after, hmore, hname, hvalue⟩ :=
            hs.reads fuel ('\x7d' :: rest) (ends_cons (by decide) rest) (by omega)
          rw [hmore, readMembers_succ (by decide) hname hvalue, if_neg (by decide), if_pos rfl, String.ofList_toList]
      | @cons second w seconds ws hsecond hseconds =>
          rw [toList_intercalate_cons] at hfuel ⊢
          rw [List.length_append] at hfuel
          obtain ⟨more, after, hmore, hname, hvalue⟩ := hs.reads fuel
            (',' :: ' ' :: ((", ".intercalate (second :: seconds)).toList ++ '\x7d' :: rest))
            (ends_cons (by decide) _) (by omega)
          rw [List.length_cons, List.length_cons] at hfuel
          rw [hmore, readMembers_succ (by decide) hname hvalue, if_pos rfl, readMembers_space,
            ih (List.cons_ne_nil _ _) fuel (by omega), Option.map_some, String.ofList_toList]

/-- A row of texts begins as the first of them does. -/
theorem starts_intercalate {ss : List String} (hne : ss ≠ []) (h : ∀ s ∈ ss, Starts s) : Starts (", ".intercalate ss) := by
  obtain ⟨first, rest, rfl⟩ := List.exists_cons_of_ne_nil hne
  obtain ⟨c, more, hfirst, hc⟩ := h first List.mem_cons_self
  cases rest with
  | nil =>
      rw [String.intercalate_singleton]
      exact ⟨c, more, hfirst, hc⟩
  | cons second seconds =>
      have hlist := toList_intercalate_cons first second seconds []
      rw [List.append_nil, hfirst] at hlist
      exact ⟨c, _, hlist, hc⟩

theorem forall_of_forall₂ {α β : Type} {R : α → β → Prop} {P : α → Prop} (hR : ∀ a b, R a b → P a) {as : List α}
    {bs : List β} (h : List.Forall₂ R as bs) : ∀ a ∈ as, P a := by
  induction h with
  | nil => exact fun a ha => absurd ha List.not_mem_nil
  | cons hab _ ih => exact List.forall_mem_cons.mpr ⟨hR _ _ hab, ih⟩

theorem WritesMember.starts {s : String} {m : String × Value} (h : WritesMember s m) : Starts s := by
  obtain ⟨t, rfl, ht⟩ := h
  obtain ⟨c, more, hquoted, hc⟩ := starts_quoted m.1
  refine ⟨c, more ++ (": " : String).toList ++ t.toList, ?_, hc⟩
  rw [String.toList_append, String.toList_append, hquoted]
  rfl

theorem WritesMember.ascii {s : String} {m : String × Value} (h : WritesMember s m) : IsAscii s := by
  obtain ⟨t, rfl, ht⟩ := h
  exact isAscii_append (isAscii_append (isAscii_quoted m.1) isAscii_colon) ht.ascii

theorem isAscii_bracketed {left right : Char} (hleft : IsAsciiChar left) (hright : IsAsciiChar right) {ss : List String}
    (h : ∀ s ∈ ss, IsAscii s) : IsAscii (String.ofList [left] ++ ", ".intercalate ss ++ String.ofList [right]) := by
  have hone {c : Char} (hc : IsAsciiChar c) : IsAscii (String.ofList [c]) :=
    isAscii_of_toList String.toList_ofList (List.forall_mem_singleton.mpr hc)
  exact isAscii_append (isAscii_append (hone hleft) (isAscii_intercalate isAscii_comma h)) (hone hright)

/-- A text between brackets, and what is behind it. -/
theorem toList_bracketed (left right : Char) (s : String) (rest : List Char) :
    (String.ofList [left] ++ s ++ String.ofList [right]).toList ++ rest = left :: (s.toList ++ right :: rest) := by
  rw [String.toList_append, String.toList_append, String.toList_ofList, String.toList_ofList, List.append_assoc,
    List.append_assoc]
  rfl

/-- What is behind an opening bracket: a row of texts begins with something other than the closing one. -/
theorem head?_skip_intercalate {ss : List String} (hne : ss ≠ []) (h : ∀ s ∈ ss, Starts s) (rest : List Char) :
    (skip ((", ".intercalate ss).toList ++ rest)).head? ≠ some ']'
      ∧ (skip ((", ".intercalate ss).toList ++ rest)).head? ≠ some '\x7d' := by
  obtain ⟨c, more, hlist, hspace, hbracket, hbrace⟩ := starts_intercalate hne h
  rw [hlist, List.cons_append, skip_cons hspace, List.head?_cons]
  exact ⟨fun heq => hbracket (Option.some.inj heq), fun heq => hbrace (Option.some.inj heq)⟩

/-- Texts between brackets are a part as soon as the reader makes something of what is behind the first bracket. -/
theorem writes_bracketed {left right : Char} {ss : List String} {v : Value}
    (hleft : IsAsciiChar left ∧ isSpace left = false ∧ left ≠ ']' ∧ left ≠ '\x7d') (hright : IsAsciiChar right)
    (hascii : ∀ s ∈ ss, IsAscii s)
    (hreads : ∀ fuel rest, 2 * ((", ".intercalate ss).toList ++ right :: rest).length + 1 < fuel →
      readValue (fuel + 1) (left :: ((", ".intercalate ss).toList ++ right :: rest)) = some (v, rest)) :
    Writes (String.ofList [left] ++ ", ".intercalate ss ++ String.ofList [right]) v := by
  refine ⟨⟨left, _, (List.append_nil _).symm.trans (toList_bracketed left right _ []), hleft.2⟩,
    isAscii_bracketed hleft.1 hright hascii, fun fuel rest _ hfuel => ?_⟩
  obtain ⟨fuel, rfl⟩ := Nat.exists_eq_succ_of_ne_zero (Nat.ne_of_gt (Nat.zero_lt_of_lt hfuel))
  rw [← List.length_append, toList_bracketed, List.length_cons] at hfuel
  rw [toList_bracketed]
  exact hreads fuel rest (by omega)

theorem writes_list {ss : List String} {vs : List Value} (h : List.Forall₂ Writes ss vs) :
    Writes (String.ofList ['['] ++ ", ".intercalate ss ++ String.ofList [']']) (.list vs) := by
  refine writes_bracketed (by decide) (by decide) (forall_of_forall₂ (fun _ _ hs => hs.ascii) h) fun fuel rest hfuel => ?_
  rw [readValue, skip_cons (by decide)]
  dsimp only
  rw [if_neg (by decide), if_pos rfl]
  cases h with
  | nil => rfl
  | cons hs hss =>
      have hall := List.Forall₂.cons hs hss
      have hstarts := forall_of_forall₂ (fun _ _ hs => hs.start) hall
      have hhead := (head?_skip_intercalate (List.cons_ne_nil _ _) hstarts (']' :: rest)).1
      rw [if_neg hhead, readItems_texts hall (List.cons_ne_nil _ _) fuel rest hfuel, Option.map_some]

theorem writes_object {ss : List String} {ms : Fields} (h : List.Forall₂ WritesMember ss ms) :
    Writes (String.ofList ['\x7b'] ++ ", ".intercalate ss ++ String.ofList ['\x7d']) (object ms) := by
  refine writes_bracketed (by decide) (by decide) (forall_of_forall₂ (fun _ _ hs => hs.ascii) h) fun fuel rest hfuel => ?_
  rw [readValue, skip_cons (by decide)]
  dsimp only
  rw [if_neg (by decide), if_neg (by decide), if_pos rfl]
  cases h with
  | nil => rfl
  | cons hs hss =>
      have hall := List.Forall₂.cons hs hss
      have hstarts := forall_of_forall₂ (fun _ _ hs => hs.starts) hall
      have hhead := (head?_skip_intercalate (List.cons_ne_nil _ _) hstarts ('\x7d' :: rest)).2
      rw [if_neg hhead, readMembers_texts hall (List.cons_ne_nil _ _) fuel rest hfuel, Option.map_some]

/-! ### The text of a value -/

variable [DigitLimit]

omit [DigitLimit] in
/-- A map that names each of its keys once is the object of its members. -/
theorem object_of_nodup {ms : Fields} (h : ms.names.Nodup) : object ms = .map ms.entries := by
  have hput : Fields.putAll [] ms = ms := @Field.putAll_of_nodup Value ms [] h
  rw [object, hput]

omit [DigitLimit] in
theorem nodup_of_members {entries : List (Value × Value)} {ms : Fields}
    (hkeys : entries.map (·.1) = ms.map fun m => .text m.1) (h : (entries.map (·.1)).Nodup) : ms.names.Nodup := by
  rw [hkeys] at h
  refine List.Nodup.of_map Value.text ?_
  rwa [Fields.names, List.map_map]

mutual

/-- **The text of a value** that JSON has is read as that value. -/
theorem writes_text : (v : Value) → Holds v → ∃ s, text v = .ok s ∧ Writes s (datum v)
  | .null, _ => ⟨"null", rfl, writes_of_token (by decide) (List.all_eq_true.mp rfl) rfl⟩
  | .bool true, _ => ⟨"true", rfl, writes_of_token (by decide) (List.all_eq_true.mp rfl) rfl⟩
  | .bool false, _ => ⟨"false", rfl, writes_of_token (by decide) (List.all_eq_true.mp rfl) rfl⟩
  | .int i, h => ⟨Decimal.intText i, if_pos h, writes_intText i⟩
  | .float x, h => ⟨floatText x, rfl, writes_floatText h⟩
  | .text s, _ => ⟨quoted s, rfl, writes_quoted s⟩
  | .list items, h => by
      obtain ⟨ss, hss, hwrites⟩ := writes_texts items h
      refine ⟨"[" ++ ", ".intercalate ss ++ "]", ?_, writes_list hwrites⟩
      rw [text, hss]
      rfl
  | .tuple items, h => by
      obtain ⟨ss, hss, hwrites⟩ := writes_texts items h
      refine ⟨"[" ++ ", ".intercalate ss ++ "]", ?_, writes_list hwrites⟩
      rw [text, hss]
      rfl
  | .map entries, h => by
      obtain ⟨ss, ms, hss, hdata, hkeys, hwrites⟩ := writes_entryTexts entries h.1
      refine ⟨"\x7b" ++ ", ".intercalate ss ++ "\x7d", ?_, ?_⟩
      · rw [text, hss]
        rfl
      · rw [datum, hdata, ← object_of_nodup (nodup_of_members hkeys h.2)]
        exact writes_object hwrites

theorem writes_texts : (items : List Value) → HoldsAll items →
    ∃ ss, texts items = .ok ss ∧ List.Forall₂ Writes ss (data items)
  | [], _ => ⟨[], rfl, .nil⟩
  | v :: rest, h => by
      obtain ⟨s, hs, hwrites⟩ := writes_text v h.1
      obtain ⟨ss, hss, hrest⟩ := writes_texts rest h.2
      refine ⟨s :: ss, ?_, .cons hwrites hrest⟩
      rw [texts, hs, hss]
      rfl

theorem writes_entryTexts : (entries : List (Value × Value)) → HoldsEntries entries →
    ∃ ss ms, entryTexts entries = .ok ss ∧ entryData entries = Fields.entries ms
      ∧ entries.map (·.1) = ms.map (fun m => .text m.1) ∧ List.Forall₂ WritesMember ss ms
  | [], _ => ⟨[], [], rfl, rfl, rfl, .nil⟩
  | (k, v) :: rest, h => by
      obtain ⟨⟨name, hname⟩, hv, hrest⟩ := h
      obtain ⟨s, hs, hwrites⟩ := writes_text v hv
      obtain ⟨ss, ms, hss, hdata, hkeys, hall⟩ := writes_entryTexts rest hrest
      refine ⟨(quoted name ++ ": " ++ s) :: ss, (name, datum v) :: ms, ?_, ?_, ?_, .cons ⟨s, rfl, hwrites⟩ hall⟩
      · rw [hname, entryTexts, hs, hss]
        rfl
      · rw [hname, entryData, hdata]
        rfl
      · rw [List.map_cons, List.map_cons, hkeys, hname]

end

omit [DigitLimit] in
theorem Writes.read {s : String} {v : Value} (h : Writes s v) : read s = some v := by
  have hread := h.reads (2 * s.toList.length + 1) [] (fun c hc => by cases hc) (by rw [List.length_nil]; omega)
  rw [List.append_nil] at hread
  rw [Json.read, hread]
  rfl

/-- **Round trip.**  A value that JSON has is written on one line of printable ASCII, and reading that line gives the
value. -/
theorem read_text {v : Value} (h : Holds v) : ∃ s, text v = .ok s ∧ IsAscii s ∧ read s = some (datum v) := by
  obtain ⟨s, hs, hwrites⟩ := writes_text v h
  exact ⟨s, hs, hwrites.ascii, hwrites.read⟩

end PartProgram.Json
