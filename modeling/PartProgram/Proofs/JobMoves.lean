/-
The moves of a job.

A directive that asks for a move is turned into an operation for the target that its position
comes to, and the operation, wherever it is carried out, adds one line.  The line has a word
for each number of the target, which is a float and so has no space in its text; the words are
read back whatever the feed rate of the program is written as.  So a number of the job is in
the listing if it counts for its axis, and it is lost without a word if it does not.
-/
import PartProgram.Operation.Generator
import PartProgram.Proofs.Coordinates
import PartProgram.Proofs.Moves
import PartProgram.Proofs.MotionWords

namespace PartProgram

open Decimal

/-! ### Lines -/

/-- Words without spaces are read back in front of whatever is behind them. -/
theorem words_intercalate_append {ws : List String} (h : ∀ w ∈ ws, ' ' ∉ w.toList) (last : String) :
    words (" ".intercalate (ws ++ [last])) = ws ++ words last := by
  induction ws with
  | nil => rw [List.nil_append, List.nil_append, String.intercalate_singleton]
  | cons w rest ih =>
      obtain ⟨hw, hrest⟩ := List.forall_mem_cons.mp h
      have hjoin : " ".intercalate (w :: (rest ++ [last])) = w ++ " " ++ " ".intercalate (rest ++ [last]) := by
        cases rest with
        | nil => exact String.intercalate_cons_cons
        | cons next more => exact String.intercalate_cons_cons
      have hchars : (w ++ " " ++ " ".intercalate (rest ++ [last])).toList
          = w.toList ++ ' ' :: (" ".intercalate (rest ++ [last])).toList := by
        simp
      rw [List.cons_append, hjoin, words, hchars, List.splitOn_append_cons_self, List.splitOn_eq_singleton hw,
        List.singleton_append, List.map_cons, String.ofList_toList, ← words, ih hrest, List.cons_append]

theorem space_not_mem_numberWord {letter : String} (h : ' ' ∉ letter.toList) (factor : Nat) (x : Float) :
    ' ' ∉ (numberWord letter factor (.float x)).toList := by
  have htext : ' ' ∉ (plainText (x * Float.ofNat factor)).toList := by
    cases hx : Binary.ofFloat? (x * Float.ofNat factor) with
    | some b =>
        have hplain := isPlain_plainText (Option.isSome_iff_exists.mpr ⟨b, hx⟩)
        exact fun hspace => not_isPlain_of_letter hspace rfl (by decide) (by decide) hplain
    | none =>
        have hnames : ∀ name ∈ ["nan", "-inf", "inf"], ' ' ∉ name.toList := by decide
        rw [plainText, hx]
        exact hnames _ (nonFiniteText_mem _)
  rw [numberWord, String.toList_append]
  exact List.not_mem_append h htext

/-- The move that an operation asks for, its feed rate being the one that is given. -/
def Operation.move? : Operation → Option Motion
  | rapidMove target feed => some ⟨.rapid, target, feed⟩
  | linearMove target feed => some ⟨.linear, target, feed⟩
  | _ => none

/-- A move that is carried out adds its line. -/
theorem Operation.append_of_carryOut [DigitLimit] {op : Operation} {m : Motion} (h : op.move? = some m) {p q : Program}
    (hrun : (Writing.carryOut op).run p = .ok () q) :
    q = p.append (Motion.line p.factor ⟨m.code, m.target, p.feedOf m.feed⟩) := by
  rw [Motion.line_eq_text]
  have hcall {call : Call} (hcall : op.call? = some call) : ∃ answer, call.run p = (.ok answer, q) := by
    rw [Writing.run_carryOut hcall] at hrun
    split at hrun
    · rename_i answer q' hmade
      cases hrun
      exact ⟨answer, hmade⟩
    · cases hrun
  cases op with
  | rapidMove target feed =>
      obtain rfl := Option.some.inj h
      obtain ⟨answer, hmade⟩ := hcall rfl
      exact Call.append_of_move rfl (Position.ofValue?_toValue target) hmade
  | linearMove target feed =>
      obtain rfl := Option.some.inj h
      obtain ⟨answer, hmade⟩ := hcall rfl
      exact Call.append_of_move rfl (Position.ofValue?_toValue target) hmade
  | _ => cases h

/-- The words of the line of a move whose target has floats alone: the code, a word for each axis that the target has,
and whatever the feed rate comes to. -/
theorem Motion.words_line {m : Motion} (h : ∀ c ∈ m.target.components, ∃ x, c.2 = .float x) (factor : Nat) :
    words (m.line factor) = m.code.toWord :: m.target.axisWords factor ++ words (feedWord factor m.feed) := by
  refine words_intercalate_append ?_ _
  intro w hw
  rcases List.mem_cons.mp hw with rfl | haxis
  · exact space_not_mem_toWord m.code
  · obtain ⟨c, hc, rfl⟩ := List.mem_map.mp haxis
    obtain ⟨letter, v⟩ := c
    obtain ⟨x, rfl⟩ := h _ hc
    have hletters : ∀ letter ∈ ["X", "Y", "Z", "F"], ' ' ∉ letter.toList := by decide
    have hletter := Motion.letter_mem (m := m) (List.mem_append_left _ hc)
    exact space_not_mem_numberWord (hletters _ hletter) factor x

/-- The code of the move that a kind of directive asks for. -/
def DirectiveKind.code? : DirectiveKind → Option PreparatoryCode
  | feedRapid => some .rapid
  | feedLinear => some .linear
  | _ => none

namespace Directive

/-- The position of a move that is accepted was read under its key. -/
theorem exists_position {es : List (Value × Value)} {d : Directive} {code : PreparatoryCode}
    (h : ofEntries es = .accepted d) (hcode : d.kind.code? = some code) :
    ∃ v spec, Value.entry? "position" es = some v ∧ PositionSpec.read v = .accepted spec ∧ d.position = some spec := by
  obtain ⟨hreads, -, hcomplete⟩ := ofEntries_eq_accepted.mp h
  obtain ⟨spec, hspec⟩ : ∃ spec, d.position = some spec := by
    obtain ⟨kind, position, feedrate, depth, clockwise, flood, force, positioning, text⟩ := d
    cases position with
    | some spec => exact ⟨spec, rfl⟩
    | none =>
        cases kind with
        | feedRapid => cases hcomplete
        | feedLinear => cases hcomplete
        | _ => cases hcode
  have hposition := hreads.position
  rw [hspec] at hposition
  unfold Field.under at hposition
  split at hposition
  · rename_i v hv
    exact ⟨v, spec, hv, Field.exists_of_optional (Checked.under_eq_accepted.mp hposition), hspec⟩
  · cases hposition

/-- The operation of a move goes to the target of its position. -/
theorem exists_move [DigitLimit] {d : Directive} {code : PreparatoryCode} {spec : PositionSpec}
    (hcode : d.kind.code? = some code) (hspec : d.position = some spec) (hchecked : spec.IsChecked) :
    ∃ op, d.operation = .ok op ∧ op.move? = some ⟨code, spec.target, Value.ofFloat? d.feedrate⟩ := by
  obtain ⟨kind, position, feedrate, depth, clockwise, flood, force, positioning, text⟩ := d
  obtain rfl : position = some spec := hspec
  cases kind with
  | feedRapid =>
      obtain rfl := Option.some.inj hcode
      refine ⟨.rapidMove spec.target (Value.ofFloat? feedrate), ?_, rfl⟩
      simp only [operation, orNull, Operation.ofRapid, hchecked.ofValue?]
      rfl
  | feedLinear =>
      obtain rfl := Option.some.inj hcode
      refine ⟨.linearMove spec.target (Value.ofFloat? feedrate), ?_, rfl⟩
      simp only [operation, orNull, Operation.ofLinear, hchecked.ofValue?]
      rfl
  | _ => cases hcode

/-- **A number is lost only to a later entry for its axis.**  The position of a move that is accepted was read item by
item or entry by entry, and the target of the move has the numbers that count.  They are as many as the values that are
not null exactly where no number has an entry for its axis behind it, which is always so for a list, and then they are
the numbers that were given.  Wherever the move is carried out, it adds a line that has a word for each of them between
its code and its feed rate. -/
theorem components_of_move [DigitLimit] {es : List (Value × Value)} {d : Directive} {code : PreparatoryCode}
    (h : ofEntries es = .accepted d) (hcode : d.kind.code? = some code)
    (hkeys : ∀ entries, Value.entry? "position" es = some (.map entries) → (entries.map (·.1)).Nodup) :
    ∃ v spec op target, Value.entry? "position" es = some v ∧ d.position = some spec ∧ spec.ReadFrom v
      ∧ d.operation = .ok op ∧ op.move? = some ⟨code, target, Value.ofFloat? d.feedrate⟩
      ∧ target.components.Perm (spec.coordinates.counted.map PositionSpec.component)
      ∧ (target.components.length = (v.axisValues.filter fun v => !v.isNull).length ↔ spec.coordinates.Unambiguous)
      ∧ (spec.coordinates.Unambiguous →
        target.components.Perm (spec.coordinates.given.map PositionSpec.component))
      ∧ (∀ axes, spec = .listed axes → spec.coordinates.Unambiguous)
      ∧ ∀ p q, (Writing.carryOut op).run p = .ok () q → ∃ line, q = p.append line ∧ words line
        = code.toWord :: target.axisWords p.factor
          ++ words (feedWord p.factor (p.feedOf (Value.ofFloat? d.feedrate))) := by
  obtain ⟨v, spec, hv, hread, hspec⟩ := exists_position h hcode
  obtain ⟨hchecked, hfrom⟩ := PositionSpec.readFrom_of_read hread fun entries heq => hkeys entries (heq ▸ hv)
  obtain ⟨op, hop, hmove⟩ := exists_move hcode hspec hchecked
  have hperm := hchecked.components_perm
  have hlength : spec.target.components.length = spec.coordinates.counted.length :=
    hperm.length_eq.trans (List.length_map _)
  refine ⟨v, spec, op, spec.target, hv, hspec, hfrom, hop, hmove, hperm, ?_, ?_, ?_, ?_⟩
  · rw [hlength, ← hfrom.length_given hchecked]
    exact Coordinates.length_counted_iff _
  · intro hunambiguous
    rwa [(Coordinates.counted_sublist _).eq_of_length ((Coordinates.length_counted_iff _).mpr hunambiguous)] at hperm
  · rintro axes rfl
    exact PositionSpec.unambiguous_listed axes
  · intro p q hrun
    refine ⟨_, Operation.append_of_carryOut hmove hrun, Motion.words_line ?_ p.factor⟩
    intro c hc
    obtain ⟨number, -, rfl⟩ := List.mem_map.mp (hperm.mem_iff.mp hc)
    exact ⟨number.2, rfl⟩

/-- An axis under both cases of its letter, with nothing under the second one: the number is lost. -/
theorem components_of_move_of_both_cases :
    let entries : List (Value × Value) := [(.text "x", .float 1), (.text "X", .null)]
    let es : List (Value × Value) := [(.text "op", .text "feed_rapid"), (.text "position", .map entries)]
    let spec : PositionSpec := .named [("x", some 1), ("X", none)]
    let d : Directive := ⟨.feedRapid, some spec, none, none, true, false, false, none, none⟩
    ofEntries es = .accepted d ∧ (entries.map (·.1)).Nodup ∧ ¬ spec.coordinates.Unambiguous
    ∧ ∃ op target, d.operation = .ok op ∧ op.move? = some ⟨.rapid, target, .null⟩ ∧ target.components.length ≠ 1 := by
  intro entries es spec d
  have hstrange : PositionSpec.strangeKeys [("x", some 1), ("X", none)] = [] := by
    rw [PositionSpec.strangeKeys, List.filter_eq_nil_iff.mpr (by decide), List.mergeSort_nil]
  have hcheck : spec.check = .accepted spec := by
    rw [PositionSpec.check, hstrange]
    rfl
  have hread : PositionSpec.read (.map entries) = .accepted spec := hcheck
  have hposition : Field.under "position" (.accepted none) (Field.optional PositionSpec.read) es
      = .accepted (some spec) :=
    Checked.under_eq_accepted.mpr (congrArg (Checked.map some) hread)
  have h : ofEntries es = .accepted d :=
    ofEntries_eq_accepted.mpr ⟨⟨rfl, hposition, rfl, rfl, rfl, rfl, rfl, rfl, rfl⟩, rfl, rfl⟩
  have hkeys : (entries.map (·.1)).Nodup := by simp [entries]
  have hambiguous : ¬ spec.coordinates.Unambiguous := by
    intro hunambiguous
    have hfirst := (List.pairwise_cons.mp hunambiguous).1 ("x", none) (List.mem_singleton.mpr rfl) rfl
    cases hfirst
  obtain ⟨v, spec', op, target, hv, hspec, -, hop, hmove, -, hlength, -⟩ := components_of_move h rfl (by
    intro entries' hentries
    obtain rfl := Value.map.inj (Option.some.inj hentries)
    exact hkeys)
  obtain rfl := Option.some.inj hv
  obtain rfl := Option.some.inj hspec
  exact ⟨h, hkeys, hambiguous, op, target, hop, hmove, fun hone => hambiguous (hlength.mp hone)⟩

end Directive

end PartProgram
