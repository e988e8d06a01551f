/-
The numbers of a strict listing.

The strict policy looks at the numbers of a motion as they are given, and the listing shows
them in the unit of the configuration, so between the two stands a multiplication.  Every
motion of a listing was judged: those of the opening, those of the operations, and the one
that raises the mill at the end, which is that of the opening again.  What is judged is
finite, and hence the words behind the codes are plain decimals with the exception of the
floats that scaling takes out of the range, which show as infinities.  In millimetres and
inches there are none of these.

Without raw lines an answer also says how the operations end: whatever is carried out behind
an end is refused, so the operations end the program once, and the listing is the closed
form.
-/
import PartProgram.Proofs.Lifecycle
import PartProgram.Proofs.MotionWords

namespace PartProgram

open PartProgram.Numbering

section

variable [DigitLimit]

/-- The words of the motions in a buffer, read without the numbers of its lines. -/
def wordsOfMotions (numbered : Bool) (buffer : List String) : List String :=
  buffer.flatMap fun e => motionWords (if numbered then lineOf e else e)

/-! ### The motions of a listing -/

namespace Config

variable {c : Config} {name : String} {ops : List Operation} {m : Motion}

omit [DigitLimit] in
theorem code_of_mem_motions (hm : m ∈ c.motions ops) : m.code = .rapid ∨ m.code = .linear := by
  rcases mem_motions.mp hm with rfl | rfl | ⟨op, -, hmotion⟩
  · exact Or.inl rfl
  · exact Or.inl rfl
  · cases op with
    | rapidMove target feed => obtain rfl := Option.some.inj hmotion; exact Or.inl rfl
    | linearMove target feed => obtain rfl := Option.some.inj hmotion; exact Or.inr rfl
    | dropMill depth => obtain rfl := Option.some.inj hmotion; exact Or.inl rfl
    | raiseMill depth => obtain rfl := Option.some.inj hmotion; exact Or.inl rfl
    | _ => cases hmotion

/-- A favourable verdict of a strict configuration makes every motion finite. -/
theorem isFinite_of_verdict (hc : c.strict = true) (h : c.verdict ops = .ok ()) (hm : m ∈ c.motions ops) :
    m.IsFinite :=
  (admits_of_strict hc).mp (verdict_eq_ok_iff_motions.mp h m hm)

/-! ### The words of a listing

In a listing without raw lines what stands behind a code is the number of a motion or nothing,
and so the words that are read from the lines are those of its motions, in their order.
-/

/-- The words of the motions under the unit of the configuration. -/
def numberWords (c : Config) (ops : List Operation) : List String :=
  (c.motions ops).flatMap (Motion.numberWords (LengthUnit.factor c.unit))

section

omit [DigitLimit]

theorem motionWords_motionText (hm : m ∈ c.motions ops) (hfinite : m.IsFinite) :
    motionWords (c.motionText m) = m.numberWords (LengthUnit.factor c.unit) :=
  Motion.motionWords_text (code_of_mem_motions hm) hfinite (LengthUnit.factor_mem c.unit)

/-- Of the lines of operations other than raw ones, just the motions have words behind their
codes. -/
theorem motionWords_line {op : Operation} (hraw : op.rawText? = none) (hmotion : op.motion? c = none) :
    (op.line? c).toList.flatMap motionWords = [] := by
  have hswitch {word : String} (h : ' ' ∉ word.toList) : (some word).toList.flatMap motionWords = [] := by
    rw [Option.toList_some, List.flatMap_singleton, motionWords_of_one h]
  cases op with
  | setMode mode => cases mode <;> exact hswitch (by decide)
  | startSpindle clockwise =>
      show (some (if clockwise.isTrue then "M03" else "M04")).toList.flatMap motionWords = []
      cases clockwise.isTrue <;> exact hswitch (by decide)
  | startCoolant flood =>
      show (some (if flood.isTrue then "M08" else "M07")).toList.flatMap motionWords = []
      cases flood.isTrue <;> exact hswitch (by decide)
  | stopSpindle => exact hswitch (by decide)
  | stopCoolant => exact hswitch (by decide)
  | terminate force => rfl
  | rawLine text => cases hraw
  | foreign kind => rfl
  | value v => rfl
  | _ => cases hmotion

theorem flatMap_motionWords_lines (hraw : ∀ op ∈ ops, op.rawText? = none)
    (hread : ∀ op ∈ ops, ∀ m, op.motion? c = some m →
      motionWords (c.motionText m) = m.numberWords (LengthUnit.factor c.unit)) :
    (ops.filterMap (Operation.line? c)).flatMap motionWords
      = (ops.filterMap (Operation.motion? c)).flatMap (Motion.numberWords (LengthUnit.factor c.unit)) := by
  induction ops with
  | nil => rfl
  | cons op rest ih =>
      have hrest := ih (fun o ho => hraw o (List.mem_cons_of_mem op ho))
        fun o ho => hread o (List.mem_cons_of_mem op ho)
      cases hmotion : op.motion? c with
      | some m =>
          rw [List.filterMap_cons_some (Operation.line?_of_motion hmotion),
            List.filterMap_cons_some hmotion, List.flatMap_cons, List.flatMap_cons, hread op List.mem_cons_self m hmotion, hrest]
      | none =>
          have hquiet := motionWords_line (hraw op List.mem_cons_self) hmotion
          rw [List.filterMap_cons_none hmotion, ← hrest]
          cases hline : op.line? c with
          | none => rw [List.filterMap_cons_none hline]
          | some line =>
              rw [hline, Option.toList_some, List.flatMap_singleton] at hquiet
              rw [List.filterMap_cons_some hline, List.flatMap_cons, hquiet, List.nil_append]

/-- The motions are all there is to read in a listing without raw lines. -/
theorem flatMap_motionWords_listingLines (hraw : ∀ op ∈ ops, op.rawText? = none)
    (hfinite : ∀ m ∈ c.motions ops, m.IsFinite) :
    (c.listingLines name ops).flatMap motionWords = c.numberWords ops := by
  have hread {m : Motion} (hm : m ∈ c.motions ops) := motionWords_motionText hm (hfinite m hm)
  have hraise := hread (m := c.raise) List.mem_cons_self
  have happroach := hread (m := c.approach) (List.mem_cons_of_mem _ List.mem_cons_self)
  have hmarker : motionWords openMarker = [] := motionWords_of_one (by decide)
  have hhead : (c.headLines name).flatMap motionWords
      = [c.raise, c.approach].flatMap (Motion.numberWords (LengthUnit.factor c.unit)) := by
    have htitle : motionWords (nameLetter ++ name) = [] :=
      motionWords_of_letter ⟨'O', rfl, by decide, by decide⟩ name
    have hcode (code : PreparatoryCode) : motionWords code.toWord = [] :=
      motionWords_of_one (space_not_mem_toWord code)
    simp only [headLines_eq, List.flatMap_cons, List.flatMap_nil, hmarker, htitle, hcode, hraise, happroach,
      List.nil_append]
  have hbody := flatMap_motionWords_lines hraw fun op hop m hm =>
    hread (m := m) (List.mem_append_left _ (List.mem_append_right _ (List.mem_filterMap.mpr ⟨op, hop, hm⟩)))
  have hend : (c.endLines (ops.any Operation.isForcedEnd)).flatMap motionWords
      = (if ops.any Operation.isForcedEnd then [] else [c.raise]).flatMap
        (Motion.numberWords (LengthUnit.factor c.unit)) := by
    have hquiet : ∀ word ∈ ["M00", "M05", "M09", "M30"], motionWords word = [] := by
      intro word hword
      refine motionWords_of_one ?_
      revert word
      decide
    cases ops.any Operation.isForcedEnd with
    | true => simp [endLines, hquiet]
    | false => simp [endLines, hquiet, hraise]
  have hlast : ["%"].flatMap motionWords = [] := (List.flatMap_singleton ..).trans hmarker
  rw [listingLines, numberWords, motions]
  simp only [List.flatMap_append, hhead, hbody, hend, hlast, List.append_nil]

theorem wordsOfMotions_buffer :
    wordsOfMotions c.lineNumbering (c.buffer name ops) = (c.listingLines name ops).flatMap motionWords := by
  rw [wordsOfMotions, buffer]
  cases c.lineNumbering with
  | true =>
      have hlines := map_lineOf_entries Nat.one_ne_zero (c.listingLines name ops)
      conv => rhs; rw [← hlines, List.flatMap_map]
      rfl
  | false =>
      show (entries 0 _).flatMap motionWords = _
      rw [entries_zero]

end

end Config

/-! ### Answers without raw lines

Where raw lines are left out nothing may follow an end, so a listing is one in closed form.
-/

namespace Generator

variable {g : Generator} {ops : List Operation} {listing : String}

/-- What is answered comes of a run. -/
theorem run_of_answer (h : (g.generate ops).1 = .ok listing) :
    ∃ p q, g.openNext.1 = .ok p
      ∧ (do Writing.carryOutAll ops; Writing.eval : Writing String).run p = .ok listing q := by
  rw [fst_generate] at h
  cases hopen : g.openNext.1 with
  | error e => rw [hopen] at h; cases h
  | ok p =>
      rw [hopen, Except.bind] at h
      refine ⟨p, ?_⟩
      cases hrun : (do Writing.carryOutAll ops; Writing.eval : Writing String).run p with
      | error e q => rw [hrun] at h; cases h
      | ok answered q =>
          rw [hrun] at h
          obtain rfl := Except.ok.inj h
          exact ⟨q, rfl, rfl⟩

/-- Without raw lines nothing is carried out behind the first end. -/
theorem endsOnce_of_answer (hraw : ∀ op ∈ ops, op.rawText? = none) (h : (g.generate ops).1 = .ok listing) :
    Operation.EndsOnce ops := by
  cases hfirst : ops.find? Operation.isTerminate with
  | none =>
      refine ⟨ops, [], (List.append_nil ops).symm, ?_, Or.inl rfl⟩
      intro op hop
      exact (Bool.not_eq_true _).mp (List.find?_eq_none.mp hfirst op hop)
  | some op =>
      obtain ⟨hend, pre, post, rfl, hpre⟩ := List.find?_eq_some_iff_append.mp hfirst
      cases op with
      | terminate force =>
          have hbody : ∀ op ∈ pre, op.isTerminate = false := fun op hop => by simpa using hpre op hop
          refine ⟨pre, .terminate force :: post, rfl, hbody, Or.inr ⟨force, post, rfl, ?_⟩⟩
          intro op hop
          obtain ⟨p, q, hp, hq⟩ := run_of_answer h
          rw [show pre ++ .terminate force :: post = (pre ++ [.terminate force]) ++ post by simp,
            Writing.carryOutAll_append, bind_assoc, EStateM.run_bind] at hq
          cases hrun : (Writing.carryOutAll (pre ++ [.terminate force])).run p with
          | error e r => rw [hrun] at hq; simp at hq
          | ok _ r =>
              rw [generate_of_end hp hrun] at h
              by_cases hlate : post.any Operation.isRefusedLate = true
              · rw [if_pos hlate] at h
                simp at h
              · have hop' : ¬ op.isRefusedLate = true := fun hc => hlate (List.any_eq_true.mpr ⟨op, hop, hc⟩)
                have htext := hraw op (List.mem_append_right _ (List.mem_cons_of_mem _ hop))
                rw [Operation.isRefusedLate, htext, Option.isNone_none, Bool.and_true] at hop'
                exact (Bool.not_eq_true _).mp hop'
      | _ => cases hend

/-- Behind an answer to operations without raw lines there is a favourable verdict, and a
buffer in closed form. -/
theorem buffer_of_answer (hraw : ∀ op ∈ ops, op.rawText? = none) (h : (g.generate ops).1 = .ok listing) :
    g.config.verdict ops = .ok () ∧ ∃ p q, g.openNext.1 = .ok p
      ∧ (do Writing.carryOutAll ops; Writing.eval : Writing String).run p = .ok listing q
      ∧ q.lines.toList = g.config.buffer g.nextName ops := by
  have hends := endsOnce_of_answer hraw h
  obtain ⟨p, q, hp, hq⟩ := run_of_answer h
  rw [generate_of_endsOnce g hends] at h
  obtain ⟨_, hv, -⟩ := map_eq_ok.mp h
  have hverdict : g.config.verdict ops = .ok () := (verdict_eq_ok.mp hv).2
  obtain ⟨hraise, -, hops⟩ := Config.verdict_eq_ok.mp hverdict
  refine ⟨hverdict, p, q, hp, hq, ?_⟩
  obtain rfl := opened_of_openNext hp
  obtain ⟨r, hr, hlines⟩ := Writing.opened_run g.nextName hends hraise
  have hok := forM_eq_ok.mpr hops
  obtain ⟨-, rfl⟩ := keeping_eq_ok (hr.symm.trans hq)
  exact hlines hok

/-- **The numbers of a strict listing.**  Every word behind the code of a motion is a plain
decimal or an infinity.  All of them are plain decimals exactly when no number of a motion
leaves the range of floats on the way to the unit of the listing, and so they always are
where the unit is the millimetre or the inch. -/
theorem numbers_of_strict (hc : g.config.strict = true) (hraw : ∀ op ∈ ops, op.rawText? = none)
    (h : (g.generate ops).1 = .ok listing) :
    ∃ p q, g.openNext.1 = .ok p
      ∧ (do Writing.carryOutAll ops; Writing.eval : Writing String).run p = .ok listing q
      ∧ (∀ w ∈ wordsOfMotions g.config.lineNumbering q.lines.toList, IsPlainWord w ∨ IsInfiniteWord w)
      ∧ ((∀ w ∈ wordsOfMotions g.config.lineNumbering q.lines.toList, IsPlainWord w) ↔
          ∀ m ∈ g.config.motions ops, m.overflows (LengthUnit.factor g.config.unit) = false)
      ∧ (LengthUnit.factor g.config.unit = 1 →
          ∀ w ∈ wordsOfMotions g.config.lineNumbering q.lines.toList, IsPlainWord w) := by
  obtain ⟨hverdict, p, q, hp, hq, hlines⟩ := buffer_of_answer hraw h
  have hfinite : ∀ m ∈ g.config.motions ops, m.IsFinite := fun m hm => Config.isFinite_of_verdict hc hverdict hm
  have hwords : wordsOfMotions g.config.lineNumbering q.lines.toList = g.config.numberWords ops := by
    rw [hlines, Config.wordsOfMotions_buffer, Config.flatMap_motionWords_listingLines hraw hfinite]
  have hspec (m : Motion) (hm : m ∈ g.config.motions ops) :=
    Motion.numberWords_spec (hfinite m hm) (LengthUnit.factor_mem g.config.unit)
  have hplain : (∀ w ∈ g.config.numberWords ops, IsPlainWord w) ↔
      ∀ m ∈ g.config.motions ops, m.overflows (LengthUnit.factor g.config.unit) = false := by
    rw [Config.numberWords, List.forall_mem_flatMap]
    exact forall₂_congr fun m hm => (hspec m hm).2
  rw [← hwords] at hplain
  refine ⟨p, q, hp, hq, ?_, hplain, fun hunit => hplain.mpr ?_⟩
  · intro w hw
    rw [hwords] at hw
    obtain ⟨m, hm, hword⟩ := List.mem_flatMap.mp hw
    exact (hspec m hm).1 w hword
  · intro m hm
    rw [hunit]
    refine List.any_eq_false.mpr ?_
    intro number _
    rw [Value.overflows_one]
    exact Bool.false_ne_true

end Generator

end

/-- A move to `1e306` metres under the strict policy. -/
theorem Generator.numbers_of_strict_of_metres :
    let g : Generator := ⟨{ Config.standard with name := some "1", unit := "m", strict := true }, none⟩
    let ops : List Operation := [.linearMove ⟨.float 1e306, .null, .null⟩ .null]
    let listing := "%\nO1\nN001 G21\nN002 G90\nN003 G00 Z10000 F50000\nN004 G00 X0 Y0 Z10000 F50000\n"
      ++ "N005 G01 Xinf F50000\nN006 M05\nN007 M09\nN008 G00 Z10000 F50000\nN009 M30\n%"
    g.config.strict = true ∧ (∀ op ∈ ops, op.rawText? = none) ∧ (g.generate ops).1 = .ok listing
    ∧ ∃ p q, g.openNext.1 = .ok p
      ∧ (do Writing.carryOutAll ops; Writing.eval : Writing String).run p = .ok listing q
      ∧ ¬ ∀ w ∈ wordsOfMotions g.config.lineNumbering q.lines.toList, IsPlainWord w := by
  intro g ops listing
  have hraw : ∀ op ∈ ops, op.rawText? = none := by
    intro op hop
    rw [List.mem_singleton.mp hop]
    rfl
  let cut : Motion := ⟨.linear, ⟨.float 1e306, .null, .null⟩, .int 50⟩
  have hcut : cut ∈ g.config.motions ops := List.mem_append_left _ (List.mem_append_right _ List.mem_cons_self)
  have hanswer : (g.generate ops).1 = .ok listing := by
    have hverdict : g.verdict ops = .ok () := verdict_of_isFinite rfl (by decide +kernel)
    have hends : Operation.EndsOnce ops := Operation.endsOnce_of_dropLast fun _ hop => absurd hop List.not_mem_nil
    rw [generate_of_endsOnce g hends, hverdict]
    exact congrArg Except.ok (by decide +kernel)
  obtain ⟨p, q, hp, hq, -, hplain, -⟩ := numbers_of_strict rfl hraw hanswer
  have hover : cut.overflows (LengthUnit.factor g.config.unit) = true := by decide +kernel
  refine ⟨rfl, hraw, hanswer, p, q, hp, hq, ?_⟩
  intro hall
  exact absurd ((hplain.mp hall cut hcut).symm.trans hover) Bool.false_ne_true

end PartProgram
