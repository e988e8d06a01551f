/-
What becomes of the directives of a job.

A job file is looked at twice.  Reading it finds out whether every directive has the fields that
its kind cannot do without, and whether a position has at most three axes with the names of axes;
making the operations reads positions, distance modes and raw lines once more, by rules that were
written for themselves.  What is proved is that the second look finds fault with two things only:
a token that names no distance mode, and a text that is blank or has several lines.  Everything
else that a directive needs is there once it has been read, so no other fault of an operation can
come up, and where there is none the operations are as many as the directives, in their order.

The argument has two halves.  `Fit` is what reading guarantees, taken from the readers of the
fields by inverting them one after another; `AtFault` lists the faults that are left, and under
`Fit` they are the errors of an operation, one for one.

How a value becomes a float, a truth value or a text is left to the conversions of `Field`, which
are taken for granted.  Nothing is asked of them here but that they give a value of the kind of
the field or an issue.
-/
import Mathlib.Data.List.Forall2
import PartProgram.Job.Basic
import PartProgram.Proofs.Operations

namespace PartProgram

/-! ### Lists that are made item by item -/

section Items

variable {α β ε : Type} {f : α → Except ε β}

/-- Items are made one for one, or not at all. -/
theorem mapM_eq_ok {l : List α} {made : List β} :
    l.mapM f = .ok made ↔ List.Forall₂ (fun a b => f a = .ok b) l made := by
  induction l generalizing made with
  | nil =>
      rw [List.mapM_nil, List.forall₂_nil_left_iff]
      exact ⟨fun h => (Except.ok.inj h).symm, fun h => congrArg Except.ok h.symm⟩
  | cons first rest ih =>
      rw [List.mapM_cons, List.forall₂_cons_left_iff]
      constructor
      · intro h
        obtain ⟨b, hb, h⟩ := bind_eq_ok.mp h
        obtain ⟨bs, hbs, h⟩ := bind_eq_ok.mp h
        exact ⟨b, bs, hb, ih.mp hbs, (Except.ok.inj h).symm⟩
      · rintro ⟨b, bs, hb, hbs, rfl⟩
        rw [hb, ih.mpr hbs]
        rfl

theorem exists_of_mapM {l : List α} {made : List β} (h : l.mapM f = .ok made) : ∀ a ∈ l, ∃ b, f a = .ok b := by
  have hpairs : List.Forall₂ (fun a b => (∃ b, f a = .ok b) ∧ f a = .ok b) l made :=
    (mapM_eq_ok.mp h).imp fun a b hb => ⟨⟨b, hb⟩, hb⟩
  exact ((List.forall₂_and_left l made).mp hpairs).1

/-- The first item that cannot be made is what is wrong. -/
theorem mapM_eq_error {l : List α} {e : ε} : l.mapM f = .error e ↔
    ∃ before a after, l = before ++ a :: after ∧ (∀ b ∈ before, ∃ made, f b = .ok made) ∧ f a = .error e := by
  induction l with
  | nil =>
      constructor
      · intro h
        cases h
      · rintro ⟨before, a, after, h, -⟩
        exact absurd h.symm (List.append_ne_nil_of_right_ne_nil before (List.cons_ne_nil a after))
  | cons first rest ih =>
      rw [List.mapM_cons]
      cases hfirst : f first with
      | error e' =>
          constructor
          · intro h
            obtain rfl := Except.error.inj h
            exact ⟨[], first, rest, rfl, fun b hb => absurd hb List.not_mem_nil, hfirst⟩
          · rintro ⟨before, a, after, h, hbefore, ha⟩
            cases before with
            | nil =>
                obtain ⟨rfl, -⟩ := List.cons.inj h
                obtain rfl := Except.error.inj (hfirst.symm.trans ha)
                rfl
            | cons b bs =>
                obtain ⟨rfl, -⟩ := List.cons.inj h
                obtain ⟨made, hmade⟩ := hbefore first List.mem_cons_self
                cases hfirst.symm.trans hmade
      | ok b =>
          have hrest : (Except.ok b >>= fun b => rest.mapM f >>= fun bs => pure (b :: bs)) = .error e
              ↔ rest.mapM f = .error e := by
            cases rest.mapM f with
            | ok bs => exact ⟨fun h => (by cases h), fun h => (by cases h)⟩
            | error e' => exact Iff.rfl
          rw [hrest, ih]
          constructor
          · rintro ⟨before, a, after, rfl, hbefore, ha⟩
            exact ⟨first :: before, a, after, rfl, List.forall_mem_cons.mpr ⟨⟨b, hfirst⟩, hbefore⟩, ha⟩
          · rintro ⟨before, a, after, h, hbefore, ha⟩
            cases before with
            | nil =>
                obtain ⟨rfl, -⟩ := List.cons.inj h
                cases hfirst.symm.trans ha
            | cons c cs =>
                obtain ⟨-, rfl⟩ := List.cons.inj h
                exact ⟨cs, a, after, rfl, fun d hd => hbefore d (List.mem_cons_of_mem c hd), ha⟩

end Items

/-! ### Checks that are passed

A check goes on after the first issue and collects them all, so it is no computation that stops,
and an acceptance has to be taken apart by rules of its own: a check is accepted where all parts
of it are, and what it accepts is made of what the parts accept.
-/

namespace Checked

variable {α β : Type} {c : Checked α}

theorem map_eq_accepted {f : α → β} {b : β} : c.map f = .accepted b ↔ ∃ a, c = .accepted a ∧ f a = b := by
  cases c with
  | accepted a => simp [map]
  | refused is => simp [map]

theorem andThen_eq_accepted {f : α → Checked β} {b : β} :
    c.andThen f = .accepted b ↔ ∃ a, c = .accepted a ∧ f a = .accepted b := by
  cases c with
  | accepted a => simp [andThen]
  | refused is => simp [andThen]

/-- Two checks side by side are passed when both of them are. -/
theorem beside_eq_accepted {f : Checked (α → β)} {b : β} :
    f.beside c = .accepted b ↔ ∃ g a, f = .accepted g ∧ c = .accepted a ∧ g a = b := by
  cases f with
  | refused is => simp [beside]
  | accepted g =>
      cases c with
      | accepted a => simp [beside]
      | refused is => simp [beside]

theorem under_eq_accepted {step : PathStep} {a : α} : c.under step = .accepted a ↔ c = .accepted a := by
  cases c with
  | accepted b => exact Iff.rfl
  | refused is => simp [under]

/-- The items of a list are accepted one by one. -/
theorem forall₂_of_each {f : α → Checked β} {l : List α} {index : Nat} {bs : List β}
    (h : each f index l = .accepted bs) : List.Forall₂ (fun a b => f a = .accepted b) l bs := by
  induction l generalizing index bs with
  | nil =>
      cases h
      exact .nil
  | cons first rest ih =>
      obtain ⟨g, more, hg, hmore, rfl⟩ := beside_eq_accepted.mp h
      obtain ⟨b, hb, rfl⟩ := map_eq_accepted.mp hg
      exact .cons (under_eq_accepted.mp hb) (ih hmore)

/-- What is accepted of a list was accepted as an item of it. -/
theorem exists_of_each {f : α → Checked β} {l : List α} {index : Nat} {bs : List β}
    (h : each f index l = .accepted bs) : ∀ b ∈ bs, ∃ a ∈ l, f a = .accepted b := by
  intro b hb
  obtain ⟨i, hi, rfl⟩ := List.mem_iff_getElem.mp hb
  have hread := forall₂_of_each h
  have hil : i < l.length := hread.length_eq ▸ hi
  exact ⟨l[i], List.getElem_mem hil, hread.get hil hi⟩

end Checked

namespace Field

variable {α : Type} {read : Value → Checked α}

theorem exists_of_optional {v : Value} {a : α} (h : optional read v = .accepted (some a)) :
    read v = .accepted a := by
  unfold optional at h
  split at h
  · cases h
  · obtain ⟨b, hb, hba⟩ := Checked.map_eq_accepted.mp h
    obtain rfl := Option.some.inj hba
    exact hb

/-- What a field may be left without is what was read, where it is there. -/
theorem exists_of_under {key : String} {es : List (Value × Value)} {a : α}
    (h : under key (.accepted none) (optional read) es = .accepted (some a)) : ∃ v, read v = .accepted a := by
  unfold under at h
  split at h
  · exact ⟨_, exists_of_optional (Checked.under_eq_accepted.mp h)⟩
  · cases h

/-- The items of a list that may be left out were read one by one. -/
theorem exists_of_under_list {key : String} {es : List (Value × Value)} {l : List α}
    (h : under key (.accepted []) (list read) es = .accepted l) : ∀ a ∈ l, ∃ v, read v = .accepted a := by
  unfold under at h
  split at h
  · rename_i v hv
    have hlist := Checked.under_eq_accepted.mp h
    intro a ha
    cases v with
    | list items =>
        obtain ⟨v, -, hread⟩ := Checked.exists_of_each hlist a ha
        exact ⟨v, hread⟩
    | tuple items =>
        obtain ⟨v, -, hread⟩ := Checked.exists_of_each hlist a ha
        exact ⟨v, hread⟩
    | _ => cases hlist
  · cases h
    exact fun a ha => absurd ha List.not_mem_nil

end Field

/-! ### What reading a directive guarantees

The readers of the fields are inverted here once.  What comes of it is `Reads`, that each field
holds what was read under its key, and from it `Fit`, that a directive has what its kind needs.
The faults of an operation are judged by `Fit` alone.
-/

/-- As many items as there are axes make a position. -/
theorem Position.exists_of_items {items : List Value} (h : items.length ≤ 3) : ∃ p, ofItems? items = .ok p := by
  match items, h with
  | [], _ => exact ⟨_, rfl⟩
  | [_], _ => exact ⟨_, rfl⟩
  | [_, _], _ => exact ⟨_, rfl⟩
  | [_, _, _], _ => exact ⟨_, rfl⟩
  | _ :: _ :: _ :: _ :: _, h => simp only [List.length_cons] at h; omega

section

variable [DigitLimit]

namespace PositionSpec

/-- The keys of a position are texts, so all of them can be written. -/
theorem ofValue?_named (axes : List (String × Option Float)) :
    Position.ofValue? (named axes).toValue
      = let entries := axes.map fun (k, x) => (Value.text k, Value.ofFloat? x)
        .ok ⟨Position.axisEntry "x" entries, Position.axisEntry "y" entries, Position.axisEntry "z" entries⟩ := by
  refine if_pos (List.all_eq_true.mpr ?_)
  intro e he
  obtain ⟨axis, -, rfl⟩ := List.mem_map.mp he
  rfl

theorem exists_of_check {spec checked : PositionSpec} (h : spec.check = .accepted checked) :
    ∃ p, Position.ofValue? checked.toValue = .ok p := by
  cases spec with
  | listed axes =>
      rw [check] at h
      split at h
      · rename_i hlength
        cases h
        exact Position.exists_of_items (by rwa [List.length_map])
      · cases h
  | named axes =>
      rw [check] at h
      split at h
      · cases h
        exact ⟨_, ofValue?_named axes⟩
      · cases h

/-- A position that is read is one for an operation too. -/
theorem exists_of_read {v : Value} {spec : PositionSpec} (h : read v = .accepted spec) :
    ∃ p, Position.ofValue? spec.toValue = .ok p := by
  unfold read at h
  split at h
  · exact exists_of_check h
  · split at h
    · exact exists_of_check h
    · cases h

end PositionSpec

namespace Directive

/-- A directive that has what its kind cannot do without. -/
structure Fit (d : Directive) : Prop where
  position : d.kind = .feedRapid ∨ d.kind = .feedLinear →
    ∃ p, Position.ofValue? (orNull PositionSpec.toValue d.position) = .ok p
  token : d.kind = .setPositioning → ∃ token, d.positioning = some token
  text : d.kind = .raw → ∃ s, d.text = some s

theorem fit_of_complete {d checked : Directive} (h : d.complete = .accepted checked)
    (hspec : ∀ spec, d.position = some spec → ∃ p, Position.ofValue? spec.toValue = .ok p) :
    checked.Fit := by
  obtain ⟨kind, position, feedrate, depth, clockwise, flood, force, positioning, text⟩ := d
  cases kind with
  | setPositioning =>
      cases positioning with
      | none => cases h
      | some token =>
          cases h
          exact ⟨fun hk => (by simp at hk), fun _ => ⟨token, rfl⟩, fun hk => (by cases hk)⟩
  | feedRapid =>
      cases position with
      | none => cases h
      | some spec =>
          cases h
          exact ⟨fun _ => hspec spec rfl, fun hk => (by cases hk), fun hk => (by cases hk)⟩
  | feedLinear =>
      cases position with
      | none => cases h
      | some spec =>
          cases h
          exact ⟨fun _ => hspec spec rfl, fun hk => (by cases hk), fun hk => (by cases hk)⟩
  | raw =>
      cases text with
      | none => cases h
      | some s =>
          have hs : (if s.isEmpty then Checked.problem _ else Checked.accepted _) = Checked.accepted checked := h
          split at hs
          · cases hs
          · cases hs
            exact ⟨fun hk => (by simp at hk), fun hk => (by cases hk), fun _ => ⟨s, rfl⟩⟩
  | _ =>
      cases h
      exact ⟨fun hk => (by simp at hk), fun hk => (by cases hk), fun hk => (by cases hk)⟩

/-- What a directive has in its fields is what was read under their keys. -/
structure Reads (es : List (Value × Value)) (d : Directive) : Prop where
  kind : Field.under "op" (.problem .missing) DirectiveKind.read es = .accepted d.kind
  position : Field.under "position" (.accepted none) (Field.optional PositionSpec.read) es = .accepted d.position
  feedrate : Field.under "feedrate" (.accepted none) (Field.optional Field.number) es = .accepted d.feedrate
  depth : Field.under "depth" (.accepted none) (Field.optional Field.number) es = .accepted d.depth
  clockwise : Field.under "clockwise" (.accepted true) Field.truth es = .accepted d.clockwise
  flood : Field.under "flood" (.accepted false) Field.truth es = .accepted d.flood
  force : Field.under "force" (.accepted false) Field.truth es = .accepted d.force
  positioning : Field.under "positioning" (.accepted none) (Field.optional ModeToken.read) es = .accepted d.positioning
  text : Field.under "text" (.accepted none) (Field.optional Field.text) es = .accepted d.text

section

omit [DigitLimit]

/-- Fields are read side by side, each of them by itself. -/
theorem readFields_eq_accepted {es : List (Value × Value)} {d : Directive} :
    readFields es = .accepted d ↔ Reads es d := by
  constructor
  · intro h
    obtain ⟨g8, text, h8, htext, rfl⟩ := Checked.beside_eq_accepted.mp h
    obtain ⟨g7, token, h7, htoken, rfl⟩ := Checked.beside_eq_accepted.mp h8
    obtain ⟨g6, force, h6, hforce, rfl⟩ := Checked.beside_eq_accepted.mp h7
    obtain ⟨g5, flood, h5, hflood, rfl⟩ := Checked.beside_eq_accepted.mp h6
    obtain ⟨g4, clockwise, h4, hclockwise, rfl⟩ := Checked.beside_eq_accepted.mp h5
    obtain ⟨g3, depth, h3, hdepth, rfl⟩ := Checked.beside_eq_accepted.mp h4
    obtain ⟨g2, feedrate, h2, hfeedrate, rfl⟩ := Checked.beside_eq_accepted.mp h3
    obtain ⟨g1, position, h1, hposition, rfl⟩ := Checked.beside_eq_accepted.mp h2
    obtain ⟨kind, hkind, rfl⟩ := Checked.map_eq_accepted.mp h1
    exact ⟨hkind, hposition, hfeedrate, hdepth, hclockwise, hflood, hforce, htoken, htext⟩
  · intro h
    rw [readFields, h.kind, h.position, h.feedrate, h.depth, h.clockwise, h.flood, h.force, h.positioning, h.text]
    rfl

/-- Nothing is changed when a directive is found to be complete. -/
theorem eq_of_complete {d checked : Directive} (h : d.complete = .accepted checked) : checked = d := by
  unfold complete at h
  dsimp only at h
  split at h
  case h_5 =>
      split at h
      · cases h
      · exact (Checked.accepted.inj h).symm
  case h_6 => exact (Checked.accepted.inj h).symm
  all_goals cases h

/-- A directive is accepted with its fields as they were read, when it is complete and no key is strange. -/
theorem ofEntries_eq_accepted {es : List (Value × Value)} {d : Directive} : ofEntries es = .accepted d ↔
    Reads es d ∧ Field.noOthers keys es = .accepted () ∧ d.complete = .accepted d := by
  constructor
  · intro h
    obtain ⟨whole, hwhole, hcomplete⟩ := Checked.andThen_eq_accepted.mp h
    obtain ⟨g, _, hg, hothers, rfl⟩ := Checked.beside_eq_accepted.mp hwhole
    obtain ⟨fields, hfields, rfl⟩ := Checked.map_eq_accepted.mp hg
    obtain rfl := eq_of_complete hcomplete
    exact ⟨readFields_eq_accepted.mp hfields, hothers, hcomplete⟩
  · rintro ⟨hreads, hothers, hcomplete⟩
    rw [ofEntries, readFields_eq_accepted.mpr hreads, hothers]
    exact hcomplete

end

/-- **What is read is fit.** -/
theorem fit_of_read {v : Value} {d : Directive} (h : read v = .accepted d) : d.Fit := by
  cases v with
  | map es =>
      obtain ⟨hreads, -, hcomplete⟩ := ofEntries_eq_accepted.mp h
      refine fit_of_complete hcomplete fun spec hspec => ?_
      have hposition := hreads.position
      rw [hspec] at hposition
      obtain ⟨given, hread⟩ := Field.exists_of_under hposition
      exact PositionSpec.exists_of_read hread
  | _ => cases h

/-! ### What can still be wrong with a directive

An operation is made without regard to what reading has guaranteed, and so it has more errors
than can come up.  Under `Fit` all of them are ruled out but those of a distance mode and of a
raw line, and these are decided by the token and the text alone.
-/

/-- What is wrong with a directive that was read: its token names no distance mode, or its text
is blank, or is not blank and has several lines. -/
inductive AtFault (d : Directive) : OperationError → Prop where
  | mode {token : ModeToken} {e : UnknownMode} (hk : d.kind = .setPositioning) (ht : d.positioning = some token)
      (he : DistanceMode.ofValue? token.toValue = .error e) : AtFault d (.mode e)
  | blank {s : String} (hk : d.kind = .raw) (ht : d.text = some s) (hs : Text.trim s = "") : AtFault d .blankText
  | lines {s : String} (hk : d.kind = .raw) (ht : d.text = some s) (hs : Text.trim s ≠ "") (hn : '\n' ∈ s.toList) :
      AtFault d .severalLines

end Directive

/-- The kind of directive that an operation answers; none for what no directive asks for. -/
def Operation.directiveKind? : Operation → Option DirectiveKind
  | setMode _ => some .setPositioning
  | rapidMove _ _ => some .feedRapid
  | linearMove _ _ => some .feedLinear
  | dropMill _ => some .dropMill
  | raiseMill _ => some .raiseMill
  | startSpindle _ => some .startSpindle
  | stopSpindle => some .stopSpindle
  | startCoolant _ => some .startCoolant
  | stopCoolant => some .stopCoolant
  | terminate _ => some .terminate
  | rawLine _ => some .raw
  | foreign _ => none
  | value _ => none

omit [DigitLimit] in
/-- A raw line is refused for one of two things. -/
theorem Operation.ofLine_eq_error {s : String} {e : OperationError} : ofLine s = .error e ↔
    Text.trim s = "" ∧ e = .blankText ∨ Text.trim s ≠ "" ∧ '\n' ∈ s.toList ∧ e = .severalLines := by
  unfold ofLine
  by_cases hblank : Text.trim s = ""
  · rw [if_pos (by simp [hblank])]
    simp [hblank, eq_comm]
  · rw [if_neg (by simpa using hblank)]
    by_cases hlines : '\n' ∈ s.toList
    · rw [if_pos (by simpa using hlines)]
      simp [hblank, hlines, eq_comm]
    · rw [if_neg (by simpa using hlines)]
      simp [hlines, hblank]

namespace Directive

variable {d : Directive}

/-- **One directive.**  Of a directive that was read, the faults that are left are what keeps
it from making an operation. -/
theorem operation_eq_error (h : d.Fit) {e : OperationError} : d.operation = .error e ↔ d.AtFault e := by
  have hfault (hmade : ∃ op, d.operation = .ok op) (hset : d.kind ≠ .setPositioning) (hraw : d.kind ≠ .raw) :
      d.operation = .error e ↔ d.AtFault e := by
    obtain ⟨op, hop⟩ := hmade
    constructor
    · intro he
      cases hop.symm.trans he
    · rintro (⟨hk, -, -⟩ | ⟨hk, -, -⟩ | ⟨hk, -, -, -⟩)
      · exact absurd hk hset
      · exact absurd hk hraw
      · exact absurd hk hraw
  obtain ⟨kind, position, feedrate, depth, clockwise, flood, force, positioning, text⟩ := d
  cases kind with
  | setPositioning =>
      obtain ⟨token, rfl⟩ := h.token rfl
      show (((DistanceMode.ofValue? token.toValue).mapError OperationError.mode).map Operation.setMode) = .error e ↔ _
      cases hmode : DistanceMode.ofValue? token.toValue with
      | ok m =>
          constructor
          · intro he
            cases he
          · rintro (⟨-, ht, he⟩ | ⟨hk, -, -⟩ | ⟨hk, -, -, -⟩)
            · cases ht
              cases hmode.symm.trans he
            · cases hk
            · cases hk
      | error u =>
          constructor
          · intro he
            cases he
            exact .mode rfl rfl hmode
          · rintro (⟨-, ht, he⟩ | ⟨hk, -, -⟩ | ⟨hk, -, -, -⟩)
            · cases ht
              obtain rfl := Except.error.inj (hmode.symm.trans he)
              rfl
            · cases hk
            · cases hk
  | raw =>
      obtain ⟨s, rfl⟩ := h.text rfl
      show Operation.ofLine s = .error e ↔ _
      rw [Operation.ofLine_eq_error]
      constructor
      · rintro (⟨hs, rfl⟩ | ⟨hs, hn, rfl⟩)
        · exact .blank rfl rfl hs
        · exact .lines rfl rfl hs hn
      · rintro (⟨hk, -, -⟩ | ⟨-, ht, hs⟩ | ⟨-, ht, hs, hn⟩)
        · cases hk
        · cases ht
          exact Or.inl ⟨hs, rfl⟩
        · cases ht
          exact Or.inr ⟨hs, hn, rfl⟩
  | feedRapid =>
      obtain ⟨p, hp⟩ := h.position (Or.inl rfl)
      refine hfault ⟨.rapidMove p (Value.ofFloat? feedrate), ?_⟩ (by simp) (by simp)
      simp only [operation, Operation.ofRapid, hp]
      rfl
  | feedLinear =>
      obtain ⟨p, hp⟩ := h.position (Or.inr rfl)
      refine hfault ⟨.linearMove p (Value.ofFloat? feedrate), ?_⟩ (by simp) (by simp)
      simp only [operation, Operation.ofLinear, hp]
      rfl
  | _ => exact hfault ⟨_, rfl⟩ (by simp) (by simp)

theorem exists_operation_iff (h : d.Fit) : (∃ op, d.operation = .ok op) ↔ ∀ e, ¬ d.AtFault e := by
  simp only [← operation_eq_error h]
  cases d.operation with
  | ok op => simp
  | error e => simp

/-- An operation is of the kind of its directive. -/
theorem directiveKind?_of_operation {op : Operation} (h : d.operation = .ok op) :
    op.directiveKind? = some d.kind := by
  obtain ⟨kind, position, feedrate, depth, clockwise, flood, force, positioning, text⟩ := d
  cases kind with
  | setPositioning =>
      obtain ⟨m, -, rfl⟩ := map_eq_ok.mp h
      rfl
  | feedRapid =>
      obtain ⟨p, -, rfl⟩ := map_eq_ok.mp h
      rfl
  | feedLinear =>
      obtain ⟨p, -, rfl⟩ := map_eq_ok.mp h
      rfl
  | raw =>
      cases text with
      | none => cases h
      | some s =>
          have hline : Operation.ofLine s = .ok op := h
          obtain rfl := Operation.eq_rawLine_of_ofLine hline
          rfl
  | _ =>
      obtain rfl := Except.ok.inj h
      rfl

end Directive

/-! ### Jobs -/

namespace Job

variable {es : List (Value × Value)} {job : Job}

theorem fit_of_ofEntries (h : ofEntries es = .accepted job) : ∀ d ∈ job.directives, d.Fit := by
  obtain ⟨g, _, hg, -, rfl⟩ := Checked.beside_eq_accepted.mp h
  obtain ⟨whole, hwhole, rfl⟩ := Checked.map_eq_accepted.mp hg
  obtain ⟨g2, directives, h2, hdirectives, rfl⟩ := Checked.beside_eq_accepted.mp hwhole
  obtain ⟨g1, settings, h1, -, rfl⟩ := Checked.beside_eq_accepted.mp h2
  obtain ⟨version, -, rfl⟩ := Checked.map_eq_accepted.mp h1
  intro d hd
  obtain ⟨v, hread⟩ := Field.exists_of_under_list hdirectives d hd
  exact Directive.fit_of_read hread

/-- The first directive at fault is what is wrong with the directives of a job. -/
theorem operations_eq_error (hfit : ∀ d ∈ job.directives, d.Fit) {e : DirectiveError} :
    job.operations = .error e ↔ ∃ before d after, job.directives = before ++ d :: after
      ∧ (∀ b ∈ before, ∀ e, ¬ b.AtFault e) ∧ d.AtFault e.cause := by
  obtain ⟨cause⟩ := e
  have hcause : job.operations = .error ⟨cause⟩ ↔ job.directives.mapM Directive.operation = .error cause := by
    rw [operations]
    cases job.directives.mapM Directive.operation with
    | ok ops => simp
    | error e => simp
  rw [hcause, mapM_eq_error]
  refine exists_congr fun before => exists_congr fun d => exists_congr fun after => and_congr_right fun hsplit => ?_
  rw [hsplit] at hfit
  obtain ⟨hbefore, hrest⟩ := List.forall_mem_append.mp hfit
  have hd := hrest d List.mem_cons_self
  refine and_congr ?_ (Directive.operation_eq_error hd)
  exact forall₂_congr fun b hb => Directive.exists_operation_iff (hbefore b hb)

theorem operations_eq_ok {ops : List Operation} :
    job.operations = .ok ops ↔ job.directives.mapM Directive.operation = .ok ops := mapError_eq_ok

theorem exists_operations_iff (hfit : ∀ d ∈ job.directives, d.Fit) :
    (∃ ops, job.operations = .ok ops) ↔ ∀ d ∈ job.directives, ∀ e, ¬ d.AtFault e := by
  constructor
  · rintro ⟨ops, hops⟩ d hd
    exact (Directive.exists_operation_iff (hfit d hd)).mp (exists_of_mapM (operations_eq_ok.mp hops) d hd)
  · intro hnone
    cases hops : job.operations with
    | ok ops => exact ⟨ops, rfl⟩
    | error e =>
        obtain ⟨before, d, after, hsplit, -, hd⟩ := (operations_eq_error hfit).mp hops
        have hmem : d ∈ job.directives := by simp [hsplit]
        exact absurd hd (hnone d hmem e.cause)

/-- **A job makes its operations, or one of two things is wrong.**  There is one operation for
each directive of a job that was read, made from it and of its kind, unless the token of a
directive names no distance mode or a raw text is blank or has several lines.  Then the first
such directive is what is wrong, and nothing else ever is. -/
theorem operations_total (h : ofEntries es = .accepted job) :
    ((∃ ops, job.operations = .ok ops ∧ List.Forall₂
        (fun d op => d.operation = .ok op ∧ op.directiveKind? = some d.kind) job.directives ops)
      ↔ ∀ d ∈ job.directives, ∀ e, ¬ d.AtFault e)
    ∧ ((∃ e, job.operations = .error e) ↔ ∃ d ∈ job.directives, ∃ e, d.AtFault e)
    ∧ ∀ e, job.operations = .error e ↔ ∃ before d after, job.directives = before ++ d :: after
        ∧ (∀ b ∈ before, ∀ e, ¬ b.AtFault e) ∧ d.AtFault e.cause := by
  have hfit := fit_of_ofEntries h
  have hiff := exists_operations_iff hfit
  refine ⟨?_, ?_, fun e => operations_eq_error hfit⟩
  · rw [← hiff]
    refine exists_congr fun ops => and_iff_left_of_imp ?_
    intro hops
    refine (mapM_eq_ok.mp (operations_eq_ok.mp hops)).imp ?_
    intro d op hop
    exact ⟨hop, Directive.directiveKind?_of_operation hop⟩
  · constructor
    · rintro ⟨e, he⟩
      obtain ⟨before, d, after, hsplit, -, hd⟩ := (operations_eq_error hfit).mp he
      exact ⟨d, by simp [hsplit], e.cause, hd⟩
    · rintro ⟨d, hd, e, he⟩
      cases hops : job.operations with
      | ok ops => exact absurd he (hiff.mp ⟨ops, hops⟩ d hd e)
      | error e' => exact ⟨e', rfl⟩

end Job

end

/-- A switch of the distance mode and a raw line with a line break, both of which are read. -/
theorem Job.operations_total_of_break :
    let entry (op : String) (more : List (Value × Value)) : Value := .map ((.text "op", .text op) :: more)
    let es : List (Value × Value) := [(.text "directives", .list [
      entry "set_positioning" [(.text "positioning", .text "Relative")], entry "stop_spindle" [],
      entry "raw" [(.text "text", .text "M00\nM01")]])]
    let plain (kind : DirectiveKind) : Directive := ⟨kind, none, none, none, true, false, false, none, none⟩
    let job : Job := ⟨"job.v1", none, [{ plain .setPositioning with positioning := some (.text "Relative") },
      plain .stopSpindle, { plain .raw with text := some "M00\nM01" }]⟩
    ofEntries es = .accepted job ∧ job.operations = .error ⟨.severalLines⟩ := by
  intro entry es plain job
  have h : ofEntries es = .accepted job := rfl
  have hmode : DistanceMode.ofValue? (.text "Relative") = .ok .relative := DistanceMode.ofValue?_text (by decide)
  refine ⟨h, ((operations_total h).2.2 ⟨.severalLines⟩).mpr ?_⟩
  refine ⟨job.directives.take 2, { plain .raw with text := some "M00\nM01" }, [], rfl, ?_, ?_⟩
  · intro d hd e he
    simp only [job, List.take, List.mem_cons, List.not_mem_nil, or_false] at hd
    rcases hd with rfl | rfl
    · cases he with
      | mode hk ht he =>
          cases ht
          cases hmode.symm.trans he
      | blank hk ht hs => cases hk
      | lines hk ht hs hn => cases hk
    · cases he with
      | mode hk ht he => cases hk
      | blank hk ht hs => cases hk
      | lines hk ht hs hn => cases hk
  · exact .lines rfl rfl (by decide) (by decide)

end PartProgram
