/-
The shape of a program.

Whatever is called on a new program, short of plain lines, its lines keep one layout: the
marker and the title, a body of code words and motions, the end once the program is closed,
and the marker once it is evaluated.  Each move keeps the layout, and the shape is what the
layout says of single lines: where the markers are, which line is a title, and what stands
around the code that ends the program.  The mode is that of the last line that switches it.
-/
import PartProgram.Proofs.Moves

namespace PartProgram

open PartProgram.Numbering
open Program (Moves IsEnd)

/-- The lines of a buffer, read without the numbers. -/
def rawLines (numbered : Bool) (buffer : List String) : List String := if numbered then buffer.map lineOf else buffer

theorem rawLines_entries (numbered : Bool) (lines : List String) :
    rawLines numbered (entries (if numbered then 1 else 0) lines) = lines := by
  cases numbered with
  | true => exact map_lineOf_entries Nat.one_ne_zero lines
  | false => exact entries_zero lines

/-! ### What the moves keep

A layout names the parts of a buffer in the order in which they come.  A move adds to one of
them, and which it may add to is settled by the phase: to the body while the program is open,
the end once, and the last marker once the end is there.
-/

namespace Program

variable {IsRaise : String → Prop} {Assigned : Prop} {name : String} {raw more : List String} {p q : Program}

/-- The marker behind the end, once the program is evaluated. -/
def tail (p : Program) : List String := if p.listing.isSome then [openMarker] else []

/-- What follows the body: nothing in an open program, and the end in a closed one. -/
inductive Closing (IsRaise : String → Prop) (p : Program) : List String → Prop where
  | opened (ho : p.IsOpen) : Closing IsRaise p []
  | closed {front : List String} {code : String} (hc : p.phase = .closed) (hend : IsEnd IsRaise front code) :
      Closing IsRaise p (front ++ code :: p.tail)

/-- The lines of a program are laid out as its phase has it. -/
def LaidOut (name : String) (IsRaise : String → Prop) (raw : List String) (p : Program) : Prop :=
  ∃ body closing, raw = (openMarker :: (nameLetter ++ name) :: body) ++ closing
    ∧ (∀ line ∈ body, IsInner line) ∧ Closing IsRaise p closing

theorem closing_of_open (ho : p.IsOpen) {closing : List String} (h : Closing IsRaise p closing) : closing = [] := by
  cases h with
  | opened _ => rfl
  | closed hc _ =>
      rw [ho.phase] at hc
      cases hc

theorem tail_of_listing (h : p.listing = none) : p.tail = [] := by
  rw [tail, h]
  rfl

/-- **The layout.**  Every move keeps the lines laid out. -/
theorem Moves.laidOut (h : Moves IsRaise Assigned p more q) (hp : p.LaidOut name IsRaise raw) :
    q.LaidOut name IsRaise (raw ++ more) := by
  induction h generalizing raw with
  | kept hphase hlisting _ _ =>
      obtain ⟨body, closing, rfl, hbody, hclosing⟩ := hp
      refine ⟨body, closing, List.append_nil _, hbody, ?_⟩
      cases hclosing with
      | opened ho => exact .opened ⟨hphase.trans ho.phase, hlisting.trans ho.listing⟩
      | closed hc hend =>
          rw [tail, ← hlisting]
          exact .closed (hphase.trans hc) hend
  | @line p q line ho hq _ hinner _ =>
      obtain ⟨body, closing, rfl, hbody, hclosing⟩ := hp
      obtain rfl := closing_of_open ho hclosing
      refine ⟨body ++ [line], [], by simp, ?_, .opened hq⟩
      intro l hl
      rcases List.mem_append.mp hl with hold | hnew
      · exact hbody l hold
      · rw [List.mem_singleton.mp hnew]
        exact hinner
  | ended ho hphase hlisting _ _ hend =>
      obtain ⟨body, closing, rfl, hbody, hclosing⟩ := hp
      obtain rfl := closing_of_open ho hclosing
      have hclosed := Closing.closed hphase hend
      rw [tail_of_listing hlisting] at hclosed
      exact ⟨body, _, by simp, hbody, hclosed⟩
  | evaluated hc hl hphase hlisting _ _ =>
      obtain ⟨body, closing, rfl, hbody, hclosing⟩ := hp
      cases hclosing with
      | opened ho =>
          rw [ho.phase] at hc
          cases hc
      | closed _ hend =>
          have hclosed := Closing.closed hphase hend
          rw [tail, if_pos hlisting] at hclosed
          exact ⟨body, _, by simp [tail_of_listing hl], hbody, hclosed⟩
  | trans _ _ ih ih' =>
      rw [← List.append_assoc]
      exact ih' (ih hp)

/-- The mode of the program is that of the last line that switches it. -/
def ModeRead (raw : List String) (p : Program) : Prop := (raw.filterMap modeOf?).getLast? = some p.mode

theorem ModeRead.append (h : p.ModeRead raw) (hq : q.mode = (more.filterMap modeOf?).getLast?.getD p.mode) :
    q.ModeRead (raw ++ more) := by
  rw [ModeRead] at h ⊢
  rw [List.filterMap_append, List.getLast?_append, h, hq]
  cases (more.filterMap modeOf?).getLast? <;> rfl

theorem IsEnd.modeOf?_eq_none {front : List String} {code : String} (h : IsEnd IsRaise front code) :
    (front ++ [code]).filterMap modeOf? = [] := by
  cases h with
  | forced => rfl
  | ended factor m _ =>
      refine List.filterMap_eq_nil_iff.mpr ?_
      have hmotion := m.modeOf?_text factor
      simp [hmotion]
      decide

/-- **The mode.**  Where no mode is assigned, every move keeps the mode that of the lines. -/
theorem Moves.modeRead (h : Moves IsRaise Assigned p more q) (hno : ¬ Assigned) (hp : p.ModeRead raw) :
    q.ModeRead (raw ++ more) := by
  induction h generalizing raw with
  | kept _ _ _ hmode => exact hp.append (hmode.resolve_left hno)
  | @line p q line _ _ _ _ hmode =>
      refine hp.append ?_
      rw [hmode]
      cases hline : modeOf? line <;> simp [hline]
  | ended _ _ _ _ hmode hend =>
      refine hp.append ?_
      rw [hend.modeOf?_eq_none, hmode]
      rfl
  | evaluated _ _ _ _ _ hmode => exact hp.append hmode
  | trans _ _ ih ih' =>
      rw [← List.append_assoc]
      exact ih' (ih hp)

/-! ### The shape

The layout is stated by parts, and the shape by lines, which is how it is asked for: that a line
is a marker only at certain places, that there is one code that ends the program.  It follows
because each part can hold lines of its own kind only.
-/

/-- The shape of the lines of a program. -/
structure Shaped (name : String) (IsRaise : String → Prop) (raw : List String) (p : Program) : Prop where
  /-- The marker and the title come first, and no line behind them begins with the letter of
  a title. -/
  head : ∃ rest, raw = "%" :: ("O" ++ name) :: rest ∧ ∀ line ∈ rest, line.toList.head? ≠ some 'O'
  /-- There is one marker, and a second one exactly where the program is evaluated. -/
  markers : raw.count "%" = if p.listing.isSome then 2 else 1
  last : p.listing.isSome = true → raw.getLast? = some "%"
  /-- There is one code that ends a program where the program is closed, and none before. -/
  codes : raw.countP isEndCode = if p.phase = .closed then 1 else 0
  /-- Only the marker follows the code. -/
  behind : ∀ front code rest, raw = front ++ code :: rest → isEndCode code = true →
    rest = if p.listing.isSome then ["%"] else []
  /-- In front of an end that is not forced, the spindle and the coolant are stopped and the
  mill is raised. -/
  before : ∀ front rest, raw = front ++ "M30" :: rest →
    ∃ above up, front = above ++ ["M05", "M09", up] ∧ IsRaise up

/-- A split of a list at the one item of a kind is the only one. -/
theorem split_unique {α : Type} {P : α → Bool} {front rest front' rest' : List α} {a b : α}
    (hfront : ∀ x ∈ front, P x = false) (hrest : ∀ x ∈ rest, P x = false) (hb : P b = true)
    (h : front ++ a :: rest = front' ++ b :: rest') : front' = front ∧ b = a ∧ rest' = rest := by
  induction front generalizing front' with
  | nil =>
      cases front' with
      | nil =>
          obtain ⟨rfl, rfl⟩ := List.cons.inj h
          exact ⟨rfl, rfl, rfl⟩
      | cons first more =>
          -- What is split off would hold the item.
          obtain ⟨-, rfl⟩ := List.cons.inj h
          have := hrest b (List.mem_append_right _ List.mem_cons_self)
          rw [hb] at this
          cases this
  | cons first more ih =>
      cases front' with
      | nil =>
          obtain ⟨rfl, -⟩ := List.cons.inj h
          rw [hfront first List.mem_cons_self] at hb
          cases hb
      | cons first' more' =>
          obtain ⟨rfl, htail⟩ := List.cons.inj h
          obtain ⟨rfl, hitem, hbehind⟩ := ih (fun x hx => hfront x (List.mem_cons_of_mem _ hx)) htail
          exact ⟨rfl, hitem, hbehind⟩

/-- A line with a number is neither a title nor a marker. -/
theorem plain_of_isUnnumbered {line : String} (h : isUnnumbered line = false) :
    line.toList.head? ≠ some 'O' ∧ line ≠ "%" := by
  constructor
  · intro hhead
    obtain ⟨rest, hline⟩ : ∃ rest, line.toList = 'O' :: rest := List.head?_eq_some_iff.mp hhead
    rw [isUnnumbered_of_toList hline] at h
    cases h
  · rintro rfl
    cases h

/-- The code of an end, and what stands in front of it. -/
theorem IsEnd.spec {front : List String} {code : String} (h : IsEnd IsRaise front code) :
    isEndCode code = true ∧ (∀ line ∈ front, isEndCode line = false)
      ∧ (∀ line ∈ front ++ [code], isUnnumbered line = false)
      ∧ (code = "M30" → ∃ up, front = ["M05", "M09", up] ∧ IsRaise up) := by
  cases h with
  | forced => exact ⟨rfl, fun _ h => absurd h List.not_mem_nil, by decide, fun h => absurd h (by decide)⟩
  | ended factor m hraise =>
      have hcode : isEndCode (m.text factor) = false := (IsInner.motion factor m).isEndCode
      have hnumber : isUnnumbered (m.text factor) = false := m.isUnnumbered_text factor
      refine ⟨rfl, ?_, ?_, fun _ => ⟨_, rfl, hraise⟩⟩
      · simp [hcode]
        decide
      · simp [hnumber]
        decide

/-! The body and what stands in front of it hold one marker and no code that ends a program. -/

section Head

variable {body : List String} (hbody : ∀ line ∈ body, IsInner line)

include hbody

theorem head_ne_title : ∀ line ∈ body, line.toList.head? ≠ some 'O' := by
  intro line hline
  exact (plain_of_isUnnumbered (hbody line hline).isUnnumbered).1

theorem isEndCode_head (name : String) :
    ∀ line ∈ openMarker :: (nameLetter ++ name) :: body, isEndCode line = false := by
  refine List.forall_mem_cons.mpr ⟨rfl, List.forall_mem_cons.mpr ⟨?_, ?_⟩⟩
  · exact isEndCode_of_head? (head?_title name) (by decide)
  · intro line hline
    exact (hbody line hline).isEndCode

theorem count_head : (openMarker :: (nameLetter ++ name) :: body).count "%" = 1 := by
  have htitle : nameLetter ++ name ≠ "%" := by
    intro heq
    have hhead := head?_title name
    rw [heq] at hhead
    cases hhead
  have hnone : body.count "%" = 0 := by
    refine List.count_eq_zero.mpr ?_
    intro hmem
    exact (plain_of_isUnnumbered (hbody _ hmem).isUnnumbered).2 rfl
  rw [show openMarker = "%" from rfl, List.count_cons_self, List.count_cons_of_ne htitle, hnone]

end Head

theorem tail_eq (p : Program) : p.tail = if p.listing.isSome then ["%"] else [] := rfl

theorem shaped_of_open {body : List String} (hbody : ∀ line ∈ body, IsInner line) (ho : p.IsOpen) :
    p.Shaped name IsRaise (openMarker :: (nameLetter ++ name) :: body) := by
  have hfree := isEndCode_head hbody name
  have hno {front rest : List String} {code : String}
      (hsplit : openMarker :: (nameLetter ++ name) :: body = front ++ code :: rest) : isEndCode code = false :=
    hfree code (hsplit ▸ List.mem_append_right front List.mem_cons_self)
  refine ⟨⟨body, rfl, head_ne_title hbody⟩, ?_, ?_, ?_, ?_, ?_⟩
  · rw [count_head hbody, ho.listing]
    rfl
  · rw [ho.listing]
    intro h
    cases h
  · rw [ho.phase]
    refine List.countP_eq_zero.mpr ?_
    intro line hline
    simp [hfree line hline]
  · intro front code rest hsplit hcode
    rw [hno hsplit] at hcode
    cases hcode
  · intro front rest hsplit
    exact absurd (hno hsplit) (by decide)

theorem shaped_of_closed {body front : List String} {code : String} (hbody : ∀ line ∈ body, IsInner line)
    (hc : p.phase = .closed) (hend : IsEnd IsRaise front code) :
    p.Shaped name IsRaise ((openMarker :: (nameLetter ++ name) :: body) ++ (front ++ code :: p.tail)) := by
  obtain ⟨hcode, hfront, hnumbered, hraise⟩ := hend.spec
  have htail : ∀ line ∈ p.tail, line = "%" := by
    intro line hline
    rw [tail_eq] at hline
    split at hline
    · exact List.mem_singleton.mp hline
    · exact absurd hline List.not_mem_nil
  have hbehind : ∀ line ∈ p.tail, isEndCode line = false := by
    intro line hline
    rw [htail line hline]
    rfl
  have hbefore : ∀ line ∈ (openMarker :: (nameLetter ++ name) :: body) ++ front, isEndCode line = false :=
    List.forall_mem_append.mpr ⟨isEndCode_head hbody name, hfront⟩
  have hsplit {front' rest : List String} {code' : String} (hcode' : isEndCode code' = true)
      (h : (openMarker :: (nameLetter ++ name) :: body) ++ (front ++ code :: p.tail) = front' ++ code' :: rest) :
      front' = (openMarker :: (nameLetter ++ name) :: body) ++ front ∧ code' = code ∧ rest = p.tail := by
    rw [← List.append_assoc] at h
    exact split_unique hbefore hbehind hcode' h
  have hlines : (openMarker :: (nameLetter ++ name) :: body) ++ (front ++ code :: p.tail)
      = (openMarker :: (nameLetter ++ name) :: body) ++ (front ++ [code]) ++ p.tail := by simp
  refine ⟨⟨body ++ (front ++ code :: p.tail), rfl, ?_⟩, ?_, ?_, ?_, ?_, ?_⟩
  · intro line hline
    rw [show body ++ (front ++ code :: p.tail) = body ++ (front ++ [code]) ++ p.tail by simp] at hline
    rcases List.mem_append.mp hline with hline | hline
    · rcases List.mem_append.mp hline with hline | hline
      · exact head_ne_title hbody line hline
      · exact (plain_of_isUnnumbered (hnumbered line hline)).1
    · rw [htail line hline]
      decide
  · have hnone : (front ++ [code]).count "%" = 0 :=
      List.count_eq_zero.mpr fun hmem => (plain_of_isUnnumbered (hnumbered _ hmem)).2 rfl
    rw [hlines, List.count_append, List.count_append, count_head hbody, hnone, tail_eq]
    split <;> rfl
  · intro hsome
    rw [hlines, tail_eq, if_pos hsome, List.getLast?_concat]
  · have hnone {l : List String} (h : ∀ line ∈ l, isEndCode line = false) : l.countP isEndCode = 0 :=
      List.countP_eq_zero.mpr fun line hline => by simp [h line hline]
    rw [← List.append_assoc, List.countP_append, List.countP_cons_of_pos hcode, hnone hbefore, hnone hbehind, if_pos hc]
  · intro front' code' rest h hcode'
    exact (hsplit hcode' h).2.2
  · intro front' rest h
    obtain ⟨hfront', hcode', -⟩ := hsplit rfl h
    obtain ⟨up, rfl, hup⟩ := hraise hcode'.symm
    exact ⟨_, up, hfront', hup⟩

/-- What is laid out has the shape. -/
theorem LaidOut.shaped (h : p.LaidOut name IsRaise raw) : p.Shaped name IsRaise raw := by
  obtain ⟨body, closing, rfl, hbody, hclosing⟩ := h
  cases hclosing with
  | opened ho =>
      rw [List.append_nil]
      exact shaped_of_open hbody ho
  | closed hc hend => exact shaped_of_closed hbody hc hend

/-! ### New programs -/

variable [DigitLimit]

/-- A new program is laid out, and its mode is that of its lines. -/
theorem laidOut_opened (c : Config) (name : String) (IsRaise : String → Prop) :
    (opened c name).LaidOut name IsRaise (c.headLines name) := by
  refine ⟨[(LengthUnit.code c.unit).toWord, c.mode.code.toWord, c.motionText c.raise, c.motionText c.approach], [],
    ?_, ?_, .opened (isOpen_opened c name)⟩
  · rw [Config.headLines_eq]
    rfl
  · intro line hline
    simp only [List.mem_cons, List.not_mem_nil, or_false] at hline
    rcases hline with rfl | rfl | rfl | rfl
    · exact .code _
    · exact .code _
    · exact .motion _ _
    · exact .motion _ _

theorem modeRead_opened (c : Config) (name : String) : (opened c name).ModeRead (c.headLines name) := by
  have htitle : modeOf? (nameLetter ++ name) = none := by
    have hne {code : String} (hcode : code.toList.head? = some 'G') : nameLetter ++ name ≠ code := by
      intro heq
      have hhead := head?_title name
      rw [heq, hcode] at hhead
      cases hhead
    rw [modeOf?, if_neg (hne rfl), if_neg (hne rfl)]
  have hunit : modeOf? (LengthUnit.code c.unit).toWord = none := by
    unfold LengthUnit.code
    split <;> rfl
  have hmotion (m : Motion) : modeOf? (c.motionText m) = none := m.modeOf?_text _
  have hmode : (opened c name).mode = c.mode := by
    rw [opened, mode_note, mode_append, mode_append, headed, mode_inMode]
    rfl
  have hmarker : modeOf? openMarker = none := rfl
  rw [ModeRead, Config.headLines_eq, hmode]
  simp [hmarker, htitle, hunit, hmotion, c.mode.modeOf?_code]

end Program

section

variable [DigitLimit]

namespace Call

/-- The line raises the mill to the clearance that an open program has at some point of a
history of calls. -/
def RaisesDuring (calls : List Call) (p : Program) (line : String) : Prop :=
  ∃ pre post, calls = pre ++ post ∧ (runAll pre p).phase = .opened
    ∧ line = (runAll pre p).raise.text (runAll pre p).factor

/-- **The shape of a program.**  Whatever is called on a new program, short of plain lines, its
lines read without numbers have the shape of a program, and where no mode is assigned the
mode is that of the last line that switches it. -/
theorem shaped_runAll {c : Config} {names : NameSource} {p : Program} (h : (Program.openNext c names).1 = .ok p)
    {calls : List Call} (hc : ∀ d ∈ calls, d.isAddition = false) :
    let q := runAll calls p
    let raw := rawLines c.lineNumbering q.lines.toList
    q.Shaped (c.nextName names).1 (RaisesDuring calls p) raw
    ∧ ((∀ m, .assign (.mode m) ∉ calls) → (raw.filterMap modeOf?).getLast? = some q.mode) := by
  obtain rfl := Program.opened_of_openNext h
  generalize (c.nextName names).1 = name
  intro q raw
  have hopen := Program.isOpen_opened c name
  have hgrown := (Program.grown_opened c name).trans (recorded_runAll hopen.consistent calls).toGrown
  have hlines : q.lines.toList = entries (if c.lineNumbering then 1 else 0)
      (c.headLines name ++ acceptedAll calls (Program.opened c name)) := hgrown.lines
  have hraw : raw = c.headLines name ++ acceptedAll calls (Program.opened c name) := by
    show rawLines c.lineNumbering q.lines.toList = _
    rw [hlines, rawLines_entries]
  have hmoves : Moves (RaisesDuring calls (Program.opened c name)) (∃ m, .assign (.mode m) ∈ calls)
      (Program.opened c name) (acceptedAll calls (Program.opened c name)) q := by
    refine moves_runAll hc hopen.consistent (Program.follows_opened c name).strays ?_ fun m hm => ⟨m, hm⟩
    intro pre post hsplit hphase up hup
    exact ⟨pre, post, hsplit, hphase, Program.millMotion_eq_ok hup⟩
  rw [hraw]
  refine ⟨(hmoves.laidOut (Program.laidOut_opened c name _)).shaped, ?_⟩
  intro hno
  exact hmoves.modeRead (fun ⟨m, hm⟩ => hno m hm) (Program.modeRead_opened c name)

end Call

end

/-- A switch of the mode, a cut, an evaluation and what is refused after it. -/
theorem Call.shaped_runAll_of_cut :
    let c : Config := { Config.standard with name := some "7" }
    let p := Program.opened c "7"
    let calls : List Call :=
      [.setMode (.text "relative"), .linearMove (.tuple [.int 1]) .null, .eval, .stopSpindle, .eval]
    let raw := rawLines true (runAll calls p).lines.toList
    (Program.openNext c .standard).1 = .ok p ∧ (∀ d ∈ calls, d.isAddition = false)
    ∧ (runAll calls p).Shaped "7" (RaisesDuring calls p) raw
    ∧ (raw.filterMap modeOf?).getLast? = some (runAll calls p).mode := by
  intro c p calls raw
  have h : (Program.openNext c .standard).1 = .ok p :=
    Program.openNext_of_isFinite rfl (by decide +kernel) (by decide +kernel)
  have hc : ∀ d ∈ calls, d.isAddition = false := by
    intro d hd
    simp only [calls, List.mem_cons, List.not_mem_nil, or_false] at hd
    rcases hd with rfl | rfl | rfl | rfl | rfl <;> rfl
  obtain ⟨hshape, hmode⟩ := shaped_runAll h hc
  exact ⟨h, hc, hshape, hmode fun m hm => by simp [calls] at hm⟩

end PartProgram
