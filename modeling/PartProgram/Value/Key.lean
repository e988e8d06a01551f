/-
Values as keys.

What is looked up in a table must be a value that cannot change.  Lists and maps can, and so can a tuple or a
position that holds one.
-/
import PartProgram.Value.Basic

namespace PartProgram

/-- A value that cannot be a key, known by the kind of the first part of it that can change. -/
structure UnfitKey where
  kind : String
deriving DecidableEq, Repr

/-- What went wrong, in words. -/
def UnfitKey.message (e : UnfitKey) : String := "unhashable type: '" ++ e.kind ++ "'"

namespace Value

mutual

/-- The kind of the first part of a value that can change. -/
def changeable? : Value → Option String
  | list _ => some "list"
  | map _ => some "dict"
  | tuple items => changeableItem? items
  | position x y z => (changeable? x).or ((changeable? y).or (changeable? z))
  | _ => none

/-- The same for the first item of a list that has such a part. -/
def changeableItem? : List Value → Option String
  | [] => none
  | v :: rest => (changeable? v).or (changeableItem? rest)

end

/-- Refuses a value that cannot be a key. -/
def checkKey (v : Value) : Except UnfitKey Unit :=
  match v.changeable? with
  | some kind => .error ⟨kind⟩
  | none => .ok ()

@[simp]
theorem checkKey_text (s : String) : (text s).checkKey = .ok () := rfl

end Value

end PartProgram
