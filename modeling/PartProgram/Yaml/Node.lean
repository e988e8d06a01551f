/-
The nodes of a document.

A document is read as a tree of nodes before it is known what its texts stand for.  A text in quotes stands for
itself and a plain one for whatever its spelling says.  A map may merge others: what a plain key of two angle
brackets holds is a map, or a list of maps, whose entries come before those of the map itself.
-/

namespace PartProgram.Yaml

/-- What a document is made of. -/
inductive Node where
  | plain (s : String)
  | quoted (s : String)
  | list (items : List Node)
  | map (entries : List (Node × Node))
  /-- A map that is to merge something else than maps. -/
  | unmergeable
deriving Inhabited

namespace Node

/-- The node of nothing. -/
def empty : Node := plain ""

/-- The text of the key that merges. -/
def mergeKey : String := "<<"

/-- Whether the key of an entry is the one that merges. -/
def merges (entry : Node × Node) : Bool :=
  match entry.1 with
  | plain s => s == mergeKey
  | _ => false

/-- The entries of a map. -/
def entries? : Node → Option (List (Node × Node))
  | map es => some es
  | _ => none

/-- The entries that a node gives to a map that merges it.  Of the maps in a list the first come last, so that they
prevail. -/
def mergedEntries? : Node → Option (List (Node × Node))
  | map es => some es
  | list items => (items.mapM entries?).map (·.reverse.flatten)
  | _ => none

/-- The map of the given entries, with what it merges. -/
def ofEntries (es : List (Node × Node)) : Node :=
  match (es.filter merges).mapM fun e => e.2.mergedEntries? with
  | some merged => map (merged.flatten ++ es.filter (!merges ·))
  | none => unmergeable

end Node

end PartProgram.Yaml
