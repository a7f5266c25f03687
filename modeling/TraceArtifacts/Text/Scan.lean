/-!
# Scanning texts

Left-to-right scans over texts as lists of characters: where a pattern first occurs, its non-overlapping occurrences, replacement of
all of them, cutting at a separator.
-/

namespace TraceArtifacts.Text

def indexOf? (t : List Char) : List Char → Option Nat
  | [] => if t.isEmpty then some 0 else none
  | c :: cs => if t.isPrefixOf (c :: cs) then some 0 else (indexOf? t cs).map (· + 1)

def occurs (t s : List Char) : Bool := (indexOf? t s).isSome

def nthFrom (t : List Char) : Nat → Nat → List Char → Option Nat
  | 0, offset, s => (indexOf? t s).map (offset + ·)
  | n + 1, offset, s =>
      match indexOf? t s with
      | none => none
      | some i => nthFrom t n (offset + i + t.length) (s.drop (i + t.length))

def findNth (t s : List Char) (n : Int) : Option Nat :=
  if t.isEmpty then some 0 else nthFrom t (n - 1).toNat 0 s

def countFrom (t : List Char) : Nat → List Char → Nat
  | _, [] => 0
  | skip + 1, _ :: cs => countFrom t skip cs
  | 0, c :: cs =>
      if t.isPrefixOf (c :: cs) then countFrom t (t.length - 1) cs + 1 else countFrom t 0 cs

def count (t s : List Char) : Nat := if t.isEmpty then s.length + 1 else countFrom t 0 s

def replaceFrom (old new : List Char) : Nat → List Char → List Char
  | _, [] => []
  | skip + 1, _ :: cs => replaceFrom old new skip cs
  | 0, c :: cs =>
      if old.isPrefixOf (c :: cs) then new ++ replaceFrom old new (old.length - 1) cs
      else c :: replaceFrom old new 0 cs

def replace (old new s : List Char) : List Char := replaceFrom old new 0 s

def cut (sep : Char) : List Char → List (List Char)
  | [] => [[]]
  | c :: cs =>
      if c = sep then [] :: cut sep cs
      else match cut sep cs with
        | part :: parts => (c :: part) :: parts
        | [] => [[c]]

def fromPosition : Option Nat → List Char → List Char
  | some i, s => s.drop i
  | none, s => s.drop (s.length - 1)

end TraceArtifacts.Text

namespace TraceArtifacts

def containsText (s t : String) : Bool := Text.occurs t.toList s.toList

def replaceText (s old new : String) : String :=
  String.ofList (Text.replace old.toList new.toList s.toList)

def cutText (sep : Char) (s : String) : List String := (Text.cut sep s.toList).map String.ofList

def sortTexts (xs : List String) : List String := xs.mergeSort fun a b => decide (a ≤ b)

def startsWithText (s t : String) : Bool := t.toList.isPrefixOf s.toList

end TraceArtifacts
