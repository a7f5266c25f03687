import TraceArtifacts.Text.Alphanumeric

/-!
# Words

A text occurs as a word where both its ends lie on the edge of a word: a place where a word
character meets another character, or the end of the text.
-/

namespace TraceArtifacts.Text

def startsInWord (s : List Char) : Bool := (s.head?.map isWordChar).getD false

def isWordAt (word : List Char) (inWord : Bool) (s : List Char) : Bool :=
  (inWord != startsInWord s) && word.isPrefixOf s &&
    (((word.getLast?.map isWordChar).getD inWord) != startsInWord (s.drop word.length))

def countWordsFrom (word : List Char) : Bool → Nat → List Char → Nat
  | inWord, 0, [] => if isWordAt word inWord [] then 1 else 0
  | _, _ + 1, [] => 0
  | _, skip + 1, c :: cs => countWordsFrom word (isWordChar c) skip cs
  | inWord, 0, c :: cs =>
      if isWordAt word inWord (c :: cs) then
        countWordsFrom word (isWordChar c) (word.length - 1) cs + 1
      else countWordsFrom word (isWordChar c) 0 cs

def countWords (word s : List Char) : Nat := countWordsFrom word false 0 s

def alphanumerics (s : List Char) : List Char := s.filter isAlphanumeric

end TraceArtifacts.Text

namespace TraceArtifacts

def plainText (s : String) : String := String.ofList (Text.alphanumerics s.toList)

end TraceArtifacts
