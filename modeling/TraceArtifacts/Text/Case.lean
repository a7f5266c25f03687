import TraceArtifacts.Text.CaseTable

/-!
# Capital, small and title case

Case mappings of whole texts.
-/

namespace TraceArtifacts.Text

def isCased (c : Char) : Bool :=
  if c.val < 128 then c.isAlpha else inRuns c.toNat casedRuns

def isCaseIgnorable (c : Char) : Bool := inRuns c.toNat caseIgnorableRuns

def upperChar (c : Char) : List Char :=
  if c.val < 128 then [c.toUpper]
  else match upperExpansions.lookup c.toNat with
    | some ns => ns.map Char.ofNat
    | none => [((shiftBy upperRuns c.toNat).map Char.ofNat).getD c]

def lowerChar (c : Char) : List Char :=
  if c.val < 128 then [c.toLower]
  else match lowerExpansions.lookup c.toNat with
    | some ns => ns.map Char.ofNat
    | none => [((shiftBy lowerRuns c.toNat).map Char.ofNat).getD c]

def titleChar (c : Char) : List Char :=
  if c.val < 128 then [c.toUpper]
  else match titleForms.lookup c.toNat with
    | some ns => ns.map Char.ofNat
    | none => upperChar c

def endsWord (before after : List Char) : Bool :=
  ((before.dropWhile isCaseIgnorable).head?.map isCased).getD false &&
    !((after.dropWhile isCaseIgnorable).head?.map isCased).getD false

def lowerBetween (before : List Char) (c : Char) (after : List Char) : List Char :=
  if c = 'Σ' then [if endsWord before after then 'ς' else 'σ'] else lowerChar c

def lowerFrom (before : List Char) : List Char → List Char
  | [] => []
  | c :: cs => lowerBetween before c cs ++ lowerFrom (c :: before) cs

def titleFrom (before : List Char) : List Char → List Char
  | [] => []
  | c :: cs =>
      (if (before.head?.map isCased).getD false then lowerBetween before c cs else titleChar c) ++
        titleFrom (c :: before) cs

def upper (s : List Char) : List Char := s.flatMap upperChar

def lower (s : List Char) : List Char := lowerFrom [] s

def title (s : List Char) : List Char := titleFrom [] s

end TraceArtifacts.Text

namespace TraceArtifacts

def upperText (s : String) : String := String.ofList (Text.upper s.toList)

def lowerText (s : String) : String := String.ofList (Text.lower s.toList)

def titleText (s : String) : String := String.ofList (Text.title s.toList)

end TraceArtifacts
