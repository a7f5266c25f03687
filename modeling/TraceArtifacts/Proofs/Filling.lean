import TraceArtifacts.Layers
import Mathlib.Data.List.Basic

/-!
# Proofs: filling templates

Text without braces stands for itself, and a field without a name takes the next argument.
-/

namespace TraceArtifacts

namespace Text

theorem fillFrom_plain (inner : Numbering → List Char → Outcome (List Char × Numbering)) (args : List Value)
    {cs : List Char} (hcs : '\x7b' ∉ cs ∧ '\x7d' ∉ cs) (fuel : Nat) (numbering : Numbering) (rest : List Char) :
    fillFrom inner args (cs.length + fuel) numbering (cs ++ rest) = (do
      let (out, numbering) ← fillFrom inner args fuel numbering rest
      return (cs ++ out, numbering)) := by
  induction cs with
  | nil =>
    simp only [List.length_nil, Nat.zero_add, List.nil_append]
    cases fillFrom inner args fuel numbering rest <;> rfl
  | cons c cs ih =>
    obtain ⟨hopen, hclose⟩ := hcs
    rw [List.mem_cons, not_or] at hopen hclose
    have hlen : (c :: cs).length + fuel = (cs.length + fuel) + 1 := by
      rw [List.length_cons]
      omega
    rw [hlen, List.cons_append, fillFrom.eq_def]
    simp only [if_neg (Ne.symm hclose.1), if_neg (Ne.symm hopen.1), ih ⟨hopen.2, hclose.2⟩]
    cases fillFrom inner args fuel numbering rest <;> rfl

def Numbering.next? : Numbering → Option Nat
  | .undecided => some 0
  | .automatic n => some n
  | .manual => none

theorem fillFrom_field (inner : Numbering → List Char → Outcome (List Char × Numbering)) {args : List Value}
    {numbering : Numbering} {n : Nat} (hn : numbering.next? = some n) {v : Value} (hv : args[n]? = some v)
    (fuel : Nat) (rest : List Char) :
    fillFrom inner args (fuel + 1) numbering ('\x7b' :: '\x7d' :: rest) = (do
      let (out, numbering) ← fillFrom inner args fuel (.automatic (n + 1)) rest
      return (v.display.toList ++ out, numbering)) := by
  have hfield : fillField inner args ⟨[], none, []⟩ numbering = .ok (v.display.toList, .automatic (n + 1)) := by
    cases numbering with
    | undecided =>
      cases hn
      simp [fillField, argumentOf, numberOf?, spelled?, hv, pick, converted, laidOut, bind, Except.bind, pure, Except.pure]
    | automatic m =>
      cases hn
      simp [fillField, argumentOf, numberOf?, spelled?, hv, pick, converted, laidOut, bind, Except.bind, pure, Except.pure]
    | manual => cases hn
  rw [fillFrom, if_neg (by decide), if_pos rfl]
  have hread : readField ('\x7d' :: rest) = .ok (⟨[], none, []⟩, rest) := rfl
  simp only [hread, bind, Except.bind, hfield]
  rfl

end Text

def keepText (table interface : String) : String :=
  "TRUNCATE TABLE " ++ table ++ "; \nINSERT INTO " ++ table ++ " SELECT * FROM :" ++ interface ++ ";"

theorem fillWith_outputTemplate (table interface : Value) : fillWith (.text outputTemplate) (.ok (.list [table, table, interface])) =
      .ok (keepText table.display interface.display) := by
  have htemplate : outputTemplate.toList = "TRUNCATE TABLE ".toList ++ ('\x7b' :: '\x7d' ::
      ("; \nINSERT INTO ".toList ++ ('\x7b' :: '\x7d' ::
        (" SELECT * FROM :".toList ++ ('\x7b' :: '\x7d' :: (";".toList ++ [])))))) := by decide +kernel
  -- each field takes one unit of fuel less than it has characters, so some are left at the end
  have hfuel : outputTemplate.toList.length = "TRUNCATE TABLE ".toList.length +
      (("; \nINSERT INTO ".toList.length + ((" SELECT * FROM :".toList.length +
        ((";".toList.length + 3) + 1)) + 1)) + 1) := by decide +kernel
  have hfill : Text.fill outputTemplate.toList [table, table, interface] = .ok ("TRUNCATE TABLE ".toList ++
      table.display.toList ++ "; \nINSERT INTO ".toList ++ table.display.toList ++ " SELECT * FROM :".toList ++
      interface.display.toList ++ ";".toList) := by
    unfold Text.fill Text.fillNested
    rw [hfuel, htemplate, Text.fillFrom_plain _ _ (by decide +kernel),
      Text.fillFrom_field _ (n := 0) rfl (v := table) rfl, Text.fillFrom_plain _ _ (by decide +kernel),
      Text.fillFrom_field _ (n := 1) rfl (v := table) rfl, Text.fillFrom_plain _ _ (by decide +kernel),
      Text.fillFrom_field _ (n := 2) rfl (v := interface) rfl, Text.fillFrom_plain _ _ (by decide +kernel)]
    simp [Text.fillFrom, bind, Except.bind, pure, Except.pure]
  have htext : fillTemplate outputTemplate [table, table, interface] = .ok (keepText table.display interface.display) := by
    unfold fillTemplate
    rw [hfill]
    simp only [← String.toList_append]
    exact congrArg Except.ok (String.ofList_toList ..)
  exact htext

theorem fillWith_single {a b : String} (hplain : ∀ s ∈ [a, b], '\x7b' ∉ s.toList ∧ '\x7d' ∉ s.toList) (v : Value) :
    fillWith (.text (a ++ "\x7b\x7d" ++ b)) (.ok (.list [v])) = .ok (a ++ v.display ++ b) := by
  have htemplate : (a ++ "\x7b\x7d" ++ b).toList = a.toList ++ ('\x7b' :: '\x7d' :: (b.toList ++ [])) := by simp
  have hfuel : (a ++ "\x7b\x7d" ++ b).toList.length = a.toList.length + ((b.toList.length + 1) + 1) := by
    rw [htemplate]
    simp
  have hfill : Text.fill (a ++ "\x7b\x7d" ++ b).toList [v] = .ok (a ++ v.display ++ b).toList := by
    unfold Text.fill Text.fillNested
    rw [hfuel, htemplate, Text.fillFrom_plain _ _ (hplain a (.head _)), Text.fillFrom_field _ (n := 0) rfl (v := v) rfl,
      Text.fillFrom_plain _ _ (hplain b (.tail _ (.head _)))]
    simp [Text.fillFrom, bind, Except.bind, pure, Except.pure]
  have htext : fillTemplate (a ++ "\x7b\x7d" ++ b) [v] = .ok (a ++ v.display ++ b) := by
    unfold fillTemplate
    rw [hfill]
    exact congrArg Except.ok (String.ofList_toList ..)
  exact htext

def readText (name table : String) : String := name ++ " = select * from " ++ table ++ ";"

theorem fillWith_inputTemplate {name : String} (hname : '\x7b' ∉ name.toList ∧ '\x7d' ∉ name.toList) (table : Value) :
    fillWith (.text (inputTemplate name)) (.ok (.list [table])) = .ok (readText name table.display) := by
  have htemplate : inputTemplate name = (name ++ " = select * from ") ++ "\x7b\x7d" ++ ";" := by
    apply String.toList_inj.1
    simp [inputTemplate]
  rw [htemplate]
  refine fillWith_single (fun s hs => ?_) table
  simp only [List.mem_cons, List.not_mem_nil, or_false] at hs
  rcases hs with rfl | rfl
  · simpa using hname
  · decide

end TraceArtifacts
