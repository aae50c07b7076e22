import PhpScaffold.Proofs.Template.Layout
import PhpScaffold.Proofs.Text.Filled

namespace PhpScaffold

open Text (IsPlain ArePlain filledLines)

namespace Template

variable {docblock header : String} {attributes sections comment : List String} {scopes : List Scope}
  {strictTypes : Value}

theorem isPlain_elementText (front : IsPlain docblock) (lines : ArePlain attributes) (head : IsPlain header) :
    IsPlain (elementText docblock attributes header sections) := by
  have top : IsPlain (if docblock.isEmpty then "" else docblock ++ "\n") :=
    Text.isPlain_ite (by decide) (Text.isPlain_append.2 ⟨front, by decide⟩)
  have block (s : String) : IsPlain (Text.block Print.unit true false s) := Text.isPlain_block (by decide) _ _ _
  simp +decide only [elementText, Text.isPlain_append, Text.isPlain_join, Text.arePlain_map, top, head, block]
  simpa using fun t ht => lines t ht

theorem filledLines_if_ended (s t : String) :
    filledLines ((if s.isEmpty then "" else s ++ "\n") ++ t) = filledLines s ++ filledLines t := by
  split
  · simp_all
  · rw [String.append_assoc, Text.filledLines_append_break]

theorem filledLines_elementText (plain : ArePlain sections) :
    filledLines (elementText docblock attributes header sections) =
      filledLines docblock ++ attributes.flatMap filledLines ++ filledLines header ++ ["\x7b"] ++
        sections.flatMap (fun s => (filledLines s).map (Print.unit ++ ·)) ++ ["\x7d"] := by
  have opened (t : String) : "\n\x7b\n" ++ t = "\n" ++ ("\x7b" ++ ("\n" ++ t)) := by
    rw [← String.append_assoc, ← String.append_assoc]
    rfl
  have apart (s : String) : Text.block Print.unit true false s ++ "\n\n" =
      Text.block Print.unit true false s ++ "\n" ++ "\n" := by
    rw [String.append_assoc]
    rfl
  have shifted : ∀ s ∈ sections, filledLines (Text.block Print.unit true false s ++ "\n") =
      (filledLines s).map (Print.unit ++ ·) := by
    intro s hs
    rw [Text.filledLines_ended, Text.filledLines_block (by decide +kernel) (by decide) (plain s hs)]
  have brace : filledLines "\x7b" = ["\x7b"] := by decide +kernel
  have closing : filledLines "\x7d" = ["\x7d"] := by decide +kernel
  rw [elementText, filledLines_if_ended, Text.filledLines_join (f := fun t => t) fun _ => rfl, opened,
    Text.filledLines_append_break, Text.filledLines_append_break, Text.filledLines_join apart,
    List.flatMap_congr shifted, brace, closing]
  simp only [List.append_assoc]

namespace Scope

def lines (s : Scope) : List String :=
  (if s.name.truthy then filledLines ("namespace " ++ s.name.display ++ ";") else []) ++
    s.uses.flatMap (fun u => filledLines ("use " ++ u ++ ";")) ++ s.elements.flatMap filledLines

structure IsPlain (s : Scope) : Prop where
  name : Text.IsPlain s.name.display
  uses : ArePlain s.uses
  elements : ArePlain s.elements

theorem IsPlain.text {s : Scope} (h : s.IsPlain) : Text.IsPlain s.text := by
  have heading : Text.IsPlain (if s.name.truthy then "\nnamespace " ++ (s.name.display ++ ";\n") else "") :=
    Text.isPlain_ite (by simp +decide [h.name]) (by decide)
  have uses : ArePlain (s.uses.map fun u => "use " ++ (u ++ ";\n")) :=
    Text.arePlain_map.2 fun u hu => by simp +decide [h.uses u hu]
  have imports : Text.IsPlain (if s.uses.isEmpty then "" else
      "\n" ++ String.join (s.uses.map fun u => "use " ++ (u ++ ";\n"))) :=
    Text.isPlain_ite (by decide) (Text.isPlain_append.2 ⟨by decide, Text.isPlain_join.2 uses⟩)
  have elements : ArePlain (s.elements.map fun e => "\n" ++ (e ++ "\n")) :=
    Text.arePlain_map.2 fun e he => by simp +decide [h.elements e he]
  exact Text.isPlain_append.2 ⟨heading, Text.isPlain_append.2 ⟨imports, Text.isPlain_join.2 elements⟩⟩

theorem filledLines_text (s : Scope) (t : String) : filledLines (s.text ++ t) = s.lines ++ filledLines t := by
  have ended (u : String) : u ++ ";\n" = u ++ ";" ++ "\n" := by
    rw [String.append_assoc]
    rfl
  have heading (t : String) :
      filledLines ((if s.name.truthy then "\nnamespace " ++ (s.name.display ++ ";\n") else "") ++ t) =
        (if s.name.truthy then filledLines ("namespace " ++ s.name.display ++ ";") else []) ++ filledLines t := by
    split
    · have line : "\nnamespace " ++ (s.name.display ++ ";\n") ++ t =
          "\n" ++ ("namespace " ++ s.name.display ++ ";" ++ ("\n" ++ t)) := by
        rw [show "\nnamespace " = "\n" ++ "namespace " by decide, ended]
        simp only [String.append_assoc]
      rw [line, Text.filledLines_break, Text.filledLines_append_break]
    · simp
  have imports (t : String) : filledLines ((if s.uses.isEmpty then "" else
      "\n" ++ String.join (s.uses.map fun u => "use " ++ (u ++ ";\n"))) ++ t) =
      s.uses.flatMap (fun u => filledLines ("use " ++ u ++ ";")) ++ filledLines t := by
    have line (u : String) : "use " ++ (u ++ ";\n") = "use " ++ u ++ ";" ++ "\n" := by
      rw [ended]
      simp only [String.append_assoc]
    split
    · simp_all
    · rw [String.append_assoc, Text.filledLines_break, Text.filledLines_join line]
  have declared (t : String) : filledLines (String.join (s.elements.map fun e => "\n" ++ (e ++ "\n")) ++ t) =
      s.elements.flatMap filledLines ++ filledLines t := by
    rw [Text.filledLines_join (f := ("\n" ++ ·)) fun e => String.append_assoc.symm]
    simp only [Text.filledLines_break]
  rw [text, String.append_assoc, String.append_assoc, heading, imports, declared, lines, List.append_assoc,
    List.append_assoc]

end Scope

theorem isPlain_fileText (lines : ArePlain comment) (plain : ∀ s ∈ scopes, s.IsPlain) :
    IsPlain (fileText comment strictTypes scopes) := by
  have block : IsPlain (if comment.isEmpty then "" else
      "\n/**\n" ++ (String.join (comment.map fun l => " * " ++ (l ++ "\n")) ++ " */\n")) := by
    have listed : ArePlain (comment.map fun l => " * " ++ (l ++ "\n")) :=
      Text.arePlain_map.2 fun l hl => by simp +decide [lines l hl]
    exact Text.isPlain_ite (by decide) (by simp +decide only [Text.isPlain_append, Text.isPlain_join, listed])
  have declared : IsPlain (if strictTypes.truthy then "\ndeclare(strict_types=1);\n" else "") :=
    Text.isPlain_ite (by decide) (by decide)
  have all : ArePlain (scopes.map Scope.text) := Text.arePlain_map.2 fun s hs => (plain s hs).text
  simp +decide only [fileText, Text.isPlain_append, Text.isPlain_join, block, declared, all]

theorem filledLines_opening : filledLines "/**" = ["/**"] := by decide +kernel

theorem filledLines_closing : filledLines " */" = [" */"] := by decide +kernel

theorem filledLines_docblock (ls : List String) : filledLines (Print.docblock ls) =
    if ls.isEmpty then [] else ["/**"] ++ ls.flatMap (fun l => filledLines (" * " ++ l)) ++ [" */"] := by
  have line (l : String) : filledLines (if l.isEmpty then " *" else " * " ++ l) = filledLines (" * " ++ l) := by
    split
    · simp_all
      decide +kernel
    · rfl
  rw [Print.docblock]
  split
  · exact Text.filledLines_empty
  · rw [show "/**\n" = "/**" ++ "\n" by decide, show "\n */" = "\n" ++ " */" by decide]
    simp only [String.append_assoc, Text.filledLines_append_break, Text.filledLines_intercalate, List.flatMap_map, line,
      filledLines_opening, filledLines_closing, List.append_assoc]

theorem filledLines_fileText : filledLines (fileText comment strictTypes scopes) =
    ["<?php"] ++ filledLines (Print.docblock comment) ++
      (if strictTypes.truthy then ["declare(strict_types=1);"] else []) ++ scopes.flatMap Scope.lines := by
  have block (t : String) : filledLines ((if comment.isEmpty then "" else
      "\n/**\n" ++ (String.join (comment.map fun l => " * " ++ (l ++ "\n")) ++ " */\n")) ++ t) =
      filledLines (Print.docblock comment) ++ filledLines t := by
    rw [filledLines_docblock]
    split
    · simp
    · rw [show "\n/**\n" = "\n" ++ ("/**" ++ "\n") by decide, show " */\n" = " */" ++ "\n" by decide]
      simp only [String.append_assoc, Text.filledLines_append_break, Text.filledLines_break]
      rw [Text.filledLines_join (f := (" * " ++ ·)) fun l => String.append_assoc.symm, Text.filledLines_append_break,
        filledLines_opening, filledLines_closing]
      simp only [List.append_assoc]
  have declared (t : String) : filledLines ((if strictTypes.truthy then "\ndeclare(strict_types=1);\n" else "") ++ t) =
      (if strictTypes.truthy then ["declare(strict_types=1);"] else []) ++ filledLines t := by
    split
    · have line : filledLines "declare(strict_types=1);" = ["declare(strict_types=1);"] := by decide +kernel
      rw [show "\ndeclare(strict_types=1);\n" = "\n" ++ ("declare(strict_types=1);" ++ "\n") by decide]
      simp only [String.append_assoc, Text.filledLines_append_break, Text.filledLines_break, line]
    · simp
  have all (ss : List Scope) : filledLines (String.join (ss.map Scope.text)) = ss.flatMap Scope.lines := by
    induction ss with
    | nil => exact Text.filledLines_empty
    | cons s r ih => rw [List.map_cons, String.join_cons, Scope.filledLines_text, ih, List.flatMap_cons]
  have tag : filledLines "<?php" = ["<?php"] := by decide +kernel
  rw [fileText, show "<?php\n" = "<?php" ++ "\n" by decide, String.append_assoc, Text.filledLines_append_break, block,
    declared, all, tag]
  simp only [List.append_assoc]

end Template

end PhpScaffold
