import PhpScaffold.Print.Member
import PhpScaffold.Proofs.Text.Filled

namespace PhpScaffold.Print

open Text (cut trimEnd isBlank allBlank dropEndWhile)

def literal (s : String) : String := "'" ++ (escapeText s ++ "'")

theorem value_text (ns : Namespace) (s : String) : value ns (.text s) = .ok (literal s) := by
  rw [value, literal, ← String.append_assoc]
  rfl

def readInside : List Char → Option (List Char × List Char)
  | [] => none
  | '\'' :: r => some ([], r)
  | '\\' :: '\\' :: r => (readInside r).map fun p => ('\\' :: p.1, p.2)
  | '\\' :: '\'' :: r => (readInside r).map fun p => ('\'' :: p.1, p.2)
  | c :: r => (readInside r).map fun p => (c :: p.1, p.2)

def readLiteral (s : String) : Option (String × String) :=
  match s.toList with
  | '\'' :: r => (readInside r).map fun p => (.ofList p.1, .ofList p.2)
  | _ => none

def escapeChar (c : Char) : List Char := if c = '\\' ∨ c = '\'' then ['\\', c] else [c]

variable {c : Char} {s : String} {t : List Char}

theorem toList_escapeText (s : String) : (escapeText s).toList = s.toList.flatMap escapeChar := by
  rw [escapeText, String.toList_ofList]
  rfl

theorem escapeChar_of_ne (h₁ : c ≠ '\\') (h₂ : c ≠ '\'') : escapeChar c = [c] := by
  simp [escapeChar, h₁, h₂]

theorem escapeChar_cases (c : Char) :
    (c = '\\' ∨ c = '\'') ∧ escapeChar c = ['\\', c] ∨ escapeChar c = [c] := by
  unfold escapeChar
  split
  · exact .inl ⟨‹_›, rfl⟩
  · exact .inr rfl

theorem readInside_cons (h₁ : c ≠ '\\') (h₂ : c ≠ '\'') (r : List Char) :
    readInside (c :: r) = (readInside r).map fun p => (c :: p.1, p.2) := by
  conv_lhs => unfold readInside
  split <;> simp_all

theorem readInside_escaped (t rest : List Char) :
    readInside (t.flatMap escapeChar ++ '\'' :: rest) = some (t, rest) := by
  induction t with
  | nil => rfl
  | cons c r ih =>
    rw [List.flatMap_cons, List.append_assoc]
    by_cases slash : c = '\\'
    · subst slash
      simp [escapeChar, readInside, ih]
    by_cases quote : c = '\''
    · subst quote
      simp [escapeChar, readInside, ih]
    · rw [escapeChar_of_ne slash quote, List.singleton_append, readInside_cons slash quote, ih]
      rfl

theorem readLiteral_literal (s rest : String) : readLiteral (literal s ++ rest) = some (s, rest) := by
  have shown : (literal s ++ rest).toList = '\'' :: (s.toList.flatMap escapeChar ++ '\'' :: rest.toList) := by
    simp [literal, toList_escapeText]
  rw [readLiteral, shown]
  simp [readInside_escaped]

@[simp] theorem escapeText_append (s t : String) : escapeText (s ++ t) = escapeText s ++ escapeText t := by
  rw [← String.toList_inj]
  simp [toList_escapeText]

@[simp] theorem escapeText_empty : escapeText "" = "" := by decide

theorem escapeText_eq_empty : escapeText s = "" ↔ s = "" := by
  rw [← String.toList_eq_nil_iff, toList_escapeText, List.flatMap_eq_nil_iff, ← String.toList_eq_nil_iff]
  constructor
  · intro none
    rw [List.eq_nil_iff_forall_not_mem]
    intro c hc
    have some := none c hc
    unfold escapeChar at some
    split at some <;> cases some
  · intro empty
    simp [empty]

theorem escapeText_ofList (t : List Char) : escapeText (.ofList t) = .ofList (t.flatMap escapeChar) := by
  rw [escapeText, String.toList_ofList]
  rfl

theorem splitOn_escaped (h₁ : c ≠ '\\') (h₂ : c ≠ '\'') (t : List Char) :
    (t.flatMap escapeChar).splitOn c = (t.splitOn c).map (List.flatMap escapeChar) := by
  induction t with
  | nil => simp
  | cons d r ih =>
    obtain ⟨first, rest, pieces⟩ := List.exists_cons_of_ne_nil (List.splitOn_ne_nil c r)
    rw [pieces] at ih
    rw [List.flatMap_cons]
    obtain ⟨special, written⟩ | written := escapeChar_cases d
    · have other : d ≠ c := by
        rintro rfl
        exact special.elim h₁ h₂
      simp [written, List.splitOn_cons_eq_if_modifyHead, ih, pieces, other, Ne.symm h₁]
    · rw [written, List.singleton_append]
      by_cases same : d = c <;> simp [List.splitOn_cons_eq_if_modifyHead, ih, pieces, same, written]

theorem cut_escapeText (s : String) : cut '\n' (escapeText s) = (cut '\n' s).map escapeText := by
  rw [cut, toList_escapeText, splitOn_escaped (by decide) (by decide), cut, List.map_map, List.map_map]
  exact List.map_congr_left fun t _ => (escapeText_ofList t).symm

theorem dropEndWhile_escaped (t : List Char) :
    dropEndWhile isBlank (t.flatMap escapeChar) = (dropEndWhile isBlank t).flatMap escapeChar := by
  induction t using List.reverseRecOn with
  | nil => rfl
  | append_singleton r c ih =>
    rw [List.flatMap_append, List.flatMap_singleton, Text.dropEndWhile_append_singleton]
    obtain ⟨special, written⟩ | written := escapeChar_cases c
    · have filled : isBlank c = false := by
        obtain rfl | rfl := special <;> decide
      have ended : r.flatMap escapeChar ++ ['\\', c] = r.flatMap escapeChar ++ ['\\'] ++ [c] := by simp
      rw [written, ended, Text.dropEndWhile_append_singleton]
      simp [filled, written]
    · rw [written, Text.dropEndWhile_append_singleton, ih]
      split
      · rfl
      · rw [List.flatMap_append, List.flatMap_singleton, written]

theorem trimEnd_escapeText (s : String) : trimEnd isBlank (escapeText s) = escapeText (trimEnd isBlank s) := by
  rw [trimEnd, toList_escapeText, dropEndWhile_escaped, trimEnd, escapeText_ofList]

theorem allBlank_escapeText (s : String) : allBlank (escapeText s) = allBlank s := by
  rw [allBlank, toList_escapeText, List.all_flatMap, allBlank]
  congr 1
  funext c
  obtain ⟨rfl | rfl, written⟩ | written := escapeChar_cases c
  all_goals simp +decide [written]

theorem replace_escapeText (s : String) :
    Text.replace '\n' ' ' (escapeText s) = escapeText (Text.replace '\n' ' ' s) := by
  rw [← String.toList_inj, Text.replace, String.toList_map, toList_escapeText, toList_escapeText, Text.replace,
    String.toList_map, List.map_flatMap, List.flatMap_map]
  apply List.flatMap_congr
  intro c _
  by_cases feed : c = '\n'
  · subst feed
    decide
  · obtain ⟨rfl | rfl, written⟩ | written := escapeChar_cases c
    · decide
    · decide
    · simp [written, feed]

end PhpScaffold.Print
